import Caret.Text.Space
import Caret.Text.WordChar

/-!
# Requests for an import

What a completion asks to be imported: a module, or a name from a module, each perhaps under another
name. A request is written as the import statement that it asks for.
-/

namespace Caret.Imports

/-- A request for an import. An empty name to bind asks for the usual one. -/
inductive Request where
  | ofModule (name bind : Text)
  | ofMember (module name bind : Text)
  deriving DecidableEq

/-- Whether a word is made of word characters. -/
def isWordText (word : Text) : Bool :=
  word.all Text.isWord

/-- Whether a word is made of word characters and dots. -/
def isPathText (word : Text) : Bool :=
  word.all fun c => Text.isWord c || c == '.'

/-- Reads a request from an import statement of one name. -/
def Request.read? (statement : Text) : Option Request :=
  let isWord (word : Text) (keyword : String) := word == keyword.toList
  match Text.words statement with
  | [a, module, b, name] =>
    if isWord a "from" && isPathText module && isWord b "import" && isWordText name then
      some (.ofMember module name [])
    else if isWord a "import" && isPathText module && isWord b "as" && isWordText name then
      some (.ofModule module name)
    else none
  | [a, module, b, name, c, bind] =>
    if isWord a "from" && isPathText module && isWord b "import" && isWordText name &&
        isWord c "as" && isWordText bind then
      some (.ofMember module name bind)
    else none
  | [a, module] => if isWord a "import" && isPathText module then some (.ofModule module []) else none
  | _ => none

/-- The import statement for a qualified name: its last part from the module before it, or a module
that is not qualified. Nothing is imported for a blank name. -/
def statementFor (qualified : Text) : Text :=
  let name := Text.trim qualified
  match Text.splitLast? '.' name with
  | some (module, simple) => "from ".toList ++ module ++ " import ".toList ++ simple
  | none => if name.isEmpty then [] else "import ".toList ++ name

end Caret.Imports
