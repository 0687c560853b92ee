import Caret.Line.Block
import Caret.Line.Expression

/-!
# What is being typed

The line up to the caret decides what can be completed there. Four forms are told apart, tried in
order: the module path of an import, a name imported from a module, a name by itself, and a member
behind a dot. A line that ends in a bracket, a comma, a semicolon or a space completes nothing.
-/

namespace Caret.Line

/-- The word characters right before the caret. -/
def typedToken (line : Text) : Text :=
  Text.takeEndWhile Text.isWord (Text.withoutFinalNewline line)

/-- What a line completes. -/
inductive Form where
  /-- A module path behind `import` or `from`, and the column where it starts. -/
  | package (keyword path : Text) (start : Nat)
  /-- A name imported from a module, as far as it is typed. -/
  | member (module name : Text)
  /-- A name by itself. -/
  | name (name : Text)
  /-- A member of an expression, as far as it is typed. -/
  | access (expression member : Text)
  deriving DecidableEq

/-- A caret line that completes something. `seed` is the part of the line that a completion replaces;
`prior` is the text before the line as it can be parsed, and `block` the indentation of the block
that had to be repaired for that. -/
structure Context where
  rawPrior : Text
  prior : Text
  line : Text
  seed : Text
  block : Text
  form : Form
  deriving DecidableEq

/-- The column where the replacement of the seed begins. -/
def Context.replaceStart (context : Context) : Nat :=
  context.line.length - context.seed.length

/-- Whether the text before the line had to be repaired. -/
def Context.isRepaired (context : Context) : Bool :=
  !context.block.isEmpty

/-- The characters after which nothing is completed. -/
def stops : Text := "()[]{},; ".toList

/-- Whether a line can be completed: it does not end in a character after which nothing is. -/
def isCompletable (line : Text) : Bool :=
  match line.getLast? with
  | some c => !stops.contains c
  | none => false

/-- A module path at the front of a text, and what follows it. -/
def path? (text : Text) : Option (Text × Text) :=
  if (text.head?).any Text.isNameStart then
    some (text.takeWhile isPathChar, text.dropWhile isPathChar)
  else none

/-- Takes a keyword and the blanks behind it, of which there must be one. -/
def keyword? (word : String) (text : Text) : Option Text :=
  if word.toList.isPrefixOf text then
    let rest := text.drop word.toList.length
    if (rest.head?).any Text.isBlank then some (rest.dropWhile Text.isBlank) else none
  else none

/-- A line that is blanks, a keyword, blanks and a module path. -/
def packageForm? (line : Text) : Option Form :=
  let text := (Text.withoutFinalNewline line).dropWhile Text.isBlank
  let form (word : String) : Option Form :=
    (keyword? word text).bind fun rest =>
    (path? rest).bind fun (path, after) =>
    if after.isEmpty then
      some (.package word.toList path ((Text.withoutFinalNewline line).length - path.length))
    else none
  (form "import").or (form "from")

/-- A line that imports a name from a module, up to that name. -/
def memberForm? (line : Text) : Option Form :=
  let text := (Text.withoutFinalNewline line).dropWhile Text.isBlank
  (keyword? "from" text).bind fun rest =>
  (path? rest).bind fun (module, rest) =>
  if !(rest.head?).any Text.isBlank then none
  else
    let rest := rest.dropWhile Text.isBlank
    if "import".toList.isPrefixOf rest then
      let name := (rest.drop 6).dropWhile Text.isBlank
      if name.all Text.isWord then some (.member module name) else none
    else none

/-- A line that ends in a name which no dot precedes. -/
def nameForm? (line : Text) : Option Form :=
  let text := Text.withoutFinalNewline line
  let name := typedToken line
  let before := text.take (text.length - name.length)
  if (name.head?).any Text.isNameStart && before.getLast? != some '.' then some (.name name)
  else none

/-- A line that ends in a dot behind an expression, and a member as far as it is typed. -/
def accessForm? (line : Text) : Option Form :=
  let text := Text.withoutFinalNewline line
  let member := typedToken line
  let before := text.take (text.length - member.length)
  if before.getLast? = some '.' then
    let expression := expressionAtEnd before.dropLast
    if expression.isEmpty then none else some (.access expression member)
  else none

/-- What a line completes: the first form that fits. -/
def form? (line : Text) : Option Form :=
  (packageForm? line).or ((memberForm? line).or ((nameForm? line).or (accessForm? line)))

/-- Whether a line is looked at: it can be completed, and it ends with the seed. -/
def isConsidered (line seed : Text) : Bool :=
  isCompletable line && Text.endsWith line seed

/-- What is being typed on a line, given the text before it and the part of the line that a
completion would replace. -/
def classify (prior line seed : Text) : Option Context :=
  if isConsidered line seed then
    let (prepared, block) := repair prior line
    (form? line).map fun form => ⟨prior, prepared, line, seed, block, form⟩
  else none

end Caret.Line
