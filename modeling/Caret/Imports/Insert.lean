import Caret.Imports.Position
import Caret.Imports.Request

/-!
# Inserting an import

Carrying out a request on the text of a script. An import that is already there is left alone. A name
from a module that is imported from on a single plain line is added to that line; everything else
becomes a line of its own. A script that is not well formed is edited all the same, as lines.
-/

namespace Caret.Imports

/-- What came of a request. -/
inductive Status where
  | updated
  | already
  | error
  deriving DecidableEq

/-- The text after a request was carried out, and what came of it. -/
structure Edit where
  text : Text
  status : Status
  deriving DecidableEq

/-- Puts a line behind a number of lines. A last line without its end gets one. -/
def insertLine (source : Text) (index : Nat) (line : Text) : Text :=
  let lines := Text.lines source
  let lines :=
    match lines.getLast? with
    | some last =>
      if !(Text.endsWith last ['\n'] || Text.endsWith last ['\r']) && lines.length ≤ index then
        lines.dropLast ++ [last ++ ['\n']]
      else lines
    | none => lines
  (lines.take index).flatten ++ line ++ (lines.drop index).flatten

/-- A line of imports from a module with one more name at the end of its code, before a comment. -/
def extendLine (raw token : Text) : Option Text :=
  let body := Text.lineBody raw
  let ending := raw.drop body.length
  let ending := if ending.isEmpty then ['\n'] else ending
  if body.any fun c => c == '(' || c == ')' || c == '\\' then none
  else
    let code := Text.beforeFirst '#' body
    let comment := body.drop code.length
    let comment := if comment.isEmpty then [] else ' ' :: comment
    some (Text.trimEnd code ++ ", ".toList ++ token ++ comment ++ ending)

/-- The script with one more name in a statement that imports from a module, if the statement stands
on a single plain line. -/
def extendStatement (source : Text) (statement : Script.Statement) (token : Text) : Option Text :=
  if statement.firstLine ≠ statement.lastLine then none
  else
    let lines := Text.lines source
    let index := statement.firstLine - 1
    match lines[index]? with
    | some raw => (extendLine raw token).map fun line => (lines.set index line).flatten
    | none => none

/-- The name that an imported name is bound to. -/
def boundTo (imported : Script.Alias) : Text :=
  match imported.bound with
  | some name => name
  | none => imported.name

/-- The name that the import of a module binds: the first part of the module, unless another is
asked for. -/
def rootOf (module : Text) : Text :=
  Text.beforeFirst '.' module

/-- Whether a statement imports a module under a name. -/
def bindsModule (module bind : Text) (statement : Script.Statement) : Bool :=
  match statement.action with
  | .importModules modules =>
    modules.any fun a => a.name == module && (a.bound.getD (rootOf a.name)) == bind
  | _ => false

/-- The names that a statement imports from a module, if that is what it does. -/
def namesFrom? (module : Text) (statement : Script.Statement) : Option (List Script.Alias) :=
  match statement.action with
  | .importFrom 0 (some m) names => if m = module then some names else none
  | _ => none

/-- Whether a statement imports everything from a module, or something under a name. -/
def bindsMember (module bind : Text) (statement : Script.Statement) : Bool :=
  match namesFrom? module statement with
  | some names => names.any fun a => boundTo a == ['*'] || boundTo a == bind
  | none => false

/-- Adds a line with an import to a script. -/
def addLine (source : Text) (statements? : Option (List Script.Statement)) (line : Text) : Edit :=
  ⟨insertLine source (position source statements?) line, .updated⟩

/-- Imports a module, under another name if one is given. -/
def insertModule [CharacterNames] (source module bind : Text) : Edit :=
  let module := Text.trim module
  let bind := if (Text.trim bind).isEmpty then rootOf module else Text.trim bind
  if module.isEmpty then ⟨source, .error⟩
  else
    let statements? := Script.parse? source
    if (statements?.getD []).any (bindsModule module bind) then ⟨source, .already⟩
    else
      let asPart := if bind = rootOf module then [] else " as ".toList ++ bind
      addLine source statements? ("import ".toList ++ module ++ asPart ++ ['\n'])

/-- Imports a name from a module, under another name if one is given. -/
def insertMember [CharacterNames] (source module name bind : Text) : Edit :=
  let module := Text.trim module
  let name := Text.trim name
  let bind := if (Text.trim bind).isEmpty then name else Text.trim bind
  if module.isEmpty || name.isEmpty then ⟨source, .error⟩
  else
    let token := if bind = name then name else name ++ " as ".toList ++ bind
    let statements? := Script.parse? source
    let statements := statements?.getD []
    if statements.any (bindsMember module bind) then ⟨source, .already⟩
    else
      let same := statements.filter fun s => (namesFrom? module s).isSome
      match same.findSome? (extendStatement source · token) with
      | some text => ⟨text, .updated⟩
      | none =>
        addLine source statements?
          ("from ".toList ++ module ++ " import ".toList ++ token ++ ['\n'])

/-- Carries out a request. -/
def insert [CharacterNames] (source : Text) : Request → Edit
  | .ofModule name bind => insertModule source name bind
  | .ofMember module name bind => insertMember source module name bind

/-- Carries out the request that an import statement makes; any other text is refused. -/
def insertStatement [CharacterNames] (source statement : Text) : Edit :=
  match Request.read? statement with
  | some request => insert source request
  | none => ⟨source, .error⟩

/-- Where and what was inserted, if a text arises from another by one insertion. -/
def insertedSpan? (old new : Text) : Option (Nat × Text) :=
  let delta := new.length - old.length
  if delta = 0 then none
  else
    let i := commonLength old new
    if new.drop (i + delta) = old.drop i then some (i, (new.drop i).take delta) else none
where
  /-- How many characters two texts have in common at their start. -/
  commonLength : Text → Text → Nat
    | a :: as, b :: bs => if a = b then commonLength as bs + 1 else 0
    | _, _ => 0

end Caret.Imports
