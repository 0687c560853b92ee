import Caret.Script.Literal
import Caret.Script.Parser.Statement
import Caret.Text.Entries

/-!
# The outline of a script

What a script offers to others, read from its top level statements: the names that it exports with
their kinds, and the classes that it defines. A script that is not well formed offers nothing.
-/

namespace Caret.Script

/-- What kind of thing a name is declared as. -/
inductive DeclarationKind where
  | classDefinition
  | function
  | statement
  | importation
  deriving DecidableEq

/-- The name under which a list of public names is declared. -/
def publicList : Text := "__all__".toList

/-- The names that a statement declares, all of one kind. -/
def Action.declared : Action → List Text × DeclarationKind
  | .defineClass name => ([name], .classDefinition)
  | .defineFunction name => ([name], .function)
  | .assign targets _ => (Expr.declaredAll targets, .statement)
  | .annotate target => (target.declared, .statement)
  | .importFrom _ _ names =>
    ((names.map fun a => a.bound.getD a.name).filter isName, .importation)
  | _ => ([], .statement)

/-- The names that statements declare, each with the kind of its last declaration. -/
def declarations (statements : List Statement) : Entries DeclarationKind :=
  statements.foldl (fun all statement =>
    let (names, kind) := statement.action.declared
    names.foldl (fun all name => Entries.insert name kind all) all) []

/-- Whether an expression is the name of the list of public names. -/
def Expr.isPublicList : Expr → Bool
  | .name id => id == publicList
  | _ => false

/-- The public names that statements declare in a list or tuple: the first one that is assigned,
provided that every assignment before it is a literal too. -/
def publicNames? : List Statement → Except Fault (Option (List Text))
  | [] => .ok none
  | statement :: rest =>
    match statement.action with
    | .assign targets value =>
      if targets.any (·.isPublicList) then
        match value.literal?.run with
        | none => .ok none
        | some (.error fault) => .error fault
        | some (.ok literal) =>
          match literal.items? with
          | some items => (Literal.identifiers items).map some
          | none => publicNames? rest
      else publicNames? rest
    | _ => publicNames? rest

/-- The names that a script exports, with their kinds: its declarations, but only the public ones
where it lists them. -/
def exports (statements : List Statement) : Except Fault (Entries DeclarationKind) :=
  let all := (declarations statements).filter (·.1 ≠ publicList)
  (publicNames? statements).map fun
    | some names => all.filter fun (name, _) => names.contains name
    | none => all

/-- The names that the text of a module exports. -/
def exportsOf [CharacterNames] (source : Text) : Except Fault (Entries DeclarationKind) :=
  match parse? source with
  | some statements => exports statements
  | none => .ok []

/-- The classes that a script defines at its top level, in order. -/
def classNames [CharacterNames] (source : Text) : List Text :=
  ((parse? source).getD []).filterMap fun statement =>
    match statement.action with
    | .defineClass name => if isName name then some name else none
    | _ => none

/-- Whether a script's first statement is a text that documents it. -/
def documentation? : List Statement → Option Statement
  | statement :: _ =>
    match statement.action with
    | .evaluate (.text _) => some statement
    | _ => none
  | [] => none

end Caret.Script
