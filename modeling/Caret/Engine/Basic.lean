import Caret.Fault
import Caret.Value.Display

/-!
# The inference engine

Types are inferred by an engine outside the library. It is told which directories modules are looked
up in by opening a project, and is handed the text of a script, of which it then completes, names and
locates things. Every call may fail. What it answers are records whose parts may be missing.
-/

namespace Caret.Engine

/-- A call to an engine with state `ε`. The state is kept even when the call fails. -/
abbrev Call (ε α : Type) := ExceptT Fault (StateM ε) α

/-- A part of an answer that may be missing. -/
abbrev Attribute := Option Value

/-- A part of an answer that has to be there. -/
def Attribute.required (part : Attribute) : Except Fault Value :=
  match part with
  | some value => .ok value
  | none => .error .missing

/-- A part of an answer in running text, nothing if it is missing or counts as false. -/
def Attribute.words (part : Attribute) : Except Fault Text :=
  match part with
  | some value => value.displayTrue
  | none => .ok []

/-- Something that a script could go on with. -/
structure Hit where
  name : Attribute
  kind : Attribute
  description : Attribute

/-- A place where a name is bound, and how many types are inferred for it. -/
structure Occurrence where
  name : Attribute
  line : Attribute
  column : Attribute
  types : Except Fault Nat

/-- What a name in a script refers to. -/
structure Target where
  kind : Attribute
  path : Attribute

end Engine

/-- An inference engine with state `ε`, projects `π` and scripts `σ`. -/
structure Engine (ε π σ : Type) where
  /-- Opens a project at a directory, with directories to look modules up in. -/
  openProject : Text → List Text → Engine.Call ε π
  /-- Hands over the text of a script. -/
  openScript : Text → π → Engine.Call ε σ
  /-- What a script could go on with at a line and a column. -/
  complete : σ → Nat → Nat → Engine.Call ε (List Engine.Hit)
  /-- The places where a script binds names. -/
  bindings : σ → Engine.Call ε (List Engine.Occurrence)
  /-- What the name at a line and a column refers to. -/
  locate : σ → Nat → Int → Engine.Call ε (List Engine.Target)

/-- An engine that knows nothing. -/
def Engine.unknowing : Engine Unit Unit Unit where
  openProject _ _ := return ()
  openScript _ _ := return ()
  complete _ _ _ := return []
  bindings _ := return []
  locate _ _ _ := return []

end Caret
