import Caret.Editor.Buffer
import Caret.Service
import Caret.Value.Conversion

/-!
# An editing session

A completion service at work in an editor. Each operation answers its result, the next session, and
the events that it gave rise to, in order. Until the modules of the library are known, and that has
been announced, the session polls for it.
-/

namespace Caret.Editor

open Completion Files

/-- What can be watched of a session. -/
inductive Event where
  | change (change : Change)
  | completions (result : Result)
  | modulesReady
  deriving DecidableEq

/-- A completion service at work in an editor. -/
structure Session (ε π : Type) where
  service : Service ε π
  state : Service.State ε π
  buffer : Buffer
  polling : Bool := true
  announced : Bool := false

/-- The outcome of an operation on a session. -/
structure Outcome (ε π α : Type) where
  result : Except Fault α
  session : Session ε π
  events : List Event := []

namespace Session

variable {ε π : Type}

/-- Completes at the caret. -/
def request (session : Session ε π) (disk : Disk) : Outcome ε π Result :=
  let view := View.ofText session.buffer.text session.buffer.caret
  let (result, state) := session.service.complete disk view session.state
  { result := .ok result
    session := { session with state }
    events := [.completions result] }

/-- Applies a candidate at an offset. An offset that is no number leaves the buffer as it is. -/
def apply [CharacterNames] (session : Session ε π) (candidate : Candidate) (offset : Value) : Outcome ε π Unit :=
  match offset.toInt with
  | .ok offset =>
    let (buffer, changes) := session.buffer.apply candidate offset
    { result := .ok ()
      session := { session with buffer }
      events := changes.map .change }
  | .error fault =>
    { result := .error fault
      session
      events := [.change .beginEdit, .change .endEdit] }

/-- The item at a position of a list, counted from the end where the position is negative. -/
def item? {α : Type} (items : List α) (index : Int) : Option α :=
  let index := if index < 0 then index + items.length else index
  if index < 0 then none else items[index.toNat]?

/-- Completes at the caret and applies one of the candidates. -/
def accept [CharacterNames] (session : Session ε π) (disk : Disk) (index : Int) : Outcome ε π Unit :=
  let requested := session.request disk
  match requested.result with
  | .error fault => { requested with result := .error fault }
  | .ok result =>
    match item? result.candidates index with
    | none => { requested with result := .error .noSuchItem }
    | some candidate =>
      let applied := requested.session.apply candidate (.int result.offset)
      { applied with events := requested.events ++ applied.events }

/-- Moves the caret. -/
def move (session : Session ε π) (caret : Int) : Session ε π :=
  { session with buffer := { session.buffer with caret } }

/-- Polls once: as soon as the modules are known, that is announced and polling ends. -/
def tick (session : Session ε π) : Outcome ε π Unit :=
  if session.polling && !session.announced && session.service.isReady then
    { result := .ok ()
      session := { session with polling := false, announced := true }
      events := [.modulesReady] }
  else { result := .ok (), session }

/-- Ends the session. -/
def shutdown (session : Session ε π) : Session ε π :=
  { session with polling := false }

end Session

end Caret.Editor
