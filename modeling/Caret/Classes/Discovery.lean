import Caret.Classes.Index
import Caret.Fault

/-!
# Discovery of classes

Indexes are built in the background. Until a build is done nothing is known, and a build that failed
is as good as an empty index. The look-ups that completion makes of the classes are those of a
discovery, any of which may fail.
-/

namespace Caret

/-- What has become of a background build. -/
inductive Build (α : Type) where
  | pending
  | failed
  | done (result : α)

/-- A build that is done or has yet to be, with what it results in. -/
def Build.of {α : Type} (isDone : Bool) (result : α) : Build α :=
  if isDone then .done result else .pending

/-- Whether a build has come to an end. -/
def Build.isReady {α : Type} : Build α → Bool
  | .pending => false
  | _ => true

namespace Classes

/-- The index that a build stands for: an empty one unless it is done. -/
def indexFrom : Build Index → Index
  | .done index => index
  | _ => {}

/-- The look-ups of classes that completion makes. -/
structure Discovery where
  isReady : Except Fault Bool
  holding : Text → Except Fault (List Text)
  ofPackage : Text → Except Fault (List Text)
  startingWith : Text → Except Fault (List Text)
  simplyStartingWith : Text → Except Fault (List Text)

/-- The discovery over a build, which never fails. -/
def Discovery.ofBuild (build : Build Index) : Discovery where
  isReady := .ok build.isReady
  holding text := .ok ((indexFrom build).holding text)
  ofPackage text := .ok ((indexFrom build).ofPackage text)
  startingWith text := .ok ((indexFrom build).startingWith text)
  simplyStartingWith text := .ok ((indexFrom build).simplyStartingWith text)

end Classes

end Caret
