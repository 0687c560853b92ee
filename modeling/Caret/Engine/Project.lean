import Caret.Engine.Basic

/-!
# The project in use

A project is opened once and kept as long as the directories stay the same. When opening fails
nothing is kept of it, so that the next request tries again.
-/

namespace Caret.Engine

/-- A project and the directories it was opened with. -/
structure Opened (π : Type) where
  directories : List Text
  project : π

/-- The project for some directories: the one in use if it was opened with them, else a new one. A
project is opened at the first directory, or at the current one. -/
def projectFor {ε π σ : Type} (engine : Engine ε π σ) (cwd : Text) (directories : List Text)
    (inUse : Option (Opened π)) : Call ε (π × Option (Opened π)) := do
  let renewed : Call ε (π × Option (Opened π)) := do
    let project ← engine.openProject (directories.head?.getD cwd) directories
    return (project, some ⟨directories, project⟩)
  match inUse with
  | some opened =>
    if opened.directories = directories then return (opened.project, inUse) else renewed
  | none => renewed

end Caret.Engine
