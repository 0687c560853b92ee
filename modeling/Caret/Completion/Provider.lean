import Caret.Classes.Source
import Caret.Completion.Assembly
import Caret.Completion.Ranking
import Caret.Editor.View
import Caret.Line.SearchPath

/-!
# Completion

Candidates come from two sources, the script and the classes. A source that fails contributes
nothing and does not disturb the other one. Of candidates with the same replacement and import the
first is kept; the result is ranked and cut to a limit.

Looking at a line also extends the load path by the directories that the script before it adds.
-/

namespace Caret.Completion

open Files Modules

/-- What changes from one completion to the next. -/
structure State (ε : Type) where
  loadPath : LoadPath
  engine : ε

/-- An operation on the state that may fail; the state is kept in any case. -/
abbrev Session (ε α : Type) := ExceptT Fault (StateM (State ε)) α

/-- Puts a question to a collaborator. -/
def ask {ε α : Type} (disk : Disk) (query : Query ε α) : Session ε α :=
  fun state =>
    let (answer, engine) := query ⟨disk, state.loadPath⟩ state.engine
    (answer, { state with engine })

/-- What is being typed on a line. The directories that the text before it adds to the search path
are put on the load path, as far as that is possible. -/
def classifyWith (disk : Disk) (prior line seed : Text) : LoadPath.Operation (Option Line.Context) :=
  fun loadPath =>
    if Line.isConsidered line seed then
      let (outcome, loadPath) := LoadPath.register disk (Line.searchPath prior) loadPath
      (outcome.map fun _ => Line.classify prior line seed, loadPath)
    else (.ok none, loadPath)

/-- What is being typed on a line, with the load path of the session extended. -/
def classify {ε : Type} (disk : Disk) (prior line seed : Text) : Session ε (Option Line.Context) :=
  fun state =>
    let (context, loadPath) := classifyWith disk prior line seed state.loadPath
    (context, { state with loadPath })

/-- Everything that a completion consults. -/
structure Provider (ε : Type) where
  assembler : Assembler ε
  library : Build Modules.Index
  classes : Option Classes.Discovery
  maxItems : Int

/-- The most candidates in a result: at least one. -/
def Provider.limit {ε : Type} (provider : Provider ε) : Nat :=
  (max 1 provider.maxItems).toNat

/-- The candidates for a line from the script. -/
def Provider.assemble {ε : Type} (provider : Provider ε) (disk : Disk) (prior line seed : Text) :
    Session ε (List Candidate) := do
  match ← classify disk prior line seed with
  | none => return []
  | some context => ask disk (provider.assembler.assemble provider.library context)

/-- The candidates with a new pair of replacement and import, in order. -/
def distinctCandidates (candidates : List Candidate) : List Candidate :=
  candidates.foldl (fun kept candidate =>
    if kept.any fun other => other.replacement == candidate.replacement &&
        other.importStatement == candidate.importStatement then kept
    else kept ++ [candidate]) []

/-- What a source contributes: nothing if it failed. -/
def contributed (result : Except Fault (List Candidate)) : List Candidate :=
  match result with
  | .ok candidates => candidates
  | .error _ => []

/-- The result from what the two sources contribute. -/
def merge (limit : Nat) (seed : Text) (script classes : Except Fault (List Candidate)) :
    List Candidate :=
  (rank seed (distinctCandidates (contributed script ++ contributed classes))).take limit

/-- The candidates for a line. -/
def Provider.forLine {ε : Type} (provider : Provider ε) (disk : Disk) (prior line seed : Text) :
    StateM (State ε) (List Candidate) :=
  fun state =>
    if Line.isCompletable line then
      let (script, state) := provider.assemble disk prior line seed state
      let classes := Classes.candidates provider.classes line seed
      (merge provider.limit seed script classes, state)
    else ([], state)

/-- The candidates for a buffer, where the text they replace starts, and that text. -/
structure Result where
  candidates : List Candidate
  offset : Int
  seed : Text
  deriving DecidableEq

/-- The result where nothing is completed. -/
def Result.empty : Result :=
  ⟨[], 0, []⟩

/-- Completes at the caret of an editor. A buffer that cannot be read has nothing to complete. -/
def Provider.complete {ε : Type} (provider : Provider ε) (disk : Disk) (view : Editor.View) :
    StateM (State ε) Result :=
  fun state =>
    match view.before, view.line, view.typed with
    | .ok before, .ok line, .ok seed =>
      let prior := Text.upTo before ((before.length : Int) - line.length)
      let (candidates, state) := provider.forLine disk prior line seed state
      (⟨candidates, (before.length : Int) - seed.length, seed⟩, state)
    | _, _, _ => (.empty, state)

end Caret.Completion
