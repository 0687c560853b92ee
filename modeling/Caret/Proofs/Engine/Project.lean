import Caret.Engine.Client
import Caret.Proofs.Modules.LoadPath
import Caret.Service

/-!
# The project in use is up to date

Both clients of an engine keep a project between requests. What an engine is asked to open shows when the same
request is put to a copy of it that keeps a record. One request either finds a project in use with the directories of
the load path, or has a new one opened with them (`isAnswered_requestOf`); everything about runs follows from that, and
from the load path growing at its end only: a project that it has outgrown never fits again.
-/

namespace Caret.Engine

open Completion Files Modules

variable {ε π σ : Type}

/-! ### What an engine is asked to open -/

/-- A project that an engine was asked to open, and what it answered. -/
structure Opening (π : Type) where
  root : Text
  directories : List Text
  answer : Except Fault π

/-- The project that was opened, with its directories. -/
def Opening.opened? (opening : Opening π) : Option (Opened π) :=
  match opening.answer with
  | .ok project => some ⟨opening.directories, project⟩
  | .error _ => none

theorem Opening.opened?_eq_some {opening : Opening π} {opened : Opened π} :
    opening.opened? = some opened ↔
      opened.directories = opening.directories ∧ opening.answer = .ok opened.project := by
  obtain ⟨root, directories, answer⟩ := opening
  obtain ⟨others, project⟩ := opened
  cases answer with
  | error fault => simp [Opening.opened?]
  | ok answered => simp [Opening.opened?, eq_comm]

/-- A call that leaves a record as it is. -/
def Call.unrecorded {α ρ : Type} (call : Call ε α) : Call (ε × ρ) α :=
  fun (state, record) => ((call state).1, (call state).2, record)

/-- An engine that records what it is asked to open, and otherwise does the same. -/
def recording (engine : Engine ε π σ) : Engine (ε × List (Opening π)) π σ where
  openProject root directories := fun (state, openings) =>
    let (answer, state) := engine.openProject root directories state
    (answer, state, openings ++ [⟨root, directories, answer⟩])
  openScript source project := (engine.openScript source project).unrecorded
  complete script row column := (engine.complete script row column).unrecorded
  bindings script := (engine.bindings script).unrecorded
  locate script row column := (engine.locate script row column).unrecorded

/-- The clients with an empty record beside the engine's state. -/
def Client.recording (client : Client ε π) : Client (ε × List (Opening π)) π :=
  ⟨(client.engine, []), client.parsing, client.resolving⟩

/-- A project knows the directories that it was opened with. -/
def Keeps (engine : Engine ε π σ) (directoriesOf : π → List Text) : Prop :=
  ∀ root directories state project,
    (engine.openProject root directories state).1 = .ok project → directoriesOf project = directories

/-! ### Requests -/

/-- The clients of an engine. -/
inductive Role where
  | parsing
  | resolving
  deriving DecidableEq

namespace Role

/-- A client's request for its project. -/
def project (role : Role) (engine : Engine ε π σ) : Query (Client ε π) π :=
  match role with
  | .parsing => parsingProject engine
  | .resolving => resolvingProject engine

/-- The project that a client has in use. -/
def inUse (role : Role) (client : Client ε π) : Option (Opened π) :=
  match role with
  | .parsing => client.parsing
  | .resolving => client.resolving

/-- The clients with a project that one of them has in use from now on. -/
def put (role : Role) (client : Client ε π) (opened : Option (Opened π)) : Client ε π :=
  match role with
  | .parsing => { client with parsing := opened }
  | .resolving => { client with resolving := opened }

/-- What the engine is asked to open for a request. -/
def openings (role : Role) (engine : Engine ε π σ) (view : View) (client : Client ε π) : List (Opening π) :=
  (role.project engine.recording view client.recording).2.engine.2

end Role

/-- A request as it was answered: by whom it was made, the directories that were on the load path, what the engine was
asked to open, and the answer. -/
structure Request (π : Type) where
  role : Role
  directories : List Text
  openings : List (Opening π)
  answer : Except Fault π

/-- What happens to a service. -/
inductive Event (ε : Type) where
  /-- A call that may add to the load path. -/
  | extend (disk : Disk) (call : LoadPath.Call)
  /-- A client asks for its project. -/
  | request (role : Role) (disk : Disk)
  /-- The engine gets into another state, by what else it is used for. -/
  | use (state : ε)

/-- A service after an event. -/
def Event.after (engine : Engine ε π σ) (state : Service.State ε π) : Event ε → Service.State ε π
  | .extend disk call => { state with loadPath := call.after disk state.loadPath }
  | .request role disk => (ask disk (role.project engine) state).2
  | .use used => { state with engine := { state.engine with engine := used } }

/-- A request in a state of a service. -/
def requestOf (engine : Engine ε π σ) (state : Service.State ε π) (role : Role) (disk : Disk) : Request π where
  role
  directories := state.loadPath.directories
  openings := role.openings engine ⟨disk, state.loadPath⟩ state.engine
  answer := (ask disk (role.project engine) state).1

/-- The requests among events one after the other. -/
def requests (engine : Engine ε π σ) (state : Service.State ε π) : List (Event ε) → List (Request π)
  | [] => []
  | .request role disk :: rest =>
    requestOf engine state role disk :: requests engine ((Event.request role disk).after engine state) rest
  | event :: rest => requests engine (event.after engine state) rest

/-- The project that was opened last. -/
def lastOpened? (requests : List (Request π)) : Option (Opened π) :=
  ((requests.flatMap (·.openings)).filterMap (·.opened?)).getLast?

/-! ### One request -/

section

variable {directories : List Text} {inUse : Option (Opened π)}

theorem projectFor_of_fits {opened : Opened π} (hfits : opened.directories = directories) (engine : Engine ε π σ)
    (cwd : Text) (state : ε) :
    projectFor engine cwd directories (some opened) state = (.ok (opened.project, some opened), state) := by
  simp only [projectFor, hfits, if_true]
  rfl

theorem projectFor_of_not_fits (hnot : ∀ opened, inUse = some opened → opened.directories ≠ directories)
    (engine : Engine ε π σ) (cwd : Text) (state : ε) :
    projectFor engine cwd directories inUse state =
      ((engine.openProject (directories.head?.getD cwd) directories state).1.map
          fun project => (project, some ⟨directories, project⟩),
        (engine.openProject (directories.head?.getD cwd) directories state).2) := by
  have hrenewed : projectFor engine cwd directories inUse = (do
      let project ← engine.openProject (directories.head?.getD cwd) directories
      return (project, some ⟨directories, project⟩)) := by
    cases inUse with
    | none => rfl
    | some opened => simp only [projectFor, hnot opened rfl, if_false]
  rw [hrenewed]
  simp only [bind, ExceptT.bind, ExceptT.mk, StateT.bind, ExceptT.bindCont]
  rcases engine.openProject (directories.head?.getD cwd) directories state with ⟨_ | _, _⟩
  · rfl
  · rfl

end

/-- What the engine is asked to open for a client that has no project that fits. -/
def openingFor (engine : Engine ε π σ) (view : View) (state : ε) : Opening π :=
  let root := view.loadPath.directories.head?.getD view.disk.cwd
  ⟨root, view.loadPath.directories, (engine.openProject root view.loadPath.directories state).1⟩

namespace Role

theorem inUse_put (role other : Role) (client : Client ε π) (opened : Option (Opened π)) :
    other.inUse (role.put client opened) = if other = role then opened else other.inUse client := by
  cases role <;> cases other <;> rfl

theorem engine_put (role : Role) (client : Client ε π) (opened : Option (Opened π)) :
    (role.put client opened).engine = client.engine := by
  cases role <;> rfl

/-- Both clients ask in the same way, each for its own project. -/
theorem project_eq (role : Role) (engine : Engine ε π σ) (view : View) (client : Client ε π) :
    role.project engine view client =
      match projectFor engine view.disk.cwd view.loadPath.directories (role.inUse client) client.engine with
      | (.ok (project, opened), state) => (.ok project, role.put { client with engine := state } opened)
      | (.error fault, state) => (.error fault, { client with engine := state }) := by
  cases role with
  | parsing =>
    rw [project, parsingProject, inUse]
    rcases projectFor engine view.disk.cwd view.loadPath.directories client.parsing client.engine with ⟨_ | _, _⟩
    · rfl
    · rfl
  | resolving =>
    rw [project, resolvingProject, inUse]
    rcases projectFor engine view.disk.cwd view.loadPath.directories client.resolving client.engine with ⟨_ | _, _⟩
    · rfl
    · rfl

theorem put_inUse (role : Role) (client : Client ε π) : role.put client (role.inUse client) = client := by
  cases role <;> rfl

theorem inUse_recording (role : Role) (client : Client ε π) : role.inUse client.recording = role.inUse client := by
  cases role <;> rfl

variable {role : Role} {client : Client ε π} (engine : Engine ε π σ) (view : View)

section

variable {opened : Opened π} (hinUse : role.inUse client = some opened)
  (hfits : opened.directories = view.loadPath.directories)

include hinUse hfits

theorem project_of_fits : role.project engine view client = (.ok opened.project, client) := by
  rw [project_eq, hinUse, projectFor_of_fits hfits]
  dsimp only
  rw [← hinUse, put_inUse]

theorem openings_of_fits : role.openings engine view client = [] := by
  rw [← inUse_recording] at hinUse
  rw [openings, project_of_fits _ _ hinUse hfits]
  rfl

end

section

variable (hnot : ∀ opened, role.inUse client = some opened → opened.directories ≠ view.loadPath.directories)

include hnot

theorem project_of_not_fits :
    role.project engine view client = ((openingFor engine view client.engine).answer,
      role.put { client with engine := (engine.openProject (view.loadPath.directories.head?.getD view.disk.cwd)
          view.loadPath.directories client.engine).2 }
        ((openingFor engine view client.engine).opened?.or (role.inUse client))) := by
  rw [project_eq, projectFor_of_not_fits hnot, openingFor, Opening.opened?]
  dsimp only
  rcases engine.openProject (view.loadPath.directories.head?.getD view.disk.cwd) view.loadPath.directories
    client.engine with ⟨fault | project, state⟩
  · exact congrArg (Prod.mk _) (role.put_inUse { client with engine := state }).symm
  · rfl

theorem openings_of_not_fits : role.openings engine view client = [openingFor engine view client.engine] := by
  have hrecording : ∀ opened, role.inUse client.recording = some opened →
      opened.directories ≠ view.loadPath.directories := by
    rwa [inUse_recording]
  rw [openings, project_of_not_fits _ _ hrecording, engine_put]
  rfl

end

/-- A request leaves the other client's project in use. -/
theorem inUse_project_of_ne {other : Role} (hne : other ≠ role) :
    other.inUse (role.project engine view client).2 = other.inUse client := by
  rw [project_eq]
  split
  · rw [inUse_put, if_neg hne]
    cases other <;> rfl
  · cases other <;> rfl

end Role

/-! ### What a request is answered -/

/-- A project that was opened is one that the engine answered. -/
def Opening.IsGenuine (engine : Engine ε π σ) (opening : Opening π) : Prop :=
  ∃ state, (engine.openProject opening.root opening.directories state).1 = opening.answer

/-- How a request is answered by a client with a project in use, and which it has in use afterwards. -/
inductive Request.IsAnswered (engine : Engine ε π σ) (request : Request π) (inUse : Option (Opened π)) :
    Option (Opened π) → Prop where
  | fits {opened : Opened π} (hinUse : inUse = some opened) (hfits : opened.directories = request.directories)
      (hopenings : request.openings = []) (hanswer : request.answer = .ok opened.project) :
      request.IsAnswered engine inUse inUse
  | opens {opening : Opening π}
      (hnot : ∀ opened, inUse = some opened → opened.directories ≠ request.directories)
      (hopenings : request.openings = [opening]) (hgenuine : opening.IsGenuine engine)
      (hdirectories : opening.directories = request.directories) (hanswer : opening.answer = request.answer) :
      request.IsAnswered engine inUse (opening.opened?.or inUse)

theorem isAnswered_requestOf (engine : Engine ε π σ) (state : Service.State ε π) (role : Role) (disk : Disk) :
    (requestOf engine state role disk).IsAnswered engine (role.inUse state.engine)
      (role.inUse ((Event.request role disk).after engine state).engine) := by
  by_cases hfits : ∃ opened, role.inUse state.engine = some opened ∧
      opened.directories = state.loadPath.directories
  · obtain ⟨opened, hinUse, hfits⟩ := hfits
    have hproject := Role.project_of_fits engine ⟨disk, state.loadPath⟩ hinUse hfits
    rw [Event.after, ask, hproject]
    refine .fits hinUse hfits (Role.openings_of_fits engine _ hinUse hfits) ?_
    rw [requestOf, ask, hproject]
  · have hnot : ∀ opened, role.inUse state.engine = some opened →
        opened.directories ≠ state.loadPath.directories :=
      fun opened hinUse heq => hfits ⟨opened, hinUse, heq⟩
    have hproject := Role.project_of_not_fits engine ⟨disk, state.loadPath⟩ hnot
    rw [Event.after, ask, hproject]
    dsimp only
    rw [Role.inUse_put, if_pos rfl]
    refine .opens hnot (Role.openings_of_not_fits engine _ hnot) ⟨state.engine.engine, rfl⟩ rfl ?_
    rw [requestOf, ask, hproject]

/-! ### Runs -/

/-- For a request, the engine failed to open a project. -/
def Request.HasFailed (request : Request π) : Prop :=
  ∃ opening ∈ request.openings, ∃ fault, opening.answer = .error fault

/-- A request of a client, behind earlier ones, is answered by what is up to date. -/
structure Request.IsCurrent (directoriesOf : π → List Text) (earlier : List (Request π)) (request : Request π) :
    Prop where
  /-- A project has the directories that are on the load path. -/
  directories_eq : ∀ project, request.answer = .ok project → directoriesOf project = request.directories
  /-- One is opened exactly if none was opened before, or the last one with other directories. -/
  opens_iff : request.openings ≠ [] ↔
    ∀ opened, lastOpened? earlier = some opened → opened.directories ≠ request.directories
  /-- What is opened has the directories of the load path, and is the answer. -/
  answer_of_opens : ∀ opening ∈ request.openings,
    opening.directories = request.directories ∧ opening.answer = request.answer
  /-- If nothing is opened, the answer is the project that was opened last. -/
  answer_of_fits : request.openings = [] →
    ∃ opened, lastOpened? earlier = some opened ∧ request.answer = .ok opened.project
  /-- Where the request before it failed to open a project, another one is opened. -/
  retries : ∀ failed, earlier.getLast? = some failed → failed.HasFailed → request.openings ≠ []

section

variable {engine : Engine ε π σ} {directoriesOf : π → List Text} {earlier : List (Request π)} {request : Request π}

theorem lastOpened?_concat (earlier : List (Request π)) (request : Request π) :
    lastOpened? (earlier ++ [request]) =
      (request.openings.filterMap (·.opened?)).getLast?.or (lastOpened? earlier) := by
  simp [lastOpened?, List.getLast?_append]

namespace Request.IsAnswered

variable {inUse : Option (Opened π)} (hanswered : request.IsAnswered engine (lastOpened? earlier) inUse)

include hanswered

theorem lastOpened?_concat : lastOpened? (earlier ++ [request]) = inUse := by
  rw [Engine.lastOpened?_concat]
  cases hanswered with
  | fits _ _ hopenings _ => simp [hopenings]
  | @opens opening _ hopenings _ _ _ =>
    rw [hopenings]
    cases hopened : opening.opened? <;> simp [hopened]

variable (hkeeps : engine.Keeps directoriesOf)
  (hknown : ∀ opened, lastOpened? earlier = some opened → directoriesOf opened.project = opened.directories)

include hkeeps hknown

theorem isCurrent
    (houtgrown : ∀ failed, earlier.getLast? = some failed → failed.HasFailed →
      ∀ opened, lastOpened? earlier = some opened → opened.directories ≠ request.directories) :
    request.IsCurrent directoriesOf earlier := by
  cases hanswered with
  | @fits opened hinUse hfits hopenings hanswer =>
    refine ⟨fun project hproject => ?_, ?_, ?_, fun _ => ⟨opened, hinUse, hanswer⟩, fun failed hlast hfailed => ?_⟩
    · cases hanswer.symm.trans hproject
      exact (hknown opened hinUse).trans hfits
    · exact iff_of_false (· hopenings) (fun hnot => hnot opened hinUse hfits)
    · simp [hopenings]
    · exact absurd hfits (houtgrown failed hlast hfailed opened hinUse)
  | @opens opening hnot hopenings hgenuine hdirectories hanswer =>
    have hsome : request.openings ≠ [] := by simp [hopenings]
    refine ⟨fun project hproject => ?_, iff_of_true hsome hnot, ?_, (absurd · hsome), fun _ _ _ => hsome⟩
    · obtain ⟨state, hstate⟩ := hgenuine
      exact (hkeeps _ _ state project (hstate.trans (hanswer.trans hproject))).trans hdirectories
    · rw [hopenings, List.forall_mem_singleton]
      exact ⟨hdirectories, hanswer⟩

/-- The project in use after a request is one that was in use before and that the request did not renew, or has the
directories of the request. -/
theorem keeps_inUse (hextends : ∀ opened, lastOpened? earlier = some opened → opened.directories <+: request.directories)
    (opened : Opened π) (hopened : inUse = some opened) :
    directoriesOf opened.project = opened.directories ∧ opened.directories <+: request.directories ∧
      (request.HasFailed → opened.directories ≠ request.directories) := by
  cases hanswered with
  | @fits _ _ _ hopenings _ =>
    refine ⟨hknown opened hopened, hextends opened hopened, ?_⟩
    simp [HasFailed, hopenings]
  | @opens opening hnot hopenings hgenuine hdirectories hanswer =>
    rcases Option.or_eq_some_iff.mp hopened with hnew | ⟨-, hold⟩
    · obtain ⟨hsame, hproject⟩ := Opening.opened?_eq_some.mp hnew
      obtain ⟨state, hstate⟩ := hgenuine
      refine ⟨?_, ?_, ?_⟩
      · exact (hkeeps _ _ state _ (hstate.trans hproject)).trans hsame.symm
      · rw [hsame, hdirectories]
      · simp [HasFailed, hopenings, hproject]
    · exact ⟨hknown opened hold, hextends opened hold, fun _ => hnot opened hold⟩

end Request.IsAnswered

/-- What a client goes by: the project in use is the one opened last, and the load path starts with its directories.
If the last request failed to open a project, the load path has outgrown the one in use. -/
structure IsTracked (directoriesOf : π → List Text) (role : Role) (state : Service.State ε π)
    (earlier : List (Request π)) : Prop where
  inUse_eq : role.inUse state.engine = lastOpened? earlier
  keeps : ∀ opened, lastOpened? earlier = some opened → directoriesOf opened.project = opened.directories
  loadPath_extends : ∀ opened, lastOpened? earlier = some opened →
    opened.directories <+: state.loadPath.directories
  outgrown : ∀ failed, earlier.getLast? = some failed → failed.HasFailed →
    ∀ opened, lastOpened? earlier = some opened → opened.directories ≠ state.loadPath.directories

namespace IsTracked

variable {role : Role} {state : Service.State ε π} (htracked : IsTracked directoriesOf role state earlier)

include htracked

theorem after_extend (disk : Disk) (call : LoadPath.Call) (engine : Engine ε π σ) :
    IsTracked directoriesOf role ((Event.extend disk call).after engine state) earlier := by
  have hgrown : state.loadPath.directories <+: (call.after disk state.loadPath).directories :=
    (LoadPath.entries_prefix_afterCalls disk state.loadPath [call]).map _
  refine ⟨htracked.inUse_eq, htracked.keeps, fun opened hopened => ?_, fun failed hlast hfailed opened hopened heq => ?_⟩
  · exact (htracked.loadPath_extends opened hopened).trans hgrown
  · -- if the project fitted again, the load path would be what it was
    have hextends := htracked.loadPath_extends opened hopened
    have hback : state.loadPath.directories <+: opened.directories := heq ▸ hgrown
    exact htracked.outgrown failed hlast hfailed opened hopened (hextends.eq_of_length_le hback.length_le)

theorem after_use (used : ε) (engine : Engine ε π σ) :
    IsTracked directoriesOf role ((Event.use used).after engine state) earlier := by
  obtain ⟨hinUse, hkeeps, hextends, houtgrown⟩ := htracked
  refine ⟨?_, hkeeps, hextends, houtgrown⟩
  rw [← hinUse]
  cases role <;> rfl

theorem after_request_of_ne {other : Role} (hne : role ≠ other) (disk : Disk) (engine : Engine ε π σ) :
    IsTracked directoriesOf role ((Event.request other disk).after engine state) earlier := by
  obtain ⟨hinUse, hkeeps, hextends, houtgrown⟩ := htracked
  exact ⟨(Role.inUse_project_of_ne engine _ hne).trans hinUse, hkeeps, hextends, houtgrown⟩

theorem isCurrent (hkeeps : engine.Keeps directoriesOf) (disk : Disk) :
    (requestOf engine state role disk).IsCurrent directoriesOf earlier := by
  have hanswered := isAnswered_requestOf engine state role disk
  rw [htracked.inUse_eq] at hanswered
  exact hanswered.isCurrent hkeeps htracked.keeps htracked.outgrown

theorem after_request (hkeeps : engine.Keeps directoriesOf) (disk : Disk) :
    IsTracked directoriesOf role ((Event.request role disk).after engine state)
      (earlier ++ [requestOf engine state role disk]) := by
  have hanswered := isAnswered_requestOf engine state role disk
  rw [htracked.inUse_eq] at hanswered
  have hinUse := hanswered.keeps_inUse hkeeps htracked.keeps htracked.loadPath_extends
  rw [← hanswered.lastOpened?_concat] at hinUse
  refine ⟨hanswered.lastOpened?_concat.symm, fun opened hopened => (hinUse opened hopened).1,
    fun opened hopened => (hinUse opened hopened).2.1, fun failed hlast hfailed opened hopened => ?_⟩
  obtain rfl : requestOf engine state role disk = failed := by simpa using hlast
  exact (hinUse opened hopened).2.2 hfailed

end IsTracked

theorem filter_requests_self (engine : Engine ε π σ) (state : Service.State ε π) (role : Role) (disk : Disk)
    (rest : List (Event ε)) :
    (requests engine state (.request role disk :: rest)).filter (·.role = role) =
      requestOf engine state role disk ::
        (requests engine ((Event.request role disk).after engine state) rest).filter (·.role = role) := by
  simp [requests, requestOf]

theorem filter_requests_of_ne {role other : Role} (hne : other ≠ role) (engine : Engine ε π σ)
    (state : Service.State ε π) (disk : Disk) (rest : List (Event ε)) :
    (requests engine state (.request other disk :: rest)).filter (·.role = role) =
      (requests engine ((Event.request other disk).after engine state) rest).filter (·.role = role) := by
  simp [requests, requestOf, hne]

theorem isCurrent_of_isTracked {role : Role} {state : Service.State ε π} (hkeeps : engine.Keeps directoriesOf)
    (htracked : IsTracked directoriesOf role state earlier) (events : List (Event ε))
    {before later : List (Request π)}
    (hrequests : (requests engine state events).filter (·.role = role) = before ++ request :: later) :
    request.IsCurrent directoriesOf (earlier ++ before) := by
  -- on the events; a request of this client moves from `before` to `earlier`
  induction events generalizing state earlier before with
  | nil => simp [requests] at hrequests
  | cons event rest ih =>
    cases event with
    | extend disk call => exact ih (htracked.after_extend disk call engine) hrequests
    | use used => exact ih (htracked.after_use used engine) hrequests
    | request other disk =>
      by_cases hother : other = role
      · subst hother
        rw [filter_requests_self] at hrequests
        cases before with
        | nil =>
          obtain ⟨rfl, -⟩ := List.cons.inj hrequests
          rw [List.append_nil]
          exact htracked.isCurrent hkeeps disk
        | cons first more =>
          obtain ⟨rfl, hrest⟩ := List.cons.inj hrequests
          rw [List.append_cons]
          exact ih (htracked.after_request hkeeps disk) hrest
      · rw [filter_requests_of_ne hother] at hrequests
        exact ih (htracked.after_request_of_ne (Ne.symm hother) disk engine) hrequests

end

/-- The project in use is never out of date. Among calls that add to the load path and requests of both clients in any
order, every request of a client is answered with a project for the directories that are on the load path then. One is
opened for it exactly if the client's last one was opened with other directories or there is none, and again if that
failed the last time. -/
theorem requests_isCurrent (engine : Engine ε π σ) {directoriesOf : π → List Text} (hkeeps : engine.Keeps directoriesOf)
    (loadPath : LoadPath) (state : ε) (events : List (Event ε)) (role : Role) {earlier later : List (Request π)}
    {request : Request π}
    (hrequests : (requests engine ⟨loadPath, { engine := state }⟩ events).filter (·.role = role) =
      earlier ++ request :: later) :
    request.IsCurrent directoriesOf earlier := by
  have htracked : IsTracked directoriesOf role (⟨loadPath, { engine := state }⟩ : Service.State ε π) [] := by
    refine ⟨?_, by simp [lastOpened?], by simp [lastOpened?], by simp⟩
    cases role <;> rfl
  exact isCurrent_of_isTracked hkeeps htracked events hrequests

/-- An engine whose projects are the directories they were opened with. Its state says which openings fail. -/
def planned : Engine (List Bool) (List Text) Unit where
  openProject _ directories := fun
    | true :: rest => (.error .collaborator, rest)
    | plan => (.ok directories, plan.tail)
  openScript _ _ := pure ()
  complete _ _ _ := pure []
  bindings _ := pure []
  locate _ _ _ := pure []

theorem planned_keeps : planned.Keeps id := by
  intro root directories plan project hanswer
  rcases plan with _ | ⟨_ | _, rest⟩
  · exact (Except.ok.inj hanswer).symm
  · exact (Except.ok.inj hanswer).symm
  · cases hanswer

/-- Projects are asked for while two directories are added to the load path. -/
def plannedEvents : List (Event (List Bool)) :=
  [.request .parsing LoadPath.linkedDisk, .extend LoadPath.linkedDisk (.add "lib".toList),
    .request .parsing LoadPath.linkedDisk, .extend LoadPath.linkedDisk (.add "more".toList),
    .request .resolving LoadPath.linkedDisk, .request .parsing LoadPath.linkedDisk,
    .request .parsing LoadPath.linkedDisk]

/-- The second opening fails, and the third is for both directories. -/
theorem requests_isCurrent_retried :
    planned.Keeps id ∧ ∃ first failed retried kept : Request (List Text),
      (requests planned ⟨{}, { engine := [false, true] }⟩ plannedEvents).filter (·.role = .parsing) =
        [first, failed] ++ retried :: [kept] ∧
      failed.HasFailed ∧ retried.answer = .ok ["/lib".toList, "/more".toList] ∧ kept.openings = [] ∧
      retried.IsCurrent id [first, failed] := by
  refine ⟨planned_keeps, _, _, _, _, rfl, ⟨_, List.mem_singleton_self _, .collaborator, rfl⟩, rfl, rfl, ?_⟩
  exact requests_isCurrent planned planned_keeps {} [false, true] plannedEvents .parsing rfl

end Caret.Engine
