import Caret.Completion.Query
import Caret.Engine.Project
import Caret.Text.Space

/-!
# Collaborators that ask the engine

The engine as an indexer and as a resolver. Where a call fails, the answer is that nothing is known.
The indexer and the resolver each have a project of their own.
-/

namespace Caret.Engine

open Completion Modules

/-- What the clients of an engine keep: the engine's own state and their projects. -/
structure Client (ε π : Type) where
  engine : ε
  parsing : Option (Opened π) := none
  resolving : Option (Opened π) := none

variable {ε π σ : Type}

/-- Puts a call to the engine. -/
def callEngine {α : Type} (call : Call ε α) : Query (Client ε π) α :=
  fun _ client =>
    let (answer, engine) := call client.engine
    (answer, { client with engine })

/-- Goes on with nothing where a question fails. -/
def orNone {κ α : Type} (query : Query κ (Option α)) : Query κ (Option α) :=
  fun view state =>
    match query view state with
    | (.ok answer, state) => (.ok answer, state)
    | (.error _, state) => (.ok none, state)

/-- The indexer's project. -/
def parsingProject (engine : Engine ε π σ) : Query (Client ε π) π :=
  fun view client =>
    let (answer, state) :=
      projectFor engine view.disk.cwd view.loadPath.directories client.parsing client.engine
    match answer with
    | .ok (project, inUse) => (.ok project, { client with engine := state, parsing := inUse })
    | .error fault => (.error fault, { client with engine := state })

/-- The resolver's project. -/
def resolvingProject (engine : Engine ε π σ) : Query (Client ε π) π :=
  fun view client =>
    let (answer, state) :=
      projectFor engine view.disk.cwd view.loadPath.directories client.resolving client.engine
    match answer with
    | .ok (project, inUse) => (.ok project, { client with engine := state, resolving := inUse })
    | .error fault => (.error fault, { client with engine := state })

/-- The symbol for something that a script could go on with. -/
def symbolFor (hit : Hit) : Except Fault Symbol := do
  return ⟨← hit.name.words, ← hit.kind.words, ← hit.description.words⟩

/-- The symbol for something that a script could go on with, if its name starts with a text. -/
def symbolStarting? (start : Text) (hit : Hit) : Except Fault (Option Symbol) := do
  let name ← (← hit.name.required).display
  if Text.startsWith name start then return some (← symbolFor hit) else return none

/-- The line and the column where a script ends. -/
def endPosition (source : Text) : Nat × Nat :=
  let lines := Text.splitOn '\n' source
  (lines.length, ((lines.getLast?).getD []).length)

/-- The line and column of an occurrence as numbers, nothing counting as zero. -/
def positionOf (occurrence : Occurrence) : Except Fault (Int × Int) := do
  let number (part : Attribute) : Except Fault Int := do
    let value ← part.required
    if value.isTrue then
      match value.integer? with
      | some i => return i
      | none => .error .badType
    else return 0
  return (← number occurrence.line, ← number occurrence.column)

/-- The last of some occurrences, the first of them where several stand at the same place. -/
def lastOf : List (Occurrence × Int × Int) → Option (Occurrence × Int × Int)
  | [] => none
  | first :: rest =>
    some (rest.foldl (fun best next =>
      if best.2.1 < next.2.1 ∨ (best.2.1 = next.2.1 ∧ best.2.2 < next.2.2) then next else best) first)

/-- The line on which a name is bound last, if a type is inferred for it there. -/
def bindingLine? (name : Text) (occurrences : List Occurrence) : Except Fault (Option Int) := do
  let named ← occurrences.filterM fun occurrence => do
    return (← occurrence.name.required).same (.text name)
  let placed ← named.mapM fun occurrence => do
    return (occurrence, ← positionOf occurrence)
  match lastOf placed with
  | none => return none
  | some (occurrence, line, _) => return if (← occurrence.types) = 0 then none else some line

/-- A script that asks for the members of a name at the indentation of one of its lines. -/
def memberProbe (source name : Text) (line : Int) : Text :=
  let lines := Text.splitOn '\n' source
  let bound := if 0 < line then (lines[line.toNat - 1]?).getD [] else []
  Text.trimEnd source ++ '\n' :: Text.indentation bound ++ name ++ ['.']

/-- The members of the type of a name that is bound on a line. -/
def typeAt (engine : Engine ε π σ) (project : π) (source name : Text) (line : Int) :
    InferredType (Client ε π) where
  members := do
    let probe := memberProbe source name line
    let (row, column) := endPosition probe
    let symbols ← orNone (do
      let script ← callEngine (engine.openScript probe project)
      let hits ← callEngine (engine.complete script row column)
      match hits.mapM symbolFor with
      | .ok symbols => return some symbols
      | .error fault => throw fault)
    return symbols.getD []

/-- A script that the engine was handed. -/
def scopeOf (engine : Engine ε π σ) (project : π) (script : σ) (source : Text) :
    Scope (Client ε π) where
  symbolsAt start := do
    let (row, column) := endPosition source
    let hits ← orNone (do return some (← callEngine (engine.complete script row column)))
    match (hits.getD []).filterMapM (symbolStarting? start) with
    | .ok symbols => return symbols
    | .error fault => throw fault
  typeOfBinding name := do
    let line ← orNone (do
      let occurrences ← callEngine (engine.bindings script)
      match bindingLine? name occurrences with
      | .ok line => return line
      | .error fault => throw fault)
    return line.map (typeAt engine project source name)

/-- The engine as an indexer. -/
def indexer (engine : Engine ε π σ) : Indexer (Client ε π) where
  parse source :=
    orNone do
      let project ← parsingProject engine
      let script ← callEngine (engine.openScript source project)
      return some (scopeOf engine project script source)

/-- The modules among what a name refers to. -/
def modulesAmong (targets : List Target) : Except Fault (List Target) :=
  targets.filterM fun target => do
    return (← target.kind.required).same (.text "module".toList)

/-- What a module exports, by name. -/
def exportsFrom (hits : List Hit) : Except Fault (Entries Symbol) := do
  let entries ← hits.mapM fun hit => do
    let name ← (← hit.name.required).display
    return (name, ← symbolFor hit)
  return Entries.insertAll [] entries

/-- The module of a name and what could be imported from it, if the engine finds it. -/
def locateModule (engine : Engine ε π σ) (name : Text) :
    Query (Client ε π) (Option (Target × List Hit)) :=
  orNone do
    let project ← resolvingProject engine
    let probe := "import ".toList ++ name
    let script ← callEngine (engine.openScript probe project)
    let targets ← callEngine (engine.locate script 1 ((probe.length : Int) - 1))
    match modulesAmong targets with
    | .error fault => throw fault
    | .ok [] => return none
    | .ok (target :: _) =>
      let listing := "from ".toList ++ name ++ " import ".toList
      let script ← callEngine (engine.openScript listing project)
      return some (target, ← callEngine (engine.complete script 1 listing.length))

/-- The engine as a resolver. -/
def resolver (engine : Engine ε π σ) : Resolver (Client ε π) where
  resolve dotted := do
    let name := Text.trim dotted
    if name.isEmpty then return none
    else
      match ← locateModule engine name with
      | none => return none
      | some (target, hits) =>
        let answer : Except Fault Resolved := do
          let exports ← exportsFrom hits
          let path ← (← target.path.required).displayTrue
          return { name, exports, path }
        match answer with
        | .ok module => return some module
        | .error fault => throw fault

end Caret.Engine
