import Caret.Modules.Symbol

/-!
# Questions to collaborators

Parsing scripts, inferring types and resolving modules is done by others. A question to one of them
may look at the files and at the load path, keeps whatever state the collaborator has, and may fail.
It cannot change the load path: its type has no way to.
-/

namespace Caret.Completion

open Files Modules

/-- What a collaborator may look at. -/
structure View where
  disk : Disk
  loadPath : LoadPath

/-- A question to a collaborator with state `ε`. The state is kept even when the question fails. -/
abbrev Query (ε α : Type) := ReaderT View (ExceptT Fault (StateM ε)) α

/-- A type that was inferred. -/
structure InferredType (ε : Type) where
  members : Query ε (List Symbol)

/-- A script that was parsed. -/
structure Scope (ε : Type) where
  /-- The symbols visible at the end of the script that start with a text. -/
  symbolsAt : Text → Query ε (List Symbol)
  /-- The type of what a name is bound to, if it is known. -/
  typeOfBinding : Text → Query ε (Option (InferredType ε))

/-- Parses scripts; answers nothing where a script cannot be parsed. -/
structure Indexer (ε : Type) where
  parse : Text → Query ε (Option (Scope ε))

/-- Resolves modules by their dotted names. -/
structure Resolver (ε : Type) where
  resolve : Text → Query ε (Option Resolved)

namespace Resolver

variable {ε : Type}

/-- Resolves the modules on the load path from their files. -/
def onLoadPath [CharacterNames] : Resolver ε where
  resolve name := do
    let view ← read
    match view.loadPath.resolve? view.disk name with
    | .ok resolved? => return resolved?
    | .error fault => throw fault

/-- The answer of the first resolver that finds a module. One that fails is passed over. -/
def firstOf : List (Resolver ε) → Text → Query ε (Option Resolved)
  | [], _ => return none
  | resolver :: rest, name => fun view state =>
    match resolver.resolve name view state with
    | (.ok (some resolved), state) => (.ok (some resolved), state)
    | (_, state) => firstOf rest name view state

/-- Asks several resolvers in turn. -/
def chain (resolvers : List (Resolver ε)) : Resolver ε where
  resolve := firstOf resolvers

end Resolver

end Caret.Completion
