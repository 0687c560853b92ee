import Caret.Completion.Provider
import Caret.Engine.Client
import Caret.Settings.Normalize

/-!
# The completion service

Completion set up from settings: the library and its indexes, the load path, and an inference engine
that parses scripts and resolves what is not on the load path. The indexes are built in the
background; how far that has come is given.
-/

namespace Caret

open Completion Engine Files Modules

/-- Completion that is ready for use, with what does not change from one request to the next. -/
structure Service (ε π : Type) where
  settings : Settings.Completion
  libraryLocation : Text
  provider : Provider (Client ε π)

/-- Which of the indexes are built. -/
structure Progress where
  modules : Bool := true
  classes : Bool := true

/-- What a service keeps from one request to the next. -/
abbrev Service.State (ε π : Type) := Completion.State (Client ε π)

namespace Service

variable [CharacterNames] {ε π σ : Type}

/-- The classes of the library and of the load path. -/
def classes (disk : Disk) (progress : Progress) (settings : Settings.Completion) (library : Text)
    (loadPath : LoadPath) : Option Classes.Discovery :=
  if settings.classDiscovery then
    let index := Classes.indexOf disk (library :: loadPath.directories)
    some (.ofBuild (.of progress.classes index))
  else none

/-- The service for some settings. -/
def ofSettings (engine : Engine ε π σ) (disk : Disk) (progress : Progress)
    (settings : Settings.Completion) (state : ε) : Except Fault (Service ε π × State ε π) := do
  let loadPath ← LoadPath.addAll disk {} settings.loadPath
  let library ← Modules.libraryLocation disk settings.libraryArchive
  let service : Service ε π := {
    settings
    libraryLocation := library
    provider := {
      assembler := {
        indexer := Engine.indexer engine
        resolver := .chain [.onLoadPath, Engine.resolver engine]
        caseSensitive := settings.caseSensitiveMembers }
      library := .of progress.modules (Modules.indexOf disk library)
      classes := classes disk progress settings library loadPath
      maxItems := settings.maxItems } }
  return (service, { loadPath, engine := { engine := state } })

/-- The service for settings as a caller gives them. -/
def start (engine : Engine ε π σ) (disk : Disk) (progress : Progress) (settings : Value)
    (state : ε) : Except Fault (Service ε π × State ε π) := do
  let members ← Settings.members settings
  let settings ← Settings.normalize (.object members)
  ofSettings engine disk progress settings state

/-- Completes at the caret of an editor. A service that is switched off does not look at it. -/
def complete (service : Service ε π) (disk : Disk) (view : Editor.View) :
    StateM (State ε π) Result :=
  if service.settings.enabled then service.provider.complete disk view else pure .empty

/-- Whether the modules of the library are known. -/
def isReady (service : Service ε π) : Bool :=
  service.provider.library.isReady

/-- Waits for the indexes, first that of the modules. One that is not built by then is a fault. -/
def wait (service : Service ε π) : Except Fault Unit := do
  if !service.isReady then throw .timeout
  match service.provider.classes with
  | none => return ()
  | some discovery => if ← discovery.isReady then return () else throw .timeout

end Service

end Caret
