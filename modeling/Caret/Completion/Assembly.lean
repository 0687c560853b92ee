import Caret.Classes.Discovery
import Caret.Completion.Binding
import Caret.Completion.Candidate
import Caret.Completion.Query
import Caret.Text.LowerCase

/-!
# Candidates for what is being typed

Each form of line has its own source of candidates. All of them build the line as it would be after
completion and cut it at the column where the seed starts, so that every candidate fits the caret.
-/

namespace Caret.Completion

open Files Modules

/-- The collaborators and the choice that candidates depend on. -/
structure Assembler (ε : Type) where
  indexer : Indexer ε
  resolver : Resolver ε
  caseSensitive : Bool

/-- The words for modules of the library and of the load path. -/
def libraryDescription : Text := "Python standard library module".toList

@[inherit_doc libraryDescription]
def customDescription : Text := "Custom python module".toList

/-- The candidate that turns the line of a context into a full line. -/
def candidateFor (context : Line.Context) (full display description : Text) : Candidate :=
  let replacement := full.drop context.replaceStart
  .shownAs replacement (if display.isEmpty then Text.trim full else display) []
    (Text.startsWith replacement context.seed) description

/-- The items with new keys, in order. -/
def firstByKey {α : Type} (key : α → Text) (items : List α) : List α :=
  items.foldl (fun kept item =>
    if kept.any (key · == key item) then kept else kept ++ [item]) []

/-- The modules that a library's index offers for a path; none until the index is built. -/
def libraryModules (library : Build Index) (path : Text) : List Text :=
  match library with
  | .done index => index.startingWith path
  | _ => []

/-- Candidates for a module path: the library's modules and then those on the load path. -/
def packageCandidates (view : View) (library : Build Index) (context : Line.Context)
    (keyword path : Text) (start : Nat) : List Candidate :=
  let head := context.line.take start
  let ending := if keyword = "from".toList then " import ".toList else []
  let found :=
    (libraryModules library path).map (·, libraryDescription) ++
      (view.loadPath.modulesStartingWith view.disk path).map (·, customDescription)
  (firstByKey (·.1) found).map fun (module, description) =>
    candidateFor context (head ++ module ++ ending) (keyword ++ ' ' :: module ++ ending) description

/-- The names of the modules and packages directly inside a directory, in code point order. -/
def directoryContents (disk : Disk) (directory : Text) : List Text :=
  match disk.list directory with
  | .error _ => []
  | .ok entries =>
    (sorted entries).filterMap fun entry =>
      let name? :=
        if disk.isDirectory (Path.join directory entry) then some entry
        else if Text.endsWith entry fileEnding then some (entry.take (entry.length - 3))
        else none
      name?.filter fun name => name != packageFile && Script.isName name

/-- The names inside a package that start with a text: those of its directories on the load path, and
of the directory of its own file. -/
def packageContents (view : View) (package file start : Text) : List Text :=
  let directories := view.loadPath.packageDirectories view.disk package
  let directories :=
    if Path.fileName file = packageFile ++ fileEnding &&
        !directories.contains (Path.directory file) then
      directories ++ [Path.directory file]
    else directories
  Text.distinct
    ((directories.flatMap (directoryContents view.disk)).filter (Text.startsWith · start))

/-- Candidates for a name that is imported from a module: what the module exports, or what is inside
it if it exports nothing. -/
def memberCandidates (view : View) (context : Line.Context) (name : Text) (typed : Text)
    (module : Resolved) : List Candidate :=
  let head := context.line.take (context.line.length - typed.length)
  let head := if (head.getLast?).any Text.isSpace then head else head ++ [' ']
  let candidate (symbol description : Text) :=
    candidateFor context (head ++ symbol)
      ("from ".toList ++ name ++ " import ".toList ++ symbol) description
  if module.exports.isEmpty then
    (packageContents view name module.path typed).map (candidate · [])
  else
    (module.exports.filter fun (key, _) => Text.startsWith key typed).map fun (key, symbol) =>
      candidate key symbol.detail

/-- Candidates for a name by itself: the symbols of the scope that start with it. -/
def nameCandidates (context : Line.Context) (name : Text) (symbols : List Symbol) :
    List Candidate :=
  (firstByKey (·.name) (symbols.filter fun symbol => Text.startsWith symbol.name name)).map
    fun symbol =>
      candidateFor context (context.line ++ symbol.name.drop name.length) symbol.name symbol.detail

/-- Whether a member is offered for what is typed of it: it holds it, in any case unless cases are
told apart. -/
def isOffered (caseSensitive : Bool) (typed member : Text) : Bool :=
  if caseSensitive then Text.occursIn typed member
  else Text.occursIn (Text.lower typed) (Text.lower member)

/-- Candidates for a member: the members that hold what is typed. -/
def accessCandidates (caseSensitive : Bool) (context : Line.Context) (typed : Text)
    (members : List Symbol) : List Candidate :=
  let head := context.line.take (context.line.length - typed.length)
  (firstByKey (·.name) (members.filter fun symbol => isOffered caseSensitive typed symbol.name)).map
    fun symbol =>
      { candidateFor context (head ++ symbol.name) symbol.name symbol.detail with
        prefixMatch := Text.startsWith symbol.name typed }

/-- The candidates for a context. -/
def Assembler.assemble {ε : Type} (assembler : Assembler ε) (library : Build Index)
    (context : Line.Context) : Query ε (List Candidate) := do
  match context.form with
  | .package keyword path start =>
    return packageCandidates (← read) library context keyword path start
  | .member name typed =>
    match ← assembler.resolver.resolve name with
    | none => return []
    | some module => return memberCandidates (← read) context name typed module
  | .name name =>
    match ← assembler.indexer.parse (context.prior ++ context.line) with
    | none => return []
    | some scope => return nameCandidates context name (← scope.symbolsAt name)
  | .access expression typed =>
    let binding := bindingFor context expression typed
    match ← assembler.indexer.parse binding.source with
    | none => return []
    | some scope =>
      match ← scope.typeOfBinding binding.name with
      | none => return []
      | some inferred =>
        return accessCandidates assembler.caseSensitive context typed (← inferred.members)

end Caret.Completion
