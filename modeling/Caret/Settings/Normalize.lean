import Caret.Value.Display
import Caret.Value.Conversion

/-!
# Completion settings

The settings that completion runs with, made from whatever a settings file or a caller holds: missing
settings take their defaults, numbers are brought into range, and texts are trimmed. Settings that
are not known are kept as they are.
-/

namespace Caret.Settings

/-- The settings of completion. -/
structure Completion where
  enabled : Bool := true
  maxItems : Int := 500
  caseSensitiveMembers : Bool := false
  /-- The path or pattern of the library; nothing for the standard library. -/
  libraryArchive : Text := []
  loadPath : List Text := []
  classDiscovery : Bool := true
  debug : Int := 0
  /-- Settings that are not known. -/
  other : Members := []

/-- The names of the settings. -/
def keys : List Text :=
  ["enabled", "max_items", "case_sensitive_members", "library_archive", "load_path",
    "class_discovery", "debug"].map String.toList

/-- The settings as the members of an object. -/
def Completion.toMembers (settings : Completion) : Members :=
  [("enabled".toList, .bool settings.enabled),
    ("max_items".toList, .int settings.maxItems),
    ("case_sensitive_members".toList, .bool settings.caseSensitiveMembers),
    ("library_archive".toList, .text settings.libraryArchive),
    ("load_path".toList, .list (settings.loadPath.map .text)),
    ("class_discovery".toList, .bool settings.classDiscovery),
    ("debug".toList, .int settings.debug)] ++ settings.other

/-- A number brought between two bounds. -/
def clamp (low high i : Int) : Int :=
  max low (min high i)

/-- The directories that a value lists: a text by itself, the items of a list, or the keys of an
object; nothing where the value counts as false. -/
def listed : Value → Except Fault (List Value)
  | .text t => .ok (if t.isEmpty then [] else [.text t])
  | .list items => .ok items
  | .object members => .ok (members.map fun (key, _) => .text key)
  | value => if value.isTrue then .error .badType else .ok []

/-- The directories of a load path: the items in running text, trimmed, without blank ones. -/
def directoriesOf (items : List Value) : Except Fault (List Text) :=
  (items.mapM Value.displayTrue).map fun texts => (texts.map Text.trim).filter (!·.isEmpty)

/-- The settings that a value holds, its own where it is an object with them and the defaults for
the others. A number that is too large, a path that cannot be written and a load path that lists
nothing are faults. -/
def normalize (config : Value) : Except Fault Completion := do
  let defaults : Completion := {}
  let members := config.members?.getD []
  let setting (key : String) (default : Value) : Value :=
    (Entries.get? members key.toList).getD default
  let maxItems ← (setting "max_items" (.int defaults.maxItems)).toIntOr defaults.maxItems
  let archive ← (setting "library_archive" (.text [])).displayTrue
  let paths ← listed (setting "load_path" (.list []))
  let directories ← directoriesOf paths
  let debug ← (setting "debug" (.int defaults.debug)).toIntOr defaults.debug
  return {
    enabled := (setting "enabled" (.bool defaults.enabled)).isTrue
    maxItems := clamp 5 5000 maxItems
    caseSensitiveMembers :=
      (setting "case_sensitive_members" (.bool defaults.caseSensitiveMembers)).isTrue
    libraryArchive := Text.trim archive
    loadPath := directories
    classDiscovery := (setting "class_discovery" (.bool defaults.classDiscovery)).isTrue
    debug := clamp 0 3 debug
    other := members.filter fun (key, _) => !keys.contains key }

/-- The members of an object as a caller gives it: an object, a list of pairs, or nothing at all. A
pair is a list, a text or an object of two; its first part must be a key. -/
def members (config : Value) : Except Fault Members :=
  if !config.isTrue then .ok []
  else
    match config with
    | .object members => .ok members
    | .list items => (items.mapM pair).map (Entries.insertAll [])
    | .text _ => .error .badValue
    | _ => .error .badType
where
  /-- A key and its value. -/
  pair (item : Value) : Except Fault (Text × Value) :=
    match item with
    | .list [key, value] => (keyText key).map (·, value)
    | .text [a, b] => .ok ([a], .text [b])
    | .object [(a, _), (b, _)] => .ok (a, .text b)
    | .list _ | .text _ | .object _ => .error .badValue
    | _ => .error .badType
  /-- A key in its written form. -/
  keyText : Value → Except Fault Text
    | .text t => .ok t
    | .null => .ok "null".toList
    | .bool b => .ok (if b then "true" else "false").toList
    | .int i => .ok (Text.ofInt i)
    | .real x => .ok x.display
    | _ => .error .badType

end Caret.Settings
