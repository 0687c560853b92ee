import Caret.Text.Basic

/-!
# Paths as text

The operations on paths that look at nothing but their text. Names are separated by slashes; a path
that starts with one is absolute. Two slashes in front are kept apart from one, three and more are
one.
-/

namespace Caret.Path

/-- Whether a path starts at the root. -/
def isAbsolute (path : Text) : Bool :=
  path.head? == some '/'

/-- A path behind another one. An absolute path takes the place of everything before it. -/
def join (base path : Text) : Text :=
  if isAbsolute path then path
  else if base.isEmpty || Text.endsWith base ['/'] then base ++ path
  else base ++ '/' :: path

/-- Several paths behind another one. -/
def joinAll (base : Text) (paths : List Text) : Text :=
  paths.foldl join base

/-- The slashes that a path keeps in front. -/
def root (path : Text) : Text :=
  match (path.takeWhile (· == '/')).length with
  | 0 => []
  | 2 => ['/', '/']
  | _ => ['/']

/-- The names of a path, without empty ones and the name of the current directory. -/
def names (path : Text) : List Text :=
  (Text.splitOn '/' path).filter fun name => !name.isEmpty && name != ['.']

/-- A path with each repeated slash and each name of the current directory left out. -/
def tidy (path : Text) : Text :=
  let text := root path ++ Text.join ['/'] (names path)
  if text.isEmpty then ['.'] else text

/-- The name of the parent directory. -/
def parentName : Text := ['.', '.']

/-- The names of a path with each step to a parent carried out on the names before it. A step out
of the root goes nowhere; in a relative path steps may be left over. -/
def collapse (absolute : Bool) (names : List Text) : List Text :=
  names.foldl (fun done name =>
    if name != parentName then done ++ [name]
    else if done.isEmpty then (if absolute then [] else [name])
    else if done.getLast? == some parentName then done ++ [name]
    else done.dropLast) []

/-- A path in its normal form. -/
def normalize (path : Text) : Text :=
  let text := root path ++ Text.join ['/'] (collapse (isAbsolute path) (names path))
  if text.isEmpty then ['.'] else text

/-- The normal form of a path seen from a current directory. -/
def absolute (cwd path : Text) : Text :=
  normalize (if isAbsolute path then path else join cwd path)

/-- What is left of two lists without the items they have in common at the start. -/
def dropCommon : List Text → List Text → List Text × List Text
  | a :: as, b :: bs => if a = b then dropCommon as bs else (a :: as, b :: bs)
  | as, bs => (as, bs)

/-- The path that leads from a directory to another path. -/
def relative (cwd path start : Text) : Text :=
  let (up, down) := dropCommon (names (absolute cwd start)) (names (absolute cwd path))
  let steps := up.map (fun _ => parentName) ++ down
  if steps.isEmpty then ['.'] else Text.join ['/'] steps

/-- A path's directory and its last name. -/
def split (path : Text) : Text × Text :=
  match Text.splitLast? '/' path with
  | none => ([], path)
  | some (before, name) =>
    let trimmed := Text.dropEndWhile (· == '/') before
    (if trimmed.isEmpty then before ++ ['/'] else trimmed, name)

/-- The last name of a path. -/
def fileName (path : Text) : Text :=
  (split path).2

/-- The directory of a path. -/
def directory (path : Text) : Text :=
  (split path).1

/-- The directory of a tidy path, tidy again. -/
def parent (path : Text) : Text :=
  let text := root path ++ Text.join ['/'] (names path).dropLast
  if text.isEmpty then ['.'] else text

/-- What follows a home directory, behind it. -/
def behindHome (home rest : Text) : Text :=
  let text := Text.dropEndWhile (· == '/') home ++ rest
  if text.isEmpty then ['/'] else text

/-- Replaces a tilde in front by a home directory: that of the user whose name stands behind it, and
one's own where no name does. It stays if no user has that name; there is no result if no user can
have it. -/
def expandHome? (home : Text) (users : List (Text × Text)) (path : Text) : Option Text :=
  match path with
  | '~' :: rest =>
    let user := rest.takeWhile (· != '/')
    if user.isEmpty then some (behindHome home rest)
    else if user.contains '\x00' then none
    else
      match List.lookup user users with
      | some home => some (behindHome home (rest.drop user.length))
      | none => some path
  | _ => some path

end Caret.Path
