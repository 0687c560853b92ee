import Caret.Files.Tree

/-!
# Patterns for paths

A pattern matches paths name by name: a star stands for any characters, a question mark for one, and
a bracket for one of a set, which may have ranges and may be negated. Hidden names are matched only
by a pattern that starts with a dot itself. A directory that is to be searched and whose path can be
none is an error.
-/

namespace Caret.Files.Glob

/-- Whether a text is a pattern at all. -/
def isPattern (text : Text) : Bool :=
  text.any fun c => c == '*' || c == '?' || c == '['

/-- What one part of a pattern stands for. -/
inductive Part where
  | any
  | one
  | char (c : Char)
  | set (negated : Bool) (ranges : List (Char × Char))
  deriving DecidableEq

/-- Cuts the inside of a bracket at the hyphens that make ranges. The first characters of each piece
are protected: a hyphen among them stands for itself. -/
def cut : Nat → Text → Text → List Text
  | _, held, [] => [held.reverse]
  | p + 1, held, c :: cs => cut p (c :: held) cs
  | 0, held, c :: cs => if c = '-' then held.reverse :: cut 2 [] cs else cut 0 (c :: held) cs

/-- A final hyphen stands for itself. -/
def closeLast : List Text → List Text
  | [] => []
  | [a, []] => [a ++ ['-']]
  | a :: rest => a :: closeLast rest

/-- Removes the ranges that are empty because they run backwards, together with their ends. -/
def dropEmptyRanges (pieces : List Text) : List Text :=
  pieces.foldr (fun piece rest =>
    match rest with
    | next :: more =>
      match piece.getLast?, next.head? with
      | some a, some b =>
        if b.toNat < a.toNat then (piece.dropLast ++ next.drop 1) :: more else piece :: next :: more
      | _, _ => piece :: next :: more
    | [] => [piece]) []

/-- The ranges of a set from its pieces: one from the end of each piece to the start of the next,
and every other character by itself. The end of the piece before is given. -/
def ranges : Option Char → List Text → List (Char × Char)
  | _, [] => []
  | start, piece :: more =>
    let (joined, singles) :=
      match start, piece with
      | some a, b :: others => ([(a, b)], others)
      | _, _ => ([], piece)
    if more.isEmpty then joined ++ singles.map fun c => (c, c)
    else joined ++ singles.dropLast.map (fun c => (c, c)) ++ ranges singles.getLast? more

/-- The part that a bracket's inside stands for. -/
def bracket (inside : Text) : Part :=
  let pieces := dropEmptyRanges (closeLast (cut (if inside.head? = some '!' then 2 else 1) [] inside))
  match pieces with
  | ('!' :: piece) :: more => .set true (ranges none (piece :: more))
  | _ => .set false (ranges none pieces)

/-- Where the inside of a bracket ends, if the bracket is closed. A closing bracket in front, or
behind a negation, is part of the inside. -/
def inside? (text : Text) : Option (Text × Text) :=
  let negation := if text.head? = some '!' then 1 else 0
  let first := if (text.drop negation).head? = some ']' then negation + 1 else negation
  let rest := text.drop first
  let body := rest.takeWhile (· ≠ ']')
  match rest.dropWhile (· ≠ ']') with
  | _ :: after => some (text.take first ++ body, after)
  | [] => none

/-- The parts of a pattern. A bracket that is not closed stands for itself. -/
def parts : Nat → Text → List Part
  | 0, _ => []
  | _, [] => []
  | fuel + 1, c :: cs =>
    if c = '*' then .any :: parts fuel cs
    else if c = '?' then .one :: parts fuel cs
    else if c = '[' then
      match inside? cs with
      | some (inside, after) => bracket inside :: parts fuel after
      | none => .char c :: parts fuel cs
    else .char c :: parts fuel cs

/-- The text and all that is left of it after some of its characters. -/
def suffixes : Text → List Text
  | [] => [[]]
  | c :: cs => (c :: cs) :: suffixes cs

/-- Whether one character fits one part of a pattern. -/
def Part.fits (part : Part) (c : Char) : Bool :=
  match part with
  | .any | .one => true
  | .char d => c == d
  | .set negated ranges => negated != ranges.any fun (a, b) => a.toNat ≤ c.toNat && c.toNat ≤ b.toNat

/-- Whether a name fits the parts of a pattern. -/
def fits : List Part → Text → Bool
  | [], name => name.isEmpty
  | .any :: rest, name => (suffixes name).any (fits rest ·)
  | part :: rest, c :: name => part.fits c && fits rest name
  | _ :: _, [] => false

/-- Whether a name is hidden. -/
def isHidden (name : Text) : Bool :=
  name.head? == some '.'

/-- The names in a directory, none if it cannot be listed. -/
def listed (disk : Disk) (directory : Text) : Except Cause (List Text) :=
  match disk.list (if directory.isEmpty then ['.'] else directory) with
  | .ok names => .ok names
  | .error .invalidPath => .error .invalidPath
  | .error _ => .ok []

/-- The names in a directory that fit a pattern, only those of directories if asked for. -/
def namesIn (disk : Disk) (directory pattern : Text) (directoriesOnly : Bool) :
    Except Cause (List Text) :=
  (listed disk directory).map fun names =>
    names.filter fun name =>
      (isHidden pattern || !isHidden name) && fits (parts (pattern.length + 1) pattern) name &&
        (!directoriesOnly || disk.isDirectory (Path.join directory name))

/-- A name in a directory, if it is there. An empty one stands for the directory itself. -/
def nameIn (disk : Disk) (directory name : Text) : List Text :=
  if name.isEmpty then (if disk.isDirectory directory then [name] else [])
  else if disk.isPresent (Path.join directory name) then [name] else []

/-- The paths in a directory whose names fit a pattern, or the one with a name that is none. -/
def pathsIn (disk : Disk) (name : Text) (directoriesOnly : Bool) (directory : Text) :
    Except Cause (List Text) := do
  let names ←
    if isPattern name then namesIn disk directory name directoriesOnly
    else pure (nameIn disk directory name)
  return names.map (Path.join directory)

/-- The paths that a pattern matches, with the directories above found to a depth. -/
def pathsAt (disk : Disk) : Nat → Bool → Text → Except Cause (List Text)
  | 0, _, _ => .ok []
  | depth + 1, directoriesOnly, pattern => do
    let (directory, name) := Path.split pattern
    if !isPattern pattern then
      return if name.isEmpty then (if disk.isDirectory directory then [pattern] else [])
        else if disk.isPresent pattern then [pattern] else []
    else if directory.isEmpty then namesIn disk [] name directoriesOnly
    else
      let directories ←
        if directory ≠ pattern ∧ isPattern directory then pathsAt disk depth true directory
        else pure [directory]
      let found ← directories.mapM (pathsIn disk name directoriesOnly)
      return found.flatten

/-- The paths that a pattern matches. -/
def paths (disk : Disk) (pattern : Text) : Except Cause (List Text) :=
  pathsAt disk (pattern.length + 1) false pattern

end Caret.Files.Glob
