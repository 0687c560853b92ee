import Caret.Files.Tree

/-!
# Real paths

The real path of a path has no links left in it. Names that do not exist are kept as they are, and
so is a link whose own path is too long to be looked at. If links lead in a circle, the names from
the circle on are kept too, and the path cannot be used.
-/

namespace Caret.Files

mutual

/-- The number of links in a node. -/
def Node.linkCount : Node → Nat
  | .file _ => 0
  | .link _ => 1
  | .directory entries => linkCountAll entries

/-- The number of links in the entries of a directory. -/
def Node.linkCountAll : List (Text × Node) → Nat
  | [] => 0
  | (_, node) :: rest => node.linkCount + linkCountAll rest

end

/-- The path of a place. -/
def pathOf (place : Place) : Text :=
  '/' :: Text.join ['/'] place

/-- Where the link at a place leads. It is not seen where its path is too long. -/
def Node.linkAt? (tree : Node) (place : Place) : Option Text :=
  match tree.at? place with
  | some (.link target) => if byteLength (pathOf place) < maxPath then some target else none
  | _ => none

/-- The links met so far, with the places that they lead to; none yet for those being followed. -/
abbrev Followed := List (Place × Option Place)

/-- Walks from a place over names and replaces links by what they lead to. How a link is followed is
given. In a circle the answer is the names that are left as they are. -/
def realWith (tree : Node)
    (follow : Followed → Place → List Text → Except (List Text) (Place × Followed)) :
    Followed → Place → List Text → Except (List Text) (Place × Followed)
  | followed, here, [] => .ok (here, followed)
  | followed, here, name :: rest =>
    if name = [] ∨ name = ['.'] then realWith tree follow followed here rest
    else if name = Path.parentName then realWith tree follow followed here.dropLast rest
    else
      let next := here ++ [name]
      match tree.linkAt? next with
      | some target =>
        match List.lookup next followed with
        | some (some place) => realWith tree follow followed place rest
        | some none => .error (next ++ rest)
        | none =>
          let start := if Path.isAbsolute target then [] else here
          match follow ((next, none) :: followed) start (Text.splitOn '/' target) with
          | .ok (place, followed) =>
            realWith tree follow ((next, some place) :: followed) place rest
          | .error names => .error (names ++ rest)
      | none => realWith tree follow followed next rest

/-- Walks from a place over names, following links nested to a depth. -/
def realPlace (tree : Node) :
    Nat → Followed → Place → List Text → Except (List Text) (Place × Followed)
  | 0 => realWith tree fun _ here names => .error (here ++ names)
  | depth + 1 => realWith tree (realPlace tree depth)

/-- The real path of a path. -/
def Disk.realPath (disk : Disk) (path : Text) : Text :=
  let start := if Path.isAbsolute path then [] else Path.names disk.cwd
  let names :=
    match realPlace disk.tree (disk.tree.linkCount + 1) [] start (Text.splitOn '/' path) with
    | .ok (place, _) => place
    | .error names => Path.collapse true (names.filter fun name => !name.isEmpty && name != ['.'])
  pathOf names

/-- The real path of a path, unless what is left of its links leads in a circle. -/
def Disk.resolve? (disk : Disk) (path : Text) : Option Text :=
  match disk.node (disk.realPath path) with
  | .error .tooManyLinks => none
  | _ => some (disk.realPath path)

end Caret.Files
