import Caret.Text.Utf8

/-!
# Archives

An archive is a list of named entries. A name may occur more than once: the list of names shows each
entry, while reading a name gives the last one. An entry may be damaged or locked.

The format is idealised. How the entries are laid out and packed in the bytes of a file is left open: a
file holds either such a list or plain bytes, and of these only the record that ends an archive is
looked at.
-/

namespace Caret.Files

/-- Why an entry cannot be read. -/
inductive Obstacle where
  | badChecksum
  | encrypted
  deriving DecidableEq

/-- An entry of an archive. -/
structure ArchiveEntry where
  name : Text
  content : Text.Bytes
  obstacle : Option Obstacle
  deriving DecidableEq

/-- The entries of an archive, in order. -/
abbrev Archive := List ArchiveEntry

namespace Archive

/-- The names of the entries. -/
def names (archive : Archive) : List Text :=
  archive.map (·.name)

/-- The entry that a name gives: the last one of that name. -/
def entry? (archive : Archive) (name : Text) : Option ArchiveEntry :=
  archive.reverse.find? (·.name == name)

end Archive

/-- What a file holds. -/
inductive Content where
  | bytes (data : Text.Bytes)
  | archive (entries : Archive)
  deriving DecidableEq

/-- What a file is when it is opened as an archive. -/
inductive Opened where
  /-- No archive. -/
  | other
  /-- It ends like an archive, but its directory is not where it says. -/
  | broken
  | entries (archive : Archive)
  deriving DecidableEq

/-- A number in little endian bytes. -/
def littleEndian (bytes : Text.Bytes) : Nat :=
  bytes.foldr (fun b value => value * 256 + b.toNat) 0

/-- The record that ends an archive: 22 bytes with a mark in front and no comment behind. -/
def endRecord? (data : Text.Bytes) : Option Text.Bytes :=
  let last := data.drop (data.length - 22)
  if last.length = 22 ∧ last.take 4 = [0x50, 0x4B, 0x05, 0x06] ∧ last.drop 20 = [0, 0] then some last
  else none

/-- Opens a file as an archive. Bytes with an end record and no directory are an empty archive. -/
def Content.opened : Content → Opened
  | .archive entries => .entries entries
  | .bytes data =>
    match endRecord? data with
    | none => .other
    | some record =>
      let size := littleEndian ((record.drop 12).take 4)
      if size = 0 then .entries [] else .broken

end Caret.Files
