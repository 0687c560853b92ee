import Caret.Files.Tree
import Caret.Proofs.Files.Path

/-!
# Looking up paths

What can be listed in a directory and what can be reached through it are the same names: a path that
leads to a directory has led through the directory above it, and that one lists the last name of the
path. The trees are those of a file system, where each directory gives its entries different names.
-/

namespace Caret.Files

open Caret.Path (IsEntryName IsNormal IsRoot ofNames parentName)

/-! ### Trees of a file system -/

mutual

/-- Whether the names in each directory of a tree pass a test. -/
def Node.allDirectories (test : List Text → Bool) : Node → Bool
  | .directory entries => test (entries.map (·.1)) && allDirectoriesIn test entries
  | _ => true

/-- Whether the names in each directory below the entries of a directory pass a test. -/
def Node.allDirectoriesIn (test : List Text → Bool) : List (Text × Node) → Bool
  | [] => true
  | (_, node) :: rest => node.allDirectories test && allDirectoriesIn test rest

end

/-- The entries of each directory have different names, and names that entries can have. -/
def Node.IsProper (tree : Node) : Prop :=
  tree.allDirectories (fun names => decide (names.Nodup ∧ ∀ name ∈ names, IsEntryName name)) = true

/-- No name in a tree has a character in it. -/
def Node.IsFreeOf (c : Char) (tree : Node) : Prop :=
  tree.allDirectories (fun names => decide (∀ name ∈ names, c ∉ name)) = true

instance (tree : Node) : Decidable tree.IsProper :=
  inferInstanceAs (Decidable (_ = true))

instance (c : Char) (tree : Node) : Decidable (tree.IsFreeOf c) :=
  inferInstanceAs (Decidable (_ = true))

variable {tree : Node} {disk : Disk}

theorem Node.allDirectories_of_lookup {test : List Text → Bool} {entries : List (Text × Node)}
    {name : Text} {child : Node} (hall : allDirectoriesIn test entries = true)
    (hlookup : List.lookup name entries = some child) : child.allDirectories test = true := by
  induction entries with
  | nil => cases hlookup
  | cons entry rest ih =>
    obtain ⟨key, node⟩ := entry
    rw [allDirectoriesIn, Bool.and_eq_true] at hall
    rw [List.lookup_cons] at hlookup
    split at hlookup
    · rw [← Option.some.inj hlookup]
      exact hall.1
    · exact ih hall.2 hlookup

theorem Node.test_of_at? {test : List Text → Bool} {place : Place} {entries : List (Text × Node)}
    (hall : tree.allDirectories test = true) (hat : tree.at? place = some (.directory entries)) :
    test (entries.map (·.1)) = true := by
  induction place generalizing tree with
  | nil =>
    rw [Node.at?] at hat
    obtain rfl := Option.some.inj hat
    rw [allDirectories, Bool.and_eq_true] at hall
    exact hall.1
  | cons name place ih =>
    cases tree with
    | file content => cases hat
    | link target => cases hat
    | directory entries =>
      obtain ⟨child, hlookup, hchild⟩ := Option.bind_eq_some_iff.mp hat
      rw [allDirectories, Bool.and_eq_true] at hall
      exact ih (allDirectories_of_lookup hall.2 hlookup) hchild

/-- A path that can be one leads where the walk over its names leads. -/
theorem Disk.place_eq_ok_iff {ending : Ending} {path : Text} {place : Place} :
    disk.place ending path = .ok place ↔
      '\x00' ∉ path ∧ path ≠ [] ∧ byteLength path < maxPath ∧
        walk disk.tree ending maxLinks (if Path.isAbsolute path then [] else Path.names disk.cwd)
          (Text.splitOn '/' path) = .ok place := by
  rw [Disk.place]
  by_cases hnul : '\x00' ∈ path
  · simp [hnul]
  by_cases hempty : path = []
  · simp [hempty]
  by_cases hlong : maxPath ≤ byteLength path
  · simp [hnul, hempty, hlong, Nat.not_lt.mpr hlong]
  · simp [hnul, hempty, hlong, Nat.lt_of_not_le hlong]

theorem Disk.node_eq_ok {path : Text} {node : Node} :
    disk.node path = .ok node ↔
      ∃ place, disk.place .follow path = .ok place ∧ disk.tree.at? place = some node := by
  rw [Disk.node]
  cases disk.place .follow path with
  | error cause => simp
  | ok place => cases hat : disk.tree.at? place <;> simp [hat]

theorem Disk.isDirectory_iff {path : Text} :
    disk.isDirectory path = true ↔ ∃ entries, disk.node path = .ok (.directory entries) := by
  rw [Disk.isDirectory]
  rcases disk.node path with cause | _ | _ | _ <;> simp

theorem Disk.list_eq_ok {path : Text} {names : List Text} :
    disk.list path = .ok names ↔
      ∃ entries, disk.node path = .ok (.directory entries) ∧ entries.map (·.1) = names := by
  rw [Disk.list]
  rcases disk.node path with cause | _ | _ | _ <;> simp

theorem Node.IsProper.list {path : Text} {names : List Text} (hproper : disk.tree.IsProper)
    (hlist : disk.list path = .ok names) : names.Nodup ∧ ∀ name ∈ names, IsEntryName name := by
  obtain ⟨entries, hnode, rfl⟩ := Disk.list_eq_ok.mp hlist
  obtain ⟨place, -, hat⟩ := Disk.node_eq_ok.mp hnode
  exact of_decide_eq_true (Node.test_of_at? hproper hat)

theorem Node.IsFreeOf.list {c : Char} {path : Text} {names : List Text}
    (hfree : disk.tree.IsFreeOf c) (hlist : disk.list path = .ok names) :
    ∀ name ∈ names, c ∉ name := by
  obtain ⟨entries, hnode, rfl⟩ := Disk.list_eq_ok.mp hlist
  obtain ⟨place, -, hat⟩ := Disk.node_eq_ok.mp hnode
  exact of_decide_eq_true (Node.test_of_at? hfree hat)

/-! ### Walks -/

/-- A walk that goes on to a name comes to a directory first, and the name is in it. -/
theorem walkWith_concat {follow : Place → List Text → Except Cause Place} {name : Text}
    (hname : IsEntryName name)
    (hfollow : ∀ here names place, follow here (names ++ [name]) = .ok place →
      ∃ above entries, follow here names = .ok above ∧
        tree.at? above = some (.directory entries) ∧ (List.lookup name entries).isSome = true)
    {here place : Place} {names : List Text}
    (hwalk : walkWith tree .follow follow here (names ++ [name]) = .ok place) :
    ∃ above entries, walkWith tree .follow follow here names = .ok above ∧
      tree.at? above = some (.directory entries) ∧ (List.lookup name entries).isSome = true := by
  obtain ⟨hne, hdot, hparent, -⟩ := hname
  induction names generalizing here with
  | nil =>
    rw [List.nil_append, walkWith] at hwalk
    split at hwalk
    · rename_i entries hat
      rw [if_neg (not_or.mpr ⟨hne, hdot⟩), if_neg hparent] at hwalk
      refine ⟨here, entries, rfl, hat, ?_⟩
      cases hlookup : List.lookup name entries with
      | none =>
        rw [hlookup] at hwalk
        split at hwalk <;> cases hwalk
      | some child => rfl
    · cases hwalk
  | cons next names ih =>
    rw [List.cons_append, walkWith] at hwalk
    rw [walkWith]
    split at hwalk
    · split at hwalk
      · rename_i hstay
        simp only [if_pos hstay]
        exact ih hwalk
      rename_i hstay
      simp only [if_neg hstay]
      split at hwalk
      · rename_i hup
        simp only [if_pos hup]
        exact ih hwalk
      rename_i hup
      simp only [if_neg hup]
      split at hwalk
      · cases hwalk
      rename_i hlong
      simp only [if_neg hlong]
      split at hwalk
      · simp at hwalk
      · simp only [reduceCtorEq, false_and, if_false, ← List.append_assoc] at hwalk ⊢
        exact hfollow _ _ _ hwalk
      · exact ih hwalk
    · cases hwalk

theorem walk_concat {name : Text} (hname : IsEntryName name) {links : Nat} {here place : Place}
    {names : List Text} (hwalk : walk tree .follow links here (names ++ [name]) = .ok place) :
    ∃ above entries, walk tree .follow links here names = .ok above ∧
      tree.at? above = some (.directory entries) ∧ (List.lookup name entries).isSome = true := by
  induction links generalizing here names place with
  | zero =>
    rw [walk] at hwalk ⊢
    exact walkWith_concat hname (by simp) hwalk
  | succ links ih =>
    rw [walk] at hwalk ⊢
    exact walkWith_concat hname (fun here names place => ih) hwalk

/-- Where a walk stays in a directory once, staying there more often makes no difference. -/
theorem walkWith_blank {ending : Ending} {follow : Place → List Text → Except Cause Place}
    {here : Place} {blank names : List Text} (hblank : ∀ name ∈ blank, name = []) :
    walkWith tree ending follow here ([] :: (blank ++ names)) =
      walkWith tree ending follow here ([] :: names) := by
  induction blank with
  | nil => rfl
  | cons name blank ih =>
    obtain ⟨rfl, hrest⟩ := List.forall_mem_cons.mp hblank
    rw [← ih hrest, List.cons_append]
    nth_rewrite 1 [walkWith]
    split
    · rfl
    · rename_i hat
      rw [walkWith]
      split
      · rename_i entries hentries
        exact absurd hentries (hat entries)
      · rfl

theorem walk_blank {ending : Ending} {links : Nat} {here : Place} {blank names : List Text}
    (hblank : ∀ name ∈ blank, name = []) :
    walk tree ending links here ([] :: (blank ++ names)) = walk tree ending links here ([] :: names) := by
  cases links with
  | zero => exact walkWith_blank hblank
  | succ links => exact walkWith_blank hblank

/-! ### Paths in normal form -/

@[simp] theorem byteLength_append (a b : Text) : byteLength (a ++ b) = byteLength a + byteLength b := by
  induction a with
  | nil => exact (Nat.zero_add _).symm
  | cons c a ih => exact (congrArg (c.utf8Size + ·) ih).trans (Nat.add_assoc _ _ _).symm

theorem byteLength_pos {text : Text} (hne : text ≠ []) : 0 < byteLength text := by
  obtain ⟨c, cs, rfl⟩ := List.exists_cons_of_ne_nil hne
  exact Nat.lt_of_lt_of_le c.utf8Size_pos (Nat.le_add_right _ _)

variable {root name : Text} {above : List Text}

theorem join_eq_append (base : Text) (hname : IsEntryName name) :
    ∃ rest, rest ≠ [] ∧ Path.join base name = base ++ rest := by
  rw [Path.join, Path.isAbsolute_eq_false hname, if_neg Bool.false_ne_true]
  split
  · exact ⟨name, hname.1, rfl⟩
  · exact ⟨'/' :: name, List.cons_ne_nil _ _, rfl⟩

theorem byteLength_lt_join (base : Text) (hname : IsEntryName name) :
    byteLength base < byteLength (Path.join base name) := by
  obtain ⟨rest, hrest, hjoin⟩ := join_eq_append base hname
  rw [hjoin, byteLength_append]
  have := byteLength_pos hrest
  omega

theorem Disk.place_ofNames (ending : Ending) (hroot : IsRoot root)
    (habove : ∀ name ∈ above, IsEntryName name) :
    disk.place ending (ofNames root above) =
      if (ofNames root above).contains '\x00' then .error .invalidPath
      else if maxPath ≤ byteLength (ofNames root above) then .error .nameTooLong
      else walk disk.tree ending maxLinks [] ([] :: above) := by
  have hempty : (ofNames root above).isEmpty = false := by
    rcases hroot with rfl | rfl <;> rfl
  obtain ⟨blank, hblank, hsplit⟩ := Path.splitOn_ofNames hroot habove
  rw [Disk.place, hempty, if_neg (by simp : ¬ false = true), Path.isAbsolute_ofNames hroot, hsplit,
    if_pos rfl]
  simp only [walk_blank hblank]

theorem Disk.byteLength_lt_of_list {path : Text} {names : List Text}
    (hlist : disk.list path = .ok names) : byteLength path < maxPath := by
  obtain ⟨entries, hnode, -⟩ := Disk.list_eq_ok.mp hlist
  obtain ⟨place, hplace, -⟩ := Disk.node_eq_ok.mp hnode
  exact (Disk.place_eq_ok_iff.mp hplace).2.2.1

/-- A path to a directory has its last name in the directory above. -/
theorem Disk.mem_list_of_isDirectory_join (hroot : IsRoot root)
    (habove : ∀ name ∈ above, IsEntryName name) (hname : IsEntryName name)
    (hdirectory : disk.isDirectory (Path.join (ofNames root above) name) = true) :
    ∃ names, disk.list (ofNames root above) = .ok names ∧ name ∈ names := by
  have hall : ∀ name' ∈ above ++ [name], IsEntryName name' := by
    simpa [or_imp, forall_and] using ⟨habove, hname⟩
  obtain ⟨rest, -, hjoin⟩ := join_eq_append (ofNames root above) hname
  have hshort := byteLength_lt_join (ofNames root above) hname
  obtain ⟨_, hnode⟩ := Disk.isDirectory_iff.mp hdirectory
  obtain ⟨place, hplace, -⟩ := Disk.node_eq_ok.mp hnode
  rw [Path.join_ofNames hroot habove hname, Disk.place_ofNames _ hroot hall] at hplace
  split at hplace
  · cases hplace
  rename_i hnul
  split at hplace
  · cases hplace
  rename_i hlong
  rw [← List.cons_append] at hplace
  obtain ⟨here, entries, hwalk, hat, hlookup⟩ := walk_concat hname hplace
  rw [← Path.join_ofNames hroot habove hname] at hlong hnul
  have hplace : disk.place .follow (ofNames root above) = .ok here := by
    rw [Disk.place_ofNames _ hroot habove, if_neg, if_neg, hwalk]
    · omega
    · rw [hjoin] at hnul
      simp only [List.contains_append, Bool.or_eq_true, not_or] at hnul
      exact hnul.1
  refine ⟨_, Disk.list_eq_ok.mpr ⟨entries, Disk.node_eq_ok.mpr ⟨here, hplace, hat⟩, rfl⟩, ?_⟩
  obtain ⟨entry, hentry, heq⟩ := List.lookup_isSome_iff.mp hlookup
  exact List.mem_map.mpr ⟨entry, hentry, (eq_of_beq heq).symm⟩

/-! ### Why a path leads nowhere -/

end Caret.Files
