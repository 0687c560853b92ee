import Caret.Files.Path
import Caret.Proofs.Text.Parts

/-!
# Paths in normal form

A path from the root in its normal form is one or two slashes with the names of entries behind them.
On such paths the operations of the library are operations on the list of names: joining puts names at
its end, and the relative path from a directory is what comes behind the directory's names.
-/

namespace Caret.Path

/-- A name that can stand for an entry of a directory. -/
def IsEntryName (name : Text) : Prop :=
  name ≠ [] ∧ name ≠ ['.'] ∧ name ≠ parentName ∧ '/' ∉ name

instance : DecidablePred IsEntryName :=
  fun _ => inferInstanceAs (Decidable (_ ∧ _ ∧ _ ∧ _))

/-- A path from the root, in its normal form. -/
def IsNormal (path : Text) : Prop :=
  isAbsolute path = true ∧ normalize path = path

instance : DecidablePred IsNormal :=
  fun _ => inferInstanceAs (Decidable (_ ∧ _))

/-- The slashes that a path from the root has in front. -/
def IsRoot (root : Text) : Prop :=
  root = ['/'] ∨ root = ['/', '/']

/-- The path over names behind some slashes. -/
def ofNames (root : Text) (names : List Text) : Text :=
  root ++ Text.join ['/'] names

variable {root : Text} {above below : List Text} {name path : Text}

/-! ### The names of a path -/

theorem head?_join (habove : ∀ name ∈ above, IsEntryName name) :
    (Text.join ['/'] above).head? ≠ some '/' := by
  cases above with
  | nil => simp
  | cons first more =>
    obtain ⟨hne, -, -, hslash⟩ := habove first List.mem_cons_self
    intro hhead
    apply hslash
    obtain ⟨c, cs, rfl⟩ := List.exists_cons_of_ne_nil hne
    rw [Text.join_cons_cons, List.head?_cons] at hhead
    rw [Option.some.inj hhead]
    exact List.mem_cons_self

theorem isAbsolute_ofNames (hroot : IsRoot root) : isAbsolute (ofNames root above) = true := by
  rcases hroot with rfl | rfl <;> rfl

theorem isEmpty_ofNames (hroot : IsRoot root) : (ofNames root above).isEmpty = false := by
  rcases hroot with rfl | rfl <;> rfl

theorem root_ofNames (hroot : IsRoot root) (habove : ∀ name ∈ above, IsEntryName name) :
    Path.root (ofNames root above) = root := by
  have htake : (Text.join ['/'] above).takeWhile (· == '/') = [] := by
    cases hjoin : Text.join ['/'] above with
    | nil => rfl
    | cons c cs =>
      have hc := head?_join habove
      rw [hjoin, List.head?_cons, ne_eq, Option.some.injEq] at hc
      simp [hc]
  rcases hroot with rfl | rfl <;> simp [Path.root, ofNames, htake]

theorem names_slash (path : Text) : names ('/' :: path) = names path := by
  rw [names, Text.splitOn, if_pos rfl]
  rfl

theorem names_ofNames (hroot : IsRoot root) (habove : ∀ name ∈ above, IsEntryName name) :
    names (ofNames root above) = above := by
  have hjoin : names (Text.join ['/'] above) = above := by
    by_cases hnil : above = []
    · subst hnil
      rfl
    rw [names, Text.splitOn_join hnil fun name hname => (habove name hname).2.2.2]
    refine List.filter_eq_self.mpr fun name hname => ?_
    obtain ⟨hne, hdot, -, -⟩ := habove name hname
    simp [hne, hdot]
  rcases hroot with rfl | rfl
  · rw [ofNames, List.singleton_append, names_slash, hjoin]
  · rw [ofNames, List.cons_append, List.singleton_append, names_slash, names_slash, hjoin]

/-- A path is taken apart at its slashes: before the first one stands nothing, and behind a second one
in front or a last one neither. -/
theorem splitOn_ofNames (hroot : IsRoot root) (habove : ∀ name ∈ above, IsEntryName name) :
    ∃ blank, (∀ name ∈ blank, name = []) ∧
      Text.splitOn '/' (ofNames root above) = [] :: (blank ++ above) := by
  have hjoin : ∃ blank, (∀ name ∈ blank, name = []) ∧
      Text.splitOn '/' (Text.join ['/'] above) = blank ++ above := by
    by_cases hnil : above = []
    · subst hnil
      exact ⟨[[]], by simp, rfl⟩
    · exact ⟨[], by simp, Text.splitOn_join hnil fun name hname => (habove name hname).2.2.2⟩
  obtain ⟨blank, hblank, hjoin⟩ := hjoin
  rcases hroot with rfl | rfl
  · exact ⟨blank, hblank, by simp [ofNames, Text.splitOn, hjoin]⟩
  · exact ⟨[] :: blank, by simpa using hblank, by simp [ofNames, Text.splitOn, hjoin]⟩

/-! ### Normal forms -/

theorem mem_collapse {name : Text} {names : List Text} (hname : name ∈ collapse true names) :
    name ∈ names ∧ name ≠ parentName := by
  -- nothing that was kept is a step to the parent, so no step is left over
  have hfold : ∀ (rest done : List Text), (∀ name ∈ done, name ∈ names ∧ name ≠ parentName) →
      (∀ name ∈ rest, name ∈ names) →
      ∀ name ∈ rest.foldl (fun done name =>
        if name != parentName then done ++ [name]
        else if done.isEmpty then (if true then [] else [name])
        else if done.getLast? == some parentName then done ++ [name]
        else done.dropLast) done, name ∈ names ∧ name ≠ parentName := by
    intro rest
    induction rest with
    | nil => exact fun done hdone _ => hdone
    | cons next rest ih =>
      intro done hdone hrest
      rw [List.foldl_cons]
      apply ih _ _ fun name hname => hrest name (List.mem_cons_of_mem _ hname)
      intro name hname
      split at hname
      · rename_i hnext
        rcases List.mem_append.mp hname with hname | hname
        · exact hdone name hname
        · obtain rfl := List.mem_singleton.mp hname
          exact ⟨hrest name List.mem_cons_self, by simpa using hnext⟩
      split at hname
      · exact absurd hname (by simp)
      split at hname
      · rename_i hlast
        exact absurd rfl (hdone parentName (List.mem_of_getLast? (eq_of_beq hlast))).2
      · exact hdone name (List.dropLast_subset done hname)
  exact hfold names [] (by simp) (fun _ => id) name hname

theorem collapse_eq_self {names : List Text} (absolute : Bool)
    (hnames : ∀ name ∈ names, name ≠ parentName) : collapse absolute names = names := by
  have hfold : ∀ (rest done : List Text), (∀ name ∈ rest, name ≠ parentName) →
      rest.foldl (fun done name =>
        if name != parentName then done ++ [name]
        else if done.isEmpty then (if absolute then [] else [name])
        else if done.getLast? == some parentName then done ++ [name]
        else done.dropLast) done = done ++ rest := by
    intro rest
    induction rest with
    | nil => simp
    | cons next rest ih =>
      intro done hrest
      have hnext : (next != parentName) = true := by simpa using hrest next List.mem_cons_self
      rw [List.foldl_cons, if_pos hnext, ih _ fun name hname => hrest name (List.mem_cons_of_mem _ hname)]
      simp
  exact hfold names [] hnames

theorem isEntryName_of_mem_names {path name : Text} (hname : name ∈ names path)
    (hparent : name ≠ parentName) : IsEntryName name := by
  obtain ⟨hmem, hkept⟩ := List.mem_filter.mp hname
  have hkept : name ≠ [] ∧ name ≠ ['.'] := by simpa using hkept
  exact ⟨hkept.1, hkept.2, hparent, Text.not_mem_of_mem_splitOn hmem⟩

theorem isRoot_root (habsolute : isAbsolute path = true) : IsRoot (Path.root path) := by
  obtain ⟨rest, rfl⟩ : ∃ rest, path = '/' :: rest := by
    cases path with
    | nil => cases habsolute
    | cons c rest =>
      have hc : c = '/' := by simpa [isAbsolute] using habsolute
      exact ⟨rest, by rw [hc]⟩
  rw [Path.root]
  split
  · rename_i hzero
    simp at hzero
  · exact .inr rfl
  · exact .inl rfl

/-- A path in normal form is made of the names of entries. -/
theorem IsNormal.exists_ofNames (hnormal : IsNormal path) :
    ∃ root above, IsRoot root ∧ (∀ name ∈ above, IsEntryName name) ∧ path = ofNames root above := by
  obtain ⟨habsolute, hnormal⟩ := hnormal
  have hroot := isRoot_root habsolute
  refine ⟨_, collapse true (names path), hroot, ?_, ?_⟩
  · intro name hname
    obtain ⟨hmem, hparent⟩ := mem_collapse hname
    exact isEntryName_of_mem_names hmem hparent
  · have hne : (Path.root path ++ Text.join ['/'] (collapse true (names path))).isEmpty = false := by
      rcases hroot with hroot | hroot <;> simp [hroot]
    simp only [normalize, habsolute, hne, Bool.false_eq_true, if_false] at hnormal
    exact hnormal.symm

theorem absolute_ofNames (cwd : Text) (hroot : IsRoot root)
    (habove : ∀ name ∈ above, IsEntryName name) :
    absolute cwd (ofNames root above) = ofNames root above := by
  have hne : (ofNames root above).isEmpty = false := by
    rcases hroot with rfl | rfl <;> rfl
  have hcollapse := collapse_eq_self true fun name hname => (habove name hname).2.2.1
  rw [absolute, isAbsolute_ofNames hroot, if_pos rfl, normalize, isAbsolute_ofNames hroot,
    root_ofNames hroot habove, names_ofNames hroot habove, hcollapse]
  change (if (ofNames root above).isEmpty = true then _ else ofNames root above) = _
  rw [hne, if_neg Bool.false_ne_true]

/-! ### Operations on paths in normal form -/

theorem isAbsolute_eq_false (hname : IsEntryName name) : isAbsolute name = false := by
  obtain ⟨hne, -, -, hslash⟩ := hname
  obtain ⟨c, cs, rfl⟩ := List.exists_cons_of_ne_nil hne
  have hc : c ≠ '/' := fun heq => hslash (heq ▸ List.mem_cons_self)
  simp [isAbsolute, hc]

theorem not_endsWith_ofNames (root : Text) (habove : ∀ name ∈ above, IsEntryName name)
    (hne : above ≠ []) : Text.endsWith (ofNames root above) ['/'] = false := by
  obtain ⟨front, last, rfl⟩ := List.eq_nil_or_concat' above |>.resolve_left hne
  obtain ⟨hlast, -, -, hslash⟩ := habove last (by simp)
  obtain ⟨start, c, rfl⟩ := List.eq_nil_or_concat' last |>.resolve_left hlast
  rw [Bool.eq_false_iff, ne_eq, Text.endsWith_iff, ofNames, Text.join_concat_append]
  rintro ⟨before, hbefore⟩
  have hc : '/' = c := by simpa using congrArg List.getLast? hbefore
  exact hslash (List.mem_append_right _ (List.mem_singleton.mpr hc))

theorem join_ofNames (hroot : IsRoot root) (habove : ∀ name ∈ above, IsEntryName name)
    (hname : IsEntryName name) : join (ofNames root above) name = ofNames root (above ++ [name]) := by
  rw [join, isAbsolute_eq_false hname, if_neg Bool.false_ne_true]
  by_cases hne : above = []
  · subst hne
    rcases hroot with rfl | rfl <;> simp [ofNames, Text.endsWith]
  · rw [not_endsWith_ofNames root habove hne, isEmpty_ofNames hroot, Bool.or_false,
      if_neg Bool.false_ne_true]
    simp [ofNames, Text.join_append _ hne]

theorem joinAll_ofNames (hroot : IsRoot root) (habove : ∀ name ∈ above, IsEntryName name)
    (hbelow : ∀ name ∈ below, IsEntryName name) :
    joinAll (ofNames root above) below = ofNames root (above ++ below) := by
  induction below generalizing above with
  | nil => simp [joinAll]
  | cons name below ih =>
    obtain ⟨hname, hbelow⟩ := List.forall_mem_cons.mp hbelow
    have habove' : ∀ name' ∈ above ++ [name], IsEntryName name' := by
      simpa [or_imp, forall_and] using ⟨habove, hname⟩
    have hrest := ih habove' hbelow
    rw [List.append_assoc, List.singleton_append] at hrest
    rw [joinAll, List.foldl_cons, join_ofNames hroot habove hname]
    exact hrest

theorem dropCommon_append (above below : List Text) :
    dropCommon above (above ++ below) = ([], below) := by
  induction above with
  | nil => cases below <;> rfl
  | cons name above ih => rw [List.cons_append, dropCommon, if_pos rfl, ih]

theorem relative_ofNames (cwd : Text) (hroot : IsRoot root)
    (habove : ∀ name ∈ above, IsEntryName name) (hbelow : ∀ name ∈ below, IsEntryName name)
    (hne : below ≠ []) :
    relative cwd (ofNames root (above ++ below)) (ofNames root above) = Text.join ['/'] below := by
  have hall : ∀ name ∈ above ++ below, IsEntryName name := by
    simpa [or_imp, forall_and] using ⟨habove, hbelow⟩
  rw [relative, absolute_ofNames cwd hroot habove, absolute_ofNames cwd hroot hall,
    names_ofNames hroot habove, names_ofNames hroot hall, dropCommon_append]
  simp [hne]

theorem fileName_ofNames (hroot : IsRoot root) (hname : IsEntryName name) :
    fileName (ofNames root (above ++ [name])) = name := by
  obtain ⟨front, hfront⟩ : ∃ front, ofNames root (above ++ [name]) = front ++ '/' :: name := by
    by_cases hne : above = []
    · subst hne
      rcases hroot with rfl | rfl
      · exact ⟨[], rfl⟩
      · exact ⟨['/'], rfl⟩
    · exact ⟨root ++ Text.join ['/'] above, by simp [ofNames, Text.join_append _ hne]⟩
  rw [hfront, fileName, split, Text.splitLast?_append hname.2.2.2]

/-! ### Tidying and joining -/

end Caret.Path
