import Caret.Completion.Provider
import Caret.Proofs.Files.Current
import Caret.Proofs.Text.Space
import Mathlib.Data.List.TakeWhile

/-!
# The load path over whole runs

An addition either puts one directory at the end of the load path or leaves it as it is, and it does
the former exactly when `Accepts` holds. Everything else follows from that: what additions keep is
kept by every run of calls, whether a directory is added by itself or because a script declares it.

Looking at a script goes through the directories that it declares up to the first one that has no
absolute path or whose links lead in a circle; `register_eq` says so in one equation, and nothing else
about that loop is used.
-/

namespace Caret.Modules.LoadPath

open Files Completion

variable {disk : Disk} {loadPath : LoadPath} {directory path real : Text}

/-! ### One addition -/

/-- A path that a directory stands for is put on the load path under its real path. -/
structure Accepts (disk : Disk) (loadPath : LoadPath) (directory path real : Text) : Prop where
  not_blank : (Text.trim directory).isEmpty = false
  path_eq : absolutePath? disk directory = some path
  isDirectory : disk.isDirectory path = true
  resolves : disk.resolve? path = some real
  isNew : loadPath.hasReal real = false

/-- The load path with a path at its end. -/
def push (loadPath : LoadPath) (path real : Text) : LoadPath :=
  ⟨loadPath.entries ++ [⟨path, real⟩]⟩

theorem checkDirectory_eq_true :
    disk.checkDirectory path = .ok true ↔ disk.isDirectory path = true := by
  rw [Disk.checkDirectory, Disk.isDirectory]
  rcases disk.node path with cause | _ | _ | _
  · simp only [Bool.false_eq_true, iff_false]
    split <;> simp
  all_goals simp

theorem add_of_accepts (haccepts : Accepts disk loadPath directory path real) :
    add disk directory loadPath = (.ok true, push loadPath path real) := by
  simp only [add, haccepts.path_eq, haccepts.not_blank, haccepts.resolves,
    checkDirectory_eq_true.mpr haccepts.isDirectory, haccepts.isNew, Bool.false_eq_true, if_false, push]

/-- A directory that is not accepted changes nothing. -/
theorem add_of_not_accepts (hnot : ∀ path real, ¬ Accepts disk loadPath directory path real) :
    (add disk directory loadPath).1 ≠ .ok true ∧ (add disk directory loadPath).2 = loadPath := by
  rw [add]
  split
  · exact ⟨nofun, rfl⟩
  rename_i path hpath
  split
  · exact ⟨nofun, rfl⟩
  rename_i hblank
  split
  · exact ⟨nofun, rfl⟩
  · exact ⟨nofun, rfl⟩
  rename_i hcheck
  split
  · exact ⟨nofun, rfl⟩
  rename_i real hreal
  split
  · exact ⟨nofun, rfl⟩
  rename_i hnew
  refine absurd ⟨?_, hpath, checkDirectory_eq_true.mp hcheck, hreal, ?_⟩ (hnot path real)
  · simpa using hblank
  · simpa using hnew

/-- What an addition does. -/
theorem add_cases (disk : Disk) (directory : Text) (loadPath : LoadPath) :
    (∃ path real, Accepts disk loadPath directory path real ∧
      add disk directory loadPath = (.ok true, push loadPath path real)) ∨
    ((∀ path real, ¬ Accepts disk loadPath directory path real) ∧
      (add disk directory loadPath).1 ≠ .ok true ∧ (add disk directory loadPath).2 = loadPath) := by
  by_cases haccepts : ∃ path real, Accepts disk loadPath directory path real
  · obtain ⟨path, real, haccepts⟩ := haccepts
    exact .inl ⟨path, real, haccepts, add_of_accepts haccepts⟩
  · have hnot : ∀ path real, ¬ Accepts disk loadPath directory path real :=
      fun path real h => haccepts ⟨path, real, h⟩
    exact .inr ⟨hnot, add_of_not_accepts hnot⟩

/-- The fault at which registering directories stops: one has no absolute path, or it is a directory
whose links lead in a circle. -/
def stop? (disk : Disk) (directory : Text) : Option Fault :=
  match absolutePath? disk directory with
  | none => some .badValue
  | some path =>
    if !(Text.trim directory).isEmpty && disk.isDirectory path && (disk.resolve? path).isNone then
      some .linkCircle
    else none

theorem stop?_ne_file (disk : Disk) (directory : Text) (error : FileError) :
    stop? disk directory ≠ some (.file error) := by
  rw [stop?]
  split
  · exact nofun
  · split <;> exact nofun

theorem add_of_stop? {fault : Fault} (hstop : stop? disk directory = some fault) :
    add disk directory loadPath = (.error fault, loadPath) := by
  cases hpath : absolutePath? disk directory with
  | none =>
    simp only [stop?, hpath, Option.some.injEq] at hstop
    simp only [add, hpath, hstop]
  | some path =>
    simp only [stop?, hpath] at hstop
    split at hstop
    · rename_i hcircle
      simp only [Bool.and_eq_true, Bool.not_eq_true', Option.isNone_iff_eq_none] at hcircle
      obtain ⟨⟨hblank, hdirectory⟩, hnone⟩ := hcircle
      cases hstop
      simp only [add, hpath, hblank, checkDirectory_eq_true.mpr hdirectory, hnone, Bool.false_eq_true,
        if_false]
    · cases hstop

/-- Anything else that can go wrong is that the path cannot be used. -/
theorem add_of_not_stop? (loadPath : LoadPath) (hstop : stop? disk directory = none) :
    (∃ added, (add disk directory loadPath).1 = .ok added) ∨
      ∃ error, (add disk directory loadPath).1 = .error (.file error) := by
  cases hpath : absolutePath? disk directory with
  | none => simp [stop?, hpath] at hstop
  | some path =>
    simp only [add, hpath]
    split
    · exact .inl ⟨_, rfl⟩
    rename_i hblank
    split
    · exact .inr ⟨_, rfl⟩
    · exact .inl ⟨_, rfl⟩
    rename_i hcheck
    cases hreal : disk.resolve? path with
    | none => simp [stop?, hpath, hblank, checkDirectory_eq_true.mp hcheck, hreal] at hstop
    | some real =>
      dsimp only
      split
      · exact .inl ⟨_, rfl⟩
      · exact .inl ⟨_, rfl⟩

theorem hasReal_eq_true {real : Text} :
    loadPath.hasReal real = true ↔ ∃ entry ∈ loadPath.entries, entry.real = real := by
  simp [hasReal, List.any_eq_true]

theorem hasReal_push (loadPath : LoadPath) (path real : Text) :
    (push loadPath path real).hasReal real = true :=
  hasReal_eq_true.mpr ⟨_, List.mem_append_right _ List.mem_cons_self, rfl⟩

theorem entries_prefix_add (disk : Disk) (loadPath : LoadPath) (directory : Text) :
    loadPath.entries <+: (add disk directory loadPath).2.entries := by
  rcases add_cases disk directory loadPath with ⟨path, real, -, hadd⟩ | ⟨-, -, hsame⟩
  · rw [hadd]
    exact List.prefix_append _ _
  · rw [hsame]

/-! ### Runs of calls -/

/-- The load path after additions one after the other, whatever becomes of each. -/
def afterAdds (disk : Disk) (loadPath : LoadPath) (directories : List Text) : LoadPath :=
  directories.foldl (fun loadPath directory => (add disk directory loadPath).2) loadPath

/-- Registering directories adds them one after the other, up to the first at which it stops. -/
theorem register_eq (disk : Disk) (directories : List Text) (loadPath : LoadPath) :
    register disk directories loadPath =
      (match directories.findSome? (stop? disk) with
        | some fault => .error fault
        | none => .ok (),
      afterAdds disk loadPath (directories.takeWhile fun directory => (stop? disk directory).isNone)) := by
  induction directories generalizing loadPath with
  | nil => rfl
  | cons directory rest ih =>
    rw [register]
    cases hstop : stop? disk directory with
    | some fault =>
      rw [add_of_stop? hstop]
      cases fault with
      | file error => exact absurd hstop (stop?_ne_file disk directory error)
      | _ => simp [hstop, afterAdds]
    | none =>
      have hgo : register disk rest (add disk directory loadPath).2 =
          (match (directory :: rest).findSome? (stop? disk) with
            | some fault => .error fault
            | none => .ok (),
          afterAdds disk loadPath ((directory :: rest).takeWhile fun directory =>
            (stop? disk directory).isNone)) := by
        rw [ih]
        simp [hstop, afterAdds]
      rcases hadd : add disk directory loadPath with ⟨outcome, after⟩
      rw [hadd] at hgo
      rcases add_of_not_stop? loadPath hstop with ⟨added, houtcome⟩ | ⟨error, houtcome⟩
      all_goals
        rw [hadd] at houtcome
        dsimp only at houtcome
        subst houtcome
        exact hgo

/-- A call that may add to the load path: an addition, or a look at a line of a script. -/
inductive Call where
  | add (directory : Text)
  | classify (prior line seed : Text)

/-- The load path after a call. -/
def Call.after (disk : Disk) (loadPath : LoadPath) : Call → LoadPath
  | .add directory => (LoadPath.add disk directory loadPath).2
  | .classify prior line seed => (classifyWith disk prior line seed loadPath).2

/-- The load path after calls one after the other. -/
def afterCalls (disk : Disk) (loadPath : LoadPath) (calls : List Call) : LoadPath :=
  calls.foldl (Call.after disk) loadPath

/-- The directories that looking at a line adds: those that the script before it declares, up to the
first at which registering stops. -/
def declared (disk : Disk) (prior line seed : Text) : List Text :=
  if Line.isConsidered line seed then
    (Line.searchPath prior).takeWhile fun directory => (stop? disk directory).isNone
  else []

theorem declared_of_not_completable (disk : Disk) {prior line seed : Text}
    (hline : ¬ Line.isCompletable line = true) : declared disk prior line seed = [] := by
  rw [declared, Line.isConsidered, Bool.eq_false_iff.mpr hline, Bool.false_and]
  rfl

section

variable {prior : Text} {passed : List Text} (hpassed : ∀ directory ∈ passed, stop? disk directory = none)

include hpassed

theorem declared_of_passed (line seed : Text) (hprior : Line.searchPath prior = passed) :
    declared disk prior line seed = if Line.isConsidered line seed then passed else [] := by
  rw [declared, hprior, List.takeWhile_eq_self_iff.mpr]
  exact fun directory hmem => Option.isNone_iff_eq_none.mpr (hpassed directory hmem)

theorem declared_of_stop? (line seed : Text) {rest : List Text} {fault : Fault}
    (hprior : Line.searchPath prior = passed ++ directory :: rest)
    (hstop : stop? disk directory = some fault) :
    declared disk prior line seed = if Line.isConsidered line seed then passed else [] := by
  rw [declared, hprior, List.takeWhile_append_of_pos, List.takeWhile_cons_of_neg, List.append_nil]
  · rw [hstop]
    exact Bool.false_ne_true
  · exact fun directory hmem => Option.isNone_iff_eq_none.mpr (hpassed directory hmem)

end

theorem classifyWith_snd (disk : Disk) (prior line seed : Text) (loadPath : LoadPath) :
    (classifyWith disk prior line seed loadPath).2 =
      afterAdds disk loadPath (declared disk prior line seed) := by
  rw [classifyWith, declared, register_eq]
  split <;> rfl

section

variable {P : LoadPath → Prop}
  (hadd : ∀ loadPath directory, P loadPath → P (add disk directory loadPath).2)

include hadd

theorem afterAdds_preserves (directories : List Text) (hstart : P loadPath) :
    P (afterAdds disk loadPath directories) := by
  induction directories generalizing loadPath with
  | nil => exact hstart
  | cons directory rest ih => exact ih (hadd loadPath directory hstart)

theorem after_preserves (call : Call) (hstart : P loadPath) : P (call.after disk loadPath) := by
  cases call with
  | add directory => exact hadd loadPath directory hstart
  | classify prior line seed =>
    rw [Call.after, classifyWith_snd]
    exact afterAdds_preserves hadd _ hstart

/-- What every addition keeps, every run of calls keeps. -/
theorem afterCalls_preserves (calls : List Call) (hstart : P loadPath) :
    P (afterCalls disk loadPath calls) := by
  induction calls generalizing loadPath with
  | nil => exact hstart
  | cons call rest ih => exact ih (after_preserves hadd call hstart)

end

/-- Nothing is taken off the load path or moved on it. -/
theorem entries_prefix_afterAdds (disk : Disk) (loadPath : LoadPath) (directories : List Text) :
    loadPath.entries <+: (afterAdds disk loadPath directories).entries :=
  afterAdds_preserves (P := fun later => loadPath.entries <+: later.entries)
    (fun later directory hextends => hextends.trans (entries_prefix_add disk later directory))
    directories (List.prefix_refl _)

theorem entries_prefix_afterCalls (disk : Disk) (loadPath : LoadPath) (calls : List Call) :
    loadPath.entries <+: (afterCalls disk loadPath calls).entries :=
  afterCalls_preserves (P := fun later => loadPath.entries <+: later.entries)
    (fun later directory hextends => hextends.trans (entries_prefix_add disk later directory)) calls
    (List.prefix_refl _)

/-! ### Directories that were added before -/

/-- A directory that was added, or that there was nothing to add for, is not added later. -/
theorem add_of_prefix {later : LoadPath}
    (hextends : (add disk directory loadPath).2.entries <+: later.entries) :
    (add disk directory later).2 = later := by
  rcases add_cases disk directory later with ⟨path, real, haccepts, -⟩ | ⟨-, -, hsame⟩
  · -- The directory has a place on the earlier load path, under its real path.
    have hhad : (add disk directory loadPath).2.hasReal real = true := by
      cases hnew : loadPath.hasReal real with
      | false =>
        have hearlier : Accepts disk loadPath directory path real :=
          { haccepts with isNew := hnew }
        rw [add_of_accepts hearlier]
        exact hasReal_push loadPath path real
      | true =>
        obtain ⟨entry, hentry, hreal⟩ := hasReal_eq_true.mp hnew
        exact hasReal_eq_true.mpr
          ⟨entry, (entries_prefix_add disk loadPath directory).subset hentry, hreal⟩
    obtain ⟨entry, hentry, hreal⟩ := hasReal_eq_true.mp hhad
    have hhas := hasReal_eq_true.mpr ⟨entry, hextends.subset hentry, hreal⟩
    rw [haccepts.isNew] at hhas
    cases hhas
  · exact hsame

theorem afterAdds_of_prefix {later : LoadPath} {directories : List Text}
    (hextends : (afterAdds disk loadPath directories).entries <+: later.entries) :
    afterAdds disk later directories = later := by
  induction directories generalizing loadPath with
  | nil => rfl
  | cons directory rest ih =>
    have hfirst : (add disk directory later).2 = later :=
      add_of_prefix ((entries_prefix_afterAdds disk _ rest).trans hextends)
    rw [afterAdds, List.foldl_cons, hfirst]
    exact ih hextends

/-- Adding directories again does nothing. -/
theorem afterAdds_afterAdds (disk : Disk) (loadPath : LoadPath) (directories : List Text) :
    afterAdds disk (afterAdds disk loadPath directories) directories =
      afterAdds disk loadPath directories :=
  afterAdds_of_prefix (List.prefix_refl _)

/-! ### What holds of every load path -/

/-- The entries of a load path are directories with their real paths, all different. -/
structure WellKept (disk : Disk) (loadPath : LoadPath) : Prop where
  resolves : ∀ entry ∈ loadPath.entries, disk.resolve? entry.path = some entry.real
  isDirectory : ∀ entry ∈ loadPath.entries, disk.isDirectory entry.path = true
  distinct : loadPath.entries.Pairwise fun a b => a.real ≠ b.real

theorem WellKept.push (hkept : WellKept disk loadPath)
    (haccepts : Accepts disk loadPath directory path real) :
    WellKept disk (push loadPath path real) := by
  constructor
  · intro entry hentry
    rcases List.mem_append.mp hentry with hold | hnew
    · exact hkept.resolves entry hold
    · rw [List.mem_singleton.mp hnew]
      exact haccepts.resolves
  · intro entry hentry
    rcases List.mem_append.mp hentry with hold | hnew
    · exact hkept.isDirectory entry hold
    · rw [List.mem_singleton.mp hnew]
      exact haccepts.isDirectory
  · refine List.pairwise_append.mpr ⟨hkept.distinct, List.pairwise_singleton _ _, ?_⟩
    intro entry hentry new hnew heq
    rw [List.mem_singleton.mp hnew] at heq
    have hhas : loadPath.hasReal real = true := hasReal_eq_true.mpr ⟨entry, hentry, heq⟩
    rw [haccepts.isNew] at hhas
    cases hhas

theorem WellKept.add (loadPath : LoadPath) (directory : Text) (hkept : WellKept disk loadPath) :
    WellKept disk (add disk directory loadPath).2 := by
  rcases add_cases disk directory loadPath with ⟨path, real, haccepts, hadd⟩ | ⟨-, -, hsame⟩
  · rw [hadd]
    exact hkept.push haccepts
  · rwa [hsame]

/-- Two directories, and a link to the first. -/
def linkedDisk : Disk where
  tree := .directory [("lib".toList, .directory []), ("alias".toList, .link "lib".toList),
    ("more".toList, .directory [])]
  cwd := "/".toList
  home := "/home".toList
  library := []

/-- The load path of the first directory. -/
def linkedStart : LoadPath :=
  ⟨[⟨"/lib".toList, "/lib".toList⟩]⟩

end Caret.Modules.LoadPath
