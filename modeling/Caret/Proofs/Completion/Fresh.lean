import Caret.Proofs.Completion.Binding
import Mathlib.Data.List.Nodup
import Mathlib.Data.Nat.Find

/-!
# Fresh names

The name that a binding makes up occurs nowhere in the buffer. Two facts carry this. The reader of words
finds every run of word characters that starts as a name does, whatever stands before it. And the count for
a number that makes the name new ends: the numbered names are all different, so that one of them is free
before there are more of them than names that are taken.
-/

namespace Caret

namespace Script

/-- A run of word characters in a text that goes on neither to the left nor to the right. -/
def IsRun (text run : Text) : Prop :=
  ∃ before after, text = before ++ (run ++ after) ∧ run ≠ [] ∧ (∀ c ∈ run, Text.isWord c = true) ∧
    (∀ c ∈ before.getLast?, Text.isWord c = false) ∧ ∀ c ∈ after.head?, Text.isWord c = false

theorem scan_begun (w : Char) (ws : Text) (c : Char) (cs : Text) :
    wordsIn.scan (w :: ws) (c :: cs) =
      if Text.isWord c = true then wordsIn.scan (c :: w :: ws) cs
      else (w :: ws).reverse :: wordsIn.scan [] cs :=
  rfl

section

variable {run after : Text} (hrun : ∀ c ∈ run, Text.isWord c = true)
  (hafter : ∀ c ∈ after.head?, Text.isWord c = false)

include hrun hafter

/-- A word that has begun is read to the end of its run. -/
theorem mem_scan_of_begun {word : Text} (hword : word ≠ []) :
    word.reverse ++ run ∈ wordsIn.scan word (run ++ after) := by
  obtain ⟨w, ws, rfl⟩ := List.exists_cons_of_ne_nil hword
  induction run generalizing w ws with
  | nil =>
    rw [List.append_nil, List.nil_append]
    cases after with
    | nil => simp [wordsIn.scan]
    | cons c cs =>
      rw [scan_begun, hafter c rfl, if_neg Bool.false_ne_true]
      exact List.mem_cons_self
  | cons c cs ih =>
    obtain ⟨hc, hcs⟩ := List.forall_mem_cons.mp hrun
    rw [List.cons_append, scan_begun, if_pos hc]
    have hmore := ih hcs c (w :: ws) (List.cons_ne_nil _ _)
    rwa [List.reverse_cons, List.append_assoc, List.singleton_append] at hmore

end

theorem mem_scan {before run after : Text} {c : Char} {cs : Text} (hstart : run = c :: cs)
    (hc : Text.isNameStart c = true) (hrun : ∀ c ∈ run, Text.isWord c = true)
    (hbefore : ∀ c ∈ before.getLast?, Text.isWord c = false)
    (hafter : ∀ c ∈ after.head?, Text.isWord c = false) {word : Text} (hword : before = [] → word = []) :
    run ∈ wordsIn.scan word (before ++ (run ++ after)) := by
  induction before generalizing word with
  | nil =>
    obtain rfl := hword rfl
    subst hstart
    rw [List.nil_append, List.cons_append, wordsIn.scan, if_pos hc]
    exact mem_scan_of_begun (fun d hd => hrun d (List.mem_cons_of_mem _ hd)) hafter (List.cons_ne_nil c [])
  | cons d ds ih =>
    -- a word that goes on over `d` ends before the run, since what stands right before the run is no
    -- word character
    have hends : Text.isWord d = true → ds ≠ [] := by
      rintro hd rfl
      rw [hbefore d rfl] at hd
      cases hd
    have hds : ∀ c ∈ ds.getLast?, Text.isWord c = false := by
      intro e he
      refine hbefore e ?_
      rw [List.getLast?_cons, Option.mem_def.mp he]
      rfl
    rw [List.cons_append]
    cases word with
    | nil =>
      rw [wordsIn.scan]
      split
      · rename_i hd
        exact ih hds fun hnil => absurd hnil (hends (Text.isWord_of_isNameChar (by rw [hd]; rfl)))
      · exact ih hds fun _ => rfl
    | cons w ws =>
      rw [scan_begun]
      split
      · rename_i hd
        exact ih hds fun hnil => absurd hnil (hends hd)
      · exact List.mem_cons_of_mem _ (ih hds fun _ => rfl)

/-- A run that starts as a name does is one of the words that are found. -/
theorem mem_wordsIn_of_isRun {text cs : Text} {c : Char} (hrun : IsRun text (c :: cs))
    (hc : Text.isNameStart c = true) : c :: cs ∈ wordsIn text := by
  obtain ⟨before, after, rfl, -, hword, hbefore, hafter⟩ := hrun
  exact mem_scan rfl hc hword hbefore hafter fun _ => rfl

end Script

namespace Completion

/-! ### Numbered names -/

theorem numbered_injective (base : Text) {m n : Nat} (h : base ++ Text.ofNat m = base ++ Text.ofNat n) :
    m = n := by
  have hdigits := congrArg (Nat.ofDigitChars 10 · 0) (List.append_cancel_left h)
  rwa [Text.ofNat, Text.ofNat, Nat.ofDigitChars_ten_toDigits, Nat.ofDigitChars_ten_toDigits] at hdigits

theorem numbered_ne_base (base : Text) (n : Nat) : base ++ Text.ofNat n ≠ base := by
  intro h
  have hnil : Text.ofNat n = [] := List.append_right_eq_self.mp h
  exact Nat.toDigits_ne_nil hnil

/-- If a base is taken, one of as many numbered names as there are taken ones is not. -/
theorem exists_numbered_not_mem {taken : List Text} {base : Text} (hbase : base ∈ taken) :
    ∃ n, 1 ≤ n ∧ n ≤ taken.length ∧ base ++ Text.ofNat n ∉ taken := by
  by_contra hnone
  push Not at hnone
  -- the base and these numbered names are too many different texts to be taken
  let names := base :: (List.range taken.length).map fun k => base ++ Text.ofNat (k + 1)
  have hnodup : names.Nodup := by
    refine List.nodup_cons.mpr ⟨?_, List.Nodup.map (fun a b h => ?_) List.nodup_range⟩
    · intro hmem
      obtain ⟨k, -, hk⟩ := List.mem_map.mp hmem
      exact numbered_ne_base base (k + 1) hk
    · exact Nat.succ.inj (numbered_injective base h)
  have hsubset : names ⊆ taken := by
    refine List.cons_subset.mpr ⟨hbase, fun name hname => ?_⟩
    obtain ⟨k, hk, rfl⟩ := List.mem_map.mp hname
    exact hnone (k + 1) (Nat.le_add_left 1 k) (List.mem_range.mp hk)
  have hlength := hnodup.length_le_of_subset hsubset
  rw [List.length_cons, List.length_map, List.length_range] at hlength
  omega

/-- A search goes to the first number whose name is free, if it has fuel to get there. -/
theorem freshFrom_of_least {taken : List Text} {base : Text} {n : Nat}
    (hfree : base ++ Text.ofNat n ∉ taken) {fuel k : Nat} (hk : k ≤ n) (hfuel : n < k + fuel)
    (htaken : ∀ m, k ≤ m → m < n → base ++ Text.ofNat m ∈ taken) :
    freshFrom taken base fuel k = base ++ Text.ofNat n := by
  induction fuel generalizing k with
  | zero => omega
  | succ fuel ih =>
    rw [freshFrom]
    rcases Nat.eq_or_lt_of_le hk with rfl | hlt
    · rw [if_neg (by simpa using hfree)]
    · rw [if_pos (by simpa using htaken k (Nat.le_refl k) hlt)]
      exact ih hlt (by omega) fun m hm => htaken m (by omega)

/-- A fresh name is not taken. It is the base, or the base with the least number from one on that makes it
new, and that number is no greater than the number of names that are taken. -/
theorem freshName_least (taken : List Text) (base : Text) :
    freshName taken base ∉ taken ∧
      (base ∉ taken → freshName taken base = base) ∧
      (base ∈ taken → ∃ n, 1 ≤ n ∧ n ≤ taken.length ∧ freshName taken base = base ++ Text.ofNat n ∧
        ∀ m, 1 ≤ m → m < n → base ++ Text.ofNat m ∈ taken) := by
  by_cases hbase : base ∈ taken
  · obtain ⟨bound, hone, hbound, hbfree⟩ := exists_numbered_not_mem hbase
    have hsome : ∃ n, 1 ≤ n ∧ base ++ Text.ofNat n ∉ taken := ⟨bound, hone, hbfree⟩
    obtain ⟨hn, hfree⟩ := Nat.find_spec hsome
    have hle : Nat.find hsome ≤ taken.length := Nat.le_trans (Nat.find_le ⟨hone, hbfree⟩) hbound
    have hleast : ∀ m, 1 ≤ m → m < Nat.find hsome → base ++ Text.ofNat m ∈ taken := by
      intro m hm hlt
      exact not_not.mp fun hnot => Nat.find_min hsome hlt ⟨hm, hnot⟩
    have hname : freshName taken base = base ++ Text.ofNat (Nat.find hsome) := by
      rw [freshName, if_pos (by simpa using hbase)]
      exact freshFrom_of_least hfree hn (by omega) hleast
    exact ⟨hname ▸ hfree, fun hnot => absurd hbase hnot, fun _ => ⟨_, hn, hle, hname, hleast⟩⟩
  · have hname : freshName taken base = base := by rw [freshName, if_neg (by simpa using hbase)]
    exact ⟨hname.symm ▸ hbase, fun _ => hname, fun hmem => absurd hmem hbase⟩

/-! ### The name of a binding -/

theorem bindingFor_name_of_none {context : Line.Context} {expression member : Text}
    (h : assignmentTarget? (context.line.take (context.line.length - 1 - member.length)) expression = none) :
    (bindingFor context expression member).name =
      freshName (Script.wordsIn (context.rawPrior ++ context.line)) freshBase := by
  unfold bindingFor
  dsimp only
  rw [h]

/-- Where the line assigns the expression to no name, the name that is made up is none of the runs of word
characters in the text before the line and the line. What is made up from a base is not taken, and it is
the base or the base with the least number that makes it new. -/
theorem bindingFor_fresh :
    (∀ {prior line seed expression member : Text} {context : Line.Context},
      Line.classify prior line seed = some context → context.form = .access expression member →
      assignmentTarget? (line.take (line.length - 1 - member.length)) expression = none →
      ∀ run, Script.IsRun (prior ++ line) run → (bindingFor context expression member).name ≠ run) ∧
    ∀ (taken : List Text) (base : Text),
      freshName taken base ∉ taken ∧
        (base ∉ taken → freshName taken base = base) ∧
        (base ∈ taken → ∃ n, 1 ≤ n ∧ n ≤ taken.length ∧ freshName taken base = base ++ Text.ofNat n ∧
          ∀ m, 1 ≤ m → m < n → base ++ Text.ofNat m ∈ taken) := by
  refine ⟨?_, freshName_least⟩
  rintro prior line seed expression member context hclassify hform hnone run hrun rfl
  have hcontext := (Line.classify_eq hclassify).2
  have hsame : context.line = line ∧ context.rawPrior = prior := by rw [hcontext]; exact ⟨rfl, rfl⟩
  have hname := bindingFor_name_of_none (hsame.1.symm ▸ hnone)
  rw [hsame.1, hsame.2] at hname
  rw [hname] at hrun
  -- the name starts with an underscore, so that the run would be one of the words that are taken
  obtain ⟨cs, hstart⟩ := (freshName_spec (Script.wordsIn (prior ++ line))).1
  have hmem : freshName (Script.wordsIn (prior ++ line)) freshBase ∈ Script.wordsIn (prior ++ line) := by
    rw [hstart] at hrun ⊢
    exact Script.mem_wordsIn_of_isRun hrun (by decide)
  exact (freshName_least _ _).1 hmem

/-- In a buffer that uses the base itself, the name gets a number. -/
theorem bindingFor_fresh_numbered :
    ∃ context, Line.classify "__completion_target__ = [1]\n".toList "f(x).y".toList "y".toList = some context ∧
      context.form = .access "f(x)".toList "y".toList ∧
      assignmentTarget? ("f(x).y".toList.take 4) "f(x)".toList = none ∧
      Script.IsRun ("__completion_target__ = [1]\n".toList ++ "f(x).y".toList) "__completion_target__".toList ∧
      (bindingFor context "f(x)".toList "y".toList).name = "__completion_target__1".toList ∧
      (bindingFor context "f(x)".toList "y".toList).name ≠ "__completion_target__".toList := by
  obtain ⟨context, hclassify, hform, hname⟩ : ∃ context,
      Line.classify "__completion_target__ = [1]\n".toList "f(x).y".toList "y".toList = some context ∧
      context.form = .access "f(x)".toList "y".toList ∧
      (bindingFor context "f(x)".toList "y".toList).name = "__completion_target__1".toList :=
    ⟨_, rfl, by decide +kernel, by decide +kernel⟩
  have hnone : assignmentTarget? ("f(x).y".toList.take 4) "f(x)".toList = none := by decide +kernel
  have hrun : Script.IsRun ("__completion_target__ = [1]\n".toList ++ "f(x).y".toList)
      "__completion_target__".toList := by
    refine ⟨[], " = [1]\nf(x).y".toList, by decide, by decide, Text.forall_mem_of_all (by decide), ?_, ?_⟩
    · rintro c ⟨⟩
    · rintro c ⟨⟩
      decide
  exact ⟨context, hclassify, hform, hnone, hrun, hname, bindingFor_fresh.1 hclassify hform hnone _ hrun⟩

end Completion

end Caret
