import Caret.Proofs.Text.Entries
import Caret.Value.Basic

/-!
# Values in order

Two values that differ only in the order of the members of their objects are the same but for order;
brought into order, with the members of every object sorted by their keys, they are equal. Objects that
are proper have no key twice, and then they are the same but for order exactly when looking up a key
gives the same in both.
-/

namespace Caret.Value

/-! ### Induction on values -/

/-- What holds of the values without parts, and of a list or an object if it holds of the parts, holds
of every value. -/
@[elab_as_elim]
theorem induction {motive : Value → Prop} (null : motive .null) (bool : ∀ b, motive (.bool b))
    (int : ∀ i, motive (.int i)) (real : ∀ x, motive (.real x)) (text : ∀ t, motive (.text t))
    (list : ∀ items, (∀ item ∈ items, motive item) → motive (.list items))
    (object : ∀ members : Members, (∀ member ∈ members, motive member.2) → motive (.object members)) :
    ∀ value, motive value :=
  @Value.rec motive (fun items => ∀ item ∈ items, motive item)
    (fun members => ∀ member ∈ members, motive member.2) (fun member => motive member.2)
    null bool int real text list object (by simp)
    (fun _ _ hfirst hrest => List.forall_mem_cons.mpr ⟨hfirst, hrest⟩) (by simp)
    (fun _ _ hfirst hrest => List.forall_mem_cons.mpr ⟨hfirst, hrest⟩) (fun _ _ hvalue => hvalue)

mutual

/-- A property of a value and of all values inside it. -/
def Everywhere (p : Value → Prop) : Value → Prop
  | .list items => p (.list items) ∧ EverywhereItems p items
  | .object members => p (.object members) ∧ EverywhereMembers p members
  | .null => p .null
  | .bool b => p (.bool b)
  | .int i => p (.int i)
  | .real x => p (.real x)
  | .text t => p (.text t)

/-- A property of all values in a list. -/
def EverywhereItems (p : Value → Prop) : List Value → Prop
  | [] => True
  | item :: items => Everywhere p item ∧ EverywhereItems p items

/-- A property of all values of members. -/
def EverywhereMembers (p : Value → Prop) : List (Text × Value) → Prop
  | [] => True
  | (_, value) :: rest => Everywhere p value ∧ EverywhereMembers p rest

end

variable {p : Value → Prop}

theorem everywhere_list {items : List Value} :
    Everywhere p (.list items) ↔ p (.list items) ∧ ∀ item ∈ items, Everywhere p item := by
  have hitems : ∀ items, EverywhereItems p items ↔ ∀ item ∈ items, Everywhere p item := by
    intro items
    induction items with
    | nil => simp [EverywhereItems]
    | cons item items ih => rw [EverywhereItems, ih, List.forall_mem_cons]
  rw [Everywhere, hitems]

theorem everywhere_object {members : Members} :
    Everywhere p (.object members) ↔
      p (.object members) ∧ ∀ member ∈ members, Everywhere p member.2 := by
  have hmembers : ∀ members, EverywhereMembers p members ↔
      ∀ member ∈ members, Everywhere p member.2 := by
    intro members
    induction members with
    | nil => simp [EverywhereMembers]
    | cons member members ih => rw [EverywhereMembers, ih, List.forall_mem_cons]
  rw [Everywhere, hmembers]

/-- An object has no key twice. -/
def HasDistinctKeys : Value → Prop
  | .object members => Entries.IsDistinct members
  | _ => True

/-- No object in a value has a key twice. -/
def IsProper (value : Value) : Prop :=
  value.Everywhere HasDistinctKeys

theorem isProper_list {items : List Value} :
    IsProper (.list items) ↔ ∀ item ∈ items, item.IsProper := by
  rw [IsProper, everywhere_list]
  exact and_iff_right trivial

theorem isProper_object {members : Members} :
    IsProper (.object members) ↔ members.IsDistinct ∧ ∀ member ∈ members, member.2.IsProper :=
  everywhere_object

theorem isProper_object_get? {members : Members} :
    IsProper (.object members) ↔ members.IsDistinct ∧
      ∀ key value, Entries.get? members key = some value → value.IsProper := by
  rw [isProper_object]
  refine and_congr_right fun hdistinct => ?_
  constructor
  · intro hmembers key value hget
    exact hmembers _ (Entries.mem_of_get? hget)
  · rintro hmembers ⟨key, value⟩ hmem
    exact hmembers key value (hdistinct.get?_eq_some.mpr hmem)

/-! ### Bringing into order -/

mutual

/-- A value with the members of all its objects in the order of their keys. -/
def ordered : Value → Value
  | .list items => .list (orderedItems items)
  | .object members => .object (Entries.inOrder (orderedMembers members))
  | .null => .null
  | .bool b => .bool b
  | .int i => .int i
  | .real x => .real x
  | .text t => .text t

/-- The items of a list, each in order. -/
def orderedItems : List Value → List Value
  | [] => []
  | item :: items => ordered item :: orderedItems items

/-- The members of an object, each value in order. -/
def orderedMembers : List (Text × Value) → List (Text × Value)
  | [] => []
  | (key, value) :: rest => (key, ordered value) :: orderedMembers rest

end

theorem ordered_list (items : List Value) : ordered (.list items) = .list (items.map ordered) := by
  have hitems : ∀ items, orderedItems items = items.map ordered := by
    intro items
    induction items with
    | nil => rfl
    | cons item items ih => rw [orderedItems, ih, List.map_cons]
  rw [ordered, hitems]

/-- Members in the order of their keys, with each value in order. -/
def sorted (members : Members) : Members :=
  (Entries.inOrder members).map fun member => (member.1, member.2.ordered)

theorem ordered_object (members : Members) : ordered (.object members) = .object (sorted members) := by
  have hmembers : ∀ members : Members,
      orderedMembers members = members.map fun member => (member.1, member.2.ordered) := by
    intro members
    induction members with
    | nil => rfl
    | cons member members ih => rw [orderedMembers, ih, List.map_cons]
  rw [ordered, hmembers, Entries.inOrder_map, sorted]

theorem isTrue_ordered (value : Value) : value.ordered.isTrue = value.isTrue := by
  cases value with
  | list items => cases items <;> simp [ordered_list, isTrue]
  | object members =>
    have hlength := (Entries.inOrder_perm members).length_eq
    rw [ordered_object, sorted, isTrue, isTrue]
    cases members with
    | nil => simp [List.length_eq_zero_iff.mp hlength]
    | cons member members =>
      cases hsorted : Entries.inOrder (member :: members) with
      | nil => simp [hsorted] at hlength
      | cons first rest => rfl
  | _ => rfl

theorem isDistinct_sorted {members : Members} (hdistinct : members.IsDistinct) :
    (sorted members).IsDistinct := by
  rw [Value.sorted, Entries.IsDistinct, List.map_map]
  exact hdistinct.perm (Entries.inOrder_perm members).symm

/-- Looking up a key in members that were brought into order. -/
theorem get?_sorted {members : Members} (hdistinct : members.IsDistinct) (key : Text) :
    Entries.get? (sorted members) key = (Entries.get? members key).map ordered := by
  rw [sorted, Entries.get?_map, hdistinct.get?_of_perm (Entries.inOrder_perm members).symm]

/-- Objects are the same but for order if they have the same values, but for order, under their keys. -/
theorem ordered_object_eq {members others : Members} (hmembers : members.IsDistinct)
    (hothers : others.IsDistinct) :
    ordered (.object members) = ordered (.object others) ↔
      ∀ key, (Entries.get? members key).map ordered = (Entries.get? others key).map ordered := by
  rw [ordered_object, ordered_object]
  constructor
  · intro heq key
    rw [← get?_sorted hmembers, ← get?_sorted hothers, object.inj heq]
  · intro hget
    have hkeys : ∀ members : Members, members.IsDistinct →
        Entries.IsDistinct (members.map fun member => (member.1, member.2.ordered)) := by
      intro members hmembers
      rwa [Entries.IsDistinct, List.map_map]
    rw [sorted, sorted, ← Entries.inOrder_map, ← Entries.inOrder_map]
    refine congrArg object ((hkeys members hmembers).inOrder_eq ?_)
    refine (hkeys members hmembers).perm_of_get? (hkeys others hothers) fun key => ?_
    rw [Entries.get?_map, Entries.get?_map, hget]

theorem isProper_ordered {value : Value} (hproper : value.IsProper) : value.ordered.IsProper := by
  induction value using Value.induction with
  | list items ih =>
    rw [isProper_list] at hproper
    rw [ordered_list, isProper_list]
    exact List.forall_mem_map.mpr fun item hmem => ih item hmem (hproper item hmem)
  | object members ih =>
    obtain ⟨hdistinct, hproper⟩ := isProper_object.mp hproper
    rw [ordered_object, isProper_object_get?]
    refine ⟨isDistinct_sorted hdistinct, fun key found hfound => ?_⟩
    rw [get?_sorted hdistinct, Option.map_eq_some_iff] at hfound
    obtain ⟨value, hget, rfl⟩ := hfound
    have hmem := Entries.mem_of_get? hget
    exact ih _ hmem (hproper _ hmem)
  | _ => exact hproper

theorem ordered_ordered {value : Value} (hproper : value.IsProper) :
    value.ordered.ordered = value.ordered := by
  induction value using Value.induction with
  | list items ih =>
    rw [isProper_list] at hproper
    rw [ordered_list, ordered_list, List.map_map]
    exact congrArg list (List.map_congr_left fun item hitem => ih item hitem (hproper item hitem))
  | object members ih =>
    obtain ⟨hdistinct, hproper⟩ := isProper_object.mp hproper
    refine (congrArg ordered (ordered_object members)).trans ?_
    rw [ordered_object_eq (isDistinct_sorted hdistinct) hdistinct]
    intro key
    rw [get?_sorted hdistinct, Option.map_map]
    cases hget : Entries.get? members key with
    | none => rfl
    | some value =>
      have hmem := Entries.mem_of_get? hget
      exact congrArg some (ih _ hmem (hproper _ hmem))
  | _ => rfl

end Caret.Value
