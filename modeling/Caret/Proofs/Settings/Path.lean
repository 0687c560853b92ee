import Caret.Proofs.Text.Entries
import Caret.Proofs.Text.Parts
import Caret.Settings.Path

/-!
# Reading and writing by path

A path leads to what was written to it, whatever stood in the way. Writing again replaces what was written,
and writing what is there already changes nothing. A path that parts from the one written to leads where it
led before: an object that takes the place of another value has nothing beside the path. So a dotted key is a
lens on the settings.
-/

namespace Caret.Settings

variable {members : Members} {first key : Text} {rest : List Text} {value found : Value}

/-! ### Following a path -/

theorem eq_object_of_members? (hvalue : value.members? = some members) : value = .object members := by
  cases value <;> cases hvalue
  rfl

theorem get?_object_cons (members : Members) (key : Text) (rest : List Text) :
    get? (.object members) (key :: rest) = (Entries.get? members key).bind (get? · rest) := by
  rw [get?]

/-- A path that goes on leads nowhere below a value that is no object. -/
theorem get?_cons_of_members? (hvalue : value.members? = none) (key : Text) (rest : List Text) :
    get? value (key :: rest) = none := by
  cases value with
  | object members => cases hvalue
  | _ => rw [get?]; simp

/-- A path that leads somewhere leads through an object. -/
theorem exists_of_get?_cons (hget : get? value (key :: rest) = some found) :
    ∃ members inner, value = .object members ∧ Entries.get? members key = some inner ∧
      get? inner rest = some found := by
  cases hvalue : value.members? with
  | none =>
    rw [get?_cons_of_members? hvalue] at hget
    cases hget
  | some members =>
    obtain rfl := eq_object_of_members? hvalue
    rw [get?_object_cons] at hget
    obtain ⟨inner, hinner, hrest⟩ := Option.bind_eq_some_iff.mp hget
    exact ⟨members, inner, rfl, hinner, hrest⟩

theorem get?_append (value : Value) (path more : List Text) :
    get? value (path ++ more) = (get? value path).bind (get? · more) := by
  induction path generalizing value with
  | nil => rw [List.nil_append, get?, Option.bind_some]
  | cons key path ih =>
    cases hvalue : value.members? with
    | none =>
      rw [List.cons_append, get?_cons_of_members? hvalue, get?_cons_of_members? hvalue, Option.bind_none]
    | some members =>
      obtain rfl := eq_object_of_members? hvalue
      rw [List.cons_append, get?_object_cons, get?_object_cons, Option.bind_assoc]
      exact congrArg _ (funext ih)

/-! ### Writing to a path -/

/-- The object at a key, an empty one if there is none. -/
def objectAt (members : Members) (key : Text) : Members :=
  ((Entries.get? members key).bind Value.members?).getD []

theorem set_cons (members : Members) (first key : Text) (more : List Text) (value : Value) :
    set members first (key :: more) value =
      Entries.insert first (.object (set (objectAt members first) key more value)) members := by
  rw [set, objectAt]
  cases Entries.get? members first with
  | none => rfl
  | some found => cases found <;> rfl

theorem objectAt_insert (members inner : Members) (key : Text) :
    objectAt (Entries.insert key (.object inner) members) key = inner := by
  rw [objectAt, Entries.get?_insert_self]
  rfl

/-- What a longer path leads to is in the object at its first key. -/
theorem get?_objectAt (members : Members) (first key : Text) (more : List Text) :
    get? (.object members) (first :: key :: more) = get? (.object (objectAt members first)) (key :: more) := by
  rw [get?_object_cons, objectAt]
  cases Entries.get? members first with
  | none => rfl
  | some found =>
    rw [Option.bind_some, Option.bind_some]
    cases hfound : found.members? with
    | none =>
      rw [get?_cons_of_members? hfound]
      rfl
    | some inner =>
      rw [eq_object_of_members? hfound]
      rfl

theorem get?_set (members : Members) (first : Text) (rest : List Text) (value : Value) :
    get? (.object (set members first rest value)) (first :: rest) = some value := by
  induction rest generalizing members first with
  | nil => rw [set, get?_object_cons, Entries.get?_insert_self, Option.bind_some, get?]
  | cons key more ih => rw [set_cons, get?_objectAt, objectAt_insert, ih]

theorem set_set (members : Members) (first : Text) (rest : List Text) (value other : Value) :
    set (set members first rest value) first rest other = set members first rest other := by
  induction rest generalizing members first with
  | nil => rw [set, set, set, Entries.insert_insert]
  | cons key more ih =>
    rw [set_cons, set_cons, set_cons, objectAt_insert, ih, Entries.insert_insert]

theorem set_of_get? (hget : get? (.object members) (first :: rest) = some value) :
    set members first rest value = members := by
  induction rest generalizing members first with
  | nil =>
    obtain ⟨_, found, ⟨⟩, hfound, hvalue⟩ := exists_of_get?_cons hget
    rw [get?] at hvalue
    rw [set, Entries.insert_of_get? (hfound.trans hvalue)]
  | cons key more ih =>
    have hinner := ih ((get?_objectAt members first key more).symm.trans hget)
    -- the path goes on, so that there is an object at its first key
    obtain ⟨_, found, ⟨⟩, hfound, hmore⟩ := exists_of_get?_cons hget
    obtain ⟨inner, _, rfl, _, _⟩ := exists_of_get?_cons hmore
    have hobject : objectAt members first = inner := by
      rw [objectAt, hfound]
      rfl
    rw [set_cons, hinner, hobject, Entries.insert_of_get? hfound]

/-- A path that parts from the one written to leads where it led before. -/
theorem get?_set_of_not_prefix {other : List Text} (hother : ¬ other <+: first :: rest)
    (hpath : ¬ first :: rest <+: other) (members : Members) (value : Value) :
    get? (.object (set members first rest value)) other = get? (.object members) other := by
  induction rest generalizing members first other with
  | nil =>
    cases other with
    | nil => exact absurd List.nil_prefix hother
    | cons key more =>
      have hne : key ≠ first := by
        rintro rfl
        exact hpath (List.cons_prefix_cons.mpr ⟨rfl, List.nil_prefix⟩)
      rw [set, get?_object_cons, get?_object_cons, Entries.get?_insert_of_ne hne]
  | cons next rest ih =>
    cases other with
    | nil => exact absurd List.nil_prefix hother
    | cons key more =>
      by_cases hkey : key = first
      · subst hkey
        rw [List.cons_prefix_cons, and_iff_right rfl] at hother hpath
        cases more with
        | nil => exact absurd List.nil_prefix hother
        | cons key' more =>
          rw [set_cons, get?_objectAt, objectAt_insert, ih hother hpath, get?_objectAt]
      · rw [set_cons, get?_object_cons, get?_object_cons, Entries.get?_insert_of_ne hkey]

/-! ### Dotted keys -/

theorem exists_path (hkey : key ≠ []) : ∃ first rest, path key = first :: rest := by
  obtain ⟨first, rest, hsplit⟩ := Text.exists_splitOn '.' key
  refine ⟨first, rest, ?_⟩
  rw [path, if_neg (by simpa using hkey), hsplit]

theorem setDotted_of_path {data : Members} (hpath : path key = first :: rest) (value : Value) :
    setDotted data key value = .ok (set data first rest value) := by
  rw [setDotted, hpath]

/-- A dotted key is a lens: it reads what was written with it, what is written last counts, and writing what
the key has already changes nothing. Keys that part from it read what they read before, also where a value
had to make room for an object. An empty key cannot be written with. -/
theorem setDotted_lens (data : Members) (value : Value) :
    setDotted data [] value = .error .emptyKey ∧
    ∀ key ≠ [], ∃ written, setDotted data key value = .ok written ∧
      (∀ default, getDotted (.object written) key default = value) ∧
      (∀ other, setDotted written key other = setDotted data key other) ∧
      (get? (.object data) (path key) = some value → written = data) ∧
      ∀ other, ¬ path other <+: path key → ¬ path key <+: path other →
        ∀ default, getDotted (.object written) other default = getDotted (.object data) other default := by
  refine ⟨rfl, fun key hkey => ?_⟩
  obtain ⟨first, rest, hpath⟩ := exists_path hkey
  refine ⟨_, setDotted_of_path hpath value, fun default => ?_, fun other => ?_, fun hget => ?_, ?_⟩
  · rw [getDotted, hpath, get?_set, Option.getD_some]
  · rw [setDotted_of_path hpath, setDotted_of_path hpath, set_set]
  · rw [hpath] at hget
    exact set_of_get? hget
  · intro other hother hkey default
    rw [hpath] at hother hkey
    rw [getDotted, getDotted, get?_set_of_not_prefix hother hkey]

theorem setDotted_lens_over_number :
    (∃ written, setDotted [("a".toList, .int 1), ("c".toList, .int 2)] "a.b".toList .null = .ok written ∧
      getDotted (.object written) "a.b".toList (.int 3) = .null ∧
      getDotted (.object written) "a.c".toList (.int 3) = .int 3) ∧
    setDotted [("a".toList, .int 1), ("c".toList, .int 2)] "c".toList (.int 2) =
      .ok [("a".toList, .int 1), ("c".toList, .int 2)] := by
  constructor
  · obtain ⟨written, hset, hget, -, -, hframe⟩ :=
      (setDotted_lens [("a".toList, .int 1), ("c".toList, .int 2)] .null).2 "a.b".toList (by decide)
    exact ⟨written, hset, hget _, hframe "a.c".toList (by decide) (by decide) _⟩
  · obtain ⟨written, hset, -, -, hsame, -⟩ :=
      (setDotted_lens [("a".toList, .int 1), ("c".toList, .int 2)] (.int 2)).2 "c".toList (by decide)
    rw [hset, hsame rfl]

end Caret.Settings
