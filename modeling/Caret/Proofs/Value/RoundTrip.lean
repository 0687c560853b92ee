import Caret.Proofs.Text.Parts
import Caret.Proofs.Value.Ordered
import Caret.Proofs.Value.Written

/-!
# Writing values and reading them back

The items of a list and the members of an object are read by one loop, which takes part after part up to
the closing bracket. A value whose numbers are read back is read back itself, from its text over several
lines, with the members of every object in the order of their keys. What is read, from any text, has no
key of an object twice.
-/

namespace Caret.Json

open Value (IsProper)

/-! ### Sequences -/

section

variable {α β : Type} {part? : Text → Option (α × Text)} {closing : Char}

/-- Parts with commas between them up to a closing bracket, given a reader for one part. -/
def sequence? (part? : Text → Option (α × Text)) (closing : Char) : Nat → Text → Option (List α × Text)
  | 0, _ => none
  | fuel + 1, text =>
    match part? (skip text) with
    | none => none
    | some (part, rest) =>
      match skip rest with
      | [] => none
      | c :: rest =>
        if c = ',' then (sequence? part? closing fuel rest).map fun (parts, rest) => (part :: parts, rest)
        else if c = closing then some ([part], rest)
        else none

/-- A key and its value, given a reader for the value. -/
def member? (value? : Text → Option (Value × Text)) : Text → Option ((Text × Value) × Text)
  | '"' :: rest =>
    match string? (rest.length + 1) rest with
    | none => none
    | some (key, rest) =>
      match skip rest with
      | ':' :: rest => (value? (skip rest)).map fun (value, rest) => ((key, value), rest)
      | _ => none
  | _ => none

theorem sequence?_eq_none {text rest : Text} {part : α} (hpart : part? (skip text) = some (part, rest))
    (hcomma : ∀ after, ¬ skip rest = ',' :: after) (hclosing : ∀ after, ¬ skip rest = closing :: after)
    (fuel : Nat) : sequence? part? closing (fuel + 1) text = none := by
  simp only [sequence?, hpart]
  split
  · rfl
  · rename_i c after hskip
    rw [if_neg, if_neg]
    · rintro rfl
      exact hclosing after hskip
    · rintro rfl
      exact hcomma after hskip

theorem items?_eq_sequence? (value? : Text → Option (Value × Text)) (fuel : Nat) (text : Text) :
    items? value? fuel text = sequence? value? ']' fuel text := by
  fun_induction items? value? fuel text with
  | case5 fuel text item rest hpart hcomma hclosing =>
    exact (sequence?_eq_none hpart hcomma hclosing fuel).symm
  | _ => simp_all [sequence?]

theorem members?_eq_sequence? (value? : Text → Option (Value × Text)) (fuel : Nat) (text : Text) :
    members? value? fuel text = sequence? (member? value?) '}' fuel text := by
  fun_induction members? value? fuel text with
  | case6 fuel text quoted hquote key rest hkey after hcolon value rest' hvalue hcomma hclosing =>
    have hpart : member? value? (skip text) = some ((key, value), rest') := by
      simp [member?, hquote, hkey, hcolon, hvalue]
    exact (sequence?_eq_none hpart hcomma hclosing fuel).symm
  | _ => simp_all [sequence?, member?]

theorem exists_of_mem_sequence? {fuel : Nat} {text rest : Text} {parts : List α} {part : α}
    (hread : sequence? part? closing fuel text = some (parts, rest)) (hmem : part ∈ parts) :
    ∃ text rest, part? text = some (part, rest) := by
  induction fuel generalizing text parts with
  | zero => cases hread
  | succ fuel ih =>
    rw [sequence?] at hread
    split at hread
    · cases hread
    rename_i first after hfirst
    split at hread
    · cases hread
    split at hread
    · obtain ⟨found, hmore, heq⟩ := Option.map_eq_some_iff.mp hread
      cases heq
      rcases List.mem_cons.mp hmem with rfl | hmem
      · exact ⟨_, _, hfirst⟩
      · exact ih hmore hmem
    · rw [Option.ite_none_right_eq_some] at hread
      cases hread.2
      rw [List.mem_singleton.mp hmem]
      exact ⟨_, _, hfirst⟩

end

/-! ### What is read is proper -/

theorem exists_of_member? {value? : Text → Option (Value × Text)} {text rest : Text}
    {member : Text × Value} (hread : member? value? text = some (member, rest)) :
    ∃ text rest, value? text = some (member.2, rest) := by
  revert hread
  fun_cases member? value? text with
  | case2 quoted key rest hkey after hcolon =>
    intro hread
    obtain ⟨found, hvalue, heq⟩ := Option.map_eq_some_iff.mp hread
    cases heq
    exact ⟨_, _, hvalue⟩
  | _ => exact fun hread => nomatch hread

theorem isProper_of_unsigned? {negative : Bool} {text rest : Text} {value : Value}
    (hread : unsigned? negative text = some (value, rest)) : value.IsProper := by
  rw [unsigned?_eq_bind, Option.bind_eq_some_iff] at hread
  obtain ⟨found, -, hread⟩ := hread
  simp only [fromWhole?] at hread
  split at hread
  · split at hread <;> cases hread
    trivial
  · cases hread
    trivial

theorem isProper_of_scalar? {text rest : Text} {value : Value}
    (hread : scalar? text = some (value, rest)) : value.IsProper := by
  rw [scalar?, Option.or_eq_some_iff] at hread
  rcases hread with hword | ⟨-, hnumber⟩
  · obtain ⟨⟨word, found⟩, hmem, hfound⟩ := List.exists_of_findSome?_eq_some hword
    obtain ⟨after, -, heq⟩ := Option.map_eq_some_iff.mp hfound
    cases heq
    simp only [List.mem_cons, Prod.mk.injEq, List.not_mem_nil, or_false] at hmem
    rcases hmem with ⟨-, rfl⟩ | ⟨-, rfl⟩ | ⟨-, rfl⟩ | ⟨-, rfl⟩ | ⟨-, rfl⟩ <;> trivial
  · revert hnumber
    fun_cases number? text with
    | case1 cs left hword =>
      intro hnumber
      cases hnumber
      trivial
    | _ => exact isProper_of_unsigned?

theorem isProper_of_value? {depth : Nat} {text rest : Text} {value : Value}
    (hread : value? depth text = some (value, rest)) : value.IsProper := by
  induction depth generalizing text value rest with
  | zero => cases hread
  | succ depth ih =>
    rw [value?.eq_def] at hread
    dsimp only at hread
    split at hread
    · obtain ⟨found, -, heq⟩ := Option.map_eq_some_iff.mp hread
      cases heq
      trivial
    · split at hread
      · cases hread
        exact Value.isProper_list.mpr (by simp)
      · obtain ⟨found, hitems, heq⟩ := Option.map_eq_some_iff.mp hread
        cases heq
        rw [items?_eq_sequence?] at hitems
        rw [Value.isProper_list]
        intro item hmem
        obtain ⟨_, _, hitem⟩ := exists_of_mem_sequence? hitems hmem
        exact ih hitem
    · split at hread
      · cases hread
        exact Value.isProper_object.mpr (by simp [Entries.IsDistinct])
      · obtain ⟨found, hmembers, heq⟩ := Option.map_eq_some_iff.mp hread
        cases heq
        rw [members?_eq_sequence?] at hmembers
        refine Value.isProper_object.mpr ⟨Entries.isDistinct_insertAll _ _ List.nodup_nil, ?_⟩
        intro member hmem
        have hmem := (Entries.mem_insertAll hmem).resolve_left List.not_mem_nil
        obtain ⟨_, _, hmember⟩ := exists_of_mem_sequence? hmembers hmem
        obtain ⟨_, _, hvalue⟩ := exists_of_member? hmember
        exact ih hvalue
    · exact isProper_of_scalar? hread

theorem isProper_of_read? {text : Text} {value : Value} (hread : read? text = some value) :
    value.IsProper := by
  rw [read?] at hread
  split at hread
  · rename_i found rest hvalue
    rw [Option.ite_none_right_eq_some, Option.some.injEq] at hread
    exact hread.2 ▸ isProper_of_value? hvalue
  · cases hread

/-! ### Reading a written value -/

/-- How a written value begins: neither with white space nor with a closing bracket. -/
def Opens (text : Text) : Prop :=
  ∃ c rest, text = c :: rest ∧ isJsonSpace c = false ∧ c ≠ ']' ∧ c ≠ '}'

/-- A reader takes a part from the front of what it is written as. -/
def Reads {α : Type} (part? : Text → Option (α × Text)) (text : Text) (part : α) : Prop :=
  ∀ rest, Stops rest → part? (text ++ rest) = some (part, rest)

theorem Opens.append {text : Text} (hopens : Opens text) (rest : Text) : Opens (text ++ rest) := by
  obtain ⟨c, more, rfl, hc⟩ := hopens
  exact ⟨c, more ++ rest, rfl, hc⟩

theorem Opens.skip_eq {text : Text} (hopens : Opens text) : skip text = text := by
  obtain ⟨c, rest, rfl, hc, -⟩ := hopens
  rw [skip, List.dropWhile_cons_of_neg (by simp [hc])]

theorem Opens.ne_cons {text : Text} (hopens : Opens text) {closing : Char}
    (hclosing : closing = ']' ∨ closing = '}') (rest : Text) : text ≠ closing :: rest := by
  obtain ⟨c, more, rfl, -, hlist, hobject⟩ := hopens
  intro heq
  obtain ⟨rfl, -⟩ := List.cons.inj heq
  rcases hclosing with rfl | rfl
  · exact hlist rfl
  · exact hobject rfl

theorem Opens.join (sep : Text) {parts : List Text} (hparts : parts ≠ [])
    (hopens : ∀ part ∈ parts, Opens part) : Opens (Text.join sep parts) := by
  cases parts with
  | nil => exact absurd rfl hparts
  | cons part rest =>
    obtain ⟨c, more, rfl, hc⟩ := hopens part List.mem_cons_self
    rw [Text.join_cons_cons]
    exact ⟨c, _, rfl, hc⟩

theorem skip_lineStart (depth : Nat) (text : Text) : skip (lineStart depth ++ text) = skip text := by
  apply List.dropWhile_append_of_pos
  intro c hmem
  rcases List.mem_cons.mp hmem with rfl | hmem
  · rfl
  · rw [List.eq_of_mem_replicate hmem]
    rfl

theorem stops_nil : Stops [] := by
  intro c hc
  cases hc

theorem stops_comma (rest : Text) : Stops (',' :: rest) := by
  intro c hc
  exact .inl (Option.some.inj hc).symm

theorem stops_lineStart (depth : Nat) (rest : Text) : Stops (lineStart depth ++ rest) := by
  intro c hc
  exact .inr (Option.some.inj hc).symm

/-- Parts on lines of their own are read one after the other up to the closing bracket. -/
theorem sequence?_join {α β : Type} {part? : Text → Option (α × Text)} {closing : Char}
    (hclosing : closing ≠ ',' ∧ isJsonSpace closing = false) {parts : List β} {written : β → Text}
    {read : β → α} (hparts : parts ≠ []) (hopens : ∀ part ∈ parts, Opens (written part))
    (hreads : ∀ part ∈ parts, Reads part? (written part) (read part)) {fuel : Nat}
    (hfuel : parts.length ≤ fuel) (inner outer : Nat) {text rest : Text}
    (hskip : skip text = Text.join (',' :: lineStart inner) (parts.map written) ++
      (lineStart outer ++ closing :: rest)) :
    sequence? part? closing fuel text = some (parts.map read, rest) := by
  induction parts generalizing fuel text with
  | nil => exact absurd rfl hparts
  | cons part parts ih =>
    obtain ⟨fuel, rfl⟩ : ∃ more, fuel = more + 1 := ⟨fuel - 1, by simp at hfuel; omega⟩
    have hopens := (List.forall_mem_cons.mp hopens).2
    obtain ⟨hread, hreads⟩ := List.forall_mem_cons.mp hreads
    rw [sequence?, hskip]
    by_cases hlast : parts = []
    · subst hlast
      rw [List.map_singleton, Text.join_singleton, hread _ (stops_lineStart outer _)]
      dsimp only
      have hend : skip (lineStart outer ++ closing :: rest) = closing :: rest := by
        rw [skip_lineStart, skip, List.dropWhile_cons_of_neg (by simp [hclosing.2])]
      rw [hend]
      simp [hclosing.1]
    · have hmore := Opens.join (',' :: lineStart inner) (mt List.map_eq_nil_iff.mp hlast)
        (List.forall_mem_map.mpr hopens)
      rw [List.map_cons, Text.join_cons _ _ (mt List.map_eq_nil_iff.mp hlast), List.append_assoc,
        List.append_assoc, List.cons_append, hread _ (stops_comma _)]
      have hcomma : ∀ more, skip (',' :: more) = ',' :: more := fun more => rfl
      simp only [hcomma]
      rw [if_pos trivial, ih hlast hopens hreads (by simpa using hfuel)]
      · rfl
      · rw [skip_lineStart, (hmore.append _).skip_eq]

theorem length_le_join {sep : Text} (hsep : sep ≠ []) (parts : List Text) :
    parts.length ≤ (Text.join sep parts).length + 1 := by
  have hpos := List.length_pos_iff.mpr hsep
  fun_induction Text.join sep parts with
  | case1 => simp
  | case2 part => simp
  | case3 part parts _ ih =>
    simp only [List.length_cons, List.length_append] at ih ⊢
    omega

theorem length_part_le_join (sep : Text) {parts : List Text} {part : Text} (hmem : part ∈ parts) :
    part.length ≤ (Text.join sep parts).length := by
  fun_induction Text.join sep parts with
  | case1 => cases hmem
  | case2 first => rw [List.mem_singleton.mp hmem]
  | case3 first next parts ih =>
    simp only [List.length_append]
    rcases List.mem_cons.mp hmem with rfl | hmem
    · omega
    · have := ih hmem
      omega

theorem block_of_ne_nil (opening closing : Char) (depth : Nat) {parts : List Text} (hparts : parts ≠ []) :
    block opening closing depth parts =
      opening :: (lineStart (depth + 1) ++ (Text.join (',' :: lineStart (depth + 1)) parts ++
        (lineStart depth ++ [closing]))) := by
  rw [block, if_neg (by simpa using hparts)]
  simp

theorem length_lt_block (opening closing : Char) (depth : Nat) {parts : List Text} {part : Text}
    (hmem : part ∈ parts) : part.length + 1 < (block opening closing depth parts).length := by
  have hle := length_part_le_join (',' :: lineStart (depth + 1)) hmem
  rw [block_of_ne_nil _ _ _ (List.ne_nil_of_mem hmem)]
  simp only [List.length_cons, List.length_append, List.length_nil]
  omega

/-- Between its brackets a block holds a sequence. -/
theorem sequence?_block {α β : Type} {part? : Text → Option (α × Text)} {closing : Char}
    (hclosing : closing ≠ ',' ∧ isJsonSpace closing = false) {parts : List β} {written : β → Text}
    {read : β → α} (hparts : parts ≠ []) (hopens : ∀ part ∈ parts, Opens (written part))
    (hreads : ∀ part ∈ parts, Reads part? (written part) (read part)) (opening : Char) (depth : Nat)
    (rest : Text) :
    ∃ text inside, block opening closing depth (parts.map written) ++ rest = opening :: text ∧
      skip text = inside ∧ Opens inside ∧
      sequence? part? closing (inside.length + 1) inside = some (parts.map read, rest) := by
  have hwritten : parts.map written ≠ [] := mt List.map_eq_nil_iff.mp hparts
  have hopen := Opens.join (',' :: lineStart (depth + 1)) hwritten (List.forall_mem_map.mpr hopens)
  have hinside := hopen.append (lineStart depth ++ closing :: rest)
  refine ⟨lineStart (depth + 1) ++ (Text.join (',' :: lineStart (depth + 1)) (parts.map written) ++
    (lineStart depth ++ closing :: rest)), _, ?_, ?_, hinside, ?_⟩
  · rw [block_of_ne_nil _ _ _ hwritten]
    simp
  · rw [skip_lineStart, hinside.skip_eq]
  · apply sequence?_join hclosing hparts hopens hreads _ (depth + 1) depth hinside.skip_eq
    have hle := length_le_join (List.cons_ne_nil ',' (lineStart (depth + 1))) (parts.map written)
    rw [List.length_map] at hle
    rw [List.length_append]
    omega

theorem reads_list {fuel depth : Nat} {items : List Value} {written : Value → Text} {read : Value → Value}
    (hopens : ∀ item ∈ items, Opens (written item))
    (hreads : ∀ item ∈ items, Reads (value? fuel) (written item) (read item)) :
    Reads (value? (fuel + 1)) (block '[' ']' depth (items.map written)) (.list (items.map read)) := by
  intro rest _
  by_cases hitems : items = []
  · subst hitems
    rfl
  · obtain ⟨text, inside, htext, hskip, hopen, hread⟩ :=
      sequence?_block (show ']' ≠ ',' ∧ _ from by decide) hitems hopens hreads '[' depth rest
    rw [htext, value?]
    split
    · rename_i more hclosed
      exact absurd (hskip.symm.trans hclosed) (hopen.ne_cons (.inl rfl) more)
    · rw [hskip, items?_eq_sequence?, hread]
      rfl

theorem reads_object {fuel depth : Nat} {members : Members} {written : Text × Value → Text}
    {read : Text × Value → Text × Value} (hopens : ∀ member ∈ members, Opens (written member))
    (hreads : ∀ member ∈ members, Reads (member? (value? fuel)) (written member) (read member))
    (hdistinct : Entries.IsDistinct (members.map read)) :
    Reads (value? (fuel + 1)) (block '{' '}' depth (members.map written))
      (.object (members.map read)) := by
  intro rest _
  by_cases hmembers : members = []
  · subst hmembers
    rfl
  · obtain ⟨text, inside, htext, hskip, hopen, hread⟩ :=
      sequence?_block (show '}' ≠ ',' ∧ _ from by decide) hmembers hopens hreads '{' depth rest
    rw [htext, value?]
    split
    · rename_i more hclosed
      exact absurd (hskip.symm.trans hclosed) (hopen.ne_cons (.inr rfl) more)
    · rw [hskip, members?_eq_sequence?, hread, Option.map_some]
      dsimp only
      rw [Entries.insertAll_nil hdistinct]

theorem reads_text (fuel : Nat) (text : Text) : Reads (value? (fuel + 1)) (writtenText text) (.text text) := by
  intro rest _
  rw [writtenText, List.cons_append, List.cons_append, List.append_assoc, List.singleton_append, value?,
    string?_written]
  rfl

theorem reads_member {value? : Text → Option (Value × Text)} {written : Text} {value : Value}
    (hopens : Opens written) (hreads : Reads value? written value) (key : Text) :
    Reads (member? value?) (writtenText key ++ ": ".toList ++ written) (key, value) := by
  intro rest hstops
  have htext : writtenText key ++ ": ".toList ++ written ++ rest =
      '"' :: (key.flatMap writtenChar ++ '"' :: ':' :: ' ' :: (written ++ rest)) := by
    simp [writtenText]
  have hcolon : ∀ more, skip (':' :: more) = ':' :: more := fun more => rfl
  have hspace : ∀ more, skip (' ' :: more) = skip more := fun more => rfl
  rw [htext, member?, string?_written]
  simp only [hcolon, hspace]
  rw [(hopens.append rest).skip_eq, hreads rest hstops]
  rfl

/-! ### The round trip -/

/-- Writing a number and reading it gives it back. -/
def ReadsBack (value : Value) : Prop :=
  isNumber value = true → read? (write value) = some value

/-- All numbers in a value are read back. -/
def IsLegible (value : Value) : Prop :=
  value.Everywhere ReadsBack

theorem opens_number {value : Value} (hnumber : isNumber value = true)
    (hread : read? (write value) = some value) : Opens (write value) := by
  have hgraphic := isGraphic_of_mem_number hnumber 0
  rw [write] at hread ⊢
  cases htext : indented 0 value with
  | nil =>
    rw [htext] at hread
    cases hread
  | cons c rest =>
    rw [htext] at hread hgraphic
    refine ⟨c, rest, rfl, isJsonSpace_of_isGraphic (hgraphic c List.mem_cons_self), ?_, ?_⟩
    · rintro rfl
      cases hread
    · rintro rfl
      cases hread

theorem opens_block {opening closing : Char}
    (hopening : isJsonSpace opening = false ∧ opening ≠ ']' ∧ opening ≠ '}') (depth : Nat)
    (parts : List Text) : Opens (block opening closing depth parts) := by
  rw [block]
  split
  · exact ⟨opening, _, rfl, hopening⟩
  · exact ⟨opening, _, rfl, hopening⟩

theorem opens_indented {value : Value} (hlegible : IsLegible value) (depth : Nat) :
    Opens (indented depth value) := by
  cases value with
  | int i => exact opens_number rfl (hlegible rfl)
  | real x => exact opens_number rfl (hlegible rfl)
  | list items => exact opens_block (by decide) depth _
  | object members => exact opens_block (by decide) depth _
  | null => exact ⟨_, _, rfl, by decide⟩
  | bool b => cases b <;> exact ⟨_, _, rfl, by decide⟩
  | text t => exact ⟨_, _, rfl, by decide⟩

theorem indented_list (depth : Nat) (items : List Value) :
    indented depth (.list items) = block '[' ']' depth (items.map (indented (depth + 1))) := by
  have hitems : ∀ items, indentedItems (depth + 1) items = items.map (indented (depth + 1)) := by
    intro items
    induction items with
    | nil => rfl
    | cons item items ih => rw [indentedItems, ih, List.map_cons]
  rw [indented, hitems]

theorem indented_object (depth : Nat) (members : Members) :
    indented depth (.object members) = block '{' '}' depth ((Entries.inOrder members).map fun member =>
      writtenText member.1 ++ ": ".toList ++ indented (depth + 1) member.2) := by
  have hmembers : ∀ members : Members, indentedMembers (depth + 1) members =
      members.map fun member => (member.1, indented (depth + 1) member.2) := by
    intro members
    induction members with
    | nil => rfl
    | cons member members ih => rw [indentedMembers, ih, List.map_cons]
  have hsorted := Entries.inOrder_map (indented (depth + 1)) members
  rw [Entries.inOrder] at hsorted
  rw [indented, hmembers, hsorted, List.map_map]
  rfl

/-- A proper value whose numbers are read back is read back, brought into order, whatever comes behind
it. -/
theorem reads_indented {value : Value} (hproper : value.IsProper) (hlegible : IsLegible value)
    {depth fuel : Nat} (hfuel : (indented depth value).length < fuel) :
    Reads (value? fuel) (indented depth value) value.ordered := by
  obtain ⟨fuel, rfl⟩ : ∃ more, fuel = more + 1 := ⟨fuel - 1, by omega⟩
  induction value using Value.induction generalizing depth fuel with
  | null => exact fun rest hstops => rfl
  | bool b =>
    intro rest hstops
    cases b <;> rfl
  | int i => exact fun rest hstops => value?_number rfl (hlegible rfl) hstops fuel
  | real x => exact fun rest hstops => value?_number rfl (hlegible rfl) hstops fuel
  | text t => exact reads_text fuel t
  | list items ih =>
    rw [Value.isProper_list] at hproper
    have hlegible := (Value.everywhere_list.mp hlegible).2
    rw [indented_list] at hfuel ⊢
    rw [Value.ordered_list]
    apply reads_list
    · intro item hmem
      exact opens_indented (hlegible item hmem) (depth + 1)
    · intro item hmem
      have hlt := length_lt_block '[' ']' depth
        (List.mem_map_of_mem (f := indented (depth + 1)) hmem)
      obtain ⟨less, rfl⟩ : ∃ less, fuel = less + 1 := ⟨fuel - 1, by omega⟩
      exact ih item hmem (hproper item hmem) (hlegible item hmem) less (by omega)
  | object members ih =>
    obtain ⟨hdistinct, hproper⟩ := Value.isProper_object.mp hproper
    have hlegible := (Value.everywhere_object.mp hlegible).2
    have hperm := Entries.inOrder_perm members
    rw [indented_object] at hfuel ⊢
    rw [Value.ordered_object, Value.sorted]
    apply reads_object
    · intro member hmem
      exact ⟨_, _, rfl, by decide⟩
    · intro member hmem
      have hlt := length_lt_block '{' '}' depth
        (List.mem_map_of_mem (f := fun member : Text × Value =>
          writtenText member.1 ++ ": ".toList ++ indented (depth + 1) member.2) hmem)
      simp only [List.length_append] at hlt
      obtain ⟨less, rfl⟩ : ∃ less, fuel = less + 1 := ⟨fuel - 1, by omega⟩
      have hmem := hperm.mem_iff.mp hmem
      apply reads_member (opens_indented (hlegible member hmem) (depth + 1))
      exact ih member hmem (hproper member hmem) (hlegible member hmem) less (by omega)
    · exact Value.isDistinct_sorted hdistinct

/-- Writing a proper value whose numbers are read back, and reading it, brings it into order. -/
theorem read?_write {value : Value} (hproper : value.IsProper) (hlegible : IsLegible value) :
    read? (write value) = some value.ordered := by
  have hreads := reads_indented hproper hlegible (Nat.lt_succ_self (indented 0 value).length) [] stops_nil
  rw [List.append_nil] at hreads
  rw [read?, write, (opens_indented hlegible 0).skip_eq, hreads]
  rfl

/-! ### The characters of a written value -/

theorem isPlain_of_mem_lineStart (depth : Nat) : ∀ c ∈ lineStart depth, IsPlain c := by
  refine List.forall_mem_cons.mpr ⟨by decide, fun c hmem => ?_⟩
  rw [List.eq_of_mem_replicate hmem]
  decide

theorem isPlain_of_mem_block {opening closing : Char} (hopening : IsPlain opening)
    (hclosing : IsPlain closing) (depth : Nat) {parts : List Text}
    (hparts : ∀ part ∈ parts, ∀ c ∈ part, IsPlain c) : ∀ c ∈ block opening closing depth parts, IsPlain c := by
  by_cases hempty : parts = []
  · subst hempty
    exact List.forall_mem_cons.mpr ⟨hopening, List.forall_mem_singleton.mpr hclosing⟩
  · rw [block_of_ne_nil _ _ _ hempty]
    simp only [List.forall_mem_cons, List.forall_mem_append]
    refine ⟨hopening, isPlain_of_mem_lineStart _, ?_, isPlain_of_mem_lineStart _, hclosing, by simp⟩
    intro c hmem
    rcases Text.mem_join hmem with hsep | ⟨part, hpart, hc⟩
    · exact List.forall_mem_cons.mpr ⟨by decide, isPlain_of_mem_lineStart _⟩ c hsep
    · exact hparts part hpart c hc

theorem isPlain_of_mem_indented (depth : Nat) (value : Value) : ∀ c ∈ indented depth value, IsPlain c := by
  induction value using Value.induction generalizing depth with
  | null =>
    rw [indented]
    exact Text.forall_mem_of_all (by decide)
  | bool b =>
    rw [indented]
    cases b <;> exact Text.forall_mem_of_all (by decide)
  | int i => exact fun c hmem => (isGraphic_of_mem_number rfl depth c hmem).isPlain
  | real x => exact fun c hmem => (isGraphic_of_mem_number rfl depth c hmem).isPlain
  | text t => exact isPlain_of_mem_writtenText t
  | list items ih =>
    rw [indented_list]
    apply isPlain_of_mem_block (by decide) (by decide)
    exact List.forall_mem_map.mpr fun item hmem => ih item hmem (depth + 1)
  | object members ih =>
    rw [indented_object]
    apply isPlain_of_mem_block (by decide) (by decide)
    refine List.forall_mem_map.mpr fun member hmem => ?_
    simp only [List.forall_mem_append]
    exact ⟨⟨isPlain_of_mem_writtenText member.1, Text.forall_mem_of_all (by decide)⟩,
      ih member ((Entries.inOrder_perm members).mem_iff.mp hmem) (depth + 1)⟩

end Caret.Json
