import Caret.Proofs.Script.Token
import Caret.Script.Parser.Basic

/-!
# What a parser looks at

The parsers for expressions and simple statements look only at the lexemes up to the end of the
statement: neither the lines the tokens stand on nor what follows the statement plays a part, and once
there is enough fuel its amount does not either. All three facts are one statement, `Agree`: two
parsers, which may differ in their fuel, answer the same on two lists of tokens that have the same
first segment, and take the same lexemes from it.

Fuel is measured against the weight of a segment.
-/

namespace Caret.Script

namespace Parser

variable {α β : Type}

@[simp] theorem pure_apply (a : α) (tokens : List Token) :
    (pure a : Parser α) tokens = some (a, tokens) := rfl

theorem bind_apply (p : Parser α) (f : α → Parser β) (tokens : List Token) :
    (p >>= f) tokens = match p tokens with
      | some (a, rest) => f a rest
      | none => none := by
  change Option.bind (p tokens) _ = _
  cases p tokens <;> rfl

theorem bind_of_eq_some {p : Parser α} {f : α → Parser β} {tokens rest : List Token} {a : α}
    (h : p tokens = some (a, rest)) : (p >>= f) tokens = f a rest := by
  rw [bind_apply, h]

theorem bind_of_eq_none {p : Parser α} {f : α → Parser β} {tokens : List Token}
    (h : p tokens = none) : (p >>= f) tokens = none := by
  rw [bind_apply, h]

theorem bind_eq_some {p : Parser α} {f : α → Parser β} {tokens rest : List Token} {b : β}
    (h : (p >>= f) tokens = some (b, rest)) :
    ∃ a middle, p tokens = some (a, middle) ∧ f a middle = some (b, rest) := by
  cases hp : p tokens with
  | none => simp [bind_of_eq_none hp] at h
  | some result => exact ⟨result.1, result.2, rfl, by rwa [bind_of_eq_some hp] at h⟩

/-! ### Runs that come to the same -/

/-- Two runs that start on two lists of tokens come to the same: both fail, or both answer the same
and have taken the same lexemes. None of these ends a statement, and their weight is at least what
is asked of the answer. -/
inductive SameRun (least : α → Nat) (x y : List Token) :
    Option (α × List Token) → Option (α × List Token) → Prop
  | failed : SameRun least x y none none
  | answered {a : α} (taken taken' : List Token) {rest rest' : List Token} (hx : x = taken ++ rest)
      (hy : y = taken' ++ rest') (hsame : lexemes taken = lexemes taken')
      (hinside : ∀ l ∈ lexemes taken, l.isEnd = false) (hleast : least a ≤ weight (lexemes taken)) :
      SameRun least x y (some (a, rest)) (some (a, rest'))

/-- Two parsers answer the same on lists of tokens with the same first segment, if its weight is below
a bound, and take the same lexemes from it. -/
def Agree (least : α → Nat) (bound : Nat) (p q : Parser α) : Prop :=
  ∀ x y, segment x = segment y → weight (segment x) < bound → SameRun least x y (p x) (q y)

/-- Two parsers agree on lists of tokens that start with a certain lexeme. -/
def AgreeAt (first : Option Lexeme) (least : α → Nat) (bound : Nat) (p q : Parser α) : Prop :=
  ∀ x y, segment x = segment y → (segment x).head? = first → weight (segment x) < bound →
    SameRun least x y (p x) (q y)

/-- Nothing is asked of the weight of what a parser takes. -/
abbrev anyway : α → Nat := fun _ => 0

/-- A parser takes something if it says so. -/
abbrev whenTrue : Bool → Nat := fun b => if b then 1 else 0

/-- A parser takes something if it answers something. -/
abbrev whenSome : Option α → Nat := fun o => if o.isSome then 1 else 0

variable {least : α → Nat} {most : β → Nat} {bound : Nat}

theorem SameRun.weaken {least' : α → Nat} {x y : List Token} {left right : Option (α × List Token)}
    (h : SameRun least x y left right) (hleast : ∀ a, least' a ≤ least a) :
    SameRun least' x y left right := by
  cases h with
  | failed => exact .failed
  | answered _ _ hx hy hsame hinside hle =>
    exact .answered _ _ hx hy hsame hinside (Nat.le_trans (hleast _) hle)

theorem Agree.weaken {least' : α → Nat} {bound' : Nat} {p q : Parser α} (h : Agree least bound p q)
    (hleast : ∀ a, least' a ≤ least a) (hbound : bound' ≤ bound) : Agree least' bound' p q :=
  fun x y hseg hlt => (h x y hseg (by omega)).weaken hleast

theorem Agree.lower {bound' : Nat} {p q : Parser α} (h : Agree least bound p q)
    (hbound : bound' ≤ bound) : Agree least bound' p q :=
  h.weaken (fun _ => Nat.le_refl _) hbound

theorem Agree.at {p q : Parser α} (h : Agree least bound p q) (first : Option Lexeme) :
    AgreeAt first least bound p q :=
  fun x y hseg _ hlt => h x y hseg hlt

theorem Agree.pure {a : α} (hleast : least a = 0) :
    Agree least bound (pure a : Parser α) (Pure.pure a) := by
  intro x y _ _
  exact .answered [] [] rfl rfl rfl (by simp) (by simp [hleast])

theorem Agree.fail : Agree least bound (fail : Parser α) Parser.fail :=
  fun _ _ _ _ => .failed

theorem AgreeAt.pure {first : Option Lexeme} {a : α} (hleast : least a = 0) :
    AgreeAt first least bound (Pure.pure a : Parser α) (Pure.pure a) :=
  (Agree.pure hleast).at first

theorem AgreeAt.fail {first : Option Lexeme} :
    AgreeAt first least bound (Parser.fail : Parser α) Parser.fail :=
  Agree.fail.at first

/-- What two runs leave has the same first segment again, lighter by what was taken. -/
theorem segment_rest {x y taken taken' rest rest' : List Token} (hx : x = taken ++ rest)
    (hy : y = taken' ++ rest') (hsame : lexemes taken = lexemes taken')
    (hinside : ∀ l ∈ lexemes taken, l.isEnd = false) (hseg : segment x = segment y) :
    segment rest = segment rest' ∧
      weight (segment x) = weight (lexemes taken) + weight (segment rest) := by
  have hleft : segment x = lexemes taken ++ segment rest := by
    rw [hx, segment_append hinside]
  have hright : segment y = lexemes taken ++ segment rest' := by
    rw [hy, segment_append (hsame ▸ hinside), hsame]
  have hboth : lexemes taken ++ segment rest = lexemes taken ++ segment rest' := by
    rw [← hleft, hseg, hright]
  exact ⟨List.append_cancel_left hboth, by rw [hleft, weight_append]⟩

theorem SameRun.bind {least' : α → Nat} {p q : Parser α} {f g : α → Parser β} {x y : List Token}
    (hp : SameRun least' x y (p x) (q y)) (hseg : segment x = segment y)
    (hlt : weight (segment x) < bound)
    (hf : ∀ a, Agree (fun b => most b - least' a) (bound - least' a) (f a) (g a)) :
    SameRun most x y ((p >>= f) x) ((q >>= g) y) := by
  rw [bind_apply, bind_apply]
  generalize p x = left at hp
  generalize q y = right at hp
  cases hp with
  | failed => exact .failed
  | @answered a taken taken' rest rest' hx hy hsame hinside hle =>
    obtain ⟨hrest, hweight⟩ := segment_rest hx hy hsame hinside hseg
    have hnext := hf a rest rest' hrest (by omega)
    dsimp only
    generalize f a rest = left at hnext
    generalize g a rest' = right at hnext
    cases hnext with
    | failed => exact .failed
    | @answered b more more' last last' hx' hy' hsame' hinside' hle' =>
      refine .answered (taken ++ more) (taken' ++ more') ?_ ?_ ?_ ?_ ?_
      · rw [hx, hx', List.append_assoc]
      · rw [hy, hy', List.append_assoc]
      · rw [lexemes_append, lexemes_append, hsame, hsame']
      · intro l hl
        rw [lexemes_append, List.mem_append] at hl
        exact hl.elim (hinside l) (hinside' l)
      · rw [lexemes_append, weight_append]
        omega

theorem Agree.bind {least' : α → Nat} {p q : Parser α} {f g : α → Parser β}
    (hp : Agree least' bound p q)
    (hf : ∀ a, Agree (fun b => most b - least' a) (bound - least' a) (f a) (g a)) :
    Agree most bound (p >>= f) (q >>= g) :=
  fun x y hseg hlt => (hp x y hseg hlt).bind hseg hlt hf

/-- One parser after another, when nothing is asked of what they take. -/
theorem Agree.seq {p q : Parser α} {f g : α → Parser β} (hp : Agree anyway bound p q)
    (hf : ∀ a, Agree most bound (f a) (g a)) : Agree most bound (p >>= f) (q >>= g) :=
  .bind hp hf

theorem Agree.map {p q : Parser α} (f : α → β) (hp : Agree anyway bound p q) :
    Agree anyway bound (f <$> p) (f <$> q) := by
  rw [← bind_pure_comp, ← bind_pure_comp]
  exact .seq hp fun _ => .pure rfl

theorem Agree.ite {c : Prop} [Decidable c] {p q p' q' : Parser α} (hp : Agree least bound p p')
    (hq : Agree least bound q q') :
    Agree least bound (if c then p else q) (if c then p' else q') := by
  split
  · exact hp
  · exact hq

theorem AgreeAt.ite {c : Prop} [Decidable c] {first : Option Lexeme} {p q p' q' : Parser α}
    (hp : AgreeAt first least bound p p') (hq : AgreeAt first least bound q q') :
    AgreeAt first least bound (if c then p else q) (if c then p' else q') := by
  split
  · exact hp
  · exact hq

/-! ### Looking at tokens and taking them -/

theorem Agree.peek {f g : Option Lexeme → Parser α}
    (h : ∀ first, AgreeAt first least bound (f first) (g first)) :
    Agree least bound (peek >>= f) (peek >>= g) := by
  intro x y hseg hlt
  have hx : (Parser.peek >>= f) x = f (segment x).head? x := by rw [head?_segment]; rfl
  have hy : (Parser.peek >>= g) y = g (segment y).head? y := by rw [head?_segment]; rfl
  rw [hx, hy, ← hseg]
  exact h _ x y hseg rfl hlt

/-- The tokens of two lists that start with the same lexeme inside a segment. -/
theorem exists_cons_of_head? {x y : List Token} {first : Lexeme} (hseg : segment x = segment y)
    (hfirst : (segment x).head? = some first) (hend : first.isEnd = false) :
    ∃ s t xs ys, x = s :: xs ∧ y = t :: ys ∧ s.lexeme = first ∧ t.lexeme = first ∧
      segment x = first :: segment xs ∧ segment xs = segment ys := by
  cases x with
  | nil => cases hfirst
  | cons s xs =>
    cases y with
    | nil => rw [← hseg.symm] at hfirst; cases hfirst
    | cons t ys =>
      have hs : s.lexeme = first := by
        rw [head?_segment] at hfirst
        simpa using hfirst
      have ht : t.lexeme = first := by
        rw [hseg, head?_segment] at hfirst
        simpa using hfirst
      have hxs := segment_cons_of_not_isEnd (hs ▸ hend) xs
      have hys := segment_cons_of_not_isEnd (ht ▸ hend) ys
      refine ⟨s, t, xs, ys, rfl, rfl, hs, ht, by rw [hxs, hs], ?_⟩
      rw [hxs, hys, hs, ht] at hseg
      exact (List.cons.inj hseg).2

theorem SameRun.cons {least' : α → Nat} {s t : Token} {xs ys : List Token}
    {left right : Option (α × List Token)} (h : SameRun least' xs ys left right)
    (hsame : s.lexeme = t.lexeme) (hend : s.lexeme.isEnd = false)
    (hleast : ∀ a, least a ≤ least' a + s.lexeme.weight) :
    SameRun least (s :: xs) (t :: ys) left right := by
  cases h with
  | failed => exact .failed
  | @answered a more more' rest rest' hx hy hmore hinside hle =>
    have hbound := hleast a
    refine .answered (s :: more) (t :: more') ?_ ?_ ?_ ?_ ?_
    · rw [hx, List.cons_append]
    · rw [hy, List.cons_append]
    · rw [lexemes_cons, lexemes_cons, hsame, hmore]
    · intro l hl
      rw [lexemes_cons, List.mem_cons] at hl
      exact hl.elim (fun h => h ▸ hend) (hinside l)
    · rw [lexemes_cons, weight_cons]
      omega

theorem AgreeAt.takeWeighing {f g : Lexeme → Parser β} {first : Lexeme} (hend : first.isEnd = false)
    (h : Agree (fun b => most b - first.weight) (bound - 1) (f first) (g first)) :
    AgreeAt (some first) most bound (Parser.take >>= f) (Parser.take >>= g) := by
  intro x y hseg hfirst hlt
  obtain ⟨s, t, xs, ys, rfl, rfl, hs, ht, hx, hrest⟩ := exists_cons_of_head? hseg hfirst hend
  have hone := first.one_le_weight
  rw [hx, weight_cons] at hlt
  rw [bind_of_eq_some (show Parser.take (s :: xs) = some (first, xs) by rw [← hs]; rfl),
    bind_of_eq_some (show Parser.take (t :: ys) = some (first, ys) by rw [← ht]; rfl)]
  exact (h xs ys hrest (by omega)).cons (hs.trans ht.symm) (hs ▸ hend) fun b => by rw [hs]; omega

theorem AgreeAt.take {f g : Lexeme → Parser β} {first : Lexeme} (hend : first.isEnd = false)
    (h : Agree (fun b => most b - 1) (bound - 1) (f first) (g first)) :
    AgreeAt (some first) most bound (Parser.take >>= f) (Parser.take >>= g) := by
  have hone := first.one_le_weight
  exact .takeWeighing hend (h.weaken (fun b => by omega) (Nat.le_refl _))

/-- A look at the next token but one, which stays within the segment if the next token does. -/
theorem AgreeAt.peekSecond {f g : Option Lexeme → Parser α} {first : Lexeme}
    (hend : first.isEnd = false)
    (h : ∀ second x y, segment x = segment y → (segment x).head? = some first →
      (segment x).tail.head? = second → weight (segment x) < bound →
      SameRun least x y (f second x) (g second y)) :
    AgreeAt (some first) least bound (Parser.peekSecond >>= f) (Parser.peekSecond >>= g) := by
  intro x y hseg hfirst hlt
  obtain ⟨s, t, xs, ys, rfl, rfl, hs, ht, hx, hrest⟩ := exists_cons_of_head? hseg hfirst hend
  have hleft : (Parser.peekSecond >>= f) (s :: xs) = f (segment xs).head? (s :: xs) := by
    rw [head?_segment]; rfl
  have hright : (Parser.peekSecond >>= g) (t :: ys) = g (segment ys).head? (t :: ys) := by
    rw [head?_segment]; rfl
  rw [hleft, hright, ← hrest]
  exact h _ _ _ hseg hfirst (by rw [hx]; rfl) hlt

/-- Taking two tokens that have been looked at. -/
theorem SameRun.takeTwo {p q : Parser α} {first second : Lexeme} {x y : List Token}
    (hfirst : first.isEnd = false) (hsecond : second.isEnd = false)
    (h : Agree (fun a => least a - 1) (bound - 1) p q) (hseg : segment x = segment y)
    (hone : (segment x).head? = some first) (htwo : (segment x).tail.head? = some second)
    (hlt : weight (segment x) < bound) :
    SameRun least x y ((Parser.take >>= fun _ => Parser.take >>= fun _ => p) x)
      ((Parser.take >>= fun _ => Parser.take >>= fun _ => q) y) := by
  obtain ⟨s, t, xs, ys, rfl, rfl, hs, ht, hx, hrest⟩ := exists_cons_of_head? hseg hone hfirst
  rw [hx, List.tail_cons] at htwo
  rw [hx, weight_cons] at hlt
  have hpos := first.one_le_weight
  have hnext : AgreeAt (some second) least (bound - 1) (Parser.take >>= fun _ => p)
      (Parser.take >>= fun _ => q) := .take hsecond (h.lower (Nat.sub_le _ _))
  have hrun := hnext xs ys hrest htwo (by omega)
  exact hrun.cons (hs.trans ht.symm) (hs ▸ hfirst) fun a => by omega

/-- Taking a token that is not looked at first: where it would end a statement, the parser fails. -/
theorem Agree.take {f g : Lexeme → Parser β}
    (hend : ∀ l, l.isEnd = true → f l = Parser.fail ∧ g l = Parser.fail)
    (h : ∀ l, Agree (fun b => most b - 1) (bound - 1) (f l) (g l)) :
    Agree most bound (Parser.take >>= f) (Parser.take >>= g) := by
  intro x y hseg hlt
  cases hfirst : (segment x).head? with
  | none =>
    cases x with
    | cons s xs => simp [head?_segment] at hfirst
    | nil =>
      cases y with
      | cons t ys => simp [hseg, head?_segment] at hfirst
      | nil => exact .failed
  | some first =>
    cases hinside : first.isEnd with
    | false => exact AgreeAt.take hinside (h first) x y hseg hfirst hlt
    | true =>
      have hx : (Parser.take >>= f) x = none := by
        rw [head?_segment] at hfirst
        cases x with
        | nil => cases hfirst
        | cons s xs =>
          have hs : s.lexeme = first := by simpa using hfirst
          change f s.lexeme xs = none
          rw [hs, (hend first hinside).1]
          rfl
      have hy : (Parser.take >>= g) y = none := by
        rw [hseg, head?_segment] at hfirst
        cases y with
        | nil => cases hfirst
        | cons t ys =>
          have ht : t.lexeme = first := by simpa using hfirst
          change g t.lexeme ys = none
          rw [ht, (hend first hinside).2]
          rfl
      rw [hx, hy]
      exact .failed

/-- A look at what comes next, which takes nothing. -/
theorem Agree.isNext (lexeme : Lexeme) : Agree anyway bound (isNext lexeme) (Parser.isNext lexeme) :=
  .peek fun _ => AgreeAt.pure rfl

theorem Agree.accept {lexeme : Lexeme} (hend : lexeme.isEnd = false) :
    Agree whenTrue bound (accept lexeme) (Parser.accept lexeme) := by
  unfold Parser.accept Parser.isNext
  simp only [bind_assoc, pure_bind]
  refine .peek fun first => ?_
  by_cases hfirst : first = some lexeme
  · subst hfirst
    simp only [BEq.rfl, if_true]
    exact .take hend (.pure rfl)
  · have hne : (first == some lexeme) = false := by simpa using hfirst
    simp only [hne, Bool.false_eq_true, if_false]
    exact AgreeAt.pure rfl

theorem Agree.accepted {lexeme : Lexeme} (hend : lexeme.isEnd = false) :
    Agree anyway bound (Parser.accept lexeme) (Parser.accept lexeme) :=
  (Agree.accept hend).weaken (fun _ => Nat.zero_le _) (Nat.le_refl _)

theorem Agree.expectOne {lexeme : Lexeme} (hend : lexeme.isEnd = false) :
    Agree (fun _ => 1) bound (expect lexeme) (Parser.expect lexeme) := by
  refine .bind (.accept hend) fun b => ?_
  cases b with
  | true => exact .pure rfl
  | false => exact .fail

theorem Agree.expect {lexeme : Lexeme} (hend : lexeme.isEnd = false) :
    Agree anyway bound (Parser.expect lexeme) (Parser.expect lexeme) :=
  (Agree.expectOne hend).weaken (fun _ => Nat.zero_le _) (Nat.le_refl _)

/-- A part that is there if a token comes first. -/
theorem Agree.ifAccept {lexeme : Lexeme} (hend : lexeme.isEnd = false) {p q p' q' : Parser β}
    (hp : Agree (fun b => most b - 1) (bound - 1) p p') (hq : Agree most bound q q') :
    Agree most bound (Parser.accept lexeme >>= fun b => if b = true then p else q)
      (Parser.accept lexeme >>= fun b => if b = true then p' else q') := by
  refine .bind (.accept hend) fun b => ?_
  cases b with
  | true => exact hp
  | false => exact hq

/-- A part that is there if a token comes first that is allowed here. -/
theorem Agree.ifAcceptIf {allowed : Bool} {lexeme : Lexeme} (hend : lexeme.isEnd = false)
    {p q p' q' : Parser β} (hp : Agree (fun b => most b - 1) (bound - 1) p p')
    (hq : Agree most bound q q') :
    Agree most bound (Parser.acceptIf allowed lexeme >>= fun b => if b = true then p else q)
      (Parser.acceptIf allowed lexeme >>= fun b => if b = true then p' else q') := by
  cases allowed with
  | true => exact .ifAccept hend hp hq
  | false => exact hq

theorem Agree.name : Agree (fun _ => 1) bound name Parser.name := by
  intro x y hseg _
  cases x with
  | nil =>
    cases y with
    | nil => exact .failed
    | cons t ys => exact absurd (congrArg List.head? hseg) (by simp [head?_segment])
  | cons s xs =>
    cases y with
    | nil => exact absurd (congrArg List.head? hseg) (by simp [head?_segment])
    | cons t ys =>
      have hst : s.lexeme = t.lexeme := by
        simpa [head?_segment] using congrArg List.head? hseg
      obtain ⟨l, _, _⟩ := s
      obtain ⟨l', _, _⟩ := t
      obtain rfl : l = l' := hst
      cases l with
      | name spelling =>
        exact .answered [_] [_] rfl rfl rfl (by simp [Lexeme.isEnd])
          (by simp [Lexeme.weight])
      | _ => exact .failed

theorem Agree.anyName : Agree anyway bound Parser.name Parser.name :=
  Agree.name.weaken (fun _ => Nat.zero_le _) (Nat.le_refl _)

theorem Agree.optional {p q : Parser α} (h : Agree least bound p q) :
    Agree (fun o => (o.map least).getD 0) bound (optional p) (Parser.optional q) := by
  intro x y hseg hlt
  have hrun := h x y hseg hlt
  unfold Parser.optional
  generalize p x = left at hrun
  generalize q y = right at hrun
  cases hrun with
  | failed => exact .answered [] [] rfl rfl rfl (by simp) (by simp)
  | answered _ _ hx hy hsame hinside hle => exact .answered _ _ hx hy hsame hinside (by simpa using hle)

theorem Agree.perhaps {p q : Parser α} (h : Agree anyway bound p q) :
    Agree anyway bound (Parser.optional p) (Parser.optional q) :=
  h.optional.weaken (fun _ => Nat.zero_le _) (Nat.le_refl _)

/-- Whether a parser would succeed, which takes nothing. -/
theorem Agree.succeeds {p q : Parser α} (h : Agree anyway bound p q) :
    Agree anyway bound (succeeds p) (Parser.succeeds q) := by
  intro x y hseg hlt
  have hsame : (p x).isSome = (q y).isSome := by
    have hrun := h x y hseg hlt
    generalize p x = left at hrun
    generalize q y = right at hrun
    cases hrun <;> rfl
  unfold Parser.succeeds
  rw [hsame]
  exact .answered [] [] rfl rfl rfl (by simp) (by simp)

/-! ### Repetition -/

/-- A loop takes at least what its rounds take. -/
theorem Agree.manyWeighing {p q : Parser (Option α)}
    (h : Agree (fun o => (o.map least).getD 0) bound p q) (hleast : ∀ a, 1 ≤ least a) {n m : Nat}
    (hn : bound ≤ n) (hm : bound ≤ m) :
    Agree (total least) bound (many p n) (Parser.many q m) := by
  induction bound generalizing n m with
  | zero => exact fun x y _ hlt => absurd hlt (Nat.not_lt_zero _)
  | succ bound ih =>
    obtain ⟨n, rfl⟩ : ∃ k, n = k + 1 := ⟨n - 1, by omega⟩
    obtain ⟨m, rfl⟩ : ∃ k, m = k + 1 := ⟨m - 1, by omega⟩
    refine .bind h fun o => ?_
    cases o with
    | none => exact .pure rfl
    | some a =>
      have hpos := hleast a
      have hmore := ih (h.lower (Nat.le_succ _)) (Nat.le_of_succ_le_succ hn)
        (Nat.le_of_succ_le_succ hm)
      refine .bind (hmore.lower ?_) fun found => .pure ?_
      · simp only [Option.map_some, Option.getD_some]
        omega
      · simp

theorem Agree.many {p q : Parser (Option α)} (h : Agree whenSome bound p q) {n m : Nat}
    (hn : bound ≤ n) (hm : bound ≤ m) : Agree anyway bound (many p n) (Parser.many q m) := by
  have hone : Agree (fun o => (o.map fun _ => 1).getD 0) bound p q :=
    h.weaken (fun o => by cases o <;> exact Nat.le_refl _) (Nat.le_refl _)
  exact (hone.manyWeighing (fun _ => Nat.le_refl _) hn hm).weaken (fun _ => Nat.zero_le _)
    (Nat.le_refl _)

theorem Agree.sepBy {p q : Parser α} {separator : Lexeme} (hend : separator.isEnd = false)
    (h : Agree anyway bound p q) {n m : Nat} (hn : bound ≤ n) (hm : bound ≤ m) :
    Agree anyway bound (sepBy p separator n) (Parser.sepBy q separator m) := by
  refine .seq h fun first => .seq (.many ?_ hn hm) fun rest => .pure rfl
  refine .ifAccept hend ?_ (.pure rfl)
  exact .seq (h.lower (Nat.sub_le _ _)) fun a => .pure rfl

theorem Agree.commaList {p q : Parser α} (h : Agree anyway bound p q) {n m : Nat} (hn : bound ≤ n)
    (hm : bound ≤ m) : Agree anyway bound (commaList p n) (Parser.commaList q m) := by
  induction bound generalizing n m with
  | zero => exact fun x y _ hlt => absurd hlt (Nat.not_lt_zero _)
  | succ bound ih =>
    obtain ⟨n, rfl⟩ : ∃ k, n = k + 1 := ⟨n - 1, by omega⟩
    obtain ⟨m, rfl⟩ : ∃ k, m = k + 1 := ⟨m - 1, by omega⟩
    refine .seq h.perhaps fun o => ?_
    cases o with
    | none => exact .pure rfl
    | some item =>
      refine .ifAccept rfl ?_ (.pure rfl)
      have hmore := ih (h.lower (Nat.le_succ _)) (Nat.le_of_succ_le_succ hn)
        (Nat.le_of_succ_le_succ hm)
      exact .seq hmore fun _ => .pure rfl

end Parser

end Caret.Script
