import Caret.Proofs.Script.Join

/-!
# A line that goes on

Where the code of a text ends in a name, more code may follow on the same line. The lexer comes to the
end of the name in the same way whatever stop follows it, so the lexemes up to there are the same and
only those after it differ.
-/

namespace Caret.Script.Lexer

open Number (continuesName)

/-! ### On the way from one spot to another -/

/-- From one spot the lexer comes to another one, and gives lexemes on its way. -/
def Passes (spot : Spot) (out : List Lexeme) (next : Spot) : Prop :=
  ∀ more, Lexes next more → Lexes spot (out ++ more)

theorem Step.passes {spot next : Spot} {out : List Lexeme} (h : Step spot out next) :
    Passes spot out next :=
  fun _ hmore => .step h hmore

theorem Passes.trans {spot middle next : Spot} {out out' : List Lexeme} (h : Passes spot out middle)
    (h' : Passes middle out' next) : Passes spot (out ++ out') next := by
  intro more hmore
  rw [List.append_assoc]
  exact h _ (h' _ hmore)

/-! ### The end of the code -/

/-- A text ends with a character of a name. -/
def EndsInName (text : Text) : Prop :=
  ∃ c, text.getLast? = some c ∧ continuesName c = true

/-- No comment goes on up to the end of a text. -/
def Uncommented (text : Text) : Prop :=
  ∀ cs, '#' :: cs <:+ text → '\n' ∈ cs

theorem EndsInName.ne_nil {text : Text} (h : EndsInName text) : text ≠ [] := by
  rintro rfl
  obtain ⟨c, hc, -⟩ := h
  cases hc

theorem EndsInName.suffix {text rest : Text} (h : EndsInName text) (hrest : rest <:+ text)
    (hne : rest ≠ []) : EndsInName rest := by
  unfold EndsInName
  rwa [getLast?_of_suffix hrest hne]

theorem Uncommented.suffix {text rest : Text} (h : Uncommented text) (hrest : rest <:+ text) :
    Uncommented rest :=
  fun cs hcs => h cs (hcs.trans hrest)

/-- A text that ends in a name has more behind a character of another kind. -/
theorem EndsInName.tail_ne_nil {c : Char} {cs : Text} (h : EndsInName (c :: cs))
    (hc : continuesName c = false) : cs ≠ [] := by
  rintro rfl
  obtain ⟨d, hd, hname⟩ := h
  obtain rfl : c = d := Option.some.inj hd
  rw [hc] at hname
  cases hname

/-- No character of a name is passed over in front of a line. -/
theorem not_continuesName_of_leading {text rest : Text} {depth found : Depth} {joined line last : Nat}
    (h : leading text depth joined line = some (rest, found, last)) :
    ∃ raw, text = raw ++ rest ∧ ∀ c ∈ raw, continuesName c = false := by
  have hcons : ∀ (blank : Text) {cs : Text}, (∀ c ∈ blank, continuesName c = false) →
      (∃ raw, cs = raw ++ rest ∧ ∀ c ∈ raw, continuesName c = false) →
        ∃ raw, blank ++ cs = raw ++ rest ∧ ∀ c ∈ raw, continuesName c = false := by
    rintro blank _ hblank ⟨raw, rfl, hraw⟩
    refine ⟨blank ++ raw, by rw [List.append_assoc], fun c hc => ?_⟩
    exact (List.mem_append.mp hc).elim (hblank c) (hraw c)
  fun_induction leading text depth joined line with
  | case1 =>
    cases h
    exact ⟨[], rfl, by simp⟩
  | case2 cs depth joined line ih => exact hcons [' '] (Text.forall_mem_of_all (by decide)) (ih h)
  | case3 cs depth joined line _ ih => exact hcons ['\t'] (Text.forall_mem_of_all (by decide)) (ih h)
  | case4 cs depth joined line _ _ ih => exact hcons ['\x0c'] (Text.forall_mem_of_all (by decide)) (ih h)
  | case5 depth joined line _ _ _ d more ih =>
    exact hcons ['\\', '\n'] (Text.forall_mem_of_all (by decide)) (ih h)
  | case6 => cases h
  | case7 =>
    cases h
    exact ⟨[], rfl, by simp⟩

/-- The code of a line is found within a text that ends in a name, and it is found there whatever
follows the text. -/
theorem Leads.before_end {text cs : Text} {c : Char} {depth : Depth} (htext : EndsInName text)
    (h : Leads (text ++ ['\n']) c cs depth) :
    ∃ cs', cs = cs' ++ ['\n'] ∧ c :: cs' <:+ text ∧
      ∀ more, Leads (text ++ more) c (cs' ++ more) depth := by
  obtain ⟨line, last, hlead⟩ := h
  obtain ⟨blank, hblank, hname⟩ := not_continuesName_of_leading hlead
  have hne : cs ≠ [] := by
    rintro rfl
    -- The blanks would be the whole text, but they do not end in a name.
    obtain ⟨rfl, -⟩ := List.append_inj' hblank rfl
    obtain ⟨d, hd, hcontinues⟩ := htext
    rw [hname d (List.mem_of_getLast? hd)] at hcontinues
    cases hcontinues
  obtain ⟨raw, hraw, hmore⟩ := leading_eq_some hlead
  have hsplit : text ++ ['\n'] = (raw ++ [c]) ++ cs := by rw [hraw]; simp
  obtain ⟨cs', rfl, rfl⟩ := exists_eq_append_break hsplit hne
  refine ⟨cs', rfl, ⟨raw, by simp⟩, fun more => ?_⟩
  obtain ⟨last', hlast⟩ := hmore (cs' ++ more) line
  exact ⟨line, last', by simpa using hlast⟩

theorem endsInName_symbol {symbol : Text} (h : symbol ∈ symbols) : ¬ EndsInName symbol := by
  have hall : ∀ symbol ∈ symbols, (symbol.getLast?).any continuesName = false := by decide
  rintro ⟨c, hc, hname⟩
  have hfalse := hall symbol h
  rw [hc, Option.any_some, hname] at hfalse
  cases hfalse

/-- A lexeme is read within a text that ends in a name, and is read there whatever stop follows. The
last lexeme is no symbol. -/
theorem Reads.before_end {text rest : Text} {lexeme : Lexeme} (htext : EndsInName text)
    (h : Reads (text ++ ['\n']) lexeme rest) :
    ∃ before, rest = before ++ ['\n'] ∧ before <:+ text ∧
      (before = [] → ∀ symbol, lexeme ≠ .symbol symbol) ∧
      ∀ stop more, isStop stop = true → Reads (text ++ stop :: more) lexeme (before ++ stop :: more) := by
  obtain ⟨before, rfl, hmore⟩ := h.before_stop
  obtain ⟨line, last, hread⟩ := h
  obtain ⟨⟨raw, hraw⟩, hsymbol⟩ := suffix_of_lexeme? hread
  rw [← List.append_assoc] at hraw
  obtain ⟨hraw, -⟩ := List.append_inj' hraw rfl
  refine ⟨before, rfl, ⟨raw, hraw⟩, ?_, hmore⟩
  rintro rfl symbol rfl
  obtain ⟨hmem, hwhole⟩ := hsymbol symbol rfl
  obtain ⟨rfl, -⟩ := List.append_inj' hwhole rfl
  exact endsInName_symbol hmem htext

/-- What is left of a comment that ends within a text. -/
theorem dropWhile_before_end {cs : Text} (hcs : '\n' ∈ cs) (more : Text) :
    (cs ++ more).dropWhile (· ≠ '\n') = cs.dropWhile (· ≠ '\n') ++ more ∧
      cs.dropWhile (· ≠ '\n') ≠ [] := by
  obtain ⟨before, after, rfl⟩ := List.append_of_mem hcs
  have hstop : decide ('\n' ≠ '\n') = false := by decide
  rw [List.append_assoc, List.cons_append, dropWhile_append_stop hstop, dropWhile_append_stop hstop]
  simp

/-- A step within a text that ends in a name is taken whatever stop follows. After the step that comes
to the end of the text the lexer stands behind a lexeme that is no symbol. -/
theorem Step.before_end {text : Text} {fresh : Bool} {levels : List Depth} {due : List Char}
    {out : List Lexeme} {next : Spot} (htext : EndsInName text) (hcomment : Uncommented text)
    (h : Step ⟨text ++ ['\n'], fresh, levels, due⟩ out next) :
    ∃ before, next.rest = before ++ ['\n'] ∧ before <:+ text ∧
      (before = [] → next.fresh = false ∧ ∃ lexeme, out = [lexeme] ∧ ∀ symbol, lexeme ≠ .symbol symbol) ∧
      ∀ stop more, isStop stop = true →
        Step ⟨text ++ stop :: more, fresh, levels, due⟩ out { next with rest := before ++ stop :: more } := by
  generalize htext' : text ++ ['\n'] = whole at h
  obtain ⟨first, others, rfl⟩ := List.exists_cons_of_ne_nil htext.ne_nil
  cases h with
  | emptyLine hlead =>
    subst htext'
    obtain ⟨cs', rfl, hsuffix, hmore⟩ := hlead.before_end htext
    have hne : cs' ≠ [] := (htext.suffix hsuffix (by simp)).tail_ne_nil (by decide)
    exact ⟨cs', rfl, (List.suffix_cons _ _).trans hsuffix, fun h => absurd h hne,
      fun stop more _ => .emptyLine (hmore (stop :: more))⟩
  | commentLine hlead =>
    subst htext'
    obtain ⟨cs', rfl, hsuffix, hmore⟩ := hlead.before_end htext
    have hbreak : '\n' ∈ '#' :: cs' := List.mem_cons_of_mem _ (hcomment cs' hsuffix)
    obtain ⟨hdrop, hne⟩ := dropWhile_before_end hbreak ['\n']
    refine ⟨_, hdrop, (List.dropWhile_suffix _).trans hsuffix, fun h => absurd h hne,
      fun stop more _ => ?_⟩
    rw [← (dropWhile_before_end hbreak (stop :: more)).1]
    exact .commentLine (hmore (stop :: more))
  | joinedLine hlead hstart hdue =>
    subst htext'
    obtain ⟨cs', rfl, hsuffix, hmore⟩ := hlead.before_end htext
    exact ⟨_ :: cs', rfl, hsuffix, by simp, fun stop more _ => .joinedLine (hmore (stop :: more)) hstart hdue⟩
  | line hlead hstart hlevels =>
    subst htext'
    obtain ⟨cs', rfl, hsuffix, hmore⟩ := hlead.before_end htext
    exact ⟨_ :: cs', rfl, hsuffix, by simp, fun stop more _ => .line (hmore (stop :: more)) hstart hlevels⟩
  | blank hblank =>
    cases htext'
    have hne : others ≠ [] := htext.tail_ne_nil (by rcases hblank with rfl | rfl | rfl <;> decide)
    exact ⟨others, rfl, List.suffix_cons _ _, fun h => absurd h hne, fun stop more _ => .blank hblank⟩
  | comment =>
    cases htext'
    have hbreak : '\n' ∈ '#' :: others := List.mem_cons_of_mem _ (hcomment others (List.suffix_refl _))
    obtain ⟨hdrop, hne⟩ := dropWhile_before_end hbreak ['\n']
    refine ⟨_, hdrop, List.dropWhile_suffix _, fun h => absurd h hne, fun stop more _ => ?_⟩
    rw [← (dropWhile_before_end hbreak (stop :: more)).1]
    exact .comment
  | lineEnd =>
    cases htext'
    exact ⟨others, rfl, List.suffix_cons _ _, fun h => absurd h (htext.tail_ne_nil (by decide)),
      fun stop more _ => .lineEnd⟩
  | lineBreak hdue =>
    cases htext'
    exact ⟨others, rfl, List.suffix_cons _ _, fun h => absurd h (htext.tail_ne_nil (by decide)),
      fun stop more _ => .lineBreak hdue⟩
  | splice hmore =>
    have hothers : others ≠ [] := by
      obtain ⟨rfl, -⟩ := List.cons.inj htext'
      exact htext.tail_ne_nil (by decide)
    obtain ⟨second, others, rfl⟩ := List.exists_cons_of_ne_nil hothers
    cases htext'
    have hsuffix : others <:+ '\\' :: '\n' :: others := List.suffix_append ['\\', '\n'] others
    have hne := (htext.suffix (List.suffix_cons _ _) (by simp)).tail_ne_nil (by decide)
    exact ⟨others, rfl, hsuffix, fun h => absurd h hne, fun stop more _ => .splice (by simp)⟩
  | lexeme hstart hread hdue =>
    cases htext'
    obtain ⟨before, rfl, hsuffix, hsymbol, hmore⟩ := Reads.before_end htext hread
    exact ⟨before, rfl, hsuffix, fun h => ⟨rfl, _, rfl, hsymbol h⟩,
      fun stop more hstop => .lexeme hstart (hmore stop more hstop) hdue⟩

/-- At the end of the last line no bracket is open. -/
theorem lexes_of_break {levels : List Depth} {due : List Char} {found : List Lexeme}
    (h : Lexes ⟨['\n'], false, levels, due⟩ found) :
    due = [] ∧ found = .newline :: levels.map fun _ => .dedent := by
  generalize hspot : (⟨['\n'], false, levels, due⟩ : Spot) = spot at h
  cases h with
  | done hspent => cases hspot
  | step hstep hmore =>
    cases hstep with
    | lineEnd =>
      cases hspot
      cases hmore with
      | done hspent => exact ⟨rfl, rfl⟩
      | step hstep' hmore' => exact absurd rfl hstep'.rest_ne_nil
    | lineBreak hdue =>
      cases hspot
      cases hmore with
      | done hspent => exact absurd rfl hdue
      | step hstep' hmore' => exact absurd rfl hstep'.rest_ne_nil
    | blank hblank =>
      cases hspot
      exact absurd hblank (by decide)
    | lexeme hstart hread hdue =>
      cases hspot
      cases hstart
    | _ => cases hspot

/-- The lexer comes to the end of a text in the same way whatever stop follows. -/
theorem Lexes.before_end {text : Text} {fresh : Bool} {levels : List Depth} {due : List Char}
    {found : List Lexeme} (htext : EndsInName text) (hcomment : Uncommented text)
    (h : Lexes ⟨text ++ ['\n'], fresh, levels, due⟩ found) :
    ∃ front lexeme levels', found = front ++ lexeme :: .newline :: (levels'.map fun _ => .dedent) ∧
      (∀ symbol, lexeme ≠ .symbol symbol) ∧ ∀ stop more, isStop stop = true →
        Passes ⟨text ++ stop :: more, fresh, levels, due⟩ (front ++ [lexeme])
          ⟨stop :: more, false, levels', []⟩ := by
  generalize hspot : (⟨text ++ ['\n'], fresh, levels, due⟩ : Spot) = spot at h
  induction h generalizing text fresh levels due with
  | @done rest levels' hspent =>
    cases hspot
    obtain ⟨line, depth, last, hlead⟩ := hspent
    exact absurd (by simp) (getLast?_of_leading_nil hlead)
  | @step spot next out more hstep hmore ih =>
    subst hspot
    obtain ⟨before, hbefore, hsuffix, hend, hagain⟩ := hstep.before_end htext hcomment
    obtain ⟨rest, fresh', levels', due'⟩ := next
    obtain rfl : rest = before ++ ['\n'] := hbefore
    by_cases hnil : before = []
    · subst hnil
      obtain ⟨rfl, lexeme, rfl, hsymbol⟩ := hend rfl
      obtain ⟨rfl, rfl⟩ := lexes_of_break hmore
      exact ⟨[], lexeme, levels', rfl, hsymbol, fun stop more hstop => (hagain stop more hstop).passes⟩
    · obtain ⟨front, lexeme, levels'', rfl, hsymbol, hpasses⟩ :=
        ih (htext.suffix hsuffix hnil) (hcomment.suffix hsuffix) rfl
      refine ⟨out ++ front, lexeme, levels'', by simp, hsymbol, fun stop more hstop => ?_⟩
      rw [List.append_assoc]
      exact (hagain stop more hstop).passes.trans (hpasses stop more hstop)

end Caret.Script.Lexer
