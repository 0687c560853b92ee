import Caret.Proofs.Imports.Site

/-!
# What an edit does to a script

If the place of an edit lies between statements, the script keeps its statements and gets one import more,
or one of its imports gets a name more. The two edits are put together from what is known of scripts that
follow one another and of a line that goes on.
-/

namespace Caret.Imports

open Script (Statement parse?)
open Script.Lexer (EndsInBreak EndsInName MeetApart PlainImport Uncommented)
open Script.Number (continuesName)
open Script.Parser (Extends)

/-! ### Places between statements -/

/-- Whether a text ends with its line. -/
def isClosed (text : Text) : Bool :=
  text.isEmpty || Text.endsWith text ['\n'] || Text.endsWith text ['\r']

/-- Whether the place of an edit lies between statements. For a new line, there are scripts before and
after it. For a name, the code of the line ends a script whose last statement imports from the module, and
there is a script after the line. -/
def Site.isClear [CharacterNames] (source : Text) (request : Request) (site : Site) : Bool :=
  match site with
  | .line index =>
    let rest := ((Text.lines source).drop index).flatten
    (parse? (Text.unifyBreaks (site.front source))).isSome && (parse? rest).isSome &&
      (isClosed (site.front source) || rest.isEmpty)
  | .name index =>
    let raw := ((Text.lines source)[index]?).getD []
    let rest := ((Text.lines source).drop (index + 1)).flatten
    (((parse? (Text.unifyBreaks (site.front source))).bind List.getLast?).any fun last =>
        (namesFrom? request.module last).isSome) &&
      isClosed ((Text.lines source).take index).flatten && (codeOf raw).getLast?.any continuesName &&
      (gapOf raw).all Script.isBlank && (parse? rest).isSome && (!(endingOf raw).isEmpty || rest.isEmpty)

/-- A script has all statements of another one and the import of a request besides, as a statement of its
own or as one more name in a statement that imports from the module. -/
inductive Adds (request : Request) (old new : List Statement) : Prop
  | statement (before after : List Statement) (added : Statement)
      (haction : added.action = request.action)
      (hold : old.map Statement.gist = (before ++ after).map Statement.gist)
      (hnew : new.map Statement.gist = (before ++ added :: after).map Statement.gist)
  | name (module name bind : Text) (before after : List Statement) (last extended : Statement)
      (hrequest : request = .ofMember module name bind)
      (hfrom : (namesFrom? module last).isSome = true)
      (hextends : Extends (request.imported name) last extended)
      (hold : old.map Statement.gist = (before ++ last :: after).map Statement.gist)
      (hnew : new.map Statement.gist = (before ++ extended :: after).map Statement.gist)

theorem isClosed_iff {text : Text} : isClosed text = true ↔ text = [] ∨ EndsInBreak text := by
  rw [isClosed, Bool.or_assoc, Bool.or_eq_true, endsInBreak_iff, List.isEmpty_iff]

theorem meetApart_lines (source : Text) (index : Nat) :
    MeetApart ((Text.lines source).take index).flatten ((Text.lines source).drop index).flatten :=
  Text.lines_cut source index

theorem length_le_of_flatten_drop {source : Text} {index : Nat}
    (h : ((Text.lines source).drop index).flatten = []) : (Text.lines source).length ≤ index := by
  by_contra hlt
  have hdrop : (Text.lines source).drop index ≠ [] := by
    rw [Ne, List.drop_eq_nil_iff]
    omega
  obtain ⟨line, more, hcons⟩ := List.exists_cons_of_ne_nil hdrop
  have hline : line ∈ Text.lines source := List.mem_of_mem_drop (hcons ▸ List.mem_cons_self)
  rw [hcons, List.flatten_cons] at h
  exact Text.ne_nil_of_mem_lines hline (List.append_eq_nil_iff.mp h).1

/-! ### A new line -/

theorem Request.Named.not_break_mem_text {request : Request} (h : request.Named) {c : Char}
    (hc : c ∈ request.text) : c ≠ '\n' ∧ c ≠ '\r' := by
  have hinline := h.isInline_text c hc
  constructor
  all_goals
    rintro rfl
    revert hinline
    decide

/-- A line between two scripts. -/
theorem parse?_between [CharacterNames] {request : Request} (h : request.Named) {left right : Text}
    {before after : List Statement} (hclosed : left = [] ∨ EndsInBreak left)
    (hleft : parse? (Text.unifyBreaks left) = some before) (hright : parse? right = some after) :
    ∃ added found, added.action = request.action ∧
      parse? (left ++ (request.text ++ ['\n'] ++ right)) = some found ∧
      found.map Statement.gist = (before ++ added :: after).map Statement.gist := by
  obtain ⟨added, hadded, haction⟩ := h.parse?
  have hends : EndsInBreak (request.text ++ ['\n']) := .inl List.getLast?_concat
  have hunify : Text.unifyBreaks (request.text ++ ['\n']) = request.text ++ ['\n'] := by
    refine Text.unifyBreaks_of_not_mem fun hmem => ?_
    rcases List.mem_append.mp hmem with hmem | hmem
    · exact (h.not_break_mem_text hmem).2 rfl
    · exact absurd hmem (by decide)
  have hmeet : MeetApart (request.text ++ ['\n']) right := by
    intro hlast
    rw [List.getLast?_concat] at hlast
    exact absurd hlast (by decide)
  have hmeet' : MeetApart left (request.text ++ ['\n'] ++ right) := by
    intro _ hhead
    rw [List.append_assoc, List.head?_append_of_ne_nil _ request.text_ne_nil] at hhead
    exact (h.not_break_mem_text (List.mem_of_head? hhead)).1 rfl
  obtain ⟨rest, hrest, hgists⟩ := Script.parse?_append (.inr hends) hmeet (hunify.symm ▸ hadded) hright
  obtain ⟨found, hfound, hgists'⟩ := Script.parse?_append hclosed hmeet' hleft hrest
  refine ⟨added, found, haction, hfound, ?_⟩
  rw [hgists', hgists, List.map_append, List.map_cons]
  rfl

/-- A new line at a place between statements parts the script in two. If something follows, the first part
is what stood before the place; the last line of a script may get its end first. -/
theorem insertLine_parts [CharacterNames] {source : Text} {request : Request} {index : Nat}
    {statements : List Statement} (line : Text)
    (hclear : (Site.line index).isClear source request = true)
    (hparse : parse? source = some statements) :
    ∃ front before after, insertLine source index line =
        front ++ (line ++ ((Text.lines source).drop index).flatten) ∧
      (((Text.lines source).drop index).flatten ≠ [] → front = (Site.line index).front source) ∧
      (front = [] ∨ EndsInBreak front) ∧ parse? (Text.unifyBreaks front) = some before ∧
      parse? ((Text.lines source).drop index).flatten = some after ∧
      statements.map Statement.gist = (before ++ after).map Statement.gist := by
  simp only [Site.isClear, Bool.and_eq_true, Bool.or_eq_true, isClosed_iff, List.isEmpty_iff] at hclear
  obtain ⟨⟨hleft, hright⟩, hclosed⟩ := hclear
  obtain ⟨before, hleft⟩ := Option.isSome_iff_exists.mp hleft
  obtain ⟨after, hright⟩ := Option.isSome_iff_exists.mp hright
  have hsource : ((Text.lines source).take index).flatten ++ ((Text.lines source).drop index).flatten =
      source := by
    rw [← List.flatten_append, List.take_append_drop, Text.flatten_lines]
  obtain ⟨front, hinsert, ⟨rfl, hended⟩ | ⟨rfl, hlength, hopen⟩⟩ := insertLine_eq source index line
  · have hclosed : ((Text.lines source).take index).flatten = [] ∨
        EndsInBreak ((Text.lines source).take index).flatten := by
      refine hclosed.elim id fun hrest => ?_
      rw [hrest, List.append_nil] at hsource
      rw [hsource]
      exact hended (length_le_of_flatten_drop hrest)
    obtain ⟨statements', hparse', hold⟩ :=
      Script.parse?_append hclosed (meetApart_lines source index) hleft hright
    rw [hsource, hparse] at hparse'
    cases hparse'
    exact ⟨_, before, after, hinsert, fun _ => rfl, hclosed, hleft, hright, by rw [hold, List.map_append]⟩
  · -- The last line gets its end first.
    have hrest : ((Text.lines source).drop index).flatten = [] := by
      rw [List.drop_of_length_le hlength, List.flatten_nil]
    rw [hrest, Script.parse?_nil] at hright
    cases hright
    rw [Site.front, List.take_of_length_le hlength, Text.flatten_lines] at hleft
    obtain ⟨ended, hended, hsame⟩ := Script.parse?_concat_break hopen hleft
    obtain ⟨statements', hparse', hold⟩ := Script.parse?_of_unifyBreaks hleft
    rw [hparse] at hparse'
    cases hparse'
    refine ⟨_, ended, [], hinsert, fun hne => absurd hrest hne, .inr (.inl List.getLast?_concat),
      hended, ?_, ?_⟩
    · rw [hrest, Script.parse?_nil]
    · rw [hold, List.append_nil, hsame]

theorem adds_line [CharacterNames] {source : Text} {request : Request} {index : Nat}
    {statements : List Statement} (hnamed : request.Named)
    (hclear : (Site.line index).isClear source request = true)
    (hparse : parse? source = some statements) :
    ∃ found, parse? (insertLine source index (request.text ++ ['\n'])) = some found ∧
      Adds request statements found := by
  obtain ⟨front, before, after, hinsert, -, hclosed, hleft, hright, hold⟩ :=
    insertLine_parts (request.text ++ ['\n']) hclear hparse
  obtain ⟨added, found, haction, hfound, hgists⟩ := parse?_between hnamed hclosed hleft hright
  exact ⟨found, hinsert ▸ hfound, .statement before after added haction hold hgists⟩

/-! ### One more name -/

/-- The end of a line as the lexer reads it. -/
theorem unifyBreaks_line {text tail ending : Text} (htext : text.getLast? ≠ some '\r')
    (htail : ∀ c ∈ tail, c ≠ '\n' ∧ c ≠ '\r') (hending : IsBreak ending) :
    Text.unifyBreaks (text ++ (tail ++ ending)) = Text.unifyBreaks text ++ (tail ++ ['\n']) := by
  have hmeet : MeetApart text (tail ++ ending) := fun h => absurd h htext
  have hmeet' : MeetApart tail ending := fun h => absurd rfl (htail _ (List.mem_of_getLast? h)).2
  have hbreak : Text.unifyBreaks ending = ['\n'] := by
    rcases hending with rfl | rfl | rfl <;> rfl
  rw [Script.Lexer.unifyBreaks_append hmeet, Script.Lexer.unifyBreaks_append hmeet', hbreak,
    Text.unifyBreaks_of_not_mem fun h => (htail _ h).2 rfl]

theorem IsBreak.endsInBreak {ending : Text} (h : IsBreak ending) (text : Text) : EndsInBreak
    (text ++ ending) := by
  have hne : ending ≠ [] := by
    rcases h with rfl | rfl | rfl <;> exact List.cons_ne_nil _ _
  unfold EndsInBreak
  rw [List.getLast?_append_of_ne_nil _ hne]
  rcases h with rfl | rfl | rfl
  · exact .inl rfl
  · exact .inr rfl
  · exact .inl rfl

/-- No comment goes on up to the end of a text if there is none on its last line. -/
theorem uncommented_line {front code : Text} (hfront : front = [] ∨ EndsInBreak front)
    (hcode : '#' ∉ code) : Uncommented (Text.unifyBreaks front ++ code) := by
  intro cs hsuffix
  rcases List.suffix_or_suffix_of_suffix hsuffix (List.suffix_append (Text.unifyBreaks front) code) with
    hshort | ⟨mid, hmid⟩
  · exact absurd (hshort.subset List.mem_cons_self) hcode
  · rw [← hmid] at hsuffix
    cases mid with
    | nil =>
      rw [List.nil_append] at hmid
      exact absurd (hmid ▸ List.mem_cons_self) hcode
    | cons c mid =>
      obtain ⟨rfl, rfl⟩ : c = '#' ∧ mid ++ code = cs := by simpa using hmid
      obtain ⟨before, hbefore⟩ := hsuffix
      have hmid : before ++ '#' :: mid = Text.unifyBreaks front := by
        rw [← List.append_assoc] at hbefore
        exact List.append_cancel_right hbefore
      have hne : front ≠ [] := by
        rintro rfl
        exact absurd hmid (by simp [Text.unifyBreaks])
      have hlast := Script.Lexer.getLast?_unifyBreaks (hfront.resolve_left hne)
      rw [← hmid, List.getLast?_append_of_ne_nil _ (List.cons_ne_nil _ _)] at hlast
      have hmem : '\n' ∈ mid := by simpa using List.mem_of_getLast? hlast
      exact List.mem_append_left _ hmem

/-- What is known of the code of a line and of the lines before it. -/
structure CodeLine (front code : Text) : Prop where
  closed : front = [] ∨ EndsInBreak front
  free : ∀ c ∈ code, c ≠ '#' ∧ c ≠ '\n' ∧ c ≠ '\r'
  named : EndsInName code

namespace CodeLine

variable {front code : Text} (h : CodeLine front code)

include h

theorem unifyBreaks_eq : Text.unifyBreaks (front ++ code) = Text.unifyBreaks front ++ code := by
  have hmeet : MeetApart front code := fun _ hhead => (h.free _ (List.mem_of_head? hhead)).2.1 rfl
  rw [Script.Lexer.unifyBreaks_append hmeet,
    Text.unifyBreaks_of_not_mem fun hmem => (h.free _ hmem).2.2 rfl]

theorem endsInName : EndsInName (Text.unifyBreaks (front ++ code)) := by
  obtain ⟨c, hlast, hc⟩ := h.named
  exact ⟨c, by rw [h.unifyBreaks_eq, List.getLast?_append, hlast, Option.some_or], hc⟩

theorem uncommented : Uncommented (Text.unifyBreaks (front ++ code)) := by
  rw [h.unifyBreaks_eq]
  exact uncommented_line h.closed fun hmem => (h.free _ hmem).1 rfl

theorem unifyBreaks_append {tail ending : Text} (htail : ∀ c ∈ tail, c ≠ '\n' ∧ c ≠ '\r')
    (hending : IsBreak ending) :
    Text.unifyBreaks (front ++ code ++ (tail ++ ending)) =
      Text.unifyBreaks (front ++ code) ++ (tail ++ ['\n']) := by
  refine unifyBreaks_line (fun hlast => ?_) htail hending
  rw [List.getLast?_append_of_ne_nil _ h.named.ne_nil] at hlast
  exact (h.free _ (List.mem_of_getLast? hlast)).2.2 rfl

/-- The line says what its code says. -/
theorem parse?_whole [CharacterNames] {tail ending : Text} {found : List Statement}
    (hparse : parse? (Text.unifyBreaks (front ++ code)) = some found) (htail : Script.Trailing tail)
    (hfree : ∀ c ∈ tail, c ≠ '\n' ∧ c ≠ '\r') (hending : IsBreak ending)
    (hnull : '\x00' ∉ front ++ code ++ (tail ++ ending)) :
    ∃ found', parse? (Text.unifyBreaks (front ++ code ++ (tail ++ ending))) = some found' ∧
      found'.map Statement.gist = found.map Statement.gist := by
  have hends : EndsInBreak (front ++ code ++ (tail ++ ending)) := by
    rw [← List.append_assoc]
    exact hending.endsInBreak _
  have hunify := h.unifyBreaks_append hfree hending
  refine Script.parse?_trailing (Script.Lexer.not_return_mem_unifyBreaks _) h.endsInName h.uncommented
    hparse htail ?_ ?_ ?_
  · rwa [Script.Lexer.mem_unifyBreaks (by decide) (by decide)]
  · rw [hunify]
    simp
  · rw [Script.Lexer.prepared_unifyBreaks hends, hunify]

/-- The line says what its code says if it is the last one and not ended. -/
theorem parse?_last [CharacterNames] {tail : Text} {found : List Statement}
    (hparse : parse? (Text.unifyBreaks (front ++ code)) = some found) (htail : Script.Trailing tail)
    (hfree : ∀ c ∈ tail, c ≠ '\n' ∧ c ≠ '\r') (hnull : '\x00' ∉ front ++ code ++ tail) :
    ∃ found', parse? (front ++ code ++ tail) = some found' ∧
      found'.map Statement.gist = found.map Statement.gist := by
  have hfree' : ∀ c ∈ code ++ tail, c ≠ '\n' ∧ c ≠ '\r' := fun c hc =>
    (List.mem_append.mp hc).elim (fun hc => (h.free c hc).2) (hfree c)
  have hopen : ¬ EndsInBreak (front ++ code ++ tail) := by
    have hne : code ++ tail ≠ [] := List.append_ne_nil_of_left_ne_nil h.named.ne_nil tail
    unfold EndsInBreak
    rw [List.append_assoc, List.getLast?_append_of_ne_nil _ hne]
    rintro (hlast | hlast)
    · exact (hfree' _ (List.mem_of_getLast? hlast)).1 rfl
    · exact (hfree' _ (List.mem_of_getLast? hlast)).2 rfl
  have hunify : Text.unifyBreaks (front ++ code ++ tail) = Text.unifyBreaks (front ++ code) ++ tail := by
    have hmeet : MeetApart (front ++ code) tail := fun _ hhead => (hfree _ (List.mem_of_head? hhead)).1 rfl
    rw [Script.Lexer.unifyBreaks_append hmeet,
      Text.unifyBreaks_of_not_mem fun hmem => (hfree _ hmem).2 rfl]
  refine Script.parse?_trailing (Script.Lexer.not_return_mem_unifyBreaks _) h.endsInName h.uncommented
    hparse htail hnull ?_ ?_
  · have hle := Script.Lexer.length_unifyBreaks_le (front ++ code)
    rw [List.length_append]
    omega
  · rw [Script.Lexer.prepared_of_not_endsInBreak hopen, hunify, List.append_assoc]

/-- The line with one more name. -/
theorem parse?_extended [CharacterNames] {idle ending path : Text} {init : List Statement}
    {last : Statement} {names : List Script.Alias} {new : Script.Parser.Imported}
    (hparse : parse? (Text.unifyBreaks (front ++ code)) = some (init ++ [last]))
    (haction : last.action = .importFrom 0 (some path) names) (hnew : PlainImport new)
    (hidle : Script.Idle idle) (hending : IsBreak ending) :
    ∃ init' last', parse? (Text.unifyBreaks (front ++ code ++
        (", ".toList ++ (Script.Lexer.importedText new ++ idle) ++ ending))) = some (init' ++ [last']) ∧
      init'.map Statement.gist = init.map Statement.gist ∧ Extends new last last' := by
  have hfree : ∀ c ∈ ", ".toList ++ (Script.Lexer.importedText new ++ idle), c ≠ '\n' ∧ c ≠ '\r' :=
    fun c hc => ⟨(Script.furtherName_free hnew hidle c hc).1, (Script.furtherName_free hnew hidle c hc).2.1⟩
  have hextend := Script.parse?_extend (Script.Lexer.not_return_mem_unifyBreaks _) h.endsInName h.uncommented
    hparse haction hnew hidle
  rw [h.unifyBreaks_append hfree hending]
  generalize ", ".toList = comma at hextend ⊢
  simpa only [List.append_assoc] using hextend

end CodeLine

theorem action_of_namesFrom? {module : Text} {statement : Statement}
    (h : (namesFrom? module statement).isSome = true) :
    ∃ names, statement.action = .importFrom 0 (some module) names := by
  unfold namesFrom? at h
  split at h
  · rename_i m names haction
    split at h
    · rename_i heq
      exact ⟨names, heq ▸ haction⟩
    · cases h
  · cases h

section

variable {source raw : Text} {index : Nat} (hraw : (Text.lines source)[index]? = some raw)

include hraw

theorem flatten_take_succ : ((Text.lines source).take (index + 1)).flatten =
    ((Text.lines source).take index).flatten ++ raw := by
  rw [List.take_add_one, hraw, Option.toList_some, List.flatten_append]
  simp

/-- A line that is written anew ends where the next line starts. -/
theorem meetApart_breakOf (text : Text) :
    MeetApart (text ++ breakOf raw) ((Text.lines source).drop (index + 1)).flatten := by
  intro hlast
  have hcut := Text.lines_cut source (index + 1)
  rw [flatten_take_succ hraw] at hcut
  refine hcut ?_
  by_cases hending : endingOf raw = []
  · rw [breakOf_of_eq hending, List.getLast?_concat] at hlast
    exact absurd hlast (by decide)
  · rw [breakOf_of_ne hending, List.getLast?_append_of_ne_nil _ hending] at hlast
    rw [line_eq raw, ← List.append_assoc, ← List.append_assoc, ← List.append_assoc,
      List.getLast?_append_of_ne_nil _ hending, hlast]

theorem trailing_of_gapOf (hgap : (gapOf raw).all Script.isBlank = true) :
    Script.Trailing (gapOf raw ++ commentOf raw) ∧
      ∀ c ∈ gapOf raw ++ commentOf raw, c ≠ '\n' ∧ c ≠ '\r' := by
  obtain ⟨_, -, hbody, -⟩ := Text.lineBody_of_mem_lines (List.mem_of_getElem? hraw)
  rw [lineBody_eq] at hbody
  have hfree : ∀ c ∈ gapOf raw ++ commentOf raw, c ≠ '\n' ∧ c ≠ '\r' :=
    fun c hc => hbody c (List.mem_append_right _ hc)
  refine ⟨⟨_, _, rfl, List.all_eq_true.mp hgap, ?_⟩, hfree⟩
  by_cases hcomment : commentOf raw = []
  · exact .inl hcomment
  · obtain ⟨remark, hremark⟩ := exists_commentOf_eq hcomment
    refine .inr ⟨remark, hremark, fun hmem => (hfree '\n' ?_).1 rfl⟩
    rw [hremark]
    exact List.mem_append_right _ (List.mem_cons_of_mem _ hmem)

/-- The statements of a script around one of its lines. -/
theorem parse?_around [CharacterNames] {found after statements : List Statement}
    (hline : CodeLine ((Text.lines source).take index).flatten (codeOf raw))
    (hfound : parse? (Text.unifyBreaks (((Text.lines source).take index).flatten ++ codeOf raw)) = some found)
    (hgap : (gapOf raw).all Script.isBlank = true)
    (hafter : parse? ((Text.lines source).drop (index + 1)).flatten = some after)
    (hend : endingOf raw ≠ [] ∨ ((Text.lines source).drop (index + 1)).flatten = [])
    (hnull : '\x00' ∉ source) (hparse : parse? source = some statements) :
    statements.map Statement.gist = (found ++ after).map Statement.gist := by
  obtain ⟨htrailing, hfree⟩ := trailing_of_gapOf hraw hgap
  have hmeet := meetApart_lines source (index + 1)
  have hsource := flatten_around hraw
  rw [flatten_take_succ hraw] at hmeet
  have hsplit : ((Text.lines source).take index).flatten ++ raw =
      ((Text.lines source).take index).flatten ++ codeOf raw ++
        (gapOf raw ++ commentOf raw ++ endingOf raw) := by
    nth_rewrite 1 [line_eq raw]
    simp only [List.append_assoc]
  rw [← List.append_assoc] at hsource
  generalize ((Text.lines source).take index).flatten = front at *
  generalize ((Text.lines source).drop (index + 1)).flatten = rest at *
  rw [hsource] at hparse hnull
  by_cases hending : endingOf raw = []
  · obtain rfl : rest = [] := hend.resolve_left (not_not.mpr hending)
    rw [hending, List.append_nil] at hsplit
    rw [List.append_nil, hsplit] at hparse hnull
    rw [Script.parse?_nil] at hafter
    cases hafter
    obtain ⟨statements', hparse', hgists⟩ := hline.parse?_last hfound htrailing hfree hnull
    rw [hparse] at hparse'
    cases hparse'
    rw [hgists, List.append_nil]
  · have hbreak : IsBreak (endingOf raw) := by
      rw [← breakOf_of_ne hending]
      exact isBreak_breakOf (List.mem_of_getElem? hraw)
    rw [hsplit] at hparse hnull hmeet
    have hends : EndsInBreak (front ++ codeOf raw ++ (gapOf raw ++ commentOf raw ++ endingOf raw)) := by
      rw [← List.append_assoc]
      exact hbreak.endsInBreak _
    obtain ⟨found', hfound', hgists⟩ := hline.parse?_whole hfound htrailing hfree hbreak
      fun hmem => hnull (List.mem_append_left _ hmem)
    obtain ⟨statements', hparse', hold⟩ := Script.parse?_append (.inr hends) hmeet hfound' hafter
    rw [hparse] at hparse'
    cases hparse'
    rw [hold, hgists, List.map_append]

theorem adds_name [CharacterNames] {module name bind : Text} {statements : List Statement}
    (hnamed : (Request.ofMember module name bind).Named)
    (hclear : (Site.name index).isClear source (.ofMember module name bind) = true)
    (hparse : parse? source = some statements) :
    ∃ found, parse? (((Text.lines source).take index).flatten ++
        (extended raw (Request.ofMember module name bind).token ++
          ((Text.lines source).drop (index + 1)).flatten)) = some found ∧
      Adds (.ofMember module name bind) statements found := by
  have hnew : PlainImport ((Request.ofMember module name bind).imported name) := ⟨hnamed.2.2, hnamed.2.1⟩
  have hmem := List.mem_of_getElem? hraw
  have hnull : '\x00' ∉ source := by
    obtain ⟨tokens, htokens, -⟩ := Script.parse?_iff.mp hparse
    exact (Script.Lexer.tokens?_iff.mp ⟨tokens, htokens, rfl⟩).1
  simp only [Site.isClear, Site.front, hraw, Option.getD_some, Bool.and_eq_true, Bool.or_eq_true,
    isClosed_iff, List.isEmpty_iff, Bool.not_eq_true', List.isEmpty_eq_false_iff] at hclear
  obtain ⟨⟨⟨⟨⟨hlast, hclosed⟩, hname⟩, hgap⟩, hafter⟩, hend⟩ := hclear
  obtain ⟨last, hlast, hfrom⟩ := (Option.any_eq_true _ _).mp hlast
  obtain ⟨found, hfound, hlast⟩ := Option.bind_eq_some_iff.mp hlast
  obtain ⟨init, rfl⟩ := List.getLast?_eq_some_iff.mp hlast
  obtain ⟨after, hafter⟩ := Option.isSome_iff_exists.mp hafter
  obtain ⟨names, haction⟩ := action_of_namesFrom? hfrom
  have hline : CodeLine ((Text.lines source).take index).flatten (codeOf raw) :=
    ⟨hclosed, codeOf_free hmem, (Option.any_eq_true _ _).mp hname⟩
  have hold := parse?_around hraw hline hfound hgap hafter hend hnull hparse
  have hbreak := isBreak_breakOf hmem
  obtain ⟨init', last', hleft, hinit, hextends⟩ := hline.parse?_extended hfound haction hnew
    (idle_remarkOf hmem hnull) hbreak
  have hmeet := meetApart_breakOf hraw (((Text.lines source).take index).flatten ++ codeOf raw ++
    (", ".toList ++ (Script.Lexer.importedText ((Request.ofMember module name bind).imported name) ++
      remarkOf raw)))
  have hends := hbreak.endsInBreak (((Text.lines source).take index).flatten ++ codeOf raw ++
    (", ".toList ++ (Script.Lexer.importedText ((Request.ofMember module name bind).imported name) ++
      remarkOf raw)))
  rw [List.append_assoc _ _ (breakOf raw)] at hmeet hends
  obtain ⟨found, hparse', hgists⟩ := Script.parse?_append (.inr hends) hmeet hleft hafter
  refine ⟨found, ?_, .name module name bind init after last last' rfl hfrom hextends ?_ ?_⟩
  · rw [← hparse', extended, Request.token, Request.subject]
    congr 1
    generalize ", ".toList = comma
    simp only [List.append_assoc]
  · rw [hold]
    simp
  · rw [hgists, List.map_append, hinit]
    simp

end

/-- An edit at a place between statements keeps the script and adds the import to it. -/
theorem EditedTo.adds [CharacterNames] {source text : Text} {request : Request}
    {statements : List Statement} (h : EditedTo source request text) (hnamed : request.Named)
    (hclear : (site source request).isClear source request = true)
    (hparse : parse? source = some statements) :
    ∃ found, parse? text = some found ∧ Adds request statements found := by
  cases h with
  | line hsite => exact adds_line hnamed (hsite ▸ hclear) hparse
  | name hsite hstatement hopen hraw hplain =>
    cases request with
    | ofModule module bind => cases hopen
    | ofMember module name bind =>
      exact adds_name hraw hnamed (hsite ▸ hclear) hparse

/-- A statement whose names are names of the language, inserted between statements, leaves a script that
has all statements of the old one as they were, except that one import was added, or one name to a
statement that imports from the module. -/
theorem insertStatement_adds [CharacterNames] {source statement : Text} {request : Request}
    {statements : List Statement} (hparse : parse? source = some statements)
    (hread : Request.read? statement = some request) (hnamed : request.Named)
    (hclear : (site source request).isClear source request = true)
    (hupdated : (insertStatement source statement).status = .updated) :
    ∃ found, parse? (insertStatement source statement).text = some found ∧ Adds request statements found := by
  obtain ⟨request', hread', -, hedit⟩ := insertStatement_cases hupdated
  obtain rfl : request = request' := Option.some.inj (hread.symm.trans hread')
  exact hedit.adds hnamed hclear hparse

section

open scoped CharacterNames

/-- A name goes between the code of a line and its comment. -/
theorem insertStatement_adds_name :
    ∃ statements found, parse? "from m import a # one\nimport n\n".toList = some statements ∧
      parse? "from m import a, b # one\nimport n\n".toList = some found ∧
      Adds (.ofMember "m".toList "b".toList []) statements found := by
  have hread : Request.read? "from m import b".toList = some (.ofMember "m".toList "b".toList []) := by
    decide +kernel
  have htext : insertStatement "from m import a # one\nimport n\n".toList "from m import b".toList =
      ⟨"from m import a, b # one\nimport n\n".toList, .updated⟩ := by decide +kernel
  obtain ⟨statements, hparse⟩ : ∃ statements,
      parse? "from m import a # one\nimport n\n".toList = some statements :=
    Option.isSome_iff_exists.mp (by decide +kernel)
  have hadds := insertStatement_adds hparse hread ⟨by decide +kernel, by decide +kernel, by decide +kernel⟩
    (by decide +kernel) (by rw [htext])
  rw [htext] at hadds
  obtain ⟨found, hfound, hadds⟩ := hadds
  exact ⟨statements, found, hparse, hfound, hadds⟩

end

end Caret.Imports
