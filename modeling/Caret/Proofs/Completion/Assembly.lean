import Caret.Proofs.Completion.Kept
import Caret.Proofs.Line.Form

/-!
# What the script offers

A completed line is the line that a candidate leads to. `ScriptLine` says which completed lines there
are for a context, in terms of what the collaborators answered: a module that is known, a name that a
module holds, a symbol of the scope, a member of the inferred type. The columns at which candidates
are cut do not occur in it. The main result is that every candidate for a context, put behind the
part of the line that stays, gives such a line, and that its flag tells whether it goes on with the
seed.
-/

namespace Caret.Completion

open Files Modules

variable {ε : Type}

/-! ### Questions one after the other -/

theorem Query.bind_apply {α β : Type} (query : Query ε α) (next : α → Query ε β) (view : View)
    (engine : ε) :
    (query >>= next) view engine =
      match query view engine with
      | (.ok a, engine') => next a view engine'
      | (.error fault, engine') => (.error fault, engine') := by
  change ExceptT.bindCont (fun a => next a view) (query view engine).1 (query view engine).2 = _
  rcases query view engine with ⟨_ | a, engine'⟩ <;> rfl

/-- A question that another one follows is answered if both are. -/
theorem Query.bind_eq_ok {α β : Type} {query : Query ε α} {next : α → Query ε β} {view : View}
    {engine final : ε} {b : β} (hrun : (query >>= next) view engine = (.ok b, final)) :
    ∃ a engine', query view engine = (.ok a, engine') ∧ next a view engine' = (.ok b, final) := by
  rw [Query.bind_apply] at hrun
  split at hrun
  · exact ⟨_, _, ‹_›, hrun⟩
  · cases hrun

/-! ### What the collaborators answer -/

namespace Assembler

variable (assembler : Assembler ε) (view : View) (engine : ε)

/-- The resolver finds a module under a name. -/
def Resolves (name : Text) (module : Resolved) : Prop :=
  ∃ final, assembler.resolver.resolve name view engine = (.ok (some module), final)

/-- The indexer shows some symbols for a name at the end of a source. -/
def ShowsSymbols (source name : Text) (symbols : List Symbol) : Prop :=
  ∃ scope engine' final, assembler.indexer.parse source view engine = (.ok (some scope), engine') ∧
    scope.symbolsAt name view engine' = (.ok symbols, final)

/-- The indexer infers a type with some members for what a name is bound to in a source. -/
def ShowsMembers (binding : Binding) (members : List Symbol) : Prop :=
  ∃ scope type engine₁ engine₂ final,
    assembler.indexer.parse binding.source view engine = (.ok (some scope), engine₁) ∧
    scope.typeOfBinding binding.name view engine₁ = (.ok (some type), engine₂) ∧
    type.members view engine₂ = (.ok members, final)

end Assembler

/-- Whether a module is known: to the library's index, or on the load path where a typed path
leads. -/
def IsKnownModule (library : Build Index) (view : View) (path module : Text) : Prop :=
  (∃ index, library = .done index ∧ module ∈ index.names) ∨
    module ∈ view.loadPath.modulesUnder view.disk path

/-- Whether a directory holds the contents of a package: one on the load path, or the directory of
the package's own file. -/
def HoldsPackage (view : View) (package file directory : Text) : Prop :=
  directory ∈ view.loadPath.packageDirectories view.disk package ∨
    (Path.fileName file = packageFile ++ fileEnding ∧ directory = Path.directory file)

/-- Whether a module has something to import under a name: an export, or, where it exports nothing,
an entry of its package. -/
def HasMember (view : View) (name : Text) (module : Resolved) (member : Text) : Prop :=
  (∃ symbol, (member, symbol) ∈ module.exports) ∨
    (module.exports = [] ∧
      ∃ directory, HoldsPackage view name module.path directory ∧
        member ∈ directoryContents view.disk directory)

/-- The line before an imported name, with a space at its end unless white space is there. -/
def spaced (head : Text) : Text :=
  if (head.getLast?).any Text.isSpace then head else head ++ [' ']

/-- The completed lines for a context. -/
inductive ScriptLine (assembler : Assembler ε) (library : Build Index) (view : View) (engine : ε)
    (context : Line.Context) : Text → Prop
  | package {keyword path head module : Text} (hform : context.form = .package keyword path head.length)
      (hline : context.line = head ++ path) (hknown : IsKnownModule library view path module)
      (htyped : path <+: module) :
      ScriptLine assembler library view engine context
        (head ++ module ++ if keyword = "from".toList then " import ".toList else [])
  | member {name typed head member : Text} {module : Resolved}
      (hform : context.form = .member name typed) (hline : context.line = head ++ typed)
      (hmodule : assembler.Resolves view engine name module)
      (hmember : HasMember view name module member) (htyped : typed <+: member) :
      ScriptLine assembler library view engine context (spaced head ++ member)
  | name {typed head : Text} {symbols : List Symbol} {symbol : Symbol}
      (hform : context.form = .name typed) (hline : context.line = head ++ typed)
      (hsymbols : assembler.ShowsSymbols view engine (context.prior ++ context.line) typed symbols)
      (hsymbol : symbol ∈ symbols) (htyped : typed <+: symbol.name) :
      ScriptLine assembler library view engine context (head ++ symbol.name)
  | access {expression typed head : Text} {members : List Symbol} {member : Symbol}
      (hform : context.form = .access expression typed) (hline : context.line = head ++ typed)
      (hmembers : assembler.ShowsMembers view engine (bindingFor context expression typed) members)
      (hmember : member ∈ members)
      (htyped : isOffered assembler.caseSensitive typed member.name = true) :
      ScriptLine assembler library view engine context (head ++ member.name)

/-- A candidate leads from a line to a completed one without touching what stands before the seed,
and its flag tells whether it goes on with the seed. -/
structure LeadsTo (line seed : Text) (candidate : Candidate) (completed : Text) : Prop where
  completed_eq : line.take (line.length - seed.length) ++ candidate.replacement = completed
  flag_eq : candidate.prefixMatch = Text.startsWith candidate.replacement seed

/-! ### The lists of candidates -/

/-- The lists of candidates that a context can give, each with the answers that it is made from. -/
inductive Assembled (assembler : Assembler ε) (library : Build Index) (view : View) (engine : ε)
    (context : Line.Context) : List Candidate → Prop
  | nothing : Assembled assembler library view engine context []
  | package {keyword path : Text} {start : Nat} (hform : context.form = .package keyword path start) :
      Assembled assembler library view engine context
        (packageCandidates view library context keyword path start)
  | member {name typed : Text} {module : Resolved} (hform : context.form = .member name typed)
      (hmodule : assembler.Resolves view engine name module) :
      Assembled assembler library view engine context
        (memberCandidates view context name typed module)
  | name {name : Text} {symbols : List Symbol} (hform : context.form = .name name)
      (hsymbols : assembler.ShowsSymbols view engine (context.prior ++ context.line) name symbols) :
      Assembled assembler library view engine context (nameCandidates context name symbols)
  | access {expression typed : Text} {members : List Symbol}
      (hform : context.form = .access expression typed)
      (hmembers : assembler.ShowsMembers view engine (bindingFor context expression typed) members) :
      Assembled assembler library view engine context
        (accessCandidates assembler.caseSensitive context typed members)

theorem assembled_of_assemble {assembler : Assembler ε} {library : Build Index} {view : View}
    {engine final : ε} {context : Line.Context} {candidates : List Candidate}
    (hrun : assembler.assemble library context view engine = (.ok candidates, final)) :
    Assembled assembler library view engine context candidates := by
  rw [Assembler.assemble] at hrun
  cases hform : context.form with
  | package keyword path start =>
    simp only [hform] at hrun
    obtain ⟨_, _, hview, hrun⟩ := Query.bind_eq_ok hrun
    cases hview
    cases hrun
    exact .package hform
  | member name typed =>
    simp only [hform] at hrun
    obtain ⟨found, engine', hfound, hrun⟩ := Query.bind_eq_ok hrun
    cases found with
    | none =>
      cases hrun
      exact .nothing
    | some module =>
      obtain ⟨_, _, hview, hrun⟩ := Query.bind_eq_ok hrun
      cases hview
      cases hrun
      exact .member hform ⟨_, hfound⟩
  | name name =>
    simp only [hform] at hrun
    obtain ⟨parsed, engine', hparsed, hrun⟩ := Query.bind_eq_ok hrun
    cases parsed with
    | none =>
      cases hrun
      exact .nothing
    | some scope =>
      obtain ⟨symbols, _, hsymbols, hrun⟩ := Query.bind_eq_ok hrun
      cases hrun
      exact .name hform ⟨scope, _, _, hparsed, hsymbols⟩
  | access expression typed =>
    simp only [hform] at hrun
    obtain ⟨parsed, engine₁, hparsed, hrun⟩ := Query.bind_eq_ok hrun
    cases parsed with
    | none =>
      cases hrun
      exact .nothing
    | some scope =>
      obtain ⟨inferred, engine₂, hinferred, hrun⟩ := Query.bind_eq_ok hrun
      cases inferred with
      | none =>
        cases hrun
        exact .nothing
      | some type =>
        obtain ⟨members, _, hmembers, hrun⟩ := Query.bind_eq_ok hrun
        cases hrun
        exact .access hform ⟨scope, type, _, _, _, hparsed, hinferred, hmembers⟩

/-! ### From candidates to completed lines -/

/-- A candidate that is cut from a full line leads to that line, if the line starts with what stands
before the seed. -/
theorem leadsTo_candidateFor {context : Line.Context} {full display description : Text}
    (hkept : context.line.take context.replaceStart <+: full) :
    LeadsTo context.line context.seed (candidateFor context full display description) full := by
  have hlength : (context.line.take context.replaceStart).length = context.replaceStart := by
    rw [List.length_take, Line.Context.replaceStart]
    omega
  refine ⟨?_, rfl⟩
  have happend := Text.append_drop_of_prefix hkept
  rw [hlength] at happend
  exact happend

theorem mem_libraryModules {library : Build Index} {path module : Text}
    (hmodule : module ∈ libraryModules library path) :
    (∃ index, library = .done index ∧ module ∈ index.names) ∧ path <+: module := by
  cases library with
  | pending => exact absurd hmodule List.not_mem_nil
  | failed => exact absurd hmodule List.not_mem_nil
  | done index =>
    change module ∈ (index.names.drop (index.position path)).takeWhile (Text.startsWith · path)
      at hmodule
    refine ⟨⟨index, rfl, ?_⟩, Text.startsWith_iff.mp ?_⟩
    · exact List.mem_of_mem_drop ((List.takeWhile_prefix _).subset hmodule)
    · exact List.all_eq_true.mp (List.all_takeWhile (p := (Text.startsWith · path))) module hmodule

theorem mem_modulesStartingWith {disk : Disk} {loadPath : LoadPath} {path module : Text}
    (hmodule : module ∈ loadPath.modulesStartingWith disk path) :
    module ∈ loadPath.modulesUnder disk path ∧ path <+: module := by
  obtain ⟨directory, hdirectory, hunder⟩ := List.mem_flatMap.mp (mem_of_mem_distinct hmodule)
  obtain ⟨hunder, hstarts⟩ := List.mem_filter.mp hunder
  exact ⟨List.mem_flatMap.mpr ⟨directory, hdirectory, hunder⟩, Text.startsWith_iff.mp hstarts⟩

theorem mem_packageContents {view : View} {package file start member : Text}
    (hmember : member ∈ packageContents view package file start) :
    (∃ directory, HoldsPackage view package file directory ∧
      member ∈ directoryContents view.disk directory) ∧ start <+: member := by
  obtain ⟨hfound, hstarts⟩ := List.mem_filter.mp (mem_of_mem_distinct hmember)
  obtain ⟨directory, hdirectory, hentry⟩ := List.mem_flatMap.mp hfound
  refine ⟨⟨directory, ?_, hentry⟩, Text.startsWith_iff.mp hstarts⟩
  split at hdirectory
  · rename_i hown
    rw [Bool.and_eq_true, decide_eq_true_iff] at hown
    rcases List.mem_append.mp hdirectory with hdirectory | hdirectory
    · exact .inl hdirectory
    · exact .inr ⟨hown.1, List.mem_singleton.mp hdirectory⟩
  · exact .inl hdirectory

section

variable {assembler : Assembler ε} {library : Build Index} {view : View} {engine : ε}
  {context : Line.Context} (hfree : '\n' ∉ context.line)
  (hseed : context.seed = Line.typedToken context.line)
  (hcontext : Line.form? context.line = some context.form)

include hfree hcontext in
theorem packageCandidates_leadsTo {keyword path : Text} {start : Nat}
    (hform : context.form = .package keyword path start) {candidate : Candidate}
    (hcandidate : candidate ∈ packageCandidates view library context keyword path start) :
    ∃ completed, ScriptLine assembler library view engine context completed ∧
      LeadsTo context.line context.seed candidate completed := by
  obtain ⟨⟨module, description⟩, hmodule, rfl⟩ := List.mem_map.mp hcandidate
  obtain ⟨hline, hstart⟩ := Line.path_of_form? hfree (hcontext.trans (congrArg some hform))
  have hhead : (context.line.take start).length = start := by
    rw [List.length_take]
    omega
  have hknown : IsKnownModule library view path module ∧ path <+: module := by
    rcases List.mem_append.mp (mem_of_mem_firstByKey hmodule) with hfound | hfound
    · obtain ⟨name, hname, heq⟩ := List.mem_map.mp hfound
      obtain rfl := (Prod.mk.inj heq).1
      exact ⟨.inl (mem_libraryModules hname).1, (mem_libraryModules hname).2⟩
    · obtain ⟨name, hname, heq⟩ := List.mem_map.mp hfound
      obtain rfl := (Prod.mk.inj heq).1
      exact ⟨.inr (mem_modulesStartingWith hname).1, (mem_modulesStartingWith hname).2⟩
  refine ⟨_, .package (by rw [hform, hhead]) hline.symm hknown.1 hknown.2, leadsTo_candidateFor ?_⟩
  -- The whole typed line stays: it ends in the path, and the module goes on with the path.
  have hkept : context.line <+: context.line.take start ++ module := by
    nth_rewrite 1 [← hline]
    exact (List.prefix_append_right_inj _).mpr hknown.2
  exact (List.take_prefix _ _).trans (hkept.trans (List.prefix_append _ _))

include hfree hseed hcontext in
theorem memberCandidates_leadsTo {name typed : Text} {module : Resolved}
    (hform : context.form = .member name typed)
    (hmodule : assembler.Resolves view engine name module) {candidate : Candidate}
    (hcandidate : candidate ∈ memberCandidates view context name typed module) :
    ∃ completed, ScriptLine assembler library view engine context completed ∧
      LeadsTo context.line context.seed candidate completed := by
  obtain ⟨hsuffix, htoken⟩ := Line.member_of_form? hfree (hcontext.trans (congrArg some hform))
  have hline := Text.take_append_of_suffix hsuffix
  -- What stands before the seed stands before the imported name, which is part of the seed.
  have hkept : ∀ member, context.line.take context.replaceStart <+:
      spaced (context.line.take (context.line.length - typed.length)) ++ member := by
    intro member
    have hhead : context.line.take context.replaceStart <+:
        context.line.take (context.line.length - typed.length) := by
      rw [Line.Context.replaceStart, hseed]
      exact Text.take_prefix_take_of_suffix htoken
    refine hhead.trans (List.IsPrefix.trans ?_ (List.prefix_append _ _))
    rw [spaced]
    split
    · exact List.prefix_refl _
    · exact List.prefix_append _ _
  rw [memberCandidates] at hcandidate
  by_cases hexports : module.exports.isEmpty = true
  · simp only [hexports, if_true] at hcandidate
    obtain ⟨member, hmember, rfl⟩ := List.mem_map.mp hcandidate
    obtain ⟨hentry, htyped⟩ := mem_packageContents hmember
    exact ⟨_, .member hform hline.symm hmodule (.inr ⟨List.isEmpty_iff.mp hexports, hentry⟩) htyped,
      leadsTo_candidateFor (hkept member)⟩
  · simp only [hexports] at hcandidate
    obtain ⟨⟨member, symbol⟩, hmember, rfl⟩ := List.mem_map.mp hcandidate
    obtain ⟨hexport, htyped⟩ := List.mem_filter.mp hmember
    exact ⟨_, .member hform hline.symm hmodule (.inl ⟨symbol, hexport⟩) (Text.startsWith_iff.mp htyped),
      leadsTo_candidateFor (hkept member)⟩

include hfree hcontext in
theorem nameCandidates_leadsTo {name : Text} {symbols : List Symbol}
    (hform : context.form = .name name)
    (hsymbols : assembler.ShowsSymbols view engine (context.prior ++ context.line) name symbols)
    {candidate : Candidate} (hcandidate : candidate ∈ nameCandidates context name symbols) :
    ∃ completed, ScriptLine assembler library view engine context completed ∧
      LeadsTo context.line context.seed candidate completed := by
  obtain ⟨symbol, hsymbol, rfl⟩ := List.mem_map.mp hcandidate
  obtain ⟨hsymbol, htyped⟩ := List.mem_filter.mp (mem_of_mem_firstByKey hsymbol)
  replace htyped := Text.startsWith_iff.mp htyped
  have htoken := Line.name_of_form? hfree (hcontext.trans (congrArg some hform))
  have hline := Text.take_append_of_suffix (htoken ▸ Line.typedToken_suffix hfree)
  have hfull : context.line ++ symbol.name.drop name.length =
      context.line.take (context.line.length - name.length) ++ symbol.name := by
    calc context.line ++ symbol.name.drop name.length
        = context.line.take (context.line.length - name.length) ++
            (name ++ symbol.name.drop name.length) := by
          rw [← List.append_assoc, hline]
      _ = context.line.take (context.line.length - name.length) ++ symbol.name := by
          rw [Text.append_drop_of_prefix htyped]
  refine ⟨_, .name hform hline.symm hsymbols hsymbol htyped, ?_⟩
  rw [← hfull]
  exact leadsTo_candidateFor ((List.take_prefix _ _).trans (List.prefix_append _ _))

include hfree hseed hcontext in
theorem accessCandidates_leadsTo {expression typed : Text} {members : List Symbol}
    (hform : context.form = .access expression typed)
    (hmembers : assembler.ShowsMembers view engine (bindingFor context expression typed) members)
    {candidate : Candidate}
    (hcandidate : candidate ∈ accessCandidates assembler.caseSensitive context typed members) :
    ∃ completed, ScriptLine assembler library view engine context completed ∧
      LeadsTo context.line context.seed candidate completed := by
  obtain ⟨member, hmember, rfl⟩ := List.mem_map.mp hcandidate
  obtain ⟨hmember, htyped⟩ := List.mem_filter.mp (mem_of_mem_firstByKey hmember)
  have htoken := Line.access_of_form? hfree (hcontext.trans (congrArg some hform))
  have hline := Text.take_append_of_suffix (htoken ▸ Line.typedToken_suffix hfree)
  have hstart : context.replaceStart = context.line.length - typed.length := by
    rw [Line.Context.replaceStart, hseed, htoken]
  have hkept : context.line.take context.replaceStart <+:
      context.line.take (context.line.length - typed.length) ++ member.name := by
    rw [hstart]
    exact List.prefix_append _ _
  have hleads : LeadsTo context.line context.seed (candidateFor context
      (context.line.take (context.line.length - typed.length) ++ member.name)
      member.name member.detail) _ := leadsTo_candidateFor hkept
  refine ⟨_, .access hform hline.symm hmembers hmember htyped, hleads.completed_eq, ?_⟩
  -- The flag is computed from the member; the replacement is the member.
  have hreplacement : (candidateFor context
      (context.line.take (context.line.length - typed.length) ++ member.name)
      member.name member.detail).replacement = member.name := by
    have hlength : (context.line.take context.replaceStart).length = context.replaceStart := by
      rw [List.length_take, hstart]
      omega
    change List.drop context.replaceStart _ = _
    rw [← hstart]
    nth_rewrite 1 [← hlength]
    exact List.drop_left
  rw [hreplacement, hseed, htoken]

include hfree hseed hcontext in
/-- Every candidate for a context leads from its line to a completed one. -/
theorem exists_scriptLine_of_mem_assembled {candidates : List Candidate}
    (hassembled : Assembled assembler library view engine context candidates)
    {candidate : Candidate} (hcandidate : candidate ∈ candidates) :
    ∃ completed, ScriptLine assembler library view engine context completed ∧
      LeadsTo context.line context.seed candidate completed := by
  cases hassembled with
  | nothing => exact absurd hcandidate List.not_mem_nil
  | package hform => exact packageCandidates_leadsTo hfree hcontext hform hcandidate
  | member hform hmodule =>
    exact memberCandidates_leadsTo hfree hseed hcontext hform hmodule hcandidate
  | name hform hsymbols => exact nameCandidates_leadsTo hfree hcontext hform hsymbols hcandidate
  | access hform hmembers =>
    exact accessCandidates_leadsTo hfree hseed hcontext hform hmembers hcandidate

end

end Caret.Completion
