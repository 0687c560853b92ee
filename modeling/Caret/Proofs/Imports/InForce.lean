import Caret.Proofs.Imports.Preserve

/-!
# The import is in force

After a request was carried out, the script has an import that gives the requested name the requested
meaning, and the request is met when it is made again. Names have to be written in their usual form, as
they are compared with what a script says. Two things can come in between, as imports are looked for by
the names that they bind: a name that another export of the module has got, and a module with dots whose
first part is asked for as its name.
-/

namespace Caret.Imports

open Script (Alias Statement parse?)
open Script.Parser (Extends)

/-! ### What is asked for -/

/-- The name that is given to a module. Where it is the name of the module itself, none is given. -/
def givenName (module : Text) (bound : Option Text) : Option Text :=
  if bound = some module ∧ '.' ∉ module then none else bound

/-- The modules that a statement imports. -/
def importedModules (statement : Statement) : List Alias :=
  match statement.action with
  | .importModules modules => modules
  | _ => []

/-- A statement gives the requested name the requested meaning: it imports the module under the name that
is asked for, or the name from the module, perhaps together with all others. -/
def Request.InForce (request : Request) (statement : Statement) : Prop :=
  match request with
  | .ofModule module bind => ∃ a ∈ importedModules statement,
      a.name = module ∧ givenName module a.bound = givenName module (if bind = [] then none else some bind)
  | .ofMember module name bind => ∃ names ∈ namesFrom? module statement, ∃ a ∈ names,
      boundTo a = ['*'] ∨ a.name = name ∧ boundTo a = if bind = [] then name else bind

/-- The names of a request are written in their usual form. -/
def Request.Usual (request : Request) : Prop :=
  usualPath request.module = request.module ∧ Text.compatibilityForm request.subject = request.subject ∧
    request.bound?.map Text.compatibilityForm = request.bound?

/-- What a request asks for cannot be mistaken. A module with dots is not asked for under its first part,
and no statement imports it so if its usual name is asked for. No statement imports another name from the
module under the name that is asked for. -/
def Request.Distinct (request : Request) (statements : List Statement) : Prop :=
  match request with
  | .ofModule module bind => '.' ∈ module → bind ≠ rootOf module ∧
      (bind = [] → ∀ s ∈ statements, ⟨module, some (rootOf module)⟩ ∉ importedModules s)
  | .ofMember module name _ => ∀ s ∈ statements, ∀ names ∈ namesFrom? module s, ∀ a ∈ names,
      boundTo a = request.bind → a.name = name

instance (request : Request) (statements : List Statement) : Decidable (request.Distinct statements) :=
  match request with
  | .ofModule _ _ => inferInstanceAs (Decidable ('.' ∈ _ → _ ∧ (_ → _)))
  | .ofMember _ _ _ => inferInstanceAs (Decidable (∀ s ∈ statements, _))

theorem bindsModule_eq (module bind : Text) (statement : Statement) :
    bindsModule module bind statement = (importedModules statement).any fun a =>
      a.name == module && (a.bound.getD (rootOf a.name)) == bind := by
  unfold bindsModule importedModules
  cases statement.action <;> rfl

theorem rootOf_of_not_mem {module : Text} (h : '.' ∉ module) : rootOf module = module := by
  refine List.takeWhile_eq_self_iff.mpr fun c hc => ?_
  have hne : c ≠ '.' := fun heq => h (heq ▸ hc)
  simpa using hne

theorem bound?_getD_ofModule (module bind : Text) :
    (Request.ofModule module bind).bound?.getD (rootOf module) = (Request.ofModule module bind).bind := by
  unfold Request.bound? Request.bind
  by_cases hempty : bind = []
  · simp [hempty]
  · by_cases hroot : bind = rootOf module
    · simp [hroot]
    · simp [hempty, hroot]

theorem bound?_getD_ofMember (module name bind : Text) :
    (Request.ofMember module name bind).bound?.getD name = (Request.ofMember module name bind).bind := by
  unfold Request.bound? Request.bind
  by_cases hempty : bind = []
  · simp [hempty]
  · by_cases hname : bind = name
    · simp [hname]
    · simp [hempty, hname]

theorem boundTo_eq (a : Alias) : boundTo a = a.bound.getD a.name := by
  unfold boundTo
  cases a.bound <;> rfl

/-! ### Statements that meet a request -/

/-- A name for the module that is found to be the right one is the one that is given. -/
theorem givenName_eq {module bind : Text} {bound : Option Text}
    (hdots : '.' ∈ module → bind ≠ rootOf module ∧ (bind = [] → bound ≠ some (rootOf module)))
    (h : bound.getD (rootOf module) = (Request.ofModule module bind).bind) :
    givenName module bound = givenName module (if bind = [] then none else some bind) := by
  rw [Request.bind] at h
  by_cases hmem : '.' ∈ module
  · obtain ⟨hne, hunbound⟩ := hdots hmem
    have hgiven : ∀ bound : Option Text, givenName module bound = bound :=
      fun bound => if_neg fun h => h.2 hmem
    rw [hgiven, hgiven]
    cases bound with
    | none =>
      by_cases hempty : bind = []
      · rw [if_pos hempty]
      · rw [if_neg hempty] at h
        exact absurd h.symm hne
    | some given =>
      by_cases hempty : bind = []
      · rw [if_pos hempty] at h
        exact absurd (congrArg some h) (hunbound hempty)
      · rw [if_neg hempty] at h ⊢
        exact congrArg some h
  · rw [rootOf_of_not_mem hmem] at h
    have hself : givenName module (some module) = givenName module none := by simp [givenName, hmem]
    have hsame : ∀ bound : Option Text, givenName module bound =
        givenName module (some (bound.getD module)) := by
      intro bound
      cases bound with
      | none => exact hself.symm
      | some given => rfl
    rw [hsame bound, h, hsame]
    by_cases hempty : bind = []
    · rw [if_pos hempty, if_pos hempty]
      exact hself
    · rw [if_neg hempty, if_neg hempty]
      rfl

/-- A statement that is found to meet a request does what is asked for. -/
theorem Request.Distinct.inForce {request : Request} {statements : List Statement}
    (h : request.Distinct statements) {s : Statement} (hs : s ∈ statements)
    (hmet : request.isMetBy s = true) :
    request.InForce s := by
  cases request with
  | ofModule module bind =>
    rw [Request.isMetBy, bindsModule_eq] at hmet
    simp only [List.any_eq_true, Bool.and_eq_true, beq_iff_eq] at hmet
    obtain ⟨a, ha, rfl, hbound⟩ := hmet
    refine ⟨a, ha, rfl, givenName_eq (fun hmem => ?_) hbound⟩
    obtain ⟨hne, hfree⟩ := h hmem
    refine ⟨hne, fun hempty hroot => hfree hempty s hs ?_⟩
    rwa [← hroot]
  | ofMember module name bind =>
    simp only [Request.isMetBy, bindsMember] at hmet
    split at hmet
    · rename_i names hnames
      simp only [List.any_eq_true, Bool.or_eq_true, beq_iff_eq] at hmet
      obtain ⟨a, ha, hstar | hbound⟩ := hmet
      · exact ⟨names, hnames, a, ha, .inl hstar⟩
      · exact ⟨names, hnames, a, ha, .inr ⟨h s hs names hnames a ha hbound, hbound⟩⟩
    · cases hmet

/-- A statement that imports a name as a request asks for meets it and does what is asked for. -/
theorem met_of_namesFrom? {module name bind : Text} {s : Statement} {names : List Alias}
    (hnames : namesFrom? module s = some names)
    (hmem : (⟨name, (Request.ofMember module name bind).bound?⟩ : Alias) ∈ names) :
    (Request.ofMember module name bind).isMetBy s = true ∧ (Request.ofMember module name bind).InForce s := by
  have hbound : boundTo ⟨name, (Request.ofMember module name bind).bound?⟩ =
      (Request.ofMember module name bind).bind := by
    rw [boundTo_eq]
    exact bound?_getD_ofMember module name bind
  constructor
  · simp only [Request.isMetBy, bindsMember, hnames, List.any_eq_true, Bool.or_eq_true, beq_iff_eq]
    exact ⟨_, hmem, .inr hbound⟩
  · exact ⟨names, hnames, _, hmem, .inr ⟨rfl, hbound⟩⟩

theorem Request.Usual.alias {request : Request} (h : request.Usual) :
    (request.imported request.subject).alias = ⟨request.subject, request.bound?⟩ := by
  obtain ⟨-, hsubject, hbound⟩ := h
  rw [Script.Parser.Imported.alias, Request.imported, hbound, hsubject]

/-- A statement of its own does what is asked for. -/
theorem met_of_action {request : Request} (husual : request.Usual) {statements : List Statement}
    (hdistinct : request.Distinct statements) {s : Statement} (h : s.action = request.action) :
    request.isMetBy s = true ∧ request.InForce s := by
  have halias := husual.alias
  obtain ⟨hpath, -, hbound⟩ := husual
  cases request with
  | ofModule module bind =>
    have hmodules : importedModules s = [⟨module, (Request.ofModule module bind).bound?⟩] := by
      rw [importedModules, h, Request.action, hbound]
      exact congrArg (fun path => [(⟨path, _⟩ : Alias)]) hpath
    have hbind := bound?_getD_ofModule module bind
    constructor
    · simp [Request.isMetBy, bindsModule_eq, hmodules, hbind]
    · refine ⟨_, hmodules ▸ List.mem_singleton_self _, rfl, givenName_eq (fun hmem => ?_) hbind⟩
      refine ⟨(hdistinct hmem).1, fun hempty => ?_⟩
      simp [Request.bound?, hempty]
  | ofMember module name bind =>
    have haction : s.action = .importFrom 0 (some module)
        [⟨name, (Request.ofMember module name bind).bound?⟩] := by
      rw [h]
      exact congrArg₂ (fun path name => Script.Action.importFrom 0 (some path) [name]) hpath halias
    have hnames : namesFrom? module s = some [⟨name, (Request.ofMember module name bind).bound?⟩] := by
      rw [namesFrom?, haction]
      exact if_pos rfl
    exact met_of_namesFrom? hnames (List.mem_singleton_self _)

/-- A statement with one more name does what is asked for. -/
theorem met_of_extends {module name bind : Text} (husual : (Request.ofMember module name bind).Usual)
    {last s extended : Statement} (hfrom : (namesFrom? module last).isSome = true)
    (hextends : Extends ((Request.ofMember module name bind).imported name) last extended)
    (hgist : s.gist = extended.gist) :
    (Request.ofMember module name bind).isMetBy s = true ∧ (Request.ofMember module name bind).InForce s := by
  obtain ⟨others, hlast⟩ := action_of_namesFrom? hfrom
  obtain ⟨path, names, haction, hnow⟩ := hextends
  rw [hlast] at haction
  cases haction
  have hs : s.action = .importFrom 0 (some module)
      (others ++ [⟨name, (Request.ofMember module name bind).bound?⟩]) := by
    exact (congrArg Prod.fst (hgist.trans hnow)).trans
      (congrArg (fun name => Script.Action.importFrom 0 (some module) (others ++ [name])) husual.alias)
  have hnames : namesFrom? module s =
      some (others ++ [⟨name, (Request.ofMember module name bind).bound?⟩]) := by
    rw [namesFrom?, hs]
    exact if_pos rfl
  exact met_of_namesFrom? hnames (List.mem_append_right _ (List.mem_singleton_self _))

theorem exists_gist_eq {found : List Statement} {before after : List Statement} {s : Statement}
    (h : found.map Statement.gist = (before ++ s :: after).map Statement.gist) :
    ∃ s' ∈ found, s'.gist = s.gist := by
  have hmem : s.gist ∈ found.map Statement.gist := by
    rw [h]
    exact List.mem_map_of_mem (List.mem_append_right _ List.mem_cons_self)
  exact List.mem_map.mp hmem

/-- What is added to a script does what is asked for. -/
theorem Adds.exists_met {request : Request} (husual : request.Usual) {old found : List Statement}
    (hdistinct : request.Distinct old) (h : Adds request old found) :
    ∃ s ∈ found, request.isMetBy s = true ∧ request.InForce s := by
  cases h with
  | statement before after added haction hold hnew =>
    obtain ⟨s, hs, hgist⟩ := exists_gist_eq hnew
    exact ⟨s, hs, met_of_action husual hdistinct ((congrArg Prod.fst hgist).trans haction)⟩
  | name module name bind before after last extended hrequest hfrom hextends hold hnew =>
    subst hrequest
    obtain ⟨s, hs, hgist⟩ := exists_gist_eq hnew
    exact ⟨s, hs, met_of_extends husual hfrom hextends hgist⟩

/-- A request that a statement of the script meets is left alone. -/
theorem insertStatement_of_met [CharacterNames] {source statement : Text} {request : Request}
    {statements : List Statement} (hread : Request.read? statement = some request)
    (hparse : parse? source = some statements) {s : Statement} (hs : s ∈ statements)
    (hmet : request.isMetBy s = true) :
    insertStatement source statement = ⟨source, .already⟩ := by
  have hany : ((parse? source).getD []).any request.isMetBy = true := by
    rw [hparse]
    exact List.any_eq_true.mpr ⟨s, hs, hmet⟩
  rw [insertStatement, hread]
  rcases insert_cases source (spaceless_of_read? hread) with ⟨-, hinsert⟩ | ⟨hnone, -⟩
  · exact hinsert
  · rw [hany] at hnone
    cases hnone

/-- A request that cannot be mistaken is in force after it was carried out, and it is met when it is made
again. If the script is edited, the names are names of the language in their usual form, and the place of
the edit lies between statements. -/
theorem insertStatement_inForce [CharacterNames] {source statement : Text} {request : Request}
    {statements : List Statement} (hparse : parse? source = some statements)
    (hread : Request.read? statement = some request) (hdistinct : request.Distinct statements)
    (hedit : (insertStatement source statement).status = .updated →
      request.Named ∧ request.Usual ∧ (site source request).isClear source request = true) :
    ((insertStatement source statement).status = .already ∨
        (insertStatement source statement).status = .updated) ∧
      (∃ found, parse? (insertStatement source statement).text = some found ∧
        ∃ s ∈ found, request.InForce s) ∧
      insertStatement (insertStatement source statement).text statement =
        ⟨(insertStatement source statement).text, .already⟩ := by
  have hinsert : insertStatement source statement = insert source request := by rw [insertStatement, hread]
  rcases insert_cases source (spaceless_of_read? hread) with ⟨hany, halready⟩ | ⟨-, text, hupdated, hedited⟩
  · rw [hparse] at hany
    obtain ⟨s, hs, hmet⟩ := List.any_eq_true.mp hany
    rw [hinsert, halready]
    exact ⟨.inl rfl, ⟨statements, hparse, s, hs, hdistinct.inForce hs hmet⟩,
      insertStatement_of_met hread hparse hs hmet⟩
  · rw [hinsert, hupdated] at hedit ⊢
    obtain ⟨hnamed, husual, hclear⟩ := hedit rfl
    obtain ⟨found, hfound, hadds⟩ := hedited.adds hnamed hclear hparse
    obtain ⟨s, hs, hmet, hforce⟩ := hadds.exists_met husual hdistinct
    exact ⟨.inr rfl, ⟨found, hfound, s, hs, hforce⟩, insertStatement_of_met hread hfound hs hmet⟩

section

open scoped CharacterNames

/-- A name that is imported already is imported again under another name. -/
theorem insertStatement_inForce_renamed :
    insertStatement "from m import a\n".toList "from m import a as b".toList =
        ⟨"from m import a, a as b\n".toList, .updated⟩ ∧
      insertStatement "from m import a, a as b\n".toList "from m import a as b".toList =
        ⟨"from m import a, a as b\n".toList, .already⟩ := by
  have hread : Request.read? "from m import a as b".toList =
      some (.ofMember "m".toList "a".toList "b".toList) := by decide +kernel
  have htext : insertStatement "from m import a\n".toList "from m import a as b".toList =
      ⟨"from m import a, a as b\n".toList, .updated⟩ := by decide +kernel
  obtain ⟨statements, hparse⟩ : ∃ statements, parse? "from m import a\n".toList = some statements :=
    Option.isSome_iff_exists.mp (by decide +kernel)
  have hdistinct : (Request.ofMember "m".toList "a".toList "b".toList).Distinct
      ((parse? "from m import a\n".toList).getD []) := by decide +kernel
  rw [hparse] at hdistinct
  have hforce := insertStatement_inForce hparse hread hdistinct fun _ =>
    ⟨⟨by decide +kernel, by decide +kernel, by decide +kernel⟩,
      ⟨by decide +kernel, by decide +kernel, by decide +kernel⟩, by decide +kernel⟩
  rw [htext] at hforce
  exact ⟨htext, hforce.2.2⟩

end

end Caret.Imports
