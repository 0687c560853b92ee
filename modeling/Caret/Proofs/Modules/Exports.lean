import Caret.Modules.Symbol
import Caret.Proofs.Text.Entries
import Mathlib.Data.List.Induction

/-!
# What a module exports

The names that a module exports are those that its statements declare, each with the kind of the last
statement that declares it, and where the module lists its public names, only these. What a statement
declares and which list counts is said here without the functions that collect the names: a target declares
the names in it at any depth of tuples and lists, but nothing of an item with a star in front, and the list
is the first one that is assigned, unless something that is no literal is assigned before it.
-/

namespace Caret.Script

/-! ### Declarations -/

/-- An expression that is assigned to binds a name, itself or in an item of a tuple or list. -/
inductive Expr.Binds : Expr → Text → Prop where
  | name (id : Text) : Expr.Binds (.name id) id
  | tuple {items : List Expr} {item : Expr} {id : Text} (hitem : item ∈ items) (hbinds : item.Binds id) :
      Expr.Binds (.tuple items) id
  | list {items : List Expr} {item : Expr} {id : Text} (hitem : item ∈ items) (hbinds : item.Binds id) :
      Expr.Binds (.list items) id

/-- What a statement does declares a name, as something of a kind. -/
inductive Declares : Action → Text → DeclarationKind → Prop where
  | definedClass (name : Text) : Declares (.defineClass name) name .classDefinition
  | definedFunction (name : Text) : Declares (.defineFunction name) name .function
  | assigned {targets : List Expr} {target value : Expr} {name : Text} (htarget : target ∈ targets)
      (hbinds : target.Binds name) (hname : isName name = true) :
      Declares (.assign targets value) name .statement
  | annotated {target : Expr} {name : Text} (hbinds : target.Binds name) (hname : isName name = true) :
      Declares (.annotate target) name .statement
  | imported {level : Nat} {module? : Option Text} {names : List Alias} {a : Alias} (ha : a ∈ names)
      (hname : isName (a.bound.getD a.name) = true) :
      Declares (.importFrom level module? names) (a.bound.getD a.name) .importation

/-- The last of some statements that declares a name declares it as something of a kind. -/
def DeclaredLast (statements : List Statement) (name : Text) (kind : DeclarationKind) : Prop :=
  ∃ before statement after, statements = before ++ statement :: after ∧ Declares statement.action name kind ∧
    ∀ later ∈ after, ∀ other, ¬ Declares later.action name other

theorem Expr.declaredAll_eq (targets : List Expr) : declaredAll targets = targets.flatMap declared := by
  induction targets with
  | nil => rfl
  | cons target targets ih => rw [declaredAll, ih, List.flatMap_cons]

theorem Expr.binds_of_mem_declared {name : Text} (target : Expr) (h : name ∈ target.declared) :
    target.Binds name ∧ isName name = true := by
  -- The second motive says the same of each of several expressions.
  refine Expr.declared.induct (fun target => name ∈ target.declared → target.Binds name ∧ isName name = true)
    (fun targets => ∀ target ∈ targets, name ∈ target.declared → target.Binds name ∧ isName name = true)
    ?_ ?_ ?_ ?_ ?_ ?_ ?_ target h
  · intro id hid hmem
    rw [declared, if_pos hid, List.mem_singleton] at hmem
    subst hmem
    exact ⟨.name name, hid⟩
  · intro id hid hmem
    rw [declared, if_neg hid] at hmem
    cases hmem
  · intro items ih hmem
    rw [declared, declaredAll_eq] at hmem
    obtain ⟨item, hitem, hmem⟩ := List.mem_flatMap.mp hmem
    exact (ih item hitem hmem).imp_left (.tuple hitem)
  · intro items ih hmem
    rw [declared, declaredAll_eq] at hmem
    obtain ⟨item, hitem, hmem⟩ := List.mem_flatMap.mp hmem
    exact (ih item hitem hmem).imp_left (.list hitem)
  · intro target hname htuple hlist hmem
    rw [declared] at hmem
    · cases hmem
    · exact hname
    · exact htuple
    · exact hlist
  · intro target htarget
    cases htarget
  · intro first targets hfirst ih
    exact List.forall_mem_cons.mpr ⟨hfirst, ih⟩

theorem Expr.mem_declared_iff {target : Expr} {name : Text} :
    name ∈ target.declared ↔ target.Binds name ∧ isName name = true := by
  refine ⟨target.binds_of_mem_declared, ?_⟩
  rintro ⟨hbinds, hname⟩
  induction hbinds with
  | name id =>
    rw [declared, if_pos hname]
    exact List.mem_singleton_self id
  | tuple hitem _ ih =>
    rw [declared, declaredAll_eq]
    exact List.mem_flatMap.mpr ⟨_, hitem, ih hname⟩
  | list hitem _ ih =>
    rw [declared, declaredAll_eq]
    exact List.mem_flatMap.mpr ⟨_, hitem, ih hname⟩

/-- A statement declares all its names as things of one kind. -/
theorem declares_iff {action : Action} {name : Text} {kind : DeclarationKind} :
    Declares action name kind ↔ name ∈ action.declared.1 ∧ kind = action.declared.2 := by
  constructor
  · intro h
    cases h with
    | definedClass => exact ⟨List.mem_singleton_self _, rfl⟩
    | definedFunction => exact ⟨List.mem_singleton_self _, rfl⟩
    | assigned htarget hbinds hname =>
      refine ⟨?_, rfl⟩
      rw [Action.declared, Expr.declaredAll_eq]
      exact List.mem_flatMap.mpr ⟨_, htarget, Expr.mem_declared_iff.mpr ⟨hbinds, hname⟩⟩
    | annotated hbinds hname => exact ⟨Expr.mem_declared_iff.mpr ⟨hbinds, hname⟩, rfl⟩
    | imported ha hname => exact ⟨List.mem_filter.mpr ⟨List.mem_map.mpr ⟨_, ha, rfl⟩, hname⟩, rfl⟩
  · rintro ⟨hmem, rfl⟩
    cases action with
    | defineClass id =>
      rw [List.mem_singleton.mp hmem]
      exact .definedClass id
    | defineFunction id =>
      rw [List.mem_singleton.mp hmem]
      exact .definedFunction id
    | assign targets value =>
      rw [Action.declared, Expr.declaredAll_eq] at hmem
      obtain ⟨target, htarget, hmem⟩ := List.mem_flatMap.mp hmem
      obtain ⟨hbinds, hname⟩ := Expr.mem_declared_iff.mp hmem
      exact .assigned htarget hbinds hname
    | annotate target =>
      obtain ⟨hbinds, hname⟩ := Expr.mem_declared_iff.mp hmem
      exact .annotated hbinds hname
    | importFrom level module? names =>
      obtain ⟨hmem, hname⟩ := List.mem_filter.mp hmem
      obtain ⟨a, ha, rfl⟩ := List.mem_map.mp hmem
      exact .imported ha hname
    | importModules | evaluate | other => cases hmem

/-! ### The table of declarations -/

/-- Enters the names that a statement declares. -/
def enter (table : Entries DeclarationKind) (statement : Statement) : Entries DeclarationKind :=
  statement.action.declared.1.foldl (fun all name => Entries.insert name statement.action.declared.2 all) table

theorem declarations_concat (statements : List Statement) (statement : Statement) :
    declarations (statements ++ [statement]) = enter (declarations statements) statement := by
  rw [declarations, List.foldl_append]
  rfl

theorem get?_foldl_insert (names : List Text) (kind : DeclarationKind) (table : Entries DeclarationKind)
    (name : Text) :
    Entries.get? (names.foldl (fun all name => Entries.insert name kind all) table) name =
      if name ∈ names then some kind else Entries.get? table name := by
  induction names generalizing table with
  | nil => rfl
  | cons first names ih =>
    rw [List.foldl_cons, ih, Entries.get?_insert]
    by_cases hlater : name ∈ names
    · rw [if_pos hlater, if_pos (List.mem_cons_of_mem _ hlater)]
    · simp only [List.mem_cons, hlater, or_false, if_false]

theorem isDistinct_foldl_insert (names : List Text) (kind : DeclarationKind) {table : Entries DeclarationKind}
    (h : table.IsDistinct) : (names.foldl (fun all name => Entries.insert name kind all) table).IsDistinct := by
  induction names generalizing table with
  | nil => exact h
  | cons first names ih => exact ih (h.insert first kind)

theorem isDistinct_declarations (statements : List Statement) : (declarations statements).IsDistinct := by
  induction statements using List.reverseRecOn with
  | nil => exact List.nodup_nil
  | append_singleton statements statement ih =>
    rw [declarations_concat]
    exact isDistinct_foldl_insert _ _ ih

/-- A further statement decides on the names that it declares, and on no others. -/
theorem declaredLast_concat {statements : List Statement} {statement : Statement} {name : Text}
    {kind : DeclarationKind} :
    DeclaredLast (statements ++ [statement]) name kind ↔
      Declares statement.action name kind ∨
        (∀ other, ¬ Declares statement.action name other) ∧ DeclaredLast statements name kind := by
  constructor
  · rintro ⟨before, found, after, hstatements, hdeclares, hlater⟩
    rcases List.eq_nil_or_concat' after with rfl | ⟨init, last, rfl⟩
    · obtain ⟨-, hsame⟩ := List.append_inj' hstatements rfl
      rw [List.singleton_inj.mp hsame]
      exact .inl hdeclares
    · rw [← List.cons_append, ← List.append_assoc] at hstatements
      obtain ⟨hinit, hlast⟩ := List.append_inj' hstatements rfl
      rw [List.singleton_inj.mp hlast]
      exact .inr ⟨hlater last (by simp), before, found, init, hinit, hdeclares,
        fun later hmem => hlater later (List.mem_append_left _ hmem)⟩
  · rintro (hdeclares | ⟨hnot, before, found, after, rfl, hdeclares, hlater⟩)
    · exact ⟨statements, statement, [], rfl, hdeclares, List.forall_mem_nil _⟩
    · refine ⟨before, found, after ++ [statement], by simp, hdeclares, fun later hmem => ?_⟩
      rcases List.mem_append.mp hmem with hmem | hmem
      · exact hlater later hmem
      · rw [List.mem_singleton.mp hmem]
        exact hnot

/-- A name stands in the table with the kind of the last statement that declares it. -/
theorem mem_declarations_iff {statements : List Statement} {name : Text} {kind : DeclarationKind} :
    (name, kind) ∈ declarations statements ↔ DeclaredLast statements name kind := by
  rw [← (isDistinct_declarations statements).get?_eq_some]
  induction statements using List.reverseRecOn with
  | nil => simp [declarations, Entries.get?, DeclaredLast]
  | append_singleton statements statement ih =>
    rw [declarations_concat, enter, get?_foldl_insert, declaredLast_concat, ← ih]
    simp only [declares_iff]
    by_cases hmem : name ∈ statement.action.declared.1
    · simp [hmem, eq_comm]
    · simp [hmem]

/-! ### The list of public names -/

/-- The value that a statement assigns to the list of public names. -/
def publicValue? (statement : Statement) : Option Expr :=
  match statement.action with
  | .assign targets value => if targets.any (·.isPublicList) then some value else none
  | _ => none

/-- The values that are assigned to the list of public names, in order. -/
def publicValues (statements : List Statement) : List Expr :=
  statements.filterMap publicValue?

/-- The items of a value that is a list or tuple of literals. -/
def Expr.IsListOf (value : Expr) (items : List Literal) : Prop :=
  ∃ literal, value.literal?.run = some (.ok literal) ∧ literal.items? = some items

/-- A value that is a literal, but no list or tuple. -/
def Expr.IsOther (value : Expr) : Prop :=
  ∃ literal, value.literal?.run = some (.ok literal) ∧ literal.items? = Option.none

/-- The items of the first list or tuple of literals, where all values before it are literals. -/
inductive FirstList : List Expr → List Literal → Prop where
  | here {value : Expr} {items : List Literal} (hlist : value.IsListOf items) (more : List Expr) :
      FirstList (value :: more) items
  | later {value : Expr} {more : List Expr} {items : List Literal} (hother : value.IsOther)
      (hmore : FirstList more items) : FirstList (value :: more) items

/-- Why the first list cannot be had: a number in a value is too large for its sum, or an integer in the list
has too many digits to be written. -/
inductive ListFails : List Expr → Fault → Prop where
  | value {value : Expr} {fault : Fault} (hvalue : value.literal?.run = some (.error fault)) (more : List Expr) :
      ListFails (value :: more) fault
  | digits {value : Expr} {items : List Literal} (hlist : value.IsListOf items)
      (hlong : Literal.areWritable items = false) (more : List Expr) : ListFails (value :: more) .badValue
  | later {value : Expr} {more : List Expr} {fault : Fault} (hother : value.IsOther)
      (hmore : ListFails more fault) : ListFails (value :: more) fault

/-- The public names by the values that are assigned to their list. -/
def listedNames? : List Expr → Except Fault (Option (List Text))
  | [] => .ok none
  | value :: more =>
    match value.literal?.run with
    | none => .ok none
    | some (.error fault) => .error fault
    | some (.ok literal) =>
      match literal.items? with
      | some items => (Literal.identifiers items).map some
      | none => listedNames? more

theorem publicNames?_eq (statements : List Statement) :
    publicNames? statements = listedNames? (publicValues statements) := by
  induction statements with
  | nil => rfl
  | cons statement rest ih =>
    rw [publicNames?, publicValues, List.filterMap_cons, ← publicValues, publicValue?]
    cases statement.action with
    | assign targets value =>
      dsimp only
      by_cases hpublic : (targets.any fun target => target.isPublicList) = true
      · rw [if_pos hpublic, if_pos hpublic, ih]
        rfl
      · rw [if_neg hpublic, if_neg hpublic, ih]
    | _ => exact ih

section

variable {value : Expr} {items : List Literal} {fault : Fault}

theorem listedNames?_of_isListOf (h : value.IsListOf items) (more : List Expr) :
    listedNames? (value :: more) = (Literal.identifiers items).map some := by
  obtain ⟨literal, hliteral, hitems⟩ := h
  rw [listedNames?, hliteral]
  dsimp only
  rw [hitems]

theorem listedNames?_of_isOther (h : value.IsOther) (more : List Expr) :
    listedNames? (value :: more) = listedNames? more := by
  obtain ⟨literal, hliteral, hitems⟩ := h
  rw [listedNames?, hliteral]
  dsimp only
  rw [hitems]

theorem listedNames?_of_fault (h : value.literal?.run = some (.error fault)) (more : List Expr) :
    listedNames? (value :: more) = .error fault := by
  rw [listedNames?, h]

variable {values : List Expr}

theorem FirstList.listedNames?_eq (h : FirstList values items) :
    listedNames? values = (Literal.identifiers items).map some := by
  induction h with
  | here hlist more => exact listedNames?_of_isListOf hlist more
  | later hother _ ih => rw [listedNames?_of_isOther hother, ih]

theorem FirstList.listFails (h : FirstList values items) (hlong : Literal.areWritable items = false) :
    ListFails values .badValue := by
  induction h with
  | here hlist more => exact .digits hlist hlong more
  | later hother _ ih => exact .later hother (ih hlong)

theorem ListFails.listedNames?_eq (h : ListFails values fault) : listedNames? values = .error fault := by
  induction h with
  | value hvalue more => exact listedNames?_of_fault hvalue more
  | digits hlist hlong more =>
    rw [listedNames?_of_isListOf hlist, Literal.identifiers, hlong]
    rfl
  | later hother _ ih => rw [listedNames?_of_isOther hother, ih]

/-- There is a first list, something is wrong with a value, or there are no public names. -/
theorem listedNames?_cases (values : List Expr) :
    (∃ items, FirstList values items) ∨ (∃ fault, ListFails values fault) ∨ listedNames? values = .ok none := by
  induction values with
  | nil => exact .inr (.inr rfl)
  | cons value more ih =>
    rcases hread : value.literal?.run with _ | (fault | literal)
    · refine .inr (.inr ?_)
      rw [listedNames?, hread]
    · exact .inr (.inl ⟨fault, .value hread more⟩)
    · cases hitems : literal.items? with
      | some items => exact .inl ⟨items, .here ⟨literal, hread, hitems⟩ more⟩
      | none =>
        have hother : value.IsOther := ⟨literal, hread, hitems⟩
        rw [listedNames?_of_isOther hother]
        exact ih.imp (fun ⟨items, hfirst⟩ => ⟨items, .later hother hfirst⟩)
          (Or.imp_left fun ⟨fault, hfails⟩ => ⟨fault, .later hother hfails⟩)

theorem listedNames?_eq_error_iff : listedNames? values = .error fault ↔ ListFails values fault := by
  refine ⟨fun herror => ?_, ListFails.listedNames?_eq⟩
  rcases listedNames?_cases values with ⟨items, hfirst⟩ | ⟨other, hfails⟩ | hnone
  · rw [hfirst.listedNames?_eq, Literal.identifiers] at herror
    split at herror
    · cases herror
    · rename_i hlong
      cases herror
      exact hfirst.listFails (Bool.eq_false_iff.mpr hlong)
  · rw [hfails.listedNames?_eq] at herror
    cases herror
    exact hfails
  · rw [hnone] at herror
    cases herror

variable {names? : Option (List Text)}

theorem FirstList.names?_eq (h : FirstList values items) (hnames : listedNames? values = .ok names?) :
    names? = some (items.filterMap (·.identifier?)) := by
  rw [h.listedNames?_eq, Literal.identifiers] at hnames
  split at hnames
  · cases hnames
    rfl
  · cases hnames

/-- A name is let through if it is a member of the first list, where there is one. -/
theorem listed_iff (hnames : listedNames? values = .ok names?) (name : Text) :
    (∀ names ∈ names?, name ∈ names) ↔
      ∀ items, FirstList values items → ∃ item ∈ items, item.identifier? = some name := by
  constructor
  · intro hlisted items hfirst
    exact List.mem_filterMap.mp (hlisted _ (hfirst.names?_eq hnames))
  · intro hmember names hsome
    rcases listedNames?_cases values with ⟨items, hfirst⟩ | ⟨fault, hfails⟩ | hnone
    · cases hsome.symm.trans (hfirst.names?_eq hnames)
      exact List.mem_filterMap.mpr (hmember items hfirst)
    · cases hnames.symm.trans hfails.listedNames?_eq
    · cases hnames.symm.trans hnone
      cases hsome

end

/-! ### The exports -/

section

variable {statements : List Statement}

theorem exports_eq_error_iff {fault : Fault} :
    exports statements = .error fault ↔ ListFails (publicValues statements) fault := by
  rw [exports, publicNames?_eq, ← listedNames?_eq_error_iff]
  cases listedNames? (publicValues statements) with
  | error cause => simp [Except.map]
  | ok names? => simp [Except.map]

theorem exports_eq_ok {table : Entries DeclarationKind} (h : exports statements = .ok table) :
    ∃ names?, listedNames? (publicValues statements) = .ok names? ∧
      table = (declarations statements).filter fun entry =>
        entry.1 ≠ publicList ∧ ∀ names ∈ names?, entry.1 ∈ names := by
  rw [exports, publicNames?_eq] at h
  cases hnames : listedNames? (publicValues statements) with
  | error cause =>
    rw [hnames] at h
    cases h
  | ok names? =>
    refine ⟨names?, rfl, ?_⟩
    rw [hnames] at h
    cases names? with
    | none =>
      cases h
      simp
    | some names =>
      cases h
      simp [List.filter_filter, Bool.and_comm]

theorem isDistinct_of_exports {table : Entries DeclarationKind} (h : exports statements = .ok table) :
    table.IsDistinct := by
  obtain ⟨names?, -, rfl⟩ := exports_eq_ok h
  exact (isDistinct_declarations statements).sublist (List.filter_sublist.map Prod.fst)

theorem mem_exports_iff {table : Entries DeclarationKind} (h : exports statements = .ok table) {name : Text}
    {kind : DeclarationKind} :
    (name, kind) ∈ table ↔ DeclaredLast statements name kind ∧ name ≠ publicList ∧
      ∀ items, FirstList (publicValues statements) items → ∃ item ∈ items, item.identifier? = some name := by
  obtain ⟨names?, hnames, rfl⟩ := exports_eq_ok h
  rw [List.mem_filter, decide_eq_true_iff, mem_declarations_iff, listed_iff hnames]

end

end Caret.Script

namespace Caret.Modules

open Files Script

variable {disk : Disk} {file source : Text} {statements : List Statement}

theorem exportsOfFile_eq [CharacterNames] (hread : disk.readReplacing file = .ok source)
    (hparse : parse? source = some statements) :
    exportsOfFile disk file = exports statements := by
  rw [exportsOfFile, hread]
  dsimp only
  rw [exportsOf, hparse]

/-- The file of a module that is well formed exports each name that its statements declare, but for the list
of public names, with the kind of the last declaration. Where a list of public names is assigned, and
nothing but literals before it, only its members are exported. There is no answer exactly if the first list
cannot be had. -/
theorem exportsOfFile_of_parse? [CharacterNames] (hread : disk.readReplacing file = .ok source)
    (hparse : parse? source = some statements) :
    (∀ fault, exportsOfFile disk file = .error fault ↔ ListFails (publicValues statements) fault) ∧
      ∀ table, exportsOfFile disk file = .ok table →
        table.IsDistinct ∧ ∀ name kind, (name, kind) ∈ table ↔
          DeclaredLast statements name kind ∧ name ≠ publicList ∧
            ∀ items, FirstList (publicValues statements) items → ∃ item ∈ items, item.identifier? = some name := by
  rw [exportsOfFile_eq hread hparse]
  exact ⟨fun fault => exports_eq_error_iff,
    fun table htable => ⟨isDistinct_of_exports htable, fun name kind => mem_exports_iff htable⟩⟩

/-- A module with declarations of all kinds and a list of public names, one of them written by the name of its
letter. -/
def mixedSource : Text :=
  "from o import q as p, s\n[a, (b, *c)], d = e\nclass d: pass\nasync def f(): pass\n".toList ++
    "__all__ = ['p', '\\N\x7bLATIN SMALL LETTER B\x7d', 'c', 'd', 'f']\n".toList

/-- A disk with this module. -/
def mixedDisk : Disk where
  tree := .directory [("m.py".toList, .file (.bytes (Text.encode mixedSource)))]
  cwd := "/".toList
  home := "/home".toList
  library := []

theorem eq_ok_of_toOption {ε α : Type} {result : Except ε α} {value : α} (h : result.toOption = some value) :
    result = .ok value := by
  cases result with
  | error cause => cases h
  | ok found => exact congrArg _ (Option.some.inj h)

section

/-- A table with the name of one letter. -/
local instance letterNames : CharacterNames := .ofList [("LATIN SMALL LETTER B".toList, 'b')]

/-- The class comes last, so that its kind counts. The names that are not in the list are left out, and so is
the item with a star. -/
theorem exportsOfFile_of_parse?_mixed :
    ∃ statements, mixedDisk.readReplacing "/m.py".toList = .ok mixedSource ∧
      parse? mixedSource = some statements ∧
      exportsOfFile mixedDisk "/m.py".toList =
        .ok [(['p'], .importation), (['b'], .statement), (['d'], .classDefinition), (['f'], .function)] ∧
      DeclaredLast statements ['d'] .classDefinition ∧ ∀ fault, ¬ ListFails (publicValues statements) fault := by
  have hread : mixedDisk.readReplacing "/m.py".toList = .ok mixedSource :=
    eq_ok_of_toOption (by decide +kernel)
  have hsome : (parse? mixedSource).map (fun statements => (exports statements).toOption) =
      some (some [(['p'], .importation), (['b'], .statement), (['d'], .classDefinition), (['f'], .function)]) := by
    decide +kernel
  obtain ⟨statements, hparse, htable⟩ := Option.map_eq_some_iff.mp hsome
  have hfile := (exportsOfFile_eq hread hparse).trans (eq_ok_of_toOption htable)
  obtain ⟨hfails, hexports⟩ := exportsOfFile_of_parse? hread hparse
  refine ⟨statements, hread, hparse, hfile, ?_, fun fault hfault => ?_⟩
  · exact (((hexports _ hfile).2 ['d'] .classDefinition).mp (by decide)).1
  · cases hfile.symm.trans ((hfails fault).mpr hfault)

end

end Caret.Modules
