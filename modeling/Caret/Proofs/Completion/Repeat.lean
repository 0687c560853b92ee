import Caret.Proofs.Completion.Isolation

/-!
# The same request again

A request puts the directories that the script declares on the load path before the collaborators
look at it. Adding them once more does nothing, so a second request shows the collaborators the same
load path. Collaborators whose answers depend on nothing else then answer as they did before,
whatever has become of their own state.

Answers may hold further questions: a script that was parsed can be asked for its symbols. So two
answers are compared by what they answer in turn, down to the texts.
-/

namespace Caret.Completion

open Files Modules

variable {ε α β : Type}

/-! ### A line that is looked at again -/

theorem classifyWith_fst_eq (disk : Disk) (prior line seed : Text) (loadPath later : LoadPath) :
    (classifyWith disk prior line seed loadPath).1 =
      (classifyWith disk prior line seed later).1 := by
  rw [classifyWith, classifyWith, LoadPath.register_eq, LoadPath.register_eq]
  split <;> rfl

/-- A line that is looked at again is seen as before, and the load path stays as it is. -/
theorem classifyWith_again (disk : Disk) (prior line seed : Text) (loadPath : LoadPath) :
    classifyWith disk prior line seed (classifyWith disk prior line seed loadPath).2 =
      classifyWith disk prior line seed loadPath := by
  refine Prod.ext (classifyWith_fst_eq disk prior line seed _ _) ?_
  rw [LoadPath.classifyWith_snd, LoadPath.classifyWith_snd, LoadPath.afterAdds_afterAdds]

/-! ### Answers that are alike -/

/-- Two outcomes agree: both are faults, or both are answers and these are related. -/
inductive Agree (R : α → α → Prop) : Except Fault α → Except Fault α → Prop
  | fault (first second : Fault) : Agree R (.error first) (.error second)
  | answer {a b : α} (hrelated : R a b) : Agree R (.ok a) (.ok b)

/-- Two questions get answers that are related wherever they are asked of the same files and the
same load path, whatever the state of the collaborator. -/
def Query.Alike (R : α → α → Prop) (query other : Query ε α) : Prop :=
  ∀ view engine engine', Agree R (query view engine).1 (other view engine').1

/-- Two types have the same members. -/
def InferredType.Alike (type other : InferredType ε) : Prop :=
  Query.Alike Eq type.members other.members

/-- Two scopes show the same symbols and types. -/
structure Scope.Alike (scope other : Scope ε) : Prop where
  symbolsAt : ∀ start, Query.Alike Eq (scope.symbolsAt start) (other.symbolsAt start)
  typeOfBinding : ∀ name, Query.Alike (Option.Rel InferredType.Alike) (scope.typeOfBinding name)
    (other.typeOfBinding name)

/-- The answers of an indexer depend only on the question, the files and the load path. -/
def Indexer.IsSteady (indexer : Indexer ε) : Prop :=
  ∀ source, Query.Alike (Option.Rel Scope.Alike) (indexer.parse source) (indexer.parse source)

/-- The answers of a resolver depend only on the question, the files and the load path. -/
def Resolver.IsSteady (resolver : Resolver ε) : Prop :=
  ∀ name, Query.Alike Eq (resolver.resolve name) (resolver.resolve name)

namespace Query.Alike

theorem pure {R : α → α → Prop} {a b : α} (hrelated : R a b) :
    Query.Alike R (Pure.pure a : Query ε α) (Pure.pure b) :=
  fun _ _ _ => .answer hrelated

theorem read : Query.Alike Eq (MonadReader.read : Query ε View) MonadReader.read :=
  fun _ _ _ => .answer rfl

theorem bind {R : α → α → Prop} {S : β → β → Prop} {query other : Query ε α}
    {next next' : α → Query ε β} (hquery : Query.Alike R query other)
    (hnext : ∀ a b, R a b → Query.Alike S (next a) (next' b)) :
    Query.Alike S (query >>= next) (other >>= next') := by
  intro view engine engine'
  rw [Query.bind_apply, Query.bind_apply]
  have hagree := hquery view engine engine'
  rcases hrun : query view engine with ⟨first, after⟩
  rcases hrun' : other view engine' with ⟨second, after'⟩
  rw [hrun, hrun'] at hagree
  cases hagree with
  | fault first second => exact .fault first second
  | answer hrelated => exact hnext _ _ hrelated view after after'

end Query.Alike

theorem Resolver.onLoadPath_isSteady [CharacterNames] : (Resolver.onLoadPath : Resolver ε).IsSteady := by
  intro name
  refine .bind .read fun view _ hview => ?_
  subst hview
  cases view.loadPath.resolve? view.disk name with
  | ok resolved? => exact .pure rfl
  | error fault => exact fun _ _ _ => .fault fault fault

/-- Resolvers that are asked in turn are steady if each of them is. -/
theorem Resolver.chain_isSteady {resolvers : List (Resolver ε)}
    (hsteady : ∀ resolver ∈ resolvers, resolver.IsSteady) :
    (Resolver.chain resolvers).IsSteady := by
  intro name view engine engine'
  change Agree Eq (Resolver.firstOf resolvers name view engine).1
    (Resolver.firstOf resolvers name view engine').1
  induction resolvers generalizing engine engine' with
  | nil => exact .answer rfl
  | cons resolver rest ih =>
    have hagree := hsteady resolver List.mem_cons_self name view engine engine'
    have hrest := fun after after' =>
      ih (fun other hother => hsteady other (List.mem_cons_of_mem _ hother)) after after'
    simp only [Resolver.firstOf]
    rcases hrun : resolver.resolve name view engine with ⟨first, after⟩
    rcases hrun' : resolver.resolve name view engine' with ⟨second, after'⟩
    rw [hrun, hrun'] at hagree
    cases hagree with
    | fault first second => exact hrest after after'
    | answer hsame =>
      subst hsame
      rename_i found
      cases found with
      | none => exact hrest after after'
      | some module => exact .answer rfl

/-! ### One request after the other -/

section

variable {assembler : Assembler ε} (hindexer : assembler.indexer.IsSteady)
  (hresolver : assembler.resolver.IsSteady)

include hindexer hresolver

/-- With steady collaborators the candidates depend only on the context, the files and the load
path. -/
theorem Assembler.assemble_alike (library : Build Index) (context : Line.Context) :
    Query.Alike Eq (assembler.assemble library context) (assembler.assemble library context) := by
  rw [Assembler.assemble]
  cases context.form with
  | package keyword path start =>
    refine .bind .read fun view _ hview => ?_
    subst hview
    exact .pure rfl
  | member name typed =>
    refine .bind (hresolver name) fun found _ hfound => ?_
    subst hfound
    cases found with
    | none => exact .pure rfl
    | some module =>
      refine .bind .read fun view _ hview => ?_
      subst hview
      exact .pure rfl
  | name name =>
    refine .bind (hindexer _) fun parsed parsed' hparsed => ?_
    cases hparsed with
    | none => exact .pure rfl
    | some hscope =>
      refine .bind (hscope.symbolsAt name) fun symbols _ hsymbols => ?_
      subst hsymbols
      exact .pure rfl
  | access expression typed =>
    refine .bind (hindexer _) fun parsed parsed' hparsed => ?_
    cases hparsed with
    | none => exact .pure rfl
    | some hscope =>
      refine .bind (hscope.typeOfBinding _) fun inferred inferred' hinferred => ?_
      cases hinferred with
      | none => exact .pure rfl
      | some htype =>
        refine .bind htype fun members _ hmembers => ?_
        subst hmembers
        exact .pure rfl

end

theorem contributed_eq_of_agree {first second : Except Fault (List Candidate)}
    (hagree : Agree Eq first second) : contributed first = contributed second := by
  cases hagree with
  | fault first second => rfl
  | answer hsame => rw [hsame]

namespace Provider

variable {provider : Provider ε} (hindexer : provider.assembler.indexer.IsSteady)
  (hresolver : provider.assembler.resolver.IsSteady)

include hindexer hresolver

theorem assemble_again (disk : Disk) (prior line seed : Text) (state : State ε) (engine : ε) :
    Agree Eq
      (provider.assemble disk prior line seed
        ⟨(provider.assemble disk prior line seed state).2.loadPath, engine⟩).1
      (provider.assemble disk prior line seed state).1 := by
  rw [assemble_snd_loadPath, ← LoadPath.classifyWith_snd, assemble_apply, assemble_apply,
    classifyWith_again]
  rcases classifyWith disk prior line seed state.loadPath with ⟨_ | _ | context, loadPath⟩
  · exact .fault _ _
  · exact .answer rfl
  · exact Assembler.assemble_alike hindexer hresolver provider.library context ⟨disk, loadPath⟩
      engine state.engine

theorem forLine_again (disk : Disk) (prior line seed : Text) (state : State ε) (engine : ε) :
    (provider.forLine disk prior line seed
      ⟨(provider.forLine disk prior line seed state).2.loadPath, engine⟩).1 =
        (provider.forLine disk prior line seed state).1 := by
  have hcontributed := contributed_eq_of_agree
    (assemble_again hindexer hresolver disk prior line seed state engine)
  rw [assemble_snd_loadPath] at hcontributed
  rw [forLine_snd_loadPath, forLine_fst, forLine_fst, produced, produced, hcontributed]

end Provider

/-- With steady collaborators a request that is made again has the same result, and the load path
stays as the first one left it. In between, the collaborators' own state may change in any way. -/
theorem complete_again (provider : Provider ε) (hindexer : provider.assembler.indexer.IsSteady)
    (hresolver : provider.assembler.resolver.IsSteady) (disk : Disk) (view : Editor.View)
    (state : State ε) (engine : ε) :
    let first := provider.complete disk view state
    let second := provider.complete disk view { first.2 with engine }
    second.1 = first.1 ∧ second.2.loadPath = first.2.loadPath := by
  rcases shows_or_isUnreadable view with ⟨before, line, seed, hshows⟩ | hunreadable
  · simp only [Provider.complete_of_shows _ _ _ hshows]
    refine ⟨?_, ?_⟩
    · rw [Provider.forLine_again hindexer hresolver]
    · rw [Provider.forLine_snd_loadPath, Provider.forLine_snd_loadPath,
        LoadPath.afterAdds_afterAdds]
  · simp only [Provider.complete_of_isUnreadable _ _ _ hunreadable, and_self]

/-- An indexer that counts the scripts it is given, and shows the directories of the load path. -/
def countingIndexer : Indexer Nat where
  parse _ := do
    modify (· + 1)
    return some {
      symbolsAt := fun start => do
        let view ← read
        return view.loadPath.directories.map fun directory => ⟨start ++ directory, [], []⟩
      typeOfBinding := fun _ => pure none }

theorem countingIndexer_isSteady : countingIndexer.IsSteady :=
  fun _ _ _ _ => .answer (.some ⟨fun _ _ _ _ => .answer rfl, fun _ _ _ _ => .answer .none⟩)

/-- A provider with that indexer. -/
def countingProvider [CharacterNames] : Provider Nat where
  assembler := ⟨countingIndexer, .chain [.onLoadPath], true⟩
  library := .pending
  classes := none
  maxItems := 5

theorem chain_onLoadPath_isSteady [CharacterNames] :
    (Resolver.chain [.onLoadPath] : Resolver ε).IsSteady := by
  apply Resolver.chain_isSteady
  intro resolver hresolver
  rw [List.mem_singleton.mp hresolver]
  exact Resolver.onLoadPath_isSteady

section

open scoped CharacterNames

/-- The directory that the script declares is on the load path when the indexer is asked for the
first time, and it is not there twice the second time. -/
theorem complete_again_declared :
    let first := countingProvider.complete LoadPath.linkedDisk (.ofText declaringText 26) ⟨{}, 0⟩
    let second := countingProvider.complete LoadPath.linkedDisk (.ofText declaringText 26)
      { first.2 with engine := 7 }
    first.1.candidates.map (·.replacement) = ["Ab/more".toList] ∧ first.2.engine = 1 ∧
      second.2.engine = 8 ∧ second.1 = first.1 ∧ second.2.loadPath = first.2.loadPath := by
  have hagain := complete_again countingProvider countingIndexer_isSteady chain_onLoadPath_isSteady
    LoadPath.linkedDisk (.ofText declaringText 26) ⟨{}, 0⟩ 7
  -- Both sides are brought to one form first: comparing them as they are runs the requests.
  dsimp only at hagain ⊢
  refine ⟨?_, ?_, ?_, hagain⟩
  all_goals decide +kernel

end

end Caret.Completion
