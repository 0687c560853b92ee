import Caret.Proofs.Completion.Provider
import Caret.Proofs.Modules.LoadPath

/-!
# Faults stay where they are

A request for completions has a result whatever fails on the way to it. If the buffer cannot be
read, nothing is done at all. A source that fails is as good as one that finds nothing, and the other
source and the load path do not notice it: what becomes of the load path is settled before a
collaborator is asked, by the script and the files alone.

One thing can go wrong before that. A script may declare a directory that has no absolute path, or one
whose links lead in a circle, and the directories that it declares behind this one are then not put on
the load path.
-/

namespace Caret.Completion

open Files Modules

variable {ε : Type}

/-! ### What is read from the editor -/

/-- An editor from which everything can be read. -/
structure Shows (view : Editor.View) (before line seed : Text) : Prop where
  before_eq : view.before = .ok before
  line_eq : view.line = .ok line
  typed_eq : view.typed = .ok seed

/-- An editor from which something cannot be read. -/
def IsUnreadable (view : Editor.View) : Prop :=
  ∃ fault, view.before = .error fault ∨ view.line = .error fault ∨ view.typed = .error fault

/-- The text before a line, where the text before the caret ends with it. -/
def priorTo (before line : Text) : Text :=
  Text.upTo before ((before.length : Int) - line.length)

theorem shows_or_isUnreadable (view : Editor.View) :
    (∃ before line seed, Shows view before line seed) ∨ IsUnreadable view := by
  rcases view with ⟨fault | before, line, typed⟩
  · exact .inr ⟨fault, .inl rfl⟩
  rcases line with fault | line
  · exact .inr ⟨fault, .inr (.inl rfl)⟩
  rcases typed with fault | seed
  · exact .inr ⟨fault, .inr (.inr rfl)⟩
  exact .inl ⟨before, line, seed, rfl, rfl, rfl⟩

namespace Provider

variable (provider : Provider ε) (disk : Disk) (state : State ε)

theorem complete_of_shows {view : Editor.View} {before line seed : Text}
    (hshows : Shows view before line seed) :
    provider.complete disk view state =
      (⟨(provider.forLine disk (priorTo before line) line seed state).1,
        (before.length : Int) - seed.length, seed⟩,
      (provider.forLine disk (priorTo before line) line seed state).2) := by
  simp only [complete, hshows.before_eq, hshows.line_eq, hshows.typed_eq]
  rfl

theorem complete_of_isUnreadable {view : Editor.View} (hview : IsUnreadable view) :
    provider.complete disk view state = (.empty, state) := by
  obtain ⟨fault, hfault⟩ := hview
  rcases view with ⟨before, line, typed⟩
  rcases hfault with rfl | rfl | rfl
  · rfl
  · cases before <;> rfl
  · cases before <;> cases line <;> rfl

/-! ### What becomes of the load path -/

theorem assemble_snd_loadPath (prior line seed : Text) :
    (provider.assemble disk prior line seed state).2.loadPath =
      LoadPath.afterAdds disk state.loadPath (LoadPath.declared disk prior line seed) := by
  rw [← LoadPath.classifyWith_snd, assemble_apply]
  rcases classifyWith disk prior line seed state.loadPath with ⟨_ | _ | context, loadPath⟩ <;> rfl

/-- Whatever the collaborators do, the load path gets the directories that the script declares. -/
theorem forLine_snd_loadPath (prior line seed : Text) :
    (provider.forLine disk prior line seed state).2.loadPath =
      LoadPath.afterAdds disk state.loadPath (LoadPath.declared disk prior line seed) := by
  rw [forLine]
  split
  · exact provider.assemble_snd_loadPath disk state prior line seed
  · rename_i hline
    rw [LoadPath.declared_of_not_completable disk hline]
    rfl

/-! ### Providers without one of the sources -/

/-- A provider with collaborators that know nothing. -/
def withoutScript : Provider ε :=
  { provider with assembler := { provider.assembler with
      indexer := ⟨fun _ => pure none⟩
      resolver := ⟨fun _ => pure none⟩ } }

/-- A provider without classes. -/
def withoutClasses : Provider ε :=
  { provider with classes := none }

/-- Only a collaborator makes the assembly fail, so collaborators that know nothing have nothing to
offer wherever it fails. -/
theorem assemble_withoutScript_of_fault {library : Build Index} {context : Line.Context}
    {view : View} {engine : ε} {fault : Fault}
    (hfault : (provider.assembler.assemble library context view engine).1 = .error fault) :
    (provider.withoutScript.assembler.assemble library context view engine).1 = .ok [] := by
  rw [Assembler.assemble] at hfault ⊢
  cases hform : context.form with
  | package keyword path start =>
    rw [hform] at hfault
    cases hfault
  | member name typed => rfl
  | name name => rfl
  | access expression typed => rfl

theorem contributed_withoutScript_of_fault {prior line seed : Text} {fault : Fault}
    (hfault : (provider.assemble disk prior line seed state).1 = .error fault) :
    contributed (provider.withoutScript.assemble disk prior line seed state).1 = [] := by
  rw [assemble_apply] at hfault ⊢
  cases hclassify : classifyWith disk prior line seed state.loadPath with
  | mk outcome loadPath =>
    rw [hclassify] at hfault
    cases outcome with
    | error fault => rfl
    | ok context? =>
      cases context? with
      | none => rfl
      | some context =>
        have hsilent : (ask disk
            (provider.withoutScript.assembler.assemble provider.library context)
            { state with loadPath }).1 = .ok [] := provider.assemble_withoutScript_of_fault hfault
        exact congrArg contributed hsilent

theorem forLine_fst_of_script_fault {prior line seed : Text} {fault : Fault}
    (hfault : (provider.assemble disk prior line seed state).1 = .error fault) :
    (provider.forLine disk prior line seed state).1 =
      (provider.withoutScript.forLine disk prior line seed state).1 := by
  rw [forLine_fst, forLine_fst, produced, produced, hfault,
    provider.contributed_withoutScript_of_fault disk state hfault]
  rfl

theorem forLine_of_class_fault {prior line seed : Text} {fault : Fault}
    (hfault : Classes.candidates provider.classes line seed = .error fault) :
    provider.forLine disk prior line seed state =
      provider.withoutClasses.forLine disk prior line seed state := by
  rw [forLine, forLine, hfault]
  rfl

end Provider

/-! ### Faults in a request -/

/-- A request for what an editor shows keeps faults apart. -/
structure Isolates (provider : Provider ε) (disk : Disk) (view : Editor.View) (state : State ε)
    (before line seed : Text) : Prop where
  seed_eq : (provider.complete disk view state).1.seed = seed
  offset_eq : (provider.complete disk view state).1.offset = (before.length : Int) - seed.length
  /-- If the script's source fails, the result is the one without it. -/
  script_fault : ∀ fault,
    (provider.assemble disk (priorTo before line) line seed state).1 = .error fault →
      (provider.complete disk view state).1 = (provider.withoutScript.complete disk view state).1 ∧
        contributed
          (provider.withoutScript.assemble disk (priorTo before line) line seed state).1 = []
  /-- If the classes' source fails, everything is as it is without it. -/
  class_fault : ∀ fault, Classes.candidates provider.classes line seed = .error fault →
    provider.complete disk view state = provider.withoutClasses.complete disk view state
  /-- The load path is as with any other collaborators, such as some that do not fail. -/
  loadPath_eq : ∀ (ε' : Type) (other : Provider ε') (engine : ε'),
    (provider.complete disk view state).2.loadPath =
      (other.complete disk view ⟨state.loadPath, engine⟩).2.loadPath
  /-- All directories that the script declares are added, if each of them has an absolute path and
  none is a directory whose links lead in a circle. -/
  loadPath_of_passed :
    (∀ directory ∈ Line.searchPath (priorTo before line), LoadPath.stop? disk directory = none) →
    (provider.complete disk view state).2.loadPath = LoadPath.afterAdds disk state.loadPath
      (if Line.isConsidered line seed then Line.searchPath (priorTo before line) else [])
  /-- Otherwise those before the first such one are added, and the others are not. -/
  loadPath_of_stop : ∀ passed directory rest fault,
    Line.searchPath (priorTo before line) = passed ++ directory :: rest →
    (∀ directory ∈ passed, LoadPath.stop? disk directory = none) →
    LoadPath.stop? disk directory = some fault →
    (provider.complete disk view state).2.loadPath = LoadPath.afterAdds disk state.loadPath
      (if Line.isConsidered line seed then passed else [])

/-- A request that cannot read the editor does nothing, and any other keeps faults apart. -/
theorem complete_isolates (provider : Provider ε) (disk : Disk) (view : Editor.View)
    (state : State ε) :
    (IsUnreadable view → provider.complete disk view state = (.empty, state)) ∧
      ∀ before line seed, Shows view before line seed →
        Isolates provider disk view state before line seed := by
  refine ⟨provider.complete_of_isUnreadable disk state, fun before line seed hshows => ?_⟩
  have hloadPath : ∀ {ε' : Type} (other : Provider ε') (engine : State ε'),
      (other.complete disk view engine).2.loadPath = LoadPath.afterAdds disk engine.loadPath
        (LoadPath.declared disk (priorTo before line) line seed) := by
    intro ε' other engine
    rw [other.complete_of_shows disk engine hshows]
    exact other.forLine_snd_loadPath disk engine _ line seed
  constructor
  · rw [provider.complete_of_shows disk state hshows]
  · rw [provider.complete_of_shows disk state hshows]
  · intro fault hfault
    refine ⟨?_, provider.contributed_withoutScript_of_fault disk state hfault⟩
    rw [provider.complete_of_shows disk state hshows,
      provider.withoutScript.complete_of_shows disk state hshows]
    rw [provider.forLine_fst_of_script_fault disk state hfault]
  · intro fault hfault
    rw [provider.complete_of_shows disk state hshows,
      provider.withoutClasses.complete_of_shows disk state hshows,
      provider.forLine_of_class_fault disk state hfault]
  · intro ε' other engine
    rw [hloadPath, hloadPath]
  · intro hpassed
    rw [hloadPath, LoadPath.declared_of_passed hpassed line seed rfl]
  · intro passed directory rest fault hprior hpassed hstop
    rw [hloadPath, LoadPath.declared_of_stop? hpassed line seed hprior hstop]

/-- A provider whose indexer fails at every question, which it counts, and that knows one class. -/
def failingScript : Provider Nat where
  assembler := {
    indexer := ⟨fun _ => do
      modify (· + 1)
      throw .collaborator⟩
    resolver := ⟨fun _ => throw .collaborator⟩
    caseSensitive := true }
  library := .pending
  classes := some {
    isReady := .ok true
    holding := fun _ => .ok []
    ofPackage := fun _ => .error .collaborator
    startingWith := fun _ => .error .collaborator
    simplyStartingWith := fun _ => .ok ["m.Abc".toList] }
  maxItems := 5

/-- A script that declares a directory and ends in the start of a class's name. -/
def declaringText : Text := "sys.path.append('more')\nAb".toList

/-- The indexer was asked and failed; the class is offered, and the directory is on the load path.
With the caret outside the text nobody is asked. -/
theorem complete_isolates_indexer :
    Shows (.ofText declaringText 26) declaringText "Ab".toList "Ab".toList ∧
      (failingScript.assemble LoadPath.linkedDisk (priorTo declaringText "Ab".toList) "Ab".toList
        "Ab".toList ⟨LoadPath.linkedStart, 0⟩).1 = .error .collaborator ∧
      (failingScript.complete LoadPath.linkedDisk (.ofText declaringText 26)
        ⟨LoadPath.linkedStart, 0⟩).1.candidates.map (·.replacement) = ["Abc".toList] ∧
      (failingScript.complete LoadPath.linkedDisk (.ofText declaringText 26)
        ⟨LoadPath.linkedStart, 0⟩).2.loadPath.directories = ["/lib".toList, "/more".toList] ∧
      (failingScript.complete LoadPath.linkedDisk (.ofText declaringText 26)
        ⟨LoadPath.linkedStart, 0⟩).2.engine = 1 ∧
      IsUnreadable (.ofText declaringText 27) ∧
      failingScript.complete LoadPath.linkedDisk (.ofText declaringText 27)
        ⟨LoadPath.linkedStart, 0⟩ = (.empty, ⟨LoadPath.linkedStart, 0⟩) ∧
      Isolates failingScript LoadPath.linkedDisk (.ofText declaringText 26)
        ⟨LoadPath.linkedStart, 0⟩ declaringText "Ab".toList "Ab".toList := by
  have hshows : Shows (.ofText declaringText 26) declaringText "Ab".toList "Ab".toList :=
    ⟨by decide +kernel, by decide +kernel, by decide +kernel⟩
  have hunreadable : IsUnreadable (.ofText declaringText 27) :=
    ⟨.caretOutside 27 26, .inl (by decide +kernel)⟩
  exact ⟨hshows, by decide +kernel, by decide +kernel, by decide +kernel, by decide +kernel,
    hunreadable, (complete_isolates failingScript _ _ _).1 hunreadable,
    (complete_isolates failingScript _ _ _).2 _ _ _ hshows⟩

end Caret.Completion
