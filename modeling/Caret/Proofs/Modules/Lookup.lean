import Caret.Proofs.Completion.Kept
import Caret.Proofs.Modules.LoadPath

/-!
# Look-ups on a growing load path

The load path is searched in order, so what an earlier directory has is found there whatever comes
behind it. A module keeps its file, and the lists of modules and of package directories only grow at
their ends.
-/

namespace Caret.Modules.LoadPath

open Files Completion

variable {disk : Disk} {short long : LoadPath}

/-- The distinct texts of a list stay in front when texts are put behind it. -/
theorem distinct_prefix {texts more : List Text} (hextends : texts <+: more) :
    Text.distinct texts <+: Text.distinct more := by
  obtain ⟨rest, rfl⟩ := hextends
  have hgo : Text.distinct (texts ++ rest) =
      keepNew (sameKey id) (keepNew (sameKey id) [] texts) rest := by
    rw [distinct_eq]
    exact List.foldl_append
  obtain ⟨added, heq, -⟩ := keepNew_eq_append (sameKey id) (keepNew (sameKey id) [] texts) rest
  rw [hgo, heq, distinct_eq]
  exact List.prefix_append _ _

section

variable (hextends : short.directories <+: long.directories)

include hextends

theorem moduleFile?_of_prefix {name file : Text} (hfile : short.moduleFile? disk name = some file) :
    long.moduleFile? disk name = some file := by
  obtain ⟨rest, hrest⟩ := hextends
  rw [moduleFile?] at hfile ⊢
  dsimp only at hfile ⊢
  split at hfile
  · cases hfile
  · rename_i hparts
    rw [if_neg hparts, ← hrest, List.findSome?_append, hfile, Option.some_or]

theorem packageDirectories_prefix (name : Text) :
    short.packageDirectories disk name <+: long.packageDirectories disk name := by
  rw [packageDirectories, packageDirectories]
  split
  · exact List.prefix_refl _
  · exact (hextends.map _).filter _

theorem modulesStartingWith_prefix (start : Text) :
    short.modulesStartingWith disk start <+: long.modulesStartingWith disk start := by
  obtain ⟨rest, hrest⟩ := hextends
  rw [modulesStartingWith, modulesStartingWith, ← hrest, List.flatMap_append]
  exact distinct_prefix (List.prefix_append _ _)

end

/-- Whatever calls are made: a module that was found is found in the same file, and the modules that
start with a name and the directories of a package are those there were and then perhaps more. -/
theorem afterCalls_finds (disk : Disk) (loadPath : LoadPath) (calls : List Call)
    (name start : Text) :
    (∀ file, loadPath.moduleFile? disk name = some file →
      (afterCalls disk loadPath calls).moduleFile? disk name = some file) ∧
    loadPath.modulesStartingWith disk start <+:
      (afterCalls disk loadPath calls).modulesStartingWith disk start ∧
    loadPath.packageDirectories disk name <+:
      (afterCalls disk loadPath calls).packageDirectories disk name := by
  have hextends : loadPath.directories <+: (afterCalls disk loadPath calls).directories :=
    (entries_prefix_afterCalls disk loadPath calls).map _
  exact ⟨fun _ => moduleFile?_of_prefix hextends, modulesStartingWith_prefix hextends start,
    packageDirectories_prefix hextends name⟩

/-- Two directories with modules of the same name, in the second one as a package. -/
def twinDisk : Disk where
  tree := .directory [
    ("lib".toList, .directory [("a.py".toList, .file (.bytes []))]),
    ("more".toList, .directory [("ab.py".toList, .file (.bytes [])),
      ("a".toList, .directory [("__init__.py".toList, .file (.bytes []))])])]
  cwd := "/".toList
  home := "/home".toList
  library := []

/-- The module that was there first keeps its file, and what only the second directory has comes
behind. -/
theorem afterCalls_finds_twin :
    linkedStart.moduleFile? twinDisk ['a'] = some "/lib/a.py".toList ∧
      (afterCalls twinDisk linkedStart [.add "more".toList]).moduleFile? twinDisk ['a'] =
        some "/lib/a.py".toList ∧
      linkedStart.modulesStartingWith twinDisk ['a'] = [['a']] ∧
      (afterCalls twinDisk linkedStart [.add "more".toList]).modulesStartingWith twinDisk ['a'] =
        [['a'], ['a', 'b']] ∧
      linkedStart.packageDirectories twinDisk ['a'] <+:
        (afterCalls twinDisk linkedStart [.add "more".toList]).packageDirectories twinDisk
          ['a'] := by
  have hfile : linkedStart.moduleFile? twinDisk ['a'] = some "/lib/a.py".toList := by
    decide +kernel
  have hfinds := afterCalls_finds twinDisk linkedStart [.add "more".toList] ['a'] ['a']
  exact ⟨hfile, hfinds.1 _ hfile, by decide +kernel, by decide +kernel, hfinds.2.2⟩

end Caret.Modules.LoadPath
