import Caret.Proofs.Files.RealPath
import Caret.Proofs.Text.Entries

/-!
# Writing a file

What was written to a path is what the path leads to afterwards. A walk that may create its last name
ends in a directory or at a name in one, and it does not end at a link. A new file there changes nothing
on the way: every other place keeps its file or link, and directories stay directories. So the same
walk leads to the new file.
-/

namespace Caret.Files

variable {tree : Node} {disk : Disk}

/-! ### A new file in a tree -/

/-- Whether two nodes are the same as far as walks pass over them. -/
def Node.IsAlike : Option Node → Option Node → Prop
  | some (.directory _), node? => ∃ entries, node? = some (.directory entries)
  | node?, node?' => node? = node?'

/-- A place for a file: a directory is above it, and no directory is there. -/
structure Node.HasRoom (tree : Node) (place : Place) : Prop where
  above : ∃ above name entries, place = above ++ [name] ∧ tree.at? above = some (.directory entries)
  free : ∀ entries, tree.at? place ≠ some (.directory entries)

theorem Node.isAlike_rfl (node? : Option Node) : IsAlike node? node? := by
  rcases node? with _ | _ | entries | _
  · rfl
  · rfl
  · exact ⟨entries, rfl⟩
  · rfl

theorem Node.at?_cons (entries : List (Text × Node)) (name : Text) (rest : Place) :
    (Node.directory entries).at? (name :: rest) = (List.lookup name entries).bind (·.at? rest) :=
  rfl

theorem Node.at?_put_cons (entries : List (Text × Node)) (name : Text) (rest : Place) (new : Node)
    (other : Text) (below : Place) :
    ((Node.directory entries).put (name :: rest) new).at? (other :: below) =
      if other = name then (((List.lookup name entries).getD (.directory [])).put rest new).at? below
      else (Node.directory entries).at? (other :: below) := by
  have hinsert := fun new => Entries.get?_insert name other new entries
  simp only [Entries.get?] at hinsert
  rw [put, at?_cons, hinsert]
  split
  · rfl
  · rfl

theorem Node.at?_put (tree : Node) (place : Place) (new : Node) : (tree.put place new).at? place = some new := by
  induction place generalizing tree with
  | nil => cases tree <;> cases new <;> rfl
  | cons name rest ih =>
    cases tree with
    | directory entries => rw [at?_put_cons, if_pos rfl, ih]
    | file content => simpa [put, at?] using ih _
    | link target => simpa [put, at?] using ih _

theorem Node.at?_put_of_ne {place : Place} (hroom : tree.HasRoom place) (content : Content) {other : Place}
    (hother : other ≠ place) : IsAlike (tree.at? other) ((tree.put place (.file content)).at? other) := by
  obtain ⟨⟨above, name, inside, rfl, habove⟩, hfree⟩ := hroom
  induction above generalizing tree other with
  | nil =>
    obtain rfl := Option.some.inj habove
    cases other with
    | nil => exact ⟨_, rfl⟩
    | cons first below =>
      rw [List.nil_append, at?_put_cons]
      split
      · subst first
        -- below what is no directory there is nothing, before and after
        have hnone : ∀ node : Node, node.isDirectory = false → node.at? below = none := by
          intro node hnode
          cases below with
          | nil => exact absurd rfl hother
          | cons _ _ => cases node <;> first | rfl | cases hnode
        rw [put, hnone _ rfl, at?_cons]
        cases hlookup : List.lookup name inside with
        | none => rfl
        | some node =>
          cases node with
          | directory entries => exact absurd (by rw [List.nil_append, at?_cons, hlookup]; rfl) (hfree entries)
          | file content =>
            rw [Option.bind_some, hnone _ rfl]
            exact isAlike_rfl none
          | link target =>
            rw [Option.bind_some, hnone _ rfl]
            exact isAlike_rfl none
      · exact isAlike_rfl _
  | cons next above ih =>
    cases tree with
    | file content => cases habove
    | link target => cases habove
    | directory entries =>
      obtain ⟨child, hlookup, hchild⟩ := Option.bind_eq_some_iff.mp habove
      cases other with
      | nil => exact ⟨_, rfl⟩
      | cons first below =>
        rw [List.cons_append, at?_put_cons]
        split
        · subst first
          rw [at?_cons, hlookup]
          refine ih hchild (by simpa using hother) fun inside hinside => hfree inside ?_
          rw [List.cons_append, at?_cons, hlookup]
          exact hinside
        · exact isAlike_rfl _

/-! ### Where a walk that may create its last name ends -/

theorem Node.at?_dropLast {here : Place} {entries : List (Text × Node)}
    (hhere : tree.at? here = some (.directory entries)) :
    ∃ entries, tree.at? here.dropLast = some (.directory entries) := by
  rcases List.eq_nil_or_concat here with rfl | ⟨above, name, rfl⟩
  · exact ⟨entries, hhere⟩
  · rw [List.concat_eq_append] at hhere ⊢
    rw [Node.at?_append, Option.bind_eq_some_iff] at hhere
    obtain ⟨node, habove, hname⟩ := hhere
    rw [List.dropLast_concat, habove]
    cases node with
    | directory entries => exact ⟨entries, rfl⟩
    | file content => cases hname
    | link target => cases hname

/-- How a walk that may create its last name ends: in a directory, or with a name in a directory that is
missing there or a file's. -/
def Node.IsEnd (tree : Node) (place : Place) : Prop :=
  (∃ entries, tree.at? place = some (.directory entries)) ∨
    tree.HasRoom place ∧ ∀ target, tree.at? place ≠ some (.link target)

theorem Node.isEnd_child {here : Place} {entries : List (Text × Node)}
    (hhere : tree.at? here = some (.directory entries)) {name : Text}
    (hname : ∀ target, List.lookup name entries ≠ some (.link target)) : tree.IsEnd (here ++ [name]) := by
  rw [← Node.at?_child hhere] at hname
  rcases hchild : tree.at? (here ++ [name]) with _ | _ | inside | _
  case some.directory => exact .inl ⟨inside, hchild⟩
  all_goals exact .inr ⟨⟨⟨here, name, entries, rfl, hhere⟩, by simp [hchild]⟩, hname⟩

theorem isEnd_of_walkWith {follow : Place → List Text → Except Cause Place}
    (hfollow : ∀ here names place, names ≠ [] → follow here names = .ok place → tree.IsEnd place)
    {here place : Place} {names : List Text} (hstart : names ≠ [] ∨ tree.IsEnd here)
    (hwalk : walkWith tree .create follow here names = .ok place) : tree.IsEnd place := by
  induction names generalizing here with
  | nil =>
    cases hwalk
    exact hstart.resolve_left (fun h => h rfl)
  | cons name rest ih =>
    rw [walkWith] at hwalk
    split at hwalk
    · rename_i entries hhere
      split at hwalk
      · exact ih (.inr (.inl ⟨entries, hhere⟩)) hwalk
      split at hwalk
      · exact ih (.inr (.inl (Node.at?_dropLast hhere))) hwalk
      split at hwalk
      · cases hwalk
      split at hwalk
      · rename_i hlookup
        split at hwalk
        · cases hwalk
          exact Node.isEnd_child hhere (by simp [hlookup])
        · cases hwalk
      · rw [if_neg (by simp)] at hwalk
        exact hfollow _ _ _ (by simp) hwalk
      · rename_i node hlink hlookup
        refine ih (.inr (Node.isEnd_child hhere fun target htarget => ?_)) hwalk
        rw [hlookup] at htarget
        exact hlink target (Option.some.inj htarget)
    · cases hwalk

theorem isEnd_of_walk {links : Nat} {here place : Place} {names : List Text} (hnames : names ≠ [])
    (hwalk : walk tree .create links here names = .ok place) : tree.IsEnd place := by
  induction links generalizing here names place with
  | zero => exact isEnd_of_walkWith (fun _ _ _ _ hfollow => by cases hfollow) (.inl hnames) hwalk
  | succ links ih => exact isEnd_of_walkWith (fun _ _ _ hnames hfollow => ih hnames hfollow) (.inl hnames) hwalk

/-! ### The same walk after the file was made -/

section

variable {place : Place} (hroom : tree.HasRoom place)
  (hlink : ∀ target, tree.at? place ≠ some (.link target)) (content : Content)

include hroom hlink

theorem walkWith_put {follow follow' : Place → List Text → Except Cause Place}
    (hfollow : ∀ here names, follow here names = .ok place → follow' here names = .ok place)
    {here : Place} {names : List Text} (hwalk : walkWith tree .create follow here names = .ok place) :
    walkWith (tree.put place (.file content)) .follow follow' here names = .ok place := by
  -- where the walk passes, the new tree has what the old one has
  have hsame : ∀ other, other ≠ place →
      Node.IsAlike (tree.at? other) ((tree.put place (.file content)).at? other) :=
    fun other hother => Node.at?_put_of_ne hroom content hother
  have hdirectory : ∀ {here entries}, tree.at? here = some (.directory entries) →
      ∃ entries, (tree.put place (.file content)).at? here = some (.directory entries) := by
    intro here entries hhere
    have halike := hsame here (by rintro rfl; exact hroom.free entries hhere)
    rwa [hhere] at halike
  induction names generalizing here with
  | nil => exact hwalk
  | cons name rest ih =>
    rw [walkWith] at hwalk
    split at hwalk
    · rename_i entries hhere
      obtain ⟨entries', hhere'⟩ := hdirectory hhere
      rw [walkWith, hhere']
      dsimp only
      split at hwalk
      · rename_i hstay
        rw [if_pos hstay]
        exact ih hwalk
      rename_i hstay
      rw [if_neg hstay]
      split at hwalk
      · rename_i hup
        rw [if_pos hup]
        exact ih hwalk
      rename_i hup
      rw [if_neg hup]
      split at hwalk
      · cases hwalk
      rename_i hlong
      rw [if_neg hlong, ← Node.at?_child hhere']
      rw [← Node.at?_child hhere] at hwalk
      by_cases hplace : here ++ [name] = place
      · rw [hplace, Node.at?_put]
        rw [hplace] at hwalk
        split at hwalk
        · split at hwalk
          · rename_i hlast
            rw [hlast.2]
            rfl
          · cases hwalk
        · rename_i target htarget
          exact absurd htarget (hlink target)
        · exact ih hwalk
      · have halike := hsame _ hplace
        rcases hchild : tree.at? (here ++ [name]) with _ | _ | inside | target <;> rw [hchild] at halike hwalk
        · dsimp only at hwalk
          split at hwalk
          · exact absurd (Except.ok.inj hwalk) hplace
          · cases hwalk
        · rw [← (halike : some _ = _)]
          exact ih hwalk
        · obtain ⟨inside', hinside⟩ := halike
          rw [hinside]
          exact ih hwalk
        · rw [← (halike : some _ = _)]
          simp only [reduceCtorEq, false_and, if_false] at hwalk ⊢
          exact hfollow _ _ hwalk
    · cases hwalk

theorem walk_put {links : Nat} {here : Place} {names : List Text}
    (hwalk : walk tree .create links here names = .ok place) :
    walk (tree.put place (.file content)) .follow links here names = .ok place := by
  induction links generalizing here names with
  | zero => exact walkWith_put hroom hlink content (fun _ _ hfollow => by cases hfollow) hwalk
  | succ links ih => exact walkWith_put hroom hlink content (fun _ _ hfollow => ih hfollow) hwalk

end

/-- What was written to a path is what the path leads to. -/
theorem Disk.node_of_write {disk' : Disk} {path : Text} {content : Content}
    (hwrite : disk.write path content = .ok disk') : disk'.node path = .ok (.file content) := by
  rw [Disk.write] at hwrite
  split at hwrite
  · cases hwrite
  rename_i place hplace
  split at hwrite
  · cases hwrite
  rename_i hfree
  cases hwrite
  obtain ⟨hnul, hempty, hlong, hwalk⟩ := Disk.place_eq_ok_iff.mp hplace
  have hput : (disk.put place (.file content)).place .follow path = .ok place := by
    refine Disk.place_eq_ok_iff.mpr ⟨hnul, hempty, hlong, ?_⟩
    rcases isEnd_of_walk (Text.splitOn_ne_nil _ _) hwalk with ⟨entries, hdirectory⟩ | ⟨hroom, hlink⟩
    · exact absurd hdirectory (hfree entries)
    · exact walk_put hroom hlink content hwalk
  exact Disk.node_eq_ok.mpr ⟨place, hput, Node.at?_put _ _ _⟩

end Caret.Files
