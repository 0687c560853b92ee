import Caret.Proofs.Completion.Assembly

/-!
# What the classes offer

The completed lines that class names give, in terms of what the discovery answered. A class candidate
is only made if its completed line starts with what stands before the seed, so it leads there by
construction; what remains to be said is how each of the three places divides the line.
-/

namespace Caret.Classes

open Completion

/-! ### The places of a line -/

section

variable {line : Text} {place : Place} (hfree : '\n' ∉ line)

theorem packagePlace?_eq_some (hplace : packagePlace? line = some place) :
    ∃ path, place = .package path := by
  rw [packagePlace?] at hplace
  obtain ⟨rest, _, hrest⟩ := Option.bind_eq_some_iff.mp hplace
  obtain ⟨⟨path, after⟩, _, hafter⟩ := Option.bind_eq_some_iff.mp hrest
  dsimp only at hafter
  split at hafter
  · exact ⟨path, (Option.some.inj hafter).symm⟩
  · exact absurd hafter (by simp)

include hfree in
/-- The line is divided before the name being typed, white space in front of it left out. -/
theorem importedNamePlace?_eq_some (hplace : importedNamePlace? line = some place) :
    ∃ package head rest, place = .importedName package head (Text.trimEnd rest) ∧
      line = head ++ rest := by
  simp only [importedNamePlace?, Text.withoutFinalNewline_of_not_mem hfree] at hplace
  obtain ⟨rest, hfrom, hrest⟩ := Option.bind_eq_some_iff.mp hplace
  split at hrest
  · exact absurd hrest (by simp)
  · obtain ⟨names, himport, hnames⟩ := Option.bind_eq_some_iff.mp hrest
    split at hnames
    · have hsuffix : (Text.takeEndWhile (· ≠ ',') names).dropWhile Text.isSpace <:+ line :=
        calc (Text.takeEndWhile (· ≠ ',') names).dropWhile Text.isSpace
            <:+ names := (List.dropWhile_suffix _).trans (Text.takeEndWhile_suffix _ _)
          _ <:+ rest := (Line.keyword?_suffix himport).trans
              ((List.dropWhile_suffix _).trans (List.dropWhile_suffix _))
          _ <:+ line := (Line.keyword?_suffix hfrom).trans (List.dropWhile_suffix _)
      exact ⟨_, _, _, (Option.some.inj hnames).symm, (Text.take_append_of_suffix hsuffix).symm⟩
    · exact absurd hnames (by simp)

include hfree in
theorem simpleNamePlace?_eq_some (hplace : simpleNamePlace? line = some place) :
    ∃ head typed, place = .simpleName head typed ∧ line = head ++ typed := by
  simp only [simpleNamePlace?, Text.withoutFinalNewline_of_not_mem hfree] at hplace
  split at hplace
  · exact ⟨_, _, (Option.some.inj hplace).symm,
      (Text.take_append_of_suffix (Text.takeEndWhile_suffix _ _)).symm⟩
  · exact absurd hplace (by simp)

theorem place?_cases (hplace : place? line = some place) :
    packagePlace? line = some place ∨ importedNamePlace? line = some place ∨
      simpleNamePlace? line = some place := by
  rw [place?] at hplace
  rcases Option.or_eq_some_iff.mp hplace with hpackage | ⟨_, hplace⟩
  · exact .inl hpackage
  rcases Option.or_eq_some_iff.mp hplace with himported | ⟨_, hsimple⟩
  · exact .inr (.inl himported)
  · exact .inr (.inr hsimple)

end

/-! ### Completed lines -/

/-- The completed lines that a discovery gives for a line. -/
inductive ClassLine (discovery : Discovery) (line : Text) : Text → Prop
  /-- Behind `from`, the import of a class. -/
  | statement {path qualified : Text} {found : List Text}
      (hplace : place? line = some (.package path)) (hfound : discovery.holding path = .ok found)
      (hqualified : qualified ∈ found) :
      ClassLine discovery line (Text.indentation line ++ Imports.statementFor qualified)
  /-- In the names imported from a package, a class of it in place of the last name. -/
  | packageName {package head rest qualified : Text} {found : List Text}
      (hplace : place? line = some (.importedName package head []))
      (hline : line = head ++ rest) (hrest : Text.trimEnd rest = [])
      (hfound : discovery.ofPackage package = .ok found) (hqualified : qualified ∈ found) :
      ClassLine discovery line (head ++ simpleName qualified)
  | importedName {package head rest qualified : Text} {found : List Text}
      (hplace : place? line = some (.importedName package head (Text.trimEnd rest)))
      (hline : line = head ++ rest) (hrest : Text.trimEnd rest ≠ [])
      (hfound : discovery.startingWith (package ++ '.' :: Text.trimEnd rest) = .ok found)
      (hqualified : qualified ∈ found) (hpackage : Classes.packageName qualified = package) :
      ClassLine discovery line (head ++ simpleName qualified)
  /-- Anywhere else, a class in place of the capitalised name. -/
  | simpleName {head typed qualified : Text} {found : List Text}
      (hplace : place? line = some (.simpleName head typed)) (hline : line = head ++ typed)
      (hfound : discovery.simplyStartingWith typed = .ok found) (hqualified : qualified ∈ found) :
      ClassLine discovery line (head ++ Classes.simpleName qualified)

theorem map_eq_ok {α β : Type} {answer : Except Fault α} {f : α → β} {b : β}
    (hmap : answer.map f = .ok b) : ∃ a, answer = .ok a ∧ f a = b := by
  cases answer with
  | error fault => cases hmap
  | ok a => exact ⟨a, rfl, Except.ok.inj hmap⟩

theorem leadsTo_of_aligned {line seed : Text} {offer : Offer} {candidate : Candidate}
    (haligned : aligned line seed offer = some candidate) :
    LeadsTo line seed candidate offer.line := by
  simp only [aligned] at haligned
  split at haligned
  · rename_i hkept
    obtain rfl := Option.some.inj haligned
    have hlength : (line.take (line.length - seed.length)).length = line.length - seed.length := by
      rw [List.length_take]
      omega
    have happend := Text.append_drop_of_prefix (Text.startsWith_iff.mp hkept)
    rw [hlength] at happend
    exact ⟨happend, rfl⟩
  · exact absurd haligned (by simp)

theorem classLine_of_mem_offers {discovery : Discovery} {line : Text} {place : Place}
    {found : List Offer} (hfree : '\n' ∉ line) (hplace : place? line = some place)
    (hoffers : offers discovery (Text.indentation line) place = .ok found) {offer : Offer}
    (hoffer : offer ∈ found) : ClassLine discovery line offer.line := by
  cases place with
  | package path =>
    obtain ⟨names, hnames, rfl⟩ := map_eq_ok hoffers
    obtain ⟨qualified, hqualified, rfl⟩ := List.mem_map.mp hoffer
    exact .statement hplace hnames hqualified
  | importedName package head typed =>
    obtain ⟨rest, rfl, hline⟩ : ∃ rest, typed = Text.trimEnd rest ∧ line = head ++ rest := by
      rcases place?_cases hplace with h | h | h
      · obtain ⟨_, heq⟩ := packagePlace?_eq_some h
        cases heq
      · obtain ⟨_, _, rest, heq, hline⟩ := importedNamePlace?_eq_some hfree h
        obtain ⟨rfl, rfl, rfl⟩ := Place.importedName.inj heq
        exact ⟨rest, rfl, hline⟩
      · obtain ⟨_, _, heq, _⟩ := simpleNamePlace?_eq_some hfree h
        cases heq
    obtain ⟨names, hnames, rfl⟩ := map_eq_ok hoffers
    obtain ⟨qualified, hqualified, rfl⟩ := List.mem_map.mp hoffer
    by_cases hempty : Text.trimEnd rest = []
    · rw [hempty] at hplace hnames
      exact .packageName hplace hline hempty hnames hqualified
    · rw [if_neg (by rwa [List.isEmpty_iff])] at hnames
      obtain ⟨started, hstarted, rfl⟩ := map_eq_ok hnames
      obtain ⟨hqualified, hpackage⟩ := List.mem_filter.mp hqualified
      exact .importedName hplace hline hempty hstarted hqualified (beq_iff_eq.mp hpackage)
  | simpleName head typed =>
    have hline : line = head ++ typed := by
      rcases place?_cases hplace with h | h | h
      · obtain ⟨_, heq⟩ := packagePlace?_eq_some h
        cases heq
      · obtain ⟨_, _, _, heq, _⟩ := importedNamePlace?_eq_some hfree h
        cases heq
      · obtain ⟨_, _, heq, hline⟩ := simpleNamePlace?_eq_some hfree h
        obtain ⟨rfl, rfl⟩ := Place.simpleName.inj heq
        exact hline
    obtain ⟨names, hnames, rfl⟩ := map_eq_ok hoffers
    obtain ⟨qualified, hqualified, rfl⟩ := List.mem_map.mp hoffer
    exact .simpleName hplace hline hnames hqualified

/-- Every class candidate for a line is made of an offer at the line's place. -/
theorem exists_offer_of_mem_candidates {discovery? : Option Discovery} {line seed : Text}
    {found : List Candidate} (hfound : candidates discovery? line seed = .ok found)
    {candidate : Candidate} (hcandidate : candidate ∈ found) :
    ∃ discovery place offered offer, discovery? = some discovery ∧
      Text.endsWith line seed = true ∧ place? line = some place ∧
      offers discovery (Text.indentation line) place = .ok offered ∧ offer ∈ offered ∧
      aligned line seed offer = some candidate := by
  cases discovery? with
  | none =>
    cases hfound
    exact absurd hcandidate List.not_mem_nil
  | some discovery =>
    simp only [candidates] at hfound
    split at hfound
    · cases hfound
    · cases hfound
      exact absurd hcandidate List.not_mem_nil
    · split at hfound
      · cases hfound
        exact absurd hcandidate List.not_mem_nil
      · rename_i hends
        split at hfound
        · cases hfound
          exact absurd hcandidate List.not_mem_nil
        · rename_i place hplace
          obtain ⟨offered, hoffered, rfl⟩ := map_eq_ok hfound
          obtain ⟨offer, hoffer, haligned⟩ := List.mem_filterMap.mp hcandidate
          exact ⟨discovery, place, offered, offer, rfl, by simpa using hends, hplace, hoffered, hoffer,
            haligned⟩

/-- Every class candidate for a line leads to a completed line of the discovery. -/
theorem exists_classLine_of_mem_candidates {discovery? : Option Discovery} {line seed : Text}
    {found : List Candidate} (hfree : '\n' ∉ line)
    (hfound : candidates discovery? line seed = .ok found) {candidate : Candidate}
    (hcandidate : candidate ∈ found) :
    ∃ discovery completed, discovery? = some discovery ∧ ClassLine discovery line completed ∧
      LeadsTo line seed candidate completed := by
  obtain ⟨discovery, place, offered, offer, hdiscovery, -, hplace, hoffered, hoffer, haligned⟩ :=
    exists_offer_of_mem_candidates hfound hcandidate
  exact ⟨discovery, offer.line, hdiscovery, classLine_of_mem_offers hfree hplace hoffered hoffer,
    leadsTo_of_aligned haligned⟩

end Caret.Classes
