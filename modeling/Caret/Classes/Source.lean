import Caret.Classes.Discovery
import Caret.Completion.Candidate
import Caret.Imports.Request
import Caret.Line.Context

/-!
# Completing class names

Class names are completed in three places: behind `from`, where a whole import is offered for each
class whose qualified name holds what is typed; in the list of names that are imported from a
package; and wherever a capitalised name is typed, where the import comes along with the class. A
candidate never changes the line before the seed.
-/

namespace Caret.Classes

open Completion

/-- What a line asks of the classes. -/
inductive Place where
  /-- Behind `from`: a module path. -/
  | package (path : Text)
  /-- In the names imported from a package: the package, the line up to the name being typed, and
  that name as far as it is typed. -/
  | importedName (package head typed : Text)
  /-- Anywhere else: the line up to a capitalised name, and that name as far as it is typed. -/
  | simpleName (head typed : Text)
  deriving DecidableEq

/-- The characters after which a class name may start. -/
def isDelimiter (c : Char) : Bool :=
  Text.isBlank c || c == '(' || c == '[' || c == '{' || c == ',' || c == '='

/-- A line that is blanks, `from`, blanks and a module path. -/
def packagePlace? (line : Text) : Option Place :=
  let text := (Text.withoutFinalNewline line).dropWhile Text.isBlank
  (Line.keyword? "from" text).bind fun rest =>
  (Line.path? rest).bind fun (path, after) =>
  if after.isEmpty then some (.package path) else none

/-- A line that imports names from a package. Earlier names stay as they are typed; the last one is
completed. -/
def importedNamePlace? (line : Text) : Option Place :=
  let text := Text.withoutFinalNewline line
  (Line.keyword? "from" (text.dropWhile Text.isBlank)).bind fun rest =>
  let package := rest.takeWhile Line.isPathChar
  let rest := rest.dropWhile Line.isPathChar
  if package.isEmpty || !(rest.head?).any Text.isBlank then none
  else
    (Line.keyword? "import" (rest.dropWhile Text.isBlank)).bind fun names =>
    if names.all fun c => Line.isPathChar c || c == ',' || Text.isBlank c then
      let last := Text.takeEndWhile (· ≠ ',') names
      let typed := last.dropWhile Text.isSpace
      some (.importedName package (text.take (text.length - typed.length)) (Text.trim last))
    else none

/-- A line that ends in a capitalised name behind a delimiter, and that is no import. -/
def simpleNamePlace? (line : Text) : Option Place :=
  let text := Text.withoutFinalNewline line
  let typed := Text.takeEndWhile (fun c => !isDelimiter c) text
  let head := text.take (text.length - typed.length)
  let statement := line.dropWhile Text.isBlank
  let starts := (typed.head?).any fun c => ('A' ≤ c && c ≤ 'Z') || c == '_'
  let isImport := ["import", "from"].any fun word =>
    word.toList.isPrefixOf statement && ((statement.drop word.toList.length).head?).any Text.isBlank
  if starts && 2 ≤ typed.length && typed.all (fun c => Text.isNameStart c || Text.isAsciiDigit c) &&
      !head.contains '\n' && !isImport then
    some (.simpleName head typed)
  else none

/-- What a line asks of the classes: the first that fits. -/
def place? (line : Text) : Option Place :=
  (packagePlace? line).or ((importedNamePlace? line).or (simpleNamePlace? line))

/-- A line as a class would complete it, how the class is shown, and its qualified name if it has to
be imported. -/
structure Offer where
  line : Text
  display : Text
  qualified : Text

/-- What the classes offer at a place of a line. -/
def offers (discovery : Discovery) (indentation : Text) : Place → Except Fault (List Offer)
  | .package path =>
    (discovery.holding path).map fun found =>
      found.map fun name =>
        let statement := Imports.statementFor name
        ⟨indentation ++ statement, statement, []⟩
  | .importedName package head typed =>
    let found :=
      if typed.isEmpty then discovery.ofPackage package
      else
        (discovery.startingWith (package ++ '.' :: typed)).map fun found =>
          found.filter fun name => packageName name == package
    found.map fun found =>
      found.map fun name => ⟨head ++ simpleName name, simpleName name, []⟩
  | .simpleName head typed =>
    (discovery.simplyStartingWith typed).map fun found =>
      found.map fun name => ⟨head ++ simpleName name, simpleName name, name⟩

/-- The candidate for an offer, unless it would change the line before the seed. -/
def aligned (line seed : Text) (offer : Offer) : Option Candidate :=
  let kept := line.length - seed.length
  if Text.startsWith offer.line (line.take kept) then
    let replacement := offer.line.drop kept
    some (.shownAs replacement offer.display (Imports.statementFor offer.qualified)
      (Text.startsWith replacement seed) offer.qualified)
  else none

/-- The class candidates for a line. Until the classes are known there are none. -/
def candidates (discovery : Option Discovery) (line seed : Text) : Except Fault (List Candidate) :=
  match discovery with
  | none => .ok []
  | some discovery =>
    match discovery.isReady with
    | .error fault => .error fault
    | .ok false => .ok []
    | .ok true =>
      if !Text.endsWith line seed then .ok []
      else
        match place? line with
        | none => .ok []
        | some place =>
          (offers discovery (Text.indentation line) place).map fun offers =>
            offers.filterMap (aligned line seed)

end Caret.Classes
