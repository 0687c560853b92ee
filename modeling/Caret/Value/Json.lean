import Caret.Value.Basic

/-!
# JSON

Reading and writing values as JSON. The reader takes the strict grammar plus the words for the
infinities and for what is not a number; of a repeated key the last value counts. The writers escape
everything beyond printable ASCII, one on a single line and one indented with sorted keys.
-/

namespace Caret.Json

/-- JSON white space. -/
def isJsonSpace (c : Char) : Bool :=
  c == ' ' || c == '\t' || c == '\n' || c == '\r'

/-- Drops white space in front. -/
def skip (text : Text) : Text :=
  text.dropWhile isJsonSpace

/-- Takes a fixed text from the front. -/
def literal? (word : Text) (text : Text) : Option Text :=
  if word.isPrefixOf text then some (text.drop word.length) else none

/-- Four hexadecimal digits from the front. -/
def hex4? : Text → Option (Nat × Text)
  | a :: b :: c :: d :: rest =>
    if [a, b, c, d].all (fun x => (Text.hexDigit? x).isSome) then
      some (Text.hexValue [a, b, c, d], rest)
    else none
  | _ => none

/-- The character of one unit by itself. Half of a surrogate pair is none: what stands in its place
can be in a path where the half can, as one of the bytes beyond ASCII, and else is the null character,
which can be in none. -/
def single (n : Nat) : Char :=
  if 0xD800 ≤ n ∧ n ≤ 0xDFFF ∧ ¬ (0xDC80 ≤ n ∧ n ≤ 0xDCFF) then '\x00' else Text.charOfNat n

/-- The character of a `\u` escape whose first unit has been read. A leading surrogate joins with a
trailing one after it. -/
def unit (n : Nat) (rest : Text) : Char × Text :=
  if 0xD800 ≤ n ∧ n ≤ 0xDBFF then
    match rest with
    | '\\' :: 'u' :: more =>
      match hex4? more with
      | some (m, after) =>
        if 0xDC00 ≤ m ∧ m ≤ 0xDFFF then
          (Text.charOfNat (0x10000 + (n - 0xD800) * 0x400 + (m - 0xDC00)), after)
        else (single n, rest)
      | none => (single n, rest)
    | _ => (single n, rest)
  else (single n, rest)

/-- The character that a one letter escape stands for. -/
def shortEscape? (c : Char) : Option Char :=
  match c with
  | '"' => some '"'
  | '\\' => some '\\'
  | '/' => some '/'
  | 'b' => some '\x08'
  | 'f' => some '\x0c'
  | 'n' => some '\n'
  | 'r' => some '\r'
  | 't' => some '\t'
  | _ => none

/-- The rest of a string after its opening quote. -/
def string? : Nat → Text → Option (Text × Text)
  | 0, _ => none
  | _, [] => none
  | fuel + 1, c :: rest =>
    if c = '"' then some ([], rest)
    else if c = '\\' then
      match rest with
      | 'u' :: more =>
        match hex4? more with
        | some (n, after) =>
          let (char, after) := unit n after
          (string? fuel after).map fun (text, after) => (char :: text, after)
        | none => none
      | e :: after =>
        match shortEscape? e with
        | some char => (string? fuel after).map fun (text, after) => (char :: text, after)
        | none => none
      | [] => none
    else if c.toNat < 0x20 then none
    else (string? fuel rest).map fun (text, after) => (c :: text, after)

/-- ASCII digits at the front. -/
def digits (text : Text) : Text × Text :=
  (text.takeWhile (fun c => '0' ≤ c && c ≤ '9'), text.dropWhile (fun c => '0' ≤ c && c ≤ '9'))

/-- The number that ASCII digits write. -/
def digitsValue (ds : Text) : Nat :=
  Text.ofDigits (ds.map fun c => c.toNat - '0'.toNat)

/-- An exponent after its letter. -/
def exponent? (text : Text) : Option (Int × Text) :=
  let (negative, text) :=
    match text with
    | '-' :: rest => (true, rest)
    | '+' :: rest => (false, rest)
    | _ => (false, text)
  match digits text with
  | ([], _) => none
  | (ds, rest) => some (if negative then -(digitsValue ds : Int) else digitsValue ds, rest)

/-- The fraction of a number, if a point and a digit follow. -/
def fraction? : Text → Option (Text × Text)
  | '.' :: rest =>
    match digits rest with
    | ([], _) => none
    | (ds, after) => some (ds, after)
  | _ => none

/-- The exponent of a number, if its letter and a digit follow. -/
def exponentPart? : Text → Option (Int × Text)
  | c :: rest => if c = 'e' ∨ c = 'E' then exponent? rest else none
  | [] => none

/-- A number without its sign. A fraction or an exponent makes it a floating point number. -/
def unsigned? (negative : Bool) (text : Text) : Option (Value × Text) :=
  let whole? : Option (Text × Text) :=
    match text with
    | '0' :: rest => some (['0'], rest)
    | _ =>
      match digits text with
      | ([], _) => none
      | (ds, rest) => some (ds, rest)
  match whole? with
  | none => none
  | some (whole, rest) =>
    let fraction := fraction? rest
    let (decimals, rest) := fraction.getD ([], rest)
    let power := exponentPart? rest
    let (exponent, rest) := power.getD (0, rest)
    if fraction.isNone && power.isNone then
      if whole.length ≤ Text.maxDigits then
        let n : Int := digitsValue whole
        some (.int (if negative then -n else n), rest)
      else none
    else
      some (.real (.ofDecimal negative (digitsValue (whole ++ decimals))
        (exponent - decimals.length)), rest)

/-- A number, or one of the words for an infinity. -/
def number? : Text → Option (Value × Text)
  | '-' :: rest =>
    match literal? "Infinity".toList rest with
    | some after => some (.real (.infinite true), after)
    | none => unsigned? true rest
  | text => unsigned? false text

/-- One of the words of the grammar. -/
def word? (text : Text) : Option (Value × Text) :=
  let words : List (Text × Value) :=
    [("null".toList, .null), ("true".toList, .bool true), ("false".toList, .bool false),
     ("NaN".toList, .real .nan), ("Infinity".toList, .real (.infinite false))]
  words.findSome? fun (word, value) => (literal? word text).map (value, ·)

/-- The items of a list after its opening bracket, given a reader for one value. -/
def items? (value? : Text → Option (Value × Text)) : Nat → Text → Option (List Value × Text)
  | 0, _ => none
  | fuel + 1, text =>
    match value? (skip text) with
    | none => none
    | some (item, rest) =>
      match skip rest with
      | ',' :: rest => (items? value? fuel rest).map fun (items, rest) => (item :: items, rest)
      | ']' :: rest => some ([item], rest)
      | _ => none

/-- The members of an object after its opening brace, given a reader for one value. -/
def members? (value? : Text → Option (Value × Text)) : Nat → Text → Option (Members × Text)
  | 0, _ => none
  | fuel + 1, text =>
    match skip text with
    | '"' :: rest =>
      match string? (rest.length + 1) rest with
      | none => none
      | some (key, rest) =>
        match skip rest with
        | ':' :: rest =>
          match value? (skip rest) with
          | none => none
          | some (value, rest) =>
            match skip rest with
            | ',' :: rest =>
              (members? value? fuel rest).map fun (more, rest) => ((key, value) :: more, rest)
            | '}' :: rest => some ([(key, value)], rest)
            | _ => none
        | _ => none
    | _ => none

/-- A value at the front of a text, nested at most `depth` deep. -/
def value? : Nat → Text → Option (Value × Text)
  | 0, _ => none
  | depth + 1, text =>
    match text with
    | '"' :: rest =>
      (string? (rest.length + 1) rest).map fun (t, rest) => (.text t, rest)
    | '[' :: rest =>
      match skip rest with
      | ']' :: rest => some (.list [], rest)
      | rest =>
        (items? (value? depth) (rest.length + 1) rest).map fun (items, rest) => (.list items, rest)
    | '{' :: rest =>
      match skip rest with
      | '}' :: rest => some (.object [], rest)
      | rest =>
        (members? (value? depth) (rest.length + 1) rest).map fun (members, rest) =>
          (.object (Entries.insertAll [] members), rest)
    | _ => (word? text).or (number? text)

/-- Reads a text as one JSON value with white space around it. -/
def read? (text : Text) : Option Value :=
  match value? (text.length + 1) (skip text) with
  | some (value, rest) => if (skip rest).isEmpty then some value else none
  | none => none

/-- One UTF-16 unit as an escape. -/
def unitEscape (n : Nat) : Text :=
  '\\' :: 'u' :: Text.hexDigits 4 n

/-- A character inside a JSON string. -/
def writtenChar (c : Char) : Text :=
  match c with
  | '"' => ['\\', '"']
  | '\\' => ['\\', '\\']
  | '\n' => ['\\', 'n']
  | '\r' => ['\\', 'r']
  | '\t' => ['\\', 't']
  | '\x0c' => ['\\', 'f']
  | '\x08' => ['\\', 'b']
  | _ =>
    let n := c.toNat
    if 0x20 ≤ n ∧ n ≤ 0x7E then [c]
    else if n < 0x10000 then unitEscape n
    else
      unitEscape (0xD800 + (n - 0x10000) / 0x400) ++ unitEscape (0xDC00 + (n - 0x10000) % 0x400)

/-- A text as a JSON string. -/
def writtenText (t : Text) : Text :=
  '"' :: t.flatMap writtenChar ++ ['"']

/-- A floating point number in JSON. -/
def writtenReal : Binary64 → Text
  | .nan => "NaN".toList
  | .infinite negative => (if negative then "-Infinity" else "Infinity").toList
  | x => x.display

mutual

/-- A value on a single line. -/
def compact : Value → Text
  | .null => "null".toList
  | .bool b => (if b then "true" else "false").toList
  | .int i => Text.ofInt i
  | .real x => writtenReal x
  | .text t => writtenText t
  | .list items => '[' :: Text.join [','] (compactItems items) ++ [']']
  | .object members => '{' :: Text.join [','] (compactMembers members) ++ ['}']

/-- The items of a list on a single line. -/
def compactItems : List Value → List Text
  | [] => []
  | x :: xs => compact x :: compactItems xs

/-- The members of an object on a single line. -/
def compactMembers : List (Text × Value) → List Text
  | [] => []
  | (key, value) :: rest => (writtenText key ++ ':' :: compact value) :: compactMembers rest

end

/-- The start of a line at a depth of nesting. -/
def lineStart (depth : Nat) : Text :=
  '\n' :: List.replicate (2 * depth) ' '

/-- Parts on lines of their own between brackets; the brackets alone when there is none. -/
def block (opening closing : Char) (depth : Nat) (parts : List Text) : Text :=
  if parts.isEmpty then [opening, closing]
  else
    opening :: lineStart (depth + 1) ++ Text.join (',' :: lineStart (depth + 1)) parts ++
      lineStart depth ++ [closing]

mutual

/-- A value over several lines, two columns deeper for each level, keys in code point order. -/
def indented (depth : Nat) : Value → Text
  | .list items => block '[' ']' depth (indentedItems (depth + 1) items)
  | .object members =>
    block '{' '}' depth
      (((indentedMembers (depth + 1) members).mergeSort fun a b => Text.le a.1 b.1).map fun (key, value) =>
        writtenText key ++ ": ".toList ++ value)
  | .null => "null".toList
  | .bool b => (if b then "true" else "false").toList
  | .int i => Text.ofInt i
  | .real x => writtenReal x
  | .text t => writtenText t

/-- The items of a list, each over several lines. -/
def indentedItems (depth : Nat) : List Value → List Text
  | [] => []
  | x :: xs => indented depth x :: indentedItems depth xs

/-- The keys of an object with their written values. -/
def indentedMembers (depth : Nat) : List (Text × Value) → List (Text × Text)
  | [] => []
  | (key, value) :: rest => (key, indented depth value) :: indentedMembers depth rest

end

/-- A value as the content of a settings file. -/
def write (value : Value) : Text :=
  indented 0 value

end Caret.Json
