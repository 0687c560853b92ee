import Caret.Script.Quotation

/-!
# Fields of a formatted string

A formatted string holds fields in braces: an expression, then perhaps an equals sign, a conversion
and a format, which may hold fields of its own one level down. A doubled brace stands for a brace.
Whether an expression is well formed is asked of a given test.
-/

namespace Caret.Script.Field

/-- How deep fields may be nested in formats. -/
def maxDepth : Nat := 2

/-- Whether a string is open inside a field's expression, and in which quotes. -/
inductive Quote where
  | outside
  | short (quote : Char)
  | long (quote : Char)

/-- The expression at the front of a field, up to the sign that ends it, which stays in the rest.
Backslashes and comments are not allowed, and brackets and quotes must be closed. -/
def expression? : Nat → Quote → List Char → Text → Option (Text × Text)
  | 0, _, _, _ => none
  | _, _, _, [] => none
  | fuel + 1, quote, due, c :: rest =>
    let keep (taken : Text) (result : Option (Text × Text)) : Option (Text × Text) :=
      result.map fun (text, rest) => (taken ++ text, rest)
    if c = '\\' then none
    else
      match quote with
      | .short q =>
        keep [c] (expression? fuel (if c = q then .outside else .short q) due rest)
      | .long q =>
        match rest with
        | d :: e :: more =>
          if c = q ∧ d = q ∧ e = q then keep [c, d, e] (expression? fuel .outside due more)
          else keep [c] (expression? fuel (.long q) due rest)
        | _ => keep [c] (expression? fuel (.long q) due rest)
      | .outside =>
        if c = '\'' ∨ c = '"' then
          match rest with
          | d :: e :: more =>
            if d = c ∧ e = c then keep [c, d, e] (expression? fuel (.long c) due more)
            else keep [c] (expression? fuel (.short c) due rest)
          | _ => keep [c] (expression? fuel (.short c) due rest)
        else if c = '(' then keep [c] (expression? fuel .outside (')' :: due) rest)
        else if c = '[' then keep [c] (expression? fuel .outside (']' :: due) rest)
        else if c = '{' then keep [c] (expression? fuel .outside ('}' :: due) rest)
        else if c = '#' then none
        else
          match due with
          | [] =>
            if c = '!' ∨ c = ':' ∨ c = '}' ∨ c = '=' ∨ c = '>' ∨ c = '<' then
              match rest with
              | '=' :: more =>
                if c = ':' ∨ c = '}' then some ([], c :: rest)
                else keep [c, '='] (expression? fuel .outside due more)
              | _ =>
                if c = '>' ∨ c = '<' then keep [c] (expression? fuel .outside due rest)
                else some ([], c :: rest)
            else if c = ')' ∨ c = ']' then none
            else keep [c] (expression? fuel .outside due rest)
          | closer :: others =>
            if c = ')' ∨ c = ']' ∨ c = '}' then
              if c = closer then keep [c] (expression? fuel .outside others rest) else none
            else keep [c] (expression? fuel .outside due rest)

/-- The blanks that a script ignores. -/
def isIgnored (c : Char) : Bool :=
  c == ' ' || c == '\t' || c == '\n' || c == '\x0c'

/-- An equals sign after an expression and the white space behind it. -/
def skipEquals : Text → Text
  | '=' :: rest => rest.dropWhile fun c => c == ' ' || (9 ≤ c.toNat && c.toNat ≤ 13)
  | text => text

/-- A conversion after an expression. -/
def skipConversion? : Text → Option Text
  | '!' :: c :: rest => if c = 's' ∨ c = 'r' ∨ c = 'a' then some rest else none
  | ['!'] => none
  | text => some text

/-- Checks a formatted string from a place between fields on, with the literal text since the last
field held back to front. At the outermost depth the whole string is checked and nothing is left;
in a format the rest from its closing brace on is left. -/
def check [CharacterNames] (quotation : Quotation) (wellFormed : Text → Bool) :
    Nat → Nat → Text → Text → Option Text
  | 0, _, _, _ => none
  | fuel + 1, depth, held, text =>
    let flushed := (quotation.part? held.reverse).isSome
    let go := check quotation wellFormed fuel depth
    match text with
    | [] => if flushed then some [] else none
    | c :: rest =>
      if c = '{' then
        match (if depth = 0 then rest else []) with
        | '{' :: more => if flushed then go [] more else none
        | _ =>
          if maxDepth ≤ depth ∨ !flushed then none
          else
            match expression? (rest.length + 1) .outside [] rest with
            | none => none
            | some (expression, after) =>
              if expression.all isIgnored || !wellFormed expression then none
              else
                match skipConversion? (skipEquals after) with
                | none => none
                | some after =>
                  let closed? := match after with
                    | ':' :: format => check quotation wellFormed fuel (depth + 1) [] format
                    | _ => some after
                  match closed? with
                  | some ('}' :: after) => go [] after
                  | _ => none
      else if c = '}' then
        if depth = 0 then
          match rest with
          | '}' :: more => if flushed then go [] more else none
          | _ => none
        else if flushed then some (c :: rest) else none
      else if c = '\\' ∧ !quotation.raw then
        match rest with
        | [] => go (c :: held) []
        | d :: more =>
          if d = 'N' then
            match more with
            | '{' :: name =>
              let closing := name.dropWhile (· ≠ '}')
              go ((c :: d :: '{' :: name.takeWhile (· ≠ '}') ++ closing.take 1).reverse ++ held)
                (closing.drop 1)
            | _ => none
          else if d = '{' ∨ d = '}' then go (c :: held) rest
          else go (d :: c :: held) more
      else go (c :: held) rest

/-- Whether a formatted string is well formed, given a test for the expressions in it. -/
def areWellFormed [CharacterNames] (quotation : Quotation) (wellFormed : Text → Bool) : Bool :=
  (check quotation wellFormed (2 * quotation.body.length + 2) 0 [] quotation.body).isSome

end Caret.Script.Field
