import Caret.Script.Field
import Caret.Script.Lexer
import Caret.Script.Parser.Basic

/-!
# Expressions from tokens

The expression grammar, from the loosest level to the tightest. Each level is a parser of its own
that is given the parser `expr` for expressions nested in it; `expression` ties the knot. A nested
expression stands behind at least one token that has been taken, so the number of tokens bounds both
the nesting and the length of every loop.
-/

namespace Caret.Script.Parser

section

variable (n : Nat) (expr : Parser Expr)

/-- A primary expression, perhaps awaited. -/
def awaited (primary : Parser Expr) : Parser Expr := do
  if ← accept (kw "await") then
    let _ ← primary
    return .computed
  else primary

/-- Operands with left associative symbols between them. -/
def chain (symbols : List String) (operand : Parser Expr) : Parser Expr := do
  let first ← operand
  let rest ← many (do
    match ← peek with
    | some (.symbol s) =>
      if symbols.any (·.toList == s) then
        let _ ← take
        return some (s, ← operand)
      else return none
    | _ => return none) n
  return rest.foldl (fun left (s, right) => .binary s left right) first

/-- A primary expression, perhaps raised to a power. -/
def power (primary exponent : Parser Expr) : Parser Expr := do
  let base ← primary
  if ← accept (sym "**") then
    return .binary "**".toList base (← exponent)
  else return base

/-- Signs in front of an operand, and a power whose exponent may have signs again. -/
def factor (primary : Parser Expr) : Nat → Parser Expr
  | 0 => fail
  | n + 1 => do
    match ← peek with
    | some (.symbol s) =>
      if ["+", "-", "~"].any (·.toList == s) then
        let _ ← take
        return .unary s (← factor primary n)
      else power primary (factor primary n)
    | _ => power primary (factor primary n)

/-- The arithmetic and bitwise levels. -/
def bitwise (primary : Parser Expr) : Parser Expr :=
  let term := chain n ["*", "/", "//", "%", "@"] (factor (awaited primary) n)
  let sum := chain n ["+", "-"] term
  let shift := chain n ["<<", ">>"] sum
  chain n ["|"] (chain n ["^"] (chain n ["&"] shift))

/-- Takes a comparison sign if one comes next. -/
def comparisonSign : Parser Bool := do
  match ← peek with
  | some (.symbol s) =>
    if ["==", "!=", "<=", "<", ">=", ">"].any (·.toList == s) then
      let _ ← take
      return true
    else return false
  | some (.keyword word) =>
    if word = "in".toList then
      let _ ← take
      return true
    else if word = "is".toList then
      let _ ← take
      let _ ← accept (kw "not")
      return true
    else if word = "not".toList ∧ (← peekSecond) = some (kw "in") then
      let _ ← take
      let _ ← take
      return true
    else return false
  | _ => return false

/-- Operands with comparison signs between them. -/
def comparison (operand : Parser Expr) : Parser Expr := do
  let first ← operand
  let rest ← many (do
    if ← comparisonSign then return some (← operand) else return none) n
  return if rest.isEmpty then first else .computed

/-- A comparison with any number of negations in front. -/
def inversion (operand : Parser Expr) : Parser Expr := do
  let nots ← many (do
    if ← accept (kw "not") then return some () else return none) n
  let e ← comparison n operand
  return if nots.isEmpty then e else .computed

/-- Operands with a keyword between them. -/
def junction (word : String) (operand : Parser Expr) : Parser Expr := do
  match ← sepBy operand (kw word) n with
  | [e] => return e
  | _ => return .computed

/-- The logical levels below a conditional expression. -/
def disjunction (primary : Parser Expr) : Parser Expr :=
  junction n "or" (junction n "and" (inversion n (bitwise n primary)))

/-- Whether a name and then a given symbol come next. -/
def isNameBefore (symbol : String) : Parser Bool := do
  match ← peek, ← peekSecond with
  | some (.name _), some (.symbol s) => return s == symbol.toList
  | _, _ => return false

/-- An assignment inside an expression, or an expression. -/
def named : Parser Expr := do
  if ← isNameBefore ":=" then
    let _ ← take
    let _ ← take
    let _ ← expr
    return .computed
  else expr

/-- A starred operand, or an expression. -/
def starOr (operand other : Parser Expr) : Parser Expr := do
  if ← accept (sym "*") then return .starred (← operand) else other

/-- Expressions with commas between them: one by itself, or a tuple. -/
def tupleOf (item : Parser Expr) : Parser Expr := do
  match ← commaList item n with
  | ([e], false) => return e
  | ([], _) => fail
  | (items, _) => return .tuple items

/-- Whether an expression is starred. -/
def isStarred : Expr → Bool
  | .starred _ => true
  | _ => false

/-- A target of a loop or of a context manager. -/
def target (primary : Parser Expr) : Parser Expr := do
  let e ← starOr primary primary
  if e.isTarget then return e else fail

/-- The targets of a loop. -/
def targets (primary : Parser Expr) : Parser Expr :=
  tupleOf n (target primary)

/-- One clause of a comprehension: a loop and its conditions. -/
def clause (primary : Parser Expr) : Parser (Option Unit) := do
  let asynchronous ← accept (kw "async")
  if ← accept (kw "for") then
    let _ ← targets n primary
    expect (kw "in")
    let operand := disjunction n primary
    let _ ← operand
    let _ ← many (do
      if ← accept (kw "if") then return some (← operand) else return none) n
    return some ()
  else if asynchronous then fail
  else return none

/-- Whether a comprehension's clauses come next. -/
def isClauseNext : Parser Bool := do
  return (← isNext (kw "for")) || (← isNext (kw "async"))

/-- The clauses of a comprehension. -/
def clauses (primary : Parser Expr) : Parser Unit := do
  if ← isClauseNext then
    let _ ← many (clause n primary) n
  else fail

/-- How far the arguments of a call have come: by position, by name, or by mapping. -/
inductive Stage where
  | position
  | byName
  | mapping

/-- One argument of a call, allowed at a stage, and the stage after it. -/
def argument (stage : Stage) : Parser Stage := do
  if ← accept (sym "**") then
    let _ ← expr
    return .mapping
  else if ← accept (sym "*") then
    let _ ← expr
    match stage with
    | .mapping => fail
    | _ => return stage
  else if ← isNameBefore "=" then
    let _ ← take
    let _ ← take
    let _ ← expr
    match stage with
    | .mapping => return .mapping
    | _ => return .byName
  else
    match stage with
    | .position =>
      let _ ← named expr
      return .position
    | _ => fail

/-- The arguments of a call after those before a comma, up to the closing parenthesis. -/
def moreArguments : Nat → Stage → Parser Unit
  | 0, _ => fail
  | n + 1, stage => do
    if ← accept (sym ")") then return ()
    else
      let stage ← argument expr stage
      if ← accept (sym ",") then moreArguments n stage else expect (sym ")")

/-- The arguments of a call up to the closing parenthesis. A comprehension may be the only one. -/
def arguments (comprehension : Bool) (primary : Parser Expr) : Parser Unit := do
  if ← accept (sym ")") then return ()
  else
    let byPosition := !((← isNext (sym "*")) || (← isNext (sym "**")) || (← isNameBefore "="))
    let stage ← argument expr .position
    if ← accept (sym ",") then moreArguments expr n stage
    else if comprehension && byPosition && (← isClauseNext) then
      clauses n primary
      expect (sym ")")
    else expect (sym ")")

/-- Whether the next token ends a part of a slice. -/
def isSliceEnd : Parser Bool := do
  return (← isNext (sym ":")) || (← isNext (sym ",")) || (← isNext (sym "]"))

/-- A part of a slice that may be left out. -/
def slicePart : Parser Unit := do
  if ← isSliceEnd then return ()
  else
    let _ ← expr

/-- A slice after its first colon. -/
def sliceRest : Parser Unit := do
  slicePart expr
  if ← accept (sym ":") then slicePart expr

/-- An index or a slice. -/
def slice : Parser Unit := do
  if ← accept (sym "*") then
    let _ ← expr
  else if ← accept (sym ":") then sliceRest expr
  else
    let assigned ← isNameBefore ":="
    let _ ← named expr
    if ← acceptIf (!assigned) (sym ":") then sliceRest expr

/-- The rest of a primary expression: attributes, calls and subscripts. -/
def trailer (primary : Parser Expr) : Nat → Expr → Parser Expr
  | 0, _ => fail
  | k + 1, e => do
    if ← accept (sym ".") then
      let member ← name
      trailer primary k (.attribute e member)
    else if ← accept (sym "(") then
      let bare ← isNext (sym ")")
      arguments n expr true primary
      trailer primary k (.call e bare)
    else if ← accept (sym "[") then
      match ← commaList (slice expr) n with
      | ([], _) => fail
      | _ =>
        expect (sym "]")
        trailer primary k (.subscript e)
    else return e

/-- Yields from inside an expression. -/
def yielded (primary : Parser Expr) : Parser Expr := do
  expect (kw "yield")
  if ← accept (kw "from") then
    let _ ← expr
    return .computed
  else
    let _ ← optional (tupleOf n (starOr (bitwise n primary) expr))
    return .computed

/-- A parenthesis after its opening: a tuple, a group, or a comprehension. -/
def parenthesis (primary : Parser Expr) : Parser Expr := do
  if ← accept (sym ")") then return .tuple []
  else if ← isNext (kw "yield") then
    let e ← yielded n expr primary
    expect (sym ")")
    return e
  else
    let first ← starOr (bitwise n primary) (named expr)
    if ← isClauseNext then
      if isStarred first then fail
      else
        clauses n primary
        expect (sym ")")
        return .computed
    else if ← accept (sym ",") then
      let (items, _) ← commaList (starOr (bitwise n primary) (named expr)) n
      expect (sym ")")
      return .tuple (first :: items)
    else if isStarred first then fail
    else
      expect (sym ")")
      return first

/-- A list after its opening bracket. -/
def bracket (primary : Parser Expr) : Parser Expr := do
  let (items, ended) ← commaList (starOr (bitwise n primary) (named expr)) n
  if ← isClauseNext then
    match items, ended with
    | [item], false =>
      if isStarred item then fail
      else
        clauses n primary
        expect (sym "]")
        return .computed
    | _, _ => fail
  else
    expect (sym "]")
    return .list items

/-- A key with its value, or a mapping to take over, which has no key of its own. -/
def entry (primary : Parser Expr) : Parser (Expr × Expr) := do
  if ← accept (sym "**") then return (.computed, ← bitwise n primary)
  else
    let key ← expr
    expect (sym ":")
    return (key, ← expr)

/-- The entries of a dictionary after the first, which has been read, and the closing brace. -/
def entries (primary : Parser Expr) (first : Expr × Expr) : Parser Expr := do
  if ← accept (sym ",") then
    let (more, _) ← commaList (entry n expr primary) n
    expect (sym "\x7d")
    return .dict (first.1 :: more.map (·.1)) (first.2 :: more.map (·.2))
  else
    expect (sym "\x7d")
    return .dict [first.1] [first.2]

/-- A dictionary or a set after its opening brace. -/
def brace (primary : Parser Expr) : Parser Expr := do
  if ← accept (sym "\x7d") then return .dict [] []
  else if ← isNext (sym "**") then entries n expr primary (← entry n expr primary)
  else
    let assigned ← isNameBefore ":="
    let first ← starOr (bitwise n primary) (named expr)
    let single := !isStarred first
    if ← acceptIf (single && !assigned) (sym ":") then
      let value ← expr
      if ← isClauseNext then
        clauses n primary
        expect (sym "\x7d")
        return .computed
      else entries n expr primary (first, value)
    else if single && (← isClauseNext) then
      clauses n primary
      expect (sym "\x7d")
      return .computed
    else if ← accept (sym ",") then
      let (items, _) ← commaList (starOr (bitwise n primary) (named expr)) n
      expect (sym "\x7d")
      return .set (first :: items)
    else
      expect (sym "\x7d")
      return .set [first]

/-- Whether the expression of a field is well formed: in parentheses it is an expression. -/
def isFieldExpression (primary : Parser Expr) (text : Text) : Bool :=
  match Lexer.tokens? ('(' :: text ++ [')']) with
  | none => false
  | some tokens =>
    match tupleOf n (starOr (bitwise n primary) expr) tokens with
    | some (_, rest) => rest.all (·.lexeme == .newline)
    | none => false

/-- Takes a string. -/
def quotation : Parser (Option Quotation) := do
  match ← peek with
  | some (.string q) =>
    let _ ← take
    return some q
  | _ => return none

/-- Strings in a row are one string. Byte strings and others do not mix. -/
def strings [CharacterNames] (primary : Parser Expr) : Parser Expr := do
  let parts ← many quotation n
  if parts.isEmpty then fail
  else if parts.any (·.bytes) then
    match parts.mapM (·.value?) with
    | some values => if parts.all (·.bytes) then return .bytes values.flatten else fail
    | none => fail
  else if parts.any (·.formatted) then
    if parts.all (fun q =>
        if q.formatted then Field.areWellFormed q (isFieldExpression n expr primary)
        else q.value?.isSome) then
      return .computed
    else fail
  else
    match parts.mapM (·.value?) with
    | some values => return .text values.flatten
    | none => fail

/-- The tightest expressions: names, literals and what stands in brackets. -/
def atom [CharacterNames] (primary : Parser Expr) : Parser Expr := do
  match ← peek with
  | some (.name _) => return .name (← name)
  | some (.number value) =>
    let _ ← take
    return .number value
  | some (.string _) => strings n expr primary
  | some (.keyword word) =>
    let _ ← take
    if word = "None".toList then return .none
    else if word = "True".toList then return .bool true
    else if word = "False".toList then return .bool false
    else fail
  | some (.symbol s) =>
    let _ ← take
    if s = "(".toList then parenthesis n expr primary
    else if s = "[".toList then bracket n expr primary
    else if s = "\x7b".toList then brace n expr primary
    else if s = "...".toList then return .ellipsis
    else fail
  | _ => fail

/-- How far the parameters of a function have come. -/
inductive Place where
  /-- Before a star; says whether any parameter came, whether one had a default, and whether the
  mark for parameters by position came. -/
  | positional (any defaulted slashed : Bool)
  /-- After a star; says whether a parameter is still owed. -/
  | afterStar (owed : Bool)
  /-- After the parameter that takes all names. -/
  | last

/-- The annotation of a parameter, where annotations are allowed. -/
def annotation (annotated : Bool) (value : Parser Expr) : Parser Unit := do
  if annotated then
    if ← accept (sym ":") then
      let _ ← value

/-- The parameters of a function up to the lexeme that closes them, which is left. -/
def parameters (annotated : Bool) (closing : Lexeme) (primary : Parser Expr) :
    Nat → Place → Parser Unit
  | 0, _ => fail
  | k + 1, place => do
    if ← isNext closing then
      match place with
      | .afterStar true => fail
      | _ => return ()
    else
      let next ← parameter place
      if ← accept (sym ",") then parameters annotated closing primary k next
      else if ← isNext closing then
        match next with
        | .afterStar true => fail
        | _ => return ()
      else fail
where
  /-- One parameter or mark, and the place after it. -/
  parameter (place : Place) : Parser Place := do
    if ← accept (sym "/") then
      match place with
      | .positional true defaulted false => return .positional true defaulted true
      | _ => fail
    else if ← accept (sym "**") then
      match place with
      | .afterStar true | .last => fail
      | _ =>
        let _ ← name
        annotation annotated expr
        return .last
    else if ← accept (sym "*") then
      match place with
      | .positional .. =>
        if ← isNext (sym ",") then return .afterStar true
        else
          let _ ← name
          annotation annotated (starOr (bitwise n primary) expr)
          return .afterStar false
      | _ => fail
    else
      let _ ← name
      annotation annotated expr
      let defaulted ← accept (sym "=")
      if defaulted then
        let _ ← expr
      match place with
      | .positional _ before slashed =>
        if before && !defaulted then fail else return .positional true defaulted slashed
      | .afterStar _ => return .afterStar false
      | .last => fail

/-- A function without a name. -/
def lambda (primary : Parser Expr) : Parser Expr := do
  expect (kw "lambda")
  parameters n expr false (sym ":") primary n (.positional false false false)
  expect (sym ":")
  let _ ← expr
  return .computed

/-- A conditional expression or a function without a name. -/
def conditional (primary : Parser Expr) : Parser Expr := do
  if ← isNext (kw "lambda") then lambda n expr primary
  else
    let operand := disjunction n primary
    let first ← operand
    let condition ← optional (do
      expect (kw "if")
      let _ ← operand
      expect (kw "else")
      let _ ← expr)
    return if condition.isSome then .computed else first

end

/-- The two levels at which expressions nest. -/
inductive Level where
  | primary
  | expression

variable [CharacterNames]

/-- Expressions of a level, nested to a depth. -/
def grammar (n : Nat) : Nat → Level → List Token → Option (Expr × List Token)
  | 0, _, _ => none
  | depth + 1, level, tokens =>
    let expr : Parser Expr := grammar n depth .expression
    let primary : Parser Expr := grammar n depth .primary
    match level with
    | .primary => (do trailer n expr primary n (← atom n expr primary)) tokens
    | .expression =>
      let here : Parser Expr := do trailer n expr primary n (← atom n expr primary)
      conditional n expr here tokens

/-- An expression. -/
def expression (n : Nat) : Parser Expr :=
  grammar n n .expression

/-- A primary expression. -/
def primary (n : Nat) : Parser Expr :=
  grammar n n .primary

/-- Expressions, perhaps starred, with commas between them: one by itself, or a tuple. -/
def expressions (n : Nat) : Parser Expr :=
  tupleOf n (starOr (bitwise n (primary n)) (expression n))

end Caret.Script.Parser
