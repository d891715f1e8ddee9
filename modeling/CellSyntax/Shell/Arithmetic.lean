/-
**Arithmetic of the shell.**

Numbers have 64 bits and wrap around. The operators are those of C without `++` and `--`; a
variable counts as the number that its value is written as, and as zero if it has none.

* `Operator.apply_zero`: division by zero has no result.
-/

import CellSyntax.Shell.Number
import CellSyntax.Shell.Command

namespace CellSyntax.Shell

namespace Arithmetic

/-- An operator between two numbers. -/
inductive Operator where
  | multiply
  | divide
  | remainder
  | add
  | subtract
  | shiftLeft
  | shiftRight
  | less
  | lessEqual
  | greater
  | greaterEqual
  | equal
  | notEqual
  | bitAnd
  | bitXor
  | bitOr
deriving DecidableEq, Repr

namespace Operator

/-- How the operators are written. -/
def spellings : List (String × Operator) :=
  [("<<", shiftLeft), (">>", shiftRight), ("<=", lessEqual), (">=", greaterEqual), ("==", equal),
    ("!=", notEqual), ("*", multiply), ("/", divide), ("%", remainder), ("+", add),
    ("-", subtract), ("<", less), (">", greater), ("&", bitAnd), ("^", bitXor), ("|", bitOr)]

/-- How strongly an operator binds. -/
def strength : Operator → Nat
  | multiply => 10
  | divide => 10
  | remainder => 10
  | add => 9
  | subtract => 9
  | shiftLeft => 8
  | shiftRight => 8
  | less => 7
  | lessEqual => 7
  | greater => 7
  | greaterEqual => 7
  | equal => 6
  | notEqual => 6
  | bitAnd => 5
  | bitXor => 4
  | bitOr => 3

/-- Whether an operator can be put together with an assignment. -/
def assigns : Operator → Bool
  | less => false
  | lessEqual => false
  | greater => false
  | greaterEqual => false
  | equal => false
  | notEqual => false
  | _ => true

/-- One for what is true and zero for what is not. -/
def truth (holds : Bool) : Int := if holds then 1 else 0

/-- The bits of a number without a sign. -/
def bits (number : Int) : Nat := (number % 0x10000000000000000).toNat

/-- The result of an operator, unless something is divided by zero. -/
def apply (operator : Operator) (first second : Int) : Option Int :=
  match operator with
  | multiply => some (Number.wrap (first * second))
  | divide => if second = 0 then none else some (Number.wrap (first.tdiv second))
  | remainder => if second = 0 then none else some (Number.wrap (first.tmod second))
  | add => some (Number.wrap (first + second))
  | subtract => some (Number.wrap (first - second))
  | shiftLeft => some (Number.wrap ((bits first) <<< (bits second % 64) : Nat))
  | shiftRight => some (first >>> (bits second % 64))
  | less => some (truth (first < second))
  | lessEqual => some (truth (first ≤ second))
  | greater => some (truth (second < first))
  | greaterEqual => some (truth (second ≤ first))
  | equal => some (truth (first = second))
  | notEqual => some (truth (first ≠ second))
  | bitAnd => some (Number.wrap ((bits first) &&& (bits second) : Nat))
  | bitXor => some (Number.wrap ((bits first) ^^^ (bits second) : Nat))
  | bitOr => some (Number.wrap ((bits first) ||| (bits second) : Nat))

theorem apply_zero (number : Int) :
    divide.apply number 0 = none ∧ remainder.apply number 0 = none := ⟨rfl, rfl⟩

end Operator

/-! ### Tokens -/

/-- A part of an expression. -/
inductive Symbol where
  | number (value : Int)
  | name (name : List Char)
  | operator (operator : Operator)
  /-- An assignment, of the result of an operator if there is one. -/
  | assign (operator : Option Operator)
  | andAlso
  | orElse
  | not
  | bitNot
  | question
  | colon
  | leftParenthesis
  | rightParenthesis
  /-- A character that no part starts with. -/
  | unknown
deriving DecidableEq, Repr

/-- The operator at the front of a text, and what follows. -/
def operator? (text : List Char) : Option (Operator × List Char) :=
  Operator.spellings.findSome? fun (spelling, operator) =>
    if spelling.toList.isPrefixOf text then some (operator, text.drop spelling.length) else none

/-- The symbol of an operator or a bracket at the front of a text, and what follows. -/
def mark (text : List Char) : Symbol × List Char :=
  match text with
  | '&' :: '&' :: rest => (.andAlso, rest)
  | '|' :: '|' :: rest => (.orElse, rest)
  | '?' :: rest => (.question, rest)
  | ':' :: rest => (.colon, rest)
  | '(' :: rest => (.leftParenthesis, rest)
  | ')' :: rest => (.rightParenthesis, rest)
  | '~' :: rest => (.bitNot, rest)
  | text =>
    match operator? text with
    | some (operator, rest) =>
      match rest with
      | '=' :: after =>
        if operator.assigns then (.assign (some operator), after) else (.operator operator, rest)
      | _ => (.operator operator, rest)
    | none =>
      match text with
      | '!' :: rest => (.not, rest)
      | '=' :: rest => (.assign none, rest)
      | _ => (.unknown, [])

/-- The parts of an expression, at most `steps` of them. -/
def symbols : (steps : Nat) → List Char → List Symbol
  | 0, _ => []
  | steps + 1, text =>
    match text.dropWhile fun char => char = ' ' ∨ char = '\t' ∨ char = '\n' with
    | [] => []
    | char :: rest =>
      if Text.isDigit char then
        match Number.read? none (char :: rest) with
        | some (value, rest) =>
          .number (Number.clamp Number.least Number.greatest value) :: symbols steps rest
        | none => [.unknown]
      else if isNameStart char then
        .name ((char :: rest).takeWhile isNameChar) ::
          symbols steps ((char :: rest).dropWhile isNameChar)
      else
        let (symbol, rest) := mark (char :: rest)
        symbol :: symbols steps rest

/-! ### Expressions -/

/-- An expression. -/
inductive Expression where
  | number (value : Int)
  | variable (name : List Char)
  | minus (operand : Expression)
  | not (operand : Expression)
  | bitNot (operand : Expression)
  | binary (operator : Operator) (first second : Expression)
  | both (first second : Expression)
  | either (first second : Expression)
  | choice (test first second : Expression)
  | assign (name : List Char) (operator : Option Operator) (value : Expression)
  /-- Something is wrong with the text behind an expression. -/
  | broken (before : Expression) (message : String)
deriving Repr

/-- An expression and the symbols behind it. -/
abbrev Parsed := Expression × List Symbol

/-- What stands for a missing operand. -/
def noOperand : Parsed := (.broken (.number 0) "expecting primary", [])

mutual

/-- An operand with the signs in front of it. -/
def operand : (steps : Nat) → List Symbol → Parsed
  | 0, _ => noOperand
  | steps + 1, symbols =>
    match symbols with
    | .number value :: rest => (.number value, rest)
    | .name name :: rest => (.variable name, rest)
    | .leftParenthesis :: rest =>
      match expression steps rest with
      | (inner, .rightParenthesis :: rest) => (inner, rest)
      | (inner, _) => (.broken inner "expecting ')'", [])
    | .operator .add :: rest => operand steps rest
    | .operator .subtract :: rest => (operand steps rest).map .minus id
    | .not :: rest => (operand steps rest).map .not id
    | .bitNot :: rest => (operand steps rest).map .bitNot id
    | _ => noOperand

/-- The operators after a first operand that bind at least as strongly as `strength`. -/
def binaries : (steps : Nat) → (strength : Nat) → Expression → List Symbol → Parsed
  | 0, _, _, _ => noOperand
  | steps + 1, strength, first, symbols =>
    match symbols with
    | .operator operator :: later =>
      if operator.strength < strength then (first, symbols)
      else
        let (second, rest) := operand steps later
        let (second, rest) := binaries steps (operator.strength + 1) second rest
        binaries steps strength (.binary operator first second) rest
    | _ => (first, symbols)

/-- Comparisons of which all have to hold. -/
def conjunction : (steps : Nat) → List Symbol → Parsed
  | 0, _ => noOperand
  | steps + 1, symbols =>
    let (first, rest) := operand steps symbols
    match binaries steps 0 first rest with
    | (first, .andAlso :: rest) => (conjunction steps rest).map (.both first) id
    | found => found

/-- Conjunctions of which one has to hold. -/
def disjunction : (steps : Nat) → List Symbol → Parsed
  | 0, _ => noOperand
  | steps + 1, symbols =>
    match conjunction steps symbols with
    | (first, .orElse :: rest) => (disjunction steps rest).map (.either first) id
    | found => found

/-- A choice between two expressions. -/
def conditional : (steps : Nat) → List Symbol → Parsed
  | 0, _ => noOperand
  | steps + 1, symbols =>
    match disjunction steps symbols with
    | (test, .question :: rest) =>
      match expression steps rest with
      | (first, .colon :: rest) => (conditional steps rest).map (.choice test first) id
      | (first, _) => (.choice test (.broken first "expecting ':'") (.number 0), [])
    | found => found

/-- An expression at the front of some symbols. -/
def expression : (steps : Nat) → List Symbol → Parsed
  | 0, _ => noOperand
  | steps + 1, symbols =>
    match symbols with
    | .name name :: .assign operator :: rest =>
      (expression steps rest).map (.assign name operator) id
    | symbols => conditional steps symbols

end

/-- The expression that a whole text holds. -/
def parse (text : List Char) : Expression :=
  let symbols := symbols (text.length + 1) text
  match expression (16 * symbols.length + 16) symbols with
  | (found, []) => found
  | (found, _) => .broken found "expecting EOF"

/-! ### Values -/

/-- Why an expression has no value. -/
inductive Failure where
  | divisionByZero
  /-- The value of a variable is no number. -/
  | notNumber (text : List Char)
  | readOnly (name : List Char)
  /-- The text is no expression. -/
  | broken (message : String)
deriving DecidableEq, Repr

/-- The variables that an expression is about. -/
structure Variables (State : Type) where
  get : State → List Char → Option (List Char)
  set : State → List Char → List Char → Option State

/-- The number that the value of a variable is. -/
def toNumber (text : List Char) : Except Failure Int :=
  if text.all Number.isSpace then .ok 0
  else
    match Number.ofText? none text with
    | some number => .ok number
    | none => .error (.notNumber text)

/-- The result of an operator. -/
def Operator.result (operator : Operator) (first second : Int) : Except Failure Int :=
  match operator.apply first second with
  | some value => .ok value
  | none => .error .divisionByZero

/-- The value of an expression, and the state after its assignments. An expression that does not
count has neither, but it may be broken. -/
def Expression.evaluate {State : Type} (scope : Variables State) (counts : Bool)
    (state : State) : Expression → Except Failure (Int × State)
  | .number value => .ok (value, state)
  | .variable name => do
    if !counts then return (0, state)
    return (← toNumber ((scope.get state name).getD []), state)
  | .minus operand => do
    let (value, state) ← operand.evaluate scope counts state
    return (Number.wrap (-value), state)
  | .not operand => do
    let (value, state) ← operand.evaluate scope counts state
    return (Operator.truth (value = 0), state)
  | .bitNot operand => do
    let (value, state) ← operand.evaluate scope counts state
    return (-value - 1, state)
  | .binary operator first second => do
    let (left, state) ← first.evaluate scope counts state
    let (right, state) ← second.evaluate scope counts state
    if !counts then return (0, state)
    return (← operator.result left right, state)
  | .both first second => do
    let (left, state) ← first.evaluate scope counts state
    let (right, state) ← second.evaluate scope (counts && left != 0) state
    return (Operator.truth (left ≠ 0 ∧ right ≠ 0), state)
  | .either first second => do
    let (left, state) ← first.evaluate scope counts state
    let (right, state) ← second.evaluate scope (counts && left == 0) state
    return (Operator.truth (left ≠ 0 ∨ right ≠ 0), state)
  | .choice test first second => do
    let (value, state) ← test.evaluate scope counts state
    let (left, state) ← first.evaluate scope (counts && value != 0) state
    let (right, state) ← second.evaluate scope (counts && value == 0) state
    return (if value ≠ 0 then left else right, state)
  | .assign name operator value => do
    let (right, state) ← value.evaluate scope counts state
    if !counts then return (0, state)
    let result ←
      match operator with
      | none => pure right
      | some operator =>
        operator.result (← toNumber ((scope.get state name).getD [])) right
    match scope.set state name (decimal result) with
    | some state => return (result, state)
    | none => throw (.readOnly name)
  | .broken before message => do
    let _ ← before.evaluate scope counts state
    throw (.broken message)

end Arithmetic

end CellSyntax.Shell
