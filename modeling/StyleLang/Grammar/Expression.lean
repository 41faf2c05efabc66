import StyleLang.Grammar
import StyleLang.Grammar.Parse
import StyleLang.Text.Split
import StyleLang.Tree

/-!
# Reading expressions

An expression is a row of operands joined by operators. `Grammar.expr` takes an operand and then,
as long as the next operator binds more strongly than the given power, joins what it has read so
far with the operand on the other side, in which it has first joined all that binds more strongly
still. So operators of one power group to the left.
-/

namespace StyleLang

/-- The number a text stands for, where the suffix of its measure may stand any number of times. -/
def Number.ofText? (measure : Measure) (text : String) : Option Number :=
  (Decimal.read? (Split.stripEnd measure.suffix.toList text.toList)).bind Number.ofInt?

/-- The expression a single token stands for. -/
def Token.operand (token : Token) : Except Diagnostic Expr :=
  match token.kind with
  | .number measure =>
    match Number.ofText? measure token.text with
    | some value => .ok (.literal (.clean token.span) (.number measure value))
    | none => .error ⟨.invalidNumber token.text, token.span.start⟩
  | .color => .ok (.literal (.clean token.span) (.color token.text))
  | .word (.boolean value) => .ok (.literal (.clean token.span) (.boolean value))
  | .capitalName => .ok (.var (.clean token.span) token.text)
  | _ => .error token.unexpected

/-- Two operands joined by an operator, as a node that spans both. -/
def Expr.join (left : Expr) (operator : Operator) (right : Expr) : Expr :=
  .binary (.clean ⟨left.span.start, right.span.stop⟩) operator left right

namespace Parse

/-- Passes a token that is an expression of its own. -/
def single : Parse Expr := do
  let token ← current
  match token.operand with
  | .ok expr => do
    let _ ← advance
    return expr
  | .error fault => throw fault

/-- Passes an operator; any other token is passed too, but is an error. -/
def operator : Parse Operator := do
  let token ← advance
  match token.kind with
  | .mark (.operator op) => return op
  | _ => throw token.unexpected

end Parse

namespace Grammar

variable (grammar : Grammar)

/-- Passes a token that the grammar has as an operand. -/
def operand : Parse Expr := do
  let token ← Parse.current
  if grammar.isOperand token.kind then Parse.single else throw (token.misplaced .operand)

/-- Joins `left` with what follows it, as long as operators bind more strongly than `power`. The
first argument bounds the number of operands and is to exceed the number of tokens left. -/
def operators : Nat → Power → Expr → Parse Expr
  | 0, _, left => return left
  | bound + 1, power, left => do
    match grammar.power? (← Parse.current).kind with
    | none => return left
    | some next =>
      if next ≤ power then return left
      else
        let op ← Parse.operator
        let first ← grammar.operand
        let right ← operators bound next first
        operators bound power (left.join op right)

/-- Reads an expression whose operators bind more strongly than `power`. -/
def expr (power : Power) : Parse Expr := do
  let first ← grammar.operand
  grammar.operators ((← get).left + 1) power first

/-- Reads an operator and the operand to its right, and joins them to `left`. -/
def binary (left : Expr) (power : Power) : Parse Expr := do
  let op ← Parse.operator
  let right ← grammar.expr power
  return left.join op right

end Grammar

end StyleLang
