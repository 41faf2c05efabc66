import StyleLang.Position
import StyleLang.Text.Quoted
import StyleLang.Token.Kind

/-!
# Diagnostics

A diagnostic is the cause of a complaint and the place it points at. A cause says what is wrong
in terms of the stylesheet; its wording is given by `Cause.message` and `Cause.hint?`, its place
in the classification by `Cause.name` and `Cause.category`. Only a broken invariant and an
overflow are fatal: they end a compilation outright, where other causes are collected.
-/

namespace StyleLang

/-- What should have stood in place of a token. -/
inductive Expectation where
  | statement
  | closing
  | assign
  | selector
  | operand
  | insideRule
  | kind (kind : Kind)
  | other (text : String)
deriving DecidableEq

def Expectation.text : Expectation → String
  | statement => "expected a selector, a declaration, an assignment or `if`"
  | closing => "block is missing its closing `\x7d`"
  | assign => "expected `:=` after variable name"
  | selector => "expected a selector"
  | operand => "expected a value or a variable"
  | insideRule => "declarations and if-clauses belong inside a style rule"
  | kind k => "expected " ++ k.name
  | other text => text

/-- What evaluating or rendering met that a checked stylesheet does not hold. -/
inductive Violation where
  | unresolved (name : String)
  | operands (operator : Operator) (left right : ValueType)
  | condition (received : ValueType)
  | conditional
  | unreduced (property : String)
  | other (text : String)
deriving DecidableEq

def Violation.text : Violation → String
  | unresolved name => "variable `" ++ name ++ "` has no value in scope"
  | operands op left right =>
    "cannot apply `" ++ op.symbol ++ "` to " ++ left.name ++ " and " ++ right.name
  | condition received =>
    "if condition reduced to " ++ received.name ++ " instead of a boolean"
  | conditional => "conditional left in an evaluated stylesheet"
  | unreduced property => "value of `" ++ property ++ "` was not reduced to a literal"
  | other text => text

inductive Cause where
  | unrecognised (text : String)
  | unexpected (text : String)
  | misplaced (text : String) (expectation : Expectation)
  | invalidNumber (text : String)
  | undefinedVariable (name : String)
  | undefinedAssignment (name : String)
  | colorOperand (operator : Operator)
  | operandMismatch (operator : Operator) (left right : ValueType)
  | scalarNeeded (left right : ValueType)
  | conditionType (received : ValueType)
  | unknownProperty (property : String)
  | propertyType (property expected : String) (received : ValueType)
  | violation (violation : Violation)
  | overflow (operator : Operator)
deriving DecidableEq

/-- The coarse classes of causes. -/
inductive Category where
  | syntaxError
  | undefinedVariable
  | typeMismatch
  | conditionType
  | disallowedProperty
  | violation
  | overflow
deriving DecidableEq

def Category.name : Category → String
  | syntaxError => "Syntax"
  | undefinedVariable => "UndefinedVariable"
  | typeMismatch => "TypeMismatch"
  | conditionType => "IllegalConditionType"
  | disallowedProperty => "DisallowedProperty"
  | violation => "InternalInvariantViolation"
  | overflow => "Overflow"

namespace Cause

def name : Cause → String
  | unrecognised _ => "UnrecognisedToken"
  | unexpected _ => "UnexpectedToken"
  | misplaced _ _ => "UnexpectedTokenDetailed"
  | invalidNumber _ => "NumberParseError"
  | undefinedVariable _ => "UndefinedVariable"
  | undefinedAssignment _ => "UndefinedAssignment"
  | colorOperand _ => "ColorInArithmetic"
  | operandMismatch _ _ _ => "OperandTypeMismatch"
  | scalarNeeded _ _ => "MultiplicationNeedsScalar"
  | conditionType _ => "IllegalConditionType"
  | unknownProperty _ => "UnknownProperty"
  | propertyType _ _ _ => "PropertyTypeMismatch"
  | violation _ => "InternalInvariantViolation"
  | overflow _ => "ArithmeticOverflow"

def category : Cause → Category
  | unrecognised _ | unexpected _ | misplaced _ _ | invalidNumber _ => .syntaxError
  | undefinedVariable _ => .undefinedVariable
  | undefinedAssignment _ | colorOperand _ | operandMismatch _ _ _ | scalarNeeded _ _ =>
    .typeMismatch
  | conditionType _ => .conditionType
  | unknownProperty _ | propertyType _ _ _ => .disallowedProperty
  | violation _ => .violation
  | overflow _ => .overflow

def isFatal (cause : Cause) : Bool :=
  cause.category = .violation || cause.category = .overflow

def message : Cause → String
  | unrecognised text => "unrecognised token: " ++ Quoted.encode text
  | unexpected text => "unexpected token: " ++ Quoted.encode text
  | misplaced text expectation =>
    "unexpected token (" ++ expectation.text ++ "): " ++ Quoted.encode text
  | invalidNumber text => "error parsing number: " ++ Quoted.encode text
  | undefinedVariable name => "variable " ++ Quoted.encode name ++ " is not defined"
  | undefinedAssignment name =>
    "right-hand side of variable " ++ Quoted.encode name ++ " has an undefined type"
  | colorOperand op => "colors cannot be used in `" ++ op.symbol ++ "`"
  | operandMismatch op left right =>
    "operands of `" ++ op.symbol ++ "` must share one non-boolean type, found " ++ left.name
      ++ " and " ++ right.name
  | scalarNeeded left right =>
    "multiplication needs a scalar operand and no booleans, found " ++ left.name ++ " and "
      ++ right.name
  | conditionType received => "if condition must be a boolean, found " ++ received.name
  | unknownProperty property => "property " ++ Quoted.encode property ++ " is not allowed"
  | propertyType property expected received =>
    "property " ++ Quoted.encode property ++ " expects " ++ expected ++ ", found "
      ++ received.name
  | violation v => "internal invariant violated: " ++ v.text
  | overflow op => "integer overflow in `" ++ op.symbol ++ "`"

/-- What the author of the stylesheet may look for. -/
def hint? : Cause → Option String
  | unrecognised _ => none
  | unexpected text => some ("Unexpected token: `" ++ text ++ "`, did you miss a semicolon?")
  | misplaced text expectation =>
    some ("Unexpected token: `" ++ text ++ "`, " ++ expectation.text)
  | invalidNumber text =>
    some ("Invalid number: `" ++ text ++ "`, is it above the integer limit?")
  | undefinedVariable name =>
    some ("Variable `" ++ name ++ "` is not assigned in this or any enclosing block")
  | undefinedAssignment name =>
    some ("The value assigned to `" ++ name ++ "` has no valid type")
  | colorOperand _ => some "Colors cannot be used in arithmetic"
  | operandMismatch _ left right =>
    some ("Both operands need the same non-boolean type, received `" ++ left.name ++ "` and `"
      ++ right.name ++ "`")
  | scalarNeeded _ _ => some "At least one side of `*` must be a plain number"
  | conditionType received =>
    some ("Expected condition type `" ++ ValueType.boolean.name ++ "`, received `"
      ++ received.name ++ "`")
  | unknownProperty property => some ("Property `" ++ property ++ "` is not allowed")
  | propertyType property expected received =>
    some ("Property `" ++ property ++ "` expects " ++ expected ++ ", received `"
      ++ received.name ++ "`")
  | violation _ => some "The stylesheet reached evaluation without passing the checker"
  | overflow _ => some "The result does not fit in a 32-bit integer"

end Cause

structure Diagnostic where
  cause : Cause
  position : Position
deriving DecidableEq

end StyleLang
