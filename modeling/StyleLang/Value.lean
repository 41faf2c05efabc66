import StyleLang.Number
import StyleLang.Text.Decimal

/-!
# Values and their types

A literal is a value an expression reduces to: a number with its measure, a color or a boolean.
A value type is what is known of an expression before it is evaluated; `ValueType.undefined` is
the type of an expression that has none. Each literal has one of the other types
(`Literal.type_ne_undefined`).
-/

namespace StyleLang

/-- What a number counts. -/
inductive Measure where
  | pixel
  | percentage
  | scalar
deriving DecidableEq

namespace Measure

def all : List Measure := [pixel, percentage, scalar]

theorem mem_all (measure : Measure) : measure ∈ all := by
  cases measure <;> decide

def name : Measure → String
  | pixel => "pixel"
  | percentage => "percentage"
  | scalar => "scalar"

/-- What follows the digits of a number. -/
def suffix : Measure → String
  | pixel => "px"
  | percentage => "%"
  | scalar => ""

end Measure

inductive ValueType where
  | number (measure : Measure)
  | color
  | boolean
  | undefined
deriving DecidableEq

namespace ValueType

abbrev pixel : ValueType := number .pixel

abbrev percentage : ValueType := number .percentage

abbrev scalar : ValueType := number .scalar

def name : ValueType → String
  | number measure => measure.name
  | color => "color"
  | boolean => "boolean"
  | undefined => "undefined"

end ValueType

inductive Operator where
  | add
  | subtract
  | multiply
deriving DecidableEq

namespace Operator

def all : List Operator := [add, subtract, multiply]

theorem mem_all (operator : Operator) : operator ∈ all := by
  cases operator <;> decide

def symbol : Operator → String
  | add => "+"
  | subtract => "-"
  | multiply => "*"

end Operator

inductive Literal where
  | number (measure : Measure) (value : Number)
  | color (text : String)
  | boolean (value : Bool)
deriving DecidableEq

namespace Literal

def type : Literal → ValueType
  | number measure _ => .number measure
  | color _ => .color
  | boolean _ => .boolean

/-- The literal as it stands in a stylesheet. -/
def text : Literal → String
  | number measure value => Decimal.ofInt value.toInt ++ measure.suffix
  | color text => text
  | boolean true => "TRUE"
  | boolean false => "FALSE"

theorem type_ne_undefined (v : Literal) : v.type ≠ .undefined := by
  cases v <;> simp [type]

end Literal

end StyleLang
