import StyleLang.Token.Kind

/-!
# Grammars

What a token may begin or join depends on its kind alone. A grammar says which form of statement
a kind begins, whether it can stand as an operand, and how strongly it binds the operands around
it as an operator. `Grammar.standard` is the grammar of stylesheets, and `Grammar.bare` the one
that knows no kind, to which entries can be added.
-/

namespace StyleLang

/-- How strongly an operator binds its operands. -/
inductive Power where
  | lowest
  | additive
  | multiplicative
deriving DecidableEq

namespace Power

def rank : Power → Nat
  | lowest => 0
  | additive => 1
  | multiplicative => 2

instance : LE Power := ⟨fun a b => a.rank ≤ b.rank⟩

instance (a b : Power) : Decidable (a ≤ b) := inferInstanceAs (Decidable (a.rank ≤ b.rank))

end Power

/-- The forms of statements; a lowercase name begins a declaration or a rule. -/
inductive Form where
  | assignment
  | declaration
  | lower
  | rule
  | conditional
deriving DecidableEq

structure Grammar where
  form? : Kind → Option Form
  isOperand : Kind → Bool
  power? : Kind → Option Power

namespace Grammar

def bare : Grammar where
  form? _ := none
  isOperand _ := false
  power? _ := none

def standard : Grammar where
  form?
    | .capitalName => some .assignment
    | .lowerName => some .lower
    | .idName | .className => some .rule
    | .word .ifWord => some .conditional
    | _ => none
  isOperand
    | .number _ | .color | .word (.boolean _) | .capitalName => true
    | _ => false
  power?
    | .mark (.operator .add) | .mark (.operator .subtract) => some .additive
    | .mark (.operator .multiply) => some .multiplicative
    | _ => none

def withForm (grammar : Grammar) (kind : Kind) (form : Form) : Grammar :=
  { grammar with form? := fun k => if k = kind then some form else grammar.form? k }

def withOperand (grammar : Grammar) (kind : Kind) : Grammar :=
  { grammar with isOperand := fun k => k = kind || grammar.isOperand k }

def withPower (grammar : Grammar) (kind : Kind) (power : Power) : Grammar :=
  { grammar with power? := fun k => if k = kind then some power else grammar.power? k }

/-- The number of kinds that begin a statement. -/
def formCount (grammar : Grammar) : Nat :=
  Kind.all.countP fun k => (grammar.form? k).isSome

def operandCount (grammar : Grammar) : Nat :=
  Kind.all.countP grammar.isOperand

def powerCount (grammar : Grammar) : Nat :=
  Kind.all.countP fun k => (grammar.power? k).isSome

end Grammar

end StyleLang
