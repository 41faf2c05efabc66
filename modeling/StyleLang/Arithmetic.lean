import StyleLang.Diagnostic

/-!
# Arithmetic on literals

Numbers of one measure can be added and subtracted, and a number of any measure multiplied by a
scalar on either side. The result is the exact one; where 32 bits cannot hold it, the operation
overflows (`Operator.compute_eq_ok_iff`).
-/

namespace StyleLang.Operator

def apply : Operator → Int → Int → Int
  | add, a, b => a + b
  | subtract, a, b => a - b
  | multiply, a, b => a * b

/-- The measure of the result of an operation on numbers of two measures. -/
def resultMeasure? : Operator → Measure → Measure → Option Measure
  | add, m, n | subtract, m, n => if m = n then some m else none
  | multiply, m, .scalar | multiply, .scalar, m => some m
  | multiply, _, _ => none

/-- The result of an operation in a measure, if it is in range. -/
def compute (op : Operator) (measure : Measure) (a b : Number) : Except Cause Literal :=
  match Number.ofInt? (op.apply a.toInt b.toInt) with
  | some value => .ok (.number measure value)
  | none => .error (.overflow op)

/-- The result of an operation on two literals. -/
def eval (op : Operator) (left right : Literal) : Except Cause Literal :=
  match left, right with
  | .number m a, .number n b =>
    match op.resultMeasure? m n with
    | some measure => op.compute measure a b
    | none => .error (.violation (.operands op left.type right.type))
  | _, _ => .error (.violation (.operands op left.type right.type))

theorem compute_eq_ok_iff {op : Operator} {measure : Measure} {a b : Number} {v : Literal} :
    op.compute measure a b = .ok v ↔
      ∃ k : Number, v = .number measure k ∧ k.toInt = op.apply a.toInt b.toInt := by
  unfold compute
  split
  · rename_i value h
    rw [Number.ofInt?_eq_some_iff] at h
    constructor
    · intro hv
      cases hv
      exact ⟨value, rfl, h⟩
    · rintro ⟨k, rfl, hk⟩
      rw [Int32.toInt_inj.1 (hk.trans h.symm)]
  · rename_i h
    simp only [reduceCtorEq, false_iff, not_exists, not_and]
    intro k _ hk
    rw [← hk, Number.ofInt?_toInt] at h
    cases h

end StyleLang.Operator
