import StyleLang.Proofs.Lockstep

/-!
# Exact values

`Expr.exactValue?` computes an expression over the integers, where no number is too large, and
takes the measure of each result from the table of types. Evaluation knows neither: it applies
operators to literals of 32 bits. Where it has a value it is the exact one (`exactValue?_of_value`),
and it has one unless some part of the expression fails in one of three ways (`Expr.Fails`).
Otherwise it stops at the first part that does, operands before their operation
(`firstFails_of_value`).
-/

namespace StyleLang

/-- A value in which a number may be any integer. -/
inductive Exact where
  | number (measure : Measure) (value : Int)
  | color (text : String)
  | boolean (value : Bool)
deriving DecidableEq

namespace Exact

def type : Exact → ValueType
  | number measure _ => .number measure
  | color _ => .color
  | boolean _ => .boolean

/-- The number, if it is one, fits into 32 bits. -/
def InRange : Exact → Prop
  | number _ value => -2147483648 ≤ value ∧ value < 2147483648
  | color _ | boolean _ => True

end Exact

namespace Literal

def toExact : Literal → Exact
  | number measure value => .number measure value.toInt
  | color text => .color text
  | boolean value => .boolean value

@[simp] theorem type_toExact : ∀ v : Literal, v.toExact.type = v.type
  | number _ _ | color _ | boolean _ => rfl

theorem inRange_toExact : ∀ v : Literal, v.toExact.InRange
  | number _ value => ⟨value.le_toInt, value.toInt_lt⟩
  | color _ | boolean _ => trivial

end Literal

/-! ## One operation -/

namespace Operator

/-- The result of an operation over the integers, of the type the table gives to it: a sum, a
difference or a product. -/
def exactResult? (op : Operator) (left right : Exact) : Option Exact :=
  match op.resultType left.type right.type, op, left, right with
  | .ok (.number measure), .add, .number _ a, .number _ b => some (.number measure (a + b))
  | .ok (.number measure), .subtract, .number _ a, .number _ b => some (.number measure (a - b))
  | .ok (.number measure), .multiply, .number _ a, .number _ b => some (.number measure (a * b))
  | _, _, _, _ => none

theorem resultType_of_exactResult?_eq_some {op : Operator} {left right x : Exact}
    (h : op.exactResult? left right = some x) :
    op.resultType left.type right.type = .ok x.type := by
  unfold exactResult? at h
  split at h <;> cases h <;> assumption

/-- On numbers the operation that evaluation applies is the exact one. -/
theorem exactResult?_number {op : Operator} {m n measure : Measure}
    (h : op.resultMeasure? m n = some measure) (a b : Int) :
    op.exactResult? (.number m a) (.number n b) = some (.number measure (op.apply a b)) := by
  have ht := (resultType_number op m n).1 measure h
  unfold exactResult?
  cases op <;> simp only [Exact.type, ht, apply]

theorem exactResult?_of_eval_eq_ok {op : Operator} {left right v : Literal}
    (h : op.eval left right = .ok v) :
    op.exactResult? left.toExact right.toExact = some v.toExact := by
  rcases left with ⟨m, a⟩ | _ | _ <;> rcases right with ⟨n, b⟩ | _ | _ <;>
    simp only [eval, reduceCtorEq] at h
  split at h
  · rename_i measure hm
    obtain ⟨k, rfl, hk⟩ := compute_eq_ok_iff.1 h
    rw [Literal.toExact, Literal.toExact, exactResult?_number hm, ← hk, Literal.toExact]
  · cases h

/-- An operation that overflows has an exact result, and it is out of range. -/
theorem exactResult?_of_eval_eq_overflow {op op' : Operator} {left right : Literal}
    (h : op.eval left right = .error (.overflow op')) :
    ∃ x, op.exactResult? left.toExact right.toExact = some x ∧ ¬ x.InRange := by
  rcases left with ⟨m, a⟩ | _ | _ <;> rcases right with ⟨n, b⟩ | _ | _ <;>
    simp only [eval, Except.error.injEq, reduceCtorEq] at h
  split at h
  · rename_i measure hm
    unfold compute at h
    split at h <;> cases h
    rename_i hn
    refine ⟨_, exactResult?_number hm _ _, ?_⟩
    have hn := Number.ofInt?_eq_none_iff.1 hn
    unfold Exact.InRange
    omega
  · cases h

end Operator

/-! ## Expressions -/

namespace Expr

/-- The value of an expression over the integers, if there is one. -/
def exactValue? (scopes : Scopes Literal) : Expr → Option Exact
  | literal _ value => some value.toExact
  | var _ name => (scopes.lookup name).map Literal.toExact
  | binary _ op left right => do
    op.exactResult? (← left.exactValue? scopes) (← right.exactValue? scopes)

/-- The expression and its parts, operands before their operation and the left one first. -/
def postorder : Expr → List Expr
  | literal note value => [literal note value]
  | var note name => [var note name]
  | binary note op left right => left.postorder ++ right.postorder ++ [binary note op left right]

/-- What can go wrong at a node over the integers, and out of range if nothing else does. -/
inductive Fails (scopes : Scopes Literal) : Expr → Cause → Prop where
  | unresolved {note : Note} {name : String} :
    scopes.lookup name = none → Fails scopes (var note name) (.violation (.unresolved name))
  | operands {note : Note} {op : Operator} {left right : Expr} {a b : Exact} {cause : Cause} :
    left.exactValue? scopes = some a → right.exactValue? scopes = some b →
      op.resultType a.type b.type = .error cause →
      Fails scopes (binary note op left right) (.violation (.operands op a.type b.type))
  | overflow {note : Note} {op : Operator} {left right : Expr} {x : Exact} :
    (binary note op left right).exactValue? scopes = some x → ¬ x.InRange →
      Fails scopes (binary note op left right) (.overflow op)

/-- Each part of the expression has all that its exact value needs, and is in range. -/
structure Foldable (scopes : Scopes Literal) (e : Expr) : Prop where
  resolved : ∀ note name, var note name ∈ e.postorder → ∃ v, scopes.lookup name = some v
  operands : ∀ note op left right, binary note op left right ∈ e.postorder →
    ∀ a b, left.exactValue? scopes = some a → right.exactValue? scopes = some b →
      ∃ type, op.resultType a.type b.type = .ok type
  inRange : ∀ node ∈ e.postorder, ∀ x, node.exactValue? scopes = some x → x.InRange

variable {scopes : Scopes Literal}

theorem exactValue?_binary_eq_some_iff {note : Note} {op : Operator} {left right : Expr}
    {x : Exact} : (binary note op left right).exactValue? scopes = some x ↔
      ∃ a b, left.exactValue? scopes = some a ∧ right.exactValue? scopes = some b
        ∧ op.exactResult? a b = some x := by
  rw [exactValue?]
  simp only [Option.bind_eq_bind, Option.bind_eq_some_iff]
  constructor
  · rintro ⟨a, ha, b, hb, h⟩
    exact ⟨a, b, ha, hb, h⟩
  · rintro ⟨a, b, ha, hb, h⟩
    exact ⟨a, ha, b, hb, h⟩

theorem exactValue?_of_value :
    ∀ (e : Expr) {v : Literal}, e.value scopes = .ok v → e.exactValue? scopes = some v.toExact
  | literal _ _, v, h => by
    cases h
    rfl
  | var _ name, v, h => by
    rw [value] at h
    rw [exactValue?]
    rcases hl : scopes.lookup name with _ | v' <;> rw [hl] at h <;> cases h
    rfl
  | binary note op left right, v, h => by
    obtain ⟨l, r, hl, hr, hv⟩ := value_binary_eq_ok h
    exact exactValue?_binary_eq_some_iff.2 ⟨_, _, exactValue?_of_value left hl,
      exactValue?_of_value right hr, Operator.exactResult?_of_eval_eq_ok hv⟩

/-- Where an expression has a value so has each of its parts. -/
theorem value_of_mem_postorder : ∀ (e : Expr) {v : Literal}, e.value scopes = .ok v →
    ∀ node ∈ e.postorder, ∃ v', node.value scopes = .ok v'
  | literal _ _, v, h, node, hn | var _ _, v, h, node, hn => by
    cases List.mem_singleton.1 hn
    exact ⟨v, h⟩
  | binary note op left right, v, h, node, hn => by
    obtain ⟨l, r, hl, hr, -⟩ := value_binary_eq_ok h
    rw [postorder, List.mem_append, List.mem_append, List.mem_singleton] at hn
    rcases hn with (hn | hn) | rfl
    · exact value_of_mem_postorder left hl node hn
    · exact value_of_mem_postorder right hr node hn
    · exact ⟨v, h⟩

theorem not_fails_of_value {node : Expr} {v : Literal} (h : node.value scopes = .ok v)
    (cause : Cause) : ¬ node.Fails scopes cause := by
  intro hf
  cases hf with
  | unresolved hl =>
    rw [value, hl] at h
    cases h
  | operands ha hb ht =>
    obtain ⟨l, r, hl, hr, hv⟩ := value_binary_eq_ok h
    rw [exactValue?_of_value _ hl] at ha
    rw [exactValue?_of_value _ hr] at hb
    cases ha
    cases hb
    rw [l.type_toExact, r.type_toExact, Operator.resultType_of_eval_eq_ok hv] at ht
    cases ht
  | overflow hx hn =>
    rw [exactValue?_of_value _ h] at hx
    cases hx
    exact hn v.inRange_toExact

/-- An expression has a value only if none of its parts fails. -/
theorem not_fails_of_mem_postorder {e : Expr} {v : Literal} (h : e.value scopes = .ok v) :
    ∀ node ∈ e.postorder, ∀ cause, ¬ node.Fails scopes cause := by
  intro node hn cause
  obtain ⟨v', hv⟩ := value_of_mem_postorder e h node hn
  exact not_fails_of_value hv cause

theorem foldable_iff_not_fails {e : Expr} :
    e.Foldable scopes ↔ ∀ node ∈ e.postorder, ∀ cause, ¬ node.Fails scopes cause := by
  constructor
  · intro h node hn cause hf
    cases hf with
    | unresolved hl =>
      obtain ⟨v, hv⟩ := h.resolved _ _ hn
      rw [hl] at hv
      cases hv
    | operands ha hb ht =>
      obtain ⟨type, hok⟩ := h.operands _ _ _ _ hn _ _ ha hb
      rw [ht] at hok
      cases hok
    | overflow hx hr => exact hr (h.inRange _ hn _ hx)
  · intro h
    constructor
    · intro note name hn
      rcases hl : scopes.lookup name with _ | v
      · exact (h _ hn _ (.unresolved hl)).elim
      · exact ⟨v, rfl⟩
    · intro note op left right hn a b ha hb
      rcases ht : op.resultType a.type b.type with cause | type
      · exact (h _ hn _ (.operands ha hb ht)).elim
      · exact ⟨type, rfl⟩
    · intro node hn x hx
      cases node with
      | literal note v =>
        cases hx
        exact v.inRange_toExact
      | var note name =>
        obtain ⟨v, -, rfl⟩ := Option.map_eq_some_iff.1 hx
        exact v.inRange_toExact
      | binary note op left right =>
        by_contra hr
        exact h _ hn _ (.overflow hx hr)

end Expr

/-! ## The first failure -/

/-- The diagnostic is about the first of the nodes that fails, and says why it does. -/
def FirstFails (scopes : Scopes Literal) (nodes : List Expr) (fault : Diagnostic) : Prop :=
  ∃ before node behind cause, nodes = before ++ node :: behind
    ∧ (∀ other ∈ before, ∀ cause', ¬ other.Fails scopes cause')
    ∧ node.Fails scopes cause ∧ fault = ⟨cause, node.span.start⟩

namespace FirstFails

variable {scopes : Scopes Literal} {nodes nodes' : List Expr} {fault : Diagnostic}

theorem singleton {node : Expr} {cause : Cause} (h : node.Fails scopes cause) :
    FirstFails scopes [node] ⟨cause, node.span.start⟩ :=
  ⟨[], node, [], cause, rfl, nofun, h, rfl⟩

theorem append_right (h : FirstFails scopes nodes fault) (nodes' : List Expr) :
    FirstFails scopes (nodes ++ nodes') fault := by
  obtain ⟨before, node, behind, cause, rfl, hb, hf, rfl⟩ := h
  exact ⟨before, node, behind ++ nodes', cause, by simp, hb, hf, rfl⟩

theorem append_left (hn : ∀ node ∈ nodes, ∀ cause, ¬ node.Fails scopes cause)
    (h : FirstFails scopes nodes' fault) : FirstFails scopes (nodes ++ nodes') fault := by
  obtain ⟨before, node, behind, cause, rfl, hb, hf, rfl⟩ := h
  refine ⟨nodes ++ before, node, behind, cause, by simp, ?_, hf, rfl⟩
  exact List.forall_mem_append.2 ⟨hn, hb⟩

end FirstFails

namespace Expr

variable {scopes : Scopes Literal}

/-- An operation whose operands have values that it cannot be applied to fails itself. -/
theorem fails_of_eval {note : Note} {op : Operator} {left right : Expr} {l r : Literal}
    {cause : Cause} (hl : left.value scopes = .ok l) (hr : right.value scopes = .ok r)
    (h : op.eval l r = .error cause) : (binary note op left right).Fails scopes cause := by
  have ha := exactValue?_of_value left hl
  have hb := exactValue?_of_value right hr
  rcases Operator.resultType_of_eval_eq_error h with rfl | ⟨rfl, cause', ht⟩
  · obtain ⟨x, hx, hn⟩ := Operator.exactResult?_of_eval_eq_overflow h
    exact .overflow (exactValue?_binary_eq_some_iff.2 ⟨_, _, ha, hb, hx⟩) hn
  · rw [← l.type_toExact, ← r.type_toExact] at ht ⊢
    exact .operands ha hb ht

theorem firstFails_of_value : ∀ (e : Expr) {fault : Diagnostic},
    e.value scopes = .error fault → FirstFails scopes e.postorder fault
  | literal _ _, fault, h => by cases h
  | var note name, fault, h => by
    rw [value] at h
    rcases hl : scopes.lookup name with _ | v <;> rw [hl] at h <;> cases h
    exact .singleton (.unresolved hl)
  | binary note op left right, fault, h => by
    rw [postorder]
    rcases hl : left.value scopes with fault' | l
    · rw [value, hl] at h
      cases h
      exact ((firstFails_of_value left hl).append_right _).append_right _
    have hleft := not_fails_of_mem_postorder hl
    rcases hr : right.value scopes with fault' | r
    · rw [value, hl, hr] at h
      cases h
      exact ((firstFails_of_value right hr).append_left hleft).append_right _
    -- No part of either operand fails, so the operation is the first node that does.
    have hright := not_fails_of_mem_postorder hr
    rw [value, hl, hr] at h
    dsimp only [bind, Except.bind] at h
    rcases he : op.eval l r with cause | v <;> rw [he] at h <;> cases h
    exact .append_left (List.forall_mem_append.2 ⟨hleft, hright⟩)
      (.singleton (fails_of_eval hl hr he))

theorem foldable_iff {e : Expr} : e.Foldable scopes ↔ ∃ v, e.value scopes = .ok v := by
  rw [foldable_iff_not_fails]
  constructor
  · intro h
    rcases hv : e.value scopes with fault | v
    · obtain ⟨before, node, behind, cause, he, -, hf, -⟩ := firstFails_of_value e hv
      exact (h node (he ▸ List.mem_append_right _ List.mem_cons_self) cause hf).elim
    · exact ⟨v, rfl⟩
  · rintro ⟨v, hv⟩
    exact not_fails_of_mem_postorder hv

/-! ## Reducing in place -/

/-- Puts the value of an expression in its place and gives it back. -/
def reduceInPlace (scopes : Scopes Literal) : EStateM Diagnostic Expr Literal := do
  match (← get).value scopes with
  | .ok value =>
    modify (·.replace value)
    return value
  | .error fault => throw fault

/-- In place an expression comes to what `reduce` gives, and an error leaves it as it is. -/
theorem run_reduceInPlace (scopes : Scopes Literal) (e : Expr) :
    (reduceInPlace scopes).run e = match e.reduce scopes with
      | .ok (v, after) => .ok v after
      | .error fault => .error fault e := by
  rcases hv : e.value scopes with fault | v <;>
    simp only [reduceInPlace, reduce, EStateM.run_bind, EStateM.run_get, hv] <;> rfl

/-- Reducing an expression puts its exact value in its place, and gives it, if each part of it has
one in range. Else the expression stays, and the error is that of the first part that fails. -/
theorem reduceInPlace_exact (scopes : Scopes Literal) (e : Expr) :
    ((∃ v after, (reduceInPlace scopes).run e = .ok v after) ↔ e.Foldable scopes)
    ∧ (∀ v after, (reduceInPlace scopes).run e = .ok v after →
      e.exactValue? scopes = some v.toExact ∧ after = .literal (.clean e.span) v
        ∧ ∀ note op left right, e = binary note op left right →
          ∃ a b, left.exactValue? scopes = some a ∧ right.exactValue? scopes = some b
            ∧ op.resultType a.type b.type = .ok v.type)
    ∧ (¬ e.Foldable scopes → ∃ fault, (reduceInPlace scopes).run e = .error fault e
        ∧ FirstFails scopes e.postorder fault) := by
  rw [run_reduceInPlace, foldable_iff, reduce]
  rcases hv : e.value scopes with fault | v
  · exact ⟨⟨nofun, nofun⟩, nofun, fun _ => ⟨fault, rfl, firstFails_of_value e hv⟩⟩
  · have hx := exactValue?_of_value e hv
    refine ⟨⟨fun _ => ⟨v, rfl⟩, fun _ => ⟨v, _, rfl⟩⟩, ?_, fun h => (h ⟨v, rfl⟩).elim⟩
    rintro _ _ ⟨⟩
    refine ⟨hx, rfl, ?_⟩
    rintro note op left right rfl
    obtain ⟨a, b, ha, hb, h⟩ := exactValue?_binary_eq_some_iff.1 hx
    refine ⟨a, b, ha, hb, ?_⟩
    rw [Operator.resultType_of_exactResult?_eq_some h, v.type_toExact]

end Expr

end StyleLang
