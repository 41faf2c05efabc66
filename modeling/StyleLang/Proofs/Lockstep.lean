import Mathlib.Data.List.Nodup
import StyleLang.Proofs.Block
import StyleLang.Proofs.Overlay

/-!
# Checking and evaluating in lockstep

Checking a stylesheet and evaluating it open and close frames at the same nodes. Up to the first
error the two keep step: the same names are bound in each frame, in one to the types of the values
they are bound to in the other (`Scopes.Types`). So an expression that has a value has its type
(`Expr.type_check_of_value`), and where evaluation comes upon a violation the checker has blamed
the very node for it (`Expr.answered_of_value`, `Stmt.follows_outcome`).
-/

namespace StyleLang

/-! ## Operations on types and on literals -/

namespace Operator

theorem category_of_resultType {op : Operator} {left right : ValueType} {cause : Cause}
    (h : op.resultType left right = .error cause) : cause.category = .typeMismatch := by
  unfold resultType at h
  split at h
  · cases h
    rfl
  · cases op <;> simp only at h <;> split_ifs at h <;> cases h <;> rfl

/-- Numbers have a type together as they have a measure together. -/
theorem resultType_number (op : Operator) (m n : Measure) :
    (∀ measure, op.resultMeasure? m n = some measure →
        op.resultType (.number m) (.number n) = .ok (.number measure))
      ∧ (op.resultMeasure? m n = none →
        ∃ cause, op.resultType (.number m) (.number n) = .error cause) := by
  cases op <;> cases m <;> cases n <;> simp [resultMeasure?, resultType]

theorem resultType_of_eval_eq_ok {op : Operator} {left right v : Literal}
    (h : op.eval left right = .ok v) : op.resultType left.type right.type = .ok v.type := by
  rcases left with ⟨m, a⟩ | _ | _ <;> rcases right with ⟨n, b⟩ | _ | _ <;>
    simp only [eval, reduceCtorEq] at h
  split at h
  · rename_i measure hm
    obtain ⟨k, rfl, -⟩ := compute_eq_ok_iff.1 h
    exact (resultType_number op m n).1 measure hm
  · cases h

/-- What goes wrong with two literals is an overflow, or goes wrong with their types too. -/
theorem resultType_of_eval_eq_error {op : Operator} {left right : Literal} {cause : Cause}
    (h : op.eval left right = .error cause) :
    cause = .overflow op ∨ cause = .violation (.operands op left.type right.type)
      ∧ ∃ cause', op.resultType left.type right.type = .error cause' := by
  rcases left with ⟨m, a⟩ | _ | _ <;> rcases right with ⟨n, b⟩ | _ | _ <;>
    simp only [eval, Except.error.injEq] at h
  · split at h
    · unfold compute at h
      split at h <;> cases h
      exact .inl rfl
    · rename_i hm
      cases h
      exact .inr ⟨rfl, (resultType_number op m n).2 hm⟩
  all_goals
    subst h
    refine .inr ⟨rfl, ?_⟩
    cases op <;> simp [resultType, Literal.type]

end Operator

/-! ## Frames and their types -/

/-- The first frame binds the names of the second, to the types of their values. -/
def Bindings.Types (types : Bindings ValueType) (values : Bindings Literal) : Prop :=
  ∀ name, types.find? name = (values.find? name).map Literal.type

theorem Bindings.Types.insert {types : Bindings ValueType} {values : Bindings Literal}
    (h : types.Types values) (name : String) (v : Literal) :
    (types.insert name v.type).Types (values.insert name v) := by
  intro other
  rw [find?_insert, find?_insert]
  split
  · rfl
  · exact h other

namespace Scopes

/-- Each frame of the first stack holds the types of the values in that frame of the second. -/
def Types (types : Scopes ValueType) (values : Scopes Literal) : Prop :=
  List.Forall₂ Bindings.Types types.frames values.frames

variable {types : Scopes ValueType} {values : Scopes Literal}

theorem types_empty : (empty : Scopes ValueType).Types empty := .nil

theorem Types.extend_empty (h : types.Types values) :
    (types.extend .empty).Types (values.extend .empty) :=
  .cons (fun _ => rfl) h

theorem Types.pop (h : types.Types values) : types.pop.Types values.pop := by
  obtain ⟨frames⟩ := types
  obtain ⟨frames'⟩ := values
  cases h with
  | nil => exact .nil
  | cons _ h => exact h

theorem Types.define (h : types.Types values) (name : String) (v : Literal) :
    (types.define name v.type).Types (values.define name v) := by
  obtain ⟨frames⟩ := types
  obtain ⟨frames'⟩ := values
  cases h with
  | nil => exact .nil
  | cons hf h => exact .cons (hf.insert name v) h

theorem Types.lookup (h : types.Types values) (name : String) :
    types.lookup name = (values.lookup name).map Literal.type := by
  obtain ⟨frames⟩ := types
  obtain ⟨frames'⟩ := values
  unfold Types at h
  unfold Scopes.lookup
  dsimp only at h ⊢
  induction h with
  | nil => rfl
  | @cons frame frame' _ _ hf _ ih =>
    rw [List.findSome?_cons, List.findSome?_cons, hf name, ih]
    cases frame'.find? name <;> rfl

end Scopes

/-! ## Nodes that answer for a violation -/

/-- What a node carries that the checker has blamed for what evaluation takes for a violation: a
reference to a name that is not bound, an operation whose operands do not go together, or a
conditional whose condition is no boolean. -/
def Node.Answers : Node → Violation → Prop
  | .expr (.var note name), .unresolved name' =>
    name = name' ∧ note.diagnostic = some ⟨.undefinedVariable name, note.span.start⟩
  | .expr (.binary note op _ _), .operands op' _ _ =>
    op = op' ∧ ∃ cause, cause.category = .typeMismatch
      ∧ note.diagnostic = some ⟨cause, note.span.start⟩
  | .stmt (.conditional note _ _ _), .condition received =>
    note.diagnostic = some ⟨.conditionType received, note.span.start⟩
  | _, _ => False

/-- The diagnostic is an overflow, or a violation for which one of the nodes was blamed. -/
def Answered (faults : Nat) (nodes : List Node) (fault : Diagnostic) : Prop :=
  (∃ op, fault.cause = .overflow op) ∨ 0 < faults ∧ ∃ violation,
    fault.cause = .violation violation
      ∧ ∃ node ∈ nodes, node.span.start = fault.position ∧ node.Answers violation

theorem Answered.mono {faults faults' : Nat} {nodes nodes' : List Node} {fault : Diagnostic}
    (h : Answered faults nodes fault) (hf : faults ≤ faults') (hn : nodes ⊆ nodes') :
    Answered faults' nodes' fault := by
  rcases h with h | ⟨h0, violation, hv, node, hm, ha⟩
  · exact .inl h
  · exact .inr ⟨by omega, violation, hv, node, hn hm, ha⟩

namespace Expr

variable {types : Scopes ValueType} {values : Scopes Literal}

/-- An operation has a value if its operands have and can be put together. -/
theorem value_binary_eq_ok {note : Note} {op : Operator} {left right : Expr} {v : Literal}
    (h : (binary note op left right).value values = .ok v) :
    ∃ l r, left.value values = .ok l ∧ right.value values = .ok r ∧ op.eval l r = .ok v := by
  obtain ⟨l, hl, h⟩ := bind_eq_ok_iff.1 h
  obtain ⟨r, hr, h⟩ := bind_eq_ok_iff.1 h
  split at h <;> cases h
  exact ⟨l, r, hl, hr, by assumption⟩

/-- An operation fails with its left operand, else with its right one, else at its own node. -/
theorem value_binary_eq_error {note : Note} {op : Operator} {left right : Expr}
    {fault : Diagnostic} (h : (binary note op left right).value values = .error fault) :
    left.value values = .error fault ∨ right.value values = .error fault
      ∨ ∃ l r cause, left.value values = .ok l ∧ right.value values = .ok r
        ∧ op.eval l r = .error cause ∧ fault = ⟨cause, note.span.start⟩ := by
  rw [value] at h
  rcases hl : left.value values with _ | l <;> rw [hl] at h
  · cases h
    exact .inl rfl
  rcases hr : right.value values with _ | r <;> rw [hr] at h
  · cases h
    exact .inr (.inl rfl)
  simp only [bind, Except.bind] at h
  split at h <;> cases h
  exact .inr (.inr ⟨l, r, _, rfl, rfl, by assumption, rfl⟩)

theorem type_check_of_value (ht : types.Types values) :
    ∀ (e : Expr) {v : Literal}, e.value values = .ok v → (e.check types).type = v.type
  | literal _ _, v, h => by
    cases h
    rfl
  | var _ name, v, h => by
    rw [value] at h
    rw [check, ht.lookup name]
    rcases hl : values.lookup name with _ | v' <;> rw [hl] at h <;> cases h
    rfl
  | binary note op left right, v, h => by
    obtain ⟨l, r, hl, hr, hv⟩ := value_binary_eq_ok h
    rw [check_binary, type_check_of_value ht left hl, type_check_of_value ht right hr,
      Operator.resultType_of_eval_eq_ok hv]

theorem faults_le_check_binary (types : Scopes ValueType) (note : Note) (op : Operator)
    (left right : Expr) :
    (left.check types).faults + (right.check types).faults
      ≤ ((binary note op left right).check types).faults := by
  rw [check_binary]
  split <;> simp

theorem nodes_subset_check_binary (types : Scopes ValueType) (note : Note) (op : Operator)
    (left right : Expr) :
    (left.check types).expr.nodes ++ (right.check types).expr.nodes
      ⊆ ((binary note op left right).check types).expr.nodes := by
  rw [check_binary]
  split <;> exact List.subset_cons_self ..

/-- Where an expression has no value although nothing overflows, one of its nodes is blamed. -/
theorem answered_of_value (ht : types.Types values) :
    ∀ (e : Expr) {fault : Diagnostic}, e.value values = .error fault →
      Answered (e.check types).faults (e.check types).expr.nodes fault
  | literal _ _, fault, h => by cases h
  | var note name, fault, h => by
    rw [value] at h
    rw [check, ht.lookup name]
    rcases hl : values.lookup name with _ | v' <;> rw [hl] at h <;> cases h
    exact .inr ⟨Nat.one_pos, _, rfl, _, List.mem_singleton_self _, rfl, rfl, rfl⟩
  | binary note op left right, fault, h => by
    have hf := faults_le_check_binary types note op left right
    have hn := nodes_subset_check_binary types note op left right
    rcases value_binary_eq_error h with hl | hr | ⟨l, r, cause, hl, hr, he, rfl⟩
    · exact (answered_of_value ht left hl).mono (by omega)
        fun _ hm => hn (List.mem_append_left _ hm)
    · exact (answered_of_value ht right hr).mono (by omega)
        fun _ hm => hn (List.mem_append_right _ hm)
    · rcases Operator.resultType_of_eval_eq_error he with rfl | ⟨rfl, cause, hc⟩
      · exact .inl ⟨op, rfl⟩
      · have hcat := Operator.category_of_resultType hc
        rw [check_binary, type_check_of_value ht left hl, type_check_of_value ht right hr, hc]
        exact .inr ⟨Nat.succ_pos _, _, rfl, _, List.mem_cons_self, rfl, rfl, cause, hcat, rfl⟩

theorem value_of_choice_eq_error {note : Note} {condition : Expr} {fault : Diagnostic}
    (h : condition.choice values note = .error fault) :
    condition.value values = .error fault ∨ ∃ v, condition.value values = .ok v
      ∧ v.type ≠ .boolean ∧ fault = ⟨.violation (.condition v.type), note.span.start⟩ := by
  unfold choice reduce at h
  rcases hv : condition.value values with _ | ⟨_, _⟩ | _ | b <;> rw [hv] at h <;> cases h
  · exact .inl rfl
  · exact .inr ⟨_, rfl, by simp [Literal.type], rfl⟩
  · exact .inr ⟨_, rfl, by simp [Literal.type], rfl⟩

/-- Where a condition chooses no branch, a node in it is blamed, or the conditional itself. -/
theorem answered_of_choice (ht : types.Types values) {note : Note} {condition : Expr}
    {fault : Diagnostic} (h : condition.choice values note = .error fault)
    (body : List Stmt) (elseBody : Option (List Stmt)) :
    Answered ((condition.check types).faults
        + (Stmt.conditionFault? (condition.check types).type).toList.length)
      (.stmt (.conditional (note.blame? (Stmt.conditionFault? (condition.check types).type))
          (condition.check types).expr body elseBody)
        :: (condition.check types).expr.nodes) fault := by
  rcases value_of_choice_eq_error h with hv | ⟨v, hv, hb, rfl⟩
  · exact (answered_of_value ht condition hv).mono (Nat.le_add_right ..) (List.subset_cons_self ..)
  · rw [type_check_of_value ht condition hv, Stmt.conditionFault?, if_neg hb]
    exact .inr ⟨Nat.succ_pos _, _, rfl, _, List.mem_cons_self, rfl, rfl⟩

end Expr

/-! ## Statements -/

/-- What checking a piece of a tree leaves fits what evaluating it comes to: the types of the
frame behind it, or a node blamed for what evaluation stops at. -/
def Follows (types : Scopes ValueType) (faults : Nat) (nodes : List Node)
    (outer : Scopes Literal) : Except Diagnostic (List Stmt × Bindings Literal) → Prop
  | .ok (_, frame) => types.Types (outer.extend frame)
  | .error fault => Answered faults nodes fault

namespace Stmt

variable (properties : PropertyTable)

mutual

theorem follows_outcome : ∀ (s : Stmt) {types : Scopes ValueType} {outer : Scopes Literal}
    {frame : Bindings Literal}, types.Types (outer.extend frame) →
    Follows (s.check properties types).scopes (s.check properties types).faults
      (s.check properties types).node.nodes outer (s.outcome outer frame)
  | rule note selectors body, types, outer, frame, ht => by
    have ih := follows_blockOutcome body ht.extend_empty
    rw [check, outcome, Scopes.push_eq_extend, nodes]
    rcases hb : blockOutcome (outer.extend frame) .empty body with fault | ⟨out, frame'⟩ <;>
      rw [hb] at ih
    · exact Answered.mono ih (Nat.le_refl _) (List.subset_cons_self ..)
    · exact Scopes.Types.pop ih
  | declaration note property value, types, outer, frame, ht => by
    rw [check, outcome, nodes, Expr.reduce]
    rcases hv : value.value (outer.extend frame) with fault | v
    · exact (value.answered_of_value ht hv).mono (Nat.le_add_right ..) (List.subset_cons_self ..)
    · exact ht
  | assignment note name value, types, outer, frame, ht => by
    rw [check, outcome, nodes, Expr.reduce]
    rcases hv : value.value (outer.extend frame) with fault | v
    · exact (value.answered_of_value ht hv).mono (Nat.le_add_right ..) (List.subset_cons_self ..)
    · rw [value.type_check_of_value ht hv]
      exact ht.define name v
  | conditional note condition body none, types, outer, frame, ht => by
    have ih := follows_blockOutcome body ht.extend_empty
    rw [← Scopes.push_eq_extend] at ih
    rw [check, outcome, nodes, pop_scopes_checkBody_push]
    rcases hc : condition.choice (outer.extend frame) note with fault | _ | _
    · refine (condition.answered_of_choice ht hc (checkBody properties types.push body).node
        none).mono (Nat.le_add_right ..) ?_
      simp
    · exact ht
    · rcases hb : blockOutcome (outer.extend frame) .empty body with fault | ⟨out, frame'⟩ <;>
        rw [hb] at ih
      · exact Answered.mono ih (by simp) (by simp)
      · exact ht
  | conditional note condition body (some elseBody), types, outer, frame, ht => by
    have ih := follows_blockOutcome body ht.extend_empty
    have ih_else := follows_blockOutcome elseBody ht.extend_empty
    rw [← Scopes.push_eq_extend] at ih ih_else
    rw [check, outcome, nodes]
    simp only [pop_scopes_checkBody_push]
    rcases hc : condition.choice (outer.extend frame) note with fault | _ | _
    · refine (condition.answered_of_choice ht hc (checkBody properties types.push body).node
        (some (checkBody properties types.push elseBody).node)).mono (by omega) ?_
      simp
    · rcases hb : blockOutcome (outer.extend frame) .empty elseBody with fault | ⟨out, frame'⟩ <;>
        rw [hb] at ih_else
      · exact Answered.mono ih_else (by omega)
          (List.subset_cons_of_subset _ (List.subset_append_right ..))
      · exact ht
    · rcases hb : blockOutcome (outer.extend frame) .empty body with fault | ⟨out, frame'⟩ <;>
        rw [hb] at ih
      · exact Answered.mono ih (by omega) (List.subset_cons_of_subset _
          (List.subset_append_of_subset_left _ (List.subset_append_right ..)))
      · exact ht

theorem follows_blockOutcome : ∀ (body : List Stmt) {types : Scopes ValueType}
    {outer : Scopes Literal} {frame : Bindings Literal}, types.Types (outer.extend frame) →
    Follows (checkBody properties types body).scopes (checkBody properties types body).faults
      (bodyNodes (checkBody properties types body).node) outer (blockOutcome outer frame body)
  | [], types, outer, frame, ht => ht
  | stmt :: stmts, types, outer, frame, ht => by
    have ih := follows_outcome stmt ht
    rw [checkBody, blockOutcome, bodyNodes]
    rcases hs : stmt.outcome outer frame with fault | ⟨out, frame'⟩ <;> rw [hs] at ih
    · exact Answered.mono ih (Nat.le_add_right ..) (List.subset_append_left ..)
    · have ih_rest := follows_blockOutcome stmts ih
      dsimp only [bind, Except.bind]
      rcases hb : blockOutcome outer frame' stmts with fault | ⟨rest, frame''⟩ <;>
        rw [hb] at ih_rest
      · exact Answered.mono ih_rest (Nat.le_add_left ..) (List.subset_append_right ..)
      · exact ih_rest

end

end Stmt

theorem Node.diagnostic_of_answers {node : Node} {violation : Violation}
    (h : node.Answers violation) :
    ∃ d ∈ node.diagnostics, d.cause.category ≠ .disallowedProperty := by
  unfold Answers at h
  split at h
  · exact ⟨_, Option.mem_toList.2 h.2, by simp [Cause.category]⟩
  · obtain ⟨-, cause, hc, hd⟩ := h
    exact ⟨_, Option.mem_toList.2 hd, by simp [hc]⟩
  · exact ⟨_, Option.mem_toList.2 h, by simp [Cause.category]⟩
  · exact h.elim

namespace Stylesheet

theorem follows_evaluate (sheet : Stylesheet) (properties : PropertyTable) {fault : Diagnostic}
    (h : sheet.evaluate = .error fault) :
    Answered (sheet.check properties).2 (sheet.check properties).1.nodes fault := by
  have hf := Stmt.follows_blockOutcome properties sheet.body Scopes.types_empty.extend_empty
  rw [evaluate_eq] at h
  rcases hb : Stmt.blockOutcome .empty .empty sheet.body with fault' | ⟨out, frame⟩ <;>
    rw [hb] at h hf <;> cases h
  exact Answered.mono hf (Nat.le_add_left ..) (List.Subset.refl _)

theorem eq_of_span_start_eq {sheet : Stylesheet} {properties : PropertyTable}
    (h : (sheet.nodes.map (·.span.start)).Nodup) {node other : Node}
    (hn : node ∈ (sheet.check properties).1.nodes) (ho : other ∈ (sheet.check properties).1.nodes)
    (hs : other.span.start = node.span.start) : other = node := by
  have hm : (sheet.check properties).1.nodes.map (·.span.start)
      = sheet.nodes.map (·.span.start) := by
    have := congrArg (List.map Span.start) (sheet.map_span_nodes_check properties)
    rwa [List.map_map, List.map_map] at this
  rw [← hm] at h
  exact List.inj_on_of_nodup_map h ho hn hs

/-- Evaluation of any tree stops at a violation only where checking the tree has blamed the node
that starts there, and for the same thing; where starts are distinct that is the node at which
evaluation stopped. So a tree in which nothing is blamed, or declarations for their properties
only, is evaluated unless a result is out of range. -/
theorem evaluate_violation_answered (sheet : Stylesheet) (properties : PropertyTable) :
    (∀ violation position, sheet.evaluate = .error ⟨.violation violation, position⟩ →
      ∃ node ∈ (sheet.check properties).1.nodes,
        node.span.start = position ∧ node.Answers violation
          ∧ ((sheet.nodes.map (·.span.start)).Nodup →
            ∀ other ∈ (sheet.check properties).1.nodes,
              other.span.start = position → other = node))
    ∧ ((sheet.check properties).2 = 0
        ∨ (∀ d ∈ (sheet.check properties).1.diagnostics,
          d.cause.category = .disallowedProperty) →
      (∃ result, sheet.evaluate = .ok result)
        ∨ ∃ op position, sheet.evaluate = .error ⟨.overflow op, position⟩) := by
  constructor
  · intro violation position h
    rcases sheet.follows_evaluate properties h with ⟨op, ho⟩ | ⟨-, violation', hv, node, hn, hs, ha⟩
    · cases ho
    · cases hv
      refine ⟨node, hn, hs, ha, fun hd other ho hp => ?_⟩
      exact eq_of_span_start_eq hd hn ho (hp.trans hs.symm)
  · intro hd
    rcases h : sheet.evaluate with ⟨cause, position⟩ | result
    · refine .inr ?_
      rcases sheet.follows_evaluate properties h with
        ⟨op, rfl⟩ | ⟨h0, violation, -, node, hn, -, ha⟩
      · exact ⟨op, position, rfl⟩
      · exfalso
        rcases hd with hd | hd
        · omega
        · obtain ⟨d, hm, hc⟩ := Node.diagnostic_of_answers ha
          refine hc (hd d ?_)
          rw [diagnostics_eq]
          exact List.mem_append_right _ (List.mem_flatMap.2 ⟨node, hn, hm⟩)
    · exact .inl ⟨result, rfl⟩

end Stylesheet

end StyleLang
