import StyleLang.Proofs.Block
import StyleLang.Proofs.Nodes

/-!
# More names in scope

A tree in which every name is found comes to the same where more names are in scope, as long as
those that were found keep their values (`Scopes.Within`): expressions keep their types and their
values, no fault appears (`Stmt.faults_checkBody_of_within`), and blocks turn into the same
statements (`Stmt.blockOutcome_of_within`).
-/

namespace StyleLang

/-- Whatever is found in the first scopes is found in the second, with the same value. -/
structure Scopes.Within {α : Type} (small big : Scopes α) : Prop where
  depth_left : small.depth ≠ 0
  depth_right : big.depth ≠ 0
  lookup : ∀ {name value}, small.lookup name = some value → big.lookup name = some value

namespace Scopes.Within

variable {α : Type} {small big : Scopes α}

theorem push (h : small.Within big) : small.push.Within big.push :=
  ⟨Nat.succ_ne_zero _, Nat.succ_ne_zero _, h.lookup⟩

theorem define (h : small.Within big) (name : String) (value : α) :
    (small.define name value).Within (big.define name value) where
  depth_left := by
    rw [depth_define]
    exact h.depth_left
  depth_right := by
    rw [depth_define]
    exact h.depth_right
  lookup {other v} hv := by
    rw [lookup_define h.depth_left] at hv
    rw [lookup_define h.depth_right]
    split at hv
    · rename_i he
      rw [if_pos he, hv]
    · rename_i he
      rw [if_neg he, h.lookup hv]

/-- In a first frame nothing is found. -/
theorem of_empty (big : Scopes α) (h : big.depth ≠ 0) : (empty.extend .empty).Within big :=
  ⟨Nat.one_ne_zero, h, fun hv => nomatch hv⟩

end Scopes.Within

/-! ## Checking -/

theorem Expr.check_of_within {small big : Scopes ValueType} (h : small.Within big) :
    ∀ e : Expr, (e.check small).faults = 0 → e.check big = e.check small
  | literal _ _, _ => rfl
  | var note name, hf => by
    rw [check] at hf ⊢
    rw [check]
    rcases hl : small.lookup name with _ | t
    · rw [hl] at hf
      cases hf
    · rw [h.lookup hl]
  | binary note op left right, hf => by
    have hl : (left.check small).faults = 0 ∧ (right.check small).faults = 0 := by
      rw [check_binary] at hf
      split at hf <;> simp only [] at hf <;> omega
    rw [check_binary, check_binary, check_of_within h left hl.1, check_of_within h right hl.2]

namespace Stmt

section check

variable (properties : PropertyTable)

mutual

theorem faults_check_of_within : ∀ (s : Stmt) {small big : Scopes ValueType}, small.Within big →
    (s.check properties small).faults = 0 → (s.check properties big).faults = 0
      ∧ (s.check properties small).scopes.Within (s.check properties big).scopes
  | rule _ _ body, small, big, h, hf => by
    obtain ⟨hb, -⟩ := faults_checkBody_of_within body h.push hf
    simp only [check, pop_scopes_checkBody_push]
    exact ⟨hb, h⟩
  | declaration _ _ value, small, big, h, hf => by
    simp only [check] at hf ⊢
    rw [value.check_of_within h (by omega)]
    exact ⟨hf, h⟩
  | assignment _ name value, small, big, h, hf => by
    simp only [check] at hf ⊢
    rw [value.check_of_within h (by omega)]
    exact ⟨hf, h.define name _⟩
  | conditional _ condition body none, small, big, h, hf => by
    simp only [check, pop_scopes_checkBody_push] at hf ⊢
    obtain ⟨hb, -⟩ := faults_checkBody_of_within body h.push (by omega)
    rw [condition.check_of_within h (by omega), hb]
    exact ⟨by omega, h⟩
  | conditional _ condition body (some elseBody), small, big, h, hf => by
    simp only [check, pop_scopes_checkBody_push] at hf ⊢
    obtain ⟨hb, -⟩ := faults_checkBody_of_within body h.push (by omega)
    obtain ⟨he, -⟩ := faults_checkBody_of_within elseBody h.push (by omega)
    rw [condition.check_of_within h (by omega), hb, he]
    exact ⟨by omega, h⟩

/-- A block without faults has none where more names are in scope. -/
theorem faults_checkBody_of_within : ∀ (body : List Stmt) {small big : Scopes ValueType},
    small.Within big → (checkBody properties small body).faults = 0 →
    (checkBody properties big body).faults = 0
      ∧ (checkBody properties small body).scopes.Within (checkBody properties big body).scopes
  | [], _, _, h, _ => ⟨rfl, h⟩
  | stmt :: stmts, small, big, h, hf => by
    simp only [checkBody] at hf ⊢
    obtain ⟨hs, hw⟩ := faults_check_of_within stmt h (by omega)
    obtain ⟨hb, hw'⟩ := faults_checkBody_of_within stmts hw (by omega)
    exact ⟨by omega, hw'⟩

end

end check

end Stmt

/-! ## Evaluating -/

namespace Expr

variable {small big : Scopes Literal}

theorem value_of_within (h : small.Within big) :
    ∀ (e : Expr) {v : Literal}, e.value small = .ok v → e.value big = .ok v
  | literal _ _, _, hv => hv
  | var note name, v, hv => by
    rw [value] at hv ⊢
    rcases hl : small.lookup name with _ | v' <;> rw [hl] at hv <;> cases hv
    rw [h.lookup hl]
  | binary note op left right, v, hv => by
    rw [value, bind_eq_ok_iff] at hv
    obtain ⟨l, hl, hv⟩ := hv
    obtain ⟨r, hr, hv⟩ := bind_eq_ok_iff.1 hv
    rw [value, value_of_within h left hl, value_of_within h right hr]
    exact hv

theorem choice_of_within (h : small.Within big) {note : Note} {condition : Expr} {chosen : Bool}
    (hc : condition.choice small note = .ok chosen) : condition.choice big note = .ok chosen := by
  rw [choice, reduce, bind_assoc, bind_eq_ok_iff] at hc
  obtain ⟨v, hv, hc⟩ := hc
  rw [choice, reduce, value_of_within h condition hv]
  exact hc

end Expr

namespace Stmt

mutual

theorem outcome_of_within : ∀ (s : Stmt) {outer big : Scopes Literal}
    {frame frame' wide : Bindings Literal} {out : List Stmt},
    (outer.extend frame).Within (big.extend wide) → s.outcome outer frame = .ok (out, frame') →
    ∃ wide', s.outcome big wide = .ok (out, wide')
      ∧ (outer.extend frame').Within (big.extend wide')
  | rule note selectors body, outer, big, frame, _, wide, _, h, ho => by
    obtain ⟨body', inner, hb, rfl, rfl⟩ := outcome_rule_eq_ok_iff.1 ho
    obtain ⟨inner', hb', -⟩ := blockOutcome_of_within body h.push hb
    exact ⟨wide, outcome_rule_eq_ok_iff.2 ⟨body', inner', hb', rfl, rfl⟩, h⟩
  | declaration note property value, outer, big, frame, _, wide, _, h, ho => by
    obtain ⟨v, hv, rfl, rfl⟩ := outcome_declaration_eq_ok_iff.1 ho
    have hv' := value.value_of_within h hv
    exact ⟨wide, outcome_declaration_eq_ok_iff.2 ⟨v, hv', rfl, rfl⟩, h⟩
  | assignment note name value, outer, big, frame, _, wide, _, h, ho => by
    obtain ⟨v, hv, rfl, rfl⟩ := outcome_assignment_eq_ok_iff.1 ho
    have hv' := value.value_of_within h hv
    exact ⟨_, outcome_assignment_eq_ok_iff.2 ⟨v, hv', rfl, rfl⟩, h.define name v⟩
  | conditional note condition body none, outer, big, frame, _, wide, _, h, ho => by
    obtain ⟨chosen, inner, hc, hb, rfl⟩ := outcome_conditional_eq_ok_iff.1 ho
    have hc' := condition.choice_of_within h hc
    cases chosen with
    | false =>
      cases hb
      exact ⟨wide, outcome_conditional_eq_ok_iff.2 ⟨false, .empty, hc', rfl, rfl⟩, h⟩
    | true =>
      obtain ⟨inner', hb', -⟩ := blockOutcome_of_within body h.push hb
      exact ⟨wide, outcome_conditional_eq_ok_iff.2 ⟨true, inner', hc', hb', rfl⟩, h⟩
  | conditional note condition body (some elseBody), outer, big, frame, _, wide, _, h, ho => by
    obtain ⟨chosen, inner, hc, hb, rfl⟩ := outcome_conditional_eq_ok_iff.1 ho
    have hc' := condition.choice_of_within h hc
    cases chosen with
    | false =>
      obtain ⟨inner', hb', -⟩ := blockOutcome_of_within elseBody h.push hb
      exact ⟨wide, outcome_conditional_eq_ok_iff.2 ⟨false, inner', hc', hb', rfl⟩, h⟩
    | true =>
      obtain ⟨inner', hb', -⟩ := blockOutcome_of_within body h.push hb
      exact ⟨wide, outcome_conditional_eq_ok_iff.2 ⟨true, inner', hc', hb', rfl⟩, h⟩

/-- A block turns into the same statements where more names are in scope. -/
theorem blockOutcome_of_within : ∀ (body : List Stmt) {outer big : Scopes Literal}
    {frame frame' wide : Bindings Literal} {out : List Stmt},
    (outer.extend frame).Within (big.extend wide) →
    blockOutcome outer frame body = .ok (out, frame') →
    ∃ wide', blockOutcome big wide body = .ok (out, wide')
      ∧ (outer.extend frame').Within (big.extend wide')
  | [], _, _, _, _, wide, _, h, ho => by
    cases ho
    exact ⟨wide, rfl, h⟩
  | stmt :: stmts, outer, big, frame, _, wide, _, h, ho => by
    obtain ⟨first, frame'', rest, hs, hb, rfl⟩ := blockOutcome_cons_eq_ok_iff.1 ho
    obtain ⟨wide', hs', h'⟩ := outcome_of_within stmt h hs
    obtain ⟨wide'', hb', h''⟩ := blockOutcome_of_within stmts h' hb
    exact ⟨wide'', blockOutcome_cons_eq_ok_iff.2 ⟨first, wide', rest, hs', hb', rfl⟩, h''⟩

end

end Stmt

end StyleLang
