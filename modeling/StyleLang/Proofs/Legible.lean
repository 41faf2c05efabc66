import StyleLang.Proofs.Lockstep
import StyleLang.Proofs.Terminals

/-!
# Names and values that can be read back

A name or a color of an outline is legible where its text is one of the texts of its kind of
token. What lexical tokens derive is legible (`Outline.SheetDerives.legible`), and evaluation
keeps it so (`Stmt.legible_blockOutcome`): it takes over the names, and a value that it does not
compute is one that stood somewhere in the source.
-/

namespace StyleLang

def Literal.Legible : Literal → Prop
  | color text => Kind.color.Fits text.toList
  | number _ _ | boolean _ => True

def Operand.Legible : Operand → Prop
  | literal value => value.Legible
  | name _ => True

def Row.Legible (row : Row) : Prop :=
  row.first.Legible ∧ ∀ pair ∈ row.others, pair.2.Legible

def Selector.Legible (selector : Selector) : Prop :=
  selector.kind.Fits selector.text.toList

namespace Outline

mutual

def Legible : Outline → Prop
  | rule selectors body => selectors ≠ [] ∧ (∀ s ∈ selectors, s.Legible) ∧ BodyLegible body
  | declaration property value => Kind.lowerName.Fits property.toList ∧ value.Legible
  | assignment _ value => value.Legible
  | conditional _ body none => BodyLegible body
  | conditional _ body (some elseBody) => BodyLegible body ∧ BodyLegible elseBody

def BodyLegible : List Outline → Prop
  | [] => True
  | first :: others => first.Legible ∧ BodyLegible others

end

theorem bodyLegible_iff {body : List Outline} : BodyLegible body ↔ ∀ o ∈ body, o.Legible := by
  induction body with
  | nil => simp [BodyLegible]
  | cons first others ih => simp [BodyLegible, ih]

end Outline

/-! ## Derived outlines -/

variable {ts : List Token}

theorem Operand.Derives.legible {x : Operand} {token : Token} (h : x.Derives token)
    (hl : token.Lexical) : x.Legible := by
  cases h with
  | number _ _ _ => trivial
  | color hk =>
    unfold Token.Lexical at hl
    rwa [hk] at hl
  | boolean _ => trivial
  | name _ => trivial

theorem Row.OthersDerive.legible {others : List (Operator × Operand)}
    (h : OthersDerive others ts) (hl : ∀ token ∈ ts, token.Lexical) :
    ∀ pair ∈ others, pair.2.Legible := by
  induction h with
  | nil => exact nofun
  | cons _ hx _ ih =>
    simp only [List.forall_mem_cons] at hl ⊢
    exact ⟨hx.legible hl.2.1, ih hl.2.2⟩

theorem Row.Derives.legible {row : Row} (h : row.Derives ts)
    (hl : ∀ token ∈ ts, token.Lexical) : row.Legible := by
  cases h with
  | mk hx ho =>
    rw [List.forall_mem_cons] at hl
    exact ⟨hx.legible hl.1, ho.legible hl.2⟩

theorem Selector.Derives.legible {selector : Selector} {token : Token}
    (h : selector.Derives token) (hl : token.Lexical) : selector.Legible := by
  unfold Token.Lexical at hl
  rwa [h.kind_eq, h.text_eq] at hl

theorem Selector.OthersDerive.legible {others : List Selector} (h : OthersDerive others ts)
    (hl : ∀ token ∈ ts, token.Lexical) : ∀ s ∈ others, s.Legible := by
  induction h with
  | nil => exact nofun
  | cons _ hs _ ih =>
    simp only [List.forall_mem_cons] at hl ⊢
    exact ⟨hs.legible hl.2.1, ih hl.2.2⟩

theorem Selector.ListDerives.legible {selectors : List Selector} (h : ListDerives selectors ts)
    (hl : ∀ token ∈ ts, token.Lexical) : selectors ≠ [] ∧ ∀ s ∈ selectors, s.Legible := by
  cases h with
  | cons hs ho =>
    rw [List.forall_mem_cons] at hl
    exact ⟨List.cons_ne_nil _ _, List.forall_mem_cons.2 ⟨hs.legible hl.1, ho.legible hl.2⟩⟩

namespace Outline

mutual

theorem Derives.legible {o : Outline} {ts : List Token} :
    o.Derives ts → (∀ token ∈ ts, token.Lexical) → o.Legible
  | .assignment _ _ hv _, hl => by
    simp only [List.forall_mem_cons, List.forall_mem_append] at hl
    exact hv.legible hl.2.2.1
  | .declaration hp _ hv _, hl => by
    simp only [List.forall_mem_cons, List.forall_mem_append] at hl
    have hproperty := hl.1
    unfold Token.Lexical at hproperty
    rw [hp] at hproperty
    exact ⟨hproperty, hv.legible hl.2.2.1⟩
  | .rule hs hb, hl => by
    rw [List.forall_mem_append] at hl
    obtain ⟨hne, hsel⟩ := hs.legible hl.1
    exact ⟨hne, hsel, BlockDerives.legible hb hl.2⟩
  | @Derives.conditional _ _ _ _ body elseBody _ us vs _ _ _ _ hb he, hl => by
    simp only [List.forall_mem_cons, List.forall_mem_append] at hl
    have hbody := BlockDerives.legible hb hl.2.2.2.2.1
    have helse := ElseDerives.legible he hl.2.2.2.2.2
    cases elseBody with
    | none => exact hbody
    | some elseBody => exact ⟨hbody, helse elseBody rfl⟩

theorem BlockDerives.legible {body : List Outline} {ts : List Token} :
    BlockDerives body ts → (∀ token ∈ ts, token.Lexical) → BodyLegible body
  | .mk _ hb _, hl => by
    simp only [List.forall_mem_cons, List.forall_mem_append] at hl
    exact BodyDerives.legible hb hl.2.1

theorem ElseDerives.legible {elseBody : Option (List Outline)} {ts : List Token} :
    ElseDerives elseBody ts → (∀ token ∈ ts, token.Lexical) →
    ∀ body ∈ elseBody, BodyLegible body
  | .none, _ => nofun
  | .some _ hb, hl => by
    rw [List.forall_mem_cons] at hl
    rintro _ ⟨⟩
    exact BlockDerives.legible hb hl.2

theorem BodyDerives.legible {body : List Outline} {ts : List Token} :
    BodyDerives body ts → (∀ token ∈ ts, token.Lexical) → BodyLegible body
  | .nil, _ => trivial
  | .cons h ho, hl => by
    rw [List.forall_mem_append] at hl
    exact ⟨Derives.legible h hl.1, BodyDerives.legible ho hl.2⟩

end

/-- What lexical tokens derive is legible, and only what may stand outside of rules does. -/
theorem SheetDerives.legible {body : List Outline} (h : SheetDerives body ts)
    (hl : ∀ token ∈ ts, token.Lexical) : BodyLegible body ∧ ∀ o ∈ body, o.IsOuter := by
  induction h with
  | nil => exact ⟨trivial, nofun⟩
  | cons h ho _ ih =>
    rw [List.forall_mem_append] at hl
    obtain ⟨hb, houter⟩ := ih hl.2
    exact ⟨⟨h.legible hl.1, hb⟩, List.forall_mem_cons.2 ⟨ho, houter⟩⟩

end Outline

/-! ## Evaluated trees -/

/-- All values in scope are legible. -/
def Scopes.Legible (scopes : Scopes Literal) : Prop :=
  ∀ name value, scopes.lookup name = some value → value.Legible

namespace Scopes.Legible

variable {outer : Scopes Literal} {frame : Bindings Literal}

theorem insert (h : (outer.extend frame).Legible) (name : String) {value : Literal}
    (hv : value.Legible) : (outer.extend (frame.insert name value)).Legible := by
  intro other v hl
  have hd : (outer.extend frame).depth ≠ 0 := Nat.succ_ne_zero _
  rw [← define_extend, lookup_define hd] at hl
  split at hl
  · cases hl
    exact hv
  · exact h other v hl

theorem push (h : outer.Legible) : (outer.extend .empty).Legible := h

theorem start : (Scopes.empty.extend .empty).Legible :=
  fun _ _ hl => nomatch hl

end Scopes.Legible

theorem Operator.legible_of_eval {op : Operator} {left right v : Literal}
    (h : op.eval left right = .ok v) : v.Legible := by
  unfold eval at h
  split at h
  · split at h
    · obtain ⟨k, rfl, -⟩ := compute_eq_ok_iff.1 h
      trivial
    · cases h
  · cases h

theorem Expr.legible_of_value {scopes : Scopes Literal} (hs : scopes.Legible) {e : Expr}
    (he : e.row.Legible) {v : Literal} (h : e.value scopes = .ok v) : v.Legible := by
  cases e with
  | literal note v' =>
    cases h
    exact he.1
  | var note name =>
    rw [value] at h
    rcases hl : scopes.lookup name with _ | v' <;> rw [hl] at h <;> cases h
    exact hs name v hl
  | binary note op left right =>
    obtain ⟨l, r, -, -, hv⟩ := value_binary_eq_ok h
    exact Operator.legible_of_eval hv

namespace Stmt

open Outline (BodyLegible)

theorem bodyOutline_append (a b : List Stmt) :
    bodyOutline (a ++ b) = bodyOutline a ++ bodyOutline b := by
  simp only [bodyOutline_eq_map, List.map_append]

theorem bodyLegible_append {a b : List Stmt} : BodyLegible (bodyOutline (a ++ b))
    ↔ BodyLegible (bodyOutline a) ∧ BodyLegible (bodyOutline b) := by
  simp only [bodyOutline_append, Outline.bodyLegible_iff, List.forall_mem_append]

mutual

theorem legible_outcome : ∀ (s : Stmt) {outer : Scopes Literal} {frame frame' : Bindings Literal}
    {out : List Stmt}, s.outline.Legible → (outer.extend frame).Legible →
    s.outcome outer frame = .ok (out, frame') →
    BodyLegible (bodyOutline out) ∧ (outer.extend frame').Legible
  | rule _ _ body, _, _, _, _, hl, hs, h => by
    obtain ⟨body', inner, hb, rfl, rfl⟩ := outcome_rule_eq_ok_iff.1 h
    obtain ⟨hb', -⟩ := legible_blockOutcome body hl.2.2 hs.push hb
    exact ⟨⟨⟨hl.1, hl.2.1, hb'⟩, trivial⟩, hs⟩
  | declaration _ _ value, _, _, _, _, hl, hs, h => by
    obtain ⟨v, hv, rfl, rfl⟩ := outcome_declaration_eq_ok_iff.1 h
    exact ⟨⟨⟨hl.1, value.legible_of_value hs hl.2 hv, nofun⟩, trivial⟩, hs⟩
  | assignment _ name value, _, _, _, _, hl, hs, h => by
    obtain ⟨v, hv, rfl, rfl⟩ := outcome_assignment_eq_ok_iff.1 h
    have hleg := value.legible_of_value hs hl hv
    exact ⟨⟨⟨hleg, nofun⟩, trivial⟩, hs.insert name hleg⟩
  | conditional _ _ body none, _, _, _, _, hl, hs, h => by
    obtain ⟨_ | _, inner, -, hb, rfl⟩ := outcome_conditional_eq_ok_iff.1 h
    · cases hb
      exact ⟨trivial, hs⟩
    · exact ⟨(legible_blockOutcome body hl hs.push hb).1, hs⟩
  | conditional _ _ body (some elseBody), _, _, _, _, hl, hs, h => by
    obtain ⟨_ | _, inner, -, hb, rfl⟩ := outcome_conditional_eq_ok_iff.1 h
    · exact ⟨(legible_blockOutcome elseBody hl.2 hs.push hb).1, hs⟩
    · exact ⟨(legible_blockOutcome body hl.1 hs.push hb).1, hs⟩

theorem legible_blockOutcome : ∀ (body : List Stmt) {outer : Scopes Literal}
    {frame frame' : Bindings Literal} {out : List Stmt}, BodyLegible (bodyOutline body) →
    (outer.extend frame).Legible → blockOutcome outer frame body = .ok (out, frame') →
    BodyLegible (bodyOutline out) ∧ (outer.extend frame').Legible
  | [], _, _, _, _, _, hs, h => by
    cases h
    exact ⟨trivial, hs⟩
  | stmt :: stmts, _, _, _, _, hl, hs, h => by
    obtain ⟨first, frame'', rest, ho, hb, rfl⟩ := blockOutcome_cons_eq_ok_iff.1 h
    obtain ⟨hf, hs'⟩ := legible_outcome stmt hl.1 hs ho
    obtain ⟨hr, hs''⟩ := legible_blockOutcome stmts hl.2 hs' hb
    exact ⟨bodyLegible_append.2 ⟨hf, hr⟩, hs''⟩

end

/-- Of what may stand outside of rules nothing comes that may not. -/
theorem outer_blockOutcome : ∀ (body : List Stmt) {outer : Scopes Literal}
    {frame frame' : Bindings Literal} {out : List Stmt},
    (∀ o ∈ bodyOutline body, o.IsOuter) → blockOutcome outer frame body = .ok (out, frame') →
    ∀ o ∈ bodyOutline out, o.IsOuter
  | [], _, _, _, _, _, h => by
    cases h
    exact nofun
  | stmt :: stmts, _, _, _, _, ho, h => by
    obtain ⟨first, frame'', rest, hs, hb, rfl⟩ := blockOutcome_cons_eq_ok_iff.1 h
    rw [bodyOutline, List.forall_mem_cons] at ho
    rw [bodyOutline_append, List.forall_mem_append]
    refine ⟨?_, outer_blockOutcome stmts ho.2 hb⟩
    cases stmt with
    | rule =>
      obtain ⟨body', inner, -, rfl, -⟩ := outcome_rule_eq_ok_iff.1 hs
      exact List.forall_mem_singleton.2 trivial
    | declaration => exact ho.1.elim
    | assignment =>
      obtain ⟨v, -, rfl, -⟩ := outcome_assignment_eq_ok_iff.1 hs
      exact List.forall_mem_singleton.2 trivial
    | conditional _ _ _ elseBody => cases elseBody <;> exact ho.1.elim

end Stmt

end StyleLang
