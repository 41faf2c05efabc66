import StyleLang.Compile
import StyleLang.Proofs.Block
import StyleLang.Proofs.Nodes

/-!
# What evaluation leaves

Evaluation leaves no conditional, and a literal for each value (`Stmt.reduced_outcome`). A tree of
this form can always be written (`Stmt.exists_lines_of_reduced`), so that a source that is
evaluated has an output (`Stylesheet.exists_emit_of_evaluate`). Nothing in it is left to evaluate
(`Stmt.blockOutcome_of_reduced`): what a branch has bound stands in the block around it then and
may hide another binding, but no value looks at either.
-/

namespace StyleLang

namespace Stmt

mutual

/-- The statement holds no conditional, and its values are literals nobody complains about. -/
def Reduced : Stmt → Prop
  | rule _ _ body => BodyReduced body
  | declaration _ _ value | assignment _ _ value =>
    ∃ span literal, value = .literal (.clean span) literal
  | conditional _ _ _ _ => False

def BodyReduced : List Stmt → Prop
  | [] => True
  | stmt :: stmts => stmt.Reduced ∧ BodyReduced stmts

end

theorem bodyReduced_iff {body : List Stmt} : BodyReduced body ↔ ∀ s ∈ body, s.Reduced := by
  induction body with
  | nil => simp [BodyReduced]
  | cons stmt stmts ih => simp [BodyReduced, ih]

theorem bodyReduced_append {a b : List Stmt} :
    BodyReduced (a ++ b) ↔ BodyReduced a ∧ BodyReduced b := by
  simp only [bodyReduced_iff, List.forall_mem_append]

mutual

theorem reduced_outcome : ∀ (s : Stmt) {outer : Scopes Literal} {frame frame' : Bindings Literal}
    {out : List Stmt}, s.outcome outer frame = .ok (out, frame') → BodyReduced out
  | rule _ _ body, _, _, _, _, h => by
    obtain ⟨body', inner, hb, rfl, -⟩ := outcome_rule_eq_ok_iff.1 h
    exact ⟨reduced_blockOutcome body hb, trivial⟩
  | declaration _ _ _, _, _, _, _, h => by
    obtain ⟨v, -, rfl, -⟩ := outcome_declaration_eq_ok_iff.1 h
    exact ⟨⟨_, v, rfl⟩, trivial⟩
  | assignment _ _ _, _, _, _, _, h => by
    obtain ⟨v, -, rfl, -⟩ := outcome_assignment_eq_ok_iff.1 h
    exact ⟨⟨_, v, rfl⟩, trivial⟩
  | conditional _ _ body none, _, _, _, _, h => by
    obtain ⟨_ | _, inner, -, hb, -⟩ := outcome_conditional_eq_ok_iff.1 h
    · exact reduced_blockOutcome [] hb
    · exact reduced_blockOutcome body hb
  | conditional _ _ body (some elseBody), _, _, _, _, h => by
    obtain ⟨_ | _, inner, -, hb, -⟩ := outcome_conditional_eq_ok_iff.1 h
    · exact reduced_blockOutcome elseBody hb
    · exact reduced_blockOutcome body hb

/-- What a block turns into is in normal form. -/
theorem reduced_blockOutcome : ∀ (body : List Stmt) {outer : Scopes Literal}
    {frame frame' : Bindings Literal} {out : List Stmt},
    blockOutcome outer frame body = .ok (out, frame') → BodyReduced out
  | [], _, _, _, _, h => by
    cases h
    trivial
  | stmt :: stmts, _, _, _, _, h => by
    obtain ⟨first, frame'', rest, hs, hb, rfl⟩ := blockOutcome_cons_eq_ok_iff.1 h
    exact bodyReduced_append.2 ⟨reduced_outcome stmt hs, reduced_blockOutcome stmts hb⟩

end

mutual

theorem exists_lines_of_reduced : ∀ (s : Stmt), s.Reduced → ∀ level,
    ∃ lines, s.lines level = .ok lines
  | rule _ _ body, h, level => by
    obtain ⟨lines, hl⟩ := exists_bodyLines_of_reduced body h (level + 1)
    rw [Stmt.lines, hl]
    exact ⟨_, rfl⟩
  | declaration _ _ value, h, level => by
    obtain ⟨span, literal, rfl⟩ := h
    exact ⟨_, rfl⟩
  | assignment _ _ _, _, _ => ⟨[], rfl⟩
  | conditional _ _ _ _, h, _ => h.elim

theorem exists_bodyLines_of_reduced : ∀ (body : List Stmt), BodyReduced body → ∀ level,
    ∃ lines, bodyLines level body = .ok lines
  | [], _, _ => ⟨[], rfl⟩
  | stmt :: stmts, h, level => by
    obtain ⟨first, hf⟩ := exists_lines_of_reduced stmt h.1 level
    obtain ⟨rest, hr⟩ := exists_bodyLines_of_reduced stmts h.2 level
    rw [bodyLines, hf, hr]
    exact ⟨_, rfl⟩

end

/-- The value of a declaration or of an assignment. -/
def value? : Stmt → Option Expr
  | declaration _ _ value | assignment _ _ value => some value
  | rule _ _ _ | conditional _ _ _ _ => none

theorem stmt_notMem_nodes (s : Stmt) : ∀ e : Expr, Node.stmt s ∉ e.nodes
  | .literal _ _ | .var _ _ => by simp [Expr.nodes]
  | .binary _ _ left right => by
    simp [Expr.nodes, stmt_notMem_nodes s left, stmt_notMem_nodes s right]

mutual

theorem value_of_reduced {s : Stmt} {value : Expr} (hv : s.value? = some value) :
    ∀ t : Stmt, t.Reduced → .stmt s ∈ t.nodes →
      ∃ span literal, value = .literal (.clean span) literal
  | rule _ _ body, h, hm => by
    rcases List.mem_cons.1 hm with he | hm
    · cases he
      cases hv
    · exact value_of_bodyReduced hv body h hm
  | declaration _ _ _, h, hm | assignment _ _ _, h, hm => by
    rcases List.mem_cons.1 hm with he | hm
    · cases he
      cases hv
      exact h
    · exact absurd hm (stmt_notMem_nodes s _)
  | conditional _ _ _ _, h, _ => h.elim

/-- In normal form every value is a literal, at any depth. -/
theorem value_of_bodyReduced {s : Stmt} {value : Expr} (hv : s.value? = some value) :
    ∀ body : List Stmt, BodyReduced body → .stmt s ∈ bodyNodes body →
      ∃ span literal, value = .literal (.clean span) literal
  | [], _, hm => nomatch hm
  | stmt :: stmts, h, hm => by
    rcases List.mem_append.1 hm with hm | hm
    · exact value_of_reduced hv stmt h.1 hm
    · exact value_of_bodyReduced hv stmts h.2 hm

end

mutual

theorem conditionals_of_reduced : ∀ s : Stmt, s.Reduced → s.conditionals = 0
  | rule _ _ body, h => bodyConditionals_of_reduced body h
  | declaration _ _ _, _ | assignment _ _ _, _ => rfl
  | conditional _ _ _ _, h => h.elim

theorem bodyConditionals_of_reduced :
    ∀ body : List Stmt, BodyReduced body → bodyConditionals body = 0
  | [], _ => rfl
  | stmt :: stmts, h => by
    rw [bodyConditionals, conditionals_of_reduced stmt h.1, bodyConditionals_of_reduced stmts h.2]

end

mutual

theorem outcome_of_reduced : ∀ (s : Stmt) (outer : Scopes Literal) (frame : Bindings Literal),
    s.Reduced → ∃ frame', s.outcome outer frame = .ok ([s], frame')
  | rule note selectors body, outer, frame, h => by
    obtain ⟨frame', hb⟩ := blockOutcome_of_reduced body (outer.extend frame) .empty h
    rw [outcome, hb]
    exact ⟨_, rfl⟩
  | declaration note property value, outer, frame, h => by
    obtain ⟨span, v, rfl⟩ := h
    exact ⟨frame, rfl⟩
  | assignment note name value, outer, frame, h => by
    obtain ⟨span, v, rfl⟩ := h
    exact ⟨frame.insert name v, rfl⟩
  | conditional _ _ _ _, _, _, h => h.elim

/-- A tree in normal form is evaluated to itself. -/
theorem blockOutcome_of_reduced : ∀ (body : List Stmt) (outer : Scopes Literal)
    (frame : Bindings Literal), BodyReduced body →
    ∃ frame', blockOutcome outer frame body = .ok (body, frame')
  | [], _, frame, _ => ⟨frame, rfl⟩
  | stmt :: stmts, outer, frame, h => by
    obtain ⟨frame', hs⟩ := outcome_of_reduced stmt outer frame h.1
    obtain ⟨frame'', hb⟩ := blockOutcome_of_reduced stmts outer frame' h.2
    exact ⟨frame'', blockOutcome_cons_eq_ok_iff.2 ⟨[stmt], frame', stmts, hs, hb, rfl⟩⟩

end

theorem bodyLines_append (level : Nat) : ∀ a b : List Stmt, bodyLines level (a ++ b) = do
      let first ← bodyLines level a
      let rest ← bodyLines level b
      return first ++ rest
  | [], b => by
    rw [List.nil_append, bodyLines]
    cases bodyLines level b <;> rfl
  | stmt :: stmts, b => by
    rw [List.cons_append, bodyLines, bodyLines, bodyLines_append level stmts b]
    simp only [bind_assoc, pure_bind, List.append_assoc]

end Stmt

namespace Stylesheet

theorem reduced_evaluate {sheet result : Stylesheet} (h : sheet.evaluate = .ok result) :
    Stmt.BodyReduced result.body := by
  rw [evaluate_eq] at h
  rcases hb : Stmt.blockOutcome .empty .empty sheet.body with fault | ⟨body, frame⟩ <;>
    rw [hb] at h <;> cases h
  exact Stmt.reduced_blockOutcome sheet.body hb

theorem exists_css_of_reduced {sheet : Stylesheet} (h : Stmt.BodyReduced sheet.body) :
    ∃ css, sheet.css = .ok css := by
  obtain ⟨lines, hl⟩ := Stmt.exists_bodyLines_of_reduced _ h 0
  rw [css, hl]
  exact ⟨_, rfl⟩

theorem evaluate_of_reduced {sheet : Stylesheet} (h : Stmt.BodyReduced sheet.body) :
    sheet.evaluate = .ok sheet := by
  obtain ⟨frame, hb⟩ := Stmt.blockOutcome_of_reduced sheet.body .empty .empty h
  rw [evaluate_eq, hb]
  rfl

/-- Where evaluation succeeds there is an output. -/
theorem exists_emit_of_evaluate {sheet result : Stylesheet} (h : sheet.evaluate = .ok result) :
    ∃ css, sheet.emit = .ok css := by
  rw [emit, h]
  exact exists_css_of_reduced (reduced_evaluate h)

theorem emit_eq_error {sheet : Stylesheet} {fault : Diagnostic} (h : sheet.emit = .error fault) :
    sheet.evaluate = .error fault := by
  rcases he : sheet.evaluate with fault' | result
  · rw [emit, he] at h
    cases h
    rfl
  · obtain ⟨css, hc⟩ := exists_emit_of_evaluate he
    cases h.symm.trans hc

/-- Evaluating any tree, with complaints on it or without, leaves no conditional and only literals
nobody complains about as values, at any depth. The result can be written, and evaluating it again
gives the same tree with the same notes. -/
theorem evaluate_settles {sheet result : Stylesheet} (h : sheet.evaluate = .ok result) :
    result.conditionals = 0
    ∧ (∀ s value, .stmt s ∈ result.nodes → s.value? = some value →
        ∃ span literal, value = .literal (.clean span) literal)
    ∧ (∃ css, result.css = .ok css)
    ∧ result.evaluate = .ok result := by
  have hr := reduced_evaluate h
  refine ⟨Stmt.bodyConditionals_of_reduced _ hr, fun s value hm hv => ?_,
    exists_css_of_reduced hr, evaluate_of_reduced hr⟩
  exact Stmt.value_of_bodyReduced hv _ hr hm

/-- What a branch binds comes to stand behind a binding of the same name in the block around it,
before a value that was the other's; complaints on statements stay. -/
theorem evaluate_settles_branch :
    let note := Note.clean .nowhere
    let blamed := note.blame (.undefinedVariable "Size")
    let pixels (n : Number) := Expr.literal note (.number .pixel n)
    let size := Expr.var blamed "Size"
    let sheet : Stylesheet := ⟨note, [
      .rule blamed [.byTag "p"] [
        .assignment note "Size" (pixels 1),
        .conditional blamed (.literal note (.boolean true)) [
          .assignment blamed "Size" (.binary blamed .add size (pixels 2)),
          .rule note [.byTag "q"] [
            .conditional note (.literal note (.boolean false)) []
              (some [.declaration blamed "width" size])]] none,
        .declaration note "width" size]]⟩
    let result : Stylesheet := ⟨note, [
      .rule blamed [.byTag "p"] [
        .assignment note "Size" (pixels 1),
        .assignment blamed "Size" (pixels 3),
        .rule note [.byTag "q"] [.declaration blamed "width" (pixels 3)],
        .declaration note "width" (pixels 1)]]⟩
    sheet.evaluate = .ok result ∧ result.conditionals = 0 ∧ result.evaluate = .ok result := by
  intro note blamed pixels size sheet result
  have h : sheet.evaluate = .ok result := by
    rw [evaluate_eq]
    rfl
  obtain ⟨hc, -, -, he⟩ := evaluate_settles h
  exact ⟨h, hc, he⟩

end Stylesheet

end StyleLang
