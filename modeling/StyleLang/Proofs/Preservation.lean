import Mathlib.Data.List.Forall2
import StyleLang.Proofs.Lockstep
import StyleLang.Proofs.NormalForm

/-!
# Evaluation keeps types

The declarations of an evaluated tree come of those that evaluation has come to, one of each and in
their order (`Stmt.keeps_outcome`). Where checking found no fault, each holds a literal of the type
that was found for its value, and that type its property takes. A tree in normal form has no other
faults than declarations can have (`Stmt.faults_checkBody_of_reduced`), so an evaluated tree has
none.
-/

namespace StyleLang

open List (Forall₂)

/-- A declaration, wherever it stands in a tree. -/
structure Declaration where
  note : Note
  property : String
  value : Expr

namespace Declaration

/-- The declaration has a literal for its value, of a type that its property takes. -/
def Fits (properties : PropertyTable) (d : Declaration) : Prop :=
  ∃ note v, d.value = .literal note v ∧ properties.fault? d.property v.type = none

/-- What is left of a declaration for whose value a type was found: a literal of just that type,
which its property takes. -/
structure Keeps (properties : PropertyTable) (origin : Declaration × ValueType)
    (d : Declaration) : Prop where
  note : d.note = origin.1.note
  property : d.property = origin.1.property
  value : ∃ v, d.value = origin.1.value.replace v ∧ v.type = origin.2
  accepted : ∃ types, properties.accepted? d.property = some types ∧ origin.2 ∈ types

theorem Keeps.fits {properties : PropertyTable} {origin : Declaration × ValueType}
    {d : Declaration} (h : Keeps properties origin d) : d.Fits properties := by
  obtain ⟨v, hv, ht⟩ := h.value
  refine ⟨_, v, hv, ?_⟩
  rw [ht]
  exact PropertyTable.fault?_eq_none_iff.2 h.accepted

theorem fits_of_keeps {properties : PropertyTable} {origins : List (Declaration × ValueType)}
    {ds : List Declaration} (h : Forall₂ (Keeps properties) origins ds) :
    ∀ d ∈ ds, d.Fits properties := by
  have hflip : Forall₂ (fun d origin => d.Fits properties ∧ Keeps properties origin d) ds origins :=
    Forall₂.flip (h.imp fun _ _ hk => ⟨hk.fits, hk⟩)
  exact ((List.forall₂_and_left ds origins).1 hflip).1

end Declaration

namespace Stmt

mutual

/-- The declarations in a statement, at any depth. -/
def declarations : Stmt → List Declaration
  | rule _ _ body => bodyDeclarations body
  | declaration note property value => [⟨note, property, value⟩]
  | assignment _ _ _ => []
  | conditional _ _ body none => bodyDeclarations body
  | conditional _ _ body (some elseBody) => bodyDeclarations body ++ bodyDeclarations elseBody

def bodyDeclarations : List Stmt → List Declaration
  | [] => []
  | stmt :: stmts => stmt.declarations ++ bodyDeclarations stmts

end

theorem bodyDeclarations_append : ∀ a b : List Stmt,
    bodyDeclarations (a ++ b) = bodyDeclarations a ++ bodyDeclarations b
  | [], _ => rfl
  | stmt :: stmts, b => by
    rw [List.cons_append, bodyDeclarations, bodyDeclarations_append stmts b, bodyDeclarations,
      List.append_assoc]

theorem bodyDeclarations_singleton (s : Stmt) : bodyDeclarations [s] = s.declarations :=
  List.append_nil _

variable (properties : PropertyTable)

/-! ## The declarations that evaluation comes to -/

mutual

/-- The declarations that evaluation comes to in a statement, each with the type that checking finds
for its value in the scopes that it has open there. Of a conditional these are the ones in the
branch that is chosen. -/
def reached (types : Scopes ValueType) (outer : Scopes Literal) (frame : Bindings Literal) :
    Stmt → List (Declaration × ValueType)
  | rule _ _ body => bodyReached types.push (outer.extend frame) .empty body
  | declaration note property value => [(⟨note, property, value⟩, (value.check types).type)]
  | assignment _ _ _ => []
  | conditional note condition body none =>
    match condition.choice (outer.extend frame) note with
    | .ok true => bodyReached types.push (outer.extend frame) .empty body
    | .ok false | .error _ => []
  | conditional note condition body (some elseBody) =>
    match condition.choice (outer.extend frame) note with
    | .ok true => bodyReached types.push (outer.extend frame) .empty body
    | .ok false => bodyReached types.push (outer.extend frame) .empty elseBody
    | .error _ => []

/-- The declarations that evaluation comes to in a block, up to what cannot be evaluated. -/
def bodyReached (types : Scopes ValueType) (outer : Scopes Literal) (frame : Bindings Literal) :
    List Stmt → List (Declaration × ValueType)
  | [] => []
  | stmt :: stmts =>
    stmt.reached types outer frame ++
      match stmt.outcome outer frame with
      | .ok (_, frame) => bodyReached (stmt.check properties types).scopes outer frame stmts
      | .error _ => []

end

mutual

theorem reached_sublist : ∀ (s : Stmt) (types : Scopes ValueType) (outer : Scopes Literal)
    (frame : Bindings Literal),
    ((s.reached properties types outer frame).map Prod.fst).Sublist s.declarations
  | rule _ _ body, _, _, _ => bodyReached_sublist body _ _ _
  | declaration _ _ _, _, _, _ => .refl _
  | assignment _ _ _, _, _, _ => .refl _
  | conditional note condition body none, types, outer, frame => by
    rw [reached, declarations]
    rcases condition.choice (outer.extend frame) note with fault | _ | _
    · exact List.nil_sublist _
    · exact List.nil_sublist _
    · exact bodyReached_sublist body _ _ _
  | conditional note condition body (some elseBody), types, outer, frame => by
    rw [reached, declarations]
    rcases condition.choice (outer.extend frame) note with fault | _ | _
    · exact List.nil_sublist _
    · exact (bodyReached_sublist elseBody _ _ _).trans (List.sublist_append_right ..)
    · exact (bodyReached_sublist body _ _ _).trans (List.sublist_append_left ..)

/-- What evaluation comes to stands in the tree, in this order. -/
theorem bodyReached_sublist : ∀ (body : List Stmt) (types : Scopes ValueType)
    (outer : Scopes Literal) (frame : Bindings Literal),
    ((bodyReached properties types outer frame body).map Prod.fst).Sublist (bodyDeclarations body)
  | [], _, _, _ => .refl _
  | stmt :: stmts, types, outer, frame => by
    rw [bodyReached, bodyDeclarations, List.map_append]
    refine (reached_sublist stmt types outer frame).append ?_
    rcases stmt.outcome outer frame with fault | ⟨out, frame'⟩
    · exact List.nil_sublist _
    · exact bodyReached_sublist stmts _ _ _

end

mutual

theorem keeps_outcome : ∀ (s : Stmt) {types : Scopes ValueType} {outer : Scopes Literal}
    {frame frame' : Bindings Literal} {out : List Stmt}, types.Types (outer.extend frame) →
    (s.check properties types).faults = 0 → s.outcome outer frame = .ok (out, frame') →
    Forall₂ (Declaration.Keeps properties) (s.reached properties types outer frame)
      (bodyDeclarations out)
  | rule note selectors body, _, _, _, _, _, ht, hf, h => by
    obtain ⟨body', inner, hb, rfl, -⟩ := outcome_rule_eq_ok_iff.1 h
    rw [bodyDeclarations_singleton]
    exact keeps_blockOutcome body ht.extend_empty hf hb
  | declaration note property value, types, _, _, _, _, ht, hf, h => by
    obtain ⟨v, hv, rfl, -⟩ := outcome_declaration_eq_ok_iff.1 h
    -- The literal has the type that was found for the value, and that one was accepted.
    have htype := value.type_check_of_value ht hv
    have hfault : properties.fault? property (value.check types).type = none := by
      simp only [check, Nat.add_eq_zero_iff, List.length_eq_zero_iff,
        Option.toList_eq_nil_iff] at hf
      exact hf.2
    exact .cons ⟨rfl, rfl, ⟨v, rfl, htype.symm⟩, PropertyTable.fault?_eq_none_iff.1 hfault⟩ .nil
  | assignment note name value, _, _, _, _, _, _, _, h => by
    obtain ⟨v, -, rfl, -⟩ := outcome_assignment_eq_ok_iff.1 h
    exact .nil
  | conditional note condition body none, types, _, _, _, _, ht, hf, h => by
    simp only [check] at hf
    have hpush : types.push.Types _ := ht.extend_empty
    obtain ⟨_ | _, inner, hc, hb, -⟩ := outcome_conditional_eq_ok_iff.1 h <;> rw [reached, hc]
    · cases hb
      exact .nil
    · exact keeps_blockOutcome body hpush (by omega) hb
  | conditional note condition body (some elseBody), types, _, _, _, _, ht, hf, h => by
    simp only [check, pop_scopes_checkBody_push] at hf
    have hpush : types.push.Types _ := ht.extend_empty
    obtain ⟨_ | _, inner, hc, hb, -⟩ := outcome_conditional_eq_ok_iff.1 h <;> rw [reached, hc]
    · exact keeps_blockOutcome elseBody hpush (by omega) hb
    · exact keeps_blockOutcome body hpush (by omega) hb

/-- Each declaration that comes of a block without faults keeps the type of the one it comes of. -/
theorem keeps_blockOutcome : ∀ (body : List Stmt) {types : Scopes ValueType}
    {outer : Scopes Literal} {frame frame' : Bindings Literal} {out : List Stmt},
    types.Types (outer.extend frame) → (checkBody properties types body).faults = 0 →
    blockOutcome outer frame body = .ok (out, frame') →
    Forall₂ (Declaration.Keeps properties) (bodyReached properties types outer frame body)
      (bodyDeclarations out)
  | [], _, _, _, _, _, _, _, h => by
    cases h
    exact .nil
  | stmt :: stmts, types, outer, frame, _, _, ht, hf, h => by
    obtain ⟨first, frame'', rest, hs, hb, rfl⟩ := blockOutcome_cons_eq_ok_iff.1 h
    simp only [checkBody] at hf
    have ht' := follows_outcome properties stmt ht
    rw [hs] at ht'
    rw [bodyReached, hs, bodyDeclarations_append]
    exact List.rel_append (keeps_outcome stmt ht (by omega) hs)
      (keeps_blockOutcome stmts ht' (by omega) hb)

end

/-! ## Checking what evaluation leaves -/

mutual

theorem faults_check_of_reduced : ∀ s : Stmt, s.Reduced →
    (∀ d ∈ s.declarations, d.Fits properties) →
    ∀ scopes, (s.check properties scopes).faults = 0
  | rule _ _ body, h, hd, scopes => faults_checkBody_of_reduced body h hd scopes.push
  | declaration note property _, h, hd, scopes => by
    obtain ⟨span, v, rfl⟩ := h
    obtain ⟨_, _, ⟨⟩, hp⟩ := hd _ List.mem_cons_self
    simp [check, Expr.check, hp]
  | assignment _ name _, h, _, scopes => by
    obtain ⟨span, v, rfl⟩ := h
    simp [check, Expr.check, assignmentFault?, v.type_ne_undefined]
  | conditional _ _ _ _, h, _, _ => h.elim

/-- In normal form nothing but a declaration can have a fault. -/
theorem faults_checkBody_of_reduced : ∀ body : List Stmt, BodyReduced body →
    (∀ d ∈ bodyDeclarations body, d.Fits properties) →
    ∀ scopes, (checkBody properties scopes body).faults = 0
  | [], _, _, _ => rfl
  | stmt :: stmts, h, hd, scopes => by
    rw [bodyDeclarations, List.forall_mem_append] at hd
    simp only [checkBody, faults_check_of_reduced stmt h.1 hd.1,
      faults_checkBody_of_reduced stmts h.2 hd.2]

end

end Stmt

namespace Stylesheet

/-- The declarations of a stylesheet, at any depth. -/
def declarations (sheet : Stylesheet) : List Declaration :=
  Stmt.bodyDeclarations sheet.body

/-- The declarations that evaluating a stylesheet comes to, with the types that checking it finds
for their values. -/
def reached (sheet : Stylesheet) (properties : PropertyTable) : List (Declaration × ValueType) :=
  Stmt.bodyReached properties (Scopes.push .empty) .empty .empty sheet.body

/-- A tree without faults is not changed by checking. What it is evaluated to has no faults either:
its declarations come of those that evaluation has come to, one of each in their order, and each
holds a literal of just the type that checking found for the value of the one it comes of, which is
a type that its property takes. -/
theorem evaluate_keeps_types {sheet result : Stylesheet} {properties : PropertyTable}
    (hf : (sheet.check properties).2 = 0) (he : sheet.evaluate = .ok result) :
    (sheet.check properties).1 = sheet
    ∧ (result.check properties).2 = 0
    ∧ ((sheet.reached properties).map Prod.fst).Sublist sheet.declarations
    ∧ Forall₂ (Declaration.Keeps properties) (sheet.reached properties) result.declarations := by
  have hr := reduced_evaluate he
  rw [evaluate_eq] at he
  rcases hb : Stmt.blockOutcome .empty .empty sheet.body with fault | ⟨out, frame⟩ <;>
    rw [hb] at he <;> cases he
  have hbody := (faults_check sheet properties).symm.trans hf
  have hk := Stmt.keeps_blockOutcome properties sheet.body Scopes.types_empty.extend_empty hbody hb
  refine ⟨check_of_faults hf, ?_, Stmt.bodyReached_sublist .., hk⟩
  rw [faults_check]
  exact Stmt.faults_checkBody_of_reduced properties _ hr (Declaration.fits_of_keeps hk) _

/-- Two branches bind one name to values of two types, and the sum in the branch that is chosen has
the type of the binding there. -/
theorem evaluate_keeps_types_branch :
    let note := Note.clean .nowhere
    let number (measure : Measure) (n : Number) := Expr.literal note (.number measure n)
    let size := Expr.var note "Size"
    let sheet : Stylesheet := ⟨note, [
      .assignment note "Size" (number .scalar 2),
      .rule note [.byTag "p"] [
        .conditional note (.literal note (.boolean false)) [
          .assignment note "Size" (number .pixel 1),
          .declaration note "width" (.binary note .add size size)]
          (some [
            .assignment note "Size" (.binary note .multiply (number .percentage 3) size),
            .declaration note "width" (.binary note .add size size)]),
        .declaration note "height" (.binary note .multiply size (number .pixel 5))]]⟩
    let result : Stylesheet := ⟨note, [
      .assignment note "Size" (number .scalar 2),
      .rule note [.byTag "p"] [
        .assignment note "Size" (number .percentage 6),
        .declaration note "width" (number .percentage 12),
        .declaration note "height" (number .pixel 10)]]⟩
    (sheet.check .standard).2 = 0 ∧ sheet.evaluate = .ok result
    ∧ (result.check .standard).2 = 0
    ∧ (sheet.reached .standard).map Prod.snd = [.percentage, .pixel]
    ∧ Forall₂ (Declaration.Keeps .standard) (sheet.reached .standard) result.declarations := by
  intro note number size sheet result
  have hf : (sheet.check .standard).2 = 0 := by decide +kernel
  have he : sheet.evaluate = .ok result := by
    rw [evaluate_eq]
    rfl
  have hr : (sheet.reached .standard).map Prod.snd = [.percentage, .pixel] := by decide +kernel
  obtain ⟨-, hresult, -, hk⟩ := evaluate_keeps_types hf he
  exact ⟨hf, he, hresult, hr, hk⟩

end Stylesheet

end StyleLang
