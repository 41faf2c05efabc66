import StyleLang.Proofs.Overlay
import StyleLang.Proofs.Resolution

/-!
# The faults that checking finds

The scopes that are open while a tree is checked hold for each name the type of the assignment
that it stands for at that place (`Scopes.Models`). So the types found are those of the places
(`Expr.hasType_check`), and each node is blamed for just the rule that it breaks there
(`Stmt.judged_check`, `Stylesheet.check_judged`).
-/

namespace StyleLang

open List (Forall₂)

def Node.mapNote (f : Note → Note) : Node → Node
  | expr e => .expr (e.mapNote f)
  | stmt s => .stmt (s.mapNote f)

/-- A node of a checked tree is the one at a place of the tree, blamed at its start for the rule
that it breaks there, and not blamed where it breaks none. -/
structure Judged (properties : PropertyTable) (place : Site × Node) (node : Node) : Prop where
  same : node.mapNote Note.cleared = place.2.mapNote Note.cleared
  diagnostic : ∀ d, node.note.diagnostic = some d ↔
    ∃ cause, Faulty properties place.1 place.2 cause ∧ d = ⟨cause, place.2.span.start⟩

variable {properties : PropertyTable} {scopes : Scopes ValueType} {site : Site}

/-- A node that is blamed for the rule that it breaks, if it breaks one. -/
theorem Judged.of_blame? {place : Site × Node} {node : Node} (cause? : Option Cause)
    (hs : node.mapNote Note.cleared = place.2.mapNote Note.cleared)
    (hp : place.2.note.diagnostic = none) (hn : node.note = place.2.note.blame? cause?)
    (hf : ∀ cause, Faulty properties place.1 place.2 cause ↔ cause? = some cause) :
    Judged properties place node := by
  refine ⟨hs, fun d => ?_⟩
  rw [hn, Note.diagnostic_blame? hp]
  simp only [Option.map_eq_some_iff, hf]
  constructor
  · rintro ⟨cause, hc, rfl⟩
    exact ⟨cause, hc, rfl⟩
  · rintro ⟨cause, hc, rfl⟩
    exact ⟨cause, hc, rfl⟩

namespace Scopes

/-- For each name the scopes hold the type of the assignment that it stands for at the place, and
nothing where there is none. -/
structure Models (scopes : Scopes ValueType) (site : Site) : Prop where
  depth : scopes.depth ≠ 0
  unbound : ∀ name, scopes.lookup name = none → site.Unbound name
  resolves : ∀ name t, scopes.lookup name = some t →
    ∃ value site', site.Resolves name value site' ∧ value.HasType site' t

namespace Models

variable {before : List Stmt} {outer : Site} {s : Stmt}

theorem start : (Scopes.empty.push).Models [[]] where
  depth := Nat.one_ne_zero
  unbound _ _ := by
    intro block hb
    rw [List.mem_singleton.1 hb]
    exact nofun
  resolves _ _ h := nomatch h

/-- A block begins with nothing before it. -/
theorem push (h : scopes.Models site) : scopes.push.Models ([] :: site) where
  depth := Nat.succ_ne_zero _
  unbound name hn := (h.unbound name hn).push
  resolves name t ht := by
    obtain ⟨value, site', hr, hv⟩ := h.resolves name t ht
    exact ⟨value, site', hr.push, hv⟩

/-- A statement that assigns nothing may be passed. -/
theorem pass (h : scopes.Models (before :: outer)) (hs : ∀ name, ¬ s.Assigns name) :
    scopes.Models ((before ++ [s]) :: outer) where
  depth := h.depth
  unbound name hn := (h.unbound name hn).append (hs name)
  resolves name t ht := by
    obtain ⟨value, site', hr, hv⟩ := h.resolves name t ht
    exact ⟨value, site', hr.append (hs name), hv⟩

/-- Behind an assignment its name stands for it. -/
theorem define (h : scopes.Models (before :: outer)) (note : Note) (name : String)
    {value : Expr} {t : ValueType} (hv : value.HasType (before :: outer) t) :
    (scopes.define name t).Models ((before ++ [.assignment note name value]) :: outer) where
  depth := by
    rw [depth_define]
    exact h.depth
  unbound other hn := by
    rw [lookup_define h.depth] at hn
    split at hn
    · cases hn
    · rename_i hne
      exact (h.unbound other hn).append fun he => hne he.symm
  resolves other t' ht := by
    rw [lookup_define h.depth] at ht
    split at ht
    · rename_i he
      subst he
      cases ht
      exact ⟨value, _, Site.resolves_last note other value before outer, hv⟩
    · rename_i hne
      obtain ⟨value', site', hr, hv'⟩ := h.resolves other t' ht
      exact ⟨value', site', hr.append fun he => hne he.symm, hv'⟩

end Models

end Scopes

namespace Expr

open Scopes (Models)

/-- Checking finds the type that an expression has at its place. -/
theorem hasType_check (hm : scopes.Models site) :
    ∀ e : Expr, e.HasType site (e.check scopes).type
  | literal _ _ => .literal
  | var _ name => by
    rw [check]
    rcases hl : scopes.lookup name with _ | t
    · exact .unbound (hm.unbound name hl)
    · obtain ⟨value, site', hr, hv⟩ := hm.resolves name t hl
      exact .var hr hv
  | binary _ op left right => by
    have hl := hasType_check hm left
    have hr := hasType_check hm right
    rw [check_binary]
    rcases ht : op.resultType (left.check scopes).type (right.check scopes).type with cause | t
    · exact .rejected hl hr (Operator.rejects_iff.2 ht)
    · exact .binary hl hr (Operator.yields_iff.2 ht)

theorem hasType_iff (hm : scopes.Models site) {e : Expr} {t : ValueType} :
    e.HasType site t ↔ (e.check scopes).type = t :=
  ⟨(hasType_check hm e).unique, fun h => h ▸ hasType_check hm e⟩

theorem faulty_var_iff (hm : scopes.Models site) {note : Note} {name : String} {cause : Cause} :
    Faulty properties site (.expr (.var note name)) cause
      ↔ scopes.lookup name = none ∧ cause = .undefinedVariable name := by
  constructor
  · rintro ⟨hu⟩
    refine ⟨?_, rfl⟩
    rcases hl : scopes.lookup name with _ | t
    · rfl
    · obtain ⟨value, site', hr, -⟩ := hm.resolves name t hl
      exact absurd hu hr.not_unbound
  · rintro ⟨hl, rfl⟩
    exact .reference (hm.unbound name hl)

theorem faulty_binary_iff (hm : scopes.Models site) {note : Note} {op : Operator}
    {left right : Expr} {cause : Cause} :
    Faulty properties site (.expr (.binary note op left right)) cause
      ↔ op.resultType (left.check scopes).type (right.check scopes).type = .error cause := by
  rw [← Operator.rejects_iff]
  constructor
  · intro h
    cases h with
    | operation hl hr hj =>
      rw [hasType_iff hm] at hl hr
      rwa [hl, hr]
  · exact .operation (hasType_check hm left) (hasType_check hm right)

/-- Every part of an expression is blamed for just the rule that it breaks. -/
theorem judged_check (hm : scopes.Models site) : ∀ e : Expr, e.diagnostics = [] →
    Forall₂ (Judged properties) (e.nodes.map (site, ·)) (e.check scopes).expr.nodes
  | literal note v, h => by
    refine .cons (.of_blame? none rfl (Option.toList_eq_nil_iff.1 h) rfl ?_) .nil
    intro cause
    constructor <;> exact nofun
  | var note name, h => by
    have hn : note.diagnostic = none := Option.toList_eq_nil_iff.1 h
    have hf : ∀ cause, Faulty properties site (.expr (.var note name)) cause
        ↔ scopes.lookup name = none ∧ cause = .undefinedVariable name :=
      fun cause => faulty_var_iff hm
    rw [check]
    rcases hl : scopes.lookup name with _ | t
    · refine .cons (.of_blame? (some (.undefinedVariable name)) rfl hn rfl ?_) .nil
      intro cause
      simp [hf, hl, eq_comm]
    · refine .cons (.of_blame? none rfl hn rfl ?_) .nil
      intro cause
      simp [hf, hl]
  | binary note op left right, h => by
    obtain ⟨hn, hl, hr⟩ := diagnostics_binary_eq_nil_iff.1 h
    have ihl := judged_check hm left hl
    have ihr := judged_check hm right hr
    have hs := mapNote_check Note.blind_cleared scopes (binary note op left right)
    have hf : ∀ cause, Faulty properties site (.expr (.binary note op left right)) cause
        ↔ op.resultType (left.check scopes).type (right.check scopes).type = .error cause :=
      fun cause => faulty_binary_iff hm
    rw [nodes, List.map_cons, List.map_append]
    rw [check_binary] at hs ⊢
    rcases ht : op.resultType (left.check scopes).type (right.check scopes).type with cause | t <;>
      rw [ht] at hs
    · refine .cons (.of_blame? (some cause) (congrArg Node.expr hs) hn rfl ?_)
        (List.rel_append ihl ihr)
      intro cause'
      simp [hf, ht]
    · refine .cons (.of_blame? none (congrArg Node.expr hs) hn rfl ?_)
        (List.rel_append ihl ihr)
      intro cause
      simp [hf, ht]

end Expr

namespace Stmt

open Scopes (Models)

theorem faulty_assignment_iff (hm : scopes.Models site) {note : Note} {name : String}
    {value : Expr} {cause : Cause} :
    Faulty properties site (.stmt (.assignment note name value)) cause
      ↔ assignmentFault? name (value.check scopes).type = some cause := by
  unfold assignmentFault?
  constructor
  · intro h
    cases h with
    | assignment hv => rw [if_pos ((Expr.hasType_iff hm).1 hv)]
  · intro h
    split at h
    · rename_i ht
      cases h
      exact .assignment ((Expr.hasType_iff hm).2 ht)
    · cases h

theorem faulty_conditional_iff (hm : scopes.Models site) {note : Note} {condition : Expr}
    {body : List Stmt} {elseBody : Option (List Stmt)} {cause : Cause} :
    Faulty properties site (.stmt (.conditional note condition body elseBody)) cause
      ↔ conditionFault? (condition.check scopes).type = some cause := by
  unfold conditionFault?
  constructor
  · intro h
    cases h with
    | condition ht hb =>
      rw [Expr.hasType_iff hm] at ht
      rw [ht, if_neg hb]
  · intro h
    split at h
    · cases h
    · rename_i hb
      cases h
      exact .condition (Expr.hasType_check hm condition) hb

theorem faulty_declaration_iff (hm : scopes.Models site) {note : Note} {property : String}
    {value : Expr} {cause : Cause} :
    Faulty properties site (.stmt (.declaration note property value)) cause
      ↔ properties.fault? property (value.check scopes).type = some cause := by
  unfold PropertyTable.fault?
  constructor
  · intro h
    cases h with
    | unknown ha => rw [ha]
    | unaccepted ha hv hn =>
      rw [Expr.hasType_iff hm] at hv
      rw [ha, hv]
      exact if_neg hn
  · intro h
    split at h
    · rename_i ha
      cases h
      exact .unknown ha
    · rename_i types ha
      split at h
      · cases h
      · rename_i hn
        cases h
        exact .unaccepted ha (Expr.hasType_check hm value) hn

theorem not_faulty_rule {note : Note} {selectors : List Selector} {body : List Stmt}
    {cause : Cause} : ¬ Faulty properties site (.stmt (.rule note selectors body)) cause :=
  nofun

/-- Behind a statement the scopes hold what its assignment adds, if it is one. -/
theorem models_check {before : List Stmt} {outer : Site} :
    ∀ s : Stmt, scopes.Models (before :: outer) →
      (s.check properties scopes).scopes.Models ((before ++ [s]) :: outer)
  | rule _ _ body, hm => by
    rw [check, pop_scopes_checkBody_push]
    exact hm.pass fun _ => id
  | declaration _ _ _, hm => hm.pass fun _ => id
  | assignment note name value, hm => hm.define note name (Expr.hasType_check hm value)
  | conditional _ _ body none, hm => by
    rw [check, pop_scopes_checkBody_push]
    exact hm.pass fun _ => id
  | conditional _ _ body (some elseBody), hm => by
    rw [check, pop_scopes_checkBody_push, pop_scopes_checkBody_push]
    exact hm.pass fun _ => id

variable (properties)

mutual

/-- Every node of a statement is blamed for just the rule that it breaks at its place. -/
theorem judged_check : ∀ (s : Stmt) {scopes : Scopes ValueType} {site : Site},
    scopes.Models site → s.diagnostics = [] →
    Forall₂ (Judged properties) (s.places site) (s.check properties scopes).node.nodes
  | rule note selectors body, scopes, site, hm, h => by
    simp only [diagnostics, List.append_eq_nil_iff, Option.toList_eq_nil_iff] at h
    have hs := mapNote_check properties Note.blind_cleared (rule note selectors body) scopes
    rw [places, check, nodes]
    refine .cons (.of_blame? none (congrArg Node.stmt hs) h.1 rfl ?_)
      (judged_checkBody body hm.push h.2)
    intro cause
    exact ⟨fun hf => absurd hf not_faulty_rule, nofun⟩
  | declaration note property value, scopes, site, hm, h => by
    simp only [diagnostics, List.append_eq_nil_iff, Option.toList_eq_nil_iff] at h
    have hs := mapNote_check properties Note.blind_cleared (declaration note property value) scopes
    rw [places, check, nodes]
    exact .cons (.of_blame? _ (congrArg Node.stmt hs) h.1 rfl fun _ => faulty_declaration_iff hm)
      (value.judged_check hm h.2)
  | assignment note name value, scopes, site, hm, h => by
    simp only [diagnostics, List.append_eq_nil_iff, Option.toList_eq_nil_iff] at h
    have hs := mapNote_check properties Note.blind_cleared (assignment note name value) scopes
    rw [places, check, nodes]
    exact .cons (.of_blame? _ (congrArg Node.stmt hs) h.1 rfl fun _ => faulty_assignment_iff hm)
      (value.judged_check hm h.2)
  | conditional note condition body none, scopes, site, hm, h => by
    simp only [diagnostics, List.append_eq_nil_iff, Option.toList_eq_nil_iff] at h
    obtain ⟨⟨hn, hc⟩, hb⟩ := h
    have hs := mapNote_check properties Note.blind_cleared (conditional note condition body none)
      scopes
    rw [places, check, nodes]
    exact .cons (.of_blame? _ (congrArg Node.stmt hs) hn rfl fun _ => faulty_conditional_iff hm)
      (List.rel_append (condition.judged_check hm hc) (judged_checkBody body hm.push hb))
  | conditional note condition body (some elseBody), scopes, site, hm, h => by
    simp only [diagnostics, List.append_eq_nil_iff, Option.toList_eq_nil_iff] at h
    obtain ⟨⟨⟨hn, hc⟩, hb⟩, he⟩ := h
    have hs := mapNote_check properties Note.blind_cleared
      (conditional note condition body (some elseBody)) scopes
    rw [places, check, nodes, pop_scopes_checkBody_push]
    rw [check, pop_scopes_checkBody_push] at hs
    exact .cons (.of_blame? _ (congrArg Node.stmt hs) hn rfl fun _ => faulty_conditional_iff hm)
      (List.rel_append (List.rel_append (condition.judged_check hm hc)
        (judged_checkBody body hm.push hb)) (judged_checkBody elseBody hm.push he))

theorem judged_checkBody : ∀ (body : List Stmt) {scopes : Scopes ValueType}
    {before : List Stmt} {outer : Site}, scopes.Models (before :: outer) →
    bodyDiagnostics body = [] →
    Forall₂ (Judged properties) (bodyPlaces before outer body)
      (bodyNodes (checkBody properties scopes body).node)
  | [], _, _, _, _, _ => .nil
  | stmt :: stmts, scopes, before, outer, hm, h => by
    rw [bodyDiagnostics, List.append_eq_nil_iff] at h
    rw [bodyPlaces, checkBody, bodyNodes]
    exact List.rel_append (judged_check stmt hm h.1)
      (judged_checkBody stmts (models_check stmt hm) h.2)

end

end Stmt

/-- What breaks a rule is no error of syntax, and does not end a compilation outright. -/
theorem Faulty.category {node : Node} {cause : Cause} (h : Faulty properties site node cause) :
    cause.isFatal = false ∧ cause.category ≠ .syntaxError := by
  cases h with
  | operation _ _ hj => cases hj <;> exact ⟨rfl, by simp [Cause.category]⟩
  | _ => exact ⟨rfl, by simp [Cause.category]⟩

namespace Stylesheet

theorem judged_nodes {sheet : Stylesheet} (h : sheet.diagnostics = [])
    (properties : PropertyTable) :
    Forall₂ (Judged properties) sheet.places (sheet.check properties).1.nodes := by
  rw [diagnostics, List.append_eq_nil_iff] at h
  exact Stmt.judged_checkBody properties sheet.body Scopes.Models.start h.2

/-- Each node has at most one complaint on it. -/
theorem length_diagnostics_eq_countP {sheet : Stylesheet} (h : sheet.note.diagnostic = none) :
    sheet.diagnostics.length = sheet.nodes.countP (·.note.diagnostic.isSome) := by
  have hm : sheet.nodes.flatMap Node.diagnostics
      = (sheet.nodes.map (·.note.diagnostic)).flatMap Option.toList := by
    rw [List.flatMap_map]
    rfl
  rw [diagnostics_eq, h, hm, Option.toList_none, List.nil_append, length_flatMap_toList,
    List.countP_map]
  rfl

/-- Checking a tree without complaints blames each node for just the rule that it breaks, where
names are resolved by their places, and changes nothing else. The count it gives is the number of
nodes blamed, and of the diagnostics listed. -/
theorem check_judged (sheet : Stylesheet) (properties : PropertyTable)
    (h : sheet.diagnostics = []) :
    sheet.places.map Prod.snd = sheet.nodes
    ∧ Forall₂ (Judged properties) sheet.places (sheet.check properties).1.nodes
    ∧ (sheet.check properties).1.note = sheet.note
    ∧ (sheet.check properties).1.mapNote Note.cleared = sheet.mapNote Note.cleared
    ∧ (sheet.check properties).2
      = (sheet.check properties).1.nodes.countP (·.note.diagnostic.isSome)
    ∧ (sheet.check properties).2 = (sheet.check properties).1.diagnostics.length := by
  have hn : sheet.note.diagnostic = none := by
    rw [diagnostics, List.append_eq_nil_iff] at h
    exact Option.toList_eq_nil_iff.1 h.1
  have hl := length_diagnostics_check h properties
  refine ⟨sheet.map_snd_places, judged_nodes h properties, rfl,
    mapNote_check Note.blind_cleared sheet properties, ?_, hl.symm⟩
  rw [← hl]
  exact length_diagnostics_eq_countP hn

/-- A right side that uses the name it assigns anew, with a fault that spreads. -/
theorem check_judged_shadowed :
    let note := Note.clean .nowhere
    let size := Expr.var note "Size"
    let sheet : Stylesheet := ⟨note, [
      .assignment note "Size" (.literal note (.number .pixel 2)),
      .rule note [.byTag "p"] [
        .declaration note "height" size,
        .assignment note "Size" (.binary note .multiply size size),
        .conditional note size [.declaration note "width" size] none,
        .declaration note "color" (.var note "Other")]]⟩
    sheet.diagnostics = []
    ∧ Forall₂ (Judged .standard) sheet.places (sheet.check .standard).1.nodes
    ∧ (sheet.check .standard).1.nodes.countP (·.note.diagnostic.isSome) = 6 := by
  intro note size sheet
  have h : sheet.diagnostics = [] := by decide
  obtain ⟨-, hj, -, -, hc, -⟩ := check_judged sheet .standard h
  have hcount : (sheet.check .standard).2 = 6 := by decide +kernel
  exact ⟨h, hj, hc.symm.trans hcount⟩

end Stylesheet

end StyleLang
