import StyleLang.Proofs.Block
import StyleLang.Proofs.Nodes

/-!
# Blocks do not see each other

A rule and a conditional leave the scopes of their block as they were, so what they hold matters to
no statement beside them. A `Gap` is a place in a tree. What checking puts on the tree around a gap
does not depend on what is filled in (`Gap.check_fill`), and evaluation either never comes to the
gap or puts what comes of the filling into a place of its own in the output (`Landing`), with the
same statements around it whatever the filling is (`Gap.blockOutcome_fill`). That takes a filling
that binds nothing, or a gap with nothing behind it in its block (`Gap.Admits`).
-/

namespace StyleLang

/-- Whether a statement itself binds a name in its block. What is bound inside it does not count. -/
def Stmt.IsAssignment : Stmt → Prop
  | .assignment _ _ _ => True
  | _ => False

/-- A statement around a block, without the block. -/
inductive Shell where
  | rule (note : Note) (selectors : List Selector)
  | thenBranch (note : Note) (condition : Expr) (elseBody : Option (List Stmt))
  | elseBranch (note : Note) (condition : Expr) (body : List Stmt)

/-- The statement with the block. -/
def Shell.close : Shell → List Stmt → Stmt
  | rule note selectors, body => .rule note selectors body
  | thenBranch note condition elseBody, body => .conditional note condition body elseBody
  | elseBranch note condition body, elseBody => .conditional note condition body (some elseBody)

/-- A place between two statements of a block, or of a block inside it. -/
inductive Gap where
  | here (before after : List Stmt)
  | inside (before : List Stmt) (shell : Shell) (inner : Gap) (after : List Stmt)

namespace Gap

/-- The block with statements put into the gap. -/
def fill : Gap → List Stmt → List Stmt
  | here before after, stmts => before ++ stmts ++ after
  | inside before shell inner after, stmts => before ++ shell.close (inner.fill stmts) :: after

/-- The gap that is the whole block of a statement that stands in the gap. -/
def into (shell : Shell) : Gap → Gap
  | here before after => .inside before shell (.here [] []) after
  | inside before outer inner after => .inside before outer (inner.into shell) after

theorem fill_into (shell : Shell) (body : List Stmt) :
    ∀ gap : Gap, (gap.into shell).fill body = gap.fill [shell.close body]
  | here before after => by simp [into, fill]
  | inside before outer inner after => by rw [into, fill, fill, fill_into shell body inner]

/-- The gap with more statements before and behind the block. -/
def extend (front back : List Stmt) : Gap → Gap
  | here before after => .here (front ++ before) (after ++ back)
  | inside before shell inner after => .inside (front ++ before) shell inner (after ++ back)

theorem fill_extend (front back stmts : List Stmt) :
    ∀ gap : Gap, (gap.extend front back).fill stmts = front ++ gap.fill stmts ++ back
  | here before after => by simp [extend, fill]
  | inside before shell inner after => by simp [extend, fill]

/-- Nothing that comes behind the gap can tell what is filled in, because nothing is bound there or
because nothing comes. -/
def Admits : Gap → List Stmt → Prop
  | here _ after, stmts => after = [] ∨ ∀ s ∈ stmts, ¬ s.IsAssignment
  | inside _ _ inner _, stmts => inner.Admits stmts

theorem admits_of_forall {stmts : List Stmt} (h : ∀ s ∈ stmts, ¬ s.IsAssignment) :
    ∀ gap : Gap, gap.Admits stmts
  | here _ _ => .inr h
  | inside _ _ inner _ => admits_of_forall h inner

theorem admits_into (shell : Shell) (body : List Stmt) : ∀ gap : Gap, (gap.into shell).Admits body
  | here _ _ => .inl rfl
  | inside _ _ inner _ => admits_into shell body inner

end Gap

/-! ## Checking -/

namespace Stmt

variable (properties : PropertyTable)

theorem scopes_check_of_not_isAssignment : ∀ {s : Stmt}, ¬ s.IsAssignment →
    ∀ scopes, (s.check properties scopes).scopes = scopes
  | rule _ _ _, _, scopes | conditional _ _ _ none, _, scopes => by
    rw [check, pop_scopes_checkBody_push]
  | declaration _ _ _, _, _ => rfl
  | assignment _ _ _, h, _ => absurd trivial h
  | conditional _ _ _ (some _), _, scopes => by
    simp only [check, pop_scopes_checkBody_push]

theorem scopes_checkBody_of_not_isAssignment (scopes : Scopes ValueType) :
    ∀ {stmts : List Stmt}, (∀ s ∈ stmts, ¬ s.IsAssignment) →
      (checkBody properties scopes stmts).scopes = scopes
  | [], _ => rfl
  | stmt :: stmts, h => by
    rw [List.forall_mem_cons] at h
    rw [checkBody, scopes_check_of_not_isAssignment properties h.1,
      scopes_checkBody_of_not_isAssignment scopes h.2]

end Stmt

/-- What checking makes of the statement around a block, and the number of nodes it blames
there. -/
def Shell.check (properties : PropertyTable) (scopes : Scopes ValueType) : Shell → Shell × Nat
  | rule note selectors => (.rule note selectors, 0)
  | thenBranch note condition elseBody =>
    let condition := condition.check scopes
    let fault? := Stmt.conditionFault? condition.type
    let elseBody? := elseBody.map (Stmt.checkBody properties scopes.push)
    (.thenBranch (note.blame? fault?) condition.expr (elseBody?.map Checked.node),
      condition.faults + fault?.toList.length + (elseBody?.map Checked.faults).getD 0)
  | elseBranch note condition body =>
    let condition := condition.check scopes
    let fault? := Stmt.conditionFault? condition.type
    let body := Stmt.checkBody properties scopes.push body
    (.elseBranch (note.blame? fault?) condition.expr body.node,
      condition.faults + fault?.toList.length + body.faults)

theorem Shell.check_close (properties : PropertyTable) (scopes : Scopes ValueType)
    (body : List Stmt) (shell : Shell) : (shell.close body).check properties scopes =
      let checked := Stmt.checkBody properties scopes.push body
      ⟨(shell.check properties scopes).1.close checked.node, scopes,
        (shell.check properties scopes).2 + checked.faults⟩ := by
  rcases shell with ⟨note, selectors⟩ | ⟨note, condition, _ | elseBody⟩ | ⟨note, condition, body⟩
  · simp [close, check, Stmt.check, Stmt.pop_scopes_checkBody_push]
  · simp [close, check, Stmt.check, Stmt.pop_scopes_checkBody_push]
  · simp only [close, check, Stmt.check, Stmt.pop_scopes_checkBody_push, Option.map_some,
      Option.getD_some]
    congr 1
    omega
  · simp [close, check, Stmt.check, Stmt.pop_scopes_checkBody_push]

namespace Gap

variable (properties : PropertyTable)

/-- What checking makes of the statements around a gap, and the number of nodes it blames there. -/
def check (scopes : Scopes ValueType) : Gap → Gap × Nat
  | here before after =>
    let before := Stmt.checkBody properties scopes before
    let after := Stmt.checkBody properties before.scopes after
    (.here before.node after.node, before.faults + after.faults)
  | inside before shell inner after =>
    let before := Stmt.checkBody properties scopes before
    let shell := shell.check properties before.scopes
    let inner := inner.check before.scopes.push
    let after := Stmt.checkBody properties before.scopes after
    (.inside before.node shell.1 inner.1 after.node,
      before.faults + shell.2 + inner.2 + after.faults)

/-- The scopes that what is filled in is checked in. -/
def scopes (scopes : Scopes ValueType) : Gap → Scopes ValueType
  | here before _ => (Stmt.checkBody properties scopes before).scopes
  | inside before _ inner _ =>
    inner.scopes (Stmt.checkBody properties scopes before).scopes.push

variable {stmts : List Stmt}

/-- A filled gap is checked like the statements around it and, in the scopes of the gap, those
inside. -/
theorem check_fill : ∀ {gap : Gap}, gap.Admits stmts → ∀ scopes : Scopes ValueType,
    (Stmt.checkBody properties scopes (gap.fill stmts)).node
        = (gap.check properties scopes).1.fill
          (Stmt.checkBody properties (gap.scopes properties scopes) stmts).node
      ∧ (Stmt.checkBody properties scopes (gap.fill stmts)).faults
        = (gap.check properties scopes).2
          + (Stmt.checkBody properties (gap.scopes properties scopes) stmts).faults
  | here before after, h, scopes => by
    simp only [fill, check, Gap.scopes, Stmt.checkBody_append]
    rcases h with rfl | h
    · simp [Stmt.checkBody]
    · rw [Stmt.scopes_checkBody_of_not_isAssignment properties _ h]
      exact ⟨rfl, by omega⟩
  | inside before shell inner after, h, scopes => by
    obtain ⟨hn, hf⟩ := check_fill (show inner.Admits stmts from h)
      (Stmt.checkBody properties scopes before).scopes.push
    simp only [fill, check, Gap.scopes, Stmt.checkBody_append, Stmt.checkBody,
      Shell.check_close]
    exact ⟨by rw [hn], by omega⟩

end Gap

/-! ## Evaluation -/

/-- What comes of a block with a gap: all of its statements if evaluation does not come to the gap,
and otherwise the scopes and the frame there, and the place in the output for what is filled in. -/
inductive Landing where
  | passed (out : List Stmt)
  | reached (outer : Scopes Literal) (frame : Bindings Literal) (place : Gap)

namespace Landing

/-- Statements in the gap turn the block into other statements. -/
def Gives (stmts out : List Stmt) : Landing → Prop
  | passed all => out = all
  | reached outer frame place =>
    ∃ inner frame', Stmt.blockOutcome outer frame stmts = .ok (inner, frame')
      ∧ out = place.fill inner

def extend (front back : List Stmt) : Landing → Landing
  | passed out => .passed (front ++ out ++ back)
  | reached outer frame place => .reached outer frame (place.extend front back)

/-- What comes of a rule of whose block a landing comes. -/
def inRule (note : Note) (selectors : List Selector) : Landing → Landing
  | passed out => .passed [.rule note selectors out]
  | reached outer frame place =>
    .reached outer frame (.inside [] (.rule note selectors) place [])

variable {stmts out : List Stmt}

theorem gives_extend {front back : List Stmt} {landing : Landing} :
    (landing.extend front back).Gives stmts out
      ↔ ∃ middle, landing.Gives stmts middle ∧ out = front ++ middle ++ back := by
  rcases landing with all | ⟨outer, frame, place⟩
  · simp [extend, Gives]
  · simp only [extend, Gives, Gap.fill_extend]
    constructor
    · rintro ⟨inner, frame', h, rfl⟩
      exact ⟨_, ⟨inner, frame', h, rfl⟩, rfl⟩
    · rintro ⟨_, ⟨inner, frame', h, rfl⟩, rfl⟩
      exact ⟨inner, frame', h, rfl⟩

theorem gives_inRule {note : Note} {selectors : List Selector} {landing : Landing} :
    (landing.inRule note selectors).Gives stmts out
      ↔ ∃ body, landing.Gives stmts body ∧ out = [.rule note selectors body] := by
  rcases landing with all | ⟨outer, frame, place⟩
  · simp [inRule, Gives]
  · simp only [inRule, Gives, Gap.fill, Shell.close, List.nil_append]
    constructor
    · rintro ⟨inner, frame', h, rfl⟩
      exact ⟨_, ⟨inner, frame', h, rfl⟩, rfl⟩
    · rintro ⟨_, ⟨inner, frame', h, rfl⟩, rfl⟩
      exact ⟨inner, frame', h, rfl⟩

end Landing

/-- What comes of a block without the gap. -/
def Landing.ofBlock (scopes : Scopes Literal) (body : List Stmt) : Except Diagnostic Landing :=
  (Stmt.blockOutcome scopes .empty body).map fun (out, _) => .passed out

/-- What comes of a statement around a block with a gap. A branch that is not chosen is passed. -/
def Shell.landing (scopes : Scopes Literal) (landing : Except Diagnostic Landing) :
    Shell → Except Diagnostic Landing
  | rule note selectors => landing.map (Landing.inRule note selectors)
  | thenBranch note condition elseBody => do
    if ← condition.choice scopes note then landing
    else Landing.ofBlock scopes (elseBody.getD [])
  | elseBranch note condition body => do
    if ← condition.choice scopes note then Landing.ofBlock scopes body
    else landing

/-- What comes of a block with a gap, whatever is filled in. -/
def Gap.landing (outer : Scopes Literal) (frame : Bindings Literal) :
    Gap → Except Diagnostic Landing
  | here before after => do
    let (before, frame) ← Stmt.blockOutcome outer frame before
    let (after, _) ← Stmt.blockOutcome outer frame after
    return .reached outer frame (.here before after)
  | inside before shell inner after => do
    let (before, frame) ← Stmt.blockOutcome outer frame before
    let middle ← shell.landing (outer.extend frame) (inner.landing (outer.extend frame) .empty)
    let (after, _) ← Stmt.blockOutcome outer frame after
    return middle.extend before after

/-- A landing says which statements come of a block with certain ones in the gap, if any do. -/
def Landing.Foretells (landing : Except Diagnostic Landing) (stmts : List Stmt)
    (result : Except Diagnostic (List Stmt × Bindings Literal)) : Prop :=
  ∀ out, (∃ frame, result = .ok (out, frame)) ↔ ∃ l, landing = .ok l ∧ l.Gives stmts out

namespace Stmt

variable {outer : Scopes Literal} {frame frame' : Bindings Literal} {out : List Stmt}

theorem frame_of_outcome : ∀ {s : Stmt}, ¬ s.IsAssignment →
    s.outcome outer frame = .ok (out, frame') → frame' = frame
  | rule _ _ _, _, h => by
    obtain ⟨-, -, -, -, rfl⟩ := outcome_rule_eq_ok_iff.1 h
    rfl
  | declaration _ _ _, _, h => by
    obtain ⟨-, -, -, rfl⟩ := outcome_declaration_eq_ok_iff.1 h
    rfl
  | assignment _ _ _, hs, _ => absurd trivial hs
  | conditional _ _ _ _, _, h => by
    obtain ⟨-, -, -, -, rfl⟩ := outcome_conditional_eq_ok_iff.1 h
    rfl

theorem frame_of_blockOutcome : ∀ {stmts out : List Stmt} {frame : Bindings Literal},
    (∀ s ∈ stmts, ¬ s.IsAssignment) → blockOutcome outer frame stmts = .ok (out, frame') →
      frame' = frame
  | [], _, _, _, h => by
    cases h
    rfl
  | stmt :: stmts, out, frame, hs, h => by
    rw [List.forall_mem_cons] at hs
    obtain ⟨first, frame'', rest, hfirst, hrest, -⟩ := blockOutcome_cons_eq_ok_iff.1 h
    rw [frame_of_blockOutcome hs.2 hrest, frame_of_outcome hs.1 hfirst]

/-- Two statements that bind nothing turn into what each of them turns into alone. -/
theorem blockOutcome_pair_eq_ok_iff {s₁ s₂ : Stmt} (h₁ : ¬ s₁.IsAssignment)
    (h₂ : ¬ s₂.IsAssignment) :
    (∃ frame', blockOutcome outer frame [s₁, s₂] = .ok (out, frame'))
      ↔ ∃ out₁ out₂, s₁.outcome outer frame = .ok (out₁, frame)
        ∧ s₂.outcome outer frame = .ok (out₂, frame) ∧ out = out₁ ++ out₂ := by
  constructor
  · rintro ⟨frame', h⟩
    obtain ⟨out₁, frame₁, rest, ho₁, hr, rfl⟩ := blockOutcome_cons_eq_ok_iff.1 h
    obtain ⟨out₂, frame₂, _, ho₂, ⟨⟩, rfl⟩ := blockOutcome_cons_eq_ok_iff.1 hr
    obtain rfl := frame_of_outcome h₁ ho₁
    obtain rfl := frame_of_outcome h₂ ho₂
    exact ⟨out₁, out₂, ho₁, ho₂, by rw [List.append_nil]⟩
  · rintro ⟨out₁, out₂, ho₁, ho₂, rfl⟩
    exact ⟨frame, blockOutcome_cons_eq_ok_iff.2 ⟨out₁, frame, out₂, ho₁,
      blockOutcome_cons_eq_ok_iff.2 ⟨out₂, frame, [], ho₂, rfl, (List.append_nil _).symm⟩, rfl⟩⟩

end Stmt

section evaluation

variable {stmts : List Stmt} {outer : Scopes Literal} {frame : Bindings Literal}

theorem Landing.foretells_ofBlock (scopes : Scopes Literal) (body : List Stmt) :
    Landing.Foretells (ofBlock scopes body) stmts (Stmt.blockOutcome scopes .empty body) := by
  intro out
  simp only [ofBlock, map_eq_ok_iff, Prod.exists]
  constructor
  · rintro ⟨inner, hb⟩
    exact ⟨_, ⟨out, inner, hb, rfl⟩, rfl⟩
  · rintro ⟨_, ⟨out', inner, hb, rfl⟩, hg⟩
    cases hg
    exact ⟨inner, hb⟩

/-- The branch that is chosen tells what comes of a conditional. -/
theorem Landing.foretells_conditional {note : Note} {condition : Expr} {body : List Stmt}
    {elseBody : Option (List Stmt)} {chosen other : Except Diagnostic Landing}
    (hc : Landing.Foretells chosen stmts (Stmt.blockOutcome (outer.extend frame) .empty body))
    (ho : Landing.Foretells other stmts
      (Stmt.blockOutcome (outer.extend frame) .empty (elseBody.getD []))) :
    Landing.Foretells (do
      if ← condition.choice (outer.extend frame) note then chosen else other) stmts
      ((Stmt.conditional note condition body elseBody).outcome outer frame) := by
  intro out
  simp only [Stmt.outcome_conditional_eq_ok_iff, bind_eq_ok_iff]
  constructor
  · rintro ⟨_, b, inner, hb, h, rfl⟩
    cases b with
    | false =>
      obtain ⟨l, hl, hg⟩ := (ho out).1 ⟨inner, h⟩
      exact ⟨l, ⟨false, hb, hl⟩, hg⟩
    | true =>
      obtain ⟨l, hl, hg⟩ := (hc out).1 ⟨inner, h⟩
      exact ⟨l, ⟨true, hb, hl⟩, hg⟩
  · rintro ⟨l, ⟨b, hb, hl⟩, hg⟩
    cases b with
    | false =>
      obtain ⟨inner, h⟩ := (ho out).2 ⟨l, hl, hg⟩
      exact ⟨frame, false, inner, hb, h, rfl⟩
    | true =>
      obtain ⟨inner, h⟩ := (hc out).2 ⟨l, hl, hg⟩
      exact ⟨frame, true, inner, hb, h, rfl⟩

theorem Shell.foretells_landing {body : List Stmt} {landing : Except Diagnostic Landing}
    (h : Landing.Foretells landing stmts (Stmt.blockOutcome (outer.extend frame) .empty body)) :
    ∀ shell : Shell, Landing.Foretells (shell.landing (outer.extend frame) landing) stmts
      ((shell.close body).outcome outer frame)
  | rule note selectors => by
    intro out
    simp only [close, Shell.landing, Stmt.outcome_rule_eq_ok_iff, map_eq_ok_iff]
    constructor
    · rintro ⟨_, body', inner, hb, rfl, rfl⟩
      obtain ⟨l, hl, hg⟩ := (h body').1 ⟨inner, hb⟩
      exact ⟨_, ⟨l, hl, rfl⟩, Landing.gives_inRule.2 ⟨body', hg, rfl⟩⟩
    · rintro ⟨_, ⟨l, hl, rfl⟩, hg⟩
      obtain ⟨body', hg', rfl⟩ := Landing.gives_inRule.1 hg
      obtain ⟨inner, hb⟩ := (h body').2 ⟨l, hl, hg'⟩
      exact ⟨frame, body', inner, hb, rfl, rfl⟩
  | thenBranch _ _ elseBody =>
    Landing.foretells_conditional h (Landing.foretells_ofBlock _ (elseBody.getD []))
  | elseBranch _ _ body' => by
    have ho : Landing.Foretells landing stmts
      (Stmt.blockOutcome (outer.extend frame) .empty ((some body).getD [])) := h
    exact Landing.foretells_conditional (Landing.foretells_ofBlock _ body') ho

theorem Shell.not_isAssignment_close (body : List Stmt) :
    ∀ shell : Shell, ¬ (shell.close body).IsAssignment
  | rule _ _ | thenBranch _ _ _ | elseBranch _ _ _ => id

/-- What a block with a filled gap turns into is what its landing gives. -/
theorem Gap.foretells_landing : ∀ {gap : Gap}, gap.Admits stmts →
    ∀ (outer : Scopes Literal) (frame : Bindings Literal),
      Landing.Foretells (gap.landing outer frame) stmts
        (Stmt.blockOutcome outer frame (gap.fill stmts))
  | here before after, h, outer, frame, out => by
    simp only [fill, landing, Stmt.blockOutcome_append_eq_ok_iff, bind_eq_ok_iff, Prod.exists]
    constructor
    · rintro ⟨frame', _, frame₂, back, ⟨front, frame₁, inner, hb, hi, rfl⟩, ha, rfl⟩
      rcases h with rfl | h
      · obtain ⟨⟩ := ha
        exact ⟨_, ⟨front, frame₁, hb, [], frame₁, rfl, rfl⟩, inner, _, hi, rfl⟩
      · obtain rfl := Stmt.frame_of_blockOutcome h hi
        exact ⟨_, ⟨front, _, hb, back, frame', ha, rfl⟩, inner, _, hi, rfl⟩
    · rintro ⟨_, ⟨front, frame₁, hb, back, frame', ha, ⟨⟩⟩, inner, frame₂, hi, rfl⟩
      rcases h with rfl | h
      · obtain ⟨⟩ := ha
        exact ⟨frame₂, _, frame₂, [], ⟨front, frame₁, inner, hb, hi, rfl⟩, rfl, rfl⟩
      · obtain rfl := Stmt.frame_of_blockOutcome h hi
        exact ⟨frame', _, _, back, ⟨front, _, inner, hb, hi, rfl⟩, ha, rfl⟩
  | inside before shell inner after, h, outer, frame, out => by
    simp only [fill, landing, Stmt.blockOutcome_append_eq_ok_iff,
      Stmt.blockOutcome_cons_eq_ok_iff, bind_eq_ok_iff, Prod.exists]
    have hi : inner.Admits stmts := h
    have ih (frame : Bindings Literal) :=
      Shell.foretells_landing (foretells_landing hi (outer.extend frame) .empty) shell
    constructor
    · rintro ⟨frame', front, frame₁, _, hb, ⟨middle, frame₂, back, hm, ha, rfl⟩, rfl⟩
      obtain rfl := Stmt.frame_of_outcome (shell.not_isAssignment_close _) hm
      obtain ⟨l, hl, hg⟩ := (ih _ middle).1 ⟨_, hm⟩
      refine ⟨_, ⟨front, _, hb, l, hl, back, frame', ha, rfl⟩, ?_⟩
      exact Landing.gives_extend.2 ⟨middle, hg, (List.append_assoc ..).symm⟩
    · rintro ⟨_, ⟨front, frame₁, hb, l, hl, back, frame', ha, ⟨⟩⟩, hg⟩
      obtain ⟨middle, hg', rfl⟩ := Landing.gives_extend.1 hg
      obtain ⟨frame₂, hm⟩ := (ih _ middle).2 ⟨l, hl, hg'⟩
      obtain rfl := Stmt.frame_of_outcome (shell.not_isAssignment_close _) hm
      exact ⟨frame', front, _, _, hb, ⟨middle, _, back, hm, ha, rfl⟩, List.append_assoc ..⟩

end evaluation

namespace Stylesheet

variable {gap : Gap} {stmts : List Stmt} {note : Note}

theorem check_fill (h : gap.Admits stmts) (properties : PropertyTable) :
    check ⟨note, gap.fill stmts⟩ properties =
      let around := gap.check properties (Scopes.push .empty)
      let inside := Stmt.checkBody properties (gap.scopes properties (Scopes.push .empty)) stmts
      (⟨note, around.1.fill inside.node⟩, around.2 + inside.faults) := by
  obtain ⟨hn, hf⟩ := Gap.check_fill properties h (Scopes.push .empty)
  exact Prod.ext (congrArg (Stylesheet.mk note) hn) ((faults_check _ properties).trans hf)

theorem evaluate_fill_eq_ok_iff (h : gap.Admits stmts) {sheet : Stylesheet} :
    evaluate ⟨note, gap.fill stmts⟩ = .ok sheet ↔
      ∃ l, gap.landing .empty .empty = .ok l ∧ ∃ out, l.Gives stmts out ∧ sheet = ⟨note, out⟩ := by
  have hg := Gap.foretells_landing h .empty .empty
  simp only [evaluate_eq, map_eq_ok_iff, Prod.exists]
  constructor
  · rintro ⟨out, frame, hb, rfl⟩
    obtain ⟨l, hl, ho⟩ := (hg out).1 ⟨frame, hb⟩
    exact ⟨l, hl, out, ho, rfl⟩
  · rintro ⟨l, hl, out, ho, rfl⟩
    obtain ⟨frame, hb⟩ := (hg out).2 ⟨l, hl, ho⟩
    exact ⟨out, frame, hb, rfl⟩

/-- What the trees have in common that hold two statements in one order and in the other. -/
structure Exchanged (properties : PropertyTable) (note : Note) (gap : Gap) (s₁ s₂ : Stmt) :
    Prop where
  /-- The notes are the same on every node, around the statements and inside them, and so is their
  count. -/
  checked :
    let around := gap.check properties (Scopes.push .empty)
    let t₁ := s₁.check properties (gap.scopes properties (Scopes.push .empty))
    let t₂ := s₂.check properties (gap.scopes properties (Scopes.push .empty))
    check ⟨note, gap.fill [s₁, s₂]⟩ properties
        = (⟨note, around.1.fill [t₁.node, t₂.node]⟩, around.2 + t₁.faults + t₂.faults)
      ∧ check ⟨note, gap.fill [s₂, s₁]⟩ properties
        = (⟨note, around.1.fill [t₂.node, t₁.node]⟩, around.2 + t₁.faults + t₂.faults)
  succeeds : (∃ sheet, evaluate ⟨note, gap.fill [s₁, s₂]⟩ = .ok sheet)
    ↔ ∃ sheet, evaluate ⟨note, gap.fill [s₂, s₁]⟩ = .ok sheet
  /-- The statements that come of the two are exchanged, and those around them stay. If evaluation
  does not come to the two, there are none. -/
  evaluated : ∀ a b, evaluate ⟨note, gap.fill [s₁, s₂]⟩ = .ok a →
    evaluate ⟨note, gap.fill [s₂, s₁]⟩ = .ok b →
      ∃ landing, gap.landing .empty .empty = .ok landing ∧ match landing with
        | .passed out => a = ⟨note, out⟩ ∧ b = ⟨note, out⟩
        | .reached outer frame place => ∃ out₁ out₂, s₁.outcome outer frame = .ok (out₁, frame)
          ∧ s₂.outcome outer frame = .ok (out₂, frame)
          ∧ a = ⟨note, place.fill (out₁ ++ out₂)⟩ ∧ b = ⟨note, place.fill (out₂ ++ out₁)⟩

/-- What the trees have in common that hold one block and another in the same statement. -/
structure Replaced (properties : PropertyTable) (note : Note) (gap : Gap) (shell : Shell)
    (body body' : List Stmt) : Prop where
  /-- The notes are the same outside the block. -/
  checked :
    let around := gap.check properties (Scopes.push .empty)
    let scopes := gap.scopes properties (Scopes.push .empty)
    let marked := shell.check properties scopes
    let t := Stmt.checkBody properties scopes.push body
    let t' := Stmt.checkBody properties scopes.push body'
    check ⟨note, gap.fill [shell.close body]⟩ properties
        = (⟨note, around.1.fill [marked.1.close t.node]⟩, around.2 + marked.2 + t.faults)
      ∧ check ⟨note, gap.fill [shell.close body']⟩ properties
        = (⟨note, around.1.fill [marked.1.close t'.node]⟩, around.2 + marked.2 + t'.faults)
  /-- The statements that come of the one block stand where those of the other do, with the same
  statements around them. -/
  evaluated : ∀ a b, evaluate ⟨note, gap.fill [shell.close body]⟩ = .ok a →
    evaluate ⟨note, gap.fill [shell.close body']⟩ = .ok b →
      ∃ landing, (gap.into shell).landing .empty .empty = .ok landing ∧ match landing with
        | .passed out => a = ⟨note, out⟩ ∧ b = ⟨note, out⟩
        | .reached outer frame place => ∃ out out' inner inner',
          Stmt.blockOutcome outer frame body = .ok (out, inner)
            ∧ Stmt.blockOutcome outer frame body' = .ok (out', inner')
            ∧ a = ⟨note, place.fill out⟩ ∧ b = ⟨note, place.fill out'⟩

section exchange

variable {s₁ s₂ : Stmt} (h₁ : ¬ s₁.IsAssignment) (h₂ : ¬ s₂.IsAssignment)

include h₁ h₂

theorem forall_mem_pair : ∀ s ∈ [s₁, s₂], ¬ s.IsAssignment := by
  simp [h₁, h₂]

theorem check_fill_pair (properties : PropertyTable) (note : Note) (gap : Gap) :
    check ⟨note, gap.fill [s₁, s₂]⟩ properties =
      let around := gap.check properties (Scopes.push .empty)
      let t₁ := s₁.check properties (gap.scopes properties (Scopes.push .empty))
      let t₂ := s₂.check properties (gap.scopes properties (Scopes.push .empty))
      (⟨note, around.1.fill [t₁.node, t₂.node]⟩, around.2 + t₁.faults + t₂.faults) := by
  rw [check_fill (gap.admits_of_forall (forall_mem_pair h₁ h₂))]
  simp only [Stmt.checkBody, Stmt.scopes_check_of_not_isAssignment properties h₁]
  rw [Nat.add_zero, Nat.add_assoc]

/-- Two neighbours that bind nothing give their statements to the same place. -/
theorem evaluate_fill_pair_eq_ok_iff {note : Note} {gap : Gap} {sheet : Stylesheet} :
    evaluate ⟨note, gap.fill [s₁, s₂]⟩ = .ok sheet ↔
      ∃ landing, gap.landing .empty .empty = .ok landing ∧ match landing with
        | .passed out => sheet = ⟨note, out⟩
        | .reached outer frame place => ∃ out₁ out₂, s₁.outcome outer frame = .ok (out₁, frame)
          ∧ s₂.outcome outer frame = .ok (out₂, frame)
          ∧ sheet = ⟨note, place.fill (out₁ ++ out₂)⟩ := by
  rw [evaluate_fill_eq_ok_iff (gap.admits_of_forall (forall_mem_pair h₁ h₂))]
  refine exists_congr fun landing => and_congr_right fun _ => ?_
  rcases landing with all | ⟨outer, frame, place⟩
  · simp [Landing.Gives]
  · constructor
    · rintro ⟨_, ⟨inner, frame', hb, rfl⟩, rfl⟩
      obtain ⟨out₁, out₂, ho₁, ho₂, rfl⟩ :=
        (Stmt.blockOutcome_pair_eq_ok_iff h₁ h₂).1 ⟨frame', hb⟩
      exact ⟨out₁, out₂, ho₁, ho₂, rfl⟩
    · rintro ⟨out₁, out₂, ho₁, ho₂, rfl⟩
      obtain ⟨frame', hb⟩ :=
        (Stmt.blockOutcome_pair_eq_ok_iff h₁ h₂).2 ⟨out₁, out₂, ho₁, ho₂, rfl⟩
      exact ⟨_, ⟨_, frame', hb, rfl⟩, rfl⟩

theorem exchanged (properties : PropertyTable) (note : Note) (gap : Gap) :
    Exchanged properties note gap s₁ s₂ where
  checked := by
    refine ⟨check_fill_pair h₁ h₂ properties note gap, ?_⟩
    rw [check_fill_pair h₂ h₁ properties note gap]
    exact congrArg (Prod.mk _) (Nat.add_right_comm ..)
  succeeds := by
    simp only [evaluate_fill_pair_eq_ok_iff h₁ h₂, evaluate_fill_pair_eq_ok_iff h₂ h₁]
    constructor
    · rintro ⟨_, landing, hl, h⟩
      rcases landing with all | ⟨outer, frame, place⟩
      · exact ⟨_, _, hl, rfl⟩
      · obtain ⟨out₁, out₂, ho₁, ho₂, -⟩ := h
        exact ⟨_, _, hl, out₂, out₁, ho₂, ho₁, rfl⟩
    · rintro ⟨_, landing, hl, h⟩
      rcases landing with all | ⟨outer, frame, place⟩
      · exact ⟨_, _, hl, rfl⟩
      · obtain ⟨out₂, out₁, ho₂, ho₁, -⟩ := h
        exact ⟨_, _, hl, out₁, out₂, ho₁, ho₂, rfl⟩
  evaluated := by
    intro a b ha hb
    obtain ⟨landing, hl, ha⟩ := (evaluate_fill_pair_eq_ok_iff h₁ h₂).1 ha
    obtain ⟨landing', hl', hb⟩ := (evaluate_fill_pair_eq_ok_iff h₂ h₁).1 hb
    obtain rfl := Except.ok.inj (hl.symm.trans hl')
    refine ⟨landing, hl, ?_⟩
    rcases landing with all | ⟨outer, frame, place⟩
    · exact ⟨ha, hb⟩
    · obtain ⟨out₁, out₂, ho₁, ho₂, rfl⟩ := ha
      obtain ⟨out₂', out₁', ho₂', ho₁', rfl⟩ := hb
      cases ho₁.symm.trans ho₁'
      cases ho₂.symm.trans ho₂'
      exact ⟨out₁, out₂, ho₁, ho₂, rfl, rfl⟩

end exchange

theorem check_fill_close (properties : PropertyTable) (note : Note) (gap : Gap) (shell : Shell)
    (body : List Stmt) : check ⟨note, gap.fill [shell.close body]⟩ properties =
      let around := gap.check properties (Scopes.push .empty)
      let scopes := gap.scopes properties (Scopes.push .empty)
      let marked := shell.check properties scopes
      let t := Stmt.checkBody properties scopes.push body
      (⟨note, around.1.fill [marked.1.close t.node]⟩, around.2 + marked.2 + t.faults) := by
  have h : ∀ s ∈ [shell.close body], ¬ s.IsAssignment :=
    List.forall_mem_singleton.2 (shell.not_isAssignment_close body)
  rw [check_fill (gap.admits_of_forall h)]
  simp only [Stmt.checkBody, Shell.check_close]
  rw [Nat.add_zero, Nat.add_assoc]

theorem replaced (properties : PropertyTable) (note : Note) (gap : Gap) (shell : Shell)
    (body body' : List Stmt) : Replaced properties note gap shell body body' where
  checked := ⟨check_fill_close .., check_fill_close ..⟩
  evaluated := by
    intro a b ha hb
    rw [← gap.fill_into shell, evaluate_fill_eq_ok_iff (gap.admits_into shell _)] at ha hb
    obtain ⟨landing, hl, out, ha, rfl⟩ := ha
    obtain ⟨landing', hl', out', hb, rfl⟩ := hb
    obtain rfl := Except.ok.inj (hl.symm.trans hl')
    refine ⟨landing, hl, ?_⟩
    rcases landing with all | ⟨outer, frame, place⟩
    · exact ⟨congrArg _ ha, congrArg _ hb⟩
    · obtain ⟨o, inner, ho, rfl⟩ := ha
      obtain ⟨o', inner', ho', rfl⟩ := hb
      exact ⟨o, o', inner, inner', ho, ho', rfl, rfl⟩

/-- In every place of every tree, two neighbours that are no assignments can be exchanged, and the
block of a rule or of a branch can be replaced. -/
theorem blocks_apart (properties : PropertyTable) (note : Note) (gap : Gap) :
    (∀ s₁ s₂ : Stmt, ¬ s₁.IsAssignment → ¬ s₂.IsAssignment →
      Exchanged properties note gap s₁ s₂)
    ∧ ∀ (shell : Shell) (body body' : List Stmt),
      Replaced properties note gap shell body body' :=
  ⟨fun _ _ h₁ h₂ => exchanged h₁ h₂ properties note gap, replaced properties note gap⟩

/-- A branch binds a name again that the declaration beside it refers to. -/
theorem blocks_apart_branch :
    let note := Note.clean .nowhere
    let pixels (n : Number) := Expr.literal note (.number .pixel n)
    let assigned (n : Number) := Stmt.assignment note "Size" (pixels n)
    let gap : Gap := .inside [] (.rule note [.byTag "p"]) (.here [assigned 1] []) []
    let s₁ := Stmt.conditional note (.literal note (.boolean true))
      [assigned 2, .declaration note "width" (.var note "Size")] none
    let s₂ := Stmt.declaration note "height" (.var note "Size")
    let ruled (body : List Stmt) : Stylesheet := ⟨note, [.rule note [.byTag "p"] body]⟩
    let height := Stmt.declaration note "height" (pixels 1)
    let width := Stmt.declaration note "width" (pixels 2)
    ¬ s₁.IsAssignment ∧ ¬ s₂.IsAssignment
      ∧ evaluate ⟨note, gap.fill [s₁, s₂]⟩ = .ok (ruled [assigned 1, assigned 2, width, height])
      ∧ evaluate ⟨note, gap.fill [s₂, s₁]⟩
        = .ok (ruled [assigned 1, height, assigned 2, width]) := by
  intro note pixels assigned gap s₁ s₂ ruled height width
  have ha : evaluate ⟨note, gap.fill [s₁, s₂]⟩
      = .ok (ruled [assigned 1, assigned 2, width, height]) := by
    rw [evaluate_eq]
    rfl
  have h := (blocks_apart .standard note gap).1 s₁ s₂ id id
  obtain ⟨b, hb⟩ := h.succeeds.1 ⟨_, ha⟩
  obtain ⟨landing, ⟨⟩, out₁, out₂, ⟨⟩, ⟨⟩, -, rfl⟩ := h.evaluated _ b ha hb
  exact ⟨id, id, ha, hb⟩

end Stylesheet

end StyleLang
