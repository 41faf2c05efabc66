import StyleLang.Evaluation
import StyleLang.Proofs.Frames

/-!
# Blocks by recursion on the tree

What a statement turns into depends on the frame of its block and on the scopes outside it:
`Stmt.outcome` gives the statements that come of it and the frame as it leaves it, by recursion on
the tree and with no list of steps. The list of steps computes the same: what stands behind a
block in the list is worked off in the frame the block leaves (`Step.run_ofBody_append`).

`Step.runWithin` is the loop with all that could go wrong with it: it gives up after a number of
rounds, and where a frame is to be closed or bound in and none is open. Neither happens to a list
that closes no more frames than are open (`Step.runWithin_eq_ofResult_run`).
-/

namespace StyleLang

theorem bind_eq_ok_iff {ε α β : Type} {x : Except ε α} {f : α → Except ε β} {b : β} :
    x >>= f = .ok b ↔ ∃ a, x = .ok a ∧ f a = .ok b := by
  cases x with
  | error e => exact ⟨nofun, nofun⟩
  | ok a => exact ⟨fun h => ⟨a, rfl, h⟩, fun ⟨_, ha, h⟩ => Except.ok.inj ha ▸ h⟩

theorem map_eq_ok_iff {ε α β : Type} {x : Except ε α} {f : α → β} {b : β} :
    x.map f = .ok b ↔ ∃ a, x = .ok a ∧ f a = b := by
  cases x with
  | error e => exact ⟨nofun, nofun⟩
  | ok a => exact ⟨fun h => ⟨a, rfl, Except.ok.inj h⟩, fun ⟨_, ha, h⟩ => Except.ok.inj ha ▸ h ▸ rfl⟩

/-- Which branch a condition chooses, where the complaint about another value is made at the
conditional. -/
def Expr.choice (scopes : Scopes Literal) (note : Note) (condition : Expr) :
    Except Diagnostic Bool := do
  match ← condition.reduce scopes with
  | (.boolean value, _) => return value
  | (other, _) => throw ⟨.violation (.condition other.type), note.span.start⟩

namespace Stmt

mutual

/-- What a statement turns into in a block with the given frame, and the frame behind it. A rule
and a branch leave nothing in it, as each has a frame of its own. -/
def outcome (outer : Scopes Literal) (frame : Bindings Literal) :
    Stmt → Except Diagnostic (List Stmt × Bindings Literal)
  | rule note selectors body => do
    let (body, _) ← blockOutcome (outer.extend frame) .empty body
    return ([rule note selectors body], frame)
  | declaration note property value => do
    let (_, value) ← value.reduce (outer.extend frame)
    return ([declaration note property value], frame)
  | assignment note name value => do
    let (literal, value) ← value.reduce (outer.extend frame)
    return ([assignment note name value], frame.insert name literal)
  | conditional note condition body none => do
    if (← condition.choice (outer.extend frame) note) then
      let (body, _) ← blockOutcome (outer.extend frame) .empty body
      return (body, frame)
    else return ([], frame)
  | conditional note condition body (some elseBody) => do
    if (← condition.choice (outer.extend frame) note) then
      let (body, _) ← blockOutcome (outer.extend frame) .empty body
      return (body, frame)
    else
      let (elseBody, _) ← blockOutcome (outer.extend frame) .empty elseBody
      return (elseBody, frame)

/-- What the statements of a block turn into, one after the other, and the frame behind them. -/
def blockOutcome (outer : Scopes Literal) (frame : Bindings Literal) :
    List Stmt → Except Diagnostic (List Stmt × Bindings Literal)
  | [] => return ([], frame)
  | stmt :: stmts => do
    let (first, frame) ← stmt.outcome outer frame
    let (rest, frame) ← blockOutcome outer frame stmts
    return (first ++ rest, frame)

end

theorem blockOutcome_append : ∀ (a b : List Stmt) (outer : Scopes Literal)
    (frame : Bindings Literal), blockOutcome outer frame (a ++ b) = do
      let (first, frame) ← blockOutcome outer frame a
      let (rest, frame) ← blockOutcome outer frame b
      return (first ++ rest, frame)
  | [], b, outer, frame => by simp [blockOutcome]
  | stmt :: stmts, b, outer, frame => by
    rw [List.cons_append, blockOutcome, blockOutcome]
    simp [blockOutcome_append stmts b]

/-! What a piece of a tree that can be evaluated turns into. -/

section ok

variable {outer : Scopes Literal} {frame frame' : Bindings Literal} {note : Note}
  {out body : List Stmt}

theorem outcome_rule_eq_ok_iff {selectors : List Selector} :
    (rule note selectors body).outcome outer frame = .ok (out, frame')
      ↔ ∃ body' inner, blockOutcome (outer.extend frame) .empty body = .ok (body', inner)
        ∧ out = [rule note selectors body'] ∧ frame' = frame := by
  rw [outcome, bind_eq_ok_iff]
  constructor
  · rintro ⟨⟨body', inner⟩, hb, ⟨⟩⟩
    exact ⟨body', inner, hb, rfl, rfl⟩
  · rintro ⟨body', inner, hb, rfl, rfl⟩
    exact ⟨_, hb, rfl⟩

theorem outcome_declaration_eq_ok_iff {property : String} {value : Expr} :
    (declaration note property value).outcome outer frame = .ok (out, frame')
      ↔ ∃ v, value.value (outer.extend frame) = .ok v
        ∧ out = [declaration note property (value.replace v)] ∧ frame' = frame := by
  rw [outcome, Expr.reduce, bind_assoc, bind_eq_ok_iff]
  constructor
  · rintro ⟨v, hv, ⟨⟩⟩
    exact ⟨v, hv, rfl, rfl⟩
  · rintro ⟨v, hv, rfl, rfl⟩
    exact ⟨v, hv, rfl⟩

theorem outcome_assignment_eq_ok_iff {name : String} {value : Expr} :
    (assignment note name value).outcome outer frame = .ok (out, frame')
      ↔ ∃ v, value.value (outer.extend frame) = .ok v
        ∧ out = [assignment note name (value.replace v)] ∧ frame' = frame.insert name v := by
  rw [outcome, Expr.reduce, bind_assoc, bind_eq_ok_iff]
  constructor
  · rintro ⟨v, hv, ⟨⟩⟩
    exact ⟨v, hv, rfl, rfl⟩
  · rintro ⟨v, hv, rfl, rfl⟩
    exact ⟨v, hv, rfl⟩

/-- A conditional without `else` is like one whose `else` is empty. -/
theorem outcome_conditional (condition : Expr) (elseBody : Option (List Stmt)) :
    (conditional note condition body elseBody).outcome outer frame =
      condition.choice (outer.extend frame) note >>= fun chosen =>
        blockOutcome (outer.extend frame) .empty (if chosen then body else elseBody.getD []) >>=
          fun (out, _) => pure (out, frame) := by
  cases elseBody <;> rw [outcome] <;> refine bind_congr fun chosen => ?_ <;> cases chosen <;> rfl

theorem outcome_conditional_eq_ok_iff {condition : Expr} {elseBody : Option (List Stmt)} :
    (conditional note condition body elseBody).outcome outer frame = .ok (out, frame')
      ↔ ∃ chosen inner, condition.choice (outer.extend frame) note = .ok chosen
        ∧ blockOutcome (outer.extend frame) .empty (if chosen then body else elseBody.getD [])
          = .ok (out, inner)
        ∧ frame' = frame := by
  rw [outcome_conditional, bind_eq_ok_iff]
  constructor
  · rintro ⟨chosen, hc, h⟩
    obtain ⟨⟨body', inner⟩, hb, ⟨⟩⟩ := bind_eq_ok_iff.1 h
    exact ⟨chosen, inner, hc, hb, rfl⟩
  · rintro ⟨chosen, inner, hc, hb, rfl⟩
    exact ⟨chosen, hc, bind_eq_ok_iff.2 ⟨_, hb, rfl⟩⟩

theorem blockOutcome_cons_eq_ok_iff {s : Stmt} {stmts : List Stmt} :
    blockOutcome outer frame (s :: stmts) = .ok (out, frame')
      ↔ ∃ first frame'' rest, s.outcome outer frame = .ok (first, frame'')
        ∧ blockOutcome outer frame'' stmts = .ok (rest, frame') ∧ out = first ++ rest := by
  rw [blockOutcome, bind_eq_ok_iff]
  constructor
  · rintro ⟨⟨first, frame''⟩, hs, h⟩
    obtain ⟨⟨rest, frame'''⟩, hb, ⟨⟩⟩ := bind_eq_ok_iff.1 h
    exact ⟨first, frame'', rest, hs, hb, rfl⟩
  · rintro ⟨first, frame'', rest, hs, hb, rfl⟩
    exact ⟨_, hs, bind_eq_ok_iff.2 ⟨_, hb, rfl⟩⟩

theorem blockOutcome_append_eq_ok_iff {a b : List Stmt} :
    blockOutcome outer frame (a ++ b) = .ok (out, frame')
      ↔ ∃ first frame'' rest, blockOutcome outer frame a = .ok (first, frame'')
        ∧ blockOutcome outer frame'' b = .ok (rest, frame') ∧ out = first ++ rest := by
  rw [blockOutcome_append, bind_eq_ok_iff]
  constructor
  · rintro ⟨⟨first, frame''⟩, ha, h⟩
    obtain ⟨⟨rest, frame'''⟩, hb, ⟨⟩⟩ := bind_eq_ok_iff.1 h
    exact ⟨first, frame'', rest, ha, hb, rfl⟩
  · rintro ⟨first, frame'', rest, ha, hb, rfl⟩
    exact ⟨_, ha, bind_eq_ok_iff.2 ⟨_, hb, rfl⟩⟩

end ok

end Stmt

namespace Step

@[simp] theorem ofBody_nil : ofBody [] = [] := rfl

@[simp] theorem ofBody_cons (s : Stmt) (body : List Stmt) :
    ofBody (s :: body) = stmt s :: ofBody body := rfl

theorem ofBranch_append (body : List Stmt) (steps : List Step) :
    ofBranch body ++ steps = enter :: (ofBody body ++ leave :: steps) := by
  simp [ofBranch]

/-- The branch that is chosen weighs less than the conditional. -/
theorem totalWeight_ofBranch_chosen_lt (note : Note) (condition : Expr) (body : List Stmt)
    (elseBody : Option (List Stmt)) (chosen : Bool) :
    totalWeight (ofBranch (if chosen then body else elseBody.getD []))
      < (Stmt.conditional note condition body elseBody).weight := by
  cases chosen
  · exact totalWeight_ofBranch_getD_lt
  · exact totalWeight_ofBranch_lt

@[simp] theorem run_nil (scopes : Scopes Literal) : run scopes [] = pure ([], scopes) := by
  rw [run]
  rfl

theorem run_leave_cons (scopes : Scopes Literal) (steps : List Step) :
    run scopes (leave :: steps) = run scopes.pop steps := by
  rw [run]

/-- A branch is worked off in a frame of its own, and what stands behind it outside that frame. -/
theorem run_ofBranch_append (scopes : Scopes Literal) (body : List Stmt) (steps : List Step) :
    run scopes (ofBranch body ++ steps)
      = run (scopes.extend .empty) (ofBody body ++ leave :: steps) := by
  rw [ofBranch_append, run, Scopes.push_eq_extend]

/-- The branch a condition chooses goes to the front of what is left to do. -/
theorem run_conditional_cons (scopes : Scopes Literal) (note : Note) (condition : Expr)
    (body : List Stmt) (elseBody : Option (List Stmt)) (steps : List Step) :
    run scopes (stmt (.conditional note condition body elseBody) :: steps) =
      condition.choice scopes note >>= fun chosen =>
        run scopes (ofBranch (if chosen then body else elseBody.getD []) ++ steps) := by
  rw [run]
  unfold Expr.choice Expr.reduce
  rcases condition.value scopes with fault | ⟨_, _⟩ | _ | ⟨_ | _⟩ <;> rfl

mutual

theorem run_stmt_cons : ∀ (s : Stmt) (outer : Scopes Literal) (frame : Bindings Literal)
    (steps : List Step), run (outer.extend frame) (stmt s :: steps) = do
      let (out, frame) ← s.outcome outer frame
      let (rest, scopes) ← run (outer.extend frame) steps
      return (out ++ rest, scopes)
  | .rule note selectors body, outer, frame, steps => by
    have ih := run_ofBody_append body (outer.extend frame) .empty []
    rw [List.append_nil] at ih
    rw [run, Scopes.push_eq_extend, ih, Stmt.outcome]
    simp
  | .declaration note property value, outer, frame, steps => by
    rw [run, Stmt.outcome]
    simp
  | .assignment note name value, outer, frame, steps => by
    rw [run, Stmt.outcome]
    simp [Scopes.define_extend]
  | .conditional note condition body none, outer, frame, steps => by
    have ih := run_ofBody_append body (outer.extend frame) .empty (leave :: steps)
    simp only [run_conditional_cons, Stmt.outcome, run_ofBranch_append, bind_assoc]
    refine bind_congr fun chosen => ?_
    cases chosen
    · simp [run_leave_cons]
    · simp [ih, run_leave_cons]
  | .conditional note condition body (some elseBody), outer, frame, steps => by
    have ih := run_ofBody_append body (outer.extend frame) .empty (leave :: steps)
    have ih_else := run_ofBody_append elseBody (outer.extend frame) .empty (leave :: steps)
    simp only [run_conditional_cons, Stmt.outcome, run_ofBranch_append, bind_assoc]
    refine bind_congr fun chosen => ?_
    cases chosen
    · simp [ih_else, run_leave_cons]
    · simp [ih, run_leave_cons]

/-- What stands behind a block is worked off in the frame that the block leaves. -/
theorem run_ofBody_append : ∀ (body : List Stmt) (outer : Scopes Literal)
    (frame : Bindings Literal) (steps : List Step),
    run (outer.extend frame) (ofBody body ++ steps) = do
      let (out, frame) ← Stmt.blockOutcome outer frame body
      let (rest, scopes) ← run (outer.extend frame) steps
      return (out ++ rest, scopes)
  | [], outer, frame, steps => by
    simp [Stmt.blockOutcome]
  | s :: body, outer, frame, steps => by
    have ih := run_ofBody_append body outer
    rw [ofBody_cons, List.cons_append, run_stmt_cons s, Stmt.blockOutcome]
    simp [ih]

end

theorem run_ofBody (outer : Scopes Literal) (frame : Bindings Literal) (body : List Stmt) :
    run (outer.extend frame) (ofBody body) = do
      let (out, frame) ← Stmt.blockOutcome outer frame body
      return (out, outer.extend frame) := by
  have h := run_ofBody_append body outer frame []
  rw [List.append_nil] at h
  rw [h]
  simp

/-! ## The loop within a number of rounds -/

/-- What a loop comes to, and nothing if it has to be given up. -/
abbrev Attempt := ExceptT Diagnostic Option

namespace Attempt

def ofResult {α : Type} (result : Except Diagnostic α) : Attempt α :=
  .mk (some result)

/-- Gives up where no frame is open. -/
def ofFrame {α : Type} (result : Except Misuse α) : Attempt α :=
  .mk (result.toOption.map .ok)

theorem ofResult_pure {α : Type} (a : α) : ofResult (pure a) = pure a := rfl

theorem ofResult_bind {α β : Type} (result : Except Diagnostic α)
    (f : α → Except Diagnostic β) :
    ofResult (result >>= f) = ofResult result >>= fun a => ofResult (f a) := by
  cases result <;> rfl

theorem ofFrame_ok {α : Type} (a : α) : ofFrame (.ok a) = pure a := rfl

end Attempt

/-- Works off a list of steps in at most the given number of rounds, and so for each body of a
rule inside it. Gives up when they are used up, and where a frame is to be closed or bound in and
none is open. -/
def runWithin : Nat → Scopes Literal → List Step → Attempt (List Stmt × Scopes Literal)
  | 0, _, _ => .mk none
  | _ + 1, scopes, [] => return ([], scopes)
  | rounds + 1, scopes, enter :: steps => runWithin rounds scopes.push steps
  | rounds + 1, scopes, leave :: steps => do
    let (_, scopes) ← Attempt.ofFrame scopes.pop?
    runWithin rounds scopes steps
  | rounds + 1, scopes, stmt (.rule note selectors body) :: steps => do
    let (body, inner) ← runWithin rounds scopes.push (ofBody body)
    let (_, scopes) ← Attempt.ofFrame inner.pop?
    let (rest, scopes) ← runWithin rounds scopes steps
    return (.rule note selectors body :: rest, scopes)
  | rounds + 1, scopes, stmt (.declaration note property value) :: steps => do
    let (_, value) ← Attempt.ofResult (value.reduce scopes)
    let (rest, scopes) ← runWithin rounds scopes steps
    return (.declaration note property value :: rest, scopes)
  | rounds + 1, scopes, stmt (.assignment note name value) :: steps => do
    let (literal, value) ← Attempt.ofResult (value.reduce scopes)
    let scopes ← Attempt.ofFrame (scopes.define? name literal)
    let (rest, scopes) ← runWithin rounds scopes steps
    return (.assignment note name value :: rest, scopes)
  | rounds + 1, scopes, stmt (.conditional note condition body elseBody) :: steps => do
    let chosen ← Attempt.ofResult (condition.choice scopes note)
    runWithin rounds scopes (ofBranch (if chosen then body else elseBody.getD []) ++ steps)

/-- From a number of open frames on, steps that leave a frame only where one is open, and meet
their statements inside one. -/
def Balanced : Nat → List Step → Prop
  | _, [] => True
  | depth, enter :: steps => Balanced (depth + 1) steps
  | depth, leave :: steps => depth ≠ 0 ∧ Balanced (depth - 1) steps
  | depth, stmt _ :: steps => depth ≠ 0 ∧ Balanced depth steps

theorem balanced_ofBody_append {depth : Nat} (hd : depth ≠ 0) {steps : List Step} :
    ∀ body : List Stmt, Balanced depth (ofBody body ++ steps) ↔ Balanced depth steps
  | [] => Iff.rfl
  | s :: body => by
    rw [ofBody_cons, List.cons_append, Balanced, balanced_ofBody_append hd body]
    exact and_iff_right hd

theorem balanced_ofBody {depth : Nat} (hd : depth ≠ 0) (body : List Stmt) :
    Balanced depth (ofBody body) := by
  have h : Balanced depth (ofBody body ++ []) := (balanced_ofBody_append hd body).2 trivial
  rwa [List.append_nil] at h

theorem balanced_ofBranch_append {depth : Nat} {steps : List Step} (body : List Stmt) :
    Balanced depth (ofBranch body ++ steps) ↔ Balanced depth steps := by
  rw [ofBranch_append, Balanced, balanced_ofBody_append (Nat.succ_ne_zero depth), Balanced]
  simp

/-- Within as many rounds as the steps weigh the loop comes to its end, and is never given up. -/
theorem runWithin_eq_ofResult_run : ∀ (rounds : Nat) (scopes : Scopes Literal)
    (steps : List Step), totalWeight steps < rounds → Balanced scopes.depth steps →
      runWithin rounds scopes steps = Attempt.ofResult (run scopes steps)
  | 0, _, _, hw, _ => absurd hw (Nat.not_lt_zero _)
  | rounds + 1, scopes, [], _, _ => by
    rw [run_nil, runWithin, Attempt.ofResult_pure]
  | rounds + 1, scopes, enter :: steps, hw, hb => by
    rw [totalWeight_cons, weight] at hw
    rw [runWithin, run, runWithin_eq_ofResult_run rounds _ steps (by omega) hb]
  | rounds + 1, scopes, leave :: steps, hw, hb => by
    rw [totalWeight_cons, weight] at hw
    obtain ⟨hd, hb⟩ := hb
    obtain ⟨outer, frame, rfl⟩ := Scopes.eq_extend_of_depth_ne_zero hd
    have ih := runWithin_eq_ofResult_run rounds outer steps (by omega) hb
    simp [runWithin, run_leave_cons, Attempt.ofFrame_ok, ih]
  | rounds + 1, scopes, stmt (.rule note selectors body) :: steps, hw, hb => by
    rw [totalWeight_cons, weight, Stmt.weight] at hw
    have ih_body := runWithin_eq_ofResult_run rounds scopes.push (ofBody body)
      (by rw [totalWeight_ofBody]; omega) (balanced_ofBody (Nat.succ_ne_zero _) body)
    have ih := runWithin_eq_ofResult_run rounds scopes steps (by omega) hb.2
    rw [runWithin, run, ih_body, Scopes.push_eq_extend, run_ofBody]
    simp only [bind_assoc, pure_bind, Attempt.ofResult_bind, Attempt.ofResult_pure,
      Scopes.pop?_extend, Scopes.pop_extend, Attempt.ofFrame_ok, ih]
  | rounds + 1, scopes, stmt (.declaration note property value) :: steps, hw, hb => by
    rw [totalWeight_cons, weight, Stmt.weight] at hw
    have ih := runWithin_eq_ofResult_run rounds scopes steps (by omega) hb.2
    rw [runWithin, run, ih]
    simp only [Attempt.ofResult_bind, Attempt.ofResult_pure]
  | rounds + 1, scopes, stmt (.assignment note name value) :: steps, hw, hb => by
    rw [totalWeight_cons, weight, Stmt.weight] at hw
    obtain ⟨hd, hb⟩ := hb
    obtain ⟨outer, frame, rfl⟩ := Scopes.eq_extend_of_depth_ne_zero hd
    rw [runWithin, run]
    simp only [Attempt.ofResult_bind, Attempt.ofResult_pure]
    refine bind_congr ?_
    rintro ⟨literal, value⟩
    have ih := runWithin_eq_ofResult_run rounds ((outer.extend frame).define name literal) steps
      (by omega) (by rwa [Scopes.depth_define])
    rw [Scopes.define_extend] at ih ⊢
    rw [Scopes.define?_extend, Attempt.ofFrame_ok, pure_bind, ih]
  | rounds + 1, scopes, stmt (.conditional note condition body elseBody) :: steps, hw, hb => by
    have hlt : ∀ chosen : Bool, totalWeight
        (ofBranch (if chosen then body else elseBody.getD []) ++ steps) < rounds := by
      intro chosen
      have h := totalWeight_ofBranch_chosen_lt note condition body elseBody chosen
      rw [totalWeight_cons, weight] at hw
      rw [totalWeight_append]
      omega
    rw [runWithin, run_conditional_cons, Attempt.ofResult_bind]
    refine bind_congr fun chosen => ?_
    exact runWithin_eq_ofResult_run rounds scopes _ (hlt chosen)
      ((balanced_ofBranch_append _).2 hb.2)

/-- In a stack with a frame open, the list of steps computes the recursion on the tree: the same
statements in the same order, the same frame and the same scopes outside it, or the same first
error. The loop comes to its end within as many rounds as the body weighs, and one more. -/
theorem run_ofBody_eq_blockOutcome (outer : Scopes Literal) (frame : Bindings Literal)
    (body : List Stmt) :
    (run (outer.extend frame) (ofBody body) = do
      let (out, frame) ← Stmt.blockOutcome outer frame body
      return (out, outer.extend frame))
    ∧ ∀ spare, (runWithin (Stmt.bodyWeight body + 1 + spare) (outer.extend frame)
        (ofBody body)).run = some (run (outer.extend frame) (ofBody body)) := by
  refine ⟨run_ofBody outer frame body, fun spare => ?_⟩
  have hb : Balanced (outer.extend frame).depth (ofBody body) :=
    balanced_ofBody (Nat.succ_ne_zero _) body
  rw [runWithin_eq_ofResult_run _ _ _ (by rw [totalWeight_ofBody]; omega) hb]
  rfl

end Step

/-- An evaluator gives back the scopes that it was given, or none after an error. -/
theorem Evaluator.run_eq (evaluator : Evaluator) (sheet : Stylesheet) :
    evaluator.run sheet =
      match Stmt.blockOutcome evaluator.scopes .empty sheet.body with
      | .ok (body, _) => (.ok { sheet with body }, evaluator)
      | .error fault => (.error fault, .empty) := by
  rw [run, Scopes.push_eq_extend, Step.run_ofBody]
  rcases Stmt.blockOutcome evaluator.scopes .empty sheet.body with fault | ⟨out, frame⟩ <;> rfl

/-- A stylesheet is evaluated as a block outside which no frame is open. -/
theorem Stylesheet.evaluate_eq (sheet : Stylesheet) :
    sheet.evaluate = (Stmt.blockOutcome .empty .empty sheet.body).map fun (body, _) =>
      { sheet with body } := by
  rw [evaluate, Evaluator.run_eq, Evaluator.empty]
  rcases Stmt.blockOutcome .empty .empty sheet.body with fault | ⟨out, frame⟩ <;> rfl

end StyleLang
