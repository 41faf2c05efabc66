import Mathlib.Logic.Function.Basic
import StyleLang.Proofs.Block
import StyleLang.Proofs.Overlay

/-!
# Sessions

An evaluator and a checker can be kept for one tree after another. `Step.work` is the loop over
the scopes of an evaluator that are changed in place: an error leaves open what was opened before
it. Up to what an error leaves open it computes what `Step.run` computes (`Step.result_work`), and
`Session.evaluate` puts a tree in place of the old one only when all of it is there.

What a run leaves behind does not show in later runs: an evaluator gives back the scopes that it
was given, or none after an error (`Evaluator.run_eq`), and a checker always gives them back
(`Session.check_eq`). So from a session where no frame is open every job gives what it gives with an
evaluator and a checker of its own (`Session.runAll_idle`).
-/

namespace StyleLang

open Function (update)

/-! ## The loop in place -/

/-- What is done in place to the scopes of an evaluator. An error leaves them as they are then. -/
abbrev Working := EStateM Diagnostic (Scopes Literal)

namespace Working

variable {α β : Type}

/-- What is found in the scopes that are open. -/
def read (f : Scopes Literal → Except Diagnostic α) : Working α := fun scopes =>
  match f scopes with
  | .ok a => .ok a scopes
  | .error fault => .error fault scopes

/-- The result and the scopes behind it, or the error without the scopes that it leaves open. -/
def result (x : Working α) (scopes : Scopes Literal) : Except Diagnostic (α × Scopes Literal) :=
  match x scopes with
  | .ok a scopes => .ok (a, scopes)
  | .error fault _ => .error fault

theorem result_eq_ok_iff {x : Working α} {scopes scopes' : Scopes Literal} {a : α} :
    x.result scopes = .ok (a, scopes') ↔ x scopes = .ok a scopes' := by
  unfold result
  cases x scopes <;> simp

theorem result_eq_error_iff {x : Working α} {scopes : Scopes Literal} {fault : Diagnostic} :
    x.result scopes = .error fault ↔ ∃ left, x scopes = .error fault left := by
  unfold result
  cases x scopes <;> simp

theorem result_bind (x : Working α) (f : α → Working β) (scopes : Scopes Literal) :
    (x >>= f).result scopes = x.result scopes >>= fun (a, scopes) => (f a).result scopes := by
  show result (EStateM.bind x f) scopes = _
  unfold result EStateM.bind
  cases x scopes <;> rfl

theorem result_modify_bind (g : Scopes Literal → Scopes Literal) (x : Working β)
    (scopes : Scopes Literal) :
    (modify g >>= fun _ => x).result scopes = x.result (g scopes) := rfl

theorem result_read_bind (g : Scopes Literal → Except Diagnostic α) (f : α → Working β)
    (scopes : Scopes Literal) :
    (read g >>= f).result scopes = g scopes >>= fun a => (f a).result scopes := by
  rw [result_bind]
  unfold result read
  cases g scopes <;> rfl

end Working

namespace Step

/-- Works off a list of steps, where frames are opened, bound in and closed in place. -/
def work : List Step → Working (List Stmt)
  | [] => return []
  | enter :: steps => do
    modify Scopes.push
    work steps
  | leave :: steps => do
    modify Scopes.pop
    work steps
  | stmt (.rule note selectors body) :: steps => do
    modify Scopes.push
    let body ← work (ofBody body)
    modify Scopes.pop
    let rest ← work steps
    return .rule note selectors body :: rest
  | stmt (.declaration note property value) :: steps => do
    let (_, value) ← Working.read value.reduce
    let rest ← work steps
    return .declaration note property value :: rest
  | stmt (.assignment note name value) :: steps => do
    let (literal, value) ← Working.read value.reduce
    modify (·.define name literal)
    let rest ← work steps
    return .assignment note name value :: rest
  | stmt (.conditional note condition body elseBody) :: steps => do
    let chosen ← Working.read (condition.choice · note)
    work (ofBranch (if chosen then body else elseBody.getD []) ++ steps)
termination_by steps => totalWeight steps
decreasing_by
  all_goals simp only [totalWeight_cons, totalWeight_append, totalWeight_ofBody, weight]
  · omega
  · omega
  · simp only [Stmt.weight]
    omega
  · simp only [Stmt.weight]
    omega
  · simp only [Stmt.weight]
    omega
  · simp only [Stmt.weight]
    omega
  · exact Nat.add_lt_add_right (totalWeight_ofBranch_chosen_lt ..) _

/-- Up to the scopes that an error leaves open the loop in place is `run`. -/
theorem result_work (steps : List Step) (scopes : Scopes Literal) :
    (work steps).result scopes = run scopes steps := by
  induction steps using work.induct generalizing scopes with
  | case1 =>
    rw [work, run]
    rfl
  | case2 steps ih | case3 steps ih => rw [work, run, Working.result_modify_bind, ih]
  | case4 note selectors body steps ih_body ih =>
    rw [work, run, Working.result_modify_bind, Working.result_bind, ih_body]
    refine bind_congr fun (body, inner) => ?_
    dsimp only
    rw [Working.result_modify_bind, Working.result_bind, ih]
    rfl
  | case5 note property value steps ih =>
    rw [work, run, Working.result_read_bind]
    refine bind_congr fun (_, value) => ?_
    dsimp only
    rw [Working.result_bind, ih]
    rfl
  | case6 note name value steps ih =>
    rw [work, run, Working.result_read_bind]
    refine bind_congr fun (literal, value) => ?_
    dsimp only
    rw [Working.result_modify_bind, Working.result_bind, ih]
    rfl
  | case7 note condition body elseBody steps ih =>
    rw [work, run_conditional_cons, Working.result_read_bind]
    exact bind_congr fun chosen => ih chosen scopes

/-- A name that is not found in a rule leaves the frame of the rule open. -/
example :
    let note := Note.clean .nowhere
    let body := [Stmt.rule note [.byTag "p"] [.declaration note "width" (.var note "Size")]]
    (match work (ofBody body) Scopes.empty.push with
      | .ok _ scopes | .error _ scopes => scopes.depth) = 2 := by
  cbv

end Step

/-! ## Jobs on the trees of a session -/

/-- An evaluator and a checker, and the trees that they are used for. -/
structure Session where
  evaluator : Evaluator
  checker : Checker
  sheets : Nat → Stylesheet

/-- What is to be done with the tree of the given number. -/
inductive Job where
  | evaluate (k : Nat)
  | check (k : Nat)

/-- What comes of a job: the result, or by how much the count of faults has grown, and the tree as
it is then. -/
inductive Report where
  | evaluated (result : Except Diagnostic Unit) (sheet : Stylesheet)
  | checked (faults : Nat) (sheet : Stylesheet)

namespace Session

/-- A session in which no frame is open. -/
def idle (properties : PropertyTable) (faults : Nat) (sheets : Nat → Stylesheet) : Session :=
  ⟨.empty, ⟨properties, .empty, faults⟩, sheets⟩

/-- Evaluates a tree in a frame of its own. The new body is put into the tree when it is complete;
after an error no frame is open. -/
def evaluate (k : Nat) : EStateM Diagnostic Session Unit := fun session =>
  let sheet := session.sheets k
  match Step.work (Step.ofBody sheet.body) session.evaluator.scopes.push with
  | .ok body scopes => .ok () { session with
      evaluator := ⟨scopes.pop⟩, sheets := update session.sheets k { sheet with body } }
  | .error fault _ => .error fault { session with evaluator := .empty }

/-- Checks a tree, which then carries its faults. -/
def check (k : Nat) (session : Session) : Session :=
  let (sheet, checker) := session.checker.check (session.sheets k)
  { session with checker, sheets := update session.sheets k sheet }

def run (session : Session) : Job → Report × Session
  | .evaluate k =>
    match evaluate k session with
    | .ok () after => (.evaluated (.ok ()) (after.sheets k), after)
    | .error fault after => (.evaluated (.error fault) (after.sheets k), after)
  | .check k =>
    let after := session.check k
    (.checked (after.checker.faults - session.checker.faults) (after.sheets k), after)

/-- Does the jobs in order, and reports on each. -/
def runAll (session : Session) : List Job → List Report × Session
  | [] => ([], session)
  | job :: jobs =>
    let (report, after) := session.run job
    let (reports, last) := after.runAll jobs
    (report :: reports, last)

end Session

/-! ## Jobs done apart -/

namespace Report

def sheet : Report → Stylesheet
  | evaluated _ sheet | checked _ sheet => sheet

end Report

namespace Job

variable (properties : PropertyTable) (sheets : Nat → Stylesheet)

/-- The number of the tree that a job is about. -/
def place : Job → Nat
  | evaluate k | check k => k

/-- What comes of a job that is done with an evaluator and a checker of its own. -/
def report : Job → Report
  | evaluate k =>
    match (sheets k).evaluate with
    | .ok sheet => .evaluated (.ok ()) sheet
    | .error fault => .evaluated (.error fault) (sheets k)
  | check k =>
    let (sheet, faults) := (sheets k).check properties
    .checked faults sheet

/-- What comes of jobs each of which is done with an evaluator and a checker of its own, and the
trees behind them. -/
def reports (sheets : Nat → Stylesheet) : List Job → List Report × (Nat → Stylesheet)
  | [] => ([], sheets)
  | job :: jobs =>
    let report := job.report properties sheets
    let (reports, last) := reports (update sheets job.place report.sheet) jobs
    (report :: reports, last)

end Job

namespace Session

variable (session : Session) (k : Nat)

/-- Evaluating in place comes to what the evaluator comes to. An error leaves the trees alone. -/
theorem evaluate_eq : evaluate k session =
    match session.evaluator.run (session.sheets k) with
    | (.ok sheet, evaluator) =>
      .ok () { session with evaluator, sheets := update session.sheets k sheet }
    | (.error fault, evaluator) => .error fault { session with evaluator } := by
  have hw := Step.result_work (Step.ofBody (session.sheets k).body) session.evaluator.scopes.push
  rw [Scopes.push_eq_extend, Step.run_ofBody] at hw
  rw [evaluate, Evaluator.run_eq, Scopes.push_eq_extend]
  rcases hb : Stmt.blockOutcome session.evaluator.scopes .empty (session.sheets k).body with
    fault | ⟨out, frame⟩ <;> rw [hb] at hw
  · obtain ⟨left, hl⟩ := Working.result_eq_error_iff.1 hw
    rw [hl]
  · rw [Working.result_eq_ok_iff.1 hw]
    rfl

/-- Checking counts the nodes that it puts a complaint on, and closes what it opens. -/
theorem check_eq : session.check k =
    { session with
      checker.faults := session.checker.faults
        + (session.checker.causes (session.sheets k)).countP Option.isSome
      sheets := update session.sheets k (session.checker.check (session.sheets k)).1 } := by
  rw [check, ← Checker.faults_check, Checker.check, Stmt.pop_scopes_checkBody_push]

variable (properties : PropertyTable) (faults : Nat) (sheets : Nat → Stylesheet)

theorem evaluate_idle : evaluate k (idle properties faults sheets) =
    match (sheets k).evaluate with
    | .ok sheet => .ok () (idle properties faults (update sheets k sheet))
    | .error fault => .error fault (idle properties faults sheets) := by
  rw [evaluate_eq, Stylesheet.evaluate]
  show (match Evaluator.empty.run (sheets k) with
    | (.ok sheet, evaluator) => _
    | (.error fault, evaluator) => _ : EStateM.Result Diagnostic Session Unit) = _
  rw [Evaluator.run_eq]
  rcases Stmt.blockOutcome Evaluator.empty.scopes .empty (sheets k).body with
    fault | ⟨out, frame⟩ <;> rfl

theorem check_idle : (idle properties faults sheets).check k =
    idle properties (faults + ((sheets k).check properties).2)
      (update sheets k ((sheets k).check properties).1) := by
  rw [check_eq, Stylesheet.faults_check_eq_countP]
  rfl

theorem run_idle (job : Job) : ∃ faults', (idle properties faults sheets).run job =
    (job.report properties sheets,
      idle properties faults' (update sheets job.place (job.report properties sheets).sheet)) := by
  rcases job with k | k
  · rw [run, evaluate_idle, Job.report]
    rcases (sheets k).evaluate with fault | sheet
    · refine ⟨faults, ?_⟩
      dsimp only [Report.sheet, Job.place]
      rw [Function.update_eq_self]
      rfl
    · refine ⟨faults, ?_⟩
      dsimp only [Report.sheet, Job.place, idle]
      rw [Function.update_self]
  · refine ⟨faults + ((sheets k).check properties).2, ?_⟩
    rw [run, check_idle, Job.report]
    dsimp only [Report.sheet, Job.place, idle]
    rw [Function.update_self, Nat.add_sub_cancel_left]

/-- From a session where no frame is open the jobs give what each gives apart. -/
theorem runAll_idle : ∀ (jobs : List Job) (faults : Nat) (sheets : Nat → Stylesheet),
    ∃ faults', (idle properties faults sheets).runAll jobs =
      ((Job.reports properties sheets jobs).1,
        idle properties faults' (Job.reports properties sheets jobs).2)
  | [], faults, sheets => ⟨faults, rfl⟩
  | job :: jobs, faults, sheets => by
    obtain ⟨faults', hr⟩ := run_idle properties faults sheets job
    obtain ⟨last, ih⟩ := runAll_idle jobs faults'
      (update sheets job.place (job.report properties sheets).sheet)
    refine ⟨last, ?_⟩
    rw [runAll, hr]
    dsimp only
    rw [ih, Job.reports]

/-- Runs leave nothing behind that shows in others. An evaluation that fails leaves the trees as
they were and no frame open, and one that succeeds leaves the scopes that were open as they were.
Checking leaves them too, and counts the nodes that it puts a complaint on, which are those that
carry one afterwards if none did before. So the jobs of a session that starts without frames give
what each of them gives with an evaluator and a checker of its own. -/
theorem runs_apart (session : Session) (k : Nat) :
    (match evaluate k session with
      | .ok () after => ∃ sheet,
        session.evaluator.run (session.sheets k) = (.ok sheet, session.evaluator)
          ∧ after = { session with sheets := update session.sheets k sheet }
      | .error fault after =>
        session.evaluator.run (session.sheets k) = (.error fault, .empty)
          ∧ after = { session with evaluator := .empty })
    ∧ (let sheet := session.sheets k
      let causes := session.checker.causes sheet
      let annotated := (session.checker.check sheet).1
      session.check k = { session with
        checker.faults := session.checker.faults + causes.countP Option.isSome
        sheets := update session.sheets k annotated }
        ∧ Stylesheet.Annotated causes sheet annotated
        ∧ (session.checker.check (sheet.mapNote Note.cleared)).1.diagnostics.map Diagnostic.cause
          = causes.flatMap Option.toList)
    ∧ ∀ properties faults sheets jobs, ∃ faults',
      (idle properties faults sheets).runAll jobs =
        ((Job.reports properties sheets jobs).1,
          idle properties faults' (Job.reports properties sheets jobs).2) := by
  refine ⟨?_, ⟨session.check_eq k, session.checker.annotated_check _, ?_⟩,
    fun properties faults sheets jobs => runAll_idle properties jobs faults sheets⟩
  · rw [evaluate_eq, Evaluator.run_eq]
    rcases Stmt.blockOutcome session.evaluator.scopes .empty (session.sheets k).body with
      fault | ⟨out, frame⟩
    · exact ⟨rfl, rfl⟩
    · exact ⟨_, rfl, rfl⟩
  · rw [session.checker.causes_diagnostics_check (Stylesheet.diagnostics_mapNote_cleared _),
      Checker.causes_mapNote]

end Session

end StyleLang
