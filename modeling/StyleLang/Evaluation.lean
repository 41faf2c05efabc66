import StyleLang.Arithmetic
import StyleLang.Scopes
import StyleLang.Tree

/-!
# Evaluation

Evaluating a stylesheet reduces every expression to a literal and puts the statements of the
chosen branch in place of every conditional. A block is worked off as a list of steps
(`Step.run`): the branch of a conditional goes to the front of the list between two steps that
open and close its frame, so its statements land in the block around it and are still evaluated
in a frame of their own. Each step leaves less to do (`Step.weight`).
-/

namespace StyleLang

namespace Expr

/-- The value of an expression where variables have the values in scope. -/
def value (scopes : Scopes Literal) : Expr → Except Diagnostic Literal
  | literal _ value => .ok value
  | var note name =>
    match scopes.lookup name with
    | some value => .ok value
    | none => .error ⟨.violation (.unresolved name), note.span.start⟩
  | binary note op left right => do
    let left ← left.value scopes
    let right ← right.value scopes
    match op.eval left right with
    | .ok value => .ok value
    | .error cause => .error ⟨cause, note.span.start⟩

/-- A literal in place of an expression. -/
def replace (expr : Expr) (value : Literal) : Expr :=
  .literal (.clean expr.span) value

/-- The value of an expression, and the expression reduced to it. -/
def reduce (scopes : Scopes Literal) (expr : Expr) : Except Diagnostic (Literal × Expr) := do
  let value ← expr.value scopes
  return (value, expr.replace value)

end Expr

namespace Stmt

mutual

/-- A bound on the work that a statement takes; a conditional also opens and closes a frame. -/
def weight : Stmt → Nat
  | rule _ _ body => 1 + bodyWeight body
  | declaration _ _ _ | assignment _ _ _ => 1
  | conditional _ _ body none => 3 + bodyWeight body
  | conditional _ _ body (some elseBody) => 3 + bodyWeight body + bodyWeight elseBody

def bodyWeight : List Stmt → Nat
  | [] => 0
  | stmt :: stmts => stmt.weight + bodyWeight stmts

end

end Stmt

/-- What is left to do in a block. -/
inductive Step where
  | stmt (stmt : Stmt)
  | enter
  | leave

namespace Step

def weight : Step → Nat
  | stmt s => s.weight
  | enter | leave => 1

def totalWeight : List Step → Nat
  | [] => 0
  | step :: steps => step.weight + totalWeight steps

def ofBody (body : List Stmt) : List Step :=
  body.map stmt

/-- The steps of a branch, which has a frame of its own. -/
def ofBranch (body : List Stmt) : List Step :=
  enter :: ofBody body ++ [leave]

@[simp] theorem totalWeight_nil : totalWeight [] = 0 := rfl

@[simp] theorem totalWeight_cons (step : Step) (steps : List Step) :
    totalWeight (step :: steps) = step.weight + totalWeight steps := rfl

@[simp] theorem totalWeight_append (steps steps' : List Step) :
    totalWeight (steps ++ steps') = totalWeight steps + totalWeight steps' := by
  induction steps with
  | nil => simp
  | cons step steps ih => simp [ih, Nat.add_assoc]

@[simp] theorem totalWeight_ofBody :
    ∀ body : List Stmt, totalWeight (ofBody body) = Stmt.bodyWeight body
  | [] => by simp [Stmt.bodyWeight, ofBody]
  | s :: body => by
    have ih := totalWeight_ofBody body
    simp_all [Stmt.bodyWeight, ofBody, weight]

@[simp] theorem totalWeight_ofBranch (body : List Stmt) :
    totalWeight (ofBranch body) = 2 + Stmt.bodyWeight body := by
  simp only [ofBranch, totalWeight_append, totalWeight_cons, totalWeight_ofBody, weight,
    totalWeight_nil]
  omega

theorem totalWeight_ofBranch_lt {note : Note} {condition : Expr} {body : List Stmt}
    {elseBody : Option (List Stmt)} :
    totalWeight (ofBranch body) < (Stmt.conditional note condition body elseBody).weight := by
  cases elseBody <;> simp only [totalWeight_ofBranch, Stmt.weight] <;> omega

theorem totalWeight_ofBranch_getD_lt {note : Note} {condition : Expr} {body : List Stmt}
    {elseBody : Option (List Stmt)} :
    totalWeight (ofBranch (elseBody.getD []))
      < (Stmt.conditional note condition body elseBody).weight := by
  cases elseBody <;>
    simp only [totalWeight_ofBranch, Stmt.weight, Stmt.bodyWeight, Option.getD] <;> omega

/-- Works off a list of steps: the statements that come out, and the scopes behind them. -/
def run (scopes : Scopes Literal) (steps : List Step) :
    Except Diagnostic (List Stmt × Scopes Literal) :=
  match steps with
  | [] => .ok ([], scopes)
  | enter :: steps => run scopes.push steps
  | leave :: steps => run scopes.pop steps
  | stmt (.rule note selectors body) :: steps => do
    let (body, inner) ← run scopes.push (ofBody body)
    let (rest, scopes) ← run inner.pop steps
    return (.rule note selectors body :: rest, scopes)
  | stmt (.declaration note property value) :: steps => do
    let (_, value) ← value.reduce scopes
    let (rest, scopes) ← run scopes steps
    return (.declaration note property value :: rest, scopes)
  | stmt (.assignment note name value) :: steps => do
    let (literal, value) ← value.reduce scopes
    let (rest, scopes) ← run (scopes.define name literal) steps
    return (.assignment note name value :: rest, scopes)
  | stmt (.conditional note condition body elseBody) :: steps =>
    match condition.value scopes with
    | .ok (.boolean true) => run scopes (ofBranch body ++ steps)
    | .ok (.boolean false) => run scopes (ofBranch (elseBody.getD []) ++ steps)
    | .ok other => .error ⟨.violation (.condition other.type), note.span.start⟩
    | .error fault => .error fault
termination_by totalWeight steps
decreasing_by
  all_goals simp only [totalWeight_cons, totalWeight_append, totalWeight_ofBody, weight]
  · omega
  · omega
  · simp only [Stmt.weight]
    omega
  · simp only [Stmt.weight]
    omega
  · simp only [Stmt.weight]
    omega
  · simp only [Stmt.weight]
    omega
  · exact Nat.add_lt_add_right totalWeight_ofBranch_lt _
  · exact Nat.add_lt_add_right totalWeight_ofBranch_getD_lt _

end Step

/-- The scopes that are open. -/
structure Evaluator where
  scopes : Scopes Literal

namespace Evaluator

def empty : Evaluator := ⟨.empty⟩

/-- Evaluates a stylesheet in a frame of its own. After an error no frame is open. -/
def run (evaluator : Evaluator) (sheet : Stylesheet) : Except Diagnostic Stylesheet × Evaluator :=
  match Step.run evaluator.scopes.push (Step.ofBody sheet.body) with
  | .ok (body, scopes) => (.ok { sheet with body }, ⟨scopes.pop⟩)
  | .error fault => (.error fault, empty)

end Evaluator

/-- The stylesheet with every expression reduced and every conditional replaced. -/
def Stylesheet.evaluate (sheet : Stylesheet) : Except Diagnostic Stylesheet :=
  (Evaluator.empty.run sheet).1

end StyleLang
