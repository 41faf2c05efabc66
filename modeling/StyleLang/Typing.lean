import StyleLang.PropertyTable
import StyleLang.Scopes
import StyleLang.Tree

/-!
# Types of expressions and faults of statements

Checking a stylesheet finds the type of every expression and blames each node that breaks a rule.
It goes on after a fault, so one run finds them all: the result of checking a tree is the tree
with its faults noted, the scopes behind it, and the number of nodes blamed. An expression with a
fault has the type `ValueType.undefined`.
-/

namespace StyleLang

/-- The type of an operation on operands of two types, or what is wrong with it. -/
def Operator.resultType (op : Operator) (left right : ValueType) : Except Cause ValueType :=
  if left = .color ∨ right = .color then .error (.colorOperand op)
  else match op with
    | .add | .subtract =>
      if left ≠ right ∨ left = .boolean ∨ right = .boolean then
        .error (.operandMismatch op left right)
      else .ok left
    | .multiply =>
      if left = .boolean ∨ right = .boolean ∨ (left ≠ .scalar ∧ right ≠ .scalar) then
        .error (.scalarNeeded left right)
      else if left = .scalar then .ok right
      else .ok left

/-- An expression with its faults noted, its type, and the number of nodes blamed. -/
structure Typed where
  expr : Expr
  type : ValueType
  faults : Nat

def Expr.check (scopes : Scopes ValueType) : Expr → Typed
  | .literal note value => ⟨.literal note value, value.type, 0⟩
  | .var note name =>
    match scopes.lookup name with
    | some type => ⟨.var note name, type, 0⟩
    | none => ⟨.var (note.blame (.undefinedVariable name)) name, .undefined, 1⟩
  | .binary note op left right =>
    let left := left.check scopes
    let right := right.check scopes
    match op.resultType left.type right.type with
    | .ok type => ⟨.binary note op left.expr right.expr, type, left.faults + right.faults⟩
    | .error cause =>
      ⟨.binary (note.blame cause) op left.expr right.expr, .undefined,
        left.faults + right.faults + 1⟩

/-- A piece of a tree with its faults noted, the scopes behind it, and the number of nodes
blamed. -/
structure Checked (α : Type) where
  node : α
  scopes : Scopes ValueType
  faults : Nat

/-- Blames a node for the cause, if there is one. -/
def Note.blame? (note : Note) : Option Cause → Note
  | none => note
  | some cause => note.blame cause

namespace Stmt

/-- What is wrong with assigning a value of a type. -/
def assignmentFault? (name : String) (type : ValueType) : Option Cause :=
  if type = .undefined then some (.undefinedAssignment name) else none

/-- What is wrong with a condition of a type. -/
def conditionFault? (type : ValueType) : Option Cause :=
  if type = .boolean then none else some (.conditionType type)

variable (properties : PropertyTable)

mutual

/-- Checks a statement. The value of an assignment is checked before its name is bound, and the
condition of a conditional outside its branches, which have a frame each. -/
def check (scopes : Scopes ValueType) : Stmt → Checked Stmt
  | rule note selectors body =>
    let body := checkBody scopes.push body
    ⟨rule note selectors body.node, body.scopes.pop, body.faults⟩
  | declaration note property value =>
    let value := value.check scopes
    let fault? := properties.fault? property value.type
    ⟨declaration (note.blame? fault?) property value.expr, scopes,
      value.faults + fault?.toList.length⟩
  | assignment note name value =>
    let value := value.check scopes
    let fault? := assignmentFault? name value.type
    ⟨assignment (note.blame? fault?) name value.expr, scopes.define name value.type,
      value.faults + fault?.toList.length⟩
  | conditional note condition body none =>
    let condition := condition.check scopes
    let fault? := conditionFault? condition.type
    let body := checkBody scopes.push body
    ⟨conditional (note.blame? fault?) condition.expr body.node none, body.scopes.pop,
      condition.faults + fault?.toList.length + body.faults⟩
  | conditional note condition body (some elseBody) =>
    let condition := condition.check scopes
    let fault? := conditionFault? condition.type
    let body := checkBody scopes.push body
    let elseBody := checkBody body.scopes.pop.push elseBody
    ⟨conditional (note.blame? fault?) condition.expr body.node (some elseBody.node),
      elseBody.scopes.pop,
      condition.faults + fault?.toList.length + body.faults + elseBody.faults⟩

/-- Checks the statements of a block in order. -/
def checkBody (scopes : Scopes ValueType) : List Stmt → Checked (List Stmt)
  | [] => ⟨[], scopes, 0⟩
  | stmt :: stmts =>
    let stmt := stmt.check scopes
    let rest := checkBody stmt.scopes stmts
    ⟨stmt.node :: rest.node, rest.scopes, stmt.faults + rest.faults⟩

end

end Stmt

/-- A table of properties, the scopes that are open, and the number of nodes blamed so far. -/
structure Checker where
  properties : PropertyTable
  scopes : Scopes ValueType
  faults : Nat

namespace Checker

def ofProperties (properties : PropertyTable) : Checker :=
  ⟨properties, .empty, 0⟩

/-- Checks a stylesheet in a frame of its own. -/
def check (checker : Checker) (sheet : Stylesheet) : Stylesheet × Checker :=
  let body := Stmt.checkBody checker.properties checker.scopes.push sheet.body
  ({ sheet with body := body.node },
    { checker with scopes := body.scopes.pop, faults := checker.faults + body.faults })

/-- Checks an expression in the scopes that are open. -/
def checkExpr (checker : Checker) (expr : Expr) : Typed × Checker :=
  let typed := expr.check checker.scopes
  (typed, { checker with faults := checker.faults + typed.faults })

end Checker

/-- The stylesheet with its faults noted, and the number of nodes blamed. -/
def Stylesheet.check (sheet : Stylesheet) (properties : PropertyTable) : Stylesheet × Nat :=
  let (sheet, checker) := (Checker.ofProperties properties).check sheet
  (sheet, checker.faults)

end StyleLang
