import StyleLang.Proofs.Frames
import StyleLang.Typing

/-!
# The nodes of a tree

`Stylesheet.nodes` lists the statements and expressions of a stylesheet in the order in which
diagnostics are listed, a node before its parts (`Stylesheet.diagnostics_eq`).

Checking notes faults on nodes and leaves the rest as it was: of the scopes only the frame of the
block changes (`Stmt.scopes_check`), and a tree without faults does not change at all
(`Stylesheet.check_of_faults`).
-/

namespace StyleLang

/-- A place in a tree that carries a note. -/
inductive Node where
  | expr (expr : Expr)
  | stmt (stmt : Stmt)

namespace Node

def note : Node → Note
  | expr e => e.note
  | stmt s => s.note

def span (node : Node) : Span := node.note.span

def diagnostics (node : Node) : List Diagnostic := node.note.diagnostic.toList

end Node

namespace Note

theorem diagnostic_blame? {note : Note} (h : note.diagnostic = none) (cause? : Option Cause) :
    (note.blame? cause?).diagnostic = cause?.map (⟨·, note.span.start⟩) := by
  cases cause? with
  | none => exact h
  | some cause => rfl

theorem blame?_of_length {note : Note} {cause? : Option Cause} (h : cause?.toList.length = 0) :
    note.blame? cause? = note := by
  rw [List.length_eq_zero_iff, Option.toList_eq_nil_iff] at h
  rw [h]
  rfl

end Note

namespace Expr

/-- The expression and its parts, an expression before its parts. -/
def nodes : Expr → List Node
  | literal note value => [.expr (literal note value)]
  | var note name => [.expr (var note name)]
  | binary note op left right => .expr (binary note op left right) :: (left.nodes ++ right.nodes)

theorem diagnostics_eq : ∀ e : Expr, e.diagnostics = e.nodes.flatMap Node.diagnostics
  | literal _ _ | var _ _ => by simp [diagnostics, nodes, Node.diagnostics, Node.note, note]
  | binary _ _ left right => by
    simp [diagnostics, nodes, Node.diagnostics, Node.note, note, diagnostics_eq left,
      diagnostics_eq right]

theorem diagnostics_binary_eq_nil_iff {note : Note} {op : Operator} {left right : Expr} :
    (binary note op left right).diagnostics = []
      ↔ note.diagnostic = none ∧ left.diagnostics = [] ∧ right.diagnostics = [] := by
  rw [diagnostics, List.append_eq_nil_iff, List.append_eq_nil_iff, Option.toList_eq_nil_iff,
    and_assoc]

variable (scopes : Scopes ValueType)

/-- The result of an operation whose operands are checked. -/
theorem check_binary (note : Note) (op : Operator) (left right : Expr) :
    (binary note op left right).check scopes =
      match op.resultType (left.check scopes).type (right.check scopes).type with
      | .ok type => ⟨.binary note op (left.check scopes).expr (right.check scopes).expr, type,
          (left.check scopes).faults + (right.check scopes).faults⟩
      | .error cause =>
        ⟨.binary (note.blame cause) op (left.check scopes).expr (right.check scopes).expr,
          .undefined, (left.check scopes).faults + (right.check scopes).faults + 1⟩ := rfl

theorem check_of_faults :
    ∀ e : Expr, (e.check scopes).faults = 0 → (e.check scopes).expr = e
  | literal _ _, _ => rfl
  | var note name, h => by
    rw [check] at h ⊢
    rcases hl : scopes.lookup name with _ | type
    · rw [hl] at h
      cases h
    · rfl
  | binary note op left right, h => by
    rw [check_binary] at h ⊢
    rcases ht : op.resultType (left.check scopes).type (right.check scopes).type with
      cause | type <;> rw [ht] at h
    · cases h
    · obtain ⟨hl, hr⟩ := Nat.add_eq_zero_iff.1 h
      simp only [check_of_faults left hl, check_of_faults right hr]

end Expr

namespace Stmt

mutual

/-- The statement and its parts, a node before its parts. -/
def nodes : Stmt → List Node
  | rule note selectors body => .stmt (rule note selectors body) :: bodyNodes body
  | declaration note property value => .stmt (declaration note property value) :: value.nodes
  | assignment note name value => .stmt (assignment note name value) :: value.nodes
  | conditional note condition body none =>
    .stmt (conditional note condition body none) :: (condition.nodes ++ bodyNodes body)
  | conditional note condition body (some elseBody) =>
    .stmt (conditional note condition body (some elseBody))
      :: (condition.nodes ++ bodyNodes body ++ bodyNodes elseBody)

/-- The statements of a block and their parts. -/
def bodyNodes : List Stmt → List Node
  | [] => []
  | stmt :: stmts => stmt.nodes ++ bodyNodes stmts

end

mutual

theorem diagnostics_eq : ∀ s : Stmt, s.diagnostics = s.nodes.flatMap Node.diagnostics
  | rule _ _ body => by
    simp [diagnostics, nodes, Node.diagnostics, Node.note, note, bodyDiagnostics_eq body]
  | declaration _ _ value | assignment _ _ value => by
    simp [diagnostics, nodes, Node.diagnostics, Node.note, note, value.diagnostics_eq]
  | conditional _ condition body none => by
    simp [diagnostics, nodes, Node.diagnostics, Node.note, note, condition.diagnostics_eq,
      bodyDiagnostics_eq body]
  | conditional _ condition body (some elseBody) => by
    simp [diagnostics, nodes, Node.diagnostics, Node.note, note, condition.diagnostics_eq,
      bodyDiagnostics_eq body, bodyDiagnostics_eq elseBody]

theorem bodyDiagnostics_eq :
    ∀ body : List Stmt, bodyDiagnostics body = (bodyNodes body).flatMap Node.diagnostics
  | [] => rfl
  | stmt :: stmts => by
    simp [bodyDiagnostics, bodyNodes, diagnostics_eq stmt, bodyDiagnostics_eq stmts]

end

variable (properties : PropertyTable)

mutual

theorem check_of_faults : ∀ (s : Stmt) (scopes : Scopes ValueType),
    (s.check properties scopes).faults = 0 → (s.check properties scopes).node = s
  | rule _ _ body, scopes, h => by
    rw [check] at h ⊢
    simp only [checkBody_of_faults body _ h]
  | declaration _ _ value, scopes, h | assignment _ _ value, scopes, h => by
    simp only [check] at h ⊢
    rw [value.check_of_faults scopes (by omega), Note.blame?_of_length (by omega)]
  | conditional _ condition body none, scopes, h => by
    simp only [check] at h ⊢
    rw [condition.check_of_faults scopes (by omega), Note.blame?_of_length (by omega),
      checkBody_of_faults body _ (by omega)]
  | conditional _ condition body (some elseBody), scopes, h => by
    simp only [check] at h ⊢
    rw [condition.check_of_faults scopes (by omega), Note.blame?_of_length (by omega),
      checkBody_of_faults body _ (by omega), checkBody_of_faults elseBody _ (by omega)]

theorem checkBody_of_faults : ∀ (body : List Stmt) (scopes : Scopes ValueType),
    (checkBody properties scopes body).faults = 0 →
    (checkBody properties scopes body).node = body
  | [], _, _ => rfl
  | stmt :: stmts, scopes, h => by
    simp only [checkBody] at h ⊢
    rw [check_of_faults stmt _ (by omega), checkBody_of_faults stmts _ (by omega)]

end

mutual

/-- A statement binds in the frame of its block at most. -/
theorem scopes_check : ∀ (s : Stmt) (outer : Scopes ValueType) (frame : Bindings ValueType),
    ∃ frame', (s.check properties (outer.extend frame)).scopes = outer.extend frame'
  | rule _ _ body, outer, frame => by
    obtain ⟨frame', h⟩ := scopes_checkBody body (outer.extend frame) .empty
    exact ⟨frame, by simp [check, Scopes.push_eq_extend, h]⟩
  | declaration _ _ _, outer, frame => ⟨frame, rfl⟩
  | assignment _ name value, outer, frame => ⟨_, Scopes.define_extend ..⟩
  | conditional _ _ body none, outer, frame => by
    obtain ⟨frame', h⟩ := scopes_checkBody body (outer.extend frame) .empty
    exact ⟨frame, by simp [check, Scopes.push_eq_extend, h]⟩
  | conditional _ _ body (some elseBody), outer, frame => by
    obtain ⟨frame', h⟩ := scopes_checkBody body (outer.extend frame) .empty
    obtain ⟨frame'', h'⟩ := scopes_checkBody elseBody (outer.extend frame) .empty
    exact ⟨frame, by simp [check, Scopes.push_eq_extend, h, h']⟩

theorem scopes_checkBody :
    ∀ (body : List Stmt) (outer : Scopes ValueType) (frame : Bindings ValueType),
      ∃ frame', (checkBody properties (outer.extend frame) body).scopes = outer.extend frame'
  | [], _, frame => ⟨frame, rfl⟩
  | stmt :: stmts, outer, frame => by
    obtain ⟨frame', h⟩ := scopes_check stmt outer frame
    rw [checkBody, h]
    exact scopes_checkBody stmts outer frame'

end

/-- A block in a frame of its own leaves the scopes as they were. -/
theorem pop_scopes_checkBody_push (scopes : Scopes ValueType) (body : List Stmt) :
    (checkBody properties scopes.push body).scopes.pop = scopes := by
  obtain ⟨frame, h⟩ := scopes_checkBody properties body scopes .empty
  rw [Scopes.push_eq_extend, h, Scopes.pop_extend]

theorem checkBody_append : ∀ (a b : List Stmt) (scopes : Scopes ValueType),
    checkBody properties scopes (a ++ b) =
      let first := checkBody properties scopes a
      let rest := checkBody properties first.scopes b
      ⟨first.node ++ rest.node, rest.scopes, first.faults + rest.faults⟩
  | [], _, _ => by simp [checkBody]
  | stmt :: stmts, b, scopes => by
    rw [List.cons_append, checkBody, checkBody_append stmts b]
    simp [checkBody, Nat.add_assoc]

end Stmt

namespace Stylesheet

/-- The statements and expressions of a stylesheet. -/
def nodes (sheet : Stylesheet) : List Node :=
  Stmt.bodyNodes sheet.body

theorem diagnostics_eq (sheet : Stylesheet) :
    sheet.diagnostics
      = sheet.note.diagnostic.toList ++ sheet.nodes.flatMap Node.diagnostics := by
  rw [diagnostics, Stmt.bodyDiagnostics_eq, nodes]

theorem faults_check (sheet : Stylesheet) (properties : PropertyTable) :
    (sheet.check properties).2
      = (Stmt.checkBody properties (Scopes.push .empty) sheet.body).faults :=
  Nat.zero_add _

theorem check_of_faults {sheet : Stylesheet} {properties : PropertyTable}
    (h : (sheet.check properties).2 = 0) : (sheet.check properties).1 = sheet := by
  rw [faults_check] at h
  exact congrArg (Stylesheet.mk sheet.note) (Stmt.checkBody_of_faults properties sheet.body _ h)

end Stylesheet

end StyleLang
