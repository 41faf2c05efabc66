import StyleLang.Diagnostic

/-!
# Stylesheets as trees

A stylesheet is a list of statements: style rules, declarations, assignments and conditionals,
where a rule and the branches of a conditional hold statements again. Each node carries a note
that says where it stands and what was found wrong with it.
-/

namespace StyleLang

/-- Where a node stands, and the complaint about it if there is one. -/
structure Note where
  span : Span
  diagnostic : Option Diagnostic
deriving DecidableEq

namespace Note

/-- The note of a node nobody complains about. -/
def clean (span : Span) : Note := ⟨span, none⟩

/-- Puts a complaint at the start of a node, in place of an older one. -/
def blame (note : Note) (cause : Cause) : Note :=
  ⟨note.span, some ⟨cause, note.span.start⟩⟩

end Note

/-- A selector, without the `#` of an id or the `.` of a class. -/
inductive Selector where
  | byTag (name : String)
  | byId (name : String)
  | byClass (name : String)
deriving DecidableEq

def Selector.text : Selector → String
  | byTag name => name
  | byId name => "#" ++ name
  | byClass name => "." ++ name

inductive Expr where
  | literal (note : Note) (value : Literal)
  | var (note : Note) (name : String)
  | binary (note : Note) (operator : Operator) (left right : Expr)
deriving DecidableEq

namespace Expr

def note : Expr → Note
  | literal note _ | var note _ | binary note _ _ _ => note

def span (expr : Expr) : Span := expr.note.span

/-- The diagnostics on an expression and its parts, an expression before its parts. -/
def diagnostics : Expr → List Diagnostic
  | literal note _ | var note _ => note.diagnostic.toList
  | binary note _ left right =>
    note.diagnostic.toList ++ left.diagnostics ++ right.diagnostics

end Expr

/-- Statements; a conditional without an `else` differs from one whose `else` is empty. -/
inductive Stmt where
  | rule (note : Note) (selectors : List Selector) (body : List Stmt)
  | declaration (note : Note) (property : String) (value : Expr)
  | assignment (note : Note) (name : String) (value : Expr)
  | conditional (note : Note) (condition : Expr) (body : List Stmt) (elseBody : Option (List Stmt))

namespace Stmt

def note : Stmt → Note
  | rule note _ _ | declaration note _ _ | assignment note _ _ | conditional note _ _ _ => note

def span (stmt : Stmt) : Span := stmt.note.span

mutual

/-- The diagnostics in a statement, a node before its parts. -/
def diagnostics : Stmt → List Diagnostic
  | rule note _ body => note.diagnostic.toList ++ bodyDiagnostics body
  | declaration note _ value | assignment note _ value =>
    note.diagnostic.toList ++ value.diagnostics
  | conditional note condition body none =>
    note.diagnostic.toList ++ condition.diagnostics ++ bodyDiagnostics body
  | conditional note condition body (some elseBody) =>
    note.diagnostic.toList ++ condition.diagnostics ++ bodyDiagnostics body
      ++ bodyDiagnostics elseBody

/-- The diagnostics in a list of statements. -/
def bodyDiagnostics : List Stmt → List Diagnostic
  | [] => []
  | stmt :: stmts => stmt.diagnostics ++ bodyDiagnostics stmts

end

mutual

/-- The number of conditionals in a statement, itself counted. -/
def conditionals : Stmt → Nat
  | rule _ _ body => bodyConditionals body
  | declaration _ _ _ | assignment _ _ _ => 0
  | conditional _ _ body none => 1 + bodyConditionals body
  | conditional _ _ body (some elseBody) =>
    1 + bodyConditionals body + bodyConditionals elseBody

/-- The number of conditionals in a list of statements. -/
def bodyConditionals : List Stmt → Nat
  | [] => 0
  | stmt :: stmts => stmt.conditionals + bodyConditionals stmts

end

end Stmt

structure Stylesheet where
  note : Note
  body : List Stmt

namespace Stylesheet

/-- Every diagnostic in a stylesheet, a node before its parts. -/
def diagnostics (sheet : Stylesheet) : List Diagnostic :=
  sheet.note.diagnostic.toList ++ Stmt.bodyDiagnostics sheet.body

def hasDiagnostics (sheet : Stylesheet) : Bool :=
  !sheet.diagnostics.isEmpty

def conditionals (sheet : Stylesheet) : Nat :=
  Stmt.bodyConditionals sheet.body

end Stylesheet

end StyleLang
