import StyleLang.Proofs.Nodes
import StyleLang.Proofs.Relabel

/-!
# What checking puts on a tree

`Stmt.causes` lists what checking finds wrong with each node of a tree, in the order of the nodes
and whatever notes they carry (`Stmt.causes_mapNote`). Just these complaints are put on the nodes,
in place of older ones, and where nothing is wrong the old note stays (`Stmt.notes_check`). They are
counted as they are put there (`Stmt.faults_check`), so on a tree without complaints the count is
the number of diagnostics (`Checker.causes_diagnostics_check`).
-/

namespace StyleLang

/-- What is wrong with an operation on operands of two types. -/
def Operator.fault? (op : Operator) (left right : ValueType) : Option Cause :=
  match op.resultType left right with
  | .ok _ => none
  | .error cause => some cause

/-- What is wrong with a reference to a name. -/
def Scopes.fault? (scopes : Scopes ValueType) (name : String) : Option Cause :=
  match scopes.lookup name with
  | some _ => none
  | none => some (.undefinedVariable name)

namespace Expr

variable (scopes : Scopes ValueType)

/-- The notes on an expression and its parts. -/
def notes (e : Expr) : List Note :=
  e.nodes.map Node.note

/-- What is wrong with an expression and with each of its parts. -/
def causes : Expr → List (Option Cause)
  | literal _ _ => [none]
  | var _ name => [scopes.fault? name]
  | binary _ op left right =>
    op.fault? (left.check scopes).type (right.check scopes).type :: (left.causes ++ right.causes)

theorem notes_binary (note : Note) (op : Operator) (left right : Expr) :
    (binary note op left right).notes = note :: (left.notes ++ right.notes) :=
  congrArg (note :: ·) List.map_append

theorem notes_mapNote (f : Note → Note) : ∀ e : Expr, (e.mapNote f).notes = e.notes.map f
  | literal _ _ | var _ _ => rfl
  | binary _ _ left right => by
    rw [mapNote, notes_binary, notes_binary, notes_mapNote f left, notes_mapNote f right,
      List.map_cons, List.map_append]

theorem length_causes : ∀ e : Expr, e.notes.length = (e.causes scopes).length
  | literal _ _ | var _ _ => rfl
  | binary _ _ left right => by
    rw [notes_binary, causes, List.length_cons, List.length_cons, List.length_append,
      List.length_append, length_causes left, length_causes right]

/-- The complaints are put on the notes, and nothing else changes in them. -/
theorem notes_check : ∀ e : Expr,
    (e.check scopes).expr.notes = List.zipWith Note.blame? e.notes (e.causes scopes)
  | literal _ _ => rfl
  | var note name => by
    rw [check, causes, Scopes.fault?]
    cases scopes.lookup name <;> rfl
  | binary note op left right => by
    have hl := notes_check left
    have hr := notes_check right
    rw [check_binary, causes, Operator.fault?, notes_binary, List.zipWith_cons_cons,
      List.zipWith_append (length_causes scopes left), ← hl, ← hr]
    cases op.resultType (left.check scopes).type (right.check scopes).type <;>
      exact notes_binary ..

theorem faults_check : ∀ e : Expr,
    (e.check scopes).faults = ((e.causes scopes).flatMap Option.toList).length
  | literal _ _ => rfl
  | var note name => by
    rw [check, causes, Scopes.fault?]
    cases scopes.lookup name <;> rfl
  | binary note op left right => by
    have hl := faults_check left
    have hr := faults_check right
    rw [check_binary, causes, Operator.fault?, List.flatMap_cons, List.flatMap_append,
      List.length_append, List.length_append, ← hl, ← hr]
    cases op.resultType (left.check scopes).type (right.check scopes).type with
    | ok type => exact (Nat.zero_add _).symm
    | error cause => exact Nat.add_comm ..

theorem causes_mapNote (f : Note → Note) :
    ∀ e : Expr, (e.mapNote f).causes scopes = e.causes scopes
  | literal _ _ | var _ _ => rfl
  | binary _ _ left right => by
    rw [mapNote, causes, causes, left.type_check_mapNote,
      right.type_check_mapNote, causes_mapNote f left, causes_mapNote f right]

end Expr

namespace Stmt

variable (properties : PropertyTable)

/-- The notes on a statement and its parts. -/
def notes (s : Stmt) : List Note :=
  s.nodes.map Node.note

/-- The notes on the statements of a block and their parts. -/
def bodyNotes (body : List Stmt) : List Note :=
  (bodyNodes body).map Node.note

mutual

/-- What is wrong with a statement and with each of its parts. -/
def causes (scopes : Scopes ValueType) : Stmt → List (Option Cause)
  | rule _ _ body => none :: bodyCauses scopes.push body
  | declaration _ property value =>
    properties.fault? property (value.check scopes).type :: value.causes scopes
  | assignment _ name value =>
    assignmentFault? name (value.check scopes).type :: value.causes scopes
  | conditional _ condition body none =>
    conditionFault? (condition.check scopes).type
      :: (condition.causes scopes ++ bodyCauses scopes.push body)
  | conditional _ condition body (some elseBody) =>
    conditionFault? (condition.check scopes).type
      :: (condition.causes scopes ++ bodyCauses scopes.push body
        ++ bodyCauses scopes.push elseBody)

/-- What is wrong with the statements of a block and with each of their parts. -/
def bodyCauses (scopes : Scopes ValueType) : List Stmt → List (Option Cause)
  | [] => []
  | stmt :: stmts => stmt.causes scopes ++ bodyCauses (stmt.check properties scopes).scopes stmts

end

section notes

variable {note : Note} {body : List Stmt}

theorem notes_rule {selectors : List Selector} :
    (rule note selectors body).notes = note :: bodyNotes body := rfl

theorem notes_declaration {property : String} {value : Expr} :
    (declaration note property value).notes = note :: value.notes := rfl

theorem notes_assignment {name : String} {value : Expr} :
    (assignment note name value).notes = note :: value.notes := rfl

theorem notes_conditional_none {condition : Expr} :
    (conditional note condition body none).notes = note :: (condition.notes ++ bodyNotes body) :=
  congrArg (note :: ·) List.map_append

theorem notes_conditional_some {condition : Expr} {elseBody : List Stmt} :
    (conditional note condition body (some elseBody)).notes
      = note :: (condition.notes ++ bodyNotes body ++ bodyNotes elseBody) := by
  simp [notes, bodyNotes, Expr.notes, nodes, Node.note, Stmt.note]

theorem bodyNotes_cons (s : Stmt) (body : List Stmt) :
    bodyNotes (s :: body) = s.notes ++ bodyNotes body :=
  List.map_append

end notes

mutual

theorem notes_mapNote (f : Note → Note) : ∀ s : Stmt, (s.mapNote f).notes = s.notes.map f
  | rule note _ body => congrArg (f note :: ·) (bodyNotes_mapNote f body)
  | declaration note _ value | assignment note _ value =>
    congrArg (f note :: ·) (value.notes_mapNote f)
  | conditional _ condition body none => by
    rw [mapNote, notes_conditional_none, notes_conditional_none, condition.notes_mapNote,
      bodyNotes_mapNote f body, List.map_cons, List.map_append]
  | conditional _ condition body (some elseBody) => by
    rw [mapNote, notes_conditional_some, notes_conditional_some, condition.notes_mapNote,
      bodyNotes_mapNote f body, bodyNotes_mapNote f elseBody, List.map_cons, List.map_append,
      List.map_append]

theorem bodyNotes_mapNote (f : Note → Note) : ∀ body : List Stmt,
    bodyNotes (bodyMapNote f body) = (bodyNotes body).map f
  | [] => rfl
  | stmt :: stmts => by
    rw [bodyMapNote, bodyNotes_cons, bodyNotes_cons, notes_mapNote f stmt,
      bodyNotes_mapNote f stmts, List.map_append]

end

mutual

theorem length_causes : ∀ (s : Stmt) (scopes : Scopes ValueType),
    s.notes.length = (s.causes properties scopes).length
  | rule _ _ body, scopes => congrArg (· + 1) (length_bodyCauses body scopes.push)
  | declaration _ _ value, scopes | assignment _ _ value, scopes =>
    congrArg (· + 1) (value.length_causes scopes)
  | conditional _ condition body none, scopes => by
    simp only [notes_conditional_none, causes, List.length_cons, List.length_append,
      condition.length_causes scopes, length_bodyCauses body scopes.push]
  | conditional _ condition body (some elseBody), scopes => by
    simp only [notes_conditional_some, causes, List.length_cons, List.length_append,
      condition.length_causes scopes, length_bodyCauses body scopes.push,
      length_bodyCauses elseBody scopes.push]

theorem length_bodyCauses : ∀ (body : List Stmt) (scopes : Scopes ValueType),
    (bodyNotes body).length = (bodyCauses properties scopes body).length
  | [], _ => rfl
  | stmt :: stmts, scopes => by
    rw [bodyNotes_cons, bodyCauses, List.length_append, List.length_append, length_causes stmt,
      length_bodyCauses stmts]

end

mutual

theorem notes_check : ∀ (s : Stmt) (scopes : Scopes ValueType),
    (s.check properties scopes).node.notes
      = List.zipWith Note.blame? s.notes (s.causes properties scopes)
  | rule _ _ body, scopes => by
    rw [check, notes_rule, notes_rule, causes, List.zipWith_cons_cons, bodyNotes_checkBody body]
    rfl
  | declaration _ _ value, scopes => by
    rw [check, notes_declaration, notes_declaration, causes, List.zipWith_cons_cons,
      value.notes_check]
  | assignment _ _ value, scopes => by
    rw [check, notes_assignment, notes_assignment, causes, List.zipWith_cons_cons,
      value.notes_check]
  | conditional _ condition body none, scopes => by
    rw [check, notes_conditional_none, notes_conditional_none, causes, List.zipWith_cons_cons,
      List.zipWith_append (condition.length_causes scopes), condition.notes_check,
      bodyNotes_checkBody body]
  | conditional _ condition body (some elseBody), scopes => by
    have hlen : (condition.notes ++ bodyNotes body).length
        = (condition.causes scopes ++ bodyCauses properties scopes.push body).length := by
      rw [List.length_append, List.length_append, condition.length_causes scopes,
        length_bodyCauses properties body scopes.push]
    rw [check, pop_scopes_checkBody_push, notes_conditional_some, notes_conditional_some, causes,
      List.zipWith_cons_cons, List.zipWith_append hlen,
      List.zipWith_append (condition.length_causes scopes), condition.notes_check,
      bodyNotes_checkBody body, bodyNotes_checkBody elseBody]

/-- The complaints are put on the notes, and nothing else changes in them. -/
theorem bodyNotes_checkBody : ∀ (body : List Stmt) (scopes : Scopes ValueType),
    bodyNotes (checkBody properties scopes body).node
      = List.zipWith Note.blame? (bodyNotes body) (bodyCauses properties scopes body)
  | [], _ => rfl
  | stmt :: stmts, scopes => by
    rw [checkBody, bodyNotes_cons, bodyNotes_cons, bodyCauses,
      List.zipWith_append (length_causes properties stmt scopes), notes_check stmt,
      bodyNotes_checkBody stmts]

end

mutual

theorem faults_check : ∀ (s : Stmt) (scopes : Scopes ValueType),
    (s.check properties scopes).faults
      = ((s.causes properties scopes).flatMap Option.toList).length
  | rule _ _ body, scopes => faults_checkBody body scopes.push
  | declaration _ _ value, scopes | assignment _ _ value, scopes => by
    rw [check, causes, List.flatMap_cons, List.length_append, value.faults_check, Nat.add_comm]
  | conditional _ condition body none, scopes => by
    simp only [check, causes, List.flatMap_cons, List.flatMap_append, List.length_append,
      condition.faults_check, faults_checkBody body]
    omega
  | conditional _ condition body (some elseBody), scopes => by
    simp only [check, causes, List.flatMap_cons, List.flatMap_append, List.length_append,
      pop_scopes_checkBody_push, condition.faults_check, faults_checkBody body,
      faults_checkBody elseBody]
    omega

/-- The complaints are counted. -/
theorem faults_checkBody : ∀ (body : List Stmt) (scopes : Scopes ValueType),
    (checkBody properties scopes body).faults
      = ((bodyCauses properties scopes body).flatMap Option.toList).length
  | [], _ => rfl
  | stmt :: stmts, scopes => by
    rw [checkBody, bodyCauses, List.flatMap_append, List.length_append, faults_check stmt,
      faults_checkBody stmts]

end

/-- A statement binds the same, whatever the notes on it. -/
theorem scopes_check_mapNote (f : Note → Note) : ∀ (s : Stmt) (scopes : Scopes ValueType),
    ((s.mapNote f).check properties scopes).scopes = (s.check properties scopes).scopes
  | rule _ _ _, scopes => by
    rw [mapNote, check, check, pop_scopes_checkBody_push, pop_scopes_checkBody_push]
  | declaration _ _ _, _ => rfl
  | assignment _ _ value, scopes => by
    rw [mapNote, check, check, value.type_check_mapNote]
  | conditional _ _ _ none, scopes => by
    rw [mapNote, check, check, pop_scopes_checkBody_push, pop_scopes_checkBody_push]
  | conditional _ _ _ (some _), scopes => by
    simp only [mapNote, check, pop_scopes_checkBody_push]

mutual

theorem causes_mapNote (f : Note → Note) : ∀ (s : Stmt) (scopes : Scopes ValueType),
    (s.mapNote f).causes properties scopes = s.causes properties scopes
  | rule _ _ body, scopes => congrArg (none :: ·) (bodyCauses_mapNote f body scopes.push)
  | declaration _ _ value, scopes | assignment _ _ value, scopes => by
    rw [mapNote, causes, causes, value.type_check_mapNote, value.causes_mapNote]
  | conditional _ condition body none, scopes => by
    rw [mapNote, causes, causes, condition.type_check_mapNote,
      condition.causes_mapNote, bodyCauses_mapNote f body]
  | conditional _ condition body (some elseBody), scopes => by
    rw [mapNote, causes, causes, condition.type_check_mapNote,
      condition.causes_mapNote, bodyCauses_mapNote f body, bodyCauses_mapNote f elseBody]

/-- What is wrong with a tree does not depend on its notes. -/
theorem bodyCauses_mapNote (f : Note → Note) : ∀ (body : List Stmt) (scopes : Scopes ValueType),
    bodyCauses properties scopes (bodyMapNote f body) = bodyCauses properties scopes body
  | [], _ => rfl
  | stmt :: stmts, scopes => by
    rw [bodyMapNote, bodyCauses, bodyCauses, causes_mapNote f stmt,
      scopes_check_mapNote properties f stmt, bodyCauses_mapNote f stmts]

end

end Stmt

/-! ## Diagnostics -/

theorem length_flatMap_toList {α : Type} :
    ∀ options : List (Option α), (options.flatMap Option.toList).length
      = options.countP Option.isSome
  | [] => rfl
  | none :: options => length_flatMap_toList options
  | some a :: options => by
    rw [List.flatMap_cons, List.length_append, length_flatMap_toList options,
      List.countP_cons_of_pos rfl, Nat.add_comm]
    rfl

namespace Note

/-- Where there was no complaint, those put there are all there are. -/
theorem causes_zipWith_blame? : ∀ {notes : List Note} {causes : List (Option Cause)},
    notes.length = causes.length → notes.flatMap (·.diagnostic.toList) = [] →
    ((List.zipWith blame? notes causes).flatMap (·.diagnostic.toList)).map Diagnostic.cause
      = causes.flatMap Option.toList
  | [], [], _, _ => rfl
  | note :: notes, cause? :: causes, hl, hn => by
    rw [List.flatMap_cons, List.append_eq_nil_iff, Option.toList_eq_nil_iff] at hn
    have ih := causes_zipWith_blame? (Nat.succ.inj hl) hn.2
    rw [List.zipWith_cons_cons, List.flatMap_cons, List.flatMap_cons, List.map_append, ih,
      diagnostic_blame? hn.1]
    cases cause? <;> rfl

end Note

namespace Stylesheet

/-- The notes on the statements of a stylesheet and their parts. -/
def notes (sheet : Stylesheet) : List Note :=
  Stmt.bodyNotes sheet.body

theorem notes_mapNote (f : Note → Note) (sheet : Stylesheet) :
    (sheet.mapNote f).notes = sheet.notes.map f :=
  Stmt.bodyNotes_mapNote f sheet.body

/-- The nodes of a checked tree stand where those of the tree stood. -/
theorem map_span_nodes_check (sheet : Stylesheet) (properties : PropertyTable) :
    (sheet.check properties).1.nodes.map Node.span = sheet.nodes.map Node.span := by
  have hs (sheet : Stylesheet) :
      sheet.nodes.map Node.span = ((sheet.mapNote Note.cleared).notes).map Note.span := by
    rw [notes_mapNote, notes, Stmt.bodyNotes, List.map_map, List.map_map]
    rfl
  rw [hs, mapNote_check Note.blind_cleared, ← hs]

theorem diagnostics_eq_notes (sheet : Stylesheet) :
    sheet.diagnostics
      = sheet.note.diagnostic.toList ++ sheet.notes.flatMap (·.diagnostic.toList) := by
  rw [diagnostics_eq, nodes, notes, Stmt.bodyNotes, List.flatMap_map]
  rfl

/-- A tree with complaints put on its nodes, one for each of them or none, in their order. Nothing
else has changed. -/
structure Annotated (causes : List (Option Cause)) (sheet annotated : Stylesheet) : Prop where
  note : annotated.note = sheet.note
  length : sheet.notes.length = causes.length
  notes : annotated.notes = List.zipWith Note.blame? sheet.notes causes
  same : annotated.mapNote Note.cleared = sheet.mapNote Note.cleared

theorem diagnostics_mapNote_cleared (sheet : Stylesheet) :
    (sheet.mapNote Note.cleared).diagnostics = [] := by
  rw [diagnostics_eq_notes, notes_mapNote, List.flatMap_map]
  exact List.flatMap_eq_nil_iff.2 fun _ _ => rfl

end Stylesheet

namespace Checker

variable (checker : Checker) (sheet : Stylesheet)

/-- What a checker finds wrong with each node of a stylesheet. -/
def causes : List (Option Cause) :=
  Stmt.bodyCauses checker.properties checker.scopes.push sheet.body

theorem causes_mapNote (f : Note → Note) :
    checker.causes (sheet.mapNote f) = checker.causes sheet :=
  Stmt.bodyCauses_mapNote _ f sheet.body _

theorem length_causes : sheet.notes.length = (checker.causes sheet).length :=
  Stmt.length_bodyCauses _ sheet.body _

theorem notes_check :
    (checker.check sheet).1.notes = List.zipWith Note.blame? sheet.notes (checker.causes sheet) :=
  Stmt.bodyNotes_checkBody _ sheet.body _

theorem annotated_check :
    Stylesheet.Annotated (checker.causes sheet) sheet (checker.check sheet).1 where
  note := rfl
  length := checker.length_causes sheet
  notes := checker.notes_check sheet
  same := congrArg (Stylesheet.mk sheet.note.cleared)
    (Stmt.bodyMapNote_check _ Note.blind_cleared sheet.body _)

theorem faults_check : (checker.check sheet).2.faults
    = checker.faults + (checker.causes sheet).countP Option.isSome := by
  rw [← length_flatMap_toList, causes, ← Stmt.faults_checkBody]
  rfl

variable {sheet}

/-- On a tree without complaints the diagnostics that checking puts there are what is wrong. -/
theorem causes_diagnostics_check (h : sheet.diagnostics = []) :
    (checker.check sheet).1.diagnostics.map Diagnostic.cause
      = (checker.causes sheet).flatMap Option.toList := by
  have hl := checker.length_causes sheet
  rw [Stylesheet.diagnostics_eq_notes, List.append_eq_nil_iff] at h
  rw [Stylesheet.diagnostics_eq_notes, notes_check, List.map_append,
    Note.causes_zipWith_blame? hl h.2]
  show sheet.note.diagnostic.toList.map _ ++ _ = _
  rw [h.1]
  rfl

end Checker

namespace Stylesheet

variable {sheet a b : Stylesheet}

theorem faults_check_eq_countP (sheet : Stylesheet) (properties : PropertyTable) :
    (sheet.check properties).2
      = ((Checker.ofProperties properties).causes sheet).countP Option.isSome :=
  ((Checker.ofProperties properties).faults_check sheet).trans (Nat.zero_add _)

theorem length_diagnostics_check (h : sheet.diagnostics = []) (properties : PropertyTable) :
    (sheet.check properties).1.diagnostics.length = (sheet.check properties).2 := by
  rw [faults_check_eq_countP, ← length_flatMap_toList,
    ← Checker.causes_diagnostics_check _ h, List.length_map]
  rfl

/-! Trees that differ in their notes alone have the same faults. -/

variable (h : Stmt.bodyMapNote Note.blank a.body = Stmt.bodyMapNote Note.blank b.body)

include h

theorem causes_congr (checker : Checker) : checker.causes a = checker.causes b := by
  rw [← checker.causes_mapNote a Note.blank, ← checker.causes_mapNote b Note.blank]
  exact congrArg (Stmt.bodyCauses _ _) h

theorem faults_congr (properties : PropertyTable) :
    (a.check properties).2 = (b.check properties).2 := by
  rw [faults_check_eq_countP, faults_check_eq_countP, causes_congr h]

theorem causes_diagnostics_congr (ha : a.diagnostics = []) (hb : b.diagnostics = [])
    (properties : PropertyTable) : (a.check properties).1.diagnostics.map Diagnostic.cause
      = (b.check properties).1.diagnostics.map Diagnostic.cause := by
  have hda := (Checker.ofProperties properties).causes_diagnostics_check ha
  have hdb := (Checker.ofProperties properties).causes_diagnostics_check hb
  exact hda.trans ((congrArg _ (causes_congr h _)).trans hdb.symm)

end Stylesheet

end StyleLang
