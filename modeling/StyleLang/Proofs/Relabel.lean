import StyleLang.Compile
import StyleLang.Proofs.Block
import StyleLang.Proofs.Derivation

/-!
# Trees with other notes

`Stmt.mapNote` puts other notes on a tree and leaves the rest of it as it is. What a tree means
does not depend on its notes: it has the same outline, its expressions have the same types, and
it turns into the same statements and the same text. An error points at a note, so it keeps what
the other notes keep of a place (`Note.Retells`): its cause at least, and all of it where the notes
stand where they stood (`Stylesheet.mapError_emit_mapNote`). Checking a tree does no more than put
notes on it (`Stylesheet.mapNote_check`).
-/

namespace StyleLang

namespace Note

/-- The note without a complaint. -/
def cleared (note : Note) : Note := .clean note.span

/-- The note of a node that was built without a source. -/
def blank (_ : Note) : Note := .clean .nowhere

/-- A map of notes that takes no notice of complaints. -/
structure Blind (f : Note → Note) : Prop where
  blame : ∀ note cause, f (note.blame cause) = f note
  clean : ∀ note, f (.clean note.span) = .clean (f note).span

/-- What `g` keeps of a complaint made at a changed note is what `g'` keeps of the same complaint
made at the note itself. -/
def Retells {ε : Type} (f : Note → Note) (g g' : Diagnostic → ε) : Prop :=
  ∀ cause note, g ⟨cause, (f note).span.start⟩ = g' ⟨cause, note.span.start⟩

theorem retells_cause (f : Note → Note) : Retells f Diagnostic.cause Diagnostic.cause :=
  fun _ _ => rfl

theorem retells_cleared : Retells cleared id id := fun _ _ => rfl

theorem blind_cleared : Blind cleared := ⟨fun _ _ => rfl, fun _ => rfl⟩

theorem blind_blank : Blind blank := ⟨fun _ _ => rfl, fun _ => rfl⟩

theorem Blind.blame? {f : Note → Note} (hf : Blind f) (note : Note) (cause? : Option Cause) :
    f (note.blame? cause?) = f note := by
  cases cause? with
  | none => rfl
  | some cause => exact hf.blame note cause

end Note

theorem mapError_bind {ε ε' α β : Type} (g : ε → ε') (x : Except ε α) (f : α → Except ε β) :
    (x >>= f).mapError g = x.mapError g >>= fun a => (f a).mapError g := by
  cases x <;> rfl

theorem mapError_id {ε α : Type} (x : Except ε α) : x.mapError id = x := by
  cases x <;> rfl

theorem mapError_eq_ok_iff {ε ε' α : Type} {g : ε → ε'} {x : Except ε α} {a : α} :
    x.mapError g = .ok a ↔ x = .ok a := by
  cases x with
  | error e => exact ⟨nofun, nofun⟩
  | ok b =>
    constructor <;> rintro ⟨⟩
    all_goals rfl

/-! ## Maps of notes -/

def Expr.mapNote (f : Note → Note) : Expr → Expr
  | literal note value => .literal (f note) value
  | var note name => .var (f note) name
  | binary note op left right => .binary (f note) op (left.mapNote f) (right.mapNote f)

namespace Stmt

mutual

def mapNote (f : Note → Note) : Stmt → Stmt
  | rule note selectors body => .rule (f note) selectors (bodyMapNote f body)
  | declaration note property value => .declaration (f note) property (value.mapNote f)
  | assignment note name value => .assignment (f note) name (value.mapNote f)
  | conditional note condition body none =>
    .conditional (f note) (condition.mapNote f) (bodyMapNote f body) none
  | conditional note condition body (some elseBody) =>
    .conditional (f note) (condition.mapNote f) (bodyMapNote f body)
      (some (bodyMapNote f elseBody))

def bodyMapNote (f : Note → Note) : List Stmt → List Stmt
  | [] => []
  | stmt :: stmts => stmt.mapNote f :: bodyMapNote f stmts

end

end Stmt

def Stylesheet.mapNote (f : Note → Note) (sheet : Stylesheet) : Stylesheet :=
  ⟨f sheet.note, Stmt.bodyMapNote f sheet.body⟩

variable {f : Note → Note} {ε : Type} {g g' : Diagnostic → ε}

namespace Expr

@[simp] theorem note_mapNote (e : Expr) : (e.mapNote f).note = f e.note := by
  cases e <;> rfl

theorem row_mapNote : ∀ e : Expr, (e.mapNote f).row = e.row
  | literal _ _ | var _ _ => rfl
  | binary _ op left right => by
    rw [mapNote, row, row, row_mapNote left, row_mapNote right]

theorem type_check_mapNote (scopes : Scopes ValueType) :
    ∀ e : Expr, ((e.mapNote f).check scopes).type = (e.check scopes).type
  | literal _ _ => rfl
  | var _ name => by
    rw [mapNote, check, check]
    cases scopes.lookup name <;> rfl
  | binary _ op left right => by
    rw [mapNote, check, check]
    simp only [type_check_mapNote scopes left, type_check_mapNote scopes right]
    cases op.resultType (left.check scopes).type (right.check scopes).type <;> rfl

theorem mapNote_check (hf : Note.Blind f) (scopes : Scopes ValueType) :
    ∀ e : Expr, (e.check scopes).expr.mapNote f = e.mapNote f
  | literal _ _ => rfl
  | var note name => by
    rw [check]
    cases scopes.lookup name with
    | none => rw [mapNote, mapNote, hf.blame]
    | some type => rfl
  | binary note op left right => by
    have hl := mapNote_check hf scopes left
    have hr := mapNote_check hf scopes right
    rw [check]
    cases op.resultType (left.check scopes).type (right.check scopes).type with
    | ok type => simp only [mapNote, hl, hr]
    | error cause => simp only [mapNote, hl, hr, hf.blame]

theorem mapError_value_mapNote (hg : Note.Retells f g g') (scopes : Scopes Literal) :
    ∀ e : Expr, ((e.mapNote f).value scopes).mapError g = (e.value scopes).mapError g'
  | literal _ _ => rfl
  | var note name => by
    rw [mapNote, value, value]
    cases scopes.lookup name with
    | none => exact congrArg Except.error (hg _ note)
    | some v => rfl
  | binary note op left right => by
    rw [mapNote, value, value, mapError_bind, mapError_bind,
      mapError_value_mapNote hg scopes left]
    refine bind_congr fun l => ?_
    rw [mapError_bind, mapError_bind, mapError_value_mapNote hg scopes right]
    refine bind_congr fun r => ?_
    cases op.eval l r with
    | error cause => exact congrArg Except.error (hg cause note)
    | ok v => rfl

theorem replace_mapNote (hf : Note.Blind f) (e : Expr) (v : Literal) :
    (e.mapNote f).replace v = (e.replace v).mapNote f := by
  rw [replace, replace, mapNote, span, span, note_mapNote, hf.clean]

theorem mapError_reduce_mapNote (hf : Note.Blind f) (hg : Note.Retells f g g')
    (scopes : Scopes Literal) (e : Expr) : ((e.mapNote f).reduce scopes).mapError g
      = ((e.reduce scopes).mapError g').map fun (v, e) => (v, e.mapNote f) := by
  rw [reduce, reduce, mapError_bind, mapError_bind, mapError_value_mapNote hg]
  cases e.value scopes with
  | error fault => rfl
  | ok v =>
    show Except.ok (v, (e.mapNote f).replace v) = .ok (v, (e.replace v).mapNote f)
    rw [replace_mapNote hf]

theorem mapError_choice_mapNote (hg : Note.Retells f g g') (scopes : Scopes Literal) (note : Note)
    (condition : Expr) : ((condition.mapNote f).choice scopes (f note)).mapError g
      = (condition.choice scopes note).mapError g' := by
  rw [choice, choice, reduce, reduce]
  simp only [bind_assoc, pure_bind]
  rw [mapError_bind, mapError_bind, mapError_value_mapNote hg]
  refine bind_congr fun v => ?_
  rcases v with ⟨_, _⟩ | _ | _
  · exact congrArg Except.error (hg _ note)
  · exact congrArg Except.error (hg _ note)
  · rfl

end Expr

namespace Stmt

mutual

theorem outline_mapNote : ∀ s : Stmt, (s.mapNote f).outline = s.outline
  | rule _ _ body => by rw [mapNote, outline, outline, bodyOutline_mapNote body]
  | declaration _ _ value | assignment _ _ value => by
    rw [mapNote, outline, outline, value.row_mapNote]
  | conditional _ condition body none => by
    rw [mapNote, outline, outline, condition.row_mapNote, bodyOutline_mapNote body]
  | conditional _ condition body (some elseBody) => by
    rw [mapNote, outline, outline, condition.row_mapNote, bodyOutline_mapNote body,
      bodyOutline_mapNote elseBody]

theorem bodyOutline_mapNote :
    ∀ body : List Stmt, bodyOutline (bodyMapNote f body) = bodyOutline body
  | [] => rfl
  | stmt :: stmts => by
    rw [bodyMapNote, bodyOutline, bodyOutline, outline_mapNote stmt, bodyOutline_mapNote stmts]

end

theorem bodyMapNote_append :
    ∀ a b : List Stmt, bodyMapNote f (a ++ b) = bodyMapNote f a ++ bodyMapNote f b
  | [], b => rfl
  | stmt :: stmts, b => by
    rw [List.cons_append, bodyMapNote, bodyMapNote_append stmts b, bodyMapNote, List.cons_append]

section check

variable (properties : PropertyTable)

mutual

/-- Checking depends on no note, and its faults are all that it puts on a tree. -/
theorem mapNote_check (hf : Note.Blind f) : ∀ (s : Stmt) (scopes : Scopes ValueType),
    (s.check properties scopes).node.mapNote f = s.mapNote f
  | rule _ _ body, scopes => by
    rw [check, mapNote, mapNote, bodyMapNote_check hf body]
  | declaration _ _ value, scopes | assignment _ _ value, scopes => by
    simp only [check, mapNote, hf.blame?, value.mapNote_check hf]
  | conditional _ condition body none, scopes => by
    simp only [check, mapNote, hf.blame?, condition.mapNote_check hf, bodyMapNote_check hf body]
  | conditional _ condition body (some elseBody), scopes => by
    simp only [check, mapNote, hf.blame?, condition.mapNote_check hf, bodyMapNote_check hf body,
      bodyMapNote_check hf elseBody]

theorem bodyMapNote_check (hf : Note.Blind f) : ∀ (body : List Stmt) (scopes : Scopes ValueType),
    bodyMapNote f (checkBody properties scopes body).node = bodyMapNote f body
  | [], _ => rfl
  | stmt :: stmts, scopes => by
    rw [checkBody, bodyMapNote, bodyMapNote, mapNote_check hf stmt, bodyMapNote_check hf stmts]

end

end check

/-! ## Evaluation and output -/

/-- A result with other notes on its statements, and with what `g` keeps of an error. -/
def mapOutcome (f : Note → Note) (g : Diagnostic → ε)
    (result : Except Diagnostic (List Stmt × Bindings Literal)) :
    Except ε (List Stmt × Bindings Literal) :=
  (result.mapError g).map fun (out, frame) => (bodyMapNote f out, frame)

theorem mapOutcome_bind {α : Type} (x : Except Diagnostic α)
    (next : α → Except Diagnostic (List Stmt × Bindings Literal)) :
    mapOutcome f g (x >>= next) = x.mapError g >>= fun a => mapOutcome f g (next a) := by
  cases x <;> rfl

theorem mapOutcome_pure (out : List Stmt) (frame : Bindings Literal) :
    mapOutcome f g (pure (out, frame)) = pure (bodyMapNote f out, frame) := rfl

/-- Going on from a result that differs in its notes. -/
theorem bind_of_mapOutcome {α : Type} {x y : Except Diagnostic (List Stmt × Bindings Literal)}
    (h : x.mapError g = mapOutcome f g' y)
    (next : List Stmt × Bindings Literal → Except ε α) :
    (x.mapError g >>= next)
      = y.mapError g' >>= fun (out, frame) => next (bodyMapNote f out, frame) := by
  rw [h]
  cases y <;> rfl

mutual

theorem mapError_outcome_mapNote (hf : Note.Blind f) (hg : Note.Retells f g g') :
    ∀ (s : Stmt) (outer : Scopes Literal) (frame : Bindings Literal),
      ((s.mapNote f).outcome outer frame).mapError g = mapOutcome f g' (s.outcome outer frame)
  | rule note selectors body, outer, frame => by
    rw [mapNote, outcome, outcome, mapError_bind, mapOutcome_bind,
      bind_of_mapOutcome (mapError_blockOutcome_mapNote hf hg body _ _)]
    rfl
  | declaration note property value, outer, frame => by
    rw [mapNote, outcome, outcome, mapError_bind, mapOutcome_bind,
      value.mapError_reduce_mapNote hf hg]
    cases value.reduce (outer.extend frame) <;> rfl
  | assignment note name value, outer, frame => by
    rw [mapNote, outcome, outcome, mapError_bind, mapOutcome_bind,
      value.mapError_reduce_mapNote hf hg]
    cases value.reduce (outer.extend frame) <;> rfl
  | conditional note condition body none, outer, frame => by
    rw [mapNote, outcome, outcome, mapError_bind, mapOutcome_bind,
      condition.mapError_choice_mapNote hg]
    refine bind_congr fun chosen => ?_
    cases chosen with
    | false => rfl
    | true =>
      simp only [if_true]
      rw [mapError_bind, mapOutcome_bind,
        bind_of_mapOutcome (mapError_blockOutcome_mapNote hf hg body _ _)]
      rfl
  | conditional note condition body (some elseBody), outer, frame => by
    rw [mapNote, outcome, outcome, mapError_bind, mapOutcome_bind,
      condition.mapError_choice_mapNote hg]
    refine bind_congr fun chosen => ?_
    cases chosen with
    | false =>
      simp only [Bool.false_eq_true, if_false]
      rw [mapError_bind, mapOutcome_bind,
        bind_of_mapOutcome (mapError_blockOutcome_mapNote hf hg elseBody _ _)]
      rfl
    | true =>
      simp only [if_true]
      rw [mapError_bind, mapOutcome_bind,
        bind_of_mapOutcome (mapError_blockOutcome_mapNote hf hg body _ _)]
      rfl

/-- A block turns into the same statements whatever its notes are, or fails with the same error, as
far as the notes tell. -/
theorem mapError_blockOutcome_mapNote (hf : Note.Blind f) (hg : Note.Retells f g g') :
    ∀ (body : List Stmt) (outer : Scopes Literal) (frame : Bindings Literal),
      (blockOutcome outer frame (bodyMapNote f body)).mapError g
        = mapOutcome f g' (blockOutcome outer frame body)
  | [], _, _ => rfl
  | stmt :: stmts, outer, frame => by
    rw [bodyMapNote, blockOutcome, blockOutcome, mapError_bind, mapOutcome_bind,
      bind_of_mapOutcome (mapError_outcome_mapNote hf hg stmt outer frame)]
    refine bind_congr fun (out, frame) => ?_
    dsimp only
    rw [mapError_bind, mapOutcome_bind,
      bind_of_mapOutcome (mapError_blockOutcome_mapNote hf hg stmts outer frame)]
    refine bind_congr fun (rest, frame) => ?_
    rw [mapOutcome_pure, bodyMapNote_append]
    rfl

end

mutual

theorem mapError_lines_mapNote (hg : Note.Retells f g g') : ∀ (s : Stmt) (level : Nat),
    ((s.mapNote f).lines level).mapError g = (s.lines level).mapError g'
  | rule _ _ body, level => by
    rw [mapNote, lines, lines, mapError_bind, mapError_bind, mapError_bodyLines_mapNote hg body]
    rfl
  | declaration _ _ (.literal _ _), _ => rfl
  | declaration note _ (.var _ _), _ | declaration note _ (.binary _ _ _ _), _ =>
    congrArg Except.error (hg _ note)
  | assignment _ _ _, _ => rfl
  | conditional note _ _ none, _ | conditional note _ _ (some _), _ =>
    congrArg Except.error (hg _ note)

theorem mapError_bodyLines_mapNote (hg : Note.Retells f g g') :
    ∀ (body : List Stmt) (level : Nat),
    (bodyLines level (bodyMapNote f body)).mapError g = (bodyLines level body).mapError g'
  | [], _ => rfl
  | stmt :: stmts, level => by
    rw [bodyMapNote, bodyLines, bodyLines, mapError_bind, mapError_bind,
      mapError_lines_mapNote hg stmt]
    refine bind_congr fun first => ?_
    rw [mapError_bind, mapError_bind, mapError_bodyLines_mapNote hg stmts]
    rfl

end

end Stmt

namespace Stylesheet

/-- Checking puts faults on a tree and nothing else. -/
theorem mapNote_check (hf : Note.Blind f) (sheet : Stylesheet) (properties : PropertyTable) :
    (sheet.check properties).1.mapNote f = sheet.mapNote f := by
  have h := Stmt.bodyMapNote_check properties hf sheet.body (Scopes.push .empty)
  exact congrArg (Stylesheet.mk (f sheet.note)) h

theorem emit_eq (sheet : Stylesheet) :
    sheet.emit = Stmt.blockOutcome .empty .empty sheet.body >>= fun (out, _) =>
      Stmt.bodyLines 0 out >>= fun lines => pure (String.join (lines.map (· ++ "\n"))) := by
  rw [emit, evaluate_eq]
  cases Stmt.blockOutcome .empty .empty sheet.body <;> rfl

/-- What a tree is written as does not depend on its notes, nor does its failure, as far as the
notes tell. -/
theorem mapError_emit_mapNote (hf : Note.Blind f) (hg : Note.Retells f g g')
    (sheet : Stylesheet) : (sheet.mapNote f).emit.mapError g = sheet.emit.mapError g' := by
  rw [emit_eq, emit_eq, mapError_bind, mapError_bind]
  show ((Stmt.blockOutcome .empty .empty (Stmt.bodyMapNote f sheet.body)).mapError _ >>= _) = _
  rw [Stmt.bind_of_mapOutcome (Stmt.mapError_blockOutcome_mapNote hf hg sheet.body _ _)]
  refine bind_congr fun (out, _) => ?_
  dsimp only
  rw [mapError_bind, mapError_bind, Stmt.mapError_bodyLines_mapNote hg]
  rfl

/-- Complaints on a tree change nothing in what it is written as, nor in where it fails. -/
theorem emit_mapNote_cleared (sheet : Stylesheet) :
    (sheet.mapNote Note.cleared).emit = sheet.emit := by
  have h := sheet.mapError_emit_mapNote Note.blind_cleared Note.retells_cleared
  rwa [mapError_id, mapError_id] at h

variable {a b : Stylesheet}
  (h : Stmt.bodyMapNote Note.blank a.body = Stmt.bodyMapNote Note.blank b.body)

include h

/-- Trees that differ in their notes alone are written the same. -/
theorem emit_congr : a.emit.mapError Diagnostic.cause = b.emit.mapError Diagnostic.cause := by
  have hab : a.mapNote Note.blank = b.mapNote Note.blank :=
    congrArg (Stylesheet.mk (.clean .nowhere)) h
  rw [← mapError_emit_mapNote Note.blind_blank (Note.retells_cause _) a, hab,
    mapError_emit_mapNote Note.blind_blank (Note.retells_cause _)]

end Stylesheet

end StyleLang
