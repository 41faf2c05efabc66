import StyleLang.Proofs.Source

/-!
# Checking again

Checking a tree that carries complaints is checking it without them and putting the new complaints
over the old ones (`Stylesheet.check_overlay`). No decision is made by a complaint, so a second run
finds what the first one found and puts it where it is already (`Stylesheet.check_check`).
-/

namespace StyleLang

namespace Note

/-- The new note where it complains, and else the old one. -/
def overlay (old new : Note) : Note :=
  if new.diagnostic.isSome then new else old

theorem overlay_blame? (note : Note) (cause? : Option Cause) :
    note.overlay (note.cleared.blame? cause?) = note.blame? cause? := by
  cases cause? <;> rfl

@[simp] theorem blame?_blame? (note : Note) (cause? : Option Cause) :
    (note.blame? cause?).blame? cause? = note.blame? cause? := by
  cases cause? <;> rfl

theorem zipWith_overlay : ∀ (notes : List Note) (causes : List (Option Cause)),
    List.zipWith overlay notes (List.zipWith blame? (notes.map cleared) causes)
      = List.zipWith blame? notes causes
  | [], _ => rfl
  | _ :: _, [] => rfl
  | note :: notes, cause? :: causes => by
    rw [List.map_cons, List.zipWith_cons_cons, List.zipWith_cons_cons, List.zipWith_cons_cons,
      overlay_blame?, zipWith_overlay notes causes]

end Note

/-! ## Checking twice -/

theorem Expr.check_check (scopes : Scopes ValueType) :
    ∀ e : Expr, (e.check scopes).expr.check scopes = e.check scopes
  | literal _ _ => rfl
  | var note name => by
    rcases h : scopes.lookup name with _ | type
    · simp only [check, h]
      rfl
    · simp only [check, h]
  | binary note op left right => by
    have hl := check_check scopes left
    have hr := check_check scopes right
    rcases h : op.resultType (left.check scopes).type (right.check scopes).type with cause | type
    · simp only [check_binary, hl, hr, h]
      rfl
    · simp only [check_binary, hl, hr, h]

namespace Stmt

variable (properties : PropertyTable)

mutual

theorem check_check : ∀ (s : Stmt) (scopes : Scopes ValueType),
    (s.check properties scopes).node.check properties scopes = s.check properties scopes
  | rule _ _ body, scopes => by
    simp only [check, checkBody_checkBody body]
  | declaration _ _ value, scopes | assignment _ _ value, scopes => by
    simp only [check, value.check_check, Note.blame?_blame?]
  | conditional _ condition body none, scopes => by
    simp only [check, condition.check_check, Note.blame?_blame?, checkBody_checkBody body]
  | conditional _ condition body (some elseBody), scopes => by
    simp only [check, condition.check_check, Note.blame?_blame?, checkBody_checkBody body,
      checkBody_checkBody elseBody]

/-- Each statement is met in the same scopes again. -/
theorem checkBody_checkBody : ∀ (body : List Stmt) (scopes : Scopes ValueType),
    checkBody properties scopes (checkBody properties scopes body).node
      = checkBody properties scopes body
  | [], _ => rfl
  | stmt :: stmts, scopes => by
    simp only [checkBody, check_check stmt, checkBody_checkBody stmts]

end

end Stmt

namespace Stylesheet

variable (sheet : Stylesheet) (properties : PropertyTable)

theorem check_check : (sheet.check properties).1.check properties = sheet.check properties := by
  simp only [check, Checker.check, Stmt.checkBody_checkBody]

theorem notes_check_overlay : (sheet.check properties).1.notes
    = List.zipWith Note.overlay sheet.notes
        ((sheet.mapNote Note.cleared).check properties).1.notes := by
  have h (sheet : Stylesheet) := (Checker.ofProperties properties).notes_check sheet
  refine (h sheet).trans ?_
  show _ = List.zipWith Note.overlay sheet.notes
    ((Checker.ofProperties properties).check (sheet.mapNote Note.cleared)).1.notes
  rw [h, Checker.causes_mapNote, notes_mapNote, Note.zipWith_overlay]

theorem length_notes_check : sheet.notes.length = (sheet.check properties).1.notes.length := by
  have h := congrArg (List.length ∘ notes) (mapNote_check Note.blind_cleared sheet properties)
  simpa only [Function.comp_apply, notes_mapNote, List.length_map] using h.symm

/-- Checking puts what it finds in the bare tree over the old complaints, and nothing else changes.
So a second run changes nothing, and without old complaints the count is their number. -/
theorem check_overlay (sheet : Stylesheet) (properties : PropertyTable) :
    let fresh := (sheet.mapNote Note.cleared).check properties
    let checked := sheet.check properties
    checked.2 = fresh.2
      ∧ fresh.1.diagnostics.length = fresh.2
      ∧ fresh.1.notes.length = sheet.notes.length
      ∧ checked.1.notes = List.zipWith Note.overlay sheet.notes fresh.1.notes
      ∧ checked.1.note = sheet.note
      ∧ checked.1.mapNote Note.cleared = sheet.mapNote Note.cleared
      ∧ checked.1.check properties = checked
      ∧ (sheet.diagnostics = [] →
        (checked.1.hasDiagnostics = true ↔ 0 < checked.2)
          ∧ checked.1.diagnostics.length = checked.2) := by
  intro fresh checked
  have hcount : checked.2 = fresh.2 := by
    show (sheet.check properties).2 = ((sheet.mapNote Note.cleared).check properties).2
    rw [faults_check_eq_countP, faults_check_eq_countP, Checker.causes_mapNote]
  have hlength : fresh.1.notes.length = sheet.notes.length := by
    rw [← length_notes_check, notes_mapNote, List.length_map]
  refine ⟨hcount, length_diagnostics_check sheet.diagnostics_mapNote_cleared properties, hlength,
    sheet.notes_check_overlay properties, rfl, mapNote_check Note.blind_cleared sheet properties,
    sheet.check_check properties, fun h => ⟨?_, length_diagnostics_check h properties⟩⟩
  rw [← Bool.not_eq_false, hasDiagnostics_check h]
  exact Nat.pos_iff_ne_zero.symm

/-- In `p { A := Gone; width: 1px; }`, with an old complaint on each part, the assignment and the
name are blamed anew and the others keep what they have. -/
theorem check_overlay_gone :
    let old (text : String) : Note := ⟨.nowhere, some ⟨.unexpected text, .nowhere⟩⟩
    let blamed (cause : Cause) : Note := ⟨.nowhere, some ⟨cause, .nowhere⟩⟩
    let sheet : Stylesheet := ⟨.clean .nowhere, [.rule (old "p") [.byTag "p"]
      [.assignment (old ":=") "A" (.var (old "Gone") "Gone"),
        .declaration (old ":") "width" (.literal (old "1px") (.number .pixel 1))]]⟩
    let bare := sheet.mapNote Note.cleared
    let checked := sheet.check .standard
    checked.1.notes = [old "p", blamed (.undefinedAssignment "A"),
        blamed (.undefinedVariable "Gone"), old ":", old "1px"]
      ∧ checked.2 = 2 ∧ checked.1.check .standard = checked
      ∧ bare.diagnostics = [] ∧ (bare.check .standard).1.hasDiagnostics = true := by
  intro old blamed sheet bare checked
  obtain ⟨hcount, -, -, hnotes, -, -, htwice, -⟩ := sheet.check_overlay .standard
  obtain ⟨-, -, -, -, -, -, -, hbare⟩ := bare.check_overlay .standard
  have htwo : (bare.check .standard).2 = 2 := by decide
  have hclean : bare.diagnostics = [] := rfl
  refine ⟨hnotes, hcount.trans htwo, htwice, hclean, (hbare hclean).1.2 ?_⟩
  rw [htwo]
  decide

end Stylesheet

end StyleLang
