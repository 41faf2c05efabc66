import StyleLang.Proofs.Preservation
import StyleLang.Proofs.Printing
import StyleLang.Proofs.Source

/-!
# Compiling an output

What an evaluated tree is written as, compiled again, comes to the same text, if no negative number
is declared (`compile_compile`): the text is read as the tree without its assignments, in which
nothing is left to evaluate (`Stmt.blockOutcome_of_reduced`) and no fault to find
(`Stmt.faults_bodyStripped_of_blockOutcome`), as each value has the type that was found for it
before.
-/

namespace StyleLang

namespace Stmt

theorem bodyStripped_append :
    ∀ a b : List Stmt, bodyStripped (a ++ b) = bodyStripped a ++ bodyStripped b
  | [], _ => rfl
  | stmt :: stmts, b => by
    rw [List.cons_append, bodyStripped, bodyStripped_append stmts b, bodyStripped,
      List.append_assoc]

mutual

theorem reduced_stripped : ∀ s : Stmt, s.Reduced → BodyReduced s.stripped
  | rule _ _ body, h => ⟨reduced_bodyStripped body h, trivial⟩
  | declaration _ _ _, h => ⟨h, trivial⟩
  | assignment _ _ _, _ => trivial
  | conditional _ _ _ _, h => h.elim

theorem reduced_bodyStripped :
    ∀ body : List Stmt, BodyReduced body → BodyReduced (bodyStripped body)
  | [], _ => trivial
  | stmt :: stmts, h =>
    bodyReduced_append.2 ⟨reduced_stripped stmt h.1, reduced_bodyStripped stmts h.2⟩

end

mutual

theorem bodyLines_stripped : ∀ (s : Stmt) (level : Nat), bodyLines level s.stripped = s.lines level
  | rule _ _ body, level => by
    rw [stripped, bodyLines, lines, lines, bodyLines_bodyStripped body]
    cases bodyLines (level + 1) body <;> simp [bodyLines] <;> rfl
  | declaration _ _ value, level => by
    rw [stripped, bodyLines]
    cases value <;> simp [bodyLines, lines] <;> rfl
  | assignment _ _ _, _ => rfl
  | conditional _ _ _ elseBody, _ => by
    rw [stripped, bodyLines]
    cases elseBody <;> rfl

/-- Assignments leave no trace in what is written. -/
theorem bodyLines_bodyStripped : ∀ (body : List Stmt) (level : Nat),
    bodyLines level (bodyStripped body) = bodyLines level body
  | [], _ => rfl
  | stmt :: stmts, level => by
    rw [bodyStripped, bodyLines_append, bodyLines_stripped stmt, bodyLines_bodyStripped stmts,
      bodyLines]

end

mutual

theorem mapNote_blank_of_reduced : ∀ s : Stmt, s.Reduced →
    s.mapNote Note.blank = s.outline.tree
  | rule _ _ body, h => by
    rw [mapNote, outline, Outline.tree, bodyMapNote_blank_of_reduced body h]
    rfl
  | declaration _ _ value, h | assignment _ _ value, h => by
    obtain ⟨span, v, rfl⟩ := h
    rfl
  | conditional _ _ _ _, h => h.elim

/-- In normal form there is nothing to group. -/
theorem bodyMapNote_blank_of_reduced : ∀ body : List Stmt, BodyReduced body →
    bodyMapNote Note.blank body = Outline.bodyTree (bodyOutline body)
  | [], _ => rfl
  | stmt :: stmts, h => by
    rw [bodyMapNote, bodyOutline, Outline.bodyTree, mapNote_blank_of_reduced stmt h.1,
      bodyMapNote_blank_of_reduced stmts h.2]

end

theorem outer_bodyStripped : ∀ body : List Stmt, (∀ o ∈ bodyOutline body, o.IsOuter) →
    ∀ o ∈ bodyOutline (bodyStripped body), o.IsOuter
  | [], _ => nofun
  | stmt :: stmts, h => by
    rw [bodyOutline, List.forall_mem_cons] at h
    rw [bodyStripped, bodyOutline_append, List.forall_mem_append]
    refine ⟨?_, outer_bodyStripped stmts h.2⟩
    cases stmt with
    | rule => exact List.forall_mem_singleton.2 trivial
    | declaration => exact h.1.elim
    | assignment => exact nofun
    | conditional _ _ _ elseBody => cases elseBody <;> exact h.1.elim

mutual

theorem bodyDeclarations_stripped : ∀ s : Stmt, bodyDeclarations s.stripped = s.declarations
  | rule _ _ body => by
    rw [stripped, bodyDeclarations_singleton, declarations, declarations,
      bodyDeclarations_bodyStripped body]
  | declaration _ _ _ => rfl
  | assignment _ _ _ => rfl
  | conditional _ _ _ none => bodyDeclarations_singleton _
  | conditional _ _ _ (some _) => bodyDeclarations_singleton _

theorem bodyDeclarations_bodyStripped :
    ∀ body : List Stmt, bodyDeclarations (bodyStripped body) = bodyDeclarations body
  | [] => rfl
  | stmt :: stmts => by
    rw [bodyStripped, bodyDeclarations_append, bodyDeclarations_stripped stmt,
      bodyDeclarations_bodyStripped stmts, bodyDeclarations]

end

/-- What a tree without faults is evaluated to has none, even without its assignments. -/
theorem faults_bodyStripped_of_blockOutcome {properties : PropertyTable} {body out : List Stmt}
    {types : Scopes ValueType} {outer : Scopes Literal} {frame frame' : Bindings Literal}
    (ht : types.Types (outer.extend frame)) (hf : (checkBody properties types body).faults = 0)
    (h : blockOutcome outer frame body = .ok (out, frame')) (scopes : Scopes ValueType) :
    (checkBody properties scopes (bodyStripped out)).faults = 0 := by
  have hk := keeps_blockOutcome properties body ht hf h
  rw [← bodyDeclarations_bodyStripped] at hk
  exact faults_checkBody_of_reduced properties _
    (reduced_bodyStripped out (reduced_blockOutcome body h)) (Declaration.fits_of_keeps hk) scopes

end Stmt

/-! ## The output, compiled -/

/-- The values that the output for a source declares. -/
def outputValues (options : Options) (source file : String) : List Literal :=
  match check options source file >>= Stylesheet.evaluate with
  | .ok result => Stmt.bodyDeclared result.body
  | .error _ => []

theorem toList_join_newlines (lines : List String) :
    (String.join (lines.map (· ++ "\n"))).toList = Stmt.written lines := by
  simp [String.toList_join, Stmt.written, List.flatMap_map]

namespace Stylesheet

variable {out : List Stmt} {lines : List String}

/-- What is written of an evaluated tree is read as that tree without its assignments. -/
theorem ofSource_bodyLines (hr : Stmt.BodyReduced out)
    (hl : Outline.BodyLegible (Stmt.bodyOutline out))
    (ho : ∀ o ∈ Stmt.bodyOutline out, o.IsOuter) (hn : ∀ v ∈ Stmt.bodyDeclared out, ¬ v.IsNegative)
    (h : Stmt.bodyLines 0 out = .ok lines) (file : String) :
    ∃ sheet, ofSource (String.join (lines.map (· ++ "\n"))) file = .ok sheet
      ∧ Stmt.bodyMapNote Note.blank sheet.body
        = Stmt.bodyMapNote Note.blank (Stmt.bodyStripped out) := by
  obtain ⟨tokens, hlex, hd, hs⟩ := Stmt.laid_bodyLines out hr hl hn h [] file 0
  rw [List.append_nil, ← toList_join_newlines] at hs
  have hscan : Token.scan (String.join (lines.map (· ++ "\n"))) file
      = .ok (tokens ++ [_]) := hs.trans (by rw [Token.scanFrom_nil]; rfl)
  have houter := Stmt.outer_bodyStripped out ho
  obtain ⟨sheet, hsheet, hb⟩ := ofSource_of_derives hscan hlex rfl (.of_body hd houter)
  refine ⟨sheet, hsheet, ?_⟩
  have hred := Stmt.bodyMapNote_blank_of_reduced _ (Stmt.reduced_bodyStripped out hr)
  rw [Stmt.bodyMapNote_blank_of_tree (tree_of_ofSource hsheet).2, hb, ← hred,
    Stmt.bodyMapNote_bodyMapNote]
  rfl

/-- An evaluated tree without its assignments is written as with them. -/
theorem emit_bodyStripped (note : Note) (hr : Stmt.BodyReduced out)
    (h : Stmt.bodyLines 0 out = .ok lines) :
    (Stylesheet.mk note (Stmt.bodyStripped out)).emit
      = .ok (String.join (lines.map (· ++ "\n"))) := by
  obtain ⟨frame, hb⟩ := Stmt.blockOutcome_of_reduced _ .empty .empty
    (Stmt.reduced_bodyStripped out hr)
  exact emit_eq_ok_iff.2 ⟨_, frame, lines, hb, by rw [Stmt.bodyLines_bodyStripped, h], rfl⟩

end Stylesheet

/-- What a source is read as is legible, and so it is when it has been checked. -/
theorem Stylesheet.legible_check_of_ofSource {source file : String} {sheet : Stylesheet}
    (h : ofSource source file = .ok sheet) (properties : PropertyTable) :
    Outline.BodyLegible (Stmt.bodyOutline (sheet.check properties).1.body)
      ∧ ∀ o ∈ Stmt.bodyOutline (sheet.check properties).1.body, o.IsOuter := by
  obtain ⟨tokens, ending, -, hl, he, ht⟩ := ofSource_eq_ok h
  have hblank : Stmt.bodyMapNote Note.blank (sheet.check properties).1.body
      = Stmt.bodyMapNote Note.blank sheet.body :=
    congrArg body (mapNote_check Note.blind_blank sheet properties)
  rw [← Stmt.bodyOutline_mapNote (f := Note.blank), hblank, Stmt.bodyOutline_mapNote]
  exact (tree_of_ofTokens file hl he ht).1.legible hl

theorem Stylesheet.faults_check_check (sheet : Stylesheet) (properties : PropertyTable) :
    ((sheet.check properties).1.check properties).2 = (sheet.check properties).2 :=
  faults_congr (congrArg body (mapNote_check Note.blind_blank sheet properties)) properties

/-- What is written of an evaluated tree, if it can be read, is compiled to itself. -/
theorem compile_bodyLines {options : Options} {sheet : Stylesheet} {out : List Stmt}
    {frame : Bindings Literal} {lines : List String}
    (hf : (sheet.check options.properties).2 = 0 ∨ options.evaluateOnErrors = true)
    (hb : Stmt.blockOutcome .empty .empty sheet.body = .ok (out, frame))
    (hl : Outline.BodyLegible (Stmt.bodyOutline out))
    (ho : ∀ o ∈ Stmt.bodyOutline out, o.IsOuter) (hn : ∀ v ∈ Stmt.bodyDeclared out, ¬ v.IsNegative)
    (h : Stmt.bodyLines 0 out = .ok lines) (file : String) :
    compile options (String.join (lines.map (· ++ "\n"))) file
      = .ok (String.join (lines.map (· ++ "\n"))) := by
  have hr := Stmt.reduced_blockOutcome sheet.body hb
  obtain ⟨sheet', hs, hblank⟩ := Stylesheet.ofSource_bodyLines hr hl ho hn h file
  let stripped : Stylesheet := ⟨sheet'.note, Stmt.bodyStripped out⟩
  have hblank : Stmt.bodyMapNote Note.blank sheet'.body
      = Stmt.bodyMapNote Note.blank stripped.body := hblank
  refine compile_eq_ok_iff.2 ⟨sheet', hs, hf.imp_left fun hf => ?_, ?_⟩
  · rw [Stylesheet.faults_check] at hf
    rw [Stylesheet.faults_congr hblank, Stylesheet.faults_check]
    exact Stmt.faults_bodyStripped_of_blockOutcome Scopes.types_empty.extend_empty hf hb _
  · rw [← mapError_eq_ok_iff (g := Diagnostic.cause), Stylesheet.emit_congr hblank,
      mapError_eq_ok_iff]
    exact Stylesheet.emit_bodyStripped _ hr h

theorem outputValues_eq {options : Options} {source file : String} {sheet : Stylesheet}
    {out : List Stmt} {frame : Bindings Literal} (hs : Stylesheet.ofSource source file = .ok sheet)
    (hb : Stmt.blockOutcome .empty .empty (sheet.check options.properties).1.body
      = .ok (out, frame)) :
    outputValues options source file = Stmt.bodyDeclared out := by
  have hc : check options source file = .ok (sheet.check options.properties).1 := by
    rw [check, hs]
    rfl
  rw [outputValues, hc]
  dsimp only [bind, Except.bind]
  rw [Stylesheet.evaluate_eq, hb]
  rfl

/-- An output that declares no negative number is compiled to itself. -/
theorem compile_compile {options : Options} {source file css : String}
    (h : compile options source file = .ok css)
    (hn : ∀ v ∈ outputValues options source file, ¬ v.IsNegative) (file' : String) :
    compile options css file' = .ok css := by
  obtain ⟨sheet, hs, hf, he⟩ := compile_eq_ok_iff.1 h
  obtain ⟨hl, ho⟩ := Stylesheet.legible_check_of_ofSource hs options.properties
  -- The first run evaluates the checked tree, so this is the tree the output is written of.
  rw [← Stylesheet.emit_check sheet options.properties] at he
  rw [← Stylesheet.faults_check_check] at hf
  obtain ⟨out, frame, lines, hb, hlines, rfl⟩ := Stylesheet.emit_eq_ok_iff.1 he
  exact compile_bodyLines hf hb (Stmt.legible_blockOutcome _ hl .start hb).1
    (Stmt.outer_blockOutcome _ ho hb) (outputValues_eq hs hb ▸ hn) hlines
    file'

/-- A branch is taken and an inner rule kept; the names are gone from the output. -/
theorem compile_compile_branch :
    let source := "Wide := TRUE; #menu, p \x7b Size := 2px * 3; if [Wide] \x7b width: Size + 1px;"
      ++ " \x7d else \x7b color: #ff0000; \x7d q \x7b background-color: #00ff00; \x7d \x7d"
    let css := "#menu, p \x7b\n  width: 7px;\n  q \x7b\n    background-color: #00ff00;\n  \x7d\n"
      ++ "\x7d\n"
    let options : Options := ⟨.standard, false⟩
    compile options source "a.icss" = .ok css
      ∧ (∀ v ∈ outputValues options source "a.icss", ¬ v.IsNegative)
      ∧ compile options css "a.css" = .ok css := by
  intro source css options
  have h : compile options source "a.icss" = .ok css := by decide +kernel
  have hv : outputValues options source "a.icss" = [.number .pixel 7, .color "#00ff00"] := by
    decide +kernel
  have hn : ∀ v ∈ outputValues options source "a.icss", ¬ v.IsNegative := by
    simp [hv, Literal.IsNegative]
  exact ⟨h, hn, compile_compile h hn "a.css"⟩

end StyleLang
