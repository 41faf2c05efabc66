import StyleLang.Proofs.Relocation
import StyleLang.Proofs.Source

/-!
# Sources of the same lexemes

Two sources whose tokens have the same kinds and texts differ in their layout, and in the names of
their files. Up to places they are read as the same tree, or fail with the same complaint
(`Stylesheet.unplaced_ofTokens`). What checking finds in a tree and what the tree is written as
does not depend on places, so the two sources have the same output, or the same complaints in the
same order (`compile_of_lexemes`).
-/

namespace StyleLang

/-- What a token is, wherever it stands. -/
def Token.lexeme (token : Token) : Kind × String :=
  (token.kind, token.text)

theorem Relocation.map_blank_of_lexemes {ts us : List Token}
    (h : ts.map Token.lexeme = us.map Token.lexeme) : ts.map blank.token = us.map blank.token := by
  have hb (ts : List Token) : ts.map blank.token
      = (ts.map Token.lexeme).map fun (kind, text) => ⟨kind, text, .nowhere⟩ := by
    rw [List.map_map]
    rfl
  rw [hb, h, ← hb]

namespace Stylesheet

/-- What is read, up to places. -/
def unplaced (result : Except Diagnostic Stylesheet) : Except Cause (List Stmt) :=
  (result.map fun sheet => Stmt.bodyMapNote Note.blank sheet.body).mapError Diagnostic.cause

/-- A relocation changes places only. -/
theorem unplaced_relocated (r : Relocation) (result : Except Diagnostic Stylesheet) :
    unplaced ((result.map (mapNote r.note)).mapError r.diagnostic) = unplaced result := by
  rcases result with fault | sheet
  · rfl
  · exact congrArg Except.ok (Stmt.bodyMapNote_bodyMapNote r.note Note.blank sheet.body)

/-- Tokens of the same kinds and texts are read as trees that differ in their notes alone, or fail
with complaints that differ in their places alone. -/
theorem unplaced_ofTokens {ts us : List Token} (h : ts.map Token.lexeme = us.map Token.lexeme)
    (file file' : String) : unplaced (ofTokens ts file) = unplaced (ofTokens us file') := by
  rw [← unplaced_relocated .blank, ← ofTokens_relocated, Relocation.map_blank_of_lexemes h,
    ← unplaced_relocated .blank (ofTokens us file'), ← ofTokens_relocated]
  rfl

end Stylesheet

variable {options : Options} {source source' file file' : String} {lexemes : List (Kind × String)}

/-- Trees that differ in their notes alone are compiled alike. -/
theorem compile_congr {a b : Stylesheet} (ha : Stylesheet.ofSource source file = .ok a)
    (hb : Stylesheet.ofSource source' file' = .ok b)
    (h : Stmt.bodyMapNote Note.blank a.body = Stmt.bodyMapNote Note.blank b.body) :
    (compile options source file).mapError (List.map Diagnostic.cause)
      = (compile options source' file').mapError (List.map Diagnostic.cause) := by
  have hd := Stylesheet.causes_diagnostics_congr h (Stylesheet.tree_of_ofSource ha).1
    (Stylesheet.tree_of_ofSource hb).1 options.properties
  have he : (a.check options.properties).1.emit.mapError Diagnostic.cause
      = (b.check options.properties).1.emit.mapError Diagnostic.cause := by
    rw [Stylesheet.emit_check, Stylesheet.emit_check, Stylesheet.emit_congr h]
  have hca : check options source file = _ := check_eq_map
  have hcb : check options source' file' = _ := check_eq_map
  rw [ha] at hca
  rw [hb] at hcb
  have hh : (a.check options.properties).1.hasDiagnostics
      = (b.check options.properties).1.hasDiagnostics := by
    rw [Stylesheet.hasDiagnostics, Stylesheet.hasDiagnostics, ← List.isEmpty_map, hd,
      List.isEmpty_map]
  rw [compile_of_check_ok hca, compile_of_check_ok hcb, hh]
  split
  · exact congrArg Except.error hd
  · have hm (emitted : Except Diagnostic String) :
        (emitted.mapError ([·])).mapError (List.map Diagnostic.cause)
          = (emitted.mapError Diagnostic.cause).mapError ([·]) := by
      cases emitted <;> rfl
    rw [hm, he, hm]

theorem compile_error_congr {fault fault' : Diagnostic}
    (hs : Stylesheet.ofSource source file = .error fault)
    (hs' : Stylesheet.ofSource source' file' = .error fault') (h : fault.cause = fault'.cause) :
    (compile options source file).mapError (List.map Diagnostic.cause)
      = (compile options source' file').mapError (List.map Diagnostic.cause) := by
  have hc : check options source file = _ := check_eq_map
  have hc' : check options source' file' = _ := check_eq_map
  rw [hs] at hc
  rw [hs'] at hc'
  rw [compile_of_check_error hc, compile_of_check_error hc']
  exact congrArg (fun cause => Except.error [cause]) h

/-- Sources whose tokens have the same kinds and texts, whatever stands between these and whatever
their files are called, have the same output, or the same complaints in the same order. Their
places apart, that is all there is to complaints: the class, the wording and the hint of each come
of its cause. -/
theorem compile_of_lexemes
    (h : (Token.scan source file).map (List.map Token.lexeme) = .ok lexemes)
    (h' : (Token.scan source' file').map (List.map Token.lexeme) = .ok lexemes) :
    (compile options source file).mapError (List.map Diagnostic.cause)
      = (compile options source' file').mapError (List.map Diagnostic.cause) := by
  rcases hs : Token.scan source file with fault | ts <;> rw [hs] at h
  · cases h
  rcases hs' : Token.scan source' file' with fault | us <;> rw [hs'] at h'
  · cases h'
  have ho : Stylesheet.ofSource source file = Stylesheet.ofTokens ts file := by
    rw [Stylesheet.ofSource, hs]
    rfl
  have ho' : Stylesheet.ofSource source' file' = Stylesheet.ofTokens us file' := by
    rw [Stylesheet.ofSource, hs']
    rfl
  have hu := Stylesheet.unplaced_ofTokens
    ((Except.ok.inj h).trans (Except.ok.inj h').symm) file file'
  rcases ht : Stylesheet.ofTokens ts file with fault | a <;>
    rcases ht' : Stylesheet.ofTokens us file' with fault' | b <;>
    rw [ht, ht'] at hu
  · exact compile_error_congr (ho.trans ht) (ho'.trans ht') (Except.error.inj hu)
  · cases hu
  · cases hu
  · exact compile_congr (ho.trans ht) (ho'.trans ht') (Except.ok.inj hu)

/-- Two layouts of a rule in files of different names, with faults that are listed alike. -/
theorem compile_of_lexemes_faults :
    let a := "p \x7b\n  // no such name\n  width: Size + 2px;\n\x7d\n"
    let b := "p\x7bwidth:Size+2px;\x7d"
    let options : Options := ⟨.standard, false⟩
    let lexemes := [(.lowerName, "p"), (.mark .openCurly, "\x7b"), (.lowerName, "width"),
      (.mark .colon, ":"), (.capitalName, "Size"), (.mark (.operator .add), "+"),
      (.number .pixel, "2px"), (.mark .semicolon, ";"), (.mark .closeCurly, "\x7d"),
      (.ending, "EOF")]
    (Token.scan a "a.icss").map (List.map Token.lexeme) = .ok lexemes
      ∧ (Token.scan b "b.icss").map (List.map Token.lexeme) = .ok lexemes
      ∧ (compile options a "a.icss").mapError (List.map Diagnostic.cause)
        = (compile options b "b.icss").mapError (List.map Diagnostic.cause)
      ∧ (compile options b "b.icss").mapError (List.map Diagnostic.cause)
        = .error [.propertyType "width" "pixel or percentage" .undefined,
          .operandMismatch .add .undefined .pixel, .undefinedVariable "Size"] := by
  intro a b options lexemes
  have ha : (Token.scan a "a.icss").map (List.map Token.lexeme) = .ok lexemes := by
    decide +kernel
  have hb : (Token.scan b "b.icss").map (List.map Token.lexeme) = .ok lexemes := by
    decide +kernel
  refine ⟨ha, hb, compile_of_lexemes ha hb, ?_⟩
  decide +kernel

end StyleLang
