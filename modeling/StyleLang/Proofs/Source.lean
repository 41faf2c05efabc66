import StyleLang.Proofs.Lockstep
import StyleLang.Proofs.NormalForm
import StyleLang.Proofs.Overlay
import StyleLang.Proofs.Reading
import StyleLang.Proofs.Tiling

/-!
# From a source to its output

Scanning makes lexical tokens (`Token.lexical_of_scan`), so all that is known of their grammar
holds of sources: what a source is read as carries no complaint and is the tree of its outline
(`Stylesheet.tree_of_ofSource`). Whether a source has an output, and which, can be told from that
tree before it is checked (`compile_eq_ok_iff`): checking it puts complaints on it, but changes
nothing in what it is written as (`Stylesheet.emit_check`).
-/

namespace StyleLang

namespace Token

variable {source file : String}

/-- What is scanned is lexical up to an end. -/
theorem lexical_of_scan {ts : List Token} (h : scan source file = .ok ts) :
    ∃ tokens ending, ts = tokens ++ [ending] ∧ (∀ token ∈ tokens, token.Lexical)
      ∧ ending.kind = .ending := by
  obtain ⟨tokens, seen, rest, ht, ⟨-, hs⟩ | ⟨c, cs, -, -, hs⟩⟩ :=
    scanFrom_tiled file [] source.toList <;> cases h.symm.trans hs
  refine ⟨tokens, _, rfl, fun token hm => ?_, rfl⟩
  obtain ⟨b, piece, r, -, hf, he⟩ := ht.exists_of_mem hm
  have htext : token.text = String.ofList piece := by rw [he]; rfl
  rwa [Lexical, htext, String.toList_ofList]

theorem lexical_of_scan_append {tokens : List Token} {ending : Token}
    (h : scan source file = .ok (tokens ++ [ending])) :
    (∀ token ∈ tokens, token.Lexical) ∧ ending.kind = .ending := by
  obtain ⟨tokens', ending', heq, hl, he⟩ := lexical_of_scan h
  obtain ⟨rfl, hending⟩ := List.append_inj' heq rfl
  obtain ⟨rfl, -⟩ := List.cons.inj hending
  exact ⟨hl, he⟩

theorem category_of_scan {fault : Diagnostic} (h : scan source file = .error fault) :
    fault.cause.category = .syntaxError := by
  obtain ⟨tokens, seen, rest, ht, ⟨-, hs⟩ | ⟨c, cs, -, -, hs⟩⟩ :=
    scanFrom_tiled file [] source.toList <;> cases h.symm.trans hs
  rfl

end Token

namespace Stylesheet

variable {source file : String} {sheet : Stylesheet}

theorem ofSource_eq_ok (h : ofSource source file = .ok sheet) :
    ∃ tokens ending, Token.scan source file = .ok (tokens ++ [ending])
      ∧ (∀ token ∈ tokens, token.Lexical) ∧ ending.kind = .ending
      ∧ ofTokens (tokens ++ [ending]) file = .ok sheet := by
  obtain ⟨ts, hs, h⟩ := bind_eq_ok_iff.1 h
  obtain ⟨tokens, ending, rfl, hl, he⟩ := Token.lexical_of_scan hs
  exact ⟨tokens, ending, hs, hl, he, h⟩

theorem category_of_ofSource {fault : Diagnostic} (h : ofSource source file = .error fault) :
    fault.cause.category = .syntaxError := by
  unfold ofSource at h
  rcases hs : Token.scan source file with fault' | ts <;> rw [hs] at h
  · cases h
    exact Token.category_of_scan hs
  obtain ⟨tokens, ending, rfl, hl, he⟩ := Token.lexical_of_scan hs
  rcases ofTokens_sound file hl he with ⟨sheet, ht, -⟩ | ⟨fault', ht, hc⟩ <;> cases ht.symm.trans h
  exact hc

/-- What a source is read as is the tree of its outline, and carries no complaint. -/
theorem tree_of_ofSource (h : ofSource source file = .ok sheet) :
    sheet.diagnostics = [] ∧ Stmt.bodyMapNote Note.unplaced sheet.body
      = Outline.bodyTree (Stmt.bodyOutline sheet.body) := by
  obtain ⟨tokens, ending, -, hl, he, ht⟩ := ofSource_eq_ok h
  exact (tree_of_ofTokens file hl he ht).2

/-- A source is read as the outline that derives its tokens. -/
theorem ofSource_of_derives {tokens : List Token} {ending : Token} {body : List Outline}
    (hs : Token.scan source file = .ok (tokens ++ [ending]))
    (hl : ∀ token ∈ tokens, token.Lexical) (he : ending.kind = .ending)
    (hd : Outline.SheetDerives body tokens) :
    ∃ sheet, ofSource source file = .ok sheet ∧ Stmt.bodyOutline sheet.body = body := by
  obtain ⟨sheet, ht, hb⟩ := ofTokens_complete file hl he hd
  refine ⟨sheet, ?_, hb⟩
  unfold ofSource
  rw [hs]
  exact ht

theorem emit_eq_ok_iff {sheet : Stylesheet} {css : String} : sheet.emit = .ok css ↔
    ∃ out frame lines, Stmt.blockOutcome .empty .empty sheet.body = .ok (out, frame)
      ∧ Stmt.bodyLines 0 out = .ok lines ∧ css = String.join (lines.map (· ++ "\n")) := by
  rw [emit_eq, bind_eq_ok_iff]
  constructor
  · rintro ⟨⟨out, frame⟩, hb, h⟩
    obtain ⟨lines, hl, ⟨⟩⟩ := bind_eq_ok_iff.1 h
    exact ⟨out, frame, lines, hb, hl, rfl⟩
  · rintro ⟨out, frame, lines, hb, hl, rfl⟩
    exact ⟨_, hb, bind_eq_ok_iff.2 ⟨lines, hl, rfl⟩⟩

/-! ## Checking changes no output -/

theorem emit_check (sheet : Stylesheet) (properties : PropertyTable) :
    (sheet.check properties).1.emit = sheet.emit := by
  rw [← emit_mapNote_cleared, mapNote_check Note.blind_cleared, emit_mapNote_cleared]

theorem hasDiagnostics_check (h : sheet.diagnostics = []) (properties : PropertyTable) :
    (sheet.check properties).1.hasDiagnostics = false ↔ (sheet.check properties).2 = 0 := by
  rw [hasDiagnostics, Bool.not_eq_false', List.isEmpty_iff, ← List.length_eq_zero_iff,
    length_diagnostics_check h]

end Stylesheet

variable {options : Options} {source file : String}

theorem check_eq_map : check options source file
    = (Stylesheet.ofSource source file).map fun sheet => (sheet.check options.properties).1 := by
  unfold check
  cases Stylesheet.ofSource source file <;> rfl

theorem compile_of_check_error {fault : Diagnostic}
    (h : check options source file = .error fault) :
    compile options source file = .error [fault] := by
  rw [compile, h]

theorem compile_of_check_ok {sheet : Stylesheet} (h : check options source file = .ok sheet) :
    compile options source file =
      if sheet.hasDiagnostics && !options.evaluateOnErrors then .error sheet.diagnostics
      else sheet.emit.mapError ([·]) := by
  rw [compile, h]

/-- A source has an output if what it is read as can be written, and has no faults or is evaluated
all the same. -/
theorem compile_eq_ok_iff {css : String} :
    compile options source file = .ok css ↔ ∃ sheet, Stylesheet.ofSource source file = .ok sheet
      ∧ ((sheet.check options.properties).2 = 0 ∨ options.evaluateOnErrors = true)
      ∧ sheet.emit = .ok css := by
  have hc : check options source file = _ := check_eq_map
  rcases hs : Stylesheet.ofSource source file with fault | sheet <;> rw [hs] at hc
  · rw [compile_of_check_error hc]
    constructor
    · exact nofun
    · rintro ⟨sheet, h, -⟩
      cases h
  · have hd := (Stylesheet.tree_of_ofSource hs).1
    have hf := Stylesheet.hasDiagnostics_check hd options.properties
    rw [compile_of_check_ok hc]
    constructor
    · intro h
      split at h
      · cases h
      · rename_i hc
        refine ⟨sheet, rfl, ?_, ?_⟩
        · rw [Bool.and_eq_true, not_and_or, Bool.not_eq_true, hf] at hc
          simpa using hc
        · rw [← Stylesheet.emit_check]
          exact mapError_eq_ok_iff.1 h
    · rintro ⟨sheet', h, hc, he⟩
      cases h
      rw [if_neg, Stylesheet.emit_check, he]
      · rfl
      · rw [Bool.and_eq_true, not_and_or, Bool.not_eq_true, hf]
        simpa using hc

end StyleLang
