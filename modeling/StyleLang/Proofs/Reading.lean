import StyleLang.Proofs.ParseComplete

/-!
# Which tokens are read as a stylesheet

A list of lexical tokens is read exactly where the grammar derives it, and then as the outline
that derives it (`Stylesheet.ofTokens_derives`). Reading a stylesheet passes all tokens
(`Grammar.ahead_eq_nil_of_outerStmts`), since every statement has a first one, and what is read is
made of all of them (`Stylesheet.ofTokens_spells`).
-/

namespace StyleLang

theorem Cursor.ahead_ofTokens {tokens : List Token} {ending : Token} {file : String}
    (ht : ∀ token ∈ tokens, token.kind ≠ .ending) (he : ending.kind = .ending) :
    (ofTokens (tokens ++ [ending]) file).ahead = tokens := by
  show (tokens ++ [ending]).takeWhile (·.kind ≠ .ending) = tokens
  rw [List.takeWhile_append_of_pos (fun token hm => decide_eq_true (ht token hm)),
    List.takeWhile_cons_of_neg (by simp [he]), List.append_nil]

namespace Grammar

open Parse (Sound Complete)

variable (grammar : Grammar)

theorem ahead_eq_nil_of_outerStmts : ∀ (bound : Nat) {c c' : Cursor} {body : List Stmt},
    c.ahead.length < bound → (grammar.outerStmts bound).run c = .ok body c' → c'.ahead = []
  | 0, _, _, _, hb, _ => absurd hb (Nat.not_lt_zero _)
  | bound + 1, c, c', body, hb, h => by
    unfold outerStmts at h
    rw [EStateM.run_bind, Parse.run_current] at h
    simp only at h
    split at h
    · rename_i hk
      cases h
      exact Cursor.current_kind_eq_ending_iff.1 hk
    · rw [EStateM.run_bind] at h
      have hs := sound_outerStmt grammar c
      cases hr : grammar.outerStmt.run c with
      | error fault c₁ =>
        rw [hr] at h
        cases h
      | ok first c₁ =>
        rw [hr] at hs h
        obtain ⟨ts, hts, -, hfirst, -⟩ := hs
        have hb₁ : c₁.ahead.length < bound := by
          have hpos := List.length_pos_iff.2 (Stmt.ne_nil_of_spells hfirst)
          rw [hts, List.length_append] at hb
          omega
        simp only [EStateM.run_bind] at h
        cases hr' : (grammar.outerStmts bound).run c₁ with
        | error fault c₂ =>
          rw [hr'] at h
          cases h
        | ok rest c₂ =>
          rw [hr'] at h
          cases h
          exact ahead_eq_nil_of_outerStmts bound hb₁ hr'

theorem run_stylesheet (c : Cursor) : grammar.stylesheet.run c
    = match (grammar.outerStmts (c.left + 1)).run c with
      | .ok body c' => .ok ⟨.clean ⟨⟨0, c.file⟩, c'.lastStop⟩, body⟩ c'
      | .error fault c' => .error fault c' := by
  unfold stylesheet
  show (grammar.outerStmts (c.left + 1) >>= _).run c = _
  rw [EStateM.run_bind]
  cases (grammar.outerStmts (c.left + 1)).run c <;> rfl

end Grammar

namespace Stylesheet

open Grammar (standard)

variable {tokens : List Token} {ending : Token} (file : String)
  (hl : ∀ token ∈ tokens, token.Lexical) (he : ending.kind = .ending)

include hl he

theorem ahead_and_lexical :
    (Cursor.ofTokens (tokens ++ [ending]) file).ahead = tokens
      ∧ (Cursor.ofTokens (tokens ++ [ending]) file).Lexical := by
  have hc : (Cursor.ofTokens (tokens ++ [ending]) file).ahead = tokens :=
    Cursor.ahead_ofTokens (fun token hm => (hl token hm).kind_ne_ending) he
  refine ⟨hc, ?_⟩
  unfold Cursor.Lexical
  rwa [hc]

/-- What is read is made of the tokens, with none left. It begins where the file does and ends
where the last token does. -/
theorem ofTokens_spells :
    (∃ sheet, ofTokens (tokens ++ [ending]) file = .ok sheet
      ∧ Stmt.BodySpells sheet.body tokens ∧ (∀ stmt ∈ sheet.body, stmt.outerFault? = none)
      ∧ sheet.note.span.start = ⟨0, file⟩
      ∧ (tokens ≠ [] → sheet.note.span.stop = (Span.cover tokens).stop))
    ∨ ∃ fault, ofTokens (tokens ++ [ending]) file = .error fault
      ∧ fault.cause.category = .syntaxError := by
  obtain ⟨hc, -⟩ := ahead_and_lexical file hl he
  have hfile : (Cursor.ofTokens (tokens ++ [ending]) file).file = file := rfl
  unfold ofTokens
  generalize Cursor.ofTokens (tokens ++ [ending]) file = c at hc hfile ⊢
  have hs := Grammar.sound_outerStmts standard (c.left + 1) c
  rw [Grammar.run_stylesheet]
  cases hr : (standard.outerStmts (c.left + 1)).run c with
  | error fault c' =>
    rw [hr] at hs
    exact .inr ⟨fault, rfl, hs⟩
  | ok body c' =>
    rw [hr] at hs
    obtain ⟨ts, hts, hpassed, hspells, houter⟩ := hs
    have hnil : c'.ahead = [] := by
      have hleft := c.left_eq
      exact Grammar.ahead_eq_nil_of_outerStmts _ _ (by omega) hr
    obtain rfl : tokens = ts := by rw [← hc, hts, hnil, List.append_nil]
    refine .inl ⟨_, rfl, hspells, houter, ?_, Cursor.lastStop_of_passed hpassed⟩
    rw [← hfile]
    rfl

/-- What is read is derived by its outline, with no token left. -/
theorem ofTokens_sound :
    (∃ sheet, ofTokens (tokens ++ [ending]) file = .ok sheet
      ∧ Outline.SheetDerives (Stmt.bodyOutline sheet.body) tokens)
    ∨ ∃ fault, ofTokens (tokens ++ [ending]) file = .error fault
      ∧ fault.cause.category = .syntaxError := by
  refine (ofTokens_spells file hl he).imp_left ?_
  rintro ⟨sheet, h, hspells, houter, -⟩
  refine ⟨sheet, h, .of_body (hspells.derives hl) fun o ho => ?_⟩
  rw [Stmt.bodyOutline_eq_map] at ho
  obtain ⟨stmt, hm, rfl⟩ := List.mem_map.1 ho
  exact Stmt.isOuter_iff.2 (houter stmt hm)

/-- What an outline derives is read as its tree. -/
theorem ofTokens_tree {body : List Outline} (h : Outline.SheetDerives body tokens) :
    ∃ sheet, ofTokens (tokens ++ [ending]) file = .ok sheet ∧ sheet.note.diagnostic = none
      ∧ Stmt.bodyMapNote Note.unplaced sheet.body = Outline.bodyTree body := by
  obtain ⟨hc, hcl⟩ := ahead_and_lexical file hl he
  unfold ofTokens
  generalize Cursor.ofTokens (tokens ++ [ending]) file = c at hc hcl ⊢
  have hb : tokens.length < c.left + 1 := by
    have hleft := c.left_eq
    rw [hc] at hleft
    omega
  have ha : c.ahead = tokens ++ [] := by rw [hc, List.append_nil]
  obtain ⟨stmts, c', hr, -, hs⟩ := Grammar.complete_outerStmts _ h hb c hcl ha
  rw [Grammar.run_stylesheet, hr]
  exact ⟨_, rfl, rfl, hs⟩

theorem ofTokens_complete {body : List Outline} (h : Outline.SheetDerives body tokens) :
    ∃ sheet, ofTokens (tokens ++ [ending]) file = .ok sheet
      ∧ Stmt.bodyOutline sheet.body = body := by
  obtain ⟨sheet, hsheet, -, hs⟩ := ofTokens_tree file hl he h
  exact ⟨sheet, hsheet, Stmt.bodyOutline_eq_of_mapNote hs⟩

/-- What is read carries no complaint, and is grouped as the tree of its outline. -/
theorem tree_of_ofTokens {sheet : Stylesheet}
    (h : ofTokens (tokens ++ [ending]) file = .ok sheet) :
    Outline.SheetDerives (Stmt.bodyOutline sheet.body) tokens ∧ sheet.diagnostics = []
      ∧ Stmt.bodyMapNote Note.unplaced sheet.body
        = Outline.bodyTree (Stmt.bodyOutline sheet.body) := by
  rcases ofTokens_sound file hl he with ⟨sheet', hs, hd⟩ | ⟨fault, hs, -⟩ <;>
    cases h.symm.trans hs
  obtain ⟨sheet', hs, hn, ht⟩ := ofTokens_tree file hl he hd
  cases h.symm.trans hs
  refine ⟨hd, ?_, ht⟩
  rw [diagnostics, hn, ← Stmt.bodyDiagnostics_mapNote_unplaced, ht,
    Outline.bodyDiagnostics_bodyTree]
  rfl

end Stylesheet

/-- Of lexical tokens up to an end, just those that the grammar derives are read, as the outline
that derives them, and a fault found in others is one of syntax. -/
theorem Stylesheet.ofTokens_derives {tokens : List Token} {ending : Token} (file : String)
    (hl : ∀ token ∈ tokens, token.Lexical) (he : ending.kind = .ending) :
    (∀ body : List Outline, Outline.SheetDerives body tokens ↔
      ∃ sheet, ofTokens (tokens ++ [ending]) file = .ok sheet
        ∧ Stmt.bodyOutline sheet.body = body)
    ∧ ∀ fault, ofTokens (tokens ++ [ending]) file = .error fault →
        fault.cause.category = .syntaxError := by
  refine ⟨fun body => ⟨ofTokens_complete file hl he, ?_⟩, fun fault hf => ?_⟩
  · rintro ⟨sheet, hsheet, rfl⟩
    rcases ofTokens_sound file hl he with ⟨sheet', h, hd⟩ | ⟨fault, h, -⟩
    · cases hsheet.symm.trans h
      exact hd
    · cases hsheet.symm.trans h
  · rcases ofTokens_sound file hl he with ⟨sheet, h, -⟩ | ⟨fault', h, hs⟩
    · cases hf.symm.trans h
    · cases hf.symm.trans h
      exact hs

/-- A rule for two selectors with a conditional whose `else` is empty. -/
theorem Stylesheet.ofTokens_derives_else :
    let token (kind : Kind) (text : String) : Token := ⟨kind, text, .nowhere⟩
    let tokens := [token .lowerName "p", token (.mark .comma) ",", token .idName "#a",
      token (.mark .openCurly) "\x7b", token (.word .ifWord) "if",
      token (.mark .openBracket) "[", token .capitalName "A", token (.mark .closeBracket) "]",
      token (.mark .openCurly) "\x7b", token .lowerName "width", token (.mark .colon) ":",
      token (.number .pixel) "1px", token (.operator .add) "+", token (.number .scalar) "02",
      token (.operator .multiply) "*", token .capitalName "B", token (.mark .semicolon) ";",
      token (.mark .closeCurly) "\x7d", token (.word .elseWord) "else",
      token (.mark .openCurly) "\x7b", token (.mark .closeCurly) "\x7d",
      token (.mark .closeCurly) "\x7d"]
    let value : Row := ⟨.literal (.number .pixel 1),
      [(.add, .literal (.number .scalar 2)), (.multiply, .name "B")]⟩
    (∀ t ∈ tokens, t.Lexical) ∧ ∃ sheet,
      ofTokens (tokens ++ [token .ending "EOF"]) "a.icss" = .ok sheet
        ∧ Stmt.bodyOutline sheet.body = [.rule [.byTag "p", .byId "a"]
            [.conditional ⟨.name "A", []⟩ [.declaration "width" value] (some [])]] := by
  intro token tokens value
  have hl : ∀ t ∈ tokens, t.Lexical := fun t ht => by
    have h : ∀ t ∈ tokens, ∃ shape ∈ Shape.all,
        Lexeme.first? t.text.toList = some ⟨shape, t.text.toList, []⟩
          ∧ shape.kind? t.text.toList = some t.kind := by decide +kernel
    exact Token.lexical_of_first? (h t ht)
  have k (kind : Kind) (text : String) : (token kind text).kind = kind := rfl
  have hone : (Operand.literal (.number .pixel 1)).Derives (token (.number .pixel) "1px") :=
    .number rfl (show "1px".toList = ['1'] ++ "px".toList by decide) (by decide)
  have htwo : (Operand.literal (.number .scalar 2)).Derives (token (.number .scalar) "02") :=
    .number rfl (show "02".toList = ['0', '2'] ++ "".toList by decide) (by decide)
  have hvalue := Row.Derives.mk hone (.cons (k (.operator .add) "+") htwo
    (.cons (k (.operator .multiply) "*") (.name (k .capitalName "B")) .nil))
  have hdeclaration := Outline.Derives.declaration (k .lowerName "width") (k (.mark .colon) ":")
    hvalue (k (.mark .semicolon) ";")
  have hblock := Outline.BlockDerives.mk (k (.mark .openCurly) "\x7b") (.cons hdeclaration .nil)
    (k (.mark .closeCurly) "\x7d")
  have helse := Outline.ElseDerives.some (k (.word .elseWord) "else")
    (.mk (k (.mark .openCurly) "\x7b") .nil (k (.mark .closeCurly) "\x7d"))
  have hconditional := Outline.Derives.conditional (k (.word .ifWord) "if")
    (k (.mark .openBracket) "[") (.mk (.name (k .capitalName "A")) .nil)
    (k (.mark .closeBracket) "]") hblock helse
  have hp : (Selector.byTag "p").Derives (token .lowerName "p") := ⟨rfl, rfl⟩
  have ha : (Selector.byId "a").Derives (token .idName "#a") := ⟨rfl, by decide⟩
  have hrule := Outline.Derives.rule (.cons hp (.cons (k (.mark .comma) ",") ha .nil))
    (.mk (k (.mark .openCurly) "\x7b") (.cons hconditional .nil) (k (.mark .closeCurly) "\x7d"))
  exact ⟨hl, ((ofTokens_derives "a.icss" hl rfl).1 _).1 (.cons hrule trivial .nil)⟩

end StyleLang
