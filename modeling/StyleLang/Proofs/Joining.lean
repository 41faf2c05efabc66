import StyleLang.Proofs.Layout
import StyleLang.Proofs.Source
import StyleLang.Proofs.Weakening

/-!
# One source after another

Two sources with a newline between them are scanned as the tokens of the first and, further on,
those of the second (`Token.scan_append_newline`), read as the statements of both
(`Stylesheet.ofSource_append_newline`), and written as both outputs, if each has one by itself
(`compile_append_newline`): the names that the first leaves in scope do not matter to the second,
in which every name was found without them.
-/

namespace StyleLang

/-! ## Scanning -/

theorem isBlank_newline : isBlank '\n' = true := by decide

namespace Token

/-- A newline behind a text that is cut up to its end leaves the pieces as they are. -/
theorem scanFrom_append_newline {file : String} {before text seen rest : List Char}
    {tokens : List Token} (h : Tiled file before text tokens seen rest) (hr : rest = [])
    (more : List Char) :
    scanFrom file (byteCount before) (text ++ '\n' :: more)
      = (scanFrom file (byteCount seen + 1) more).map (tokens ++ ·) := by
  induction h with
  | @stop before rest =>
    subst hr
    rw [List.nil_append, scanFrom_blank_cons isBlank_newline, map_nil_append]
    rfl
  | @skip before piece text _ _ _ hs _ ih =>
    rw [← ih hr, byteCount_append, List.append_assoc]
    cases hs with
    | blank _ hb _ => exact scanFrom_blanks file hb _ _
    | line hn hhead =>
      -- A comment up to the end of the first source is ended by the newline.
      refine scanFrom_skipped (.line hn fun c hc => ?_) file _
      cases text with
      | nil => exact (Option.some.inj hc).symm
      | cons d text => exact hhead c hc
    | block hn => exact scanFrom_skipped (.block hn) file _
  | @token before piece text _ _ _ kind hm hk _ ih =>
    have hstop : Munched piece (text ++ '\n' :: more) := hm.append_stop (by decide) more
    rw [List.append_assoc, scanFrom_munched hstop hk, ← byteCount_append, ih hr]
    cases scanFrom file _ more <;> rfl

theorem moves_shift (size : Nat) : Moves (shift size) := ⟨fun _ => rfl, fun _ => rfl⟩

/-- The tokens of two sources, those of the second further on. -/
theorem scan_append_newline {file a b : String} {as bs : List Token} {ending ending' : Token}
    (ha : scan a file = .ok (as ++ [ending])) (hb : scan b file = .ok (bs ++ [ending'])) :
    ∃ size, scan (a ++ "\n" ++ b) file
      = .ok (as ++ bs.map (shift size) ++ [ending'.shift size]) := by
  obtain ⟨tokens, seen, rest, ht, ⟨hr, hs⟩ | ⟨c, cs, -, -, hs⟩⟩ :=
    scanFrom_tiled file [] a.toList <;> have he := ha.symm.trans hs
  · obtain ⟨rfl, -⟩ := List.append_inj' (Except.ok.inj he) rfl
    have hmore := scanFrom_append_newline ht hr b.toList
    have hshift := scanFrom_add file (byteCount seen + 1) b.toList 0 hb
    rw [Nat.zero_add] at hshift
    refine ⟨byteCount seen + 1, ?_⟩
    rw [scan, String.toList_append, String.toList_append, List.append_assoc]
    refine Eq.trans hmore ?_
    rw [hshift]
    simp [Except.map]
  · cases he

end Token

/-! ## Reading -/

theorem Stylesheet.ofSource_append_newline {file a b : String} {sheet sheet' : Stylesheet}
    (ha : ofSource a file = .ok sheet) (hb : ofSource b file = .ok sheet') :
    ∃ both, ofSource (a ++ "\n" ++ b) file = .ok both
      ∧ Stmt.bodyMapNote Note.blank both.body
        = Stmt.bodyMapNote Note.blank (sheet.body ++ sheet'.body) := by
  obtain ⟨as, ending, hsa, hla, hea, hta⟩ := ofSource_eq_ok ha
  obtain ⟨bs, ending', hsb, hlb, heb, htb⟩ := ofSource_eq_ok hb
  obtain ⟨hda, -, hua⟩ := tree_of_ofTokens file hla hea hta
  obtain ⟨hdb, -, hub⟩ := tree_of_ofTokens file hlb heb htb
  obtain ⟨size, hs⟩ := Token.scan_append_newline hsa hsb
  have hl : ∀ token ∈ as ++ bs.map (Token.shift size), token.Lexical := by
    intro token hm
    rcases List.mem_append.1 hm with hm | hm
    · exact hla token hm
    · obtain ⟨token', hm', rfl⟩ := List.mem_map.1 hm
      exact hlb token' hm'
  obtain ⟨both, hboth, ho⟩ := ofSource_of_derives hs hl heb
    (hda.append (hdb.map (Token.moves_shift size)))
  refine ⟨both, hboth, ?_⟩
  have hu := (tree_of_ofSource hboth).2
  rw [Stmt.bodyMapNote_blank_of_tree hu, ho, Outline.bodyTree_append, Stmt.bodyMapNote_append,
    Stmt.bodyMapNote_append, Stmt.bodyMapNote_blank_of_tree hua,
    Stmt.bodyMapNote_blank_of_tree hub]

/-! ## Checking, evaluating and writing -/

namespace Stylesheet

/-- Of two bodies without faults the second has none behind the first. -/
theorem faults_append {properties : PropertyTable} {note : Note} {a b : Stylesheet}
    (ha : (a.check properties).2 = 0) (hb : (b.check properties).2 = 0) :
    ((Stylesheet.mk note (a.body ++ b.body)).check properties).2 = 0 := by
  rw [faults_check] at ha hb ⊢
  obtain ⟨frame, hs⟩ := Stmt.scopes_checkBody properties a.body .empty .empty
  have hw : (Scopes.empty.push).Within
      (Stmt.checkBody properties (Scopes.push .empty) a.body).scopes := by
    rw [Scopes.push_eq_extend, hs]
    exact .of_empty _ (Nat.succ_ne_zero _)
  rw [Stmt.checkBody_append]
  have hf := (Stmt.faults_checkBody_of_within properties b.body hw hb).1
  simp only [ha, hf]

/-- Two bodies one after the other are written one after the other. -/
theorem emit_append {note : Note} {a b : Stylesheet} {css css' : String}
    (ha : a.emit = .ok css) (hb : b.emit = .ok css') :
    (Stylesheet.mk note (a.body ++ b.body)).emit = .ok (css ++ css') := by
  obtain ⟨out, frame, lines, hoa, hla, rfl⟩ := emit_eq_ok_iff.1 ha
  obtain ⟨out', frame', lines', hob, hlb, rfl⟩ := emit_eq_ok_iff.1 hb
  have hw : (Scopes.empty.extend .empty).Within (Scopes.empty.extend frame) :=
    .of_empty _ (Nat.succ_ne_zero _)
  obtain ⟨wide, hob', -⟩ := Stmt.blockOutcome_of_within b.body hw hob
  refine emit_eq_ok_iff.2 ⟨out ++ out', wide, lines ++ lines', ?_, ?_, ?_⟩
  · rw [Stmt.blockOutcome_append]
    exact bind_eq_ok_iff.2 ⟨_, hoa, bind_eq_ok_iff.2 ⟨_, hob', rfl⟩⟩
  · rw [Stmt.bodyLines_append, hla, hlb]
    rfl
  · rw [List.map_append, String.join_append]

end Stylesheet

/-- Two sources that have an output each have the one output behind the other, if they are put
together with a newline between them. -/
theorem compile_append_newline {options : Options} {file a b css css' : String}
    (ha : compile options a file = .ok css) (hb : compile options b file = .ok css') :
    compile options (a ++ "\n" ++ b) file = .ok (css ++ css') := by
  rw [compile_eq_ok_iff] at ha hb ⊢
  obtain ⟨sheet, hsa, hfa, hea⟩ := ha
  obtain ⟨sheet', hsb, hfb, heb⟩ := hb
  obtain ⟨both, hboth, hblank⟩ := Stylesheet.ofSource_append_newline hsa hsb
  let joined : Stylesheet := ⟨both.note, sheet.body ++ sheet'.body⟩
  have hblank : Stmt.bodyMapNote Note.blank both.body
      = Stmt.bodyMapNote Note.blank joined.body := hblank
  refine ⟨both, hboth, ?_, ?_⟩
  · rw [Stylesheet.faults_congr hblank]
    rcases hfa with hfa | he
    · exact hfb.imp_left fun hfb => Stylesheet.faults_append hfa hfb
    · exact .inr he
  · rw [← mapError_eq_ok_iff (g := Diagnostic.cause), Stylesheet.emit_congr hblank,
      mapError_eq_ok_iff]
    exact Stylesheet.emit_append hea heb

/-- A source that ends in a comment and assigns a name that the next one assigns again. -/
theorem compile_append_newline_comment :
    let a := "Size := TRUE; Unit := 2; p \x7b if [Size] \x7b width: Unit * 3px; \x7d \x7d // end"
    let b := "q \x7b Size := 10%; height: Size + 5%; \x7d"
    let options : Options := ⟨.standard, false⟩
    compile options a "a.icss" = .ok "p \x7b\n  width: 6px;\n\x7d\n"
      ∧ compile options b "a.icss" = .ok "q \x7b\n  height: 15%;\n\x7d\n"
      ∧ compile options (a ++ "\n" ++ b) "a.icss"
        = .ok ("p \x7b\n  width: 6px;\n\x7d\n" ++ "q \x7b\n  height: 15%;\n\x7d\n") := by
  intro a b options
  have ha : compile options a "a.icss" = .ok "p \x7b\n  width: 6px;\n\x7d\n" := by
    decide +kernel
  have hb : compile options b "a.icss" = .ok "q \x7b\n  height: 15%;\n\x7d\n" := by
    decide +kernel
  exact ⟨ha, hb, compile_append_newline ha hb⟩

end StyleLang
