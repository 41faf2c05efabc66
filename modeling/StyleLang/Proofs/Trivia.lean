import StyleLang.Proofs.Layout
import StyleLang.Proofs.Lexemes

/-!
# Blanks and comments between tokens

A source can be laid out from lexemes, each a text of its kind, with blanks and comments between
them. What stands there does not matter as long as something does (`Token.scan_layout`): scanning
passes it as a whole (`Token.scanFrom_trivia`), and no lexeme goes on beyond the first character of
it (`Munched.of_gap`). The other way round each source that is scanned is made of lexemes.
-/

namespace StyleLang

/-- Blanks, comments with the end of their line, and comments up to the first `*/`. -/
inductive Trivia : List Char → Prop
  | nil : Trivia []
  | blank {c : Char} {rest : List Char} : isBlank c → Trivia rest → Trivia (c :: rest)
  | line {body rest : List Char} : '\n' ∉ body → Trivia rest →
      Trivia ('/' :: '/' :: (body ++ '\n' :: rest))
  | block {body rest : List Char} : ¬ ['*', '/'] <:+: body → Trivia rest →
      Trivia ('/' :: '*' :: (body ++ '*' :: '/' :: rest))

theorem Shape.isInner_of_isBlank {c : Char} (h : isBlank c) : isInner c = false := by
  rw [Bool.eq_false_iff]
  intro hi
  simp only [isInner, Bool.or_eq_true, decide_eq_true_eq] at hi
  rcases hi with (((hi | rfl) | rfl) | rfl) | rfl
  · delta Char.isAlphanum Char.isAlpha Char.isUpper Char.isLower at hi
    simp [Char.isDigit, UInt32.le_iff_toNat_le] at hi
    simp [isBlank, blankRanges] at h
    omega
  all_goals exact absurd h (by decide)

/-- A star behind the body of a comment does not close it before its end. -/
theorem not_infix_append_star {body : List Char} (h : ¬ ['*', '/'] <:+: body) :
    ¬ ['*', '/'] <:+: body ++ ['*'] := by
  rintro ⟨before, behind, he⟩
  -- With nothing behind it the infix would end with a slash, and the text ends with a star.
  rcases List.eq_nil_or_concat behind with rfl | ⟨behind, c, rfl⟩
  · rw [List.append_nil] at he
    have hlast := congrArg List.getLast? he
    simp at hlast
  · rw [List.concat_eq_append, ← List.append_assoc] at he
    exact h ⟨before, behind, (List.append_inj' he rfl).1⟩

theorem Trivia.exists_cons {s : List Char} (h : Trivia s) (hne : s ≠ []) :
    ∃ c after, s = c :: after ∧ Shape.isInner c = false := by
  cases h with
  | nil => exact absurd rfl hne
  | blank hc _ => exact ⟨_, _, rfl, Shape.isInner_of_isBlank hc⟩
  | line _ _ | block _ _ => exact ⟨_, _, rfl, by decide⟩

/-- A text of a kind ends where something stands behind it that makes no token, or nothing. -/
theorem Munched.of_gap {kind : Kind} {piece gap rest : List Char} (h : kind.Fits piece)
    (hg : Trivia gap) (hend : gap ≠ [] ∨ rest = []) : Munched piece (gap ++ rest) := by
  by_cases hne : gap = []
  · obtain rfl := hend.resolve_left (absurd hne)
    rw [hne]
    exact .of_fits h
  · obtain ⟨c, after, rfl, hc⟩ := hg.exists_cons hne
    exact (Munched.of_fits h).append_stop hc (after ++ rest)

namespace Token

theorem scanFrom_trivia (file : String) {s : List Char} (h : Trivia s) (offset : Nat)
    (cs : List Char) :
    scanFrom file offset (s ++ cs) = scanFrom file (offset + byteCount s) cs := by
  induction h generalizing offset with
  | nil => rfl
  | blank hc _ ih =>
    rw [List.cons_append, scanFrom_blank_cons hc, ih, byteCount_cons, Nat.add_assoc]
  | @line body rest hn _ ih =>
    have hs : Skipped ('/' :: '/' :: body) ('\n' :: (rest ++ cs)) :=
      .line hn fun c hc => (Option.some.inj hc).symm
    have happ : '/' :: '/' :: (body ++ '\n' :: rest) ++ cs
        = '/' :: '/' :: body ++ '\n' :: (rest ++ cs) := by simp
    have hcount : byteCount ('/' :: '/' :: (body ++ '\n' :: rest))
        = byteCount ('/' :: '/' :: body) + ('\n'.utf8Size + byteCount rest) := by
      rw [← byteCount_cons, ← byteCount_append]
      rfl
    rw [happ, scanFrom_skipped hs, scanFrom_blank_cons (by decide), ih, hcount, Nat.add_assoc,
      Nat.add_assoc]
  | @block body rest hn _ ih =>
    have hs : Skipped ('/' :: '*' :: (body ++ ['*', '/'])) (rest ++ cs) :=
      .block (not_infix_append_star hn)
    have happ : '/' :: '*' :: (body ++ '*' :: '/' :: rest)
        = '/' :: '*' :: (body ++ ['*', '/']) ++ rest := by simp
    rw [happ, List.append_assoc, scanFrom_skipped hs, ih, byteCount_append, Nat.add_assoc]

end Token

/-! ## Sources laid out from lexemes -/

/-- A text with its kind, and what stands behind it. -/
structure Item where
  kind : Kind
  text : String
  gap : String

namespace Item

def lexeme (item : Item) : Kind × String :=
  (item.kind, item.text)

def source (items : List Item) : String :=
  String.join (items.map fun item => item.text ++ item.gap)

/-- The text is one of its kind, and what stands behind it makes no token. -/
structure Fair (item : Item) : Prop where
  fits : item.kind.Fits item.text.toList
  trivia : Trivia item.gap.toList

@[simp] theorem toList_source_nil : (source []).toList = [] := rfl

theorem toList_source_cons (item : Item) (items : List Item) :
    (source (item :: items)).toList
      = item.text.toList ++ (item.gap.toList ++ (source items).toList) := by
  simp [source, String.toList_join]

end Item

namespace Token

/-- What is scanned, without places. -/
def lexemesFrom (file : String) (offset : Nat) (cs : List Char) :
    Except Diagnostic (List (Kind × String)) :=
  (scanFrom file offset cs).map (List.map lexeme)

theorem lexemesFrom_item {item : Item} (h : item.Fair) {rest : List Char}
    (hend : item.gap ≠ "" ∨ rest = []) (file : String) (offset : Nat) :
    lexemesFrom file offset (item.text.toList ++ (item.gap.toList ++ rest))
      = (lexemesFrom file (offset + byteCount item.text.toList + byteCount item.gap.toList)
        rest).map (item.lexeme :: ·) := by
  have hm : Munched item.text.toList (item.gap.toList ++ rest) := by
    refine .of_gap h.fits h.trivia (hend.imp_left fun hne => ?_)
    rwa [Ne, String.toList_eq_nil_iff]
  rw [lexemesFrom, lexemesFrom, scanFrom_munched hm h.fits, scanFrom_trivia file h.trivia]
  cases scanFrom file (offset + byteCount item.text.toList + byteCount item.gap.toList) rest with
  | error fault => rfl
  | ok tokens => simp [Except.map, lexeme, ofPiece, Item.lexeme]

theorem lexemesFrom_source : ∀ {items : List Item}, (∀ item ∈ items, item.Fair) →
    (∀ item ∈ items.dropLast, item.gap ≠ "") → ∀ (file : String) (offset : Nat),
      lexemesFrom file offset (Item.source items).toList
        = .ok (items.map Item.lexeme ++ [(.ending, "EOF")])
  | [], _, _, file, offset => by
    rw [lexemesFrom, Item.toList_source_nil, scanFrom_nil]
    rfl
  | [item], hf, _, file, offset => by
    rw [Item.toList_source_cons, lexemesFrom_item (hf _ List.mem_cons_self)
      (.inr Item.toList_source_nil),
      lexemesFrom_source (List.forall_mem_nil _) (List.forall_mem_nil _)]
    rfl
  | item :: next :: items, hf, hg, file, offset => by
    rw [List.forall_mem_cons] at hf
    rw [List.dropLast_cons_cons, List.forall_mem_cons] at hg
    rw [Item.toList_source_cons, lexemesFrom_item hf.1 (.inl hg.1), lexemesFrom_source hf.2 hg.2]
    rfl

/-- Scanning a source gives back the lexemes it is laid out from, whatever blanks and comments
stand before, between and behind them; and each token of any source is a lexeme, but for the end. -/
theorem scan_layout :
    (∀ (lead : String) (items : List Item) (file : String), Trivia lead.toList →
      (∀ item ∈ items, item.Fair) → (∀ item ∈ items.dropLast, item.gap ≠ "") →
      (scan (lead ++ Item.source items) file).map (List.map lexeme)
        = .ok (items.map Item.lexeme ++ [(.ending, "EOF")]))
    ∧ ∀ (source file : String) (tokens : List Token), scan source file = .ok tokens →
      ∃ lexed ending, tokens = lexed ++ [ending] ∧ ending.kind = .ending
        ∧ ∀ token ∈ lexed, token.kind.Fits token.text.toList := by
  constructor
  · intro lead items file hlead hf hg
    rw [scan, String.toList_append, scanFrom_trivia file hlead]
    exact lexemesFrom_source hf hg file _
  · intro source file tokens h
    obtain ⟨lexed, ending, rfl, hl, he⟩ := lexical_of_scan h
    exact ⟨lexed, ending, rfl, he, hl⟩

/-- A comment with a brace and a longer character in it, and one whose body ends with a star. -/
theorem scan_layout_comments :
    let lead := "\t/* if */"
    let items : List Item := [⟨.lowerName, "p", "// \x7d \u00e9\n"⟩,
      ⟨.mark .openCurly, "\x7b", "/***/ "⟩, ⟨.mark .closeCurly, "\x7d", ""⟩]
    Trivia lead.toList ∧ (∀ item ∈ items, item.Fair) ∧ (∀ item ∈ items.dropLast, item.gap ≠ "")
      ∧ ∃ tokens, scan (lead ++ Item.source items) "a.icss" = .ok tokens
        ∧ tokens.map lexeme = [(.lowerName, "p"), (.mark .openCurly, "\x7b"),
          (.mark .closeCurly, "\x7d"), (.ending, "EOF")]
        ∧ ∃ lexed ending, tokens = lexed ++ [ending] ∧ ending.kind = .ending
          ∧ ∀ token ∈ lexed, token.kind.Fits token.text.toList := by
  intro lead items
  have hlead : Trivia "\t/* if */".toList :=
    @Trivia.blank '\t' _ (by decide) (@Trivia.block [' ', 'i', 'f', ' '] [] (by decide) .nil)
  have hname : Kind.lowerName.Fits "p".toList := by
    have hm : Shape.lower.Matches "p".toList := ⟨'p', [], by decide, nofun, rfl⟩
    exact Shape.fits_of_kind? hm (by decide)
  have hgap : Trivia "// \x7d \u00e9\n".toList :=
    @Trivia.line [' ', '\x7d', ' ', '\u00e9'] [] (by decide) .nil
  have hgap' : Trivia "/***/ ".toList :=
    @Trivia.block ['*'] [' '] (by decide) (.blank (by decide) .nil)
  have hfair : ∀ item ∈ items, item.Fair :=
    List.forall_mem_cons.2 ⟨⟨hname, hgap⟩,
      List.forall_mem_cons.2 ⟨⟨rfl, hgap'⟩, List.forall_mem_singleton.2 ⟨rfl, .nil⟩⟩⟩
  have hgaps : ∀ item ∈ items.dropLast, item.gap ≠ "" := by decide
  obtain ⟨tokens, hs, hl⟩ := map_eq_ok_iff.1 (scan_layout.1 lead items "a.icss" hlead hfair hgaps)
  exact ⟨hlead, hfair, hgaps, tokens, hs, hl, scan_layout.2 _ _ tokens hs⟩

end Token

end StyleLang
