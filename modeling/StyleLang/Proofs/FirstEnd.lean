import Mathlib.Data.List.TakeWhile
import StyleLang.Proofs.Lookahead
import StyleLang.Proofs.Reading

/-!
# Reading stops at the first end

Any list of tokens is read up to the first token that ends it, and what stands behind is not looked
at (`Stylesheet.ofTokens_congr`). A list without an end is given one. On the way a cursor shows the
token at its place in the list and knows where the one before it stops, and it never gets past the
first end (`Cursor.At`, `Cursor.at_forward`).

No loop stops because it has run out of rounds: with more of them allowed it does the same
(`Grammar.unhindered`).
-/

namespace StyleLang

namespace Token

/-- The tokens before the first end. -/
def beforeEnding (tokens : List Token) : List Token :=
  tokens.takeWhile (·.kind ≠ .ending)

/-- The tokens up to the first end, with that end. -/
def upToEnding (tokens : List Token) : List Token :=
  beforeEnding tokens ++ (tokens.find? (·.kind = .ending)).toList

/-- The tokens, with an end behind the last where that is none. -/
def closed (tokens : List Token) (file : String) : List Token :=
  if tokens.getLast?.map Token.kind = some .ending then tokens
  else tokens ++ [Cursor.defaultEnding tokens file]

variable {tokens tokens' : List Token} {file : String}

theorem beforeEnding_of_find? (h : tokens.find? (·.kind = .ending) = none) :
    beforeEnding tokens = tokens := by
  refine List.takeWhile_eq_self_iff.2 fun token ht => ?_
  simpa using List.find?_eq_none.1 h token ht

theorem append_of_find? {token : Token} (h : tokens.find? (·.kind = .ending) = some token) :
    ∃ rest, tokens = beforeEnding tokens ++ token :: rest := by
  obtain ⟨hk, before, rest, rfl, hb⟩ := List.find?_eq_some_iff_append.1 h
  refine ⟨rest, ?_⟩
  rw [beforeEnding, List.takeWhile_append_of_pos (by simpa using hb),
    List.takeWhile_cons_of_neg (by simpa using hk), List.append_nil]

end Token

namespace Cursor

open Token (beforeEnding upToEnding closed)

variable {tokens tokens' : List Token} {file : String} {c : Cursor}

theorem toCome_ofTokens (tokens : List Token) (file : String) : (ofTokens tokens file).toCome
    = beforeEnding tokens
      ++ [(tokens.find? (·.kind = .ending)).getD (defaultEnding tokens file)] := rfl

/-- Lists that are the same up to the first end are read from the same tokens. -/
theorem toCome_congr (h : upToEnding tokens' = upToEnding tokens) :
    (ofTokens tokens' file).toCome = (ofTokens tokens file).toCome := by
  have hend (tokens : List Token) {token : Token}
      (hf : tokens.find? (·.kind = .ending) = some token) : token.kind = .ending := by
    simpa using List.find?_some hf
  have hmem {tokens tokens' : List Token} {token : Token}
      (hf : tokens.find? (·.kind = .ending) = some token)
      (hn : tokens'.find? (·.kind = .ending) = none) : upToEnding tokens ≠ upToEnding tokens' := by
    intro h
    have ht : token ∈ upToEnding tokens := by simp [upToEnding, hf]
    rw [h, upToEnding, hn, Token.beforeEnding_of_find? hn] at ht
    exact List.find?_eq_none.1 hn token (by simpa using ht) (by simpa using hend tokens hf)
  rw [toCome_ofTokens, toCome_ofTokens]
  rcases hf : tokens.find? (·.kind = .ending) with _ | token <;>
    rcases hf' : tokens'.find? (·.kind = .ending) with _ | token'
  · -- Neither has an end, so they are the same.
    rw [upToEnding, upToEnding, hf, hf', Token.beforeEnding_of_find? hf,
      Token.beforeEnding_of_find? hf'] at h
    obtain rfl : tokens' = tokens := by simpa using h
    rfl
  · exact absurd h (hmem hf' hf)
  · exact absurd h.symm (hmem hf hf')
  · simpa [upToEnding, hf, hf'] using h

theorem toCome_append_defaultEnding (h : ∀ token ∈ tokens, token.kind ≠ .ending) :
    (ofTokens (tokens ++ [defaultEnding tokens file]) file).toCome
      = (ofTokens tokens file).toCome := by
  have hn : tokens.find? (·.kind = .ending) = none :=
    List.find?_eq_none.2 fun token ht => by simpa using h token ht
  have hk : (defaultEnding tokens file).kind = .ending := rfl
  rw [toCome_ofTokens, toCome_ofTokens, List.find?_append, hn, Token.beforeEnding_of_find? hn,
    beforeEnding, List.takeWhile_append_of_pos (by simpa using h)]
  simp [hk]

theorem toCome_prefix_closed (tokens : List Token) (file : String) :
    (ofTokens tokens file).toCome <+: closed tokens file := by
  rw [toCome_ofTokens]
  rcases hf : tokens.find? (·.kind = .ending) with _ | token
  · have hl : tokens.getLast?.map Token.kind ≠ some .ending := by
      intro h
      obtain ⟨token, ht, hk⟩ := Option.map_eq_some_iff.1 h
      exact List.find?_eq_none.1 hf token (List.mem_of_getLast? ht) (by simpa using hk)
    rw [closed, if_neg hl, Token.beforeEnding_of_find? hf, hf]
    exact List.prefix_refl _
  · obtain ⟨rest, ht⟩ := Token.append_of_find? hf
    have hp : beforeEnding tokens ++ [token] <+: tokens :=
      ⟨rest, (List.append_cons _ _ _).symm.trans ht.symm⟩
    rw [hf, Option.getD_some]
    unfold closed
    split
    · exact hp
    · exact hp.trans (List.prefix_append _ _)

/-! ## Places in a list -/

/-- The cursor stands at a place in the list, shows the token there, and gives the stop of the one
before. No token before that place is an end. -/
structure At (tokens : List Token) (c : Cursor) : Prop where
  current_eq : tokens[c.position]? = some c.current
  start : c.position = 0 → c.lastStop = ⟨0, c.file⟩
  lastStop_eq : ∀ n, c.position = n + 1 →
    ∃ token, tokens[n]? = some token ∧ c.lastStop = token.span.stop
  not_ending : ∀ token ∈ tokens.take c.position, token.kind ≠ .ending

theorem at_of_prefix (hp : c.passed.reverse ++ c.toCome <+: tokens)
    (hk : ∀ token ∈ c.passed, token.kind ≠ .ending) : c.At tokens := by
  obtain ⟨rest, rfl⟩ := hp
  have hpos : c.passed.reverse.length = c.position := List.length_reverse
  refine ⟨?_, ?_, ?_, ?_⟩
  · rw [List.append_assoc, List.getElem?_append_right (by omega), hpos, Nat.sub_self]
    have hh := c.head?_toCome
    cases ht : c.toCome with
    | nil => rw [ht] at hh; cases hh
    | cons token ts => rw [ht] at hh; simpa using hh
  · intro h
    rw [lastStop, List.length_eq_zero_iff.1 h]
  · intro n hn
    rcases hpassed : c.passed with _ | ⟨token, before⟩
    · rw [position, hpassed] at hn
      cases hn
    · rw [position, hpassed, List.length_cons] at hn
      refine ⟨token, ?_, by rw [lastStop, hpassed]⟩
      obtain rfl : before.length = n := Nat.succ.inj hn
      simp
  · intro token ht
    rw [List.append_assoc, List.take_left' hpos] at ht
    exact hk token (List.mem_reverse.1 ht)

/-- From the start of a list to the first end, cursors stand in the list. -/
theorem at_forward (tokens : List Token) (file : String) {n : Nat}
    (hn : n ≤ (ofTokens tokens file).left) :
    ((ofTokens tokens file).forward n).position = n
      ∧ ((ofTokens tokens file).forward n).At (closed tokens file) := by
  generalize hc : ofTokens tokens file = c at hn
  have hp : c.passed = [] := by rw [← hc]; rfl
  have hpassed : (c.forward n).passed = (c.ahead.take n).reverse := by
    rw [passed_forward, hp, List.append_nil]
  constructor
  · rw [position, hpassed, List.length_reverse, List.length_take, ← c.left_eq]
    exact Nat.min_eq_left hn
  · refine at_of_prefix ?_ fun token ht => ?_
    · rw [hpassed, List.reverse_reverse, toCome_forward hn, ← take_toCome hn,
        List.take_append_drop, ← hc]
      exact toCome_prefix_closed tokens file
    · rw [hpassed, List.mem_reverse] at ht
      exact c.ahead_kind token (List.mem_of_mem_take ht)

end Cursor

namespace Grammar

/-- No loop that is entered at the cursor runs out of rounds: with more of them it does the same. -/
structure Unhindered (grammar : Grammar) (c : Cursor) : Prop where
  selectors : ∀ bound, c.left < bound →
    (Parse.moreSelectors bound).run c = (Parse.moreSelectors (c.left + 1)).run c
  operators : ∀ bound power left, c.left < bound →
    (grammar.operators bound power left).run c = (grammar.operators (c.left + 1) power left).run c
  stmts : ∀ bound, c.left < bound →
    (grammar.stmts bound).run c = (grammar.stmts (c.left + 1)).run c
  outerStmts : ∀ bound, c.left < bound →
    (grammar.outerStmts bound).run c = (grammar.outerStmts (c.left + 1)).run c

theorem unhindered {grammar : Grammar} (hg : grammar.LowerIsName) (c : Cursor) :
    grammar.Unhindered c := by
  have hc := Nat.lt_succ_self c.left
  refine ⟨fun bound h => ?_, fun bound power left h => ?_, fun bound h => ?_, fun bound h => ?_⟩
  · exact (Parse.alike_moreSelectors _ _).run_eq hc h
  · exact (grammar.alike_operators power left _ _).run_eq hc h
  · exact (alike_stmts hg _ _).run_eq hc h
  · exact (alike_outerStmts hg _ _).run_eq hc h

end Grammar

/-! ## Reading lists of tokens -/

namespace Stylesheet

open Grammar (standard)
open Token (beforeEnding upToEnding closed)

variable {tokens tokens' : List Token} {file : String}

theorem ofTokens_of_run {result : Except Diagnostic Stylesheet} {c : Cursor}
    (h : standard.stylesheet.run (.ofTokens tokens file) = Parse.stop result c) :
    ofTokens tokens file = result := by
  rw [ofTokens, h]
  cases result <;> rfl

/-- Only the tokens that are to come are looked at. -/
theorem ofTokens_congr
    (h : (Cursor.ofTokens tokens' file).toCome = (Cursor.ofTokens tokens file).toCome) :
    ofTokens tokens' file = ofTokens tokens file := by
  obtain ⟨n, -, result, hr, hd⟩ := standard.exists_run_stylesheet Grammar.lowerIsName_standard
    (.ofTokens tokens file)
  have hd := hd (.ofTokens tokens' file) ⟨rfl, rfl, by rw [h]⟩
  exact (ofTokens_of_run hd).trans (ofTokens_of_run hr).symm

/-- A stylesheet is made of all tokens before the first end. -/
theorem spells_of_run {sheet : Stylesheet} {c : Cursor}
    (h : standard.stylesheet.run (.ofTokens tokens file) = .ok sheet c) :
    c.ahead = [] ∧ c.passed = (beforeEnding tokens).reverse
      ∧ Stmt.BodySpells sheet.body (beforeEnding tokens)
      ∧ sheet.note.span = ⟨⟨0, file⟩, c.lastStop⟩ := by
  have ha : (Cursor.ofTokens tokens file).ahead = beforeEnding tokens := rfl
  have hp : (Cursor.ofTokens tokens file).passed = [] := rfl
  have hfile : (Cursor.ofTokens tokens file).file = file := rfl
  generalize Cursor.ofTokens tokens file = start at h ha hp hfile
  have hs := Grammar.sound_outerStmts standard (start.left + 1) start
  rw [Grammar.run_stylesheet] at h
  cases hr : (standard.outerStmts (start.left + 1)).run start with
  | error fault c' =>
    rw [hr] at h
    cases h
  | ok body c' =>
    rw [hr] at hs h
    cases h
    obtain ⟨ts, hts, hpassed, hspells, -⟩ := hs
    have hleft := start.left_eq
    have hnil := Grammar.ahead_eq_nil_of_outerStmts _ _ (by omega) hr
    rw [hnil, List.append_nil, ha] at hts
    rw [hp, List.append_nil, ← hts] at hpassed
    exact ⟨hnil, hpassed, hts ▸ hspells, by rw [← hfile]; rfl⟩

/-- Any tokens are read to an end. Every cursor on the way stands in the list, and only the tokens
up to the first end count. A stylesheet takes all tokens before that end and closes with them. -/
theorem ofTokens_upToEnding (tokens : List Token) (file : String) :
    (∀ c, standard.Unhindered c)
      ∧ (∃ n result, standard.stylesheet.run (.ofTokens tokens file)
            = Parse.stop result ((Cursor.ofTokens tokens file).forward n)
          ∧ ofTokens tokens file = result
          ∧ ∀ m ≤ n, ((Cursor.ofTokens tokens file).forward m).position = m
            ∧ ((Cursor.ofTokens tokens file).forward m).At (closed tokens file))
      ∧ (∀ tokens', upToEnding tokens' = upToEnding tokens →
          ofTokens tokens' file = ofTokens tokens file)
      ∧ ((∀ token ∈ tokens, token.kind ≠ .ending) →
          ofTokens (tokens ++ [Cursor.defaultEnding tokens file]) file = ofTokens tokens file)
      ∧ ∀ sheet, ofTokens tokens file = .ok sheet →
          (∃ c, standard.stylesheet.run (.ofTokens tokens file) = .ok sheet c
            ∧ c.passed = (beforeEnding tokens).reverse)
          ∧ Stmt.BodySpells sheet.body (beforeEnding tokens)
          ∧ sheet.note.span = ⟨⟨0, file⟩,
              ((beforeEnding tokens).getLast?.map (·.span.stop)).getD ⟨0, file⟩⟩ := by
  obtain ⟨n, hn, result, hr, -⟩ := standard.exists_run_stylesheet Grammar.lowerIsName_standard
    (.ofTokens tokens file)
  refine ⟨Grammar.unhindered Grammar.lowerIsName_standard, ⟨n, result, hr, ofTokens_of_run hr,
    fun m hm => Cursor.at_forward tokens file (Nat.le_trans hm hn)⟩,
    fun tokens' h => ofTokens_congr (Cursor.toCome_congr h),
    fun h => ofTokens_congr (Cursor.toCome_append_defaultEnding h), fun sheet hsheet => ?_⟩
  obtain rfl : result = .ok sheet := (ofTokens_of_run hr).symm.trans hsheet
  obtain ⟨-, hpassed, hspells, hspan⟩ := spells_of_run hr
  refine ⟨⟨_, hr, hpassed⟩, hspells, ?_⟩
  rw [hspan, Cursor.lastStop, hpassed, List.getLast?_eq_head?_reverse, Cursor.file_forward]
  cases (beforeEnding tokens).reverse <;> rfl

/-- Behind the end of `A := #ffffff;` a bracket is not looked at, and without an end the same is
read. -/
theorem ofTokens_upToEnding_bracket :
    let token (kind : Kind) (text : String) (start : Nat) : Token :=
      .ofPiece "a.icss" start kind text.toList
    let tokens := [token .capitalName "A" 0, token (.mark .assign) ":=" 2, token .color "#ffffff" 5,
      token (.mark .semicolon) ";" 12]
    let ending := Token.ending ⟨13, "a.icss"⟩
    let more := tokens ++ [ending, token (.mark .closeCurly) "\x7d" 13, ending]
    ofTokens more "a.icss" = ofTokens tokens "a.icss"
      ∧ ∃ sheet, ofTokens more "a.icss" = .ok sheet
        ∧ sheet.note.span = ⟨⟨0, "a.icss"⟩, ⟨13, "a.icss"⟩⟩ := by
  intro token tokens ending more
  obtain ⟨-, -, -, hclosed, -⟩ := ofTokens_upToEnding tokens "a.icss"
  obtain ⟨-, -, hsame, -, hspan⟩ := ofTokens_upToEnding more "a.icss"
  have hends : ∀ token ∈ tokens, token.kind ≠ .ending := by decide
  have hup : upToEnding (tokens ++ [Cursor.defaultEnding tokens "a.icss"]) = upToEnding more := by
    decide
  obtain ⟨sheet, hs⟩ : ∃ sheet, ofTokens more "a.icss" = .ok sheet := ⟨_, rfl⟩
  exact ⟨(hsame _ hup).symm.trans (hclosed hends), sheet, hs, (hspan sheet hs).2.2⟩

end Stylesheet

end StyleLang
