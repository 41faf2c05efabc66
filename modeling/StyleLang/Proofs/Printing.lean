import StyleLang.Proofs.Layout
import StyleLang.Proofs.Legible
import StyleLang.Proofs.NormalForm

/-!
# What is written can be read

An evaluated tree without its assignments is what its text stands for: the text is scanned as
tokens of its outline (`Stmt.laid_bodyLines`), if all names and colors are legible and no value is
a negative number, for which there is no token. `Laid` says of a text what it is scanned as in front
of another.
-/

namespace StyleLang

/-! ## Texts that are scanned as wanted -/

/-- In front of `rest` the text is scanned as lexical tokens that are as wanted. -/
def Laid (text rest : List Char) (P : List Token → Prop) : Prop :=
  ∀ file offset, ∃ tokens, (∀ token ∈ tokens, token.Lexical) ∧ P tokens
    ∧ Token.scanFrom file offset (text ++ rest)
      = (Token.scanFrom file (offset + byteCount text) rest).map (tokens ++ ·)

namespace Laid

variable {text more rest : List Char} {P Q R : List Token → Prop}

theorem imp (h : Laid text rest P) (hpq : ∀ ts, P ts → Q ts) : Laid text rest Q := by
  intro file offset
  obtain ⟨tokens, hl, hp, hs⟩ := h file offset
  exact ⟨tokens, hl, hpq tokens hp, hs⟩

theorem append (h : Laid text (more ++ rest) P) (h' : Laid more rest Q)
    (hr : ∀ ts us, P ts → Q us → R (ts ++ us)) : Laid (text ++ more) rest R := by
  intro file offset
  obtain ⟨ts, hl, hp, hs⟩ := h file offset
  obtain ⟨us, hl', hq, hs'⟩ := h' file (offset + byteCount text)
  refine ⟨ts ++ us, List.forall_mem_append.2 ⟨hl, hl'⟩, hr ts us hp hq, ?_⟩
  rw [List.append_assoc, hs, hs', byteCount_append, Nat.add_assoc]
  cases Token.scanFrom file (offset + (byteCount text + byteCount more)) rest with
  | error fault => rfl
  | ok tokens => simp [Except.map]

theorem nil (h : P []) : Laid [] rest P := by
  intro file offset
  refine ⟨[], nofun, h, ?_⟩
  rw [map_nil_append]
  rfl

/-- Blanks in front of a text are passed. -/
theorem blanks {s : List Char} (hs : ∀ c ∈ s, isBlank c = true) (h : Laid text rest P) :
    Laid (s ++ text) rest P := by
  intro file offset
  obtain ⟨tokens, hl, hp, ht⟩ := h file (offset + byteCount s)
  refine ⟨tokens, hl, hp, ?_⟩
  rw [List.append_assoc, Token.scanFrom_blanks file hs, ht, byteCount_append, Nat.add_assoc]

theorem blank {c : Char} (hc : isBlank c = true) (h : Laid text rest P) :
    Laid (c :: text) rest P :=
  blanks (s := [c]) (by simpa using hc) h

/-- A text of a kind makes a token, if it ends before a character that cannot stand inside one. -/
theorem piece {kind : Kind} (hk : kind.Fits text) {c : Char} (hc : Shape.isInner c = false) :
    Laid text (c :: rest) fun ts =>
      ∃ token : Token, ts = [token] ∧ token.kind = kind ∧ token.text = String.ofList text := by
  intro file offset
  have hm : Munched text (c :: rest) := (Munched.of_fits hk).append_stop hc rest
  refine ⟨[.ofPiece file offset kind text], ?_, ⟨_, rfl, rfl, rfl⟩, ?_⟩
  · rw [List.forall_mem_singleton, Token.Lexical]
    show kind.Fits (String.ofList text).toList
    rwa [String.toList_ofList]
  · exact Token.scanFrom_munched hm hk file offset

/-- A mark in front of what is scanned as wanted. -/
theorem mark {m : Mark} {c : Char} (hm : m.text.toList = [c]) {d : Char}
    (hd : Shape.isInner d = false) (h : Laid (d :: more) rest Q)
    (hr : ∀ (token : Token) us, token.kind = .mark m → Q us → R (token :: us)) :
    Laid (c :: d :: more) rest R := by
  have hfits : (Kind.mark m).Fits [c] := hm.symm
  refine append (piece hfits hd) h ?_
  rintro _ us ⟨token, rfl, hk, -⟩ hq
  exact hr token us hk hq

end Laid

/-! ## Values and selectors -/

/-- Numbers below zero, which are written with a sign that no token has. -/
def Literal.IsNegative : Literal → Prop
  | number _ value => value.toInt < 0
  | color _ | boolean _ => False

theorem Literal.exists_kind {v : Literal} (hl : v.Legible) (hn : ¬ v.IsNegative) :
    ∃ kind : Kind, kind.Fits v.text.toList ∧ ∀ token : Token, token.kind = kind →
      token.text = v.text → (Operand.literal v).Derives token := by
  cases v with
  | number measure value =>
    obtain ⟨n, hv⟩ := Int.eq_ofNat_of_zero_le (Int.not_lt.1 hn)
    have htext : (number measure value).text.toList
        = Nat.toDigits 10 n ++ measure.suffix.toList := by
      rw [text, hv, String.toList_append]
      show (String.ofList (Nat.toDigits 10 n)).toList ++ _ = _
      rw [String.toList_ofList]
    refine ⟨.number measure, ⟨Nat.toDigits 10 n, Nat.toDigits_ne_nil, ?_, htext⟩, ?_⟩
    · exact fun c hc => Nat.isDigit_of_mem_toDigits (by decide) (by decide) hc
    · intro token hk ht
      refine .number hk (by rw [ht, htext]) ?_
      rw [hv, Nat.ofDigitChars_ten_toDigits]
  | color text =>
    refine ⟨.color, hl, fun token hk ht => ?_⟩
    have ht : token.text = text := ht
    exact ht ▸ .color hk
  | boolean value =>
    refine ⟨.word (.boolean value), ?_, fun token hk _ => .boolean hk⟩
    cases value <;> rfl

theorem Selector.toList_list_cons (selector next : Selector) (others : List Selector) :
    (Selector.list (selector :: next :: others)).toList
      = selector.text.toList ++ (',' :: ' ' :: (Selector.list (next :: others)).toList) := by
  simp [Selector.list, String.toList_intercalate, List.intercalate]

/-- Selectors in a row, before the blank in front of a block. -/
theorem Selector.laid_list {rest : List Char} : ∀ (others : List Selector) (first : Selector),
    (∀ s ∈ first :: others, s.Legible) →
    Laid (Selector.list (first :: others)).toList (' ' :: rest)
      (Selector.ListDerives (first :: others))
  | [], first, h => by
    have hone : (Selector.list [first]).toList = first.text.toList := by
      simp [Selector.list]
    rw [hone]
    refine (Laid.piece (h first List.mem_cons_self) (by decide)).imp ?_
    rintro _ ⟨token, rfl, hk, ht⟩
    exact .cons ⟨hk, by rw [ht, String.ofList_toList]⟩ .nil
  | next :: others, first, h => by
    rw [List.forall_mem_cons] at h
    rw [Selector.toList_list_cons]
    have hnext : Laid (Selector.list (next :: others)).toList (' ' :: rest) _ :=
      laid_list others next h.2
    have hcomma : Laid (',' :: ' ' :: (Selector.list (next :: others)).toList) (' ' :: rest)
        (Selector.OthersDerive (next :: others)) := by
      refine .mark (m := .comma) rfl (by decide) (.blank (by decide) hnext) ?_
      rintro comma _ hc ⟨hs, ho⟩
      exact .cons hc hs ho
    refine (Laid.piece h.1 (by decide)).append hcomma ?_
    rintro _ us ⟨token, rfl, hk, ht⟩ ho
    exact .cons ⟨hk, by rw [ht, String.ofList_toList]⟩ ho

/-! ## Statements -/

namespace Stmt

mutual

/-- The statement without the assignments in it. -/
def stripped : Stmt → List Stmt
  | rule note selectors body => [rule note selectors (bodyStripped body)]
  | declaration note property value => [declaration note property value]
  | assignment _ _ _ => []
  | conditional note condition body elseBody => [conditional note condition body elseBody]

def bodyStripped : List Stmt → List Stmt
  | [] => []
  | stmt :: stmts => stmt.stripped ++ bodyStripped stmts

end

mutual

/-- The literals that declarations set. -/
def declared : Stmt → List Literal
  | rule _ _ body => bodyDeclared body
  | declaration _ _ (.literal _ value) => [value]
  | declaration _ _ _ | assignment _ _ _ => []
  | conditional _ _ body none => bodyDeclared body
  | conditional _ _ body (some elseBody) => bodyDeclared body ++ bodyDeclared elseBody

def bodyDeclared : List Stmt → List Literal
  | [] => []
  | stmt :: stmts => stmt.declared ++ bodyDeclared stmts

end

/-- The characters of some lines, with a newline behind each. -/
def written (lines : List String) : List Char :=
  lines.flatMap fun line => line.toList ++ ['\n']

theorem isBlank_of_mem_indent (level : Nat) : ∀ c ∈ (indent level).toList, isBlank c = true := by
  intro c hc
  rw [indent, String.toList_ofList] at hc
  rw [List.eq_of_mem_replicate hc]
  decide

open Outline (BodyDerives)

theorem laid_declaration {note note' : Note} {property : String} {v : Literal} (level : Nat)
    (hp : Kind.lowerName.Fits property.toList) (hv : v.Legible) (hn : ¬ v.IsNegative)
    (rest : List Char) :
    Laid (written [indent level ++ property ++ ": " ++ v.text ++ ";"]) rest
      ((declaration note property (.literal note' v)).outline.Derives) := by
  obtain ⟨kind, hk, hd⟩ := Literal.exists_kind hv hn
  have hchars : written [indent level ++ property ++ ": " ++ v.text ++ ";"]
      = (indent level).toList
        ++ (property.toList ++ ':' :: ' ' :: (v.text.toList ++ [';', '\n'])) := by
    simp [written, String.toList_append]
  -- From the end to the front: how a piece is scanned depends on the character behind it.
  have hend : Laid [';', '\n'] rest fun ts =>
      ∃ semicolon : Token, ts = [semicolon] ∧ semicolon.kind = .mark .semicolon := by
    refine .mark (m := .semicolon) rfl (by decide)
      (.blank (by decide) (.nil (P := (· = [])) rfl)) ?_
    rintro semicolon _ hs rfl
    exact ⟨semicolon, rfl, hs⟩
  have hvalue : Laid (v.text.toList ++ [';', '\n']) rest fun ts => ∃ value semicolon : Token,
      ts = [value, semicolon] ∧ (Operand.literal v).Derives value
        ∧ semicolon.kind = .mark .semicolon := by
    refine (Laid.piece hk (by decide)).append hend ?_
    rintro _ _ ⟨value, rfl, hkind, htext⟩ ⟨semicolon, rfl, hs⟩
    exact ⟨value, semicolon, rfl, hd value hkind (by rw [htext, String.ofList_toList]), hs⟩
  have hcolon : Laid (':' :: ' ' :: (v.text.toList ++ [';', '\n'])) rest fun ts =>
      ∀ token : Token, token.kind = .lowerName → token.text = property →
        (Outline.declaration property ⟨.literal v, []⟩).Derives (token :: ts) := by
    refine .mark (m := .colon) rfl (by decide) (.blank (by decide) hvalue) ?_
    rintro colon _ hc ⟨value, semicolon, rfl, hvalue, hs⟩ token hkind rfl
    exact .declaration hkind hc (.mk hvalue .nil) hs
  rw [hchars]
  refine .blanks (isBlank_of_mem_indent level) ((Laid.piece hp (by decide)).append hcolon ?_)
  rintro _ us ⟨token, rfl, hkind, htext⟩ hus
  exact hus token hkind (by rw [htext, String.ofList_toList])

theorem laid_rule {note : Note} {selectors : List Selector} {body : List Stmt} (level : Nat)
    {lines : List String} {rest : List Char} (hne : selectors ≠ [])
    (hs : ∀ s ∈ selectors, s.Legible)
    (hb : ∀ rest, Laid (written lines) rest (BodyDerives (bodyOutline body))) :
    Laid (written ((indent level ++ Selector.list selectors ++ " \x7b") :: lines
        ++ [indent level ++ "\x7d"])) rest ((rule note selectors body).outline.Derives) := by
  have hchars : written ((indent level ++ Selector.list selectors ++ " \x7b") :: lines
        ++ [indent level ++ "\x7d"])
      = (indent level).toList ++ ((Selector.list selectors).toList ++ ' ' :: '\x7b' :: '\n'
        :: (written lines ++ ((indent level).toList ++ ['\x7d', '\n']))) := by
    simp [written, String.toList_append]
  have hend : Laid ((indent level).toList ++ ['\x7d', '\n']) rest fun ts =>
      ∃ closing : Token, ts = [closing] ∧ closing.kind = .mark .closeCurly := by
    refine .blanks (isBlank_of_mem_indent level)
      (.mark (m := .closeCurly) rfl (by decide) (.blank (by decide) (.nil (P := (· = [])) rfl)) ?_)
    rintro closing _ hc rfl
    exact ⟨closing, rfl, hc⟩
  have hbody : Laid (written lines ++ ((indent level).toList ++ ['\x7d', '\n'])) rest fun ts =>
      ∀ opening : Token, opening.kind = .mark .openCurly →
        Outline.BlockDerives (bodyOutline body) (opening :: ts) := by
    refine (hb _).append hend ?_
    rintro ts _ hts ⟨closing, rfl, hc⟩ opening ho
    exact .mk ho hts hc
  have hblock : Laid (' ' :: '\x7b' :: '\n' :: (written lines
      ++ ((indent level).toList ++ ['\x7d', '\n']))) rest
      (Outline.BlockDerives (bodyOutline body)) :=
    .blank (by decide) (.mark (m := .openCurly) rfl (by decide) (.blank (by decide) hbody)
      fun opening ts ho hts => hts opening ho)
  obtain ⟨first, others, rfl⟩ := List.exists_cons_of_ne_nil hne
  rw [hchars]
  exact .blanks (isBlank_of_mem_indent level) ((Selector.laid_list others first hs).append hblock
    fun ts us hts hus => .rule hts hus)

mutual

theorem laid_lines : ∀ (s : Stmt) {level : Nat} {lines : List String}, s.Reduced →
    s.outline.Legible → (∀ v ∈ s.declared, ¬ v.IsNegative) → s.lines level = .ok lines →
    ∀ rest, Laid (written lines) rest (BodyDerives (bodyOutline s.stripped))
  | rule note selectors body, level, _, hr, hl, hn, h, rest => by
    rw [lines, bind_eq_ok_iff] at h
    obtain ⟨lines, hb, ⟨⟩⟩ := h
    have ih := laid_bodyLines body hr hl.2.2 hn hb
    exact (laid_rule level hl.1 hl.2.1 ih).imp fun ts hts => .single hts
  | declaration note property value, level, _, hr, hl, hn, h, rest => by
    obtain ⟨span, v, rfl⟩ := hr
    cases h
    exact (laid_declaration level hl.1 hl.2.1 (hn v List.mem_cons_self) rest).imp
      fun ts hts => .single hts
  | assignment _ _ _, _, _, _, _, _, h, rest => by
    cases h
    exact .nil .nil
  | conditional _ _ _ _, _, _, hr, _, _, _, _ => hr.elim

/-- What is written of a body in normal form is scanned as what derives its outline. -/
theorem laid_bodyLines : ∀ (body : List Stmt) {level : Nat} {lines : List String},
    BodyReduced body → Outline.BodyLegible (bodyOutline body) →
    (∀ v ∈ bodyDeclared body, ¬ v.IsNegative) → bodyLines level body = .ok lines →
    ∀ rest, Laid (written lines) rest (BodyDerives (bodyOutline (bodyStripped body)))
  | [], _, _, _, _, _, h, rest => by
    cases h
    exact .nil .nil
  | stmt :: stmts, level, _, hr, hl, hn, h, rest => by
    rw [bodyDeclared, List.forall_mem_append] at hn
    rw [bodyLines, bind_eq_ok_iff] at h
    obtain ⟨first, hs, h⟩ := h
    obtain ⟨others, hb, ⟨⟩⟩ := bind_eq_ok_iff.1 h
    have hfirst := laid_lines stmt hr.1 hl.1 hn.1 hs (written others ++ rest)
    have hothers := laid_bodyLines stmts hr.2 hl.2 hn.2 hb rest
    rw [written, List.flatMap_append, bodyStripped, bodyOutline_append]
    exact hfirst.append hothers fun ts us hts hus => hts.append hus

end

end Stmt

end StyleLang
