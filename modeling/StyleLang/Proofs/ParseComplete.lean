import StyleLang.Proofs.Precedence

/-!
# What the grammar derives is read

A parse is complete for some tokens before others if it passes just the first ones and gives the
result that is wanted (`Parse.Complete`). What stands behind counts where a parse goes on as long
as it can, and so do the bounds, which must exceed the number of tokens.

What an expression is read as is known from its tokens (`Grammar.operators_lowest`). The main lemma
is `Grammar.complete_outerStmts`: the statements of a derivation of some tokens are read off these
tokens.
-/

namespace StyleLang

namespace Cursor

variable {cursor : Cursor} {token : Token} {ts : List Token}

theorem peek_one (h : cursor.ahead = token :: ts) : cursor.peek 1 = headKind ts := by
  unfold peek
  have hl := cursor.left_eq
  rw [h] at hl ⊢
  cases ts with
  | nil => rw [hl]; rfl
  | cons next ts => rfl

end Cursor

namespace Parse

variable {α β : Type}

/-- Before the first tokens and the rest, the parse passes just the first tokens, and its result
is as wanted. -/
def Complete (p : Parse α) (ts rest : List Token) (Q : α → Prop) : Prop :=
  ∀ cursor : Cursor, cursor.Lexical → cursor.ahead = ts ++ rest →
    ∃ a cursor', p.run cursor = .ok a cursor' ∧ cursor'.ahead = rest ∧ Q a

namespace Complete

variable {p : Parse α} {ts us rest : List Token} {Q : α → Prop} {S : β → Prop}

theorem pure {a : α} (h : Q a) : Complete (Pure.pure a) [] rest Q :=
  fun c _ hr => ⟨a, c, rfl, hr, h⟩

theorem bind {f : α → Parse β} (hp : Complete p ts (us ++ rest) Q)
    (hf : ∀ a, Q a → Complete (f a) us rest S) : Complete (p >>= f) (ts ++ us) rest S := by
  intro c hc hr
  rw [List.append_assoc] at hr
  obtain ⟨a, c', hrun, hr', ha⟩ := hp c hc hr
  have hc' : c'.Lexical := fun token ht => hc token (by
    rw [hr, ← hr']
    exact List.mem_append_right ts ht)
  rw [EStateM.run_bind, hrun]
  exact hf a ha c' hc' hr'

/-- What is done after the last token is passed. -/
theorem bind_last {f : α → Parse β} (hp : Complete p ts rest Q)
    (hf : ∀ a, Q a → Complete (f a) [] rest S) : Complete (p >>= f) ts rest S := by
  have h : Complete (p >>= f) (ts ++ []) rest S := bind hp hf
  rwa [List.append_nil] at h

theorem bind_spanFrom {g : α → Span → β} {start : Position} (hp : Complete p ts rest Q)
    (h : ∀ a span, Q a → S (g a span)) :
    Complete (p >>= fun a => spanFrom start >>= fun span => Pure.pure (g a span)) ts rest S :=
  hp.bind_last fun a ha c _ hr => ⟨_, c, rfl, hr, h a _ ha⟩

theorem get_bind {f : Cursor → Parse β}
    (hf : ∀ c : Cursor, c.ahead = ts ++ rest → Complete (f c) ts rest S) :
    Complete (get >>= f) ts rest S :=
  fun c hc hr => hf c hr c hc hr

theorem current_bind {f : Token → Parse β}
    (hf : ∀ token : Token, token.kind = headKind (ts ++ rest) → Complete (f token) ts rest S) :
    Complete (current >>= f) ts rest S :=
  fun c hc hr => hf c.current (hr ▸ c.kind_current) c hc hr

/-- A parse that passes a token of the right sort. -/
theorem of_current {token : Token}
    (h : token.Lexical → ∀ c : Cursor, c.current = token →
      ∃ a, p.run c = .ok a c.advance.2 ∧ Q a) :
    Complete p [token] rest Q := by
  intro c hc hr
  have hl : token.Lexical := hc token (by rw [hr]; exact List.mem_cons_self)
  obtain ⟨a, hrun, ha⟩ := h hl c (Cursor.current_of_ahead hr)
  exact ⟨a, _, hrun, Cursor.ahead_advance hr, ha⟩

end Complete

/-! ## Tokens and blocks -/

variable {rest : List Token}

theorem complete_take {kind : Kind} {complaint : Token → Diagnostic} {token : Token}
    (h : token.kind = kind) : Complete (take kind complaint) [token] rest (· = token) := by
  refine .of_current fun _ c hc => ⟨token, ?_, rfl⟩
  rw [run_take, hc, if_pos h]

theorem complete_expect {kind : Kind} {token : Token} (h : token.kind = kind) :
    Complete (expect kind) [token] rest (· = token) :=
  complete_take h

theorem complete_advance {token : Token} : Complete advance [token] rest (· = token) :=
  .of_current fun _ c hc => ⟨token, by rw [run_advance, hc], rfl⟩

theorem complete_selector {token : Token} {s : Selector} (h : s.Derives token) :
    Complete selector [token] rest (· = s) := by
  refine .of_current fun hl c hc => ⟨s, ?_, rfl⟩
  unfold selector
  rw [EStateM.run_bind, run_current, hc]
  simp only [(Token.selector?_eq_some_iff hl).2 h]
  rfl

/-- The selectors end before anything but a comma. -/
theorem complete_moreSelectors : ∀ (bound : Nat) {selectors : List Selector} {ts : List Token},
    Selector.OthersDerive selectors ts → headKind rest ≠ .mark .comma →
    (ts ++ rest).length < bound → Complete (moreSelectors bound) ts rest (· = selectors)
  | 0, _, _, _, _, hb => absurd hb (Nat.not_lt_zero _)
  | bound + 1, _, _, .nil, hr, _ => by
    unfold moreSelectors
    refine .current_bind fun token ht => ?_
    rw [if_neg (by rw [ht]; exact hr)]
    exact .pure rfl
  | bound + 1, _, _, @Selector.OthersDerive.cons comma token selector others ts hc hs ho, hr,
      hb => by
    have hb' : (ts ++ rest).length < bound := by
      simp only [List.cons_append, List.length_cons] at hb
      omega
    unfold moreSelectors
    refine .current_bind fun token ht => ?_
    rw [if_pos (by rw [ht]; exact hc)]
    refine complete_advance.bind fun _ _ => ?_
    refine (complete_selector hs).bind ?_
    rintro _ rfl
    refine (complete_moreSelectors bound ho hr hb').bind_last ?_
    rintro _ rfl
    exact .pure rfl

theorem complete_selectors {selectors : List Selector} {ts : List Token}
    (h : Selector.ListDerives selectors ts) (hr : headKind rest ≠ .mark .comma) :
    Complete Parse.selectors ts rest (· = selectors) := by
  obtain ⟨hs, ho⟩ := h
  unfold Parse.selectors
  refine (complete_selector hs).bind ?_
  rintro _ rfl
  refine .get_bind fun c hc => ?_
  have hleft := c.left_eq
  rw [hc] at hleft
  refine (complete_moreSelectors _ ho hr (by omega)).bind_last ?_
  rintro _ rfl
  exact .pure rfl

/-- Up to a number of tokens, the parse reads the statements of a block. -/
def CompleteInner (inner : Parse (List Stmt)) (bound : Nat) : Prop :=
  ∀ {body : List Outline} {ts rest : List Token}, Outline.BodyDerives body ts →
    headKind rest = .mark .closeCurly → (ts ++ rest).length < bound →
    Complete inner ts rest (Stmt.bodyMapNote Note.unplaced · = Outline.bodyTree body)

section inner

variable {inner : Parse (List Stmt)} {bound : Nat} (hi : CompleteInner inner bound)
  {body : List Outline} {ts : List Token}

include hi

theorem complete_block (h : Outline.BlockDerives body ts) (hb : (ts ++ rest).length ≤ bound) :
    Complete (block inner) ts rest (Stmt.bodyMapNote Note.unplaced · = Outline.bodyTree body) := by
  obtain @⟨opening, closing, _, ts, ho, hbody, hc⟩ := h
  have hlt : (ts ++ closing :: rest).length < bound := by
    simp only [List.length_append, List.length_cons, List.length_nil] at hb ⊢
    omega
  have hr : headKind (closing :: rest) = .mark .closeCurly := hc
  unfold block
  refine (complete_expect ho).bind fun _ _ => ?_
  refine (hi hbody hr hlt).bind fun stmts hs => ?_
  refine (complete_expect hc).bind_last fun _ _ => ?_
  exact .pure hs

theorem complete_elseBlock {elseBody : Option (List Outline)}
    (h : Outline.ElseDerives elseBody ts) (hr : headKind rest ≠ .word .elseWord)
    (hb : (ts ++ rest).length ≤ bound) :
    Complete (elseBlock inner) ts rest fun stmts =>
      stmts.map (Stmt.bodyMapNote Note.unplaced) = elseBody.map Outline.bodyTree := by
  unfold elseBlock
  refine .current_bind fun token ht => ?_
  cases h with
  | none =>
    rw [if_neg (by rw [ht]; exact hr)]
    exact .pure rfl
  | some hw hblock =>
    rw [if_pos (by rw [ht]; exact hw)]
    refine complete_advance.bind fun _ _ => ?_
    refine (complete_block hi hblock (Nat.le_of_succ_le hb)).bind_last fun stmts hs => ?_
    exact .pure (congrArg some hs)

theorem complete_rule {selectors : List Selector} {us : List Token}
    (hs : Selector.ListDerives selectors ts) (hblock : Outline.BlockDerives body us)
    (hb : (ts ++ us ++ rest).length ≤ bound) :
    Complete (rule inner) (ts ++ us) rest
      (·.mapNote Note.unplaced = Outline.tree (.rule selectors body)) := by
  have hb' : (us ++ rest).length ≤ bound := by
    simp only [List.length_append] at hb ⊢
    omega
  have hr : headKind (us ++ rest) ≠ .mark .comma := by
    obtain ⟨ho, -, -⟩ := hblock
    rw [List.cons_append, headKind_cons, ho]
    decide
  unfold rule
  refine .current_bind fun token _ => (complete_selectors hs hr).bind ?_
  rintro _ rfl
  refine (complete_block hi hblock hb').bind_spanFrom fun stmts span hstmts => ?_
  rw [Stmt.mapNote, hstmts]
  rfl

end inner

end Parse

/-! ## Statements -/

namespace Grammar

open Parse (Complete CompleteInner)

variable {rest ts : List Token}

theorem complete_expr {value : Row} (h : value.Derives ts)
    (hr : standard.power? (headKind rest) = none) :
    Complete (standard.expr .lowest) ts rest (·.mapNote Note.unplaced = value.tree) := by
  obtain @⟨first, x, others, ts, hx, ho⟩ := h
  intro cursor hlex hc
  have hl : ∀ token ∈ first :: ts, token.Lexical := fun token ht =>
    hlex token (by rw [hc]; exact List.mem_append_left rest ht)
  obtain ⟨e, he, hex⟩ := hx.operand_eq (hl first List.mem_cons_self)
  obtain ⟨es, hs, hes⟩ := ho.exists_spells fun token ht => hl token (List.mem_cons_of_mem _ ht)
  have hc₁ : (cursor.forward 1).ahead = ts ++ rest := Cursor.ahead_advance hc
  have hr' : ∀ op, headKind rest ≠ .operator op := by
    intro op hk
    rw [hk, standard_power?] at hr
    cases hr
  refine ⟨Expr.total e es, (cursor.forward 1).forward ts.length, ?_, ?_, ?_⟩
  · rw [run_expr (by rw [Cursor.current_of_ahead hc, he])]
    exact operators_lowest hs hr' hc₁ e (Nat.le_succ_of_le (hs.length_le_left hc₁))
  · exact Cursor.ahead_forward_append hc₁ rfl
  · exact Row.mapNote_total hex hes

theorem complete_assignment {name assign semicolon : Token} {value : Row}
    (hn : name.kind = .capitalName) (ha : assign.kind = .mark .assign) (hv : value.Derives ts)
    (hs : semicolon.kind = .mark .semicolon) :
    Complete standard.assignment (name :: assign :: (ts ++ [semicolon])) rest
      (·.mapNote Note.unplaced = Outline.tree (.assignment name.text value)) := by
  have hr : standard.power? (headKind (semicolon :: rest)) = none := by
    rw [headKind_cons, hs]
    rfl
  unfold assignment
  refine (Parse.complete_expect hn).bind ?_
  rintro _ rfl
  refine (Parse.complete_take ha).bind fun _ _ => ?_
  refine (complete_expr hv hr).bind fun expr he => ?_
  refine (Parse.complete_expect hs).bind_spanFrom fun _ span _ => ?_
  rw [Stmt.mapNote, he]
  rfl

theorem complete_declaration {property colon semicolon : Token} {value : Row}
    (hp : property.kind = .lowerName) (hc : colon.kind = .mark .colon) (hv : value.Derives ts)
    (hs : semicolon.kind = .mark .semicolon) :
    Complete standard.declaration (property :: colon :: (ts ++ [semicolon])) rest
      (·.mapNote Note.unplaced = Outline.tree (.declaration property.text value)) := by
  have hr : standard.power? (headKind (semicolon :: rest)) = none := by
    rw [headKind_cons, hs]
    rfl
  unfold declaration
  refine (Parse.complete_expect hp).bind ?_
  rintro _ rfl
  refine (Parse.complete_expect hc).bind fun _ _ => ?_
  refine (complete_expr hv hr).bind fun expr he => ?_
  refine (Parse.complete_expect hs).bind_spanFrom fun _ span _ => ?_
  rw [Stmt.mapNote, he]
  rfl

/-- A selector begins a rule, or like a declaration. -/
theorem form?_selector (s : Selector) :
    standard.form? s.kind = some .lower ∨ standard.form? s.kind = some .rule := by
  cases s
  · exact .inl rfl
  · exact .inr rfl
  · exact .inr rfl

/-- Behind the first token of a rule stands a comma or a curly bracket. -/
theorem exists_cons_of_rule {selectors : List Selector} {body : List Outline}
    {us : List Token} (hs : Selector.ListDerives selectors ts) (hb : Outline.BlockDerives body us) :
    ∃ token, ∃ s : Selector, ∃ vs, ts ++ us = token :: vs ∧ token.kind = s.kind
      ∧ ∀ rest, headKind (vs ++ rest) ≠ .mark .colon := by
  obtain ⟨hs, ho⟩ := hs
  refine ⟨_, _, _, rfl, hs.kind_eq, fun rest => ?_⟩
  cases ho with
  | nil =>
    obtain ⟨hopening, -, -⟩ := hb
    show headKind (_ :: _) ≠ _
    rw [headKind_cons, hopening]
    decide
  | cons hc _ _ =>
    show headKind (_ :: _) ≠ _
    rw [headKind_cons, hc]
    decide

/-- The first token of a statement has a kind that begins one. -/
theorem exists_form_of_derives {o : Outline} (h : o.Derives ts) :
    ∃ token us, ts = token :: us ∧ (standard.form? token.kind).isSome := by
  cases h with
  | assignment hn _ _ _ => exact ⟨_, _, rfl, by rw [hn]; rfl⟩
  | declaration hp _ _ _ => exact ⟨_, _, rfl, by rw [hp]; rfl⟩
  | rule hs hb =>
    obtain ⟨token, s, vs, hts, hk, -⟩ := exists_cons_of_rule hs hb
    refine ⟨token, vs, hts, ?_⟩
    rcases form?_selector s with hf | hf <;> rw [hk, hf] <;> rfl
  | conditional hw _ _ _ _ _ => exact ⟨_, _, rfl, by rw [hw]; rfl⟩

section inner

variable {inner : Parse (List Stmt)} {bound : Nat} (hi : CompleteInner inner bound)

include hi

theorem complete_conditional {word opening closing : Token} {condition : Row}
    {body : List Outline} {elseBody : Option (List Outline)} {us vs : List Token}
    (hw : word.kind = .word .ifWord) (ho : opening.kind = .mark .openBracket)
    (hcond : condition.Derives ts) (hc : closing.kind = .mark .closeBracket)
    (hblock : Outline.BlockDerives body us) (helse : Outline.ElseDerives elseBody vs)
    (hr : headKind rest ≠ .word .elseWord) (hb : (us ++ (vs ++ rest)).length ≤ bound) :
    Complete (standard.conditional inner)
      (word :: opening :: (ts ++ closing :: (us ++ vs))) rest
      (·.mapNote Note.unplaced = Outline.tree (.conditional condition body elseBody)) := by
  have hclosing : standard.power? (headKind (closing :: (us ++ vs) ++ rest)) = none := by
    rw [List.cons_append, headKind_cons, hc]
    rfl
  have hvs : (vs ++ rest).length ≤ bound := by
    rw [List.length_append] at hb
    omega
  unfold conditional
  refine (Parse.complete_expect hw).bind fun _ _ => ?_
  refine (Parse.complete_expect ho).bind fun _ _ => ?_
  refine (complete_expr hcond hclosing).bind fun expr he => ?_
  refine (Parse.complete_expect hc).bind fun _ _ => ?_
  refine (Parse.complete_block hi hblock hb).bind fun stmts hstmts => ?_
  refine (Parse.complete_elseBlock hi helse hr hvs).bind_spanFrom
    fun elseStmts span helseStmts => ?_
  rw [Stmt.mapNote_conditional, he, hstmts, helseStmts, Outline.tree_conditional]
  rfl

/-- The first token, and behind a lowercase name the second, decide the form of a statement. -/
theorem complete_stmtWith {o : Outline} (h : o.Derives ts)
    (hr : headKind rest ≠ .word .elseWord) (hb : (ts ++ rest).length ≤ bound) :
    Complete (standard.stmtWith inner) ts rest (·.mapNote Note.unplaced = o.tree) := by
  unfold stmtWith
  refine .current_bind fun token ht => ?_
  cases h with
  | assignment hn ha hv hs =>
    have hf : standard.form? token.kind = some .assignment := by rw [ht]; exact congrArg _ hn
    rw [hf]
    exact complete_assignment hn ha hv hs
  | declaration hp hc hv hs =>
    have hf : standard.form? token.kind = some .lower := by rw [ht]; exact congrArg _ hp
    rw [hf]
    refine .get_bind fun c hcur => ?_
    rw [if_pos (by rw [Cursor.peek_one hcur]; exact hc)]
    exact complete_declaration hp hc hv hs
  | rule hs hblock =>
    obtain ⟨first, s, vs, hts, hk, hcolon⟩ := exists_cons_of_rule hs hblock
    have hf : standard.form? token.kind = standard.form? s.kind := by
      rw [ht, hts, List.cons_append, headKind_cons, hk]
    rw [hf]
    rcases form?_selector s with hf | hf <;> rw [hf]
    · refine .get_bind fun c hcur => ?_
      rw [hts] at hcur
      rw [if_neg (by rw [Cursor.peek_one hcur]; exact hcolon rest)]
      exact Parse.complete_rule hi hs hblock hb
    · exact Parse.complete_rule hi hs hblock hb
  | conditional hw ho hcond hc hblock helse =>
    have hf : standard.form? token.kind = some .conditional := by rw [ht]; exact congrArg _ hw
    rw [hf]
    refine complete_conditional hi hw ho hcond hc hblock helse hr ?_
    simp only [List.cons_append, List.append_assoc, List.length_cons, List.length_append] at hb ⊢
    omega

end inner

/-- Neither `else` nor a curly bracket nor the end begins a statement. -/
theorem headKind_of_derives {o : Outline} (h : o.Derives ts) (rest : List Token) :
    headKind (ts ++ rest) ≠ .word .elseWord ∧ headKind (ts ++ rest) ≠ .mark .closeCurly
      ∧ headKind (ts ++ rest) ≠ .ending := by
  obtain ⟨token, us, rfl, hf⟩ := exists_form_of_derives h
  rw [List.cons_append, headKind_cons]
  refine ⟨?_, ?_, ?_⟩ <;> intro hk <;> rw [hk] at hf <;> cases hf

theorem complete_stmts : ∀ bound, CompleteInner (standard.stmts bound) bound
  | 0, _, _, _, _, _, hb => absurd hb (Nat.not_lt_zero _)
  | bound + 1, _, _, rest, .nil, hr, hb => by
    unfold stmts
    refine .current_bind fun token ht => ?_
    rw [if_pos (ht.trans hr)]
    exact .pure rfl
  | bound + 1, _, _, rest, @Outline.BodyDerives.cons first others ts us h hs, hr, hb => by
    obtain ⟨-, hclose, hending⟩ := headKind_of_derives h (us ++ rest)
    -- A conditional without `else` has to be over where the next statement begins.
    have helse : headKind (us ++ rest) ≠ .word .elseWord := by
      cases hs with
      | nil => rw [List.nil_append, hr]; decide
      | cons h' _ => rw [List.append_assoc]; exact (headKind_of_derives h' _).1
    have hlt : (us ++ rest).length < bound := by
      obtain ⟨token, ts', rfl, -⟩ := exists_form_of_derives h
      simp only [List.cons_append, List.append_assoc, List.length_cons, List.length_append]
        at hb ⊢
      omega
    have hle : (ts ++ (us ++ rest)).length ≤ bound := by
      rw [← List.append_assoc]
      omega
    unfold stmts
    refine .current_bind fun token ht => ?_
    rw [List.append_assoc] at ht
    rw [if_neg (by rw [ht]; exact hclose), if_neg (by rw [ht]; exact hending)]
    refine (complete_stmtWith (complete_stmts bound) h helse hle).bind fun stmt hstmt => ?_
    refine (complete_stmts bound hs hr hlt).bind_last fun stmts hstmts => ?_
    refine .pure ?_
    rw [Stmt.bodyMapNote, hstmt, hstmts, Outline.bodyTree]

theorem complete_stmt {o : Outline} (h : o.Derives ts) (hr : headKind rest ≠ .word .elseWord) :
    Complete standard.stmt ts rest (·.mapNote Note.unplaced = o.tree) := by
  have hbody : ∀ bound, CompleteInner standard.body bound := by
    intro bound body us rest hs hclose _
    refine .get_bind fun c hc => ?_
    have hleft := c.left_eq
    rw [hc] at hleft
    exact complete_stmts _ hs hclose (by omega)
  exact complete_stmtWith (hbody _) h hr (Nat.le_refl _)

theorem complete_outerStmt {o : Outline} (h : o.Derives ts) (ho : o.IsOuter)
    (hr : headKind rest ≠ .word .elseWord) :
    Complete standard.outerStmt ts rest (·.mapNote Note.unplaced = o.tree) := by
  unfold outerStmt
  refine (complete_stmt h hr).bind_last fun stmt hstmt => ?_
  rw [← Stmt.outline_eq_of_mapNote hstmt] at ho
  rw [Stmt.isOuter_iff.1 ho]
  exact .pure hstmt

theorem complete_outerStmts : ∀ (bound : Nat) {body : List Outline} {ts : List Token},
    Outline.SheetDerives body ts → ts.length < bound →
    Complete (standard.outerStmts bound) ts []
      (Stmt.bodyMapNote Note.unplaced · = Outline.bodyTree body)
  | 0, _, _, _, hb => absurd hb (Nat.not_lt_zero _)
  | bound + 1, _, _, .nil, _ => by
    unfold outerStmts
    refine .current_bind fun token ht => ?_
    have hk : token.kind = .ending := ht
    rw [if_pos hk]
    exact .pure rfl
  | bound + 1, _, _, @Outline.SheetDerives.cons first others ts us h ho hs, hb => by
    have helse : headKind (us ++ []) ≠ .word .elseWord := by
      cases hs with
      | nil => decide
      | cons h' _ _ => rw [List.append_assoc]; exact (headKind_of_derives h' _).1
    have hlt : us.length < bound := by
      obtain ⟨token, ts', rfl, -⟩ := exists_form_of_derives h
      simp only [List.cons_append, List.length_cons, List.length_append] at hb
      omega
    unfold outerStmts
    refine .current_bind fun token ht => ?_
    rw [List.append_assoc] at ht
    rw [if_neg (by rw [ht]; exact (headKind_of_derives h _).2.2)]
    refine (complete_outerStmt h ho helse).bind fun stmt hstmt => ?_
    refine (complete_outerStmts bound hs hlt).bind_last fun stmts hstmts => ?_
    refine .pure ?_
    rw [Stmt.bodyMapNote, hstmt, hstmts, Outline.bodyTree]

end Grammar

end StyleLang
