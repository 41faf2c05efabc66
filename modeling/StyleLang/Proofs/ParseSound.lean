import StyleLang.Grammar.Document
import StyleLang.Proofs.Spelling

/-!
# What is read is made of the tokens passed

A parse is sound for a relation between tokens and results if the tokens it passes stand in that
relation to its result, and all it complains about is syntax (`Parse.Sound`). It is so in steps:
what is done after a first parse has to be sound for what is left of the relation
(`Parse.Sound.bind`).

The main lemma is `Grammar.sound_outerStmts`: the statements that are read spell the tokens that
are passed. So of lexical tokens they are a derivation (`Stmt.Spells.derives`).
-/

namespace StyleLang

namespace Cursor

/-- All tokens still to come are lexical. -/
def Lexical (cursor : Cursor) : Prop :=
  ∀ token ∈ cursor.ahead, token.Lexical

variable {cursor : Cursor} {token : Token} {ts : List Token}

theorem current_of_ahead (h : cursor.ahead = token :: ts) : cursor.current = token := by
  rw [current, h]
  rfl

theorem ahead_advance (h : cursor.ahead = token :: ts) : cursor.advance.2.ahead = ts := by
  show cursor.ahead.tail = ts
  rw [h]
  rfl

theorem exists_ahead_eq (h : cursor.current.kind ≠ .ending) :
    ∃ ts, cursor.ahead = cursor.current :: ts := by
  cases hc : cursor.ahead with
  | nil => exact absurd (current_kind_eq_ending_iff.2 hc) h
  | cons token ts => exact ⟨ts, by rw [current_of_ahead hc]⟩

theorem lastStop_of_passed {before : List Token} (hp : cursor.passed = ts.reverse ++ before)
    (h : ts ≠ []) : cursor.lastStop = (Span.cover ts).stop := by
  rw [lastStop, hp, Span.cover, List.getLast?_eq_head?_reverse]
  cases hr : ts.reverse with
  | nil => exact absurd (List.reverse_eq_nil_iff.1 hr) h
  | cons => rfl

end Cursor

namespace Parse

variable {α β : Type}

/-- The tokens passed are related to the result, and complaints are about syntax. -/
def Sound (p : Parse α) (R : List Token → α → Prop) : Prop :=
  ∀ cursor : Cursor, match p.run cursor with
    | .ok a cursor' => ∃ ts, cursor.ahead = ts ++ cursor'.ahead
        ∧ cursor'.passed = ts.reverse ++ cursor.passed ∧ R ts a
    | .error fault _ => fault.cause.category = .syntaxError

namespace Sound

variable {p : Parse α} {f : α → Parse β} {R : List Token → α → Prop} {S : List Token → β → Prop}

theorem imp {R' : List Token → α → Prop} (hp : Sound p R) (h : ∀ ts a, R ts a → R' ts a) :
    Sound p R' := by
  intro c
  have hp := hp c
  cases hr : p.run c with
  | error fault c' =>
    rw [hr] at hp
    exact hp
  | ok a c' =>
    rw [hr] at hp
    obtain ⟨ts, hts, hpassed, ha⟩ := hp
    exact ⟨ts, hts, hpassed, h ts a ha⟩

theorem pure {a : α} (h : R [] a) : Sound (Pure.pure a) R :=
  fun _ => ⟨[], rfl, rfl, h⟩

theorem throw {fault : Diagnostic} (h : fault.cause.category = .syntaxError) :
    Sound (MonadExcept.throw fault) R :=
  fun _ => h

theorem bind (hp : Sound p R)
    (hf : ∀ ts a, R ts a → Sound (f a) fun us b => S (ts ++ us) b) : Sound (p >>= f) S := by
  intro c
  have hp := hp c
  rw [EStateM.run_bind]
  cases hr : p.run c with
  | error fault c' =>
    rw [hr] at hp
    exact hp
  | ok a c' =>
    rw [hr] at hp
    obtain ⟨ts, hts, hpassed, ha⟩ := hp
    have hf := hf ts a ha c'
    show match (f a).run c' with
      | .ok b c'' => ∃ ts, c.ahead = ts ++ c''.ahead
          ∧ c''.passed = ts.reverse ++ c.passed ∧ S ts b
      | .error fault _ => fault.cause.category = .syntaxError
    cases hr' : (f a).run c' with
    | error fault c'' =>
      rw [hr'] at hf
      exact hf
    | ok b c'' =>
      rw [hr'] at hf
      obtain ⟨us, hus, hpassed', hb⟩ := hf
      refine ⟨ts ++ us, by rw [hts, hus, List.append_assoc], ?_, hb⟩
      rw [hpassed', hpassed, List.reverse_append, List.append_assoc]

/-- What the last parse gives is put together with what was read before. -/
theorem bind_pure {g : α → β} (hp : Sound p R) (h : ∀ ts a, R ts a → S ts (g a)) :
    Sound (p >>= fun a => Pure.pure (g a)) S := by
  refine hp.bind fun ts a ha => .pure ?_
  rw [List.append_nil]
  exact h ts a ha

/-- The span of a node is closed where the last token it is made of ends. -/
theorem bind_spanFrom {g : α → Span → β} {start : Position} (hp : Sound p R)
    (h : ∀ ts a, R ts a → ts ≠ [] ∧ S ts (g a ⟨start, (Span.cover ts).stop⟩)) :
    Sound (p >>= fun a => spanFrom start >>= fun span => Pure.pure (g a span)) S := by
  intro c
  have hp := hp c
  rw [EStateM.run_bind]
  cases hr : p.run c with
  | error fault c' =>
    rw [hr] at hp
    exact hp
  | ok a c' =>
    rw [hr] at hp
    obtain ⟨ts, hts, hpassed, ha⟩ := hp
    obtain ⟨hne, hs⟩ := h ts a ha
    refine ⟨ts, hts, hpassed, ?_⟩
    rw [← Cursor.lastStop_of_passed hpassed hne] at hs
    exact hs

/-- What is read off the cursor may be anything. -/
theorem get_bind {f : Cursor → Parse β} (hf : ∀ c, Sound (f c) S) : Sound (get >>= f) S :=
  fun c => hf c c

/-- The token at which a parse looks is the first that it passes, if it passes any. -/
theorem current_bind {f : Token → Parse β}
    (hf : ∀ token, Sound (f token) fun ts b => (∀ t ∈ ts.head?, token = t) → S ts b) :
    Sound (current >>= f) S := by
  intro c
  have hf := hf c.current c
  show match (f c.current).run c with
    | .ok b c' => ∃ ts, c.ahead = ts ++ c'.ahead ∧ c'.passed = ts.reverse ++ c.passed ∧ S ts b
    | .error fault _ => fault.cause.category = .syntaxError
  cases hr : (f c.current).run c with
  | error fault c' =>
    rw [hr] at hf
    exact hf
  | ok b c' =>
    rw [hr] at hf
    obtain ⟨ts, hts, hpassed, hb⟩ := hf
    refine ⟨ts, hts, hpassed, hb fun t ht => ?_⟩
    cases ts with
    | nil => cases ht
    | cons first ts =>
      cases ht
      exact Cursor.current_of_ahead hts

/-- A parse that looks at a token and then goes on in the same way for all. -/
theorem of_current_bind {f : Token → Parse β} (hf : ∀ token, Sound (f token) S) :
    Sound (current >>= f) S :=
  current_bind fun token => (hf token).imp fun _ _ h _ => h

/-- A parse that passes the current token if it is right and complains otherwise. -/
theorem of_current
    (h : ∀ c : Cursor, (c.current.kind ≠ .ending ∧ ∃ a, p.run c = .ok a c.advance.2
          ∧ R [c.current] a)
        ∨ ∃ fault c', p.run c = .error fault c' ∧ fault.cause.category = .syntaxError) :
    Sound p R := by
  intro c
  rcases h c with ⟨hk, a, hr, ha⟩ | ⟨fault, c', hr, hf⟩
  · obtain ⟨ts, hts⟩ := Cursor.exists_ahead_eq hk
    rw [hr]
    refine ⟨[c.current], ?_, ?_, ha⟩
    · rw [Cursor.ahead_advance hts, hts]
      rfl
    · show c.ahead.head?.toList ++ c.passed = _
      rw [hts]
      rfl
  · rw [hr]
    exact hf

end Sound

/-! ## Tokens and blocks -/

theorem sound_take {kind : Kind} {complaint : Token → Diagnostic} (hk : kind ≠ .ending)
    (hc : ∀ token, (complaint token).cause.category = .syntaxError) :
    Sound (take kind complaint) fun ts token => ts = [token] ∧ token.kind = kind := by
  refine .of_current fun c => ?_
  rw [run_take]
  by_cases h : c.current.kind = kind
  · rw [if_pos h]
    exact .inl ⟨h ▸ hk, _, rfl, rfl, h⟩
  · rw [if_neg h]
    exact .inr ⟨_, _, rfl, hc _⟩

theorem sound_expect {kind : Kind} (hk : kind ≠ .ending) :
    Sound (expect kind) fun ts token => ts = [token] ∧ token.kind = kind :=
  sound_take hk fun _ => rfl

theorem sound_operator :
    Sound operator fun ts op => ∃ token, ts = [token] ∧ token.kind = .operator op := by
  refine .of_current fun c => ?_
  unfold operator
  rw [EStateM.run_bind, run_advance]
  by_cases h : ∃ op, c.current.kind = .operator op
  · obtain ⟨op, h⟩ := h
    refine .inl ⟨by rw [h]; exact nofun, op, ?_, _, rfl, h⟩
    simp only [h]
    rfl
  · refine .inr ⟨c.current.unexpected, c.advance.2, ?_, rfl⟩
    simp only
    split
    · rename_i op hk
      exact absurd ⟨op, hk⟩ h
    · rfl

theorem sound_single : Sound single fun ts expr =>
    ∃ token, ts = [token] ∧ token.operand = .ok expr := by
  refine .of_current fun c => ?_
  unfold single
  rw [EStateM.run_bind, run_current]
  cases h : c.current.operand with
  | error fault =>
    refine .inr ⟨fault, c, ?_, Token.category_of_operand h⟩
    simp only [h]
    rfl
  | ok expr =>
    refine .inl ⟨fun hk => ?_, expr, ?_, _, rfl, h⟩
    · unfold Token.operand at h
      rw [hk] at h
      cases h
    · simp only [h]
      rfl

theorem sound_selector :
    Sound selector fun ts s => ∃ token, ts = [token] ∧ token.selector? = some s := by
  refine .of_current fun c => ?_
  unfold selector
  rw [EStateM.run_bind, run_current]
  cases h : c.current.selector? with
  | none =>
    refine .inr ⟨c.current.misplaced .selector, c, ?_, rfl⟩
    simp only [h]
    rfl
  | some s =>
    refine .inl ⟨fun hk => ?_, s, ?_, _, rfl, h⟩
    · unfold Token.selector? at h
      rw [hk] at h
      cases h
    · simp only [h]
      rfl

/-- A token of a kind that may stand there decides what follows. -/
theorem Sound.of_kind {kind : Kind} (hk : kind ≠ .ending) {p q : Parse β}
    {S : List Token → β → Prop}
    (hp : ∀ token, token.kind = kind → Sound p fun us b => S (token :: us) b) (hq : Sound q S) :
    Sound (current >>= fun token => if token.kind = kind then advance >>= fun _ => p else q)
      S := by
  intro c
  rw [EStateM.run_bind, run_current]
  by_cases h : c.current.kind = kind
  · have ht : Sound (expect kind >>= fun _ => p) S := by
      refine (sound_expect hk).bind fun ts token => ?_
      rintro ⟨rfl, ht⟩
      exact hp token ht
    have ht := ht c
    rw [EStateM.run_bind, run_expect, if_pos h] at ht
    simp only [if_pos h]
    exact ht
  · simp only [if_neg h]
    exact hq c

theorem sound_moreSelectors : ∀ bound, Sound (moreSelectors bound) fun ts selectors =>
    Selector.OthersSpell selectors ts
  | 0 => .pure .nil
  | bound + 1 => by
    unfold moreSelectors
    refine .of_kind (by decide) (fun comma hc => ?_) (.pure .nil)
    refine sound_selector.bind ?_
    intro _ first h
    obtain ⟨token, rfl, ht⟩ := h
    refine (sound_moreSelectors bound).bind_pure fun ts rest hr => ?_
    exact .cons hc ht hr

theorem sound_selectors : Sound selectors fun ts selectors =>
    Selector.ListSpells selectors ts := by
  unfold selectors
  refine sound_selector.bind ?_
  intro _ first h
  obtain ⟨token, rfl, ht⟩ := h
  refine .get_bind fun c => (sound_moreSelectors _).bind_pure fun ts rest hr => ?_
  exact .cons ht hr

section inner

variable {inner : Parse (List Stmt)}
  (hi : Sound inner fun ts body => Stmt.BodySpells body ts)

include hi

theorem sound_block : Sound (block inner) fun ts body =>
    Stmt.BlockSpells body ts := by
  unfold block
  refine (sound_expect (by decide)).bind ?_
  intro _ opening h
  obtain ⟨rfl, ho⟩ := h
  refine hi.bind fun ts body hb => (sound_expect (by decide)).bind_pure ?_
  intro _ closing h
  obtain ⟨rfl, hc⟩ := h
  exact .mk ho hb hc

theorem sound_elseBlock : Sound (elseBlock inner) fun ts body =>
    Stmt.ElseSpells body ts := by
  unfold elseBlock
  refine .of_kind (by decide) (fun word hw => ?_) (.pure .none)
  refine (sound_block hi).bind_pure fun ts body hb => ?_
  exact .some hw hb

/-- The blocks of a conditional, of which only the first has to have tokens. -/
theorem sound_branches :
    Sound (block inner >>= fun body => elseBlock inner >>= fun elseBody => pure (body, elseBody))
      fun ts branches => ∃ us vs, ts = us ++ vs ∧ Stmt.BlockSpells branches.1 us
        ∧ Stmt.ElseSpells branches.2 vs :=
  (sound_block hi).bind fun us _ hb => (sound_elseBlock hi).bind_pure fun vs _ he =>
    ⟨us, vs, rfl, hb, he⟩

theorem sound_rule : Sound (rule inner) fun ts stmt => stmt.Spells ts := by
  unfold rule
  refine .current_bind fun token => sound_selectors.bind fun ts selectors hs => ?_
  refine (sound_block hi).bind_spanFrom fun us body hb => ?_
  have hne := Stmt.ne_nil_of_blockSpells hb
  refine ⟨hne, fun hfirst => ?_⟩
  have hstart : ∀ t ∈ (ts ++ us).head?, token.span.start = t.span.start :=
    fun t ht => congrArg (·.span.start) (hfirst t ht)
  rw [← Span.cover_eq hstart hne]
  exact .rule hs hb

end inner

end Parse

/-! ## Expressions and statements -/

namespace Stmt

theorem isOuter_iff {stmt : Stmt} : stmt.outline.IsOuter ↔ stmt.outerFault? = none := by
  cases stmt with
  | rule => exact ⟨fun _ => rfl, fun _ => trivial⟩
  | assignment => exact ⟨fun _ => rfl, fun _ => trivial⟩
  | declaration => exact ⟨fun h => h.elim, fun h => nomatch h⟩
  | conditional =>
    rw [outline_conditional]
    exact ⟨fun h => h.elim, fun h => nomatch h⟩

theorem category_of_outerFault? {stmt : Stmt} {fault : Diagnostic}
    (h : stmt.outerFault? = some fault) : fault.cause.category = .syntaxError := by
  cases stmt <;> cases h <;> rfl

end Stmt

namespace Grammar

open Parse (Sound)

variable (grammar : Grammar)

theorem sound_operand : Sound grammar.operand fun ts expr =>
    ∃ token, ts = [token] ∧ token.operand = .ok expr := by
  unfold operand
  refine .of_current_bind fun token => ?_
  split
  · exact Parse.sound_single
  · exact .throw rfl

theorem join_spells {left right : Expr} {op : Operator} {operator : Token} {ts us : List Token}
    (hl : left.Spells ts) (ho : operator.kind = .operator op) (hr : right.Spells us) :
    (left.join op right).Spells (ts ++ operator :: us) := by
  have hstart : (Span.cover (ts ++ operator :: us)).start = left.span.start := by
    rw [Span.start_cover_append (Expr.ne_nil_of_spells hl), Expr.span, Expr.note_of_spells hl]
    rfl
  have hstop : (Span.cover (ts ++ operator :: us)).stop = right.span.stop := by
    rw [List.append_cons, Span.stop_cover_append (Expr.ne_nil_of_spells hr), Expr.span,
      Expr.note_of_spells hr]
    rfl
  rw [Expr.join, ← hstart, ← hstop]
  exact .binary hl ho hr

/-- What is joined to an expression stands behind it. -/
theorem sound_operators : ∀ bound power (left : Expr),
    Sound (grammar.operators bound power left) fun ts expr =>
      ∀ us, left.Spells us → expr.Spells (us ++ ts)
  | 0, power, left => .pure fun us h => by rwa [List.append_nil]
  | bound + 1, power, left => by
    have hnil : ∀ us, left.Spells us → left.Spells (us ++ []) :=
      fun us h => by rwa [List.append_nil]
    unfold operators
    refine .of_current_bind fun token => ?_
    split
    · exact .pure hnil
    · split
      · exact .pure hnil
      · refine Parse.sound_operator.bind ?_
        intro _ op h
        obtain ⟨operator, rfl, ho⟩ := h
        refine (sound_operand grammar).bind ?_
        intro _ first h
        obtain ⟨operand, rfl, hx⟩ := h
        refine (sound_operators bound _ first).bind ?_
        intro ts right hright
        refine (sound_operators bound power (left.join op right)).imp ?_
        intro us expr hexpr vs hleft
        have hjoin := join_spells hleft ho (hright [operand] (.operand hx))
        simpa using hexpr _ hjoin

theorem sound_expr (power : Power) :
    Sound (grammar.expr power) fun ts expr => expr.Spells ts := by
  unfold expr
  refine (sound_operand grammar).bind ?_
  intro _ first h
  obtain ⟨token, rfl, hx⟩ := h
  refine .get_bind fun c => (sound_operators grammar _ power first).imp ?_
  intro ts expr h
  exact h [token] (.operand hx)

theorem sound_assignment :
    Sound grammar.assignment fun ts stmt => stmt.Spells ts := by
  unfold assignment
  refine (Parse.sound_expect (by decide)).bind ?_
  intro _ name h
  obtain ⟨rfl, hn⟩ := h
  refine (Parse.sound_take (by decide) fun _ => rfl).bind ?_
  intro _ assign h
  obtain ⟨rfl, ha⟩ := h
  refine (sound_expr grammar _).bind fun ts value hv => ?_
  refine (Parse.sound_expect (by decide)).bind_spanFrom ?_
  intro _ semicolon h
  obtain ⟨rfl, hs⟩ := h
  refine ⟨List.cons_ne_nil _ _, ?_⟩
  have hcover : Span.cover ([name, assign] ++ ts ++ [semicolon])
      = ⟨name.span.start, (Span.cover [semicolon]).stop⟩ :=
    Span.cover_eq (fun t ht => by cases ht; rfl) (List.cons_ne_nil _ _)
  rw [← hcover]
  exact .assignment hn ha hv hs

theorem sound_declaration :
    Sound grammar.declaration fun ts stmt => stmt.Spells ts := by
  unfold declaration
  refine (Parse.sound_expect (by decide)).bind ?_
  intro _ property h
  obtain ⟨rfl, hp⟩ := h
  refine (Parse.sound_expect (by decide)).bind ?_
  intro _ colon h
  obtain ⟨rfl, hc⟩ := h
  refine (sound_expr grammar _).bind fun ts value hv => ?_
  refine (Parse.sound_expect (by decide)).bind_spanFrom ?_
  intro _ semicolon h
  obtain ⟨rfl, hs⟩ := h
  refine ⟨List.cons_ne_nil _ _, ?_⟩
  have hcover : Span.cover ([property, colon] ++ ts ++ [semicolon])
      = ⟨property.span.start, (Span.cover [semicolon]).stop⟩ :=
    Span.cover_eq (fun t ht => by cases ht; rfl) (List.cons_ne_nil _ _)
  rw [← hcover]
  exact .declaration hp hc hv hs

section inner

variable {inner : Parse (List Stmt)}
  (hi : Sound inner fun ts body => Stmt.BodySpells body ts)

include hi

theorem sound_conditional :
    Sound (grammar.conditional inner) fun ts stmt => stmt.Spells ts := by
  unfold conditional
  refine (Parse.sound_expect (by decide)).bind ?_
  intro _ word h
  obtain ⟨rfl, hw⟩ := h
  refine (Parse.sound_expect (by decide)).bind ?_
  intro _ opening h
  obtain ⟨rfl, ho⟩ := h
  refine (sound_expr grammar _).bind fun ts condition hcond => ?_
  refine (Parse.sound_expect (by decide)).bind ?_
  intro _ closing h
  obtain ⟨rfl, hc⟩ := h
  -- The last token may be one of either block, so both are taken as the last parse.
  suffices h : Sound ((Parse.block inner >>= fun body => Parse.elseBlock inner >>= fun elseBody =>
      pure (body, elseBody)) >>= fun branches => Parse.spanFrom word.span.start >>= fun span =>
        pure (Stmt.conditional (.clean span) condition branches.1 branches.2))
      fun us stmt => stmt.Spells (word :: opening :: (ts ++ closing :: us)) by
    simpa only [bind_assoc, pure_bind, List.singleton_append, List.append_assoc] using h
  refine (Parse.sound_branches hi).bind_spanFrom ?_
  rintro _ branches ⟨us, vs, rfl, hb, he⟩
  have hne : us ++ vs ≠ [] := List.append_ne_nil_of_left_ne_nil (Stmt.ne_nil_of_blockSpells hb) vs
  refine ⟨hne, ?_⟩
  have hcover : Span.cover ((word :: opening :: (ts ++ [closing])) ++ (us ++ vs))
      = ⟨word.span.start, (Span.cover (us ++ vs)).stop⟩ :=
    Span.cover_eq (fun t ht => by cases ht; rfl) hne
  rw [← hcover]
  simpa using Stmt.Spells.conditional hw ho hcond hc hb he

theorem sound_stmtOf (form : Form) :
    Sound (grammar.stmtOf inner form) fun ts stmt => stmt.Spells ts := by
  cases form with
  | assignment => exact sound_assignment grammar
  | declaration => exact sound_declaration grammar
  | lower =>
    refine .get_bind fun c => ?_
    split
    · exact sound_declaration grammar
    · exact Parse.sound_rule hi
  | rule => exact Parse.sound_rule hi
  | conditional => exact sound_conditional grammar hi

theorem sound_stmtWith :
    Sound (grammar.stmtWith inner) fun ts stmt => stmt.Spells ts := by
  unfold stmtWith
  refine .of_current_bind fun token => ?_
  split
  · exact sound_stmtOf grammar hi _
  · exact .throw rfl

end inner

theorem sound_stmts : ∀ bound, Sound (grammar.stmts bound) fun ts body =>
    Stmt.BodySpells body ts
  | 0 => .pure .nil
  | bound + 1 => by
    unfold stmts
    refine .of_current_bind fun token => ?_
    split
    · exact .pure .nil
    · split
      · exact .throw rfl
      · refine (sound_stmtWith grammar (sound_stmts bound)).bind fun ts first hf => ?_
        refine (sound_stmts bound).bind_pure fun us rest hr => ?_
        exact .cons hf hr

theorem sound_stmt : Sound grammar.stmt fun ts stmt => stmt.Spells ts := by
  refine sound_stmtWith grammar ?_
  exact .get_bind fun c => sound_stmts grammar _

theorem sound_outerStmt :
    Sound grammar.outerStmt fun ts stmt => stmt.Spells ts ∧ stmt.outerFault? = none := by
  unfold outerStmt
  refine (sound_stmt grammar).bind fun ts stmt hs => ?_
  split
  · rename_i hn
    refine .pure ⟨by rwa [List.append_nil], hn⟩
  · rename_i fault hf
    exact .throw (Stmt.category_of_outerFault? hf)

theorem sound_outerStmts : ∀ bound, Sound (grammar.outerStmts bound) fun ts body =>
    Stmt.BodySpells body ts ∧ ∀ stmt ∈ body, stmt.outerFault? = none
  | 0 => .pure ⟨.nil, nofun⟩
  | bound + 1 => by
    unfold outerStmts
    refine .of_current_bind fun token => ?_
    split
    · exact .pure ⟨.nil, nofun⟩
    · refine (sound_outerStmt grammar).bind ?_
      intro ts first h
      obtain ⟨hf, ho⟩ := h
      refine (sound_outerStmts bound).bind_pure ?_
      intro us rest h
      obtain ⟨hr, hrest⟩ := h
      exact ⟨.cons hf hr, List.forall_mem_cons.2 ⟨ho, hrest⟩⟩

end Grammar

end StyleLang
