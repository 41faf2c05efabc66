import StyleLang.Proofs.FirstEnd

/-!
# Reading fails at the first wrong token

Where reading fails, what it has passed can still be continued to a body of statements, but not
with the token at which it stands (`Stylesheet.ofTokens_error_first`). Only the complaint about a
statement outside of rules is made later.

That it can be continued is shown along the parse: a parse blames the token at which it stops,
having passed tokens that open what it reads (`Parse.Blames`, `Token.Opens`). That it cannot be
continued with the token comes from completeness, since only the tokens up to that one were looked
at (`Grammar.exists_run_stylesheet`).
-/

namespace StyleLang

namespace Token

def ofMark (m : Mark) : Token :=
  ⟨.mark m, m.text, .nowhere⟩

def ofWord (w : Word) : Token :=
  ⟨.word w, w.text, .nowhere⟩

/-- A selector by a tag. -/
def paragraph : Token :=
  ⟨.lowerName, "p", .nowhere⟩

@[simp] theorem lexical_ofMark (m : Mark) : (ofMark m).Lexical := rfl

@[simp] theorem lexical_ofWord (w : Word) : (ofWord w).Lexical := rfl

@[simp] theorem lexical_paragraph : paragraph.Lexical :=
  lexical_of_first? ⟨.lower, by decide, by decide, by decide⟩

theorem derives_paragraph : (Selector.byTag "p").Derives paragraph :=
  ⟨rfl, rfl⟩

theorem derives_true : (Operand.literal (.boolean true)).Derives (ofWord (.boolean true)) :=
  .boolean rfl

/-- The tokens of an empty block. -/
def braces : List Token :=
  [ofMark .openCurly, ofMark .closeCurly]

@[simp] theorem lexical_braces : ∀ token ∈ braces, token.Lexical := by
  simp [braces]

theorem derives_braces : Outline.BlockDerives [] braces :=
  .mk rfl .nil rfl

/-- With lexical tokens behind them the tokens make something of a sort. -/
def Opens {α : Type} (D : α → List Token → Prop) (ts : List Token) : Prop :=
  ∃ us, (∀ token ∈ us, token.Lexical) ∧ ∃ a, D a (ts ++ us)

section opens

variable {α β : Type} {D : α → List Token → Prop} {E : β → List Token → Prop} {ts : List Token}

theorem Opens.intro {a : α} (us : List Token) (h : D a (ts ++ us))
    (hl : ∀ token ∈ us, token.Lexical) : Opens D ts :=
  ⟨us, hl, a, h⟩

/-- What opens a part opens the whole, behind the tokens in front of that part. -/
theorem Opens.within (h : Opens D ts) (front back : List Token)
    (hl : ∀ token ∈ back, token.Lexical)
    (hw : ∀ a us, D a us → ∃ b, E b (front ++ (us ++ back))) : Opens E (front ++ ts) := by
  obtain ⟨us, hus, a, ha⟩ := h
  obtain ⟨b, hb⟩ := hw a _ ha
  refine ⟨us ++ back, List.forall_mem_append.2 ⟨hus, hl⟩, b, ?_⟩
  simpa only [List.append_assoc] using hb

/-- As `Opens.within`, where nothing stands behind the part. -/
theorem Opens.behind (h : Opens D ts) (front : List Token)
    (hw : ∀ a us, D a us → ∃ b, E b (front ++ us)) : Opens E (front ++ ts) :=
  h.within front [] nofun fun a us ha => by rw [List.append_nil]; exact hw a us ha

end opens

theorem position_of_operand {token : Token} {fault : Diagnostic}
    (h : token.operand = .error fault) : fault.position = token.span.start := by
  unfold operand at h
  split at h
  · split at h <;> cases h
    rfl
  all_goals cases h
  rfl

end Token

theorem Stmt.cause_of_outerFault? {stmt : Stmt} {fault : Diagnostic}
    (h : stmt.outerFault? = some fault) : ∃ text, fault.cause = .misplaced text .insideRule := by
  cases stmt <;> cases h <;> exact ⟨_, rfl⟩

open Token (Opens ofMark ofWord paragraph)

namespace Parse

variable {α β : Type}

/-- A failure at the cursor points at the token that is reached, and what has been passed has the
property. Statements that are in the wrong place do not count. -/
def BlamesAt (p : Parse α) (P : List Token → Prop) (c : Cursor) : Prop :=
  ∀ fault c', p.run c = .error fault c' → (∀ text, fault.cause ≠ .misplaced text .insideRule) →
    ∃ ts, c.ahead = ts ++ c'.ahead ∧ fault.position = c'.current.span.start ∧ P ts

/-- A failure before lexical tokens blames the token that is reached. -/
def Blames (p : Parse α) (P : List Token → Prop) : Prop :=
  ∀ c : Cursor, c.Lexical → BlamesAt p P c

variable {p : Parse α} {P P' : List Token → Prop} {c : Cursor}

theorem BlamesAt.of_ok {a : α} {c' : Cursor} (h : p.run c = .ok a c') : BlamesAt p P c := by
  intro fault c'' hr
  cases h.symm.trans hr

theorem BlamesAt.throw {fault : Diagnostic} (h : fault.position = c.current.span.start)
    (hnil : P []) : BlamesAt (MonadExcept.throw fault : Parse α) P c := by
  intro fault' c' hr _
  cases hr
  exact ⟨[], rfl, h, hnil⟩

theorem BlamesAt.bind {f : α → Parse β} {R : List Token → α → Prop} (hc : c.Lexical)
    (hp : BlamesAt p P c) (hs : Sound p R)
    (hf : ∀ ts a, (∀ token ∈ ts, token.Lexical) → R ts a → Blames (f a) fun us => P (ts ++ us)) :
    BlamesAt (p >>= f) P c := by
  intro fault c' hr hcause
  have hs := hs c
  rw [EStateM.run_bind] at hr
  cases hp' : p.run c with
  | error fault' c₁ =>
    rw [hp'] at hr
    cases hr
    exact hp fault c' hp' hcause
  | ok a c₁ =>
    rw [hp'] at hr hs
    obtain ⟨ts, hts, -, ha⟩ := hs
    have hl := hc
    unfold Cursor.Lexical at hl
    rw [hts, List.forall_mem_append] at hl
    obtain ⟨us, hus, hposition, hP⟩ := hf ts a hl.1 ha c₁ hl.2 fault c' hr hcause
    exact ⟨ts ++ us, by rw [hts, hus, List.append_assoc], hposition, hP⟩

namespace Blames

theorem pure (a : α) : Blames (Pure.pure a) P :=
  fun _ _ => .of_ok rfl

theorem imp (hp : Blames p P) (h : ∀ ts, P ts → P' ts) : Blames p P' := by
  intro c hc fault c' hr hcause
  obtain ⟨ts, hts, hposition, hP⟩ := hp c hc fault c' hr hcause
  exact ⟨ts, hts, hposition, h ts hP⟩

theorem bind {f : α → Parse β} {R : List Token → α → Prop} (hp : Blames p P) (hs : Sound p R)
    (hf : ∀ ts a, (∀ token ∈ ts, token.Lexical) → R ts a → Blames (f a) fun us => P (ts ++ us)) :
    Blames (p >>= f) P :=
  fun c hc => (hp c hc).bind hc hs hf

/-- What is left to do cannot fail. -/
theorem bind_ok {f : α → Parse β} {R : List Token → α → Prop} (hp : Blames p P) (hs : Sound p R)
    (hf : ∀ a c, ∃ b c', (f a).run c = .ok b c') : Blames (p >>= f) P :=
  hp.bind hs fun _ a _ _ c _ =>
    have ⟨_, _, h⟩ := hf a c
    .of_ok h

theorem get_bind {f : Cursor → Parse β} (hf : ∀ c, Blames (f c) P) : Blames (get >>= f) P :=
  fun c hc => hf c c hc

theorem current_bind {f : Token → Parse β}
    (hf : ∀ c : Cursor, c.Lexical → BlamesAt (f c.current) P c) : Blames (current >>= f) P :=
  hf

/-- A token of a kind that may stand there decides what follows. -/
theorem of_kind {kind : Kind} (hk : kind ≠ .ending) {q : Parse α}
    (hp : ∀ token, token.kind = kind → Blames p fun us => P (token :: us)) (hq : Blames q P) :
    Blames (current >>= fun token => if token.kind = kind then advance >>= fun _ => p else q)
      P := by
  refine current_bind fun c hc => ?_
  by_cases h : c.current.kind = kind
  · rw [if_pos h]
    have hadvance : Sound (expect kind) fun ts token => ts = [token] ∧ token.kind = kind :=
      sound_expect hk
    have hr : (expect kind).run c = .ok c.current c.advance.2 := by rw [run_expect, if_pos h]
    have hb : BlamesAt (expect kind >>= fun _ => p) P c := by
      refine (BlamesAt.of_ok hr).bind hc hadvance fun ts token _ ht => ?_
      obtain ⟨rfl, ht⟩ := ht
      exact hp token ht
    intro fault c' he
    refine hb fault c' ?_
    rw [EStateM.run_bind, hr]
    exact he
  · rw [if_neg h]
    exact hq c hc

end Blames

/-! ## Tokens and blocks -/

theorem blames_take {kind : Kind} {complaint : Token → Diagnostic}
    (h : ∀ token, (complaint token).position = token.span.start) (hnil : P []) :
    Blames (take kind complaint) P := by
  refine .current_bind fun c _ => ?_
  by_cases hk : c.current.kind = kind
  · rw [if_pos hk]
    exact .of_ok rfl
  · rw [if_neg hk]
    exact .throw (h _) hnil

theorem blames_expect {kind : Kind} (hnil : P []) : Blames (expect kind) P :=
  blames_take (fun _ => rfl) hnil

theorem blames_single (hnil : P []) : Blames single P := by
  refine .current_bind fun c _ => ?_
  cases h : c.current.operand with
  | error fault => exact .throw (Token.position_of_operand h) hnil
  | ok expr => exact .of_ok rfl

theorem blames_selector (hnil : P []) : Blames selector P := by
  refine .current_bind fun c _ => ?_
  cases c.current.selector? with
  | none => exact .throw rfl hnil
  | some selector => exact .of_ok rfl

theorem blames_moreSelectors : ∀ bound,
    Blames (moreSelectors bound) (Opens Selector.OthersDerive)
  | 0 => .pure _
  | bound + 1 => by
    unfold moreSelectors
    refine .of_kind (by decide) (fun comma hc => ?_) (.pure _)
    have hnil : Opens Selector.OthersDerive [comma] :=
      .intro [paragraph] (.cons hc Token.derives_paragraph .nil) (by simp)
    refine (blames_selector hnil).bind sound_selector ?_
    rintro _ first hl ⟨token, rfl, ht⟩
    have hfirst := (Token.selector?_eq_some_iff (List.forall_mem_singleton.1 hl)).1 ht
    refine Blames.bind_ok ?_ (sound_moreSelectors bound) fun rest c => ⟨_, _, rfl⟩
    refine (blames_moreSelectors bound).imp fun ts h => ?_
    exact h.behind [comma, token] fun others us ho => ⟨_, .cons hc hfirst ho⟩

theorem blames_selectors : Blames selectors (Opens Selector.ListDerives) := by
  unfold selectors
  have hnil : Opens Selector.ListDerives [] :=
    .intro [paragraph] (.cons Token.derives_paragraph .nil) (by simp)
  refine (blames_selector hnil).bind sound_selector ?_
  rintro _ first hl ⟨token, rfl, ht⟩
  have hfirst := (Token.selector?_eq_some_iff (List.forall_mem_singleton.1 hl)).1 ht
  refine .get_bind fun c => Blames.bind_ok ?_ (sound_moreSelectors _) fun rest c => ⟨_, _, rfl⟩
  refine (blames_moreSelectors _).imp fun ts h => ?_
  exact h.behind [token] fun others us ho => ⟨_, .cons hfirst ho⟩

section inner

variable {inner : Parse (List Stmt)} (hi : Blames inner (Opens Outline.BodyDerives))
  (hs : Sound inner fun ts body => Stmt.BodySpells body ts)

include hi hs

theorem blames_block : Blames (block inner) (Opens Outline.BlockDerives) := by
  unfold block
  have hnil : Opens Outline.BlockDerives [] :=
    .intro Token.braces Token.derives_braces Token.lexical_braces
  refine (blames_expect hnil).bind (sound_expect (by decide)) ?_
  rintro _ opening - ⟨rfl, ho⟩
  have hbody : Blames inner fun us => Opens Outline.BlockDerives ([opening] ++ us) :=
    hi.imp fun us h => h.within [opening] [ofMark .closeCurly] (by simp)
      fun body vs hb => ⟨_, .mk ho hb rfl⟩
  refine hbody.bind hs fun ts body hl hb => ?_
  have hend : Opens Outline.BlockDerives ([opening] ++ (ts ++ [])) := by
    have hclose : (ofMark .closeCurly).kind = .mark .closeCurly := rfl
    have hblock := Outline.BlockDerives.mk ho (hb.derives hl) hclose
    exact .intro [ofMark .closeCurly] (by simpa using hblock) (by simp)
  exact (blames_expect hend).bind_ok (sound_expect (by decide)) fun _ c => ⟨_, _, rfl⟩

theorem blames_elseBlock : Blames (elseBlock inner) (Opens Outline.ElseDerives) := by
  unfold elseBlock
  refine .of_kind (by decide) (fun word hw => ?_) (.pure _)
  refine Blames.bind_ok ?_ (sound_block hs) fun body c => ⟨_, _, rfl⟩
  refine (blames_block hi hs).imp fun ts h => ?_
  exact h.behind [word] fun body us hb => ⟨_, .some hw hb⟩

theorem blames_rule : Blames (rule inner) (Opens Outline.Derives) := by
  unfold rule
  refine .current_bind fun c hc => ?_
  have hselectors : Blames selectors (Opens Outline.Derives) :=
    blames_selectors.imp fun ts h =>
      h.within [] Token.braces Token.lexical_braces
        fun selectors us hsel =>
          ⟨_, show Outline.Derives _ (us ++ Token.braces) from .rule hsel Token.derives_braces⟩
  refine (hselectors c hc).bind hc sound_selectors fun ts selectors hl hsel => ?_
  refine Blames.bind_ok ?_ (sound_block hs) fun body c => ⟨_, _, rfl⟩
  refine (blames_block hi hs).imp fun us h => ?_
  exact h.behind ts fun body vs hb => ⟨_, .rule (hsel.derives hl) hb⟩

end inner

end Parse

/-! ## Expressions and statements -/

namespace Grammar

open Parse (Blames BlamesAt Sound)

variable {P : List Token → Prop}

theorem blames_operand (hnil : P []) : Blames standard.operand P := by
  refine .current_bind fun c hc => ?_
  by_cases h : standard.isOperand c.current.kind
  · rw [if_pos h]
    exact Parse.blames_single hnil c hc
  · rw [if_neg h]
    exact .throw rfl hnil

theorem blames_operators : ∀ bound power (left : Expr),
    Blames (standard.operators bound power left) (Opens Row.OthersDerive)
  | 0, _, left => .pure left
  | bound + 1, power, left => by
    unfold operators
    refine .current_bind fun c hc => ?_
    rcases hn : standard.power? c.current.kind with _ | next
    · exact Blames.pure left c hc
    dsimp only
    by_cases hp : next ≤ power
    · rw [if_pos hp]
      exact Blames.pure left c hc
    rw [if_neg hp]
    -- The token that binds is an operator, so taking it off cannot fail.
    obtain ⟨op, hop⟩ : ∃ op, c.current.kind = .operator op := by
      by_contra h
      rw [power?_of_ne_operator (not_exists.1 h)] at hn
      cases hn
    have hoperator := Parse.BlamesAt.of_ok (P := Opens Row.OthersDerive)
      (Parse.run_operator_of_kind hop)
    refine hoperator.bind hc Parse.sound_operator ?_
    rintro _ op - ⟨operator, rfl, ho⟩
    have hnil : Opens Row.OthersDerive [operator] :=
      .intro [ofWord (.boolean true)] (.cons ho Token.derives_true .nil) (by simp)
    refine (blames_operand hnil).bind (sound_operand standard) ?_
    rintro _ first hl ⟨token, rfl, hx⟩
    obtain ⟨x, hderives, -⟩ := Token.derives_of_operand (List.forall_mem_singleton.1 hl) hx
    have hright : Blames (standard.operators bound next first) fun us =>
        Opens Row.OthersDerive ([operator] ++ ([token] ++ us)) :=
      (blames_operators bound next first).imp fun us h =>
        h.behind [operator, token] fun others vs hothers => ⟨_, .cons ho hderives hothers⟩
    refine hright.bind (sound_operators standard bound next first) fun ts right hts hspells => ?_
    refine (blames_operators bound power (left.join op right)).imp fun us h => ?_
    have hrow := (hspells [token] (.operand hx)).derives (List.forall_mem_append.2 ⟨hl, hts⟩)
    generalize right.row = row at hrow
    obtain ⟨hy, hothers⟩ := hrow
    exact h.behind ([operator] ++ ([token] ++ ts))
      fun others vs hothers' => ⟨_, .cons ho hy (hothers.append hothers')⟩

theorem derives_true : (Row.mk (.literal (.boolean true)) []).Derives [ofWord (.boolean true)] :=
  .mk Token.derives_true .nil

theorem blames_expr (power : Power) : Blames (standard.expr power) (Opens Row.Derives) := by
  unfold expr
  have hnil : Opens Row.Derives [] :=
    .intro [ofWord (.boolean true)] derives_true (by simp)
  refine (blames_operand hnil).bind (sound_operand standard) ?_
  rintro _ first hl ⟨token, rfl, hx⟩
  obtain ⟨x, hderives, -⟩ := Token.derives_of_operand (List.forall_mem_singleton.1 hl) hx
  refine .get_bind fun c => (blames_operators _ power first).imp fun us h => ?_
  exact h.behind [token] fun others vs hothers => ⟨_, .mk hderives hothers⟩

theorem opens_stmt : Opens Outline.Derives [] :=
  .intro (paragraph :: Token.braces)
    (show Outline.Derives _ ([paragraph] ++ Token.braces) from
      .rule (.cons Token.derives_paragraph .nil) Token.derives_braces) (by simp [Token.braces])

/-- What ends with an expression and a semicolon. -/
theorem blames_closed (front : List Token) {f : Row → Outline}
    (hf : ∀ {value : Row} {ts : List Token} {semicolon : Token}, value.Derives ts →
      semicolon.kind = .mark .semicolon → (f value).Derives (front ++ (ts ++ [semicolon])))
    (start : Position) (g : Expr → Span → Stmt) :
    Blames (do
      let value ← standard.expr .lowest
      let _ ← Parse.expect (.mark .semicolon)
      let span ← Parse.spanFrom start
      return g value span) fun us => Opens Outline.Derives (front ++ us) := by
  have hsemicolon : (ofMark .semicolon).kind = .mark .semicolon := rfl
  have hvalue : Blames (standard.expr .lowest) fun us => Opens Outline.Derives (front ++ us) :=
    (blames_expr .lowest).imp fun us h => h.within front [ofMark .semicolon] (by simp)
      fun value vs hv => ⟨_, hf hv hsemicolon⟩
  refine hvalue.bind (sound_expr standard .lowest) fun ts value hl hv => ?_
  have hend : Opens Outline.Derives (front ++ (ts ++ [])) :=
    .intro [ofMark .semicolon] (by simpa using hf (hv.derives hl) hsemicolon) (by simp)
  exact (Parse.blames_expect hend).bind_ok (Parse.sound_expect (by decide))
    fun _ c => ⟨_, _, rfl⟩

theorem blames_assignment : Blames standard.assignment (Opens Outline.Derives) := by
  unfold assignment
  refine (Parse.blames_expect opens_stmt).bind (Parse.sound_expect (by decide)) ?_
  rintro _ name - ⟨rfl, hn⟩
  have hnil : Opens Outline.Derives [name] :=
    .intro [ofMark .assign, ofWord (.boolean true), ofMark .semicolon]
      (.assignment hn rfl derives_true rfl) (by simp)
  refine (Parse.blames_take (fun _ => rfl) hnil).bind
    (Parse.sound_take (by decide) fun _ => rfl) ?_
  rintro _ assign - ⟨rfl, ha⟩
  exact blames_closed [name, assign] (fun hv hs => .assignment hn ha hv hs) _
    fun value span => .assignment (.clean span) name.text value

theorem blames_declaration : Blames standard.declaration (Opens Outline.Derives) := by
  unfold declaration
  refine (Parse.blames_expect opens_stmt).bind (Parse.sound_expect (by decide)) ?_
  rintro _ property - ⟨rfl, hp⟩
  have hnil : Opens Outline.Derives [property] :=
    .intro [ofMark .colon, ofWord (.boolean true), ofMark .semicolon]
      (.declaration hp rfl derives_true rfl) (by simp)
  refine (Parse.blames_expect hnil).bind (Parse.sound_expect (by decide)) ?_
  rintro _ colon - ⟨rfl, hc⟩
  exact blames_closed [property, colon] (fun hv hs => .declaration hp hc hv hs) _
    fun value span => .declaration (.clean span) property.text value

section inner

variable {inner : Parse (List Stmt)} (hi : Blames inner (Opens Outline.BodyDerives))
  (hs : Sound inner fun ts body => Stmt.BodySpells body ts)

include hi hs

theorem blames_conditional : Blames (standard.conditional inner) (Opens Outline.Derives) := by
  have hclose : (ofMark .closeBracket).kind = .mark .closeBracket := rfl
  unfold conditional
  refine (Parse.blames_expect opens_stmt).bind (Parse.sound_expect (by decide)) ?_
  rintro _ word - ⟨rfl, hw⟩
  have hnil : Opens Outline.Derives [word] :=
    .intro (ofMark .openBracket :: ofWord (.boolean true) :: ofMark .closeBracket :: Token.braces)
      (.conditional hw rfl derives_true hclose Token.derives_braces .none)
      (by simp [Token.braces])
  refine (Parse.blames_expect hnil).bind (Parse.sound_expect (by decide)) ?_
  rintro _ opening - ⟨rfl, ho⟩
  have hback : ∀ token ∈ ofMark .closeBracket :: Token.braces, token.Lexical := by
    simp [Token.braces]
  have hcondition : Blames (standard.expr .lowest) fun us =>
      Opens Outline.Derives ([word] ++ ([opening] ++ us)) :=
    (blames_expr .lowest).imp fun us h =>
      h.within [word, opening] (ofMark .closeBracket :: Token.braces) hback
        fun condition vs hv => ⟨_, .conditional hw ho hv hclose Token.derives_braces .none⟩
  refine hcondition.bind (sound_expr standard .lowest) fun ts condition hl hv => ?_
  have hcond := hv.derives hl
  have hend : Opens Outline.Derives ([word] ++ ([opening] ++ (ts ++ []))) := by
    have h := Outline.Derives.conditional hw ho hcond hclose Token.derives_braces .none
    exact .intro (ofMark .closeBracket :: Token.braces) (by simpa using h) hback
  refine (Parse.blames_expect hend).bind (Parse.sound_expect (by decide)) ?_
  rintro _ closing - ⟨rfl, hc⟩
  have hblock : Blames (Parse.block inner) fun us =>
      Opens Outline.Derives ([word] ++ ([opening] ++ (ts ++ ([closing] ++ us)))) := by
    refine (Parse.blames_block hi hs).imp fun us h => ?_
    have hopens := h.behind (word :: opening :: (ts ++ [closing])) fun body vs hb =>
      ⟨_, by simpa using Outline.Derives.conditional hw ho hcond hc hb .none⟩
    simpa using hopens
  refine hblock.bind (Parse.sound_block hs) fun us body hl' hb => ?_
  refine Blames.bind_ok ?_ (Parse.sound_elseBlock hs) fun elseBody c => ⟨_, _, rfl⟩
  refine (Parse.blames_elseBlock hi hs).imp fun vs h => ?_
  have hopens := h.behind (word :: opening :: (ts ++ closing :: us)) fun elseBody vs he =>
    ⟨_, by simpa using Outline.Derives.conditional hw ho hcond hc (hb.derives hl') he⟩
  simpa using hopens

theorem blames_stmtOf (form : Form) :
    Blames (standard.stmtOf inner form) (Opens Outline.Derives) := by
  cases form with
  | assignment => exact blames_assignment
  | declaration => exact blames_declaration
  | lower =>
    refine .get_bind fun c => ?_
    split
    · exact blames_declaration
    · exact Parse.blames_rule hi hs
  | rule => exact Parse.blames_rule hi hs
  | conditional => exact blames_conditional hi hs

theorem blames_stmtWith : Blames (standard.stmtWith inner) (Opens Outline.Derives) := by
  refine .current_bind fun c hc => ?_
  cases standard.form? c.current.kind with
  | none => exact .throw rfl opens_stmt
  | some form => exact blames_stmtOf hi hs form c hc

end inner

/-- Behind a statement more of them may follow. -/
theorem opens_body {first : Stmt} {ts us : List Token} (hl : ∀ token ∈ ts, token.Lexical)
    (hfirst : first.Spells ts) (h : Opens Outline.BodyDerives us) :
    Opens Outline.BodyDerives (ts ++ us) :=
  h.behind ts fun _ _ hb => ⟨_, .cons (hfirst.derives hl) hb⟩

theorem opens_body_of_stmt {ts : List Token} (h : Opens Outline.Derives ts) :
    Opens Outline.BodyDerives ts :=
  h.behind [] fun _ _ ho => ⟨_, .single ho⟩

theorem opens_body_nil : Opens Outline.BodyDerives [] :=
  .intro [] .nil nofun

theorem blames_stmts : ∀ bound, Blames (standard.stmts bound) (Opens Outline.BodyDerives)
  | 0 => .pure []
  | bound + 1 => by
    unfold stmts
    refine .current_bind fun c hc => ?_
    by_cases hclose : c.current.kind = .mark .closeCurly
    · rw [if_pos hclose]
      exact Blames.pure [] c hc
    rw [if_neg hclose]
    by_cases hend : c.current.kind = .ending
    · rw [if_pos hend]
      exact .throw rfl opens_body_nil
    rw [if_neg hend]
    have hsound := sound_stmts standard bound
    have hfirst := (blames_stmtWith (blames_stmts bound) hsound).imp fun _ => opens_body_of_stmt
    refine hfirst.bind (sound_stmtWith standard hsound) (fun ts first hl h => ?_) c hc
    refine Blames.bind_ok ?_ hsound fun rest c => ⟨_, _, rfl⟩
    exact (blames_stmts bound).imp fun us => opens_body hl h

theorem blames_stmt : Blames standard.stmt (Opens Outline.Derives) :=
  blames_stmtWith (.get_bind fun _ => blames_stmts _) (.get_bind fun _ => sound_stmts standard _)

theorem blames_outerStmt : Blames standard.outerStmt (Opens Outline.Derives) := by
  refine blames_stmt.bind (sound_stmt standard) fun ts stmt hl h c hc => ?_
  cases ho : stmt.outerFault? with
  | none => exact .of_ok rfl
  | some fault =>
    intro fault' c' hr hcause
    cases hr
    obtain ⟨text, ht⟩ := Stmt.cause_of_outerFault? ho
    exact absurd ht (hcause text)

theorem blames_outerStmts : ∀ bound,
    Blames (standard.outerStmts bound) (Opens Outline.BodyDerives)
  | 0 => .pure []
  | bound + 1 => by
    unfold outerStmts
    refine .current_bind fun c hc => ?_
    by_cases hend : c.current.kind = .ending
    · rw [if_pos hend]
      exact Blames.pure [] c hc
    rw [if_neg hend]
    have hfirst := blames_outerStmt.imp fun _ => opens_body_of_stmt
    refine hfirst.bind (sound_outerStmt standard) (fun ts first hl h => ?_) c hc
    refine Blames.bind_ok ?_ (sound_outerStmts standard bound) fun rest c => ⟨_, _, rfl⟩
    exact (blames_outerStmts bound).imp fun us => opens_body hl h.1

/-- Before a body of statements nothing can be wrong but where one of them stands. -/
theorem outerStmts_of_body : ∀ (bound : Nat) {body : List Outline} {c : Cursor},
    Outline.BodyDerives body c.ahead → c.ahead.length < bound → c.Lexical →
    ∀ fault c', (standard.outerStmts bound).run c = .error fault c' →
      ∃ text, fault.cause = .misplaced text .insideRule
  | 0, _, _, _, hb, _ => absurd hb (Nat.not_lt_zero _)
  | bound + 1, body, c, h, hb, hc => by
    intro fault c' hr
    generalize ht : c.ahead = tokens at h hb
    unfold outerStmts at hr
    rw [EStateM.run_bind, Parse.run_current] at hr
    cases h with
    | nil =>
      dsimp only at hr
      rw [if_pos (Cursor.current_kind_eq_ending_iff.2 ht)] at hr
      cases hr
    | @cons first others ts us h hs =>
      have helse : headKind us ≠ .word .elseWord := by
        cases hs with
        | nil => decide
        | cons h' _ => exact (headKind_of_derives h' _).1
      have hend : c.current.kind ≠ .ending := by
        rw [Cursor.kind_current, ht]
        exact (headKind_of_derives h us).2.2
      obtain ⟨stmt, c₁, hstmt, hahead, -⟩ := complete_stmt h helse c hc ht
      dsimp only at hr
      rw [if_neg hend, EStateM.run_bind, outerStmt, EStateM.run_bind, hstmt] at hr
      dsimp only at hr
      cases ho : stmt.outerFault? with
      | some fault' =>
        rw [ho] at hr
        cases hr
        exact Stmt.cause_of_outerFault? ho
      | none =>
        have hlt : us.length < bound := by
          obtain ⟨token, vs, rfl, -⟩ := exists_form_of_derives h
          simp only [List.cons_append, List.length_cons, List.length_append] at hb
          omega
        have hc₁ : c₁.Lexical := fun token hm => hc token (by
          rw [ht, ← hahead]
          exact List.mem_append_right ts hm)
        rw [ho] at hr
        change ((standard.outerStmts bound) >>= fun rest => pure (stmt :: rest)).run c₁ = _ at hr
        rw [EStateM.run_bind] at hr
        cases hrest : (standard.outerStmts bound).run c₁ with
        | ok rest c₂ =>
          rw [hrest] at hr
          cases hr
        | error fault' c₂ =>
          rw [hrest] at hr
          cases hr
          rw [← hahead] at hs hlt
          exact outerStmts_of_body bound hs hlt hc₁ fault c' hrest

theorem run_outerStmts_of_error {c c' : Cursor} {fault : Diagnostic}
    (h : standard.stylesheet.run c = .error fault c') :
    (standard.outerStmts (c.left + 1)).run c = .error fault c' := by
  rw [run_stylesheet] at h
  cases hr : (standard.outerStmts (c.left + 1)).run c with
  | ok body c₁ =>
    rw [hr] at h
    cases h
  | error fault' c₁ =>
    rw [hr] at h
    cases h
    rfl

theorem blames_stylesheet : Blames standard.stylesheet (Opens Outline.BodyDerives) :=
  fun c hc fault c' h => blames_outerStmts _ c hc fault c' (run_outerStmts_of_error h)

/-- So where anything else is wrong, there was no body of statements. -/
theorem not_bodyDerives_of_run {c c' : Cursor} (hc : c.Lexical) {fault : Diagnostic}
    (h : standard.stylesheet.run c = .error fault c')
    (hcause : ∀ text, fault.cause ≠ .misplaced text .insideRule) (body : List Outline) :
    ¬ Outline.BodyDerives body c.ahead := by
  intro hb
  have hlt : c.ahead.length < c.left + 1 := by rw [c.left_eq]; exact Nat.lt_succ_self _
  obtain ⟨text, ht⟩ := outerStmts_of_body _ hb hlt hc fault c' (run_outerStmts_of_error h)
  exact hcause text ht

end Grammar

namespace Cursor

variable {c : Cursor} {n : Nat}

/-- What is to come is what a number of steps passes, the token before which they end, and what
stands behind. -/
theorem toCome_eq (h : n ≤ c.left) :
    c.toCome = c.ahead.take n ++ (c.forward n).current :: c.toCome.drop (n + 1) := by
  have hhead := (c.forward n).head?_toCome
  rw [toCome_forward h] at hhead
  obtain ⟨behind, hb⟩ := List.head?_eq_some_iff.1 hhead
  have hdrop : c.toCome.drop (n + 1) = behind := by
    rw [← List.drop_drop, hb, List.drop_one, List.tail_cons]
  rw [hdrop, ← take_toCome h, ← hb, List.take_append_drop]

theorem toCome_of_lexical {tokens : List Token} {ending : Token} (file : String)
    (hl : ∀ token ∈ tokens, token.Lexical) (he : ending.kind = .ending) :
    (ofTokens (tokens ++ [ending]) file).toCome = tokens ++ [ending] := by
  have hn : tokens.find? (·.kind = .ending) = none :=
    List.find?_eq_none.2 fun token hm => by simpa using (hl token hm).kind_ne_ending
  rw [toCome, ahead_ofTokens (fun token hm => (hl token hm).kind_ne_ending) he]
  show tokens ++ [((tokens ++ [ending]).find? (·.kind = .ending)).getD _] = _
  rw [List.find?_append, hn]
  simp [he]

theorem agree_ofTokens {ts us before more more' : List Token} {token : Token} {file : String}
    (ht : (ofTokens ts file).toCome = before ++ token :: more)
    (hu : (ofTokens us file).toCome = before ++ token :: more') :
    Agree before.length (ofTokens ts file) (ofTokens us file) := by
  have hlength : (before ++ [token]).length = before.length + 1 := by simp
  refine ⟨rfl, rfl, ?_⟩
  rw [ht, hu, List.append_cons, List.append_cons before token more, List.take_left' hlength,
    List.take_left' hlength]

end Cursor

namespace Stylesheet

open Grammar (standard)

variable {tokens : List Token} {ending : Token} (file : String)

/-- With the token at which reading fails the tokens open no body. What would stand behind it is of
no help, since it is not looked at. -/
theorem not_opens_of_run {before behind : List Token} {token : Token} {fault : Diagnostic}
    (hl : ∀ token ∈ tokens, token.Lexical) (he : ending.kind = .ending)
    (hsplit : tokens ++ [ending] = before ++ token :: behind) (hne : behind ≠ [])
    (hr : ∀ d : Cursor, Cursor.Agree before.length (.ofTokens (tokens ++ [ending]) file) d →
      standard.stylesheet.run d = .error fault (d.forward before.length))
    (hcause : ∀ text, fault.cause ≠ .misplaced text .insideRule) :
    ¬ Opens Outline.BodyDerives (before ++ [token]) := by
  rintro ⟨us, hus, body, hb⟩
  have hbegin : ∀ t ∈ before ++ [token], t.Lexical := by
    obtain ⟨more, last, rfl⟩ := (List.eq_nil_or_concat behind).resolve_left hne
    rw [List.concat_eq_append, ← List.cons_append, ← List.append_assoc] at hsplit
    have htokens := (List.append_inj' hsplit rfl).1
    rw [htokens, List.append_cons, List.forall_mem_append] at hl
    exact hl.1
  have hl' : ∀ t ∈ before ++ [token] ++ us, t.Lexical := List.forall_mem_append.2 ⟨hbegin, hus⟩
  have hsplit' : before ++ [token] ++ us ++ [ending] = before ++ token :: (us ++ [ending]) := by
    simp
  have hagree := Cursor.agree_ofTokens
    ((Cursor.toCome_of_lexical file hl he).trans hsplit)
    ((Cursor.toCome_of_lexical file hl' he).trans hsplit')
  obtain ⟨hahead, hc⟩ := ahead_and_lexical file hl' he
  refine Grammar.not_bodyDerives_of_run hc (hr _ hagree) hcause body ?_
  rwa [hahead]

/-- What is wrong with the tokens is wrong with the first token with which they open no body of
statements, or where that is none, with the end. -/
theorem ofTokens_error_first (hl : ∀ token ∈ tokens, token.Lexical) (he : ending.kind = .ending)
    {fault : Diagnostic} (h : ofTokens (tokens ++ [ending]) file = .error fault)
    (hcause : ∀ text, fault.cause ≠ .misplaced text .insideRule) :
    ∃ before token behind, tokens ++ [ending] = before ++ token :: behind
      ∧ fault.position = token.span.start
      ∧ Opens Outline.BodyDerives before
      ∧ (behind ≠ [] → ¬ Opens Outline.BodyDerives (before ++ [token]))
      ∧ (behind = [] → ∀ body, ¬ Outline.BodyDerives body before) := by
  obtain ⟨hahead, hc⟩ := ahead_and_lexical file hl he
  have htoCome := Cursor.toCome_of_lexical file hl he
  obtain ⟨n, hn, result, hr, hd⟩ := standard.exists_run_stylesheet Grammar.lowerIsName_standard
    (.ofTokens (tokens ++ [ending]) file)
  obtain rfl : result = .error fault := (ofTokens_of_run hr).symm.trans h
  obtain ⟨ts, hts, hposition, hopens⟩ := Grammar.blames_stylesheet _ hc fault _ hr hcause
  -- What has been passed are the first tokens, as many as there were steps.
  rw [Cursor.ahead_forward] at hts
  obtain rfl := List.append_cancel_right ((List.take_append_drop n _).trans hts)
  have hsplit := Cursor.toCome_eq hn
  rw [Cursor.left_eq] at hn
  rw [htoCome] at hsplit
  rw [hahead] at hn hsplit hopens
  have hlength : (tokens.take n).length = n := List.length_take_of_le hn
  refine ⟨_, _, _, hsplit, hposition, hopens, fun hne => ?_, fun hnil body hb => ?_⟩
  · refine not_opens_of_run file hl he hsplit hne ?_ hcause
    rw [hlength]
    exact hd
  · have hge : tokens.length ≤ n := by
      have hlen := congrArg List.length hnil
      simp only [List.length_drop, List.length_append, List.length_singleton, List.length_nil]
        at hlen
      omega
    refine Grammar.not_bodyDerives_of_run hc hr hcause body ?_
    rwa [List.take_of_length_le hge, ← hahead] at hb

/-- `p { fill: #ffffff #000000; }` is wrong at the second color, and not before it. -/
theorem ofTokens_error_first_color :
    let token (kind : Kind) (text : String) (start : Nat) : Token :=
      .ofPiece "a.icss" start kind text.toList
    let before := [token .lowerName "p" 0, token (.mark .openCurly) "\x7b" 2,
      token .lowerName "fill" 4, token (.mark .colon) ":" 8, token .color "#ffffff" 10]
    let second := token .color "#000000" 18
    let behind := [token (.mark .semicolon) ";" 25, token (.mark .closeCurly) "\x7d" 27]
    let ending := Token.ending ⟨28, "a.icss"⟩
    (∀ token ∈ before ++ second :: behind, token.Lexical)
      ∧ ∃ fault, ofTokens (before ++ second :: behind ++ [ending]) "a.icss" = .error fault
        ∧ (∀ text, fault.cause ≠ .misplaced text .insideRule)
        ∧ fault.position = second.span.start
        ∧ Opens Outline.BodyDerives before
        ∧ ¬ Opens Outline.BodyDerives (before ++ [second]) := by
  intro token before second behind ending
  let tokens := before ++ second :: behind
  have hl : ∀ token ∈ tokens, token.Lexical := by
    have h : ∀ token ∈ tokens, ∃ shape ∈ Shape.all,
        Lexeme.first? token.text.toList = some ⟨shape, token.text.toList, []⟩
          ∧ shape.kind? token.text.toList = some token.kind := by decide +kernel
    exact fun token ht => Token.lexical_of_first? (h token ht)
  let fault : Diagnostic :=
    ⟨.misplaced "#000000" (.kind (.mark .semicolon)), second.span.start⟩
  have hf : ofTokens (tokens ++ [ending]) "a.icss" = .error fault := rfl
  have hcause : ∀ text, fault.cause ≠ .misplaced text .insideRule := by
    intro text h
    injection h with _ h
    cases h
  obtain ⟨front, wrong, rest, hsplit, hposition, hopens, hnot, -⟩ :=
    ofTokens_error_first "a.icss" hl rfl hf hcause
  have hwhole : before ++ second :: (behind ++ [ending]) = front ++ wrong :: rest := hsplit
  -- The tokens start at places of their own, so the wrong one is the second color.
  have hwrong : (tokens ++ [ending])[front.length]? = some wrong := by simp [hsplit]
  have hlt : front.length < (tokens ++ [ending]).length := by simp [hsplit]
  have hfive : ∀ n < (tokens ++ [ending]).length,
      (tokens ++ [ending])[n]?.map (·.span.start) = some second.span.start → n = 5 := by decide
  have hlength : front.length = 5 :=
    hfive _ hlt (by rw [hwrong, Option.map_some, ← hposition])
  obtain rfl : before = front := (List.append_inj hwhole hlength.symm).1
  obtain ⟨rfl, rfl⟩ := List.cons.inj (List.append_cancel_left hwhole)
  exact ⟨hl, fault, hf, hcause, rfl, hopens, hnot nofun⟩

end Stylesheet

end StyleLang
