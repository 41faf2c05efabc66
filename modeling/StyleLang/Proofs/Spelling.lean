import StyleLang.Proofs.Terminals

/-!
# The tokens of a tree

`Outline.Derives` says which tokens are a statement of some outline. `Stmt.Spells` says of which
tokens a tree is made, with the places of its nodes: each stands from the start of its first token
to the stop of its last (`Stmt.note_of_spells`). Of lexical tokens a tree spells those that its
outline derives (`Stmt.Spells.derives`).
-/

namespace StyleLang

/-- From the start of the first token to the stop of the last. -/
def Span.cover (ts : List Token) : Span :=
  ⟨(ts.head?.map (·.span.start)).getD .nowhere, (ts.getLast?.map (·.span.stop)).getD .nowhere⟩

namespace Span

variable {ts us : List Token}

theorem start_cover_append (h : ts ≠ []) : (cover (ts ++ us)).start = (cover ts).start := by
  cases ts with
  | nil => exact absurd rfl h
  | cons => rfl

theorem stop_cover_append (h : us ≠ []) : (cover (ts ++ us)).stop = (cover us).stop := by
  rw [cover, cover, List.getLast?_append, List.getLast?_eq_some_getLast h]
  rfl

/-- A span that is taken from the first token up to what has been passed last. -/
theorem cover_eq {start : Position} (hs : ∀ t ∈ (ts ++ us).head?, start = t.span.start)
    (h : us ≠ []) : cover (ts ++ us) = ⟨start, (cover us).stop⟩ := by
  obtain ⟨first, rest, hf⟩ := List.exists_cons_of_ne_nil (List.append_ne_nil_of_right_ne_nil ts h)
  rw [← stop_cover_append h, hs first (by rw [hf]; rfl), hf]
  rfl

end Span

/-! ## The relation -/

/-- The expression is made of the tokens. -/
inductive Expr.Spells : Expr → List Token → Prop
  | operand {token : Token} {expr : Expr} : token.operand = .ok expr → Spells expr [token]
  | binary {left right : Expr} {op : Operator} {operator : Token} {ts us : List Token} :
      left.Spells ts → operator.kind = .operator op → right.Spells us →
      Spells (.binary (.clean (.cover (ts ++ operator :: us))) op left right) (ts ++ operator :: us)

namespace Selector

/-- The selectors behind the first are made of the tokens. -/
inductive OthersSpell : List Selector → List Token → Prop
  | nil : OthersSpell [] []
  | cons {comma token : Token} {selector : Selector} {others : List Selector}
      {ts : List Token} :
      comma.kind = .mark .comma → token.selector? = some selector → OthersSpell others ts →
      OthersSpell (selector :: others) (comma :: token :: ts)

inductive ListSpells : List Selector → List Token → Prop
  | cons {token : Token} {selector : Selector} {others : List Selector} {ts : List Token} :
      token.selector? = some selector → OthersSpell others ts →
      ListSpells (selector :: others) (token :: ts)

end Selector

namespace Stmt

mutual

/-- The statement is made of the tokens. -/
inductive Spells : Stmt → List Token → Prop
  | assignment {name assign semicolon : Token} {value : Expr} {ts : List Token} :
      name.kind = .capitalName → assign.kind = .mark .assign → value.Spells ts →
      semicolon.kind = .mark .semicolon →
      Spells (.assignment (.clean (.cover (name :: assign :: (ts ++ [semicolon])))) name.text value)
        (name :: assign :: (ts ++ [semicolon]))
  | declaration {property colon semicolon : Token} {value : Expr} {ts : List Token} :
      property.kind = .lowerName → colon.kind = .mark .colon → value.Spells ts →
      semicolon.kind = .mark .semicolon →
      Spells (.declaration (.clean (.cover (property :: colon :: (ts ++ [semicolon]))))
        property.text value) (property :: colon :: (ts ++ [semicolon]))
  | rule {selectors : List Selector} {body : List Stmt} {ts us : List Token} :
      Selector.ListSpells selectors ts → BlockSpells body us →
      Spells (.rule (.clean (.cover (ts ++ us))) selectors body) (ts ++ us)
  | conditional {word opening closing : Token} {condition : Expr} {body : List Stmt}
      {elseBody : Option (List Stmt)} {ts us vs : List Token} :
      word.kind = .word .ifWord → opening.kind = .mark .openBracket → condition.Spells ts →
      closing.kind = .mark .closeBracket → BlockSpells body us → ElseSpells elseBody vs →
      Spells (.conditional (.clean (.cover (word :: opening :: (ts ++ closing :: (us ++ vs)))))
        condition body elseBody) (word :: opening :: (ts ++ closing :: (us ++ vs)))

/-- The block is made of the tokens, its brackets included. -/
inductive BlockSpells : List Stmt → List Token → Prop
  | mk {opening closing : Token} {body : List Stmt} {ts : List Token} :
      opening.kind = .mark .openCurly → BodySpells body ts →
      closing.kind = .mark .closeCurly → BlockSpells body (opening :: (ts ++ [closing]))

inductive ElseSpells : Option (List Stmt) → List Token → Prop
  | none : ElseSpells none []
  | some {word : Token} {body : List Stmt} {ts : List Token} :
      word.kind = .word .elseWord → BlockSpells body ts → ElseSpells (some body) (word :: ts)

inductive BodySpells : List Stmt → List Token → Prop
  | nil : BodySpells [] []
  | cons {first : Stmt} {others : List Stmt} {ts us : List Token} :
      first.Spells ts → BodySpells others us → BodySpells (first :: others) (ts ++ us)

end

end Stmt

/-! ## The places of nodes -/

variable {ts us : List Token}

theorem Token.note_of_operand {token : Token} {expr : Expr} (h : token.operand = .ok expr) :
    expr.note = .clean token.span := by
  unfold operand at h
  split at h
  · split at h <;> cases h
    rfl
  all_goals cases h
  all_goals rfl

theorem Token.ne_binary_of_operand {token : Token} {note : Note} {op : Operator}
    {left right : Expr} : token.operand ≠ .ok (.binary note op left right) := by
  unfold operand
  split
  · split <;> exact nofun
  all_goals exact nofun

theorem Expr.note_of_spells {e : Expr} (h : e.Spells ts) : e.note = .clean (.cover ts) := by
  cases h with
  | operand h => exact Token.note_of_operand h
  | binary => rfl

theorem Expr.ne_nil_of_spells {e : Expr} (h : e.Spells ts) : ts ≠ [] := by
  cases h <;> simp

theorem Stmt.note_of_spells {s : Stmt} (h : s.Spells ts) : s.note = .clean (.cover ts) := by
  cases h <;> rfl

theorem Stmt.ne_nil_of_blockSpells {body : List Stmt} (h : BlockSpells body ts) : ts ≠ [] := by
  cases h
  simp

theorem Stmt.ne_nil_of_spells {s : Stmt} (h : s.Spells ts) : ts ≠ [] := by
  cases h with
  | rule hs _ => cases hs; simp
  | _ => simp

/-! ## Outlines -/

namespace Row

variable {r s : List (Operator × Operand)} {ts us : List Token}

theorem OthersDerive.append (hr : OthersDerive r ts) (hs : OthersDerive s us) :
    OthersDerive (r ++ s) (ts ++ us) := by
  induction hr with
  | nil => exact hs
  | cons ho hx _ ih => exact .cons ho hx ih

end Row

theorem Stmt.outline_conditional {note : Note} {condition : Expr} {body : List Stmt}
    {elseBody : Option (List Stmt)} :
    (conditional note condition body elseBody).outline
      = .conditional condition.row (bodyOutline body) (elseBody.map bodyOutline) := by
  cases elseBody <;> rfl

theorem Expr.Spells.derives {e : Expr} (h : e.Spells ts) (hl : ∀ token ∈ ts, token.Lexical) :
    e.row.Derives ts := by
  induction h with
  | operand h =>
    obtain ⟨x, hx, hr⟩ := Token.derives_of_operand (hl _ List.mem_cons_self) h
    rw [hr]
    exact .mk hx .nil
  | @binary left right op operator ts us _ ho _ ihl ihr =>
    rw [List.forall_mem_append, List.forall_mem_cons] at hl
    have hleft := ihl hl.1
    have hright := ihr hl.2.2
    rw [row]
    generalize left.row = l at hleft ⊢
    generalize right.row = r at hright ⊢
    obtain ⟨hx, hothers⟩ := hleft
    obtain ⟨hy, hothers'⟩ := hright
    exact .mk hx (hothers.append (.cons ho hy hothers'))

theorem Selector.OthersSpell.derives {selectors : List Selector} (h : OthersSpell selectors ts)
    (hl : ∀ token ∈ ts, token.Lexical) : OthersDerive selectors ts := by
  induction h with
  | nil => exact .nil
  | cons hc hs _ ih =>
    rw [List.forall_mem_cons, List.forall_mem_cons] at hl
    exact .cons hc ((Token.selector?_eq_some_iff hl.2.1).1 hs) (ih hl.2.2)

theorem Selector.ListSpells.derives {selectors : List Selector} (h : ListSpells selectors ts)
    (hl : ∀ token ∈ ts, token.Lexical) : ListDerives selectors ts := by
  obtain ⟨hs, ho⟩ := h
  rw [List.forall_mem_cons] at hl
  exact .cons ((Token.selector?_eq_some_iff hl.1).1 hs) (ho.derives hl.2)

namespace Stmt

mutual

/-- Of lexical tokens a tree spells those that its outline derives. -/
theorem Spells.derives {s : Stmt} {ts : List Token} (hl : ∀ token ∈ ts, token.Lexical) :
    s.Spells ts → s.outline.Derives ts
  | .assignment hn ha hv hs => by
    simp only [List.forall_mem_cons, List.forall_mem_append] at hl
    exact .assignment hn ha (hv.derives hl.2.2.1) hs
  | .declaration hp hc hv hs => by
    simp only [List.forall_mem_cons, List.forall_mem_append] at hl
    exact .declaration hp hc (hv.derives hl.2.2.1) hs
  | .rule hs hb => by
    rw [List.forall_mem_append] at hl
    exact .rule (hs.derives hl.1) (BlockSpells.derives hl.2 hb)
  | .conditional hw ho hcond hc hb he => by
    simp only [List.forall_mem_cons, List.forall_mem_append] at hl
    rw [outline_conditional]
    exact .conditional hw ho (hcond.derives hl.2.2.1) hc
      (BlockSpells.derives hl.2.2.2.2.1 hb) (ElseSpells.derives hl.2.2.2.2.2 he)

theorem BlockSpells.derives {body : List Stmt} {ts : List Token}
    (hl : ∀ token ∈ ts, token.Lexical) :
    BlockSpells body ts → Outline.BlockDerives (bodyOutline body) ts
  | .mk ho hb hc => by
    simp only [List.forall_mem_cons, List.forall_mem_append] at hl
    exact .mk ho (BodySpells.derives hl.2.1 hb) hc

theorem ElseSpells.derives {body : Option (List Stmt)} {ts : List Token}
    (hl : ∀ token ∈ ts, token.Lexical) :
    ElseSpells body ts → Outline.ElseDerives (body.map bodyOutline) ts
  | .none => .none
  | .some hw hb => by
    rw [List.forall_mem_cons] at hl
    exact .some hw (BlockSpells.derives hl.2 hb)

theorem BodySpells.derives {body : List Stmt} {ts : List Token}
    (hl : ∀ token ∈ ts, token.Lexical) :
    BodySpells body ts → Outline.BodyDerives (bodyOutline body) ts
  | .nil => .nil
  | .cons h ho => by
    rw [List.forall_mem_append] at hl
    exact .cons (Spells.derives hl.1 h) (BodySpells.derives hl.2 ho)

end

end Stmt

end StyleLang
