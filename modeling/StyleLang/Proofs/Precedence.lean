import Mathlib.Data.List.Forall2
import StyleLang.Proofs.ParseSound

/-!
# How rows of operands are joined

Operands with operators between them are read as one expression, which can be told from the row:
each run of factors is joined by `*` from left to right, and the terms that this makes are joined
by `+` and `-` from left to right (`Expr.total`). `Grammar.joins_of_spells` says so of the tokens of
any row, with the places of all nodes, and for each power how many of the tokens are passed.

An operator loop is taken apart by what stands in front of it: an operator that is too weak stops
it (`Grammar.operators_stop`), factors are joined one by one (`Grammar.operators_factors`), and a
weaker operator waits for the factors behind it (`Grammar.operators_terms`). What comes of a row
is its tree, up to places (`Row.mapNote_total`).
-/

namespace StyleLang

/-! ## Rows and their trees -/

namespace Expr

/-- Joins operands to the first, from left to right. -/
def chain (first : Expr) (others : List (Operator × Expr)) : Expr :=
  others.foldl (fun left (op, x) => left.join op x) first

/-- The operands in front that are joined by `*`. -/
def factors (others : List (Operator × Expr)) : List (Operator × Expr) :=
  others.takeWhile (·.1 = .multiply)

/-- The operands from the first `+` or `-` on. -/
def addends (others : List (Operator × Expr)) : List (Operator × Expr) :=
  others.dropWhile (·.1 = .multiply)

/-- The products that begin behind `+` and `-`, each with the operator before it. -/
def terms : List (Operator × Expr) → List (Operator × Expr)
  | [] => []
  | (op, x) :: others => (op, chain x (factors others)) :: terms (addends others)
termination_by others => others.length
decreasing_by
  exact Nat.lt_succ_of_le (List.dropWhile_sublist _).length_le

/-- The sums and differences of the products in a row. -/
def total (first : Expr) (others : List (Operator × Expr)) : Expr :=
  chain (chain first (factors others)) (terms (addends others))

/-- Operands behind the first are made of the tokens, each behind an operator. -/
inductive OthersSpell : List (Operator × Expr) → List Token → Prop
  | nil : OthersSpell [] []
  | cons {operator operand : Token} {op : Operator} {x : Expr} {others : List (Operator × Expr)}
      {ts : List Token} :
      operator.kind = .operator op → operand.operand = .ok x → OthersSpell others ts →
      OthersSpell ((op, x) :: others) (operator :: operand :: ts)

end Expr

/-- A leaf of an expression, or an operator between two parts of it. -/
inductive Symbol where
  | leaf (expr : Expr)
  | operator (operator : Operator)

/-- The token is read as the symbol. -/
inductive Symbol.Reads : Symbol → Token → Prop
  | leaf {token : Token} {x : Expr} : token.operand = .ok x → Reads (.leaf x) token
  | operator {token : Token} {op : Operator} : token.kind = .operator op →
      Reads (.operator op) token

/-- The leaves of an expression and the operators between them, from left to right. -/
def Expr.symbols : Expr → List Symbol
  | literal note value => [.leaf (.literal note value)]
  | var note name => [.leaf (.var note name)]
  | binary _ op left right => left.symbols ++ .operator op :: right.symbols

namespace Expr

variable {others : List (Operator × Expr)} {ts : List Token}

theorem factors_append_addends (others : List (Operator × Expr)) :
    factors others ++ addends others = others :=
  List.takeWhile_append_dropWhile

theorem eq_multiply_of_mem_factors {pair : Operator × Expr} (h : pair ∈ factors others) :
    pair.1 = .multiply := by
  simpa using List.all_eq_true.1 List.all_takeWhile pair h

theorem ne_multiply_of_mem_head?_addends {pair : Operator × Expr}
    (h : pair ∈ (addends others).head?) : pair.1 ≠ .multiply := by
  have hn := List.head?_dropWhile_not (fun pair : Operator × Expr => decide (pair.1 = .multiply))
    others
  rw [show others.dropWhile _ = addends others from rfl, Option.mem_def.1 h] at hn
  simpa using hn

theorem OthersSpell.length_eq (h : OthersSpell others ts) : ts.length = 2 * others.length := by
  induction h with
  | nil => rfl
  | cons _ _ _ ih => simp only [List.length_cons, ih]; omega

/-- Operands in front are made of the tokens in front. -/
theorem OthersSpell.append_inv : ∀ {as : List (Operator × Expr)} {bs : List (Operator × Expr)}
    {ts : List Token}, OthersSpell (as ++ bs) ts →
    OthersSpell as (ts.take (2 * as.length)) ∧ OthersSpell bs (ts.drop (2 * as.length))
  | [], _, _, h => ⟨.nil, h⟩
  | _ :: _, _, _, .cons ho hx h => ⟨.cons ho hx h.append_inv.1, h.append_inv.2⟩

/-! ## Leaves and operators in order -/

/-- The symbols of operands behind a first one. -/
def symbolsOf (others : List (Operator × Expr)) : List Symbol :=
  others.flatMap fun (op, x) => .operator op :: x.symbols

theorem symbolsOf_cons (op : Operator) (x : Expr) (others : List (Operator × Expr)) :
    symbolsOf ((op, x) :: others) = .operator op :: (x.symbols ++ symbolsOf others) :=
  rfl

theorem symbolsOf_split (others : List (Operator × Expr)) :
    symbolsOf others = symbolsOf (factors others) ++ symbolsOf (addends others) := by
  rw [symbolsOf, symbolsOf, symbolsOf, ← List.flatMap_append, factors_append_addends]

theorem symbols_chain : ∀ (others : List (Operator × Expr)) (first : Expr),
    (chain first others).symbols = first.symbols ++ symbolsOf others
  | [], first => (List.append_nil _).symm
  | (op, x) :: others, first => by
    have ih := symbols_chain others (first.join op x)
    have hj : (first.join op x).symbols = first.symbols ++ .operator op :: x.symbols := rfl
    rw [chain, List.foldl_cons, ← chain, ih, hj, symbolsOf_cons, List.append_assoc,
      List.cons_append]

theorem symbolsOf_terms (others : List (Operator × Expr)) :
    symbolsOf (terms others) = symbolsOf others := by
  induction others using terms.induct with
  | case1 => rw [terms]
  | case2 op x others ih =>
    rw [terms, symbolsOf_cons, symbolsOf_cons, ih, symbols_chain, symbolsOf_split others,
      List.append_assoc]

/-- Joining a row loses, adds and moves nothing. -/
theorem symbols_total (first : Expr) (others : List (Operator × Expr)) :
    (total first others).symbols = first.symbols ++ symbolsOf others := by
  rw [total, symbols_chain, symbols_chain, symbolsOf_terms, symbolsOf_split others,
    List.append_assoc]

theorem symbols_of_operand {token : Token} {x : Expr} (h : token.operand = .ok x) :
    x.symbols = [.leaf x] := by
  cases x with
  | literal | var => rfl
  | binary => exact absurd h Token.ne_binary_of_operand

/-- The tokens are read as the symbols of the row one by one. -/
theorem OthersSpell.reads (h : OthersSpell others ts) :
    List.Forall₂ Symbol.Reads (symbolsOf others) ts := by
  induction h with
  | nil => exact .nil
  | cons ho hx _ ih =>
    rw [symbolsOf_cons, symbols_of_operand hx]
    exact .cons (.operator ho) (.cons (.leaf hx) ih)

end Expr

/-! ## The tree of a row -/

/-- The expressions are the operands of a row, each wherever it stands. -/
def Row.OthersPlaced : List (Operator × Operand) → List (Operator × Expr) → Prop :=
  List.Forall₂ fun (op, x) (op', e) => op = op' ∧ e.mapNote Note.unplaced = x.expr

theorem Row.OthersDerive.exists_spells {others : List (Operator × Operand)} {ts : List Token}
    (h : OthersDerive others ts) (hl : ∀ token ∈ ts, token.Lexical) :
    ∃ es, Expr.OthersSpell es ts ∧ OthersPlaced others es := by
  induction h with
  | nil => exact ⟨[], .nil, .nil⟩
  | cons ho hx _ ih =>
    simp only [List.forall_mem_cons] at hl
    obtain ⟨e, he, hex⟩ := hx.operand_eq hl.2.1
    obtain ⟨es, hs, hes⟩ := ih hl.2.2
    exact ⟨_ :: es, .cons ho he hs, .cons ⟨rfl, hex⟩ hes⟩

namespace Sum

def unplaced (sum : Sum) : Sum :=
  ⟨sum.before.map fun (e, op) => (e.mapNote Note.unplaced, op), sum.term.mapNote Note.unplaced⟩

theorem total_unplaced (sum : Sum) : sum.unplaced.total = sum.total.mapNote Note.unplaced := by
  obtain ⟨_ | ⟨before, op⟩, term⟩ := sum
  · rfl
  · exact (Expr.join_mapNote_unplaced before op term).symm

/-- Pushing operands one by one comes to joining factors first. -/
theorem total_foldl_push_unplaced {others : List (Operator × Operand)}
    {es : List (Operator × Expr)} (h : Row.OthersPlaced others es) : ∀ sum : Sum,
    (others.foldl push sum.unplaced).total
      = (Expr.chain (total ⟨sum.before, Expr.chain sum.term (Expr.factors es)⟩)
          (Expr.terms (Expr.addends es))).mapNote Note.unplaced := by
  induction h with
  | nil =>
    intro sum
    show sum.unplaced.total = (Expr.chain sum.total (Expr.terms [])).mapNote Note.unplaced
    rw [Expr.terms, total_unplaced]
    rfl
  | @cons pair pair' others es hp _ ih =>
    obtain ⟨op, x⟩ := pair
    obtain ⟨op', e⟩ := pair'
    obtain ⟨rfl, hx⟩ := hp
    intro sum
    -- A factor goes to the last term of the sum so far, any other operand begins a new one.
    have hfactor : sum.unplaced.push (.multiply, x)
        = unplaced ⟨sum.before, sum.term.join .multiply e⟩ := by
      rw [push, unplaced, unplaced, Expr.join_mapNote_unplaced, hx]
    have hterm (hop : op.power ≤ .additive) : sum.unplaced.push (op, x)
        = unplaced ⟨some (sum.total, op), e⟩ := by
      rw [push_of_power hop, total_unplaced, unplaced, hx]
      rfl
    rw [List.foldl_cons]
    cases op with
    | multiply =>
      rw [hfactor, ih]
      rfl
    | add | subtract =>
      rw [hterm (by decide), ih]
      show _ = (Expr.chain sum.total (Expr.terms ((_, e) :: es))).mapNote Note.unplaced
      rw [Expr.terms]
      rfl

end Sum

/-- The tree of a row is how its operands are joined, wherever these stand. -/
theorem Row.mapNote_total {first : Operand} {e : Expr} {others : List (Operator × Operand)}
    {es : List (Operator × Expr)} (hf : e.mapNote Note.unplaced = first.expr)
    (h : OthersPlaced others es) :
    (Expr.total e es).mapNote Note.unplaced = tree ⟨first, others⟩ := by
  rw [tree, ← hf]
  exact (Sum.total_foldl_push_unplaced h (.ofTerm e)).symm

/-! ## Tokens passed -/

/-- The kind of the first token, an end behind the last. -/
def headKind (ts : List Token) : Kind :=
  (ts.head?.map Token.kind).getD .ending

@[simp] theorem headKind_cons (token : Token) (ts : List Token) :
    headKind (token :: ts) = token.kind := rfl

namespace Cursor

theorem kind_current (cursor : Cursor) : cursor.current.kind = headKind cursor.ahead := by
  cases h : cursor.ahead with
  | nil => exact current_kind_eq_ending_iff.2 h
  | cons token ts => rw [current_of_ahead h, headKind_cons]

/-- The cursor a number of tokens further on. -/
def forward (cursor : Cursor) : Nat → Cursor
  | 0 => cursor
  | n + 1 => cursor.advance.2.forward n

theorem forward_forward (cursor : Cursor) : ∀ m n : Nat,
    (cursor.forward m).forward n = cursor.forward (m + n)
  | 0, n => by rw [Nat.zero_add]; rfl
  | m + 1, n => by
    rw [Nat.succ_add_eq_add_succ, Nat.add_succ]
    exact forward_forward cursor.advance.2 m n

theorem ahead_forward (cursor : Cursor) : ∀ n : Nat,
    (cursor.forward n).ahead = cursor.ahead.drop n
  | 0 => rfl
  | n + 1 => by
    rw [forward, ahead_forward cursor.advance.2 n]
    show (cursor.ahead.tail).drop n = _
    rw [List.drop_tail]

theorem ahead_forward_append {cursor : Cursor} {ts rest : List Token}
    (h : cursor.ahead = ts ++ rest) {n : Nat} (hn : n = ts.length) :
    (cursor.forward n).ahead = rest := by
  rw [ahead_forward, h, hn, List.drop_left]

end Cursor

theorem Expr.OthersSpell.length_le_left {others : List (Operator × Expr)} {ts rest : List Token}
    (h : OthersSpell others ts) {cursor : Cursor} (hc : cursor.ahead = ts ++ rest) :
    others.length ≤ cursor.left := by
  have hlength := h.length_eq
  rw [cursor.left_eq, hc, List.length_append]
  omega

namespace Parse

theorem run_operator_of_kind {cursor : Cursor} {op : Operator}
    (h : cursor.current.kind = .operator op) : operator.run cursor = .ok op (cursor.forward 1) := by
  unfold operator
  rw [EStateM.run_bind, run_advance]
  simp only [h]
  rfl

end Parse

theorem Token.isOperand_of_operand {token : Token} {x : Expr} (h : token.operand = .ok x) :
    Grammar.standard.isOperand token.kind = true := by
  unfold operand at h
  split at h
  · rename_i hk; rw [hk]; rfl
  · rename_i hk; rw [hk]; rfl
  · rename_i hk; rw [hk]; rfl
  · rename_i hk; rw [hk]; rfl
  · cases h

namespace Grammar

variable {cursor : Cursor}

theorem run_operand {x : Expr} (h : cursor.current.operand = .ok x) :
    standard.operand.run cursor = .ok x (cursor.forward 1) := by
  unfold operand
  rw [EStateM.run_bind, Parse.run_current]
  dsimp only
  rw [if_pos (Token.isOperand_of_operand h)]
  unfold Parse.single
  rw [EStateM.run_bind, Parse.run_current]
  simp only [h]
  rfl

/-! ## Operator loops -/

theorem standard_power? : ∀ op : Operator, standard.power? (.operator op) = some op.power
  | .add | .subtract | .multiply => rfl

/-- The loop is over before anything but an operator that binds more strongly. -/
theorem operators_stop {power : Power}
    (h : ∀ next ∈ standard.power? cursor.current.kind, next ≤ power) (left : Expr) :
    ∀ bound, (standard.operators bound power left).run cursor = .ok left cursor
  | 0 => rfl
  | bound + 1 => by
    unfold operators
    rw [EStateM.run_bind, Parse.run_current]
    dsimp only
    rcases hn : standard.power? cursor.current.kind with _ | next
    · rfl
    · dsimp only
      rw [if_pos (h next hn)]
      rfl

theorem operators_multiplicative (left : Expr) (bound : Nat) :
    (standard.operators bound .multiplicative left).run cursor = .ok left cursor := by
  refine operators_stop (fun next _ => ?_) left bound
  cases next <;> decide

/-- An operator that binds strongly enough waits for what binds more strongly behind it. -/
theorem operators_step {operator operand : Token} {op : Operator} {x : Expr} {power : Power}
    {ts : List Token} (hc : cursor.ahead = operator :: operand :: ts)
    (ho : operator.kind = .operator op) (hx : operand.operand = .ok x) (hp : ¬ op.power ≤ power)
    (left : Expr) (bound : Nat) :
    (standard.operators (bound + 1) power left).run cursor
      = (do
          let right ← standard.operators bound op.power x
          standard.operators bound power (left.join op right)).run (cursor.forward 2) := by
  have hk : cursor.current.kind = .operator op := by rw [Cursor.current_of_ahead hc, ho]
  have hx' : (cursor.forward 1).current.operand = .ok x := by
    show cursor.advance.2.current.operand = _
    rw [Cursor.current_of_ahead (Cursor.ahead_advance hc), hx]
  rw [operators]
  rw [EStateM.run_bind, Parse.run_current]
  dsimp only
  rw [hk, standard_power?]
  dsimp only
  rw [if_neg hp, EStateM.run_bind, Parse.run_operator_of_kind hk]
  dsimp only
  rw [EStateM.run_bind, run_operand hx']
  rfl

theorem power?_of_ne_operator {kind : Kind} (h : ∀ op, kind ≠ .operator op) :
    standard.power? kind = none := by
  rcases hp : standard.power? kind with _ | next
  · rfl
  · unfold standard at hp
    dsimp only at hp
    split at hp
    · exact absurd rfl (h .add)
    · exact absurd rfl (h .subtract)
    · exact absurd rfl (h .multiply)
    · cases hp

open StyleLang.Expr (chain factors addends terms total)

variable {others : List (Operator × Expr)} {ts rest : List Token}

/-- Factors are joined one by one, whatever is read behind them. -/
theorem operators_factors {power : Power} (hp : ¬ Power.multiplicative ≤ power) (bound : Nat) :
    ∀ (others : List (Operator × Expr)) {cursor : Cursor} {ts rest : List Token},
      (∀ pair ∈ others, pair.1 = .multiply) → Expr.OthersSpell others ts →
      cursor.ahead = ts ++ rest → ∀ left,
      (standard.operators (bound + others.length) power left).run cursor
        = (standard.operators bound power (chain left others)).run (cursor.forward ts.length)
  | [], _, _, _, _, .nil, _, _ => rfl
  | (op, x) :: others, cursor, _ :: _ :: ts, rest, hm, .cons ho hx h, hc, left => by
    obtain ⟨hop, hothers⟩ := List.forall_mem_cons.1 hm
    obtain rfl : op = .multiply := hop
    have hc' : (cursor.forward 2).ahead = ts ++ rest := by
      rw [Cursor.ahead_forward, hc]
      rfl
    have hright : (standard.operators (bound + others.length) Operator.multiply.power x).run
        (cursor.forward 2) = .ok x (cursor.forward 2) := operators_multiplicative x _
    rw [List.length_cons, ← Nat.add_assoc, operators_step hc ho hx hp, EStateM.run_bind, hright]
    dsimp only
    rw [operators_factors hp bound others hothers h hc', Cursor.forward_forward, Nat.add_comm]
    rfl

/-- Behind the factors at the front there is no operator that binds more strongly than `+`. -/
theorem power_le_of_addends {us : List Token} (h : Expr.OthersSpell (addends others) us)
    (hr : ∀ op, headKind rest ≠ .operator op) :
    ∀ next ∈ standard.power? (headKind (us ++ rest)), next ≤ .additive := by
  intro next hn
  rcases hothers : addends others with _ | ⟨⟨op, x⟩, behind⟩ <;> rw [hothers] at h
  · cases h
    rw [List.nil_append, power?_of_ne_operator hr] at hn
    cases hn
  · obtain _ | ⟨ho, -, -⟩ := h
    rw [List.cons_append, headKind_cons, ho, standard_power?] at hn
    cases hn
    have hop : op ≠ .multiply := Expr.ne_multiply_of_mem_head?_addends (by rw [hothers]; rfl)
    cases op with
    | add | subtract => decide
    | multiply => exact absurd rfl hop

/-- The tokens of the factors at the front and those behind. -/
theorem spell_factors_and_addends (h : Expr.OthersSpell others ts) :
    ∃ us vs, ts = us ++ vs ∧ Expr.OthersSpell (factors others) us
      ∧ Expr.OthersSpell (addends others) vs := by
  rw [← Expr.factors_append_addends others] at h
  exact ⟨_, _, (List.take_append_drop _ _).symm, h.append_inv⟩

theorem operators_additive (h : Expr.OthersSpell others ts)
    (hr : ∀ op, headKind rest ≠ .operator op) (hc : cursor.ahead = ts ++ rest) (left : Expr)
    {bound : Nat} (hb : others.length ≤ bound) :
    (standard.operators bound .additive left).run cursor
      = .ok (chain left (factors others)) (cursor.forward (2 * (factors others).length)) := by
  obtain ⟨us, vs, rfl, hus, hvs⟩ := spell_factors_and_addends h
  have hl := congrArg List.length (Expr.factors_append_addends others)
  rw [List.length_append] at hl
  obtain ⟨more, rfl⟩ : ∃ more, bound = more + (factors others).length :=
    ⟨bound - (factors others).length, by omega⟩
  rw [List.append_assoc] at hc
  rw [operators_factors (by decide) more _ (fun _ => Expr.eq_multiply_of_mem_factors) hus hc,
    ← hus.length_eq]
  refine operators_stop ?_ _ _
  rw [Cursor.kind_current, Cursor.ahead_forward_append hc rfl]
  exact power_le_of_addends hvs hr

/-- Each term waits for the factors behind it. -/
theorem operators_terms (others : List (Operator × Expr)) {cursor : Cursor} {ts rest : List Token}
    (hm : ∀ pair ∈ others.head?, pair.1 ≠ .multiply) (h : Expr.OthersSpell others ts)
    (hr : ∀ op, headKind rest ≠ .operator op) (hc : cursor.ahead = ts ++ rest) (left : Expr)
    {bound : Nat} (hb : others.length ≤ bound) :
    (standard.operators bound .lowest left).run cursor
      = .ok (chain left (terms others)) (cursor.forward ts.length) := by
  induction others using Expr.terms.induct generalizing cursor ts left bound with
  | case1 =>
    cases h
    rw [terms]
    refine operators_stop ?_ _ _
    rw [Cursor.kind_current, hc, List.nil_append, power?_of_ne_operator hr]
    exact nofun
  | case2 op x others ih =>
    obtain _ | @⟨operator, operand, _, _, _, ts, ho, hx, h⟩ := h
    have hop : op.power = .additive := by
      cases op with
      | add | subtract => rfl
      | multiply => exact absurd rfl (hm _ rfl)
    obtain ⟨us, vs, rfl, hus, hvs⟩ := spell_factors_and_addends h
    obtain ⟨bound, rfl⟩ : ∃ b, bound = b + 1 := Nat.exists_eq_add_one.2 (Nat.lt_of_lt_of_le
      (Nat.succ_pos _) hb)
    have hb : others.length ≤ bound := Nat.le_of_succ_le_succ hb
    have hc₂ : (cursor.forward 2).ahead = us ++ vs ++ rest := by
      rw [Cursor.ahead_forward, hc]
      rfl
    have hc₃ : ((cursor.forward 2).forward us.length).ahead = vs ++ rest :=
      Cursor.ahead_forward_append (by rw [hc₂, List.append_assoc]) rfl
    have hright := operators_additive h hr hc₂ x hb
    rw [← hus.length_eq] at hright
    have hrest := ih (fun pair hp => Expr.ne_multiply_of_mem_head?_addends hp) hvs hc₃
      (left.join op (chain x (factors others)))
      (Nat.le_trans (List.dropWhile_sublist _).length_le hb)
    rw [operators_step hc ho hx (by rw [hop]; decide), EStateM.run_bind, hop, hright]
    dsimp only
    rw [hrest, terms, Cursor.forward_forward, Cursor.forward_forward]
    simp only [List.length_cons, List.length_append]
    rw [Nat.add_comm 2]
    rfl

theorem operators_lowest (h : Expr.OthersSpell others ts)
    (hr : ∀ op, headKind rest ≠ .operator op) (hc : cursor.ahead = ts ++ rest) (left : Expr)
    {bound : Nat} (hb : others.length ≤ bound) :
    (standard.operators bound .lowest left).run cursor
      = .ok (total left others) (cursor.forward ts.length) := by
  obtain ⟨us, vs, rfl, hus, hvs⟩ := spell_factors_and_addends h
  have hl := congrArg List.length (Expr.factors_append_addends others)
  rw [List.length_append] at hl
  obtain ⟨more, rfl⟩ : ∃ more, bound = more + (factors others).length :=
    ⟨bound - (factors others).length, by omega⟩
  rw [List.append_assoc] at hc
  rw [operators_factors (by decide) more _ (fun _ => Expr.eq_multiply_of_mem_factors) hus hc,
    operators_terms _ (fun _ => Expr.ne_multiply_of_mem_head?_addends) hvs hr
      (Cursor.ahead_forward_append hc rfl) _ (by omega),
    Cursor.forward_forward, List.length_append, total]

theorem run_expr {x : Expr} (hx : cursor.current.operand = .ok x) (power : Power) :
    (standard.expr power).run cursor
      = (standard.operators ((cursor.forward 1).left + 1) power x).run (cursor.forward 1) := by
  unfold expr
  rw [EStateM.run_bind, run_operand hx]
  rfl

/-- At the power the tokens in front, and no more, are read as the expression, and they are its
leaves and operators one by one. -/
structure Joins (power : Power) (cursor : Cursor) (ts : List Token) (e : Expr) : Prop where
  prefix_ahead : ts <+: cursor.ahead
  run_eq : (standard.expr power).run cursor = .ok e (cursor.forward ts.length)
  reads : List.Forall₂ Symbol.Reads e.symbols ts

/-- A row of operands before anything but an operator is read as sums and differences of products.
At the power of `+` only the factors in front are read, and at the power of `*` one operand. -/
theorem joins_of_spells {first : Token} {x : Expr} (hx : first.operand = .ok x)
    (h : Expr.OthersSpell others ts) (hr : ∀ op, headKind rest ≠ .operator op)
    (hc : cursor.ahead = first :: ts ++ rest) :
    Joins .lowest cursor (first :: ts) (total x others)
      ∧ Joins .additive cursor (first :: ts.take (2 * (factors others).length))
        (chain x (factors others))
      ∧ Joins .multiplicative cursor [first] x := by
  have hx₀ : cursor.current.operand = .ok x := by rw [Cursor.current_of_ahead hc, hx]
  have hc₁ : (cursor.forward 1).ahead = ts ++ rest := Cursor.ahead_advance hc
  have hb : others.length ≤ (cursor.forward 1).left + 1 :=
    Nat.le_succ_of_le (h.length_le_left hc₁)
  have hfirst : List.Forall₂ Symbol.Reads x.symbols [first] := by
    rw [Expr.symbols_of_operand hx]
    exact .cons (.leaf hx) .nil
  have hfactors : Expr.OthersSpell (factors others) (ts.take (2 * (factors others).length)) := by
    rw [← Expr.factors_append_addends others] at h
    exact h.append_inv.1
  have hfront : first :: ts.take (2 * (factors others).length) <+: first :: ts :=
    List.prefix_cons_inj first |>.2 (List.take_prefix _ _)
  refine ⟨⟨⟨rest, hc.symm⟩, ?_, ?_⟩, ⟨hfront.trans ⟨rest, hc.symm⟩, ?_, ?_⟩,
    ⟨⟨ts ++ rest, hc.symm⟩, ?_, hfirst⟩⟩
  · rw [run_expr hx₀, operators_lowest h hr hc₁ x hb, Cursor.forward_forward, Nat.add_comm]
    rfl
  · rw [Expr.symbols_total]
    exact List.rel_append hfirst h.reads
  · rw [run_expr hx₀, operators_additive h hr hc₁ x hb, Cursor.forward_forward, Nat.add_comm,
      List.length_cons, hfactors.length_eq]
  · rw [Expr.symbols_chain]
    exact List.rel_append hfirst hfactors.reads
  · rw [run_expr hx₀, operators_multiplicative]
    rfl

/-- Of `2 * 3px + Wide - 4 * 5px;` all is read, or the first product, or the first number. -/
theorem joins_of_spells_mixed :
    let token (kind : Kind) (text : String) : Token := ⟨kind, text, .nowhere⟩
    let number (measure : Measure) (n : Number) : Expr :=
      .literal (.clean .nowhere) (.number measure n)
    let wide : Expr := .var (.clean .nowhere) "Wide"
    let first := token (.number .scalar) "2"
    let product := [token (.operator .multiply) "*", token (.number .pixel) "3px"]
    let behind := [token (.operator .add) "+", token .capitalName "Wide",
      token (.operator .subtract) "-", token (.number .scalar) "4",
      token (.operator .multiply) "*", token (.number .pixel) "5px"]
    let rest := [token (.mark .semicolon) ";"]
    let cursor := Cursor.ofTokens (first :: (product ++ behind ++ rest)) "a.icss"
    let six := (number .scalar 2).join .multiply (number .pixel 3)
    let twenty := (number .scalar 4).join .multiply (number .pixel 5)
    cursor.ahead = first :: (product ++ behind) ++ rest
      ∧ Joins .lowest cursor (first :: (product ++ behind))
        ((six.join .add wide).join .subtract twenty)
      ∧ Joins .additive cursor (first :: product) six
      ∧ Joins .multiplicative cursor [first] (number .scalar 2) := by
  intro token number wide first product behind rest cursor six twenty
  let others := [(Operator.multiply, number .pixel 3), (.add, wide),
    (.subtract, number .scalar 4), (.multiply, number .pixel 5)]
  have hx : first.operand = .ok (number .scalar 2) := by decide +kernel
  have h : Expr.OthersSpell others (product ++ behind) :=
    .cons rfl (by decide +kernel) (.cons rfl rfl (.cons rfl (by decide +kernel)
      (.cons rfl (by decide +kernel) .nil)))
  have hr : ∀ op, headKind rest ≠ .operator op := nofun
  have hc : cursor.ahead = first :: (product ++ behind) ++ rest := rfl
  have htotal : total (number .scalar 2) others
      = (six.join .add wide).join .subtract twenty := by
    simp [total, terms, chain, factors, addends, others, six, twenty]
  have hfactors : factors others = [(.multiply, number .pixel 3)] := rfl
  have hjoins := joins_of_spells hx h hr hc
  rw [htotal, hfactors] at hjoins
  exact ⟨hc, hjoins⟩

end Grammar

end StyleLang
