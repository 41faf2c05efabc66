import StyleLang.Grammar.Expression
import StyleLang.Proofs.Relabel

/-!
# The tree of an outline

An outline leaves open how the operands of a row are grouped. `Row.tree` groups them: each run of
products is joined from left to right, and so are the products that stand between `+` and `-`
(`Sum`). Read back, the tree gives the row again (`Row.row_tree`), and so for statements
(`Outline.bodyOutline_bodyTree`). The trees stand nowhere and carry no complaint;
`Note.unplaced` takes its place from another tree to compare it with them.

How the operators of a tree bind can be told from the tree itself (`Expr.Grouped`), and so from each
of its parts: those that bind as in the tree of their row are that tree (`Row.grouped_tree`,
`Expr.tree_of_grouped`).
-/

namespace StyleLang

/-- The note without its place. -/
def Note.unplaced (note : Note) : Note := ⟨.nowhere, note.diagnostic⟩

/-! ## Expressions -/

def Operator.power : Operator → Power
  | add | subtract => .additive
  | multiply => .multiplicative

theorem Operator.eq_multiply_of_power {op : Operator} (h : ¬ op.power ≤ .additive) :
    op = .multiply := by
  cases op with
  | add | subtract => exact absurd (by decide) h
  | multiply => rfl

/-- The expression an operand is by itself. -/
def Operand.expr : Operand → Expr
  | literal value => .literal (.clean .nowhere) value
  | name text => .var (.clean .nowhere) text

/-- A sum of which the last term may still be multiplied. -/
structure Sum where
  /-- What the last term is added to or subtracted from. -/
  before : Option (Expr × Operator)
  term : Expr

namespace Sum

def ofTerm (term : Expr) : Sum := ⟨none, term⟩

def total : Sum → Expr
  | ⟨none, term⟩ => term
  | ⟨some (before, op), term⟩ => before.join op term

/-- The sum with a further operand: a factor of its last term, or a term of its own. -/
def push (sum : Sum) : Operator × Operand → Sum
  | (.multiply, x) => ⟨sum.before, sum.term.join .multiply x.expr⟩
  | (op, x) => ⟨some (sum.total, op), x.expr⟩

theorem push_of_power {op : Operator} (h : op.power ≤ .additive) (sum : Sum) (x : Operand) :
    sum.push (op, x) = ⟨some (sum.total, op), x.expr⟩ := by
  cases op with
  | add | subtract => rfl
  | multiply => exact absurd h (by decide)

/-- Products are joined to the last term alone. -/
theorem foldl_push_of_power {before : Option (Expr × Operator)} :
    ∀ (others : List (Operator × Operand)) (term : Expr),
      (∀ pair ∈ others, ¬ pair.1.power ≤ .additive) →
      others.foldl push ⟨before, term⟩ = ⟨before, (others.foldl push (ofTerm term)).total⟩
  | [], _, _ => rfl
  | (op, x) :: others, term, h => by
    obtain rfl := Operator.eq_multiply_of_power (h (op, x) List.mem_cons_self)
    exact foldl_push_of_power others (term.join .multiply x.expr) fun pair hm =>
      h pair (List.mem_cons_of_mem _ hm)

/-- What has been added up so far counts as one term before a weaker operator. -/
theorem total_foldl_push_ofTerm_total {others : List (Operator × Operand)}
    (h : ∀ pair ∈ others.head?, pair.1.power ≤ .additive) (sum : Sum) :
    (others.foldl push (ofTerm sum.total)).total = (others.foldl push sum).total := by
  cases others with
  | nil => rfl
  | cons pair others =>
    have hp := h pair rfl
    rw [List.foldl_cons, List.foldl_cons, push_of_power hp, push_of_power hp]
    rfl

/-- An operator joins what stands before it with the operand behind it, in which all that binds
more strongly has been joined before. -/
theorem total_foldl_push_cons {op : Operator} {inner outer : List (Operator × Operand)}
    (hi : ∀ pair ∈ inner, ¬ pair.1.power ≤ op.power)
    (ho : ∀ pair ∈ outer.head?, pair.1.power ≤ op.power) (left : Expr) (x : Operand) :
    (((op, x) :: (inner ++ outer)).foldl push (ofTerm left)).total
      = (outer.foldl push
          (ofTerm (left.join op (inner.foldl push (ofTerm x.expr)).total))).total := by
  cases hop : op.power with
  | lowest => cases op <;> cases hop
  | additive =>
    rw [hop] at hi ho
    rw [List.foldl_cons, push_of_power (by rw [hop]; decide), List.foldl_append,
      foldl_push_of_power inner _ hi]
    exact (total_foldl_push_ofTerm_total ho _).symm
  | multiplicative =>
    have hinner : inner = [] := by
      rw [List.eq_nil_iff_forall_not_mem]
      intro pair hm
      exact hi pair hm (by rw [hop]; cases pair.1 <;> decide)
    have hweak : ¬ op.power ≤ .additive := by rw [hop]; decide
    obtain rfl := Operator.eq_multiply_of_power hweak
    subst hinner
    rfl

theorem row_foldl_push : ∀ (others : List (Operator × Operand)) (sum : Sum),
    (others.foldl push sum).total.row = ⟨sum.total.row.first, sum.total.row.others ++ others⟩
  | [], sum => by rw [List.append_nil]; rfl
  | (op, x) :: others, sum => by
    have hx : x.expr.row = ⟨x, []⟩ := by cases x <;> rfl
    have hp : (sum.push (op, x)).total.row
        = ⟨sum.total.row.first, sum.total.row.others ++ [(op, x)]⟩ := by
      rcases sum with ⟨_ | ⟨before, op'⟩, term⟩ <;> cases op <;>
        simp [push, total, Expr.join, Expr.row, hx]
    rw [List.foldl_cons, row_foldl_push others, hp]
    simp

end Sum

/-- The operands of a row, grouped. -/
def Row.tree (row : Row) : Expr :=
  (row.others.foldl Sum.push (.ofTerm row.first.expr)).total

theorem Row.row_tree (row : Row) : row.tree.row = row := by
  obtain ⟨first, others⟩ := row
  rw [tree, Sum.row_foldl_push]
  cases first <;> rfl

/-! ## Statements -/

namespace Outline

mutual

/-- The statement an outline is of, with its rows grouped. -/
def tree : Outline → Stmt
  | rule selectors body => .rule (.clean .nowhere) selectors (bodyTree body)
  | declaration property value => .declaration (.clean .nowhere) property value.tree
  | assignment name value => .assignment (.clean .nowhere) name value.tree
  | conditional condition body none =>
    .conditional (.clean .nowhere) condition.tree (bodyTree body) none
  | conditional condition body (some elseBody) =>
    .conditional (.clean .nowhere) condition.tree (bodyTree body) (some (bodyTree elseBody))

def bodyTree : List Outline → List Stmt
  | [] => []
  | first :: others => first.tree :: bodyTree others

end

mutual

theorem outline_tree : ∀ o : Outline, o.tree.outline = o
  | rule _ body => by rw [tree, Stmt.outline, bodyOutline_bodyTree body]
  | declaration _ value | assignment _ value => by rw [tree, Stmt.outline, value.row_tree]
  | conditional condition body none => by
    rw [tree, Stmt.outline, condition.row_tree, bodyOutline_bodyTree body]
  | conditional condition body (some elseBody) => by
    rw [tree, Stmt.outline, condition.row_tree, bodyOutline_bodyTree body,
      bodyOutline_bodyTree elseBody]

theorem bodyOutline_bodyTree :
    ∀ body : List Outline, Stmt.bodyOutline (bodyTree body) = body
  | [] => rfl
  | first :: others => by
    rw [bodyTree, Stmt.bodyOutline, outline_tree first, bodyOutline_bodyTree others]

end

theorem tree_conditional (condition : Row) (body : List Outline)
    (elseBody : Option (List Outline)) :
    (conditional condition body elseBody).tree
      = .conditional (.clean .nowhere) condition.tree (bodyTree body) (elseBody.map bodyTree) := by
  cases elseBody <;> rfl

theorem bodyTree_append :
    ∀ a b : List Outline, bodyTree (a ++ b) = bodyTree a ++ bodyTree b
  | [], _ => rfl
  | first :: others, b => by
    rw [List.cons_append, bodyTree, bodyTree_append others b, bodyTree, List.cons_append]

end Outline

/-! ## Trees that stand elsewhere -/

namespace Expr

theorem mapNote_mapNote (f g : Note → Note) :
    ∀ e : Expr, (e.mapNote f).mapNote g = e.mapNote (g ∘ f)
  | literal _ _ | var _ _ => rfl
  | binary _ _ left right => by
    rw [mapNote, mapNote, mapNote_mapNote f g left, mapNote_mapNote f g right]
    rfl

theorem join_mapNote_unplaced (left : Expr) (op : Operator) (right : Expr) :
    (left.join op right).mapNote Note.unplaced
      = (left.mapNote Note.unplaced).join op (right.mapNote Note.unplaced) := by
  simp [join, mapNote, span, Note.unplaced, Note.clean, Span.nowhere]

theorem diagnostics_mapNote_unplaced :
    ∀ e : Expr, (e.mapNote Note.unplaced).diagnostics = e.diagnostics
  | literal _ _ | var _ _ => rfl
  | binary _ _ left right => by
    rw [mapNote, diagnostics, diagnostics, diagnostics_mapNote_unplaced left,
      diagnostics_mapNote_unplaced right]
    rfl

end Expr

namespace Stmt

mutual

theorem mapNote_mapNote (f g : Note → Note) :
    ∀ s : Stmt, (s.mapNote f).mapNote g = s.mapNote (g ∘ f)
  | rule _ _ body => by
    rw [mapNote, mapNote, mapNote, bodyMapNote_bodyMapNote f g body]
    rfl
  | declaration _ _ value | assignment _ _ value => by
    rw [mapNote, mapNote, mapNote, value.mapNote_mapNote]
    rfl
  | conditional _ condition body none => by
    rw [mapNote, mapNote, mapNote, condition.mapNote_mapNote, bodyMapNote_bodyMapNote f g body]
    rfl
  | conditional _ condition body (some elseBody) => by
    rw [mapNote, mapNote, mapNote, condition.mapNote_mapNote, bodyMapNote_bodyMapNote f g body,
      bodyMapNote_bodyMapNote f g elseBody]
    rfl

theorem bodyMapNote_bodyMapNote (f g : Note → Note) :
    ∀ body : List Stmt, bodyMapNote g (bodyMapNote f body) = bodyMapNote (g ∘ f) body
  | [] => rfl
  | stmt :: stmts => by
    rw [bodyMapNote, bodyMapNote, bodyMapNote, mapNote_mapNote f g stmt,
      bodyMapNote_bodyMapNote f g stmts]

end

mutual

theorem diagnostics_mapNote_unplaced :
    ∀ s : Stmt, (s.mapNote Note.unplaced).diagnostics = s.diagnostics
  | rule _ _ body => by
    rw [mapNote, diagnostics, diagnostics, bodyDiagnostics_mapNote_unplaced body]
    rfl
  | declaration _ _ value | assignment _ _ value => by
    rw [mapNote, diagnostics, diagnostics, value.diagnostics_mapNote_unplaced]
    rfl
  | conditional _ condition body none => by
    rw [mapNote, diagnostics, diagnostics, condition.diagnostics_mapNote_unplaced,
      bodyDiagnostics_mapNote_unplaced body]
    rfl
  | conditional _ condition body (some elseBody) => by
    rw [mapNote, diagnostics, diagnostics, condition.diagnostics_mapNote_unplaced,
      bodyDiagnostics_mapNote_unplaced body, bodyDiagnostics_mapNote_unplaced elseBody]
    rfl

theorem bodyDiagnostics_mapNote_unplaced :
    ∀ body : List Stmt, bodyDiagnostics (bodyMapNote Note.unplaced body) = bodyDiagnostics body
  | [] => rfl
  | stmt :: stmts => by
    rw [bodyMapNote, bodyDiagnostics, bodyDiagnostics, diagnostics_mapNote_unplaced stmt,
      bodyDiagnostics_mapNote_unplaced stmts]

end

end Stmt

/-! What has the tree of an outline, wherever it stands, has that outline. -/

theorem Stmt.mapNote_conditional (f : Note → Note) (note : Note) (condition : Expr)
    (body : List Stmt) (elseBody : Option (List Stmt)) :
    (conditional note condition body elseBody).mapNote f
      = .conditional (f note) (condition.mapNote f) (bodyMapNote f body)
          (elseBody.map (bodyMapNote f)) := by
  cases elseBody <;> rfl

theorem Stmt.outline_eq_of_mapNote {f : Note → Note} {s : Stmt} {o : Outline}
    (h : s.mapNote f = o.tree) : s.outline = o := by
  rw [← s.outline_mapNote (f := f), h, o.outline_tree]

theorem Stmt.bodyOutline_eq_of_mapNote {f : Note → Note} {stmts : List Stmt} {body : List Outline}
    (h : bodyMapNote f stmts = Outline.bodyTree body) : bodyOutline stmts = body := by
  rw [← bodyOutline_mapNote (f := f), h, Outline.bodyOutline_bodyTree]

/-- Trees of one outline differ in their notes alone. -/
theorem Stmt.bodyMapNote_blank_of_tree {stmts : List Stmt} {body : List Outline}
    (h : bodyMapNote Note.unplaced stmts = Outline.bodyTree body) :
    bodyMapNote Note.blank stmts = bodyMapNote Note.blank (Outline.bodyTree body) := by
  rw [← h, bodyMapNote_bodyMapNote]
  rfl

/-! The tree of an outline carries no complaint. -/

theorem Sum.diagnostics_foldl_push : ∀ (others : List (Operator × Operand)) (sum : Sum),
    sum.total.diagnostics = [] → (others.foldl push sum).total.diagnostics = []
  | [], _, h => h
  | (op, x) :: others, sum, h => by
    refine diagnostics_foldl_push others _ ?_
    have hx : x.expr.diagnostics = [] := by cases x <;> rfl
    rcases sum with ⟨_ | ⟨before, op'⟩, term⟩ <;> cases op <;>
      simp_all [push, total, Expr.join, Expr.diagnostics, Note.clean]

theorem Row.diagnostics_tree (row : Row) : row.tree.diagnostics = [] := by
  refine Sum.diagnostics_foldl_push _ _ ?_
  obtain ⟨_ | _, others⟩ := row <;> rfl

namespace Outline

mutual

theorem diagnostics_tree : ∀ o : Outline, o.tree.diagnostics = []
  | rule _ body => by
    rw [tree, Stmt.diagnostics, bodyDiagnostics_bodyTree body]
    rfl
  | declaration _ value | assignment _ value => by
    rw [tree, Stmt.diagnostics, value.diagnostics_tree]
    rfl
  | conditional condition body none => by
    rw [tree, Stmt.diagnostics, condition.diagnostics_tree, bodyDiagnostics_bodyTree body]
    rfl
  | conditional condition body (some elseBody) => by
    rw [tree, Stmt.diagnostics, condition.diagnostics_tree, bodyDiagnostics_bodyTree body,
      bodyDiagnostics_bodyTree elseBody]
    rfl

theorem bodyDiagnostics_bodyTree :
    ∀ body : List Outline, Stmt.bodyDiagnostics (bodyTree body) = []
  | [] => rfl
  | first :: others => by
    rw [bodyTree, Stmt.bodyDiagnostics, diagnostics_tree first, bodyDiagnostics_bodyTree others]
    rfl

end

end Outline

/-! ## How operators bind -/

/-- All operators have the rank at least. Each binds no more strongly than those on its left side
and more weakly than those on its right side. -/
def Expr.Grouped : Nat → Expr → Prop
  | _, literal _ _ | _, var _ _ => True
  | rank, binary _ op left right =>
    rank ≤ op.power.rank ∧ left.Grouped op.power.rank ∧ right.Grouped (op.power.rank + 1)

namespace Expr

theorem Grouped.mono {rank rank' : Nat} {e : Expr} (hr : rank' ≤ rank) (h : e.Grouped rank) :
    e.Grouped rank' := by
  cases e with
  | literal | var => trivial
  | binary => exact ⟨Nat.le_trans hr h.1, h.2⟩

theorem grouped_mapNote {f : Note → Note} :
    ∀ {rank : Nat} (e : Expr), (e.mapNote f).Grouped rank ↔ e.Grouped rank
  | _, literal _ _ | _, var _ _ => Iff.rfl
  | _, binary _ _ left right => by
    rw [mapNote, Grouped, Grouped, grouped_mapNote left, grouped_mapNote right]

theorem Grouped.rank_le {rank : Nat} :
    ∀ {e : Expr}, e.Grouped rank → ∀ pair ∈ e.row.others, rank ≤ pair.1.power.rank
  | literal _ _, _ | var _ _, _ => nofun
  | binary _ op left right, ⟨ho, hl, hr⟩ => by
    have hleft := (hl.mono ho).rank_le
    have hright := (hr.mono (Nat.le_succ_of_le ho)).rank_le
    intro pair hm
    rw [row, List.mem_append, List.mem_cons] at hm
    rcases hm with hm | rfl | hm
    · exact hleft pair hm
    · exact ho
    · exact hright pair hm

end Expr

theorem Operand.grouped_expr (rank : Nat) (x : Operand) : x.expr.Grouped rank := by
  cases x <;> trivial

/-- The last term is a product, and what it is added to or subtracted from a sum. -/
structure Sum.Grouped (sum : Sum) : Prop where
  before : ∀ pair ∈ sum.before,
    pair.1.Grouped Power.additive.rank ∧ pair.2.power = .additive
  term : sum.term.Grouped Power.multiplicative.rank

namespace Sum

theorem Grouped.total {sum : Sum} (h : sum.Grouped) : sum.total.Grouped Power.additive.rank := by
  obtain ⟨_ | ⟨before, op⟩, term⟩ := sum
  · exact h.term.mono (by decide)
  · obtain ⟨hb, hop⟩ := h.before _ rfl
    rw [Sum.total, Expr.join, Expr.Grouped, hop]
    exact ⟨Nat.le_refl _, hb, h.term⟩

theorem Grouped.push {sum : Sum} (h : sum.Grouped) (op : Operator) (x : Operand) :
    (sum.push (op, x)).Grouped := by
  cases op with
  | multiply => exact ⟨h.before, Nat.le_refl _, h.term, x.grouped_expr _⟩
  | add | subtract =>
    refine ⟨fun pair hp => ?_, x.grouped_expr _⟩
    cases hp
    exact ⟨h.total, rfl⟩

theorem grouped_foldl_push : ∀ (others : List (Operator × Operand)) {sum : Sum}, sum.Grouped →
    (others.foldl push sum).Grouped
  | [], _, h => h
  | (op, x) :: others, _, h => grouped_foldl_push others (h.push op x)

end Sum

theorem Row.grouped_tree (row : Row) : row.tree.Grouped Power.additive.rank :=
  Sum.Grouped.total (Sum.grouped_foldl_push _ ⟨nofun, row.first.grouped_expr _⟩)

/-- An operator that binds no more strongly than those before it and more weakly than those behind
it joins what they stand in. -/
theorem Row.tree_append {first x : Operand} {others inner : List (Operator × Operand)}
    {op : Operator} (ho : ∀ pair ∈ others, op.power ≤ pair.1.power)
    (hi : ∀ pair ∈ inner, ¬ pair.1.power ≤ op.power) :
    tree ⟨first, others ++ (op, x) :: inner⟩
      = (tree ⟨first, others⟩).join op (tree ⟨x, inner⟩) := by
  have hsum :
      (((op, x) :: inner).foldl Sum.push (others.foldl Sum.push (.ofTerm first.expr))).total
        = (((op, x) :: inner).foldl Sum.push (.ofTerm (tree ⟨first, others⟩))).total := by
    by_cases hop : op.power ≤ .additive
    · exact (Sum.total_foldl_push_ofTerm_total (fun pair hp => by cases hp; exact hop) _).symm
    · have hothers : ∀ pair ∈ others, ¬ pair.1.power ≤ .additive :=
        fun pair hm hp => hop (Nat.le_trans (ho pair hm) hp)
      rw [tree, Sum.ofTerm, Sum.foldl_push_of_power others _ hothers]
      rfl
  have hcons := Sum.total_foldl_push_cons hi (show ∀ pair ∈ [].head?, _ from nofun)
    (tree ⟨first, others⟩) x
  rw [List.append_nil] at hcons
  rw [tree, List.foldl_append, hsum, hcons]
  rfl

theorem Expr.mapNote_blank_binary (note : Note) (op : Operator) (left right : Expr) :
    (binary note op left right).mapNote Note.blank
      = (left.mapNote Note.blank).join op (right.mapNote Note.blank) := by
  simp [join, mapNote, span, Note.blank, Note.clean, Span.nowhere]

/-- No other tree of a row is grouped so. -/
theorem Expr.tree_of_grouped : ∀ {rank : Nat} {e : Expr}, e.Grouped rank →
    e.mapNote Note.blank = e.row.tree
  | _, literal _ _, _ | _, var _ _, _ => rfl
  | _, binary _ op left right, ⟨_, hl, hr⟩ => by
    rw [mapNote_blank_binary, tree_of_grouped hl, tree_of_grouped hr, row]
    refine (Row.tree_append (fun pair hm => hl.rank_le pair hm) fun pair hm hp => ?_).symm
    exact absurd hp (Nat.not_le_of_lt (hr.rank_le pair hm))

end StyleLang
