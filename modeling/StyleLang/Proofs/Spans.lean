import StyleLang.Proofs.Nodes
import StyleLang.Proofs.Reading
import StyleLang.Proofs.Tiling

/-!
# Where nodes stand

The parts of a node are made of some of its tokens, each of tokens behind those of the part before
(`Node.scattered_children`). As the tokens of a source of fewer than `2 ^ 32` bytes stand one behind
the other (`Tiled.ordered`), each part stands inside its node, and behind the part before it
(`Node.Scattered.inside`, `Node.Scattered.pairwise`).
-/

namespace StyleLang

namespace Span

/-- The span is a part of the other. -/
structure Inside (inner outer : Span) : Prop where
  start_le : outer.start.offset ≤ inner.start.offset
  stop_le : inner.stop.offset ≤ outer.stop.offset

/-- The span ends where the other begins, or before. -/
def Before (a b : Span) : Prop := a.stop.offset ≤ b.start.offset

end Span

/-! ## Tokens one behind the other -/

/-- Each of the tokens ends before the next begins. -/
structure Token.Ordered (ts : List Token) : Prop where
  forward : ∀ token ∈ ts, token.span.start.offset ≤ token.span.stop.offset
  pairwise : ts.Pairwise (·.span.Before ·.span)

namespace Token.Ordered

variable {ts us vs : List Token}

theorem of_isInfix (h : Ordered us) (hts : ts <:+: us) : Ordered ts :=
  ⟨fun token hm => h.forward token (hts.subset hm), h.pairwise.sublist hts.sublist⟩

/-- What is made of the tokens ends before what is made of tokens behind them begins. -/
theorem before (h : Ordered (ts ++ us)) (hts : ts ≠ []) (hus : us ≠ []) :
    (Span.cover ts).Before (Span.cover us) := by
  have hlast := List.getLast_mem hts
  have hfirst := List.head_mem hus
  have hb := (List.pairwise_append.1 h.pairwise).2.2 _ hlast _ hfirst
  unfold Span.Before Span.cover
  rw [List.getLast?_eq_some_getLast hts, List.head?_eq_some_head hus]
  exact hb

theorem start_le_stop : ∀ {ts : List Token}, Ordered ts → ts ≠ [] →
    (Span.cover ts).start.offset ≤ (Span.cover ts).stop.offset
  | [token], h, _ => h.forward token List.mem_cons_self
  | token :: next :: ts, h, _ => by
    have hfirst := h.forward token List.mem_cons_self
    have hnext : (Span.cover [token]).Before (Span.cover (next :: ts)) :=
      before h (List.cons_ne_nil _ _) (List.cons_ne_nil _ _)
    have hrest := start_le_stop (h.of_isInfix (List.suffix_cons token _).isInfix)
      (List.cons_ne_nil _ _)
    exact UInt32.le_trans hfirst (UInt32.le_trans hnext hrest)

theorem inside (h : Ordered us) (hts : ts <:+: us) (hne : ts ≠ []) :
    (Span.cover ts).Inside (Span.cover us) := by
  obtain ⟨xs, ys, rfl⟩ := hts
  have hxts : xs ++ ts ≠ [] := List.append_ne_nil_of_right_ne_nil xs hne
  constructor
  · rw [Span.start_cover_append hxts]
    by_cases hx : xs = []
    · rw [hx, List.nil_append]
      exact UInt32.le_refl _
    · have ho := h.of_isInfix (List.prefix_append _ ys).isInfix
      rw [Span.start_cover_append hx]
      exact UInt32.le_trans (start_le_stop (ho.of_isInfix (List.prefix_append _ _).isInfix) hx)
        (ho.before hx hne)
  · by_cases hy : ys = []
    · rw [hy, List.append_nil, Span.stop_cover_append hne]
      exact UInt32.le_refl _
    · have ho := h.of_isInfix (List.suffix_append _ ys).isInfix
      rw [Span.stop_cover_append hy]
      have hstop : (Span.cover (xs ++ ts)).stop = (Span.cover ts).stop := Span.stop_cover_append hne
      rw [← hstop]
      exact UInt32.le_trans (h.before hxts hy) (start_le_stop ho hy)

end Token.Ordered

/-- What a source is cut up into stands in the order of the source. -/
theorem Tiled.ordered {file : String} {before text seen rest : List Char} {tokens : List Token}
    (h : Tiled file before text tokens seen rest) (hs : byteCount (before ++ text) < UInt32.size) :
    Token.Ordered tokens
      ∧ ∀ token ∈ tokens, byteCount before ≤ token.span.start.offset.toNat := by
  induction h with
  | stop => exact ⟨⟨nofun, .nil⟩, nofun⟩
  | skip _ _ ih =>
    rw [← List.append_assoc] at hs
    obtain ⟨ho, hb⟩ := ih hs
    refine ⟨ho, fun token hm => Nat.le_trans ?_ (hb token hm)⟩
    rw [byteCount_append]
    omega
  | @token before piece text _ _ _ kind _ _ _ ih =>
    rw [← List.append_assoc] at hs
    obtain ⟨ho, hb⟩ := ih hs
    have hsize : byteCount before + byteCount piece < UInt32.size := by
      rw [byteCount_append, byteCount_append] at hs
      exact Nat.lt_of_le_of_lt (Nat.le_add_right _ _) hs
    have hstart : (Position.ofOffset file (byteCount before)).offset.toNat = byteCount before :=
      Position.toNat_ofOffset (Nat.lt_of_le_of_lt (Nat.le_add_right _ _) hsize)
    have hstop : (Position.ofOffset file (byteCount before + byteCount piece)).offset.toNat
        = byteCount before + byteCount piece := Position.toNat_ofOffset hsize
    rw [byteCount_append] at hb
    have hforward : (Position.ofOffset file (byteCount before)).offset.toNat
        ≤ (Position.ofOffset file (byteCount before + byteCount piece)).offset.toNat := by
      rw [hstart, hstop]
      exact Nat.le_add_right _ _
    refine ⟨⟨List.forall_mem_cons.2 ⟨UInt32.le_iff_toNat_le.2 hforward, ho.forward⟩,
      .cons (fun token hm => ?_) ho.pairwise⟩,
      List.forall_mem_cons.2 ⟨Nat.le_of_eq hstart.symm, fun token hm => ?_⟩⟩
    · exact UInt32.le_iff_toNat_le.2 (Nat.le_trans (Nat.le_of_eq hstop) (hb token hm))
    · exact Nat.le_trans (Nat.le_add_right _ _) (hb token hm)

/-! ## The parts of a node -/

def Expr.children : Expr → List Node
  | literal _ _ | var _ _ => []
  | binary _ _ left right => [.expr left, .expr right]

/-- The expressions and statements of which a statement is put together, as they are written. -/
def Stmt.children : Stmt → List Node
  | rule _ _ body => body.map .stmt
  | declaration _ _ value | assignment _ _ value => [.expr value]
  | conditional _ condition body elseBody =>
    .expr condition :: (body.map .stmt ++ (elseBody.getD []).map .stmt)

namespace Node

def children : Node → List Node
  | expr e => e.children
  | stmt s => s.children

/-- The node is made of the tokens. -/
def Spells : Node → List Token → Prop
  | expr e, ts => e.Spells ts
  | stmt s, ts => s.Spells ts

theorem span_of_spells {node : Node} {ts : List Token} (h : node.Spells ts) :
    node.span = .cover ts := by
  cases node with
  | expr e => exact congrArg Note.span (Expr.note_of_spells h)
  | stmt s => exact congrArg Note.span (Stmt.note_of_spells h)

theorem ne_nil_of_spells {node : Node} {ts : List Token} (h : node.Spells ts) : ts ≠ [] := by
  cases node with
  | expr e => exact Expr.ne_nil_of_spells h
  | stmt s => exact Stmt.ne_nil_of_spells h

/-- The nodes are made of some of the tokens, each of tokens behind those of the one before. -/
inductive Scattered : List Node → List Token → Prop
  | nil {ts : List Token} : Scattered [] ts
  | cons {node : Node} {nodes : List Node} {before ts rest : List Token} :
      node.Spells ts → Scattered nodes rest → Scattered (node :: nodes) (before ++ ts ++ rest)

namespace Scattered

variable {a b nodes : List Node} {ts us : List Token}

theorem append_left (before : List Token) (h : Scattered nodes ts) :
    Scattered nodes (before ++ ts) := by
  cases h with
  | nil => exact .nil
  | cons hs h =>
    rw [← List.append_assoc, ← List.append_assoc]
    exact .cons hs h

theorem append (ha : Scattered a ts) (hb : Scattered b us) : Scattered (a ++ b) (ts ++ us) := by
  induction ha with
  | nil => exact hb.append_left _
  | cons hs _ ih =>
    rw [List.append_assoc]
    exact .cons hs ih

theorem append_right (h : Scattered nodes ts) (after : List Token) :
    Scattered nodes (ts ++ after) := by
  have h := h.append (show Scattered [] after from .nil)
  rwa [List.append_nil] at h

theorem single {node : Node} (h : node.Spells ts) : Scattered [node] ts := by
  have h : Scattered [node] ([] ++ ts ++ []) := .cons h .nil
  rwa [List.nil_append, List.append_nil] at h

theorem of_expr {e : Expr} (h : e.Spells ts) : Scattered [.expr e] ts := single h

theorem of_stmt {s : Stmt} (h : s.Spells ts) : Scattered [.stmt s] ts := single h

theorem exists_part (h : Scattered nodes ts) :
    ∀ node ∈ nodes, ∃ us, us <:+: ts ∧ node.Spells us := by
  induction h with
  | nil => exact nofun
  | @cons _ _ before us rest hs _ ih =>
    refine List.forall_mem_cons.2 ⟨⟨us, ⟨before, rest, rfl⟩, hs⟩, fun node hm => ?_⟩
    obtain ⟨vs, hvs, hn⟩ := ih node hm
    exact ⟨vs, hvs.trans (List.suffix_append _ _).isInfix, hn⟩

theorem inside (h : Scattered nodes ts) (ho : Token.Ordered ts) :
    ∀ node ∈ nodes, node.span.Inside (.cover ts) := by
  intro node hm
  obtain ⟨us, hus, hn⟩ := h.exists_part node hm
  rw [span_of_spells hn]
  exact ho.inside hus (ne_nil_of_spells hn)

theorem pairwise (h : Scattered nodes ts) (ho : Token.Ordered ts) :
    nodes.Pairwise (·.span.Before ·.span) := by
  induction h with
  | nil => exact .nil
  | @cons _ _ before us rest hs h ih =>
    have ho' : Token.Ordered (us ++ rest) :=
      ho.of_isInfix ⟨before, [], by rw [List.append_nil, List.append_assoc]⟩
    have horest := ho'.of_isInfix (List.suffix_append _ _).isInfix
    refine .cons (fun node hm => ?_) (ih horest)
    obtain ⟨vs, hvs, hn⟩ := h.exists_part node hm
    have hne := ne_nil_of_spells hn
    have hrest : rest ≠ [] := fun hr => hne (List.infix_nil.1 (hr ▸ hvs))
    rw [span_of_spells hs, span_of_spells hn]
    exact UInt32.le_trans (ho'.before (ne_nil_of_spells hs) hrest) (horest.inside hvs hne).start_le

end Scattered

theorem scattered_body : ∀ {body : List Stmt} {ts : List Token}, Stmt.BodySpells body ts →
    Scattered (body.map .stmt) ts
  | _, _, .nil => .nil
  | _, _, .cons h ho => (Scattered.of_stmt h).append (scattered_body ho)

theorem scattered_block {body : List Stmt} {ts : List Token} (h : Stmt.BlockSpells body ts) :
    Scattered (body.map .stmt) ts := by
  obtain ⟨-, hb, -⟩ := h
  exact ((scattered_body hb).append_right _).append_left [_]

theorem scattered_else {body : Option (List Stmt)} {ts : List Token} (h : Stmt.ElseSpells body ts) :
    Scattered ((body.getD []).map .stmt) ts := by
  cases h with
  | none => exact .nil
  | some _ hb => exact (scattered_block hb).append_left [_]

/-- The parts of a node are made of its tokens, in their order. -/
theorem scattered_children {node : Node} {ts : List Token} (h : node.Spells ts) :
    Scattered node.children ts := by
  cases node with
  | expr e =>
    cases h with
    | operand h =>
      cases e with
      | binary => exact absurd h Token.ne_binary_of_operand
      | literal => exact .nil
      | var => exact .nil
    | binary hl _ hr =>
      exact (Scattered.of_expr hl).append ((Scattered.of_expr hr).append_left [_])
  | stmt s =>
    cases h with
    | assignment _ _ hv _ => exact ((Scattered.of_expr hv).append_right _).append_left [_, _]
    | declaration _ _ hv _ => exact ((Scattered.of_expr hv).append_right _).append_left [_, _]
    | rule _ hb => exact (scattered_block hb).append_left _
    | conditional _ _ hc _ hb he =>
      have hblocks := (scattered_block hb).append (scattered_else he)
      exact ((Scattered.of_expr hc).append (hblocks.append_left [_])).append_left [_, _]

/-! ## All nodes -/

/-- What each node hands on to its parts. -/
def Inherited (P : Node → Prop) : Prop :=
  ∀ node, P node → ∀ child ∈ node.children, P child

variable {P : Node → Prop}

theorem forall_mem_expr (hp : Inherited P) :
    ∀ e : Expr, P (.expr e) → ∀ node ∈ e.nodes, P node
  | .literal _ _, h | .var _ _, h => List.forall_mem_singleton.2 h
  | .binary _ _ left right, h => by
    have hc := hp _ h
    refine List.forall_mem_cons.2 ⟨h, List.forall_mem_append.2 ⟨?_, ?_⟩⟩
    · exact forall_mem_expr hp left (hc _ List.mem_cons_self)
    · exact forall_mem_expr hp right (hc _ (List.mem_cons_of_mem _ List.mem_cons_self))

mutual

theorem forall_mem_stmt (hp : Inherited P) :
    ∀ s : Stmt, P (.stmt s) → ∀ node ∈ s.nodes, P node
  | .rule _ _ body, h =>
    List.forall_mem_cons.2 ⟨h, forall_mem_body hp body (List.forall_mem_map.1 (hp _ h))⟩
  | .declaration _ _ value, h | .assignment _ _ value, h =>
    List.forall_mem_cons.2 ⟨h, forall_mem_expr hp value (hp _ h _ List.mem_cons_self)⟩
  | .conditional _ condition body none, h => by
    obtain ⟨hc, hblocks⟩ := List.forall_mem_cons.1 (hp _ h)
    obtain ⟨hb, -⟩ := List.forall_mem_append.1 hblocks
    refine List.forall_mem_cons.2 ⟨h, List.forall_mem_append.2 ⟨?_, ?_⟩⟩
    · exact forall_mem_expr hp condition hc
    · exact forall_mem_body hp body (List.forall_mem_map.1 hb)
  | .conditional _ condition body (some elseBody), h => by
    obtain ⟨hc, hblocks⟩ := List.forall_mem_cons.1 (hp _ h)
    obtain ⟨hb, he⟩ := List.forall_mem_append.1 hblocks
    refine List.forall_mem_cons.2 ⟨h, List.forall_mem_append.2
      ⟨List.forall_mem_append.2 ⟨?_, ?_⟩, ?_⟩⟩
    · exact forall_mem_expr hp condition hc
    · exact forall_mem_body hp body (List.forall_mem_map.1 hb)
    · exact forall_mem_body hp elseBody (List.forall_mem_map.1 he)

theorem forall_mem_body (hp : Inherited P) : ∀ body : List Stmt, (∀ s ∈ body, P (.stmt s)) →
    ∀ node ∈ Stmt.bodyNodes body, P node
  | [], _ => nofun
  | first :: others, h => by
    rw [List.forall_mem_cons] at h
    exact List.forall_mem_append.2 ⟨forall_mem_stmt hp first h.1, forall_mem_body hp others h.2⟩

end

end Node

/-- What the statements at the top have and each node hands on to its parts, all nodes have. -/
theorem Stylesheet.forall_mem_nodes {P : Node → Prop} (hp : Node.Inherited P) {sheet : Stylesheet}
    (h : ∀ s ∈ sheet.body, P (.stmt s)) : ∀ node ∈ sheet.nodes, P node :=
  Node.forall_mem_body hp sheet.body h

end StyleLang
