import StyleLang.Proofs.Slices
import StyleLang.Proofs.Source
import StyleLang.Proofs.Spans

/-!
# Nodes read by themselves

What is made of some tokens is known from these and from what it is without its notes, wherever the
tokens stand (`Stmt.Spells.eq_shift`). Each node of a stylesheet is the tree of what it is written
as (`Node.inherited_grouped`), and so its tokens are read as that node again where they are all
there is (`Node.readFrom_of_spells`). With the places of the tokens this makes the spans of a source
faithful (`Stylesheet.spans_faithful`).
-/

namespace StyleLang

/-! ## The same node further on -/

/-- The note of the same node further on. -/
def Note.shift (size : Nat) (note : Note) : Note :=
  ⟨note.span.shift size, note.diagnostic.map fun d => ⟨d.cause, d.position.shift size⟩⟩

variable {size : Nat} {ts us rest rest' : List Token}

theorem Span.cover_map_shift (h : us ≠ []) :
    cover (us.map (Token.shift size)) = (cover us).shift size := by
  obtain ⟨first, others, rfl⟩ := List.exists_cons_of_ne_nil h
  rw [cover, cover, List.getLast?_map, List.getLast?_eq_some_getLast h]
  rfl

theorem Note.clean_cover_eq_shift (h : ts = us.map (Token.shift size)) (hne : us ≠ []) :
    clean (.cover ts) = (clean (.cover us)).shift size := by
  rw [h]
  exact congrArg clean (Span.cover_map_shift hne)

/-- Two leaves of one value, of one token. -/
theorem Expr.eq_shift_of_operand {token : Token} {e e' : Expr}
    (h : (token.shift size).operand = .ok e) (h' : token.operand = .ok e')
    (hb : e.mapNote Note.blank = e'.mapNote Note.blank) : e = e'.mapNote (Note.shift size) := by
  have hn : e.note = e'.note.shift size := by
    rw [Token.note_of_operand h, Token.note_of_operand h']
    rfl
  cases e with
  | binary => exact absurd h Token.ne_binary_of_operand
  | literal note value =>
    cases e' <;> cases hb
    exact congrArg (Expr.literal · _) hn
  | var note name =>
    cases e' <;> cases hb
    exact congrArg (Expr.var · _) hn

theorem Token.mapNote_ne_binary {token : Token} {e : Expr} (h : token.operand = .ok e)
    {f : Note → Note} {note : Note} {op : Operator} {left right : Expr} :
    e.mapNote f ≠ .binary note op left right := by
  cases e with
  | binary => exact absurd h ne_binary_of_operand
  | literal => exact nofun
  | var => exact nofun

/-- If two expressions differ in their notes at most, and the tokens of the first stand in front of
what the tokens of the second stand in front of, further on, then the tokens are the same further
on, and so are the notes. -/
theorem Expr.Spells.eq_shift {e e' : Expr} (h : e.Spells ts) (h' : e'.Spells us)
    (hb : e.mapNote Note.blank = e'.mapNote Note.blank)
    (ht : ts ++ rest = us.map (Token.shift size) ++ rest') :
    rest = rest' ∧ ts = us.map (Token.shift size) ∧ e = e'.mapNote (Note.shift size) := by
  induction h generalizing e' us rest rest' with
  | operand h =>
    cases h' with
    | operand h' =>
      obtain ⟨rfl, rfl⟩ := List.cons.inj ht
      exact ⟨rfl, rfl, Expr.eq_shift_of_operand h h' hb⟩
    | binary => exact absurd hb (Token.mapNote_ne_binary h)
  | binary _ _ _ ihl ihr =>
    cases h' with
    | operand h' => exact absurd hb.symm (Token.mapNote_ne_binary h')
    | binary hl' _ hr' =>
      obtain ⟨-, rfl, hbl, hbr⟩ := Expr.binary.inj hb
      simp only [List.map_append, List.map_cons, List.append_assoc, List.cons_append] at ht
      obtain ⟨hrest, rfl, rfl⟩ := ihl hl' hbl ht
      obtain ⟨rfl, hleft⟩ := List.cons.inj hrest
      obtain ⟨rfl, rfl, rfl⟩ := ihr hr' hbr hleft
      refine ⟨rfl, by simp, ?_⟩
      exact congrArg (Expr.binary · _ _ _) (Note.clean_cover_eq_shift (by simp) (by simp))

namespace Selector

theorem OthersSpell.eq_shift {selectors : List Selector} (h : OthersSpell selectors ts)
    (h' : OthersSpell selectors us) (ht : ts ++ rest = us.map (Token.shift size) ++ rest') :
    rest = rest' ∧ ts = us.map (Token.shift size) := by
  induction h generalizing us with
  | nil =>
    cases h'
    exact ⟨ht, rfl⟩
  | cons _ _ _ ih =>
    cases h' with
    | cons _ _ h' =>
      simp only [List.map_cons, List.cons_append, List.cons.injEq] at ht
      obtain ⟨rfl, rfl, ht⟩ := ht
      obtain ⟨rfl, rfl⟩ := ih h' ht
      exact ⟨rfl, rfl⟩

theorem ListSpells.eq_shift {selectors : List Selector} (h : ListSpells selectors ts)
    (h' : ListSpells selectors us) (ht : ts ++ rest = us.map (Token.shift size) ++ rest') :
    rest = rest' ∧ ts = us.map (Token.shift size) := by
  obtain ⟨_, h⟩ := h
  obtain ⟨_, h'⟩ := h'
  simp only [List.map_cons, List.cons_append, List.cons.injEq] at ht
  obtain ⟨rfl, ht⟩ := ht
  obtain ⟨rfl, rfl⟩ := h.eq_shift h' ht
  exact ⟨rfl, rfl⟩

end Selector

namespace Stmt

mutual

-- Nothing says beforehand where a part ends, so each case takes the tokens off the front: what is
-- left behind one part, `rest = rest'`, is where the next one starts.
theorem Spells.eq_shift {s s' : Stmt} {ts us rest rest' : List Token} : s.Spells ts → s'.Spells us →
    s.mapNote Note.blank = s'.mapNote Note.blank →
    ts ++ rest = us.map (Token.shift size) ++ rest' →
    rest = rest' ∧ ts = us.map (Token.shift size) ∧ s = s'.mapNote (Note.shift size)
  | .assignment _ _ hv _, h', hb, ht => by
    cases h' with
    | conditional => rw [mapNote_conditional] at hb; cases hb
    | declaration | rule => cases hb
    | assignment _ _ hv' _ =>
      obtain ⟨-, -, hbv⟩ := Stmt.assignment.inj hb
      simp only [List.map_append, List.map_cons, List.map_nil, List.append_assoc,
        List.cons_append, List.nil_append, List.cons.injEq] at ht
      obtain ⟨rfl, rfl, ht⟩ := ht
      obtain ⟨hrest, rfl, rfl⟩ := hv.eq_shift hv' hbv ht
      obtain ⟨rfl, rfl⟩ := List.cons.inj hrest
      refine ⟨rfl, by simp, ?_⟩
      exact congrArg (Stmt.assignment · _ _) (Note.clean_cover_eq_shift (by simp) (by simp))
  | .declaration _ _ hv _, h', hb, ht => by
    cases h' with
    | conditional => rw [mapNote_conditional] at hb; cases hb
    | assignment | rule => cases hb
    | declaration _ _ hv' _ =>
      obtain ⟨-, -, hbv⟩ := Stmt.declaration.inj hb
      simp only [List.map_append, List.map_cons, List.map_nil, List.append_assoc,
        List.cons_append, List.nil_append, List.cons.injEq] at ht
      obtain ⟨rfl, rfl, ht⟩ := ht
      obtain ⟨hrest, rfl, rfl⟩ := hv.eq_shift hv' hbv ht
      obtain ⟨rfl, rfl⟩ := List.cons.inj hrest
      refine ⟨rfl, by simp, ?_⟩
      exact congrArg (Stmt.declaration · _ _) (Note.clean_cover_eq_shift (by simp) (by simp))
  | .rule hs hblock, h', hb, ht => by
    cases h' with
    | conditional => rw [mapNote_conditional] at hb; cases hb
    | assignment | declaration => cases hb
    | rule hs' hblock' =>
      obtain ⟨-, rfl, hbb⟩ := Stmt.rule.inj hb
      simp only [List.map_append, List.append_assoc] at ht
      obtain ⟨hrest, rfl⟩ := hs.eq_shift hs' ht
      obtain ⟨rfl, rfl, rfl⟩ := BlockSpells.eq_shift hblock hblock' hbb hrest
      refine ⟨rfl, by simp, ?_⟩
      exact congrArg (Stmt.rule · _ _)
        (Note.clean_cover_eq_shift (by simp) (ne_nil_of_spells (.rule hs' hblock')))
  | .conditional _ _ hc _ hblock helse, h', hb, ht => by
    rw [mapNote_conditional] at hb
    cases h' with
    | assignment | declaration | rule => cases hb
    | conditional _ _ hc' _ hblock' helse' =>
      rw [mapNote_conditional] at hb
      obtain ⟨-, hbc, hbb, hbe⟩ := Stmt.conditional.inj hb
      simp only [List.map_append, List.map_cons, List.append_assoc, List.cons_append,
        List.cons.injEq] at ht
      obtain ⟨rfl, rfl, ht⟩ := ht
      obtain ⟨hrest, rfl, rfl⟩ := hc.eq_shift hc' hbc ht
      simp only [List.cons.injEq] at hrest
      obtain ⟨rfl, hrest⟩ := hrest
      obtain ⟨hend, rfl, rfl⟩ := BlockSpells.eq_shift hblock hblock' hbb hrest
      obtain ⟨rfl, rfl, rfl⟩ := ElseSpells.eq_shift helse helse' hbe hend
      refine ⟨rfl, by simp, ?_⟩
      rw [mapNote_conditional]
      exact congrArg (Stmt.conditional · _ _ _) (Note.clean_cover_eq_shift (by simp) (by simp))
termination_by structural h => h

theorem BlockSpells.eq_shift {body body' : List Stmt} {ts us rest rest' : List Token} :
    BlockSpells body ts → BlockSpells body' us →
    bodyMapNote Note.blank body = bodyMapNote Note.blank body' →
    ts ++ rest = us.map (Token.shift size) ++ rest' →
    rest = rest' ∧ ts = us.map (Token.shift size) ∧ body = bodyMapNote (Note.shift size) body'
  | .mk _ hbody _, h', hb, ht => by
    obtain ⟨-, hbody', -⟩ := h'
    simp only [List.map_append, List.map_cons, List.map_nil, List.append_assoc,
      List.cons_append, List.nil_append, List.cons.injEq] at ht
    obtain ⟨rfl, ht⟩ := ht
    obtain ⟨hrest, rfl, rfl⟩ := BodySpells.eq_shift hbody hbody' hb ht
    obtain ⟨rfl, rfl⟩ := List.cons.inj hrest
    exact ⟨rfl, by simp, rfl⟩
termination_by structural h => h

theorem ElseSpells.eq_shift {body body' : Option (List Stmt)} {ts us rest rest' : List Token} :
    ElseSpells body ts → ElseSpells body' us →
    body.map (bodyMapNote Note.blank) = body'.map (bodyMapNote Note.blank) →
    ts ++ rest = us.map (Token.shift size) ++ rest' →
    rest = rest' ∧ ts = us.map (Token.shift size) ∧ body = body'.map (bodyMapNote (Note.shift size))
  | .none, h', hb, ht => by
    cases h' with
    | none => exact ⟨ht, rfl, rfl⟩
    | some => cases hb
  | .some _ hblock, h', hb, ht => by
    cases h' with
    | none => cases hb
    | some _ hblock' =>
      simp only [List.map_cons, List.cons_append, List.cons.injEq] at ht
      obtain ⟨rfl, ht⟩ := ht
      obtain ⟨rfl, rfl, rfl⟩ := BlockSpells.eq_shift hblock hblock' (Option.some.inj hb) ht
      exact ⟨rfl, rfl, rfl⟩
termination_by structural h => h

theorem BodySpells.eq_shift {body body' : List Stmt} {ts us rest rest' : List Token} :
    BodySpells body ts → BodySpells body' us →
    bodyMapNote Note.blank body = bodyMapNote Note.blank body' →
    ts ++ rest = us.map (Token.shift size) ++ rest' →
    rest = rest' ∧ ts = us.map (Token.shift size) ∧ body = bodyMapNote (Note.shift size) body'
  | .nil, h', hb, ht => by
    cases h' with
    | nil => exact ⟨ht, rfl, rfl⟩
    | cons => cases hb
  | .cons hf ho, h', hb, ht => by
    cases h' with
    | nil => cases hb
    | cons hf' ho' =>
      obtain ⟨hbf, hbo⟩ := List.cons.inj hb
      simp only [List.map_append, List.append_assoc] at ht
      obtain ⟨hrest, rfl, rfl⟩ := Spells.eq_shift hf hf' hbf ht
      obtain ⟨rfl, rfl, rfl⟩ := BodySpells.eq_shift ho ho' hbo hrest
      exact ⟨rfl, by simp, rfl⟩
termination_by structural h => h

end

end Stmt

/-! ## How nodes are grouped -/

theorem Stmt.tree_of_bodyTree : ∀ {body : List Stmt},
    bodyMapNote Note.unplaced body = Outline.bodyTree (bodyOutline body) →
    ∀ s ∈ body, s.mapNote Note.unplaced = s.outline.tree
  | [], _ => nofun
  | _ :: _, h => by
    obtain ⟨hfirst, hothers⟩ := List.cons.inj h
    exact List.forall_mem_cons.2 ⟨hfirst, tree_of_bodyTree hothers⟩

theorem Expr.grouped_of_tree {e : Expr} {row : Row} {f : Note → Note}
    (h : e.mapNote f = row.tree) : e.Grouped 0 := by
  rw [← grouped_mapNote, h]
  exact row.grouped_tree.mono (Nat.zero_le _)

/-- The row of an expression has one tree without places. -/
theorem Expr.mapNote_blank_of_tree {e : Expr} {row : Row} {f : Note → Note}
    (h : e.mapNote f = row.tree) : e.mapNote Note.blank = row.tree := by
  rw [tree_of_grouped (grouped_of_tree h), ← row_mapNote (f := f), h, Row.row_tree]

namespace Node

/-- The node is the tree of what it is written as. -/
def Grouped : Node → Prop
  | expr e => e.Grouped 0
  | stmt s => s.mapNote Note.unplaced = s.outline.tree

theorem inherited_grouped : Inherited Grouped := by
  intro node h
  cases node with
  | expr e =>
    cases e with
    | literal | var => exact nofun
    | binary _ op left right =>
      obtain ⟨-, hl, hr⟩ := h
      exact List.forall_mem_cons.2 ⟨hl.mono (Nat.zero_le _),
        List.forall_mem_singleton.2 (hr.mono (Nat.zero_le _))⟩
  | stmt s =>
    cases s with
    | rule _ _ body =>
      obtain ⟨-, -, hb⟩ := Stmt.rule.inj h
      exact List.forall_mem_map.2 (Stmt.tree_of_bodyTree hb)
    | declaration _ _ value =>
      obtain ⟨-, -, hv⟩ := Stmt.declaration.inj h
      exact List.forall_mem_singleton.2 (Expr.grouped_of_tree hv)
    | assignment _ _ value =>
      obtain ⟨-, -, hv⟩ := Stmt.assignment.inj h
      exact List.forall_mem_singleton.2 (Expr.grouped_of_tree hv)
    | conditional _ condition body elseBody =>
      have h : Stmt.mapNote _ _ = _ := h
      rw [Stmt.mapNote_conditional, Stmt.outline_conditional, Outline.tree_conditional] at h
      obtain ⟨-, hc, hb, he⟩ := Stmt.conditional.inj h
      refine List.forall_mem_cons.2 ⟨Expr.grouped_of_tree hc, List.forall_mem_append.2
        ⟨List.forall_mem_map.2 (Stmt.tree_of_bodyTree hb), List.forall_mem_map.2 ?_⟩⟩
      cases elseBody with
      | none => exact nofun
      | some elseBody => exact Stmt.tree_of_bodyTree (Option.some.inj he)

end Node

/-! ## Reading a piece by itself -/

/-- Tokens that stand elsewhere can be taken back. -/
theorem Token.exists_moves_back (size : Nat) :
    ∃ f, Moves f ∧ ∀ us : List Token, (us.map (shift size)).map f = us := by
  let back (p : Position) : Position := ⟨p.offset - UInt32.ofNat size, p.file⟩
  refine ⟨fun t => ⟨t.kind, t.text, back t.span.start, back t.span.stop⟩,
    ⟨fun _ => rfl, fun _ => rfl⟩, fun us => ?_⟩
  rw [List.map_map]
  refine List.map_id'' (fun token => ?_) us
  simp [back, shift, Span.shift, Position.shift]

/-- A parse that is complete for all tokens there are reads them to the end. -/
theorem Parse.exists_run_ofTokens {α : Type} {p : Parse α} {us : List Token} {ending : Token}
    {R : List Token → α → Prop} {Q : α → Prop} (file : String)
    (hl : ∀ token ∈ us, token.Lexical) (he : ending.kind = .ending) (hp : Sound p R)
    (hq : Complete p us [] Q) :
    ∃ a c, p.run (.ofTokens (us ++ [ending]) file) = .ok a c ∧ c.ahead = [] ∧ R us a ∧ Q a := by
  obtain ⟨hahead, hlexical⟩ := Stylesheet.ahead_and_lexical file hl he
  obtain ⟨a, c, hrun, hnil, ha⟩ := hq _ hlexical (hahead.trans (List.append_nil us).symm)
  have hp := hp (.ofTokens (us ++ [ending]) file)
  rw [hrun, hahead] at hp
  obtain ⟨ts, hts, -, hr⟩ := hp
  rw [hnil, List.append_nil] at hts
  exact ⟨a, c, hrun, hnil, hts ▸ hr, ha⟩

namespace Node

/-- Reading the tokens as a node of the same sort passes them all and gives the node, but for its
notes, which stand further on. -/
def ReadFrom (tokens : List Token) (file : String) (size : Nat) : Node → Prop
  | expr e => ∃ e' c, (Grammar.standard.expr .lowest).run (.ofTokens tokens file) = .ok e' c
      ∧ c.ahead = [] ∧ e = e'.mapNote (Note.shift size)
  | stmt s => ∃ s' c, Grammar.standard.stmt.run (.ofTokens tokens file) = .ok s' c
      ∧ c.ahead = [] ∧ s = s'.mapNote (Note.shift size)

theorem readFrom_of_spells {node : Node} {size : Nat} {us : List Token} {ending : Token}
    (file : String) (hl : ∀ token ∈ us, token.Lexical) (he : ending.kind = .ending)
    (hg : node.Grouped) (hs : node.Spells (us.map (Token.shift size))) :
    node.ReadFrom (us ++ [ending]) file size := by
  obtain ⟨f, hf, hback⟩ := Token.exists_moves_back size
  have hshift : ∀ token ∈ us.map (Token.shift size), token.Lexical := List.forall_mem_map.2 hl
  have hwhole : us.map (Token.shift size) ++ [] = us.map (Token.shift size) ++ [] := rfl
  cases node with
  | expr e =>
    have hs : e.Spells (us.map (Token.shift size)) := hs
    have hd := (hs.derives hshift).map hf
    rw [hback] at hd
    obtain ⟨e', c, hrun, hahead, hspells, htree⟩ := Parse.exists_run_ofTokens file hl he
      (Grammar.sound_expr Grammar.standard .lowest) (Grammar.complete_expr hd rfl)
    have hb : e.mapNote Note.blank = e'.mapNote Note.blank := by
      rw [Expr.mapNote_blank_of_tree htree, Expr.tree_of_grouped hg]
    exact ⟨e', c, hrun, hahead, (hs.eq_shift hspells hb hwhole).2.2⟩
  | stmt s =>
    have hs : s.Spells (us.map (Token.shift size)) := hs
    have hg : s.mapNote Note.unplaced = s.outline.tree := hg
    have hd := (hs.derives hshift).map hf
    rw [hback] at hd
    obtain ⟨s', c, hrun, hahead, hspells, htree⟩ := Parse.exists_run_ofTokens file hl he
      (Grammar.sound_stmt Grammar.standard) (Grammar.complete_stmt hd nofun)
    have hb : s.mapNote Note.blank = s'.mapNote Note.blank := by
      have hb := congrArg (Stmt.mapNote Note.blank) (hg.trans htree.symm)
      rwa [Stmt.mapNote_mapNote, Stmt.mapNote_mapNote] at hb
    exact ⟨s', c, hrun, hahead, (hs.eq_shift hspells hb hwhole).2.2⟩

end Node

/-! ## Sources -/

namespace Stylesheet

variable {source file : String} {sheet : Stylesheet}

/-- A source is cut up into the tokens of which what is read of it is made. -/
theorem exists_tiled_of_ofSource (h : ofSource source file = .ok sheet) :
    ∃ tokens seen, Tiled file [] source.toList tokens seen []
      ∧ Stmt.BodySpells sheet.body tokens ∧ sheet.note.span.start = ⟨0, file⟩
      ∧ (tokens ≠ [] → sheet.note.span.stop = (Span.cover tokens).stop) := by
  obtain ⟨tokens, ending, hscan, hl, he, ht⟩ := ofSource_eq_ok h
  obtain ⟨tokens', seen, rest, htiled, ⟨rfl, hs⟩ | ⟨c, cs, -, -, hs⟩⟩ :=
    Token.scanFrom_tiled file [] source.toList <;> have heq := hscan.symm.trans hs
  · obtain ⟨rfl, -⟩ := List.append_inj' (Except.ok.inj heq) rfl
    rcases ofTokens_spells file hl he with ⟨sheet', hs', hb, -, hstart, hstop⟩ | ⟨fault, hs', -⟩ <;>
      cases ht.symm.trans hs'
    exact ⟨tokens, seen, htiled, hb, hstart, hstop⟩
  · cases heq

/-- Every node is grouped, and is made of some of the tokens of a stylesheet. -/
theorem spells_of_mem_nodes (h : ofSource source file = .ok sheet) {tokens : List Token}
    (hb : Stmt.BodySpells sheet.body tokens) :
    ∀ node ∈ sheet.nodes, node.Grouped ∧ ∃ us, us <:+: tokens ∧ node.Spells us := by
  have htop := (Node.scattered_body hb).exists_part
  have htree := Stmt.tree_of_bodyTree (tree_of_ofSource h).2
  refine forall_mem_nodes (fun node hn child hc => ?_)
    fun s hm => ⟨htree s hm, htop _ (List.mem_map_of_mem hm)⟩
  obtain ⟨hg, us, hus, hs⟩ := hn
  obtain ⟨vs, hvs, hchild⟩ := (Node.scattered_children hs).exists_part child hc
  exact ⟨Node.inherited_grouped node hg child hc, vs, hvs.trans hus, hchild⟩

/-- The spans of a source of fewer than `2 ^ 32` bytes: the parts of a stylesheet, a statement or an
expression stand inside it and one behind the other, and each node stands where a piece of the
source does from which, by itself, it is read again. -/
theorem spans_faithful (hs : source.utf8ByteSize < UInt32.size) (h : ofSource source file = .ok sheet) :
    ((∀ s ∈ sheet.body, s.span.Inside sheet.note.span)
        ∧ sheet.body.Pairwise (·.span.Before ·.span))
      ∧ ∀ node ∈ sheet.nodes,
        (∀ child ∈ node.children, child.span.Inside node.span)
        ∧ node.children.Pairwise (·.span.Before ·.span)
        ∧ ∃ before piece after, source = before ++ piece ++ after
          ∧ node.span = .ofOffset file before.utf8ByteSize piece.utf8ByteSize
          ∧ ∃ tokens, Token.scan piece file = .ok tokens
            ∧ node.ReadFrom tokens file before.utf8ByteSize := by
  obtain ⟨tokens, seen, htiled, hbody, hstart, hstop⟩ := exists_tiled_of_ofSource h
  have hordered : Token.Ordered tokens :=
    (htiled.ordered (by rwa [List.nil_append, byteCount_toList])).1
  have htop := Node.scattered_body hbody
  have hpairwise := htop.pairwise hordered
  rw [List.pairwise_map] at hpairwise
  refine ⟨⟨fun s hm => ?_, hpairwise⟩, fun node hm => ?_⟩
  · have hinside := htop.inside hordered _ (List.mem_map_of_mem hm)
    obtain ⟨us, hus, hspells⟩ := htop.exists_part _ (List.mem_map_of_mem hm)
    have hne : tokens ≠ [] := fun hn =>
      Node.ne_nil_of_spells hspells (List.infix_nil.1 (hn ▸ hus))
    refine ⟨?_, ?_⟩
    · rw [hstart]
      exact UInt32.zero_le
    · rw [hstop hne]
      exact hinside.stop_le
  · obtain ⟨hg, us, hus, hspells⟩ := spells_of_mem_nodes h hbody node hm
    have hne := Node.ne_nil_of_spells hspells
    have hchildren := Node.scattered_children hspells
    have ho := hordered.of_isInfix hus
    obtain ⟨before, piece, after, hsource, hcover, us', ending, hscan, rfl⟩ :=
      Token.scan_slice htiled hus hne
    obtain ⟨hl, he⟩ := Token.lexical_of_scan_append hscan
    rw [Node.span_of_spells hspells]
    exact ⟨hchildren.inside ho, hchildren.pairwise ho, before, piece, after, hsource, hcover, _,
      hscan, Node.readFrom_of_spells file hl he hg hspells⟩

/-- A product behind a sum, and a character of two bytes before them. -/
theorem spans_faithful_product :
    let source := "/* é */ p \x7b width: 1px + 2 * A; \x7d"
    source.utf8ByteSize < UInt32.size ∧ ∃ sheet, ofSource source "a.icss" = .ok sheet
      ∧ sheet.nodes.map Node.span = [.ofOffset "a.icss" 9 25, .ofOffset "a.icss" 13 19,
        .ofOffset "a.icss" 20 11, .ofOffset "a.icss" 20 3, .ofOffset "a.icss" 26 5,
        .ofOffset "a.icss" 26 1, .ofOffset "a.icss" 30 1]
      ∧ ∀ node ∈ sheet.nodes, ∃ before piece after, source = before ++ piece ++ after
        ∧ node.span = .ofOffset "a.icss" before.utf8ByteSize piece.utf8ByteSize
        ∧ ∃ tokens, Token.scan piece "a.icss" = .ok tokens
          ∧ node.ReadFrom tokens "a.icss" before.utf8ByteSize := by
  intro source
  have hs : source.utf8ByteSize < UInt32.size := by decide +kernel
  have hspans : ((ofSource source "a.icss").map fun sheet => sheet.nodes.map Node.span)
      = .ok [.ofOffset "a.icss" 9 25, .ofOffset "a.icss" 13 19, .ofOffset "a.icss" 20 11,
        .ofOffset "a.icss" 20 3, .ofOffset "a.icss" 26 5, .ofOffset "a.icss" 26 1,
        .ofOffset "a.icss" 30 1] := by decide +kernel
  rcases h : ofSource source "a.icss" with fault | sheet <;> rw [h] at hspans
  · cases hspans
  · exact ⟨hs, sheet, rfl, Except.ok.inj hspans,
      fun node hm => ((spans_faithful hs h).2 node hm).2.2⟩

end Stylesheet

end StyleLang
