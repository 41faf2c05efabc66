import Mathlib.Data.List.Forall2
import StyleLang.Proofs.Relabel
import StyleLang.Proofs.Nodes

/-!
# Names, types and faults by place

Where a name is used decides what it stands for: the last assignment of it that stands before the
place in the innermost block that has one (`Site.Resolves`). An expression has the type its place
gives it (`Expr.HasType`, at most one by `Expr.HasType.unique`), and `Faulty` says which rule a
node breaks at its place. No scopes are kept for this: a place is known by the statements that
stand before it in each block around it, and `Stylesheet.places` lists the nodes of a tree with
their places.
-/

namespace StyleLang

/-- Whether a statement is an assignment of a name. -/
def Stmt.Assigns (name : String) : Stmt → Prop
  | .assignment _ name' _ => name' = name
  | _ => False

/-- A place in a tree: for each block around it, the innermost first, the statements that stand
before the one that holds the place. -/
abbrev Site := List (List Stmt)

namespace Site

/-- The last assignment of a name before a place in the innermost block that has one, by its right
side and the place of it. -/
inductive Resolves (name : String) : Site → Expr → Site → Prop
  | here {note : Note} {value : Expr} {before after : List Stmt} {outer : Site} :
      (∀ s ∈ after, ¬ s.Assigns name) →
      Resolves name ((before ++ .assignment note name value :: after) :: outer) value
        (before :: outer)
  | outside {block : List Stmt} {outer site : Site} {value : Expr} :
      (∀ s ∈ block, ¬ s.Assigns name) → Resolves name outer value site →
      Resolves name (block :: outer) value site

/-- No assignment of a name stands before the place. -/
def Unbound (name : String) (site : Site) : Prop :=
  ∀ block ∈ site, ∀ s ∈ block, ¬ s.Assigns name

variable {name : String} {site site' : Site} {value : Expr} {before : List Stmt} {outer : Site}
  {s : Stmt}

theorem Resolves.not_unbound (h : Resolves name site value site') : ¬ Unbound name site := by
  induction h with
  | here =>
    intro hu
    exact hu _ List.mem_cons_self _ (List.mem_append_right _ List.mem_cons_self) rfl
  | outside _ _ ih => exact fun hu => ih fun block hb => hu block (List.mem_cons_of_mem _ hb)

/-- Of two ways to cut a block at an assignment of a name with none behind it, none is longer. -/
theorem cut_unique {note note' : Note} {value value' : Expr} :
    ∀ {before before' after after' : List Stmt}, (∀ s ∈ after, ¬ s.Assigns name) →
      (∀ s ∈ after', ¬ s.Assigns name) →
      before ++ .assignment note name value :: after
        = before' ++ .assignment note' name value' :: after' →
      before = before' ∧ value = value'
  | [], [], _, _, _, _, he => by
    cases he
    exact ⟨rfl, rfl⟩
  | [], s :: before', _, _, h, _, he => by
    obtain ⟨-, rfl⟩ := List.cons.inj he
    exact absurd rfl (h _ (List.mem_append_right _ List.mem_cons_self))
  | s :: before, [], _, _, _, h', he => by
    obtain ⟨-, rfl⟩ := List.cons.inj he
    exact absurd rfl (h' _ (List.mem_append_right _ List.mem_cons_self))
  | s :: before, s' :: before', _, _, h, h', he => by
    simp only [List.cons_append, List.cons.injEq] at he
    obtain ⟨rfl, he⟩ := he
    obtain ⟨rfl, hv⟩ := cut_unique h h' he
    exact ⟨rfl, hv⟩

theorem Resolves.unique {value' : Expr} {site'' : Site} (h : Resolves name site value site')
    (h' : Resolves name site value' site'') : value = value' ∧ site' = site'' := by
  induction h with
  | @here note value before after outer ha =>
    generalize hb : before ++ .assignment note name value :: after = block at h'
    cases h' with
    | here ha' =>
      obtain ⟨rfl, rfl⟩ := cut_unique ha ha' hb
      exact ⟨rfl, rfl⟩
    | outside hn _ =>
      subst hb
      exact absurd rfl (hn _ (List.mem_append_right _ List.mem_cons_self))
  | outside hn _ ih =>
    cases h' with
    | here _ => exact absurd rfl (hn _ (List.mem_append_right _ List.mem_cons_self))
    | outside _ h' => exact ih h'

/-! What stands before a place grows by a statement, or by an empty block. -/

theorem Unbound.push (h : Unbound name site) : Unbound name ([] :: site) := by
  intro block hb
  rcases List.mem_cons.1 hb with rfl | hb
  · exact nofun
  · exact h block hb

theorem Resolves.push (h : Resolves name site value site') :
    Resolves name ([] :: site) value site' :=
  .outside nofun h

theorem Unbound.append (h : Unbound name (before :: outer)) (hs : ¬ s.Assigns name) :
    Unbound name ((before ++ [s]) :: outer) := by
  intro block hb s' hs'
  rcases List.mem_cons.1 hb with rfl | hb
  · have hbefore := h before List.mem_cons_self
    exact List.forall_mem_append.2 ⟨hbefore, List.forall_mem_singleton.2 hs⟩ s' hs'
  · exact h block (List.mem_cons_of_mem _ hb) s' hs'

theorem Resolves.append (h : Resolves name (before :: outer) value site')
    (hs : ¬ s.Assigns name) : Resolves name ((before ++ [s]) :: outer) value site' := by
  have hlast : ∀ t ∈ [s], ¬ t.Assigns name := List.forall_mem_singleton.2 hs
  cases h with
  | here ha =>
    rw [List.append_assoc, List.cons_append]
    exact .here (List.forall_mem_append.2 ⟨ha, hlast⟩)
  | outside hn h => exact .outside (List.forall_mem_append.2 ⟨hn, hlast⟩) h

theorem resolves_last (note : Note) (name : String) (value : Expr) (before : List Stmt)
    (outer : Site) :
    Resolves name ((before ++ [.assignment note name value]) :: outer) value (before :: outer) :=
  .here nofun

end Site

/-! ## Operations on types -/

namespace Operator

/-- What an operation takes, and the type it has then. Operands without a type are let pass where
the other one would do. -/
inductive Yields : Operator → ValueType → ValueType → ValueType → Prop
  | shared {op : Operator} {t : ValueType} : op = .add ∨ op = .subtract → t ≠ .color →
      t ≠ .boolean → Yields op t t t
  | scalarLeft {t : ValueType} : t ≠ .color → t ≠ .boolean → Yields .multiply .scalar t t
  | scalarRight {t : ValueType} : t ≠ .color → t ≠ .boolean → Yields .multiply t .scalar t

/-- What an operation does not take, and why: colors first of all, then for a sum or a difference
types that differ, for a product the lack of a scalar, and booleans for all three. -/
inductive Rejects : Operator → ValueType → ValueType → Cause → Prop
  | color {op : Operator} {l r : ValueType} : l = .color ∨ r = .color →
      Rejects op l r (.colorOperand op)
  | mismatch {op : Operator} {l r : ValueType} : l ≠ .color → r ≠ .color →
      op = .add ∨ op = .subtract → l ≠ r ∨ l = .boolean ∨ r = .boolean →
      Rejects op l r (.operandMismatch op l r)
  | noScalar {l r : ValueType} : l ≠ .color → r ≠ .color →
      l = .boolean ∨ r = .boolean ∨ l ≠ .scalar ∧ r ≠ .scalar →
      Rejects .multiply l r (.scalarNeeded l r)

variable {op : Operator} {l r t : ValueType} {cause : Cause}

theorem yields_iff : op.Yields l r t ↔ op.resultType l r = .ok t := by
  constructor
  · rintro (⟨rfl | rfl, hc, hb⟩ | ⟨hc, hb⟩ | ⟨hc, hb⟩) <;> simp_all [resultType]
  · intro h
    unfold resultType at h
    split at h
    · cases h
    rename_i hc
    obtain ⟨hl, hr⟩ := not_or.1 hc
    cases op <;> simp only at h <;> split_ifs at h with h₁ <;> cases h
    · simp only [ne_eq, not_or, not_not] at h₁
      obtain ⟨rfl, hb, -⟩ := h₁
      exact .shared (.inl rfl) hl hb
    · simp only [ne_eq, not_or, not_not] at h₁
      obtain ⟨rfl, hb, -⟩ := h₁
      exact .shared (.inr rfl) hl hb
    · rename_i hs
      subst hs
      simp only [not_or] at h₁
      exact .scalarLeft hr h₁.2.1
    · rename_i hs
      simp only [ne_eq, not_or, not_and, not_not] at h₁
      rw [h₁.2.2 hs]
      exact .scalarRight hl h₁.1

theorem rejects_iff : op.Rejects l r cause ↔ op.resultType l r = .error cause := by
  constructor
  · unfold resultType
    rintro (hc | ⟨hl, hr, rfl | rfl, h⟩ | ⟨hl, hr, h⟩)
    · rw [if_pos hc]
    all_goals
      rw [if_neg (not_or.2 ⟨hl, hr⟩)]
      exact if_pos h
  · intro h
    unfold resultType at h
    split at h
    · rename_i hc
      cases h
      exact .color hc
    rename_i hc
    obtain ⟨hl, hr⟩ := not_or.1 hc
    cases op <;> simp only at h <;> split_ifs at h with h₁ <;> cases h
    · exact .mismatch hl hr (.inl rfl) h₁
    · exact .mismatch hl hr (.inr rfl) h₁
    · exact .noScalar hl hr h₁

end Operator

/-! ## Types and faults -/

namespace Expr

/-- The type of an expression at a place. A name has the type of the assignment that it stands
for, at the place of that; without one, and where operands do not go together, there is no type. -/
inductive HasType : Site → Expr → ValueType → Prop
  | literal {site : Site} {note : Note} {v : Literal} : HasType site (.literal note v) v.type
  | var {site site' : Site} {note : Note} {name : String} {value : Expr} {t : ValueType} :
      site.Resolves name value site' → HasType site' value t → HasType site (.var note name) t
  | unbound {site : Site} {note : Note} {name : String} : site.Unbound name →
      HasType site (.var note name) .undefined
  | binary {site : Site} {note : Note} {op : Operator} {left right : Expr}
      {l r t : ValueType} : HasType site left l → HasType site right r → op.Yields l r t →
      HasType site (.binary note op left right) t
  | rejected {site : Site} {note : Note} {op : Operator} {left right : Expr}
      {l r : ValueType} {cause : Cause} : HasType site left l → HasType site right r →
      op.Rejects l r cause → HasType site (.binary note op left right) .undefined

theorem HasType.unique {site : Site} {e : Expr} {t t' : ValueType} (h : HasType site e t)
    (h' : HasType site e t') : t = t' := by
  induction h generalizing t' with
  | literal =>
    cases h'
    rfl
  | var hr _ ih =>
    cases h' with
    | var hr' hv' =>
      obtain ⟨rfl, rfl⟩ := hr.unique hr'
      exact ih hv'
    | unbound hu => exact absurd hu hr.not_unbound
  | unbound hu =>
    cases h' with
    | var hr _ => exact absurd hu hr.not_unbound
    | unbound _ => rfl
  | binary _ _ hy ihl ihr =>
    rw [Operator.yields_iff] at hy
    cases h' with
    | binary hl' hr' hy' =>
      rw [Operator.yields_iff, ← ihl hl', ← ihr hr', hy] at hy'
      exact Except.ok.inj hy'
    | rejected hl' hr' hj' =>
      rw [Operator.rejects_iff, ← ihl hl', ← ihr hr', hy] at hj'
      cases hj'
  | rejected _ _ hj ihl ihr =>
    rw [Operator.rejects_iff] at hj
    cases h' with
    | binary hl' hr' hy' =>
      rw [Operator.yields_iff, ← ihl hl', ← ihr hr', hj] at hy'
      cases hy'
    | rejected _ _ _ => rfl

end Expr

/-- The rule that a node breaks at a place. -/
inductive Faulty (properties : PropertyTable) : Site → Node → Cause → Prop
  | reference {site : Site} {note : Note} {name : String} : site.Unbound name →
      Faulty properties site (.expr (.var note name)) (.undefinedVariable name)
  | operation {site : Site} {note : Note} {op : Operator} {left right : Expr}
      {l r : ValueType} {cause : Cause} : left.HasType site l → right.HasType site r →
      op.Rejects l r cause → Faulty properties site (.expr (.binary note op left right)) cause
  | assignment {site : Site} {note : Note} {name : String} {value : Expr} :
      value.HasType site .undefined →
      Faulty properties site (.stmt (.assignment note name value)) (.undefinedAssignment name)
  | condition {site : Site} {note : Note} {condition : Expr} {body : List Stmt}
      {elseBody : Option (List Stmt)} {t : ValueType} : condition.HasType site t →
      t ≠ .boolean → Faulty properties site
        (.stmt (.conditional note condition body elseBody)) (.conditionType t)
  | unknown {site : Site} {note : Note} {property : String} {value : Expr} :
      properties.accepted? property = none →
      Faulty properties site (.stmt (.declaration note property value))
        (.unknownProperty property)
  | unaccepted {site : Site} {note : Note} {property : String} {value : Expr}
      {types : List ValueType} {t : ValueType} : properties.accepted? property = some types →
      value.HasType site t → t ∉ types →
      Faulty properties site (.stmt (.declaration note property value))
        (.propertyType property (PropertyTable.choice types) t)

/-! ## The places of a tree -/

namespace Stmt

mutual

/-- The nodes of a statement with their places. A condition and a right side are at the place of
their statement; a body begins a block. -/
def places (site : Site) : Stmt → List (Site × Node)
  | rule note selectors body =>
    (site, .stmt (rule note selectors body)) :: bodyPlaces [] site body
  | declaration note property value =>
    (site, .stmt (declaration note property value)) :: value.nodes.map (site, ·)
  | assignment note name value =>
    (site, .stmt (assignment note name value)) :: value.nodes.map (site, ·)
  | conditional note condition body none =>
    (site, .stmt (conditional note condition body none))
      :: (condition.nodes.map (site, ·) ++ bodyPlaces [] site body)
  | conditional note condition body (some elseBody) =>
    (site, .stmt (conditional note condition body (some elseBody)))
      :: (condition.nodes.map (site, ·) ++ bodyPlaces [] site body
        ++ bodyPlaces [] site elseBody)

/-- The nodes of the rest of a block behind some statements of it. -/
def bodyPlaces (before : List Stmt) (outer : Site) : List Stmt → List (Site × Node)
  | [] => []
  | stmt :: stmts => stmt.places (before :: outer) ++ bodyPlaces (before ++ [stmt]) outer stmts

end

theorem map_snd_exprPlaces (site : Site) (nodes : List Node) :
    (nodes.map fun node => (site, node)).map Prod.snd = nodes := by
  rw [List.map_map]
  exact List.map_id nodes

mutual

theorem map_snd_places : ∀ (s : Stmt) (site : Site), (s.places site).map Prod.snd = s.nodes
  | rule _ _ body, site => by
    rw [places, nodes, List.map_cons, map_snd_bodyPlaces body]
  | declaration _ _ value, site | assignment _ _ value, site => by
    rw [places, nodes, List.map_cons, map_snd_exprPlaces]
  | conditional _ condition body none, site => by
    rw [places, nodes, List.map_cons, List.map_append, map_snd_exprPlaces,
      map_snd_bodyPlaces body]
  | conditional _ condition body (some elseBody), site => by
    rw [places, nodes, List.map_cons, List.map_append, List.map_append, map_snd_exprPlaces,
      map_snd_bodyPlaces body, map_snd_bodyPlaces elseBody]

theorem map_snd_bodyPlaces : ∀ (body before : List Stmt) (outer : Site),
    (bodyPlaces before outer body).map Prod.snd = bodyNodes body
  | [], _, _ => rfl
  | stmt :: stmts, before, outer => by
    rw [bodyPlaces, bodyNodes, List.map_append, map_snd_places stmt, map_snd_bodyPlaces stmts]

end

end Stmt

/-- The nodes of a stylesheet with their places. -/
def Stylesheet.places (sheet : Stylesheet) : List (Site × Node) :=
  Stmt.bodyPlaces [] [] sheet.body

theorem Stylesheet.map_snd_places (sheet : Stylesheet) :
    sheet.places.map Prod.snd = sheet.nodes :=
  Stmt.map_snd_bodyPlaces sheet.body [] []

end StyleLang
