import StyleLang.Proofs.FixedPoint

/-!
# Trees that are read back

A tree need not have been read from a source, or evaluated, to be written. `Stylesheet.Writable`
asks of a tree what its text needs to be one that can be read: names and values as a source may
have them, selectors for each rule, nothing but rules and assignments outside of rules. It does
not look at assignments, which leave no trace. Such a tree is written, and what is written is read
as the tree without its assignments (`Stylesheet.read_css`).
-/

namespace StyleLang

/-! ## Names and values -/

/-- The names of tags and of properties. -/
def IsLowerName (name : String) : Prop :=
  (∃ c cs, name.toList = c :: cs ∧ c.isLower ∧ ∀ d ∈ cs, Shape.isLowerChar d)
    ∧ name ≠ "if" ∧ name ≠ "else"

namespace Selector

def Writable : Selector → Prop
  | byTag name => IsLowerName name
  | byClass name => name ≠ "" ∧ ∀ c ∈ name.toList, Shape.isLowerChar c
  | byId name => name ≠ "" ∧ (∀ c ∈ name.toList, Shape.isIdChar c)
    ∧ ¬ (name.length = 6 ∧ ∀ c ∈ name.toList, Shape.isHexDigit c)

end Selector

/-- Numbers are not below zero, and colors are six hexadecimal digits behind a `#`. -/
def Literal.Writable : Literal → Prop
  | number _ value => 0 ≤ value.toInt
  | color text => Shape.IsColor text.toList
  | boolean _ => True

theorem IsLowerName.fits {name : String} (h : IsLowerName name) :
    Kind.lowerName.Fits name.toList := by
  obtain ⟨⟨c, cs, hn, hc, hcs⟩, hif, helse⟩ := h
  refine ⟨⟨c, cs, hc, hcs, hn⟩, ?_⟩
  rintro ⟨word, hw⟩
  have hname : name = word.text := String.toList_inj.1 hw
  rcases word with _ | _ | _ | _
  · exact hif hname
  · exact helse hname
  · cases hn.symm.trans hw
    exact absurd hc (by decide)
  · cases hn.symm.trans hw
    exact absurd hc (by decide)

theorem Selector.Writable.legible : ∀ {selector : Selector}, selector.Writable → selector.Legible
  | byTag name, h => h.fits
  | byClass name, ⟨hne, hc⟩ => by
    refine ⟨name.toList, ?_, hc, ?_⟩
    · rwa [Ne, String.toList_eq_nil_iff]
    · rw [text, String.toList_append]
      rfl
  | byId name, ⟨hne, hc, hx⟩ => by
    have htext : (byId name).text.toList = '#' :: name.toList := by
      rw [text, String.toList_append]
      rfl
    refine ⟨⟨name.toList, ?_, hc, htext⟩, ?_⟩
    · rwa [Ne, String.toList_eq_nil_iff]
    · rintro ⟨digits, hd, hl, hh⟩
      cases htext.symm.trans hd
      exact hx ⟨hl, hh⟩

namespace Literal.Writable

variable {v : Literal}

theorem legible (h : v.Writable) : v.Legible := by
  cases v with
  | number _ _ | boolean _ => trivial
  | color text => exact ⟨h.matches, h⟩

theorem not_isNegative (h : v.Writable) : ¬ v.IsNegative := by
  cases v with
  | number _ value => exact Int.not_lt.2 h
  | color _ | boolean _ => exact id

end Literal.Writable

/-! ## Statements -/

namespace Stmt

mutual

def Writable : Stmt → Prop
  | rule _ selectors body => selectors ≠ [] ∧ (∀ s ∈ selectors, s.Writable) ∧ BodyWritable body
  | declaration _ property value =>
    IsLowerName property ∧ ∃ note v, value = .literal note v ∧ v.Writable
  | assignment _ _ _ => True
  | conditional _ _ _ _ => False

def BodyWritable : List Stmt → Prop
  | [] => True
  | stmt :: stmts => stmt.Writable ∧ BodyWritable stmts

end

/-- Rules and assignments may stand outside of rules. -/
def IsTop : Stmt → Prop
  | rule _ _ _ | assignment _ _ _ => True
  | declaration _ _ _ | conditional _ _ _ _ => False

theorem IsTop.isOuter : ∀ {s : Stmt}, s.IsTop → s.outline.IsOuter
  | .rule _ _ _, _ | .assignment _ _ _, _ => trivial
  | .declaration _ _ _, h | .conditional _ _ _ _, h => h.elim

/-- A body in normal form, of which all that is written can be read. -/
structure Readable (body : List Stmt) : Prop where
  reduced : BodyReduced body
  legible : Outline.BodyLegible (bodyOutline body)
  notNegative : ∀ v ∈ bodyDeclared body, ¬ v.IsNegative

theorem bodyDeclared_append : ∀ a b : List Stmt,
    bodyDeclared (a ++ b) = bodyDeclared a ++ bodyDeclared b
  | [], _ => rfl
  | stmt :: stmts, b => by
    rw [List.cons_append, bodyDeclared, bodyDeclared_append stmts b, bodyDeclared,
      List.append_assoc]

namespace Readable

theorem nil : Readable [] := ⟨trivial, trivial, nofun⟩

theorem append {a b : List Stmt} (ha : Readable a) (hb : Readable b) : Readable (a ++ b) where
  reduced := bodyReduced_append.2 ⟨ha.reduced, hb.reduced⟩
  legible := bodyLegible_append.2 ⟨ha.legible, hb.legible⟩
  notNegative := by
    rw [bodyDeclared_append]
    exact List.forall_mem_append.2 ⟨ha.notNegative, hb.notNegative⟩

theorem rule {note : Note} {selectors : List Selector} {body : List Stmt} (hne : selectors ≠ [])
    (hs : ∀ s ∈ selectors, s.Writable) (hb : Readable body) :
    Readable [.rule note selectors body] where
  reduced := ⟨hb.reduced, trivial⟩
  legible := ⟨⟨hne, fun s hm => (hs s hm).legible, hb.legible⟩, trivial⟩
  notNegative := by
    rw [bodyDeclared, declared, bodyDeclared, List.append_nil]
    exact hb.notNegative

theorem declaration {note : Note} {span : Span} {property : String} {v : Literal}
    (hp : IsLowerName property) (hv : v.Writable) :
    Readable [.declaration note property (.literal (.clean span) v)] where
  reduced := ⟨⟨span, v, rfl⟩, trivial⟩
  legible := ⟨⟨hp.fits, hv.legible, nofun⟩, trivial⟩
  notNegative := List.forall_mem_singleton.2 hv.not_isNegative

end Readable

mutual

theorem readable_stripped : ∀ s : Stmt, s.Writable →
    Readable (bodyMapNote Note.blank s.stripped)
  | .rule _ _ body, ⟨hne, hs, hb⟩ => .rule hne hs (readable_bodyStripped body hb)
  | .declaration _ _ _, ⟨hp, _, _, rfl, hv⟩ => .declaration hp hv
  | .assignment _ _ _, _ => .nil
  | .conditional _ _ _ _, h => h.elim

/-- Without assignments and notes nothing stands in the way of reading what is written. -/
theorem readable_bodyStripped : ∀ body : List Stmt, BodyWritable body →
    Readable (bodyMapNote Note.blank (bodyStripped body))
  | [], _ => .nil
  | stmt :: stmts, h => by
    rw [bodyStripped, bodyMapNote_append]
    exact (readable_stripped stmt h.1).append (readable_bodyStripped stmts h.2)

end

mutual

theorem bodyStripped_stripped : ∀ s : Stmt, bodyStripped s.stripped = s.stripped
  | .rule _ _ body => by
    rw [stripped, bodyStripped, stripped, bodyStripped_bodyStripped body]
    rfl
  | .declaration _ _ _ | .assignment _ _ _ | .conditional _ _ _ _ => rfl

theorem bodyStripped_bodyStripped : ∀ body : List Stmt,
    bodyStripped (bodyStripped body) = bodyStripped body
  | [] => rfl
  | stmt :: stmts => by
    rw [bodyStripped, bodyStripped_append, bodyStripped_stripped stmt,
      bodyStripped_bodyStripped stmts]

end

variable {f : Note → Note}

mutual

theorem stripped_mapNote : ∀ s : Stmt, (s.mapNote f).stripped = bodyMapNote f s.stripped
  | .rule _ _ body => by
    rw [mapNote, stripped, bodyStripped_bodyMapNote body]
    rfl
  | .declaration _ _ _ | .assignment _ _ _ => rfl
  | .conditional _ _ _ none | .conditional _ _ _ (some _) => rfl

theorem bodyStripped_bodyMapNote : ∀ body : List Stmt,
    bodyStripped (bodyMapNote f body) = bodyMapNote f (bodyStripped body)
  | [] => rfl
  | stmt :: stmts => by
    rw [bodyMapNote, bodyStripped, bodyStripped, bodyMapNote_append, stripped_mapNote stmt,
      bodyStripped_bodyMapNote stmts]

end

/-- Neither notes nor assignments are written. -/
theorem bodyLines_mapNote_bodyStripped (body : List Stmt) (level : Nat) :
    (bodyLines level (bodyMapNote Note.blank (bodyStripped body))).mapError Diagnostic.cause
      = (bodyLines level body).mapError Diagnostic.cause := by
  rw [mapError_bodyLines_mapNote (Note.retells_cause _), bodyLines_bodyStripped]

end Stmt

/-! ## Stylesheets -/

namespace Stylesheet

/-- A tree without conditionals of which all that is written can be read. -/
def Writable (sheet : Stylesheet) : Prop :=
  Stmt.BodyWritable sheet.body ∧ ∀ s ∈ sheet.body, s.IsTop

/-- What is written of a tree is read as the tree without its assignments, up to notes. -/
theorem read_css {sheet : Stylesheet} (h : sheet.Writable) (file : String) :
    ∃ css tokens result, sheet.css = .ok css ∧ Token.scan css file = .ok tokens
      ∧ ofTokens tokens file = .ok result
      ∧ Stmt.bodyMapNote Note.blank result.body
        = Stmt.bodyMapNote Note.blank (Stmt.bodyStripped sheet.body) := by
  obtain ⟨hw, htop⟩ := h
  -- The tree itself is not in normal form, but without assignments and notes it is, and it is
  -- written alike.
  have hr := Stmt.readable_bodyStripped sheet.body hw
  have houter : ∀ o ∈ Stmt.bodyOutline (Stmt.bodyMapNote Note.blank
      (Stmt.bodyStripped sheet.body)), o.IsOuter := by
    rw [Stmt.bodyOutline_mapNote]
    refine Stmt.outer_bodyStripped _ ?_
    rw [Stmt.bodyOutline_eq_map, List.forall_mem_map]
    exact fun s hs => (htop s hs).isOuter
  obtain ⟨lines, hout⟩ := Stmt.exists_bodyLines_of_reduced _ hr.reduced 0
  have hlines : Stmt.bodyLines 0 sheet.body = .ok lines := by
    rwa [← mapError_eq_ok_iff (g := Diagnostic.cause), Stmt.bodyLines_mapNote_bodyStripped,
      mapError_eq_ok_iff] at hout
  obtain ⟨result, hs, hb⟩ :=
    ofSource_bodyLines hr.reduced hr.legible houter hr.notNegative hout file
  obtain ⟨tokens, hscan, hread⟩ := bind_eq_ok_iff.1 hs
  refine ⟨_, tokens, result, bind_eq_ok_iff.2 ⟨lines, hlines, rfl⟩, hscan, hread, ?_⟩
  rw [hb, Stmt.bodyStripped_bodyMapNote, Stmt.bodyStripped_bodyStripped,
    Stmt.bodyMapNote_bodyMapNote]
  rfl

/-- An inner rule, an id that is no color, and assignments at both levels. -/
theorem read_css_nested :
    let note := Note.clean .nowhere
    let inner := Stmt.rule note [.byClass "a-1"]
      [.assignment note "Wide" (.var note "Other"),
        .declaration note "wide" (.literal note (.boolean true))]
    let sheet : Stylesheet := ⟨note, [.assignment note "Size" (.literal note (.number .scalar 1)),
      .rule note [.byTag "p", .byId "fff"]
        [.declaration note "width" (.literal note (.number .pixel 2147483647)), inner,
          .declaration note "color" (.literal note (.color "#00fF09"))]]⟩
    sheet.Writable ∧ ∃ css tokens result, sheet.css = .ok css
      ∧ Token.scan css "a.css" = .ok tokens ∧ ofTokens tokens "a.css" = .ok result
      ∧ Stmt.bodyMapNote Note.blank result.body
        = Stmt.bodyMapNote Note.blank (Stmt.bodyStripped sheet.body) := by
  intro note inner sheet
  have hwidth : IsLowerName "width" :=
    ⟨⟨'w', ['i', 'd', 't', 'h'], rfl, rfl, List.all_eq_true.1 rfl⟩, by decide, by decide⟩
  have hcolor : IsLowerName "color" :=
    ⟨⟨'c', ['o', 'l', 'o', 'r'], rfl, rfl, List.all_eq_true.1 rfl⟩, by decide, by decide⟩
  have hwide : IsLowerName "wide" :=
    ⟨⟨'w', ['i', 'd', 'e'], rfl, rfl, List.all_eq_true.1 rfl⟩, by decide, by decide⟩
  have hinner : inner.Writable :=
    ⟨List.cons_ne_nil _ _, List.forall_mem_singleton.2 ⟨by decide, List.all_eq_true.1 rfl⟩,
      trivial, ⟨hwide, _, _, rfl, trivial⟩, trivial⟩
  have hselectors : ∀ s ∈ [Selector.byTag "p", .byId "fff"], s.Writable :=
    List.forall_mem_cons.2 ⟨⟨⟨'p', [], rfl, rfl, nofun⟩, by decide, by decide⟩,
      List.forall_mem_singleton.2 ⟨by decide, List.all_eq_true.1 rfl, fun h => nomatch h.1⟩⟩
  have h : sheet.Writable := by
    refine ⟨⟨trivial, ⟨List.cons_ne_nil _ _, hselectors, ⟨hwidth, _, _, rfl, ?_⟩, hinner,
      ⟨hcolor, _, _, rfl, ?_⟩, trivial⟩, trivial⟩, ?_⟩
    · show (0 : Int) ≤ Int32.toInt 2147483647
      decide
    · exact ⟨['0', '0', 'f', 'F', '0', '9'], rfl, rfl, List.all_eq_true.1 rfl⟩
    · exact List.forall_mem_cons.2 ⟨trivial, List.forall_mem_singleton.2 trivial⟩
  exact ⟨h, read_css h "a.css"⟩

end Stylesheet

end StyleLang
