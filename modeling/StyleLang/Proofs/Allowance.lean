import StyleLang.Proofs.Source

/-!
# What a table of properties can change

Which properties are allowed matters to declarations and to nothing else. A table changes no type
and no scope, so trees that are checked with different tables differ in the complaints on their
declarations at most (`Stmt.excused_check`), and evaluation takes no notice of complaints. A table
that allows more finds fault with fewer nodes (`Stmt.allows_causes`).
-/

namespace StyleLang

/-- A table takes a value of the type for the property. -/
def PropertyTable.Accepts (table : PropertyTable) (property : String) (type : ValueType) : Prop :=
  ∃ types, table.accepted? property = some types ∧ type ∈ types

/-- Every property of a type that one table accepts is accepted by the other. -/
def PropertyTable.Below (p q : PropertyTable) : Prop :=
  ∀ property type, p.Accepts property type → q.Accepts property type

namespace Stmt

mutual

/-- The statement without the complaints on the declarations in it. Those on their values stay, and
so does everything else. -/
def excused : Stmt → Stmt
  | rule note selectors body => .rule note selectors (bodyExcused body)
  | declaration note property value => .declaration note.cleared property value
  | assignment note name value => .assignment note name value
  | conditional note condition body none => .conditional note condition (bodyExcused body) none
  | conditional note condition body (some elseBody) =>
    .conditional note condition (bodyExcused body) (some (bodyExcused elseBody))

def bodyExcused : List Stmt → List Stmt
  | [] => []
  | stmt :: stmts => stmt.excused :: bodyExcused stmts

end

end Stmt

/-- The stylesheet without the complaints on its declarations. -/
def Stylesheet.excused (sheet : Stylesheet) : Stylesheet :=
  ⟨sheet.note, Stmt.bodyExcused sheet.body⟩

/-- The diagnostics on notes that are numbered from the given number on, with their numbers. -/
def Note.numbered : Nat → List Note → List (Nat × Diagnostic)
  | _, [] => []
  | number, note :: notes =>
    note.diagnostic.toList.map (number, ·) ++ numbered (number + 1) notes

/-- The diagnostics on the nodes of a stylesheet, each with the number of its node and in their
order. -/
def Stylesheet.diagnosed (sheet : Stylesheet) : List (Nat × Diagnostic) :=
  Note.numbered 0 sheet.notes

/-! ## Tables and complaints -/

theorem Note.cleared_blame? (note : Note) (cause? : Option Cause) :
    (note.blame? cause?).cleared = note.cleared :=
  blind_cleared.blame? note cause?

namespace Stmt

variable (p q : PropertyTable)

/-- What is in scope behind a statement is not up to the table. -/
theorem scopes_check_congr (s : Stmt) (scopes : Scopes ValueType) :
    (s.check p scopes).scopes = (s.check q scopes).scopes := by
  cases s with
  | rule => rw [check, check, pop_scopes_checkBody_push, pop_scopes_checkBody_push]
  | declaration | assignment => rfl
  | conditional _ _ _ elseBody =>
    cases elseBody <;> simp only [check, pop_scopes_checkBody_push]

mutual

theorem excused_check : ∀ (s : Stmt) (scopes : Scopes ValueType),
    (s.check p scopes).node.excused = (s.check q scopes).node.excused
  | rule _ _ body, scopes => by
    rw [check, check, excused, excused, bodyExcused_checkBody body]
  | declaration _ _ _, _ => by
    rw [check, check, excused, excused, Note.cleared_blame?, Note.cleared_blame?]
  | assignment _ _ _, _ => rfl
  | conditional _ _ body none, scopes => by
    rw [check, check, excused, excused, bodyExcused_checkBody body]
  | conditional _ _ body (some elseBody), scopes => by
    simp only [check, excused, pop_scopes_checkBody_push, bodyExcused_checkBody body,
      bodyExcused_checkBody elseBody]

/-- Blocks that are checked with different tables differ in the complaints on declarations. -/
theorem bodyExcused_checkBody : ∀ (body : List Stmt) (scopes : Scopes ValueType),
    bodyExcused (checkBody p scopes body).node = bodyExcused (checkBody q scopes body).node
  | [], _ => rfl
  | stmt :: stmts, scopes => by
    rw [checkBody, checkBody, bodyExcused, bodyExcused, excused_check stmt,
      scopes_check_congr p q stmt, bodyExcused_checkBody stmts]

end

end Stmt

/-! ## Tables that allow more -/

/-- Where the one finds fault, so does the other. -/
def Cause.Allows (c d : Option Cause) : Prop :=
  d.isSome → c.isSome

theorem Cause.allows_refl (causes : List (Option Cause)) :
    List.Forall₂ Cause.Allows causes causes :=
  List.forall₂_same.2 fun _ _ => id

theorem PropertyTable.Below.allows {p q : PropertyTable} (h : p.Below q) (property : String)
    (type : ValueType) : Cause.Allows (p.fault? property type) (q.fault? property type) := by
  intro hq
  by_contra hp
  rw [Option.not_isSome_iff_eq_none, fault?_eq_none_iff] at hp
  rw [fault?_eq_none_iff.2 (h _ _ hp)] at hq
  cases hq

namespace Stmt

variable {p q : PropertyTable}

mutual

theorem allows_causes (h : p.Below q) : ∀ (s : Stmt) (scopes : Scopes ValueType),
    List.Forall₂ Cause.Allows (s.causes p scopes) (s.causes q scopes)
  | rule _ _ body, scopes => .cons id (allows_bodyCauses h body scopes.push)
  | declaration _ property _, _ => .cons (h.allows property _) (Cause.allows_refl _)
  | assignment _ _ _, _ => Cause.allows_refl _
  | conditional _ _ body none, scopes =>
    .cons id (List.rel_append (Cause.allows_refl _) (allows_bodyCauses h body scopes.push))
  | conditional _ _ body (some elseBody), scopes =>
    .cons id (List.rel_append
      (List.rel_append (Cause.allows_refl _) (allows_bodyCauses h body scopes.push))
      (allows_bodyCauses h elseBody scopes.push))

/-- What is wrong by a table that allows more is wrong by the other. -/
theorem allows_bodyCauses (h : p.Below q) : ∀ (body : List Stmt) (scopes : Scopes ValueType),
    List.Forall₂ Cause.Allows (bodyCauses p scopes body) (bodyCauses q scopes body)
  | [], _ => .nil
  | stmt :: stmts, scopes => by
    rw [bodyCauses, bodyCauses, scopes_check_congr p q stmt]
    exact List.rel_append (allows_causes h stmt scopes) (allows_bodyCauses h stmts _)

end

end Stmt

namespace Note

theorem map_snd_numbered : ∀ (notes : List Note) (number : Nat),
    (numbered number notes).map Prod.snd = notes.flatMap (·.diagnostic.toList)
  | [], _ => rfl
  | note :: notes, number => by
    rw [numbered, List.map_append, map_snd_numbered notes, List.flatMap_cons, List.map_map]
    cases note.diagnostic <;> rfl

/-- Fewer complaints on the same notes are a part of the others, as far as their places go. -/
theorem sublist_numbered {cs ds : List (Option Cause)} (h : List.Forall₂ Cause.Allows cs ds) :
    ∀ (notes : List Note) (number : Nat), notes.flatMap (·.diagnostic.toList) = [] →
      ((numbered number (List.zipWith blame? notes ds)).map
        (Prod.map id Diagnostic.position)).Sublist
      ((numbered number (List.zipWith blame? notes cs)).map
        (Prod.map id Diagnostic.position)) := by
  induction h with
  | nil => intro notes number _; simp [numbered]
  | @cons c d cs ds hcd _ ih =>
    rintro (_ | ⟨note, notes⟩) number hn
    · simp [numbered]
    · rw [List.flatMap_cons, List.append_eq_nil_iff, Option.toList_eq_nil_iff] at hn
      have ih := ih notes (number + 1) hn.2
      rw [List.zipWith_cons_cons, List.zipWith_cons_cons, numbered, numbered, List.map_append,
        List.map_append, diagnostic_blame? hn.1, diagnostic_blame? hn.1]
      refine List.Sublist.append ?_ ih
      rcases d with _ | d
      · simp
      · obtain ⟨c, rfl⟩ := Option.isSome_iff_exists.1 (hcd rfl)
        simp

end Note

namespace Stylesheet

variable {sheet : Stylesheet} (p q : PropertyTable)

theorem excused_check (sheet : Stylesheet) :
    (sheet.check p).1.excused = (sheet.check q).1.excused :=
  congrArg (Stylesheet.mk sheet.note) (Stmt.bodyExcused_checkBody p q sheet.body _)

/-- On the tree of a source that is checked every complaint has the number of a node. -/
theorem map_snd_diagnosed_check (h : sheet.diagnostics = []) :
    (sheet.check p).1.diagnosed.map Prod.snd = (sheet.check p).1.diagnostics := by
  rw [diagnostics, List.append_eq_nil_iff] at h
  rw [diagnosed, Note.map_snd_numbered, diagnostics_eq_notes]
  show _ = sheet.note.diagnostic.toList ++ _
  rw [h.1, List.nil_append]

variable {p q}

theorem sublist_diagnosed_check (h : sheet.diagnostics = []) (hpq : p.Below q) :
    ((sheet.check q).1.diagnosed.map (Prod.map id Diagnostic.position)).Sublist
      ((sheet.check p).1.diagnosed.map (Prod.map id Diagnostic.position)) := by
  rw [diagnostics_eq_notes, List.append_eq_nil_iff] at h
  have hp := (Checker.ofProperties p).notes_check sheet
  have hq := (Checker.ofProperties q).notes_check sheet
  have ha : List.Forall₂ Cause.Allows ((Checker.ofProperties p).causes sheet)
    ((Checker.ofProperties q).causes sheet) := Stmt.allows_bodyCauses hpq sheet.body _
  have hsub := Note.sublist_numbered ha sheet.notes 0 h.2
  rwa [← hp, ← hq] at hsub

end Stylesheet

variable {source file : String}

theorem excused_check_of_source (p q : PropertyTable) (always always' : Bool) :
    (check ⟨p, always⟩ source file).map Stylesheet.excused
      = (check ⟨q, always'⟩ source file).map Stylesheet.excused := by
  rw [check_eq_map, check_eq_map]
  cases Stylesheet.ofSource source file with
  | error fault => rfl
  | ok sheet => exact congrArg Except.ok (Stylesheet.excused_check p q sheet)

/-- Where nothing keeps a tree from being evaluated, a source is compiled to what it is read as. -/
theorem compile_always (p : PropertyTable) : compile ⟨p, true⟩ source file
    = (Stylesheet.ofSource source file >>= Stylesheet.emit).mapError ([·]) := by
  have hc : check ⟨p, true⟩ source file = _ := check_eq_map
  cases hs : Stylesheet.ofSource source file with
  | error fault =>
    rw [hs] at hc
    exact compile_of_check_error hc
  | ok sheet =>
    rw [hs] at hc
    rw [compile_of_check_ok hc, Bool.not_true, Bool.and_false, Stylesheet.emit_check]
    rfl

/-- Of two tables, both trees are the same but for the complaints on declarations; the output and
the failure of an evaluation that is not kept back by faults are the same, and so is an output that
there is under both. If the second table accepts what the first one does, it has complaints on some
of the nodes on which the first one has them, in the same order. -/
theorem check_and_compile_of_tables (p q : PropertyTable) (source file : String) :
    (∀ always always', (check ⟨p, always⟩ source file).map Stylesheet.excused
        = (check ⟨q, always'⟩ source file).map Stylesheet.excused)
      ∧ compile ⟨p, true⟩ source file = compile ⟨q, true⟩ source file
      ∧ (∀ always always' css css', compile ⟨p, always⟩ source file = .ok css →
        compile ⟨q, always'⟩ source file = .ok css' → css = css')
      ∧ (p.Below q → ∀ always always' a b, check ⟨p, always⟩ source file = .ok a →
        check ⟨q, always'⟩ source file = .ok b →
          a.diagnosed.map Prod.snd = a.diagnostics ∧ b.diagnosed.map Prod.snd = b.diagnostics
            ∧ (b.diagnosed.map (Prod.map id Diagnostic.position)).Sublist
              (a.diagnosed.map (Prod.map id Diagnostic.position))) := by
  refine ⟨excused_check_of_source p q, ?_, ?_, ?_⟩
  · rw [compile_always, compile_always]
  · intro always always' css css' hp hq
    obtain ⟨sheet, hs, -, he⟩ := compile_eq_ok_iff.1 hp
    obtain ⟨sheet', hs', -, he'⟩ := compile_eq_ok_iff.1 hq
    cases hs.symm.trans hs'
    exact Except.ok.inj (he.symm.trans he')
  · intro hpq always always' a b ha hb
    rw [check_eq_map] at ha hb
    rcases hs : Stylesheet.ofSource source file with fault | sheet <;> rw [hs] at ha hb
    · cases ha
    · cases ha
      cases hb
      have hd := (Stylesheet.tree_of_ofSource hs).1
      exact ⟨Stylesheet.map_snd_diagnosed_check p hd, Stylesheet.map_snd_diagnosed_check q hd,
        Stylesheet.sublist_diagnosed_check hd hpq⟩

theorem PropertyTable.colorOnly_below_standard : colorOnly.Below standard := by
  rintro property type ⟨types, ht, hm⟩
  refine ⟨types, ?_, hm⟩
  simp only [accepted?, colorOnly, standard, ofList, Bindings.ofList, List.map_cons, List.map_nil,
    List.foldl_cons, List.foldl_nil, Bindings.find?_insert, Bindings.find?_empty] at ht ⊢
  split at ht
  · rename_i h
    rw [h]
    simpa [fold] using ht
  · cases ht

/-- A table of colors alone complains of the width and of the color, the standard one of the color
alone. The values stay in the output. -/
theorem check_and_compile_of_tables_width :
    let source := "p \x7b if [TRUE] \x7b width: 1px; \x7d color: 2 + 3; \x7d"
    let css := "p \x7b\n  width: 1px;\n  color: 5;\n\x7d\n"
    let p : Options := ⟨.colorOnly, true⟩
    let q : Options := ⟨.standard, true⟩
    p.properties.Below q.properties ∧ compile p source "a.icss" = .ok css
      ∧ compile q source "a.icss" = .ok css
      ∧ ∃ a b, check p source "a.icss" = .ok a ∧ check q source "a.icss" = .ok b
        ∧ a.diagnosed.map Prod.fst = [3, 5] ∧ b.diagnosed.map Prod.fst = [5]
        ∧ (b.diagnosed.map (Prod.map id Diagnostic.position)).Sublist
          (a.diagnosed.map (Prod.map id Diagnostic.position)) := by
  intro source css p q
  have hp : compile p source "a.icss" = .ok css := by decide +kernel
  have hpn : (check p source "a.icss").map (·.diagnosed.map Prod.fst) = .ok [3, 5] := by
    decide +kernel
  have hqn : (check q source "a.icss").map (·.diagnosed.map Prod.fst) = .ok [5] := by
    decide +kernel
  obtain ⟨-, hpq, -, hsub⟩ := check_and_compile_of_tables p.properties q.properties source "a.icss"
  have hbelow : p.properties.Below q.properties := PropertyTable.colorOnly_below_standard
  obtain ⟨a, ha, hpn⟩ := map_eq_ok_iff.1 hpn
  obtain ⟨b, hb, hqn⟩ := map_eq_ok_iff.1 hqn
  exact ⟨hbelow, hp, hpq.symm.trans hp, a, b, ha, hb, hpn, hqn,
    (hsub hbelow true true a b ha hb).2.2⟩

end StyleLang
