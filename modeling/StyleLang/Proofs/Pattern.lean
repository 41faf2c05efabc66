import StyleLang.Token.Shape

/-!
# The texts of each shape

`Shape.Matches` says which texts are of a shape, `Kind.Fits` which texts make a token of a kind.

What `Shape.split?` takes off a text is of its shape (`Shape.matches_of_split?`), and where a text
of the shape stands in front, something is taken, for all shapes but the comment between slash and
star at least as much (`Shape.split?_of_matches`).
-/

namespace StyleLang

namespace Split

variable {cs s r : List Char}

theorem run?_append {p : Char → Bool} {t : List Char} (hs : s ≠ []) (h : ∀ c ∈ s, p c) :
    run? p (s ++ t) = some (s ++ t.takeWhile p, t.dropWhile p) := by
  rw [run?, List.takeWhile_append_of_pos h, List.dropWhile_append_of_pos h, if_neg]
  simp [hs]

theorem of_mem_run? {p : Char → Bool} (h : run? p cs = some (s, r)) : ∀ c ∈ s, p c := by
  simp only [run?] at h
  split at h <;> cases h
  exact fun c hc => List.all_eq_true.1 List.all_takeWhile c hc

/-- A run ends at the end of the text or before a character of another class. -/
theorem head?_of_run? {p : Char → Bool} (h : run? p cs = some (s, r)) :
    ∀ c ∈ r.head?, p c = false := by
  simp only [run?] at h
  split at h <;> cases h
  intro c hc
  have := List.head?_dropWhile_not p cs
  rw [Option.mem_def.1 hc] at this
  simpa using this

theorem strip?_append (p t : List Char) : strip? p (p ++ t) = some (p, t) :=
  strip?_eq_some_iff.2 ⟨rfl, rfl⟩

/-- What is taken ends with the first `*/`. -/
theorem upToClosing?_eq_some {s r : List Char} (h : upToClosing? cs = some (s, r)) :
    ∃ t, s = t ++ ['*', '/'] ∧ ¬ ['*', '/'] <:+: t ++ ['*'] := by
  fun_induction upToClosing? cs generalizing s with
  | case1 cs =>
    cases h
    exact ⟨[], rfl, by decide⟩
  | case2 c cs hc ih =>
    simp only [Option.map_eq_some_iff, Prod.exists, Prod.mk.injEq] at h
    obtain ⟨s', r', h, rfl, rfl⟩ := h
    obtain ⟨t, rfl, ht⟩ := ih h
    refine ⟨c :: t, rfl, ?_⟩
    rw [List.cons_append, List.infix_cons_iff]
    rintro (hp | hi)
    · obtain ⟨rfl, hp'⟩ := List.cons_prefix_cons.1 hp
      have hcs := append_of_upToClosing? h
      cases t with
      | nil => exact absurd hp' (by decide)
      | cons d t =>
        obtain ⟨rfl, -⟩ := List.cons_prefix_cons.1 hp'
        exact hc _ rfl hcs.symm
    · exact ht hi
  | case3 => cases h

theorem upToClosing?_append (s t : List Char) :
    ∃ u, upToClosing? (s ++ '*' :: '/' :: t) = some u := by
  induction s with
  | nil => exact ⟨_, rfl⟩
  | cons c s ih =>
    obtain ⟨u, hu⟩ := ih
    rw [List.cons_append, upToClosing?.eq_def]
    split
    · exact ⟨_, rfl⟩
    · rename_i h
      cases h
      exact ⟨_, by rw [hu]; rfl⟩
    · rename_i h
      cases h

end Split

namespace Shape

/-- The texts of a shape. -/
def Matches : Shape → List Char → Prop
  | blank, s => s ≠ [] ∧ ∀ c ∈ s, isBlank c
  | lineComment, s => ∃ t, s = '/' :: '/' :: t ∧ '\n' ∉ t
  | blockComment, s => ∃ t, s = '/' :: '*' :: (t ++ ['*', '/'])
  | number measure, s =>
    ∃ digits, digits ≠ [] ∧ (∀ c ∈ digits, c.isDigit) ∧ s = digits ++ measure.suffix.toList
  | hash, s => ∃ t, t ≠ [] ∧ (∀ c ∈ t, isIdChar c) ∧ s = '#' :: t
  | dot, s => ∃ t, t ≠ [] ∧ (∀ c ∈ t, isLowerChar c) ∧ s = '.' :: t
  | lower, s => ∃ c t, c.isLower ∧ (∀ c ∈ t, isLowerChar c) ∧ s = c :: t
  | capital, s => ∃ c t, c.isUpper ∧ (∀ c ∈ t, isCapitalChar c) ∧ s = c :: t
  | mark m, s => s = m.text.toList

/-- Blanks and comments make no tokens. -/
def IsTrivia : Shape → Prop
  | blank | lineComment | blockComment => True
  | _ => False

variable {cs s r : List Char}

theorem matches_of_split? {shape : Shape} (h : shape.split? cs = some (s, r)) :
    shape.Matches s := by
  unfold split? at h
  split at h
  · exact ⟨Split.run?_ne_nil h, Split.of_mem_run? h⟩
  · cases h
    refine ⟨_, rfl, fun hn => ?_⟩
    have := List.all_eq_true.1 List.all_takeWhile _ hn
    simp at this
  · obtain ⟨⟨s', r'⟩, h, he⟩ := Option.map_eq_some_iff.1 h
    cases he
    obtain ⟨t, rfl, -⟩ := Split.upToClosing?_eq_some h
    exact ⟨t, rfl⟩
  · obtain ⟨⟨digits, r'⟩, hr, h⟩ := Option.bind_eq_some_iff.1 h
    obtain ⟨⟨s'', r''⟩, h, he⟩ := Option.map_eq_some_iff.1 h
    cases he
    obtain ⟨rfl, -⟩ := Split.strip?_eq_some_iff.1 h
    exact ⟨digits, Split.run?_ne_nil hr, Split.of_mem_run? hr, rfl⟩
  · obtain ⟨⟨s', r'⟩, h, he⟩ := Option.map_eq_some_iff.1 h
    cases he
    exact ⟨s', Split.run?_ne_nil h, Split.of_mem_run? h, rfl⟩
  · obtain ⟨⟨s', r'⟩, h, he⟩ := Option.map_eq_some_iff.1 h
    cases he
    exact ⟨s', Split.run?_ne_nil h, Split.of_mem_run? h, rfl⟩
  · split at h <;> cases h
    exact ⟨_, _, by assumption, fun c hc => List.all_eq_true.1 List.all_takeWhile c hc, rfl⟩
  · split at h <;> cases h
    exact ⟨_, _, by assumption, fun c hc => List.all_eq_true.1 List.all_takeWhile c hc, rfl⟩
  · exact (Split.strip?_eq_some_iff.1 h).1
  · cases h

theorem split?_number_scalar {digits : List Char} (hd : digits ≠ [])
    (hc : ∀ c ∈ digits, c.isDigit) (t : List Char) :
    (number .scalar).split? (digits ++ t)
      = some (digits ++ t.takeWhile Char.isDigit, t.dropWhile Char.isDigit) := by
  simp [split?, Split.run?_append hd hc, Measure.suffix, Split.strip?]

/-- A unit behind the digits ends them. -/
theorem split?_number_of_suffix {measure : Measure} (hm : measure ≠ .scalar) {digits : List Char}
    (hd : digits ≠ []) (hc : ∀ c ∈ digits, c.isDigit) (t : List Char) :
    (number measure).split? (digits ++ (measure.suffix.toList ++ t))
      = some (digits ++ measure.suffix.toList, t) := by
  have hs : (measure.suffix.toList ++ t).takeWhile Char.isDigit = []
      ∧ (measure.suffix.toList ++ t).dropWhile Char.isDigit = measure.suffix.toList ++ t := by
    cases measure with
    | pixel => exact ⟨rfl, rfl⟩
    | percentage => exact ⟨rfl, rfl⟩
    | scalar => exact absurd rfl hm
  simp [split?, Split.run?_append hd hc, hs.1, hs.2, Split.strip?_append]

/-- The longest lexeme of a shape is taken, save of comments between slash and star. -/
theorem split?_of_matches {shape : Shape} (h : shape.Matches s) (t : List Char) :
    ∃ s' r, shape.split? (s ++ t) = some (s', r)
      ∧ (shape ≠ .blockComment → s.length ≤ s'.length) := by
  cases shape with
  | blank => exact ⟨_, _, Split.run?_append h.1 h.2, fun _ => by simp⟩
  | lineComment =>
    obtain ⟨u, rfl, hu⟩ := h
    have hc : ∀ c ∈ u, decide (c ≠ '\n') = true := by
      rintro c hc
      rw [decide_eq_true_eq]
      rintro rfl
      exact hu hc
    refine ⟨'/' :: '/' :: (u ++ t.takeWhile (· ≠ '\n')), t.dropWhile (· ≠ '\n'), ?_,
      fun _ => by simp⟩
    rw [List.cons_append, List.cons_append, split?, List.takeWhile_append_of_pos hc,
      List.dropWhile_append_of_pos hc]
  | blockComment =>
    obtain ⟨u, rfl⟩ := h
    obtain ⟨v, hv⟩ := Split.upToClosing?_append u t
    refine ⟨'/' :: '*' :: v.1, v.2, ?_, fun h => absurd rfl h⟩
    simp [split?, hv]
  | number measure =>
    obtain ⟨digits, hd, hc, rfl⟩ := h
    rw [List.append_assoc]
    by_cases hm : measure = .scalar
    · subst hm
      exact ⟨_, _, split?_number_scalar hd hc _, fun _ => by simp [Measure.suffix]⟩
    · exact ⟨_, _, split?_number_of_suffix hm hd hc t, fun _ => Nat.le_refl _⟩
  | hash =>
    obtain ⟨u, hu, hc, rfl⟩ := h
    refine ⟨_, _, by rw [List.cons_append, split?, Split.run?_append hu hc]; rfl, fun _ => ?_⟩
    simp
  | dot =>
    obtain ⟨u, hu, hc, rfl⟩ := h
    refine ⟨_, _, by rw [List.cons_append, split?, Split.run?_append hu hc]; rfl, fun _ => ?_⟩
    simp
  | lower =>
    obtain ⟨c, u, hl, hc, rfl⟩ := h
    refine ⟨c :: (u ++ t.takeWhile isLowerChar), t.dropWhile isLowerChar, ?_, fun _ => by simp⟩
    rw [List.cons_append, split?, if_pos hl, List.takeWhile_append_of_pos hc,
      List.dropWhile_append_of_pos hc]
  | capital =>
    obtain ⟨c, u, hl, hc, rfl⟩ := h
    refine ⟨c :: (u ++ t.takeWhile isCapitalChar), t.dropWhile isCapitalChar, ?_, fun _ => by simp⟩
    rw [List.cons_append, split?, if_pos hl, List.takeWhile_append_of_pos hc,
      List.dropWhile_append_of_pos hc]
  | mark m =>
    cases h
    exact ⟨_, _, Split.strip?_append _ t, fun _ => Nat.le_refl _⟩

theorem kind?_eq_none_iff {shape : Shape} : shape.kind? s = none ↔ shape.IsTrivia := by
  cases shape <;> simp [kind?, IsTrivia]

/-- The code points at which a text of a shape may start, as inclusive ranges. -/
def startRanges : Shape → List (Nat × Nat)
  | blank => blankRanges
  | lineComment | blockComment => [(0x2f, 0x2f)]
  | number _ => [(0x30, 0x39)]
  | hash => [(0x23, 0x23)]
  | dot => [(0x2e, 0x2e)]
  | lower => [(0x61, 0x7a)]
  | capital => [(0x41, 0x5a)]
  | mark m => (m.text.toList.head?.map fun c => (c.toNat, c.toNat)).toList

/-- A shape that starts like the given one and is the last such in the order of trial. -/
def family : Shape → Shape
  | lineComment => blockComment
  | number _ => number .scalar
  | mark .assign => mark .colon
  | shape => shape

theorem disjoint_startRanges : ∀ a ∈ all, ∀ b ∈ all, a.family = b.family
    ∨ ∀ p ∈ a.startRanges, ∀ q ∈ b.startRanges, p.2 < q.1 ∨ q.2 < p.1 := by
  decide +kernel

theorem exists_startRange {shape : Shape} {c : Char} (h : shape.Matches (c :: s)) :
    ∃ p ∈ shape.startRanges, p.1 ≤ c.toNat ∧ c.toNat ≤ p.2 := by
  cases shape with
  | blank =>
    obtain ⟨p, hp, hc⟩ := List.any_eq_true.1 (h.2 c List.mem_cons_self)
    exact ⟨p, hp, by simpa using hc⟩
  | lineComment =>
    obtain ⟨t, ht, -⟩ := h
    cases ht
    decide
  | blockComment =>
    obtain ⟨t, ht⟩ := h
    cases ht
    decide
  | number measure =>
    obtain ⟨_ | ⟨d, digits⟩, hd, hc, ht⟩ := h
    · exact absurd rfl hd
    · have hd := hc d List.mem_cons_self
      cases ht
      simpa [startRanges, Char.isDigit, UInt32.le_iff_toNat_le] using hd
  | hash =>
    obtain ⟨t, -, -, ht⟩ := h
    cases ht
    decide
  | dot =>
    obtain ⟨t, -, -, ht⟩ := h
    cases ht
    decide
  | lower =>
    obtain ⟨d, t, hd, -, ht⟩ := h
    cases ht
    delta Char.isLower at hd
    simpa [startRanges, UInt32.le_iff_toNat_le] using hd
  | capital =>
    obtain ⟨d, t, hd, -, ht⟩ := h
    cases ht
    delta Char.isUpper at hd
    simpa [startRanges, UInt32.le_iff_toNat_le] using hd
  | mark m =>
    have h : c :: s = m.text.toList := h
    exact ⟨(c.toNat, c.toNat), by simp [startRanges, ← h], Nat.le_refl _, Nat.le_refl _⟩

theorem Matches.ne_nil {shape : Shape} (h : shape.Matches s) : s ≠ [] := by
  rintro rfl
  obtain ⟨s', r, hs, -⟩ := split?_of_matches h []
  have := append_of_split? hs
  exact split?_ne_nil hs (List.append_eq_nil_iff.1 this).1

/-- Shapes that fit texts with the same first character are of one family. -/
theorem Matches.family_eq_of_head {a b : Shape} {c : Char} {t : List Char}
    (ha : a.Matches (c :: s)) (hb : b.Matches (c :: t)) : a.family = b.family := by
  obtain ⟨p, hp, hpc⟩ := exists_startRange ha
  obtain ⟨q, hq, hqc⟩ := exists_startRange hb
  rcases disjoint_startRanges a (mem_all a) b (mem_all b) with h | h
  · exact h
  · have := h p hp q hq
    omega

theorem Matches.family_eq {a b : Shape} (ha : a.Matches s) (hb : b.Matches s) :
    a.family = b.family := by
  obtain ⟨c, t, rfl⟩ := List.exists_cons_of_ne_nil ha.ne_nil
  exact ha.family_eq_of_head hb

/-- The texts of colors: six hexadecimal digits behind a `#`. -/
def IsColor (s : List Char) : Prop :=
  ∃ digits, s = '#' :: digits ∧ digits.length = 6 ∧ ∀ c ∈ digits, isHexDigit c

theorem isIdChar_of_isHexDigit {c : Char} (h : isHexDigit c) : isIdChar c := by
  rw [isIdChar]
  delta Char.isAlphanum Char.isAlpha Char.isUpper Char.isLower
  simp [isHexDigit, Char.isDigit, Char.le_def, UInt32.le_iff_toNat_le] at h ⊢
  omega

theorem IsColor.matches (h : IsColor s) : hash.Matches s := by
  obtain ⟨digits, rfl, hl, hc⟩ := h
  refine ⟨digits, ?_, fun c hm => isIdChar_of_isHexDigit (hc c hm), rfl⟩
  rintro rfl
  cases hl

theorem isColor_eq_true_iff : isColor s = true ↔ IsColor s := by
  unfold isColor IsColor
  split
  · simp
  · rename_i h
    simp only [Bool.false_eq_true, false_iff, not_exists, not_and]
    rintro digits rfl
    exact absurd rfl (h digits)

end Shape

/-- The texts of reserved words. -/
def IsReserved (s : List Char) : Prop :=
  ∃ word : Word, s = word.text.toList

/-- The texts that make a token of a kind; an end has none. -/
def Kind.Fits : Kind → List Char → Prop
  | ending, _ => False
  | number measure, s => (Shape.number measure).Matches s
  | color, s => Shape.hash.Matches s ∧ Shape.IsColor s
  | idName, s => Shape.hash.Matches s ∧ ¬ Shape.IsColor s
  | className, s => Shape.dot.Matches s
  | lowerName, s => Shape.lower.Matches s ∧ ¬ IsReserved s
  | capitalName, s => Shape.capital.Matches s ∧ ¬ IsReserved s
  | mark m, s => s = m.text.toList
  | word w, s => s = w.text.toList

namespace Shape

variable {s : List Char}

theorem nameKind_eq {otherwise : Kind} :
    (∃ w : Word, s = w.text.toList ∧ nameKind otherwise s = .word w)
      ∨ ¬ IsReserved s ∧ nameKind otherwise s = otherwise := by
  unfold nameKind
  rcases hw : Word.ofText? (String.ofList s) with _ | w
  · refine .inr ⟨?_, rfl⟩
    rintro ⟨w, rfl⟩
    rw [String.ofList_toList, Word.ofText?_eq_some_iff.2 rfl] at hw
    cases hw
  · refine .inl ⟨w, ?_, rfl⟩
    rw [← Word.ofText?_eq_some_iff.1 hw, String.toList_ofList]

theorem fits_of_kind? {shape : Shape} {kind : Kind} (h : shape.Matches s)
    (hk : shape.kind? s = some kind) : kind.Fits s := by
  cases shape with
  | blank => cases hk
  | lineComment => cases hk
  | blockComment => cases hk
  | number measure =>
    cases hk
    exact h
  | hash =>
    cases hk
    by_cases hc : isColor s
    · rw [if_pos hc]
      exact ⟨h, isColor_eq_true_iff.1 hc⟩
    · rw [if_neg hc]
      exact ⟨h, fun hi => hc (isColor_eq_true_iff.2 hi)⟩
  | dot =>
    cases hk
    exact h
  | lower =>
    cases hk
    rcases nameKind_eq with ⟨w, hs, hw⟩ | ⟨hr, hw⟩
    · rw [hw]
      exact hs
    · rw [hw]
      exact ⟨h, hr⟩
  | capital =>
    cases hk
    rcases nameKind_eq with ⟨w, hs, hw⟩ | ⟨hr, hw⟩
    · rw [hw]
      exact hs
    · rw [hw]
      exact ⟨h, hr⟩
  | mark m =>
    cases hk
    exact h

end Shape

theorem IsReserved.matches {s : List Char} (h : IsReserved s) :
    Shape.lower.Matches s ∨ Shape.capital.Matches s := by
  obtain ⟨w, rfl⟩ := h
  rcases w with _ | _ | _ | _
  · exact .inl ⟨'i', ['f'], by decide, List.all_eq_true.1 rfl, rfl⟩
  · exact .inl ⟨'e', ['l', 's', 'e'], by decide, List.all_eq_true.1 rfl, rfl⟩
  · exact .inr ⟨'F', ['A', 'L', 'S', 'E'], by decide, List.all_eq_true.1 rfl, rfl⟩
  · exact .inr ⟨'T', ['R', 'U', 'E'], by decide, List.all_eq_true.1 rfl, rfl⟩

namespace Kind

variable {kind : Kind} {s : List Char}

/-- The shapes of the texts of a kind. -/
def shapes : Kind → List Shape
  | ending => []
  | number measure => [.number measure]
  | color | idName => [.hash]
  | className => [.dot]
  | lowerName => [.lower]
  | capitalName => [.capital]
  | mark m => [.mark m]
  | word _ => [.lower, .capital]

theorem Fits.exists_shape (h : kind.Fits s) : ∃ shape ∈ kind.shapes, shape.Matches s := by
  cases kind with
  | ending => exact h.elim
  | color | idName | lowerName | capitalName => exact ⟨_, List.mem_cons_self, h.1⟩
  | number _ | className | mark _ => exact ⟨_, List.mem_cons_self, h⟩
  | word w =>
    rcases IsReserved.matches ⟨w, h⟩ with hs | hs
    · exact ⟨_, List.mem_cons_self, hs⟩
    · exact ⟨_, List.mem_cons_of_mem _ List.mem_cons_self, hs⟩

theorem family_shapes : ∀ kind ∈ all, (∀ a ∈ kind.shapes, a.family = .hash → kind = .color
    ∨ kind = .idName) ∧ ∀ a ∈ kind.shapes, a.family = .lower ∨ a.family = .capital →
      (∃ w ∈ Word.all, kind = .word w) ∨ kind = .lowerName ∨ kind = .capitalName := by
  decide +kernel

/-- A token is of a reserved word exactly where its whole text is one. -/
theorem Fits.isWord_iff (h : kind.Fits s) : (∃ w, kind = .word w) ↔ IsReserved s := by
  constructor
  · rintro ⟨w, rfl⟩
    exact ⟨w, h⟩
  · intro hr
    obtain ⟨a, ha, hm⟩ := h.exists_shape
    have hf : a.family = .lower ∨ a.family = .capital :=
      hr.matches.imp hm.family_eq hm.family_eq
    rcases (family_shapes kind (mem_all kind)).2 a ha hf with ⟨w, -, hw⟩ | rfl | rfl
    · exact ⟨w, hw⟩
    · exact absurd hr h.2
    · exact absurd hr h.2

/-- A token is a color exactly where its whole text is `#` and six hexadecimal digits. -/
theorem Fits.eq_color_iff (h : kind.Fits s) : kind = .color ↔ Shape.IsColor s := by
  constructor
  · rintro rfl
    exact h.2
  · intro hc
    obtain ⟨a, ha, hm⟩ := h.exists_shape
    rcases (family_shapes kind (mem_all kind)).1 a ha (hm.family_eq hc.matches) with hk | rfl
    · exact hk
    · exact absurd hc h.2

end Kind

end StyleLang
