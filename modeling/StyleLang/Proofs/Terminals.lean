import StyleLang.Grammar.Statement
import StyleLang.Proofs.Grouping
import StyleLang.Proofs.Pattern

/-!
# Tokens as operands and selectors

A token is lexical where its text is one that its kind is given for. For such tokens
`Token.operand` and `Token.selector?` give just what the grammar derives the token from: nothing
but the suffix of a number and the marker of a name is taken off their texts.
-/

namespace StyleLang

namespace Split

theorem stripAll_of_not_prefix {p cs : List Char} (h : p = [] ∨ ¬ p <+: cs) :
    stripAll p cs = cs := by
  rw [stripAll, if_neg]
  rintro ⟨hp, hc⟩
  exact h.elim hp fun h => h hc

theorem stripAll_append {p cs : List Char} (h : p = [] ∨ ¬ p <+: cs) :
    stripAll p (p ++ cs) = cs := by
  by_cases hp : p = []
  · subst hp
    exact stripAll_of_not_prefix h
  · rw [stripAll, if_pos ⟨hp, List.prefix_append p cs⟩, List.drop_left]
    exact stripAll_of_not_prefix h

end Split

theorem Measure.stripEnd_digits {measure : Measure} {digits : List Char}
    (h : ∀ c ∈ digits, c.isDigit) :
    Split.stripEnd measure.suffix.toList (digits ++ measure.suffix.toList) = digits := by
  unfold Split.stripEnd
  rw [List.reverse_append, Split.stripAll_append, List.reverse_reverse]
  have hc : ∀ c ∈ digits.reverse.head?, c.isDigit := fun c hc =>
    h c (List.mem_reverse.1 (List.mem_of_mem_head? hc))
  cases measure with
  | scalar => exact .inl rfl
  | pixel =>
    refine .inr fun hp => ?_
    obtain ⟨t, ht⟩ := hp
    exact absurd (hc 'x' (by rw [← ht]; rfl)) (by decide)
  | percentage =>
    refine .inr fun hp => ?_
    obtain ⟨t, ht⟩ := hp
    exact absurd (hc '%' (by rw [← ht]; rfl)) (by decide)

/-- The number a text stands for is the value of its digits. -/
theorem Number.ofText?_eq {measure : Measure} {text : String} {digits : List Char}
    (ht : text.toList = digits ++ measure.suffix.toList) (hd : digits ≠ [])
    (hc : ∀ c ∈ digits, c.isDigit) :
    ofText? measure text = ofInt? (Nat.ofDigitChars 10 digits 0) := by
  unfold ofText?
  rw [ht, Measure.stripEnd_digits hc]
  obtain ⟨c, cs, rfl⟩ := List.exists_cons_of_ne_nil hd
  rw [Decimal.read?_of_isDigit (hc c List.mem_cons_self), Decimal.readNat?,
    if_pos ⟨hd, List.all_eq_true.2 hc⟩, Option.map_some, Option.bind_some,
    Int.ofNat_eq_natCast]

namespace Token

/-- The text of the token is one that its kind is given for. -/
def Lexical (token : Token) : Prop :=
  token.kind.Fits token.text.toList

variable {token : Token}

theorem Lexical.kind_ne_ending (h : token.Lexical) : token.kind ≠ .ending := by
  intro hk
  unfold Lexical at h
  rw [hk] at h
  exact h

theorem Lexical.matches_number (h : token.Lexical) {measure : Measure}
    (hk : token.kind = .number measure) : (Shape.number measure).Matches token.text.toList := by
  unfold Lexical at h
  rw [hk] at h
  exact h

/-- A token is lexical if scanning its text gives one lexeme, of its kind. -/
theorem lexical_of_first? (h : ∃ shape ∈ Shape.all,
    Lexeme.first? token.text.toList = some ⟨shape, token.text.toList, []⟩
      ∧ shape.kind? token.text.toList = some token.kind) : token.Lexical := by
  obtain ⟨shape, -, hf, hk⟩ := h
  exact Shape.fits_of_kind? (Shape.matches_of_split? (Lexeme.split?_of_first? hf)) hk

/-- What a token is read as, it is derived from. -/
theorem derives_of_operand (h : token.Lexical) {expr : Expr} (he : token.operand = .ok expr) :
    ∃ x : Operand, x.Derives token ∧ expr.row = ⟨x, []⟩ := by
  unfold operand at he
  split at he
  · rename_i measure hk
    obtain ⟨digits, hd, hc, ht⟩ := h.matches_number hk
    rw [Number.ofText?_eq ht hd hc] at he
    split at he
    · rename_i value hv
      cases he
      exact ⟨_, .number hk ht (Number.ofInt?_eq_some_iff.1 hv), rfl⟩
    · cases he
  · rename_i hk
    cases he
    exact ⟨_, .color hk, rfl⟩
  · rename_i value hk
    cases he
    exact ⟨_, .boolean hk, rfl⟩
  · rename_i hk
    cases he
    exact ⟨_, .name hk, rfl⟩
  · cases he

theorem category_of_operand {fault : Diagnostic} (h : token.operand = .error fault) :
    fault.cause.category = .syntaxError := by
  unfold operand at h
  split at h
  · split at h <;> cases h
    rfl
  all_goals cases h
  rfl

end Token

/-- What a token is derived from, it is read as. -/
theorem Operand.Derives.operand_eq {x : Operand} {token : Token} (hx : x.Derives token)
    (h : token.Lexical) :
    ∃ expr, token.operand = .ok expr ∧ expr.mapNote Note.unplaced = x.expr := by
  unfold Token.operand
  cases hx with
  | @number _ measure value digits hk ht hv =>
    obtain ⟨digits', hd, hc, ht'⟩ := h.matches_number hk
    obtain rfl : digits' = digits := List.append_cancel_right (ht'.symm.trans ht)
    rw [hk]
    simp only [Number.ofText?_eq ht hd hc, Number.ofInt?_eq_some_iff.2 hv]
    exact ⟨_, rfl, rfl⟩
  | color hk =>
    rw [hk]
    exact ⟨_, rfl, rfl⟩
  | boolean hk =>
    rw [hk]
    exact ⟨_, rfl, rfl⟩
  | name hk =>
    rw [hk]
    exact ⟨_, rfl, rfl⟩

namespace Token

variable {token : Token}

/-- One marker stands in front of a name. -/
theorem text_eq_append_bareName {marker : Char} {name : List Char}
    (ht : token.text.toList = marker :: name) (hn : ∀ c ∈ name, c ≠ marker) :
    token.text = String.singleton marker ++ token.bareName marker := by
  have hb : token.bareName marker = String.ofList name := by
    unfold bareName
    rw [ht, List.dropWhile_cons_of_pos (by simp)]
    cases name with
    | nil => rfl
    | cons c cs => rw [List.dropWhile_cons_of_neg (by simpa using hn c List.mem_cons_self)]
  rw [hb, ← String.ofList_cons, ← ht, String.ofList_toList]

theorem Lexical.text_eq_of_idName (h : token.Lexical) (hk : token.kind = .idName) :
    token.text = "#" ++ token.bareName '#' := by
  unfold Lexical at h
  rw [hk] at h
  obtain ⟨⟨name, -, hc, ht⟩, -⟩ := h
  refine text_eq_append_bareName ht fun c hm hn => ?_
  exact absurd (hn ▸ hc c hm) (by decide)

theorem Lexical.text_eq_of_className (h : token.Lexical) (hk : token.kind = .className) :
    token.text = "." ++ token.bareName '.' := by
  unfold Lexical at h
  rw [hk] at h
  obtain ⟨name, -, hc, ht⟩ := h
  refine text_eq_append_bareName ht fun c hm hn => ?_
  exact absurd (hn ▸ hc c hm) (by decide)

theorem selector?_eq_some_iff (h : token.Lexical) {selector : Selector} :
    token.selector? = some selector ↔ selector.Derives token := by
  constructor
  · intro hs
    unfold selector? at hs
    split at hs
    · rename_i hk
      cases hs
      exact ⟨hk, rfl⟩
    · rename_i hk
      cases hs
      exact ⟨hk, h.text_eq_of_idName hk⟩
    · rename_i hk
      cases hs
      exact ⟨hk, h.text_eq_of_className hk⟩
    · cases hs
  · rintro ⟨hk, ht⟩
    unfold selector?
    rw [hk]
    cases selector with
    | byTag name => exact congrArg (some ∘ Selector.byTag) ht
    | byId name =>
      have hn := (h.text_eq_of_idName hk).symm.trans ht
      exact congrArg (some ∘ Selector.byId) ((String.append_right_inj _).1 hn)
    | byClass name =>
      have hn := (h.text_eq_of_className hk).symm.trans ht
      exact congrArg (some ∘ Selector.byClass) ((String.append_right_inj _).1 hn)

end Token

end StyleLang
