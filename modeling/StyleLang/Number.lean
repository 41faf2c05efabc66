/-!
# Numbers

The numbers of a stylesheet are 32-bit signed integers. Arithmetic is done on integers without
bound and brought back by `Number.ofInt?`, which gives the number with that very value
(`Number.ofInt?_eq_some_iff`) and nothing for a value that is out of range.
-/

namespace StyleLang

abbrev Number := Int32

namespace Number

/-- The number with the given value, if 32 bits can hold it. -/
def ofInt? (n : Int) : Option Number :=
  if -2147483648 ≤ n ∧ n < 2147483648 then some (Int32.ofInt n) else none

theorem ofInt?_eq_some_iff {n : Int} {k : Number} : ofInt? n = some k ↔ k.toInt = n := by
  unfold ofInt?
  constructor
  · intro h
    split at h
    · rename_i hn
      cases h
      exact Int32.toInt_ofInt_of_le (by omega) hn.2
    · cases h
  · rintro rfl
    have h₁ := k.le_toInt
    have h₂ := k.toInt_lt
    rw [if_pos ⟨by omega, by omega⟩, Int32.ofInt_toInt]

theorem ofInt?_toInt (k : Number) : ofInt? k.toInt = some k :=
  ofInt?_eq_some_iff.2 rfl

theorem ofInt?_eq_none_iff {n : Int} : ofInt? n = none ↔ n < -2147483648 ∨ 2147483648 ≤ n := by
  unfold ofInt?
  split <;> simp <;> omega

end Number

end StyleLang
