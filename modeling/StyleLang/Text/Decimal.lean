/-!
# Decimal text

Integers are written with `Decimal.ofInt`, a minus sign and the digits, and read with
`Decimal.read?`, which also takes a plus sign and leading zeros.
-/

namespace StyleLang.Decimal

def ofInt : Int → String
  | .ofNat n => String.ofList (Nat.toDigits 10 n)
  | .negSucc n => String.ofList ('-' :: Nat.toDigits 10 (n + 1))

/-- The value of a text of one or more digits. -/
def readNat? (digits : List Char) : Option Nat :=
  if digits ≠ [] ∧ digits.all Char.isDigit then some (Nat.ofDigitChars 10 digits 0) else none

/-- The value of a text of one or more digits with at most one sign before them. -/
def read? : List Char → Option Int
  | '-' :: digits => (readNat? digits).map (-Int.ofNat ·)
  | '+' :: digits => (readNat? digits).map Int.ofNat
  | digits => (readNat? digits).map Int.ofNat

theorem read?_of_isDigit {c : Char} {cs : List Char} (h : c.isDigit) :
    read? (c :: cs) = (readNat? (c :: cs)).map Int.ofNat := by
  unfold read?
  split
  · rename_i h'
    cases h'
    simp at h
  · rename_i h'
    cases h'
    simp at h
  · rfl

end StyleLang.Decimal
