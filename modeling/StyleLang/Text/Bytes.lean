/-!
# Counting bytes

Places in a source are byte offsets into its UTF-8 form. `byteCount` is the number of bytes of a
text and `dropBytes?` the rest of a text from an offset on, which exists at the boundaries of
characters only (`dropBytes?_eq_some_iff`).
-/

namespace StyleLang

def byteCount : List Char → Nat
  | [] => 0
  | c :: cs => c.utf8Size + byteCount cs

@[simp] theorem byteCount_nil : byteCount [] = 0 := rfl

@[simp] theorem byteCount_cons (c : Char) (cs : List Char) :
    byteCount (c :: cs) = c.utf8Size + byteCount cs := rfl

@[simp] theorem byteCount_append (s t : List Char) :
    byteCount (s ++ t) = byteCount s + byteCount t := by
  induction s with
  | nil => simp
  | cons c cs ih => simp [ih, Nat.add_assoc]

theorem byteCount_replicate (n : Nat) (c : Char) :
    byteCount (List.replicate n c) = n * c.utf8Size := by
  induction n with
  | zero => simp
  | succ n ih => rw [List.replicate_succ, byteCount_cons, ih, Nat.succ_mul, Nat.add_comm]

theorem byteCount_eq_zero_iff {s : List Char} : byteCount s = 0 ↔ s = [] := by
  cases s with
  | nil => simp
  | cons c cs =>
    have := c.utf8Size_pos
    simp
    omega

theorem utf8ByteSize_ofList (cs : List Char) : (String.ofList cs).utf8ByteSize = byteCount cs := by
  induction cs with
  | nil => rfl
  | cons c cs ih =>
    rw [byteCount_cons, ← ih, String.ofList_cons, String.utf8ByteSize_append,
      String.utf8ByteSize_singleton]

theorem byteCount_toList (s : String) : byteCount s.toList = s.utf8ByteSize := by
  rw [← utf8ByteSize_ofList, String.ofList_toList]

/-- The text from a byte offset on; there is none inside a character or past the end. -/
def dropBytes? : List Char → Nat → Option (List Char)
  | cs, 0 => some cs
  | [], _ + 1 => none
  | c :: cs, n + 1 => if c.utf8Size ≤ n + 1 then dropBytes? cs (n + 1 - c.utf8Size) else none

theorem dropBytes?_append_byteCount :
    ∀ s t : List Char, dropBytes? (s ++ t) (byteCount s) = some t
  | [], t => by cases t <;> rfl
  | c :: cs, t => by
    have hc := c.utf8Size_pos
    obtain ⟨n, hn⟩ : ∃ n, byteCount (c :: cs) = n + 1 :=
      ⟨byteCount (c :: cs) - 1, by rw [byteCount_cons]; omega⟩
    rw [hn, List.cons_append, dropBytes?, ← hn, byteCount_cons, if_pos (by omega),
      Nat.add_sub_cancel_left]
    exact dropBytes?_append_byteCount cs t

theorem dropBytes?_eq_some_iff {cs r : List Char} {n : Nat} :
    dropBytes? cs n = some r ↔ ∃ s, cs = s ++ r ∧ n = byteCount s := by
  constructor
  · intro h
    fun_induction dropBytes? cs n with
    | case1 cs => exact ⟨[], by simpa using h⟩
    | case2 => cases h
    | case3 c cs n hc ih =>
      obtain ⟨s, rfl, hs⟩ := ih h
      exact ⟨c :: s, rfl, by rw [byteCount_cons]; omega⟩
    | case4 => cases h
  · rintro ⟨s, rfl, rfl⟩
    exact dropBytes?_append_byteCount s r

end StyleLang
