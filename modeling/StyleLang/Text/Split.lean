/-!
# Taking a piece off the front of a text

`run?`, `strip?` and `upToClosing?` give a piece at the front of a text and the text behind it, and
the two make up the text again (`append_of_run?`, `append_of_strip?`, `append_of_upToClosing?`).
`stripAll` and `stripEnd` take a piece off as often as it stands at the front or at the end.
-/

namespace StyleLang.Split

/-- The longest run at the front of characters in a class, if there is one. -/
def run? (p : Char → Bool) (cs : List Char) : Option (List Char × List Char) :=
  if cs.takeWhile p = [] then none else some (cs.takeWhile p, cs.dropWhile p)

/-- A given text at the front. -/
def strip? : List Char → List Char → Option (List Char × List Char)
  | [], cs => some ([], cs)
  | _ :: _, [] => none
  | p :: ps, c :: cs => if p = c then (strip? ps cs).map fun (s, r) => (c :: s, r) else none

/-- What stands up to and including the first `*/`. -/
def upToClosing? : List Char → Option (List Char × List Char)
  | '*' :: '/' :: cs => some (['*', '/'], cs)
  | c :: cs => (upToClosing? cs).map fun (s, r) => (c :: s, r)
  | [] => none

def stripAll (p cs : List Char) : List Char :=
  if p ≠ [] ∧ p <+: cs then stripAll p (cs.drop p.length) else cs
termination_by cs.length
decreasing_by
  rename_i h
  have hp := List.length_pos_iff.2 h.1
  have hc := h.2.length_le
  rw [List.length_drop]
  omega

def stripEnd (p cs : List Char) : List Char :=
  (stripAll p.reverse cs.reverse).reverse

variable {cs s r : List Char}

theorem append_of_run? {p : Char → Bool} (h : run? p cs = some (s, r)) : s ++ r = cs := by
  simp only [run?] at h
  split at h
  · cases h
  · cases h
    exact List.takeWhile_append_dropWhile

theorem run?_ne_nil {p : Char → Bool} (h : run? p cs = some (s, r)) : s ≠ [] := by
  simp only [run?] at h
  split at h
  · cases h
  · rename_i hs
    cases h
    exact hs

theorem strip?_eq_some_iff {p : List Char} :
    strip? p cs = some (s, r) ↔ s = p ∧ cs = p ++ r := by
  fun_induction strip? p cs generalizing s with
  | case1 cs => simp [eq_comm]
  | case2 => simp
  | case3 ps c cs ih =>
    simp only [Option.map_eq_some_iff, Prod.exists, Prod.mk.injEq, List.cons_append,
      List.cons.injEq, true_and]
    constructor
    · rintro ⟨s', r', h, rfl, rfl⟩
      obtain ⟨rfl, h⟩ := ih.1 h
      exact ⟨rfl, h⟩
    · rintro ⟨rfl, h⟩
      exact ⟨ps, r, ih.2 ⟨rfl, h⟩, rfl, rfl⟩
  | case4 p ps c cs h =>
    simp only [reduceCtorEq, List.cons_append, List.cons.injEq, false_iff]
    rintro ⟨_, rfl, _⟩
    exact h rfl

theorem append_of_strip? {p : List Char} (h : strip? p cs = some (s, r)) : s ++ r = cs := by
  obtain ⟨rfl, rfl⟩ := strip?_eq_some_iff.1 h
  rfl

theorem append_of_upToClosing? (h : upToClosing? cs = some (s, r)) : s ++ r = cs := by
  fun_induction upToClosing? cs generalizing s with
  | case1 cs =>
    cases h
    rfl
  | case2 c cs _ ih =>
    simp only [Option.map_eq_some_iff, Prod.exists, Prod.mk.injEq] at h
    obtain ⟨s', r', h, rfl, rfl⟩ := h
    rw [List.cons_append, ih h]
  | case3 => cases h

end StyleLang.Split
