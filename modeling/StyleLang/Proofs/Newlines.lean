import StyleLang.Proofs.Lines
import StyleLang.Proofs.Tiling

/-!
# Lines by the bytes of a source

A newline is a single byte, and no other character has that byte in its UTF-8 form
(`newline_notMem_utf8EncodeChar`). So the newlines before a byte offset can be counted on the bytes,
also where the offset is inside a character, and they are those before the line that holds the byte
(`Line.count_take_utf8`).

What `lineAt?` finds is told by the offset alone (`lineAt_exact`): there is a line for every offset
up to the end of a source that is not empty, its number counts the newlines, its text goes from one
newline to the next, and the bytes in front of it and the column make up the offset.
-/

namespace StyleLang

/-- The bytes of a text. -/
def utf8 (text : List Char) : List UInt8 :=
  text.flatMap String.utf8EncodeChar

@[simp] theorem utf8_cons (c : Char) (cs : List Char) :
    utf8 (c :: cs) = String.utf8EncodeChar c ++ utf8 cs := rfl

@[simp] theorem utf8_append (s t : List Char) : utf8 (s ++ t) = utf8 s ++ utf8 t :=
  List.flatMap_append

theorem length_utf8 (text : List Char) : (utf8 text).length = byteCount text := by
  induction text with
  | nil => rfl
  | cons c cs ih =>
    rw [utf8_cons, List.length_append, String.length_utf8EncodeChar, ih, byteCount_cons]

/-- The bytes of a character other than a newline are other bytes. -/
theorem newline_notMem_utf8EncodeChar {c : Char} (h : c ≠ '\n') :
    10 ∉ String.utf8EncodeChar c := by
  have hne {n : Nat} (hn : n < 256) (h10 : n ≠ 10) : (10 : UInt8) ≠ UInt8.ofNat n := by
    intro heq
    have hn' := congrArg UInt8.toNat heq
    rw [UInt8.toNat_ofNat_of_lt' hn] at hn'
    exact h10 hn'.symm
  have hc : c.val.toNat ≠ 10 := fun hv => h (Char.ext (UInt32.toNat_inj.1 hv))
  -- The bytes of a longer character are all at least 128.
  unfold String.utf8EncodeChar
  simp only
  split_ifs <;> simp only [List.mem_cons, List.not_mem_nil, or_false, not_or]
  · exact hne (by omega) hc
  · exact ⟨hne (by omega) (by omega), hne (by omega) (by omega)⟩
  · exact ⟨hne (by omega) (by omega), hne (by omega) (by omega), hne (by omega) (by omega)⟩
  · exact ⟨hne (by omega) (by omega), hne (by omega) (by omega), hne (by omega) (by omega),
      hne (by omega) (by omega)⟩

theorem count_utf8 (text : List Char) : (utf8 text).count 10 = text.count '\n' := by
  induction text with
  | nil => rfl
  | cons c cs ih =>
    rw [utf8_cons, List.count_append, ih, List.count_cons, Nat.add_comm]
    by_cases hc : c = '\n'
    · subst hc
      rfl
    · rw [List.count_eq_zero_of_not_mem (newline_notMem_utf8EncodeChar hc),
        if_neg (by simpa using hc)]

namespace Line

/-- Before a byte of a line that ends at its first newline there is no newline on the line. -/
theorem newline_notMem_take_utf8 {line after : List Char} {column : Nat} (hne : line ≠ [])
    (hn : '\n' ∉ line.dropLast) (h : column < byteCount line) :
    10 ∉ (utf8 (line ++ after)).take column := by
  obtain ⟨body, c, rfl⟩ := line.eq_nil_or_concat'.resolve_left hne
  rw [List.dropLast_concat] at hn
  have hclean {text : List Char} (ht : '\n' ∉ text) : 10 ∉ utf8 text :=
    List.count_eq_zero.1 ((count_utf8 text).trans (List.count_eq_zero_of_not_mem ht))
  have hsub {text : List Char} (hle : column ≤ byteCount text) (ht : text <+: body ++ [c]) :
      (utf8 (body ++ [c] ++ after)).take column ⊆ utf8 text := by
    obtain ⟨rest, hrest⟩ := ht
    rw [← hrest, List.append_assoc, utf8_append,
      List.take_append_of_le_length (by rwa [length_utf8])]
    exact List.take_subset _ _
  by_cases hc : c = '\n'
  · -- The newline is the last byte of the line, and not before any of them.
    subst hc
    have hle : column ≤ byteCount body := by
      rw [byteCount_append] at h
      exact Nat.le_of_lt_succ h
    exact fun hm => hclean hn (hsub hle (List.prefix_append _ _) hm)
  · have hline : '\n' ∉ body ++ [c] := by simpa [hn] using Ne.symm hc
    exact fun hm => hclean hline (hsub (Nat.le_of_lt h) List.prefix_rfl hm)

/-- The newlines before a byte are those before its line. -/
theorem Splits.count_take_utf8 {text before line after : List Char} {offset : Nat}
    (hs : Splits text before line after) (hle : byteCount before ≤ offset)
    (hlt : offset < byteCount before + byteCount line) :
    ((utf8 text).take offset).count 10 = before.count '\n' := by
  have hcolumn : offset - byteCount before < byteCount line := by omega
  rw [hs.text_eq, List.append_assoc, utf8_append, List.take_append,
    List.take_of_length_le (by rwa [length_utf8]), List.count_append, count_utf8, length_utf8,
    List.count_eq_zero_of_not_mem
      (newline_notMem_take_utf8 hs.ne_nil hs.newline_notMem hcolumn), Nat.add_zero]

/-! ## The end of a text -/

/-- A line, and what is left of it without its line ending. -/
inductive Shown : List Char → List Char → Prop
  | crlf {shown : List Char} : Shown (shown ++ ['\r', '\n']) shown
  | newline {shown : List Char} : shown.getLast? ≠ some '\r' → Shown (shown ++ ['\n']) shown
  | final {line : List Char} : line.getLast? ≠ some '\n' → Shown line line

theorem shown_chomp (line : List Char) : Shown line (chomp line) := by
  unfold chomp
  split
  · rename_i rest h
    have hs : Shown (rest.reverse ++ ['\r', '\n']) rest.reverse := .crlf
    rw [← List.reverse_reverse line, h]
    simpa using hs
  · rename_i rest hne h
    rw [← List.reverse_reverse line, h, List.reverse_cons]
    refine .newline fun hr => ?_
    rw [List.getLast?_reverse] at hr
    obtain ⟨rest', rfl⟩ := List.head?_eq_some_iff.1 hr
    exact hne rest' rfl
  · rename_i _ hnewline
    refine .final fun hl => ?_
    rw [List.getLast?_eq_head?_reverse] at hl
    obtain ⟨rest, hr⟩ := List.head?_eq_some_iff.1 hl
    exact hnewline rest hr

/-- The number of lines of a text that is not empty: one for each newline, and one for what stands
behind the last. -/
def total (text : List Char) : Nat :=
  text.count '\n' + if text.getLast? = some '\n' then 0 else 1

/-- The last line has the number of all lines. -/
theorem Splits.total_eq {text before line : List Char} (hs : Splits text before line []) :
    total text = before.count '\n' + 1 := by
  obtain ⟨body, c, rfl⟩ := line.eq_nil_or_concat'.resolve_left hs.ne_nil
  have hn := hs.newline_notMem
  rw [List.dropLast_concat] at hn
  have htext : text = before ++ body ++ [c] := by simpa using hs.text_eq
  rw [total, htext, List.getLast?_concat, List.count_append, List.count_append,
    List.count_eq_zero_of_not_mem hn, List.count_singleton]
  by_cases hc : c = '\n' <;> simp [hc]

/-! ## Finding a line by its offset -/

/-- The line of a byte is found by the newlines before the byte. -/
theorem lineAt?_inside {text : List Char} {offset : Nat} (h : offset < byteCount text) :
    ∃ before line after column, Splits text before line after
      ∧ byteCount before + column = offset ∧ column < byteCount line
      ∧ lineAt? text offset = some ⟨1 + ((utf8 text).take offset).count 10, line, column⟩ := by
  obtain ⟨before, line, after, hs, hle, hlt, hat⟩ := lineAt?_of_lt h
  refine ⟨before, line, after, offset - byteCount before, hs, by omega, by omega, ?_⟩
  rw [hat, hs.count_take_utf8 hle hlt, Nat.add_comm]

/-- For the end the last of all lines is found. -/
theorem lineAt?_end {text : List Char} (h : text ≠ []) :
    ∃ before line shown, Splits text before line [] ∧ Shown line shown
      ∧ lineAt? text (byteCount text) = some ⟨total text, shown, byteCount shown⟩ := by
  obtain ⟨before, line, hs, hat⟩ := lineAt?_byteCount h
  exact ⟨before, line, chomp line, hs, shown_chomp line, by rw [hat, hs.total_eq]⟩

theorem lineAt?_eq_none_iff {text : List Char} {offset : Nat} :
    lineAt? text offset = none ↔ byteCount text < offset ∨ text = [] := by
  constructor
  · intro hnone
    by_contra hnot
    obtain ⟨hle, hne⟩ := not_or.1 hnot
    rcases Nat.lt_or_eq_of_le (Nat.le_of_not_lt hle) with hlt | rfl
    · obtain ⟨_, _, _, _, _, _, _, hat⟩ := lineAt?_inside hlt
      rw [hnone] at hat
      cases hat
    · obtain ⟨_, _, _, _, _, hat⟩ := lineAt?_end hne
      rw [hnone] at hat
      cases hat
  · rintro (hlt | rfl)
    · rw [lineAt?, if_neg (by omega), if_neg (by omega)]
    · cases offset <;> rfl

end Line

/-- An offset has a line up to the end of a source, unless that is empty. The line goes from one
newline to the next, and its number is one more than the newlines before the offset. At the end of
the source it is the last line, without its line ending, and the column is behind it. -/
theorem lineAt_exact (source : String) (offset : Nat) :
    (lineAt? source.toList offset = none ↔ source.utf8ByteSize < offset ∨ source = "")
      ∧ (offset < source.utf8ByteSize → ∃ before line after column,
          Line.Splits source.toList before line after
            ∧ byteCount before + column = offset ∧ column < byteCount line
            ∧ lineAt? source.toList offset
              = some ⟨1 + ((utf8 source.toList).take offset).count 10, line, column⟩)
      ∧ (source ≠ "" → ∃ before line shown,
          Line.Splits source.toList before line [] ∧ Line.Shown line shown
            ∧ lineAt? source.toList source.utf8ByteSize
              = some ⟨Line.total source.toList, shown, byteCount shown⟩) := by
  have hempty : source = "" ↔ source.toList = [] := String.toList_eq_nil_iff.symm
  rw [← byteCount_toList, hempty]
  exact ⟨Line.lineAt?_eq_none_iff, Line.lineAt?_inside, fun h => Line.lineAt?_end (mt hempty.2 h)⟩

/-- In `p`, a newline and `é` with `\r\n` behind it, the second byte of the accent is on the second
of two lines, and so is the end. -/
theorem lineAt_exact_accent :
    let source := "p\n\u00e9\r\n"
    3 < source.utf8ByteSize ∧ source ≠ ""
      ∧ (∃ before line after column, Line.Splits source.toList before line after
        ∧ byteCount before + column = 3 ∧ column < byteCount line
        ∧ lineAt? source.toList 3 = some ⟨2, line, column⟩)
      ∧ ∃ before line shown, Line.Splits source.toList before line [] ∧ Line.Shown line shown
        ∧ lineAt? source.toList source.utf8ByteSize = some ⟨2, shown, byteCount shown⟩ := by
  intro source
  have hlt : 3 < source.utf8ByteSize := by decide
  have hne : source ≠ "" := by decide
  have hcount : ((utf8 source.toList).take 3).count 10 = 1 := by decide
  have htotal : Line.total source.toList = 2 := by decide
  obtain ⟨-, hinside, hend⟩ := lineAt_exact source 3
  rw [hcount] at hinside
  rw [htotal] at hend
  exact ⟨hlt, hne, hinside hlt, hend hne⟩

end StyleLang
