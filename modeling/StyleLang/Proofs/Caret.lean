import StyleLang.Compile
import StyleLang.Proofs.Lines

/-!
# Where the caret stands

A complaint at a character of a source is shown with the line of that character and with a caret in
the line below. How far the caret is moved is counted in bytes, and of what stands in front of the
shown line only spaces and tabs are taken off. So the caret stands under the character exactly where
the line begins with spaces and tabs alone and has characters of one byte up to there
(`Diagnostic.display_caret`). Where it would be moved by `widestField` places or more, the complaint
cannot be shown (`Diagnostic.display?_eq_none_iff`).
-/

namespace StyleLang

theorem dropWhile_append_cons {α : Type} {p : α → Bool} {a : α} (ha : ¬ p a) (l r : List α) :
    (l ++ a :: r).dropWhile p = l.dropWhile p ++ a :: r := by
  rw [List.dropWhile_append]
  split
  · rename_i h
    rw [List.isEmpty_iff.1 h, List.dropWhile_cons_of_neg ha]
    rfl
  · rfl

theorem length_le_byteCount : ∀ cs : List Char, cs.length ≤ byteCount cs
  | [] => Nat.le_refl 0
  | c :: cs => by
    have hc := c.utf8Size_pos
    have ih := length_le_byteCount cs
    rw [List.length_cons, byteCount_cons]
    omega

theorem byteCount_eq_length_iff :
    ∀ {cs : List Char}, byteCount cs = cs.length ↔ ∀ c ∈ cs, c.utf8Size = 1
  | [] => by simp
  | c :: cs => by
    have hc := c.utf8Size_pos
    have hle := length_le_byteCount cs
    have ih := @byteCount_eq_length_iff cs
    rw [List.length_cons, byteCount_cons, List.forall_mem_cons, ← ih]
    omega

/-- Of two beginnings of a text the one with fewer bytes begins the other. -/
theorem exists_append_of_byteCount_le {s t u v : List Char} (h : s ++ t = u ++ v)
    (hle : byteCount s ≤ byteCount u) : ∃ w, u = s ++ w ∧ t = w ++ v := by
  rcases List.append_eq_append_iff.1 h with ⟨w, hu, ht⟩ | ⟨w, rfl, rfl⟩
  · exact ⟨w, hu, ht⟩
  · rw [byteCount_append] at hle
    obtain rfl : w = [] := byteCount_eq_zero_iff.1 (by omega)
    exact ⟨[], by simp⟩

/-! ## The line up to a character -/

namespace Line

/-- The line that a text has begun: what stands behind its last newline. -/
def begun (before : List Char) : List Char :=
  (before.reverse.takeWhile (· ≠ '\n')).reverse

theorem begun_append {before text : List Char} (hb : ∀ c ∈ before.getLast?, c = '\n')
    (ht : '\n' ∉ text) : begun (before ++ text) = text := by
  have hpos : ∀ c ∈ text.reverse, decide (c ≠ '\n') = true := fun c hc =>
    decide_eq_true fun h => ht (h ▸ List.mem_reverse.1 hc)
  rw [begun, List.reverse_append, List.takeWhile_append_of_pos hpos]
  rcases hr : before.reverse with _ | ⟨c, cs⟩
  · simp
  · rw [List.getLast?_eq_head?_reverse, hr] at hb
    rw [List.takeWhile_cons_of_neg (by simpa using hb c rfl), List.append_nil, List.reverse_reverse]

/-- A character is found on the line that the text before it has begun. -/
theorem lineAt?_append (before after : List Char) (c : Char) :
    ∃ rest, '\n' ∉ (begun before ++ c :: rest).dropLast
      ∧ lineAt? (before ++ c :: after) (byteCount before)
        = some ⟨before.count '\n' + 1, begun before ++ c :: rest, byteCount (begun before)⟩ := by
  have hc := c.utf8Size_pos
  have hlt : byteCount before < byteCount (before ++ c :: after) := by
    rw [byteCount_append, byteCount_cons]
    omega
  obtain ⟨above, line, below, hs, hle, hlt, hat⟩ := lineAt?_of_lt hlt
  have heq := hs.text_eq
  rw [List.append_assoc] at heq
  obtain ⟨text, rfl, hline⟩ := exists_append_of_byteCount_le heq.symm hle
  rw [byteCount_append] at hlt
  obtain ⟨rest, rfl, hrest⟩ := exists_append_of_byteCount_le hline.symm (by omega)
  cases rest with
  | nil => simp at hlt
  | cons c' rest =>
    obtain ⟨rfl, -⟩ := List.cons.inj hrest
    have hn := hs.newline_notMem
    rw [List.dropLast_append_cons] at hn
    have htext : '\n' ∉ text := fun h => hn (List.mem_append_left _ h)
    refine ⟨rest, ?_, ?_⟩
    · rwa [begun_append hs.start htext, List.dropLast_append_cons]
    · rw [hat, begun_append hs.start htext, byteCount_append, Nat.add_sub_cancel_left,
        List.count_append, List.count_eq_zero_of_not_mem htext, Nat.add_zero]

/-! ## The line shown and the caret -/

theorem newline_notMem_begun (before : List Char) : '\n' ∉ begun before := by
  intro h
  have hp := List.all_eq_true.1 List.all_takeWhile _ (List.mem_reverse.1 h)
  simp at hp

/-- A line is shown from its first character that is not blank up to the last one. -/
theorem trim_append_cons {c : Char} (hc : ¬ isBlank c) (text rest : List Char) :
    trim (text ++ c :: rest)
      = text.dropWhile isBlank ++ c :: (rest.reverse.dropWhile isBlank).reverse := by
  rw [trim, dropWhile_append_cons hc, List.reverse_append, List.reverse_cons, List.append_assoc,
    List.singleton_append, dropWhile_append_cons hc, List.reverse_append, List.reverse_cons,
    List.append_assoc, List.reverse_reverse, List.singleton_append]

theorem newline_notMem_trimEnd {c : Char} {rest : List Char} (h : '\n' ∉ (c :: rest).dropLast) :
    '\n' ∉ (rest.reverse.dropWhile isBlank).reverse := by
  rw [List.mem_reverse]
  rcases rest.eq_nil_or_concat' with rfl | ⟨front, last, rfl⟩
  · simp
  rw [← List.cons_append, List.dropLast_concat] at h
  have hfront : '\n' ∉ front.reverse := fun hm => h (List.mem_cons_of_mem _ (List.mem_reverse.1 hm))
  rw [List.reverse_append, List.reverse_singleton, List.singleton_append]
  by_cases hl : isBlank last
  · rw [List.dropWhile_cons_of_pos hl]
    exact fun hm => hfront ((List.dropWhile_suffix _).subset hm)
  · rw [List.dropWhile_cons_of_neg hl, List.mem_cons]
    rintro (rfl | hm)
    · exact hl (by decide)
    · exact hfront hm

theorem caretWidth_append_cons {c : Char} (hc : ¬ isIndent c) (number column : Nat)
    (text rest : List Char) : caretWidth ⟨number, text ++ c :: rest, column⟩
      = column - (text.takeWhile isIndent).length + 1 := by
  rw [caretWidth, takeWhile_append_cons hc]

/-- The line of a character that is not blank, and the line below it with the caret. -/
theorem display_append_cons {c : Char} (hc : ¬ isBlank c) (number : Nat) (text rest : List Char) :
    let digits := Nat.toDigits 10 number
    let bar := List.replicate (digits.length + 1) ' ' ++ ['|']
    let dashes := List.replicate (byteCount text - (text.takeWhile isIndent).length) '-'
    display ⟨number, text ++ c :: rest, byteCount text⟩
      = bar ++ '\n' :: (digits ++ [' ', '|', ' '] ++ text.dropWhile isBlank
          ++ c :: (rest.reverse.dropWhile isBlank).reverse)
        ++ '\n' :: (bar ++ ' ' :: dashes ++ ['^', '\n']) := by
  intro digits bar dashes
  have hi : ¬ isIndent c := fun h => hc (isBlank_of_isIndent h)
  rw [display_eq, trim_append_cons hc, caretWidth_append_cons hi, Nat.add_sub_cancel]
  simp [digits, bar, dashes]

theorem takeWhile_isIndent_takeWhile_isBlank (text : List Char) :
    (text.takeWhile isBlank).takeWhile isIndent = text.takeWhile isIndent := by
  have hi : (fun c => decide (isIndent c ∧ isBlank c)) = isIndent := by
    funext c
    by_cases h : isIndent c
    · simp [h, isBlank_of_isIndent h]
    · simp [h]
  rw [List.takeWhile_takeWhile, hi]

theorem byteCount_eq_indent_iff {blanks : List Char} :
    byteCount blanks = (blanks.takeWhile isIndent).length ↔ ∀ b ∈ blanks, isIndent b := by
  have hp := List.takeWhile_prefix (l := blanks) isIndent
  constructor
  · intro h
    have hle := length_le_byteCount blanks
    exact List.takeWhile_eq_self_iff.1 (hp.eq_of_length_le (by omega))
  · intro h
    rw [List.takeWhile_eq_self_iff.2 h, byteCount_eq_length_iff]
    intro b hb
    have hi := h b hb
    simp only [isIndent, Bool.or_eq_true, decide_eq_true_eq] at hi
    rcases hi with rfl | rfl <;> rfl

/-- The caret is moved by as many places as there are characters, if spaces and tabs are the only
blanks at the start and no character behind them has more than one byte. -/
theorem move_eq_length_iff (text : List Char) :
    byteCount text - (text.takeWhile isIndent).length = (text.dropWhile isBlank).length
      ↔ (∀ b ∈ text.takeWhile isBlank, isIndent b)
        ∧ ∀ x ∈ text.dropWhile isBlank, x.utf8Size = 1 := by
  have hsplit : byteCount text
      = byteCount (text.takeWhile isBlank) + byteCount (text.dropWhile isBlank) := by
    rw [← byteCount_append, List.takeWhile_append_dropWhile]
  have hblanks := length_le_byteCount (text.takeWhile isBlank)
  have hshown := length_le_byteCount (text.dropWhile isBlank)
  have hindent := (List.takeWhile_prefix (l := text.takeWhile isBlank) isIndent).length_le
  rw [← byteCount_eq_indent_iff, ← byteCount_eq_length_iff, takeWhile_isIndent_takeWhile_isBlank,
    hsplit]
  rw [takeWhile_isIndent_takeWhile_isBlank] at hindent
  omega

end Line

theorem Diagnostic.line?_append (fault : Diagnostic) {source : String} {before after : List Char}
    {c : Char} (hs : source.toList = before ++ c :: after)
    (ho : fault.position.offset.toNat = byteCount before) :
    ∃ rest, '\n' ∉ (Line.begun before ++ c :: rest).dropLast
      ∧ fault.line? source = some ⟨before.count '\n' + 1, Line.begun before ++ c :: rest,
        byteCount (Line.begun before)⟩ := by
  rw [line?, hs, ho]
  exact Line.lineAt?_append before after c

/-- A complaint at a character cannot be shown if too many bytes stand in front of the character on
its line, not counting spaces and tabs at the start. -/
theorem Diagnostic.display?_eq_none_iff (fault : Diagnostic) {source : String}
    {before after : List Char} {c : Char} (hs : source.toList = before ++ c :: after)
    (ho : fault.position.offset.toNat = byteCount before) (hc : ¬ isBlank c) :
    fault.display? source = none ↔ widestField ≤ byteCount (Line.begun before)
      - ((Line.begun before).takeWhile isIndent).length := by
  have hi : ¬ isIndent c := fun h => hc (isBlank_of_isIndent h)
  obtain ⟨rest, -, hfound⟩ := line?_append fault hs ho
  rw [display?_of_line? hfound, Line.caretWidth_append_cons hi, Nat.add_sub_cancel]
  simp only [ite_eq_right_iff, reduceCtorEq, imp_false, Nat.not_lt]

/-- The caret below a character that is not blank. It is moved by the bytes of the line in front of
the character, save the spaces and tabs at its start. So it stands in the column in which the
character is shown exactly where no other blanks are taken off the start of the line and all that
is shown in front of the character has one byte each. -/
theorem Diagnostic.display_caret (fault : Diagnostic) {source : String} {before after : List Char}
    {c : Char} (hs : source.toList = before ++ c :: after)
    (ho : fault.position.offset.toNat = byteCount before) (hc : ¬ isBlank c) :
    let line := Line.begun before
    let gutter := Nat.toDigits 10 (before.count '\n' + 1) ++ [' ', '|', ' ']
    let shown := gutter ++ line.dropWhile isBlank
    ∃ above back lead, (fault.display source).toList
        = above ++ '\n' :: (shown ++ c :: back) ++ '\n' :: (lead ++ ['^', '\n'])
      ∧ '\n' ∉ shown ++ c :: back ∧ '\n' ∉ lead ∧ '^' ∉ lead
      ∧ lead.length = gutter.length + (byteCount line - (line.takeWhile isIndent).length)
      ∧ (lead.length = shown.length ↔ (∀ b ∈ line.takeWhile isBlank, isIndent b)
        ∧ ∀ x ∈ line.dropWhile isBlank, x.utf8Size = 1) := by
  intro line gutter shown
  obtain ⟨rest, hrest, hfound⟩ := line?_append fault hs ho
  let digits := Nat.toDigits 10 (before.count '\n' + 1)
  let bar := List.replicate (digits.length + 1) ' ' ++ ['|']
  let dashes := List.replicate (byteCount line - (line.takeWhile isIndent).length) '-'
  have hlength : (bar ++ ' ' :: dashes).length
      = gutter.length + (byteCount line - (line.takeWhile isIndent).length) := by
    simp only [bar, dashes, gutter, digits, List.length_append, List.length_cons,
      List.length_replicate, List.length_nil]
    omega
  refine ⟨(fault.cause.headline ++ "\n-> " ++ fault.position.file ++ "\n").toList ++ bar,
    (rest.reverse.dropWhile isBlank).reverse, bar ++ ' ' :: dashes, ?_, ?_, ?_, ?_, hlength, ?_⟩
  · rw [display, hfound, Option.elim_some, Line.display_append_cons hc, String.toList_append,
      String.toList_ofList]
    simp [bar, dashes, shown, gutter, digits, line]
  · rw [List.dropLast_append_cons] at hrest
    have hdigits : '\n' ∉ digits := fun h => absurd
      (Nat.isDigit_of_mem_toDigits (by decide) (by decide) h) (by decide)
    have hline : '\n' ∉ line.dropWhile isBlank := fun h =>
      Line.newline_notMem_begun before ((List.dropWhile_suffix _).subset h)
    have hc' : '\n' ≠ c := fun h => hc (h ▸ by decide)
    have hback := Line.newline_notMem_trimEnd (fun h => hrest (List.mem_append_right _ h))
    simp only [shown, gutter, List.mem_append, List.mem_cons, not_or]
    exact ⟨⟨⟨hdigits, by decide, by decide, by decide, List.not_mem_nil⟩, hline⟩, hc', hback⟩
  · simp [bar, dashes]
  · simp [bar, dashes]
  · have hshown : shown.length = gutter.length + (line.dropWhile isBlank).length :=
      List.length_append
    rw [hlength, hshown, Nat.add_left_cancel_iff, Line.move_eq_length_iff]

/-- Behind two spaces the caret stands under the `c` of the second line. -/
theorem Diagnostic.display_caret_indented :
    let source := "a \x7b\n  color: 12px;\n\x7d\n"
    let fault : Diagnostic := ⟨.unknownProperty "color", ⟨6, "test.icss"⟩⟩
    let before := "a \x7b\n  ".toList
    let after := "olor: 12px;\n\x7d\n".toList
    source.toList = before ++ 'c' :: after ∧ fault.position.offset.toNat = byteCount before
      ∧ ¬ isBlank 'c'
      ∧ ∃ above back lead, (fault.display source).toList
          = above ++ '\n' :: ("2 | ".toList ++ 'c' :: back) ++ '\n' :: (lead ++ ['^', '\n'])
        ∧ lead.length = "2 | ".length := by
  intro source fault before after
  have hs : source.toList = before ++ 'c' :: after := by decide
  have ho : fault.position.offset.toNat = byteCount before := by decide
  have hc : ¬ isBlank 'c' := by decide
  have hbefore : (Line.begun before).takeWhile isBlank = [' ', ' '] := by decide
  have hbehind : (Line.begun before).dropWhile isBlank = [] := by decide
  have hgutter : Nat.toDigits 10 (before.count '\n' + 1) ++ [' ', '|', ' '] ++ []
      = "2 | ".toList := by decide +kernel
  have h := fault.display_caret hs ho hc
  dsimp only at h
  rw [hbefore, hbehind, hgutter] at h
  obtain ⟨above, back, lead, hdisplay, -, -, -, -, hcolumn⟩ := h
  exact ⟨hs, ho, hc, above, back, lead, hdisplay, hcolumn.2 ⟨by simp [isIndent], nofun⟩⟩

/-- In `p { /* é */ size: 1px; }` the caret stands one place behind the `s`, which is the only one
on its line. -/
theorem Diagnostic.caret_behind_accent :
    let source := "p \x7b /* \u00e9 */ size: 1px; \x7d"
    let fault : Diagnostic := ⟨.unknownProperty "size", ⟨13, "test.icss"⟩⟩
    let before := "p \x7b /* \u00e9 */ ".toList
    let after := "ize: 1px; \x7d".toList
    compile ⟨.standard, false⟩ source "test.icss" = .error [fault]
      ∧ source.toList = before ++ 's' :: after ∧ fault.position.offset.toNat = byteCount before
      ∧ ¬ isBlank 's'
      ∧ ∃ above shown back lead, (fault.display source).toList
          = above ++ '\n' :: (shown ++ 's' :: back) ++ '\n' :: (lead ++ ['^', '\n'])
        ∧ '\n' ∉ shown ++ back ∧ 's' ∉ shown ++ back ∧ '\n' ∉ lead
        ∧ lead.length = shown.length + 1 := by
  intro source fault before after
  refine ⟨by decide +kernel, by decide, by decide, by decide,
    "Error: UnknownProperty (Property `size` is not allowed)\n-> test.icss\n  |".toList,
    "1 | ".toList ++ before, after, "  | -------------".toList, ?_⟩
  decide +kernel

end StyleLang
