import Mathlib.Data.List.Basic
import Mathlib.Data.List.TakeWhile
import StyleLang.Report

/-!
# Lines and how they are shown

The pieces of a text are its lines (`Line.Splits`), and the number of a line counts the newlines
before it. `lineAt?` finds the line that holds a byte (`Line.lineAt?_of_lt`), and the last line for
the end of a text (`Line.lineAt?_byteCount`). A line is shown behind its number and without the
blanks at its ends, so without its line ending too (`Line.display_eq`), and a complaint is shown on
its line unless the caret would stand too far to the right (`Diagnostic.display?_of_line?`).
-/

namespace StyleLang

namespace Line

/-- A line of a text, up to and including its newline if it has one, between what stands before it
and what stands behind it. -/
structure Splits (text before line after : List Char) : Prop where
  text_eq : text = before ++ line ++ after
  start : ∀ c ∈ before.getLast?, c = '\n'
  ne_nil : line ≠ []
  newline_notMem : '\n' ∉ line.dropLast
  stop : after = [] ∨ line.getLast? = some '\n'

/-- Pieces of which each ends at its first newline, where the last may go without. -/
inductive Cut : List (List Char) → Prop
  | nil : Cut []
  | last {piece : List Char} : piece ≠ [] → '\n' ∉ piece → Cut [piece]
  | cons {body : List Char} {rest : List (List Char)} :
      '\n' ∉ body → Cut rest → Cut ((body ++ ['\n']) :: rest)

theorem cut_pieces (text : List Char) : Cut (pieces text) := by
  fun_induction pieces text with
  | case1 => exact .nil
  | case2 cs ih => exact .cons List.not_mem_nil ih
  | case3 c cs hc _ _ => exact .last (List.cons_ne_nil _ _) (by simp [Ne.symm hc])
  | case4 c cs hc piece rest hp ih =>
    rw [hp] at ih
    cases ih with
    | last hne hn => exact .last (List.cons_ne_nil _ _) (by simp [Ne.symm hc, hn])
    | @cons body _ hn hr =>
      have hn' : '\n' ∉ c :: body := by simp [Ne.symm hc, hn]
      exact .cons hn' hr

/-- Each piece is a line, and as many newlines stand before it as there are pieces. -/
theorem Cut.splits {pieces : List (List Char)} (h : Cut pieces) :
    ∀ {fore back : List (List Char)} {line : List Char}, pieces = fore ++ line :: back →
      Splits pieces.flatten fore.flatten line back.flatten
        ∧ fore.flatten.count '\n' = fore.length := by
  induction h with
  | nil => intro fore back line h; simp at h
  | @last piece hne hn =>
    intro fore back line h
    obtain ⟨rfl, rfl, rfl⟩ : fore = [] ∧ line = piece ∧ back = [] := by
      rcases fore with _ | ⟨_, _ | _⟩ <;> simp_all
    exact ⟨⟨by simp, by simp, hne, mt ((List.dropLast_sublist _).subset ·) hn, .inl rfl⟩, rfl⟩
  | @cons body rest hn _ ih =>
    intro fore back line h
    rcases fore with _ | ⟨first, fore⟩
    · obtain ⟨rfl, rfl⟩ := List.cons.inj h
      exact ⟨⟨by simp, by simp, by simp, by simpa using hn, .inr (by simp)⟩, rfl⟩
    · obtain ⟨rfl, rfl⟩ := List.cons.inj h
      obtain ⟨hs, hcount⟩ := ih rfl
      refine ⟨⟨by simp, ?_, hs.ne_nil, hs.newline_notMem, hs.stop⟩, ?_⟩
      · rw [List.flatten_cons, List.getLast?_append]
        cases hl : fore.flatten.getLast? with
        | none => simp
        | some c => simpa using hs.start c hl
      · rw [List.flatten_cons, List.count_append, hcount, List.count_append,
          List.count_eq_zero_of_not_mem hn]
        simp [Nat.add_comm]

theorem splits_of_pieces {text : List Char} {fore back : List (List Char)} {line : List Char}
    (h : pieces text = fore ++ line :: back) :
    Splits text fore.flatten line back.flatten ∧ fore.flatten.count '\n' = fore.length := by
  have hs := (cut_pieces text).splits h
  rwa [flatten_pieces] at hs

/-! ## Finding a line -/

/-- The piece that holds a byte is found, with its number and the place of the byte on it. -/
theorem find?_of_lt : ∀ {pieces : List (List Char)} {offset : Nat} (number : Nat),
    offset < byteCount pieces.flatten → ∃ fore line back, pieces = fore ++ line :: back
      ∧ byteCount fore.flatten ≤ offset ∧ offset < byteCount fore.flatten + byteCount line
      ∧ find? number pieces offset
        = some ⟨number + fore.length, line, offset - byteCount fore.flatten⟩
  | [], _, _, h => by simp at h
  | piece :: rest, offset, number, h => by
    rw [find?]
    by_cases hp : offset < byteCount piece
    · exact ⟨[], piece, rest, rfl, by simp, by simpa using hp, by rw [if_pos hp]; simp⟩
    · rw [List.flatten_cons, byteCount_append] at h
      have hr : offset - byteCount piece < byteCount rest.flatten := by omega
      obtain ⟨fore, line, back, rfl, hle, hlt, hf⟩ := find?_of_lt (number + 1) hr
      refine ⟨piece :: fore, line, back, rfl, ?_, ?_, ?_⟩
      · rw [List.flatten_cons, byteCount_append]
        omega
      · rw [List.flatten_cons, byteCount_append]
        omega
      · rw [if_neg hp, hf, List.flatten_cons, byteCount_append, List.length_cons]
        congr 2 <;> omega

/-- The line that holds a byte is found with its newline. -/
theorem lineAt?_of_lt {text : List Char} {offset : Nat} (h : offset < byteCount text) :
    ∃ before line after, Splits text before line after ∧ byteCount before ≤ offset
      ∧ offset < byteCount before + byteCount line
      ∧ lineAt? text offset = some ⟨before.count '\n' + 1, line, offset - byteCount before⟩ := by
  rw [lineAt?, if_pos h]
  rw [← flatten_pieces text] at h
  obtain ⟨fore, line, back, hp, hle, hlt, hf⟩ := find?_of_lt 1 h
  obtain ⟨hs, hcount⟩ := splits_of_pieces hp
  exact ⟨_, line, _, hs, hle, hlt, by rw [hf, hcount, Nat.add_comm]⟩

/-- For the end of a text the last line is found, without its line ending. -/
theorem lineAt?_byteCount {text : List Char} (h : text ≠ []) :
    ∃ before line, Splits text before line []
      ∧ lineAt? text (byteCount text)
        = some ⟨before.count '\n' + 1, chomp line, byteCount (chomp line)⟩ := by
  obtain ⟨fore, line, hp⟩ := (pieces text).eq_nil_or_concat'.resolve_left
    (mt pieces_eq_nil_iff.1 h)
  obtain ⟨hs, hcount⟩ := splits_of_pieces hp
  refine ⟨_, _, hs, ?_⟩
  rw [lineAt?, if_neg (Nat.lt_irrefl _), if_pos rfl, last?, hp, hcount]
  simp

end Line

/-! ## Showing a line -/

theorem isBlank_of_isIndent {c : Char} (h : isIndent c) : isBlank c := by
  simp only [isIndent, Bool.or_eq_true, decide_eq_true_eq] at h
  rcases h with rfl | rfl <;> decide

/-- Blanks at the end make no difference to what is left without them. -/
theorem trim_append {ending : List Char} (h : ∀ c ∈ ending, isBlank c) (text : List Char) :
    trim (text ++ ending) = trim text := by
  have hd : ending.dropWhile isBlank = [] := List.dropWhile_eq_nil_iff.2 h
  rw [trim, trim, List.dropWhile_append]
  cases ht : text.dropWhile isBlank with
  | nil => simp [hd]
  | cons c cs =>
    simp only [List.isEmpty_cons, Bool.false_eq_true, if_false]
    rw [List.reverse_append, List.dropWhile_append, List.dropWhile_eq_nil_iff.2 (by simpa using h)]
    rfl

theorem trim_dropWhile_isIndent (text : List Char) :
    trim (text.dropWhile isIndent) = trim text := by
  have h : (text.dropWhile isIndent).dropWhile isBlank = text.dropWhile isBlank := by
    induction text with
    | nil => rfl
    | cons c cs ih =>
      by_cases hc : isIndent c
      · rw [List.dropWhile_cons_of_pos hc, ih,
          List.dropWhile_cons_of_pos (isBlank_of_isIndent hc)]
      · rw [List.dropWhile_cons_of_neg hc]
  rw [trim, trim, h]

theorem takeWhile_append_cons {α : Type} {p : α → Bool} {a : α} (ha : ¬ p a) (l r : List α) :
    (l ++ a :: r).takeWhile p = l.takeWhile p := by
  rw [List.takeWhile_append]
  split
  · rename_i h
    rw [List.takeWhile_cons_of_neg ha, List.append_nil,
      (List.takeWhile_prefix p).eq_of_length h]
  · rfl

namespace Line

theorem exists_append_of_chomp (line : List Char) :
    ∃ ending, line = chomp line ++ ending ∧ ∀ c ∈ ending, isBlank c ∧ ¬ isIndent c := by
  unfold chomp
  split
  · rename_i rest h
    exact ⟨['\r', '\n'], by rw [← List.reverse_reverse line, h]; simp,
      List.forall_mem_cons.2 ⟨by decide, List.forall_mem_singleton.2 (by decide)⟩⟩
  · rename_i rest _ h
    exact ⟨['\n'], by rw [← List.reverse_reverse line, h]; simp,
      List.forall_mem_singleton.2 (by decide)⟩
  · exact ⟨[], by simp, by simp⟩

theorem trim_chomp (line : List Char) : trim (chomp line) = trim line := by
  obtain ⟨ending, hl, hb⟩ := exists_append_of_chomp line
  rw [← trim_append fun c hc => (hb c hc).1, ← hl]

theorem takeWhile_isIndent_chomp (line : List Char) :
    (chomp line).takeWhile isIndent = line.takeWhile isIndent := by
  obtain ⟨ending, hl, hb⟩ := exists_append_of_chomp line
  cases ending with
  | nil =>
    rw [List.append_nil] at hl
    rw [← hl]
  | cons c cs =>
    have h := takeWhile_append_cons (hb c List.mem_cons_self).2 (chomp line) cs
    rw [← hl] at h
    exact h.symm

/-- A line is shown behind its number and without the blanks at its ends. Above it stands a bar, and
below it the caret behind another one. -/
theorem display_eq (line : Line) :
    let digits := Nat.toDigits 10 line.number
    let bar := List.replicate (digits.length + 1) ' ' ++ ['|']
    line.display = bar ++ '\n' :: digits ++ [' ', '|', ' '] ++ trim line.text ++ '\n' :: bar
      ++ ' ' :: List.replicate (line.caretWidth - 1) '-' ++ ['^', '\n'] := by
  intro digits bar
  have hbar : padLeft ' ' (digits.length + 2) ['|'] = bar := rfl
  rw [display, trim_dropWhile_isIndent, hbar]
  simp [padLeft, digits]

end Line

/-- A complaint on a line of the source. Between two bars stand the number of the line and the line
without the blanks at its ends, and behind the second bar a caret at the end of some dashes. -/
def Diagnostic.onLine (fault : Diagnostic) (number : Nat) (line : List Char) (dashes : Nat) :
    String :=
  let digits := Nat.toDigits 10 number
  let bar := String.ofList (List.replicate (digits.length + 1) ' ') ++ "|"
  fault.cause.headline ++ "\n-> " ++ fault.position.file ++ "\n"
    ++ bar ++ "\n" ++ String.ofList digits ++ " | " ++ String.ofList (trim line) ++ "\n"
    ++ bar ++ " " ++ String.ofList (List.replicate dashes '-') ++ "^\n"

/-- What a complaint is shown as that has a line. -/
theorem Diagnostic.display?_of_line? {fault : Diagnostic} {line : Line}
    (h : fault.line? source = some line) :
    fault.display? source = if line.caretWidth - 1 < widestField then
      some (fault.onLine line.number line.text (line.caretWidth - 1)) else none := by
  have hwidth : line.caretWidth ≤ widestField ↔ line.caretWidth - 1 < widestField := by
    unfold widestField
    omega
  have htext : fault.display source
      = fault.onLine line.number line.text (line.caretWidth - 1) := by
    apply String.toList_injective
    rw [display, h, Option.elim_some, line.display_eq]
    simp [onLine]
  rw [display?, h, Option.all_some, htext]
  simp only [decide_eq_true_eq, hwidth]

end StyleLang
