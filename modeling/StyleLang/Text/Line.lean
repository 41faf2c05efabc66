import StyleLang.Text.Bytes

/-!
# Lines of a source

`pieces` cuts a text after each newline, and the pieces make up the text again (`flatten_pieces`).
`lineAt?` finds the piece that holds a byte offset. The end of a text counts as a place on its
last line, which is then shown without its line ending.
-/

namespace StyleLang

/-- A line of a source and a place on it: the number counts from one, the column in bytes. -/
structure Line where
  number : Nat
  text : List Char
  column : Nat
deriving DecidableEq

namespace Line

/-- The pieces of a text, each up to and including a newline; the last may lack it. -/
def pieces : List Char → List (List Char)
  | [] => []
  | c :: cs =>
    if c = '\n' then [c] :: pieces cs
    else match pieces cs with
      | [] => [[c]]
      | piece :: rest => (c :: piece) :: rest

theorem flatten_pieces (cs : List Char) : (pieces cs).flatten = cs := by
  fun_induction pieces cs with
  | case1 => rfl
  | case2 cs ih => simp [ih]
  | case3 c cs _ h ih => simpa [h] using ih
  | case4 c cs _ piece rest h ih => simpa [h] using ih

theorem pieces_eq_nil_iff {cs : List Char} : pieces cs = [] ↔ cs = [] := by
  constructor
  · intro h
    rw [← flatten_pieces cs, h]
    rfl
  · rintro rfl
    rfl

/-- A piece without the line ending `\n` or `\r\n`. -/
def chomp (piece : List Char) : List Char :=
  match piece.reverse with
  | '\n' :: '\r' :: rest => rest.reverse
  | '\n' :: rest => rest.reverse
  | _ => piece

/-- The piece that holds the byte at an offset, where the first piece has the given number. -/
def find? (number : Nat) : List (List Char) → Nat → Option Line
  | [], _ => none
  | piece :: rest, offset =>
    if offset < byteCount piece then some ⟨number, piece, offset⟩
    else find? (number + 1) rest (offset - byteCount piece)

/-- The last line of a text, with its end as the place on it. -/
def last? (text : List Char) : Option Line :=
  (pieces text).getLast?.map fun piece =>
    ⟨(pieces text).length, chomp piece, byteCount (chomp piece)⟩

end Line

/-- The line that holds a byte offset of a text; there is none past the end. -/
def lineAt? (text : List Char) (offset : Nat) : Option Line :=
  if offset < byteCount text then Line.find? 1 (Line.pieces text) offset
  else if offset = byteCount text then Line.last? text
  else none

end StyleLang
