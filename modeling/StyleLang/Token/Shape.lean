import StyleLang.Text.Blank
import StyleLang.Text.Split
import StyleLang.Token.Kind

/-!
# Shapes of lexemes

A source is a row of lexemes, each of one shape: a run of blanks, a comment, or the text of a
token. `Shape.split?` takes a lexeme of a shape off the front of a text; it is never empty and
the rest is what stands behind it (`Shape.append_of_split?`, `Shape.split?_ne_nil`). Where several
shapes fit, `Lexeme.first?` takes the one that comes first in `Shape.all`.
-/

namespace StyleLang

inductive Shape where
  | blank
  | lineComment
  | blockComment
  | number (measure : Measure)
  | hash
  | dot
  | lower
  | capital
  | mark (mark : Mark)
deriving DecidableEq

namespace Shape

/-- Every shape, one with a unit or a second character before the shape that it extends. -/
def all : List Shape :=
  [blank, lineComment, blockComment] ++ Measure.all.map number ++ [hash, dot, lower, capital]
    ++ Mark.all.map mark

def isIdChar (c : Char) : Bool :=
  c.isAlphanum || c = '-'

/-- The characters of class names and, after a lowercase letter, of tags and properties. -/
def isLowerChar (c : Char) : Bool :=
  c.isLower || c.isDigit || c = '-'

def isCapitalChar (c : Char) : Bool :=
  c.isAlphanum || c = '_'

def isHexDigit (c : Char) : Bool :=
  c.isDigit || ('a' ≤ c && c ≤ 'f') || ('A' ≤ c && c ≤ 'F')

/-- A lexeme of a shape at the front of a text, and the text behind it. -/
def split? : Shape → List Char → Option (List Char × List Char)
  | blank, cs => Split.run? isBlank cs
  | lineComment, '/' :: '/' :: cs =>
    some ('/' :: '/' :: cs.takeWhile (· ≠ '\n'), cs.dropWhile (· ≠ '\n'))
  | blockComment, '/' :: '*' :: cs =>
    (Split.upToClosing? cs).map fun (s, r) => ('/' :: '*' :: s, r)
  | number measure, cs =>
    (Split.run? Char.isDigit cs).bind fun (digits, r) =>
      (Split.strip? measure.suffix.toList r).map fun (s, r) => (digits ++ s, r)
  | hash, '#' :: cs => (Split.run? isIdChar cs).map fun (s, r) => ('#' :: s, r)
  | dot, '.' :: cs => (Split.run? isLowerChar cs).map fun (s, r) => ('.' :: s, r)
  | lower, c :: cs =>
    if c.isLower then some (c :: cs.takeWhile isLowerChar, cs.dropWhile isLowerChar) else none
  | capital, c :: cs =>
    if c.isUpper then some (c :: cs.takeWhile isCapitalChar, cs.dropWhile isCapitalChar) else none
  | mark m, cs => Split.strip? m.text.toList cs
  | _, _ => none

/-- Colors are told from other names after `#` by their six hexadecimal digits. -/
def isColor : List Char → Bool
  | '#' :: digits => digits.length = 6 && digits.all isHexDigit
  | _ => false

/-- The kind of a name, unless it is a reserved word. -/
def nameKind (otherwise : Kind) (lexeme : List Char) : Kind :=
  ((Word.ofText? (String.ofList lexeme)).map Kind.word).getD otherwise

/-- The kind of the token a lexeme makes; blanks and comments make none. -/
def kind? : Shape → List Char → Option Kind
  | blank, _ | lineComment, _ | blockComment, _ => none
  | number measure, _ => some (.number measure)
  | hash, lexeme => some (if isColor lexeme then .color else .idName)
  | dot, _ => some .className
  | lower, lexeme => some (nameKind .lowerName lexeme)
  | capital, lexeme => some (nameKind .capitalName lexeme)
  | mark m, _ => some (.mark m)

variable {cs s r : List Char}

theorem mem_all (shape : Shape) : shape ∈ all := by
  cases shape <;> simp [all, Measure.mem_all, Mark.mem_all]

theorem append_of_split? {shape : Shape} (h : shape.split? cs = some (s, r)) :
    s ++ r = cs := by
  unfold split? at h
  split at h
  · exact Split.append_of_run? h
  · cases h
    simp
  · obtain ⟨⟨s', r'⟩, h, he⟩ := Option.map_eq_some_iff.1 h
    cases he
    simp [Split.append_of_upToClosing? h]
  · obtain ⟨⟨s', r'⟩, hr, h⟩ := Option.bind_eq_some_iff.1 h
    obtain ⟨⟨s'', r''⟩, h, he⟩ := Option.map_eq_some_iff.1 h
    cases he
    rw [List.append_assoc, Split.append_of_strip? h, Split.append_of_run? hr]
  · obtain ⟨⟨s', r'⟩, h, he⟩ := Option.map_eq_some_iff.1 h
    cases he
    simp [Split.append_of_run? h]
  · obtain ⟨⟨s', r'⟩, h, he⟩ := Option.map_eq_some_iff.1 h
    cases he
    simp [Split.append_of_run? h]
  · split at h <;> cases h
    simp
  · split at h <;> cases h
    simp
  · exact Split.append_of_strip? h
  · cases h

theorem split?_ne_nil {shape : Shape} (h : shape.split? cs = some (s, r)) : s ≠ [] := by
  unfold split? at h
  split at h
  · exact Split.run?_ne_nil h
  · cases h
    simp
  · obtain ⟨⟨s', r'⟩, h, he⟩ := Option.map_eq_some_iff.1 h
    cases he
    simp
  · obtain ⟨⟨s', r'⟩, hr, h⟩ := Option.bind_eq_some_iff.1 h
    obtain ⟨⟨s'', r''⟩, h, he⟩ := Option.map_eq_some_iff.1 h
    cases he
    simp [Split.run?_ne_nil hr]
  · obtain ⟨⟨s', r'⟩, h, he⟩ := Option.map_eq_some_iff.1 h
    cases he
    simp
  · obtain ⟨⟨s', r'⟩, h, he⟩ := Option.map_eq_some_iff.1 h
    cases he
    simp
  · split at h <;> cases h
    simp
  · split at h <;> cases h
    simp
  · obtain ⟨rfl, -⟩ := Split.strip?_eq_some_iff.1 h
    exact Mark.toList_text_ne_nil _
  · cases h

end Shape

/-- A lexeme at the front of a text, and the text behind it. -/
structure Lexeme where
  shape : Shape
  text : List Char
  rest : List Char
deriving DecidableEq

namespace Lexeme

/-- The lexeme at the front of a text, of the first shape that fits. -/
def first? (cs : List Char) : Option Lexeme :=
  Shape.all.findSome? fun shape => (shape.split? cs).map fun (s, r) => ⟨shape, s, r⟩

theorem split?_of_first? {cs : List Char} {lexeme : Lexeme} (h : first? cs = some lexeme) :
    lexeme.shape.split? cs = some (lexeme.text, lexeme.rest) := by
  obtain ⟨shape, -, h⟩ := List.exists_of_findSome?_eq_some h
  obtain ⟨⟨s, r⟩, hs, rfl⟩ := Option.map_eq_some_iff.1 h
  exact hs

theorem length_rest_lt {cs : List Char} {lexeme : Lexeme} (h : first? cs = some lexeme) :
    lexeme.rest.length < cs.length := by
  have h := split?_of_first? h
  have hne := List.length_pos_iff.2 (Shape.split?_ne_nil h)
  rw [← Shape.append_of_split? h, List.length_append]
  omega

end Lexeme

end StyleLang
