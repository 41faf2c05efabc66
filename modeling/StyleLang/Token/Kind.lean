import StyleLang.Value

/-!
# Kinds of tokens

A token is a number, a color, one of four sorts of name, a mark, a reserved word, or the end that
closes every list of tokens. A mark and a reserved word have one text each (`Mark.text`,
`Word.text`). `Kind.all` lists every kind (`Kind.mem_all`).
-/

namespace StyleLang

/-- Tokens with a fixed text made of other characters than letters and digits. -/
inductive Mark where
  | assign
  | colon
  | semicolon
  | comma
  | openBracket
  | closeBracket
  | openCurly
  | closeCurly
  | operator (operator : Operator)
deriving DecidableEq

namespace Mark

/-- Every mark, `:=` before the colon it starts with. -/
def all : List Mark :=
  [assign, colon, semicolon, comma, openBracket, closeBracket, openCurly, closeCurly]
    ++ Operator.all.map operator

theorem mem_all (mark : Mark) : mark ∈ all := by
  cases mark <;> simp [all, Operator.mem_all]

def text : Mark → String
  | assign => ":="
  | colon => ":"
  | semicolon => ";"
  | comma => ","
  | openBracket => "["
  | closeBracket => "]"
  | openCurly => "\x7b"
  | closeCurly => "\x7d"
  | operator op => op.symbol

theorem toList_text_ne_nil (mark : Mark) : mark.text.toList ≠ [] := by
  rcases mark with _ | _ | _ | _ | _ | _ | _ | _ | _ | _ | _ <;> decide

end Mark

/-- Names that cannot name anything. -/
inductive Word where
  | ifWord
  | elseWord
  | boolean (value : Bool)
deriving DecidableEq

namespace Word

def all : List Word := [ifWord, elseWord, boolean true, boolean false]

theorem mem_all (word : Word) : word ∈ all := by
  rcases word with _ | _ | _ | _ <;> decide

def text : Word → String
  | ifWord => "if"
  | elseWord => "else"
  | boolean true => "TRUE"
  | boolean false => "FALSE"

/-- The reserved word with the given text. -/
def ofText? (text : String) : Option Word :=
  all.find? (·.text = text)

theorem ofText?_eq_some_iff {s : String} {w : Word} : ofText? s = some w ↔ s = w.text := by
  constructor
  · intro h
    have hw := List.find?_some h
    exact (of_decide_eq_true hw).symm
  · rintro rfl
    rcases w with _ | _ | _ | _ <;> decide

end Word

inductive Kind where
  | ending
  | number (measure : Measure)
  | color
  | idName
  | className
  | lowerName
  | capitalName
  | mark (mark : Mark)
  | word (word : Word)
deriving DecidableEq

namespace Kind

abbrev operator (op : Operator) : Kind := mark (.operator op)

def all : List Kind :=
  [ending] ++ Measure.all.map number ++ [color, idName, className, lowerName, capitalName]
    ++ Mark.all.map mark ++ Word.all.map word

theorem mem_all (kind : Kind) : kind ∈ all := by
  cases kind <;> simp [all, Measure.mem_all, Mark.mem_all, Word.mem_all]

/-- The name of a kind in messages. -/
def name : Kind → String
  | ending => "EOF"
  | number .pixel => "PixelSize"
  | number .percentage => "Percentage"
  | number .scalar => "Scalar"
  | color => "Color"
  | idName => "IdIdent"
  | className => "ClassIdent"
  | lowerName => "LowerIdent"
  | capitalName => "CapitalIdent"
  | mark .openBracket => "OpenBracket"
  | mark .closeBracket => "CloseBracket"
  | mark .openCurly => "OpenCurly"
  | mark .closeCurly => "CloseCurly"
  | mark .assign => "AssignmentOperator"
  | mark .colon => "Colon"
  | mark .semicolon => "Semicolon"
  | mark .comma => "Comma"
  | mark (.operator .add) => "Plus"
  | mark (.operator .subtract) => "Dash"
  | mark (.operator .multiply) => "Star"
  | word .ifWord => "If"
  | word .elseWord => "Else"
  | word (.boolean true) => "True"
  | word (.boolean false) => "False"

end Kind

end StyleLang
