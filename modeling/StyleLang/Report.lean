import StyleLang.Diagnostic
import StyleLang.Text.Blank
import StyleLang.Text.Line

/-!
# Reports

How diagnostics are shown to the author of a stylesheet. `Diagnostic.display` writes what is wrong
and where, with the line of the source under it and a caret under the place. The caret stands at the
right end of a field, and a field has at most `widestField` places: where it would need more, the
diagnostic cannot be shown, and `Diagnostic.display?` gives nothing. `summary` is the line that
closes a list of diagnostics.
-/

namespace StyleLang

/-- A text moved to the right end of a field by characters put before it. -/
def padLeft (fill : Char) (width : Nat) (text : List Char) : List Char :=
  List.replicate (width - text.length) fill ++ text

/-- The number of places that a field has at most. -/
def widestField : Nat := 65535

def isIndent (c : Char) : Bool :=
  c = ' ' || c = '\t'

namespace Line

/-- The width of the field that the caret of a line stands at the end of. It is moved by the spaces
and tabs at the start of the line. -/
def caretWidth (line : Line) : Nat :=
  line.column - (line.text.takeWhile isIndent).length + 1

/-- A line of the source under a bar, and a caret under the place on it. The line is shown without
the blanks at its ends. -/
def display (line : Line) : List Char :=
  let number := Nat.toDigits 10 line.number
  let bar := padLeft ' ' (number.length + 2) ['|']
  let shown := line.text.dropWhile isIndent
  bar ++ '\n' :: number ++ [' ', '|', ' '] ++ trim shown ++ '\n' :: bar
    ++ ' ' :: padLeft '-' line.caretWidth ['^'] ++ ['\n']

end Line

/-- What is wrong, in short and with a hint where there is one. -/
def Cause.headline (cause : Cause) : String :=
  match cause.hint? with
  | none => "Error: " ++ cause.name
  | some hint => "Error: " ++ cause.name ++ " (" ++ hint ++ ")"

namespace Diagnostic

/-- The line of the source that a diagnostic points at, if it points into the source. -/
def line? (diagnostic : Diagnostic) (source : String) : Option Line :=
  lineAt? source.toList diagnostic.position.offset.toNat

/-- A diagnostic with its line, as it is to be shown. -/
def display (diagnostic : Diagnostic) (source : String) : String :=
  let line := (diagnostic.line? source).elim [] Line.display
  diagnostic.cause.headline ++ "\n-> " ++ diagnostic.position.file ++ "\n" ++ String.ofList line

/-- A diagnostic with its line, unless the field of the caret would be too wide. -/
def display? (diagnostic : Diagnostic) (source : String) : Option String :=
  if (diagnostic.line? source).all (·.caretWidth ≤ widestField) then
    some (diagnostic.display source)
  else none

end Diagnostic

/-- The closing line of a report: the first fatal diagnostic, or the number of diagnostics. -/
def summary (diagnostics : List Diagnostic) : String :=
  match diagnostics.find? (·.cause.isFatal) with
  | some fatal => "Compilation aborted: " ++ fatal.cause.name
  | none => diagnostics.length.repr ++ " error(s) found"

end StyleLang
