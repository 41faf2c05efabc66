import StyleLang.Tree

/-!
# Style sheets as text

An evaluated stylesheet is written as lines, with two spaces of indentation for each block around
a line. Assignments leave no trace. What evaluation would have removed cannot be written: a
conditional, or a value that is not a literal.
-/

namespace StyleLang

/-- Two spaces for each level. -/
def indent (level : Nat) : String :=
  String.ofList (List.replicate (2 * level) ' ')

/-- The selectors of a rule in a row. -/
def Selector.list (selectors : List Selector) : String :=
  ", ".intercalate (selectors.map text)

namespace Stmt

mutual

/-- The lines of a statement inside a number of blocks. -/
def lines (level : Nat) : Stmt → Except Diagnostic (List String)
  | rule _ selectors body => do
    let body ← bodyLines (level + 1) body
    return (indent level ++ Selector.list selectors ++ " \x7b") :: body ++ [indent level ++ "\x7d"]
  | declaration _ property (.literal _ value) =>
    .ok [indent level ++ property ++ ": " ++ value.text ++ ";"]
  | declaration note property _ => .error ⟨.violation (.unreduced property), note.span.start⟩
  | assignment _ _ _ => .ok []
  | conditional note _ _ _ => .error ⟨.violation .conditional, note.span.start⟩

def bodyLines (level : Nat) : List Stmt → Except Diagnostic (List String)
  | [] => .ok []
  | stmt :: stmts => do
    let first ← stmt.lines level
    let rest ← bodyLines level stmts
    return first ++ rest

end

end Stmt

/-- The text of an evaluated stylesheet, in which a newline ends every line. -/
def Stylesheet.css (sheet : Stylesheet) : Except Diagnostic String := do
  let lines ← Stmt.bodyLines 0 sheet.body
  return String.join (lines.map (· ++ "\n"))

end StyleLang
