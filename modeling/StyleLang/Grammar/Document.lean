import StyleLang.Grammar.Statement

/-!
# Reading stylesheets

A stylesheet is a row of statements up to the end of its tokens. Any statement may be read at the
top, but only rules and assignments may stay there; the first other one is an error once it has
been read to its end (`Stmt.outerFault?`).
-/

namespace StyleLang

/-- The complaint about a statement that may stand inside a rule only. -/
def Stmt.outerFault? : Stmt → Option Diagnostic
  | .declaration note property _ => some ⟨.misplaced property .insideRule, note.span.start⟩
  | .conditional note _ _ _ => some ⟨.misplaced "if" .insideRule, note.span.start⟩
  | .rule _ _ _ | .assignment _ _ _ => none

namespace Grammar

variable (grammar : Grammar)

def outerStmt : Parse Stmt := do
  let stmt ← grammar.stmt
  match stmt.outerFault? with
  | none => return stmt
  | some fault => throw fault

/-- Reads statements to the end of the tokens. The first argument bounds their number and is to
exceed the number of tokens left. -/
def outerStmts : Nat → Parse (List Stmt)
  | 0 => return []
  | bound + 1 => do
    if (← Parse.current).kind = .ending then return []
    else
      let first ← grammar.outerStmt
      let rest ← outerStmts bound
      return first :: rest

def stylesheet : Parse Stylesheet := do
  let file := (← get).file
  let body ← grammar.outerStmts ((← get).left + 1)
  return ⟨.clean (← Parse.spanFrom ⟨0, file⟩), body⟩

end Grammar

/-- The stylesheet that a list of tokens makes, or the first thing wrong with it. -/
def Stylesheet.ofTokens (tokens : List Token) (file : String) : Except Diagnostic Stylesheet :=
  match Grammar.standard.stylesheet.run (.ofTokens tokens file) with
  | .ok sheet _ => .ok sheet
  | .error fault _ => .error fault

end StyleLang
