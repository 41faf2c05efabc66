import StyleLang.Grammar.Expression

/-!
# Reading statements

The kind of its first token decides the form of a statement (`Grammar.stmt`), save that a lowercase
name before a colon begins a declaration and otherwise a rule. Each form is read by
`Grammar.stmtOf` from a parse for the statements of an inner block; `Grammar.stmts` is that parse,
and reads statements until a curly bracket closes the block.
-/

namespace StyleLang

/-- The text of a name without the marker in front of it, however often it stands there. -/
def Token.bareName (marker : Char) (token : Token) : String :=
  String.ofList (token.text.toList.dropWhile (· = marker))

def Token.selector? (token : Token) : Option Selector :=
  match token.kind with
  | .lowerName => some (.byTag token.text)
  | .idName => some (.byId (token.bareName '#'))
  | .className => some (.byClass (token.bareName '.'))
  | _ => none

namespace Parse

def selector : Parse Selector := do
  let token ← current
  match token.selector? with
  | some selector => do
    let _ ← advance
    return selector
  | none => throw (token.misplaced .selector)

/-- Reads further selectors, each behind a comma. The first argument bounds their number and is
to exceed the number of tokens left. -/
def moreSelectors : Nat → Parse (List Selector)
  | 0 => return []
  | bound + 1 => do
    if (← current).kind = .mark .comma then
      let _ ← advance
      let first ← selector
      let rest ← moreSelectors bound
      return first :: rest
    else return []

def selectors : Parse (List Selector) := do
  let first ← selector
  let rest ← moreSelectors ((← get).left + 1)
  return first :: rest

/-- Reads a block around what `inner` reads. -/
def block (inner : Parse (List Stmt)) : Parse (List Stmt) := do
  let _ ← expect (.mark .openCurly)
  let body ← inner
  let _ ← expect (.mark .closeCurly)
  return body

/-- Reads the other block of a conditional, if it has one. -/
def elseBlock (inner : Parse (List Stmt)) : Parse (Option (List Stmt)) := do
  if (← current).kind = .word .elseWord then
    let _ ← advance
    return some (← block inner)
  else return none

def rule (inner : Parse (List Stmt)) : Parse Stmt := do
  let start := (← current).span.start
  let selectors ← selectors
  let body ← block inner
  return .rule (.clean (← spanFrom start)) selectors body

end Parse

namespace Grammar

variable (grammar : Grammar)

def assignment : Parse Stmt := do
  let name ← Parse.expect .capitalName
  let _ ← Parse.take (.mark .assign) (·.misplaced .assign)
  let value ← grammar.expr .lowest
  let _ ← Parse.expect (.mark .semicolon)
  return .assignment (.clean (← Parse.spanFrom name.span.start)) name.text value

def declaration : Parse Stmt := do
  let property ← Parse.expect .lowerName
  let _ ← Parse.expect (.mark .colon)
  let value ← grammar.expr .lowest
  let _ ← Parse.expect (.mark .semicolon)
  return .declaration (.clean (← Parse.spanFrom property.span.start)) property.text value

def conditional (inner : Parse (List Stmt)) : Parse Stmt := do
  let word ← Parse.expect (.word .ifWord)
  let _ ← Parse.expect (.mark .openBracket)
  let condition ← grammar.expr .lowest
  let _ ← Parse.expect (.mark .closeBracket)
  let body ← Parse.block inner
  let elseBody ← Parse.elseBlock inner
  return .conditional (.clean (← Parse.spanFrom word.span.start)) condition body elseBody

/-- Reads a statement of a form, where `inner` reads the statements of an inner block. -/
def stmtOf (inner : Parse (List Stmt)) : Form → Parse Stmt
  | .assignment => grammar.assignment
  | .declaration => grammar.declaration
  | .lower => do
    if (← get).peek 1 = .mark .colon then grammar.declaration else Parse.rule inner
  | .rule => Parse.rule inner
  | .conditional => grammar.conditional inner

/-- Reads a statement of the form that its first token asks for. -/
def stmtWith (inner : Parse (List Stmt)) : Parse Stmt := do
  let token ← Parse.current
  match grammar.form? token.kind with
  | some form => grammar.stmtOf inner form
  | none => throw (token.misplaced .statement)

/-- Reads the statements of a block up to the bracket that closes it. The first argument bounds
their number and their depth and is to exceed the number of tokens left. -/
def stmts : Nat → Parse (List Stmt)
  | 0 => return []
  | bound + 1 => do
    let token ← Parse.current
    if token.kind = .mark .closeCurly then return []
    else if token.kind = .ending then throw (token.misplaced .closing)
    else
      let first ← grammar.stmtWith (stmts bound)
      let rest ← stmts bound
      return first :: rest

/-- Reads the statements of a block, with a bound that suffices. -/
def body : Parse (List Stmt) := do
  grammar.stmts ((← get).left + 1)

def block : Parse (List Stmt) :=
  Parse.block grammar.body

def stmt : Parse Stmt :=
  grammar.stmtWith grammar.body

end Grammar

end StyleLang
