import StyleLang.Token.Cursor

/-!
# Parsing

A parse reads tokens off a cursor and gives a result, or fails with a diagnostic. Where it fails,
the tokens it has passed stay passed. The lemmas say what each step makes of a cursor.
-/

namespace StyleLang

abbrev Parse := EStateM Diagnostic Cursor

namespace Parse

def current : Parse Token := do
  return (← get).current

def advance : Parse Token :=
  modifyGet Cursor.advance

/-- Passes a token of a kind, or makes the given complaint about the token that stands there. -/
def take (kind : Kind) (complaint : Token → Diagnostic) : Parse Token := do
  let token ← current
  if token.kind = kind then advance else throw (complaint token)

def expect (kind : Kind) : Parse Token :=
  take kind (·.misplaced (.kind kind))

/-- The span from a position to the end of the last token passed. -/
def spanFrom (start : Position) : Parse Span := do
  return ⟨start, (← get).lastStop⟩

@[simp] theorem run_current (cursor : Cursor) :
    current.run cursor = .ok cursor.current cursor := rfl

@[simp] theorem run_advance (cursor : Cursor) :
    advance.run cursor = .ok cursor.current cursor.advance.2 := rfl

@[simp] theorem run_spanFrom (start : Position) (cursor : Cursor) :
    (spanFrom start).run cursor = .ok ⟨start, cursor.lastStop⟩ cursor := rfl

theorem run_take (kind : Kind) (complaint : Token → Diagnostic) (cursor : Cursor) :
    (take kind complaint).run cursor =
      if cursor.current.kind = kind then .ok cursor.current cursor.advance.2
      else .error (complaint cursor.current) cursor := by
  unfold take
  simp only [EStateM.run_bind, run_current]
  split <;> rfl

theorem run_expect (kind : Kind) (cursor : Cursor) :
    (expect kind).run cursor =
      if cursor.current.kind = kind then .ok cursor.current cursor.advance.2
      else .error (cursor.current.misplaced (.kind kind)) cursor :=
  run_take ..

end Parse

end StyleLang
