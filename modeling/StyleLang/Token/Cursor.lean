import StyleLang.Token

/-!
# Cursors

A cursor is a place in a list of tokens. It stands before one of the tokens up to the first one
that ends the list, and `Cursor.advance` moves it by one token but never past that end. What has
been passed is kept, so that a span can be closed where the last token ended
(`Cursor.lastStop`).
-/

namespace StyleLang

structure Cursor where
  file : String
  /-- The tokens passed, the latest first. -/
  passed : List Token
  /-- The tokens still to come before the end. -/
  ahead : List Token
  ending : Token
  /-- What stands behind the end. -/
  beyond : List Token
  /-- The number of tokens still to come before the end. -/
  left : Nat
  left_eq : left = ahead.length
  ahead_kind : ∀ token ∈ ahead, token.kind ≠ .ending
  ending_kind : ending.kind = .ending

namespace Cursor

/-- The end of the list of tokens that a list without one is given. -/
def defaultEnding (tokens : List Token) (file : String) : Token :=
  .ending ((tokens.getLast?.map (·.span.stop)).getD ⟨0, file⟩)

theorem kind_of_mem_takeWhile {token : Token} {tokens : List Token}
    (h : token ∈ tokens.takeWhile (·.kind ≠ .ending)) : token.kind ≠ .ending := by
  have := List.all_eq_true.1 (List.all_takeWhile (p := fun t => t.kind ≠ .ending)) token h
  simpa using this

theorem kind_find?_getD {tokens : List Token} {otherwise : Token}
    (h : otherwise.kind = .ending) :
    ((tokens.find? (·.kind = .ending)).getD otherwise).kind = .ending := by
  cases hf : tokens.find? (·.kind = .ending) with
  | none => exact h
  | some token => simpa using List.find?_some hf

/-- The cursor at the start of a list of tokens. -/
def ofTokens (tokens : List Token) (file : String) : Cursor where
  file
  passed := []
  ahead := tokens.takeWhile (·.kind ≠ .ending)
  ending := (tokens.find? (·.kind = .ending)).getD (defaultEnding tokens file)
  beyond := (tokens.dropWhile (·.kind ≠ .ending)).tail
  left := (tokens.takeWhile (·.kind ≠ .ending)).length
  left_eq := rfl
  ahead_kind _ := kind_of_mem_takeWhile
  ending_kind := kind_find?_getD rfl

/-- The number of tokens passed. -/
def position (cursor : Cursor) : Nat :=
  cursor.passed.length

def current (cursor : Cursor) : Token :=
  cursor.ahead.headD cursor.ending

/-- The kind of the token a number of places on, which past all tokens is an end. -/
def peek (cursor : Cursor) (places : Nat) : Kind :=
  match cursor.ahead[places]? with
  | some token => token.kind
  | none =>
    if places = cursor.left then .ending
    else ((cursor.beyond[places - cursor.left - 1]?).map Token.kind).getD .ending

/-- Passes the current token, which is given back; the end is not passed. -/
def advance (cursor : Cursor) : Token × Cursor :=
  (cursor.current,
    { cursor with
      passed := cursor.ahead.head?.toList ++ cursor.passed
      ahead := cursor.ahead.tail
      left := cursor.left - 1
      left_eq := by rw [cursor.left_eq, List.length_tail]
      ahead_kind := fun token h => cursor.ahead_kind token (List.mem_of_mem_tail h) })

/-- Where the last token passed ends. -/
def lastStop (cursor : Cursor) : Position :=
  match cursor.passed with
  | [] => ⟨0, cursor.file⟩
  | token :: _ => token.span.stop

theorem current_kind_eq_ending_iff {cursor : Cursor} :
    cursor.current.kind = .ending ↔ cursor.ahead = [] := by
  cases h : cursor.ahead with
  | nil => simp [current, h, cursor.ending_kind]
  | cons token rest =>
    have := cursor.ahead_kind token (by simp [h])
    simp [current, h, this]

theorem left_eq_zero_iff {cursor : Cursor} : cursor.left = 0 ↔ cursor.ahead = [] := by
  rw [cursor.left_eq, List.length_eq_zero_iff]

theorem advance_of_ahead_eq_nil {cursor : Cursor} (h : cursor.ahead = []) :
    cursor.advance = (cursor.ending, cursor) := by
  have hl := left_eq_zero_iff.2 h
  cases cursor
  simp_all [advance, current]

end Cursor

end StyleLang
