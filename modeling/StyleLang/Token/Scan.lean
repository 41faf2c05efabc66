import StyleLang.Token
import StyleLang.Token.Shape

/-!
# From a source to its tokens

`Token.scan` cuts a source into lexemes from the front and keeps those that make tokens. It ends
with a token that marks the end of the source (`Token.scanFrom_nil`), or at the first character
that starts no lexeme (`Token.scanFrom_of_first?_eq_none`).
-/

namespace StyleLang

/-- The token a lexeme makes at a byte offset of a file. -/
def Lexeme.token? (file : String) (offset : Nat) (lexeme : Lexeme) : Option Token :=
  (lexeme.shape.kind? lexeme.text).map fun kind => .ofPiece file offset kind lexeme.text

namespace Token

/-- The tokens of the part of a source that starts at a byte offset. -/
def scanFrom (file : String) (offset : Nat) (cs : List Char) : Except Diagnostic (List Token) :=
  match cs with
  | [] => .ok [.ending (.ofOffset file offset)]
  | c :: cs =>
    match _h : Lexeme.first? (c :: cs) with
    | none => .error ⟨.unrecognised (String.ofList [c]), .ofOffset file offset⟩
    | some lexeme => do
      let tokens ← scanFrom file (offset + byteCount lexeme.text) lexeme.rest
      return (lexeme.token? file offset).toList ++ tokens
termination_by cs.length
decreasing_by exact Lexeme.length_rest_lt ‹_›

@[simp] theorem scanFrom_nil (file : String) (offset : Nat) :
    scanFrom file offset [] = .ok [.ending (.ofOffset file offset)] := by
  rw [scanFrom]

theorem scanFrom_of_first? {file : String} {offset : Nat} {cs : List Char} {lexeme : Lexeme}
    (h : Lexeme.first? cs = some lexeme) :
    scanFrom file offset cs =
      (scanFrom file (offset + byteCount lexeme.text) lexeme.rest).map
        ((lexeme.token? file offset).toList ++ ·) := by
  cases cs with
  | nil => exact absurd (Lexeme.length_rest_lt h) (Nat.not_lt_zero _)
  | cons c cs =>
    rw [scanFrom, h]
    rfl

theorem scanFrom_of_first?_eq_none {file : String} {offset : Nat} {c : Char} {cs : List Char}
    (h : Lexeme.first? (c :: cs) = none) :
    scanFrom file offset (c :: cs)
      = .error ⟨.unrecognised (String.ofList [c]), .ofOffset file offset⟩ := by
  rw [scanFrom, h]

def scan (source file : String) : Except Diagnostic (List Token) :=
  scanFrom file 0 source.toList

end Token

end StyleLang
