import StyleLang.Diagnostic
import StyleLang.Text.Bytes

/-!
# Tokens

A token is a piece of a source with its kind and its place. Every list of tokens that is read
ends with a token of kind `Kind.ending`, which covers nothing (`Token.ending`).
-/

namespace StyleLang

structure Token where
  kind : Kind
  text : String
  span : Span
deriving DecidableEq

namespace Token

/-- The token of a piece of a source that starts at a byte offset. -/
def ofPiece (file : String) (offset : Nat) (kind : Kind) (piece : List Char) : Token :=
  ⟨kind, String.ofList piece, .ofOffset file offset (byteCount piece)⟩

def ending (position : Position) : Token :=
  ⟨.ending, "EOF", ⟨position, position⟩⟩

def describe (token : Token) : String :=
  "Token \x7b\nkind: " ++ token.kind.name ++ ",\nvalue: " ++ token.text ++ "\x7d"

/-- The complaint that a token cannot stand where it does. -/
def unexpected (token : Token) : Diagnostic :=
  ⟨.unexpected token.text, token.span.start⟩

/-- The complaint that something else should stand in place of a token. -/
def misplaced (token : Token) (expectation : Expectation) : Diagnostic :=
  ⟨.misplaced token.text expectation, token.span.start⟩

end Token

end StyleLang
