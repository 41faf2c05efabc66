import StyleLang.Text.Unprintable

/-!
# Quoted text

How a text from the source is shown inside a message: between quotation marks, with a backslash
before quotation marks and backslashes, short escapes for the commonest controls, and the code
point in braces for any other character that cannot be shown.
-/

namespace StyleLang.Quoted

/-- The escape of a character by its code point, in lowercase hexadecimal without padding. -/
def codePoint (c : Char) : List Char :=
  '\\' :: 'u' :: '\x7b' :: Nat.toDigits 16 c.toNat ++ ['\x7d']

def escape (c : Char) : List Char :=
  match c with
  | '"' => ['\\', '"']
  | '\\' => ['\\', '\\']
  | '\t' => ['\\', 't']
  | '\n' => ['\\', 'n']
  | '\r' => ['\\', 'r']
  | '\x00' => ['\\', '0']
  | c => if isUnprintable c then codePoint c else [c]

def encode (text : String) : String :=
  String.ofList ('"' :: text.toList.flatMap escape ++ ['"'])

end StyleLang.Quoted
