import StyleLang.Text.Bytes
import StyleLang.Token.Scan

/-!
# Readers

A reader is a source with a place in it. It may be moved anywhere, past the end and between the
bytes of a character too, but there is a rest to read only at a boundary of characters
(`Reader.rest?_eq_some_iff`).

A reader at the start of a source that passes one lexeme after the other comes to the tokens, or to
the fault, that `Token.scan` gives for the source (`Reader.reads_iff`).
-/

namespace StyleLang

structure Reader where
  source : String
  file : String
  offset : UInt64
deriving DecidableEq

namespace Reader

def ofSource (source file : String) : Reader :=
  ⟨source, file, 0⟩

/-- What is still to be read. -/
def rest? (reader : Reader) : Option (List Char) :=
  dropBytes? reader.source.toList reader.offset.toNat

/-- The next character, or a null character at the end. -/
def next? (reader : Reader) : Option Char :=
  reader.rest?.map (·.headD '\x00')

def atEnd (reader : Reader) : Bool :=
  byteCount reader.source.toList ≤ reader.offset.toNat

def position (reader : Reader) : Position :=
  .ofOffset reader.file reader.offset.toNat

/-- The span of the next bytes. -/
def span (reader : Reader) (size : Nat) : Span :=
  .ofOffset reader.file reader.offset.toNat size

def advance (reader : Reader) (size : Nat) : Reader :=
  { reader with offset := reader.offset + UInt64.ofNat size }

/-! ## Where a reader stands -/

/-- The reader stands between two parts of its source. -/
structure Between (before after : List Char) (reader : Reader) : Prop where
  source_eq : reader.source.toList = before ++ after
  offset_eq : reader.offset.toNat = byteCount before

theorem rest?_eq_some_iff {reader : Reader} {r : List Char} :
    reader.rest? = some r ↔ ∃ before, reader.Between before r := by
  rw [rest?, dropBytes?_eq_some_iff]
  exact ⟨fun ⟨s, hs, ho⟩ => ⟨s, hs, ho⟩, fun ⟨s, h⟩ => ⟨s, h.source_eq, h.offset_eq⟩⟩

namespace Between

variable {reader : Reader} {before after piece : List Char}

theorem ofSource (source file : String) : (ofSource source file).Between [] source.toList :=
  ⟨rfl, rfl⟩

theorem rest?_eq (h : reader.Between before after) : reader.rest? = some after :=
  rest?_eq_some_iff.2 ⟨before, h⟩

theorem next?_eq (h : reader.Between before after) : reader.next? = some (after.headD '\x00') := by
  rw [next?, h.rest?_eq, Option.map_some]

theorem atEnd_iff (h : reader.Between before after) : reader.atEnd = true ↔ after = [] := by
  rw [atEnd, decide_eq_true_eq, h.source_eq, h.offset_eq, byteCount_append,
    ← byteCount_eq_zero_iff]
  omega

theorem span_eq (h : reader.Between before after) (size : Nat) :
    reader.span size = .ofOffset reader.file (byteCount before) size := by
  rw [span, h.offset_eq]

theorem advance (h : reader.Between before (piece ++ after))
    (hs : byteCount reader.source.toList < UInt64.size) :
    (reader.advance (byteCount piece)).Between (before ++ piece) after := by
  refine ⟨by rw [Reader.advance, h.source_eq, List.append_assoc], ?_⟩
  rw [h.source_eq, byteCount_append, byteCount_append] at hs
  have hpiece : (UInt64.ofNat (byteCount piece)).toNat = byteCount piece :=
    UInt64.toNat_ofNat_of_lt' (by omega)
  rw [Reader.advance, UInt64.toNat_add, hpiece, h.offset_eq, byteCount_append]
  exact Nat.mod_eq_of_lt (Nat.lt_of_le_of_lt (by omega) hs)

end Between

/-! ## Reading tokens -/

/-- The token that a reader makes of the lexeme in front of it, if it makes one. -/
def token? (reader : Reader) (lexeme : Lexeme) : Option Token :=
  (lexeme.shape.kind? lexeme.text).map fun kind =>
    ⟨kind, String.ofList lexeme.text, reader.span (byteCount lexeme.text)⟩

/-- What comes of passing lexemes up to the end of the source, or to a character that starts
none. -/
inductive Reads : Reader → Except Diagnostic (List Token) → Prop
  | stop {reader : Reader} : reader.atEnd = true →
      Reads reader (.ok [⟨.ending, "EOF", reader.span 0⟩])
  | fault {reader : Reader} {cs : List Char} {c : Char} : reader.atEnd = false →
      reader.rest? = some cs → Lexeme.first? cs = none → reader.next? = some c →
      Reads reader (.error ⟨.unrecognised (String.ofList [c]), reader.position⟩)
  | lexeme {reader : Reader} {cs : List Char} {lexeme : Lexeme}
      {result : Except Diagnostic (List Token)} : reader.atEnd = false →
      reader.rest? = some cs → Lexeme.first? cs = some lexeme →
      Reads (reader.advance (byteCount lexeme.text)) result →
      Reads reader (result.map ((reader.token? lexeme).toList ++ ·))

theorem token?_eq {reader : Reader} {before after : List Char} (h : reader.Between before after)
    (lexeme : Lexeme) : reader.token? lexeme = lexeme.token? reader.file (byteCount before) := by
  rw [token?, h.span_eq]
  rfl

/-- A reader comes to nothing but what scanning the rest of its source gives. -/
theorem Reads.eq_scanFrom {reader : Reader} {result : Except Diagnostic (List Token)}
    (h : reader.Reads result) (hs : byteCount reader.source.toList < UInt64.size) :
    ∀ {before after : List Char}, reader.Between before after →
      result = Token.scanFrom reader.file (byteCount before) after := by
  induction h with
  | stop hend =>
    intro before after hb
    rw [hb.atEnd_iff.1 hend, Token.scanFrom_nil, hb.span_eq]
    rfl
  | @fault reader cs c hend hr hf hc =>
    intro before after hb
    obtain rfl : after = cs := Option.some.inj (hb.rest?_eq.symm.trans hr)
    cases after with
    | nil => exact absurd (hb.atEnd_iff.2 rfl) (by rw [hend]; exact Bool.false_ne_true)
    | cons d after =>
      obtain rfl : d = c := Option.some.inj (hb.next?_eq.symm.trans hc)
      rw [Token.scanFrom_of_first?_eq_none hf, position, hb.offset_eq]
  | @lexeme reader cs lexeme result hend hr hf _ ih =>
    intro before after hb
    obtain rfl : after = cs := Option.some.inj (hb.rest?_eq.symm.trans hr)
    have happ := Shape.append_of_split? (Lexeme.split?_of_first? hf)
    have hnext := (happ ▸ hb).advance hs
    rw [Token.scanFrom_of_first? hf, token?_eq hb, ih hs hnext, byteCount_append]
    rfl

/-- From a boundary of characters a reader comes to the end, or to a fault. -/
theorem exists_reads (reader : Reader) (hs : byteCount reader.source.toList < UInt64.size)
    {before after : List Char} (hb : reader.Between before after) :
    ∃ result, reader.Reads result := by
  by_cases hend : reader.atEnd = true
  · exact ⟨_, .stop hend⟩
  have hend : reader.atEnd = false := Bool.eq_false_iff.2 hend
  rcases hf : Lexeme.first? after with _ | lexeme
  · exact ⟨_, .fault hend hb.rest?_eq hf hb.next?_eq⟩
  · have hlt := Lexeme.length_rest_lt hf
    have happ := Shape.append_of_split? (Lexeme.split?_of_first? hf)
    have hnext := (happ ▸ hb).advance hs
    obtain ⟨result, hresult⟩ := exists_reads (reader.advance (byteCount lexeme.text)) hs hnext
    exact ⟨_, .lexeme hend hb.rest?_eq hf hresult⟩
termination_by after.length

/-- A reader at the start of a source comes to what scanning the source gives. -/
theorem reads_iff {source : String} (hs : source.utf8ByteSize < UInt64.size) (file : String)
    {result : Except Diagnostic (List Token)} :
    (ofSource source file).Reads result ↔ Token.scan source file = result := by
  rw [← byteCount_toList] at hs
  have hb := Between.ofSource source file
  constructor
  · exact fun h => (h.eq_scanFrom hs hb).symm
  · rintro rfl
    obtain ⟨result, h⟩ := exists_reads _ hs hb
    have heq : result = Token.scan source file := h.eq_scanFrom hs hb
    exact heq ▸ h

end Reader

end StyleLang
