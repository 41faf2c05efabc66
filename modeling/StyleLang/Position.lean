/-!
# Places in a source file

A position is a byte offset into a file. Offsets have 32 bits, so `Position.ofOffset` takes a
count of bytes modulo `2 ^ 32`. A span runs from its start up to its stop.
-/

namespace StyleLang

/-- A byte offset into the file of the given name. -/
structure Position where
  offset : UInt32
  file : String
deriving DecidableEq

structure Span where
  start : Position
  stop : Position
deriving DecidableEq

namespace Position

def ofOffset (file : String) (offset : Nat) : Position :=
  ⟨UInt32.ofNat offset, file⟩

/-- Where a node stands that was built without a source. -/
def nowhere : Position := ⟨0, "<null>"⟩

theorem toNat_ofOffset {file : String} {offset : Nat} (h : offset < UInt32.size) :
    (ofOffset file offset).offset.toNat = offset :=
  UInt32.toNat_ofNat_of_lt' h

end Position

namespace Span

def nowhere : Span := ⟨.nowhere, .nowhere⟩

/-- The span of a number of bytes from an offset on. -/
def ofOffset (file : String) (offset size : Nat) : Span :=
  ⟨.ofOffset file offset, .ofOffset file (offset + size)⟩

end Span

end StyleLang
