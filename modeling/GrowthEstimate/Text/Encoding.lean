import GrowthEstimate.Text.CodePoints

/-!
# Encodings

A run of bytes is a string in units of 8, 16 or 32 bits.  A byte order mark in front says how wide
the units are and which byte of a unit comes first.  Without one the zeros among the first bytes
tell, since what is read here begins with characters below U+0080.  A half that is written without
the other one is read as it stands, in every encoding.
-/

namespace GrowthEstimate

open CodePoints (Piece join)

/-- Which byte of a unit comes first. -/
inductive ByteOrder
  | highFirst
  | lowFirst
  deriving DecidableEq

/-- How wide the units of a string are: 8, 16 or 32 bits. -/
inductive Encoding
  | narrow
  | wide (order : ByteOrder)
  | widest (order : ByteOrder)
  deriving DecidableEq

namespace Encoding

/-! ## Which encoding it is -/

/-- The encoding that the zeros among the first bytes tell. -/
def ofZeros : List Nat → Encoding
  | 0 :: 0 :: _ :: _ :: _ => .widest .highFirst
  | 0 :: _ :: _ :: _ :: _ => .wide .highFirst
  | _ :: 0 :: 0 :: 0 :: _ => .widest .lowFirst
  | _ :: 0 :: _ :: _ :: _ => .wide .lowFirst
  | [0, _] => .wide .highFirst
  | [_, 0] => .wide .lowFirst
  | _ => .narrow

/-- The encoding of a run of bytes, and the bytes behind the byte order mark. -/
def detect : List Nat → Encoding × List Nat
  | 0xFF :: 0xFE :: 0 :: 0 :: rest => (.widest .lowFirst, rest)
  | 0 :: 0 :: 0xFE :: 0xFF :: rest => (.widest .highFirst, rest)
  | 0xFF :: 0xFE :: rest => (.wide .lowFirst, rest)
  | 0xFE :: 0xFF :: rest => (.wide .highFirst, rest)
  | 0xEF :: 0xBB :: 0xBF :: rest => (.narrow, rest)
  | bytes => (ofZeros bytes, bytes)

def codePointEnd : Nat := 0x110000

/-! ## Units of 8 bits -/

/-- A code point of which the first bytes have been read. -/
structure Opened where
  /-- The bytes to come. -/
  pending : Nat
  /-- What the bytes so far spell. -/
  value : Nat
  /-- The least code point that takes so many bytes. -/
  least : Nat

/-- The first byte of a code point. -/
def Opened.ofLead? (b : Nat) : Option Opened :=
  if b < 0x80 then some ⟨0, b, 0⟩
  else if b < 0xC0 then none
  else if b < 0xE0 then some ⟨1, b - 0xC0, 0x80⟩
  else if b < 0xF0 then some ⟨2, b - 0xE0, 0x800⟩
  else if b < 0xF8 then some ⟨3, b - 0xF0, 0x10000⟩
  else none

/-- One more byte of a code point. -/
def Opened.next? (o : Opened) (b : Nat) : Option Opened :=
  if 0x80 ≤ b ∧ b < 0xC0 then some ⟨o.pending - 1, 0x40 * o.value + (b - 0x80), o.least⟩ else none

/-- The code point, once all its bytes have been read and are not more than it takes. -/
def Opened.point? (o : Opened) : Option CodePoint :=
  if o.least ≤ o.value ∧ o.value < codePointEnd then some (.ofNat o.value) else none

/-- The code points behind those that were read, the last one first; one of them may be open. -/
def narrow? : Option Opened → List Nat → CodePoints → Option CodePoints
  | none, [], read => some read.reverse
  | some _, [], _ => none
  | opened, b :: rest, read =>
    match opened.elim (Opened.ofLead? b) (·.next? b) with
    | none => none
    | some o =>
      if o.pending = 0 then
        match o.point? with
        | some p => narrow? none rest (p :: read)
        | none => none
      else narrow? (some o) rest read

/-! ## Wider units -/

/-- The unit that two parts make up, of which the higher one counts `base` times. -/
def unit (order : ByteOrder) (base first second : Nat) : Nat :=
  match order with
  | .highFirst => base * first + second
  | .lowFirst => base * second + first

/-- The units of 16 bits, in front of `read` and the last one first; none when a byte is left. -/
def wideUnits? (order : ByteOrder) : List Nat → List Nat → Option (List Nat)
  | [], read => some read
  | [_], _ => none
  | a :: b :: rest, read => wideUnits? order rest (unit order 0x100 a b :: read)

/-- The code points in units of 32 bits behind those that were read, the last one first; none when
bytes are left or a unit is no code point. -/
def widest? (order : ByteOrder) : List Nat → CodePoints → Option CodePoints
  | [], read => some read.reverse
  | a :: b :: c :: d :: rest, read =>
    let n := unit order 0x10000 (unit order 0x100 a b) (unit order 0x100 c d)
    if n < codePointEnd then widest? order rest (.ofNat n :: read) else none
  | _, _ => none

/-! ## Strings -/

def read? : Encoding → List Nat → Option CodePoints
  | narrow, bytes => narrow? none bytes []
  | wide order, bytes => (wideUnits? order bytes []).map fun units => join (units.map .unit) []
  | widest order, bytes => widest? order bytes []

/-- The string that bytes are, in the encoding that they tell. -/
def decode? (bytes : List UInt8) : Option CodePoints :=
  let (encoding, rest) := detect (bytes.map UInt8.toNat)
  encoding.read? rest

end Encoding

end GrowthEstimate
