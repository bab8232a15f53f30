import SectionMonitor.Text.Utf8

/-!
# Label buffers

Processes tell each other their labels in one byte buffer: for every label its length in bytes,
as eight bytes with the least significant first, and then the label in UTF-8. A reader takes the
records from the front and ignores a rest that holds no whole record.
-/

namespace SectionMonitor

/-- A sequence of bytes that travels between processes. -/
abbrev Buffer := List UInt8

namespace LabelBuffer

/-! ## Lengths -/

/-- The bytes of a length, the least significant of `width` bytes first. -/
def lengthBytes : Nat → Nat → Buffer
  | 0, _ => []
  | width + 1, n => UInt8.ofNat (n % 256) :: lengthBytes width (n / 256)

/-- The number that bytes stand for, the least significant byte first. -/
def lengthOf : Buffer → Nat
  | [] => 0
  | b :: rest => b.toNat + 256 * lengthOf rest

theorem length_lengthBytes (width n : Nat) : (lengthBytes width n).length = width := by
  induction width generalizing n with
  | zero => rfl
  | succ width ih => simp [lengthBytes, ih]

/-- A length that fits is read back from its bytes. -/
theorem lengthOf_lengthBytes {width n : Nat} (h : n < Nat.pow 256 width) :
    lengthOf (lengthBytes width n) = n := by
  induction width generalizing n with
  | zero =>
    have : n = 0 := Nat.lt_one_iff.mp h
    simp [lengthBytes, lengthOf, this]
  | succ width ih =>
    have hdiv : n / 256 < Nat.pow 256 width :=
      Nat.div_lt_of_lt_mul (Nat.lt_of_lt_of_eq h (Nat.mul_comm _ _))
    have hmod : (UInt8.ofNat (n % 256)).toNat = n % 256 := by
      rw [UInt8.toNat_ofNat', Nat.mod_eq_of_lt (Nat.mod_lt n (by decide))]
    rw [lengthBytes, lengthOf, ih hdiv, hmod]
    omega

/-- How many bytes a length takes. -/
def lengthWidth : Nat := 8

/-! ## Writing -/

/-- The record of a label. -/
def encodeLabel (label : String) : Buffer :=
  let bytes := Text.bytesOf label
  lengthBytes lengthWidth bytes.length ++ bytes

/-- The records of all labels, in order. -/
def encode (labels : List String) : Buffer := labels.flatMap encodeLabel

/-! ## Reading -/

/-- The bytes of the first record and what follows it, if the buffer begins with a whole record. -/
def takeRecord? (buffer : Buffer) : Option (Buffer × Buffer) :=
  let rest := buffer.drop lengthWidth
  let length := lengthOf (buffer.take lengthWidth)
  if lengthWidth ≤ buffer.length ∧ length ≤ rest.length then
    some (rest.take length, rest.drop length)
  else none

/-- A record is never empty, because its length takes bytes. -/
theorem length_lt_of_takeRecord? {buffer bytes rest : Buffer}
    (h : takeRecord? buffer = some (bytes, rest)) : rest.length < buffer.length := by
  simp only [takeRecord?] at h
  split at h
  · next hw =>
    simp only [Option.some.injEq, Prod.mk.injEq] at h
    rw [← h.2]
    have : lengthWidth = 8 := rfl
    simp only [List.length_drop]
    omega
  · cases h

/-- The bytes of the records at the front of a buffer. -/
def records (buffer : Buffer) : List Buffer :=
  match _h : takeRecord? buffer with
  | some (bytes, rest) => bytes :: records rest
  | none => []
termination_by buffer.length
decreasing_by exact length_lt_of_takeRecord? ‹_›

/-- The labels in the records at the front of a buffer. -/
def decode (buffer : Buffer) : List String := (records buffer).map Text.ofBytes

end LabelBuffer

end SectionMonitor
