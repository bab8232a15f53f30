/-!
# Texts in byte buffers

Texts travel between processes as UTF-8. A buffer that is not UTF-8 is still read: every maximal
run of bytes that begins a character but cannot complete it becomes one replacement character,
and so does every byte that can begin none.

The reader is a machine that takes one byte at a time. Between bytes it remembers at most one
unfinished character.
-/

namespace SectionMonitor.Text

/-- The bytes of a text. -/
def bytesOf (s : String) : List UInt8 := s.toUTF8.data.toList

/-! ## The machine -/

/-- A character of which some bytes have been read. -/
structure Unfinished where
  /-- The bits of the code point read so far. -/
  bits : Nat
  /-- The least byte that may follow. -/
  low : UInt8
  /-- The greatest byte that may follow. -/
  high : UInt8
  /-- How many bytes are missing after the next one. -/
  more : Nat
  deriving DecidableEq, Repr

/-- Stands for bytes that are no character. -/
def replacement : Char := '\uFFFD'

/-- The characters completed by the first byte of a character, and what it leaves open. The
bounds for the second byte exclude overlong forms, surrogates and numbers above all characters. -/
def openWith (b : UInt8) : List Char × Option Unfinished :=
  if b < 0x80 then ([Char.ofNat b.toNat], none)
  else if b < 0xC2 then ([replacement], none)
  else if b < 0xE0 then ([], some ⟨b.toNat % 32, 0x80, 0xBF, 0⟩)
  else if b = 0xE0 then ([], some ⟨0, 0xA0, 0xBF, 1⟩)
  else if b = 0xED then ([], some ⟨13, 0x80, 0x9F, 1⟩)
  else if b < 0xF0 then ([], some ⟨b.toNat % 16, 0x80, 0xBF, 1⟩)
  else if b = 0xF0 then ([], some ⟨0, 0x90, 0xBF, 2⟩)
  else if b < 0xF4 then ([], some ⟨b.toNat % 8, 0x80, 0xBF, 2⟩)
  else if b = 0xF4 then ([], some ⟨4, 0x80, 0x8F, 2⟩)
  else ([replacement], none)

/-- The characters completed by one byte, and what it leaves open. A byte that cannot continue the
unfinished character ends it and begins anew. -/
def step : Option Unfinished → UInt8 → List Char × Option Unfinished
  | none, b => openWith b
  | some u, b =>
    if u.low ≤ b ∧ b ≤ u.high then
      let bits := u.bits * 64 + b.toNat % 64
      if u.more = 0 then ([Char.ofNat bits], none)
      else ([], some ⟨bits, 0x80, 0xBF, u.more - 1⟩)
    else
      let (cs, u') := openWith b
      (replacement :: cs, u')

/-- The characters of a buffer, given what was left open before it. -/
def charsFrom : Option Unfinished → List UInt8 → List Char
  | none, [] => []
  | some _, [] => [replacement]
  | u, b :: rest => (step u b).1 ++ charsFrom (step u b).2 rest

/-! ## Reading a buffer -/

/-- The text of a buffer, if it is UTF-8. -/
def ofBytes? (bytes : List UInt8) : Option String := String.fromUTF8? ⟨bytes.toArray⟩

/-- The text of a buffer. UTF-8 is read as it stands; anything else is repaired. -/
def ofBytes (bytes : List UInt8) : String :=
  (ofBytes? bytes).getD (String.ofList (charsFrom none bytes))

end SectionMonitor.Text
