import SectionMonitor.Proofs.LabelBuffer

/-!
# Buffers from elsewhere

A label buffer comes from another process, and nothing guarantees that its bytes have been written
as labels. Whatever they are, they split into records, each of which is a length and as many bytes,
and a rest that holds no whole record. `Splits` says so without a reader, and there is one way to
split a buffer only (`Splits.unique`): where a record begins it is decided how long it is.

A reader is looked at as a machine that takes one record in each step (`Reader.next?`). A record
takes up the bytes of its length at least, so the machine stops after at most an eighth of the bytes
as many steps, with exactly the labels of the split (`decode_splits_uniquely`).
-/

namespace SectionMonitor

namespace LabelBuffer

variable {buffer rest : Buffer} {records' : List Buffer}

/-! ## Splitting a buffer -/

/-- A buffer splits into the bytes of its records, in order, and a rest without a whole record. -/
inductive Splits : Buffer → List Buffer → Buffer → Prop
  | rest {rest : Buffer} (hrest : Incomplete rest) : Splits rest [] rest
  /-- A length, as many bytes, and what the others make up. -/
  | record {header bytes others rest : Buffer} {records' : List Buffer}
      (hheader : header.length = lengthWidth) (hlength : lengthOf header = bytes.length)
      (hothers : Splits others records' rest) :
      Splits (header ++ (bytes ++ others)) (bytes :: records') rest

/-- A record that is taken has its length in front of it. -/
theorem exists_header_of_takeRecord? {bytes : Buffer} (h : takeRecord? buffer = some (bytes, rest)) :
    ∃ header, header.length = lengthWidth ∧ lengthOf header = bytes.length ∧
      buffer = header ++ (bytes ++ rest) := by
  rw [takeRecord?] at h
  split_ifs at h with hwhole
  obtain ⟨hwidth, hlength⟩ := hwhole
  obtain ⟨rfl, rfl⟩ := Prod.mk.inj (Option.some.inj h)
  refine ⟨buffer.take lengthWidth, ?_, ?_, ?_⟩
  · rw [List.length_take, Nat.min_eq_left hwidth]
  · rw [List.length_take, Nat.min_eq_left hlength]
  · rw [List.take_append_drop, List.take_append_drop]

/-- Bytes are the length that they stand for. -/
theorem lengthBytes_lengthOf (header : Buffer) :
    lengthBytes header.length (lengthOf header) = header := by
  induction header with
  | nil => rfl
  | cons b header ih =>
    have hlt : b.toNat < 256 := b.toNat_lt
    have hmod : (b.toNat + 256 * lengthOf header) % 256 = b.toNat := by omega
    have hdiv : (b.toNat + 256 * lengthOf header) / 256 = lengthOf header := by omega
    rw [List.length_cons, lengthOf, lengthBytes, hmod, hdiv, ih, UInt8.ofNat_toNat]

namespace Splits

/-- A split begins with the record that a reader takes, or both find none. -/
theorem cases_of_takeRecord? (h : Splits buffer records' rest) :
    (takeRecord? buffer = none ∧ records' = [] ∧ rest = buffer) ∨
      ∃ bytes others later, takeRecord? buffer = some (bytes, others) ∧ records' = bytes :: later ∧
        Splits others later rest := by
  cases h with
  | rest hrest => exact .inl ⟨takeRecord?_eq_none_iff.mpr hrest, rfl, rfl⟩
  | record hheader hlength hothers =>
    exact .inr ⟨_, _, _, takeRecord?_record hheader hlength _, rfl, hothers⟩

/-- **There is one way to split a buffer.** -/
theorem unique (h : Splits buffer records' rest) {records'' : List Buffer} {rest' : Buffer}
    (h' : Splits buffer records'' rest') : records'' = records' ∧ rest' = rest := by
  -- The records of the first split are the ones a reader takes, so the second split has them too.
  induction h generalizing records'' with
  | rest hrest =>
    have hnone := takeRecord?_eq_none_iff.mpr hrest
    obtain ⟨-, hrecords, hrest'⟩ | ⟨_, _, _, hsome, -⟩ := h'.cases_of_takeRecord?
    · exact ⟨hrecords, hrest'⟩
    · exact absurd (hnone.symm.trans hsome) (by simp)
  | @record header bytes others rest later hheader hlength hothers ih =>
    have htake := takeRecord?_record hheader hlength others
    obtain ⟨hnone, -⟩ | ⟨_, _, _, hsome, rfl, hlater⟩ := h'.cases_of_takeRecord?
    · exact absurd (htake.symm.trans hnone) (by simp)
    · obtain ⟨rfl, rfl⟩ := Prod.mk.inj (Option.some.inj (htake.symm.trans hsome))
      obtain ⟨rfl, rfl⟩ := ih hlater
      exact ⟨rfl, rfl⟩

/-- The lengths of the records are part of the buffer. -/
theorem width_mul_length_le (h : Splits buffer records' rest) :
    lengthWidth * records'.length ≤ buffer.length := by
  induction h with
  | rest => exact Nat.zero_le _
  | record hheader _ _ ih =>
    rw [List.length_cons, Nat.mul_succ, List.length_append, List.length_append, hheader]
    omega

/-- If all records are texts, the buffer is what their labels are written as, and then the rest. -/
theorem buffer_eq (h : Splits buffer records' rest)
    (hvalid : ∀ bytes ∈ records', (Text.ofBytes? bytes).isSome) :
    buffer = encode (records'.map Text.ofBytes) ++ rest := by
  induction h with
  | rest => rfl
  | @record header bytes others rest later hheader hlength hothers ih =>
    have hothers_eq := ih fun b hb ↦ hvalid b (List.mem_cons_of_mem bytes hb)
    have hbytes : Text.bytesOf (Text.ofBytes bytes) = bytes :=
      Text.bytesOf_ofBytes (hvalid bytes List.mem_cons_self)
    have hheader_eq : lengthBytes lengthWidth bytes.length = header := by
      rw [← hlength, ← hheader, lengthBytes_lengthOf]
    calc header ++ (bytes ++ others)
        = encodeLabel (Text.ofBytes bytes) ++ others := by
          rw [encodeLabel, hbytes, hheader_eq, List.append_assoc]
      _ = encodeLabel (Text.ofBytes bytes) ++ (encode (later.map Text.ofBytes) ++ rest) := by
          rw [← hothers_eq]
      _ = encode ((bytes :: later).map Text.ofBytes) ++ rest := by
          rw [List.map_cons, encode_cons, List.append_assoc]

end Splits

theorem exists_splits (buffer : Buffer) : ∃ rest, Splits buffer (records buffer) rest := by
  induction buffer using records.induct with
  | case1 buffer bytes others htake ih =>
    obtain ⟨rest, hothers⟩ := ih
    obtain ⟨header, hheader, hlength, rfl⟩ := exists_header_of_takeRecord? htake
    rw [records_of_takeRecord? htake]
    exact ⟨rest, .record hheader hlength hothers⟩
  | case2 buffer htake =>
    have hrest := takeRecord?_eq_none_iff.mp htake
    rw [records_of_incomplete hrest]
    exact ⟨buffer, .rest hrest⟩

/-! ## Reading step by step -/

/-- A reader at work: the labels that it has found, and the bytes that are left. -/
structure Reader where
  found : List String
  left : Buffer

namespace Reader

/-- The reader after one more record, if there is one. -/
def next? (r : Reader) : Option Reader :=
  (takeRecord? r.left).map fun taken ↦ ⟨r.found ++ [Text.ofBytes taken.1], taken.2⟩

/-- The reader after so many steps, or after its last one if there are fewer. -/
def advance : ℕ → Reader → Reader
  | 0, r => r
  | steps + 1, r => r.next?.elim r (advance steps)

theorem advance_of_stuck {r : Reader} (h : r.next? = none) (steps : ℕ) : r.advance steps = r := by
  cases steps with
  | zero => rfl
  | succ steps => rw [advance, h, Option.elim_none]

/-- **A run.** With a step for every record the reader finds all labels, and leaves the rest. -/
theorem advance_eq (h : Splits buffer records' rest) (found : List String) {steps : ℕ}
    (hsteps : records'.length ≤ steps) :
    advance steps ⟨found, buffer⟩ = ⟨found ++ records'.map Text.ofBytes, rest⟩ := by
  induction h generalizing found steps with
  | rest hrest =>
    rw [List.map_nil, List.append_nil]
    apply advance_of_stuck
    rw [next?, takeRecord?_eq_none_iff.mpr hrest, Option.map_none]
  | @record header bytes others rest later hheader hlength hothers ih =>
    cases steps with
    | zero => exact absurd hsteps (by simp)
    | succ steps =>
      have hnext : next? ⟨found, header ++ (bytes ++ others)⟩
          = some ⟨found ++ [Text.ofBytes bytes], others⟩ := by
        rw [next?, takeRecord?_record hheader hlength, Option.map_some]
      rw [advance, hnext, Option.elim_some, ih _ (Nat.le_of_succ_le_succ hsteps), List.map_cons,
        List.append_assoc, List.singleton_append]

end Reader

/-! ## Any buffer -/

/-- **Whatever the bytes are.** A buffer splits in exactly one way into records and a rest without
a whole record. A reader comes to its end after at most an eighth of the bytes as many steps, with
one label for each record, in order, and nothing but the rest left. If all records are texts, the
labels are written as the buffer without the rest. -/
theorem decode_splits_uniquely (buffer : Buffer) :
    ∃ rest,
      (∀ records' rest', Splits buffer records' rest' ↔ records' = records buffer ∧ rest' = rest) ∧
      (∀ steps, buffer.length / lengthWidth ≤ steps →
        Reader.advance steps ⟨[], buffer⟩ = ⟨decode buffer, rest⟩) ∧
      decode buffer = (records buffer).map Text.ofBytes ∧
      ((∀ bytes ∈ records buffer, (Text.ofBytes? bytes).isSome) →
        buffer = encode (decode buffer) ++ rest) := by
  obtain ⟨rest, hsplits⟩ := exists_splits buffer
  refine ⟨rest, fun records' rest' ↦ ⟨hsplits.unique, ?_⟩, fun steps hsteps ↦ ?_, rfl,
    hsplits.buffer_eq⟩
  · rintro ⟨rfl, rfl⟩
    exact hsplits
  · have hle : (records buffer).length ≤ buffer.length / lengthWidth := by
      rw [Nat.le_div_iff_mul_le (by decide), Nat.mul_comm]
      exact hsplits.width_mul_length_le
    exact Reader.advance_eq hsplits [] (Nat.le_trans hle hsteps)

/-- An empty record, a record of one byte, and the largest of all lengths with one byte after it. -/
def overlong : Buffer :=
  List.replicate 8 0 ++ ([] ++
    ([1, 0, 0, 0, 0, 0, 0, 0] ++ ([120] ++ (List.replicate 8 255 ++ [121]))))

/-- The largest length is not taken for a record, and the reader has stopped after three steps. -/
theorem decode_overlong :
    records overlong = [[], [120]] ∧ decode overlong = ["", "x"] ∧
      Reader.advance 3 ⟨[], overlong⟩ = ⟨["", "x"], List.replicate 8 255 ++ [121]⟩ ∧
      overlong = encode ["", "x"] ++ (List.replicate 8 255 ++ [121]) := by
  obtain ⟨rest, hunique, hsteps, hdecode, hwritten⟩ := decode_splits_uniquely overlong
  have hsplits : Splits overlong [[], [120]] (List.replicate 8 255 ++ [121]) := by
    refine .record (by decide) (by decide) (.record (by decide) (by decide) (.rest (.inr ?_)))
    decide +kernel
  -- The records have been found without running the reader, which recurs on the length.
  obtain ⟨hrecords, rfl⟩ := (hunique _ _).mp hsplits
  have hlabels : decode overlong = ["", "x"] := by
    rw [hdecode, ← hrecords]
    decide +kernel
  have hvalid : ∀ bytes ∈ records overlong, (Text.ofBytes? bytes).isSome := by
    rw [← hrecords]
    decide +kernel
  refine ⟨hrecords.symm, hlabels, ?_, ?_⟩
  · exact hlabels ▸ hsteps 3 (by decide)
  · exact hlabels ▸ hwritten hvalid

end LabelBuffer

end SectionMonitor
