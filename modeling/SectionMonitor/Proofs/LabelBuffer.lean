import Mathlib.Data.List.Basic
import SectionMonitor.LabelBuffer

/-!
# Label buffers hold what was written

A reader finds the labels that were written, in order (`decode_encode`). The length of a record has
eight bytes, so that a label may have no more bytes than these can count; no string in memory has.

A buffer that is cut short loses the labels that do not fit any more, and nothing else. Wherever the
cut is, inside a length or inside a label, the reader finds the longest beginning of the list whose
records lie before the cut (`decode_cut_buffer`). The induction is on the list: the first record is
either whole or the place of the cut.
-/

namespace SectionMonitor

namespace Text

/-- A text survives the way through its bytes. -/
theorem ofBytes_bytesOf (s : String) : ofBytes (bytesOf s) = s := by
  have hbytes : (⟨(bytesOf s).toArray⟩ : ByteArray) = s.toUTF8 := by
    rw [bytesOf, Array.toArray_toList]
  have hvalid : s.toUTF8.IsValidUTF8 := s.isValidUTF8
  rw [ofBytes, ofBytes?, hbytes, String.fromUTF8?, dif_pos hvalid, Option.getD_some]
  rfl

/-- Bytes that are a text are the bytes of that text. -/
theorem bytesOf_ofBytes {bytes : List UInt8} (h : (ofBytes? bytes).isSome) :
    bytesOf (ofBytes bytes) = bytes := by
  rw [ofBytes?, String.fromUTF8?] at h
  split_ifs at h with hvalid
  · rw [ofBytes, ofBytes?, String.fromUTF8?, dif_pos hvalid, Option.getD_some, bytesOf]
    rfl
  · cases h

end Text

namespace LabelBuffer

variable {label : String} {labels : List String} {buffer bytes rest : Buffer}

/-! ## Taking one record -/

/-- No whole record can be taken: the length is not complete, or bytes are missing that it
promises. -/
def Incomplete (buffer : Buffer) : Prop :=
  buffer.length < lengthWidth ∨
    (buffer.drop lengthWidth).length < lengthOf (buffer.take lengthWidth)

theorem takeRecord?_eq_none_iff : takeRecord? buffer = none ↔ Incomplete buffer := by
  rw [takeRecord?, Incomplete]
  split_ifs with hwhole
  · obtain ⟨hwidth, hlength⟩ := hwhole
    simp only [false_iff, not_or, Nat.not_lt]
    exact ⟨hwidth, hlength⟩
  · simp only [true_iff]
    by_contra hcomplete
    rw [not_or, Nat.not_lt, Nat.not_lt] at hcomplete
    exact hwhole hcomplete

/-- A length in front of as many bytes is a record, whatever follows it. -/
theorem takeRecord?_record {header : Buffer} (hheader : header.length = lengthWidth)
    (hlength : lengthOf header = bytes.length) (rest : Buffer) :
    takeRecord? (header ++ (bytes ++ rest)) = some (bytes, rest) := by
  have hdrop : (header ++ (bytes ++ rest)).drop lengthWidth = bytes ++ rest :=
    List.drop_left' hheader
  have htake : (header ++ (bytes ++ rest)).take lengthWidth = header := List.take_left' hheader
  rw [takeRecord?, hdrop, htake, hlength, if_pos]
  · rw [List.take_left, List.drop_left]
  · rw [List.length_append, hheader, List.length_append]
    omega

/-! ## Reading what was written -/

/-- A label whose length the bytes for it can hold. -/
def Fits (label : String) : Prop := (Text.bytesOf label).length < Nat.pow 256 lengthWidth

/-- A reader takes the first record as it was written, whatever follows it. -/
theorem takeRecord?_encodeLabel_append (h : Fits label) (rest : Buffer) :
    takeRecord? (encodeLabel label ++ rest) = some (Text.bytesOf label, rest) := by
  rw [encodeLabel, List.append_assoc]
  exact takeRecord?_record (length_lengthBytes _ _) (lengthOf_lengthBytes h) rest

theorem length_encodeLabel (label : String) :
    (encodeLabel label).length = lengthWidth + (Text.bytesOf label).length := by
  rw [encodeLabel, List.length_append, length_lengthBytes]

theorem encode_cons (label : String) (labels : List String) :
    encode (label :: labels) = encodeLabel label ++ encode labels := List.flatMap_cons

theorem records_of_takeRecord? (h : takeRecord? buffer = some (bytes, rest)) :
    records buffer = bytes :: records rest := by
  rw [records]
  split
  · next bytes' rest' htake =>
    obtain ⟨rfl, rfl⟩ := Prod.mk.inj (Option.some.inj (htake.symm.trans h))
    rfl
  · next hnone => exact absurd (hnone.symm.trans h) (by simp)

theorem records_of_incomplete (h : Incomplete buffer) : records buffer = [] := by
  rw [records]
  split
  · next htake => exact absurd (htake.symm.trans (takeRecord?_eq_none_iff.mpr h)) (by simp)
  · rfl

theorem records_encode (h : ∀ label ∈ labels, Fits label) :
    records (encode labels) = labels.map Text.bytesOf := by
  induction labels with
  | nil => exact records_of_incomplete (.inl (by decide))
  | cons label rest ih =>
    have hfirst := takeRecord?_encodeLabel_append (h label List.mem_cons_self) (encode rest)
    rw [encode_cons, records_of_takeRecord? hfirst,
      ih fun l hl ↦ h l (List.mem_cons_of_mem label hl), List.map_cons]

/-- **A reader finds what was written.** -/
theorem decode_encode (h : ∀ label ∈ labels, Fits label) : decode (encode labels) = labels := by
  rw [decode, records_encode h, List.map_map]
  exact List.map_id'' Text.ofBytes_bytesOf labels

/-! ## Reading what was cut short -/

/-- The longest beginning of a list of labels whose records fit into so many bytes. -/
structure LongestWithin (size : ℕ) (labels initial : List String) : Prop where
  begins : initial <+: labels
  length_le : (encode initial).length ≤ size
  longest : ∀ other, other <+: labels → (encode other).length ≤ size → other <+: initial

namespace LongestWithin

variable {size : ℕ} {initial other : List String}

theorem unique (h : LongestWithin size labels initial) (h' : LongestWithin size labels other) :
    initial = other := by
  have hle := h'.longest initial h.begins h.length_le
  have hge := h.longest other h'.begins h'.length_le
  exact hle.eq_of_length_le hge.length_le

theorem nil (size : ℕ) : LongestWithin size [] [] where
  begins := List.prefix_rfl
  length_le := Nat.zero_le size
  longest _ hother _ := hother

/-- A record that does not fit ends the beginning. -/
theorem stop (hlt : size < (encodeLabel label).length) (labels : List String) :
    LongestWithin size (label :: labels) [] where
  begins := List.nil_prefix
  length_le := Nat.zero_le size
  longest other hother hle := by
    cases other with
    | nil => exact List.prefix_rfl
    | cons first later =>
      obtain ⟨rfl, -⟩ := List.cons_prefix_cons.mp hother
      rw [encode_cons, List.length_append] at hle
      omega

/-- A record that fits leaves the other bytes to the other labels. -/
theorem cons (hle : (encodeLabel label).length ≤ size)
    (h : LongestWithin (size - (encodeLabel label).length) labels initial) :
    LongestWithin size (label :: labels) (label :: initial) where
  begins := List.cons_prefix_cons.mpr ⟨rfl, h.begins⟩
  length_le := by
    have hrest := h.length_le
    rw [encode_cons, List.length_append]
    omega
  longest other hother hlength := by
    cases other with
    | nil => exact List.nil_prefix
    | cons first later =>
      obtain ⟨rfl, hlater⟩ := List.cons_prefix_cons.mp hother
      rw [encode_cons, List.length_append] at hlength
      exact List.cons_prefix_cons.mpr ⟨rfl, h.longest later hlater (by omega)⟩

end LongestWithin

/-- A cut inside the first record leaves no whole one. Either its length is cut, or it is still
there and promises a byte that is behind the cut. -/
theorem incomplete_take_encodeLabel (h : Fits label) {size : ℕ}
    (hlt : size < (encodeLabel label).length) : Incomplete ((encodeLabel label).take size) := by
  have hwidth : (lengthBytes lengthWidth (Text.bytesOf label).length).length = lengthWidth :=
    length_lengthBytes _ _
  have hlength := length_encodeLabel label
  by_cases hcut : size < lengthWidth
  · left
    rw [List.length_take]
    omega
  · right
    have hheader : ((encodeLabel label).take size).take lengthWidth
        = lengthBytes lengthWidth (Text.bytesOf label).length := by
      rw [List.take_take, Nat.min_eq_left (Nat.not_lt.mp hcut), encodeLabel,
        List.take_left' hwidth]
    rw [hheader, lengthOf_lengthBytes h, List.length_drop, List.length_take]
    omega

/-- **A cut.** The reader finds the first label if its record lies before the cut, and goes on with
what the cut leaves of the others. -/
theorem decode_take_encode_cons (h : Fits label) (labels : List String) (size : ℕ) :
    decode ((encode (label :: labels)).take size)
      = if (encodeLabel label).length ≤ size then
          label :: decode ((encode labels).take (size - (encodeLabel label).length))
        else [] := by
  rw [encode_cons]
  split_ifs with hle
  · rw [List.take_append, List.take_of_length_le hle, decode,
      records_of_takeRecord? (takeRecord?_encodeLabel_append h _), List.map_cons,
      Text.ofBytes_bytesOf, decode]
  · have hlt := Nat.not_le.mp hle
    rw [List.take_append_of_le_length (Nat.le_of_lt hlt), decode,
      records_of_incomplete (incomplete_take_encodeLabel h hlt), List.map_nil]

theorem longestWithin_decode_take (h : ∀ label ∈ labels, Fits label) (size : ℕ) :
    LongestWithin size labels (decode ((encode labels).take size)) := by
  induction labels generalizing size with
  | nil =>
    have hnothing : decode ((encode []).take size) = [] := by
      rw [encode, List.flatMap_nil, List.take_nil, decode, records_of_incomplete (.inl (by decide))]
      rfl
    rw [hnothing]
    exact .nil size
  | cons label labels ih =>
    have hlater : ∀ l ∈ labels, Fits l := fun l hl ↦ h l (List.mem_cons_of_mem label hl)
    rw [decode_take_encode_cons (h label List.mem_cons_self)]
    -- Either the cut is behind the first record, or it ends the list.
    split_ifs with hle
    · exact .cons hle (ih hlater _)
    · exact .stop (Nat.not_le.mp hle) labels

/-- **Cut buffers.** Of a buffer that is cut anywhere a reader finds the longest beginning of the
list that fits before the cut. So nothing is lost without a cut, and no other list is written in the
same way. -/
theorem decode_cut_buffer (h : ∀ label ∈ labels, Fits label) :
    (∀ size, LongestWithin size labels (decode ((encode labels).take size))) ∧
      decode (encode labels) = labels ∧
      ∀ others, (∀ label ∈ others, Fits label) → encode others = encode labels →
        others = labels := by
  refine ⟨longestWithin_decode_take h, decode_encode h, ?_⟩
  intro others hothers hsame
  calc others = decode (encode others) := (decode_encode hothers).symm
    _ = decode (encode labels) := by rw [hsame]
    _ = labels := decode_encode h

/-- Three labels, one of them empty and one with two letters of two bytes each. A cut in the length
of the second one and a cut in its last byte both leave the empty one. -/
theorem decode_cut_labels :
    (∀ label ∈ ["", "größer", "x"], Fits label) ∧
      decode ((encode ["", "größer", "x"]).take 11) = [""] ∧
      decode ((encode ["", "größer", "x"]).take 23) = [""] ∧
      decode ((encode ["", "größer", "x"]).take 24) = ["", "größer"] ∧
      decode (encode ["", "größer", "x"]) = ["", "größer", "x"] := by
  have hfits : ∀ label ∈ ["", "größer", "x"], Fits label := by
    unfold Fits
    decide +kernel
  obtain ⟨hcut, hwhole, -⟩ := decode_cut_buffer hfits
  have hfirst : (encodeLabel "").length = 8 := by decide +kernel
  have hsecond : (encodeLabel "größer").length = 16 := by decide +kernel
  have hthird : (encodeLabel "x").length = 9 := by decide +kernel
  refine ⟨hfits, (hcut 11).unique ?_, (hcut 23).unique ?_, (hcut 24).unique ?_, hwhole⟩
  · exact .cons (by omega) (.stop (by omega) _)
  · exact .cons (by omega) (.stop (by omega) _)
  · exact .cons (by omega) (.cons (by omega) (.stop (by omega) _))

end LabelBuffer

end SectionMonitor
