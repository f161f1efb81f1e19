import Neighbor.Message

/-!
# Messages on the wire

What is sent is read back: the bytes of a message, with anything after them, decode to it. Nothing
else is read: bytes that decode to a message begin with its bytes (`Message.encoded_of_decode`).
-/

namespace Neighbor

/-- The code of an operation stands for it. -/
theorem Operation.ofCode_code (op : Operation) : Operation.ofCode op.code = .ok op := by
  cases op <;> rfl

/-- Only the number of an operation stands for it. -/
theorem Operation.code_of_ofCode {n : UInt16} {op : Operation} (h : ofCode n = .ok op) :
    op.code = n := by
  unfold ofCode at h
  split at h
  · next hrequest =>
    cases h
    exact hrequest.symm
  · split at h
    · next hreply =>
      cases h
      exact hreply.symm
    · cases h

namespace Message

/-- The value of a word. -/
theorem toNat_word (hi lo : UInt8) : (word hi lo).toNat = 256 * hi.toNat + lo.toNat := by
  have hhi := hi.toNat_lt
  have hlo := lo.toNat_lt
  have hshift : hi.toNat <<< 8 % 65536 = hi.toNat <<< 8 := by
    rw [Nat.shiftLeft_eq]
    omega
  calc (word hi lo).toNat
      = hi.toNat <<< 8 ||| lo.toNat := by simp [word, hshift]
    _ = hi.toNat <<< 8 + lo.toNat := (Nat.shiftLeft_add_eq_or_of_lt hlo _).symm
    _ = 256 * hi.toNat + lo.toNat := by
      rw [Nat.shiftLeft_eq]
      omega

/-- The value of the high byte of a word. -/
theorem toNat_high (w : UInt16) : (w >>> 8).toUInt8.toNat = w.toNat / 256 := by
  have hw := w.toNat_lt
  have hshift : (w >>> 8).toNat = w.toNat / 256 := by
    rw [UInt16.toNat_shiftRight]
    exact Nat.shiftRight_eq_div_pow _ _
  rw [UInt16.toNat_toUInt8, hshift]
  omega

/-- A word is read back from its bytes. -/
theorem word_wordBytes (w : UInt16) : word (w >>> 8).toUInt8 w.toUInt8 = w := by
  apply UInt16.toNat_inj.mp
  rw [toNat_word, toNat_high, UInt16.toNat_toUInt8]
  omega

/-- Two bytes are those of their word. -/
theorem wordBytes_word (hi lo : UInt8) : wordBytes (word hi lo) = [hi, lo] := by
  have hlo := lo.toNat_lt
  have hhigh : (word hi lo >>> 8).toUInt8 = hi := by
    apply UInt8.toNat_inj.mp
    rw [toNat_high, toNat_word]
    omega
  have hlow : (word hi lo).toUInt8 = lo := by
    apply UInt8.toNat_inj.mp
    rw [UInt16.toNat_toUInt8, toNat_word]
    omega
  rw [wordBytes, hhigh, hlow]

/-- All messages are equally long. -/
theorem length_encode (m : Message) : m.encode.length = wireLength := rfl

/-- A message is read back from its bytes, whatever follows them. -/
theorem decode_encode (m : Message) (padding : List UInt8) :
    decode (m.encode ++ padding) = .ok m := by
  simp only [encode, wordBytes, Mac.octets, Address.octets, List.cons_append, List.nil_append,
    decode, word_wordBytes, Operation.ofCode_code, ne_eq, not_true_eq_false, or_self, if_false]

/-- Bytes from which a message is read are its bytes and something after them. -/
theorem encoded_of_decode {bytes : List UInt8} {m : Message} (h : decode bytes = .ok m) :
    ∃ padding, bytes = m.encode ++ padding := by
  unfold decode at h
  split at h
  · next padding =>
    split at h
    · cases h
    · next htypes =>
      split at h
      · cases h
      · next hlengths =>
        split at h
        · cases h
        · next operation hcode =>
          cases h
          rw [not_or, Classical.not_not, Classical.not_not] at htypes hlengths
          obtain ⟨hhardware, hprotocol⟩ := htypes
          obtain ⟨rfl, rfl⟩ := hlengths
          have hoperation := Operation.code_of_ofCode hcode
          refine ⟨padding, ?_⟩
          rw [encode, ← hhardware, ← hprotocol, hoperation]
          simp only [wordBytes_word]
          rfl
  · cases h

/-- The bytes of a message are its own. -/
theorem encode_injective : Function.Injective encode := by
  intro m m' hsame
  have hm := decode_encode m []
  rw [hsame, decode_encode m' []] at hm
  exact (Except.ok.inj hm).symm

/-- The reader accepts exactly the bytes of a message with anything after them. So a message is read
back from its bytes, no two messages have the same bytes, and what was read is written as it was
sent. -/
theorem reads_what_is_written :
    (∀ bytes m, decode bytes = .ok m ↔
      wireLength ≤ bytes.length ∧ bytes.take wireLength = m.encode) ∧
    (∀ (m : Message) padding, decode (m.encode ++ padding) = .ok m) ∧
    Function.Injective encode ∧
    ∀ bytes m, decode bytes = .ok m → m.encode = bytes.take wireLength := by
  have hfront (m : Message) (padding : List UInt8) :
      (m.encode ++ padding).take wireLength = m.encode := by
    rw [← m.length_encode, List.take_left]
  refine ⟨fun bytes m => ⟨fun h => ?_, ?_⟩, decode_encode, encode_injective, fun bytes m h => ?_⟩
  · obtain ⟨padding, rfl⟩ := encoded_of_decode h
    refine ⟨?_, hfront m padding⟩
    rw [List.length_append, m.length_encode]
    omega
  · rintro ⟨_, hbytes⟩
    rw [← List.take_append_drop wireLength bytes, hbytes]
    exact decode_encode m _
  · obtain ⟨padding, rfl⟩ := encoded_of_decode h
    exact (hfront m padding).symm

/-- A reply that was filled up to the shortest frame is read, and it is written without the filling.
-/
theorem reads_what_is_written_of_padded :
    let m := Message.reply ⟨2, 0, 0, 0, 0, 34⟩ ⟨10, 0, 0, 5⟩ ⟨2, 0, 0, 0, 0, 1⟩ ⟨192, 168, 1, 1⟩
    let bytes : List UInt8 := [0, 1, 8, 0, 6, 4, 0, 2, 2, 0, 0, 0, 0, 34, 10, 0, 0, 5,
      2, 0, 0, 0, 0, 1, 192, 168, 1, 1] ++ List.replicate 18 0
    decode bytes = .ok m ∧ m.encode = bytes.take wireLength := by
  intro m bytes
  have hread : decode bytes = .ok m := (reads_what_is_written.1 bytes m).mpr (by decide)
  exact ⟨hread, reads_what_is_written.2.2.2 bytes m hread⟩

end Message

end Neighbor
