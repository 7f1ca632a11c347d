/-
The tree encoding and the decoder against each other.  Every tree comes back
from its encoding, and the encoding gives back the decoded bytes exactly when
every prefix that the decoder meets is the shortest one.
-/

import Veilux.Evm.RlpReads

namespace Veilux

namespace Rlp

/-! ### Trees -/

mutual

/-- `encode_str` and `encode_list` over a tree. -/
def encode : Rlp → List UInt8
  | .str bytes => encodeStr bytes
  | .list items => encodeList (encodeAll items)

def encodeAll : List Rlp → List (List UInt8)
  | [] => []
  | item :: items => encode item :: encodeAll items

end

/-- What stands behind the prefix of a tree. -/
def payload : Rlp → List UInt8
  | .str bytes => bytes
  | .list items => (encodeAll items).flatten

theorem encode_list (items : List Rlp) :
    encode (.list items) =
      encodeLength (encodeAll items).flatten.length 0xc0 ++ (encodeAll items).flatten := by
  rw [encode, encodeList]

/-- A single low byte stands for itself; every other text has a prefix. -/
theorem encode_str_cases (bytes : List UInt8) :
    (∃ byte, byte ≤ 0x7f ∧ bytes = [byte] ∧ encode (.str bytes) = [byte]) ∨
      (encode (.str bytes) = encodeLength bytes.length 0x80 ++ bytes ∧
        ∀ byte, bytes = [byte] → 0x80 ≤ byte) := by
  rw [encode]
  by_cases single : ∃ byte, bytes = [byte]
  · obtain ⟨byte, rfl⟩ := single
    rw [encodeStr]
    by_cases low : byte ≤ 0x7f
    · exact .inl ⟨byte, low, rfl, if_pos low⟩
    · refine .inr ⟨if_neg low, ?_⟩
      rintro other same
      rw [← List.singleton_inj.mp same]
      rw [UInt8.le_iff_toNat_le] at low ⊢
      change 128 ≤ byte.toNat
      change ¬ byte.toNat ≤ 127 at low
      omega
  · refine .inr ⟨?_, fun byte same => absurd ⟨byte, same⟩ single⟩
    rw [encodeStr]
    intro byte same
    exact single ⟨byte, same⟩

theorem payload_suffix (tree : Rlp) : (payload tree).length ≤ (encode tree).length := by
  cases tree with
  | str bytes =>
      cases encode_str_cases bytes with
      | inl single =>
          obtain ⟨byte, _, rfl, written⟩ := single
          rw [written, payload]
      | inr plain =>
          rw [plain.1, List.length_append, payload]
          omega
  | list items =>
      rw [encode_list, List.length_append, payload]
      omega

/-! ### Reading an encoded tree -/

/-- A payload behind the encoder's prefix, as the decoder meets it. -/
theorem framed {offset : UInt8} (either : offset = 0x80 ∨ offset = 0xc0) {payload : List UInt8}
    (fits : payload.length < 2 ^ 64) (rest : List UInt8) :
    ∃ first tail start, encodeLength payload.length offset ++ payload ++ rest = first :: tail ∧
      offset ≤ first ∧ first.toNat < offset.toNat + 64 ∧
      header first tail = .ok (start, payload.length) ∧
      start + payload.length ≤ tail.length ∧
      (tail.drop start).take payload.length = payload ∧
      tail.drop (start + payload.length) = rest ∧
      ((offset = 0x80 → ∀ byte, payload = [byte] → 0x80 ≤ byte) → Shortest first tail) := by
  obtain ⟨first, size, written, above, bounded, read⟩ := encodeLength_header either fits
  obtain ⟨found, shortest⟩ := read (payload ++ rest)
  refine ⟨first, size ++ (payload ++ rest), size.length, ?_, above, bounded, found, ?_, ?_, ?_, ?_⟩
  · rw [written, List.append_assoc]
    rfl
  · simp only [List.length_append]
    omega
  · rw [List.drop_left, List.take_left]
  · rw [← List.drop_drop, List.drop_left, List.drop_left]
  · intro plain
    apply shortest
    intro string single
    obtain ⟨byte, rfl⟩ := List.length_eq_one_iff.mp single
    intro head member
    have same : byte = head := Option.some.inj member
    rw [← same]
    exact plain string byte rfl

theorem string_first {first : UInt8} (above : 0x80 ≤ first)
    (bounded : first.toNat < (0x80 : UInt8).toNat + 64) : 0x7f < first ∧ first ≤ 0xbf := by
  rw [UInt8.le_iff_toNat_le] at above
  rw [UInt8.lt_iff_toNat_lt, UInt8.le_iff_toNat_le]
  change 128 ≤ first.toNat at above
  change first.toNat < 192 at bounded
  change 127 < first.toNat ∧ first.toNat ≤ 191
  omega

theorem list_first {first : UInt8} (above : 0xc0 ≤ first) : 0xbf < first := by
  rw [UInt8.le_iff_toNat_le] at above
  rw [UInt8.lt_iff_toNat_lt]
  change 192 ≤ first.toNat at above
  change 191 < first.toNat
  omega

mutual

theorem reads_encode (tree : Rlp) (fits : (payload tree).length < 2 ^ 64) (rest : List UInt8) :
    Reads (encode tree ++ rest) tree rest := by
  cases tree with
  | str bytes =>
      cases encode_str_cases bytes with
      | inl single =>
          obtain ⟨byte, low, rfl, written⟩ := single
          rw [written]
          exact reads_single low rest
      | inr plain =>
          obtain ⟨first, tail, start, written, above, bounded, found, inside, body, behind, _⟩ :=
            framed (.inl rfl) fits rest
          obtain ⟨high, string⟩ := string_first above bounded
          have read := reads_str high string found inside
          rw [body, behind, ← written] at read
          rw [plain.1]
          exact read
  | list items =>
      obtain ⟨first, tail, start, written, above, _, found, inside, body, behind, _⟩ :=
        framed (.inr rfl) fits rest
      have inner := decodeListBody_encodeAll items fits
      have read := reads_list (list_first above) found inside (by rw [body]; exact inner)
      rw [behind, ← written] at read
      rw [encode_list]
      exact read

theorem decodeListBody_encodeAll (items : List Rlp)
    (fits : (encodeAll items).flatten.length < 2 ^ 64) :
    decodeListBody (encodeAll items).flatten = .ok items := by
  cases items with
  | nil => exact decodeListBody_nil
  | cons item others =>
      rw [encodeAll, List.flatten_cons, List.length_append] at *
      have shorter := payload_suffix item
      exact decodeListBody_of_reads (reads_encode item (by omega) _)
        (decodeListBody_encodeAll others (by omega))

end

theorem decode_encode (tree : Rlp) (fits : (encode tree).length < 2 ^ 64) :
    decode (encode tree) = .ok tree := by
  rw [decode_ok]
  have shorter := payload_suffix tree
  have read := reads_encode tree (by omega) []
  rwa [List.append_nil] at read

theorem decode_encode_pair :
    (encode (.list [.str [0x80], .list []])).length < 2 ^ 64 ∧
      decode (encode (.list [.str [0x80], .list []])) = .ok (.list [.str [0x80], .list []]) :=
  ⟨by decide, decode_encode (.list [.str [0x80], .list []]) (by decide)⟩

end Rlp

end Veilux
