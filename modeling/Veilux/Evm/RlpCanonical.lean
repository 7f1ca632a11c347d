/-
Which accepted inputs are canonical.  The decoder does not compare a prefix with
the shortest one, so an input is the encoding of its tree exactly when every
prefix that the decoder meets happens to be the shortest.
-/

import Veilux.Evm.RlpCodec

namespace Veilux

namespace Rlp

/-! ### The prefixes of an input -/

mutual

/-- Each first byte at which the decoder starts an item, with the bytes after it. -/
def prefixes (input : List UInt8) : List (UInt8 × List UInt8) :=
  match input with
  | [] => []
  | first :: tail =>
      (first, tail) ::
        if first ≤ 0xbf then []
        else
          match header first tail with
          | .error _ => []
          | .ok (start, length) =>
              match cut tail start length with
              | .error _ => []
              | .ok ⟨(body, _), _⟩ => prefixesBody body
termination_by (input.length, 0)
decreasing_by
  rename_i small
  exact Prod.Lex.left _ _ (Nat.lt_succ_of_le small.1)

def prefixesBody (body : List UInt8) : List (UInt8 × List UInt8) :=
  if body.isEmpty then []
  else
    match decodeItem body with
    | .error _ => []
    | .ok (_, ⟨rest, _⟩) => prefixes body ++ prefixesBody rest
termination_by (body.length, 1)
decreasing_by
  · exact Prod.Lex.right _ (by decide)
  · rename_i shorter
    exact Prod.Lex.left _ _ shorter

end

/-- Every prefix that the decoder meets is the shortest for its payload. -/
def Minimal (input : List UInt8) : Prop :=
  ∀ place ∈ prefixes input, Shortest place.1 place.2

def MinimalBody (body : List UInt8) : Prop :=
  ∀ place ∈ prefixesBody body, Shortest place.1 place.2

instance (input : List UInt8) : Decidable (Minimal input) := by
  unfold Minimal
  infer_instance

theorem minimal_string {first : UInt8} (string : first ≤ 0xbf) (tail : List UInt8) :
    Minimal (first :: tail) ↔ Shortest first tail := by
  rw [Minimal, prefixes, if_pos string, List.forall_mem_singleton]

theorem minimal_list {first : UInt8} {tail : List UInt8} {start length : Nat}
    (list : 0xbf < first) (read : header first tail = .ok (start, length))
    (inside : start + length ≤ tail.length) :
    Minimal (first :: tail) ↔
      Shortest first tail ∧ MinimalBody ((tail.drop start).take length) := by
  obtain ⟨small, found⟩ := cut_ok inside
  rw [Minimal, prefixes, if_neg (UInt8.not_le.mpr list), read]
  simp only [found, List.forall_mem_cons]
  rfl

theorem minimalBody_nil : MinimalBody [] := by
  intro place member
  rw [prefixesBody] at member
  cases member

theorem minimalBody_of_reads {body rest : List UInt8} {item : Rlp} (read : Reads body item rest) :
    MinimalBody body ↔ Minimal body ∧ MinimalBody rest := by
  have some_bytes : body.isEmpty = false := by
    cases body with
    | nil => exact absurd read.shorter (Nat.not_lt_zero _)
    | cons byte bytes => rfl
  obtain ⟨small, found⟩ := read
  rw [MinimalBody, prefixesBody, some_bytes, found]
  simp only [Bool.false_eq_true, ↓reduceIte, List.forall_mem_append]
  rfl

/-! ### An encoding is minimal -/

theorem low_first {first : UInt8} (low : first ≤ 0x7f) (tail : List UInt8) :
    first ≤ 0xbf ∧ Shortest first tail := by
  rw [UInt8.le_iff_toNat_le] at low
  change first.toNat ≤ 127 at low
  constructor
  · rw [UInt8.le_iff_toNat_le]
    change first.toNat ≤ 191
    omega
  · rw [Shortest]
    simp only [UInt8.le_iff_toNat_le, ← UInt8.toNat_inj, UInt8.reduceToNat]
    rw [if_neg (by omega), if_pos (by omega)]
    trivial

mutual

theorem minimal_encode (tree : Rlp) (fits : (payload tree).length < 2 ^ 64) (rest : List UInt8) :
    Minimal (encode tree ++ rest) := by
  cases tree with
  | str bytes =>
      cases encode_str_cases bytes with
      | inl single =>
          obtain ⟨byte, low, rfl, written⟩ := single
          obtain ⟨string, shortest⟩ := low_first low rest
          rw [written, List.singleton_append, minimal_string string]
          exact shortest
      | inr plain =>
          obtain ⟨first, tail, start, written, above, bounded, _, _, _, _, shortest⟩ :=
            framed (.inl rfl) fits rest
          have string := (string_first above bounded).2
          rw [payload] at written shortest
          rw [plain.1, written, minimal_string string]
          exact shortest fun _ => plain.2
  | list items =>
      obtain ⟨first, tail, start, written, above, _, found, inside, body, _, shortest⟩ :=
        framed (.inr rfl) fits rest
      rw [payload] at written
      rw [encode_list, written, minimal_list (list_first above) found inside, body]
      refine ⟨shortest ?_, minimalBody_encodeAll items fits⟩
      intro same
      exact absurd same (by decide)

theorem minimalBody_encodeAll (items : List Rlp)
    (fits : (encodeAll items).flatten.length < 2 ^ 64) :
    MinimalBody (encodeAll items).flatten := by
  cases items with
  | nil => exact minimalBody_nil
  | cons item others =>
      rw [encodeAll, List.flatten_cons, List.length_append] at *
      have shorter := payload_suffix item
      have read := reads_encode item (by omega) (encodeAll others).flatten
      rw [minimalBody_of_reads read]
      exact ⟨minimal_encode item (by omega) _, minimalBody_encodeAll others (by omega)⟩

end

/-! ### A minimal input is an encoding -/

theorem encodeLength_short {offset first : UInt8} {length : Nat} (short : length < 56)
    (sum : first.toNat = offset.toNat + length) : encodeLength length offset = [first] := by
  have bound := first.toNat_lt
  rw [encodeLength, if_pos short]
  congr 1
  apply UInt8.toNat_inj.mp
  rw [UInt8.toNat_add, UInt8.toNat_ofNat', sum]
  omega

theorem encodeLength_long {offset first : UInt8} {size : Nat} {tail : List UInt8}
    (small : size ≤ 8) (enough : size ≤ tail.length) (shortest : ShortestLength size tail)
    (positive : 0 < size) (sum : first.toNat = offset.toNat + 55 + size) :
    encodeLength (ofBeBytes (tail.take size)) offset = first :: tail.take size := by
  have bound := first.toNat_lt
  have taken : (tail.take size).length = size := by
    rw [List.length_take]
    omega
  have tidy : (tail.take size).head? ≠ some 0 := by
    rw [List.head?_take, if_neg (by omega)]
    exact shortest.1
  rw [encodeLength, if_neg (by exact Nat.not_lt.mpr shortest.2),
    trimmed_ofBeBytes (by omega) tidy, taken]
  congr 1
  apply UInt8.toNat_inj.mp
  rw [UInt8.toNat_add, UInt8.toNat_add, UInt8.toNat_ofNat', sum]
  have middle : (55 : UInt8).toNat = 55 := rfl
  rw [middle]
  omega

/-- A shortest prefix is the one that the encoder writes for its length. -/
theorem encodeLength_of_header {first : UInt8} {tail : List UInt8} {start length : Nat}
    (above : 0x7f < first) (read : header first tail = .ok (start, length))
    (shortest : Shortest first tail) :
    encodeLength length (if first ≤ 0xbf then 0x80 else 0xc0) = first :: tail.take start ∧
      (first ≤ 0xbf → length = 1 → start = 0 ∧ ∀ byte ∈ tail.head?, 0x80 ≤ byte) := by
  have bound := first.toNat_lt
  have stringOffset : (0x80 : UInt8).toNat = 128 := rfl
  have listOffset : (0xc0 : UInt8).toNat = 192 := rfl
  rw [header] at read
  rw [Shortest] at shortest
  rw [UInt8.lt_iff_toNat_lt] at above
  simp only [UInt8.le_iff_toNat_le] at read shortest ⊢
  rw [show (0x7f : UInt8).toNat = 127 from rfl] at above
  rw [show (0xb7 : UInt8).toNat = 183 from rfl] at read shortest
  rw [show (0xbf : UInt8).toNat = 191 from rfl] at read shortest ⊢
  rw [show (0xf7 : UInt8).toNat = 247 from rfl] at read shortest
  by_cases shortString : first.toNat ≤ 183
  · rw [if_pos shortString] at read
    injection read with read
    injection read with start_eq length_eq
    rw [← start_eq, ← length_eq]
    constructor
    · rw [if_pos (by omega)]
      exact encodeLength_short (by omega) (by omega)
    · intro _ single
      have first_eq : first = 0x81 := by
        apply UInt8.toNat_inj.mp
        change first.toNat = 129
        omega
      rw [if_pos first_eq] at shortest
      exact ⟨rfl, shortest⟩
  · have other : first ≠ 0x81 := by
      rintro rfl
      exact shortString (by decide)
    rw [if_neg other, if_neg shortString] at shortest
    rw [if_neg shortString] at read
    by_cases string : first.toNat ≤ 191
    · rw [if_pos string] at read shortest
      obtain ⟨start_eq, positive, small, enough, length_eq⟩ := longLength_ok.mp read
      rw [if_pos string, start_eq, length_eq]
      refine ⟨encodeLength_long small enough shortest positive (by omega), ?_⟩
      intro _ single
      have long := shortest.2
      omega
    · rw [if_neg string] at read shortest
      rw [if_neg string]
      refine ⟨?_, fun below => absurd below string⟩
      by_cases shortList : first.toNat ≤ 247
      · rw [if_pos shortList] at read
        simp only [Except.ok.injEq, Prod.mk.injEq] at read
        rw [← read.1, ← read.2]
        exact encodeLength_short (by omega) (by omega)
      · rw [if_neg shortList] at read shortest
        obtain ⟨start_eq, positive, small, enough, length_eq⟩ := longLength_ok.mp read
        rw [start_eq, length_eq]
        exact encodeLength_long small enough shortest positive (by omega)

/-- A minimal body is the encodings of its items in a row. -/
theorem encodeAll_of_minimal {limit : Nat}
    (each : ∀ input item rest, input.length < limit → Reads input item rest → Minimal input →
      encode item ++ rest = input) {body : List UInt8} (bounded : body.length < limit)
    {items : List Rlp} (read : decodeListBody body = .ok items) (minimal : MinimalBody body) :
    (encodeAll items).flatten = body := by
  induction items generalizing body with
  | nil =>
      cases decodeListBody_cases read with
      | inl empty => rw [empty.1]; rfl
      | inr more =>
          obtain ⟨_, _, _, _, _, same⟩ := more
          cases same
  | cons item others ih =>
      cases decodeListBody_cases read with
      | inl empty => cases empty.2
      | inr more =>
          obtain ⟨_, rest, _, first, following, same⟩ := more
          obtain ⟨rfl, rfl⟩ := List.cons.inj same
          obtain ⟨here, behind⟩ := (minimalBody_of_reads first).mp minimal
          have shorter := first.shorter
          rw [encodeAll, List.flatten_cons, ih (by omega) following behind]
          exact each body item rest bounded first here

theorem encode_of_minimal (input : List UInt8) (item : Rlp) (rest : List UInt8)
    (read : Reads input item rest) (minimal : Minimal input) : encode item ++ rest = input := by
  induction size : input.length using Nat.strong_induction_on generalizing input item rest with
  | _ limit ih =>
      obtain ⟨first, tail, rfl, shape⟩ := read.cases
      cases shape with
      | inl low =>
          obtain ⟨below, rfl, rfl⟩ := low
          rw [encode, encodeStr, if_pos below]
          rfl
      | inr prefixed =>
          obtain ⟨above, start, length, found, inside, rfl, shape⟩ := prefixed
          have split : tail.take start ++ ((tail.drop start).take length ++
              tail.drop (start + length)) = tail := by
            rw [← List.drop_drop, List.take_append_drop, List.take_append_drop]
          have size_eq : ((tail.drop start).take length).length = length := by
            rw [List.length_take, List.length_drop]
            omega
          cases shape with
          | inl string =>
              obtain ⟨low, rfl⟩ := string
              obtain ⟨written, single⟩ :=
                encodeLength_of_header above found ((minimal_string low tail).mp minimal)
              rw [if_pos low] at written
              cases encode_str_cases ((tail.drop start).take length) with
              | inl alone =>
                  obtain ⟨byte, lowByte, same, _⟩ := alone
                  rw [same] at size_eq
                  obtain ⟨start_eq, high⟩ := single low size_eq.symm
                  rw [start_eq, List.drop_zero, ← size_eq] at same
                  have head : byte ∈ tail.head? := by
                    cases tail with
                    | nil => cases same
                    | cons head others =>
                        have same := (List.cons.inj same).1
                        rw [same]
                        rfl
                  have contrary := UInt8.le_trans (high byte head) lowByte
                  exact absurd contrary (by decide)
              | inr plain =>
                  rw [plain.1, size_eq, written, List.append_assoc, List.cons_append, split]
          | inr list =>
              obtain ⟨high, items, inner, rfl⟩ := list
              obtain ⟨shortest, within⟩ := (minimal_list high found inside).mp minimal
              obtain ⟨written, _⟩ := encodeLength_of_header above found shortest
              rw [if_neg (UInt8.not_le.mpr high)] at written
              have body := encodeAll_of_minimal
                (fun input item rest bounded read minimal =>
                  ih input.length bounded input item rest read minimal rfl)
                (by
                  rw [← size, size_eq, List.length_cons]
                  omega) inner within
              rw [encode_list, body, size_eq, written, List.append_assoc, List.cons_append, split]

/-- A payload that the decoder reads has fewer than 2^64 bytes. -/
theorem header_bound {first : UInt8} {tail : List UInt8} {start length : Nat}
    (read : header first tail = .ok (start, length)) : length < 2 ^ 64 := by
  have long {size : Nat} (read : longLength size tail = .ok (start, length)) :
      length < 2 ^ 64 := by
    obtain ⟨_, _, small, _, rfl⟩ := longLength_ok.mp read
    have below := ofBeBytes_lt (tail.take size)
    have wide : 256 ^ (tail.take size).length ≤ 256 ^ 8 :=
      Nat.pow_le_pow_right (by decide) (by
        rw [List.length_take]
        omega)
    have same : 256 ^ 8 = 2 ^ 64 := by decide
    omega
  have bound := first.toNat_lt
  rw [header] at read
  split at read
  · simp only [Except.ok.injEq, Prod.mk.injEq] at read
    omega
  · split at read
    · exact long read
    · split at read
      · simp only [Except.ok.injEq, Prod.mk.injEq] at read
        omega
      · exact long read

/-- The prefix byte of a long list tells where its payload starts. -/
theorem header_list_start {size : Nat} (small : size ≤ 8) {tail : List UInt8} {start length : Nat}
    (read : header (0xc0 + 55 + UInt8.ofNat size) tail = .ok (start, length)) : start = size := by
  have first_eq : (0xc0 + 55 + UInt8.ofNat size : UInt8).toNat = 247 + size := by
    rw [UInt8.toNat_add, UInt8.toNat_ofNat']
    have offset : (0xc0 + 55 : UInt8).toNat = 247 := by decide
    rw [offset]
    omega
  generalize (0xc0 + 55 + UInt8.ofNat size : UInt8) = first at first_eq read
  rw [header] at read
  simp only [UInt8.le_iff_toNat_le, first_eq] at read
  rw [show (0xb7 : UInt8).toNat = 183 from rfl, if_neg (by omega),
    show (0xbf : UInt8).toNat = 191 from rfl, if_neg (by omega),
    show (0xf7 : UInt8).toNat = 247 from rfl] at read
  by_cases empty : 247 + size ≤ 247
  · rw [if_pos empty] at read
    simp only [Except.ok.injEq, Prod.mk.injEq] at read
    omega
  · rw [if_neg empty, Nat.add_sub_cancel_left] at read
    exact (longLength_ok.mp read).1

theorem payload_bound {tree : Rlp} (read : Reads (encode tree) tree []) :
    (payload tree).length < 2 ^ 64 := by
  obtain ⟨first, tail, written, shape⟩ := read.cases
  cases shape with
  | inl low =>
      rw [low.2.1, payload]
      change 1 < 2 ^ 64
      decide
  | inr prefixed =>
      obtain ⟨_, start, length, found, inside, behind, shape⟩ := prefixed
      have bound := header_bound found
      cases shape with
      | inl string =>
          rw [string.2, payload, List.length_take]
          omega
      | inr list =>
          obtain ⟨_, items, _, rfl⟩ := list
          rw [payload]
          by_contra large
          rw [encode_list, encodeLength, if_neg (by omega), List.cons_append] at written
          obtain ⟨rfl, rfl⟩ := List.cons.inj written
          have start_eq := header_list_start (length_trimmed_le 8 _) found
          have whole := List.drop_eq_nil_iff.mp behind.symm
          rw [List.length_append] at whole
          omega

/-- An accepted input is what the encoder writes for its tree exactly when every prefix that
the decoder met is the shortest one. -/
theorem decode_canonical_iff {input : List UInt8} {tree : Rlp}
    (accepted : decode input = .ok tree) : encode tree = input ↔ Minimal input := by
  rw [decode_ok] at accepted
  constructor
  · intro same
    have minimal := minimal_encode tree (payload_bound (by rw [same]; exact accepted)) []
    rwa [List.append_nil, same] at minimal
  · intro minimal
    have same := encode_of_minimal input tree [] accepted minimal
    rwa [List.append_nil] at same

theorem decode_canonical_iff_dog :
    decode (0x83 :: Bytes.utf8 "dog") = .ok (.str (Bytes.utf8 "dog")) ∧
      (encode (.str (Bytes.utf8 "dog")) = 0x83 :: Bytes.utf8 "dog" ↔
        Minimal (0x83 :: Bytes.utf8 "dog")) := by
  have accepted : decode (0x83 :: Bytes.utf8 "dog") = .ok (.str (Bytes.utf8 "dog")) :=
    decode_ok.mpr (@reads_str 0x83 (Bytes.utf8 "dog") 0 3 (by decide) (by decide) rfl (by decide))
  exact ⟨accepted, decode_canonical_iff accepted⟩

/-- The byte 5 behind the prefix of a one-byte string is accepted, like the byte alone. -/
theorem prefixed_byte_accepted :
    ¬ ∀ input tree, decode input = .ok tree → encode tree = input := by
  intro canonical
  have accepted : decode [0x81, 0x05] = .ok (.str [0x05]) :=
    decode_ok.mpr (@reads_str 0x81 [0x05] 0 1 (by decide) (by decide) rfl (by decide))
  have same := canonical _ _ accepted
  rw [encode] at same
  exact absurd same (by decide)

end Rlp

end Veilux
