/-
The recursive length prefix of `evm/src/rlp.rs`.  A decoded item comes with a
remainder that is shorter than the input, which is why the list loop ends.
-/

import Veilux.Lib.Bytes

namespace Veilux

open Bytes (leBytes)

inductive RlpError where
  | eof
  | expectedString
  | expectedList
  | trailing
  | nonCanonical
  deriving DecidableEq

/-- The `Display` texts. -/
def RlpError.text : RlpError → String
  | .eof => "rlp: unexpected end of input"
  | .expectedString => "rlp: expected a string item, found a list"
  | .expectedList => "rlp: expected a list item, found a string"
  | .trailing => "rlp: trailing bytes after item"
  | .nonCanonical => "rlp: non-canonical length encoding"

inductive Rlp where
  | str (bytes : List UInt8)
  | list (items : List Rlp)

namespace Rlp

/-- Big-endian bytes read into an accumulator, first byte first. -/
def ofBeBytes (bytes : List UInt8) : Nat :=
  bytes.foldl (fun value byte => value * 256 + byte.toNat) 0

/-- `to_be_bytes` of a `width`-byte integer. -/
def beBytes (width value : Nat) : List UInt8 := (leBytes width value).reverse

/-- `skip_while(|&b| b == 0)` over the big-endian bytes. -/
def trimmed (width value : Nat) : List UInt8 := (beBytes width value).dropWhile (· = 0)

def asBytes : Rlp → Except RlpError (List UInt8)
  | .str bytes => .ok bytes
  | .list _ => .error .expectedString

def asList : Rlp → Except RlpError (List Rlp)
  | .list items => .ok items
  | .str _ => .error .expectedList

def asU64 (item : Rlp) : Except RlpError UInt64 :=
  match item.asBytes with
  | .error error => .error error
  | .ok bytes =>
      if 8 < bytes.length then .error .nonCanonical else .ok (UInt64.ofNat (ofBeBytes bytes))

/-! ### Decoding -/

def beToUsize (bytes : List UInt8) : Except RlpError Nat :=
  if bytes.isEmpty ∨ 8 < bytes.length then .error .nonCanonical else .ok (ofBeBytes bytes)

/-- The length written in `size` bytes behind the first byte, with their number. -/
def longLength (size : Nat) (tail : List UInt8) : Except RlpError (Nat × Nat) :=
  if tail.length < size then .error .eof
  else
    match beToUsize (tail.take size) with
    | .error error => .error error
    | .ok length => .ok (size, length)

/-- Where the payload starts behind the first byte, and how long it is. -/
def header (first : UInt8) (tail : List UInt8) : Except RlpError (Nat × Nat) :=
  if first ≤ 0xb7 then .ok (0, first.toNat - 0x80)
  else if first ≤ 0xbf then longLength (first.toNat - 0xb7) tail
  else if first ≤ 0xf7 then .ok (0, first.toNat - 0xc0)
  else longLength (first.toNat - 0xf7) tail

/-- The payload and what follows it. -/
def cut (tail : List UInt8) (start length : Nat) :
    Except RlpError { parts : List UInt8 × List UInt8 //
      parts.1.length ≤ tail.length ∧ parts.2.length ≤ tail.length } :=
  if start + length ≤ tail.length then
    .ok ⟨((tail.drop start).take length, tail.drop (start + length)), by
      simp only [List.length_take, List.length_drop]
      omega⟩
  else .error .eof

mutual

def decodeItem (input : List UInt8) :
    Except RlpError (Rlp × { rest : List UInt8 // rest.length < input.length }) :=
  match input with
  | [] => .error .eof
  | first :: tail =>
      if first ≤ 0x7f then .ok (.str [first], ⟨tail, Nat.lt_succ_self _⟩)
      else
        match header first tail with
        | .error error => .error error
        | .ok (start, length) =>
            match cut tail start length with
            | .error error => .error error
            | .ok ⟨(body, rest), small⟩ =>
                if first ≤ 0xbf then .ok (.str body, ⟨rest, Nat.lt_succ_of_le small.2⟩)
                else
                  match decodeListBody body with
                  | .error error => .error error
                  | .ok items => .ok (.list items, ⟨rest, Nat.lt_succ_of_le small.2⟩)
termination_by (input.length, 0)
decreasing_by
  exact Prod.Lex.left _ _ (Nat.lt_succ_of_le small.1)

def decodeListBody (body : List UInt8) : Except RlpError (List Rlp) :=
  if body.isEmpty then .ok []
  else
    match decodeItem body with
    | .error error => .error error
    | .ok (item, ⟨rest, _⟩) =>
        match decodeListBody rest with
        | .error error => .error error
        | .ok items => .ok (item :: items)
termination_by (body.length, 1)
decreasing_by
  · exact Prod.Lex.right _ (by decide)
  · rename_i shorter
    exact Prod.Lex.left _ _ shorter

end

def decode (input : List UInt8) : Except RlpError Rlp :=
  match decodeItem input with
  | .error error => .error error
  | .ok (item, rest) => if rest.val.isEmpty then .ok item else .error .trailing

/-! ### Encoding -/

def encodeLength (length : Nat) (offset : UInt8) : List UInt8 :=
  if length < 56 then [offset + UInt8.ofNat length]
  else
    (offset + 55 + UInt8.ofNat (trimmed 8 length).length) :: trimmed 8 length

def encodeStr (bytes : List UInt8) : List UInt8 :=
  match bytes with
  | [byte] => if byte ≤ 0x7f then [byte] else encodeLength 1 0x80 ++ [byte]
  | bytes => encodeLength bytes.length 0x80 ++ bytes

def encodeList (items : List (List UInt8)) : List UInt8 :=
  encodeLength items.flatten.length 0xc0 ++ items.flatten

example : encodeList [encodeStr (Bytes.utf8 "cat"), encodeStr (Bytes.utf8 "dog")] =
    0xc8 :: 0x83 :: Bytes.utf8 "cat" ++ 0x83 :: Bytes.utf8 "dog" := by
  decide +kernel

end Rlp

end Veilux
