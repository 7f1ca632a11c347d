/-
The decoder of `evm/src/rlp.rs` step by step, with everything in it that could panic: the
subtractions on bytes, the additions and shifts on `usize`, the slices.  No input makes it
panic, twice the length of the input bounds its calls, and what it decodes is spelled by
the bytes it takes off the front.
-/

import Veilux.Evm.RlpReads
import Veilux.Lib.Checked

namespace Veilux.Rlp

open Checked (Settles orFail usizeAdd checkedAdd byteSub shiftIn slice sliceFrom)

def shiftAll : Nat → List UInt8 → Checked RlpError Nat
  | value, [] => .ok value
  | value, byte :: bytes => do
      let shifted ← shiftIn value byte
      shiftAll shifted bytes

/-- `be_to_usize`. -/
def beToUsizeSteps (bytes : List UInt8) : Checked RlpError Nat :=
  if bytes.isEmpty ∨ 8 < bytes.length then .error (.failed .nonCanonical) else shiftAll 0 bytes

mutual

/-- `decode_item`; fuel counts the calls that may be open. -/
def itemSteps : Nat → List UInt8 → Checked RlpError (Rlp × List UInt8)
  | 0, _ => .error .exhausted
  | fuel + 1, input => do
      let first ← orFail .eof input.head?
      if first ≤ 0x7f then
        let rest ← sliceFrom input 1
        return (.str [first], rest)
      else if first ≤ 0xb7 then
        let length ← byteSub first 0x80
        let stop ← orFail .eof (checkedAdd 1 length.toNat)
        let body ← orFail .eof (slice input 1 stop)
        let rest ← sliceFrom input stop
        return (.str body, rest)
      else if first ≤ 0xbf then
        let lenOfLen ← byteSub first 0xb7
        let start ← usizeAdd 1 lenOfLen.toNat
        let lenBytes ← orFail .eof (slice input 1 start)
        let length ← beToUsizeSteps lenBytes
        let stop ← orFail .eof (checkedAdd start length)
        let body ← orFail .eof (slice input start stop)
        let rest ← sliceFrom input stop
        return (.str body, rest)
      else if first ≤ 0xf7 then
        let length ← byteSub first 0xc0
        let stop ← orFail .eof (checkedAdd 1 length.toNat)
        let body ← orFail .eof (slice input 1 stop)
        let items ← bodySteps fuel body
        let rest ← sliceFrom input stop
        return (.list items, rest)
      else
        let lenOfLen ← byteSub first 0xf7
        let start ← usizeAdd 1 lenOfLen.toNat
        let lenBytes ← orFail .eof (slice input 1 start)
        let length ← beToUsizeSteps lenBytes
        let stop ← orFail .eof (checkedAdd start length)
        let body ← orFail .eof (slice input start stop)
        let items ← bodySteps fuel body
        let rest ← sliceFrom input stop
        return (.list items, rest)

/-- `decode_list_body`; a round of its loop is a call of its own. -/
def bodySteps : Nat → List UInt8 → Checked RlpError (List Rlp)
  | 0, _ => .error .exhausted
  | fuel + 1, body =>
      if body.isEmpty then .ok []
      else do
        let (item, rest) ← itemSteps fuel body
        let items ← bodySteps fuel rest
        return item :: items

end

def decodeSteps (fuel : Nat) (input : List UInt8) : Checked RlpError Rlp := do
  let (item, rest) ← itemSteps fuel input
  if rest.isEmpty then return item else .error (.failed .trailing)

/-! ### Bytes that spell an item -/

mutual

/-- An item is a byte of its own, or a prefix and the bytes it holds. -/
inductive Spells : Rlp → List UInt8 → Prop
  | single (byte : UInt8) : Spells (.str [byte]) [byte]
  | str {front : List UInt8} (prefixed : front ≠ []) (body : List UInt8) :
      Spells (.str body) (front ++ body)
  | list {front body : List UInt8} {items : List Rlp} (prefixed : front ≠ [])
      (inside : SpellsAll items body) : Spells (.list items) (front ++ body)

/-- The items of a list one behind the other. -/
inductive SpellsAll : List Rlp → List UInt8 → Prop
  | nil : SpellsAll [] []
  | cons {item : Rlp} {items : List Rlp} {front back : List UInt8} (first : Spells item front)
      (others : SpellsAll items back) : SpellsAll (item :: items) (front ++ back)

end

theorem Spells.ne_nil {item : Rlp} {bytes : List UInt8} (spelled : Spells item bytes) :
    bytes ≠ [] := by
  cases spelled with
  | single byte => exact List.cons_ne_nil byte []
  | str prefixed body => exact List.append_ne_nil_of_left_ne_nil prefixed _
  | list prefixed inside => exact List.append_ne_nil_of_left_ne_nil prefixed _

/-- What decoding an item leaves: its bytes came off the front. -/
def Taken (input : List UInt8) (decoded : Rlp × List UInt8) : Prop :=
  ∃ bytes, bytes ≠ [] ∧ input = bytes ++ decoded.2 ∧ Spells decoded.1 bytes

theorem Taken.of_spells {input rest bytes : List UInt8} {item : Rlp}
    (shape : input = bytes ++ rest) (spelled : Spells item bytes) : Taken input (item, rest) :=
  ⟨bytes, spelled.ne_nil, shape, spelled⟩

theorem Taken.shorter {input : List UInt8} {decoded : Rlp × List UInt8}
    (taken : Taken input decoded) : decoded.2.length < input.length := by
  obtain ⟨bytes, nonempty, rfl, _⟩ := taken
  have some := List.length_pos_of_ne_nil nonempty
  rw [List.length_append]
  omega

/-! ### Nothing panics -/

/-- Eight bytes fit `usize`, so no bit is shifted out. -/
theorem shiftAll_eq {width value : Nat} {bytes : List UInt8} (below : value < 256 ^ width)
    (short : width + bytes.length ≤ 8) :
    shiftAll value bytes =
      .ok (bytes.foldl (fun value byte => value * 256 + byte.toNat) value) := by
  induction bytes generalizing width value with
  | nil => rfl
  | cons byte bytes ih =>
      have byteBelow := byte.toNat_lt
      have shifted : value * 256 + byte.toNat < 256 ^ (width + 1) := by
        rw [pow_succ]
        omega
      rw [List.length_cons] at short
      have fits : value * 256 + byte.toNat < 2 ^ 64 := by
        have powers : (256 : Nat) ^ (width + 1) ≤ 256 ^ 8 :=
          Nat.pow_le_pow_right (by decide) (by omega)
        exact lt_of_lt_of_le shifted (powers.trans (by decide))
      unfold shiftAll shiftIn
      rw [if_pos fits]
      exact ih shifted (by omega)

theorem beToUsizeSteps_settles (bytes : List UInt8) :
    Settles (fun _ => True) (beToUsizeSteps bytes) := by
  unfold beToUsizeSteps
  by_cases odd : bytes.isEmpty ∨ 8 < bytes.length
  · rw [if_pos odd]
    trivial
  · rw [if_neg odd]
    have start : 0 < 256 ^ 0 := by decide
    rw [shiftAll_eq start (by omega)]
    trivial

theorem head_settles (input : List UInt8) :
    Settles (fun first => ∃ tail, input = first :: tail) (orFail RlpError.eof input.head?) := by
  cases input with
  | nil => trivial
  | cons first tail => exact ⟨tail, rfl⟩

/-- The bytes before the body, the body, and what follows it. -/
theorem split_frame {input : List UInt8} {start stop : Nat} (ordered : start ≤ stop) :
    input = (input.take start ++ (input.drop start).take (stop - start)) ++ input.drop stop := by
  have whole : stop = start + (stop - start) := by omega
  have back : input.drop stop = (input.drop start).drop (stop - start) := by
    rw [List.drop_drop, ← whole]
  rw [back, List.append_assoc, List.take_append_drop, List.take_append_drop]

theorem take_ne_nil {input : List UInt8} {start : Nat} (positive : 0 < start)
    (inside : start ≤ input.length) : input.take start ≠ [] := by
  intro empty
  have sizes := congrArg List.length empty
  rw [List.length_take, List.length_nil] at sizes
  omega

/-- A body behind at least one byte is shorter than the input. -/
theorem body_shorter {input : List UInt8} {start stop : Nat} (positive : 0 < start)
    (inside : start ≤ stop ∧ stop ≤ input.length) :
    ((input.drop start).take (stop - start)).length < input.length := by
  rw [List.length_take, List.length_drop]
  omega

/-- The end of a string's branch. -/
theorem str_settles {input : List UInt8} {start stop : Nat} (positive : 0 < start) :
    Settles (Taken input) (do
      let body ← orFail RlpError.eof (slice input start stop)
      let rest ← sliceFrom input stop
      return (.str body, rest)) := by
  apply (Checked.settles_slice _ _ _ _).bind
  rintro _ ⟨ordered, inside, rfl⟩
  apply (Checked.settles_sliceFrom inside).bind
  rintro _ rfl
  exact .of_spells (split_frame ordered) (.str (take_ne_nil positive (ordered.trans inside)) _)

/-- The end of a list's branch: its body is decoded in turn. -/
theorem list_settles {fuel : Nat} {input : List UInt8} {start stop : Nat} (positive : 0 < start)
    (inner : ∀ body : List UInt8, body.length < input.length →
      Settles (SpellsAll · body) (bodySteps fuel body)) :
    Settles (Taken input) (do
      let body ← orFail RlpError.eof (slice input start stop)
      let items ← bodySteps fuel body
      let rest ← sliceFrom input stop
      return (.list items, rest)) := by
  apply (Checked.settles_slice _ _ _ _).bind
  rintro _ ⟨ordered, inside, rfl⟩
  apply (inner _ (body_shorter positive ⟨ordered, inside⟩)).bind
  intro items spelled
  apply (Checked.settles_sliceFrom inside).bind
  rintro _ rfl
  exact .of_spells (split_frame ordered)
    (.list (take_ne_nil positive (ordered.trans inside)) spelled)

/-- The length bytes of a long form: where the body starts and where it stops. -/
theorem long_settles {good : Rlp × List UInt8 → Prop} {input : List UInt8} {first base : UInt8}
    (above : base ≤ first) {next : Nat → Nat → Checked RlpError (Rlp × List UInt8)}
    (settled : ∀ start stop, 0 < start → Settles good (next start stop)) :
    Settles good (do
      let lenOfLen ← byteSub first base
      let start ← usizeAdd 1 lenOfLen.toNat
      let lenBytes ← orFail .eof (slice input 1 start)
      let length ← beToUsizeSteps lenBytes
      let stop ← orFail .eof (checkedAdd start length)
      next start stop) := by
  apply (Checked.settles_byteSub above).bind
  rintro _ rfl
  have fits : 1 + (first - base).toNat < 2 ^ 64 := by
    have below := (first - base).toNat_lt
    omega
  apply (Checked.settles_usizeAdd fits).bind
  rintro _ rfl
  apply (Checked.settles_slice _ _ _ _).bind
  intro lenBytes _
  apply (beToUsizeSteps_settles lenBytes).bind
  intro length _
  apply (Checked.settles_checkedAdd _ _ _).bind
  rintro _ rfl
  exact settled _ _ (by omega)

theorem short_settles {good : Rlp × List UInt8 → Prop} {first base : UInt8} (above : base ≤ first)
    {next : Nat → Checked RlpError (Rlp × List UInt8)}
    (settled : ∀ stop, Settles good (next stop)) :
    Settles good (do
      let length ← byteSub first base
      let stop ← orFail .eof (checkedAdd 1 length.toNat)
      next stop) := by
  apply (Checked.settles_byteSub above).bind
  intro length _
  apply (Checked.settles_checkedAdd _ _ _).bind
  intro stop _
  exact settled stop

theorem next_le {low high first : UInt8} (next : high.toNat = low.toNat + 1)
    (above : ¬ first ≤ low) : high ≤ first := by
  rw [UInt8.not_le, UInt8.lt_iff_toNat_lt] at above
  rw [UInt8.le_iff_toNat_le, next]
  exact above

/-- One call: as long as bodies shorter than the input settle, the item does. -/
theorem itemSteps_settles {fuel : Nat} {input : List UInt8}
    (inner : ∀ body : List UInt8, body.length < input.length →
      Settles (SpellsAll · body) (bodySteps fuel body)) :
    Settles (Taken input) (itemSteps (fuel + 1) input) := by
  unfold itemSteps
  apply (head_settles input).bind
  intro first nonempty
  obtain ⟨tail, shape⟩ := nonempty
  by_cases single : first ≤ 0x7f
  · rw [if_pos single]
    have inside : 1 ≤ input.length := by
      rw [shape, List.length_cons]
      omega
    apply (Checked.settles_sliceFrom inside).bind
    rintro _ rfl
    rw [shape]
    exact .of_spells rfl (.single first)
  · rw [if_neg single]
    by_cases short : first ≤ 0xb7
    · rw [if_pos short]
      have above : 0x80 ≤ first := next_le rfl single
      exact short_settles above fun stop => str_settles (by decide)
    · rw [if_neg short]
      by_cases string : first ≤ 0xbf
      · rw [if_pos string]
        have above : 0xb7 ≤ first := UInt8.le_of_lt (UInt8.not_le.mp short)
        exact long_settles above fun start stop positive => str_settles positive
      · rw [if_neg string]
        by_cases few : first ≤ 0xf7
        · rw [if_pos few]
          have above : 0xc0 ≤ first := next_le rfl string
          exact short_settles above fun stop => list_settles (by decide) inner
        · rw [if_neg few]
          have above : 0xf7 ≤ first := UInt8.le_of_lt (UInt8.not_le.mp few)
          exact long_settles above fun start stop positive => list_settles positive inner

/-- With fuel for twice the length every call settles: induction on the fuel. -/
theorem steps_settle (fuel : Nat) :
    (∀ input : List UInt8, 2 * input.length < fuel → Settles (Taken input) (itemSteps fuel input)) ∧
      ∀ body : List UInt8, 2 * body.length + 1 < fuel →
        Settles (SpellsAll · body) (bodySteps fuel body) := by
  induction fuel with
  | zero =>
      constructor
      · intro input enough
        exact absurd enough (Nat.not_lt_zero _)
      · intro body enough
        exact absurd enough (Nat.not_lt_zero _)
  | succ fuel ih =>
      obtain ⟨items, bodies⟩ := ih
      constructor
      · intro input enough
        exact itemSteps_settles fun body shorter => bodies body (by omega)
      · intro body enough
        unfold bodySteps
        by_cases ended : body.isEmpty = true
        · rw [if_pos ended, List.isEmpty_iff.mp ended]
          exact .nil
        · rw [if_neg ended]
          apply (items body (by omega)).bind
          rintro ⟨item, rest⟩ taken
          have shorter := taken.shorter
          obtain ⟨bytes, _, shape, spelled⟩ := taken
          dsimp only at shorter shape spelled ⊢
          apply (bodies rest (by omega)).bind
          intro others spelledAll
          rw [shape]
          exact .cons spelled spelledAll

theorem decodeSteps_settles (fuel : Nat) {input : List UInt8} (enough : 2 * input.length < fuel) :
    Settles (Spells · input) (decodeSteps fuel input) := by
  unfold decodeSteps
  apply ((steps_settle fuel).1 input enough).bind
  rintro ⟨item, rest⟩ ⟨bytes, _, shape, spelled⟩
  dsimp only at shape spelled ⊢
  by_cases ended : rest.isEmpty = true
  · rw [if_pos ended, shape, List.isEmpty_iff.mp ended, List.append_nil]
    exact spelled
  · rw [if_neg ended]
    trivial

/-! ### The same outcome as without the checks -/

def checked {A : Type} (result : Except RlpError A) : Checked RlpError A :=
  result.mapError .failed

theorem beToUsizeSteps_eq (bytes : List UInt8) :
    beToUsizeSteps bytes = checked (beToUsize bytes) := by
  unfold beToUsizeSteps beToUsize
  by_cases odd : bytes.isEmpty ∨ 8 < bytes.length
  · rw [if_pos odd, if_pos odd]
    rfl
  · rw [if_neg odd, if_neg odd]
    have start : 0 < 256 ^ 0 := by decide
    exact shiftAll_eq start (by omega)

variable {A : Type} {first base : UInt8} {tail : List UInt8}

/-- The checked slices of a payload are the ones that `cut` takes. -/
theorem payload_eq {start length : Nat} (small : tail.length + 1 < 2 ^ 64)
    (next : Nat → List UInt8 → Checked RlpError A) :
    (do
      let stop ← orFail .eof (checkedAdd (1 + start) length)
      let body ← orFail .eof (slice (first :: tail) (1 + start) stop)
      next stop body) =
      if start + length ≤ tail.length then
        next (1 + start + length) ((tail.drop start).take length)
      else .error (.failed .eof) := by
  by_cases inside : start + length ≤ tail.length
  · have fits : 1 + start + length < 2 ^ 64 := by omega
    have within : 1 + start ≤ 1 + start + length ∧
        1 + start + length ≤ (first :: tail).length := by
      rw [List.length_cons]
      omega
    have body : ((first :: tail).drop (1 + start)).take (1 + start + length - (1 + start)) =
        (tail.drop start).take length := by
      rw [Nat.add_comm 1 start, List.drop_succ_cons, Nat.add_sub_cancel_left]
    unfold checkedAdd
    rw [if_pos inside, if_pos fits]
    change (orFail RlpError.eof (slice (first :: tail) (1 + start) (1 + start + length)) >>= _) = _
    unfold slice
    rw [if_pos within, body]
    rfl
  · rw [if_neg inside]
    unfold checkedAdd
    by_cases fits : 1 + start + length < 2 ^ 64
    · have outside : ¬ (1 + start ≤ 1 + start + length ∧
          1 + start + length ≤ (first :: tail).length) := by
        rw [List.length_cons]
        omega
      rw [if_pos fits]
      change (orFail RlpError.eof (slice (first :: tail) (1 + start) (1 + start + length)) >>= _) = _
      unfold slice
      rw [if_neg outside]
      rfl
    · rw [if_neg fits]
      rfl

theorem rest_eq {start length : Nat} (inside : start + length ≤ tail.length) :
    (sliceFrom (first :: tail) (1 + start + length) : Checked RlpError (List UInt8)) =
      .ok (tail.drop (start + length)) := by
  have within : 1 + start + length ≤ (first :: tail).length := by
    rw [List.length_cons]
    omega
  unfold sliceFrom
  rw [if_pos within, Nat.add_assoc, Nat.add_comm 1, List.drop_succ_cons]

theorem byteSub_eq {number : Nat} (named : base.toNat = number) (above : base ≤ first) :
    ∃ difference : UInt8, (byteSub first base : Checked RlpError UInt8) = .ok difference ∧
      difference.toNat = first.toNat - number := by
  unfold byteSub
  rw [if_pos above, ← named]
  exact ⟨_, rfl, UInt8.toNat_sub_of_le _ _ above⟩

theorem short_eq {number : Nat} (named : base.toNat = number) (above : base ≤ first)
    (next : Nat → Checked RlpError A) :
    (byteSub first base >>= fun length => next length.toNat) = next (first.toNat - number) := by
  obtain ⟨difference, taken, sized⟩ := byteSub_eq named above
  rw [taken, ← sized]
  rfl

theorem long_eq {number : Nat} (named : base.toNat = number) (above : base ≤ first)
    (next : Nat → Nat → Checked RlpError A) :
    (do
      let lenOfLen ← byteSub first base
      let start ← usizeAdd 1 lenOfLen.toNat
      let lenBytes ← orFail RlpError.eof (slice (first :: tail) 1 start)
      let length ← beToUsizeSteps lenBytes
      next start length) =
      match longLength (first.toNat - number) tail with
      | .error error => .error (.failed error)
      | .ok (start, length) => next (1 + start) length := by
  obtain ⟨difference, taken, sized⟩ := byteSub_eq named above
  rw [taken, ← sized]
  change (usizeAdd 1 difference.toNat >>= _) = _
  generalize sized : difference.toNat = size
  have fits : 1 + size < 2 ^ 64 := by
    have below := difference.toNat_lt
    omega
  unfold usizeAdd longLength
  rw [if_pos fits]
  change (orFail RlpError.eof (slice (first :: tail) 1 (1 + size)) >>= _) = _
  unfold slice
  by_cases few : tail.length < size
  · have outside : ¬ (1 ≤ 1 + size ∧ 1 + size ≤ (first :: tail).length) := by
      rw [List.length_cons]
      omega
    rw [if_pos few, if_neg outside]
    rfl
  · have within : 1 ≤ 1 + size ∧ 1 + size ≤ (first :: tail).length := by
      rw [List.length_cons]
      omega
    rw [if_neg few, if_pos within, Nat.add_sub_cancel_left]
    change (beToUsizeSteps (tail.take size) >>= _) = _
    rw [beToUsizeSteps_eq]
    cases beToUsize (tail.take size) with
    | error error => rfl
    | ok length => rfl

theorem str_eq (small : tail.length + 1 < 2 ^ 64) (start length : Nat) :
    (do
      let stop ← orFail RlpError.eof (checkedAdd (1 + start) length)
      let body ← orFail RlpError.eof (slice (first :: tail) (1 + start) stop)
      let rest ← sliceFrom (first :: tail) stop
      return (Rlp.str body, rest)) =
      if start + length ≤ tail.length then
        .ok (.str ((tail.drop start).take length), tail.drop (start + length))
      else .error (.failed .eof) := by
  rw [payload_eq small fun stop body => (do
    let rest ← sliceFrom (first :: tail) stop
    return (Rlp.str body, rest))]
  by_cases inside : start + length ≤ tail.length
  · rw [if_pos inside, if_pos inside, rest_eq inside]
    rfl
  · rw [if_neg inside, if_neg inside]

theorem list_eq {fuel : Nat} (small : tail.length + 1 < 2 ^ 64)
    (inner : ∀ body : List UInt8, body.length ≤ tail.length →
      bodySteps fuel body = checked (decodeListBody body)) (start length : Nat) :
    (do
      let stop ← orFail RlpError.eof (checkedAdd (1 + start) length)
      let body ← orFail RlpError.eof (slice (first :: tail) (1 + start) stop)
      let items ← bodySteps fuel body
      let rest ← sliceFrom (first :: tail) stop
      return (Rlp.list items, rest)) =
      if start + length ≤ tail.length then
        checked ((decodeListBody ((tail.drop start).take length)).map fun items =>
          (.list items, tail.drop (start + length)))
      else .error (.failed .eof) := by
  rw [payload_eq small fun stop body => (do
    let items ← bodySteps fuel body
    let rest ← sliceFrom (first :: tail) stop
    return (Rlp.list items, rest))]
  by_cases inside : start + length ≤ tail.length
  · have shorter : ((tail.drop start).take length).length ≤ tail.length := by
      rw [List.length_take, List.length_drop]
      omega
    rw [if_pos inside, if_pos inside, rest_eq inside, inner _ shorter]
    cases decodeListBody ((tail.drop start).take length) with
    | error error => rfl
    | ok items => rfl
  · rw [if_neg inside, if_neg inside]

/-- An item and what follows it, without the bound. -/
def bare {input : List UInt8} (decoded : Rlp × { rest : List UInt8 // rest.length < input.length }) :
    Rlp × List UInt8 := (decoded.1, decoded.2.val)

/-- The payload of an item, once its place is known. -/
def framedItem (first : UInt8) (tail : List UInt8) (start length : Nat) :
    Except RlpError (Rlp × List UInt8) :=
  if start + length ≤ tail.length then
    if first ≤ 0xbf then
      .ok (.str ((tail.drop start).take length), tail.drop (start + length))
    else
      (decodeListBody ((tail.drop start).take length)).map fun items =>
        (.list items, tail.drop (start + length))
  else .error .eof

theorem decodeItem_eq (first : UInt8) (tail : List UInt8) :
    (decodeItem (first :: tail)).map bare =
      if first ≤ 0x7f then .ok (.str [first], tail)
      else
        match header first tail with
        | .error error => .error error
        | .ok (start, length) => framedItem first tail start length := by
  rw [decodeItem]
  by_cases single : first ≤ 0x7f
  · rw [if_pos single, if_pos single]
    rfl
  · rw [if_neg single, if_neg single]
    cases header first tail with
    | error error => rfl
    | ok place =>
        obtain ⟨start, length⟩ := place
        dsimp only
        unfold framedItem
        by_cases inside : start + length ≤ tail.length
        · obtain ⟨small, found⟩ := cut_ok inside
          simp only [found]
          rw [if_pos inside]
          by_cases string : first ≤ 0xbf
          · rw [if_pos string, if_pos string]
            rfl
          · rw [if_neg string, if_neg string]
            cases decodeListBody ((tail.drop start).take length) with
            | error error => rfl
            | ok items => rfl
        · simp only [cut, inside, ↓reduceIte]
          rfl

theorem itemSteps_eq {fuel : Nat} (small : tail.length + 1 < 2 ^ 64)
    (inner : ∀ body : List UInt8, body.length ≤ tail.length →
      bodySteps fuel body = checked (decodeListBody body)) :
    itemSteps (fuel + 1) (first :: tail) = checked ((decodeItem (first :: tail)).map bare) := by
  rw [decodeItem_eq]
  unfold itemSteps header framedItem
  change (if first ≤ 0x7f then _ else _) = _
  by_cases single : first ≤ 0x7f
  · rw [if_pos single, if_pos single]
    rfl
  · rw [if_neg single, if_neg single]
    by_cases short : first ≤ 0xb7
    · have string : first ≤ 0xbf := UInt8.le_trans short (by decide)
      rw [if_pos short, if_pos short]
      have above : 0x80 ≤ first := next_le rfl single
      have named : (0x80 : UInt8).toNat = 0x80 := rfl
      have taken := short_eq named above fun length => (do
        let stop ← orFail RlpError.eof (checkedAdd 1 length)
        let body ← orFail RlpError.eof (slice (first :: tail) 1 stop)
        let rest ← sliceFrom (first :: tail) stop
        return (Rlp.str body, rest))
      refine taken.trans ((str_eq small 0 _).trans ?_)
      simp only [string, ↓reduceIte]
      split
      · rfl
      · rfl
    · rw [if_neg short, if_neg short]
      by_cases string : first ≤ 0xbf
      · rw [if_pos string, if_pos string]
        have named : (0xb7 : UInt8).toNat = 0xb7 := rfl
        refine (long_eq named (UInt8.le_of_lt (UInt8.not_le.mp short)) _).trans ?_
        cases longLength (first.toNat - 0xb7) tail with
        | error error => rfl
        | ok place =>
            obtain ⟨start, length⟩ := place
            refine (str_eq small start length).trans ?_
            simp only [string, ↓reduceIte]
            split
            · rfl
            · rfl
      · rw [if_neg string, if_neg string]
        by_cases few : first ≤ 0xf7
        · rw [if_pos few, if_pos few]
          have above : 0xc0 ≤ first := next_le rfl string
          have named : (0xc0 : UInt8).toNat = 0xc0 := rfl
          have taken := short_eq named above fun length => (do
            let stop ← orFail RlpError.eof (checkedAdd 1 length)
            let body ← orFail RlpError.eof (slice (first :: tail) 1 stop)
            let items ← bodySteps fuel body
            let rest ← sliceFrom (first :: tail) stop
            return (Rlp.list items, rest))
          refine taken.trans ((list_eq small inner 0 _).trans ?_)
          simp only [string, ↓reduceIte]
          split
          · rfl
          · rfl
        · rw [if_neg few, if_neg few]
          have named : (0xf7 : UInt8).toNat = 0xf7 := rfl
          refine (long_eq named (UInt8.le_of_lt (UInt8.not_le.mp few)) _).trans ?_
          cases longLength (first.toNat - 0xf7) tail with
          | error error => rfl
          | ok place =>
              obtain ⟨start, length⟩ := place
              refine (list_eq small inner start length).trans ?_
              simp only [string, ↓reduceIte]
              split
              · rfl
              · rfl

theorem bodySteps_eq {fuel : Nat} {body : List UInt8}
    (item : itemSteps fuel body = checked ((decodeItem body).map bare))
    (later : ∀ rest : List UInt8, rest.length < body.length →
      bodySteps fuel rest = checked (decodeListBody rest)) :
    bodySteps (fuel + 1) body = checked (decodeListBody body) := by
  rw [decodeListBody]
  unfold bodySteps
  by_cases ended : body.isEmpty = true
  · rw [if_pos ended, if_pos ended]
    rfl
  · rw [if_neg ended, if_neg ended, item]
    cases decodeItem body with
    | error error => rfl
    | ok decoded =>
        obtain ⟨first, rest, shorter⟩ := decoded
        change (bodySteps fuel rest >>= _) = _
        rw [later rest shorter]
        dsimp only
        cases decodeListBody rest with
        | error error => rfl
        | ok items => rfl

/-- On slices, whose lengths fit `usize`, the checks change nothing. -/
theorem steps_eq (fuel : Nat) :
    (∀ input : List UInt8, input.length < 2 ^ 64 → 2 * input.length < fuel →
      itemSteps fuel input = checked ((decodeItem input).map bare)) ∧
    ∀ body : List UInt8, body.length < 2 ^ 64 → 2 * body.length + 1 < fuel →
      bodySteps fuel body = checked (decodeListBody body) := by
  induction fuel with
  | zero =>
      constructor
      · intro input _ enough
        exact absurd enough (Nat.not_lt_zero _)
      · intro body _ enough
        exact absurd enough (Nat.not_lt_zero _)
  | succ fuel ih =>
      obtain ⟨items, bodies⟩ := ih
      constructor
      · intro input small enough
        cases input with
        | nil =>
            rw [decodeItem]
            rfl
        | cons first tail =>
            rw [List.length_cons] at small enough
            exact itemSteps_eq small fun body shorter => bodies body (by omega) (by omega)
      · intro body small enough
        exact bodySteps_eq (items body small (by omega)) fun rest shorter =>
          bodies rest (by omega) (by omega)

theorem decodeSteps_eq {fuel : Nat} {input : List UInt8} (small : input.length < 2 ^ 64)
    (enough : 2 * input.length < fuel) : decodeSteps fuel input = checked (decode input) := by
  unfold decodeSteps decode
  rw [(steps_eq fuel).1 input small enough]
  cases decodeItem input with
  | error error => rfl
  | ok decoded =>
      obtain ⟨item, rest, shorter⟩ := decoded
      dsimp only
      by_cases ended : rest.isEmpty = true
      · rw [if_pos ended]
        exact if_pos ended
      · rw [if_neg ended]
        exact if_neg ended

/-- Every decoder returns what its bytes spell or an error of its own: it never panics and,
with calls open for twice the length, is never cut off. -/
theorem decoder_settles (input : List UInt8) (more : Nat) :
    Settles (fun decoded : Rlp × List UInt8 => ∃ bytes, bytes ≠ [] ∧
      input = bytes ++ decoded.2 ∧ Spells decoded.1 bytes)
        (itemSteps (2 * input.length + 1 + more) input) ∧
    Settles (SpellsAll · input) (bodySteps (2 * input.length + 2 + more) input) ∧
    Settles (Spells · input) (decodeSteps (2 * input.length + 1 + more) input) := by
  refine ⟨?_, ?_, ?_⟩
  · exact (steps_settle _).1 input (by omega)
  · exact (steps_settle _).2 input (by omega)
  · exact decodeSteps_settles _ (by omega)

example : (decodeSteps 5 [0xc1, 0x05]).isOk = true := by decide +kernel

end Veilux.Rlp
