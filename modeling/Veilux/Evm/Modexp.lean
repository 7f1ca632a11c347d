/-
The modular exponentiation contract against powers of unbounded naturals.  Its products
are cut to 256 bits before they are reduced, and an operand that the input does not hold in
full is read as the number its bytes spell.
-/

import Veilux.Evm.WordNumbers
import Veilux.Evm.WordOpcodes

namespace Veilux

namespace Precompile

open Rlp (ofBeBytes)
open Evm (wrapped_mod_iff)

/-! ### Square and multiply -/

/-- What is cut off a product is a multiple of the modulus. -/
def Spared (modulus product : Nat) : Prop := modulus ∣ product / 2 ^ 256 * 2 ^ 256

/-- The products that count: the running power times a square for each bit that is set, and
each square up to the highest bit. -/
def Spares (base exp modulus : Nat) : Prop :=
  ∀ i, 2 ^ i ≤ exp →
    (exp.testBit i = true →
      Spared modulus (base ^ (exp % 2 ^ i) % modulus * (base ^ 2 ^ i % modulus))) ∧
    (2 ^ (i + 1) ≤ exp → Spared modulus (base ^ 2 ^ i % modulus * (base ^ 2 ^ i % modulus)))

theorem spared_of_lt {modulus product : Nat} (fits : product < 2 ^ 256) :
    Spared modulus product := by
  unfold Spared
  rw [Nat.div_eq_of_lt fits, Nat.zero_mul]
  exact Nat.dvd_zero _

/-- Residues of a modulus of at most 128 bits have products that fit. -/
theorem spares_of_le {base exp modulus : Nat} (positive : 0 < modulus)
    (small : modulus ≤ 2 ^ 128) : Spares base exp modulus := by
  have fits (left right : Nat) : left % modulus * (right % modulus) < 2 ^ 256 := by
    have first := (Nat.mod_lt left positive).trans_le small
    have second := (Nat.mod_lt right positive).trans_le small
    have product := Nat.mul_lt_mul'' first second
    rwa [← Nat.pow_add] at product
  exact fun i _ => ⟨fun _ => spared_of_lt (fits _ _), fun _ => spared_of_lt (fits _ _)⟩

theorem spares_of_dvd {base exp modulus : Nat} (divides : modulus ∣ 2 ^ 256) :
    Spares base exp modulus :=
  fun _ _ => ⟨fun _ => Dvd.dvd.mul_left divides _, fun _ => Dvd.dvd.mul_left divides _⟩

/-- A product of two residues, cut and reduced. -/
theorem toNat_product {left right modulus : U256} (positive : 0 < modulus.toNat)
    (spared : Spared modulus.toNat (left.toNat * right.toNat)) :
    ((left.wrappingMul right).divMod modulus).2.toNat =
      left.toNat * right.toNat % modulus.toNat := by
  rw [(U256.toNat_divMod _ positive).2, U256.toNat_wrappingMul]
  exact (wrapped_mod_iff _ _).mpr spared

/-- The loop from bit `i` on: the square is the power of that bit, as long as a bit is left,
and the result that of the bits below it. -/
theorem toNat_modExpLoop {modulus : U256} {base exp : Nat} (positive : 0 < modulus.toNat)
    (spares : Spares base exp modulus.toNat) {bits i : Nat} {square rest result : U256}
    (left : rest.toNat = exp / 2 ^ i) (enough : rest.toNat < 2 ^ bits)
    (squared : 2 ^ i ≤ exp → square.toNat = base ^ 2 ^ i % modulus.toNat)
    (power : result.toNat = base ^ (exp % 2 ^ i) % modulus.toNat) :
    (modExpLoop modulus bits square rest result).toNat = base ^ exp % modulus.toNat := by
  have done {i : Nat} {rest result : U256} (left : rest.toNat = exp / 2 ^ i)
      (power : result.toNat = base ^ (exp % 2 ^ i) % modulus.toNat) (none : rest.toNat = 0) :
      result.toNat = base ^ exp % modulus.toNat := by
    have small : exp < 2 ^ i := by
      rw [none] at left
      exact (Nat.div_eq_zero_iff_lt (Nat.two_pow_pos i)).mp left.symm
    rw [power, Nat.mod_eq_of_lt small]
  induction bits generalizing i square rest result with
  | zero =>
      rw [pow_zero, Nat.lt_one_iff] at enough
      exact done left power enough
  | succ bits ih =>
      unfold modExpLoop
      by_cases zero : rest.isZero = true
      · rw [if_pos zero]
        exact done left power ((U256.isZero_iff _).mp zero)
      · have some : rest.toNat ≠ 0 := fun none => zero ((U256.isZero_iff _).mpr none)
        have reached : 2 ^ i ≤ exp := by
          by_contra small
          exact some (left.trans (Nat.div_eq_of_lt (Nat.not_le.mp small)))
        obtain ⟨used, next⟩ := spares i reached
        have bit : rest.bit 0 = exp.testBit i := by
          rw [U256.bit_eq_testBit, left, Nat.testBit_div_two_pow, Nat.zero_add]
        have halved : (rest.shr 1).toNat = rest.toNat / 2 := by rw [U256.toNat_shr, pow_one]
        have below : rest.toNat / 2 < 2 ^ bits := by
          rw [pow_succ] at enough
          omega
        rw [if_neg zero, bit]
        refine @ih (i + 1) _ _ _ ?_ (halved ▸ below) (fun further => ?_) ?_
        · rw [halved, left, Nat.div_div_eq_div_mul, ← pow_succ]
        · have spared := next further
          rw [← squared reached] at spared
          rw [toNat_product positive spared, squared reached, ← Nat.mul_mod, ← pow_add,
            ← Nat.two_mul, ← pow_succ']
        · have split : exp % 2 ^ (i + 1) = exp % 2 ^ i + 2 ^ i * (exp.testBit i).toNat := by
            rw [Nat.mod_pow_succ, Nat.toNat_testBit]
          by_cases set : exp.testBit i = true
          · have spared := used set
            rw [← squared reached, ← power] at spared
            rw [set, Bool.toNat_true, Nat.mul_one] at split
            rw [if_pos set, toNat_product positive spared, squared reached, power, ← Nat.mul_mod,
              ← pow_add, split]
          · rw [Bool.not_eq_true] at set
            rw [set, Bool.toNat_false, Nat.mul_zero] at split
            rw [if_neg (by rw [set]; exact Bool.false_ne_true), power, split]
            rfl

theorem toNat_modExp {base exp modulus : U256} (some : modulus ≠ .zero)
    (spares : Spares base.toNat exp.toNat modulus.toNat) :
    (modExp base exp modulus).toNat = base.toNat ^ exp.toNat % modulus.toNat := by
  have positive := U256.toNat_pos some
  unfold modExp
  by_cases unit : modulus = .one
  · rw [if_pos unit, unit, U256.toNat_one, Nat.mod_one]
    rfl
  · have large : 1 < modulus.toNat := by
      have other : modulus.toNat ≠ 1 := fun one =>
        unit (U256.toNat_injective (one.trans U256.toNat_one.symm))
      omega
    rw [if_neg unit]
    refine @toNat_modExpLoop _ _ _ positive spares 256 0 _ _ _ ?_ exp.toNat_lt (fun _ => ?_) ?_
    · rw [pow_zero, Nat.div_one]
    · rw [(U256.toNat_divMod _ positive).2, pow_zero, pow_one]
    · rw [pow_zero, Nat.mod_one, pow_zero, Nat.mod_eq_of_lt large]
      rfl

/-! ### The operands of an input -/

/-- The bytes of the input from an offset on, as if zeros without end stood behind it. -/
def field (input : List UInt8) (off len : Nat) : Nat :=
  ofBeBytes ((padded (off + len) input).drop off)

def baseLength (input : List UInt8) : Nat := field input 0 32

def expLength (input : List UInt8) : Nat := field input 32 32

def modLength (input : List UInt8) : Nat := field input 64 32

def modStart (input : List UInt8) : Nat := 96 + baseLength input + expLength input

def baseOperand (input : List UInt8) : Nat := field input 96 (baseLength input)

def expOperand (input : List UInt8) : Nat := field input (96 + baseLength input) (expLength input)

def modOperand (input : List UInt8) : Nat := field input (modStart input) (modLength input)

/-- The bytes of the modulus that the input has. -/
def modBytes (input : List UInt8) : List UInt8 :=
  (input.drop (modStart input)).take (modLength input)

/-- No declared length is over 32. -/
def Short (input : List UInt8) : Prop :=
  baseLength input ≤ 32 ∧ expLength input ≤ 32 ∧ modLength input ≤ 32

/-- The output is the power in as many bytes as the modulus has. -/
def Exponentiates (input : List UInt8) : Prop :=
  (modexp input).length = modLength input ∧
    ofBeBytes (modexp input) =
      if modOperand input = 0 then 0
      else baseOperand input ^ expOperand input % modOperand input

theorem padded_take {input : List UInt8} {count width : Nat} (within : count ≤ width) :
    (padded width input).take count = padded count input := by
  unfold padded
  rw [List.take_append, List.take_take, List.take_replicate, List.length_take,
    Nat.min_eq_left within]
  congr 2
  omega

/-- What the input has of a field, with zeros behind it. -/
theorem padded_drop (input : List UInt8) (off len : Nat) :
    (padded (off + len) input).drop off =
      (input.drop off).take len ++
        List.replicate (len - ((input.drop off).take len).length) 0 := by
  unfold padded
  rw [List.drop_append, List.drop_take, List.drop_replicate, List.length_take, List.length_take,
    List.length_drop, Nat.add_sub_cancel_left]
  congr 2
  omega

theorem field_eq (input : List UInt8) (off len : Nat) :
    field input off len = ofBeBytes ((input.drop off).take len) *
      256 ^ (len - ((input.drop off).take len).length) := by
  unfold field
  rw [padded_drop, Rlp.ofBeBytes_append, Rlp.ofBeBytes_zeros, List.length_replicate, Nat.add_zero]

theorem field_complete {input : List UInt8} {off len : Nat} (inside : off + len ≤ input.length) :
    field input off len = ofBeBytes ((input.drop off).take len) := by
  have whole : ((input.drop off).take len).length = len := by
    rw [List.length_take, List.length_drop]
    omega
  rw [field_eq, whole, Nat.sub_self, pow_zero, Nat.mul_one]

theorem beUsize_eq (bytes : List UInt8) :
    beUsize bytes = min (ofBeBytes bytes) (2 ^ 64 - 1) := by
  unfold beUsize ofBeBytes
  have saturates (value : Nat) : bytes.foldl (fun value byte =>
      min (min (value * 256) (2 ^ 64 - 1) + byte.toNat) (2 ^ 64 - 1)) (min value (2 ^ 64 - 1)) =
        min (bytes.foldl (fun value byte => value * 256 + byte.toNat) value) (2 ^ 64 - 1) := by
    induction bytes generalizing value with
    | nil => rfl
    | cons byte rest ih =>
        have step : min (min (min value (2 ^ 64 - 1) * 256) (2 ^ 64 - 1) + byte.toNat)
            (2 ^ 64 - 1) = min (value * 256 + byte.toNat) (2 ^ 64 - 1) := by
          omega
        rw [List.foldl_cons, List.foldl_cons, step, ih]
  exact saturates 0

/-- A length word of the header. -/
theorem beUsize_header (input : List UInt8) {off : Nat} (within : off + 32 ≤ 96) :
    beUsize (((padded 96 input).drop off).take 32) = min (field input off 32) (2 ^ 64 - 1) := by
  have same : ((padded 96 input).drop off).take 32 = (padded (off + 32) input).drop off := by
    rw [← padded_take within, List.drop_take, Nat.add_sub_cancel_left]
  rw [beUsize_eq, same]
  rfl

theorem toNat_readU256 (input : List UInt8) {off len : Nat} (short : len ≤ 32) :
    (readU256 (input.drop 96) off len).toNat =
      ofBeBytes ((input.drop (96 + off)).take len) := by
  unfold readU256
  by_cases none : len = 0
  · rw [if_pos none, none, List.take_zero]
    rfl
  · rw [if_neg none, List.drop_drop, U256.toNat_fromBigEndian]
    exact (List.length_take_le _ _).trans short

/-- The word that the code encodes. -/
def modResult (input : List UInt8) : U256 :=
  let modulus := readU256 (input.drop 96) (baseLength input + expLength input) (modLength input)
  if modulus.isZero then .zero
  else
    modExp (readU256 (input.drop 96) 0 (baseLength input))
      (readU256 (input.drop 96) (baseLength input) (expLength input)) modulus

theorem modexp_eq {input : List UInt8} (short : Short input) :
    modexp input = (modResult input).toBigEndian.toList.drop (32 - modLength input) := by
  obtain ⟨base, exp, modulus⟩ := short
  have first := @beUsize_header input 0 (by decide)
  have second := @beUsize_header input 32 (by decide)
  have third := @beUsize_header input 64 (by decide)
  have blen : beUsize ((padded 96 input).take 32) = baseLength input :=
    first.trans (Nat.min_eq_left (base.trans (by decide)))
  have elen : beUsize (((padded 96 input).drop 32).take 32) = expLength input :=
    second.trans (Nat.min_eq_left (exp.trans (by decide)))
  have mlen : beUsize (((padded 96 input).drop 64).take 32) = modLength input :=
    third.trans (Nat.min_eq_left (modulus.trans (by decide)))
  unfold modexp modResult
  dsimp only
  rw [blen, elen, mlen, if_neg (by omega)]

theorem modexp_length {input : List UInt8} (short : Short input) :
    (modexp input).length = modLength input := by
  have small := short.2.2
  rw [modexp_eq short, List.length_drop, Vector.length_toList]
  omega

theorem modexp_value {input : List UInt8} (short : Short input) :
    ofBeBytes (modexp input) = (modResult input).toNat % 256 ^ modLength input := by
  have small := short.2.2
  have places : 32 - (32 - modLength input) = modLength input := by omega
  rw [modexp_eq short, Rlp.ofBeBytes_drop, U256.ofBeBytes_toBigEndian, Vector.length_toList,
    places]

/-- The modulus as the code reads it is what its bytes spell, as if there were no more. -/
theorem toNat_modulus {input : List UInt8} (short : Short input) :
    (readU256 (input.drop 96) (baseLength input + expLength input) (modLength input)).toNat =
      ofBeBytes (modBytes input) := by
  rw [toNat_readU256 input short.2.2, ← Nat.add_assoc]
  rfl

theorem modOperand_eq (input : List UInt8) :
    modOperand input =
      ofBeBytes (modBytes input) * 256 ^ (modLength input - (modBytes input).length) :=
  field_eq input _ _

/-- An input that has a byte of its modulus has all of the base and the exponent. -/
theorem reaches_modulus {input : List UInt8} (some : ofBeBytes (modBytes input) ≠ 0) :
    modStart input ≤ input.length := by
  by_contra ends
  apply some
  unfold modBytes
  rw [List.drop_eq_nil_of_le (Nat.le_of_not_le ends), List.take_nil]
  rfl

theorem toNat_base {input : List UInt8} (short : Short input)
    (reaches : modStart input ≤ input.length) :
    (readU256 (input.drop 96) 0 (baseLength input)).toNat = baseOperand input := by
  unfold modStart at reaches
  rw [toNat_readU256 input short.1]
  exact (field_complete (by omega)).symm

theorem toNat_exp {input : List UInt8} (short : Short input)
    (reaches : modStart input ≤ input.length) :
    (readU256 (input.drop 96) (baseLength input) (expLength input)).toNat = expOperand input := by
  unfold modStart at reaches
  rw [toNat_readU256 input short.2.1]
  exact (field_complete (by omega)).symm

/-- With all bytes of the modulus, and products that are spared, the power is right; a
modulus of zeros is, however many of them there are. -/
theorem exponentiates_of {input : List UInt8} (short : Short input)
    (proper : ofBeBytes (modBytes input) = 0 ∨ (modBytes input).length = modLength input ∧
      Spares (baseOperand input) (expOperand input) (modOperand input)) :
    Exponentiates input := by
  refine ⟨modexp_length short, ?_⟩
  have modulus := toNat_modulus short
  rw [modexp_value short]
  unfold modResult
  by_cases none : ofBeBytes (modBytes input) = 0
  · have zero : modOperand input = 0 := by rw [modOperand_eq, none, Nat.zero_mul]
    rw [none] at modulus
    dsimp only
    rw [if_pos ((U256.isZero_iff _).mpr modulus), if_pos zero, U256.toNat_zero, Nat.zero_mod]
  · obtain ⟨complete, spares⟩ := proper.resolve_left none
    have whole : modOperand input = ofBeBytes (modBytes input) := by
      rw [modOperand_eq, complete, Nat.sub_self, pow_zero, Nat.mul_one]
    have bound := Rlp.ofBeBytes_lt (modBytes input)
    have reaches := reaches_modulus none
    rw [← toNat_base short reaches, ← toNat_exp short reaches, whole, ← modulus] at spares
    rw [complete] at bound
    rw [← toNat_base short reaches, ← toNat_exp short reaches, whole]
    rw [← modulus] at none bound ⊢
    have some : ¬ (readU256 (input.drop 96) (baseLength input + expLength input)
        (modLength input)).isZero = true := fun zero => none ((U256.isZero_iff _).mp zero)
    dsimp only
    rw [if_neg some, if_neg none, toNat_modExp (fun zero => none (by rw [zero]; rfl)) spares]
    exact Nat.mod_eq_of_lt ((Nat.mod_lt _ (Nat.pos_of_ne_zero none)).trans bound)

/-! ### Inputs that fail -/

/-- A full base, an exponent of one byte, and some of the bytes of a modulus. -/
def request (base : Nat) (exp : UInt8) (size : Nat) (modulus : List UInt8) : List UInt8 :=
  Rlp.beBytes 32 32 ++ Rlp.beBytes 32 1 ++ Rlp.beBytes 32 size ++ Rlp.beBytes 32 base ++ [exp] ++
    modulus

section Requests

variable {base size : Nat} {exp : UInt8} {modulus : List UInt8}

theorem beBytes_length (width value : Nat) : (Rlp.beBytes width value).length = width := by
  unfold Rlp.beBytes
  rw [List.length_reverse, Bytes.leBytes_length]

theorem ofBeBytes_beBytes {value : Nat} (fits : value < 2 ^ 256) :
    ofBeBytes (Rlp.beBytes 32 value) = value := by
  unfold Rlp.beBytes
  rw [Rlp.ofBeBytes_eq, List.reverse_reverse, Bytes.ofLeBytes_leBytes]
  exact Nat.mod_eq_of_lt (fits.trans_eq (by norm_num))

/-- A field that is one of the parts of an input. -/
theorem field_part (front part back : List UInt8) :
    field (front ++ part ++ back) front.length part.length = ofBeBytes part := by
  rw [field_complete (by simp), List.append_assoc, List.drop_left, List.take_left]

theorem request_baseLength : baseLength (request base exp size modulus) = 32 := by
  have part := field_part [] (Rlp.beBytes 32 32) (Rlp.beBytes 32 1 ++ Rlp.beBytes 32 size ++
    Rlp.beBytes 32 base ++ [exp] ++ modulus)
  rw [beBytes_length, ofBeBytes_beBytes (by decide), List.nil_append] at part
  simpa [request, baseLength, List.append_assoc] using part

theorem request_expLength : expLength (request base exp size modulus) = 1 := by
  have part := field_part (Rlp.beBytes 32 32) (Rlp.beBytes 32 1) (Rlp.beBytes 32 size ++
    Rlp.beBytes 32 base ++ [exp] ++ modulus)
  rw [beBytes_length, beBytes_length, ofBeBytes_beBytes (by decide)] at part
  simpa [request, expLength, List.append_assoc] using part

theorem request_modLength (small : size ≤ 32) :
    modLength (request base exp size modulus) = size := by
  have part := field_part (Rlp.beBytes 32 32 ++ Rlp.beBytes 32 1) (Rlp.beBytes 32 size)
    (Rlp.beBytes 32 base ++ [exp] ++ modulus)
  rw [List.length_append, beBytes_length, beBytes_length, beBytes_length,
    ofBeBytes_beBytes (small.trans_lt (by decide))] at part
  simpa [request, modLength, List.append_assoc] using part

theorem request_short (small : size ≤ 32) : Short (request base exp size modulus) := by
  refine ⟨?_, ?_, ?_⟩
  · rw [request_baseLength]
  · rw [request_expLength]
    decide
  · rwa [request_modLength small]

theorem request_modStart : modStart (request base exp size modulus) = 129 := by
  rw [modStart, request_baseLength, request_expLength]

theorem request_baseOperand (word : base < 2 ^ 256) :
    baseOperand (request base exp size modulus) = base := by
  have part := field_part (Rlp.beBytes 32 32 ++ Rlp.beBytes 32 1 ++ Rlp.beBytes 32 size)
    (Rlp.beBytes 32 base) ([exp] ++ modulus)
  rw [List.length_append, List.length_append, beBytes_length, beBytes_length, beBytes_length,
    beBytes_length, ofBeBytes_beBytes word] at part
  rw [baseOperand, request_baseLength]
  simpa [request, List.append_assoc] using part

theorem request_expOperand : expOperand (request base exp size modulus) = exp.toNat := by
  have part := field_part (Rlp.beBytes 32 32 ++ Rlp.beBytes 32 1 ++ Rlp.beBytes 32 size ++
    Rlp.beBytes 32 base) [exp] modulus
  have byte : ofBeBytes [exp] = exp.toNat := by
    change 0 * 256 + exp.toNat = exp.toNat
    omega
  rw [List.length_append, List.length_append, List.length_append, beBytes_length, beBytes_length,
    beBytes_length, beBytes_length, byte] at part
  rw [expOperand, request_baseLength, request_expLength]
  simpa [request, List.append_assoc] using part

theorem request_modBytes (small : size ≤ 32) (within : modulus.length ≤ size) :
    modBytes (request base exp size modulus) = modulus := by
  have front : (Rlp.beBytes 32 32 ++ Rlp.beBytes 32 1 ++ Rlp.beBytes 32 size ++
      Rlp.beBytes 32 base ++ [exp]).length = 129 := by
    simp only [List.length_append, beBytes_length, List.length_singleton]
  rw [modBytes, request_modStart, request_modLength small, request, ← front, List.drop_left,
    List.take_of_length_le within]

theorem request_reaches : modStart (request base exp size modulus) ≤
    (request base exp size modulus).length := by
  rw [request_modStart, request]
  simp only [List.length_append, beBytes_length, List.length_singleton]
  omega

theorem request_result (small : size ≤ 32) (within : modulus.length ≤ size)
    (word : base < 2 ^ 256) (some : ofBeBytes modulus ≠ 0) : ∃ b e m : U256, b.toNat = base ∧ e.toNat = exp.toNat ∧
      m.toNat = ofBeBytes modulus ∧ modResult (request base exp size modulus) = modExp b e m := by
  have short := @request_short base size exp modulus small
  have reaches := @request_reaches base size exp modulus
  have read := toNat_modulus short
  rw [request_modBytes small within] at read
  refine ⟨_, _, _, (toNat_base short reaches).trans (request_baseOperand word),
    (toNat_exp short reaches).trans request_expOperand, read, ?_⟩
  unfold modResult
  dsimp only
  rw [if_neg fun zero => some (read.symm.trans ((U256.isZero_iff _).mp zero))]

/-- The first power of a modulus that is not all there is zero to the code. -/
theorem truncated_fails (small : size ≤ 32) (partial_ : modulus.length < size)
    (some : ofBeBytes modulus ≠ 0) :
    ¬ Exponentiates (request (ofBeBytes modulus) 1 size modulus) := by
  intro right
  have bound := Rlp.ofBeBytes_lt modulus
  have word : ofBeBytes modulus < 2 ^ 256 := by
    have power : 256 ^ modulus.length ≤ 256 ^ 32 := Nat.pow_le_pow_right (by decide) (by omega)
    omega
  have value := right.2
  rw [modexp_value (request_short small), modOperand_eq, request_modLength small,
    request_modBytes small partial_.le, request_baseOperand word, request_expOperand] at value
  obtain ⟨b, e, m, base, exp, modulus_, result⟩ :=
    @request_result _ _ 1 _ small partial_.le word some
  have zero : (modResult (request (ofBeBytes modulus) 1 size modulus)).toNat = 0 := by
    have spares : Spares b.toNat e.toNat m.toNat := by
      rw [base, exp, modulus_]
      intro i reached
      have low : i = 0 := by
        by_contra high
        exact absurd reached (Nat.not_le.mpr (Nat.one_lt_two_pow high))
      rw [low, pow_zero, pow_one, Nat.mod_self, Nat.mul_zero]
      exact ⟨fun _ => spared_of_lt (by decide), fun _ => spared_of_lt (by decide)⟩
    rw [result, toNat_modExp _ spares, base, exp, modulus_]
    · change ofBeBytes modulus ^ 1 % _ = 0
      rw [pow_one, Nat.mod_self]
    · intro none
      rw [none] at modulus_
      exact some modulus_.symm
  have missing : 256 ^ 1 ≤ 256 ^ (size - modulus.length) :=
    Nat.pow_le_pow_right (by decide) (by omega)
  have larger : ofBeBytes modulus < ofBeBytes modulus * 256 ^ (size - modulus.length) := by
    refine lt_mul_of_one_lt_right (Nat.pos_of_ne_zero some) ?_
    omega
  rw [zero, Nat.zero_mod, if_neg (by omega)] at value
  change 0 = ofBeBytes modulus ^ 1 % _ at value
  rw [pow_one, Nat.mod_eq_of_lt larger] at value
  exact some value.symm

/-- Two rounds of the loop for an exponent of two. -/
theorem modExpLoop_two (m square : U256) (bits : Nat) :
    modExpLoop m (bits + 3) square (.fromU64 2) .one =
      ((U256.one.wrappingMul ((square.wrappingMul square).divMod m).2).divMod m).2 := by
  have two : ¬ (U256.fromU64 2).isZero = true := by decide
  have even : ¬ (U256.fromU64 2).bit 0 = true := by decide
  have half : (U256.fromU64 2).shr 1 = .one := by decide
  have one : ¬ U256.one.isZero = true := by decide
  have odd : U256.one.bit 0 = true := by decide
  have rest : (U256.one.shr 1).isZero = true := by decide
  rw [modExpLoop, if_neg two, if_neg even, half, modExpLoop, if_neg one, if_pos odd, modExpLoop,
    if_pos rest]

/-- The square of 2^128 is zero to the code. -/
theorem modExp_square {b e m : U256} (base : b.toNat = 2 ^ 128) (two : e.toNat = 2)
    (large : 2 ^ 128 < m.toNat) : (modExp b e m).toNat = 0 := by
  have positive : 0 < m.toNat := by omega
  have exponent : e = .fromU64 2 := U256.toNat_injective (two.trans (by decide))
  have square : (((b.divMod m).2.wrappingMul (b.divMod m).2).divMod m).2.toNat = 0 := by
    rw [(U256.toNat_divMod _ positive).2, U256.toNat_wrappingMul,
      (U256.toNat_divMod _ positive).2, base, Nat.mod_eq_of_lt large, ← pow_add, Nat.mod_self,
      Nat.zero_mod]
  have other : m ≠ .one := fun one => by
    rw [one, U256.toNat_one] at large
    exact absurd large (by decide)
  have rounds := modExpLoop_two m (b.divMod m).2 253
  unfold modExp
  rw [if_neg other, exponent, rounds, (U256.toNat_divMod _ positive).2, U256.toNat_wrappingMul,
    square, Nat.mul_zero, Nat.zero_mod, Nat.zero_mod]

theorem wrapped_fails (small : size ≤ 32) (complete : modulus.length = size)
    (large : 2 ^ 128 < ofBeBytes modulus) (rest : ¬ ofBeBytes modulus ∣ 2 ^ 256) :
    ¬ Exponentiates (request (2 ^ 128) 2 size modulus) := by
  intro right
  have word : 2 ^ 128 < 2 ^ 256 := by decide
  have value := right.2
  rw [modexp_value (request_short small), modOperand_eq, request_modLength small,
    request_modBytes small complete.le, request_baseOperand word, request_expOperand, complete,
    Nat.sub_self, pow_zero, Nat.mul_one] at value
  obtain ⟨b, e, m, base, exp, modulus_, result⟩ :=
    @request_result _ _ 2 _ small complete.le word (by omega)
  rw [result, modExp_square base exp (modulus_ ▸ large), Nat.zero_mod, if_neg (by omega)] at value
  change 0 = (2 ^ 128) ^ 2 % _ at value
  rw [← pow_mul] at value
  exact rest (Nat.dvd_of_mod_eq_zero value.symm)

end Requests

/-! ### The inputs that come out right -/

/-- An input comes out right when its modulus is zero, or complete and a multiple of it all
that is cut off the products; for a modulus that is not zero every base and exponent do
exactly when it is complete, and has at most 128 bits or divides 2^256. -/
theorem modexp_right_iff (size : Nat) (bytes : List UInt8) (small : size ≤ 32)
    (within : bytes.length ≤ size) :
    (∀ input, Short input →
      ofBeBytes (modBytes input) = 0 ∨ (modBytes input).length = modLength input ∧
        Spares (baseOperand input) (expOperand input) (modOperand input) →
      Exponentiates input) ∧
    ((∀ input, Short input → modLength input = size → modBytes input = bytes →
        Exponentiates input) ↔
      ofBeBytes bytes = 0 ∨ bytes.length = size ∧
        (ofBeBytes bytes ≤ 2 ^ 128 ∨ ofBeBytes bytes ∣ 2 ^ 256)) := by
  refine ⟨fun input short proper => exponentiates_of short proper,
    fun right => ?_, fun proper input short length same => ?_⟩
  · by_contra wrong
    obtain ⟨some, incomplete⟩ := not_or.mp wrong
    have read (base : Nat) (exp : UInt8) := right (request base exp size bytes)
      (request_short small) (request_modLength small) (request_modBytes small within)
    by_cases complete : bytes.length = size
    · obtain ⟨large, rest⟩ := not_or.mp (not_and.mp incomplete complete)
      exact wrapped_fails small complete (Nat.not_le.mp large) rest (read _ _)
    · exact truncated_fails small (lt_of_le_of_ne within complete) some (read _ _)
  · apply exponentiates_of short
    rw [modOperand_eq, same, length]
    rcases proper with none | ⟨complete, spared⟩
    · exact .inl none
    · by_cases none : ofBeBytes bytes = 0
      · exact .inl none
      · rw [complete, Nat.sub_self, pow_zero, Nat.mul_one]
        refine .inr ⟨rfl, ?_⟩
        rcases spared with small | divides
        · exact spares_of_le (Nat.pos_of_ne_zero none) small
        · exact spares_of_dvd divides

theorem modexp_right_three :
    ofBeBytes [3] = 3 ∧ ∀ input, Short input → modLength input = 1 → modBytes input = [3] →
      Exponentiates input :=
  ⟨rfl, (modexp_right_iff 1 [3] (by decide) (by decide)).2.mpr (by decide)⟩

/-- (2^128)^2 modulo 2^256 - 1 is 1. -/
theorem square_cut_off :
    Short (request (2 ^ 128) 2 32 (List.replicate 32 255)) ∧
      ¬ Exponentiates (request (2 ^ 128) 2 32 (List.replicate 32 255)) :=
  ⟨request_short (by decide),
    wrapped_fails (by decide) (by decide) (by decide +kernel) (by decide +kernel)⟩

end Precompile

end Veilux
