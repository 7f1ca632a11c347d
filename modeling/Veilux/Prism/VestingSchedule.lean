/-
What a schedule of `prisms/vesting/src/lib.rs` has vested at a time: the promised line over
unbounded numbers, and the computation, which leaves it where a schedule has no duration,
where the product saturates and where the end of the cliff does.
-/

import Veilux.Prism.Amounts
import Veilux.Prism.Positions

namespace Veilux

namespace Schedule

/-! ### The line -/

/-- The vested part of a total: nothing before the cliff, all of it after the duration, and a
linear share in between. -/
def line (total start cliff duration now : Nat) : Nat :=
  if now < start + cliff then 0
  else if now < start + duration then total * (now - start) / duration
  else total

variable {schedule : Schedule} {now early late : UInt64}

theorem ofNatSaturating_val (time : UInt64) :
    (U128.ofNatSaturating time.toNat).val = time.toNat :=
  Nat.min_eq_left (by have := time.toNat_lt; omega)

theorem elapsed_val (now : UInt64) (start : Nat) :
    (U128.ofNatSaturating (now.toNat - start)).val = now.toNat - start :=
  Nat.min_eq_left (by have := now.toNat_lt; omega)

theorem duration_pos (timed : schedule.duration ≠ 0) : 0 < schedule.duration.toNat := by
  apply Nat.pos_of_ne_zero
  intro none
  exact timed (UInt64.toNat_inj.mp none)

theorem vested_of_untimed (untimed : schedule.duration = 0) :
    schedule.vested now = schedule.total := by
  unfold vested
  rw [if_pos untimed]

theorem vested_of_early (timed : schedule.duration ≠ 0) (early : now.toNat < schedule.cliffEnd) :
    schedule.vested now = 0 := by
  unfold vested
  rw [if_neg timed, if_pos early]

theorem vested_of_late (timed : schedule.duration ≠ 0) (late : ¬ now.toNat < schedule.cliffEnd)
    (ended : schedule.duration.toNat ≤ now.toNat - schedule.start.toNat) :
    schedule.vested now = schedule.total := by
  unfold vested
  rw [if_neg timed, if_neg late]
  exact if_pos ended

/-- Between cliff and end, the product is cut before it is divided. -/
theorem vested_val_of_between (timed : schedule.duration ≠ 0)
    (late : ¬ now.toNat < schedule.cliffEnd)
    (running : ¬ schedule.duration.toNat ≤ now.toNat - schedule.start.toNat) :
    (schedule.vested now).val =
      min (schedule.total.val * (now.toNat - schedule.start.toNat)) U128.largest /
        schedule.duration.toNat := by
  unfold vested
  rw [if_neg timed, if_neg late]
  dsimp only
  rw [if_neg running, Fin.div_val, U128.saturatingMul_val, ofNatSaturating_val, elapsed_val]
  rfl

/-- Never more than the total. -/
theorem vested_le (schedule : Schedule) (now : UInt64) :
    (schedule.vested now).val ≤ schedule.total.val := by
  by_cases timed : schedule.duration = 0
  · rw [vested_of_untimed timed]
  by_cases early : now.toNat < schedule.cliffEnd
  · rw [vested_of_early timed early]
    exact Nat.zero_le _
  by_cases ended : schedule.duration.toNat ≤ now.toNat - schedule.start.toNat
  · rw [vested_of_late timed early ended]
  · rw [vested_val_of_between timed early ended]
    apply Capped.min_div_le.trans
    apply Nat.div_le_of_le_mul
    rw [Nat.mul_comm schedule.duration.toNat]
    exact Nat.mul_le_mul_left _ (not_le.mp ended).le

/-- More time never unvests. -/
theorem vested_mono (schedule : Schedule) (ordered : early ≤ late) :
    (schedule.vested early).val ≤ (schedule.vested late).val := by
  have times : early.toNat ≤ late.toNat := ordered
  by_cases timed : schedule.duration = 0
  · rw [vested_of_untimed timed, vested_of_untimed timed]
  by_cases cliff : early.toNat < schedule.cliffEnd
  · rw [vested_of_early timed cliff]
    exact Nat.zero_le _
  have passed : ¬ late.toNat < schedule.cliffEnd := by
    omega
  by_cases ended : schedule.duration.toNat ≤ late.toNat - schedule.start.toNat
  · rw [vested_of_late timed passed ended]
    exact schedule.vested_le early
  · have running : ¬ schedule.duration.toNat ≤ early.toNat - schedule.start.toNat := by
      omega
    rw [vested_val_of_between timed cliff running, vested_val_of_between timed passed ended]
    have elapsed : early.toNat - schedule.start.toNat ≤ late.toNat - schedule.start.toNat := by
      omega
    have product := Nat.mul_le_mul_left schedule.total.val elapsed
    exact Nat.div_le_div_right (by omega)

/-! ### Where the computation is on the line -/

/-- A schedule without a duration has started, the running product survives its cut, and at the
last time the clock can show, nothing is paid before the cliff. -/
def OnLine (total start cliff duration now : Nat) : Prop :=
  (0 < duration ∨ start ≤ now) ∧
    (start + cliff ≤ now → now < start + duration →
      total * (now - start) < duration * (U128.largest / duration + 1)) ∧
    (now = 2 ^ 64 - 1 → now < start + cliff → total * (now - start) < duration)

instance {total start cliff duration now : Nat} :
    Decidable (OnLine total start cliff duration now) :=
  inferInstanceAs (Decidable (_ ∧ _))

/-- Without a duration, the total is vested before the start. -/
theorem untimed_iff {total start now : Nat} (positive : total ≠ 0) :
    total = line total start 0 0 now ↔ start ≤ now := by
  unfold line
  rw [Nat.add_zero]
  by_cases started : now < start
  · rw [if_pos started]
    omega
  · rw [if_neg started, if_neg started]
    exact ⟨fun _ => not_lt.mp started, fun _ => rfl⟩

/-- On the running line the cut must not be seen. -/
theorem running_iff {total start cliff duration now : Nat} (positive : 0 < duration)
    (passed : start + cliff ≤ now) (running : now < start + duration) :
    min (total * (now - start)) U128.largest / duration = line total start cliff duration now ↔
      total * (now - start) < duration * (U128.largest / duration + 1) := by
  unfold line
  rw [if_neg (not_lt.mpr passed), if_pos running]
  exact Capped.min_div_eq_iff positive

/-- Before the cliff nothing may be paid. -/
theorem cliff_iff {total start cliff duration now : Nat} (positive : 0 < duration)
    (short : duration ≤ U128.largest) (early : now < start + cliff) :
    min (total * (now - start)) U128.largest / duration = line total start cliff duration now ↔
      total * (now - start) < duration := by
  unfold line
  rw [if_pos early, Nat.div_eq_zero_iff]
  omega

theorem vested_eq_line_iff (schedule : Schedule) (now : UInt64) (positive : schedule.total ≠ 0)
    (ordered : schedule.cliff ≤ schedule.duration) :
    (schedule.vested now).val = line schedule.total.val schedule.start.toNat schedule.cliff.toNat
        schedule.duration.toNat now.toNat ↔
      OnLine schedule.total.val schedule.start.toNat schedule.cliff.toNat
        schedule.duration.toNat now.toNat := by
  have cliffs : schedule.cliff.toNat ≤ schedule.duration.toNat := ordered
  have clock := now.toNat_lt
  have begun := schedule.start.toNat_lt
  have span := schedule.duration.toNat_lt
  have positive := U128.pos_iff.mp positive
  unfold OnLine
  by_cases timed : schedule.duration = 0
  · rw [vested_of_untimed timed]
    have none : schedule.duration.toNat = 0 := by
      rw [timed]
      rfl
    rw [none] at cliffs ⊢
    rw [Nat.le_zero.mp cliffs, untimed_iff positive.ne']
    omega
  have lasting := duration_pos timed
  have capped : schedule.cliffEnd =
    min (schedule.start.toNat + schedule.cliff.toNat) (2 ^ 64 - 1) := rfl
  by_cases early : now.toNat < schedule.cliffEnd
  · rw [vested_of_early timed early]
    unfold line
    rw [if_pos (by omega)]
    constructor
    · intro _
      refine ⟨.inl lasting, ?_, ?_⟩
      · omega
      · omega
    · intro _
      rfl
  by_cases ended : schedule.duration.toNat ≤ now.toNat - schedule.start.toNat
  · rw [vested_of_late timed early ended]
    unfold line
    rw [if_neg (by omega), if_neg (by omega)]
    constructor
    · intro _
      refine ⟨.inl lasting, ?_, ?_⟩
      · omega
      · omega
    · intro _
      rfl
  rw [vested_val_of_between timed early ended]
  by_cases passed : schedule.start.toNat + schedule.cliff.toNat ≤ now.toNat
  · rw [running_iff lasting passed (by omega)]
    constructor
    · intro fits
      exact ⟨.inl lasting, fun _ _ => fits, by omega⟩
    · rintro ⟨_, fits, _⟩
      exact fits passed (by omega)
  · have last : now.toNat = 2 ^ 64 - 1 := by
      omega
    have short : schedule.duration.toNat ≤ U128.largest := by
      unfold U128.largest
      omega
    rw [cliff_iff lasting short (not_le.mp passed)]
    constructor
    · intro little
      exact ⟨.inl lasting, fun reached => absurd reached passed, fun _ _ => little⟩
    · rintro ⟨_, _, little⟩
      exact little last (not_le.mp passed)

end Schedule

namespace VestingPrism

open PrismM

section Created

variable [SerdeJson] [Blake3] {state after : StateTree} {command : Command} {output : PrismOutput}
  {tokenId : Hash} {beneficiary : PartyId} {total : U128} {start cliff duration : UInt64}
  {revocable : Bool}

/-- The schedule that Create stores. -/
def createdSchedule (caller : PartyId) (tokenId : Hash) (beneficiary : PartyId) (total : U128)
    (start cliff duration : UInt64) (revocable : Bool) : Schedule :=
  { id := createdId caller beneficiary tokenId start total
    tokenId := tokenId
    funder := caller
    beneficiary := beneficiary
    total := total
    released := 0
    start := start
    cliff := cliff
    duration := duration
    revocable := revocable
    revoked := false }

theorem accepts_created (accepted : Accepts (create command tokenId beneficiary total start cliff
    duration revocable) state output after) :
    total ≠ 0 ∧ cliff ≤ duration ∧
      state.get (key (createdId command.submitter beneficiary tokenId start total)) = none ∧
      after = (TokenPrism.debited state tokenId command.submitter total).putJson
        (key (createdId command.submitter beneficiary tokenId start total))
        (createdSchedule command.submitter tokenId beneficiary total start cliff duration
          revocable) := by
  simp only [create, accepts_bind, accepts_get, accepts_ite, accepts_throw, accepts_modify,
    accepts_pure, TokenPrism.accepts_debit] at accepted
  rcases accepted with ⟨_, _, _, impossible, _⟩ | ⟨positive, ⟨_, _, _, impossible, _⟩ | ⟨ordered,
    _, _, ⟨rfl, rfl⟩, ⟨_, _, _, impossible, _⟩ | ⟨absent, _, _, ⟨_, rfl⟩, _, _, rfl, _, rfl⟩⟩⟩
  · cases impossible
  · cases impossible
  · cases impossible
  · rw [StateTree.contains_eq_isSome, Bool.not_eq_true, Option.isSome_eq_false_iff,
      Option.isNone_iff_eq_none] at absent
    exact ⟨positive, UInt64.not_lt.mp ordered, absent, rfl⟩

/-- An accepted schedule follows its line exactly where the computation can. -/
theorem vested_iff (accepted : Accepts (create command tokenId beneficiary total start cliff
    duration revocable) state output after) :
    ∃ schedule : Schedule,
      after.getJson Schedule (key (createdId command.submitter beneficiary tokenId start total)) =
        .ok (some schedule) ∧
      ∀ now : UInt64, (schedule.vested now).val =
          Schedule.line total.val start.toNat cliff.toNat duration.toNat now.toNat ↔
        Schedule.OnLine total.val start.toNat cliff.toNat duration.toNat now.toNat := by
  obtain ⟨positive, ordered, _, rfl⟩ := accepts_created accepted
  exact ⟨_, StateTree.getJson_putJson _ _ _, fun now =>
    Schedule.vested_eq_line_iff _ now positive ordered⟩

end Created

section Fixed

attribute [local instance] SerdeJson.compact Blake3.polynomial

/-- An account that holds a quadrillion tokens of 18 decimals. -/
def foundation : StateTree :=
  TokenPrism.withBalance .empty .zero ⟨"alice"⟩ 1000000000000000000000000000000000

/-- Four years, paid to Bob from the start. -/
def grant (total : U128) : Command :=
  { prism := "vesting"
    submitter := ⟨"alice"⟩
    visibility := .pub
    payload := toVec (VestingCommand.create .zero ⟨"bob"⟩ total 1700000000 0 126144000 false)
    nonce := 0 }

theorem accepts_grant (total : U128) (positive : total ≠ 0)
    (enough : total ≤ 1000000000000000000000000000000000) :
    ∃ output after, Accepts (create (grant total) .zero ⟨"bob"⟩ total 1700000000 0 126144000 false)
      foundation output after := by
  have held : total ≤ TokenPrism.balance foundation .zero (grant total).submitter := by
    unfold foundation
    rw [show (grant total).submitter = ⟨"alice"⟩ from rfl, TokenPrism.balance_withBalance_self]
    exact enough
  have absent : foundation.get (key (createdId (grant total).submitter ⟨"bob"⟩ .zero 1700000000
      total)) = none :=
    TokenPrism.get_head_withBalance .empty _ (by decide) _ _ _
  have ordered : ¬ (126144000 : UInt64) < 0 := by
    decide
  obtain ⟨output, accepted⟩ := Positions.create_accepted (grant total) positive ordered absent held
  exact ⟨output, _, accepted⟩

/-- Halfway through the four years, a quarter of a percent of the tokens is vested. -/
theorem halfway_cut :
    ∃ output after schedule, Accepts (create (grant 1000000000000000000000000000000000) .zero
        ⟨"bob"⟩ 1000000000000000000000000000000000 1700000000 0 126144000 false) foundation output
        after ∧
      after.getJson Schedule (key (createdId ⟨"alice"⟩ ⟨"bob"⟩ .zero 1700000000
        1000000000000000000000000000000000)) = .ok (some schedule) ∧
      (schedule.vested 1763072000).val ≠ Schedule.line 1000000000000000000000000000000000
        1700000000 0 126144000 1763072000 := by
  obtain ⟨output, after, accepted⟩ := accepts_grant 1000000000000000000000000000000000
    (by decide) (by decide)
  obtain ⟨_, _, _, rfl⟩ := accepts_created accepted
  exact ⟨output, _, _, accepted, StateTree.getJson_putJson _ _ _, by decide +kernel⟩

/-- The theorem at a thousand units: all of its times are on the line. -/
theorem vested_iff_thousand :
    ∃ (after : StateTree) (schedule : Schedule),
      after.getJson Schedule (key (createdId ⟨"alice"⟩ ⟨"bob"⟩ .zero 1700000000 1000)) =
        .ok (some schedule) ∧
      (schedule.vested 1763072000).val = Schedule.line 1000 1700000000 0 126144000 1763072000 := by
  obtain ⟨output, after, accepted⟩ := accepts_grant 1000 (by decide) (by decide)
  obtain ⟨schedule, stored, follows⟩ := vested_iff accepted
  exact ⟨after, schedule, stored, (follows 1763072000).mpr (by decide +kernel)⟩

end Fixed

end VestingPrism

end Veilux
