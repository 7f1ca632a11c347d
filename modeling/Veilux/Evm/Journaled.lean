/-
Hosts with a journal, and what frames do to the world behind one.

A relation between worlds that each write of a host is in is kept by whole frames:
what a nested frame did is either kept or reverted to the world before it.
-/

import Veilux.Evm.Frames
import Veilux.Lib.Journal

namespace Veilux

namespace Evm

/-- A host whose snapshots are those of a journal. -/
class Journaled (H : Type) [Host H] (W : outParam Type) where
  store : Journaling H W
  faithful : store.Faithful
  snapshot_eq : store.snapshot = Host.snapshot
  revert_eq : store.revert = Host.revert
  commit_eq : store.commit = Host.commitSnapshot
  sstore_saved : ∀ host address key value,
    (store.journal (Host.sstore host address key value)).saved = (store.journal host).saved
  setCode_saved : ∀ host address code,
    (store.journal (Host.setCode host address code)).saved = (store.journal host).saved
  bumpNonce_saved : ∀ host address,
    (store.journal (Host.bumpNonce host address)).saved = (store.journal host).saved
  transfer_saved : ∀ host source target value,
    (store.journal (Host.transfer host source target value).2).saved = (store.journal host).saved

section Journal

variable {H W : Type} [Host H] [Journaled H W]

def journal (host : H) : Journal W := Journaled.store.journal host

def world (host : H) : W := (journal host).world

def saved (host : H) : List W := (journal host).saved

@[simp] theorem journal_snapshot (host : H) :
    journal (Host.snapshot host).2 = (journal host).snapshot.2 := by
  have taken := Journaled.faithful.snapshot host
  rw [Journaled.snapshot_eq] at taken
  exact taken

theorem snapshot_name (host : H) : (Host.snapshot host).1 = (journal host).snapshot.1 := by
  have named := Journaled.faithful.snapshot_name host
  rw [Journaled.snapshot_eq] at named
  exact named

@[simp] theorem world_snapshot (host : H) : world (Host.snapshot host).2 = world host := by
  unfold world
  rw [journal_snapshot]
  rfl

omit [Journaled H W] in
theorem snapshot_positive {V : Type} [Journaled H V] (host : H) : 1 ≤ (Host.snapshot host).1 := by
  rw [snapshot_name]
  exact Nat.le_add_left 1 _

/-- Reverting gives back the world and the stack from before the snapshot. -/
theorem journal_revert {before after : H} (kept : saved after = saved (Host.snapshot before).2) :
    journal (Host.revert after (Host.snapshot before).1) = journal before := by
  have reverted := Journaled.faithful.revert after _ (snapshot_positive before)
  rw [Journaled.revert_eq] at reverted
  refine reverted.trans ?_
  rw [snapshot_name]
  apply Journal.revert_snapshot
  unfold saved at kept
  rw [journal_snapshot] at kept
  exact kept

/-- Committing drops what was saved, and keeps the world. -/
theorem journal_commit {before after : H} (kept : saved after = saved (Host.snapshot before).2) :
    journal (Host.commitSnapshot after (Host.snapshot before).1) =
      ⟨world after, saved before⟩ := by
  have committed := Journaled.faithful.commit after _ (snapshot_positive before)
  rw [Journaled.commit_eq] at committed
  refine committed.trans ?_
  rw [snapshot_name]
  apply Journal.commit_snapshot
  unfold saved at kept
  rw [journal_snapshot] at kept
  exact kept

theorem saved_paid (kind : CallKind) (args : CallArgs) (vm : Interpreter H) :
    saved (paidHost kind args vm) = saved (Host.snapshot vm.host).2 := by
  unfold paidHost
  split
  · exact Journaled.transfer_saved _ _ _ _
  · rfl

theorem saved_endowed (args : CreateArgs) (address : U256) (vm : Interpreter H) :
    saved (endowedHost args address vm) = saved (Host.snapshot (bumpedHost vm)).2 := by
  unfold endowedHost
  split
  · rfl
  · exact Journaled.transfer_saved _ _ _ _

end Journal

/-! ### Worlds -/

section Worlds

variable {H W : Type} [Host H] [Journaled H W]

/-- A relation between worlds, one for static frames and one for the others, that every
write is in.  Code may be set where it is allowed. -/
structure Respects (R : Bool → W → W → Prop) (Allowed : H → U256 → List UInt8 → Prop) : Prop where
  refl : ∀ static state, R static state state
  trans : ∀ {static first second third}, R static first second → R static second third →
    R static first third
  weaken : ∀ {first second}, R true first second → R false first second
  sstore : ∀ (host : H) address key value,
    R false (world host) (world (Host.sstore host address key value))
  bumpNonce : ∀ (host : H) address, R false (world host) (world (Host.bumpNonce host address))
  transfer : ∀ (host : H) source target value, (Host.balance host source).lt value = false →
    R false (world host) (world (Host.transfer host source target value).2)
  setCode : ∀ (host : H) address code, Allowed host address code →
    R false (world host) (world (Host.setCode host address code))

/-- The same with code running at some addresses only, in worlds that are sound. -/
structure Confines (Sound : W → Prop) (Runs : U256 → Prop) (R : Bool → W → W → Prop)
    (Allowed : H → U256 → List UInt8 → Prop) : Prop where
  refl : ∀ static state, R static state state
  trans : ∀ {static first second third}, R static first second → R static second third →
    R static first third
  weaken : ∀ {first second}, R true first second → R false first second
  sound : ∀ {static first second}, R static first second → Sound first → Sound second
  sstore : ∀ (host : H) address key value, Runs address →
    R false (world host) (world (Host.sstore host address key value))
  bumpNonce : ∀ (host : H) address, Runs address →
    R false (world host) (world (Host.bumpNonce host address))
  transfer : ∀ (host : H) source target value, Runs source →
    (Host.balance host source).lt value = false →
    R false (world host) (world (Host.transfer host source target value).2)
  setCode : ∀ (host : H) address code, Runs address → Allowed host address code →
    R false (world host) (world (Host.setCode host address code))

theorem Respects.confines {R : Bool → W → W → Prop}
    {Allowed : H → U256 → List UInt8 → Prop} (respects : Respects R Allowed) :
    Confines (fun _ => True) (fun _ => True) R Allowed where
  refl := respects.refl
  trans := respects.trans
  weaken := respects.weaken
  sound _ _ := trivial
  sstore host address key value _ := respects.sstore host address key value
  bumpNonce host address _ := respects.bumpNonce host address
  transfer host source target value _ := respects.transfer host source target value
  setCode host address code _ := respects.setCode host address code

/-- What a frame leaves of the world, of the stack of snapshots and of its logs. -/
structure Leaves (R : Bool → W → W → Prop) (frame : Frame H)
    (left : Except Fault ExecOutcome × H) : Prop where
  world : R frame.isStatic (world frame.host) (world left.2)
  saved : ∀ outcome, left.1 = .ok outcome → saved left.2 = saved frame.host
  silent : frame.isStatic = true → ∀ outcome, left.1 = .ok outcome → outcome.logs = []

/-- The same of a state on the way. -/
structure Holds (R : Bool → W → W → Prop) (frame : Frame H) (vm : Interpreter H) : Prop where
  static : vm.isStatic = frame.isStatic
  world : R frame.isStatic (world frame.host) (world vm.host)
  saved : saved vm.host = saved frame.host
  silent : frame.isStatic = true → vm.logs = []

/-- The same, with the context of the frame. -/
structure Confined (R : Bool → W → W → Prop) (frame : Frame H) (vm : Interpreter H) : Prop
    extends Holds R frame vm where
  ctx : vm.ctx = frame.ctx

/-- A frame on a sound world, at an address where code runs. -/
structure Admitted (Sound : W → Prop) (Runs : U256 → Prop) (frame : Frame H) : Prop where
  sound : Sound (world frame.host)
  runs : Runs frame.ctx.address

variable {Sound : W → Prop} {Runs : U256 → Prop} {R : Bool → W → W → Prop}
variable {Allowed : H → U256 → List UInt8 → Prop}

theorem Confined.onward {frame : Frame H} {vm after : Interpreter H} (holds : Confined R frame vm)
    (passed : Passes vm after) : Confined R frame after where
  static := passed.isStatic.trans holds.static
  world := passed.host ▸ holds.world
  saved := passed.host ▸ holds.saved
  silent static := passed.logs.trans (holds.silent static)
  ctx := passed.ctx.trans holds.ctx

/-- The code of a frame runs where its context says. -/
theorem Confined.running {frame : Frame H} {vm : Interpreter H} (holds : Confined R frame vm)
    (admitted : Admitted Sound Runs frame) : Runs vm.ctx.address := by
  rw [holds.ctx]
  exact admitted.runs

/-- A state whose host was replaced, in a frame that may write. -/
theorem Confined.write (confines : Confines Sound Runs R Allowed) {frame : Frame H}
    {vm : Interpreter H} (holds : Confined R frame vm) (free : vm.isStatic = false) {host : H}
    (moved : R false (Evm.world vm.host) (Evm.world host))
    (kept : Evm.saved host = Evm.saved vm.host) : Confined R frame { vm with host := host } where
  static := holds.static
  world := by
    have plain : frame.isStatic = false := holds.static.symm.trans free
    have before := holds.world
    rw [plain] at before ⊢
    exact confines.trans before moved
  saved := kept.trans holds.saved
  silent := holds.silent
  ctx := holds.ctx

theorem leaves_error {frame : Frame H} {fault : Fault} {host : H}
    (moved : R frame.isStatic (Evm.world frame.host) (Evm.world host)) :
    Leaves R frame (.error fault, host) :=
  ⟨moved, nofun, fun _ => nofun⟩

theorem ends_error {frame : Frame H} {fault : Fault} {after : Interpreter H} {host : H}
    (held : after.host = host)
    (moved : R frame.isStatic (Evm.world frame.host) (Evm.world host)) :
    Ends (Leaves R) (Confined R) frame (.error fault) after := by
  change Leaves R frame (.error fault, after.host)
  rw [held]
  exact leaves_error moved

theorem Confined.moves (confines : Confines Sound Runs R Allowed) {frame : Frame H}
    {vm : Interpreter H} (holds : Confined R frame vm) {host : H}
    (moved : R vm.isStatic (Evm.world vm.host) (Evm.world host)) :
    R frame.isStatic (Evm.world frame.host) (Evm.world host) := by
  rw [holds.static] at moved
  exact confines.trans holds.world moved

/-- The end of a call or creation whose host is settled. -/
theorem Confined.settles (confines : Confines Sound Runs R Allowed) {frame : Frame H}
    {vm after : Interpreter H} (holds : Confined R frame vm) {host : H} {logs : List Log} {value : U256}
    {result : Except Fault Unit}
    (moved : R vm.isStatic (Evm.world vm.host) (Evm.world host))
    (kept : Evm.saved host = Evm.saved vm.host) (silent : vm.isStatic = true → logs = [])
    (settles : Settles vm host logs value result after) :
    Ends (Leaves R) (Confined R) frame result after := by
  have settled : Confined R frame { vm with host := host, logs := logs } :=
    { ctx := holds.ctx
      static := holds.static
      world := holds.moves confines moved
      saved := kept.trans holds.saved
      silent := fun static => silent (holds.static.trans static) }
  cases result with
  | ok done => exact settled.onward settles.led
  | error fault =>
      have broke : Breaks fault { vm with host := host, logs := logs } after := settles.led
      exact ends_error broke.host settled.world

/-- The value a call moves. -/
theorem Confines.paid (confines : Confines Sound Runs R Allowed) {kind : CallKind} {args : CallArgs}
    {vm mid : Interpreter H} (runs : Runs vm.ctx.address)
    (taken : (callArgs kind).run.run vm = (.ok args, mid)) (solvent : ¬ Poor kind args mid) :
    R vm.isStatic (Evm.world vm.host) (Evm.world (paidHost kind args mid)) := by
  have passed := (handling.callArgs kind).ran_ok taken
  unfold paidHost
  by_cases valued : kind = .call ∧ ¬ args.value.isZero
  · have free : vm.isStatic = false := by
      rw [Bool.eq_false_iff]
      intro static
      exact valued.2 (callArgs_static taken static)
    have enough : (Host.balance (Host.snapshot mid.host).2 mid.ctx.address).lt args.value =
        false := by
      rw [Bool.eq_false_iff]
      intro short
      exact solvent ⟨valued, short⟩
    rw [← passed.ctx] at runs
    have moved := confines.transfer _ mid.ctx.address args.target args.value runs enough
    rw [world_snapshot, passed.host] at moved
    rw [if_pos valued, free, passed.host]
    exact moved
  · rw [if_neg valued, world_snapshot, passed.host]
    exact confines.refl _ _

/-- A frame that is entered is static when the one that enters it is. -/
theorem Confines.inner (confines : Confines Sound Runs R Allowed) {kind : CallKind} {args : CallArgs}
    {vm mid : Interpreter H} {host : H} (runs : Runs vm.ctx.address)
    (taken : (callArgs kind).run.run vm = (.ok args, mid)) (enters : CallEnters kind args mid)
    (moved : R (enteredFrame kind args mid).isStatic
      (Evm.world (enteredFrame kind args mid).host) (Evm.world host)) :
    R vm.isStatic (Evm.world vm.host) (Evm.world host) := by
  have paid := confines.paid runs taken enters.solvent
  have passed := (handling.callArgs kind).ran_ok taken
  refine confines.trans paid ?_
  have flag : (enteredFrame kind args mid).isStatic =
      (vm.isStatic || decide (kind = .staticCall)) := by
    rw [← passed.isStatic]
    rfl
  rw [flag] at moved
  cases static : vm.isStatic with
  | true =>
      rw [static] at moved
      exact moved
  | false =>
      rw [static, Bool.false_or] at moved
      cases special : decide (kind = .staticCall) with
      | true =>
          rw [special] at moved
          exact confines.weaken moved
      | false =>
          rw [special] at moved
          exact moved

variable [Keccak256] [Secp256k1] [Sha256] [Ripemd160] [Bn254]

theorem journal_resolved {kind : CallKind} {args : CallArgs}
    {vm : Interpreter H} {host : H} {value : U256}
    (resolved : Resolved kind args vm host value) :
    journal host = journal vm.host ∨
      (¬ Poor kind args vm ∧ value = .one ∧
        journal host = ⟨world (paidHost kind args vm), saved vm.host⟩) := by
  cases resolved with
  | deep limit => exact .inl rfl
  | poor short => exact .inl (journal_revert rfl)
  | precompiled solvent special executed =>
      exact .inr ⟨solvent, rfl, journal_commit (saved_paid kind args vm)⟩
  | rejected solvent special executed => exact .inl (journal_revert (saved_paid kind args vm))
  | bare solvent empty => exact .inr ⟨solvent, rfl, journal_commit (saved_paid kind args vm)⟩

/-- Code set at the end of a creation. -/
structure Deployment (sub : Executor H) (vm : Interpreter H) (salted : Bool) (host : H)
    (address : U256) (code : List UInt8) : Prop where
  intro ::
  found : ∃ args mid outcome, (createArgs salted).run.run vm = (.ok args, mid) ∧
    CreateEnters args mid ∧ sub (initFrame args mid) = (.ok outcome, host) ∧ Deploys outcome ∧
      ¬ mid.gasLimit < saturatingAdd mid.gas outcome.gasUsed ∧
      address = newAddress args mid ∧ code = outcome.returnData

/-- Every creation of an instruction sets code where it is allowed. -/
def Admissible (Allowed : H → U256 → List UInt8 → Prop) (sub : Executor H) (vm : Interpreter H)
    (op : Opcode) : Prop :=
  ∀ salted host address code, op = .create salted →
    Deployment sub vm salted host address code → Allowed host address code

omit [Secp256k1] [Sha256] [Ripemd160] [Bn254] in
/-- The endowment of a creation, with the nonce before it. -/
theorem Confines.endowed (confines : Confines Sound Runs R Allowed) {args : CreateArgs}
    {vm : Interpreter H} (runs : Runs vm.ctx.address) (funded : ¬ Unfunded args vm) :
    R false (Evm.world vm.host) (Evm.world (endowedHost args (newAddress args vm) vm)) := by
  have bumped : R false (Evm.world vm.host) (Evm.world (Host.snapshot (bumpedHost vm)).2) := by
    rw [world_snapshot]
    exact confines.bumpNonce vm.host vm.ctx.address runs
  unfold endowedHost
  by_cases none : args.value.isZero = true
  · rw [if_pos none]
    exact bumped
  · rw [if_neg none]
    refine confines.trans bumped (confines.transfer _ _ _ _ runs ?_)
    rw [Bool.eq_false_iff]
    intro short
    exact funded ⟨none, short⟩

omit [Keccak256] [Secp256k1] [Sha256] [Ripemd160] [Bn254] in
/-- The world a state has come to is sound. -/
theorem Confined.soundly (confines : Confines Sound Runs R Allowed) {frame : Frame H}
    {vm : Interpreter H} (holds : Confined R frame vm) (admitted : Admitted Sound Runs frame) :
    Sound (Evm.world vm.host) :=
  confines.sound holds.world admitted.sound

omit [Secp256k1] [Sha256] [Ripemd160] [Bn254] in
/-- Frames are entered where code may run, and code is set where it is allowed. -/
structure Admits (Sound : W → Prop) (Runs : U256 → Prop) (Allowed : H → U256 → List UInt8 → Prop)
    (sub : Executor H) (vm : Interpreter H) (op : Opcode) : Prop where
  enters : ∀ inner, Enters vm op inner → Sound (Evm.world inner.host) → Runs vm.ctx.address →
    Runs inner.ctx.address
  deploys : Admissible Allowed sub vm op

omit [Secp256k1] [Sha256] [Ripemd160] [Bn254] in
theorem Confined.admitsCall (confines : Confines Sound Runs R Allowed) {frame : Frame H}
    {vm mid : Interpreter H} {sub : Executor H} {kind : CallKind} {args : CallArgs}
    (holds : Confined R frame vm) (admitted : Admitted Sound Runs frame)
    (admits : Admits Sound Runs Allowed sub vm (.call kind))
    (taken : (callArgs kind).run.run vm = (.ok args, mid)) (enters : CallEnters kind args mid) :
    Admitted Sound Runs (enteredFrame kind args mid) := by
  have running := holds.running admitted
  have sound : Sound (Evm.world (paidHost kind args mid)) :=
    confines.sound (confines.paid running taken enters.solvent) (holds.soundly confines admitted)
  exact ⟨sound, admits.enters _ (.call taken enters) sound running⟩

omit [Keccak256] [Secp256k1] [Sha256] [Ripemd160] [Bn254] in
theorem Confined.runsStill {frame : Frame H} {vm mid : Interpreter H} {salted : Bool}
    {args : CreateArgs} (holds : Confined R frame vm) (admitted : Admitted Sound Runs frame)
    (taken : (createArgs salted).run.run vm = (.ok args, mid)) : Runs mid.ctx.address := by
  rw [((handling.createArgs salted).ran_ok taken).ctx]
  exact holds.running admitted

omit [Secp256k1] [Sha256] [Ripemd160] [Bn254] in
theorem Confined.admitsCreate (confines : Confines Sound Runs R Allowed) {frame : Frame H}
    {vm mid : Interpreter H} {sub : Executor H} {salted : Bool} {args : CreateArgs}
    (holds : Confined R frame vm) (admitted : Admitted Sound Runs frame)
    (admits : Admits Sound Runs Allowed sub vm (.create salted))
    (taken : (createArgs salted).run.run vm = (.ok args, mid)) (enters : CreateEnters args mid) :
    Admitted Sound Runs (initFrame args mid) := by
  have before := holds.soundly confines admitted
  rw [← ((handling.createArgs salted).ran_ok taken).host] at before
  have sound : Sound (Evm.world (initFrame args mid).host) :=
    confines.sound (confines.endowed (holds.runsStill admitted taken) enters.funded) before
  exact ⟨sound, admits.enters _ (.create taken enters) sound (holds.running admitted)⟩

/-- What a call leaves. -/
theorem Confined.called (confines : Confines Sound Runs R Allowed) {frame : Frame H}
    {vm after : Interpreter H} {sub : Executor H} {kind : CallKind} {result : Except Fault Unit}
    (holds : Confined R frame vm) (admitted : Admitted Sound Runs frame)
    (admits : Admits Sound Runs Allowed sub vm (.call kind))
    (inner : ∀ inner, Enters vm (.call kind) inner → Admitted Sound Runs inner →
      Leaves R inner (sub inner))
    (turn : CallTurn sub kind vm result after) :
    Ends (Leaves R) (Confined R) frame result after := by
  have entering {args : CallArgs} {mid : Interpreter H}
      (taken : (callArgs kind).run.run vm = (.ok args, mid)) (enters : CallEnters kind args mid) :
      Admitted Sound Runs (enteredFrame kind args mid) :=
    holds.admitsCall confines admitted admits taken enters
  have running := holds.running admitted
  cases turn with
  | broken broke =>
      exact ends_error broke.host holds.world
  | settled taken resolved settles =>
      have passed := (handling.callArgs kind).ran_ok taken
      have silent (static : vm.isStatic = true) : vm.logs = [] :=
        holds.silent (holds.static.symm.trans static)
      rcases journal_resolved resolved with same | ⟨solvent, -, committed⟩
      · rw [passed.host] at same
        have worlds := congrArg (·.world) same
        refine holds.settles confines ?_ (congrArg (·.saved) same) silent settles
        change R vm.isStatic (Evm.world vm.host) (journal _).world
        rw [worlds]
        exact confines.refl _ _
      · rw [passed.host] at committed
        refine holds.settles confines ?_ (congrArg (·.saved) committed) silent settles
        change R vm.isStatic (Evm.world vm.host) (journal _).world
        rw [committed]
        exact confines.paid running taken solvent
  | costly taken solvent broke =>
      exact ends_error broke.host (holds.moves confines (confines.paid running taken solvent))
  | aborted taken enters ran left =>
      have entered := (inner _ (.call taken enters) (entering taken enters)).world
      rw [ran] at entered
      exact ends_error left.host (holds.moves confines (confines.inner running taken enters entered))
  | exhausted taken enters ran broke =>
      have entered := (inner _ (.call taken enters) (entering taken enters)).world
      rw [ran] at entered
      exact ends_error broke.host (holds.moves confines (confines.inner running taken enters entered))
  | @returned args mid _ outcome host _ taken enters ran settles =>
      have passed := (handling.callArgs kind).ran_ok taken
      have entered := inner _ (.call taken enters) (entering taken enters)
      rw [ran] at entered
      have stack : Evm.saved host = Evm.saved (Host.snapshot mid.host).2 :=
        (entered.saved outcome rfl).trans (saved_paid kind args mid)
      have moved := confines.inner running taken enters entered.world
      have silentBefore (static : vm.isStatic = true) : vm.logs = [] :=
        holds.silent (holds.static.symm.trans static)
      cases success : outcome.success with
      | true =>
          have committed := journal_commit stack
          rw [passed.host] at committed
          rw [success] at settles
          unfold settledHost at settles
          rw [if_pos rfl, if_pos rfl, passed.host] at settles
          refine holds.settles confines ?_ (congrArg (·.saved) committed) ?_ settles
          · change R vm.isStatic (Evm.world vm.host) (journal _).world
            rw [committed]
            exact moved
          · intro static
            have flag : (enteredFrame kind args mid).isStatic = true := by
              change (mid.isStatic || decide (kind = .staticCall)) = true
              rw [passed.isStatic, static]
              rfl
            rw [silentBefore static, entered.silent flag outcome rfl]
            rfl
      | false =>
          have reverted := journal_revert stack
          rw [passed.host] at reverted
          rw [success] at settles
          unfold settledHost at settles
          rw [if_neg Bool.false_ne_true, if_neg Bool.false_ne_true, passed.host] at settles
          refine holds.settles confines ?_ (congrArg (·.saved) reverted) silentBefore settles
          change R vm.isStatic (Evm.world vm.host) (journal _).world
          rw [reverted]
          exact confines.refl _ _

omit [Secp256k1] [Sha256] [Ripemd160] [Bn254] in
theorem Confined.created (confines : Confines Sound Runs R Allowed) {frame : Frame H}
    {vm after : Interpreter H} {sub : Executor H} {salted : Bool} {result : Except Fault Unit}
    (holds : Confined R frame vm) (admitted : Admitted Sound Runs frame)
    (admits : Admits Sound Runs Allowed sub vm (.create salted))
    (inner : ∀ inner, Enters vm (.create salted) inner → Admitted Sound Runs inner →
      Leaves R inner (sub inner))
    (turn : CreateTurn sub salted vm result after) :
    Ends (Leaves R) (Confined R) frame result after := by
  have running {args : CreateArgs} {mid : Interpreter H}
      (taken : (createArgs salted).run.run vm = (.ok args, mid)) : Runs mid.ctx.address :=
    holds.runsStill admitted taken
  have entering {args : CreateArgs} {mid : Interpreter H}
      (taken : (createArgs salted).run.run vm = (.ok args, mid)) (enters : CreateEnters args mid) :
      Admitted Sound Runs (initFrame args mid) :=
    holds.admitsCreate confines admitted admits taken enters
  have silent {args : CreateArgs} {mid : Interpreter H} (logs : List Log)
      (taken : (createArgs salted).run.run vm = (.ok args, mid)) (static : vm.isStatic = true) :
      logs = [] := by
    rw [createArgs_static taken] at static
    cases static
  have free {args : CreateArgs} {mid : Interpreter H} {host : H}
      (taken : (createArgs salted).run.run vm = (.ok args, mid))
      (moved : R false (Evm.world mid.host) (Evm.world host)) :
      R vm.isStatic (Evm.world vm.host) (Evm.world host) := by
    rw [createArgs_static taken, ← ((handling.createArgs salted).ran_ok taken).host]
    exact moved
  have entered {args : CreateArgs} {mid : Interpreter H} {host : H}
      {left : Except Fault ExecOutcome}
      (taken : (createArgs salted).run.run vm = (.ok args, mid)) (enters : CreateEnters args mid)
      (ran : sub (initFrame args mid) = (left, host)) :
      R false (Evm.world mid.host) (Evm.world host) := by
    have inside := (inner _ (.create taken enters) (entering taken enters)).world
    rw [ran] at inside
    exact confines.trans (confines.endowed (running taken) enters.funded) inside
  have stacked {args : CreateArgs} {mid : Interpreter H} {host : H} {outcome : ExecOutcome}
      (taken : (createArgs salted).run.run vm = (.ok args, mid)) (enters : CreateEnters args mid)
      (ran : sub (initFrame args mid) = (.ok outcome, host)) :
      Evm.saved host = Evm.saved (Host.snapshot (bumpedHost mid)).2 := by
    have inside := inner _ (.create taken enters) (entering taken enters)
    rw [ran] at inside
    exact (inside.saved outcome rfl).trans (saved_endowed args (newAddress args mid) mid)
  have bumped (mid : Interpreter H) (passed : Passes vm mid) :
      Evm.saved (bumpedHost mid) = Evm.saved vm.host := by
    rw [← passed.host]
    exact Journaled.bumpNonce_saved mid.host mid.ctx.address
  cases turn with
  | broken broke => exact ends_error broke.host holds.world
  | deep taken limit settles =>
      exact holds.settles confines (confines.refl _ _) rfl (silent _ taken) settles
  | @poor args mid _ _ taken short settles =>
      have passed := (handling.createArgs salted).ran_ok taken
      have stack : Evm.saved (Host.snapshot (bumpedHost mid)).2 =
          Evm.saved (Host.snapshot (bumpedHost mid)).2 := rfl
      have reverted := journal_revert stack
      refine holds.settles confines (free taken ?_) ?_ (silent _ taken) settles
      · change R false (Evm.world mid.host) (journal _).world
        rw [reverted]
        exact confines.bumpNonce mid.host mid.ctx.address (running taken)
      · exact (congrArg (·.saved) reverted).trans (bumped mid passed)
  | aborted taken enters ran left =>
      exact ends_error left.host
        (holds.moves confines (free taken (entered taken enters ran)))
  | exhausted taken enters ran broke =>
      exact ends_error broke.host
        (holds.moves confines (free taken (entered taken enters ran)))
  | @deployed args mid _ outcome host _ taken enters ran deploys affordable settles =>
      have passed := (handling.createArgs salted).ran_ok taken
      have set : R false (Evm.world host)
          (Evm.world (Host.setCode host (newAddress args mid) outcome.returnData)) := by
        refine confines.setCode _ _ _ (entering taken enters).runs
          (admits.deploys salted _ _ _ rfl ⟨args, mid, outcome, ?_⟩)
        exact ⟨taken, enters, ran, deploys, affordable, rfl, rfl⟩
      have committed := journal_commit
        ((Journaled.setCode_saved host (newAddress args mid) outcome.returnData).trans
          (stacked taken enters ran))
      refine holds.settles confines (free taken ?_) ?_ (silent _ taken) settles
      · change R false (Evm.world mid.host) (journal _).world
        rw [committed]
        exact confines.trans (entered taken enters ran) set
      · exact (congrArg (·.saved) committed).trans (bumped mid passed)
  | @discarded args mid _ outcome host _ taken enters ran fails settles =>
      have passed := (handling.createArgs salted).ran_ok taken
      have reverted := journal_revert (stacked taken enters ran)
      refine holds.settles confines (free taken ?_) ?_ (silent _ taken) settles
      · change R false (Evm.world mid.host) (journal _).world
        rw [reverted]
        exact confines.bumpNonce mid.host mid.ctx.address (running taken)
      · exact (congrArg (·.saved) reverted).trans (bumped mid passed)

omit [Secp256k1] [Sha256] [Ripemd160] [Bn254] [Keccak256] in
theorem ends_admitted {frame : Frame H} {result : Except Fault Unit} {after : Interpreter H}
    (ends : Admitted Sound Runs frame → Ends (Leaves R) (Confined R) frame result after) :
    Ends (fun frame left => Admitted Sound Runs frame → Leaves R frame left)
      (fun frame vm => Admitted Sound Runs frame → Confined R frame vm) frame result after := by
  cases result with
  | ok done => exact ends
  | error fault => exact ends

/-- Admitted frames keep the relation, the stack of snapshots and, when static, silence. -/
theorem Confines.contract (confines : Confines Sound Runs R Allowed) :
    Contract (fun frame left => Admitted Sound Runs frame → Leaves R frame left)
      (fun frame vm => Admitted Sound Runs frame → Confined R frame vm)
      (Admits Sound Runs Allowed) where
  start frame _ :=
    { static := rfl
      world := confines.refl _ _
      saved := rfl
      silent := fun _ => rfl
      ctx := rfl }
  passes holds passed admitted := (holds admitted).onward passed
  finishes holds admitted :=
    { world := (holds admitted).world
      saved := fun _ _ => (holds admitted).saved
      silent := fun static outcome same => by
        rw [← Except.ok.inj same]
        exact (holds admitted).silent static }
  reverts holds admitted :=
    { world := (holds admitted).world
      saved := fun _ _ => (holds admitted).saved
      silent := fun _ outcome same => by rw [← Except.ok.inj same] }
  breaks holds broke admitted := by
    rw [broke.host]
    exact leaves_error (holds admitted).world
  starves holds admitted := leaves_error (holds admitted).world
  stores key value holds free admitted :=
    (holds admitted).write confines free
      (confines.sstore _ _ _ _ ((holds admitted).running admitted))
      (Journaled.sstore_saved _ _ _ _)
  logs log holds free admitted :=
    { static := (holds admitted).static
      world := (holds admitted).world
      saved := (holds admitted).saved
      silent := fun static => by
        rw [(holds admitted).static, static] at free
        cases free
      ctx := (holds admitted).ctx }
  destroys beneficiary holds free admitted :=
    (holds admitted).write confines free
      (confines.transfer _ _ _ _ ((holds admitted).running admitted) (U256.lt_self _))
      (Journaled.transfer_saved _ _ _ _)
  calls holds admits inner turn :=
    ends_admitted fun admitted => (holds admitted).called confines admitted admits inner turn
  creates holds admits inner turn :=
    ends_admitted fun admitted => (holds admitted).created confines admitted admits inner turn

theorem frame_leaves (respects : Respects R Allowed) (fuel levels : Nat) (frame : Frame H)
    (good : ∀ sub vm op, Executes fuel levels frame sub vm op → Admissible Allowed sub vm op) :
    Leaves R frame (executor fuel levels frame) :=
  respects.confines.contract.holds fuel levels frame
    (fun sub vm op executes => ⟨fun _ _ _ _ => trivial, good sub vm op executes⟩)
    ⟨trivial, trivial⟩

/-! ### Static frames -/

/-- Nothing, for a static frame; anything, for another. -/
def Untouched : Bool → W → W → Prop
  | true => fun before after => after = before
  | false => fun _ _ => True

omit [Keccak256] [Secp256k1] [Sha256] [Ripemd160] [Bn254] in
theorem untouched_respected : Respects (H := H) (Untouched (W := W)) fun _ _ _ => True where
  refl static state := by cases static <;> trivial
  trans {static} _ _ _ former latter := by
    cases static with
    | true => exact latter.trans former
    | false => trivial
  weaken _ := trivial
  sstore _ _ _ _ := trivial
  bumpNonce _ _ := trivial
  transfer _ _ _ _ _ := trivial
  setCode _ _ _ _ := trivial

theorem static_world (fuel levels : Nat) (frame : Frame H) (static : frame.isStatic = true) :
    world (executor fuel levels frame).2 = world frame.host ∧
      ∀ outcome, (executor fuel levels frame).1 = .ok outcome → outcome.logs = [] := by
  have left := frame_leaves untouched_respected fuel levels frame fun _ _ _ _ _ _ _ _ _ _ => trivial
  have moved := left.world
  rw [static] at moved
  exact ⟨moved, left.silent static⟩

/-! ### The stack of snapshots -/

/-- Executors that hand back the stack of snapshots as they found it. -/
theorem below_saved (fuel levels : Nat) (frame : Frame H) (outcome : ExecOutcome)
    (returned : (below fuel levels frame).1 = .ok outcome) :
    saved (below fuel levels frame).2 = saved frame.host := by
  cases levels with
  | zero => cases returned
  | succ levels =>
      have left := frame_leaves untouched_respected fuel levels frame
        fun _ _ _ _ _ _ _ _ _ _ => trivial
      exact left.saved outcome returned

omit [Journaled H W] [Host H] [Keccak256] [Secp256k1] [Sha256] [Ripemd160] [Bn254] in
theorem one_ne_zero_word : (U256.one : U256) ≠ .zero := by decide

theorem doCall_journal (fuel levels : Nat) (kind : CallKind) {vm after : Interpreter H}
    (ran : (doCall (below fuel levels) kind).run.run vm = (.ok (), after)) :
    saved after.host = saved vm.host ∧
      (after.stack.head? = some .zero → world after.host = world vm.host) := by
  have turn := (doCall_spec (below fuel levels) kind vm).ran ran
  cases turn with
  | settled taken resolved settles =>
      have passed := (handling.callArgs kind).ran_ok taken
      obtain ⟨held, pushed⟩ := settles.pushed
      rw [held, pushed]
      rcases journal_resolved resolved with same | ⟨-, one, committed⟩
      · rw [passed.host] at same
        exact ⟨congrArg (·.saved) same, fun _ => congrArg (·.world) same⟩
      · rw [passed.host] at committed
        refine ⟨congrArg (·.saved) committed, fun zero => ?_⟩
        rw [one] at zero
        exact absurd (Option.some.inj zero) one_ne_zero_word
  | @returned args mid _ outcome host _ taken enters returned settles =>
      have passed := (handling.callArgs kind).ran_ok taken
      obtain ⟨held, pushed⟩ := settles.pushed
      rw [held, pushed]
      have stack : saved host = saved (Host.snapshot mid.host).2 := by
        have kept := below_saved fuel levels _ outcome (congrArg Prod.fst returned)
        rw [returned] at kept
        exact kept.trans (saved_paid kind args mid)
      cases success : outcome.success with
      | true =>
          have committed := journal_commit stack
          rw [passed.host] at committed ⊢
          refine ⟨congrArg (·.saved) committed, fun zero => ?_⟩
          exact absurd (Option.some.inj zero) one_ne_zero_word
      | false =>
          have reverted := journal_revert stack
          rw [passed.host] at reverted ⊢
          exact ⟨congrArg (·.saved) reverted, fun _ => congrArg (·.world) reverted⟩

/-- A creation that pushed zero has left the world as it was but for the nonce of the
creator, unless the address it created is the word zero. -/
theorem doCreate_journal (fuel levels : Nat) (salted : Bool) {vm after : Interpreter H}
    (ran : (doCreate (below fuel levels) salted).run.run vm = (.ok (), after)) :
    saved after.host = saved vm.host ∧
      (after.stack.head? = some .zero →
        world after.host = world vm.host ∨
          world after.host = world (Host.bumpNonce vm.host vm.ctx.address) ∨
          ∃ host code, Deployment (below fuel levels) vm salted host .zero code) := by
  have turn := (doCreate_spec (below fuel levels) salted vm).ran ran
  have stacked {args : CreateArgs} {mid : Interpreter H} {host : H} {outcome : ExecOutcome}
      (returned : below fuel levels (initFrame args mid) = (.ok outcome, host)) :
      saved host = saved (Host.snapshot (bumpedHost mid)).2 := by
    have kept := below_saved fuel levels _ outcome (congrArg Prod.fst returned)
    rw [returned] at kept
    exact kept.trans (saved_endowed args (newAddress args mid) mid)
  have bumped {args : CreateArgs} {mid : Interpreter H}
      (taken : (createArgs salted).run.run vm = (.ok args, mid)) :
      bumpedHost mid = Host.bumpNonce vm.host vm.ctx.address := by
    have passed := (handling.createArgs salted).ran_ok taken
    unfold bumpedHost
    rw [passed.host, passed.ctx]
  have bumpedSaved : saved (Host.bumpNonce vm.host vm.ctx.address) = saved vm.host :=
    Journaled.bumpNonce_saved vm.host vm.ctx.address
  cases turn with
  | deep taken limit settles =>
      rw [settles.pushed.1]
      exact ⟨rfl, fun _ => .inl rfl⟩
  | @poor args mid _ _ taken short settles =>
      have stack : saved (Host.snapshot (bumpedHost mid)).2 =
          saved (Host.snapshot (bumpedHost mid)).2 := rfl
      have reverted := journal_revert stack
      rw [bumped taken] at reverted
      rw [settles.pushed.1, bumped taken]
      exact ⟨(congrArg (·.saved) reverted).trans bumpedSaved,
        fun _ => .inr (.inl (congrArg (·.world) reverted))⟩
  | @deployed args mid _ outcome host _ taken enters returned deploys affordable settles =>
      have committed := journal_commit
        ((Journaled.setCode_saved host (newAddress args mid) outcome.returnData).trans
          (stacked returned))
      rw [bumped taken] at committed
      rw [settles.pushed.1, settles.pushed.2, bumped taken]
      refine ⟨(congrArg (·.saved) committed).trans bumpedSaved, fun zero => .inr (.inr ?_)⟩
      refine ⟨host, outcome.returnData, args, mid, outcome, taken, enters, returned, deploys,
        affordable, ?_, rfl⟩
      exact (Option.some.inj zero).symm
  | @discarded args mid _ outcome host _ taken enters returned fails settles =>
      have reverted := journal_revert (stacked returned)
      rw [bumped taken] at reverted
      rw [settles.pushed.1, bumped taken]
      exact ⟨(congrArg (·.saved) reverted).trans bumpedSaved,
        fun _ => .inr (.inl (congrArg (·.world) reverted))⟩

end Worlds

end Evm

end Veilux
