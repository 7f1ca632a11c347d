/-
Jumps of PhotonVM.  The machine takes every byte that looks like a `JUMPDEST` for
a destination, also one in the operand of a `PUSH8`, so a run stays on instruction
starts exactly as long as no jump it takes goes to such a byte.
-/

import Veilux.Lib.Decoding
import Veilux.Prism.PhotonVm

namespace Veilux

namespace Vm

open Decoding (Start Operand)

/-- How many bytes behind an opcode belong to it. -/
def operandBytes (byte : UInt8) : Nat := if Opcode.ofByte byte = some .push8 then 8 else 0

/-- The code, its destinations and the place in it are as before. -/
structure Kept (before after : Vm) : Prop where
  code : after.code = before.code
  jumpdests : after.jumpdests = before.jumpdests
  pc : after.pc = before.pc

theorem Kept.refl (vm : Vm) : Kept vm vm := ⟨rfl, rfl, rfl⟩

theorem Kept.trans {first second third : Vm} (former : Kept first second)
    (latter : Kept second third) : Kept first third :=
  ⟨latter.code.trans former.code, latter.jumpdests.trans former.jumpdests,
    latter.pc.trans former.pc⟩

theorem ran_of_bind {α β : Type} {first : Except VmError α} {next : α → Except VmError β}
    {result : β} (ran : (first >>= next) = .ok result) :
    ∃ value, first = .ok value ∧ next value = .ok result := by
  cases first with
  | error error => cases ran
  | ok value => exact ⟨value, rfl, ran⟩

variable {vm after : Vm} {flow : Flow}

theorem push_kept {value : UInt64} (pushed : vm.push value = .ok after) : Kept vm after := by
  unfold push at pushed
  split at pushed
  · cases pushed
  · cases pushed
    exact ⟨rfl, rfl, rfl⟩

theorem pop_kept {value : UInt64} (popped : vm.pop = .ok (value, after)) : Kept vm after := by
  obtain ⟨rest, _, rfl⟩ := pop_eq popped
  exact ⟨rfl, rfl, rfl⟩

theorem pop2_kept {left right : UInt64} (popped : vm.pop2 = .ok (left, right, after)) :
    Kept vm after := by
  obtain ⟨⟨last, middle⟩, first, popped⟩ := ran_of_bind popped
  obtain ⟨⟨value, final⟩, second, popped⟩ := ran_of_bind popped
  cases popped
  exact (pop_kept first).trans (pop_kept second)

/-- An instruction that goes on to the next one, or ends the run. -/
def Stays (vm : Vm) : Flow → Prop
  | .advance after => Kept vm after
  | .resume _ => False
  | .halt _ after => Kept vm after

theorem pushed_stays {value : UInt64} (kept : Kept vm after)
    (ran : (after.push value >>= fun vm => pure (Flow.advance vm)) = .ok flow) :
    Stays vm flow := by
  obtain ⟨final, pushed, ran⟩ := ran_of_bind ran
  cases ran
  exact kept.trans (push_kept pushed)

theorem binary_stays {operation : UInt64 → UInt64 → UInt64}
    (ran : vm.binary operation = .ok flow) : Stays vm flow := by
  obtain ⟨⟨left, right, middle⟩, popped, ran⟩ := ran_of_bind ran
  exact pushed_stays (pop2_kept popped) ran

theorem dividing_stays {operation : UInt64 → UInt64 → UInt64}
    (ran : vm.dividing operation = .ok flow) : Stays vm flow := by
  obtain ⟨⟨left, right, middle⟩, popped, ran⟩ := ran_of_bind ran
  by_cases zero : right = 0
  · simp only [zero, if_true] at ran
    cases ran
  · simp only [zero, if_false] at ran
    exact pushed_stays (pop2_kept popped) ran

theorem unary_stays {operation : UInt64 → UInt64} (ran : vm.unary operation = .ok flow) :
    Stays vm flow := by
  obtain ⟨⟨value, middle⟩, popped, ran⟩ := ran_of_bind ran
  exact pushed_stays (pop_kept popped) ran

/-- The instructions that set the program counter themselves. -/
def Opcode.Moves (op : Opcode) : Prop := op = .push8 ∨ op = .jump ∨ op = .jumpi

theorem exec_stays {op : Opcode} (ran : vm.exec op = .ok flow) (still : ¬ Opcode.Moves op) :
    Stays vm flow := by
  cases op with
  | push8 => exact absurd (.inl rfl) still
  | jump => exact absurd (.inr (.inl rfl)) still
  | jumpi => exact absurd (.inr (.inr rfl)) still
  | stop | jumpdest =>
      cases ran
      exact Kept.refl vm
  | add | sub | mul | and | or => exact binary_stays ran
  | lt | gt | eq =>
      unfold exec at ran
      exact binary_stays ran
  | div | mod => exact dividing_stays ran
  | not => exact unary_stays ran
  | isZero =>
      unfold exec at ran
      exact unary_stays ran
  | pop | ret | log =>
      obtain ⟨⟨value, middle⟩, popped, ran⟩ := ran_of_bind ran
      cases ran
      have kept := pop_kept popped
      exact ⟨kept.code, kept.jumpdests, kept.pc⟩
  | dup =>
      unfold exec at ran
      dsimp only at ran
      split at ran
      · cases ran
      · exact pushed_stays (Kept.refl vm) ran
  | swap =>
      unfold exec at ran
      dsimp only at ran
      split at ran
      · cases ran
        exact ⟨rfl, rfl, rfl⟩
      · cases ran
  | sload | arg =>
      obtain ⟨⟨key, middle⟩, popped, ran⟩ := ran_of_bind ran
      exact pushed_stays (pop_kept popped) ran
  | sstore =>
      obtain ⟨key, value, rest, _, rfl⟩ := exec_sstore ran
      exact ⟨rfl, rfl, rfl⟩
  | caller | callValue => exact pushed_stays (Kept.refl vm) ran
  | revert => cases ran

theorem jumpTo_eq {dest : Nat} (jumped : vm.jumpTo dest = .ok after) :
    dest ∈ vm.jumpdests ∧ after = { vm with pc := dest } := by
  unfold jumpTo at jumped
  split at jumped
  · rename_i listed
    cases jumped
    exact ⟨List.contains_iff_mem.mp listed, rfl⟩
  · cases jumped

theorem exec_push8 (ran : vm.exec .push8 = .ok flow) :
    ∃ final, flow = .resume final ∧ final.code = vm.code ∧ final.jumpdests = vm.jumpdests ∧
      final.pc = vm.pc + 9 := by
  unfold exec at ran
  dsimp only at ran
  split at ran
  · cases ran
  · obtain ⟨final, pushed, ran⟩ := ran_of_bind ran
    cases ran
    have kept := push_kept pushed
    exact ⟨_, rfl, kept.code, kept.jumpdests, rfl⟩

/-- The destination that an instruction jumps to, if it is a jump that is taken. -/
def destination (op : Opcode) (stack : List UInt64) : Option Nat :=
  match op, stack with
  | .jump, dest :: _ => some dest.toNat
  | .jumpi, dest :: cond :: _ => if cond ≠ 0 then some dest.toNat else none
  | _, _ => none

/-- A jump goes to a listed destination, or is a conditional one that goes on. -/
theorem exec_jumps {op : Opcode} (ran : vm.exec op = .ok flow) (jumps : op = .jump ∨ op = .jumpi) :
    match destination op vm.stack with
    | some dest => dest ∈ vm.jumpdests ∧ ∃ final, flow = .resume final ∧
        final.code = vm.code ∧ final.jumpdests = vm.jumpdests ∧ final.pc = dest
    | none => Stays vm flow := by
  cases jumps with
  | inl jump =>
      subst jump
      obtain ⟨⟨dest, middle⟩, popped, ran⟩ := ran_of_bind ran
      obtain ⟨final, jumped, ran⟩ := ran_of_bind ran
      cases ran
      obtain ⟨rest, stack, rfl⟩ := pop_eq popped
      obtain ⟨listed, rfl⟩ := jumpTo_eq jumped
      rw [stack, destination]
      exact ⟨listed, _, rfl, rfl, rfl, rfl⟩
  | inr jumpi =>
      subst jumpi
      obtain ⟨⟨dest, middle⟩, first, ran⟩ := ran_of_bind ran
      obtain ⟨⟨cond, final⟩, second, ran⟩ := ran_of_bind ran
      obtain ⟨rest, stack, rfl⟩ := pop_eq first
      obtain ⟨others, tail, rfl⟩ := pop_eq second
      have tail : rest = cond :: others := tail
      rw [stack, tail, destination]
      by_cases taken : cond ≠ 0
      · simp only [if_pos taken] at ran ⊢
        obtain ⟨landed, jumped, ran⟩ := ran_of_bind ran
        cases ran
        obtain ⟨listed, rfl⟩ := jumpTo_eq jumped
        exact ⟨listed, _, rfl, rfl, rfl, rfl⟩
      · simp only [if_neg taken] at ran ⊢
        cases ran
        exact ⟨rfl, rfl, rfl⟩

/-! ### Steps -/

/-- The destination of the jump that the machine takes next. -/
def leap (vm : Vm) : Option Nat :=
  (vm.code[vm.pc]?.bind Opcode.ofByte).bind fun op => destination op vm.stack

/-- Where the loop goes on behind an instruction that does not end it. -/
def Resumes (flow : Flow) (after : Vm) : Prop :=
  match flow with
  | .advance vm => after = { vm with pc := vm.pc + 1 }
  | .resume vm => after = vm
  | .halt _ _ => False

/-- The instruction behind a step that goes on. -/
theorem step_exec (ran : vm.step = .next after) :
    ∃ byte op flow, vm.code[vm.pc]? = some byte ∧ Opcode.ofByte byte = some op ∧
      ({ vm with gas := vm.gas + opcodeGas byte } : Vm).exec op = .ok flow ∧
      Resumes flow after := by
  unfold step at ran
  cases fetched : vm.code[vm.pc]? with
  | none =>
      rw [fetched] at ran
      cases ran
  | some byte =>
      rw [fetched] at ran
      dsimp only at ran
      split at ran
      · cases ran
      · rename_i charged paid
        obtain ⟨_, rfl⟩ := charge_eq paid
        cases decoded : Opcode.ofByte byte with
        | none =>
            rw [decoded] at ran
            cases ran
        | some op =>
            rw [decoded] at ran
            dsimp only at ran
            refine ⟨byte, op, ?_⟩
            split at ran
            · cases ran
            · rename_i moved executed
              cases ran
              exact ⟨_, rfl, decoded, executed, rfl⟩
            · rename_i moved executed
              cases ran
              exact ⟨_, rfl, decoded, executed, rfl⟩
            · cases ran

theorem Stays.resumes (stays : Stays vm flow) (resumes : Resumes flow after) :
    after.code = vm.code ∧ after.jumpdests = vm.jumpdests ∧ after.pc = vm.pc + 1 := by
  cases flow with
  | advance moved =>
      have kept : Kept vm moved := stays
      have same : after = { moved with pc := moved.pc + 1 } := resumes
      rw [same]
      exact ⟨kept.code, kept.jumpdests, congrArg (· + 1) kept.pc⟩
  | resume moved => exact stays.elim
  | halt value moved => exact resumes.elim

/-- A step that goes on has jumped to a listed destination, or moved behind the instruction and
its operand. -/
theorem step_places (ran : vm.step = .next after) :
    after.code = vm.code ∧ after.jumpdests = vm.jumpdests ∧ vm.pc < vm.code.length ∧
      match vm.leap with
      | some dest => dest ∈ vm.jumpdests ∧ after.pc = dest
      | none => after.pc = Decoding.next operandBytes vm.code vm.pc := by
  obtain ⟨byte, op, flow, fetched, decoded, executed, resumes⟩ := step_exec ran
  have inside : vm.pc < vm.code.length := (List.getElem?_eq_some_iff.mp fetched).1
  have leaps : vm.leap = destination op vm.stack := by
    rw [leap, fetched, Option.bind_some, decoded, Option.bind_some]
  have behind : Decoding.next operandBytes vm.code vm.pc =
      vm.pc + 1 + if op = .push8 then 8 else 0 := by
    rw [Decoding.next_eq fetched, operandBytes, decoded]
    simp only [Option.some.injEq]
  rw [leaps, behind]
  by_cases wide : op = .push8
  · subst wide
    obtain ⟨final, rfl, code, jumpdests, pc⟩ := exec_push8 executed
    have same : after = final := resumes
    rw [same]
    exact ⟨code, jumpdests, inside, pc⟩
  · rw [if_neg wide, Nat.add_zero]
    by_cases jumps : op = .jump ∨ op = .jumpi
    · have jumped := exec_jumps executed jumps
      change (match destination op vm.stack with
        | some dest => dest ∈ vm.jumpdests ∧ ∃ final, flow = .resume final ∧
            final.code = vm.code ∧ final.jumpdests = vm.jumpdests ∧ final.pc = dest
        | none => Stays _ flow) at jumped
      cases taken : destination op vm.stack with
      | some dest =>
          rw [taken] at jumped
          obtain ⟨listed, final, rfl, code, jumpdests, pc⟩ := jumped
          have same : after = final := resumes
          rw [same]
          exact ⟨code, jumpdests, inside, listed, pc⟩
      | none =>
          rw [taken] at jumped
          obtain ⟨code, jumpdests, pc⟩ := Stays.resumes jumped resumes
          exact ⟨code, jumpdests, inside, pc⟩
    · have still : ¬ Opcode.Moves op := fun moves => moves.elim wide jumps
      obtain ⟨code, jumpdests, pc⟩ := (exec_stays executed still).resumes resumes
      have stays : destination op vm.stack = none := by
        unfold destination
        split
        · exact absurd (.inl rfl) jumps
        · exact absurd (.inr rfl) jumps
        · rfl
      rw [stays]
      exact ⟨code, jumpdests, inside, pc⟩

/-! ### Runs -/

def Steps (vm after : Vm) : Prop := vm.step = .next after

/-- The states of a run. -/
def Reaches : Vm → Vm → Prop := Relation.ReflTransGen Steps

/-- Every state of a run stands where an instruction starts, or behind the code, and every jump
that it takes goes to a `JUMPDEST` that is one. -/
def RunsOnStarts (first : Vm) : Prop :=
  ∀ vm, Reaches first vm →
    (Start operandBytes first.code vm.pc ∨ first.code.length ≤ vm.pc) ∧
      ∀ after dest, vm.step = .next after → vm.leap = some dest →
        after.pc = dest ∧ first.code[dest]? = some jumpdestByte ∧
          Start operandBytes first.code dest

/-- The machine pays for a jump into the operand of a `PUSH8`, to a byte that looks like a
`JUMPDEST`. -/
def LeapsIntoOperand (vm : Vm) : Prop :=
  ∃ dest, vm.leap = some dest ∧ vm.gas + 8 ≤ vm.gasLimit ∧
    vm.code[dest]? = some jumpdestByte ∧ Operand operandBytes vm.code dest

theorem mem_jumpdests {code : List UInt8} {gasLimit : UInt64} {storage : Storage}
    {ctx : ExecContext} {dest : Nat} :
    dest ∈ (new code gasLimit storage ctx).jumpdests ↔ code[dest]? = some jumpdestByte := by
  change dest ∈ (List.range code.length).filter _ ↔ _
  rw [List.mem_filter, List.mem_range]
  constructor
  · intro listed
    exact of_decide_eq_true listed.2
  · intro marked
    exact ⟨(List.getElem?_eq_some_iff.mp marked).1, decide_eq_true marked⟩

theorem reaches_code {first : Vm} (reached : Reaches first vm) :
    vm.code = first.code ∧ vm.jumpdests = first.jumpdests := by
  induction reached with
  | refl => exact ⟨rfl, rfl⟩
  | tail _ turn ih =>
      obtain ⟨code, jumpdests, _⟩ := step_places turn
      exact ⟨code.trans ih.1, jumpdests.trans ih.2⟩

/-- What the machine leaps from is a jump, which costs 8. -/
theorem leap_eq {dest : Nat} (leaps : vm.leap = some dest) :
    ∃ byte op, vm.code[vm.pc]? = some byte ∧ Opcode.ofByte byte = some op ∧
      (op = .jump ∨ op = .jumpi) ∧ opcodeGas byte = 8 ∧ destination op vm.stack = some dest := by
  unfold leap at leaps
  obtain ⟨op, decoded, goes⟩ := Option.bind_eq_some_iff.mp leaps
  obtain ⟨byte, fetched, decoded⟩ := Option.bind_eq_some_iff.mp decoded
  have jumps : op = .jump ∨ op = .jumpi := by
    unfold destination at goes
    split at goes
    · exact .inl rfl
    · exact .inr rfl
    · cases goes
  refine ⟨byte, op, fetched, decoded, jumps, ?_, goes⟩
  rw [opcodeGas, decoded]
  cases jumps with
  | inl jump => rw [jump]
  | inr jumpi => rw [jumpi]

/-- A jump to a listed destination goes through once it is paid for. -/
theorem step_of_leap {dest : Nat} (leaps : vm.leap = some dest) (paid : vm.gas + 8 ≤ vm.gasLimit)
    (listed : dest ∈ vm.jumpdests) : ∃ after, vm.step = .next after := by
  obtain ⟨byte, op, fetched, decoded, jumps, cost, goes⟩ := leap_eq leaps
  have contained : vm.jumpdests.contains dest = true := List.contains_iff_mem.mpr listed
  have charged : vm.charge (opcodeGas byte) = .ok { vm with gas := vm.gas + 8 } := by
    rw [charge, cost]
    exact if_neg (UInt64.not_lt.mpr paid)
  have executed : ∃ final, ({ vm with gas := vm.gas + 8 } : Vm).exec op = .ok (.resume final) := by
    unfold destination at goes
    split at goes
    · rename_i target rest stack
      have same : target.toNat = dest := Option.some.inj goes
      refine ⟨{ vm with gas := vm.gas + 8, stack := rest, pc := dest }, ?_⟩
      simp only [exec, pop, stack, jumpTo, same, contained, bind, Except.bind, ↓reduceIte]
      rfl
    · rename_i target cond rest stack
      by_cases taken : cond ≠ 0
      · rw [if_pos taken] at goes
        have same : target.toNat = dest := Option.some.inj goes
        refine ⟨{ vm with gas := vm.gas + 8, stack := rest, pc := dest }, ?_⟩
        simp only [exec, pop, stack, jumpTo, same, contained, bind, Except.bind, taken, ↓reduceIte,
          ne_eq, not_false_eq_true]
        rfl
      · rw [if_neg taken] at goes
        cases goes
    · cases goes
  obtain ⟨final, executed⟩ := executed
  refine ⟨final, ?_⟩
  simp only [step, fetched, charged, decoded, executed]

theorem step_paid (ran : vm.step = .next after) {dest : Nat} (leaps : vm.leap = some dest) :
    vm.gas + 8 ≤ vm.gasLimit := by
  obtain ⟨byte, _, fetched, _, _, cost, _⟩ := leap_eq leaps
  unfold step at ran
  rw [fetched] at ran
  dsimp only at ran
  split at ran
  · cases ran
  · rename_i charged paid
    rw [cost] at paid
    exact (charge_eq paid).1

section Runs

variable {code : List UInt8} {gasLimit : UInt64} {storage : Storage} {ctx : ExecContext}

/-- Without a jump into an operand a step lands on a start. -/
theorem step_lands (reached : Reaches (new code gasLimit storage ctx) vm)
    (apart : ¬ LeapsIntoOperand vm) (ran : vm.step = .next after)
    (here : Start operandBytes code vm.pc) :
    Start operandBytes code after.pc ∧
      ∀ dest, vm.leap = some dest →
        after.pc = dest ∧ code[dest]? = some jumpdestByte ∧ Start operandBytes code dest := by
  obtain ⟨sameCode, sameDests⟩ := reaches_code reached
  have sameCode : vm.code = code := sameCode
  obtain ⟨_, _, _, lands⟩ := step_places ran
  cases leaps : vm.leap with
  | none =>
      rw [leaps, sameCode] at lands
      refine ⟨?_, nofun⟩
      rw [lands]
      exact here.next
  | some dest =>
      rw [leaps, sameDests] at lands
      obtain ⟨listed, landed⟩ := lands
      have marked := mem_jumpdests.mp listed
      have start : Start operandBytes code dest := by
        refine (Decoding.start_or_operand dest).resolve_right fun operand => apart ?_
        exact ⟨dest, leaps, step_paid ran leaps, by rw [sameCode]; exact marked,
          by rw [sameCode]; exact operand⟩
      rw [landed]
      refine ⟨start, fun other same => ?_⟩
      rw [← Option.some.inj same]
      exact ⟨rfl, marked, start⟩

/-- A run stays on instruction starts exactly when no jump that it takes goes into the operand
of a `PUSH8`. -/
theorem runsOnStarts_iff (code : List UInt8) (gasLimit : UInt64) (storage : Storage)
    (ctx : ExecContext) :
    RunsOnStarts (new code gasLimit storage ctx) ↔
      ∀ vm, Reaches (new code gasLimit storage ctx) vm → ¬ LeapsIntoOperand vm := by
  constructor
  · intro safe vm reached leaps
    obtain ⟨dest, taken, paid, marked, operand⟩ := leaps
    obtain ⟨sameCode, sameDests⟩ := reaches_code reached
    have sameCode : vm.code = code := sameCode
    rw [sameCode] at marked operand
    obtain ⟨after, ran⟩ := step_of_leap taken paid (by rw [sameDests]; exact mem_jumpdests.mpr marked)
    exact Decoding.not_start_of_operand operand ((safe vm reached).2 after dest ran taken).2.2
  · intro apart vm reached
    have onStart (state : Vm) (visited : Reaches (new code gasLimit storage ctx) state) :
        Start operandBytes code state.pc := by
      induction visited with
      | refl => exact Decoding.start_zero
      | tail before turn ih => exact (step_lands before (apart _ before) turn ih).1
    refine ⟨.inl (onStart vm reached), fun after dest ran leaps => ?_⟩
    exact (step_lands reached (apart vm reached) ran (onStart vm reached)).2 dest leaps

/-- Code whose operands hold no byte that looks like a `JUMPDEST` is safe in every run. -/
theorem runsOnStarts_of_plain
    (plain : ∀ position, Operand operandBytes code position →
      code[position]? ≠ some jumpdestByte) : RunsOnStarts (new code gasLimit storage ctx) := by
  rw [runsOnStarts_iff]
  rintro vm reached ⟨dest, _, _, marked, operand⟩
  obtain ⟨sameCode, _⟩ := reaches_code reached
  have sameCode : vm.code = code := sameCode
  rw [sameCode] at marked operand
  exact plain dest operand marked

end Runs

/-- A push of eight bytes that start with `JUMPDEST`, a push of 1 and a jump. -/
def hiddenJumpdest : List UInt8 :=
  [0x60, 0x5b, 0, 0, 0, 0, 0, 0, 0, 0x60, 0, 0, 0, 0, 0, 0, 0, 1, 0x56]

theorem hiddenJumpdest_reached :
    ¬ ∀ code gasLimit storage ctx, RunsOnStarts (new code gasLimit storage ctx) := by
  intro safe
  have safe := (runsOnStarts_iff hiddenJumpdest 1000 ∅ ⟨0, 0, []⟩).mp (safe _ _ _ _)
  have first : Steps (new hiddenJumpdest 1000 ∅ ⟨0, 0, []⟩)
      { new hiddenJumpdest 1000 ∅ ⟨0, 0, []⟩ with
        gas := 3
        stack := [0x5b00000000000000]
        pc := 9 } := rfl
  have second : Steps
      { new hiddenJumpdest 1000 ∅ ⟨0, 0, []⟩ with
        gas := 3
        stack := [0x5b00000000000000]
        pc := 9 }
      { new hiddenJumpdest 1000 ∅ ⟨0, 0, []⟩ with
        gas := 6
        stack := [1, 0x5b00000000000000]
        pc := 18 } := rfl
  refine safe _ ((Relation.ReflTransGen.single first).tail second) ?_
  refine ⟨1, rfl, by decide, rfl, 0, Decoding.start_zero, by decide, ?_⟩
  change 1 < 9
  decide

end Vm

end Veilux
