/-
The emulator executes the architecture.

In 64-bit mode every step of the architecture that the emulator keeps to is a
round of the loop (`step_guest`), in a guest's space as on the bare machine,
so that a run of the architecture to the end of the program is what `RunCpu`
returns (`runLoop_guest`).

`Agrees c h` says that the processor `c`, which translates no address and
takes no interrupt, is in the state `h` of the architecture; the memory is
the same outside the clock.
-/
import RiscvEmulator.Guest

namespace RiscvEmulator

open MemoryWrapper (flat flat_add)

namespace Isa.Hart

/-- The emulator keeps to the architecture in the guest's space. -/
structure KeptIn (h : Hart) (R : Regime) (s : Bytes.Store 32) : Prop where
  code : h.CodeIn R s
  data : h.DataIn R s h.decoded
  division : Rv64.isWDivision h.decoded.instruction = true →
    h.x.read h.decoded.rs2 = 0 ∨ Rv64.low (h.x.read h.decoded.rs2) ≠ 0

instance (h : Hart) (R : Regime) (s : Bytes.Store 32) : Decidable (h.KeptIn R s) :=
  decidable_of_iff (_ ∧ _ ∧ _) ⟨fun ⟨h₁, h₂, h₃⟩ => ⟨h₁, h₂, h₃⟩, fun k => ⟨k.code, k.data, k.division⟩⟩

/-- A step there after which the emulator goes on. -/
def advanceIn (R : Regime) (s : Bytes.Store 32) (h : Hart) : Option Hart :=
  if h.KeptIn R s ∧ ¬ h.Ends then h.step.filter fun h' => h'.pc ≠ h.pc else none

end Isa.Hart

namespace RiscvCpu

variable {c c' : RiscvCpu} {host : Host} {R : Regime} {s : Bytes.Store 32}

/-! ## Instructions that compute -/

section

variable {i : Instruction} {op : Rv64.Alu} {isW : Bool} {rd rs1 rs2 : BitVec 5} {imm : BitVec 32} {v : BitVec 64}

theorem xlen_of_64 (h64 : c.en64bit = true) : c.xlen = 64 := by rw [xlen, h64]; rfl

theorem operationInstruction_value (h64 : c.en64bit = true) (h : Rv64.operationOf i = some (op, isW)) :
    c.operationInstruction i rd rs1 rs2 = .ok (c.setReg rd (op.value isW (c.reg rs1) (c.reg rs2))) := by
  obtain ⟨t, ht, hw, hv⟩ := operation_rv64 (c.reg rs1) (c.reg rs2) h
  rw [operationInstruction, xlen_of_64 h64, ht, Except.ok_bind, ← hv, hw]
  cases isW <;> rfl

theorem immediateInstruction_value (h64 : c.en64bit = true) (h : Rv64.immediateOf i = some (op, isW)) :
    c.immediateInstruction i rd rs1 imm = .ok (c.setReg rd (op.value isW (c.reg rs1) (imm.signExtend 64))) := by
  obtain ⟨t, ht, hw, hv⟩ := immediate_rv64 (c.reg rs1) (imm.signExtend 64) h
  rw [immediateInstruction, xlen_of_64 h64, ht, Except.ok_bind, ← hv]
  simp only [show ¬ 64 = 32 by decide, false_or, hw]
  rfl

/-- A shift amount is not negative. -/
theorem signExtend_amount (h : (imm.signExtend 64).toNat < 64) :
    imm.signExtend 64 = imm.setWidth 64 ∧ (imm.signExtend 64).toNat = imm.toNat := by
  have hn := BitVec.toNat_signExtend (v := 64) imm
  rw [toNat_low_wide] at hn
  split at hn
  · omega
  · exact ⟨BitVec.eq_of_toNat_eq (by rw [hn, toNat_low_wide]; rfl), hn⟩

theorem immediateShiftInstruction_value (h64 : c.en64bit = true) (h : Rv64.shiftOf i = some (op, isW))
    (hk : (imm.signExtend 64).toNat < Rv64.width isW) : c.immediateShiftInstruction i rd rs1 imm =
      .ok (c.setReg rd (op.value isW (c.reg rs1) (imm.signExtend 64))) := by
  have hwidth : Rv64.width isW ≤ 64 := by cases isW <;> decide
  obtain ⟨heq, hn⟩ := signExtend_amount (Nat.lt_of_lt_of_le hk hwidth)
  rw [immediateShiftInstruction, xlen_of_64 h64, immediateShift_rv64 (c.reg rs1) h (hn ▸ hk), heq]
  rfl

theorem multInstruction_value (h64 : c.en64bit = true) (h : Rv64.value i (c.reg rs1) (c.reg rs2) = some v)
    (hd : Rv64.isWDivision i = true → c.reg rs2 = 0 ∨ Rv64.low (c.reg rs2) ≠ 0) :
    c.multInstruction i rd rs1 rs2 = .ok (c.setReg rd v) := by
  obtain ⟨t, ht, rfl⟩ := mult_rv64 h hd
  rw [multInstruction, xlen_of_64 h64, ht, Except.ok_bind]
  simp only [show ¬ 64 = 32 by decide, false_or]
  rfl

/-- The upper half of a product, of operands that are signed or not. -/
theorem mulhInstruction_value (h64 : c.en64bit = true) (s₁ s₂ : Bool) {f : BitVec 64 → BitVec 64 → BitVec 64}
    (hm : ∀ x y, mult 64 i x y = .ok (f x y)) (hi : isMultWInstruction i = false)
    (hf : ∀ x y, f x y = BitVec.ofInt 64 (Words.value s₁ x * Words.value s₂ y / 2 ^ 64)) :
    c.multInstruction i rd rs1 rs2 =
      .ok (c.setReg rd (BitVec.ofInt 64 (Words.value s₁ (c.reg rs1) * Words.value s₂ (c.reg rs2) / 2 ^ 64))) := by
  rw [multInstruction, xlen_of_64 h64, hm, hf, Except.ok_bind, hi]
  rfl

end

/-- An instruction that computes sets `rd` to the architecture's value. -/
theorem execute_isa_value {d : Decoded} {csr : BitVec 12} {v : BitVec 64} (h64 : c.en64bit = true)
    (hv : Isa.value d.instruction (c.reg d.rs1) (c.reg d.rs2) (d.imm.signExtend 64) c.pc = some v)
    (hd : Rv64.isWDivision d.instruction = true → c.reg d.rs2 = 0 ∨ Rv64.low (c.reg d.rs2) ≠ 0) :
    c.execute host d csr = .ok (c.setReg d.rd v) := by
  generalize hi : d.instruction = i at hv hd
  cases i <;> try (cases hv; done)
  all_goals simp only [execute, hi, xlen_of_64 h64]
  case add | sub | and | or | xor | sll | srl | sra | addw | subw | sllw | srlw | sraw =>
    cases hv
    exact operationInstruction_value h64 rfl
  case addi | addiw | andi | ori | xori =>
    cases hv
    exact immediateInstruction_value h64 rfl
  case slli | srli | srai | slliw | srliw | sraiw =>
    simp only [Isa.value, Rv64.operationOf, Rv64.immediateOf, Rv64.shiftOf, Option.ite_none_right_eq_some] at hv
    obtain ⟨hk, hv⟩ := hv
    cases hv
    exact immediateShiftInstruction_value h64 rfl hk
  case mul | mulw | div | divu | divw | divuw | rem | remu | remw | remuw => exact multInstruction_value h64 hv hd
  case mulh =>
    cases hv
    exact mulhInstruction_value h64 true true (fun _ _ => rfl) rfl fun x y =>
      Words.mulHigh_eq (k := 32) true true x y (by decide)
  case mulhsu =>
    cases hv
    exact mulhInstruction_value h64 true false (fun _ _ => rfl) rfl fun x y =>
      Words.mulHigh_eq (k := 32) true false x y (by decide)
  case mulhu =>
    cases hv
    exact mulhInstruction_value h64 false false (fun _ _ => rfl) rfl fun x y =>
      Words.mulHigh_eq (k := 32) false false x y (by decide)
  case slti =>
    cases hv
    rw [toInt_wide]
  case slt | sltu | sltiu | lui | auipc =>
    cases hv
    rfl

/-! ## In a guest's space -/

section

variable {h h' : Isa.Hart}

/-- A step that the emulator keeps to is a round. -/
theorem step_guest (host : Host) (hs : R.Space s) (ha : c.Stands R s h) (h64 : c.en64bit = true) (hk : h.KeptIn R s)
    (hstep : h.step = some h') (hflags : c.errorFlag = false ∧ c.endFlag = false) :
    ∃ c', c.step host = .ok c' ∧ Stepped R s c c' h h' h.Ends := by
  have hmxl : c.mxl = 2 := by rw [mxl, h64]; rfl
  refine ha.stepped hs hk.code hflags fun c₂ csr hf => ?_
  have h64₂ : c₂.en64bit = true := hf.en64bit.trans h64
  rw [hmxl]
  refine execute_does host csr hs hf.plain hf.pc hf.reg hf.memory hk.data
    (hf.nextPc ▸ Isa.Hart.perform_cases hstep) fun v hv => ?_
  rw [← hf.reg, ← hf.pc] at hv
  exact execute_isa_value h64₂ hv (hf.reg ▸ hk.division)

/-- The state of the loop is that of the guest. -/
def Going (R : Regime) (s : Bytes.Store 32) (h : Isa.Hart) (c : RiscvCpu) : Prop :=
  c.Stands R s h ∧ c.en64bit = true ∧ c.errorFlag = false ∧ c.endFlag = false

theorem goOn_follows (host : Host) (hs : R.Space s) :
    Machine.Follows (Isa.Hart.advanceIn R s) (goOn host) (Going R s) := by
  rintro h c h' ⟨ha, h64, hf⟩ hstep
  rw [Isa.Hart.advanceIn, Option.ite_none_right_eq_some, Option.filter_eq_some_iff] at hstep
  obtain ⟨⟨hk, hends⟩, hstep, hpc⟩ := hstep
  obtain ⟨c', hround, hst⟩ := step_guest host hs ha h64 hk hstep hf
  obtain ⟨hgo, hf'⟩ := hst.goOn hround (by simpa using hpc) hends
  exact ⟨c', hgo, hst.toStands, hst.en64bit.trans h64, hf'⟩

/-- What the loop returns when the architecture has come to the end of the
program, or to an instruction that leads to itself. -/
theorem runLoop_guest (host : Host) {t t' : Isa.Hart} {n fuel : Nat} (hs : R.Space s) (hc : Going R s h c)
    (hrun : Machine.after (Isa.Hart.advanceIn R s) n h = some t) (hk : t.KeptIn R s) (hstep : t.step = some t')
    (hstop : t.Ends ∨ t'.pc = t.pc) (hfuel : n < fuel) :
    ∃ c', runLoop host fuel c = .ok (some c') ∧ c'.Stands R s t' ∧ c'.en64bit = true ∧
      (c'.errorFlag = true ↔ t'.pc = t.pc) ∧ (c'.endFlag = true ↔ t.Ends) := by
  obtain ⟨c₁, hrounds, ha₁, h64, hf⟩ := (goOn_follows host hs).after hc hrun
  obtain ⟨c', hround, hst⟩ := step_guest host hs ha₁ h64 hk hstep hf
  refine ⟨c', runLoop_last hrounds hround ?_ hfuel, hst.toStands, hst.en64bit.trans h64, hst.errorFlag, hst.endFlag⟩
  rw [hst.errorFlag, hst.endFlag]
  exact hstop.symm

end

/-- **The emulator executes RV64IMAC in virtual memory.** From a state that
stands for one of the architecture, whatever the translation, `RunCpu`
returns one that stands for what the architecture comes to, on the memory
that the guest sees through its translations, by steps that the emulator
keeps to there (`Isa.Hart.KeptIn`): each of its loads, stores and fetches is
done where they lead, and the table stays what it was. -/
theorem runCpu_guest (host : Host) (R : Regime) (s : Bytes.Store 32) (c : RiscvCpu) (startPc : BitVec 64)
    (h t t' : Isa.Hart) (n fuel : Nat) (hs : R.Space s) (ha : (c.start startPc).Stands R s h)
    (h64 : c.en64bit = true) (hrun : Machine.after (Isa.Hart.advanceIn R s) n h = some t) (hk : t.KeptIn R s)
    (hstep : t.step = some t') (hstop : t.Ends ∨ t'.pc = t.pc) (hfuel : n < fuel) :
    ∃ c', c.runCpu host fuel startPc = .ok (some c') ∧ c'.Stands R s t' ∧
      (c'.errorFlag = true ↔ t'.pc = t.pc) ∧ (c'.endFlag = true ↔ t.Ends) := by
  obtain ⟨c', hloop, ha', -, hflags⟩ := runLoop_guest host hs ⟨ha, h64, rfl, rfl⟩ hrun hk hstep hstop hfuel
  exact ⟨c', hloop, ha', hflags⟩

/-- `c.li a0, 21` and a return, in user mode on 1 GiB at `0x40000000`. -/
def leafGuest : RiscvCpu :=
  { ((new true 0).setMemory (leafMemory 0x100000CF 0x80824555 0x40000000)).setCsr Csr.satp 0x8000000000000001 with
    privilege := .userMode }

/-- What the guest has. -/
def leafView : Bytes.Store 32 := (Regime.table (.sv39 1)).view leafGuest.memory.bytes

theorem runCpu_guest_leaf : ∃ c', leafGuest.runCpu .failing 2 0 = .ok (some c') ∧
    c'.Stands (.table (.sv39 1)) leafGuest.memory.bytes
      ⟨0, ((Isa.Registers.of fun _ => 0).write a0 21).write zero 4, leafView⟩ ∧
    (c'.errorFlag = true ↔ (0 : BitVec 64) = 2) ∧
    (c'.endFlag = true ↔ (⟨2, (Isa.Registers.of fun _ => 0).write a0 21, leafView⟩ : Isa.Hart).Ends) :=
  runCpu_guest .failing (.table (.sv39 1)) leafGuest.memory.bytes leafGuest 0 ⟨0, .of fun _ => 0, leafView⟩
    ⟨2, (Isa.Registers.of fun _ => 0).write a0 21, leafView⟩
    ⟨0, ((Isa.Registers.of fun _ => 0).write a0 21).write zero 4, leafView⟩ 1 2
    ((leafMemory_sv39 _).space (by decide))
    ⟨⟨rfl, .inl rfl, rfl, rfl⟩, rfl, (Function.update_eq_self zero _).symm, Regime.backs_view _ _⟩ rfl
    rfl (by decide +kernel) rfl (.inl (by decide +kernel)) (by decide)

/-! ## Without translation -/

/-- The memory of `c` is that of the architecture, but for the clock. -/
def SameMemory (c : RiscvCpu) (mem : Bytes.Store 32) : Prop :=
  ∀ a, ¬ Bytes.InArea Isa.clock a → c.memory.bytes a = mem a

/-- Away from the clock the same word is loaded. -/
theorem SameMemory.load {mem : Bytes.Store 32} {a : BitVec 64} {w : Nat} (h : c.SameMemory mem)
    (hclear : Isa.Clear a w) (n : Nat) : Bytes.load n c.memory.bytes (flat a) w = Bytes.load n mem (flat a) w :=
  Bytes.load_congr fun k hk => h _ (hclear k hk)

/-- Between two rounds, the processor is in the state `h`. -/
structure Agrees (c : RiscvCpu) (h : Isa.Hart) : Prop where
  plain : c.Plain .bare
  nextPc : c.nextPc = h.pc
  reg : c.reg = h.x.read
  memory : c.SameMemory h.mem
  en64bit : c.en64bit = true

section

variable {h h' : Isa.Hart}

theorem Agrees.stands (ha : c.Agrees h) (s : Bytes.Store 32) : c.Stands .bare s h :=
  ⟨ha.plain, ha.nextPc, ha.reg, Regime.backs_bare.mpr ha.memory⟩

theorem Stands.agrees (ha : c.Stands .bare s h) (h64 : c.en64bit = true) : c.Agrees h :=
  ⟨ha.plain, ha.nextPc, ha.reg, Regime.backs_bare.mp ha.memory, h64⟩

theorem keptIn_bare (hk : h.Kept) (s : Bytes.Store 32) : h.KeptIn .bare s where
  code := ⟨hk.even, Regime.mapped_bare s _ _, Regime.clearOf_bare hk.code⟩
  data := {
    load := fun r hr => Regime.readable_bare (hk.data.load r hr)
    store := fun w _ => Regime.mapped_bare s _ w
    amo := fun r hr => ⟨Regime.mapped_bare s _ _, Regime.clearOf_bare (hk.data.amo r hr)⟩ }
  division := hk.data.division

theorem advance_follows (s : Bytes.Store 32) :
    Machine.Follows Isa.Hart.advance (Isa.Hart.advanceIn .bare s) Eq := by
  rintro h _ h' rfl hs
  refine ⟨h', ?_, rfl⟩
  rw [Isa.Hart.advance, Option.ite_none_right_eq_some] at hs
  rw [Isa.Hart.advanceIn, if_pos ⟨keptIn_bare hs.1.1 s, hs.1.2⟩]
  exact hs.2

/-- What the loop returns without translation. -/
theorem runLoop_isa (host : Host) {t t' : Isa.Hart} {n fuel : Nat} (ha : c.Agrees h)
    (hflags : c.errorFlag = false ∧ c.endFlag = false) (hrun : Machine.after Isa.Hart.advance n h = some t)
    (hk : t.Kept) (hstep : t.step = some t') (hstop : t.Ends ∨ t'.pc = t.pc) (hfuel : n < fuel) :
    ∃ c', runLoop host fuel c = .ok (some c') ∧ c'.Agrees t' ∧ (c'.errorFlag = true ↔ t'.pc = t.pc) ∧
      (c'.endFlag = true ↔ t.Ends) := by
  let s := c.memory.bytes
  obtain ⟨_, hrun, rfl⟩ := (advance_follows s).after rfl hrun
  obtain ⟨c', hloop, ha', h64, hflags⟩ := runLoop_guest host (Regime.space_bare s) ⟨ha.stands s, ha.en64bit, hflags⟩
    hrun (keptIn_bare hk s) hstep hstop hfuel
  exact ⟨c', hloop, ha'.agrees h64, hflags⟩

end

/-- **The emulator executes RV64IMAC.** From a state in agreement with one of
the architecture, without translation, interrupts and devices, `RunCpu`
returns the state that the architecture comes to, when it comes to a program
end or an instruction that leads to itself by steps that the emulator keeps
to (`Isa.Hart.Kept`); it reports an error in the second case, and the end of
the program in the first. -/
theorem runCpu_isa (host : Host) (c : RiscvCpu) (startPc : BitVec 64) (h t t' : Isa.Hart) (n fuel : Nat)
    (ha : (c.start startPc).Agrees h) (hrun : Machine.after Isa.Hart.advance n h = some t) (hk : t.Kept)
    (hs : t.step = some t') (hstop : t.Ends ∨ t'.pc = t.pc) (hfuel : n < fuel) :
    ∃ c', c.runCpu host fuel startPc = .ok (some c') ∧ c'.Agrees t' ∧ (c'.errorFlag = true ↔ t'.pc = t.pc) ∧
      (c'.endFlag = true ↔ t.Ends) :=
  runLoop_isa host ha ⟨rfl, rfl⟩ hrun hk hs hstop hfuel

/-- `addi a0, x0, 42` and a return, at address 0. -/
def answering : RiscvCpu :=
  (new true 0).setMemory (((MemoryWrapper.new.assign 0).setWord 0 0 0x02A00513).setWord 0 1 0x00008067)

/-- Before the first instruction, -/
def answeringHart : Isa.Hart := ⟨0, .of fun _ => 0, answering.memory.bytes⟩

/-- before the return, -/
def returningHart : Isa.Hart := ⟨4, answeringHart.x.write a0 42, answering.memory.bytes⟩

/-- and after it. -/
def returnedHart : Isa.Hart := ⟨0, returningHart.x.write zero 8, answering.memory.bytes⟩

theorem runCpu_isa_answering : ∃ c', answering.runCpu .failing 2 0 = .ok (some c') ∧ c'.Agrees returnedHart ∧
    (c'.errorFlag = true ↔ returnedHart.pc = returningHart.pc) ∧ (c'.endFlag = true ↔ returningHart.Ends) :=
  runCpu_isa .failing answering 0 answeringHart returningHart returnedHart 1 2
    ⟨⟨rfl, .inl rfl, rfl, rfl⟩, rfl, (Function.update_eq_self zero _).symm, fun _ _ => rfl, rfl⟩ rfl
    (by decide +kernel) rfl (.inl (by decide +kernel)) (by decide)

end RiscvCpu

end RiscvEmulator
