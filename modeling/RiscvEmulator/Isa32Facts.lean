/-
The emulator executes the architecture of 32-bit mode.

`Hart.wide` is a state of that architecture as the emulator has it, with the
sign extensions of its registers and its address. What an instruction does
to it is what the 64-bit one does to the wide state, but for what it
computes (`Performs.wide`), and that is `Rv32`'s business.
-/
import RiscvEmulator.Guest
import RiscvEmulator.Isa32

namespace RiscvEmulator

open MemoryWrapper (flat flat_add)

namespace Isa32

/-! ## Addresses -/

section

variable {a b : BitVec 32}

theorem flat_wide (a : BitVec 32) : flat (a.signExtend 64) = a := RiscvCpu.narrow a

theorem flat_wide_add (a b : BitVec 32) : flat (a.signExtend 64 + b.signExtend 64) = a + b := by
  rw [flat, RiscvCpu.narrow_add, RiscvCpu.narrow]

/-- A sum that does not overflow is the sum of the wide words. -/
theorem wide_sum {i : Int} (hb : b.toInt = i) (h : InRange (a.toInt + i)) :
    a.signExtend 64 + b.signExtend 64 = (a + b).signExtend 64 := by
  obtain ⟨hlow, hhigh⟩ := h
  refine BitVec.eq_of_toInt_eq ?_
  rw [RiscvCpu.toInt_wide, BitVec.toInt_add, BitVec.toInt_add, RiscvCpu.toInt_wide, RiscvCpu.toInt_wide, hb,
    Int.bmod_eq_of_le (by omega) (by omega), Int.bmod_eq_of_le (by omega) (by omega)]

theorem wide_even (a : BitVec 32) : a.signExtend 64 &&& ~~~1 = (a &&& ~~~1).signExtend 64 := by
  rw [BitVec.signExtend_and]
  rfl

theorem wide_toNat_mod (a : BitVec 32) {k : Nat} (hk : 2 ^ 32 % k = 0) : (a.signExtend 64).toNat % k = a.toNat % k := by
  have hlow := MemoryWrapper.toNat_flat (a.signExtend 64)
  rw [flat_wide] at hlow
  rw [hlow, Nat.mod_mod_of_dvd _ (Nat.dvd_of_mod_eq_zero hk)]

end

/-! ## Wide states -/

def Registers.wide (x : Registers) : Isa.Registers := ⟨fun r => (x.read r).signExtend 64, by rw [x.read_zero]; rfl⟩

theorem Registers.wide_write (x : Registers) (rd : BitVec 5) (v : BitVec 32) :
    (x.write rd v).wide = x.wide.write rd (v.signExtend 64) := by
  refine Isa.Registers.ext (funext fun r => ?_)
  simp only [Registers.wide, Registers.write, Registers.of, Isa.Registers.write, Isa.Registers.of,
    Function.update_apply]
  split_ifs <;> rfl

namespace Hart

variable {h h' : Hart} {d : Decoded} {next : BitVec 32}

def wide (h : Hart) : Isa.Hart := ⟨h.pc.signExtend 64, h.x.wide, h.mem⟩

theorem wide_parcel (h : Hart) : RiscvEmulator.parcel h.mem h.wide.pc = h.parcel h.pc := by
  rw [RiscvEmulator.parcel, wide, flat_wide]
  rfl

theorem wide_parcel_add (h : Hart) : RiscvEmulator.parcel h.mem (h.wide.pc + 2) = h.parcel (h.pc + 2) := by
  rw [RiscvEmulator.parcel, show (2 : BitVec 64) = BitVec.ofNat 64 2 from rfl, flat_add, wide, flat_wide]
  rfl

theorem wide_word (h : Hart) : h.wide.word = h.word := by
  rw [Isa.Hart.word, word, ← wide_parcel, ← wide_parcel_add]
  rfl

theorem wide_size (h : Hart) : h.wide.size = h.size := by
  rw [Isa.Hart.size, size, ← wide_parcel]
  rfl

theorem wide_next (hr : InRange (h.pc.toInt + h.size)) : h.wide.next = h.next.signExtend 64 := by
  have hsize : h.size = 2 ∨ h.size = 4 := by
    unfold size
    split <;> simp
  rw [Isa.Hart.next, wide_size, next, ← wide_sum (i := h.size) ?_ hr]
  · rcases hsize with hs | hs <;> rw [hs] <;> rfl
  · rcases hsize with hs | hs <;> rw [hs] <;> rfl

end Hart

/-! ## Instructions that are those of 64 bits -/

section

variable {i : Instruction} {x y : BitVec 32} {b signed : Bool} {w : Nat} {op : Amo}

/-- The instruction computes nothing in 64-bit mode. -/
def ComputesNothing (i : Instruction) : Prop := ∀ x y imm pc, Isa.value i x y imm pc = none

theorem computesNothing_of_taken (h : Rv32.taken i x y = some b) : ComputesNothing i := by
  cases i <;> cases h <;> exact fun _ _ _ _ => rfl

theorem computesNothing_of_load (h : loadOf i = some (w, signed)) : ComputesNothing i := by
  cases i <;> cases h <;> exact fun _ _ _ _ => rfl

theorem computesNothing_of_store (h : storeOf i = some w) : ComputesNothing i := by
  cases i <;> cases h <;> exact fun _ _ _ _ => rfl

theorem computesNothing_of_amo (h : amoOf i = some op) : ComputesNothing i := by
  cases i <;> cases h <;> exact fun _ _ _ _ => rfl

theorem wide_taken (h : Rv32.taken i x y = some b) : Isa.taken i (x.signExtend 64) (y.signExtend 64) = some b := by
  have hlt : ∀ x y : BitVec 32, (x.signExtend 64).toNat < (y.signExtend 64).toNat ↔ x.toNat < y.toNat :=
    RiscvCpu.wide_lt_iff
  rw [← h]
  cases i <;> cases h
  case beq | bne => simp only [Isa.taken, Rv32.taken, RiscvCpu.wide_eq_iff, ne_eq]
  case blt | bge => simp only [Isa.taken, Rv32.taken, RiscvCpu.toInt_wide]
  case bltu => simp only [Isa.taken, Rv32.taken, hlt]
  case bgeu => simp only [Isa.taken, Rv32.taken, ← Nat.not_lt, hlt]

theorem wide_load (h : loadOf i = some (w, signed)) : Isa.loadOf i = some (w, signed) := by
  cases i <;> cases h <;> rfl

theorem wide_amo (h : amoOf i = some op) : RiscvEmulator.amoOf i = some (op, 4) := by
  cases i <;> cases h <;> rfl

theorem wide_store (h : storeOf i = some w) : Isa.storeOf i = some w := by
  cases i <;> cases h <;> rfl

theorem storeOf_le (h : storeOf i = some w) : w ≤ 4 := by
  cases i <;> cases h <;> decide

/-- A word that is not too wide has no sign. -/
theorem wide_setWidth {n : Nat} (v : BitVec n) (h : n < 32) : (v.setWidth 32).signExtend 64 = v.setWidth 64 := by
  have hlt : v.toNat < 2 ^ 31 := Nat.lt_of_lt_of_le v.isLt (Nat.pow_le_pow_right (by decide) (by omega))
  have hmsb : (v.setWidth 32).msb = false := by
    rw [BitVec.msb_eq_decide, BitVec.toNat_setWidth_of_le (by omega), decide_eq_false_iff_not]
    omega
  rw [BitVec.signExtend_eq_setWidth_of_msb_false hmsb]
  refine BitVec.eq_of_toNat_eq ?_
  rw [BitVec.toNat_setWidth_of_le (by omega), BitVec.toNat_setWidth_of_le (by omega),
    BitVec.toNat_setWidth_of_le (by omega)]

theorem wide_extended (h : loadOf i = some (w, signed)) (mem : Bytes.Store 32) :
    Isa.extended mem (x.signExtend 64 + y.signExtend 64) w signed =
      (extended mem (x + y) w signed).signExtend 64 := by
  rw [Isa.extended, extended, flat_wide_add]
  cases signed with
  | true =>
    have hw : 8 * w ≤ 32 := by cases i <;> cases h <;> decide
    exact (Bits.signExtend_signExtend _ hw).symm
  | false =>
    have hw : 8 * w < 32 := by cases i <;> cases h <;> decide
    exact (wide_setWidth _ hw).symm

end

namespace Hart

variable {h h' : Hart} {d : Decoded} {next : BitVec 32}

/-- What an instruction can do. -/
inductive Performs (h : Hart) (d : Decoded) (next : BitVec 32) : Hart → Prop
  | value {v : BitVec 32} (computes : value d.instruction (h.x.read d.rs1) (h.x.read d.rs2) d.imm h.pc = some v) :
      Performs h d next { h with x := h.x.write d.rd v, pc := next }
  | branch {b : Bool} (compares : Rv32.taken d.instruction (h.x.read d.rs1) (h.x.read d.rs2) = some b) :
      Performs h d next { h with pc := if b then h.pc + d.imm else next }
  | load {w : Nat} {signed : Bool} (loads : loadOf d.instruction = some (w, signed)) : Performs h d next
      { h with x := h.x.write d.rd (extended h.mem (h.x.read d.rs1 + d.imm) w signed), pc := next }
  | store {w : Nat} (stores : storeOf d.instruction = some w) : Performs h d next
      { h with mem := Bytes.store h.mem (h.x.read d.rs1 + d.imm) (h.x.read d.rs2) w, pc := next }
  | amo {op : Amo} (operates : amoOf d.instruction = some op) (aligned : (h.x.read d.rs1).toNat % 4 = 0) :
      Performs h d next
      { pc := next
        x := h.x.write d.rd (Bytes.load 32 h.mem (h.x.read d.rs1) 4)
        mem := Bytes.store h.mem (h.x.read d.rs1)
          (op.apply (Bytes.load 32 h.mem (h.x.read d.rs1) 4) (h.x.read d.rs2)) 4 }
  | jal (links : d.instruction = .jal) :
      Performs h d next { h with x := h.x.write d.rd next, pc := h.pc + d.imm }
  | jalr (links : d.instruction = .jalr) :
      Performs h d next { h with x := h.x.write d.rd next, pc := (h.x.read d.rs1 + d.imm) &&& ~~~1 }
  | fence (waits : d.instruction = .fence ∨ d.instruction = .fencei) : Performs h d next { h with pc := next }

theorem perform_cases (hs : h.perform d next = some h') : Performs h d next h' := by
  unfold perform at hs
  dsimp only at hs
  split at hs
  · next hi => cases hs; exact .jal hi
  · next hi => cases hs; exact .jalr hi
  · next hi => cases hs; exact .fence (.inl hi)
  · next hi => cases hs; exact .fence (.inr hi)
  split at hs
  · cases hs; exact .value ‹_›
  · cases hs; exact .branch ‹_›
  · cases hs; exact .load ‹_›
  · cases hs; exact .store ‹_›
  · split at hs
    · next ha => cases hs; exact .amo ‹_› ha
    · cases hs
  · cases hs

/-- An instruction that computes nothing does to the wide state what it does
in 64-bit mode. -/
theorem Performs.wide (hk : h.Within d) (hs : Performs h d next h') :
    (∃ v, Isa32.value d.instruction (h.x.read d.rs1) (h.x.read d.rs2) d.imm h.pc = some v ∧
      h' = { h with x := h.x.write d.rd v, pc := next }) ∨
    (ComputesNothing d.instruction ∧ h.wide.Performs d (next.signExtend 64) h'.wide) := by
  have htarget := hk.target
  cases hs with
  | value computes => exact .inl ⟨_, computes, rfl⟩
  | @branch b compares =>
    have hbase : h.baseOf d = some h.pc := by
      unfold baseOf
      generalize d.instruction = i at compares
      cases i <;> cases compares <;> rfl
    have hpc : (if b then h.pc + d.imm else next).signExtend 64 =
        if b then h.wide.pc + d.imm.signExtend 64 else next.signExtend 64 := by
      have hsum : h.wide.pc + d.imm.signExtend 64 = (h.pc + d.imm).signExtend 64 := wide_sum rfl (htarget _ hbase)
      rw [hsum]
      split <;> rfl
    refine .inr ⟨computesNothing_of_taken compares, ?_⟩
    show h.wide.Performs d (next.signExtend 64)
      ⟨(if b then h.pc + d.imm else next).signExtend 64, h.wide.x, h.wide.mem⟩
    rw [hpc]
    exact .branch (wide_taken compares)
  | @load w signed loads =>
    refine .inr ⟨computesNothing_of_load loads, ?_⟩
    show h.wide.Performs d (next.signExtend 64)
      ⟨next.signExtend 64, (h.x.write d.rd (extended h.mem (h.x.read d.rs1 + d.imm) w signed)).wide, h.mem⟩
    rw [Registers.wide_write, ← wide_extended loads]
    exact .load (wide_load loads)
  | @store w stores =>
    have hle := storeOf_le stores
    have hstore : Bytes.store h.mem (h.x.read d.rs1 + d.imm) (h.x.read d.rs2) w =
        Bytes.store h.mem (flat ((h.x.read d.rs1).signExtend 64 + d.imm.signExtend 64))
          ((h.x.read d.rs2).signExtend 64) w := by
      rw [flat_wide_add, ← Bytes.store_setWidth (m := 32) _ _ ((h.x.read d.rs2).signExtend 64) (by omega),
        RiscvCpu.narrow]
    refine .inr ⟨computesNothing_of_store stores, ?_⟩
    show h.wide.Performs d (next.signExtend 64)
      ⟨next.signExtend 64, h.wide.x, Bytes.store h.mem (h.x.read d.rs1 + d.imm) (h.x.read d.rs2) w⟩
    rw [hstore]
    exact .store (wide_store stores)
  | @amo op operates aligned =>
    have hperforms : h.wide.Performs d (next.signExtend 64) _ :=
      .amo (wide_amo operates) ((wide_toNat_mod _ rfl).trans aligned)
    rw [show flat (h.wide.x.read d.rs1) = h.x.read d.rs1 from flat_wide _,
      show (h.wide.x.read d.rs2).setWidth (8 * 4) = h.x.read d.rs2 from RiscvCpu.narrow _,
      show h.wide.x = h.x.wide from rfl, ← Registers.wide_write] at hperforms
    exact .inr ⟨computesNothing_of_amo operates, hperforms⟩
  | jal links =>
    have hbase : h.baseOf d = some h.pc := by rw [baseOf, links]
    have hsum : h.wide.pc + d.imm.signExtend 64 = (h.pc + d.imm).signExtend 64 := wide_sum rfl (htarget _ hbase)
    refine .inr ⟨links ▸ fun _ _ _ _ => rfl, ?_⟩
    show h.wide.Performs d (next.signExtend 64) ⟨(h.pc + d.imm).signExtend 64, (h.x.write d.rd next).wide, h.mem⟩
    rw [← hsum, Registers.wide_write]
    exact .jal links
  | jalr links =>
    have hbase : h.baseOf d = some (h.x.read d.rs1) := by rw [baseOf, links]
    have hsum : h.wide.x.read d.rs1 + d.imm.signExtend 64 = (h.x.read d.rs1 + d.imm).signExtend 64 :=
      wide_sum rfl (htarget _ hbase)
    refine .inr ⟨links ▸ fun _ _ _ _ => rfl, ?_⟩
    show h.wide.Performs d (next.signExtend 64)
      ⟨((h.x.read d.rs1 + d.imm) &&& ~~~1).signExtend 64, (h.x.write d.rd next).wide, h.mem⟩
    rw [← wide_even, ← hsum, Registers.wide_write]
    exact .jalr links
  | fence waits =>
    refine .inr ⟨?_, .fence waits⟩
    rcases waits with hi | hi <;> rw [hi] <;> exact fun _ _ _ _ => rfl

/-- The emulator keeps to the architecture in the guest's space. -/
structure KeptIn (h : Hart) (R : Regime) (s : Bytes.Store 32) : Prop where
  code : h.wide.CodeIn R s
  data : h.wide.DataIn R s h.decoded
  within : h.Within h.decoded

instance (h : Hart) (R : Regime) (s : Bytes.Store 32) : Decidable (h.KeptIn R s) :=
  decidable_of_iff (_ ∧ _ ∧ _) ⟨fun ⟨h₁, h₂, h₃⟩ => ⟨h₁, h₂, h₃⟩, fun k => ⟨k.code, k.data, k.within⟩⟩

/-- A step there after which the emulator goes on. -/
def advanceIn (R : Regime) (s : Bytes.Store 32) (h : Hart) : Option Hart :=
  if h.KeptIn R s ∧ ¬ h.Ends then h.step.filter fun h' => h'.pc ≠ h.pc else none

theorem wide_endsBy : h.wide.EndsBy d ↔ h.EndsBy d := by
  have hra : h.wide.x.read ra = 0 ↔ h.x.read ra = 0 := RiscvCpu.wide_eq_zero
  rw [Isa.Hart.EndsBy, EndsBy, hra]

theorem wide_pc : h'.wide.pc = h.wide.pc ↔ h'.pc = h.pc := RiscvCpu.wide_eq_iff _ _

end Hart

end Isa32

namespace RiscvCpu

open Isa32 (Hart)

variable {c c' : RiscvCpu} {host : Host} {R : Regime} {s : Bytes.Store 32} {h h' : Hart} {d : Decoded}
  {next : BitVec 32}

/-! ## In a guest's space -/

/-- The `switch` does what the architecture of 32-bit mode says. -/
theorem execute_guest32 (host : Host) (csr : BitVec 12) (hs : R.Space s) (h32 : c.en64bit = false) (hc : c.Plain R)
    (hpc : c.pc = h.wide.pc) (hreg : c.reg = h.wide.x.read) (hmem : R.Backs s h.mem c.memory.bytes)
    (hdata : h.wide.DataIn R s d) (hk : h.Within d) (hnext : c.nextPc = next.signExtend 64)
    (hp : h.Performs d next h') :
    ∃ c', c.execute host d csr = .ok c' ∧ Executed R s c c' h'.wide (h.EndsBy d) := by
  have hlow : c.pc.setWidth 32 = h.pc := by rw [hpc]; exact narrow h.pc
  rw [← Hart.wide_endsBy]
  rcases hp.wide hk with ⟨v, hv, rfl⟩ | ⟨hnothing, hw⟩
  · have hends : ¬ h.wide.EndsBy d := not_endsBy fun hi => by rw [hi] at hv; cases hv
    rw [Isa32.value, Option.ite_none_left_eq_some] at hv
    obtain ⟨hamount, hv⟩ := hv
    have hshift : Rv32.isImmediateShift d.instruction = true → d.imm.toNat < 32 :=
      fun hi => Nat.lt_of_not_le fun hle => hamount ⟨hi, hle⟩
    have hx : c.xlen = 32 := by rw [xlen, h32]; rfl
    rw [← hlow] at hv
    refine ⟨_, execute_value hx (congrFun hreg d.rs1) (congrFun hreg d.rs2) hshift hv, rfl, rfl, hnext, ?_, hmem, .inl,
      (or_iff_left hends).symm⟩
    exact (update_write hreg _ _).trans (congrArg Isa.Registers.read (h.x.wide_write d.rd v).symm)
  · rw [← hnext] at hw
    exact execute_does host csr hs hc hpc hreg hmem hdata hw fun v hv => by
      rw [hnothing] at hv
      cases hv

/-- A step that the emulator keeps to is a round. -/
theorem step_guest32 (host : Host) (hs : R.Space s) (ha : c.Stands R s h.wide) (h32 : c.en64bit = false)
    (hk : h.KeptIn R s) (hstep : h.step = some h') (hflags : c.errorFlag = false ∧ c.endFlag = false) :
    ∃ c', c.step host = .ok c' ∧ Stepped R s c c' h.wide h'.wide h.Ends := by
  have hmxl : c.mxl = 1 := by rw [mxl, h32]; rfl
  refine ha.stepped hs hk.code hflags fun c₂ csr hf => ?_
  have h32₂ : c₂.en64bit = false := hf.en64bit.trans h32
  rw [hmxl, Hart.wide_word]
  exact execute_guest32 host csr hs h32₂ hf.plain hf.pc hf.reg hf.memory hk.data hk.within
    (hf.nextPc.trans (Hart.wide_next hk.within.next)) (Hart.perform_cases hstep)

/-- The state of the loop is that of the guest. -/
def Going32 (R : Regime) (s : Bytes.Store 32) (h : Hart) (c : RiscvCpu) : Prop :=
  c.Stands R s h.wide ∧ c.en64bit = false ∧ c.errorFlag = false ∧ c.endFlag = false

theorem goOn_follows32 (host : Host) (hs : R.Space s) :
    Machine.Follows (Hart.advanceIn R s) (goOn host) (Going32 R s) := by
  rintro h c h' ⟨ha, h32, hf⟩ hstep
  rw [Hart.advanceIn, Option.ite_none_right_eq_some, Option.filter_eq_some_iff] at hstep
  obtain ⟨⟨hk, hends⟩, hstep, hpc⟩ := hstep
  obtain ⟨c', hround, hst⟩ := step_guest32 host hs ha h32 hk hstep hf
  obtain ⟨hgo, hf'⟩ := hst.goOn hround (fun he => by simp [Hart.wide_pc.mp he] at hpc) hends
  exact ⟨c', hgo, hst.toStands, hst.en64bit.trans h32, hf'⟩

/-- **The emulator executes RV32IMAC in virtual memory.** In 32-bit mode,
from a state that stands for one of the architecture, whatever the
translation, `RunCpu` returns one that stands for what the architecture
comes to, on the memory that the guest sees through its translations, by
steps that the emulator keeps to there (`KeptIn`); it reports an error at an
instruction that leads to itself, and the end of the program at its end. -/
theorem runCpu_guest32 (host : Host) (R : Regime) (s : Bytes.Store 32) (c : RiscvCpu) (startPc : BitVec 64)
    (h t t' : Hart) (n fuel : Nat) (hs : R.Space s) (ha : (c.start startPc).Stands R s h.wide)
    (h32 : c.en64bit = false) (hrun : Machine.after (Hart.advanceIn R s) n h = some t) (hk : t.KeptIn R s)
    (hstep : t.step = some t') (hstop : t.Ends ∨ t'.pc = t.pc) (hfuel : n < fuel) :
    ∃ c', c.runCpu host fuel startPc = .ok (some c') ∧ c'.Stands R s t'.wide ∧
      (c'.errorFlag = true ↔ t'.pc = t.pc) ∧ (c'.endFlag = true ↔ t.Ends) := by
  have hgoing : Going32 R s h (c.start startPc) := ⟨ha, h32, rfl, rfl⟩
  obtain ⟨c₁, hrounds, ha₁, h32₁, hf⟩ := (goOn_follows32 host hs).after hgoing hrun
  obtain ⟨c', hround, hst⟩ := step_guest32 host hs ha₁ h32₁ hk hstep hf
  have herror : c'.errorFlag = true ↔ t'.pc = t.pc := hst.errorFlag.trans Hart.wide_pc
  refine ⟨c', runLoop_last hrounds hround ?_ hfuel, hst.toStands, herror, hst.endFlag⟩
  rw [herror, hst.endFlag]
  exact hstop.symm

/-- `c.li a0, 21` and a return, in user mode on 4 MiB at `0x400000`. -/
def leafGuest32 : RiscvCpu :=
  { ((new false 0).setMemory (leafMemory 0x1000CF 0x80824555 0x400000)).setCsr Csr.satp 0x80000001 with
    privilege := .userMode }

/-- What the guest has. -/
def leafView32 : Bytes.Store 32 := (Regime.table (.sv32 1)).view leafGuest32.memory.bytes

theorem runCpu_guest32_leaf : ∃ c', leafGuest32.runCpu .failing 2 0 = .ok (some c') ∧
    c'.Stands (.table (.sv32 1)) leafGuest32.memory.bytes
      (Hart.wide ⟨0, ((Isa32.Registers.of fun _ => 0).write a0 21).write zero 4, leafView32⟩) ∧
    (c'.errorFlag = true ↔ (0 : BitVec 32) = 2) ∧
    (c'.endFlag = true ↔ (⟨2, (Isa32.Registers.of fun _ => 0).write a0 21, leafView32⟩ : Hart).Ends) := by
  have hzero : (Isa32.Registers.of fun _ => 0).read = fun _ => 0 := Function.update_eq_self zero _
  have hreg : (leafGuest32.start 0).reg = (Isa32.Registers.of fun _ => 0).wide.read := by
    show (fun _ => 0) = fun r => ((Isa32.Registers.of fun _ => 0).read r).signExtend 64
    rw [hzero]
    rfl
  exact runCpu_guest32 .failing (.table (.sv32 1)) leafGuest32.memory.bytes leafGuest32 0
    ⟨0, .of fun _ => 0, leafView32⟩
    ⟨2, (Isa32.Registers.of fun _ => 0).write a0 21, leafView32⟩
    ⟨0, ((Isa32.Registers.of fun _ => 0).write a0 21).write zero 4, leafView32⟩ 1 2
    ((leafMemory_sv32 _).space (by decide)) ⟨⟨rfl, .inl rfl, rfl, rfl⟩, rfl, hreg, Regime.backs_view _ _⟩ rfl rfl
    (by decide +kernel) rfl (.inl (by decide +kernel)) (by decide)

end RiscvCpu

end RiscvEmulator
