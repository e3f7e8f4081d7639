/-
What each part of a round can change.

`control` is the part of the state that only traps, returns from them, CSR
instructions and interrupts write. `execute_effect` says so for the whole
`switch`, so that a property of the control state has few cases to look at.
The accesses to memory are taken apart once: `LoadPath` and `StorePath` are
the ways through one of them, and `AccessSimulation` is what two processors
need in common to make the same accesses.
-/
import RiscvEmulator.AccessFacts
import RiscvEmulator.MmuFacts
import RiscvEmulator.Rv32
import RiscvEmulator.TrapFacts

namespace RiscvEmulator

open MemoryWrapper (flat)

/-- The part of the devices that no instruction writes: the result of the
program, and the width it is read with. -/
def PeripheralEmulator.hostSide (p : PeripheralEmulator) : Nat × BitVec 64 := (p.mxl, p.hostValue)

namespace RiscvCpu

/-- The control state. -/
structure Control where
  en64bit : Bool
  pc : BitVec 64
  mstatus : BitVec 64
  mie : BitVec 64
  mip : BitVec 64
  privilege : PrivilegeMode
  csrs : BitVec 12 → BitVec 64
  prevPageFault : Bool
  prevFaultingAddress : BitVec 64
  ecallEmulation : Bool
  hostEmulation : Bool
  peripheralEmulation : Bool
  disableMachineInterruptDelegation : Bool
  trapLog : List (Nat × Bool)

def control (c : RiscvCpu) : Control where
  en64bit := c.en64bit
  pc := c.pc
  mstatus := c.mstatus
  mie := c.mie
  mip := c.mip
  privilege := c.privilege
  csrs := c.csrs
  prevPageFault := c.prevPageFault
  prevFaultingAddress := c.prevFaultingAddress
  ecallEmulation := c.ecallEmulation
  hostEmulation := c.hostEmulation
  peripheralEmulation := c.peripheralEmulation
  disableMachineInterruptDelegation := c.disableMachineInterruptDelegation
  trapLog := c.trapLog

variable {c c' : RiscvCpu} {host : Host}

/-! ## Translations -/

/-- A translation that returns, in terms of the unit's. -/
theorem virtualToPhysical_ok {va pa : BitVec 64} {write : Bool} (h : c.virtualToPhysical va write = .ok (pa, c')) :
    ∃ p mmu memory, c.accessPrivilege = .ok p ∧
      ((c.mmu.setMxl c.mxl).setPrivilege p).virtualToPhysical c.memory va (c.csrs Csr.satp) write =
        .ok (pa, mmu, memory) ∧
      c' = { c with mmu, memory, pageFault := c.pageFault || mmu.pageFault,
                    faultingAddress := if mmu.pageFault then mmu.faultingAddress else c.faultingAddress } := by
  unfold virtualToPhysical at h
  obtain ⟨p, hp, h⟩ := Except.bind_ok_iff.mp h
  obtain ⟨⟨pa', mmu, memory⟩, hm, h⟩ := Except.bind_ok_iff.mp h
  dsimp only at h
  split at h
  · next hf => cases h; exact ⟨p, mmu, memory, hp, hm, by simp only [hf, Bool.or_true, if_true]⟩
  · next hf =>
    cases h
    rw [Bool.not_eq_true] at hf
    exact ⟨p, mmu, memory, hp, hm, by simp only [hf, Bool.or_false, if_false, Bool.false_eq_true]⟩

/-- The regime an access is translated in. -/
def regime (c : RiscvCpu) : Except Crash Regime := do
  let privilege ← c.accessPrivilege
  return if privilege = .machineMode then .bare
    else ((c.mmu.setMxl c.mxl).setPrivilege privilege).regime (c.csrs Csr.satp)

/-- The state after a translation that does not fault. -/
theorem virtualToPhysical_of_some {R : Regime} {va : BitVec 64} {t : Translation} (hR : c.regime = .ok R)
    (ht : R.translate c.memory.bytes va = some t) (write : Bool) :
    ∃ mmu memory, c.virtualToPhysical va write = .ok (t.address, { c with mmu, memory }) ∧
      memory.bytes = t.mark c.memory.bytes write ∧ mmu.pageFault = false := by
  obtain ⟨p, hp, hR⟩ := Except.bind_ok_iff.mp hR
  cases hR
  have h := ((c.mmu.setMxl c.mxl).setPrivilege p).virtualToPhysical_spec c.memory va (c.csrs Csr.satp) write
  rw [show ((c.mmu.setMxl c.mxl).setPrivilege p).privilege = p from rfl, ht] at h
  obtain ⟨m', hm, hb⟩ := h
  refine ⟨((c.mmu.setMxl c.mxl).setPrivilege p).after va false, m', ?_, hb, rfl⟩
  rw [virtualToPhysical, hp, Except.ok_bind]
  dsimp only
  rw [hm]
  rfl

/-- The state after one that does: the memory is as it was. -/
theorem virtualToPhysical_of_none {R : Regime} {va : BitVec 64} (hR : c.regime = .ok R)
    (ht : R.translate c.memory.bytes va = none) (write : Bool) :
    ∃ mmu, c.virtualToPhysical va write = .ok (va, { c with mmu, pageFault := true, faultingAddress := va }) ∧
      mmu.pageFault = true := by
  obtain ⟨p, hp, hR⟩ := Except.bind_ok_iff.mp hR
  cases hR
  have h := ((c.mmu.setMxl c.mxl).setPrivilege p).virtualToPhysical_spec c.memory va (c.csrs Csr.satp) write
  rw [show ((c.mmu.setMxl c.mxl).setPrivilege p).privilege = p from rfl, ht] at h
  refine ⟨((c.mmu.setMxl c.mxl).setPrivilege p).after va true, ?_, rfl⟩
  rw [virtualToPhysical, hp, Except.ok_bind]
  dsimp only
  rw [h]
  rfl

/-- A translation returns unless the mode to translate for is not one. -/
theorem regime_of_ok {va pa : BitVec 64} {write : Bool} (h : c.virtualToPhysical va write = .ok (pa, c')) :
    ∃ R, c.regime = .ok R := by
  obtain ⟨p, -, -, hp, -⟩ := virtualToPhysical_ok h
  exact ⟨_, by rw [regime, hp]; rfl⟩

/-- The regime is chosen by the control state. -/
theorem regime_of_control (h : c'.control = c.control) : c'.regime = c.regime := by
  have hp : c'.privilege = c.privilege := congrArg Control.privilege h
  have hc : c'.csrs = c.csrs := congrArg Control.csrs h
  have he : c'.en64bit = c.en64bit := congrArg Control.en64bit h
  unfold regime accessPrivilege Mmu.regime mxl
  rw [hp, hc, he]
  rfl

/-- The translation of `va` faults. -/
def Faults (c : RiscvCpu) (va : BitVec 64) : Prop := ∃ R, c.regime = .ok R ∧ R.translate c.memory.bytes va = none

/-- The flag after a translation. -/
theorem virtualToPhysical_pageFault {va pa : BitVec 64} {write : Bool}
    (h : c.virtualToPhysical va write = .ok (pa, c')) :
    (c.Faults va ∧ c'.pageFault = true) ∨ (¬ c.Faults va ∧ c'.pageFault = c.pageFault) := by
  obtain ⟨R, hR⟩ := regime_of_ok h
  cases ht : R.translate c.memory.bytes va with
  | none =>
    obtain ⟨mmu, hv, -⟩ := virtualToPhysical_of_none hR ht write
    rw [hv] at h
    cases h
    exact .inl ⟨⟨R, hR, ht⟩, rfl⟩
  | some t =>
    obtain ⟨mmu, m, hv, -, -⟩ := virtualToPhysical_of_some hR ht write
    rw [hv] at h
    cases h
    refine .inr ⟨?_, rfl⟩
    rintro ⟨R', hR', ht'⟩
    rw [hR] at hR'
    cases hR'
    rw [ht] at ht'
    cases ht'

/-- Translating one address changes no other translation. -/
theorem faults_virtualToPhysical {va pa : BitVec 64} {write : Bool} (h : c.virtualToPhysical va write = .ok (pa, c'))
    (va' : BitVec 64) : c'.Faults va' ↔ c.Faults va' := by
  obtain ⟨R, hR⟩ := regime_of_ok h
  obtain ⟨p, mmu, memory, -, -, hc'⟩ := virtualToPhysical_ok h
  have hR' : c'.regime = c.regime := regime_of_control (by rw [hc']; rfl)
  have hb : ∃ s, c'.memory.bytes = s ∧ R.translate s va' = R.translate c.memory.bytes va' := by
    cases ht : R.translate c.memory.bytes va with
    | none =>
      obtain ⟨mmu, hv, -⟩ := virtualToPhysical_of_none hR ht write
      rw [hv] at h
      cases h
      exact ⟨_, rfl, rfl⟩
    | some t =>
      obtain ⟨mmu, m, hv, hb, -⟩ := virtualToPhysical_of_some hR ht write
      rw [hv] at h
      cases h
      exact ⟨_, hb, (Regime.translate_mark ht write va').1⟩
  obtain ⟨s, hs, hst⟩ := hb
  unfold Faults
  rw [hR', hR]
  constructor
  · rintro ⟨R', hr, ht⟩
    cases hr
    rw [hs, hst] at ht
    exact ⟨R, rfl, ht⟩
  · rintro ⟨R', hr, ht⟩
    cases hr
    rw [← hst, ← hs] at ht
    exact ⟨R, rfl, ht⟩

/-- What the memory accesses leave alone. -/
structure Kept (c c' : RiscvCpu) : Prop where
  control : c'.control = c.control
  brk : c'.brk = c.brk
  hostSide : c'.peripheral.hostSide = c.peripheral.hostSide

theorem Kept.trans {c₁ c₂ c₃ : RiscvCpu} (h : Kept c₁ c₂) (h' : Kept c₂ c₃) : Kept c₁ c₃ :=
  ⟨h'.control.trans h.control, h'.brk.trans h.brk, h'.hostSide.trans h.hostSide⟩

theorem virtualToPhysical_kept {va pa : BitVec 64} {write : Bool} (h : c.virtualToPhysical va write = .ok (pa, c')) :
    Kept c c' ∧ c'.reg = c.reg := by
  obtain ⟨p, mmu, memory, -, -, rfl⟩ := virtualToPhysical_ok h
  exact ⟨⟨rfl, rfl, rfl⟩, rfl⟩

/-- What a translation leaves alone. -/
structure Translated (c c' : RiscvCpu) : Prop where
  control : c'.control = c.control
  reg : c'.reg = c.reg
  peripheral : c'.peripheral = c.peripheral

theorem Translated.trans {c₁ c₂ c₃ : RiscvCpu} (h : Translated c₁ c₂) (h' : Translated c₂ c₃) : Translated c₁ c₃ :=
  ⟨h'.control.trans h.control, h'.reg.trans h.reg, h'.peripheral.trans h.peripheral⟩

theorem Translated.regime (h : Translated c c') : c'.regime = c.regime := regime_of_control h.control

/-- A translation that does not fault, by what it changes. -/
theorem virtualToPhysical_some {R : Regime} {va : BitVec 64} {t : Translation} (hR : c.regime = .ok R)
    (ht : R.translate c.memory.bytes va = some t) (write : Bool) :
    ∃ c', c.virtualToPhysical va write = .ok (t.address, c') ∧ Translated c c' ∧ c'.pageFault = c.pageFault ∧
      c'.faultingAddress = c.faultingAddress ∧ c'.memory.bytes = t.mark c.memory.bytes write ∧
      c'.mmu.pageFault = false := by
  obtain ⟨mmu, m, h, hb, hm⟩ := virtualToPhysical_of_some hR ht write
  exact ⟨_, h, ⟨rfl, rfl, rfl⟩, rfl, rfl, hb, hm⟩

/-- One that does. -/
theorem virtualToPhysical_none {R : Regime} {va : BitVec 64} (hR : c.regime = .ok R)
    (ht : R.translate c.memory.bytes va = none) (write : Bool) :
    ∃ c', c.virtualToPhysical va write = .ok (va, c') ∧ Translated c c' ∧ c'.pageFault = true ∧
      c'.faultingAddress = va ∧ c'.memory.bytes = c.memory.bytes ∧ c'.mmu.pageFault = true := by
  obtain ⟨mmu, h, hm⟩ := virtualToPhysical_of_none hR ht write
  exact ⟨_, h, ⟨rfl, rfl, rfl⟩, rfl, rfl, rfl, hm⟩

theorem hostSide_checkDeviceWrite (p : PeripheralEmulator) (a : BitVec 64) (w : Nat) (d : BitVec 64) :
    (p.checkDeviceWrite a w d).hostSide = p.hostSide := by
  unfold PeripheralEmulator.checkDeviceWrite
  dsimp only
  split <;> split <;> split <;> rfl

theorem hostSide_checkDeviceRead (p : PeripheralEmulator) (a : BitVec 64) (w : Nat) :
    (p.checkDeviceRead a w).hostSide = p.hostSide := by
  unfold PeripheralEmulator.checkDeviceRead
  split <;> rfl

/-! ## Loads, stores and atomic operations -/

/-- A page fault of a data access: nothing but the memory and the fault's
own record has changed when `Trap` is entered. -/
def FaultTrap (c c' : RiscvCpu) (cause : Nat) : Prop :=
  ∃ c₀, Kept c c₀ ∧ c₀.reg = c.reg ∧ c₀.pageFault = true ∧ c' = c₀.trapBody cause false

/-- The ways through a load: each of its one or two translations can fault. -/
inductive LoadPath (c : RiscvCpu) (i : Instruction) (rd rs1 : BitVec 5) (imm : BitVec 32) : RiscvCpu → Prop
  | fault {m : MemoryWrapper} {pa : BitVec 64} {c₁ : RiscvCpu}
      (clock : c.peripheral.memoryMappedValueUpdate c.memory = .ok m)
      (first : { c with memory := m }.virtualToPhysical (c.reg rs1 + imm.signExtend 64) false = .ok (pa, c₁))
      (pageFault : c₁.pageFault = true) : LoadPath c i rd rs1 imm (c₁.trapBody loadPageFault false)
  | whole {m : MemoryWrapper} {pa v : BitVec 64} {c₁ : RiscvCpu} {w : Nat}
      (clock : c.peripheral.memoryMappedValueUpdate c.memory = .ok m)
      (first : { c with memory := m }.virtualToPhysical (c.reg rs1 + imm.signExtend 64) false = .ok (pa, c₁))
      (pageFault : c₁.pageFault = false) (width : getLoadWidth i = .ok w)
      (data : loadWd c₁.memory pa (getAccessWidth w pa) = .ok v) (last : ¬ w - getAccessWidth w pa > 0) :
      LoadPath c i rd rs1 imm
        ({ c₁ with peripheral := c₁.peripheral.checkDeviceRead pa w }.setReg rd (extendLoad i v w))
  | secondFault {m : MemoryWrapper} {pa pa₂ v : BitVec 64} {c₁ c₂ : RiscvCpu} {w : Nat}
      (clock : c.peripheral.memoryMappedValueUpdate c.memory = .ok m)
      (first : { c with memory := m }.virtualToPhysical (c.reg rs1 + imm.signExtend 64) false = .ok (pa, c₁))
      (firstFault : c₁.pageFault = false) (width : getLoadWidth i = .ok w)
      (data : loadWd c₁.memory pa (getAccessWidth w pa) = .ok v) (more : w - getAccessWidth w pa > 0)
      (second : c₁.virtualToPhysical (pa + BitVec.ofNat 64 (getAccessWidth w pa)) false = .ok (pa₂, c₂))
      (pageFault : c₂.pageFault = true) : LoadPath c i rd rs1 imm (c₂.trapBody loadPageFault false)
  | cut {m : MemoryWrapper} {pa pa₂ v v₂ : BitVec 64} {c₁ c₂ : RiscvCpu} {w : Nat}
      (clock : c.peripheral.memoryMappedValueUpdate c.memory = .ok m)
      (first : { c with memory := m }.virtualToPhysical (c.reg rs1 + imm.signExtend 64) false = .ok (pa, c₁))
      (firstFault : c₁.pageFault = false) (width : getLoadWidth i = .ok w)
      (data : loadWd c₁.memory pa (getAccessWidth w pa) = .ok v) (more : w - getAccessWidth w pa > 0)
      (second : c₁.virtualToPhysical (pa + BitVec.ofNat 64 (getAccessWidth w pa)) false = .ok (pa₂, c₂))
      (pageFault : c₂.pageFault = false) (high : loadWd c₂.memory pa₂ (w - getAccessWidth w pa) = .ok v₂) :
      LoadPath c i rd rs1 imm ({ c₂ with peripheral := c₂.peripheral.checkDeviceRead pa w }.setReg rd
        (extendLoad i (v ||| (v₂ <<< (getAccessWidth w pa * 8))) w))

theorem loadInstruction_path {i : Instruction} {rd rs1 : BitVec 5} {imm : BitVec 32}
    (h : c.loadInstruction i rd rs1 imm = .ok c') : LoadPath c i rd rs1 imm c' := by
  obtain ⟨m, clock, h⟩ := Except.bind_ok_iff.mp h
  dsimp only at h
  obtain ⟨⟨pa, c₁⟩, first, h⟩ := Except.bind_ok_iff.mp h
  dsimp only at h
  split at h
  · next hf =>
    obtain ⟨-, rfl⟩ := trap_ok_iff.mp h
    exact .fault clock first hf
  next hf =>
  obtain ⟨w, width, h⟩ := Except.bind_ok_iff.mp h
  obtain ⟨v, data, h⟩ := Except.bind_ok_iff.mp h
  split at h
  · next more =>
    obtain ⟨⟨pa₂, c₂⟩, second, h⟩ := Except.bind_ok_iff.mp h
    dsimp only at h
    split at h
    · next hf₂ =>
      obtain ⟨-, rfl⟩ := trap_ok_iff.mp h
      exact .secondFault clock first (Bool.eq_false_iff.mpr hf) width data more second hf₂
    next hf₂ =>
    obtain ⟨v₂, high, h⟩ := Except.bind_ok_iff.mp h
    cases h
    exact .cut clock first (Bool.eq_false_iff.mpr hf) width data more second (Bool.eq_false_iff.mpr hf₂) high
  · next last =>
    cases h
    exact .whole clock first (Bool.eq_false_iff.mpr hf) width data last

/-- The ways through a store: the second part is translated from the address
of its first byte. -/
inductive StorePath (c : RiscvCpu) (i : Instruction) (rs1 rs2 : BitVec 5) (imm : BitVec 32) : RiscvCpu → Prop
  | fault {pa : BitVec 64} {c₁ : RiscvCpu}
      (first : c.virtualToPhysical (c.reg rs1 + imm.signExtend 64) true = .ok (pa, c₁))
      (pageFault : c₁.pageFault = true) : StorePath c i rs1 rs2 imm (c₁.trapBody storePageFault false)
  | whole {pa : BitVec 64} {c₁ : RiscvCpu} {m : MemoryWrapper} {w n : Nat}
      (first : c.virtualToPhysical (c.reg rs1 + imm.signExtend 64) true = .ok (pa, c₁))
      (pageFault : c₁.pageFault = false) (width : getStoreWidth i = .ok w)
      (part : getAccessWidth w (c.reg rs1 + imm.signExtend 64) = n)
      (data : storeWd c₁.memory pa (c₁.reg rs2 &&& (generateBitMask (n * 8)).signExtend 64) n = .ok m)
      (last : ¬ w - n > 0) : StorePath c i rs1 rs2 imm
        { c₁ with memory := m, peripheral := c₁.peripheral.checkDeviceWrite pa w (c₁.reg rs2) }
  | secondFault {pa pa₂ : BitVec 64} {c₁ c₂ : RiscvCpu} {m : MemoryWrapper} {w n : Nat}
      (first : c.virtualToPhysical (c.reg rs1 + imm.signExtend 64) true = .ok (pa, c₁))
      (firstFault : c₁.pageFault = false) (width : getStoreWidth i = .ok w)
      (part : getAccessWidth w (c.reg rs1 + imm.signExtend 64) = n)
      (data : storeWd c₁.memory pa (c₁.reg rs2 &&& (generateBitMask (n * 8)).signExtend 64) n = .ok m)
      (more : w - n > 0)
      (second : { c₁ with memory := m }.virtualToPhysical (c.reg rs1 + imm.signExtend 64 + BitVec.ofNat 64 n) true =
        .ok (pa₂, c₂))
      (pageFault : c₂.pageFault = true) : StorePath c i rs1 rs2 imm (c₂.trapBody storePageFault false)
  | cut {pa pa₂ : BitVec 64} {c₁ c₂ : RiscvCpu} {m m₂ : MemoryWrapper} {w n : Nat}
      (first : c.virtualToPhysical (c.reg rs1 + imm.signExtend 64) true = .ok (pa, c₁))
      (firstFault : c₁.pageFault = false) (width : getStoreWidth i = .ok w)
      (part : getAccessWidth w (c.reg rs1 + imm.signExtend 64) = n)
      (data : storeWd c₁.memory pa (c₁.reg rs2 &&& (generateBitMask (n * 8)).signExtend 64) n = .ok m)
      (more : w - n > 0)
      (second : { c₁ with memory := m }.virtualToPhysical (c.reg rs1 + imm.signExtend 64 + BitVec.ofNat 64 n) true =
        .ok (pa₂, c₂))
      (pageFault : c₂.pageFault = false) (high : storeWd c₂.memory pa₂ (c₂.reg rs2 >>> (n * 8)) (w - n) = .ok m₂) :
      StorePath c i rs1 rs2 imm
        { c₂ with memory := m₂, peripheral := c₂.peripheral.checkDeviceWrite pa w (c₂.reg rs2) }

theorem storeInstruction_path {i : Instruction} {rs1 rs2 : BitVec 5} {imm : BitVec 32}
    (h : c.storeInstruction i rs1 rs2 imm = .ok c') : StorePath c i rs1 rs2 imm c' := by
  obtain ⟨⟨pa, c₁⟩, first, h⟩ := Except.bind_ok_iff.mp h
  dsimp only at h
  split at h
  · next hf =>
    obtain ⟨-, rfl⟩ := trap_ok_iff.mp h
    exact .fault first hf
  next hf =>
  obtain ⟨w, width, h⟩ := Except.bind_ok_iff.mp h
  obtain ⟨m, data, h⟩ := Except.bind_ok_iff.mp h
  split at h
  · next more =>
    obtain ⟨⟨pa₂, c₂⟩, second, h⟩ := Except.bind_ok_iff.mp h
    dsimp only at h
    split at h
    · next hf₂ =>
      obtain ⟨-, rfl⟩ := trap_ok_iff.mp h
      exact .secondFault first (Bool.eq_false_iff.mpr hf) width rfl data more second hf₂
    next hf₂ =>
    obtain ⟨m₂, high, h⟩ := Except.bind_ok_iff.mp h
    cases h
    exact .cut first (Bool.eq_false_iff.mpr hf) width rfl data more second (Bool.eq_false_iff.mpr hf₂) high
  · next last =>
    cases h
    exact .whole first (Bool.eq_false_iff.mpr hf) width rfl data last

section

variable {i : Instruction} {rd rs1 rs2 : BitVec 5} {imm : BitVec 32} {m : MemoryWrapper} {pa pa₂ v : BitVec 64}
  {w n : Nat} {c₁ c₂ : RiscvCpu}

/-! The calls of `Trap`, each where a translation has faulted. -/

theorem loadInstruction_call (clock : c.peripheral.memoryMappedValueUpdate c.memory = .ok m)
    (first : { c with memory := m }.virtualToPhysical (c.reg rs1 + imm.signExtend 64) false = .ok (pa, c₁))
    (fault : c₁.pageFault = true) : c.loadInstruction i rd rs1 imm = c₁.trap loadPageFault false := by
  rw [loadInstruction, clock, Except.ok_bind]
  dsimp only
  rw [first, Except.ok_bind]
  dsimp only
  rw [if_pos fault, trap_eq (by decide)]

theorem loadInstruction_second_call (clock : c.peripheral.memoryMappedValueUpdate c.memory = .ok m)
    (first : { c with memory := m }.virtualToPhysical (c.reg rs1 + imm.signExtend 64) false = .ok (pa, c₁))
    (firstFault : c₁.pageFault = false) (width : getLoadWidth i = .ok w)
    (data : loadWd c₁.memory pa (getAccessWidth w pa) = .ok v) (more : w - getAccessWidth w pa > 0)
    (second : c₁.virtualToPhysical (pa + BitVec.ofNat 64 (getAccessWidth w pa)) false = .ok (pa₂, c₂))
    (fault : c₂.pageFault = true) : c.loadInstruction i rd rs1 imm = c₂.trap loadPageFault false := by
  rw [loadInstruction, clock, Except.ok_bind]
  dsimp only
  rw [first, Except.ok_bind]
  dsimp only
  rw [if_neg (Bool.eq_false_iff.mp firstFault), width, Except.ok_bind, data, Except.ok_bind, if_pos more, second,
    Except.ok_bind]
  dsimp only
  rw [if_pos fault, trap_eq (by decide)]

theorem storeInstruction_call
    (first : c.virtualToPhysical (c.reg rs1 + imm.signExtend 64) true = .ok (pa, c₁))
    (fault : c₁.pageFault = true) : c.storeInstruction i rs1 rs2 imm = c₁.trap storePageFault false := by
  rw [storeInstruction]
  dsimp only
  rw [first, Except.ok_bind]
  dsimp only
  rw [if_pos fault, trap_eq (by decide)]

theorem storeInstruction_second_call
    (first : c.virtualToPhysical (c.reg rs1 + imm.signExtend 64) true = .ok (pa, c₁))
    (firstFault : c₁.pageFault = false) (width : getStoreWidth i = .ok w)
    (part : getAccessWidth w (c.reg rs1 + imm.signExtend 64) = n)
    (data : storeWd c₁.memory pa (c₁.reg rs2 &&& (generateBitMask (n * 8)).signExtend 64) n = .ok m)
    (more : w - n > 0)
    (second : { c₁ with memory := m }.virtualToPhysical (c.reg rs1 + imm.signExtend 64 + BitVec.ofNat 64 n) true =
      .ok (pa₂, c₂))
    (fault : c₂.pageFault = true) : c.storeInstruction i rs1 rs2 imm = c₂.trap storePageFault false := by
  rw [storeInstruction]
  dsimp only
  rw [first, Except.ok_bind]
  dsimp only
  rw [if_neg (Bool.eq_false_iff.mp firstFault), width, Except.ok_bind, part, data, Except.ok_bind, if_pos more, second,
    Except.ok_bind]
  dsimp only
  rw [if_pos fault, trap_eq (by decide)]

end

/-- The load leaves what a way through it leads to. -/
theorem LoadPath.ok {i : Instruction} {rd rs1 : BitVec 5} {imm : BitVec 32} (h : LoadPath c i rd rs1 imm c') :
    c.loadInstruction i rd rs1 imm = .ok c' := by
  cases h with
  | fault clock first pageFault => exact (loadInstruction_call clock first pageFault).trans (trap_eq (by decide))
  | whole clock first pageFault width data last =>
    rw [loadInstruction, clock, Except.ok_bind]
    dsimp only
    rw [first, Except.ok_bind]
    dsimp only
    rw [if_neg (Bool.eq_false_iff.mp pageFault), width, Except.ok_bind, data, Except.ok_bind, if_neg last]
    rfl
  | secondFault clock first firstFault width data more second pageFault =>
    exact (loadInstruction_second_call clock first firstFault width data more second pageFault).trans
      (trap_eq (by decide))
  | cut clock first firstFault width data more second pageFault high =>
    rw [loadInstruction, clock, Except.ok_bind]
    dsimp only
    rw [first, Except.ok_bind]
    dsimp only
    rw [if_neg (Bool.eq_false_iff.mp firstFault), width, Except.ok_bind, data, Except.ok_bind, if_pos more, second,
      Except.ok_bind]
    dsimp only
    rw [if_neg (Bool.eq_false_iff.mp pageFault), high]
    rfl

theorem StorePath.ok {i : Instruction} {rs1 rs2 : BitVec 5} {imm : BitVec 32} (h : StorePath c i rs1 rs2 imm c') :
    c.storeInstruction i rs1 rs2 imm = .ok c' := by
  cases h with
  | fault first pageFault => exact (storeInstruction_call first pageFault).trans (trap_eq (by decide))
  | whole first pageFault width part data last =>
    rw [storeInstruction]
    dsimp only
    rw [first, Except.ok_bind]
    dsimp only
    rw [if_neg (Bool.eq_false_iff.mp pageFault), width, Except.ok_bind, part, data, Except.ok_bind, if_neg last]
    rfl
  | secondFault first firstFault width part data more second pageFault =>
    exact (storeInstruction_second_call first firstFault width part data more second pageFault).trans
      (trap_eq (by decide))
  | cut first firstFault width part data more second pageFault high =>
    rw [storeInstruction]
    dsimp only
    rw [first, Except.ok_bind]
    dsimp only
    rw [if_neg (Bool.eq_false_iff.mp firstFault), width, Except.ok_bind, part, data, Except.ok_bind, if_pos more,
      second, Except.ok_bind]
    dsimp only
    rw [if_neg (Bool.eq_false_iff.mp pageFault), high]
    rfl

/-- What a translation keeps when the memory has been updated before it. -/
theorem virtualToPhysical_kept_memory {m : MemoryWrapper} {va pa : BitVec 64} {write : Bool}
    (h : { c with memory := m }.virtualToPhysical va write = .ok (pa, c')) : Kept c c' ∧ c'.reg = c.reg := by
  obtain ⟨hk, hr⟩ := virtualToPhysical_kept h
  exact ⟨⟨hk.control, hk.brk, hk.hostSide⟩, hr⟩

/-- A load ends in a page fault or sets `rd` to what it read, of which no
bit stands above its width. -/
theorem loadInstruction_ok {i : Instruction} {rd rs1 : BitVec 5} {imm : BitVec 32}
    (h : c.loadInstruction i rd rs1 imm = .ok c') :
    FaultTrap c c' loadPageFault ∨
      ∃ w v, getLoadWidth i = .ok w ∧ (∀ j, 8 * w ≤ j → v.getLsbD j = false) ∧ Kept c c' ∧
        c'.reg = Function.update c.reg rd (extendLoad i v w) ∧ c'.pageFault = false := by
  cases loadInstruction_path h with
  | fault _ first hf =>
    obtain ⟨hk, hr⟩ := virtualToPhysical_kept_memory first
    exact .inl ⟨_, hk, hr, hf, rfl⟩
  | @whole m pa v c₁ w _ first hf width data =>
    obtain ⟨hk, hr⟩ := virtualToPhysical_kept_memory first
    have hwidth := getLoadWidth_ok width
    obtain ⟨haw, haw'⟩ := getAccessWidth_pos hwidth pa
    have hw8 := hwidth.bounds.2
    rw [loadWd_eq _ _ haw (by omega)] at data
    refine .inr ⟨w, v, width, fun j hj => ?_, ⟨hk.control, hk.brk, ?_⟩, ?_, hf⟩
    · rw [← Except.ok.inj data]
      exact Bytes.getLsbD_load_of_ge _ _ (by omega)
    · exact (hostSide_checkDeviceRead _ _ _).trans hk.hostSide
    · show Function.update c₁.reg rd _ = _
      rw [hr]
  | secondFault _ first _ _ _ _ second hf =>
    obtain ⟨hk₁, hr₁⟩ := virtualToPhysical_kept_memory first
    obtain ⟨hk₂, hr₂⟩ := virtualToPhysical_kept second
    exact .inl ⟨_, hk₁.trans hk₂, hr₂.trans hr₁, hf, rfl⟩
  | @cut m pa pa₂ v v₂ c₁ c₂ w _ first _ width data more second hf high =>
    obtain ⟨hk₁, hr₁⟩ := virtualToPhysical_kept_memory first
    obtain ⟨hk₂, hr₂⟩ := virtualToPhysical_kept second
    have hk := hk₁.trans hk₂
    have hwidth := getLoadWidth_ok width
    obtain ⟨haw, haw'⟩ := getAccessWidth_pos hwidth pa
    have hw8 := hwidth.bounds.2
    rw [loadWd_eq _ _ haw (by omega)] at data
    rw [loadWd_eq _ _ (by omega) (by omega)] at high
    refine .inr ⟨w, v ||| (v₂ <<< (getAccessWidth w pa * 8)), width, fun j hj => ?_, ⟨hk.control, hk.brk, ?_⟩, ?_, hf⟩
    · rw [← Except.ok.inj data, ← Except.ok.inj high, BitVec.getLsbD_or, BitVec.getLsbD_shiftLeft,
        Bytes.getLsbD_load_of_ge _ _ (by omega),
        Bytes.getLsbD_load_of_ge _ _ (by omega)]
      simp
    · exact (hostSide_checkDeviceRead _ _ _).trans hk.hostSide
    · show Function.update c₂.reg rd _ = _
      rw [hr₂, hr₁]

/-- A store ends in a page fault or changes no register. -/
theorem storeInstruction_ok {i : Instruction} {rs1 rs2 : BitVec 5} {imm : BitVec 32}
    (h : c.storeInstruction i rs1 rs2 imm = .ok c') :
    FaultTrap c c' storePageFault ∨ (Kept c c' ∧ c'.reg = c.reg ∧ c'.pageFault = false) := by
  cases storeInstruction_path h with
  | fault first hf =>
    obtain ⟨hk, hr⟩ := virtualToPhysical_kept first
    exact .inl ⟨_, hk, hr, hf, rfl⟩
  | whole first hf =>
    obtain ⟨hk, hr⟩ := virtualToPhysical_kept first
    exact .inr ⟨⟨hk.control, hk.brk, (hostSide_checkDeviceWrite _ _ _ _).trans hk.hostSide⟩, hr, hf⟩
  | secondFault first _ _ _ _ _ second hf =>
    obtain ⟨hk₁, hr₁⟩ := virtualToPhysical_kept first
    obtain ⟨hk₂, hr₂⟩ := virtualToPhysical_kept_memory second
    exact .inl ⟨_, hk₁.trans hk₂, hr₂.trans hr₁, hf, rfl⟩
  | cut first _ _ _ _ _ second hf =>
    obtain ⟨hk₁, hr₁⟩ := virtualToPhysical_kept first
    obtain ⟨hk₂, hr₂⟩ := virtualToPhysical_kept_memory second
    have hk := hk₁.trans hk₂
    exact .inr ⟨⟨hk.control, hk.brk, (hostSide_checkDeviceWrite _ _ _ _).trans hk.hostSide⟩, hr₂.trans hr₁, hf⟩

/-- An atomic operation sets `rd` to what it loaded, and looks at no page
fault of its own. -/
theorem amoInstruction_ok {i : Instruction} {rd rs1 rs2 : BitVec 5} (h : c.amoInstruction i rd rs1 rs2 = .ok c') :
    ∃ t, Kept c c' ∧ c'.reg = Function.update c.reg rd t ∧ (isAmoDoubleword i = false → Bits.IsSext 32 t) ∧
      ((c.Faults (c.reg rs1) ∧ c'.pageFault = true) ∨
        (¬ c.Faults (c.reg rs1) ∧ c'.pageFault = c.pageFault)) := by
  unfold amoInstruction at h
  dsimp only at h
  obtain ⟨⟨pa₁, c₁⟩, h₁, h⟩ := Except.bind_ok_iff.mp h
  obtain ⟨hk₁, hr₁⟩ := virtualToPhysical_kept h₁
  dsimp only at h
  obtain ⟨t, -, h⟩ := Except.bind_ok_iff.mp h
  obtain ⟨v, -, h⟩ := Except.bind_ok_iff.mp h
  obtain ⟨⟨pa₂, c₂⟩, h₂, h⟩ := Except.bind_ok_iff.mp h
  obtain ⟨hk₂, hr₂⟩ := virtualToPhysical_kept h₂
  dsimp only at h
  obtain ⟨m, -, h⟩ := Except.bind_ok_iff.mp h
  cases h
  refine ⟨if (if isAmoDoubleword i then 8 else 4) = 4 then signExtend t 32 else t,
    ⟨(hk₁.trans hk₂).control, (hk₁.trans hk₂).brk, (hk₁.trans hk₂).hostSide⟩, ?_, ?_, ?_⟩
  · show Function.update c₂.reg rd _ = _
    rw [hr₂, hr₁]
  · intro hd
    simp only [hd, Bool.false_eq_true, if_false, if_true]
    rw [signExtend_eq_sext _ (by decide) (by decide) (by decide)]
    exact Bits.isSext_signExtend _ (by decide)
  · show (_ ∧ c₂.pageFault = true) ∨ (_ ∧ c₂.pageFault = _)
    rcases virtualToPhysical_pageFault h₂ with ⟨hf, hp⟩ | ⟨hf, hp⟩
    · exact .inl ⟨(faults_virtualToPhysical h₁ _).mp hf, hp⟩
    · rw [faults_virtualToPhysical h₁] at hf
      rcases virtualToPhysical_pageFault h₁ with ⟨hf', -⟩ | ⟨-, hp'⟩
      · exact absurd hf' hf
      · exact .inr ⟨hf, hp.trans hp'⟩

/-! ## Processors that access data alike -/

/-- Accesses from states related by `E` keep to it, and end in states related
by `F`. -/
structure AccessSimulation (E F : RiscvCpu → RiscvCpu → Prop) : Prop where
  reg : ∀ {s t}, E s t → s.reg = t.reg
  memory : ∀ {s t}, E s t → s.memory = t.memory
  peripheral : ∀ {s t}, E s t → s.peripheral = t.peripheral
  pageFault : ∀ {s t}, E s t → s.pageFault = t.pageFault
  setMemory : ∀ {s t} (memory : MemoryWrapper), E s t → E { s with memory } { t with memory }
  report : ∀ {s t} (f : PeripheralEmulator → PeripheralEmulator), E s t →
    E { s with peripheral := f s.peripheral } { t with peripheral := f t.peripheral }
  translate : ∀ {s t} (va : BitVec 64) (write : Bool), E s t →
    Except.Related (fun r r' => r.1 = r'.1 ∧ E r.2 r'.2) (s.virtualToPhysical va write) (t.virtualToPhysical va write)
  trap : ∀ {s t} {cause : Nat}, isPageFault cause = true → E s t →
    Except.Related F (s.trap cause false) (t.trap cause false)
  loaded : ∀ {s t} (rd : BitVec 5) (v : BitVec 64), E s t → F (s.setReg rd v) (t.setReg rd v)
  stored : ∀ {s t}, E s t → F s t

namespace AccessSimulation

variable {E F : RiscvCpu → RiscvCpu → Prop} {s t : RiscvCpu}

/-- The same address, computed in each of the two. -/
theorem translate_reg (A : AccessSimulation E F) (h : E s t) (rs1 : BitVec 5) (o : BitVec 64) (write : Bool) :
    Except.Related (fun r r' => r.1 = r'.1 ∧ E r.2 r'.2) (s.virtualToPhysical (s.reg rs1 + o) write)
      (t.virtualToPhysical (t.reg rs1 + o) write) := by
  rw [A.reg h]
  exact A.translate _ _ h

theorem data (A : AccessSimulation E F) (h : E s t) (r : BitVec 5) : s.reg r = t.reg r := congrFun (A.reg h) r

/-- The same word, reported to the device. -/
theorem reported (A : AccessSimulation E F) (h : E s t) (pa : BitVec 64) (w : Nat) (rs2 : BitVec 5) :
    E { s with peripheral := s.peripheral.checkDeviceWrite pa w (s.reg rs2) }
      { t with peripheral := t.peripheral.checkDeviceWrite pa w (t.reg rs2) } := by
  rw [A.data h]
  exact A.report (·.checkDeviceWrite pa w (t.reg rs2)) h

theorem load (A : AccessSimulation E F) (h : E s t) (i : Instruction) (rd rs1 : BitVec 5) (imm : BitVec 32) :
    Except.Related F (s.loadInstruction i rd rs1 imm) (t.loadInstruction i rd rs1 imm) := by
  refine .bind (.of_eq (by rw [A.peripheral h, A.memory h])) ?_
  rintro memory _ rfl
  refine .bind (A.translate_reg (A.setMemory memory h) rs1 _ _) ?_
  rintro ⟨pa, s₁⟩ ⟨_, t₁⟩ ⟨rfl, h₁⟩
  refine .ite (by rw [A.pageFault h₁]) (fun _ => A.trap rfl h₁) fun _ => ?_
  refine .bind (.same (getLoadWidth i)) ?_
  rintro w _ rfl
  refine .bind (.of_eq (by rw [A.memory h₁])) ?_
  rintro v _ rfl
  refine .ite Iff.rfl (fun _ => ?_) fun _ => .ok (A.loaded rd _ (A.report (·.checkDeviceRead pa w) h₁))
  refine .bind (A.translate _ _ h₁) ?_
  rintro ⟨pa₂, s₂⟩ ⟨_, t₂⟩ ⟨rfl, h₂⟩
  refine .ite (by rw [A.pageFault h₂]) (fun _ => A.trap rfl h₂) fun _ => ?_
  refine .bind (.of_eq (by rw [A.memory h₂])) ?_
  rintro v₂ _ rfl
  exact .ok (A.loaded rd _ (A.report (·.checkDeviceRead pa w) h₂))

theorem store (A : AccessSimulation E F) (h : E s t) (i : Instruction) (rs1 rs2 : BitVec 5) (imm : BitVec 32) :
    Except.Related F (s.storeInstruction i rs1 rs2 imm) (t.storeInstruction i rs1 rs2 imm) := by
  have hreg := A.reg h
  refine .bind (A.translate_reg h rs1 _ _) ?_
  rintro ⟨pa, s₁⟩ ⟨_, t₁⟩ ⟨rfl, h₁⟩
  refine .ite (by rw [A.pageFault h₁]) (fun _ => A.trap rfl h₁) fun _ => ?_
  refine .bind (.same (getStoreWidth i)) ?_
  rintro w _ rfl
  refine .bind (.of_eq (by rw [A.memory h₁, hreg, A.data h₁])) ?_
  rintro memory _ rfl
  have hm := A.setMemory memory h₁
  refine .ite (by rw [hreg]) (fun _ => ?_) fun _ => ?_
  · refine .bind (by rw [hreg]; exact A.translate _ _ hm) ?_
    rintro ⟨pa₂, s₂⟩ ⟨_, t₂⟩ ⟨rfl, h₂⟩
    refine .ite (by rw [A.pageFault h₂]) (fun _ => A.trap rfl h₂) fun _ => ?_
    refine .bind (.of_eq (by rw [A.memory h₂, hreg, A.data h₂])) ?_
    rintro memory₂ _ rfl
    exact .ok (A.stored (A.reported (A.setMemory memory₂ h₂) pa w rs2))
  · exact .ok (A.stored (A.reported hm pa w rs2))

theorem amo (A : AccessSimulation E F) (h : E s t) (i : Instruction) (rd rs1 rs2 : BitVec 5) :
    Except.Related F (s.amoInstruction i rd rs1 rs2) (t.amoInstruction i rd rs1 rs2) := by
  have hreg := A.reg h
  refine .bind (by rw [hreg]; exact A.translate _ _ h) ?_
  rintro ⟨pa, s₁⟩ ⟨_, t₁⟩ ⟨rfl, h₁⟩
  refine .bind (.of_eq (by rw [A.memory h₁])) ?_
  rintro v _ rfl
  refine .bind (.of_eq (by rw [A.reg h₁])) ?_
  rintro v' _ rfl
  refine .bind (by rw [hreg]; exact A.translate _ _ h₁) ?_
  rintro ⟨pa₂, s₂⟩ ⟨_, t₂⟩ ⟨rfl, h₂⟩
  refine .bind (.of_eq (by rw [A.memory h₂])) ?_
  rintro memory _ rfl
  exact .ok (A.loaded rd _ (A.setMemory memory h₂))

end AccessSimulation

/-! ## Register instructions -/

theorem xlen_of_32 (h : c.en64bit = false) : c.xlen = 32 := by rw [xlen, h]; rfl

theorem isSext_sext32bit (v : BitVec 64) : Bits.IsSext 32 (sext32bit v) := by
  rw [sext32bit_eq]
  exact Bits.isSext_signExtend _ (by decide)

theorem operationInstruction_ok {i : Instruction} {rd rs1 rs2 : BitVec 5}
    (h : c.operationInstruction i rd rs1 rs2 = .ok c') :
    ∃ v, c' = c.setReg rd v ∧ (c.en64bit = false → Bits.IsSext 32 v) := by
  obtain ⟨t, -, h⟩ := Except.bind_ok_iff.mp h
  cases h
  refine ⟨_, rfl, fun h32 => ?_⟩
  rw [if_pos (.inl (xlen_of_32 h32))]
  exact isSext_sext32bit t

theorem immediateInstruction_ok {i : Instruction} {rd rs1 : BitVec 5} {imm : BitVec 32}
    (h : c.immediateInstruction i rd rs1 imm = .ok c') :
    ∃ v, c' = c.setReg rd v ∧ (c.en64bit = false → Bits.IsSext 32 v) := by
  obtain ⟨t, -, h⟩ := Except.bind_ok_iff.mp h
  cases h
  refine ⟨_, rfl, fun h32 => ?_⟩
  rw [if_pos (.inl (xlen_of_32 h32))]
  exact isSext_sext32bit t

theorem multInstruction_ok {i : Instruction} {rd rs1 rs2 : BitVec 5}
    (h : c.multInstruction i rd rs1 rs2 = .ok c') :
    ∃ v, c' = c.setReg rd v ∧ (c.en64bit = false → Bits.IsSext 32 v) := by
  obtain ⟨t, -, h⟩ := Except.bind_ok_iff.mp h
  cases h
  refine ⟨_, rfl, fun h32 => ?_⟩
  rw [if_pos (.inl (xlen_of_32 h32))]
  exact isSext_sext32bit t

theorem immediateShift_ok {i : Instruction} {x v : BitVec 64} {shamt : Nat}
    (h : immediateShift 32 i x shamt = .ok (some v)) (hx : Bits.IsSext 32 x) : Bits.IsSext 32 v := by
  cases i <;> simp only [immediateShift, if_true] at h <;> try cases h
  all_goals
    obtain ⟨-, -, h⟩ := Except.bind_ok_iff.mp h
    cases h
  case slli | slliw | srli | srliw => exact isSext_sext32bit _
  case srai =>
    rw [hx, Bits.sext, Bits.sshiftRight_signExtend _ _ (by decide)]
    exact Bits.isSext_signExtend _ (by decide)
  case sraiw => exact Bits.isSext_signExtend _ (by decide)

theorem immediateShiftInstruction_ok {i : Instruction} {rd rs1 : BitVec 5} {shamt : BitVec 32}
    (h : c.immediateShiftInstruction i rd rs1 shamt = .ok c') :
    c' = c ∨ ∃ v, c' = c.setReg rd v ∧ (c.en64bit = false → Bits.IsSext 32 (c.reg rs1) → Bits.IsSext 32 v) := by
  obtain ⟨t, ht, h⟩ := Except.bind_ok_iff.mp h
  cases t with
  | none => cases h; exact .inl rfl
  | some v =>
    cases h
    refine .inr ⟨v, rfl, fun h32 hs => ?_⟩
    rw [xlen_of_32 h32] at ht
    exact immediateShift_ok ht hs

/-- What a load gives to `rd` is a 32-bit value, but for the two loads of the
64-bit architecture. -/
theorem isSext_extendLoad {i : Instruction} {w : Nat} {v : BitVec 64} (hw : getLoadWidth i = .ok w)
    (hv : ∀ j, 8 * w ≤ j → v.getLsbD j = false) (hi : i ≠ .lwu) (hi' : i ≠ .ld) :
    Bits.IsSext 32 (extendLoad i v w) := by
  cases i <;> simp only [getLoadWidth, reduceCtorEq] at hw <;> cases hw <;> simp only [extendLoad]
  case lb =>
    rw [signExtend_eq_sext v (by decide) (by decide) (by decide)]
    exact (Bits.isSext_signExtend (v.setWidth 8) (by decide)).mono (by decide) (by decide)
  case lh =>
    rw [signExtend_eq_sext v (by decide) (by decide) (by decide)]
    exact (Bits.isSext_signExtend (v.setWidth 16) (by decide)).mono (by decide) (by decide)
  case lw =>
    rw [signExtend_eq_sext v (by decide) (by decide) (by decide)]
    exact Bits.isSext_signExtend _ (by decide)
  case lbu | lhu => exact Bits.isSext_of_getLsbD (by decide) fun j hj => hv j (by omega)
  case lwu => exact absurd rfl hi
  case ld => exact absurd rfl hi'

/-! ## The switch -/

def isLoad : Instruction → Bool
  | .lb | .lbu | .lh | .lhu | .lw | .lwu | .ld => true
  | _ => false

def isStore : Instruction → Bool
  | .sb | .sh | .sw | .sd => true
  | _ => false

def isAmo : Instruction → Bool
  | .amoaddd | .amoaddw | .amoandd | .amoandw | .amomaxd | .amomaxw | .amomaxud | .amomaxuw | .amomind
  | .amominw | .amominud | .amominuw | .amoord | .amoorw | .amoxord | .amoxorw | .amoswapd | .amoswapw => true
  | _ => false

def isLink : Instruction → Bool
  | .jal | .jalr => true
  | _ => false

def isCsrs : Instruction → Bool
  | .csrrc | .csrrci | .csrrs | .csrrsi | .csrrw | .csrrwi => true
  | _ => false

theorem setReg_ne (c : RiscvCpu) {rd r : BitVec 5} (v : BitVec 64) (h : r ≠ rd) : (c.setReg rd v).reg r = c.reg r :=
  Function.update_of_ne h ..

section

variable {d : Decoded} {csr : BitVec 12}

theorem execute_load (hi : isLoad d.instruction = true) :
    c.execute host d csr = c.loadInstruction d.instruction d.rd d.rs1 d.imm := by
  generalize h : d.instruction = i at hi
  cases i <;> try (cases hi; done)
  all_goals simp only [execute, h]

theorem execute_store (hi : isStore d.instruction = true) :
    c.execute host d csr = c.storeInstruction d.instruction d.rs1 d.rs2 d.imm := by
  generalize h : d.instruction = i at hi
  cases i <;> try (cases hi; done)
  all_goals simp only [execute, h]

theorem execute_amo (hi : isAmo d.instruction = true) :
    c.execute host d csr = c.amoInstruction d.instruction d.rd d.rs1 d.rs2 := by
  generalize h : d.instruction = i at hi
  cases i <;> try (cases hi; done)
  all_goals simp only [execute, h]

/-- A jump to itself raises the flag. -/
theorem execute_jal (hi : d.instruction = .jal) :
    c.execute host d csr = .ok (if c.pc + d.imm.signExtend 64 = c.pc then
      { c.setReg d.rd c.nextPc with nextPc := c.pc + d.imm.signExtend 64, errorFlag := true }
      else { c.setReg d.rd c.nextPc with nextPc := c.pc + d.imm.signExtend 64 }) := by
  simp only [execute, hi]
  rfl

/-- A return to address zero ends the program. The register that it is
recognised by is not the one that is linked. -/
theorem execute_jalr (hi : d.instruction = .jalr) :
    c.execute host d csr = .ok (if d.rd = zero ∧ d.rs1 = ra ∧ c.reg d.rs1 = 0 ∧ d.imm = 0 then
      { c.setReg d.rd c.nextPc with nextPc := (c.reg d.rs1 + d.imm.signExtend 64) &&& ~~~1, endFlag := true }
      else { c.setReg d.rd c.nextPc with nextPc := (c.reg d.rs1 + d.imm.signExtend 64) &&& ~~~1 }) := by
  have hret : (d.rd = zero ∧ d.rs1 = ra ∧ (c.setReg d.rd c.nextPc).reg d.rs1 = 0 ∧ d.imm = 0) ↔
      (d.rd = zero ∧ d.rs1 = ra ∧ c.reg d.rs1 = 0 ∧ d.imm = 0) := by
    refine and_congr_right fun hz => and_congr_right fun hr => ?_
    rw [setReg_ne _ _ (by rw [hz, hr]; decide)]
  simp only [execute, hi]
  by_cases h : d.rd = zero ∧ d.rs1 = ra ∧ c.reg d.rs1 = 0 ∧ d.imm = 0
  · rw [if_pos h]
    exact congrArg Except.ok (if_pos (hret.mpr h))
  · rw [if_neg h]
    exact congrArg Except.ok (if_neg (mt hret.mp h))

end

/-- The loads and atomic operations that only the 64-bit architecture has. -/
def isDoubleword (i : Instruction) : Bool := i = .lwu ∨ i = .ld ∨ isAmoDoubleword i

/-- The cause of an environment call. -/
def ecallCause : PrivilegeMode → Nat
  | .machineMode => ecallMmode
  | .supervisorMode => ecallSmode
  | .userMode => ecallUmode

theorem ecall_eq (c : RiscvCpu) : c.ecall = c.trap (ecallCause c.privilege) false := by
  unfold ecall ecallCause
  cases c.privilege <;> rfl

/-- What the `switch` can do in a state without a page fault. -/
inductive Effect (c : RiscvCpu) (host : Host) (d : Decoded) (csr : BitVec 12) (c' : RiscvCpu) : Prop
  | write (v : BitVec 64) (kept : Kept c c') (reg : c'.reg = Function.update c.reg d.rd v)
      (pageFault : c'.pageFault = true ↔ isAmo d.instruction = true ∧ c.Faults (c.reg d.rs1))
      (link : isLink d.instruction = true → v = c.nextPc)
      (narrow : c.en64bit = false → Bits.IsSext 32 (c.reg d.rs1) → isLink d.instruction = false →
        isDoubleword d.instruction = false → Bits.IsSext 32 v)
  | quiet (kept : Kept c c') (reg : c'.reg = c.reg) (pageFault : c'.pageFault = false)
  | fault (cause : Nat) (page : cause = loadPageFault ∨ cause = storePageFault) (trap : FaultTrap c c' cause)
      (site : (cause = loadPageFault ∧ ∃ w, getLoadWidth d.instruction = .ok w) ∨
        (cause = storePageFault ∧ ∃ w, getStoreWidth d.instruction = .ok w))
  | ecall (cause : Nat) (page : isPageFault cause = false) (trap : c' = c.trapBody cause false)
      (site : d.instruction = .system ∧ d.imm = 0 ∧ c.ecallEmulation = false ∧ cause = ecallCause c.privilege)
  | call (emulated : c.ecallEmulation = true) (system : d.instruction = .system) (call : c.systemCall host = .ok c')
  | csrs (csrs : isCsrs d.instruction = true) (trap : c' = c.csrsInstruction d.instruction csr d.rd d.rs1)
  | mret (system : d.instruction = .system) (imm : d.imm = 0b001100000010) (mret : c.mret = .ok c')
  | sret (system : d.instruction = .system) (imm : d.imm = 0b000100000010) (sret : c.sret = .ok c')

section

variable {d : Decoded} {csr : BitVec 12}

/-- The instructions that only set `rd`. -/
theorem Effect.setReg {v : BitVec 64} (hf : c.pageFault = false) (ha : isAmo d.instruction = false)
    (hl : isLink d.instruction = false)
    (hv : c.en64bit = false → Bits.IsSext 32 (c.reg d.rs1) → Bits.IsSext 32 v) :
    Effect c host d csr (c.setReg d.rd v) := by
  refine .write v ⟨rfl, rfl, rfl⟩ rfl ?_ (fun h => ?_) fun h32 hs _ _ => hv h32 hs
  · simp [show (c.setReg d.rd v).pageFault = c.pageFault from rfl, hf, ha]
  · rw [hl] at h
    cases h

theorem effect_system (hf : c.pageFault = false) (hi : d.instruction = .system)
    (h : c.systemInstruction host d.rd d.imm = .ok c') : Effect c host d csr c' := by
  unfold systemInstruction at h
  split at h
  · next himm =>
    split at h
    · next he => exact .call he hi h
    · next he =>
      rw [ecall_eq] at h
      refine .ecall _ ?_ (trap_ok_iff.mp h).2 ⟨hi, himm, Bool.eq_false_iff.mpr he, rfl⟩
      cases c.privilege <;> decide
  split at h
  · cases h; exact .quiet ⟨rfl, rfl, rfl⟩ rfl hf
  split at h
  · next himm => exact .mret hi himm h
  split at h
  · next himm => exact .sret hi himm h
  split at h <;> cases h <;> exact .quiet ⟨rfl, rfl, rfl⟩ rfl hf

theorem effect_load (hi : isAmo d.instruction = false) (hl : isLink d.instruction = false)
    (hw : ∃ w, getLoadWidth d.instruction = .ok w)
    (h : c.loadInstruction d.instruction d.rd d.rs1 d.imm = .ok c') : Effect c host d csr c' := by
  rcases loadInstruction_ok h with ht | ⟨w, v, hw, hv, hk, hr, hp⟩
  · exact .fault _ (.inl rfl) ht (.inl ⟨rfl, hw⟩)
  refine .write _ hk hr ?_ (fun h => ?_) fun _ _ _ hd => ?_
  · simp [hp, hi]
  · rw [hl] at h
    cases h
  · simp only [isDoubleword, decide_eq_false_iff_not, not_or] at hd
    exact isSext_extendLoad hw hv hd.1 hd.2.1

theorem effect_store (hw : ∃ w, getStoreWidth d.instruction = .ok w)
    (h : c.storeInstruction d.instruction d.rs1 d.rs2 d.imm = .ok c') :
    Effect c host d csr c' := by
  rcases storeInstruction_ok h with ht | ⟨hk, hr, hp⟩
  · exact .fault _ (.inr rfl) ht (.inr ⟨rfl, hw⟩)
  · exact .quiet hk hr hp

theorem effect_amo (hf : c.pageFault = false) (hi : isAmo d.instruction = true) (hl : isLink d.instruction = false)
    (h : c.amoInstruction d.instruction d.rd d.rs1 d.rs2 = .ok c') : Effect c host d csr c' := by
  obtain ⟨t, hk, hr, ht, hp⟩ := amoInstruction_ok h
  refine .write t hk hr ?_ (fun h => ?_) fun _ _ _ hd => ?_
  · rcases hp with ⟨hfault, hp⟩ | ⟨hfault, hp⟩
    · exact ⟨fun _ => ⟨hi, hfault⟩, fun _ => hp⟩
    · simp [hp, hf, hfault]
  · rw [hl] at h
    cases h
  · simp only [isDoubleword, decide_eq_false_iff_not, not_or, Bool.not_eq_true] at hd
    exact ht hd.2.2

theorem effect_link (hf : c.pageFault = false) (hi : d.instruction = .jal ∨ d.instruction = .jalr)
    (h : c.execute host d csr = .ok c') : Effect c host d csr c' := by
  have hlink : Kept c c' ∧ c'.reg = Function.update c.reg d.rd c.nextPc ∧ c'.pageFault = c.pageFault := by
    rcases hi with hi | hi <;> simp only [execute, hi] at h <;> split at h <;> cases h <;>
      exact ⟨⟨rfl, rfl, rfl⟩, rfl, rfl⟩
  obtain ⟨hk, hr, hp⟩ := hlink
  refine .write c.nextPc hk hr ?_ (fun _ => rfl) (fun _ _ hl _ => ?_)
  · rw [hp, hf]
    rcases hi with hi | hi <;> simp [hi, isAmo]
  · rcases hi with hi | hi <;> rw [hi] at hl <;> cases hl

/-- Every instruction has one of the effects. -/
theorem execute_effect (hf : c.pageFault = false) (h : c.execute host d csr = .ok c') : Effect c host d csr c' := by
  cases hi : d.instruction
  case jal => exact effect_link hf (.inl hi) h
  case jalr => exact effect_link hf (.inr hi) h
  all_goals
    have ha := congrArg isAmo hi
    have hl := congrArg isLink hi
    simp only [execute, hi] at h
  case add | addw | and | sub | subw | or | xor | sll | sllw | srl | srlw | sra | sraw =>
    obtain ⟨v, rfl, hv⟩ := operationInstruction_ok h
    exact .setReg hf ha hl fun h32 _ => hv h32
  case addi | addiw | andi | ori | xori =>
    obtain ⟨v, rfl, hv⟩ := immediateInstruction_ok h
    exact .setReg hf ha hl fun h32 _ => hv h32
  case slli | slliw | srli | srliw | srai | sraiw =>
    rcases immediateShiftInstruction_ok h with rfl | ⟨v, rfl, hv⟩
    · exact .quiet ⟨rfl, rfl, rfl⟩ rfl hf
    · exact .setReg hf ha hl hv
  case mul | mulh | mulhsu | mulhu | mulw | div | divu | divuw | divw | rem | remu | remuw | remw =>
    obtain ⟨v, rfl, hv⟩ := multInstruction_ok h
    exact .setReg hf ha hl fun h32 _ => hv h32
  case slt | sltu | slti | sltiu =>
    cases h
    refine .setReg hf ha hl fun _ _ => ?_
    split <;> decide
  case lui | auipc =>
    cases h
    refine .setReg hf ha hl fun h32 _ => ?_
    rw [if_pos (xlen_of_32 h32)]
    exact isSext_sext32bit _
  case beq | bge | bgeu | blt | bltu | bne | fence | fencei | error =>
    cases h
    exact .quiet ⟨rfl, rfl, rfl⟩ rfl hf
  case lb | lbu | lh | lhu | lw | lwu | ld => exact effect_load ha hl ⟨_, by rw [hi]; rfl⟩ (by rw [hi]; exact h)
  case sb | sh | sw | sd => exact effect_store ⟨_, by rw [hi]; rfl⟩ (by rw [hi]; exact h)
  case system => exact effect_system hf hi h
  case csrrc | csrrci | csrrs | csrrsi | csrrw | csrrwi =>
    cases h
    exact .csrs (by rw [hi]; rfl) (by rw [hi])
  all_goals exact effect_amo hf ha hl (by rw [hi]; exact h)

end

end RiscvCpu

end RiscvEmulator
