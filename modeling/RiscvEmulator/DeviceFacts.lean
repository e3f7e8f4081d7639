/-
What a round does to the devices, and where it meets the memory.

`footprint` is the bytes an instruction loads and stores, and the range a
store reports to `CheckDeviceWrite`; `execute_reports` says that it is the
only one. `guestStage` is a round up to the point where the devices run.
-/
import RiscvEmulator.RoundFacts

namespace RiscvEmulator

/-- The physical ranges an instruction meets, as addresses and widths. -/
structure Footprint where
  /-- Each with the memory it is read from. -/
  loaded : List (BitVec 64 × Nat × MemoryWrapper) := []
  stored : List (BitVec 64 × Nat) := []
  /-- What `CheckDeviceWrite` is called with. -/
  reported : Option (BitVec 64 × Nat) := none

namespace RiscvCpu

variable {c c' : RiscvCpu} {host : Host}

/-! ## The ranges -/

/-- Those of `LoadInstruction`; a load that faults returns nothing. -/
def loadFootprint (c : RiscvCpu) (instruction : Instruction) (rs1 : BitVec 5) (imm12 : BitVec 32) :
    Except Crash Footprint := do
  let c := { c with memory := ← c.peripheral.memoryMappedValueUpdate c.memory }
  let (address, c) ← c.virtualToPhysical (c.reg rs1 + imm12.signExtend 64) false
  if c.pageFault then
    return {}
  let width ← getLoadWidth instruction
  let accessWidth := getAccessWidth width address
  let nextWidth := width - accessWidth
  if nextWidth > 0 then
    let (nextAddress, c') ← c.virtualToPhysical (address + BitVec.ofNat 64 accessWidth) false
    return if c'.pageFault then {}
      else { loaded := [(address, accessWidth, c.memory), (nextAddress, nextWidth, c'.memory)] }
  return { loaded := [(address, accessWidth, c.memory)] }

/-- Those of `StoreInstruction`; when the second half faults, the first one
has been stored and is not reported. -/
def storeFootprint (c : RiscvCpu) (instruction : Instruction) (rs1 rs2 : BitVec 5) (imm12Stype : BitVec 32) :
    Except Crash Footprint := do
  let dstAddress := c.reg rs1 + imm12Stype.signExtend 64
  let (address, c) ← c.virtualToPhysical dstAddress true
  if c.pageFault then
    return {}
  let width ← getStoreWidth instruction
  let accessWidth := getAccessWidth width dstAddress
  let nextWidth := width - accessWidth
  let data := c.reg rs2 &&& (generateBitMask (accessWidth * 8)).signExtend 64
  let c := { c with memory := ← storeWd c.memory address data accessWidth }
  if nextWidth > 0 then
    let (nextAddress, c) ← c.virtualToPhysical (dstAddress + BitVec.ofNat 64 accessWidth) true
    return if c.pageFault then { stored := [(address, accessWidth)] }
      else { stored := [(address, accessWidth), (nextAddress, nextWidth)], reported := some (address, width) }
  return { stored := [(address, accessWidth)], reported := some (address, width) }

/-- Those of `AmoInstruction`, which reports nothing. -/
def amoFootprint (c : RiscvCpu) (instruction : Instruction) (rs1 : BitVec 5) : Except Crash Footprint := do
  let wordWidth := if isAmoDoubleword instruction then 8 else 4
  let (source, c) ← c.virtualToPhysical (c.reg rs1) false
  let (destination, _) ← c.virtualToPhysical (c.reg rs1) true
  return { loaded := [(source, wordWidth, c.memory)], stored := [(destination, wordWidth)] }

def footprint (c : RiscvCpu) (d : Decoded) : Footprint :=
  (if isLoad d.instruction then c.loadFootprint d.instruction d.rs1 d.imm
    else if isStore d.instruction then c.storeFootprint d.instruction d.rs1 d.rs2 d.imm
    else if isAmo d.instruction then c.amoFootprint d.instruction d.rs1
    else .ok {}).toOption.getD {}

/-- What an instruction does to the devices, with the range it reports. -/
inductive Reports (c c' : RiscvCpu) : Option (BitVec 64 × Nat) → Prop
  | quiet (peripheral : c'.peripheral = c.peripheral) : Reports c c' none
  | read (a : BitVec 64) (w : Nat) (peripheral : c'.peripheral = c.peripheral.checkDeviceRead a w) : Reports c c' none
  | write (a : BitVec 64) (w : Nat) (data : BitVec 64)
      (peripheral : c'.peripheral = c.peripheral.checkDeviceWrite a w data) : Reports c c' (some (a, w))

theorem virtualToPhysical_peripheral {va pa : BitVec 64} {write : Bool}
    (h : c.virtualToPhysical va write = .ok (pa, c')) :
    c'.peripheral = c.peripheral := by
  obtain ⟨p, mmu, memory, -, -, rfl⟩ := virtualToPhysical_ok h
  rfl

theorem trap_peripheral {cause : Nat} {interrupt : Bool} (h : c.trap cause interrupt = .ok c') :
    c'.peripheral = c.peripheral := by
  rw [(trap_ok_iff.mp h).2]
  exact trapBody_peripheral

theorem fetchStage_peripheral (h : c.fetchStage = .ok c') : c'.peripheral = c.peripheral := by
  obtain ⟨⟨ir, c₁⟩, hload, h⟩ := Except.bind_ok_iff.mp h
  cases h
  cases loadCmd_path hload with
  | one first => exact (virtualToPhysical_peripheral first :)
  | two first half second => exact (virtualToPhysical_peripheral second).trans (virtualToPhysical_peripheral first)

theorem loadInstruction_reports {i : Instruction} {rd rs1 : BitVec 5} {imm : BitVec 32}
    (h : c.loadInstruction i rd rs1 imm = .ok c') : Reports c c' none := by
  cases loadInstruction_path h with
  | fault _ first hf => exact .quiet (trapBody_peripheral.trans (virtualToPhysical_peripheral first :))
  | @whole m pa v c₁ w _ first =>
    exact .read pa w (congrArg (·.checkDeviceRead pa w) (virtualToPhysical_peripheral first :))
  | secondFault _ first _ _ _ _ second hf =>
    exact .quiet (trapBody_peripheral.trans ((virtualToPhysical_peripheral second).trans
      (virtualToPhysical_peripheral first :)))
  | @cut m pa pa₂ v v₂ c₁ c₂ w _ first _ width data more second =>
    exact .read pa w (congrArg (·.checkDeviceRead pa w) ((virtualToPhysical_peripheral second).trans
      (virtualToPhysical_peripheral first :)))

theorem virtualToPhysical_reg {va pa : BitVec 64} {write : Bool} (h : c.virtualToPhysical va write = .ok (pa, c'))
    (r : BitVec 5) : c'.reg r = c.reg r :=
  congrFun (virtualToPhysical_kept h).2 r

/-- What a store does to the devices: nothing, or it reports its range with
its register. -/
theorem storeInstruction_writes {i : Instruction} {rs1 rs2 : BitVec 5} {imm : BitVec 32}
    (h : c.storeInstruction i rs1 rs2 imm = .ok c') :
    ∃ f, c.storeFootprint i rs1 rs2 imm = .ok f ∧ ((f.reported = none ∧ c'.peripheral = c.peripheral) ∨
      ∃ a w, w ≤ 8 ∧ f.reported = some (a, w) ∧
        c'.peripheral = c.peripheral.checkDeviceWrite a w (c.reg rs2)) := by
  unfold storeFootprint
  dsimp only
  cases storeInstruction_path h with
  | fault first hf =>
    have hp₁ := virtualToPhysical_peripheral first
    rw [first, Except.ok_bind]
    dsimp only
    rw [if_pos hf]
    exact ⟨{}, rfl, .inl ⟨rfl, trapBody_peripheral.trans hp₁⟩⟩
  | @whole pa c₁ m w n first hf width part data last =>
    have hp₁ := virtualToPhysical_peripheral first
    have hr₁ := virtualToPhysical_reg first rs2
    rw [first, Except.ok_bind]
    dsimp only
    rw [if_neg (Bool.eq_false_iff.mp hf), width, Except.ok_bind, part, data, Except.ok_bind, if_neg last]
    exact ⟨_, rfl, .inr ⟨pa, w, (getStoreWidth_ok width).bounds.2, rfl, by rw [← hp₁, ← hr₁]⟩⟩
  | secondFault first hf width part data more second hf₂ =>
    have hp₁ := virtualToPhysical_peripheral first
    have hp₂ := (virtualToPhysical_peripheral second).trans hp₁
    rw [first, Except.ok_bind]
    dsimp only
    rw [if_neg (Bool.eq_false_iff.mp hf), width, Except.ok_bind, part, data, Except.ok_bind, if_pos more, second,
      Except.ok_bind]
    dsimp only
    rw [if_pos hf₂]
    exact ⟨_, rfl, .inl ⟨rfl, trapBody_peripheral.trans hp₂⟩⟩
  | @cut pa pa₂ c₁ c₂ m m₂ w n first hf width part data more second hf₂ high =>
    have hp₁ := virtualToPhysical_peripheral first
    have hp₂ := (virtualToPhysical_peripheral second).trans hp₁
    have hr₁ := virtualToPhysical_reg first rs2
    have hr₂ := (virtualToPhysical_reg second rs2).trans hr₁
    rw [first, Except.ok_bind]
    dsimp only
    rw [if_neg (Bool.eq_false_iff.mp hf), width, Except.ok_bind, part, data, Except.ok_bind, if_pos more, second,
      Except.ok_bind]
    dsimp only
    rw [if_neg (Bool.eq_false_iff.mp hf₂)]
    exact ⟨_, rfl, .inr ⟨pa, w, (getStoreWidth_ok width).bounds.2, rfl, by rw [← hp₂, ← hr₂]⟩⟩

theorem storeInstruction_reports {i : Instruction} {rs1 rs2 : BitVec 5} {imm : BitVec 32}
    (h : c.storeInstruction i rs1 rs2 imm = .ok c') :
    ∃ f, c.storeFootprint i rs1 rs2 imm = .ok f ∧ Reports c c' f.reported := by
  obtain ⟨f, hf, ⟨hr, hp⟩ | ⟨a, w, -, hr, hp⟩⟩ := storeInstruction_writes h
  · exact ⟨f, hf, hr ▸ .quiet hp⟩
  · exact ⟨f, hf, hr ▸ .write a w (c.reg rs2) hp⟩

theorem amoInstruction_reports {i : Instruction} {rd rs1 rs2 : BitVec 5} (h : c.amoInstruction i rd rs1 rs2 = .ok c') :
    Reports c c' none := by
  unfold amoInstruction at h
  obtain ⟨⟨pa₁, c₁⟩, h₁, h⟩ := Except.bind_ok_iff.mp h
  obtain ⟨t, -, h⟩ := Except.bind_ok_iff.mp h
  obtain ⟨v, -, h⟩ := Except.bind_ok_iff.mp h
  obtain ⟨⟨pa₂, c₂⟩, h₂, h⟩ := Except.bind_ok_iff.mp h
  obtain ⟨m, -, h⟩ := Except.bind_ok_iff.mp h
  cases h
  exact .quiet ((virtualToPhysical_peripheral h₂).trans (virtualToPhysical_peripheral h₁))

theorem systemInstruction_reports {rd : BitVec 5} {imm : BitVec 32} (h : c.systemInstruction host rd imm = .ok c') :
    Reports c c' none := by
  unfold systemInstruction at h
  split at h
  · split at h
    · obtain ⟨r, -, h⟩ := Except.bind_ok_iff.mp h
      cases h
      exact .quiet rfl
    · unfold RiscvCpu.ecall at h
      split at h <;> exact .quiet (trap_peripheral h)
  split at h
  · cases h; exact .quiet rfl
  split at h
  · exact .quiet (congrArg Data.peripheral (mret_data h))
  split at h
  · exact .quiet (congrArg Data.peripheral (sret_data h))
  split at h <;> cases h <;> exact .quiet rfl

/-- Only stores report. -/
theorem footprint_reported {d : Decoded} (hs : isStore d.instruction = false) : (c.footprint d).reported = none := by
  have hload : ∀ f, c.loadFootprint d.instruction d.rs1 d.imm = .ok f → f.reported = none := by
    intro f h
    unfold loadFootprint at h
    obtain ⟨m₀, -, h⟩ := Except.bind_ok_iff.mp h
    obtain ⟨⟨pa, c₁⟩, -, h⟩ := Except.bind_ok_iff.mp h
    dsimp only at h
    split at h
    · cases h; rfl
    obtain ⟨w, -, h⟩ := Except.bind_ok_iff.mp h
    split at h
    · obtain ⟨⟨pa₂, c₂⟩, -, h⟩ := Except.bind_ok_iff.mp h
      cases h
      dsimp only
      split <;> rfl
    · cases h; rfl
  have hamo : ∀ f, c.amoFootprint d.instruction d.rs1 = .ok f → f.reported = none := by
    intro f h
    obtain ⟨⟨pa, c₁⟩, -, h⟩ := Except.bind_ok_iff.mp h
    obtain ⟨⟨pa₂, c₂⟩, -, h⟩ := Except.bind_ok_iff.mp h
    cases h
    rfl
  have hresult : ∀ x : Except Crash Footprint, (∀ f, x = .ok f → f.reported = none) →
      (x.toOption.getD {}).reported = none := by
    intro x hx
    cases x with
    | error e => rfl
    | ok f => exact hx f rfl
  rw [footprint, hs]
  split
  · exact hresult _ hload
  split
  · exact absurd ‹_› (by simp)
  split
  · exact hresult _ hamo
  · rfl

theorem footprint_store {d : Decoded} {f : Footprint} (hs : isStore d.instruction = true)
    (h : c.storeFootprint d.instruction d.rs1 d.rs2 d.imm = .ok f) : c.footprint d = f := by
  have hl : isLoad d.instruction = false := by
    cases hi : d.instruction <;> rw [hi] at hs <;> first | rfl | cases hs
  rw [footprint, hl, hs, h]
  rfl

/-- What an instruction does to the devices is what its footprint says. -/
theorem execute_reports {d : Decoded} {csr : BitVec 12} (h : c.execute host d csr = .ok c') :
    Reports c c' (c.footprint d).reported := by
  cases hs : isStore d.instruction with
  | true =>
    rw [execute_store hs] at h
    obtain ⟨f, hf, hr⟩ := storeInstruction_reports h
    rw [footprint_store hs hf]
    exact hr
  | false =>
    rw [footprint_reported hs]
    cases hi : d.instruction <;> simp only [execute, hi] at h
    case add | addw | and | sub | subw | or | xor | sll | sllw | srl | srlw | sra | sraw =>
      obtain ⟨v, rfl, -⟩ := operationInstruction_ok h
      exact .quiet rfl
    case addi | addiw | andi | ori | xori =>
      obtain ⟨v, rfl, -⟩ := immediateInstruction_ok h
      exact .quiet rfl
    case slli | slliw | srli | srliw | srai | sraiw =>
      rcases immediateShiftInstruction_ok h with rfl | ⟨v, rfl, -⟩ <;> exact .quiet rfl
    case mul | mulh | mulhsu | mulhu | mulw | div | divu | divuw | divw | rem | remu | remuw | remw =>
      obtain ⟨v, rfl, -⟩ := multInstruction_ok h
      exact .quiet rfl
    case slt | sltu | slti | sltiu | lui | auipc | beq | bge | bgeu | blt | bltu | bne | fence | fencei | error =>
      cases h
      exact .quiet rfl
    case jal | jalr =>
      split at h <;> cases h <;> exact .quiet rfl
    case lb | lbu | lh | lhu | lw | lwu | ld => exact loadInstruction_reports h
    case sb | sh | sw | sd => rw [hi] at hs; cases hs
    case system => exact systemInstruction_reports h
    case csrrc | csrrci | csrrs | csrrsi | csrrw | csrrwi =>
      cases h
      exact .quiet (congrArg Data.peripheral (csrsInstruction_data _ csr d.rd d.rs1))
    all_goals exact amoInstruction_reports h

/-! ## A round up to the devices -/

/-- Where a round stands when the devices are to run, or that it has ended
with a trap before. -/
def guestStage (c : RiscvCpu) (host : Host) : Except Crash (Bool × RiscvCpu) := do
  let (taken, c) ← c.interruptStage
  if taken then
    return (true, c)
  let c ← c.fetchStage
  if c.pageFault then
    return (true, ← c.trap instructionPageFault false)
  return (false, ← c.executeStage host)

theorem step_guestStage (c : RiscvCpu) (host : Host) :
    c.step host = c.guestStage host >>= fun r => if r.1 then .ok r.2 else r.2.finishStage host := by
  unfold step guestStage
  cases c.interruptStage with
  | error e => rfl
  | ok r =>
    obtain ⟨taken, c₁⟩ := r
    simp only [Except.ok_bind]
    split
    · rfl
    cases c₁.fetchStage with
    | error e => rfl
    | ok c₂ =>
      simp only [Except.ok_bind]
      split
      · cases c₂.trap instructionPageFault false <;> rfl
      · cases c₂.executeStage host <;> rfl

/-- The state whose instruction the round of `c` executes. -/
def inFlight (c : RiscvCpu) : Option RiscvCpu :=
  match c.interruptStage with
  | .ok (false, c₁) =>
    match c₁.fetchStage with
    | .ok c₂ => if c₂.pageFault then none else some c₂
    | .error _ => none
  | _ => none

theorem inFlight_eq {c₁ c₂ : RiscvCpu} (h₁ : c.interruptStage = .ok (false, c₁)) (h₂ : c₁.fetchStage = .ok c₂)
    (hf : c₂.pageFault = false) : c.inFlight = some c₂ := by
  simp only [inFlight, h₁, h₂, hf, Bool.false_eq_true, if_false]

theorem inFlight_of_interrupt {c₁ : RiscvCpu} (h₁ : c.interruptStage = .ok (true, c₁)) : c.inFlight = none := by
  simp only [inFlight, h₁]

theorem inFlight_of_fault {c₁ c₂ : RiscvCpu} (h₁ : c.interruptStage = .ok (false, c₁)) (h₂ : c₁.fetchStage = .ok c₂)
    (hf : c₂.pageFault = true) : c.inFlight = none := by
  simp only [inFlight, h₁, h₂, hf, if_true]

/-- The footprint of that instruction. -/
def roundFootprint (c : RiscvCpu) : Footprint :=
  match c.inFlight with
  | some c₂ => c₂.decodeStage.footprint (decode c₂.ir c₂.mxl)
  | none => {}

end RiscvCpu

end RiscvEmulator
