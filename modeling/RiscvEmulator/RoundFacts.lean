/-
The stages of a round.

`data` is the part of the state that traps, returns, CSR instructions and
interrupts leave alone; `control`, of which `execute_effect` speaks, is the
other part. The lemmas on the stages say what a round can change before and
after the `switch`.
-/
import Mathlib.Tactic.SplitIfs
import RiscvEmulator.CsrFacts
import RiscvEmulator.InterruptFacts
import RiscvEmulator.StepFacts
import RiscvEmulator.VirtioFacts

namespace RiscvEmulator

open MemoryWrapper (flat)

namespace RiscvCpu

variable {c c' : RiscvCpu} {host : Host}

/-! ## Traps, returns and the views of a register -/

/-- The part of the state that traps, returns and interrupts leave alone, but
for the record of a trap itself. -/
structure Data where
  en64bit : Bool
  reg : RegisterFile
  memory : MemoryWrapper
  brk : BitVec 64
  peripheral : PeripheralEmulator
  pageFault : Bool
  trapLog : List (Nat × Bool)

def data (c : RiscvCpu) : Data where
  en64bit := c.en64bit
  reg := c.reg
  memory := c.memory
  brk := c.brk
  peripheral := c.peripheral
  pageFault := c.pageFault
  trapLog := c.trapLog

section

variable {cause : Nat} {interrupt : Bool}

@[simp] theorem data_of_privilege (p : PrivilegeMode) : { c with privilege := p }.data = c.data := rfl

@[simp] theorem data_of_nextPc (a : BitVec 64) : { c with nextPc := a }.data = c.data := rfl

@[simp] theorem data_of_mstatus (m : BitVec 64) : { c with mstatus := m }.data = c.data := rfl

@[simp] theorem setCsr_data (csr : BitVec 12) (v : BitVec 64) : (c.setCsr csr v).data = c.data := rfl

@[simp] theorem applyMstatusToCsr_data : c.applyMstatusToCsr.data = c.data := by
  simp [applyMstatusToCsr]

@[simp] theorem applyInterruptPending_data : c.applyInterruptPending.data = c.data := by
  simp [applyInterruptPending]

@[simp] theorem applyInterruptEnable_data : c.applyInterruptEnable.data = c.data := by
  simp [applyInterruptEnable]

theorem enterTrap_data : (c.enterTrap cause interrupt).data =
    { c.data with
      pageFault := if !interrupt ∧ isPageFault cause then false else c.pageFault
      trapLog := (cause, interrupt) :: c.trapLog } := by
  unfold enterTrap
  dsimp only
  split <;> rfl

@[simp] theorem leaveTrap_data : (c.leaveTrap cause interrupt).data = c.data := by
  unfold leaveTrap clearInterruptPending
  rw [applyMstatusToCsr_data]
  split
  · rw [applyInterruptPending_data]
    rfl
  · rfl

@[simp] theorem trapToSupervisor_data {sie : Bool} : (c.trapToSupervisor cause interrupt sie).data = c.data := by
  simp [trapToSupervisor]

@[simp] theorem trapToMachine_data {mie : Bool} : (c.trapToMachine cause interrupt mie).data = c.data := by
  simp [trapToMachine]

/-- A trap is recorded, and a page fault that is taken is over. -/
theorem trapBody_data : (c.trapBody cause interrupt).data =
    { c.data with
      pageFault := if !interrupt ∧ isPageFault cause then false else c.pageFault
      trapLog := (cause, interrupt) :: c.trapLog } := by
  cases h : c.svDelegation cause interrupt with
  | true => simp [trapBody_of_supervisor h, enterTrap_data]
  | false => simp [trapBody_of_machine h, enterTrap_data]

theorem trapBody_trapLog : (c.trapBody cause interrupt).trapLog = (cause, interrupt) :: c.trapLog :=
  congrArg Data.trapLog trapBody_data

theorem trapBody_peripheral : (c.trapBody cause interrupt).peripheral = c.peripheral :=
  congrArg Data.peripheral trapBody_data

theorem mret_data (h : c.mret = .ok c') : c'.data = c.data := by
  obtain ⟨p, -, h⟩ := Except.bind_ok_iff.mp h
  cases h
  rfl

theorem sret_data (h : c.sret = .ok c') : c'.data = c.data := by
  obtain ⟨p, -, h⟩ := Except.bind_ok_iff.mp h
  cases h
  exact applyMstatusToCsr_data

/-- A CSR instruction sets `rd` to what the register held. -/
theorem csrsInstruction_data (i : Instruction) (csr : BitVec 12) (rd rs1 : BitVec 5) :
    (c.csrsInstruction i csr rd rs1).data = { c.data with reg := Function.update c.reg rd (c.csrs csr) } := by
  rcases csrsInstruction_cases c i csr rd rs1 with ⟨-, h⟩ | ⟨-, h⟩ | ⟨-, h⟩ | ⟨-, h⟩
  · exact h ▸ applyMstatusToCsr_data
  · exact h ▸ applyInterruptPending_data
  · exact h ▸ applyInterruptEnable_data
  · exact h ▸ rfl

@[simp] theorem setInterruptPending_data (cause : Nat) : (c.setInterruptPending cause).data = c.data := by
  rw [setInterruptPending, applyInterruptEnable_data]
  rfl

end

/-! ## The clock and the devices' interrupts -/

/-- The count the timer is compared with at the next tick. -/
def timerCompare (c : RiscvCpu) : BitVec 64 :=
  if c.peripheral.timercmpUpdate then Bytes.load 64 c.memory.bytes (flat PeripheralEmulator.kTimerCmp) 8
  else c.peripheral.nextCycle

/-- The next tick raises the timer interrupt. -/
def timerDue (c : RiscvCpu) : Bool :=
  c.peripheral.timerInterrupt || decide (c.peripheral.elapsedCycles + 1 = c.timerCompare)

/-- The tick of the devices. -/
theorem peripheral_timerTick (c : RiscvCpu) : c.peripheral.timerTick c.memory = .ok { c.peripheral with
    elapsedCycles := c.peripheral.elapsedCycles + 1
    nextCycle := c.timerCompare
    timercmpUpdate := false
    timerInterrupt := c.timerDue } := by
  unfold timerDue timerCompare PeripheralEmulator.timerTick
  rw [MemoryWrapper.read64_eq c.memory (by decide)]
  generalize c.peripheral = p
  cases hu : p.timercmpUpdate <;> simp only [if_true, if_false, Bool.false_eq_true, Except.ok_bind,
    Except.pure_eq_ok] <;>
    split
  all_goals next h => simp only [h, decide_true, decide_false, Bool.or_true, Bool.or_false]

/-- The devices after it. -/
def ticked (c : RiscvCpu) : PeripheralEmulator :=
  { c.peripheral with
    elapsedCycles := c.peripheral.elapsedCycles + 1
    nextCycle := c.timerCompare
    timercmpUpdate := false
    timerInterrupt := false }

theorem timerTick_eq (c : RiscvCpu) : c.timerTick =
    .ok (if c.timerDue then { c with peripheral := c.ticked }.setInterruptPending machineTimerInterrupt
      else { c with peripheral := c.ticked }) := by
  rw [timerTick, peripheral_timerTick, Except.ok_bind]
  cases hdue : c.timerDue <;> rfl

theorem timerTick_ok (h : c.timerTick = .ok c') :
    ∃ p, p.hostSide = c.peripheral.hostSide ∧
      c' = if c.timerDue then { c with peripheral := p }.setInterruptPending machineTimerInterrupt
        else { c with peripheral := p } := by
  rw [timerTick_eq] at h
  cases h
  exact ⟨c.ticked, rfl, rfl⟩

/-- The checks of the disk and the UART change only the interrupts. -/
theorem interruptCheck_data : c.interruptCheck.data = c.data ∧ c.interruptCheck.pc = c.pc := by
  have hd : c.diskInterruptCheck.data = c.data ∧ c.diskInterruptCheck.pc = c.pc := by
    unfold diskInterruptCheck
    split
    · exact ⟨setInterruptPending_data _, rfl⟩
    · exact ⟨rfl, rfl⟩
  have hu : ∀ c : RiscvCpu, c.uartInterruptCheck.data = c.data ∧ c.uartInterruptCheck.pc = c.pc := by
    intro c
    unfold uartInterruptCheck
    split
    · exact ⟨setInterruptPending_data _, rfl⟩
    · exact ⟨rfl, rfl⟩
  exact ⟨(hu _).1.trans hd.1, (hu _).2.trans hd.2⟩

theorem checkPendingInterrupt_ok {taken : Bool} (h : c.checkPendingInterrupt = .ok (taken, c')) :
    (taken = false ∧ c' = c) ∨ (taken = true ∧ ∃ cause, c' = c.trapBody cause true) := by
  cases taken with
  | true =>
    rcases checkPendingInterrupt_taken h with ⟨-, h | h⟩ | ⟨-, -, -, h⟩ <;> exact .inr ⟨rfl, _, h⟩
  | false =>
    have hno : ∀ cause, ((true, ·) <$> c.trap cause true : Except Crash (Bool × RiscvCpu)) ≠ .ok (false, c') := by
      intro cause ht
      cases hc : c.trap cause true <;> rw [hc] at ht <;> cases ht
    rw [checkPendingInterrupt_eq] at h
    split_ifs at h <;> first | exact absurd h (hno _) | (cases h; exact .inl ⟨rfl, rfl⟩)

theorem timerTick_data (h : c.timerTick = .ok c') :
    c'.pc = c.pc ∧ ∃ p, p.hostSide = c.peripheral.hostSide ∧ c'.data = { c.data with peripheral := p } := by
  obtain ⟨p, hp, rfl⟩ := timerTick_ok h
  split
  · exact ⟨rfl, p, hp, setInterruptPending_data _⟩
  · exact ⟨rfl, p, hp, rfl⟩

/-- The start of a round: the program counter moves on, the devices' own
counters move, and an interrupt may be taken. -/
theorem interruptStage_ok {taken : Bool} (h : c.interruptStage = .ok (taken, c')) :
    ∃ c₀ p, c₀.pc = c.nextPc ∧ p.hostSide = c.peripheral.hostSide ∧ c₀.data = { c.data with peripheral := p } ∧
      ((taken = false ∧ c' = c₀) ∨ (taken = true ∧ ∃ cause, c' = c₀.trapBody cause true)) := by
  obtain ⟨c₁, h₁, h⟩ := Except.bind_ok_iff.mp h
  obtain ⟨hpc, p, hp, hd⟩ := timerTick_data h₁
  exact ⟨c₁.interruptCheck, p, interruptCheck_data.2.trans hpc, hp, interruptCheck_data.1.trans hd,
    checkPendingInterrupt_ok h⟩

/-! ## The fetch -/

/-- The fetch at `pc` faults: at its first half, or at the second one when
the halves are in different words. -/
def FetchFaults (c : RiscvCpu) (pc : BitVec 64) : Prop := c.Faults pc ∨ (pc &&& 0b10 = 0b10 ∧ c.Faults (pc + 2))

/-- The ways through a fetch: one translation, or two. -/
inductive FetchPath (c : RiscvCpu) (pc : BitVec 64) : RiscvCpu → Prop
  | one {pa : BitVec 64} {c₁ : RiscvCpu} (first : c.virtualToPhysical pc false = .ok (pa, c₁)) : FetchPath c pc c₁
  | two {pa pa₂ : BitVec 64} {c₁ c₂ : RiscvCpu} (first : c.virtualToPhysical pc false = .ok (pa, c₁))
      (half : pc &&& 0b10 = 0b10) (second : c₁.virtualToPhysical (pc + 2) false = .ok (pa₂, c₂)) : FetchPath c pc c₂

theorem loadCmd_path {pc : BitVec 64} {ir : BitVec 32} (h : c.loadCmd pc = .ok (ir, c')) : FetchPath c pc c' := by
  obtain ⟨⟨pa, c₁⟩, first, h⟩ := Except.bind_ok_iff.mp h
  dsimp only at h
  obtain ⟨w, -, h⟩ := Except.bind_ok_iff.mp h
  generalize (if pc &&& 0b10 = 0b10 then (w >>> 16) &&& 0xFFFF else w) = cmd at h
  split at h
  · next hcond =>
    obtain ⟨⟨pa₂, c₂⟩, second, h⟩ := Except.bind_ok_iff.mp h
    dsimp only at h
    obtain ⟨w₂, -, h⟩ := Except.bind_ok_iff.mp h
    cases h
    exact .two first hcond.2.1 second
  · cases h
    exact .one first

theorem loadCmd_ok {pc : BitVec 64} {ir : BitVec 32} (h : c.loadCmd pc = .ok (ir, c')) :
    Kept c c' ∧ c'.reg = c.reg ∧ (c'.pageFault = true → c.pageFault = true ∨ c.FetchFaults pc) := by
  have hfirst : ∀ {pa : BitVec 64} {c₁ : RiscvCpu}, c.virtualToPhysical pc false = .ok (pa, c₁) →
      c₁.pageFault = true → c.pageFault = true ∨ c.FetchFaults pc := by
    intro pa c₁ first hp
    rcases virtualToPhysical_pageFault first with ⟨hf, -⟩ | ⟨-, he⟩
    · exact .inr (.inl hf)
    · exact .inl (he ▸ hp)
  cases loadCmd_path h with
  | one first =>
    obtain ⟨hk, hr⟩ := virtualToPhysical_kept first
    exact ⟨hk, hr, hfirst first⟩
  | two first half second =>
    obtain ⟨hk₁, hr₁⟩ := virtualToPhysical_kept first
    obtain ⟨hk₂, hr₂⟩ := virtualToPhysical_kept second
    refine ⟨hk₁.trans hk₂, hr₂.trans hr₁, fun hp => ?_⟩
    rcases virtualToPhysical_pageFault second with ⟨hf, -⟩ | ⟨-, he⟩
    · exact .inr (.inr ⟨half, (faults_virtualToPhysical first _).mp hf⟩)
    · exact hfirst first (he ▸ hp)

theorem fetchStage_ok (h : c.fetchStage = .ok c') :
    Kept c c' ∧ c'.reg = c.reg ∧ (c'.pageFault = true → c.pageFault = true ∨ c.FetchFaults c.pc) := by
  obtain ⟨⟨ir, c₁⟩, h₁, h⟩ := Except.bind_ok_iff.mp h
  cases h
  obtain ⟨hk, hr, hp⟩ := loadCmd_ok h₁
  exact ⟨⟨hk.control, hk.brk, hk.hostSide⟩, hr, hp⟩

end RiscvCpu

/-! ## The devices -/

namespace PeripheralEmulator

variable {p p' : PeripheralEmulator} {m m' : MemoryWrapper} {host : Host}

/-- The part of the timer. -/
def timerSide (p : PeripheralEmulator) : BitVec 64 × BitVec 64 × Bool × Bool :=
  (p.elapsedCycles, p.nextCycle, p.timercmpUpdate, p.timerInterrupt)

/-- What neither the UART nor the disk touches. -/
def settled (p : PeripheralEmulator) : (Nat × BitVec 64) × (BitVec 64 × BitVec 64 × Bool × Bool) :=
  (p.hostSide, p.timerSide)

/-- The devices without what the UART and the disk use. -/
def aside (p : PeripheralEmulator) : PeripheralEmulator :=
  { p with
    uartWrite := false
    uartRead := false
    uartFull := false
    uartInterrupt := false
    uartBreak := false
    scrEmulation := none
    diskImage := none
    virtioWrite := false
    queueNum := 0
    virtioInterrupt := false }

theorem uartTransmit_aside (h : p.uartTransmit = .ok p') : p'.aside = p.aside := by
  unfold uartTransmit at h
  split at h
  · split at h <;> cases h; rfl
  · cases h; rfl

theorem uartConsume_aside (h : p.uartConsume m = .ok (p', m')) : p'.aside = p.aside := by
  unfold uartConsume clearUartBuffer at h
  split at h
  · obtain ⟨⟨p₁, m₁⟩, h₁, h⟩ := Except.bind_ok_iff.mp h
    cases h
    obtain ⟨b, -, h₁⟩ := Except.bind_ok_iff.mp h₁
    obtain ⟨m₂, -, h₁⟩ := Except.bind_ok_iff.mp h₁
    cases h₁
    rfl
  · cases h; rfl

theorem translateKey_aside (key : BitVec 32) : (p.translateKey key).2.aside = p.aside := by
  unfold translateKey
  split
  · rfl
  split
  · rfl
  split <;> rfl

theorem uartReceive_aside (h : p.uartReceive host m = .ok (p', m')) : p'.aside = p.aside := by
  unfold uartReceive at h
  split at h
  · cases h; rfl
  split at h
  · cases h
  next scr _ =>
  dsimp only at h
  split at h
  · cases h; rfl
  unfold setUartBuffer uartInterruptRaise at h
  obtain ⟨⟨p₁, m₁⟩, h₁, h⟩ := Except.bind_ok_iff.mp h
  obtain ⟨b, -, h₁⟩ := Except.bind_ok_iff.mp h₁
  obtain ⟨m₂, -, h₁⟩ := Except.bind_ok_iff.mp h₁
  obtain ⟨m₃, -, h₁⟩ := Except.bind_ok_iff.mp h₁
  cases h₁
  obtain ⟨m₄, -, h⟩ := Except.bind_ok_iff.mp h
  cases h
  exact translateKey_aside _

theorem uartEmulation_aside (h : p.uartEmulation host m = .ok (p', m')) : p'.aside = p.aside := by
  obtain ⟨p₁, h₁, h⟩ := Except.bind_ok_iff.mp h
  obtain ⟨⟨p₂, m₂⟩, h₂, h⟩ := Except.bind_ok_iff.mp h
  rw [uartReceive_aside h, uartConsume_aside h₂, uartTransmit_aside h₁]

/-- A request changes nothing of the device but the image. -/
theorem processDiscAccess_image {a : BitVec 64} {i : BitVec 16}
    (h : p.processDiscAccess m a i = .ok (p', m')) : ∃ image, p' = { p with diskImage := image } := by
  unfold processDiscAccess at h
  obtain ⟨d₁, -, h⟩ := Except.bind_ok_iff.mp h
  obtain ⟨o, -, h⟩ := Except.bind_ok_iff.mp h
  obtain ⟨-, -, h⟩ := Except.bind_ok_iff.mp h
  obtain ⟨d₂, -, h⟩ := Except.bind_ok_iff.mp h
  obtain ⟨-, -, h⟩ := Except.bind_ok_iff.mp h
  obtain ⟨⟨p₁, m₁⟩, h₁, h⟩ := Except.bind_ok_iff.mp h
  obtain ⟨d₃, -, h⟩ := Except.bind_ok_iff.mp h
  obtain ⟨-, -, h⟩ := Except.bind_ok_iff.mp h
  obtain ⟨m₂, -, h⟩ := Except.bind_ok_iff.mp h
  cases h
  unfold discAccess at h₁
  dsimp only at h₁
  split at h₁
  · obtain ⟨image, -, h₁⟩ := Except.bind_ok_iff.mp h₁
    cases h₁
    exact ⟨_, rfl⟩
  · obtain ⟨m₃, -, h₁⟩ := Except.bind_ok_iff.mp h₁
    cases h₁
    exact ⟨_, rfl⟩

theorem virtioDiskAccess_image {a : BitVec 64} (h : p.virtioDiskAccess m a = .ok (p', m')) :
    ∃ image, p' = { p with diskImage := image } := by
  obtain ⟨head, m₁, -, h₁, -⟩ := virtioDiskAccess_ok h
  exact processDiscAccess_image h₁

theorem virtioEmulation_frame (h : p.virtioEmulation m = .ok (p', m')) : ∃ image write queueNum interrupt,
    p' = { p with diskImage := image, virtioWrite := write, queueNum, virtioInterrupt := interrupt } := by
  cases virtioEmulation_path h with
  | idle => exact ⟨_, _, _, _, rfl⟩
  | other => exact ⟨_, _, _, _, rfl⟩
  | served _ _ _ serve =>
    obtain ⟨queueNum, pfn, p₁, m₁, -, -, -, hdisk, -, rfl⟩ := queueNotify_ok serve
    obtain ⟨image, rfl⟩ := virtioDiskAccess_image hdisk
    exact ⟨_, _, _, _, rfl⟩

theorem virtioEmulation_aside (h : p.virtioEmulation m = .ok (p', m')) : p'.aside = p.aside := by
  obtain ⟨image, write, queueNum, interrupt, rfl⟩ := virtioEmulation_frame h
  rfl

/-- The value a 32-bit program reports is less than `2 ^ 31`. -/
theorem isSext_ushiftRight_one (w : BitVec 32) : Bits.IsSext 32 (w.setWidth 64 >>> 1) := by
  apply Bits.isSext_of_getLsbD (by decide)
  intro i hi
  rw [BitVec.getLsbD_ushiftRight, BitVec.getLsbD_setWidth, BitVec.getLsbD_of_ge w _ (by omega), Bool.and_false]

theorem isSext_crop_ushiftRight_one (w : BitVec 32) :
    Bits.IsSext 32 ((w.setWidth 64 &&& 0xFFFFFFFFFFFF#64) >>> 1) := by
  apply Bits.isSext_of_getLsbD (by decide)
  intro i hi
  rw [BitVec.getLsbD_ushiftRight, BitVec.getLsbD_and, BitVec.getLsbD_setWidth, BitVec.getLsbD_of_ge w _ (by omega),
    Bool.and_false, Bool.false_and]

/-- What the host interface does to the result. -/
theorem hostEmulation_ok (h : p.hostEmulation m = .ok p') :
    p'.mxl = p.mxl ∧ (p.mxl = 1 → p'.hostValue = p.hostValue ∨ Bits.IsSext 32 p'.hostValue) := by
  unfold hostEmulation at h
  split at h
  · cases h; exact ⟨rfl, fun _ => .inl rfl⟩
  split at h
  · obtain ⟨w, hw, h⟩ := Except.bind_ok_iff.mp h
    cases h
    refine ⟨rfl, fun hm => .inr ?_⟩
    rw [readToHost1, if_pos hm] at hw
    obtain ⟨w', -, hw⟩ := Except.bind_ok_iff.mp hw
    cases hw
    exact isSext_ushiftRight_one w'
  obtain ⟨⟨payload, device, command⟩, hw, h⟩ := Except.bind_ok_iff.mp h
  dsimp only at h
  cases h
  refine ⟨?_, fun hm => ?_⟩
  · dsimp only
    split_ifs <;> rfl
  · rw [readToHost0, if_pos hm] at hw
    obtain ⟨w', -, hw⟩ := Except.bind_ok_iff.mp hw
    cases hw
    dsimp only
    rw [if_pos rfl, if_pos rfl]
    split
    · exact .inl rfl
    · exact .inr (isSext_crop_ushiftRight_one w')

/-- And that it does nothing else. -/
theorem hostEmulation_frame (h : p.hostEmulation m = .ok p') : ∃ value write error ending output,
    p' = { p with
      hostValue := value, hostWrite := write, errorFlag := error, endFlag := ending, hostOutput := output } := by
  unfold hostEmulation at h
  split at h
  · cases h
    exact ⟨_, _, _, _, _, rfl⟩
  split at h
  · obtain ⟨w, -, h⟩ := Except.bind_ok_iff.mp h
    cases h
    exact ⟨_, _, _, _, _, rfl⟩
  obtain ⟨⟨payload, device, command⟩, -, h⟩ := Except.bind_ok_iff.mp h
  cases h
  dsimp only
  split_ifs <;> exact ⟨_, _, _, _, _, rfl⟩

theorem deviceEmulation_aside (h : p.deviceEmulation host m = .ok (p', m')) : p'.aside = p.aside := by
  unfold deviceEmulation at h
  split at h
  · obtain ⟨⟨p₁, m₁⟩, h₁, h⟩ := Except.bind_ok_iff.mp h
    rw [virtioEmulation_aside h, uartEmulation_aside h₁]
  · cases h; rfl

theorem deviceEmulation_settled (h : p.deviceEmulation host m = .ok (p', m')) : p'.settled = p.settled :=
  (congrArg settled (deviceEmulation_aside h) :)

theorem emulation_ok (h : p.emulation host m = .ok (p', m')) :
    p'.mxl = p.mxl ∧ (p.mxl = 1 → p'.hostValue = p.hostValue ∨ Bits.IsSext 32 p'.hostValue) := by
  unfold emulation at h
  split at h
  · obtain ⟨q, hq, h⟩ := Except.bind_ok_iff.mp h
    obtain ⟨hm, hv⟩ := Prod.ext_iff.mp (congrArg Prod.fst (deviceEmulation_settled h))
    obtain ⟨hm', hv'⟩ := hostEmulation_ok hq
    refine ⟨hm.trans hm', fun h1 => ?_⟩
    rw [show p'.hostValue = q.hostValue from hv]
    exact hv' h1
  · obtain ⟨hm, hv⟩ := Prod.ext_iff.mp (congrArg Prod.fst (deviceEmulation_settled h))
    exact ⟨hm, fun _ => .inl hv⟩

end PeripheralEmulator

namespace RiscvCpu

variable {c c' : RiscvCpu} {host : Host}

/-- What the devices' reports can change: a register may be set to the result
of the program. -/
structure Finished (c c' : RiscvCpu) : Prop where
  control : c'.control = c.control
  pageFault : c'.pageFault = c.pageFault
  brk : c'.brk = c.brk
  mxl : c'.peripheral.mxl = c.peripheral.mxl
  hostValue : c'.peripheral.hostValue = c.peripheral.hostValue
  reg : ∀ r, c'.reg r = c.reg r ∨ c'.reg r = c.peripheral.hostValue

theorem Finished.trans {c₁ c₂ c₃ : RiscvCpu} (h : Finished c₁ c₂) (h' : Finished c₂ c₃) : Finished c₁ c₃ where
  control := h'.control.trans h.control
  pageFault := h'.pageFault.trans h.pageFault
  brk := h'.brk.trans h.brk
  mxl := h'.mxl.trans h.mxl
  hostValue := h'.hostValue.trans h.hostValue
  reg r := by
    rcases h'.reg r with hr | hr
    · rw [hr]; exact h.reg r
    · exact .inr (hr.trans h.hostValue)

theorem setReg_same (c : RiscvCpu) (rd : BitVec 5) (v : BitVec 64) : (c.setReg rd v).reg rd = v :=
  Function.update_self ..

theorem takeHostEnd_finished : Finished c c.takeHostEnd := by
  unfold takeHostEnd
  split
  · refine ⟨rfl, rfl, rfl, rfl, rfl, fun r => ?_⟩
    by_cases hr : r = a0
    · subst hr
      exact .inr (setReg_same c a0 _)
    · exact .inl (setReg_ne c _ hr)
  · exact ⟨rfl, rfl, rfl, rfl, rfl, fun _ => .inl rfl⟩

theorem takeVirtioInterrupt_finished : Finished c c.takeVirtioInterrupt := by
  unfold takeVirtioInterrupt
  split <;> exact ⟨rfl, rfl, rfl, rfl, rfl, fun _ => .inl rfl⟩

theorem takeUartInterrupt_finished : Finished c c.takeUartInterrupt := by
  unfold takeUartInterrupt
  split <;> exact ⟨rfl, rfl, rfl, rfl, rfl, fun _ => .inl rfl⟩

theorem takeUartBreak_finished : Finished c c.takeUartBreak := by
  unfold takeUartBreak
  split <;> exact ⟨rfl, rfl, rfl, rfl, rfl, fun _ => .inl rfl⟩

/-- The devices run between `c` and `c₁`, and nothing but them and the memory
moves; the rest is their reports. -/
theorem peripheralEmulations_ok (h : c.peripheralEmulations host = .ok c') :
    ∃ p m, p.mxl = c.peripheral.mxl ∧
      (c.peripheral.mxl = 1 → p.hostValue = c.peripheral.hostValue ∨ Bits.IsSext 32 p.hostValue) ∧
      Finished { c with peripheral := p, memory := m } c' := by
  obtain ⟨⟨p, m⟩, hp, h⟩ := Except.bind_ok_iff.mp h
  obtain ⟨hm, hv⟩ := PeripheralEmulator.emulation_ok hp
  cases h
  exact ⟨p, m, hm, hv, takeHostEnd_finished.trans <| takeVirtioInterrupt_finished.trans <|
    takeUartInterrupt_finished.trans takeUartBreak_finished⟩

/-- The end of a round is that of a state which may have an error more, as an
instruction that jumps to itself sets one. -/
theorem finishStage_cases (h : c.finishStage host = .ok c') : ∃ e, (c.errorFlag = true → e = true) ∧
    (if c.hostEmulation || c.peripheralEmulation then
      ({ c with errorFlag := e }.setReg zero 0).peripheralEmulations host
      else .ok ({ c with errorFlag := e }.setReg zero 0)) = .ok c' := by
  unfold finishStage at h
  by_cases hpc : c.pc = c.nextPc
  · rw [if_pos hpc] at h
    exact ⟨true, fun _ => rfl, h⟩
  · rw [if_neg hpc] at h
    exact ⟨c.errorFlag, id, h⟩

/-- The end of a round: `zero` is cleared, the devices run, and they report. -/
theorem finishStage_ok (h : c.finishStage host = .ok c') :
    ∃ p m, p.mxl = c.peripheral.mxl ∧
      (c.peripheral.mxl = 1 → p.hostValue = c.peripheral.hostValue ∨ Bits.IsSext 32 p.hostValue) ∧
      Finished ({ c with peripheral := p, memory := m }.setReg zero 0) c' := by
  obtain ⟨e, -, h⟩ := finishStage_cases h
  have hfin : ∀ p m, Finished ({ c with peripheral := p, memory := m }.setReg zero 0)
      ({ c with peripheral := p, memory := m, errorFlag := e }.setReg zero 0) :=
    fun p m => ⟨rfl, rfl, rfl, rfl, rfl, fun _ => .inl rfl⟩
  split at h
  · obtain ⟨p, m, hm, hv, hf⟩ := peripheralEmulations_ok h
    exact ⟨p, m, hm, hv, (hfin p m).trans hf⟩
  · cases h
    exact ⟨c.peripheral, c.memory, rfl, fun _ => .inl rfl, hfin _ _⟩

/-- An error of the instruction stays to the end of the round. -/
theorem finishStage_errorFlag (he : c.errorFlag = true) (h : c.finishStage host = .ok c') : c'.errorFlag = true := by
  obtain ⟨e, hkeep, h⟩ := finishStage_cases h
  obtain rfl := hkeep he
  split at h
  · obtain ⟨⟨p, m⟩, -, h⟩ := Except.bind_ok_iff.mp h
    cases h
    simp only [takeUartBreak, takeUartInterrupt, takeVirtioInterrupt, takeHostEnd]
    repeat' split
    all_goals simp [setReg]
  · cases h
    rfl

/-! ## The round -/

/-- The three ways a round can go. -/
inductive Round (host : Host) (c c' : RiscvCpu) : Prop
  | interrupt (taken : c.interruptStage = .ok (true, c'))
  | fetchFault (c₁ c₂ : RiscvCpu) (head : c.interruptStage = .ok (false, c₁)) (fetch : c₁.fetchStage = .ok c₂)
      (pageFault : c₂.pageFault = true) (trap : c' = c₂.trapBody instructionPageFault false)
  | execute (c₁ c₂ c₃ : RiscvCpu) (head : c.interruptStage = .ok (false, c₁)) (fetch : c₁.fetchStage = .ok c₂)
      (pageFault : c₂.pageFault = false) (execute : c₂.executeStage host = .ok c₃)
      (finish : c₃.finishStage host = .ok c')

theorem step_round (h : c.step host = .ok c') : Round host c c' := by
  obtain ⟨⟨taken, c₁⟩, h₁, h⟩ := Except.bind_ok_iff.mp h
  cases taken with
  | true => cases h; exact .interrupt h₁
  | false =>
    obtain ⟨c₂, h₂, h⟩ := Except.bind_ok_iff.mp h
    split at h
    · next hf => exact .fetchFault c₁ c₂ h₁ h₂ hf (trap_ok_iff.mp h).2
    next hf =>
    obtain ⟨c₃, h₃, h⟩ := Except.bind_ok_iff.mp h
    exact .execute c₁ c₂ c₃ h₁ h₂ (Bool.eq_false_iff.mpr hf) h₃ h

/-- The `switch` of a round, from the state after the fetch. -/
theorem executeStage_effect (hf : c.pageFault = false) (h : c.executeStage host = .ok c') :
    Effect c.decodeStage host (decode c.ir c.mxl) (getCsr c.ir) c' :=
  execute_effect hf h

/-- The round of `c` fetches its instruction, and `c₂` is the state then. -/
def Fetches (c c₂ : RiscvCpu) : Prop :=
  ∃ c₁, c.interruptStage = .ok (false, c₁) ∧ c₁.fetchStage = .ok c₂ ∧ c₂.pageFault = false

theorem Fetches.step_eq {c₁ : RiscvCpu} (h : c.Fetches c₁) (host : Host) :
    c.step host = c₁.executeStage host >>= fun c₂ => c₂.finishStage host := by
  obtain ⟨c₀, h₀, h₁, hf⟩ := h
  simp only [RiscvCpu.step, h₀, h₁, hf, Except.ok_bind]
  rfl

/-- That state. -/
def fetched (c : RiscvCpu) : RiscvCpu := (c.interruptStage >>= fun r => r.2.fetchStage).toOption.getD c

theorem Fetches.eq {c₂ : RiscvCpu} (h : c.Fetches c₂) : c₂ = c.fetched := by
  obtain ⟨c₁, h₁, h₂, -⟩ := h
  rw [fetched, h₁, Except.ok_bind, h₂]
  rfl

theorem fetches_fetched (h : (c.interruptStage.toOption.bind fun r =>
    if r.1 then none else r.2.fetchStage.toOption.map RiscvCpu.pageFault) = some false) : c.Fetches c.fetched := by
  rw [fetched]
  cases h₁ : c.interruptStage with
  | error e => rw [h₁] at h; cases h
  | ok r =>
    obtain ⟨taken, c₁⟩ := r
    rw [h₁] at h
    cases taken with
    | true => cases h
    | false =>
      cases h₂ : c₁.fetchStage with
      | error e => simp [Except.toOption, h₂] at h
      | ok c₂ =>
        simp only [Except.toOption, h₂, Option.bind_some, Bool.false_eq_true, if_false, Option.map_some,
          Option.some.injEq] at h
        refine ⟨c₁, h₁, ?_, ?_⟩
        · simp only [Except.ok_bind, h₂]
          rfl
        · simp only [Except.ok_bind, h₂]
          exact h

/-- The state after a round on a host that answers nothing, for the runs of
concrete programs. -/
def next (c : RiscvCpu) : RiscvCpu := (c.step .failing).toOption.getD c

theorem step_next (h : (c.step .failing).toOption.isSome = true) : c.step .failing = .ok c.next :=
  Except.eq_ok_getD h c

/-- How a round on it ends the emulator, if it does. -/
def nextCrash (c : RiscvCpu) : Option Crash :=
  match c.step .failing with
  | .error e => some e
  | .ok _ => none

theorem step_nextCrash {e : Crash} (h : c.nextCrash = some e) : c.step .failing = .error e := by
  rw [nextCrash] at h
  cases hs : c.step .failing with
  | error e' => rw [hs] at h; cases h; rfl
  | ok c' => rw [hs] at h; cases h

/-! ## The loop -/

/-- The loop takes rounds with one host until it ends. -/
theorem runLoop_steps {s : RiscvCpu} {fuel : Nat} (hs : Run.Steps step (fun h _ => h = host) s c)
    (h : runLoop host fuel c = .ok (some c')) : Run.Steps step (fun h _ => h = host) s c' := by
  induction fuel generalizing c with
  | zero => cases h
  | succ fuel ih =>
    rw [runLoop] at h
    obtain ⟨c₁, hstep, h⟩ := Except.bind_ok_iff.mp h
    have hs₁ := Run.Steps.tail (P := fun h _ => h = host) hs rfl hstep
    split at h
    · cases h
      exact hs₁
    · exact ih hs₁ h

/-- What `RunCpu` returns is the end of a run from the state it starts in. -/
theorem runCpu_steps {fuel : Nat} {startPc : BitVec 64} (h : c.runCpu host fuel startPc = .ok (some c')) :
    Run.Steps step (fun h _ => h = host) (c.start startPc) c' :=
  runLoop_steps .refl h

end RiscvCpu

end RiscvEmulator
