/-
Page faults that come back.

`Trap` remembers the last page fault in `prev_page_fault_` and
`prev_faulting_address_`, and stops the emulator at the next one if it is at
the same address. Nothing but a page fault changes the two fields:
`step_lastFault` says what a round does to them. So they say nothing about
the instructions that have been executed since, and `repeat_run` is when the
stop comes from faults that follow each other.
-/
import RiscvEmulator.RoundFacts

namespace RiscvEmulator

namespace RiscvCpu

variable {c c' : RiscvCpu} {host : Host} {cause : Nat} {interrupt : Bool}

/-! ## The record of page faults -/

/-- What the book-keeping of a page fault reads and writes. -/
structure FaultRecord where
  prevPageFault : Bool
  prevFaultingAddress : BitVec 64
  errorFlag : Bool
  faultingAddress : BitVec 64

def faultRecord (c : RiscvCpu) : FaultRecord where
  prevPageFault := c.prevPageFault
  prevFaultingAddress := c.prevFaultingAddress
  errorFlag := c.errorFlag
  faultingAddress := c.faultingAddress

/-- The address of the last page fault that was taken. -/
def lastFault (c : RiscvCpu) : Option (BitVec 64) := if c.prevPageFault then some c.prevFaultingAddress else none

theorem lastFault_congr (hp : c'.prevPageFault = c.prevPageFault)
    (ha : c'.prevFaultingAddress = c.prevFaultingAddress) :
    c'.lastFault = c.lastFault := by rw [lastFault, lastFault, hp, ha]

theorem lastFault_of_record (h : c'.faultRecord = c.faultRecord) : c'.lastFault = c.lastFault :=
  lastFault_congr (congrArg FaultRecord.prevPageFault h) (congrArg FaultRecord.prevFaultingAddress h)

theorem lastFault_of_control (h : c'.control = c.control) : c'.lastFault = c.lastFault :=
  lastFault_congr (congrArg Control.prevPageFault h) (congrArg Control.prevFaultingAddress h)

theorem applyMstatusToCsr_faultRecord : c.applyMstatusToCsr.faultRecord = c.faultRecord := rfl

theorem applyInterruptPending_faultRecord : c.applyInterruptPending.faultRecord = c.faultRecord := rfl

theorem leaveTrap_faultRecord : (c.leaveTrap cause interrupt).faultRecord = c.faultRecord := by
  unfold leaveTrap clearInterruptPending
  rw [applyMstatusToCsr_faultRecord]
  split
  · exact applyInterruptPending_faultRecord
  · rfl

theorem trapToSupervisor_faultRecord {sie : Bool} :
    (c.trapToSupervisor cause interrupt sie).faultRecord = c.faultRecord := by
  unfold trapToSupervisor applyMstatusToCsr setCsr
  rfl

theorem trapToMachine_faultRecord {mie : Bool} :
    (c.trapToMachine cause interrupt mie).faultRecord = c.faultRecord := by
  unfold trapToMachine applyMstatusToCsr setCsr
  rfl

/-- The delivery of a trap leaves the record alone. -/
theorem trapBody_faultRecord :
    (c.trapBody cause interrupt).faultRecord = (c.enterTrap cause interrupt).faultRecord := by
  cases h : c.svDelegation cause interrupt with
  | true => rw [trapBody_of_supervisor h, leaveTrap_faultRecord, trapToSupervisor_faultRecord]
  | false => rw [trapBody_of_machine h, leaveTrap_faultRecord, trapToMachine_faultRecord]

/-- A trap that is no page fault leaves it alone. -/
theorem trapBody_other (h : ¬ (interrupt = false ∧ isPageFault cause = true)) :
    (c.trapBody cause interrupt).faultRecord = c.faultRecord := by
  rw [trapBody_faultRecord, enterTrap, if_neg (by simpa using h)]
  rfl

theorem trapBody_pageFault (h : isPageFault cause = true) :
    (c.trapBody cause false).faultRecord = c.recordPageFault.faultRecord := by
  rw [trapBody_faultRecord, enterTrap, if_pos (by simp [h])]
  rfl

/-- A page fault is taken from a state with the record of `c`. -/
structure FaultTaken (c c' : RiscvCpu) : Prop where
  last : c'.lastFault = some c'.faultingAddress
  stop : c'.errorFlag = (c.errorFlag || (c.lastFault == some c'.faultingAddress))

theorem faultTaken_trapBody {c₀ : RiscvCpu} (hk : c₀.control = c.control) (he : c₀.errorFlag = c.errorFlag)
    (hp : c₀.pageFault = true) (h : isPageFault cause = true) : FaultTaken c (c₀.trapBody cause false) := by
  have hr := trapBody_pageFault (c := c₀) h
  have hprev : (c₀.trapBody cause false).prevPageFault = c₀.pageFault := congrArg FaultRecord.prevPageFault hr
  have hprevAddress : (c₀.trapBody cause false).prevFaultingAddress = c₀.faultingAddress :=
    congrArg FaultRecord.prevFaultingAddress hr
  have haddress : (c₀.trapBody cause false).faultingAddress = c₀.faultingAddress :=
    congrArg FaultRecord.faultingAddress hr
  have hflag : (c₀.trapBody cause false).errorFlag =
      (c₀.errorFlag || (c₀.prevPageFault && c₀.prevFaultingAddress == c₀.faultingAddress)) :=
    congrArg FaultRecord.errorFlag hr
  constructor
  · rw [lastFault, hprev, hp, if_pos rfl, hprevAddress, haddress]
  · rw [hflag, haddress, he, ← lastFault_of_control hk, lastFault]
    cases c₀.prevPageFault <;> rfl

/-! ## Instructions -/

theorem virtualToPhysical_errorFlag {va pa : BitVec 64} {write : Bool}
    (h : c.virtualToPhysical va write = .ok (pa, c')) :
    c'.errorFlag = c.errorFlag := by
  obtain ⟨p, -, h⟩ := Except.bind_ok_iff.mp h
  obtain ⟨⟨pa₁, mmu, memory⟩, -, h⟩ := Except.bind_ok_iff.mp h
  dsimp only at h
  split at h <;> cases h <;> rfl

/-- The instruction between `c` and `c'` ended in a page fault. -/
def tookPageFault (c c' : RiscvCpu) : Bool :=
  c'.trapLog = (loadPageFault, false) :: c.trapLog ∨ c'.trapLog = (storePageFault, false) :: c.trapLog

/-- What an instruction can do to the record. -/
inductive FaultStep (c c' : RiscvCpu) : Prop
  | quiet (log : c.tookPageFault c' = false) (last : c'.lastFault = c.lastFault)
  | fault (log : c.tookPageFault c' = true) (taken : FaultTaken c c')

theorem FaultStep.of_record (hl : c'.trapLog = c.trapLog) (hr : c'.lastFault = c.lastFault) : FaultStep c c' := by
  refine .quiet (decide_eq_false fun h => ?_) hr
  rw [hl] at h
  rcases h with h | h <;> exact absurd h.symm (List.cons_ne_self _ _)

theorem FaultStep.of_control (h : c'.control = c.control) : FaultStep c c' :=
  .of_record (congrArg Control.trapLog h) (lastFault_of_control h)

theorem FaultStep.of_trap {c₀ : RiscvCpu} (hk : c₀.control = c.control) (he : c₀.errorFlag = c.errorFlag)
    (hp : c₀.pageFault = true) (hc : cause = loadPageFault ∨ cause = storePageFault) :
    FaultStep c (c₀.trapBody cause false) := by
  have hpage : isPageFault cause = true := by rcases hc with rfl | rfl <;> decide
  refine .fault (decide_eq_true ?_) (faultTaken_trapBody hk he hp hpage)
  rw [trapBody_trapLog, show c₀.trapLog = c.trapLog from congrArg Control.trapLog hk]
  rcases hc with rfl | rfl
  · exact .inl rfl
  · exact .inr rfl

theorem loadInstruction_faultStep {i : Instruction} {rd rs1 : BitVec 5} {imm : BitVec 32}
    (h : c.loadInstruction i rd rs1 imm = .ok c') : FaultStep c c' := by
  cases loadInstruction_path h with
  | fault _ first hf =>
    exact .of_trap (virtualToPhysical_kept_memory first).1.control (virtualToPhysical_errorFlag first :) hf (.inl rfl)
  | whole _ first => exact .of_control (virtualToPhysical_kept_memory first).1.control
  | secondFault _ first _ _ _ _ second hf =>
    have hk := (virtualToPhysical_kept_memory first).1.trans (virtualToPhysical_kept second).1
    exact .of_trap hk.control ((virtualToPhysical_errorFlag second).trans (virtualToPhysical_errorFlag first :)) hf
      (.inl rfl)
  | cut _ first _ width data more second =>
    exact .of_control ((virtualToPhysical_kept_memory first).1.trans (virtualToPhysical_kept second).1).control

theorem storeInstruction_faultStep {i : Instruction} {rs1 rs2 : BitVec 5} {imm : BitVec 32}
    (h : c.storeInstruction i rs1 rs2 imm = .ok c') : FaultStep c c' := by
  cases storeInstruction_path h with
  | fault first hf =>
    exact .of_trap (virtualToPhysical_kept first).1.control (virtualToPhysical_errorFlag first) hf (.inr rfl)
  | whole first => exact .of_control (virtualToPhysical_kept first).1.control
  | secondFault first _ _ _ _ _ second hf =>
    have hk := (virtualToPhysical_kept first).1.trans (virtualToPhysical_kept_memory second).1
    exact .of_trap hk.control ((virtualToPhysical_errorFlag second :).trans (virtualToPhysical_errorFlag first :)) hf
      (.inr rfl)
  | cut first _ _ _ _ _ second =>
    exact .of_control ((virtualToPhysical_kept first).1.trans (virtualToPhysical_kept_memory second).1).control

theorem setInterruptPending_faultRecord (cause : Nat) :
    (c.setInterruptPending cause).faultRecord = c.faultRecord := rfl

theorem csrsInstruction_faultRecord (i : Instruction) (csr : BitVec 12) (rd rs1 : BitVec 5) :
    (c.csrsInstruction i csr rd rs1).faultRecord = c.faultRecord := by
  rcases csrsInstruction_cases c i csr rd rs1 with ⟨-, h⟩ | ⟨-, h⟩ | ⟨-, h⟩ | ⟨-, h⟩ <;> rw [h] <;> rfl

theorem ecall_faultStep (h : c.ecall = .ok c') : FaultStep c c' := by
  have htrap : ∀ cause, cause ≠ loadPageFault → cause ≠ storePageFault → isPageFault cause = false →
      FaultStep c (c.trapBody cause false) := by
    intro cause hl hs hp
    refine .quiet (decide_eq_false ?_) (lastFault_of_record (trapBody_other (by simp [hp])))
    rw [trapBody_trapLog]
    simp [hl, hs]
  unfold RiscvCpu.ecall at h
  split at h
  all_goals
    rw [(trap_ok_iff.mp h).2]
    exact htrap _ (by decide) (by decide) (by decide)

theorem systemInstruction_faultStep {rd : BitVec 5} {imm : BitVec 32}
    (h : c.systemInstruction host rd imm = .ok c') : FaultStep c c' := by
  unfold systemInstruction at h
  split at h
  · split at h
    · obtain ⟨r, -, h⟩ := Except.bind_ok_iff.mp h
      cases h
      exact .of_control rfl
    · exact ecall_faultStep h
  split at h
  · cases h
    exact .of_control rfl
  split at h
  · have hd := congrArg Data.trapLog (mret_data h)
    obtain ⟨p, -, h⟩ := Except.bind_ok_iff.mp h
    cases h
    exact .of_record hd (lastFault_of_record rfl)
  split at h
  · have hd := congrArg Data.trapLog (sret_data h)
    obtain ⟨p, -, h⟩ := Except.bind_ok_iff.mp h
    cases h
    exact .of_record hd (lastFault_of_record rfl)
  split at h <;> cases h <;> exact .of_control rfl

/-- Only a page fault changes the record, whatever the instruction. -/
theorem execute_faultStep {d : Decoded} {csr : BitVec 12} (h : c.execute host d csr = .ok c') : FaultStep c c' := by
  cases hi : d.instruction <;> simp only [execute, hi] at h
  case add | addw | and | sub | subw | or | xor | sll | sllw | srl | srlw | sra | sraw =>
    obtain ⟨v, rfl, -⟩ := operationInstruction_ok h
    exact .of_control rfl
  case addi | addiw | andi | ori | xori =>
    obtain ⟨v, rfl, -⟩ := immediateInstruction_ok h
    exact .of_control rfl
  case slli | slliw | srli | srliw | srai | sraiw =>
    rcases immediateShiftInstruction_ok h with rfl | ⟨v, rfl, -⟩ <;> exact .of_control rfl
  case mul | mulh | mulhsu | mulhu | mulw | div | divu | divuw | divw | rem | remu | remuw | remw =>
    obtain ⟨v, rfl, -⟩ := multInstruction_ok h
    exact .of_control rfl
  case slt | sltu | slti | sltiu | lui | auipc | beq | bge | bgeu | blt | bltu | bne | fence | fencei | error =>
    cases h
    exact .of_control rfl
  case jal | jalr =>
    split at h <;> cases h <;> exact .of_control rfl
  case lb | lbu | lh | lhu | lw | lwu | ld => exact loadInstruction_faultStep h
  case sb | sh | sw | sd => exact storeInstruction_faultStep h
  case system => exact systemInstruction_faultStep h
  case csrrc | csrrci | csrrs | csrrsi | csrrw | csrrwi =>
    cases h
    exact .of_record (congrArg Data.trapLog (csrsInstruction_data _ csr d.rd d.rs1))
      (lastFault_of_record (csrsInstruction_faultRecord _ _ _ _))
  all_goals
    obtain ⟨t, hk, -⟩ := amoInstruction_ok h
    exact .of_control hk.control

/-! ## Rounds -/

theorem interruptCheck_faultRecord : c.interruptCheck.faultRecord = c.faultRecord := by
  have hd : c.diskInterruptCheck.faultRecord = c.faultRecord := by
    unfold diskInterruptCheck
    split <;> rfl
  have hu : ∀ c : RiscvCpu, c.uartInterruptCheck.faultRecord = c.faultRecord := by
    intro c
    unfold uartInterruptCheck
    split <;> rfl
  exact (hu _).trans hd

theorem interruptStage_faultRecord {taken : Bool} (h : c.interruptStage = .ok (taken, c')) :
    c'.faultRecord = c.faultRecord := by
  obtain ⟨c₁, h₁, h⟩ := Except.bind_ok_iff.mp h
  have hr₁ : c₁.faultRecord = c.faultRecord := by
    obtain ⟨p, -, rfl⟩ := timerTick_ok h₁
    split
    · exact setInterruptPending_faultRecord _
    · rfl
  rcases checkPendingInterrupt_ok h with ⟨-, rfl⟩ | ⟨-, cause, rfl⟩
  · rw [interruptCheck_faultRecord, hr₁]
  · rw [trapBody_other (fun h => Bool.false_ne_true h.1.symm), interruptCheck_faultRecord, hr₁]

theorem fetchStage_errorFlag (h : c.fetchStage = .ok c') : c'.errorFlag = c.errorFlag := by
  obtain ⟨⟨ir, c₁⟩, hload, h⟩ := Except.bind_ok_iff.mp h
  cases h
  cases loadCmd_path hload with
  | one first => exact (virtualToPhysical_errorFlag first :)
  | two first half second => exact (virtualToPhysical_errorFlag second).trans (virtualToPhysical_errorFlag first)

/-- What a round does about page faults. -/
inductive Outcome where
  /-- It ends before its instruction, or the instruction leaves a fault
  pending. -/
  | none
  /-- A page fault is taken, and `stop` is `error_flag_` after its `Trap`. -/
  | fault (address : BitVec 64) (stop : Bool)
  | completed
  deriving DecidableEq

/-- The outcome of the round, by the stages of `step` up to the instruction. -/
def outcome (c : RiscvCpu) (host : Host) : Except Crash Outcome := do
  let (taken, c) ← c.interruptStage
  if taken then
    return .none
  let c ← c.fetchStage
  if c.pageFault then
    let c' := c.trapBody instructionPageFault false
    return .fault c'.faultingAddress c'.errorFlag
  let c' ← c.executeStage host
  if c.tookPageFault c' then
    return .fault c'.faultingAddress c'.errorFlag
  return if c'.pageFault then .none else .completed

/-- The record before the instruction is that of the head of the round. -/
theorem fetchStage_faultRecord {c₁ c₂ : RiscvCpu} (h₁ : c.interruptStage = .ok (false, c₁))
    (h₂ : c₁.fetchStage = .ok c₂) :
    c₂.lastFault = c.lastFault ∧ c₂.errorFlag = c.errorFlag := by
  have hr := interruptStage_faultRecord h₁
  exact ⟨(lastFault_of_control (fetchStage_ok h₂).1.control).trans (lastFault_of_record hr),
    (fetchStage_errorFlag h₂).trans (congrArg FaultRecord.errorFlag hr)⟩

/-- A page fault is taken at the fetch or by the instruction. -/
theorem outcome_fault {a : BitVec 64} {stop : Bool} (h : c.outcome host = .ok (.fault a stop)) :
    ∃ c₀ c₃, c₀.lastFault = c.lastFault ∧ c₀.errorFlag = c.errorFlag ∧ FaultTaken c₀ c₃ ∧
      a = c₃.faultingAddress ∧ stop = c₃.errorFlag := by
  obtain ⟨⟨taken, c₁⟩, h₁, h⟩ := Except.bind_ok_iff.mp h
  cases taken with
  | true => cases h
  | false =>
    obtain ⟨c₂, h₂, h⟩ := Except.bind_ok_iff.mp h
    obtain ⟨hl, he⟩ := fetchStage_faultRecord h₁ h₂
    split at h
    · next hp =>
      cases h
      exact ⟨c₂, _, hl, he, faultTaken_trapBody rfl rfl hp (by decide), rfl, rfl⟩
    obtain ⟨c₃, h₃, h⟩ := Except.bind_ok_iff.mp h
    split at h
    · next ht =>
      cases h
      have hstep : FaultStep c₂.decodeStage c₃ := execute_faultStep h₃
      cases hstep with
      | quiet log => exact absurd (ht.symm.trans log) (by decide)
      | fault log taken => exact ⟨c₂.decodeStage, c₃, hl, he, taken, rfl, rfl⟩
    · split at h <;> cases h

/-- While the emulator runs, `Trap` stops it for a page fault exactly when the
last one was at the same address. -/
theorem outcome_stop {a : BitVec 64} {stop : Bool} (hrun : c.errorFlag = false)
    (h : c.outcome host = .ok (.fault a stop)) : stop = true ↔ c.lastFault = some a := by
  obtain ⟨c₀, c₃, hl, he, ht, rfl, rfl⟩ := outcome_fault h
  rw [ht.stop, he, hrun, hl, Bool.false_or, beq_iff_eq]

/-- A round remembers the page fault it takes, and otherwise the last one. -/
theorem step_lastFault (h : c.step host = .ok c') : ∃ o, c.outcome host = .ok o ∧
    c'.lastFault = match o with
      | .fault a _ => some a
      | _ => c.lastFault := by
  cases step_round h with
  | interrupt taken =>
    refine ⟨.none, ?_, lastFault_of_record (interruptStage_faultRecord taken)⟩
    rw [outcome, taken]
    rfl
  | fetchFault c₁ c₂ head fetch pageFault trap =>
    subst trap
    refine ⟨.fault _ (c₂.trapBody instructionPageFault false).errorFlag, ?_,
      (faultTaken_trapBody rfl rfl pageFault (by decide)).last⟩
    simp only [outcome, head, fetch, pageFault, Except.ok_bind, if_true, Bool.false_eq_true, if_false]
    rfl
  | execute c₁ c₂ c₃ head fetch pageFault execute finish =>
    have hstep : FaultStep c₂.decodeStage c₃ := execute_faultStep execute
    have hfinish : c'.lastFault = c₃.lastFault := by
      obtain ⟨p, m, -, -, hfin⟩ := finishStage_ok finish
      exact (lastFault_of_control hfin.control).trans rfl
    simp only [outcome, head, fetch, pageFault, execute, Except.ok_bind, Bool.false_eq_true, if_false, hfinish]
    cases hstep with
    | quiet log last =>
      have hlast : c₃.lastFault = c.lastFault := last.trans (fetchStage_faultRecord head fetch).1
      have hlog : c₂.tookPageFault c₃ = false := log
      rw [hlog, if_neg Bool.false_ne_true, hlast]
      split <;> exact ⟨_, rfl, rfl⟩
    | fault log taken =>
      have hlog : c₂.tookPageFault c₃ = true := log
      rw [hlog, if_pos rfl]
      exact ⟨_, rfl, taken.last⟩

/-! ## Runs -/

/-- What has happened since the last page fault. -/
structure FaultHistory where
  /-- Its address. -/
  last : Option (BitVec 64) := none
  /-- An instruction has completed without a page fault. -/
  completed : Bool := false
  deriving DecidableEq

/-- After a round. -/
def faultHistory (host : Host) (c : RiscvCpu) (g : FaultHistory) : FaultHistory :=
  match c.outcome host with
  | .ok (.fault a _) => { last := some a, completed := false }
  | .ok .completed => { g with completed := true }
  | _ => g

/-- The rounds of the loop, with the history. -/
def faultStep : Host → RiscvCpu × FaultHistory → Except Crash (RiscvCpu × FaultHistory) := Run.noted step faultHistory

/-- The loop goes on. -/
def Running (c : RiscvCpu) : Prop := c.errorFlag = false ∧ c.endFlag = false

/-- The processor remembers the last page fault of the history. -/
def Remembers (s : RiscvCpu × FaultHistory) : Prop := s.1.lastFault = s.2.last

/-- If the next round stops for a page fault, then right after another one at
the same address. -/
def BackToBack (host : Host) (s : RiscvCpu × FaultHistory) : Prop :=
  ∀ a, s.1.outcome host = .ok (.fault a true) → s.2.last = some a ∧ s.2.completed = false

/-- If it takes a page fault at the address of the last one, no instruction
has completed since. -/
def NoReturn (host : Host) (s : RiscvCpu × FaultHistory) : Prop :=
  ∀ a stop, s.1.outcome host = .ok (.fault a stop) → s.2.last = some a → s.2.completed = false

theorem remembers_step {s t : RiscvCpu × FaultHistory} (hs : Remembers s) (h : faultStep host s = .ok t) :
    Remembers t := by
  obtain ⟨hc, hn⟩ := Run.noted_ok_iff.mp h
  obtain ⟨o, ho, hlast⟩ := step_lastFault hc
  rw [Remembers, hlast, hn, faultHistory, ho]
  cases o with
  | none => exact hs
  | fault a stop => rfl
  | completed => exact hs

theorem backToBack_iff {s : RiscvCpu × FaultHistory} (hs : Remembers s) (hrun : Running s.1) :
    BackToBack host s ↔ NoReturn host s := by
  have hstop : ∀ {a stop}, s.1.outcome host = .ok (.fault a stop) → (stop = true ↔ s.2.last = some a) := by
    intro a stop h
    rw [outcome_stop hrun.1 h, hs]
  constructor
  · intro h a stop ho hlast
    obtain rfl := (hstop ho).mpr hlast
    exact (h a ho).2
  · intro h a ho
    have hlast := (hstop ho).mp rfl
    exact ⟨hlast, h a true ho hlast⟩

theorem not_backToBack {g : FaultHistory} {a : BitVec 64} (h : c.outcome host = .ok (.fault a true))
    (hc : g.completed = true) : ¬ BackToBack host (c, g) :=
  fun hb => Bool.false_ne_true ((hb a h).2.symm.trans hc)

/-- **Repeated page faults.** In every run, a round stops the emulator only
for page faults that follow each other exactly when no page fault comes back
to the address of the last one after an instruction has completed. -/
theorem repeat_run (s t : RiscvCpu × FaultHistory) (hs : Remembers s)
    (h : Run.Steps faultStep (fun _ u => Running u.1) s t) (hrun : Running t.1) (host : Host) :
    BackToBack host t ↔ NoReturn host t :=
  backToBack_iff (h.invariant (fun _ _ _ hu _ hst => remembers_step hu hst) hs) hrun

theorem faultStep_next {g g' : FaultHistory} (h : (c.step .failing).toOption.isSome = true)
    (hg : faultHistory .failing c g = g') : faultStep .failing (c, g) = .ok (c.next, g') :=
  Run.noted_ok_iff.mpr ⟨step_next h, hg.symm⟩

/-- A program in supervisor mode that loads from a page the handler has to
map, and then unmaps the page and loads again. -/
def refill : RiscvCpu :=
  let memory := ((((((MemoryWrapper.new.assign 0).setWord 0 0 0x0003A083).setWord 0 1 0x0004A223).setWord 0 2
    0x0003A083).setWord 0 0x40 0x0084A223).setWord 0 0x41 0x30200073).setWord 0 0x400 0xCF
  let c := (((new false 0).setMemory memory).setReg 7 0x400000).setReg 8 0x1000CF
  { ((c.setReg 9 0x1000).setCsr Csr.satp 0x80000001).setCsr Csr.mtvec 0x100 with privilege := .supervisorMode }

/-- The first load faults, and the round after it does not stop. -/
theorem repeat_run_first : BackToBack .failing (refill.next, { last := some 0x400000 }) :=
  (repeat_run (refill, {}) (refill.next, { last := some 0x400000 }) rfl
    (.tail .refl ⟨rfl, rfl⟩ (faultStep_next (by decide +kernel) (by decide +kernel)))
    ⟨by decide +kernel, by decide +kernel⟩ .failing).mpr fun _ _ _ _ => rfl

/-- The handler maps the page, the load is done, the page is unmapped, and the
second load is a new fault at the old address. The emulator stops. -/
theorem repeat_run_refill :
    ∃ t, Run.Steps faultStep (fun _ u => Running u.1) (refill, {}) (t, { last := some 0x400000, completed := true }) ∧
      Remembers (refill, {}) ∧ Running t ∧ t.outcome .failing = .ok (.fault 0x400000 true) ∧
      ¬ BackToBack .failing (t, { last := some 0x400000, completed := true }) := by
  have h₁ : faultStep .failing (refill, {}) = .ok (refill.next, { last := some 0x400000 }) :=
    faultStep_next (by decide +kernel) (by decide +kernel)
  have h₂ : faultStep .failing (refill.next, { last := some 0x400000 }) =
      .ok (refill.next.next, { last := some 0x400000, completed := true }) :=
    faultStep_next (by decide +kernel) (by decide +kernel)
  have h₃ : faultStep .failing (refill.next.next, { last := some 0x400000, completed := true }) =
      .ok (refill.next.next.next, { last := some 0x400000, completed := true }) :=
    faultStep_next (by decide +kernel) (by decide +kernel)
  have h₄ : faultStep .failing (refill.next.next.next, { last := some 0x400000, completed := true }) =
      .ok (refill.next.next.next.next, { last := some 0x400000, completed := true }) :=
    faultStep_next (by decide +kernel) (by decide +kernel)
  have h₅ : faultStep .failing (refill.next.next.next.next, { last := some 0x400000, completed := true }) =
      .ok (refill.next.next.next.next.next, { last := some 0x400000, completed := true }) :=
    faultStep_next (by decide +kernel) (by decide +kernel)
  have hfault : refill.next.next.next.next.next.outcome .failing = .ok (.fault 0x400000 true) :=
    (Except.eq_ok_getD (by decide +kernel) .none).trans (congrArg Except.ok (by decide +kernel))
  refine ⟨refill.next.next.next.next.next, ?_, rfl, ⟨by decide +kernel, by decide +kernel⟩, hfault,
    not_backToBack hfault rfl⟩
  · refine .tail (.tail (.tail (.tail (.tail .refl ?_ h₁) ?_ h₂) ?_ h₃) ?_ h₄) ?_ h₅
    all_goals exact ⟨by decide +kernel, by decide +kernel⟩

end RiscvCpu

end RiscvEmulator
