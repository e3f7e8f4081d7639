/-
Page faults and the instructions that raise them.

`page_fault_` is set by every translation that faults, and cleared only by
the trap that is taken for it. The fetch, the loads and the stores look at
it and trap; the atomic operations do not. `amo_run` says that this is the
only gap: in a run in which no atomic operation faults, the flag is clear at
the head of every round, and an instruction page fault is the fetch's own.
-/
import RiscvEmulator.RoundFacts

namespace RiscvEmulator

namespace RiscvCpu

variable {c c' : RiscvCpu} {host : Host}

/-! ## One instruction -/

section

variable {d : Decoded} {csr : BitVec 12}

/-- Only an atomic operation leaves the flag set. -/
theorem Effect.pageFault (hf : c.pageFault = false) (h : Effect c host d csr c') (hp : c'.pageFault = true) :
    isAmo d.instruction = true ∧ c.Faults (c.reg d.rs1) := by
  have hdata : c'.data.pageFault = true := hp
  have hclear : ¬ c.data.pageFault = true := by
    rw [show c.data.pageFault = c.pageFault from rfl, hf]
    exact nofun
  cases h with
  | write v _ _ hw => exact hw.mp hp
  | quiet _ _ hq => exact absurd (hq.symm.trans hp) nofun
  | fault cause page ht =>
    obtain ⟨c₀, -, -, -, rfl⟩ := ht
    rw [trapBody_data] at hdata
    rcases page with rfl | rfl <;> exact absurd hdata nofun
  | ecall cause page ht =>
    subst ht
    rw [trapBody_data] at hdata
    simp only [page, Bool.false_eq_true, and_false, if_false] at hdata
    exact absurd hdata hclear
  | call _ _ hc =>
    obtain ⟨r, -, hc⟩ := Except.bind_ok_iff.mp hc
    cases hc
    exact absurd hp hclear
  | csrs _ ht =>
    subst ht
    rw [csrsInstruction_data] at hdata
    exact absurd hdata hclear
  | mret _ _ hr => rw [mret_data hr] at hdata; exact absurd hdata hclear
  | sret _ _ hr => rw [sret_data hr] at hdata; exact absurd hdata hclear

/-- No instruction takes an instruction page fault. -/
theorem Effect.trapLog (h : Effect c host d csr c') :
    c'.trapLog = c.trapLog ∨ ∃ cause, cause ≠ instructionPageFault ∧ c'.trapLog = (cause, false) :: c.trapLog := by
  cases h with
  | write v hk => exact .inl (congrArg Control.trapLog hk.control)
  | quiet hk => exact .inl (congrArg Control.trapLog hk.control)
  | fault cause page ht =>
    obtain ⟨c₀, hk, -, -, rfl⟩ := ht
    refine .inr ⟨cause, ?_, ?_⟩
    · rcases page with rfl | rfl <;> decide
    · rw [← show c₀.trapLog = c.trapLog from congrArg Control.trapLog hk.control]
      exact trapBody_trapLog
  | ecall cause page ht =>
    subst ht
    refine .inr ⟨cause, ?_, trapBody_trapLog⟩
    rintro rfl
    exact absurd page (by decide)
  | call _ _ hc =>
    obtain ⟨r, -, hc⟩ := Except.bind_ok_iff.mp hc
    cases hc
    exact .inl rfl
  | csrs _ ht =>
    subst ht
    exact .inl (congrArg Data.trapLog (csrsInstruction_data _ _ _ _))
  | mret _ _ hr => exact .inl (congrArg Data.trapLog (mret_data hr))
  | sret _ _ hr => exact .inl (congrArg Data.trapLog (sret_data hr))

end

/-! ## One round -/

/-- It is an atomic operation whose address does not translate. -/
def AmoFaults (c₂ : RiscvCpu) : Prop :=
  isAmo (decode c₂.ir c₂.mxl).instruction = true ∧ c₂.Faults (c₂.reg (decode c₂.ir c₂.mxl).rs1)

/-- No atomic operation of the round faults. -/
def AmoTranslates (_ : Host) (c : RiscvCpu) : Prop := ∀ c₂, c.Fetches c₂ → ¬ c₂.AmoFaults

/-- The instruction fetched in `c₂` ended in a page fault of its own: the
trap, the address of the instruction, the address it used, and no register
and no memory byte changed. -/
structure AmoTrapped (c₂ c₃ : RiscvCpu) : Prop where
  cause : c₃.trapLog = (storePageFault, false) :: c₂.trapLog ∨ c₃.trapLog = (loadPageFault, false) :: c₂.trapLog
  xepc : c₃.csrs (if c₃.privilege = .supervisorMode then Csr.sepc else Csr.mepc) = c₂.pc
  xtval : c₃.csrs (if c₃.privilege = .supervisorMode then Csr.stval else Csr.mtval) =
    c₂.reg (decode c₂.ir c₂.mxl).rs1
  reg : c₃.reg = c₂.reg
  memory : c₃.memory.bytes = c₂.memory.bytes

/-- A round raises the page faults of its own instruction, and no others. -/
structure FaultsAttributed (host : Host) (c c' : RiscvCpu) : Prop where
  amo : ∀ c₂ c₃, c.Fetches c₂ → c₂.AmoFaults → c₂.executeStage host = .ok c₃ → AmoTrapped c₂ c₃
  head : c'.pageFault = false
  fetch : c'.trapLog = (instructionPageFault, false) :: c.trapLog →
    ∃ c₁, c.interruptStage = .ok (false, c₁) ∧ c₁.pc = c.nextPc ∧ c₁.FetchFaults c₁.pc

/-- An atomic operation never traps: it sets the flag and goes on. -/
theorem executeStage_amoFaults {c₂ c₃ : RiscvCpu} (ha : c₂.AmoFaults) (h : c₂.executeStage host = .ok c₃) :
    c₃.trapLog = c₂.trapLog ∧ c₃.pageFault = true := by
  rw [executeStage, execute_amo ha.1] at h
  obtain ⟨t, hk, -, -, hp⟩ := amoInstruction_ok h
  refine ⟨congrArg Control.trapLog hk.control, ?_⟩
  rcases hp with ⟨-, hp⟩ | ⟨hno, -⟩
  · exact hp
  · exact absurd ha.2 hno

/-- The start of a round: the flag and the record are as they were, but for
the interrupt. -/
theorem interruptStage_faults {taken : Bool} (h : c.interruptStage = .ok (taken, c')) :
    c'.pageFault = c.pageFault ∧
      ((taken = false ∧ c'.pc = c.nextPc ∧ c'.trapLog = c.trapLog) ∨
        (taken = true ∧ ∃ cause, c'.trapLog = (cause, true) :: c.trapLog)) := by
  obtain ⟨c₀, p, hpc, -, hd, hc⟩ := interruptStage_ok h
  have hf : c₀.pageFault = c.pageFault := congrArg Data.pageFault hd
  have hl : c₀.trapLog = c.trapLog := congrArg Data.trapLog hd
  rcases hc with ⟨rfl, rfl⟩ | ⟨rfl, cause, rfl⟩
  · exact ⟨hf, .inl ⟨rfl, hpc, hl⟩⟩
  · refine ⟨(congrArg Data.pageFault trapBody_data).trans hf, .inr ⟨rfl, cause, ?_⟩⟩
    rw [← hl]
    exact trapBody_trapLog

/-- The flag at the end of a round in which no atomic operation faults. -/
theorem round_pageFault (hc : c.pageFault = false) (h : Round host c c') (ha : c.AmoTranslates host) :
    c'.pageFault = false := by
  cases h with
  | interrupt taken => exact (interruptStage_faults taken).1.trans hc
  | fetchFault c₁ c₂ _ _ _ trap =>
    subst trap
    exact congrArg Data.pageFault trapBody_data
  | execute c₁ c₂ c₃ head fetch pageFault execute finish =>
    obtain ⟨p, m, -, -, hfin⟩ := finishStage_ok finish
    rw [hfin.pageFault]
    cases hp : c₃.pageFault with
    | false => rfl
    | true =>
      have heffect := executeStage_effect pageFault execute
      exact absurd (Effect.pageFault (c := c₂.decodeStage) pageFault heffect hp)
        (ha c₂ ⟨c₁, head, fetch, pageFault⟩)

/-- Only a fetch that faults takes an instruction page fault. -/
theorem round_fetchFault (hc : c.pageFault = false) (h : Round host c c')
    (hl : c'.trapLog = (instructionPageFault, false) :: c.trapLog) :
    ∃ c₁, c.interruptStage = .ok (false, c₁) ∧ c₁.pc = c.nextPc ∧ c₁.FetchFaults c₁.pc := by
  cases h with
  | interrupt taken =>
    obtain ⟨-, ⟨hno, -⟩ | ⟨-, cause, hcause⟩⟩ := interruptStage_faults taken
    · cases hno
    · rw [hcause] at hl
      cases hl
  | fetchFault c₁ c₂ head fetch pageFault trap =>
    obtain ⟨hf, ⟨-, hpc, -⟩ | ⟨hno, -⟩⟩ := interruptStage_faults head
    · refine ⟨c₁, head, hpc, ?_⟩
      rcases (fetchStage_ok fetch).2.2 pageFault with hp | hp
      · rw [hf, hc] at hp
        cases hp
      · exact hp
    · cases hno
  | execute c₁ c₂ c₃ head fetch pageFault execute finish =>
    obtain ⟨-, ⟨-, -, hl₁⟩ | ⟨hno, -⟩⟩ := interruptStage_faults head
    · obtain ⟨p, m, -, -, hfin⟩ := finishStage_ok finish
      have hl₃ : c'.trapLog = c₃.trapLog := congrArg Control.trapLog hfin.control
      have hl₂ : c₂.trapLog = c₁.trapLog := congrArg Control.trapLog (fetchStage_ok fetch).1.control
      rw [hl₃, ← hl₁, ← hl₂] at hl
      rcases (executeStage_effect pageFault execute).trapLog with he | ⟨cause, hne, he⟩
      · rw [he] at hl
        exact absurd hl.symm (List.cons_ne_self _ _)
      · rw [he] at hl
        cases hl
        exact absurd rfl hne
    · cases hno

/-- A round does what it should with page faults exactly when no atomic
operation of it faults. -/
theorem round_faultsAttributed (hc : c.pageFault = false) (h : Round host c c') :
    FaultsAttributed host c c' ↔ c.AmoTranslates host := by
  constructor
  · intro hatt c₂ hfetch ha
    obtain ⟨c₁, head, fetch, pageFault⟩ := hfetch
    cases h with
    | interrupt taken =>
      rw [head] at taken
      cases taken
    | fetchFault c₁' c₂' head' fetch' pageFault' =>
      rw [head] at head'
      cases head'
      rw [fetch] at fetch'
      cases fetch'
      exact absurd (pageFault.symm.trans pageFault') nofun
    | execute c₁' c₂' c₃ head' fetch' pageFault' execute finish =>
      rw [head] at head'
      cases head'
      rw [fetch] at fetch'
      cases fetch'
      obtain ⟨p, m, -, -, hfin⟩ := finishStage_ok finish
      have hp : c₃.pageFault = false := hfin.pageFault.symm.trans hatt.head
      exact absurd (hp.symm.trans (executeStage_amoFaults ha execute).2) nofun
  · intro ha
    exact ⟨fun c₂ c₃ hf h₂ => absurd h₂ (ha c₂ hf), round_pageFault hc h ha, round_fetchFault hc h⟩

/-! ## Runs -/

/-- **Page faults are their instruction's own.** From a state with the flag
clear, a run whose rounds execute no atomic operation at an address that
does not translate finds the flag clear at the head of every round, and the
next round attributes its page faults rightly if and only if it executes
none either. -/
theorem amo_run (s t : RiscvCpu) (hs : s.pageFault = false) (h : Run.Steps step AmoTranslates s t) :
    t.pageFault = false ∧
      ∀ host u, t.step host = .ok u → (FaultsAttributed host t u ↔ t.AmoTranslates host) := by
  have ht : t.pageFault = false :=
    h.invariant (fun host c c' hc ha hst => round_pageFault hc (step_round hst) ha) hs
  exact ⟨ht, fun host u hu => round_faultsAttributed ht (step_round hu)⟩

theorem not_faults_of_machine (hp : c.privilege = .machineMode) (hm : bitcrop (c.csrs Csr.mstatus) 1 17 ≠ 1)
    (va : BitVec 64) : ¬ c.Faults va := by
  rintro ⟨R, hR, ht⟩
  rw [regime, accessPrivilege, if_neg (fun h => hm h.2), hp] at hR
  cases hR
  cases ht

/-- Two atomic operations in machine mode, where every address translates. -/
def machineAmo : RiscvCpu :=
  (new false 0).setMemory (((MemoryWrapper.new.assign 0).setWord 0 0 0x000020AF).setWord 0 1 0x000020AF)

theorem amo_run_machine : machineAmo.next.pageFault = false ∧
    FaultsAttributed .failing machineAmo.next machineAmo.next.next := by
  have hfirst : machineAmo.AmoTranslates .failing := by
    intro c₂ hc ha
    rw [hc.eq] at ha
    exact not_faults_of_machine (by decide +kernel) (by decide +kernel) _ ha.2
  have hsecond : machineAmo.next.AmoTranslates .failing := by
    intro c₂ hc ha
    rw [hc.eq] at ha
    exact not_faults_of_machine (by decide +kernel) (by decide +kernel) _ ha.2
  have hrun : Run.Steps step AmoTranslates machineAmo machineAmo.next :=
    .tail .refl hfirst (step_next (by decide +kernel))
  obtain ⟨hp, hiff⟩ := amo_run machineAmo machineAmo.next rfl hrun
  exact ⟨hp, (hiff .failing _ (step_next (by decide +kernel))).mpr hsecond⟩

/-- A program that turns translation on, with the low megabytes mapped, and
then does an atomic operation outside of them. -/
def unmappedAmo : RiscvCpu :=
  let memory := (((((MemoryWrapper.new.assign 0).setWord 0 0 0x18029073).setWord 0 1 0x30031073).setWord 0 2
    0x0003A0AF).setWord 0 0x400 0xCF)
  ((((new false 0).setMemory memory).setReg 5 0x80000001).setReg 6 0x20800).setReg 7 0x400000

/-- The atomic operation takes no trap, and the round after it takes an
instruction page fault for it. -/
theorem amo_run_unmapped :
    unmappedAmo.pageFault = false ∧
      Run.Steps step (fun _ _ => True) unmappedAmo unmappedAmo.next.next ∧
      unmappedAmo.next.next.step .failing = .ok unmappedAmo.next.next.next ∧
      unmappedAmo.next.next.next.trapLog = [] ∧ unmappedAmo.next.next.next.pageFault = true ∧
      unmappedAmo.next.next.next.step .failing = .ok unmappedAmo.next.next.next.next ∧
      unmappedAmo.next.next.next.next.trapLog = [(instructionPageFault, false)] ∧
      ¬ FaultsAttributed .failing unmappedAmo.next.next unmappedAmo.next.next.next := by
  have h₁ : unmappedAmo.step .failing = .ok unmappedAmo.next := step_next (by decide +kernel)
  have h₂ : unmappedAmo.next.step .failing = .ok unmappedAmo.next.next := step_next (by decide +kernel)
  have hp : unmappedAmo.next.next.next.pageFault = true := by decide +kernel
  exact ⟨rfl, .tail (.tail .refl trivial h₁) trivial h₂, step_next (by decide +kernel), by decide +kernel, hp,
    step_next (by decide +kernel), by decide +kernel, fun h => absurd (h.head.symm.trans hp) nofun⟩

end RiscvCpu

end RiscvEmulator
