/-
Delegation: the level a trap goes to, what it touches there, and the
interrupts that are taken.

`trap_frame` says of every accepted trap which level it is delivered to,
what it saves for that level, and that nothing else changes. The two levels
differ in the registers and fields a trap writes, so they are two values of
`TrapTarget`, and one structure, `TrapFrame`, states the effect for both.
-/
import RiscvEmulator.RoundFacts

namespace RiscvEmulator

/-- A level traps are delivered to: the registers that save its context, and
the places of xIE, xPIE and xPP in `mstatus`. -/
structure TrapTarget where
  mode : PrivilegeMode
  epc : BitVec 12
  cause : BitVec 12
  tval : BitVec 12
  ie : Nat
  pie : Nat
  pp : Nat
  ppWidth : Nat

namespace TrapTarget

def machine : TrapTarget where
  mode := .machineMode
  epc := Csr.mepc
  cause := Csr.mcause
  tval := Csr.mtval
  ie := 3
  pie := 7
  pp := 11
  ppWidth := 2

def supervisor : TrapTarget where
  mode := .supervisorMode
  epc := Csr.sepc
  cause := Csr.scause
  tval := Csr.stval
  ie := 1
  pie := 5
  pp := 8
  ppWidth := 1

/-- The registers that save the context of the level. -/
def context (l : TrapTarget) : List (BitVec 12) := [l.epc, l.cause, l.tval]

/-- The bits of `mstatus` that are the level's own. -/
def Owns (l : TrapTarget) (i : Nat) : Prop := i = l.ie ∨ i = l.pie ∨ (l.pp ≤ i ∧ i < l.pp + l.ppWidth)

end TrapTarget

namespace RiscvCpu

variable {c c' : RiscvCpu} {cause : Nat} {interrupt : Bool}

/-! ## What a trap touches -/

/-- The cause's bit in the delegation register of its kind. -/
def delegated (c : RiscvCpu) (cause : Nat) (interrupt : Bool) : Bool :=
  if interrupt then
    if c.disableMachineInterruptDelegation then (c.csrs Csr.mideleg &&& 0x666).getLsbD cause
    else (c.csrs Csr.mideleg).getLsbD cause
  else (c.csrs Csr.medeleg).getLsbD cause

/-- A trap interrupts this: the pending bit it clears. Software interrupts
stay pending. -/
def Acknowledges (cause : Nat) (interrupt : Bool) (i : Nat) : Prop :=
  interrupt = true ∧ cause ≠ supervisorSoftwareInterrupt ∧ cause ≠ machineSoftwareInterrupt ∧ i = cause

/-- `c'` is `c` after a trap to level `l`. The cause has the interrupt bit on
top; `tval` is the address of a page fault, the word of an illegal
instruction, and zero for any other trap. -/
structure TrapFrame (c c' : RiscvCpu) (cause : Nat) (interrupt : Bool) (l : TrapTarget) : Prop where
  privilege : c'.privilege = l.mode
  epc : c'.csrs l.epc = c.pc
  xcause : c'.csrs l.cause = BitVec.ofNat 64 (cause + if interrupt = true then 2 ^ (c.xlen - 1) else 0)
  tval : c'.csrs l.tval =
    if interrupt = true then 0
    else if cause = instructionPageFault ∨ cause = loadPageFault ∨ cause = storePageFault then c.faultingAddress
    else if cause = illegalInstruction then c.ir.setWidth 64
    else 0
  pp : bitcrop c'.mstatus l.ppWidth l.pp = privilegeToInt c.privilege
  ie : c'.mstatus.getLsbD l.ie = false
  reg : c'.reg = c.reg
  memory : c'.memory = c.memory
  csrs : ∀ csr, csr ∉ l.context → csr ∉ viewCsrs → c'.csrs csr = c.csrs csr
  mstatus : ∀ i, ¬ l.Owns i → c'.mstatus.getLsbD i = c.mstatus.getLsbD i
  mip : ∀ i, ¬ Acknowledges cause interrupt i → c'.mip.getLsbD i = c.mip.getLsbD i

theorem trapCause_eq (h : trapAccepts cause interrupt = true) : c.trapCause cause interrupt =
    BitVec.ofNat 64 (cause + if interrupt = true then 2 ^ (c.xlen - 1) else 0) := by
  unfold trapCause xlen
  cases interrupt <;> simp only [trapAccepts, if_true, Bool.false_eq_true, if_false, decide_eq_true_eq] at h ⊢
  · exact BitVec.or_zero
  · rcases h with rfl | rfl | rfl <;> cases c.en64bit <;> decide

theorem trapValue_eq : c.trapValue cause interrupt =
    if interrupt = true then 0
    else if cause = instructionPageFault ∨ cause = loadPageFault ∨ cause = storePageFault then c.faultingAddress
    else if cause = illegalInstruction then c.ir.setWidth 64
    else 0 := by
  cases interrupt with
  | true => rfl
  | false =>
    simp only [trapValue, isPageFault, decide_eq_true_eq]
    rfl

theorem svDelegation_iff (h : trapAccepts cause interrupt = true) : c.svDelegation cause interrupt = true ↔
    (c.privilege = .userMode ∨ c.privilege = .supervisorMode) ∧ c.delegated cause interrupt = true := by
  cases interrupt with
  | false => simp only [svDelegation, delegated, Bool.false_eq_true, if_false, bit_iff, decide_eq_true_eq]
  | true =>
    -- The mask of an enabled delegation holds every interrupt there is.
    have hall : (0xfff#64).getLsbD cause = true := by
      simp only [trapAccepts, if_true, decide_eq_true_eq] at h
      rcases h with rfl | rfl | rfl <;> decide
    simp only [svDelegation, delegated, if_true, bit_iff, decide_eq_true_eq]
    cases c.disableMachineInterruptDelegation with
    | false =>
      simp only [Bool.false_eq_true, if_false, BitVec.getLsbD_and, show (0xfff : BitVec 64) = 0xfff#64 from rfl, hall,
        Bool.and_true]
    | true => simp only [if_true]

theorem enterTrap_mip : (c.enterTrap cause interrupt).mip = c.mip := by
  unfold enterTrap
  dsimp only
  split <;> rfl

theorem enterTrap_csrs : (c.enterTrap cause interrupt).csrs = c.csrs := by
  unfold enterTrap
  dsimp only
  split <;> rfl

theorem enterTrap_trapValue :
    (c.enterTrap cause interrupt).trapValue cause interrupt = c.trapValue cause interrupt := by
  unfold enterTrap
  dsimp only
  split <;> rfl

theorem trapToSupervisor_csrs {csr : BitVec 12} {sie : Bool} (hl : csr ∉ TrapTarget.supervisor.context)
    (hv : csr ∉ viewCsrs) : (c.trapToSupervisor cause interrupt sie).csrs csr = c.csrs csr := by
  simp only [TrapTarget.context, TrapTarget.supervisor, viewCsrs, List.mem_cons, List.not_mem_nil, or_false,
    not_or] at hl hv
  unfold trapToSupervisor applyMstatusToCsr setCsr
  simp [hl, hv]

/-- A trap to supervisor mode writes its own level's registers and the views. -/
theorem trapBody_supervisor_csrs {csr : BitVec 12} (h : c.svDelegation cause interrupt = true)
    (hl : csr ∉ TrapTarget.supervisor.context) (hv : csr ∉ viewCsrs) :
    (c.trapBody cause interrupt).csrs csr = c.csrs csr := by
  rw [trapBody_of_supervisor h, leaveTrap_csrs hv, trapToSupervisor_csrs hl hv, enterTrap_csrs]

/-- What a trap saves as the value of its cause. -/
theorem trapBody_tval : (c.trapBody cause interrupt).csrs
    (if c.svDelegation cause interrupt then Csr.stval else Csr.mtval) = c.trapValue cause interrupt := by
  cases hd : c.svDelegation cause interrupt with
  | true =>
    rw [if_pos rfl, trapBody_of_supervisor hd, leaveTrap_csrs (by decide), ← enterTrap_trapValue]
    rfl
  | false =>
    rw [if_neg Bool.false_ne_true, trapBody_of_machine hd, leaveTrap_csrs (by decide), ← enterTrap_trapValue]
    rfl

/-- The pending bits a trap leaves: all but the one it acknowledges. -/
theorem getLsbD_leaveTrap_mip {i : Nat} (hc : cause < 64) (h : ¬ Acknowledges cause interrupt i) :
    (c.leaveTrap cause interrupt).mip.getLsbD i = c.mip.getLsbD i := by
  unfold leaveTrap
  dsimp only
  split
  · next hack =>
    have hne : i ≠ cause := fun he => h ⟨hack.1, hack.2.1, hack.2.2, he⟩
    exact getLsbD_bitset_of_outside _ _ (by omega) (by decide) (by omega)
  · rfl

theorem trapAccepts_lt (h : trapAccepts cause interrupt = true) : cause < 64 := by
  cases interrupt <;> simp only [trapAccepts, if_true, Bool.false_eq_true, if_false, decide_eq_true_eq] at h
  · rcases h with rfl | rfl | rfl | rfl | rfl | rfl <;> decide
  · rcases h with rfl | rfl | rfl <;> decide

theorem trapToSupervisor_mip {sie : Bool} : (c.trapToSupervisor cause interrupt sie).mip = c.mip := by
  unfold trapToSupervisor applyMstatusToCsr setCsr
  rfl

theorem trapToMachine_mip {mie : Bool} : (c.trapToMachine cause interrupt mie).mip = c.mip := by
  unfold trapToMachine applyMstatusToCsr setCsr
  rfl

theorem getLsbD_trapBody_mip {i : Nat} (hc : cause < 64) (h : ¬ Acknowledges cause interrupt i) :
    (c.trapBody cause interrupt).mip.getLsbD i = c.mip.getLsbD i := by
  cases hd : c.svDelegation cause interrupt with
  | true => rw [trapBody_of_supervisor hd, getLsbD_leaveTrap_mip hc h, trapToSupervisor_mip, enterTrap_mip]
  | false => rw [trapBody_of_machine hd, getLsbD_leaveTrap_mip hc h, trapToMachine_mip, enterTrap_mip]

theorem trapFrame_supervisor (h : trapAccepts cause interrupt = true) (hd : c.svDelegation cause interrupt = true) :
    TrapFrame c (c.trapBody cause interrupt) cause interrupt .supervisor := by
  obtain ⟨hp, hm, he⟩ := trapBody_supervisor hd
  have hdata : (c.trapBody cause interrupt).data = _ := trapBody_data
  have hlevel : c.trapLevel cause interrupt = .supervisorMode := by rw [trapLevel, if_pos hd]
  have hcause := (trapBody_vector c cause interrupt).2
  have htval : (c.trapBody cause interrupt).csrs _ = _ := trapBody_tval
  rw [hlevel] at hcause
  rw [if_pos hd] at htval
  rw [trapCause_eq h] at hcause
  rw [trapValue_eq] at htval
  refine ⟨hp, he, hcause, htval, ?_, ?_, congrArg Data.reg hdata, congrArg Data.memory hdata,
    fun csr hl hv => trapBody_supervisor_csrs hd hl hv, fun i hi => ?_, fun i hi => ?_⟩
  · rw [hm]
    exact spp_bits (privilege_of_svDelegation hd)
  · rw [hm]
    simp (disch := omega) only [TrapTarget.supervisor, supervisorTrapStatus, getLsbD_bitset_of_outside, getLsbD_bitset]
    rfl
  · rw [hm]
    refine getLsbD_supervisorTrapStatus fun hmem => hi ?_
    simp only [List.mem_cons, List.not_mem_nil, or_false] at hmem
    rcases hmem with rfl | rfl | rfl
    · exact .inl rfl
    · exact .inr (.inl rfl)
    · exact .inr (.inr ⟨by decide, by decide⟩)
  · exact getLsbD_trapBody_mip (trapAccepts_lt h) hi

theorem trapFrame_machine (h : trapAccepts cause interrupt = true) (hd : c.svDelegation cause interrupt = false) :
    TrapFrame c (c.trapBody cause interrupt) cause interrupt .machine := by
  obtain ⟨hp, hm, he⟩ := trapBody_machine hd
  have hdata : (c.trapBody cause interrupt).data = _ := trapBody_data
  have hlevel : c.trapLevel cause interrupt = .machineMode := by rw [trapLevel, if_neg (by simp [hd])]
  have hcause := (trapBody_vector c cause interrupt).2
  have htval : (c.trapBody cause interrupt).csrs _ = _ := trapBody_tval
  rw [hlevel] at hcause
  rw [if_neg (by simp [hd])] at htval
  rw [trapCause_eq h] at hcause
  rw [trapValue_eq] at htval
  refine ⟨hp, he, hcause, htval, ?_, ?_, congrArg Data.reg hdata, congrArg Data.memory hdata,
    fun csr hl hv => ?_, fun i hi => ?_, fun i hi => ?_⟩
  · rw [hm]
    exact mpp_bits
  · rw [hm]
    simp (disch := omega) only [TrapTarget.machine, machineTrapStatus, getLsbD_bitset_of_outside, getLsbD_bitset]
    rfl
  · refine trapBody_machine_csrs hd fun hmem => ?_
    simp only [TrapTarget.context, TrapTarget.machine, List.mem_cons, List.not_mem_nil, or_false, not_or] at hl
    simp only [List.mem_cons] at hmem
    rcases hmem with hmem | hmem | hmem | hmem
    · exact hl.2.1 hmem
    · exact hl.1 hmem
    · exact hl.2.2 hmem
    · exact hv hmem
  · rw [hm]
    refine getLsbD_machineTrapStatus fun hmem => hi ?_
    simp only [List.mem_cons, List.not_mem_nil, or_false] at hmem
    rcases hmem with rfl | rfl | rfl | rfl
    · exact .inl rfl
    · exact .inr (.inl rfl)
    · exact .inr (.inr ⟨by decide, by decide⟩)
    · exact .inr (.inr ⟨by decide, by decide⟩)
  · exact getLsbD_trapBody_mip (trapAccepts_lt h) hi

/-- **What a trap touches.** An accepted trap goes to supervisor mode exactly
when it comes from user or supervisor mode and its cause is delegated, and
to machine mode otherwise. There it saves the context; the registers, the
memory, the registers of the other level and the rest of `mstatus` and
`mip` stay as they are. -/
theorem trap_frame (c : RiscvCpu) (cause : Nat) (interrupt : Bool) (h : trapAccepts cause interrupt = true) :
    ∃ c', c.trap cause interrupt = .ok c' ∧
      (c'.privilege = .supervisorMode ↔
        (c.privilege = .userMode ∨ c.privilege = .supervisorMode) ∧ c.delegated cause interrupt = true) ∧
      TrapFrame c c' cause interrupt (if c'.privilege = .supervisorMode then .supervisor else .machine) := by
  refine ⟨_, trap_eq h, ?_, ?_⟩
  · rw [← svDelegation_iff h, trapBody_privilege, trapLevel]
    cases c.svDelegation cause interrupt <;> simp
  · cases hd : c.svDelegation cause interrupt with
    | true =>
      rw [if_pos (by rw [trapBody_privilege, trapLevel, if_pos hd])]
      exact trapFrame_supervisor h hd
    | false =>
      rw [if_neg (by rw [trapBody_privilege, trapLevel, hd]; decide)]
      exact trapFrame_machine h hd

/-- A page fault in a supervisor with its cause delegated. -/
theorem trap_frame_delegated : ∃ c',
    { (new true 0).setCsr Csr.medeleg 0x2000 with privilege := .supervisorMode }.trap loadPageFault false = .ok c' ∧
      c'.privilege = .supervisorMode := by
  obtain ⟨c', ht, hp, -⟩ := trap_frame { (new true 0).setCsr Csr.medeleg 0x2000 with privilege := .supervisorMode }
    loadPageFault false (by decide)
  exact ⟨c', ht, hp.mpr (by decide)⟩

/-! ## Which interrupts are taken -/

/-- The architecture's rule, for a value of the delegation register: a
delegated interrupt is enabled below supervisor mode and by SIE in it, any
other below machine mode and by MIE in it. -/
def globallyEnabled (c : RiscvCpu) (mideleg : BitVec 64) (cause : Nat) : Bool :=
  if mideleg.getLsbD cause then
    c.privilege = .userMode ∨ (c.privilege = .supervisorMode ∧ c.mstatus.getLsbD 1 = true)
  else
    c.privilege = .userMode ∨ c.privilege = .supervisorMode ∨
      (c.privilege = .machineMode ∧ c.mstatus.getLsbD 3 = true)

/-- The interrupts `Trap` can take. -/
def interruptCauses : List Nat := [supervisorSoftwareInterrupt, machineTimerInterrupt, supervisorExternalInterrupt]

/-- The interrupt is pending and nothing holds it back. -/
structure Due (c : RiscvCpu) (mideleg : BitVec 64) (cause : Nat) : Prop where
  known : cause ∈ interruptCauses
  pending : c.interruptStatus.getLsbD cause = true
  enabled : c.globallyEnabled mideleg cause = true

/-- `CheckPendingInterrupt` enters `Trap` with the cause. -/
def Takes (c : RiscvCpu) (cause : Nat) : Prop :=
  ∃ c', c.trap cause true = .ok c' ∧ c.checkPendingInterrupt = .ok (true, c')

variable {mideleg : BitVec 64}

theorem globalMie_of_enabled (h : c.globallyEnabled mideleg cause = true) : c.globalMie = true := by
  rw [globalMie_eq]
  unfold globallyEnabled at h
  cases hp : c.privilege <;> cases hm : c.mstatus.getLsbD 3 <;> simp_all

/-- Where the supervisor enable is effective, every interrupt is enabled. -/
theorem enabled_of_globalSie (h : c.globalSie = true) (cause : Nat) : c.globallyEnabled mideleg cause = true := by
  rw [globalSie_eq] at h
  unfold globallyEnabled
  cases hp : c.privilege <;> cases hm : c.mstatus.getLsbD 1 <;> simp_all

theorem globalMie_of_globalSie (h : c.globalSie = true) : c.globalMie = true :=
  globalMie_of_enabled (show c.globallyEnabled 0 0 = true from enabled_of_globalSie h 0)

theorem trapAccepts_of_known (h : cause ∈ interruptCauses) : trapAccepts cause true = true := by
  simp only [interruptCauses, List.mem_cons, List.not_mem_nil, or_false] at h
  rcases h with rfl | rfl | rfl <;> decide

/-- Where no other interrupt is pending, the check goes through three causes
in turn, and looks for two of them at the supervisor enable alone. -/
theorem checkPendingInterrupt_known (hothers : ∀ i, c.interruptStatus.getLsbD i = true → i ∈ interruptCauses) :
    c.checkPendingInterrupt =
      if c.globalSie ∧ c.interruptStatus.getLsbD supervisorSoftwareInterrupt then
        .ok (true, c.trapBody supervisorSoftwareInterrupt true)
      else if c.globalMie ∧ c.interruptStatus.getLsbD machineTimerInterrupt then
        .ok (true, c.trapBody machineTimerInterrupt true)
      else if c.globalSie ∧ c.interruptStatus.getLsbD supervisorExternalInterrupt then
        .ok (true, c.trapBody supervisorExternalInterrupt true)
      else .ok (false, c) := by
  have hclear : ∀ i ∉ interruptCauses, c.interruptStatus.getLsbD i = false :=
    fun i hi => Bool.eq_false_iff.mpr fun hb => hi (hothers i hb)
  rw [checkPendingInterrupt_eq]
  simp only [hclear 3 (by decide), hclear 5 (by decide), hclear 11 (by decide), Bool.false_eq_true, and_false, if_false,
    trap_eq (show trapAccepts supervisorSoftwareInterrupt true = true by decide),
    trap_eq (show trapAccepts machineTimerInterrupt true = true by decide),
    trap_eq (show trapAccepts supervisorExternalInterrupt true = true by decide)]
  rfl

/-- Two traps with different causes differ. -/
theorem cause_of_trapBody {cause' : Nat} (h : c.trapBody cause true = c.trapBody cause' true) : cause = cause' := by
  have hlog := congrArg (fun c => c.data.trapLog) h
  simp only [trapBody_data, List.cons.injEq, Prod.mk.injEq, and_true] at hlog
  exact hlog

theorem takes_iff (h : cause ∈ interruptCauses) :
    c.Takes cause ↔ c.checkPendingInterrupt = .ok (true, c.trapBody cause true) := by
  constructor
  · rintro ⟨c', ht, hc⟩
    rw [(trap_ok_iff.mp ht).2] at hc
    exact hc
  · intro hc
    exact ⟨_, trap_eq (trapAccepts_of_known h), hc⟩

/-- **Enabled interrupts.** Where interrupts of the three kinds only are
pending and one of them is due, one that is due is taken exactly when the
machine timer is among them or the supervisor enable is effective: the
others are tested with the supervisor enable even where they are not
delegated. This is so for the delegation register as it stands and for the
value `Trap` masks out of it. -/
theorem interrupt_taken_iff (c : RiscvCpu) (mideleg : BitVec 64)
    (hothers : ∀ i, c.interruptStatus.getLsbD i = true → i ∈ interruptCauses) (hdue : ∃ cause, c.Due mideleg cause) :
    (∃ cause, c.Due mideleg cause ∧ c.Takes cause) ↔
      c.Due mideleg machineTimerInterrupt ∨ c.globalSie = true := by
  have hcheck := checkPendingInterrupt_known hothers
  constructor
  · rintro ⟨cause, hd, ht⟩
    rw [takes_iff hd.known, hcheck] at ht
    split at ht
    · next h1 => exact .inr h1.1
    split at ht
    · -- The timer is taken, so it is the cause that is due.
      obtain rfl : machineTimerInterrupt = cause := by
        injection ht with ht
        exact cause_of_trapBody (congrArg Prod.snd ht)
      exact .inl hd
    split at ht
    · next h9 => exact .inr h9.1
    · cases ht
  · intro hcond
    have hmie : c.globalMie = true := by
      rcases hcond with hd | hsie
      · exact globalMie_of_enabled hd.enabled
      · exact globalMie_of_globalSie hsie
    split at hcheck
    · next h1 =>
      have hk : supervisorSoftwareInterrupt ∈ interruptCauses := by decide
      exact ⟨_, ⟨hk, h1.2, enabled_of_globalSie h1.1 _⟩, (takes_iff hk).mpr hcheck⟩
    next h1 =>
    split at hcheck
    · next h7 =>
      have hk : machineTimerInterrupt ∈ interruptCauses := by decide
      refine ⟨_, ⟨hk, h7.2, ?_⟩, (takes_iff hk).mpr hcheck⟩
      rcases hcond with hd | hsie
      · exact hd.enabled
      · exact enabled_of_globalSie hsie _
    next h7 =>
    -- The timer is not pending, so the supervisor enable is effective.
    have hsie : c.globalSie = true := hcond.resolve_left fun hd => h7 ⟨hmie, hd.pending⟩
    split at hcheck
    · next h9 =>
      have hk : supervisorExternalInterrupt ∈ interruptCauses := by decide
      exact ⟨_, ⟨hk, h9.2, enabled_of_globalSie h9.1 _⟩, (takes_iff hk).mpr hcheck⟩
    next h9 =>
    obtain ⟨cause, hd⟩ := hdue
    have hk := hd.known
    simp only [interruptCauses, List.mem_cons, List.not_mem_nil, or_false] at hk
    rcases hk with rfl | rfl | rfl
    · exact absurd ⟨hsie, hd.pending⟩ h1
    · exact absurd ⟨hmie, hd.pending⟩ h7
    · exact absurd ⟨hsie, hd.pending⟩ h9

/-- A supervisor with its interrupts off, and a device interrupt that is not
delegated to it. -/
def heldBack : RiscvCpu := { new true 0 with privilege := .supervisorMode, mie := 0x200, mip := 0x200 }

theorem heldBack_others (i : Nat) (h : heldBack.interruptStatus.getLsbD i = true) : i ∈ interruptCauses := by
  have h9 : i = 9 := by
    by_contra hne
    rw [show heldBack.interruptStatus = 1#64 <<< 9 from rfl, BitVec.getLsbD_shiftLeft, BitVec.getLsbD_one] at h
    simp only [Bool.and_eq_true, decide_eq_true_eq, Bool.not_eq_true', decide_eq_false_iff_not] at h
    omega
  rw [h9]
  decide

/-- The interrupt is due and nothing is taken. -/
theorem interrupt_held_back : heldBack.Due (heldBack.csrs Csr.mideleg) supervisorExternalInterrupt ∧
    (∀ i, heldBack.interruptStatus.getLsbD i = true → i ∈ interruptCauses) ∧
    heldBack.checkPendingInterrupt = .ok (false, heldBack) := by
  refine ⟨⟨by decide, by decide, by decide⟩, heldBack_others, ?_⟩
  rw [checkPendingInterrupt_known heldBack_others]
  rfl

/-- With interrupts on, it is taken. -/
theorem interrupt_taken_on : ∃ cause, { heldBack with privilege := .userMode }.Due 0 cause ∧
    { heldBack with privilege := .userMode }.Takes cause :=
  (interrupt_taken_iff { heldBack with privilege := .userMode } 0 heldBack_others
    ⟨supervisorExternalInterrupt, by decide, by decide, by decide⟩).mpr (.inr (by decide))

end RiscvCpu

end RiscvEmulator
