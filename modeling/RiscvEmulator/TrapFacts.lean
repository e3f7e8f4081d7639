/-
Traps and returns from them.

`trapBody_machine` and `trapBody_supervisor` say what a trap leaves for its
return: the mode, the saved address and `mstatus`. `trap_return_iff` puts
`Trap` and `Mret` or `Sret` together: the round trip restores the state
exactly when the level's own enable bit was on or the trap came from that
level, and, for a supervisor return, bit 9 of `mstatus` was clear.
`trap_vector_iff` is about where a trap continues: `Trap` adds the offset of
vectored mode for exceptions instead of interrupts.
-/
import RiscvEmulator.Cpu

namespace RiscvEmulator

namespace RiscvCpu

variable {c : RiscvCpu} {cause : Nat} {interrupt : Bool}

theorem trap_eq (h : trapAccepts cause interrupt = true) :
    c.trap cause interrupt = .ok (c.trapBody cause interrupt) := by
  rw [trap, assert_bind h]; rfl

theorem trap_ok_iff {c' : RiscvCpu} :
    c.trap cause interrupt = .ok c' ↔ trapAccepts cause interrupt = true ∧ c' = c.trapBody cause interrupt := by
  cases h : trapAccepts cause interrupt with
  | true => rw [trap_eq h]; simp [eq_comm]
  | false => simp [trap, assert, h]

/-! ## What a trap leaves -/

/-- `mstatus` after a trap to machine mode. -/
def machineTrapStatus (c : RiscvCpu) : BitVec 64 :=
  bitset (bitset (bitset c.mstatus 1 7 (boolToInt c.globalMie)) 1 3 0) 2 11 (privilegeToInt c.privilege)

/-- `mstatus` after a trap to supervisor mode. -/
def supervisorTrapStatus (c : RiscvCpu) : BitVec 64 :=
  bitset (bitset (bitset c.mstatus 1 5 (boolToInt c.globalSie)) 1 1 0) 1 8 (privilegeToInt c.privilege)

/-- What a return looks at after a trap. -/
structure Trapped (c' : RiscvCpu) (privilege : PrivilegeMode) (mstatus : BitVec 64) (xepc : BitVec 12)
    (pc : BitVec 64) : Prop where
  privilege : c'.privilege = privilege
  mstatus : c'.mstatus = mstatus
  xepc : c'.csrs xepc = pc

theorem svDelegation_enterTrap : (c.enterTrap cause interrupt).svDelegation cause interrupt =
    c.svDelegation cause interrupt := by
  unfold enterTrap
  dsimp only
  split <;> rfl

theorem trapBody_of_machine (h : c.svDelegation cause interrupt = false) : c.trapBody cause interrupt =
    ((c.enterTrap cause interrupt).trapToMachine cause interrupt c.globalMie).leaveTrap cause interrupt := by
  simp only [trapBody, svDelegation_enterTrap, h, Bool.false_eq_true, if_false]

theorem trapBody_of_supervisor (h : c.svDelegation cause interrupt = true) : c.trapBody cause interrupt =
    ((c.enterTrap cause interrupt).trapToSupervisor cause interrupt c.globalSie).leaveTrap cause interrupt := by
  simp only [trapBody, svDelegation_enterTrap, h, if_true]

/-- What is done after the delivery keeps what a return looks at. -/
theorem leaveTrap_trapped {privilege : PrivilegeMode} {mstatus pc : BitVec 64} {xepc : BitVec 12}
    (hx : xepc = Csr.mepc ∨ xepc = Csr.sepc) (h : Trapped c privilege mstatus xepc pc) :
    Trapped (c.leaveTrap cause interrupt) privilege mstatus xepc pc := by
  obtain ⟨hp, hm, he⟩ := h
  have hc : (c.leaveTrap cause interrupt).csrs xepc = c.csrs xepc := by
    rcases hx with rfl | rfl <;> unfold leaveTrap clearInterruptPending applyInterruptPending applyMstatusToCsr setCsr
    all_goals dsimp only; split <;> simp [Csr.mepc, Csr.sepc, Csr.ustatus, Csr.sstatus, Csr.mstatus, Csr.uip,
      Csr.sip, Csr.mip]
  refine ⟨?_, ?_, hc.trans he⟩
  · rw [← hp]
    unfold leaveTrap clearInterruptPending applyInterruptPending applyMstatusToCsr setCsr
    dsimp only; split <;> rfl
  · rw [← hm]
    unfold leaveTrap clearInterruptPending applyInterruptPending applyMstatusToCsr setCsr
    dsimp only; split <;> rfl

theorem trapToMachine_trapped {mie : Bool} : Trapped (c.trapToMachine cause interrupt mie) .machineMode
    (bitset (bitset (bitset c.mstatus 1 7 (boolToInt mie)) 1 3 0) 2 11 (privilegeToInt c.privilege)) Csr.mepc c.pc where
  privilege := rfl
  mstatus := rfl
  xepc := by
    simp [trapToMachine, applyMstatusToCsr, setCsr, Csr.mepc, Csr.mcause, Csr.mtval, Csr.ustatus, Csr.sstatus,
      Csr.mstatus]

theorem trapToSupervisor_trapped {sie : Bool} : Trapped (c.trapToSupervisor cause interrupt sie) .supervisorMode
    (bitset (bitset (bitset c.mstatus 1 5 (boolToInt sie)) 1 1 0) 1 8 (privilegeToInt c.privilege)) Csr.sepc c.pc where
  privilege := rfl
  mstatus := rfl
  xepc := by
    simp [trapToSupervisor, applyMstatusToCsr, setCsr, Csr.sepc, Csr.scause, Csr.stval, Csr.ustatus, Csr.sstatus,
      Csr.mstatus]

theorem trapBody_machine (h : c.svDelegation cause interrupt = false) :
    Trapped (c.trapBody cause interrupt) .machineMode c.machineTrapStatus Csr.mepc c.pc := by
  rw [trapBody_of_machine h]
  refine leaveTrap_trapped (.inl rfl) ?_
  unfold enterTrap
  dsimp only
  split <;> exact trapToMachine_trapped

theorem trapBody_supervisor (h : c.svDelegation cause interrupt = true) :
    Trapped (c.trapBody cause interrupt) .supervisorMode c.supervisorTrapStatus Csr.sepc c.pc := by
  rw [trapBody_of_supervisor h]
  refine leaveTrap_trapped (.inr rfl) ?_
  unfold enterTrap
  dsimp only
  split <;> exact trapToSupervisor_trapped

/-- The registers the end of a trap rewrites. -/
def viewCsrs : List (BitVec 12) := [Csr.ustatus, Csr.sstatus, Csr.mstatus, Csr.uip, Csr.sip, Csr.mip]

theorem leaveTrap_csrs {i : BitVec 12} (hi : i ∉ viewCsrs) :
    (c.leaveTrap cause interrupt).csrs i = c.csrs i := by
  simp only [viewCsrs, List.mem_cons, List.not_mem_nil, or_false, not_or] at hi
  unfold leaveTrap clearInterruptPending applyInterruptPending applyMstatusToCsr setCsr
  dsimp only
  split <;> simp [hi]

theorem leaveTrap_nextPc : (c.leaveTrap cause interrupt).nextPc = c.nextPc := by
  unfold leaveTrap clearInterruptPending applyInterruptPending applyMstatusToCsr setCsr
  dsimp only
  split <;> rfl

theorem trapToMachine_csrs {i : BitVec 12} {mie : Bool}
    (hi : i ∉ Csr.mcause :: Csr.mepc :: Csr.mtval :: viewCsrs) :
    (c.trapToMachine cause interrupt mie).csrs i = c.csrs i := by
  simp only [viewCsrs, List.mem_cons, List.not_mem_nil, or_false, not_or] at hi
  unfold trapToMachine applyMstatusToCsr setCsr
  simp [hi]

/-- A trap to machine mode writes its own level's registers and the views. -/
theorem trapBody_machine_csrs {i : BitVec 12} (h : c.svDelegation cause interrupt = false)
    (hi : i ∉ Csr.mcause :: Csr.mepc :: Csr.mtval :: viewCsrs) :
    (c.trapBody cause interrupt).csrs i = c.csrs i := by
  rw [trapBody_of_machine h, leaveTrap_csrs (fun hv => hi (by simp [hv])), trapToMachine_csrs hi]
  unfold enterTrap
  dsimp only
  split <;> rfl

/-- The bits of `mstatus` a trap to machine mode leaves alone. -/
theorem getLsbD_machineTrapStatus {i : Nat} (h : i ∉ [3, 7, 11, 12]) :
    c.machineTrapStatus.getLsbD i = c.mstatus.getLsbD i := by
  simp only [List.mem_cons, List.not_mem_nil, or_false, not_or] at h
  simp (disch := omega) only [machineTrapStatus, getLsbD_bitset_of_outside]

/-- And one to supervisor mode. -/
theorem getLsbD_supervisorTrapStatus {i : Nat} (h : i ∉ [1, 5, 8]) :
    c.supervisorTrapStatus.getLsbD i = c.mstatus.getLsbD i := by
  simp only [List.mem_cons, List.not_mem_nil, or_false, not_or] at h
  simp (disch := omega) only [supervisorTrapStatus, getLsbD_bitset_of_outside]

/-- A trap is delivered to supervisor mode only from below or at that level. -/
theorem privilege_of_svDelegation (h : c.svDelegation cause interrupt = true) :
    c.privilege = .userMode ∨ c.privilege = .supervisorMode := by
  simp only [svDelegation, Bool.decide_and, Bool.and_eq_true, decide_eq_true_eq] at h
  exact h.1

/-! ## Returns -/

theorem getLsbD_boolToInt (b : Bool) : (boolToInt b).getLsbD 0 = b := by cases b <;> rfl

theorem globalMie_eq : c.globalMie = (decide (c.privilege ≠ .machineMode) || c.mstatus.getLsbD 3) := by
  have h := bitcrop_one_eq_one c.mstatus (o := 3) (by decide) (by decide)
  simp only [globalMie, show (1 : BitVec 64) = 1#64 from rfl, h]
  cases c.privilege <;> cases c.mstatus.getLsbD 3 <;> rfl

theorem globalSie_eq : c.globalSie =
    (decide (c.privilege = .userMode) || (decide (c.privilege = .supervisorMode) && c.mstatus.getLsbD 1)) := by
  have h := bitcrop_one_eq_one c.mstatus (o := 1) (by decide) (by decide)
  simp only [globalSie, show (1 : BitVec 64) = 1#64 from rfl, h]
  cases c.privilege <;> cases c.mstatus.getLsbD 1 <;> rfl

/-- MPP holds the mode the trap came from. -/
theorem mpp_bits : bitcrop c.machineTrapStatus 2 11 = privilegeToInt c.privilege := by
  rw [machineTrapStatus, bitset_eq_put _ _ (by decide) (by decide), bitcrop_eq_crop _ (by decide) (by decide),
    Bits.crop_put_same _ _ (by decide)]
  cases c.privilege <;> rfl

/-- So does SPP. -/
theorem spp_bits (h : c.privilege = .userMode ∨ c.privilege = .supervisorMode) :
    bitcrop c.supervisorTrapStatus 1 8 = privilegeToInt c.privilege := by
  rw [supervisorTrapStatus, bitset_eq_put _ _ (by decide) (by decide), bitcrop_eq_crop _ (by decide) (by decide),
    Bits.crop_put_same _ _ (by decide)]
  rcases h with h | h <;> rw [h] <;> rfl

theorem intToPrivilegeMode_privilegeToInt (p : PrivilegeMode) : intToPrivilegeMode (privilegeToInt p) = .ok p := by
  cases p <;> rfl

theorem mpp_machineTrapStatus : intToPrivilegeMode (bitcrop c.machineTrapStatus 2 11) = .ok c.privilege := by
  rw [mpp_bits, intToPrivilegeMode_privilegeToInt]

theorem spp_supervisorTrapStatus (h : c.privilege = .userMode ∨ c.privilege = .supervisorMode) :
    intToPrivilegeMode (bitcrop c.supervisorTrapStatus 1 8) = .ok c.privilege := by
  rw [spp_bits h, intToPrivilegeMode_privilegeToInt]

/-- `mstatus` after `Mret`. -/
def mretStatus (m : BitVec 64) : BitVec 64 := bitset (bitset (bitset m 1 3 (bitcrop m 1 7)) 1 7 1) 2 11 0

/-- `mstatus` after `Sret`. The last field is two bits wide. -/
def sretStatus (m : BitVec 64) : BitVec 64 := bitset (bitset (bitset m 1 1 (bitcrop m 1 5)) 1 5 1) 2 8 0

/-- The bits that `Mret` leaves alone. -/
theorem getLsbD_mretStatus_of_kept (m : BitVec 64) {i : Nat} (h : i ∉ [3, 7, 11, 12]) :
    (mretStatus m).getLsbD i = m.getLsbD i := by
  simp only [List.mem_cons, List.not_mem_nil, or_false, not_or] at h
  simp (disch := omega) only [mretStatus, getLsbD_bitset_of_outside]

/-- And `Sret`. -/
theorem getLsbD_sretStatus_of_kept (m : BitVec 64) {i : Nat} (h : i ∉ [1, 5, 8, 9]) :
    (sretStatus m).getLsbD i = m.getLsbD i := by
  simp only [List.mem_cons, List.not_mem_nil, or_false, not_or] at h
  simp (disch := omega) only [sretStatus, getLsbD_bitset_of_outside]

theorem mret_eq {privilege : PrivilegeMode} (h : intToPrivilegeMode (bitcrop c.mstatus 2 11) = .ok privilege) :
    ∃ c', c.mret = .ok c' ∧ c'.privilege = privilege ∧ c'.nextPc = c.csrs Csr.mepc ∧
      c'.mstatus = mretStatus c.mstatus := by
  rw [mret, h]
  exact ⟨_, rfl, rfl, rfl, rfl⟩

theorem sret_eq {privilege : PrivilegeMode} (h : intToPrivilegeMode (bitcrop c.mstatus 1 8) = .ok privilege) :
    ∃ c', c.sret = .ok c' ∧ c'.privilege = privilege ∧ c'.nextPc = c.csrs Csr.sepc ∧
      c'.mstatus = sretStatus c.mstatus := by
  rw [sret, h]
  exact ⟨_, rfl, rfl, rfl, rfl⟩

/-- MPIE holds the effective enable bit. -/
theorem mpie_machineTrapStatus : (bitcrop c.machineTrapStatus 1 7).getLsbD 0 = c.globalMie := by
  simp (disch := omega) only [getLsbD_bitcrop, machineTrapStatus, getLsbD_bitset_of_outside, getLsbD_bitset]
  exact getLsbD_boolToInt _

/-- So does SPIE. -/
theorem spie_supervisorTrapStatus : (bitcrop c.supervisorTrapStatus 1 5).getLsbD 0 = c.globalSie := by
  simp (disch := omega) only [getLsbD_bitcrop, supervisorTrapStatus, getLsbD_bitset_of_outside, getLsbD_bitset]
  exact getLsbD_boolToInt _

/-- The bits of `mstatus` after a trap to machine mode and its return. -/
theorem getLsbD_mretStatus {i : Nat} : (mretStatus c.machineTrapStatus).getLsbD i =
    if i = 11 ∨ i = 12 then false else if i = 7 then true else if i = 3 then c.globalMie
    else c.mstatus.getLsbD i := by
  by_cases hkept : i ∉ [3, 7, 11, 12]
  · rw [getLsbD_mretStatus_of_kept _ hkept, getLsbD_machineTrapStatus hkept]
    simp only [List.mem_cons, List.not_mem_nil, or_false, not_or] at hkept
    simp [hkept]
  · simp only [List.mem_cons, List.not_mem_nil, or_false, not_not] at hkept
    rcases hkept with rfl | rfl | rfl | rfl <;>
      simp (disch := omega) only [mretStatus, getLsbD_bitset_of_outside, getLsbD_bitset]
    · exact mpie_machineTrapStatus
    all_goals rfl

/-- The bits of `mstatus` after a trap to supervisor mode and its return. -/
theorem getLsbD_sretStatus {i : Nat} : (sretStatus c.supervisorTrapStatus).getLsbD i =
    if i = 8 ∨ i = 9 then false else if i = 5 then true else if i = 1 then c.globalSie
    else c.mstatus.getLsbD i := by
  by_cases hkept : i ∉ [1, 5, 8, 9]
  · rw [getLsbD_sretStatus_of_kept _ hkept]
    simp only [List.mem_cons, List.not_mem_nil, or_false, not_or] at hkept
    rw [getLsbD_supervisorTrapStatus (by simp [hkept])]
    simp [hkept]
  · simp only [List.mem_cons, List.not_mem_nil, or_false, not_not] at hkept
    rcases hkept with rfl | rfl | rfl | rfl <;>
      simp (disch := omega) only [sretStatus, getLsbD_bitset_of_outside, getLsbD_bitset]
    · exact spie_supervisorTrapStatus
    all_goals rfl

/-! ## The round trip -/

/-- The return that matches a delivery: `Sret` in supervisor mode, `Mret` in
machine mode. -/
def returnFromTrap (c : RiscvCpu) : Except Crash RiscvCpu :=
  if c.privilege = .supervisorMode then c.sret else c.mret

/-- `c'` is `c` again: the mode, the address, the enable bit `xie` of the
level and every bit of `mstatus` but the level's saved fields. -/
structure Resumed (c c' : RiscvCpu) (xie : Nat) (saved : List Nat) : Prop where
  privilege : c'.privilege = c.privilege
  nextPc : c'.nextPc = c.pc
  enable : c'.mstatus.getLsbD xie = c.mstatus.getLsbD xie
  others : ∀ i < 64, i ≠ xie → i ∉ saved → c'.mstatus.getLsbD i = c.mstatus.getLsbD i

/-- A trap and the return from it are transparent: both return, and the
state is resumed. The saved fields are SPIE and SPP, or MPIE and MPP. -/
def TrapTransparent (c : RiscvCpu) (cause : Nat) (interrupt : Bool) : Prop :=
  ∃ c₁ c₂, c.trap cause interrupt = .ok c₁ ∧ c₁.returnFromTrap = .ok c₂ ∧
    if c₁.privilege = .supervisorMode then Resumed c c₂ 1 [5, 8] else Resumed c c₂ 3 [7, 11, 12]

theorem trap_return_machine (h : trapAccepts cause interrupt = true) (hd : c.svDelegation cause interrupt = false) :
    c.TrapTransparent cause interrupt ↔ c.privilege = .machineMode ∨ c.mstatus.getLsbD 3 = true := by
  obtain ⟨hp, hm, he⟩ := trapBody_machine hd
  obtain ⟨c₂, hret, hp₂, hn₂, hm₂⟩ :=
    mret_eq (c := c.trapBody cause interrupt) (by rw [hm]; exact mpp_machineTrapStatus)
  rw [hm] at hm₂
  rw [he] at hn₂
  have hsup : (c.trapBody cause interrupt).privilege ≠ .supervisorMode := by rw [hp]; decide
  have hback : (c.trapBody cause interrupt).returnFromTrap = .ok c₂ := by rw [returnFromTrap, if_neg hsup, hret]
  have h3 : c₂.mstatus.getLsbD 3 = c.globalMie := by rw [hm₂, getLsbD_mretStatus]; rfl
  constructor
  · rintro ⟨c₁, c₂', h₁, h₂, hres⟩
    obtain ⟨-, rfl⟩ := trap_ok_iff.mp h₁
    rw [hback] at h₂
    cases h₂
    rw [if_neg hsup] at hres
    have := hres.enable
    rw [h3, globalMie_eq] at this
    cases hpr : c.privilege <;> simp_all
  · intro hcond
    refine ⟨_, c₂, trap_eq h, hback, ?_⟩
    rw [if_neg hsup]
    refine ⟨hp₂, hn₂, ?_, ?_⟩
    · rw [h3, globalMie_eq]
      rcases hcond with hc | hc <;> simp [hc]
    · intro i hi h3' hs
      simp only [List.mem_cons, List.not_mem_nil, or_false, not_or] at hs
      rw [hm₂, getLsbD_mretStatus, if_neg (by omega), if_neg hs.1, if_neg h3']

theorem trap_return_supervisor (h : trapAccepts cause interrupt = true) (hd : c.svDelegation cause interrupt = true) :
    c.TrapTransparent cause interrupt ↔
      (c.privilege = .supervisorMode ∨ c.mstatus.getLsbD 1 = true) ∧ c.mstatus.getLsbD 9 = false := by
  have hpriv := privilege_of_svDelegation hd
  obtain ⟨hp, hm, he⟩ := trapBody_supervisor hd
  obtain ⟨c₂, hret, hp₂, hn₂, hm₂⟩ :=
    sret_eq (c := c.trapBody cause interrupt) (by rw [hm]; exact spp_supervisorTrapStatus hpriv)
  rw [hm] at hm₂
  rw [he] at hn₂
  have hback : (c.trapBody cause interrupt).returnFromTrap = .ok c₂ := by rw [returnFromTrap, if_pos hp, hret]
  have h1 : c₂.mstatus.getLsbD 1 = c.globalSie := by rw [hm₂, getLsbD_sretStatus]; rfl
  have h9 : c₂.mstatus.getLsbD 9 = false := by rw [hm₂, getLsbD_sretStatus]; rfl
  constructor
  · rintro ⟨c₁, c₂', h₁, h₂, hres⟩
    obtain ⟨-, rfl⟩ := trap_ok_iff.mp h₁
    rw [hback] at h₂
    cases h₂
    rw [if_pos hp] at hres
    have hen := hres.enable
    rw [h1, globalSie_eq] at hen
    refine ⟨?_, (hres.others 9 (by decide) (by decide) (by decide)).symm.trans h9⟩
    rcases hpriv with hc | hc <;> simp_all
  · rintro ⟨hcond, hbit⟩
    refine ⟨_, c₂, trap_eq h, hback, ?_⟩
    rw [if_pos hp]
    refine ⟨hp₂, hn₂, ?_, ?_⟩
    · rw [h1, globalSie_eq]
      rcases hpriv with hc | hc <;> rcases hcond with hx | hx <;> simp_all
    · intro i hi h1' hs
      simp only [List.mem_cons, List.not_mem_nil, or_false, not_or] at hs
      by_cases hi9 : i = 9
      · subst hi9; rw [h9, hbit]
      · rw [hm₂, getLsbD_sretStatus, if_neg (by omega), if_neg hs.1, if_neg h1']

/-- **Transparent traps.** A trap and its return resume the state exactly
when the enable bit of the level it was delivered to was set or the trap
came from that level, and, for supervisor mode, bit 9 of `mstatus` was
clear: `Trap` saves the effective enable in xPIE, and `Sret` clears two
bits for the one of SPP. -/
theorem trap_return_iff (c : RiscvCpu) (cause : Nat) (interrupt : Bool) (h : trapAccepts cause interrupt = true) :
    c.TrapTransparent cause interrupt ↔
      if c.svDelegation cause interrupt then
        (c.privilege = .supervisorMode ∨ c.mstatus.getLsbD 1 = true) ∧ c.mstatus.getLsbD 9 = false
      else c.privilege = .machineMode ∨ c.mstatus.getLsbD 3 = true := by
  cases hd : c.svDelegation cause interrupt with
  | true => exact trap_return_supervisor h hd
  | false => exact trap_return_machine h hd

/-- User mode with load page faults delegated, SIE, MIE, MPP and other fields
of `mstatus` set. -/
def delegatedUser : RiscvCpu :=
  { (new true 0).setCsr Csr.medeleg 0x2000 with privilege := .userMode, mstatus := 0xA000C19AA }

theorem trap_return_iff_delegated : delegatedUser.TrapTransparent loadPageFault false :=
  (trap_return_iff delegatedUser loadPageFault false (by decide)).mpr (by decide)

/-- One from user mode with MIE clear: the return leaves MIE set. -/
theorem trap_return_user : ¬ { new false 0 with privilege := .userMode }.TrapTransparent ecallUmode false := by
  rw [trap_return_machine (by decide) (by decide)]
  decide

/-! ## Vectors -/

/-- The vector register of the level a trap is delivered to. -/
def tvecCsr : PrivilegeMode → BitVec 12
  | .supervisorMode => Csr.stvec
  | _ => Csr.mtvec

def causeCsr : PrivilegeMode → BitVec 12
  | .supervisorMode => Csr.scause
  | _ => Csr.mcause

/-- Where the privileged specification continues: at BASE, or in vectored
mode, for an interrupt, four bytes on for each cause. -/
def specVector (tvec : BitVec 64) (cause : Nat) (interrupt : Bool) : BitVec 64 :=
  if tvec &&& 0b11 = 1 ∧ interrupt then (tvec &&& ~~~0b11) + 4 * BitVec.ofNat 64 cause else tvec &&& ~~~0b11

/-- `c'` is `c` after a trap that follows the specification: where it
continues, and what its level's cause register holds. -/
structure Vectored (c c' : RiscvCpu) (cause : Nat) (interrupt : Bool) : Prop where
  nextPc : c'.nextPc = specVector (c.csrs (tvecCsr c'.privilege)) cause interrupt
  xcause : c'.csrs (causeCsr c'.privilege) =
    BitVec.ofNat 64 cause ||| (if interrupt then 1#64 <<< (c.xlen - 1) else 0)

/-- The level a trap is delivered to. -/
def trapLevel (c : RiscvCpu) (cause : Nat) (interrupt : Bool) : PrivilegeMode :=
  if c.svDelegation cause interrupt then .supervisorMode else .machineMode

theorem trapBody_privilege (c : RiscvCpu) (cause : Nat) (interrupt : Bool) :
    (c.trapBody cause interrupt).privilege = c.trapLevel cause interrupt := by
  cases hd : c.svDelegation cause interrupt with
  | true => rw [(trapBody_supervisor hd).privilege, trapLevel, if_pos hd]
  | false => rw [(trapBody_machine hd).privilege, trapLevel, if_neg (by simp [hd])]

/-- What a trap does at that level. -/
theorem trapBody_vector (c : RiscvCpu) (cause : Nat) (interrupt : Bool) :
    (c.trapBody cause interrupt).nextPc =
      c.trapVector (c.csrs (tvecCsr (c.trapLevel cause interrupt))) (c.trapCause cause interrupt) interrupt ∧
    (c.trapBody cause interrupt).csrs (causeCsr (c.trapLevel cause interrupt)) = c.trapCause cause interrupt := by
  cases hd : c.svDelegation cause interrupt with
  | true =>
    rw [trapLevel, if_pos hd, trapBody_of_supervisor hd, leaveTrap_nextPc, leaveTrap_csrs (by decide)]
    unfold enterTrap trapToSupervisor
    dsimp only
    split <;> exact ⟨rfl, rfl⟩
  | false =>
    rw [trapLevel, if_neg (by simp [hd]), trapBody_of_machine hd, leaveTrap_nextPc, leaveTrap_csrs (by decide)]
    unfold enterTrap trapToMachine
    dsimp only
    split <;> exact ⟨rfl, rfl⟩

/-- The cause, with the interrupt bit masked out. -/
theorem trapCause_masked (h : trapAccepts cause false = true) :
    c.trapCause cause false &&& genMask 64 (c.xlen - 1) 0 = BitVec.ofNat 64 cause := by
  unfold trapCause xlen
  simp only [trapAccepts, Bool.false_eq_true, if_false, decide_eq_true_eq] at h
  rcases h with rfl | rfl | rfl | rfl | rfl | rfl <;> cases c.en64bit <;> decide

/-- No trap has cause zero, so vectored mode and direct mode differ. -/
theorem trapAccepts_offset (h : trapAccepts cause interrupt = true) : 4 * BitVec.ofNat 64 cause ≠ 0 := by
  cases interrupt <;> simp only [trapAccepts, if_true, Bool.false_eq_true, if_false, decide_eq_true_eq] at h
  · rcases h with rfl | rfl | rfl | rfl | rfl | rfl <;> decide
  · rcases h with rfl | rfl | rfl <;> decide

theorem trapVector_direct {tvec xcause : BitVec 64} (h : tvec &&& 0b11 = 0) :
    c.trapVector tvec xcause interrupt = specVector tvec cause interrupt := by
  rw [trapVector, if_pos (.inl h), specVector, if_neg (by rw [h]; simp)]

/-- In vectored mode the kinds of traps are taken for each other. -/
theorem trapVector_vectored {tvec : BitVec 64} (ha : trapAccepts cause interrupt = true) (h : tvec &&& 0b11 = 1) :
    c.trapVector tvec (c.trapCause cause interrupt) interrupt ≠ specVector tvec cause interrupt := by
  have hoff := trapAccepts_offset ha
  have h0 : tvec &&& 0b11 ≠ 0 := by rw [h]; decide
  cases interrupt with
  | true =>
    rw [trapVector, if_pos (.inr rfl), specVector, if_pos ⟨h, rfl⟩]
    exact fun he => hoff (BitVec.self_eq_add_right.mp he)
  | false =>
    rw [trapVector, if_neg (not_or.mpr ⟨h0, Bool.false_ne_true⟩), specVector, if_neg (by simp), trapCause_masked ha]
    exact fun he => hoff (BitVec.add_right_eq_self.mp he)

/-- **Where a trap continues.** For the two modes of a vector register, a
trap follows the specification exactly in direct mode: in vectored mode an
exception continues at its own entry and an interrupt at BASE. -/
theorem trap_vector_iff (c : RiscvCpu) (cause : Nat) (interrupt : Bool) (h : trapAccepts cause interrupt = true)
    (hmode : c.csrs (tvecCsr (c.trapLevel cause interrupt)) &&& 0b11 = 0 ∨
      c.csrs (tvecCsr (c.trapLevel cause interrupt)) &&& 0b11 = 1) :
    ∃ c', c.trap cause interrupt = .ok c' ∧ c'.privilege = c.trapLevel cause interrupt ∧
      (Vectored c c' cause interrupt ↔ c.csrs (tvecCsr (c.trapLevel cause interrupt)) &&& 0b11 = 0) := by
  obtain ⟨hn, hc⟩ := trapBody_vector c cause interrupt
  have hp := trapBody_privilege c cause interrupt
  refine ⟨_, trap_eq h, hp, fun hv => ?_, fun h0 => ⟨?_, ?_⟩⟩
  · have hspec := hv.nextPc
    rw [hp] at hspec
    exact hmode.resolve_right fun h1 => trapVector_vectored h h1 (hn.symm.trans hspec)
  · rw [hp, hn, trapVector_direct h0]
  · rw [hp, hc]
    rfl

/-- An environment call from machine mode, with the vector at 0x80. -/
theorem trap_vector_iff_direct : Vectored ((new true 0).setCsr Csr.mtvec 0x80)
    (((new true 0).setCsr Csr.mtvec 0x80).trapBody ecallMmode false) ecallMmode false := by
  obtain ⟨c', ht, -, hv⟩ := trap_vector_iff ((new true 0).setCsr Csr.mtvec 0x80) ecallMmode false (by decide)
    (.inl (by decide))
  obtain ⟨-, rfl⟩ := trap_ok_iff.mp ht
  exact hv.mpr (by decide)

/-- A timer interrupt in vectored mode continues at BASE, not at BASE + 28. -/
theorem timer_not_vectored : ∃ c', ((new true 0).setCsr Csr.mtvec 0x81).trap machineTimerInterrupt true = .ok c' ∧
    c'.nextPc = 0x80 ∧ ¬ Vectored ((new true 0).setCsr Csr.mtvec 0x81) c' machineTimerInterrupt true := by
  refine ⟨_, trap_eq (by decide), by decide, fun hv => ?_⟩
  have h := hv.nextPc
  revert h
  decide

end RiscvCpu

end RiscvEmulator
