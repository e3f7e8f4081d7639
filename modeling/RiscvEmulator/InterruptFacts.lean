/-
Interrupts: which are taken, and what the guest sees of those pending.

`CheckPendingInterrupt` tests the enable of a cause's nominal level and
`Trap` chooses the level from `mideleg`. `wellDelivered_iff` says exactly
when the two disagree.
-/
import RiscvEmulator.TrapFacts

namespace RiscvEmulator

namespace RiscvCpu

variable {c c' : RiscvCpu}

/-! ## Delivery -/

theorem bit_iff (v : BitVec 64) (o : Nat) : bitcrop v 1 o = 1 ↔ v.getLsbD o = true :=
  bitcrop_one_eq_one v (by decide) (by decide)

/-- The bits that can raise an interrupt. -/
def interruptStatus (c : RiscvCpu) : BitVec 64 := c.mip &&& c.mie

theorem checkPendingInterrupt_eq : c.checkPendingInterrupt =
    if c.globalSie ∧ c.interruptStatus.getLsbD 1 then (true, ·) <$> c.trap supervisorSoftwareInterrupt true
    else if c.globalMie ∧ c.interruptStatus.getLsbD 3 then (true, ·) <$> c.trap machineSoftwareInterrupt true
    else if c.globalSie ∧ c.interruptStatus.getLsbD 5 then (true, ·) <$> c.trap supervisorTimerInterrupt true
    else if c.globalMie ∧ c.interruptStatus.getLsbD 7 then (true, ·) <$> c.trap machineTimerInterrupt true
    else if c.globalSie ∧ c.interruptStatus.getLsbD 9 then (true, ·) <$> c.trap supervisorExternalInterrupt true
    else if c.globalMie ∧ c.interruptStatus.getLsbD 11 then (true, ·) <$> c.trap machineExternalInterrupt true
    else .ok (false, c) := by
  have hmie : (decide (c.privilege ≠ .machineMode ∨ bitcrop c.mstatus 1 3 = 1)) = c.globalMie := by
    simp only [globalMie_eq, bit_iff]
    cases c.privilege <;> cases c.mstatus.getLsbD 3 <;> rfl
  have hsie : (decide (c.privilege = .userMode ∨ c.privilege = .supervisorMode ∧ bitcrop c.mstatus 1 1 = 1)) =
      c.globalSie := by
    simp only [globalSie_eq, bit_iff]
    cases c.privilege <;> cases c.mstatus.getLsbD 1 <;> rfl
  simp only [checkPendingInterrupt, hmie, hsie]
  simp only [bit_iff]
  rfl

/-- An interrupt `Trap` does not accept ends the emulator. -/
theorem not_taken {cause : Nat} (h : trapAccepts cause true = false) :
    ((true, ·) <$> c.trap cause true : Except Crash (Bool × RiscvCpu)) ≠ .ok (true, c') := by
  rw [trap, assert, h]
  intro ht
  cases ht

theorem taken_iff {cause : Nat} (h : trapAccepts cause true = true) :
    ((true, ·) <$> c.trap cause true : Except Crash (Bool × RiscvCpu)) = .ok (true, c') ↔
      c' = c.trapBody cause true := by
  rw [trap_eq h]
  constructor
  · intro he; cases he; rfl
  · rintro rfl; rfl

/-- The interrupts that are taken: a supervisor cause when the supervisor
enable is effective, or the machine timer when the machine enable is and no
machine software interrupt stands before it. -/
theorem checkPendingInterrupt_taken (h : c.checkPendingInterrupt = .ok (true, c')) :
    (c.globalSie = true ∧ (c' = c.trapBody supervisorSoftwareInterrupt true ∨
      c' = c.trapBody supervisorExternalInterrupt true)) ∨
    (c.globalMie = true ∧ c.interruptStatus.getLsbD 3 = false ∧ c.interruptStatus.getLsbD 7 = true ∧
      c' = c.trapBody machineTimerInterrupt true) := by
  rw [checkPendingInterrupt_eq] at h
  split at h
  · next h1 => exact .inl ⟨h1.1, .inl ((taken_iff (by decide)).mp h)⟩
  split at h
  · exact absurd h (not_taken (by decide))
  next h3 =>
  split at h
  · exact absurd h (not_taken (by decide))
  split at h
  · next h7 =>
    refine .inr ⟨h7.1, ?_, h7.2, (taken_iff (by decide)).mp h⟩
    cases hb : c.interruptStatus.getLsbD 3 with
    | false => rfl
    | true => exact absurd ⟨h7.1, hb⟩ h3
  split at h
  · next h9 => exact .inl ⟨h9.1, .inr ((taken_iff (by decide)).mp h)⟩
  split at h
  · exact absurd h (not_taken (by decide))
  · cases h

/-- Order of the modes. -/
def rank : PrivilegeMode → Nat
  | .userMode => 0
  | .supervisorMode => 1
  | .machineMode => 3

/-- The global enable bit of the current mode. -/
def ownEnable (c : RiscvCpu) : Bool :=
  match c.privilege with
  | .userMode => false
  | .supervisorMode => c.mstatus.getLsbD 1
  | .machineMode => c.mstatus.getLsbD 3

/-- The interrupt that led from `c` to `c'` went to a higher mode, or to the
current one with its interrupts on; and a supervisor handler that has them
off keeps what its own return needs. -/
structure WellDelivered (c c' : RiscvCpu) : Prop where
  mode : rank c.privilege < rank c'.privilege ∨ (c'.privilege = c.privilege ∧ c.ownEnable = true)
  handler : c.privilege = .supervisorMode → c.mstatus.getLsbD 1 = false →
    c'.csrs Csr.sepc = c.csrs Csr.sepc ∧ c'.csrs Csr.scause = c.csrs Csr.scause ∧
      c'.mstatus.getLsbD 8 = c.mstatus.getLsbD 8

/-- A delegated machine timer interrupt meets a supervisor that has
interrupts off. -/
structure TimerMisdelivered (c : RiscvCpu) : Prop where
  privilege : c.privilege = .supervisorMode
  masked : c.mstatus.getLsbD 1 = false
  delegable : c.disableMachineInterruptDelegation = false
  delegated : (c.csrs Csr.mideleg).getLsbD 7 = true
  pending : c.interruptStatus.getLsbD 7 = true
  first : c.interruptStatus.getLsbD 3 = false

theorem svDelegation_timer : c.svDelegation machineTimerInterrupt true = true ↔
    (c.privilege = .userMode ∨ c.privilege = .supervisorMode) ∧ c.disableMachineInterruptDelegation = false ∧
      (c.csrs Csr.mideleg).getLsbD 7 = true := by
  simp only [svDelegation, if_true, bit_iff, BitVec.getLsbD_and, machineTimerInterrupt, decide_eq_true_eq]
  cases c.disableMachineInterruptDelegation <;> cases (c.csrs Csr.mideleg).getLsbD 7 <;> simp

/-- **Masked interrupts.** Every interrupt taken is well delivered, unless a
delegated machine timer interrupt is due in supervisor mode with SIE clear. -/
theorem wellDelivered_iff (c : RiscvCpu) :
    (∀ c', c.checkPendingInterrupt = .ok (true, c') → WellDelivered c c') ↔ ¬ c.TimerMisdelivered := by
  constructor
  · rintro h ⟨hp, hm, hd, hdeleg, hpend, hfirst⟩
    have hsie : c.globalSie = false := by rw [globalSie_eq, hp, hm]; rfl
    have hmie : c.globalMie = true := by rw [globalMie_eq, hp]; rfl
    have htaken : c.checkPendingInterrupt = .ok (true, c.trapBody machineTimerInterrupt true) := by
      rw [checkPendingInterrupt_eq, hsie, hmie, hpend, hfirst]
      simp only [Bool.false_eq_true, false_and, and_false, if_false, and_self, if_true]
      exact (taken_iff (by decide)).mpr rfl
    rcases (h _ htaken).mode with hlt | ⟨-, hen⟩
    · rw [trapBody_privilege, trapLevel, svDelegation_timer.mpr ⟨.inr hp, hd, hdeleg⟩, hp] at hlt
      exact absurd hlt (by decide)
    · simp only [ownEnable, hp, hm, Bool.false_eq_true] at hen
  · intro hnot c' hc'
    rcases checkPendingInterrupt_taken hc' with ⟨hsie, hc'⟩ | ⟨hmie, h3, h7, rfl⟩
    · have hsup : ∃ cause, c' = c.trapBody cause true := by
        rcases hc' with rfl | rfl <;> exact ⟨_, rfl⟩
      obtain ⟨cause, rfl⟩ := hsup
      rw [globalSie_eq] at hsie
      refine ⟨?_, fun hp hm => ?_⟩
      · rw [trapBody_privilege, trapLevel]
        cases hp : c.privilege <;> cases c.svDelegation cause true <;> simp_all [rank, ownEnable]
      · rw [hp, hm] at hsie; cases hsie
    · cases hdel : c.svDelegation machineTimerInterrupt true with
      | true =>
        obtain ⟨hpriv, hd, hdeleg⟩ := svDelegation_timer.mp hdel
        have hsie : c.privilege = .supervisorMode → c.mstatus.getLsbD 1 = true := by
          intro hp
          cases hm : c.mstatus.getLsbD 1 with
          | true => rfl
          | false => exact absurd ⟨hp, hm, hd, hdeleg, h7, h3⟩ hnot
        refine ⟨?_, fun hp hm => by rw [hsie hp] at hm; cases hm⟩
        rw [trapBody_privilege, trapLevel, hdel]
        rcases hpriv with hp | hp <;> simp [rank, ownEnable, hp]
        exact hsie hp
      | false =>
        refine ⟨?_, fun _ _ => ⟨?_, ?_, ?_⟩⟩
        · rw [trapBody_privilege, trapLevel, hdel]
          rw [globalMie_eq] at hmie
          cases hp : c.privilege <;> simp_all [rank, ownEnable]
        · exact trapBody_machine_csrs hdel (by decide)
        · exact trapBody_machine_csrs hdel (by decide)
        · rw [(trapBody_machine hdel).mstatus]
          exact getLsbD_machineTrapStatus (by decide)

/-- A supervisor handler with SIE clear, and the timer delegated to it. -/
def maskedHandler : RiscvCpu :=
  { (new false 0).setCsr Csr.mideleg 0x80 with privilege := .supervisorMode, mie := 0x80, mip := 0x80 }

/-- Its own interrupts are off, and it is interrupted in its own mode. -/
theorem wellDelivered_maskedHandler :
    ∃ c', maskedHandler.checkPendingInterrupt = .ok (true, c') ∧ maskedHandler.privilege = .supervisorMode ∧
      maskedHandler.mstatus.getLsbD 1 = false ∧ c'.privilege = .supervisorMode ∧
      ¬ WellDelivered maskedHandler c' := by
  refine ⟨maskedHandler.trapBody machineTimerInterrupt true, rfl, rfl, rfl, rfl, ?_⟩
  rintro ⟨h | h, -⟩
  · exact absurd h (by decide)
  · exact absurd h.2 (by decide)

end RiscvCpu

end RiscvEmulator
