/-
The status and interrupt-enable registers.

`mstatus` and `mie` each have three views among the CSRs, and some fields of
`mstatus` are hardwired. `StatusViews` says that the views are true and the
fields as they should be; every writer of either register keeps it, so it
holds after any sequence of them (`status_run`).

`StatusInvariant` is the general rule: a property of the status state that
each of its writers keeps is kept by every round of the loop.
-/
import RiscvEmulator.PendingFacts

namespace RiscvEmulator

/-! ## The hardwired fields -/

theorem bitcrop_congr {u v : BitVec 64} {w o : Nat} (hw : w ≤ 64) (h : ∀ i < w, u.getLsbD (o + i) = v.getLsbD (o + i)) :
    bitcrop u w o = bitcrop v w o := by
  apply BitVec.eq_of_getLsbD_eq
  intro i hi
  rw [getLsbD_bitcrop u hw (by decide), getLsbD_bitcrop v hw (by decide)]
  by_cases hiw : i < w
  · rw [h i hiw]
  · simp [hiw]

/-- A field holds `x` if its bits do. -/
theorem bitcrop_eq_of_bits {v x : BitVec 64} {w o : Nat} (hw : w ≤ 64) (hx : x.toNat < 2 ^ w)
    (h : ∀ i < w, v.getLsbD (o + i) = x.getLsbD i) : bitcrop v w o = x := by
  apply BitVec.eq_of_getLsbD_eq
  intro i hi
  rw [getLsbD_bitcrop v hw (by decide)]
  by_cases hiw : i < w
  · simp [hiw, h i hiw]
  · have hxi : x.toNat < 2 ^ i := Nat.lt_of_lt_of_le hx (Nat.pow_le_pow_right (by decide) (by omega))
    rw [← BitVec.testBit_toNat (x := x), Nat.testBit_lt_two_pow hxi]
    simp [hiw]

/-- SD, FS and XS are zero, and in 64-bit mode SXL and UXL are two. -/
structure Hardwired (en64bit : Bool) (mstatus : BitVec 64) : Prop where
  sd : bitcrop mstatus 1 (if en64bit then 63 else 31) = 0
  fs : bitcrop mstatus 2 13 = 0
  xs : bitcrop mstatus 2 15 = 0
  sxl : en64bit = true → bitcrop mstatus 2 34 = 2
  uxl : en64bit = true → bitcrop mstatus 2 32 = 2

/-- The hardwired fields are all above MPP. -/
theorem Hardwired.of_bits {en64bit : Bool} {m m' : BitVec 64} (h : Hardwired en64bit m)
    (hb : ∀ i, 13 ≤ i → m'.getLsbD i = m.getLsbD i) : Hardwired en64bit m' := by
  have hcrop : ∀ {w o}, w ≤ 64 → 13 ≤ o → bitcrop m' w o = bitcrop m w o := by
    intro w o hw ho
    exact bitcrop_congr hw fun i _ => hb (o + i) (by omega)
  constructor
  · rw [hcrop (by decide) (by split <;> decide)]
    exact h.sd
  · rw [hcrop (by decide) (by decide)]
    exact h.fs
  · rw [hcrop (by decide) (by decide)]
    exact h.xs
  · rw [hcrop (by decide) (by decide)]
    exact h.sxl
  · rw [hcrop (by decide) (by decide)]
    exact h.uxl

/-- A field written below them leaves them alone. -/
theorem Hardwired.bitset {en64bit : Bool} {m : BitVec 64} (h : Hardwired en64bit m) {w o : Nat} (hw : w + o ≤ 13)
    (x : BitVec 64) : Hardwired en64bit (RiscvEmulator.bitset m w o x) := by
  refine h.of_bits fun i hi => ?_
  exact getLsbD_bitset_of_outside m x (by omega) (by decide) (by omega)

namespace RiscvCpu

variable {c c' : RiscvCpu} {host : Host}

theorem hardwireMstatus_hardwired (c : RiscvCpu) (m : BitVec 64) : Hardwired c.en64bit (c.hardwireMstatus m) := by
  have hfield : ∀ {v x : BitVec 64} {o}, x.toNat < 4 → v.getLsbD o = x.getLsbD 0 → v.getLsbD (o + 1) = x.getLsbD 1 →
      bitcrop v 2 o = x := by
    intro v x o hx h0 h1
    refine bitcrop_eq_of_bits (by decide) hx fun i hi => ?_
    obtain rfl | rfl : i = 0 ∨ i = 1 := by omega
    · exact h0
    · exact h1
  have hbit : ∀ {v : BitVec 64} {o}, v.getLsbD o = false → bitcrop v 1 o = 0 := by
    intro v o h0
    refine bitcrop_eq_of_bits (by decide) (by decide) fun i hi => ?_
    obtain rfl : i = 0 := by omega
    exact h0
  unfold hardwireMstatus xlen mxl
  cases c.en64bit with
  | false =>
    refine ⟨hbit ?_, hfield (by decide) ?_ ?_, hfield (by decide) ?_ ?_, ?_, ?_⟩ <;> simp
  | true =>
    refine ⟨hbit ?_, hfield (by decide) ?_ ?_, hfield (by decide) ?_ ?_, fun _ => hfield (by decide) ?_ ?_,
      fun _ => hfield (by decide) ?_ ?_⟩ <;> simp

/-! ## The views -/

/-- The CSRs that show `mie` do so. -/
structure EnableViews (c : RiscvCpu) : Prop where
  mie : c.csrs Csr.mie = c.mie
  sie : c.csrs Csr.sie = c.mie &&& kSieMask
  uie : c.csrs Csr.uie = c.mie &&& kUieMask

/-- So do those that show `mstatus`, whose hardwired fields are in place. -/
structure StatusViews (c : RiscvCpu) : Prop extends EnableViews c where
  mstatus : c.csrs Csr.mstatus = c.mstatus
  sstatus : c.csrs Csr.sstatus = c.mstatus &&& c.sstatusMask
  ustatus : c.csrs Csr.ustatus = c.mstatus &&& c.ustatusMask
  hardwired : Hardwired c.en64bit c.mstatus

/-- The part of the state that decides modes, traps and interrupts. -/
structure Status where
  en64bit : Bool
  mstatus : BitVec 64
  mie : BitVec 64
  mip : BitVec 64
  privilege : PrivilegeMode
  csrs : BitVec 12 → BitVec 64

def status (c : RiscvCpu) : Status where
  en64bit := c.en64bit
  mstatus := c.mstatus
  mie := c.mie
  mip := c.mip
  privilege := c.privilege
  csrs := c.csrs

theorem status_of_control (h : c'.control = c.control) : c'.status = c.status := by
  have hstatus : ∀ c : RiscvCpu, c.status = ⟨c.control.en64bit, c.control.mstatus, c.control.mie, c.control.mip,
      c.control.privilege, c.control.csrs⟩ := fun _ => rfl
  rw [hstatus, hstatus, h]

theorem EnableViews.of_eq (h : EnableViews c) (hm : c'.mie = c.mie)
    (hc : ∀ i ∈ [Csr.mie, Csr.sie, Csr.uie], c'.csrs i = c.csrs i) : EnableViews c' where
  mie := by rw [hc _ (by decide), hm, h.mie]
  sie := by rw [hc _ (by decide), hm, h.sie]
  uie := by rw [hc _ (by decide), hm, h.uie]

theorem StatusViews.of_status (h : StatusViews c) (hs : c'.status = c.status) : StatusViews c' := by
  have he : c'.en64bit = c.en64bit := congrArg Status.en64bit hs
  have hm : c'.mstatus = c.mstatus := congrArg Status.mstatus hs
  have hc : c'.csrs = c.csrs := congrArg Status.csrs hs
  refine ⟨h.toEnableViews.of_eq (congrArg Status.mie hs) fun i _ => congrFun hc i, ?_, ?_, ?_, ?_⟩
  · rw [hc, hm, h.mstatus]
  · rw [hc, hm, h.sstatus, sstatusMask, sstatusMask, mxl, mxl, he]
  · rw [hc, hm, h.ustatus, ustatusMask, ustatusMask, mxl, mxl, he]
  · rw [he, hm]
    exact h.hardwired

/-- `ApplyMstatusToCsr` rewrites the views of `mstatus` and no other register. -/
theorem applyMstatusToCsr_views (h : EnableViews c) (hw : Hardwired c.en64bit c.mstatus) :
    StatusViews c.applyMstatusToCsr where
  toEnableViews :=
    h.of_eq rfl (by simp [applyMstatusToCsr, setCsr, Csr.mie, Csr.sie, Csr.uie, Csr.ustatus, Csr.sstatus, Csr.mstatus])
  mstatus := by simp [applyMstatusToCsr, setCsr]
  sstatus := by
    simp [applyMstatusToCsr, setCsr, sstatusMask, mxl, Csr.ustatus, Csr.sstatus, Csr.mstatus]
    rfl
  ustatus := by
    simp [applyMstatusToCsr, setCsr, ustatusMask, mxl, Csr.ustatus, Csr.sstatus, Csr.mstatus]
  hardwired := hw

theorem applyInterruptEnable_enableViews (c : RiscvCpu) : EnableViews c.applyInterruptEnable := ⟨rfl, rfl, rfl⟩

/-- A write of a CSR that is no view. -/
theorem StatusViews.setCsr (h : StatusViews c) (csr : BitVec 12)
    (hc : csr ∉ [Csr.mie, Csr.sie, Csr.uie, Csr.mstatus, Csr.sstatus, Csr.ustatus]) (v : BitVec 64) :
    StatusViews (c.setCsr csr v) := by
  have hne : ∀ i ∈ [Csr.mie, Csr.sie, Csr.uie, Csr.mstatus, Csr.sstatus, Csr.ustatus],
      (c.setCsr csr v).csrs i = c.csrs i := fun i hi => setCsr_csrs csr v fun he => hc (he ▸ hi)
  refine ⟨h.toEnableViews.of_eq rfl fun i hi => hne i (List.mem_append_left _ hi), ?_, ?_, ?_, h.hardwired⟩
  · rw [hne _ (by decide)]
    exact h.mstatus
  · rw [hne _ (by decide)]
    exact h.sstatus
  · rw [hne _ (by decide)]
    exact h.ustatus

/-- The pending bits and their views are other registers. -/
theorem StatusViews.applyInterruptPending (h : StatusViews c) (m : BitVec 64) :
    StatusViews { c with mip := m }.applyInterruptPending := by
  have h₁ : StatusViews { c with mip := m } :=
    ⟨⟨h.mie, h.sie, h.uie⟩, h.mstatus, h.sstatus, h.ustatus, h.hardwired⟩
  exact ((h₁.setCsr _ (by decide) _).setCsr _ (by decide) _).setCsr _ (by decide) _

theorem StatusViews.applyInterruptEnable (h : StatusViews c) (m : BitVec 64) :
    StatusViews { c with mie := m }.applyInterruptEnable := by
  have hne : ∀ i ∈ [Csr.mstatus, Csr.sstatus, Csr.ustatus],
      { c with mie := m }.applyInterruptEnable.csrs i = c.csrs i := by
    simp [RiscvCpu.applyInterruptEnable, RiscvCpu.setCsr, Csr.mie, Csr.sie, Csr.uie, Csr.ustatus, Csr.sstatus,
      Csr.mstatus]
  refine ⟨applyInterruptEnable_enableViews _, ?_, ?_, ?_, h.hardwired⟩
  · rw [hne _ (by decide)]
    exact h.mstatus
  · rw [hne _ (by decide)]
    exact h.sstatus
  · rw [hne _ (by decide)]
    exact h.ustatus

/-! ## The writers -/

theorem StatusViews.setInterruptPending (h : StatusViews c) (cause : Nat) :
    StatusViews (c.setInterruptPending cause) := by
  have h₁ : StatusViews { c with mip := RiscvEmulator.bitset c.mip 1 cause 1 } :=
    ⟨⟨h.mie, h.sie, h.uie⟩, h.mstatus, h.sstatus, h.ustatus, h.hardwired⟩
  exact h₁.applyInterruptEnable c.mie

theorem StatusViews.clearInterruptPending (h : StatusViews c) (cause : Nat) :
    StatusViews (c.clearInterruptPending cause) :=
  h.applyInterruptPending _

/-- A new `mstatus` with the hardwired fields in place, and its views with it. -/
theorem StatusViews.applyMstatus (h : StatusViews c) {m : BitVec 64} (hm : Hardwired c.en64bit m) :
    StatusViews { c with mstatus := m }.applyMstatusToCsr :=
  applyMstatusToCsr_views ⟨h.mie, h.sie, h.uie⟩ hm

theorem StatusViews.leaveTrap {cause : Nat} {interrupt : Bool} (h : StatusViews c) :
    StatusViews (c.leaveTrap cause interrupt) := by
  unfold RiscvCpu.leaveTrap
  split
  · exact (h.clearInterruptPending cause).applyMstatus h.hardwired
  · exact h.applyMstatus h.hardwired

theorem StatusViews.nextPc (h : StatusViews c) (a : BitVec 64) : StatusViews { c with nextPc := a } := h.of_status rfl

theorem StatusViews.privilege (h : StatusViews c) (p : PrivilegeMode) : StatusViews { c with privilege := p } :=
  ⟨⟨h.mie, h.sie, h.uie⟩, h.mstatus, h.sstatus, h.ustatus, h.hardwired⟩

theorem StatusViews.trapToSupervisor {cause : Nat} {interrupt sie : Bool} (h : StatusViews c) :
    StatusViews (c.trapToSupervisor cause interrupt sie) := by
  unfold RiscvCpu.trapToSupervisor
  refine StatusViews.privilege (StatusViews.applyMstatus ?_ ?_) _
  · exact (((h.setCsr _ (by decide) _).setCsr _ (by decide) _).nextPc _).setCsr _ (by decide) _
  · exact ((h.hardwired.bitset (by decide) _).bitset (by decide) _).bitset (by decide) _

theorem StatusViews.trapToMachine {cause : Nat} {interrupt mie : Bool} (h : StatusViews c) :
    StatusViews (c.trapToMachine cause interrupt mie) := by
  unfold RiscvCpu.trapToMachine
  refine StatusViews.privilege (StatusViews.applyMstatus ?_ ?_) _
  · exact (((h.setCsr _ (by decide) _).setCsr _ (by decide) _).nextPc _).setCsr _ (by decide) _
  · exact ((h.hardwired.bitset (by decide) _).bitset (by decide) _).bitset (by decide) _

theorem enterTrap_status {cause : Nat} {interrupt : Bool} : (c.enterTrap cause interrupt).status = c.status := by
  unfold enterTrap
  dsimp only
  split <;> rfl

theorem StatusViews.trapBody {cause : Nat} {interrupt : Bool} (h : StatusViews c) :
    StatusViews (c.trapBody cause interrupt) := by
  have h₁ : StatusViews (c.enterTrap cause interrupt) := h.of_status enterTrap_status
  cases hd : c.svDelegation cause interrupt with
  | true =>
    rw [trapBody_of_supervisor hd]
    exact h₁.trapToSupervisor.leaveTrap
  | false =>
    rw [trapBody_of_machine hd]
    exact h₁.trapToMachine.leaveTrap

theorem StatusViews.mret (h : StatusViews c) (hr : c.mret = .ok c') : StatusViews c' := by
  obtain ⟨p, -, hr⟩ := Except.bind_ok_iff.mp hr
  cases hr
  refine ((h.privilege p).applyMstatus ?_).nextPc _
  exact ((h.hardwired.bitset (by decide) _).bitset (by decide) _).bitset (by decide) _

theorem StatusViews.sret (h : StatusViews c) (hr : c.sret = .ok c') : StatusViews c' := by
  obtain ⟨p, -, hr⟩ := Except.bind_ok_iff.mp hr
  cases hr
  -- `Sret` writes the view of `mstatus` before `ApplyMstatusToCsr` does.
  have h₁ : EnableViews ({ c with privilege := p, mstatus := sretStatus c.mstatus }.setCsr Csr.mstatus
    (sretStatus c.mstatus)) := ⟨h.mie, h.sie, h.uie⟩
  refine (applyMstatusToCsr_views h₁ ?_).nextPc _
  exact ((h.hardwired.bitset (by decide) _).bitset (by decide) _).bitset (by decide) _

/-- Writing any CSR keeps the views: a write to a view rewrites the others
of its register. -/
theorem StatusViews.csrsInstruction (h : StatusViews c) (i : Instruction) (csr : BitVec 12) (rd rs1 : BitVec 5) :
    StatusViews (c.csrsInstruction i csr rd rs1) := by
  have hkeep : csr ∉ [Csr.mie, Csr.sie, Csr.uie, Csr.mstatus, Csr.sstatus, Csr.ustatus] →
      StatusViews (c.csrsWritten i csr rd rs1) := fun hc => (h.setCsr csr hc _).of_status rfl
  rcases csrsInstruction_cases c i csr rd rs1 with ⟨hc, he⟩ | ⟨hc, he⟩ | ⟨hc, he⟩ | ⟨hc, he⟩ <;> rw [he]
  · -- A view of `mstatus`: those of `mie` are not touched.
    refine applyMstatusToCsr_views ?_ (hardwireMstatus_hardwired _ _)
    rcases hc with rfl | rfl | rfl <;> exact ⟨h.mie, h.sie, h.uie⟩
  · exact (hkeep (by rcases hc with rfl | rfl | rfl <;> decide)).applyInterruptPending _
  · -- A view of `mie`: those of `mstatus` are not touched.
    rcases hc with rfl | rfl | rfl <;>
      exact ⟨applyInterruptEnable_enableViews _, h.mstatus, h.sstatus, h.ustatus, h.hardwired⟩
  · refine hkeep fun hm => hc ?_
    simp only [List.mem_cons, List.not_mem_nil, or_false] at hm
    rcases hm with rfl | rfl | rfl | rfl | rfl | rfl <;> decide

/-! ## Any sequence of writes -/

/-- What writes to the status registers, with any operand in a register. -/
inductive StatusOp where
  | setRegister (num : BitVec 5) (value : BitVec 64)
  | csrsInstruction (instruction : Instruction) (csr : BitVec 12) (rd rs1 : BitVec 5)
  | trap (cause : Nat) (interrupt : Bool)
  | mret
  | sret
  | setInterruptPending (cause : Nat)
  | clearInterruptPending (cause : Nat)

def StatusOp.run : StatusOp → RiscvCpu → Except Crash RiscvCpu
  | .setRegister num value, c => .ok (c.setReg num value)
  | .csrsInstruction i csr rd rs1, c => .ok (c.csrsInstruction i csr rd rs1)
  | .trap cause interrupt, c => c.trap cause interrupt
  | .mret, c => c.mret
  | .sret, c => c.sret
  | .setInterruptPending cause, c => .ok (c.setInterruptPending cause)
  | .clearInterruptPending cause, c => .ok (c.clearInterruptPending cause)

theorem StatusOp.run_views {op : StatusOp} (h : StatusViews c) (hr : op.run c = .ok c') : StatusViews c' := by
  cases op with
  | setRegister num value => cases hr; exact h.of_status rfl
  | csrsInstruction i csr rd rs1 => cases hr; exact h.csrsInstruction i csr rd rs1
  | trap cause interrupt =>
    obtain ⟨-, rfl⟩ := trap_ok_iff.mp hr
    exact h.trapBody
  | mret => exact h.mret hr
  | sret => exact h.sret hr
  | setInterruptPending cause => cases hr; exact h.setInterruptPending cause
  | clearInterruptPending cause => cases hr; exact h.clearInterruptPending cause

theorem new_statusViews (en64bit : Bool) (misa64 : BitVec 64) : StatusViews (new en64bit misa64) := by
  have hw : Hardwired (new en64bit misa64).en64bit (new en64bit misa64).mstatus := by
    cases en64bit with
    | false => exact (⟨by decide, by decide, by decide, by decide, by decide⟩ : Hardwired false 0)
    | true => exact (⟨by decide, by decide, by decide, by decide, by decide⟩ : Hardwired true 0xA00000000)
  cases en64bit with
  | false =>
    exact ⟨⟨rfl, BitVec.zero_and.symm, BitVec.zero_and.symm⟩, rfl, BitVec.zero_and.symm, BitVec.zero_and.symm, hw⟩
  | true => exact applyMstatusToCsr_views ⟨rfl, BitVec.zero_and.symm, BitVec.zero_and.symm⟩ hw

/-- **The views of the status registers are true.** In every state that any
sequence of CSR instructions with any operands, traps, returns and changes of
pending interrupts reaches from the constructor, each view of `mstatus` and
`mie` shows its register and the hardwired fields of `mstatus` are in place. -/
theorem status_run (en64bit : Bool) (misa64 : BitVec 64) (t : RiscvCpu)
    (h : Run.Steps StatusOp.run (fun _ _ => True) (new en64bit misa64) t) : StatusViews t :=
  h.invariant (fun _ _ _ hc _ hr => StatusOp.run_views hc hr) (new_statusViews en64bit misa64)

/-- Bits set through `sstatus` on a fresh 64-bit processor, then a trap. -/
theorem status_run_sstatus :
    StatusViews ((((new true 0).setReg x1 0x11F).csrsInstruction .csrrs Csr.sstatus x1 x1).trapBody ecallMmode false) ∧
      ((((new true 0).setReg x1 0x11F).csrsInstruction .csrrs Csr.sstatus x1 x1).trapBody ecallMmode false).csrs
        Csr.sstatus = 0x200000113 := by
  have hrun : Run.Steps StatusOp.run (fun _ _ => True) (new true 0)
      ((((new true 0).setReg x1 0x11F).csrsInstruction .csrrs Csr.sstatus x1 x1).trapBody ecallMmode false) :=
    .tail (l := .trap ecallMmode false)
      (.tail (l := .csrsInstruction .csrrs Csr.sstatus x1 x1) (.tail (l := .setRegister x1 0x11F) .refl trivial rfl)
        trivial rfl)
      trivial (trap_eq (by decide))
  exact ⟨status_run true 0 _ hrun, by decide⟩

/-! ## Rounds -/

/-- A property of the status state that each of its writers keeps. `W` is
what it asks of a CSR instruction. -/
structure StatusInvariant (I : RiscvCpu → Prop) (W : RiscvCpu → Instruction → BitVec 12 → BitVec 5 → Prop) : Prop where
  of_status : ∀ {c c'}, I c → c'.status = c.status → I c'
  setInterruptPending : ∀ {c cause}, cause = machineTimerInterrupt ∨ cause = supervisorExternalInterrupt → I c →
    I (c.setInterruptPending cause)
  trapBody : ∀ {c cause interrupt}, I c → I (c.trapBody cause interrupt)
  csrsInstruction : ∀ {c i csr rd rs1}, W c i csr rs1 → I c → I (c.csrsInstruction i csr rd rs1)
  mret : ∀ {c c'}, I c → c.mret = .ok c' → I c'
  sret : ∀ {c c'}, I c → c.sret = .ok c' → I c'

/-- The instruction of the round meets `W` if it is a CSR instruction. -/
def CsrWrite (W : RiscvCpu → Instruction → BitVec 12 → BitVec 5 → Prop) (_ : Host) (c : RiscvCpu) : Prop :=
  ∀ c₂, c.Fetches c₂ → isCsrs (decode c₂.ir c₂.mxl).instruction = true →
    W c₂.decodeStage (decode c₂.ir c₂.mxl).instruction (getCsr c₂.ir) (decode c₂.ir c₂.mxl).rs1

section

variable {I : RiscvCpu → Prop} {W : RiscvCpu → Instruction → BitVec 12 → BitVec 5 → Prop}

/-- The clock and the devices post an interrupt or change no status. -/
theorem StatusInvariant.ticked (hI : StatusInvariant I W) {c₁ : RiscvCpu} (h : I c)
    (ht : { c with pc := c.nextPc }.timerTick = .ok c₁) : I c₁.interruptCheck := by
  have h₁ : I c₁ := by
    obtain ⟨p, -, rfl⟩ := timerTick_ok ht
    split
    · exact hI.setInterruptPending (.inl rfl) (hI.of_status h rfl)
    · exact hI.of_status h rfl
  have h₂ : I c₁.diskInterruptCheck := by
    unfold diskInterruptCheck
    split
    · exact hI.setInterruptPending (.inr rfl) (hI.of_status h₁ rfl)
    · exact h₁
  unfold interruptCheck uartInterruptCheck
  split
  · exact hI.setInterruptPending (.inr rfl) (hI.of_status h₂ rfl)
  · exact h₂

theorem StatusInvariant.interruptStage (hI : StatusInvariant I W) {taken : Bool} (h : I c)
    (hs : c.interruptStage = .ok (taken, c')) : I c' := by
  obtain ⟨c₁, ht, hs⟩ := Except.bind_ok_iff.mp hs
  have h₁ := hI.ticked h ht
  rcases checkPendingInterrupt_ok hs with ⟨-, rfl⟩ | ⟨-, cause, rfl⟩
  · exact h₁
  · exact hI.trapBody h₁

theorem StatusInvariant.fetched (hI : StatusInvariant I W) {c₂ : RiscvCpu} (h : I c) (hf : c.Fetches c₂) : I c₂ := by
  obtain ⟨c₁, head, fetch, -⟩ := hf
  exact hI.of_status (hI.interruptStage h head) (status_of_control (fetchStage_ok fetch).1.control)

theorem StatusInvariant.effect (hI : StatusInvariant I W) {d : Decoded} {csr : BitVec 12} (h : I c)
    (hw : isCsrs d.instruction = true → W c d.instruction csr d.rs1) (he : Effect c host d csr c') : I c' := by
  cases he with
  | write v hk => exact hI.of_status h (status_of_control hk.control)
  | quiet hk => exact hI.of_status h (status_of_control hk.control)
  | fault cause _ ht =>
    obtain ⟨c₀, hk, -, -, rfl⟩ := ht
    exact hI.trapBody (hI.of_status h (status_of_control hk.control))
  | ecall cause _ ht =>
    subst ht
    exact hI.trapBody h
  | call _ _ hc =>
    obtain ⟨r, -, hc⟩ := Except.bind_ok_iff.mp hc
    cases hc
    exact hI.of_status h rfl
  | csrs hi ht =>
    subst ht
    exact hI.csrsInstruction (hw hi) h
  | mret _ _ hr => exact hI.mret h hr
  | sret _ _ hr => exact hI.sret h hr

/-- A round keeps the property if its CSR instruction meets `W`. -/
theorem StatusInvariant.step (hI : StatusInvariant I W) (h : I c) (hw : CsrWrite W host c)
    (hs : c.step host = .ok c') : I c' := by
  cases step_round hs with
  | interrupt taken => exact hI.interruptStage h taken
  | fetchFault c₁ c₂ head fetch _ trap =>
    subst trap
    exact hI.trapBody (hI.of_status (hI.interruptStage h head) (status_of_control (fetchStage_ok fetch).1.control))
  | execute c₁ c₂ c₃ head fetch pageFault execute finish =>
    have hf : c.Fetches c₂ := ⟨c₁, head, fetch, pageFault⟩
    have h₂ : I c₂.decodeStage := hI.of_status (hI.fetched h hf) rfl
    have h₃ := hI.effect h₂ (hw c₂ hf) (executeStage_effect pageFault execute)
    obtain ⟨p, m, -, -, hfin⟩ := finishStage_ok finish
    exact hI.of_status h₃ (status_of_control hfin.control)

/-- So does a run. -/
theorem StatusInvariant.run (hI : StatusInvariant I W) {s t : RiscvCpu} (hs : I s)
    (h : Run.Steps RiscvCpu.step (CsrWrite W) s t) : I t :=
  h.invariant (fun _ _ _ hc hw hst => hI.step hc hw hst) hs

end

/-- The views are such a property, whatever the CSR instructions write. -/
theorem statusViews_invariant : StatusInvariant StatusViews (fun _ _ _ _ => True) where
  of_status h hs := h.of_status hs
  setInterruptPending _ h := h.setInterruptPending _
  trapBody h := h.trapBody
  csrsInstruction _ h := h.csrsInstruction _ _ _ _
  mret h hr := h.mret hr
  sret h hr := h.sret hr

/-- So the views are true in every state that the loop of `RunCpu` reaches. -/
theorem statusViews_steps {s t : RiscvCpu} (hs : StatusViews s) (h : Run.Steps RiscvCpu.step (fun _ _ => True) s t) :
    StatusViews t :=
  h.invariant (fun _ _ _ hc _ hst => statusViews_invariant.step hc (fun _ _ _ => trivial) hst) hs

end RiscvCpu

end RiscvEmulator
