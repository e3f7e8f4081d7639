/-
Pending interrupts and the registers the guest sees them in.

`mip` has three views among the CSRs. Everything that writes `mip` rewrites
them with `ApplyInterruptPending`, but for `SetInterruptPending`, which
calls `ApplyInterruptEnable`: a bit it newly sets is in no view, and the
next write to a view takes it away. `pending_run` says that this is the only
way to lose one: in a run in which every interrupt posted is pending
already, the views are true to `mip` in every state.
-/
import RiscvEmulator.RoundFacts

namespace RiscvEmulator

namespace RiscvCpu

variable {c c' : RiscvCpu} {host : Host}

/-! ## The views -/

/-- The CSRs that show `mip` do so. -/
structure PendingViews (c : RiscvCpu) : Prop where
  mip : c.csrs Csr.mip = c.mip
  sip : c.csrs Csr.sip = c.mip &&& kSipMask
  uip : c.csrs Csr.uip = c.mip &&& kUipMask

def pendingCsrs : List (BitVec 12) := [Csr.mip, Csr.sip, Csr.uip]

theorem PendingViews.of_eq (h : PendingViews c) (hm : c'.mip = c.mip) (hc : ∀ i ∈ pendingCsrs, c'.csrs i = c.csrs i) :
    PendingViews c' where
  mip := by rw [hc _ (by decide), hm, h.mip]
  sip := by rw [hc _ (by decide), hm, h.sip]
  uip := by rw [hc _ (by decide), hm, h.uip]

theorem PendingViews.of_control (h : PendingViews c) (hc : c'.control = c.control) : PendingViews c' :=
  h.of_eq (congrArg Control.mip hc) fun i _ => congrFun (congrArg Control.csrs hc) i

theorem new_views (en64bit : Bool) (misa64 : BitVec 64) : PendingViews (new en64bit misa64) := by
  cases en64bit <;> exact ⟨rfl, BitVec.zero_and.symm, BitVec.zero_and.symm⟩

theorem applyInterruptPending_views (c : RiscvCpu) : PendingViews c.applyInterruptPending := ⟨rfl, rfl, rfl⟩

theorem setCsr_csrs (csr : BitVec 12) (v : BitVec 64) {i : BitVec 12} (h : i ≠ csr) :
    (c.setCsr csr v).csrs i = c.csrs i := Function.update_of_ne h ..

theorem PendingViews.setCsr (h : PendingViews c) (csr : BitVec 12) (hc : csr ∉ pendingCsrs) (v : BitVec 64) :
    PendingViews (c.setCsr csr v) :=
  h.of_eq rfl fun _ hi => setCsr_csrs csr v fun he => hc (he ▸ hi)

theorem PendingViews.applyMstatusToCsr (h : PendingViews c) : PendingViews c.applyMstatusToCsr :=
  ((h.setCsr _ (by decide) _).setCsr _ (by decide) _).setCsr _ (by decide) _

theorem PendingViews.applyInterruptEnable (h : PendingViews c) : PendingViews c.applyInterruptEnable :=
  ((h.setCsr _ (by decide) _).setCsr _ (by decide) _).setCsr _ (by decide) _

theorem setInterruptPending_of_set {cause : Nat} (h : c.mip.getLsbD cause = true) :
    c.setInterruptPending cause = c.applyInterruptEnable := by
  have hcause : cause < 64 := BitVec.lt_of_getLsbD h
  have hm : bitset c.mip 1 cause 1 = c.mip := by
    apply BitVec.eq_of_getLsbD_eq
    intro i hi
    rw [getLsbD_bitset _ _ (by omega) (by decide) hi]
    split
    · next hin =>
      obtain rfl : i = cause := by omega
      rw [Nat.sub_self, h]
      rfl
    · rfl
  rw [setInterruptPending, hm]

/-- Posting an interrupt keeps the views only if it is pending already. -/
theorem setInterruptPending_views {cause : Nat} (hcause : cause < 64) (h : PendingViews c) :
    PendingViews (c.setInterruptPending cause) ↔ c.mip.getLsbD cause = true := by
  constructor
  · intro hv
    have hbit : (bitset c.mip 1 cause 1).getLsbD cause = true := by
      rw [getLsbD_bitset _ _ (by omega) (by decide) hcause, if_pos (by omega), Nat.sub_self]
      rfl
    have heq := hv.mip
    rw [show (c.setInterruptPending cause).csrs Csr.mip = c.csrs Csr.mip from rfl, h.mip] at heq
    rw [heq]
    exact hbit
  · intro hb
    rw [setInterruptPending_of_set hb]
    exact h.applyInterruptEnable

theorem PendingViews.leaveTrap {cause : Nat} {interrupt : Bool} (h : PendingViews c) :
    PendingViews (c.leaveTrap cause interrupt) := by
  unfold RiscvCpu.leaveTrap
  split
  · exact (applyInterruptPending_views _).applyMstatusToCsr
  · exact h.applyMstatusToCsr

theorem PendingViews.privilege (h : PendingViews c) (p : PrivilegeMode) : PendingViews { c with privilege := p } :=
  ⟨h.mip, h.sip, h.uip⟩

theorem PendingViews.nextPc (h : PendingViews c) (a : BitVec 64) : PendingViews { c with nextPc := a } :=
  ⟨h.mip, h.sip, h.uip⟩

theorem PendingViews.mstatus (h : PendingViews c) (m : BitVec 64) : PendingViews { c with mstatus := m } :=
  ⟨h.mip, h.sip, h.uip⟩

theorem PendingViews.enterTrap {cause : Nat} {interrupt : Bool} (h : PendingViews c) :
    PendingViews (c.enterTrap cause interrupt) := by
  unfold RiscvCpu.enterTrap
  dsimp only
  split <;> exact ⟨h.mip, h.sip, h.uip⟩

theorem PendingViews.trapToSupervisor {cause : Nat} {interrupt sie : Bool} (h : PendingViews c) :
    PendingViews (c.trapToSupervisor cause interrupt sie) := by
  have h₁ := ((h.setCsr Csr.scause (by decide) (c.trapCause cause interrupt)).setCsr Csr.sepc (by decide) c.pc).nextPc
  exact ((((h₁ _).setCsr _ (by decide) _).mstatus _).applyMstatusToCsr).privilege _

theorem PendingViews.trapToMachine {cause : Nat} {interrupt mie : Bool} (h : PendingViews c) :
    PendingViews (c.trapToMachine cause interrupt mie) := by
  have h₁ := ((h.setCsr Csr.mcause (by decide) (c.trapCause cause interrupt)).setCsr Csr.mepc (by decide) c.pc).nextPc
  exact ((((h₁ _).setCsr _ (by decide) _).mstatus _).applyMstatusToCsr).privilege _

/-- A trap keeps the views, whatever level it goes to. -/
theorem PendingViews.trapBody {cause : Nat} {interrupt : Bool} (h : PendingViews c) :
    PendingViews (c.trapBody cause interrupt) := by
  cases hd : c.svDelegation cause interrupt with
  | true =>
    rw [trapBody_of_supervisor hd]
    exact h.enterTrap.trapToSupervisor.leaveTrap
  | false =>
    rw [trapBody_of_machine hd]
    exact h.enterTrap.trapToMachine.leaveTrap

theorem PendingViews.mret (h : PendingViews c) (hr : c.mret = .ok c') : PendingViews c' := by
  obtain ⟨p, -, hr⟩ := Except.bind_ok_iff.mp hr
  cases hr
  exact ((h.privilege p).mstatus _).applyMstatusToCsr.nextPc _

theorem PendingViews.sret (h : PendingViews c) (hr : c.sret = .ok c') : PendingViews c' := by
  obtain ⟨p, -, hr⟩ := Except.bind_ok_iff.mp hr
  cases hr
  exact (((h.privilege p).mstatus _).setCsr _ (by decide) _).applyMstatusToCsr.nextPc _

/-! ## CSR instructions -/

/-- Writing any CSR keeps the views: a write to a view rewrites all three. -/
theorem PendingViews.csrsInstruction (h : PendingViews c) (i : Instruction) (csr : BitVec 12) (rd rs1 : BitVec 5) :
    PendingViews (c.csrsInstruction i csr rd rs1) := by
  have hkeep : csr ∉ pendingCsrs → PendingViews (c.csrsWritten i csr rd rs1) := fun hc =>
    have hw := h.setCsr csr hc (c.csrValue i (c.csrs csr) rs1)
    ⟨hw.mip, hw.sip, hw.uip⟩
  rcases csrsInstruction_cases c i csr rd rs1 with ⟨hc, he⟩ | ⟨-, he⟩ | ⟨hc, he⟩ | ⟨hc, he⟩ <;> rw [he]
  · exact ((hkeep (by rcases hc with rfl | rfl | rfl <;> decide)).mstatus _).applyMstatusToCsr
  · exact applyInterruptPending_views _
  · have hw := hkeep (by rcases hc with rfl | rfl | rfl <;> decide)
    exact PendingViews.applyInterruptEnable ⟨hw.mip, hw.sip, hw.uip⟩
  · refine hkeep fun hm => hc ?_
    simp only [pendingCsrs, List.mem_cons, List.not_mem_nil, or_false] at hm
    rcases hm with rfl | rfl | rfl <;> decide

/-- The operand of a read-modify-write clears bit `k`. The complement in
`CSRRCI` is of 32 bits, so it clears every bit above them. -/
def OperandClears (c : RiscvCpu) (i : Instruction) (rs1 : BitVec 5) (k : Nat) : Prop :=
  match i with
  | .csrrc => (c.reg rs1).getLsbD k = true
  | .csrrci => rs1.getLsbD k = true ∨ 32 ≤ k
  | .csrrw => (c.reg rs1).getLsbD k = false
  | .csrrwi => rs1.getLsbD k = false
  | _ => False

theorem csrValue_clears {i : Instruction} {t : BitVec 64} {rs1 : BitVec 5} {k : Nat} (hk : k < 64)
    (ht : t.getLsbD k = true) (h : (c.csrValue i t rs1).getLsbD k = false) : c.OperandClears i rs1 k := by
  unfold csrValue at h
  split at h
  · rw [BitVec.getLsbD_and, BitVec.getLsbD_not, ht] at h
    simpa [OperandClears, hk] using h
  · rw [BitVec.getLsbD_and, BitVec.getLsbD_setWidth, BitVec.getLsbD_not, BitVec.getLsbD_setWidth, ht] at h
    by_cases h32 : k < 32
    · exact .inl (by simpa [hk, h32] using h)
    · exact .inr (by omega)
  · rw [BitVec.getLsbD_or, ht] at h
    cases h
  · rw [BitVec.getLsbD_or, ht] at h
    cases h
  · exact h
  · rw [BitVec.getLsbD_setWidth] at h
    simpa [OperandClears, hk] using h
  · rw [ht] at h
    cases h

/-- A masked write clears only a bit that is in the mask. -/
theorem masked_clear {m v mask : BitVec 64} {k : Nat} (hset : m.getLsbD k = true)
    (hclear : ((m &&& ~~~mask) ||| (v &&& mask)).getLsbD k = false) :
    (m &&& mask).getLsbD k = true ∧ v.getLsbD k = false := by
  have hk : k < 64 := BitVec.lt_of_getLsbD hset
  rw [BitVec.getLsbD_or, BitVec.getLsbD_and, BitVec.getLsbD_and, BitVec.getLsbD_not, hset] at hclear
  rw [BitVec.getLsbD_and, hset]
  cases hm : mask.getLsbD k <;> simp_all

/-- A bit of `mip` that a write to a view clears was set in the view, and
the value written has it clear. -/
theorem csrsInstruction_mip (h : PendingViews c) {i : Instruction} {csr : BitVec 12} {rd rs1 : BitVec 5} {k : Nat}
    (hc : csr ∈ pendingCsrs) (hset : c.mip.getLsbD k = true)
    (hclear : (c.csrsInstruction i csr rd rs1).mip.getLsbD k = false) :
    (c.csrs csr).getLsbD k = true ∧ (c.csrValue i (c.csrs csr) rs1).getLsbD k = false := by
  have hpassed : (c.mipWrite csr (c.csrValue i (c.csrs csr) rs1)).getLsbD k = false := by
    simp only [pendingCsrs, List.mem_cons, List.not_mem_nil, or_false] at hc
    rcases hc with rfl | rfl | rfl <;> exact hclear
  generalize c.csrValue i (c.csrs csr) rs1 = v at hpassed ⊢
  simp only [pendingCsrs, List.mem_cons, List.not_mem_nil, or_false] at hc
  rcases hc with rfl | rfl | rfl
  · rw [h.mip]
    exact ⟨hset, hpassed⟩
  · rw [h.sip]
    exact masked_clear hset hpassed
  · rw [h.uip]
    exact masked_clear hset hpassed

/-! ## Runs -/

/-- What writes to the pending bits, in any order: the clock, the checks of
the two devices, the CSR instructions, the traps, and whole rounds. -/
inductive PendingOp where
  | timerTick
  | diskInterruptCheck
  | uartInterruptCheck
  | csrsInstruction (instruction : Instruction) (csr : BitVec 12) (rd rs1 : BitVec 5)
  | trap (cause : Nat) (interrupt : Bool)
  | round (host : Host)

def PendingOp.run : PendingOp → RiscvCpu → Except Crash RiscvCpu
  | .timerTick, c => c.timerTick
  | .diskInterruptCheck, c => .ok c.diskInterruptCheck
  | .uartInterruptCheck, c => .ok c.uartInterruptCheck
  | .csrsInstruction i csr rd rs1, c => .ok (c.csrsInstruction i csr rd rs1)
  | .trap cause interrupt, c => c.trap cause interrupt
  | .round host, c => c.step host

/-- A tick that is due finds its bit set. -/
def TimerPosted (c : RiscvCpu) : Prop := c.timerDue = true → c.mip.getLsbD machineTimerInterrupt = true

def DiskPosted (c : RiscvCpu) : Prop := c.virtioInterrupt = true → c.mip.getLsbD supervisorExternalInterrupt = true

def UartPosted (c : RiscvCpu) : Prop := c.uartInterrupt = true → c.mip.getLsbD supervisorExternalInterrupt = true

/-- Every interrupt the operation posts is pending already. -/
def PendingOp.Posted : PendingOp → RiscvCpu → Prop
  | .timerTick, c => c.TimerPosted
  | .diskInterruptCheck, c => c.DiskPosted
  | .uartInterruptCheck, c => c.UartPosted
  | .round _, c => c.TimerPosted ∧ c.DiskPosted ∧ c.UartPosted
  | _, _ => True

/-- Nothing pending is hidden from the guest or lost by it: the views are
true, a read of `mip` or `sip` shows the bits, and a read-modify-write of a
view clears a bit only if its operand does. -/
structure NoLostInterrupt (c : RiscvCpu) : Prop where
  views : PendingViews c
  readMip : ∀ i rd rs1, (c.csrsInstruction i Csr.mip rd rs1).reg rd = c.mip
  readSip : ∀ i rd rs1, (c.csrsInstruction i Csr.sip rd rs1).reg rd = c.mip &&& kSipMask
  write : ∀ i csr rd rs1 k, csr ∈ pendingCsrs → c.mip.getLsbD k = true →
    (c.csrsInstruction i csr rd rs1).mip.getLsbD k = false → c.OperandClears i rs1 k

theorem csrsInstruction_reg (i : Instruction) (csr : BitVec 12) (rd rs1 : BitVec 5) :
    (c.csrsInstruction i csr rd rs1).reg rd = c.csrs csr := by
  rw [show (c.csrsInstruction i csr rd rs1).reg = _ from congrArg Data.reg (csrsInstruction_data i csr rd rs1)]
  exact Function.update_self ..

theorem PendingViews.noLostInterrupt (h : PendingViews c) : NoLostInterrupt c where
  views := h
  readMip i rd rs1 := by rw [csrsInstruction_reg, h.mip]
  readSip i rd rs1 := by rw [csrsInstruction_reg, h.sip]
  write i csr rd rs1 k hc hset hclear := by
    obtain ⟨ht, hv⟩ := csrsInstruction_mip h hc hset hclear
    exact csrValue_clears (BitVec.lt_of_getLsbD hset) ht hv

theorem PendingViews.post {cause : Nat} (h : PendingViews c) (hb : c.mip.getLsbD cause = true) :
    PendingViews (c.setInterruptPending cause) ∧ (c.setInterruptPending cause).mip = c.mip := by
  refine ⟨(setInterruptPending_views (BitVec.lt_of_getLsbD hb) h).mpr hb, ?_⟩
  rw [setInterruptPending_of_set hb]
  rfl

theorem timerTick_views (h : PendingViews c) (hp : c.TimerPosted) (ht : c.timerTick = .ok c') :
    PendingViews c' ∧ c'.mip = c.mip ∧ c'.virtioInterrupt = c.virtioInterrupt ∧
      c'.uartInterrupt = c.uartInterrupt := by
  obtain ⟨p, -, rfl⟩ := timerTick_ok ht
  have h₁ : PendingViews { c with peripheral := p } := ⟨h.mip, h.sip, h.uip⟩
  split
  · next hdue => exact ⟨(h₁.post (hp hdue)).1, (h₁.post (hp hdue)).2, rfl, rfl⟩
  · exact ⟨h₁, rfl, rfl, rfl⟩

theorem diskInterruptCheck_views (h : PendingViews c) (hp : c.DiskPosted) :
    PendingViews c.diskInterruptCheck ∧ c.diskInterruptCheck.mip = c.mip ∧
      c.diskInterruptCheck.uartInterrupt = c.uartInterrupt := by
  have h₁ : PendingViews { c with virtioInterrupt := false } := ⟨h.mip, h.sip, h.uip⟩
  unfold diskInterruptCheck
  split
  · next hv => exact ⟨(h₁.post (hp hv)).1, (h₁.post (hp hv)).2, rfl⟩
  · exact ⟨h, rfl, rfl⟩

theorem uartInterruptCheck_views (h : PendingViews c) (hp : c.UartPosted) : PendingViews c.uartInterruptCheck := by
  have h₁ : PendingViews { c with uartInterrupt := false } := ⟨h.mip, h.sip, h.uip⟩
  unfold uartInterruptCheck
  split
  · next hv => exact (h₁.post (hp hv)).1
  · exact h

theorem interruptStage_views {taken : Bool} (h : PendingViews c) (hp : c.TimerPosted ∧ c.DiskPosted ∧ c.UartPosted)
    (hs : c.interruptStage = .ok (taken, c')) : PendingViews c' := by
  obtain ⟨c₁, h₁, hs⟩ := Except.bind_ok_iff.mp hs
  have h₀ : PendingViews { c with pc := c.nextPc } := ⟨h.mip, h.sip, h.uip⟩
  obtain ⟨hv₁, hm₁, hd₁, hu₁⟩ := timerTick_views h₀ hp.1 h₁
  have hdisk : c₁.DiskPosted := by
    unfold DiskPosted
    rw [hm₁, hd₁]
    exact hp.2.1
  obtain ⟨hv₂, hm₂, hu₂⟩ := diskInterruptCheck_views hv₁ hdisk
  have huart : c₁.diskInterruptCheck.UartPosted := by
    unfold UartPosted
    rw [hm₂, hm₁, hu₂, hu₁]
    exact hp.2.2
  have hv₃ : PendingViews c₁.interruptCheck := uartInterruptCheck_views hv₂ huart
  rcases checkPendingInterrupt_ok hs with ⟨-, rfl⟩ | ⟨-, cause, rfl⟩
  · exact hv₃
  · exact hv₃.trapBody

theorem PendingViews.effect {d : Decoded} {csr : BitVec 12} (h : PendingViews c) (he : Effect c host d csr c') :
    PendingViews c' := by
  cases he with
  | write v hk => exact h.of_control hk.control
  | quiet hk => exact h.of_control hk.control
  | fault cause _ ht =>
    obtain ⟨c₀, hk, -, -, rfl⟩ := ht
    exact (h.of_control hk.control).trapBody
  | ecall cause _ ht =>
    subst ht
    exact h.trapBody
  | call _ _ hc =>
    obtain ⟨r, -, hc⟩ := Except.bind_ok_iff.mp hc
    cases hc
    exact ⟨h.mip, h.sip, h.uip⟩
  | csrs _ ht =>
    subst ht
    exact h.csrsInstruction _ _ _ _
  | mret _ _ hr => exact h.mret hr
  | sret _ _ hr => exact h.sret hr

/-- A round keeps the views if what it posts is pending already. -/
theorem step_views (h : PendingViews c) (hp : c.TimerPosted ∧ c.DiskPosted ∧ c.UartPosted)
    (hs : c.step host = .ok c') : PendingViews c' := by
  cases step_round hs with
  | interrupt taken => exact interruptStage_views h hp taken
  | fetchFault c₁ c₂ head fetch _ trap =>
    subst trap
    exact ((interruptStage_views h hp head).of_control (fetchStage_ok fetch).1.control).trapBody
  | execute c₁ c₂ c₃ head fetch pageFault execute finish =>
    have hv₂ := (interruptStage_views h hp head).of_control (fetchStage_ok fetch).1.control
    have hv : PendingViews c₂.decodeStage := ⟨hv₂.mip, hv₂.sip, hv₂.uip⟩
    have hv₃ := hv.effect (executeStage_effect pageFault execute)
    obtain ⟨p, m, -, -, hfin⟩ := finishStage_ok finish
    exact hv₃.of_control hfin.control

theorem PendingOp.run_views {op : PendingOp} (h : PendingViews c) (hp : op.Posted c) (hr : op.run c = .ok c') :
    PendingViews c' := by
  cases op with
  | timerTick => exact (timerTick_views h hp hr).1
  | diskInterruptCheck => cases hr; exact (diskInterruptCheck_views h hp).1
  | uartInterruptCheck => cases hr; exact uartInterruptCheck_views h hp
  | csrsInstruction i csr rd rs1 => cases hr; exact h.csrsInstruction i csr rd rs1
  | trap cause interrupt =>
    obtain ⟨-, rfl⟩ := trap_ok_iff.mp hr
    exact h.trapBody
  | round host => exact step_views h hp hr

/-- **No interrupt is lost.** From a state with true views, in every state
that a run reaches whose operations post only what is pending already, the
views are true, and the guest sees and keeps every pending bit. -/
theorem pending_run (s t : RiscvCpu) (hs : PendingViews s) (h : Run.Steps PendingOp.run PendingOp.Posted s t) :
    NoLostInterrupt t :=
  (h.invariant (fun _ _ _ hc hp hr => PendingOp.run_views hc hp hr) hs).noLostInterrupt

/-- The UART posts an interrupt that the guest has made pending itself. -/
def postedUart : RiscvCpu := { (new false 0).setReg x1 0x200 with uartInterrupt := true }

theorem pending_run_uart :
    NoLostInterrupt (postedUart.csrsInstruction .csrrw Csr.mip zero x1).uartInterruptCheck := by
  have h₁ : PendingViews postedUart := ⟨(new_views false 0).mip, (new_views false 0).sip, (new_views false 0).uip⟩
  have hrun : Run.Steps PendingOp.run PendingOp.Posted postedUart
      (postedUart.csrsInstruction .csrrw Csr.mip zero x1).uartInterruptCheck := by
    refine .tail (l := .uartInterruptCheck) (.tail (l := .csrsInstruction .csrrw Csr.mip zero x1) .refl ?_ rfl) ?_ rfl
    · trivial
    · intro _
      decide
  exact pending_run _ _ h₁ hrun

/-- A guest that has set `mtimecmp` to one. -/
def timerArmed : RiscvCpu := (new false 0).setMemory ((MemoryWrapper.new.assign 0x20).setWord 0x20 0x1000 1)

/-- It after the first tick. -/
def timerPosted : RiscvCpu :=
  { timerArmed with
    peripheral := { timerArmed.peripheral with elapsedCycles := 1, nextCycle := 1, timercmpUpdate := false }
  }.setInterruptPending machineTimerInterrupt

/-- The tick posts the timer interrupt; `mip` reads as zero, and reading it
with `CSRRS` takes the interrupt away. -/
theorem pending_run_lost :
    PendingViews timerArmed ∧ Run.Steps PendingOp.run (fun _ _ => True) timerArmed timerPosted ∧
      timerPosted.mip.getLsbD machineTimerInterrupt = true ∧
      (timerPosted.csrsInstruction .csrrs Csr.mip x1 zero).reg x1 = 0 ∧
      (timerPosted.csrsInstruction .csrrs Csr.mip x1 zero).mip = 0 ∧ ¬ PendingViews timerPosted ∧
      ¬ NoLostInterrupt timerPosted := by
  have hviews : ¬ PendingViews timerPosted := fun h => absurd h.mip (by decide)
  have harmed : PendingViews timerArmed := ⟨(new_views false 0).mip, (new_views false 0).sip, (new_views false 0).uip⟩
  exact ⟨harmed, .tail (l := .timerTick) .refl trivial rfl, by decide, by decide, by decide, hviews,
    fun h => hviews h.views⟩

end RiscvCpu

end RiscvEmulator
