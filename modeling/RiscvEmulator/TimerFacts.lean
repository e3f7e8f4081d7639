/-
The timer over whole runs.

`TimerTick` compares the clock with a copy of `mtimecmp` that it refreshes
when a latch says so. `step_timer` is what a round does to the clock, the
copy and the latch; `timer_run` is when no deadline is missed.
-/
import RiscvEmulator.DeviceFacts

namespace RiscvEmulator

open MemoryWrapper (flat)

/-! ## The timer of the devices -/

namespace PeripheralEmulator

variable {p p' : PeripheralEmulator} {m m' : MemoryWrapper} {host : Host}

/-- The bytes are some of `mtimecmp`, as `CheckDeviceWrite` tests it. -/
def reachesTimerCmp (address : BitVec 64) (width : Nat) : Bool :=
  kTimerCmp < address + BitVec.ofNat 64 width ∧ address < kTimerCmp + 8

theorem checkDeviceWrite_timerSide (p : PeripheralEmulator) (a : BitVec 64) (w : Nat) (d : BitVec 64) :
    (p.checkDeviceWrite a w d).timerSide =
      (p.elapsedCycles, p.nextCycle, p.timercmpUpdate || reachesTimerCmp a w, p.timerInterrupt) := by
  unfold checkDeviceWrite
  dsimp only
  by_cases ht : kTimerCmp < a + BitVec.ofNat 64 w ∧ a < kTimerCmp + 8
  · rw [if_pos ht, reachesTimerCmp, decide_eq_true ht, Bool.or_true]
    split <;> split <;> rfl
  · rw [if_neg ht, reachesTimerCmp, decide_eq_false ht, Bool.or_false]
    split <;> split <;> rfl

theorem checkDeviceRead_timerSide (p : PeripheralEmulator) (a : BitVec 64) (w : Nat) :
    (p.checkDeviceRead a w).timerSide = p.timerSide := by
  unfold checkDeviceRead
  split <;> rfl

theorem hostEmulation_timerSide (h : p.hostEmulation m = .ok p') : p'.timerSide = p.timerSide := by
  obtain ⟨value, write, error, ending, output, rfl⟩ := hostEmulation_frame h
  rfl

theorem emulation_timerSide (h : p.emulation host m = .ok (p', m')) : p'.timerSide = p.timerSide := by
  unfold emulation at h
  split at h
  · obtain ⟨q, hq, h⟩ := Except.bind_ok_iff.mp h
    exact (congrArg Prod.snd (deviceEmulation_settled h)).trans (hostEmulation_timerSide hq)
  · exact congrArg Prod.snd (deviceEmulation_settled h)

end PeripheralEmulator

namespace RiscvCpu

variable {c c' : RiscvCpu} {host : Host}

/-! ## A round and the timer -/

/-- `mtimecmp` in the memory. -/
def mtimecmp (c : RiscvCpu) : BitVec 64 := Bytes.load 64 c.memory.bytes (flat PeripheralEmulator.kTimerCmp) 8

/-- The instruction of the round stores to `mtimecmp`. -/
def storesTimerCmp (c : RiscvCpu) : Bool :=
  c.roundFootprint.stored.any fun s => PeripheralEmulator.reachesTimerCmp s.1 s.2

/-- `CheckDeviceWrite` sees it do so. -/
def reportsTimerCmp (c : RiscvCpu) : Bool :=
  c.roundFootprint.reported.any fun s => PeripheralEmulator.reachesTimerCmp s.1 s.2

theorem timerTick_peripheral (h : c.timerTick = .ok c') : c'.peripheral = c.ticked := by
  rw [timerTick_eq] at h
  cases hdue : c.timerDue with
  | true =>
    rw [hdue] at h
    cases h
    rfl
  | false =>
    rw [hdue] at h
    cases h
    rfl

theorem interruptStage_peripheral {taken : Bool} (h : c.interruptStage = .ok (taken, c')) :
    c'.peripheral = c.ticked := by
  obtain ⟨c₁, h₁, h⟩ := Except.bind_ok_iff.mp h
  have hp : c₁.interruptCheck.peripheral = c.ticked :=
    (congrArg Data.peripheral interruptCheck_data.1).trans (timerTick_peripheral h₁ :)
  rcases checkPendingInterrupt_ok h with ⟨-, rfl⟩ | ⟨-, cause, rfl⟩
  · exact hp
  · rw [← hp]
    exact trapBody_peripheral

theorem finishStage_timerSide (h : c.finishStage host = .ok c') : c'.peripheral.timerSide = c.peripheral.timerSide := by
  obtain ⟨e, -, h⟩ := finishStage_cases h
  split at h
  · obtain ⟨⟨p, m⟩, hp, h⟩ := Except.bind_ok_iff.mp h
    cases h
    refine Eq.trans ?_ (PeripheralEmulator.emulation_timerSide hp)
    unfold takeUartBreak takeUartInterrupt takeVirtioInterrupt takeHostEnd
    split_ifs <;> rfl
  · cases h
    rfl

/-- A round moves the clock on by one, refreshes the copy if the latch says
so, and leaves the latch set if a store to `mtimecmp` has been reported. -/
theorem step_timer (h : c.step host = .ok c') :
    ∃ latch, c'.peripheral.timerSide = (c.peripheral.elapsedCycles + 1, c.timerCompare, latch, false) ∧
      (c.reportsTimerCmp = true → latch = true) := by
  have hquiet : ∀ {c₁ : RiscvCpu}, c₁.peripheral = c.ticked → c.inFlight = none →
      ∃ latch, c₁.peripheral.timerSide = (c.peripheral.elapsedCycles + 1, c.timerCompare, latch, false) ∧
        (c.reportsTimerCmp = true → latch = true) := by
    intro c₁ hp hn
    refine ⟨false, by rw [hp]; rfl, fun hr => ?_⟩
    rw [reportsTimerCmp, roundFootprint, hn] at hr
    cases hr
  cases step_round h with
  | interrupt taken => exact hquiet (interruptStage_peripheral taken) (inFlight_of_interrupt taken)
  | fetchFault c₁ c₂ head fetch pageFault trap =>
    refine hquiet ?_ (inFlight_of_fault head fetch pageFault)
    rw [trap, show (c₂.trapBody instructionPageFault false).peripheral = c₂.peripheral from
      trapBody_peripheral, fetchStage_peripheral fetch, interruptStage_peripheral head]
  | execute c₁ c₂ c₃ head fetch pageFault execute finish =>
    have hp₂ : c₂.decodeStage.peripheral = c.ticked :=
      (fetchStage_peripheral fetch).trans (interruptStage_peripheral head)
    have hrep := execute_reports execute
    have hfoot : c.roundFootprint = c₂.decodeStage.footprint (decode c₂.ir c₂.mxl) := by
      rw [roundFootprint, inFlight_eq head fetch pageFault]
    rw [← hfoot] at hrep
    rw [finishStage_timerSide finish, reportsTimerCmp]
    generalize c.roundFootprint.reported = reported at hrep
    cases hrep with
    | quiet hp => exact ⟨false, by rw [hp, hp₂]; rfl, fun hr => by cases hr⟩
    | read a w hp =>
      refine ⟨false, ?_, fun hr => by cases hr⟩
      rw [hp, PeripheralEmulator.checkDeviceRead_timerSide, hp₂]
      rfl
    | write a w data hp =>
      refine ⟨PeripheralEmulator.reachesTimerCmp a w, ?_, id⟩
      rw [hp, PeripheralEmulator.checkDeviceWrite_timerSide, hp₂]
      rfl

/-! ## Runs -/

/-- The tick raises the timer interrupt. -/
def timerRaised (c : RiscvCpu) : Bool :=
  match c.peripheral.timerTick c.memory with
  | .ok p => p.timerInterrupt
  | .error _ => false

theorem timerRaised_eq (c : RiscvCpu) : c.timerRaised = c.timerDue := by
  rw [timerRaised, peripheral_timerTick]

/-- Whether a store to `mtimecmp` waits for its interrupt: there has been one
since the last interrupt of the timer. A round ticks first. -/
def armedAfter (c : RiscvCpu) (armed : Bool) : Bool := c.storesTimerCmp || (armed && !c.timerRaised)

/-- The rounds of the loop, with that note. -/
def timerStep : Host → RiscvCpu × Bool → Except Crash (RiscvCpu × Bool) :=
  Run.noted step fun _ c armed => c.armedAfter armed

/-- A deadline that has come and is waited for raises the interrupt. -/
def DeadlineMet (c : RiscvCpu) (armed : Bool) : Prop :=
  armed = true → c.mtimecmp ≤ c.peripheral.elapsedCycles + 1 →
    c.timerRaised = true ∧ ∃ c', c.timerTick = .ok c' ∧ c'.mip.getLsbD machineTimerInterrupt = true

/-- What the exact comparison with a copy asks of a round. -/
structure Punctual (c : RiscvCpu) (armed : Bool) : Prop where
  /-- A deadline is not past when the copy is refreshed. -/
  deadline : armed = true → c.peripheral.timercmpUpdate = true → c.peripheral.elapsedCycles + 1 ≤ c.mtimecmp
  /-- The copy is that of the memory as long as it is not. -/
  current : armed = true → c.peripheral.timercmpUpdate = false → c.peripheral.nextCycle = c.mtimecmp
  /-- A store to `mtimecmp` is reported. -/
  reported : c.storesTimerCmp = true → c.reportsTimerCmp = true

/-- While a store waits for its interrupt, the copy is to be refreshed or its
deadline is still to come. -/
def Waiting (c : RiscvCpu) (armed : Bool) : Prop :=
  armed = true → c.peripheral.timercmpUpdate = true ∨ c.peripheral.elapsedCycles < c.peripheral.nextCycle

theorem timerDue_of_eq (h : c.peripheral.elapsedCycles + 1 = c.timerCompare) : c.timerDue = true := by
  rw [timerDue, decide_eq_true h, Bool.or_true]

theorem Waiting.compare {armed : Bool} (h : Waiting c armed) (hp : Punctual c armed) (ha : armed = true) :
    c.peripheral.elapsedCycles + 1 ≤ c.timerCompare ∧ c.timerCompare = c.mtimecmp := by
  cases hu : c.peripheral.timercmpUpdate with
  | true =>
    have hc : c.timerCompare = c.mtimecmp := by rw [timerCompare, hu]; rfl
    rw [hc]
    exact ⟨hp.deadline ha hu, rfl⟩
  | false =>
    have hc : c.timerCompare = c.peripheral.nextCycle := by rw [timerCompare, hu]; rfl
    have hlt : c.peripheral.elapsedCycles < c.peripheral.nextCycle := (h ha).resolve_left (by rw [hu]; decide)
    rw [hc]
    exact ⟨by bv_omega, hp.current ha hu⟩

theorem Waiting.step {armed : Bool} (h : Waiting c armed) (hp : Punctual c armed) (hs : c.step host = .ok c') :
    Waiting c' (c.armedAfter armed) := by
  obtain ⟨latch, hside, hrep⟩ := step_timer hs
  have he : c'.peripheral.elapsedCycles = c.peripheral.elapsedCycles + 1 := congrArg (·.1) hside
  have hn : c'.peripheral.nextCycle = c.timerCompare := congrArg (·.2.1) hside
  have hl : c'.peripheral.timercmpUpdate = latch := congrArg (·.2.2.1) hside
  intro ha
  rw [armedAfter, Bool.or_eq_true, Bool.and_eq_true] at ha
  rcases ha with hst | ⟨ha, hr⟩
  · left
    rw [hl, hrep (hp.reported hst)]
  · right
    have hne : c.peripheral.elapsedCycles + 1 ≠ c.timerCompare := by
      intro heq
      rw [timerRaised_eq, timerDue_of_eq heq] at hr
      cases hr
    rw [he, hn]
    exact BitVec.lt_of_le_ne (h.compare hp ha).1 hne

/-- A tick that is due posts the interrupt. -/
theorem timerTick_posted (h : c.timerDue = true) :
    ∃ c', c.timerTick = .ok c' ∧ c'.mip.getLsbD machineTimerInterrupt = true := by
  refine ⟨_, timerTick_eq c, ?_⟩
  rw [h, if_pos rfl]
  show (bitset c.mip 1 machineTimerInterrupt 1).getLsbD machineTimerInterrupt = true
  rw [getLsbD_bitset _ _ (by decide) (by decide) (by decide), if_pos (by decide)]
  decide

/-- **No deadline is missed**, in the rounds of a run that are punctual:
whatever is stored to `mtimecmp`, the tick at which the deadline has come
raises the interrupt. -/
theorem timer_run (s t : RiscvCpu × Bool) (hs : s.2 = false)
    (h : Run.Steps timerStep (fun _ s => Punctual s.1 s.2) s t) (ht : Punctual t.1 t.2) : DeadlineMet t.1 t.2 := by
  have hw : Waiting t.1 t.2 := by
    refine h.invariant (I := fun s => Waiting s.1 s.2) ?_ fun ha => ?_
    · intro host u v hu hp hstep
      obtain ⟨hc, hn⟩ := Run.noted_ok_iff.mp hstep
      rw [hn]
      exact hu.step hp hc
    · rw [hs] at ha
      cases ha
  intro ha hcmp
  obtain ⟨hle, hc⟩ := hw.compare ht ha
  have hdue : t.1.timerDue = true := timerDue_of_eq (by rw [hc] at hle ⊢; bv_omega)
  exact ⟨by rw [timerRaised_eq, hdue], timerTick_posted hdue⟩

/-- A guest that stores `deadline` to the lower half of `mtimecmp` and waits. -/
def timerGuest (deadline : BitVec 64) : RiscvCpu :=
  (((new false 0).setMemory (((MemoryWrapper.new.assign 0).setWord 0 0 0x0020A023).setWord 0 1 0x13)).setReg x1
    PeripheralEmulator.kTimerCmp).setReg x2 deadline

theorem timer_run_waiting : (timerGuest 3).next.next.timerRaised = true := by
  have h₁ : timerStep .failing (timerGuest 3, false) = .ok ((timerGuest 3).next, true) :=
    Run.noted_ok_iff.mpr ⟨step_next (by decide), by decide⟩
  have h₂ : timerStep .failing ((timerGuest 3).next, true) = .ok ((timerGuest 3).next.next, true) :=
    Run.noted_ok_iff.mpr ⟨step_next (by decide), by decide⟩
  have hp₀ : Punctual (timerGuest 3) false :=
    ⟨fun h => absurd h (by decide), fun h => absurd h (by decide), by decide⟩
  have hp₁ : Punctual (timerGuest 3).next true := ⟨by decide, by decide, by decide⟩
  have hp₂ : Punctual (timerGuest 3).next.next true := ⟨by decide, by decide, by decide⟩
  exact (timer_run (timerGuest 3, false) _ rfl (.tail (.tail .refl hp₀ h₁) hp₁ h₂) hp₂ rfl (by decide)).1

/-- A deadline that is past when the copy is refreshed is missed. -/
theorem deadline_missed (ha : c.peripheral.timercmpUpdate = true) (hi : c.peripheral.timerInterrupt = false)
    (hlt : c.mtimecmp < c.peripheral.elapsedCycles + 1) : ¬ DeadlineMet c true := by
  intro h
  have hr := (h rfl (by bv_omega)).1
  have hc : c.timerCompare = c.mtimecmp := by rw [timerCompare, ha]; rfl
  rw [timerRaised_eq, timerDue, hi, Bool.false_or, decide_eq_true_eq, hc] at hr
  rw [← hr] at hlt
  exact absurd hlt (BitVec.lt_irrefl _)

/-- The first tick makes the clock one, the store makes that the deadline,
and the second tick finds the clock at two. -/
theorem timer_run_missed :
    Run.Steps timerStep (fun _ _ => True) (timerGuest 1, false) ((timerGuest 1).next, true) ∧
      (timerGuest 1).next.mtimecmp = 1 ∧ (timerGuest 1).next.peripheral.elapsedCycles = 1 ∧
      (timerGuest 1).next.timerRaised = false ∧ ¬ DeadlineMet (timerGuest 1).next true := by
  have h₁ : timerStep .failing (timerGuest 1, false) = .ok ((timerGuest 1).next, true) :=
    Run.noted_ok_iff.mpr ⟨step_next (by decide), by decide⟩
  exact ⟨.tail .refl trivial h₁, by decide, by decide, by decide,
    deadline_missed (by decide) (by decide) (by decide)⟩

end RiscvCpu

end RiscvEmulator
