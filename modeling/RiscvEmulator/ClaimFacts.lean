/-
The claim word of the interrupt controller.

Both devices leave the number of their interrupt in one word, from which the
guest is to load it. `emulation_claim` is what the devices do to the word;
`claim_run` is when the number of neither is lost.
-/
import RiscvEmulator.DeviceFacts
import RiscvEmulator.VirtioFacts

namespace RiscvEmulator

open MemoryWrapper (flat)

namespace PeripheralEmulator

variable {p p' : PeripheralEmulator} {m m' : MemoryWrapper} {host : Host}

/-! ## The devices and the word -/

def kUartIrq : BitVec 32 := 10

def kVirtioIrq : BitVec 32 := 1

/-- The word at `kPlicClaimAddress`. -/
def claimWord (m : MemoryWrapper) : BitVec 32 := Bytes.load 32 m.bytes (flat kPlicClaimAddress) 4

/-- A key has been pressed, and the receiver is empty or has been read. -/
def keyArrives (host : Host) (p : PeripheralEmulator) : Bool :=
  (!p.uartFull || p.uartRead) && p.scrEmulation.any fun scr => (scr.checkInput host).1

/-- A write apart from the word. -/
theorem claimWord_of_frame {area : Bytes.Area 32} (h : ∀ b, ¬ Bytes.InArea area b → m'.bytes b = m.bytes b)
    (ha : ∀ j < 4, ¬ Bytes.InArea area (flat kPlicClaimAddress + BitVec.ofNat 32 j)) : claimWord m' = claimWord m :=
  Bytes.load_congr fun j hj => h _ (ha j hj)

theorem claimWord_write32 {v : BitVec 32} (h : m.write32 kPlicClaimAddress v = .ok m') : claimWord m' = v := by
  obtain ⟨m₁, h₁, hb⟩ := MemoryWrapper.write32_bytes m (show kPlicClaimAddress.toNat % 4 = 0 by decide) v
  cases h.symm.trans h₁
  rw [claimWord, hb, Bytes.load_store _ _ _ (by decide) (by decide)]

theorem clearUartBuffer_claim (h : p.clearUartBuffer m = .ok (p', m')) : claimWord m' = claimWord m := by
  obtain ⟨b, -, h⟩ := Except.bind_ok_iff.mp h
  obtain ⟨m₁, h₁, h⟩ := Except.bind_ok_iff.mp h
  cases h
  exact claimWord_of_frame (MemoryWrapper.writeByte_frame h₁) (by decide)

theorem queueSelect_claim (h : p.queueSelect m = .ok m') : claimWord m' = claimWord m :=
  claimWord_of_frame (queueSelect_frame h) (by decide)

/-- The screen does not look at what is put on it for a key. -/
theorem checkInput_putchar (scr : ScreenEmulation) (v : BitVec 8) :
    (scr.putchar v).checkInput host = ((scr.checkInput host).1, (scr.checkInput host).2.putchar v) := by
  unfold ScreenEmulation.checkInput ScreenEmulation.putchar
  dsimp only
  split_ifs <;> rfl

theorem uartTransmit_key (host : Host) (h : p.uartTransmit = .ok p') :
    p'.keyArrives host = p.keyArrives host ∧ p'.notified = p.notified := by
  unfold uartTransmit at h
  split at h
  · split at h
    · cases h
    · next scr hscr =>
      cases h
      refine ⟨?_, rfl⟩
      simp only [keyArrives, hscr, Option.any_some, checkInput_putchar]
  · cases h
    exact ⟨rfl, rfl⟩

theorem uartConsume_claim (h : p.uartConsume m = .ok (p', m')) :
    claimWord m' = claimWord m ∧ p'.uartFull = (p.uartFull && !p.uartRead) ∧ p'.scrEmulation = p.scrEmulation ∧
      p'.notified = p.notified := by
  unfold uartConsume at h
  split at h
  · next hr =>
    obtain ⟨⟨p₁, m₁⟩, h₁, h⟩ := Except.bind_ok_iff.mp h
    cases h
    have hc := clearUartBuffer_claim h₁
    obtain ⟨b, -, h₁⟩ := Except.bind_ok_iff.mp h₁
    obtain ⟨m₂, -, h₁⟩ := Except.bind_ok_iff.mp h₁
    cases h₁
    exact ⟨hc, by rw [hr]; simp, rfl, rfl⟩
  · next hr =>
    cases h
    rw [Bool.not_eq_true] at hr
    exact ⟨rfl, by rw [hr]; simp, rfl, rfl⟩

theorem translateKey_notified (p : PeripheralEmulator) (key : BitVec 32) :
    (p.translateKey key).2.notified = p.notified := by
  unfold translateKey
  split
  · rfl
  split
  · rfl
  split <;> rfl

/-- A key that goes to the receiver leaves the number of the UART. -/
theorem uartReceive_claim (h : p.uartReceive host m = .ok (p', m')) :
    claimWord m' =
        (if !p.uartFull && p.scrEmulation.any fun scr => (scr.checkInput host).1 then kUartIrq else claimWord m) ∧
      p'.notified = p.notified := by
  unfold uartReceive at h
  split at h
  · next hf =>
    cases h
    rw [hf]
    exact ⟨rfl, rfl⟩
  next hf =>
  rw [Bool.not_eq_true] at hf
  split at h
  · cases h
  next scr hscr =>
  dsimp only at h
  rw [hf, hscr, Option.any_some]
  split at h
  · next hready =>
    cases h
    rw [Bool.not_eq_true'] at hready
    rw [hready]
    exact ⟨rfl, rfl⟩
  next hready =>
  rw [Bool.not_eq_true', Bool.not_eq_false] at hready
  obtain ⟨⟨p₁, m₁⟩, h₁, h⟩ := Except.bind_ok_iff.mp h
  obtain ⟨m₂, h₂, h⟩ := Except.bind_ok_iff.mp h
  cases h
  rw [hready, claimWord_write32 h₂]
  refine ⟨rfl, ?_⟩
  obtain ⟨b, -, h₁⟩ := Except.bind_ok_iff.mp h₁
  obtain ⟨m₃, -, h₁⟩ := Except.bind_ok_iff.mp h₁
  obtain ⟨m₄, -, h₁⟩ := Except.bind_ok_iff.mp h₁
  cases h₁
  exact translateKey_notified _ _

theorem uartEmulation_claim (h : p.uartEmulation host m = .ok (p', m')) :
    claimWord m' = (if p.keyArrives host then kUartIrq else claimWord m) ∧ p'.notified = p.notified := by
  obtain ⟨p₁, h₁, h⟩ := Except.bind_ok_iff.mp h
  obtain ⟨⟨p₂, m₂⟩, h₂, h⟩ := Except.bind_ok_iff.mp h
  obtain ⟨hkey, hn₁⟩ := uartTransmit_key host h₁
  obtain ⟨hw₂, hfull, hscr, hn₂⟩ := uartConsume_claim h₂
  obtain ⟨hw, hn⟩ := uartReceive_claim h
  have hfires : (!p₂.uartFull && p₂.scrEmulation.any fun scr => (scr.checkInput host).1) = p.keyArrives host := by
    rw [← hkey, keyArrives, hfull, hscr, Bool.not_and, Bool.not_not]
  rw [hw, hfires, hw₂]
  exact ⟨rfl, hn.trans (hn₂.trans hn₁)⟩

/-- A request that is served leaves the number of the disk. -/
theorem virtioEmulation_claim (h : p.virtioEmulation m = .ok (p', m')) :
    claimWord m' = if p.notified then kVirtioIrq else claimWord m := by
  cases virtioEmulation_path h with
  | idle _ quiet => rw [quiet]; rfl
  | other _ quiet select => rw [quiet]; exact queueSelect_claim select
  | served _ notify _ serve =>
    obtain ⟨queueNum, pfn, p₁, m₁, -, -, -, -, hplic, -⟩ := queueNotify_ok serve
    rw [notify]
    exact claimWord_write32 hplic

theorem hostEmulation_devices (host : Host) (h : p.hostEmulation m = .ok p') :
    p'.deviceEmulationEnable = p.deviceEmulationEnable ∧ p'.keyArrives host = p.keyArrives host ∧
      p'.notified = p.notified := by
  obtain ⟨value, write, error, ending, output, rfl⟩ := hostEmulation_frame h
  exact ⟨rfl, rfl, rfl⟩

theorem deviceEmulation_claim (h : p.deviceEmulation host m = .ok (p', m')) :
    claimWord m' = if p.deviceEmulationEnable && p.notified then kVirtioIrq
      else if p.deviceEmulationEnable && p.keyArrives host then kUartIrq else claimWord m := by
  unfold deviceEmulation at h
  split at h
  · next he =>
    obtain ⟨⟨p₁, m₁⟩, h₁, h⟩ := Except.bind_ok_iff.mp h
    obtain ⟨hw, hn⟩ := uartEmulation_claim h₁
    rw [virtioEmulation_claim h, hn, hw, he, Bool.true_and, Bool.true_and]
  · next he =>
    cases h
    rw [Bool.not_eq_true] at he
    rw [he]
    rfl

/-- The UART runs first: where both have something to tell, the number of the
disk is left. -/
theorem emulation_claim (h : p.emulation host m = .ok (p', m')) :
    claimWord m' = if p.deviceEmulationEnable && p.notified then kVirtioIrq
      else if p.deviceEmulationEnable && p.keyArrives host then kUartIrq else claimWord m := by
  unfold emulation at h
  split at h
  · obtain ⟨q, hq, h⟩ := Except.bind_ok_iff.mp h
    obtain ⟨he, hk, hn⟩ := hostEmulation_devices host hq
    rw [deviceEmulation_claim h, he, hk, hn]
  · exact deviceEmulation_claim h

end PeripheralEmulator

namespace RiscvCpu

open PeripheralEmulator (claimWord kUartIrq kVirtioIrq)

variable {c c' : RiscvCpu} {host : Host}

/-! ## A round and the word -/

/-- The devices run at the end of a round. -/
def devicesRun (c : RiscvCpu) : Bool := (c.hostEmulation || c.peripheralEmulation) && c.peripheral.deviceEmulationEnable

/-- `UartInterrupt` is reached at the end of a round. -/
def uartFires (host : Host) (c : RiscvCpu) : Bool := c.devicesRun && c.peripheral.keyArrives host

/-- `VirtioEmulation` reaches its interrupt. -/
def diskFires (c : RiscvCpu) : Bool := c.devicesRun && c.peripheral.notified

theorem finishStage_claim (h : c.finishStage host = .ok c') :
    claimWord c'.memory =
      if c.diskFires then kVirtioIrq else if c.uartFires host then kUartIrq else claimWord c.memory := by
  obtain ⟨e, -, h⟩ := finishStage_cases h
  rw [diskFires, uartFires, devicesRun]
  split at h
  · next he =>
    obtain ⟨⟨p, m⟩, hp, h⟩ := Except.bind_ok_iff.mp h
    cases h
    rw [he, Bool.true_and]
    refine Eq.trans ?_ (PeripheralEmulator.emulation_claim hp)
    unfold takeUartBreak takeUartInterrupt takeVirtioInterrupt takeHostEnd
    split_ifs <;> rfl
  · next he =>
    cases h
    rw [Bool.eq_false_iff.mpr he]
    rfl

/-- A load of the round returns the word, and it is `n`. -/
def returns (c : RiscvCpu) (n : BitVec 32) : Bool :=
  c.roundFootprint.loaded.any fun s => (flat kPlicClaimAddress - flat s.1).toNat < s.2.1 ∧ claimWord s.2.2 = n

/-- The round reaches `UartInterrupt`. -/
def uartInterrupts (host : Host) (c : RiscvCpu) : Bool :=
  match c.guestStage host with
  | .ok (false, c₁) => c₁.uartFires host
  | _ => false

/-- It reaches the end of `VirtioEmulation`. -/
def diskInterrupts (host : Host) (c : RiscvCpu) : Bool :=
  match c.guestStage host with
  | .ok (false, c₁) => c₁.diskFires
  | _ => false

/-- The word when the devices are to run. -/
def guestWord (host : Host) (c : RiscvCpu) : BitVec 32 :=
  match c.guestStage host with
  | .ok r => claimWord r.2.memory
  | .error _ => claimWord c.memory

theorem step_claim (h : c.step host = .ok c') :
    claimWord c'.memory =
      if c.diskInterrupts host then kVirtioIrq else if c.uartInterrupts host then kUartIrq else c.guestWord host := by
  rw [step_guestStage] at h
  obtain ⟨⟨ended, c₁⟩, h₁, h⟩ := Except.bind_ok_iff.mp h
  rw [diskInterrupts, uartInterrupts, guestWord, h₁]
  cases ended with
  | true =>
    cases h
    rfl
  | false => exact finishStage_claim h

/-! ## Runs -/

/-- The numbers that have been stored and that no load has returned yet. -/
structure Unclaimed where
  uart : Bool := false
  disk : Bool := false

/-- When the devices are to run. -/
def claimed (c : RiscvCpu) (g : Unclaimed) : Unclaimed :=
  { uart := g.uart && !c.returns kUartIrq, disk := g.disk && !c.returns kVirtioIrq }

/-- After the round. -/
def unclaimed (host : Host) (c : RiscvCpu) (g : Unclaimed) : Unclaimed :=
  { uart := (c.claimed g).uart || c.uartInterrupts host, disk := (c.claimed g).disk || c.diskInterrupts host }

/-- The rounds of the loop, with that note. -/
def claimStep : Host → RiscvCpu × Unclaimed → Except Crash (RiscvCpu × Unclaimed) := Run.noted step unclaimed

/-- No number is lost: what no load has returned is in the word. -/
structure NoneLost (s : RiscvCpu × Unclaimed) : Prop where
  uart : s.2.uart = true → claimWord s.1.memory = kUartIrq
  disk : s.2.disk = true → claimWord s.1.memory = kVirtioIrq

/-- What one word for two devices asks of a round. -/
structure Exclusive (host : Host) (s : RiscvCpu × Unclaimed) : Prop where
  /-- A key arrives when no number of the disk waits. -/
  uart : s.1.uartInterrupts host = true → (s.1.claimed s.2).disk = false
  /-- A request is served when none of the UART waits, and no key arrives. -/
  disk : s.1.diskInterrupts host = true → (s.1.claimed s.2).uart = false ∧ s.1.uartInterrupts host = false
  /-- The guest leaves a number that waits. -/
  guest : s.1.uartInterrupts host = false → s.1.diskInterrupts host = false →
    ((s.1.claimed s.2).uart = true ∨ (s.1.claimed s.2).disk = true) → s.1.guestWord host = claimWord s.1.memory

theorem noneLost_step_iff {s t : RiscvCpu × Unclaimed} (hs : NoneLost s) (h : claimStep host s = .ok t) :
    NoneLost t ↔ Exclusive host s := by
  obtain ⟨hc, hn⟩ := Run.noted_ok_iff.mp h
  have hw := step_claim hc
  have hu : (s.1.claimed s.2).uart = true → claimWord s.1.memory = kUartIrq := by
    intro h
    exact hs.uart (Bool.and_eq_true _ _ ▸ h).1
  have hd : (s.1.claimed s.2).disk = true → claimWord s.1.memory = kVirtioIrq := by
    intro h
    exact hs.disk (Bool.and_eq_true _ _ ▸ h).1
  have hne : kUartIrq ≠ kVirtioIrq := by decide
  have hnu : t.2.uart = ((s.1.claimed s.2).uart || s.1.uartInterrupts host) := congrArg Unclaimed.uart hn
  have hnd : t.2.disk = ((s.1.claimed s.2).disk || s.1.diskInterrupts host) := congrArg Unclaimed.disk hn
  -- Both directions go by which device has stored to the word last, if any.
  constructor
  · rintro ⟨huart, hdisk⟩
    rw [hnu, hw] at huart
    rw [hnd, hw] at hdisk
    exact ⟨by grind, by grind, by grind⟩
  · rintro ⟨huart, hdisk, hguest⟩
    constructor
    · rw [hnu, hw]
      grind
    · rw [hnd, hw]
      grind

/-- **No number is lost** in exactly the runs whose rounds are exclusive. -/
theorem claim_run (c : RiscvCpu) (t : RiscvCpu × Unclaimed) :
    Run.Steps claimStep (fun _ => NoneLost) (c, {}) t ∧ NoneLost t ↔ Run.Steps claimStep Exclusive (c, {}) t := by
  refine Run.steps_iff (fun host u v hu h => noneLost_step_iff hu h) ⟨?_, ?_⟩ t <;>
  · intro h
    cases h

/-- A guest that notifies the disk of the request at 0 when the screen is
about to ask for a key. -/
def busyGuest : RiscvCpu :=
  let memory := (PeripheralEmulator.afterPublish PeripheralEmulator.diskQueue [0]).setWord 0 0 0x0000A023
  let c := ((new false 0).setMemory memory).setReg x1 PeripheralEmulator.kVirtioMmioQueueNotify
  { c with
    peripheralEmulation := true
    peripheral := { c.peripheral with
      deviceEmulationEnable := true
      diskImage := some [7]
      scrEmulation := some { counter := 999 } } }

/-- A host on which `a` is pressed. -/
def typing : Host := { Host.failing with getch := fun _ => 97 }

/-- And the state after its round. -/
def busyGuestServed : RiscvCpu := (busyGuest.step typing).toOption.getD busyGuest

/-- Both devices store their number in one round, and that of the UART is
lost. -/
theorem claim_run_both :
    Run.Steps claimStep (fun _ _ => True) (busyGuest, {}) (busyGuestServed, { uart := true, disk := true }) ∧
      claimWord busyGuestServed.memory = kVirtioIrq ∧
      ¬ NoneLost (busyGuestServed, { uart := true, disk := true }) := by
  have hs : busyGuest.step typing = .ok busyGuestServed := Except.eq_ok_getD (by decide) busyGuest
  have hw : claimWord busyGuestServed.memory = kVirtioIrq := by decide
  have hu : busyGuest.uartInterrupts typing = true := by decide
  have hd : busyGuest.diskInterrupts typing = true := by decide
  have hn : busyGuest.unclaimed typing {} = { uart := true, disk := true } := by
    rw [unclaimed, hu, hd, Bool.or_true, Bool.or_true]
  have h : claimStep typing (busyGuest, {}) = .ok (busyGuestServed, { uart := true, disk := true }) :=
    Run.noted_ok_iff.mpr ⟨hs, hn.symm⟩
  refine ⟨.tail .refl trivial h, hw, fun hl => ?_⟩
  have hlost : kVirtioIrq = kUartIrq := hw.symm.trans (hl.uart rfl)
  exact absurd hlost (by decide)

end RiscvCpu

end RiscvEmulator
