/-
The screen over whole runs.

A store whose range has the transmitter in it leaves a character there, and
the devices put it on the screen at the end of the round. `screen_run` says
that the screen has the characters of the stores, each of them once and in
order, and nothing else.
-/
import RiscvEmulator.Confinement
import RiscvEmulator.DiskRun

namespace RiscvEmulator

open Bytes (byteOf)

theorem ScreenEmulation.checkInput_screen (host : Host) (scr : ScreenEmulation) :
    (scr.checkInput host).2.screen = scr.screen := by
  unfold checkInput
  dsimp only
  split_ifs <;> rfl

namespace PeripheralEmulator

variable {p p' : PeripheralEmulator} {m m' : MemoryWrapper} {host : Host} {address data : BitVec 64} {width : Nat}

/-! ## The transmitter -/

/-- The screen when the transmitter has put its character there, if it has
one. -/
def printed (p : PeripheralEmulator) : Option (List (BitVec 8)) :=
  p.scrEmulation.map fun scr => if p.uartWrite then p.uartWriteValue :: scr.screen else scr.screen

/-- The transmitter is empty. -/
theorem printed_of_idle (h : p.uartWrite = false) : p.printed = p.scrEmulation.map (·.screen) := by
  simp [printed, h]

theorem uartTransmit_printed (h : p.uartTransmit = .ok p') : p'.printed = p.printed ∧ p'.uartWrite = false := by
  unfold uartTransmit at h
  split at h
  · next hw =>
    split at h
    · cases h
    · next scr hscr =>
      cases h
      simp [printed, hw, hscr, ScreenEmulation.putchar]
  · next hw =>
    cases h
    exact ⟨rfl, Bool.eq_false_iff.mpr hw⟩

theorem uartReceive_screen (h : p.uartReceive host m = .ok (p', m')) :
    p'.scrEmulation.map (·.screen) = p.scrEmulation.map (·.screen) := by
  unfold uartReceive at h
  split at h
  · cases h
    rfl
  split at h
  · cases h
  next scr hscr =>
  dsimp only at h
  split at h
  · cases h
    simp [hscr, ScreenEmulation.checkInput_screen]
  unfold setUartBuffer uartInterruptRaise at h
  obtain ⟨⟨p₁, m₁⟩, h₁, h⟩ := Except.bind_ok_iff.mp h
  obtain ⟨b, -, h₁⟩ := Except.bind_ok_iff.mp h₁
  obtain ⟨m₂, -, h₁⟩ := Except.bind_ok_iff.mp h₁
  obtain ⟨m₃, -, h₁⟩ := Except.bind_ok_iff.mp h₁
  cases h₁
  obtain ⟨m₄, -, h⟩ := Except.bind_ok_iff.mp h
  cases h
  obtain ⟨b, hb⟩ := translateKey_frame
    (p := { p with scrEmulation := some (scr.checkInput host).2.getKeyValue.2 }) (scr.checkInput host).2.getKeyValue.1
  rw [hb]
  simp [hscr, ScreenEmulation.getKeyValue, ScreenEmulation.checkInput_screen]

/-- The UART empties the transmitter. -/
theorem uartEmulation_printed (h : p.uartEmulation host m = .ok (p', m')) :
    p'.printed = p.printed ∧ p'.uartWrite = false := by
  obtain ⟨p₁, h₁, h⟩ := Except.bind_ok_iff.mp h
  obtain ⟨⟨p₂, m₂⟩, h₂, h⟩ := Except.bind_ok_iff.mp h
  obtain ⟨hprinted, hidle⟩ := uartTransmit_printed h₁
  obtain ⟨r, f, rfl⟩ := uartConsume_frame h₂
  have hscreen := uartReceive_screen h
  obtain ⟨f', i, b, scr, rfl⟩ := uartReceive_frame h
  refine ⟨?_, hidle⟩
  rw [printed_of_idle (by exact hidle), ← hprinted, printed_of_idle hidle]
  exact hscreen

theorem deviceEmulation_printed (he : p.deviceEmulationEnable = true) (h : p.deviceEmulation host m = .ok (p', m')) :
    p'.printed = p.printed ∧ p'.uartWrite = false ∧ p'.deviceEmulationEnable = true := by
  rw [deviceEmulation, if_pos he] at h
  obtain ⟨⟨p₁, m₁⟩, h₁, h⟩ := Except.bind_ok_iff.mp h
  obtain ⟨hprinted, hidle⟩ := uartEmulation_printed h₁
  obtain ⟨w, r, f, i, b, scr, rfl⟩ := uartEmulation_frame h₁
  obtain ⟨image, write, queueNum, interrupt, rfl⟩ := virtioEmulation_frame h
  exact ⟨hprinted, hidle, he⟩

theorem emulation_printed (he : p.deviceEmulationEnable = true) (h : p.emulation host m = .ok (p', m')) :
    p'.printed = p.printed ∧ p'.uartWrite = false ∧ p'.deviceEmulationEnable = true := by
  unfold emulation at h
  split at h
  · obtain ⟨q, hq, h⟩ := Except.bind_ok_iff.mp h
    obtain ⟨value, write, error, ending, output, hframe⟩ := hostEmulation_frame hq
    have hprinted : q.printed = p.printed := by
      rw [hframe]
      rfl
    rw [← hprinted]
    exact deviceEmulation_printed (by rw [hframe]; exact he) h
  · exact deviceEmulation_printed he h

/-! ## A store -/

/-- What the transmitter gets of a store that reaches it: the byte that is at
its address. -/
def sentByte (address data : BitVec 64) : BitVec 8 := byteOf data (kUartBase - address).toNat

theorem sentByte_eq (hw : width ≤ 8) (h : RiscvCpu.reachesUart address width = true) :
    ((data >>> ((kUartBase - address) * 8).toNat) &&& 0xFF).setWidth 8 = sentByte address data := by
  rw [RiscvCpu.reachesUart, decide_eq_true_eq] at h
  obtain ⟨hlt, hle⟩ := h
  have hbase : kUartBase.toNat = 0x10000000 := rfl
  have hoffset : (kUartBase - address).toNat < 8 := by bv_omega
  have hshift : ((kUartBase - address) * 8).toNat = 8 * (kUartBase - address).toNat := by bv_omega
  rw [hshift, sentByte]
  refine BitVec.eq_of_getLsbD_eq fun i hi => ?_
  have hmask : (0xFF : BitVec 64).getLsbD i = true := by
    have hall : ∀ i : Fin 8, (0xFF : BitVec 64).getLsbD i = true := by decide
    exact hall ⟨i, hi⟩
  rw [BitVec.getLsbD_setWidth, BitVec.getLsbD_and, hmask, Bool.and_true, BitVec.getLsbD_ushiftRight,
    Bytes.getLsbD_byteOf]

theorem checkDeviceWrite_printed (hw : width ≤ 8) (hidle : p.uartWrite = false) :
    (p.checkDeviceWrite address width data).printed =
      if RiscvCpu.reachesUart address width then p.printed.map (sentByte address data :: ·) else p.printed := by
  rw [printed_of_idle hidle]
  cases hreach : RiscvCpu.reachesUart address width with
  | true =>
    rw [if_pos rfl, ← sentByte_eq hw hreach]
    have h := of_decide_eq_true hreach
    unfold checkDeviceWrite
    dsimp only
    rw [if_pos h]
    generalize ((data >>> ((kUartBase - address) * 8).toNat) &&& 0xFF).setWidth 8 = sent
    split_ifs <;> simp [printed, Function.comp_def]
  | false =>
    rw [if_neg (by decide)]
    have h := of_decide_eq_false hreach
    unfold checkDeviceWrite
    dsimp only
    rw [if_neg h]
    split_ifs <;> simp [printed, hidle]

theorem checkDeviceWrite_enable :
    (p.checkDeviceWrite address width data).deviceEmulationEnable = p.deviceEmulationEnable := by
  unfold checkDeviceWrite
  dsimp only
  split_ifs <;> rfl

theorem checkDeviceRead_printed : (p.checkDeviceRead address width).printed = p.printed ∧
    (p.checkDeviceRead address width).deviceEmulationEnable = p.deviceEmulationEnable := by
  unfold checkDeviceRead
  split <;> exact ⟨rfl, rfl⟩

end PeripheralEmulator

namespace RiscvCpu

open PeripheralEmulator (sentByte checkDeviceWrite_printed checkDeviceWrite_enable checkDeviceRead_printed)

variable {c c' : RiscvCpu} {host : Host} {d : Decoded}

/-! ## A round and the screen -/

/-- The character that an instruction leaves in the transmitter. -/
def transmits (c : RiscvCpu) (d : Decoded) : Option (BitVec 8) :=
  match (c.footprint d).reported with
  | some (a, w) => if reachesUart a w then some (sentByte a (c.reg d.rs2)) else none
  | none => none

theorem transmits_none (h : (c.footprint d).reported = none) : c.transmits d = none := by simp [transmits, h]

theorem execute_printed {csr : BitVec 12} (hidle : c.peripheral.uartWrite = false)
    (h : c.execute host d csr = .ok c') :
    c'.peripheral.printed = c.peripheral.printed.map ((c.transmits d).toList ++ ·) ∧
      c'.peripheral.deviceEmulationEnable = c.peripheral.deviceEmulationEnable := by
  have hnothing : c.peripheral.printed = c.peripheral.printed.map (([] : List (BitVec 8)) ++ ·) := by simp
  cases hs : isStore d.instruction with
  | true =>
    rw [execute_store hs] at h
    obtain ⟨f, hf, ⟨hr, hp⟩ | ⟨a, w, hw, hr, hp⟩⟩ := storeInstruction_writes h
    · rw [← footprint_store hs hf] at hr
      rw [hp, transmits_none hr]
      exact ⟨hnothing, rfl⟩
    · rw [← footprint_store hs hf] at hr
      refine ⟨?_, by rw [hp, checkDeviceWrite_enable]⟩
      rw [hp, checkDeviceWrite_printed hw hidle, transmits, hr]
      dsimp only
      split
      · rfl
      · exact hnothing
  | false =>
    have hr := footprint_reported (c := c) hs
    rw [transmits_none hr]
    have hreports := execute_reports h
    rw [hr] at hreports
    cases hreports with
    | quiet hp =>
      rw [hp]
      exact ⟨hnothing, rfl⟩
    | read a w hp =>
      rw [hp, checkDeviceRead_printed.1, checkDeviceRead_printed.2]
      exact ⟨hnothing, rfl⟩

/-- The character that a round sends. -/
def sent (c : RiscvCpu) : Option (BitVec 8) :=
  match c.inFlight with
  | some c₂ => c₂.decodeStage.transmits (decode c₂.ir c₂.mxl)
  | none => none

theorem finishStage_printed (hd : c.devicesRun = true) (h : c.finishStage host = .ok c') :
    c'.peripheral.printed = c.peripheral.printed ∧ c'.peripheral.uartWrite = false ∧
      c'.peripheral.deviceEmulationEnable = true := by
  obtain ⟨hen, he⟩ := (Bool.and_eq_true _ _).mp hd
  obtain ⟨e, -, h⟩ := finishStage_cases h
  rw [if_pos hen] at h
  obtain ⟨⟨p, m⟩, hrun, h⟩ := Except.bind_ok_iff.mp h
  obtain ⟨hprinted, hidle, he'⟩ := PeripheralEmulator.emulation_printed (p := c.peripheral) he hrun
  rw [← hprinted]
  cases h
  unfold takeUartBreak takeUartInterrupt takeVirtioInterrupt takeHostEnd
  split_ifs <;> exact ⟨rfl, hidle, he'⟩

/-- Where the transmitter stands between two rounds: empty, and what it has
had is on the screen. -/
structure Printed (first : List (BitVec 8)) (s : RiscvCpu × List (BitVec 8)) : Prop where
  devicesRun : s.1.devicesRun = true
  idle : s.1.peripheral.uartWrite = false
  printed : s.1.peripheral.printed = some (s.2 ++ first)

/-- The rounds of the loop, with what they send, the last character first. -/
def screenStep : Host → RiscvCpu × List (BitVec 8) → Except Crash (RiscvCpu × List (BitVec 8)) :=
  Run.noted step fun _ c log => c.sent.toList ++ log

/-- What the guest's part of a round does to it. -/
theorem guestStage_printed {r : Bool × RiscvCpu} (hidle : c.peripheral.uartWrite = false)
    (h : c.guestStage host = .ok r) :
    r.2.peripheral.printed = c.peripheral.printed.map (c.sent.toList ++ ·) ∧
      r.2.peripheral.deviceEmulationEnable = c.peripheral.deviceEmulationEnable ∧
      (r.1 = true → r.2.peripheral.uartWrite = false) := by
  have hticked : c.ticked.printed = c.peripheral.printed ∧ c.ticked.uartWrite = false ∧
      c.ticked.deviceEmulationEnable = c.peripheral.deviceEmulationEnable := ⟨rfl, hidle, rfl⟩
  obtain ⟨hprinted, hidle', he⟩ := hticked
  rcases guestStage_cases h with ⟨htrap, hnone, hp⟩ | ⟨hexec, c₂, hsome, hp, hx⟩
  · rw [hp, hprinted, sent, hnone]
    exact ⟨by simp, he, fun _ => hidle'⟩
  · have hquiet : c₂.decodeStage.peripheral = c.ticked := hp
    obtain ⟨hp', he'⟩ := execute_printed (by rw [hquiet]; exact hidle') hx
    rw [hp', he', hquiet, hprinted, sent, hsome]
    exact ⟨rfl, he, fun ht => absurd (hexec.symm.trans ht) (by decide)⟩

/-- The settings say whether the devices run. -/
theorem devicesRun_of_settings (h : c'.settings = c.settings) (he : c'.peripheral.deviceEmulationEnable = true)
    (hd : c.devicesRun = true) : c'.devicesRun = true := by
  have hen : (c'.hostEmulation || c'.peripheralEmulation) = (c.hostEmulation || c.peripheralEmulation) :=
    congrArg (fun s : Settings => s.hostEmulation || s.peripheralEmulation) h
  obtain ⟨hrun, -⟩ := (Bool.and_eq_true _ _).mp hd
  rw [devicesRun, hen, hrun, he]
  rfl

theorem printed_step {first : List (BitVec 8)} {s t : RiscvCpu × List (BitVec 8)} (hs : Printed first s)
    (h : screenStep host s = .ok t) : Printed first t := by
  obtain ⟨hstep, hlog⟩ := Run.noted_ok_iff.mp h
  have hsettings := step_settings hstep
  obtain ⟨-, he⟩ := (Bool.and_eq_true _ _).mp hs.devicesRun
  rw [step_guestStage] at hstep
  obtain ⟨⟨trapped, c₁⟩, hg, hstep⟩ := Except.bind_ok_iff.mp hstep
  obtain ⟨hprinted, he₁, hidle₁⟩ := guestStage_printed hs.idle hg
  rw [he] at he₁
  have hlogged : c₁.peripheral.printed = some (t.2 ++ first) := by
    rw [hprinted, hs.printed, hlog, Option.map_some, List.append_assoc]
  cases trapped with
  | true =>
    cases hstep
    exact ⟨devicesRun_of_settings hsettings he₁ hs.devicesRun, hidle₁ rfl, hlogged⟩
  | false =>
    obtain ⟨p, m, -, -, hfin⟩ := finishStage_ok hstep
    have hkept : t.1.settings = c₁.settings := settings_of_control (c := c₁) hfin.control
    have hd₁ : c₁.devicesRun = true := devicesRun_of_settings (hkept.symm.trans hsettings) he₁ hs.devicesRun
    obtain ⟨hprinted', hidle, he'⟩ := finishStage_printed hd₁ hstep
    exact ⟨devicesRun_of_settings hsettings he' hs.devicesRun, hidle, hprinted'.trans hlogged⟩

/-- **The screen.** While the devices run, the screen has the characters that
the stores of the run have sent, the last one first, before those it had. -/
theorem screen_run (c : RiscvCpu) (scr : ScreenEmulation) (hd : c.devicesRun = true)
    (hidle : c.peripheral.uartWrite = false) (hscr : c.peripheral.scrEmulation = some scr)
    (t : RiscvCpu × List (BitVec 8)) (h : Run.Steps screenStep (fun _ _ => True) (c, []) t) :
    t.1.peripheral.scrEmulation.map (·.screen) = some (t.2 ++ scr.screen) := by
  have hstart : Printed scr.screen (c, []) := by
    refine ⟨hd, hidle, ?_⟩
    rw [PeripheralEmulator.printed_of_idle hidle, hscr]
    rfl
  have hend : Printed scr.screen t := Run.Steps.invariant (fun _ _ _ hs _ hst => printed_step hs hst) h hstart
  rw [← PeripheralEmulator.printed_of_idle hend.idle]
  exact hend.printed

/-- A byte stored at the transmitter. -/
theorem screen_run_store : ∃ t, Run.Steps screenStep (fun _ _ => True) (keyGuest 0x00208023, []) (t, [98]) ∧
    t.peripheral.scrEmulation.map (·.screen) = some [98] := by
  have h₁ : screenStep .failing (keyGuest 0x00208023, []) = .ok ((keyGuest 0x00208023).nextQuiet, []) :=
    Run.noted_ok_iff.mpr ⟨Except.eq_ok_getD (by decide +kernel) (keyGuest 0x00208023), by decide +kernel⟩
  have h₂ : screenStep .failing ((keyGuest 0x00208023).nextQuiet, []) =
      .ok ((keyGuest 0x00208023).nextQuiet.nextQuiet, [98]) :=
    Run.noted_ok_iff.mpr ⟨Except.eq_ok_getD (by decide +kernel) (keyGuest 0x00208023).nextQuiet, by decide +kernel⟩
  have hrun : Run.Steps screenStep (fun _ _ => True) (keyGuest 0x00208023, [])
      ((keyGuest 0x00208023).nextQuiet.nextQuiet, [98]) := .tail (.tail .refl trivial h₁) trivial h₂
  exact ⟨_, hrun, screen_run _ { counter := 999 } rfl rfl rfl _ hrun⟩

end RiscvCpu

end RiscvEmulator
