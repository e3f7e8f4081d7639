/-
The word a program stores to `tohost`.

`HostOutcome` is what a payload means by its three fields. `HostEmulation`
takes eighteen bits for the eight of the command, the device's among them,
so a command of device 1 is never 1: `tohost_iff` says that a character is
the one thing it gets wrong, and nothing else.
-/
import RiscvEmulator.RoundFacts

namespace RiscvEmulator

open MemoryWrapper (flat)

/-! ## What a payload means -/

def tohostDevice (payload : BitVec 64) : BitVec 8 := payload.extractLsb' 56 8
def tohostCommand (payload : BitVec 64) : BitVec 8 := payload.extractLsb' 48 8
def tohostData (payload : BitVec 64) : BitVec 48 := payload.extractLsb' 0 48

inductive HostOutcome where
  /-- The run ends with a value in A0. -/
  | ends (value : BitVec 64)
  /-- A character is put on standard output. -/
  | outputs (character : BitVec 8)
  /-- The run ends with an error. -/
  | fails
  | goesOn

def tohostOutcome (payload : BitVec 64) : HostOutcome :=
  if tohostDevice payload = 0 then
    if tohostCommand payload = 0 then
      if (tohostData payload).getLsbD 0 then .ends ((tohostData payload).setWidth 64 >>> 1) else .goesOn
    else .fails
  else if tohostDevice payload = 1 ∧ tohostCommand payload = 1 then .outputs ((tohostData payload).setWidth 8)
  else .goesOn

/-- The payload's bits from the command's up are those of the command with
the device's above them. -/
theorem command_eq (payload : BitVec 64) : ((payload >>> 48) &&& 0x3FFFF).setWidth 32 =
    (tohostDevice payload).setWidth 32 <<< 8 ||| (tohostCommand payload).setWidth 32 := by
  apply BitVec.eq_of_getLsbD_eq
  intro i hi
  rw [BitVec.getLsbD_setWidth, show (0x3FFFF : BitVec 64) = Bits.ones 64 18 from rfl, Bits.getLsbD_and_ones,
    BitVec.getLsbD_ushiftRight, BitVec.getLsbD_or, BitVec.getLsbD_shiftLeft, BitVec.getLsbD_setWidth,
    BitVec.getLsbD_setWidth, tohostDevice, tohostCommand, BitVec.getLsbD_extractLsb', BitVec.getLsbD_extractLsb']
  by_cases h8 : i < 8
  · simp [h8, hi, show i < 18 by omega]
  · by_cases h16 : i < 16
    · simp [h8, hi, show i < 18 by omega, show i - 8 < 32 by omega, show i - 8 < 8 by omega,
        show 56 + (i - 8) = 48 + i by omega]
    · simp [h8, show ¬ i - 8 < 8 by omega, BitVec.getLsbD_of_ge payload (48 + i) (by omega)]

theorem device_eq (payload : BitVec 64) : ((payload >>> 56) &&& 0xFF).setWidth 8 = tohostDevice payload := by
  apply BitVec.eq_of_getLsbD_eq
  intro i hi
  rw [BitVec.getLsbD_setWidth, show (0xFF : BitVec 64) = Bits.ones 64 8 from rfl, Bits.getLsbD_and_ones,
    BitVec.getLsbD_ushiftRight, tohostDevice, BitVec.getLsbD_extractLsb']
  simp [hi]

/-- For device 0 the command is its own eight bits, -/
theorem command_zero_iff {payload : BitVec 64} (h : tohostDevice payload = 0) :
    (((payload >>> 48) &&& 0x3FFFF).setWidth 32 : BitVec 32) = 0 ↔ tohostCommand payload = 0 := by
  rw [command_eq, h]
  generalize tohostCommand payload = command
  revert command
  decide

/-- and for device 1 it is never 1. -/
theorem command_ne_one {payload : BitVec 64} (h : tohostDevice payload = 1) :
    (((payload >>> 48) &&& 0x3FFFF).setWidth 32 : BitVec 32) ≠ 1 := by
  rw [command_eq, h]
  generalize tohostCommand payload = command
  revert command
  decide

theorem data_eq (payload : BitVec 64) : payload &&& 0xFFFFFFFFFFFF = (tohostData payload).setWidth 64 := by
  apply BitVec.eq_of_getLsbD_eq
  intro i hi
  rw [show (0xFFFFFFFFFFFF : BitVec 64) = Bits.ones 64 48 from rfl, Bits.getLsbD_and_ones, BitVec.getLsbD_setWidth,
    tohostData, BitVec.getLsbD_extractLsb']
  by_cases h : i < 48 <;> simp [h, hi]

/-! ## What the interface does -/

namespace PeripheralEmulator

/-- The interface when a payload has been taken for an outcome. -/
def afterOutcome (p : PeripheralEmulator) : HostOutcome → PeripheralEmulator
  | .ends value => { p with hostValue := value, endFlag := true, hostWrite := 0 }
  | .outputs character => { p with hostOutput := character :: p.hostOutput, endFlag := false, hostWrite := 0 }
  | .fails => { p with errorFlag := true, endFlag := true, hostWrite := 0 }
  | .goesOn => { p with endFlag := false, hostWrite := 0 }

/-- A character is put out, as the payload's fields say it. -/
def isCharacter (payload : BitVec 64) : Prop := tohostDevice payload = 1 ∧ tohostCommand payload = 1

instance (payload : BitVec 64) : Decidable (isCharacter payload) := inferInstanceAs (Decidable (_ ∧ _))

/-- The outcome `HostEmulation` takes a payload for. -/
def takenOutcome (payload : BitVec 64) : HostOutcome := if isCharacter payload then .goesOn else tohostOutcome payload

/-- A store to the first port is what starts it. -/
theorem checkDeviceWrite_tohost {p : PeripheralEmulator} (hm : p.mxl ≠ 1) (hw : p.hostWrite = 0) (w : Nat)
    (data : BitVec 64) : (p.checkDeviceWrite kToHost0 w data).hostWrite = 1 := by
  unfold checkDeviceWrite
  dsimp only
  rw [if_neg hm, hw]
  split <;> split <;> split <;> rfl

theorem hostEmulation_taken {p : PeripheralEmulator} {m : MemoryWrapper} {payload : BitVec 64} (hm : p.mxl ≠ 1)
    (hw : p.hostWrite = 1) (hword : Bytes.load 64 m.bytes (flat kToHost0) 8 = payload) :
    p.hostEmulation m = .ok (p.afterOutcome (takenOutcome payload)) := by
  have hread : p.readToHost0 m =
      .ok (payload, tohostDevice payload, ((payload >>> 48) &&& 0x3FFFF).setWidth 32) := by
    rw [readToHost0, if_neg hm, m.read64_eq (by decide), hword, Except.ok_bind, device_eq]
    rfl
  have hodd := Bits.and_one_ne_zero ((tohostData payload).setWidth 64)
  rw [BitVec.getLsbD_setWidth] at hodd
  unfold hostEmulation
  rw [if_neg (by rw [hw]; decide), if_neg (by rw [hw]; decide)]
  have hread' : ({ p with endFlag := false } : PeripheralEmulator).readToHost0 m = p.readToHost0 m := rfl
  dsimp only
  rw [hread', hread, Except.ok_bind]
  dsimp only
  by_cases hd : tohostDevice payload = 0
  · have hne : ¬ isCharacter payload := by
      rintro ⟨h1, -⟩
      rw [hd] at h1
      exact absurd h1 (by decide)
    rw [takenOutcome, if_neg hne, tohostOutcome, if_pos hd, if_pos hd]
    by_cases hc : tohostCommand payload = 0
    · rw [if_pos ((command_zero_iff hd).mpr hc), if_pos hc, data_eq]
      by_cases ho : (tohostData payload).setWidth 64 &&& 1 = 0
      · rw [if_pos ho, if_neg fun h => hodd.mpr (by simpa using h) ho]
        rfl
      · rw [if_neg ho, if_pos (by simpa using hodd.mp ho)]
        rfl
    · rw [if_neg fun h => hc ((command_zero_iff hd).mp h), if_neg hc]
      rfl
  · rw [if_neg hd]
    have hout : takenOutcome payload = .goesOn := by
      rw [takenOutcome]
      by_cases hch : isCharacter payload
      · rw [if_pos hch]
      · rw [if_neg hch, tohostOutcome, if_neg hd]
        exact if_neg hch
    rw [hout]
    by_cases h1 : tohostDevice payload = 1
    · rw [if_pos h1, if_neg (command_ne_one h1)]
      rfl
    · rw [if_neg h1]
      rfl

end PeripheralEmulator

namespace RiscvCpu

open PeripheralEmulator (isCharacter kToHost0)

variable {c c' : RiscvCpu} {host : Host}

/-- What the end of a round should be for an outcome. A key that breaks the
run ends it all the same. -/
def Meets (c c' : RiscvCpu) : HostOutcome → Prop
  | .ends value => c'.endFlag = true ∧ c'.errorFlag = (c.errorFlag || c.peripheral.errorFlag) ∧ c'.reg a0 = value ∧
      c'.peripheral.hostOutput = c.peripheral.hostOutput
  | .outputs character => c'.endFlag = (c.endFlag || c'.peripheral.uartBreak) ∧ c'.errorFlag = c.errorFlag ∧
      c'.peripheral.hostOutput = character :: c.peripheral.hostOutput
  | .fails => c'.endFlag = true ∧ c'.errorFlag = true ∧ c'.peripheral.hostOutput = c.peripheral.hostOutput
  | .goesOn => c'.endFlag = (c.endFlag || c'.peripheral.uartBreak) ∧ c'.errorFlag = c.errorFlag ∧
      c'.peripheral.hostOutput = c.peripheral.hostOutput

theorem takeHostEnd_host (c : RiscvCpu) : c.takeHostEnd.endFlag = (c.endFlag || c.peripheral.endFlag) ∧
    c.takeHostEnd.errorFlag = (c.errorFlag || (c.peripheral.endFlag && c.peripheral.errorFlag)) ∧
    (c.peripheral.endFlag = true → c.takeHostEnd.reg a0 = c.peripheral.hostValue) ∧
    c.takeHostEnd.peripheral = c.peripheral := by
  unfold takeHostEnd
  split
  · next he =>
    rw [he, Bool.or_true, Bool.true_and]
    exact ⟨rfl, rfl, fun _ => setReg_same c a0 _, rfl⟩
  · next he =>
    rw [Bool.not_eq_true] at he
    rw [he, Bool.or_false, Bool.false_and, Bool.or_false]
    exact ⟨rfl, rfl, fun h => absurd h Bool.false_ne_true, rfl⟩

/-- What the interrupts leave as it is. -/
structure HostSame (c c' : RiscvCpu) : Prop where
  endFlag : c'.endFlag = c.endFlag
  errorFlag : c'.errorFlag = c.errorFlag
  reg : c'.reg = c.reg
  output : c'.peripheral.hostOutput = c.peripheral.hostOutput
  uartBreak : c'.peripheral.uartBreak = c.peripheral.uartBreak

theorem HostSame.trans {c₁ c₂ c₃ : RiscvCpu} (h : HostSame c₁ c₂) (h' : HostSame c₂ c₃) : HostSame c₁ c₃ :=
  ⟨h'.endFlag.trans h.endFlag, h'.errorFlag.trans h.errorFlag, h'.reg.trans h.reg, h'.output.trans h.output,
    h'.uartBreak.trans h.uartBreak⟩

theorem takeVirtioInterrupt_host (c : RiscvCpu) : HostSame c c.takeVirtioInterrupt := by
  unfold takeVirtioInterrupt
  split <;> exact ⟨rfl, rfl, rfl, rfl, rfl⟩

theorem takeUartInterrupt_host (c : RiscvCpu) : HostSame c c.takeUartInterrupt := by
  unfold takeUartInterrupt
  split <;> exact ⟨rfl, rfl, rfl, rfl, rfl⟩

theorem takeUartBreak_host (c : RiscvCpu) : c.takeUartBreak.endFlag = (c.endFlag || c.peripheral.uartBreak) ∧
    c.takeUartBreak.errorFlag = c.errorFlag ∧ c.takeUartBreak.reg = c.reg ∧
      c.takeUartBreak.peripheral = c.peripheral := by
  unfold takeUartBreak
  split
  · next hb =>
    rw [hb, Bool.or_true]
    exact ⟨rfl, rfl, rfl, rfl⟩
  · next hb =>
    rw [Bool.not_eq_true] at hb
    rw [hb, Bool.or_false]
    exact ⟨rfl, rfl, rfl, rfl⟩

/-- What the processor takes over from the interface. -/
theorem peripheralEmulations_host {p : PeripheralEmulator} (he : c.peripheral.hostEmulationEnable = true)
    (hp : c.peripheral.hostEmulation c.memory = .ok p) (h : c.peripheralEmulations host = .ok c') :
    c'.endFlag = (c.endFlag || p.endFlag || c'.peripheral.uartBreak) ∧
      c'.errorFlag = (c.errorFlag || (p.endFlag && p.errorFlag)) ∧ (p.endFlag = true → c'.reg a0 = p.hostValue) ∧
      c'.peripheral.hostOutput = p.hostOutput := by
  obtain ⟨⟨q, m⟩, hq, h⟩ := Except.bind_ok_iff.mp h
  rw [PeripheralEmulator.emulation, if_pos he, hp, Except.ok_bind] at hq
  have haside := PeripheralEmulator.deviceEmulation_aside hq
  have hend : q.endFlag = p.endFlag := (congrArg PeripheralEmulator.endFlag haside :)
  have herror : q.errorFlag = p.errorFlag := (congrArg PeripheralEmulator.errorFlag haside :)
  have hvalue : q.hostValue = p.hostValue := (congrArg PeripheralEmulator.hostValue haside :)
  have houtput : q.hostOutput = p.hostOutput := (congrArg PeripheralEmulator.hostOutput haside :)
  cases h
  rw [← hend, ← herror, ← hvalue, ← houtput]
  obtain ⟨h₁, h₂, h₃, h₄⟩ := takeHostEnd_host { c with peripheral := q, memory := m }
  generalize { c with peripheral := q, memory := m }.takeHostEnd = c₁ at h₁ h₂ h₃ h₄
  have hsame := (takeVirtioInterrupt_host c₁).trans (takeUartInterrupt_host c₁.takeVirtioInterrupt)
  generalize c₁.takeVirtioInterrupt.takeUartInterrupt = c₂ at hsame
  obtain ⟨k₁, k₂, k₃, k₄⟩ := takeUartBreak_host c₂
  refine ⟨?_, ?_, fun hq => ?_, ?_⟩
  · rw [k₁, k₄, hsame.endFlag, h₁]
  · rw [k₂, hsame.errorFlag, h₂]
  · rw [k₃, hsame.reg]
    exact h₃ hq
  · rw [k₄, hsame.output, h₄]

/-- **The tohost word.** In 64-bit mode with host emulation, the round after
a store to the first port comes out as the payload's fields say if and only
if they do not say that a character is put out. -/
theorem tohost_iff (c : RiscvCpu) (host : Host) (payload : BitVec 64) (hm : c.peripheral.mxl = 2)
    (he : c.peripheral.hostEmulationEnable = true) (hw : c.peripheral.hostWrite = 1)
    (hword : Bytes.load 64 c.memory.bytes (flat kToHost0) 8 = payload) :
    (∃ p, c.peripheral.hostEmulation c.memory = .ok p) ∧
      ∀ c', c.peripheralEmulations host = .ok c' → (Meets c c' (tohostOutcome payload) ↔ ¬ isCharacter payload) := by
  have hp := PeripheralEmulator.hostEmulation_taken (by rw [hm]; decide) hw hword
  refine ⟨⟨_, hp⟩, fun c' h => ?_⟩
  obtain ⟨hend, herror, hvalue, houtput⟩ := peripheralEmulations_host he hp h
  by_cases hch : isCharacter payload
  · have hout : tohostOutcome payload = .outputs ((tohostData payload).setWidth 8) := by
      have hne : tohostDevice payload ≠ 0 := by
        rw [hch.1]
        decide
      rw [tohostOutcome, if_neg hne]
      exact if_pos hch
    rw [PeripheralEmulator.takenOutcome, if_pos hch] at houtput
    rw [hout]
    refine ⟨fun hmeets => ?_, fun hn => absurd hch hn⟩
    have hcons := hmeets.2.2.symm.trans houtput
    exact absurd (congrArg List.length hcons) (by simp [PeripheralEmulator.afterOutcome])
  · rw [PeripheralEmulator.takenOutcome, if_neg hch] at hend herror hvalue houtput
    refine ⟨fun _ => hch, fun _ => ?_⟩
    cases hout : tohostOutcome payload with
    | ends value =>
      rw [hout] at hend herror hvalue houtput
      simp only [PeripheralEmulator.afterOutcome, Bool.or_true, Bool.true_or, Bool.true_and]
        at hend herror hvalue houtput
      exact ⟨hend, herror, hvalue trivial, houtput⟩
    | outputs character =>
      rw [hout] at hend herror houtput
      simp only [PeripheralEmulator.afterOutcome, Bool.or_false, Bool.false_and] at hend herror houtput
      exact ⟨hend, herror, houtput⟩
    | fails =>
      rw [hout] at hend herror houtput
      simp only [PeripheralEmulator.afterOutcome, Bool.or_true, Bool.true_or, Bool.true_and] at hend herror houtput
      exact ⟨hend, herror, houtput⟩
    | goesOn =>
      rw [hout] at hend herror houtput
      simp only [PeripheralEmulator.afterOutcome, Bool.or_false, Bool.false_and] at hend herror houtput
      exact ⟨hend, herror, houtput⟩

/-- A program has just stored a payload. -/
def tohostStored (payload : BitVec 64) : RiscvCpu :=
  { new true 0 with
    memory := ((MemoryWrapper.new.assign 0x800).setWord 0x800 0x400 (payload.setWidth 32)).setWord 0x800 0x401
      ((payload >>> 32).setWidth 32)
    peripheral := { PeripheralEmulator.new 2 with hostEmulationEnable := true, hostWrite := 1 } }

/-- The end of its round. -/
def tohostServed (payload : BitVec 64) : RiscvCpu :=
  ((tohostStored payload).peripheralEmulations .failing).toOption.getD (tohostStored payload)

/-- It has passed its tests: the result is 3. -/
theorem tohost_iff_ends : Meets (tohostStored 7) (tohostServed 7) (.ends 3) := by
  have hrun : (tohostStored 7).peripheralEmulations .failing = .ok (tohostServed 7) :=
    Except.eq_ok_getD (by decide) _
  exact ((tohost_iff (tohostStored 7) .failing 7 rfl rfl rfl (by decide)).2 _ hrun).mpr (by decide)

/-- It prints `A`, and nothing is put out. -/
theorem tohost_iff_silent : tohostOutcome 0x0101000000000041 = .outputs 0x41 ∧
    (tohostStored 0x0101000000000041).peripheralEmulations .failing = .ok (tohostServed 0x0101000000000041) ∧
      (tohostServed 0x0101000000000041).peripheral.hostOutput = [] ∧
      ¬ Meets (tohostStored 0x0101000000000041) (tohostServed 0x0101000000000041)
        (tohostOutcome 0x0101000000000041) := by
  have hout : tohostOutcome 0x0101000000000041 = .outputs 0x41 := by rfl
  have hnone : (tohostServed 0x0101000000000041).peripheral.hostOutput = [] := by decide
  refine ⟨hout, Except.eq_ok_getD (by decide) _, hnone, ?_⟩
  rw [hout]
  rintro ⟨-, -, h⟩
  rw [hnone] at h
  cases h

end RiscvCpu

end RiscvEmulator
