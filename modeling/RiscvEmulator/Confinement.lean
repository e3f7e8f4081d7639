/-
What a guest can change under address translation.

`Isolated` says that no entry of the table is in reach, and no register of
the disk. Then a run that keeps to the regime changes no byte out of reach,
but for the A and D bits of leaf entries, and no translation
(`confined_run`), however the stores are cut and whatever traps are taken.
The atomic operations look at no page fault and are not cut, so they have to
be mapped and on one page (`AmoOnPage`).
-/
import RiscvEmulator.FaultFacts
import RiscvEmulator.Guest
import RiscvEmulator.UartFacts

namespace RiscvEmulator

open Bytes (Area InArea Traced)
open MemoryWrapper (flat writeByte_frame write32_frame write64_frame)

namespace Regime

/-- The entries are out of reach, and the registers of the disk are not mapped. -/
structure Isolated (R : Regime) (s : Bytes.Store 32) : Prop where
  entries : R.Apart s
  disk : ∀ va t, R.translate s va = some t →
    t.address < PeripheralEmulator.kVirtioBase ∨ PeripheralEmulator.kVirtioEnd < t.address

end Regime

/-! ## The devices -/

namespace PeripheralEmulator

variable {R : Regime} {s : Bytes.Store 32} {p p' : PeripheralEmulator} {m m' : MemoryWrapper} {host : Host}

theorem clearUartBuffer_confined (hc : R.Confined s m.bytes) (hi : R.Isolated s)
    (h : p.clearUartBuffer m = .ok (p', m')) : R.Confined s m'.bytes := by
  obtain ⟨b, -, h⟩ := Except.bind_ok_iff.mp h
  obtain ⟨m₁, h₁, h⟩ := Except.bind_ok_iff.mp h
  cases h
  exact hc.own hi.entries (by simp [ownAreas]) (writeByte_frame h₁)

theorem setUartBuffer_confined {key : BitVec 32} (hc : R.Confined s m.bytes) (hi : R.Isolated s)
    (h : p.setUartBuffer m key = .ok (p', m')) : R.Confined s m'.bytes := by
  obtain ⟨b, -, h⟩ := Except.bind_ok_iff.mp h
  obtain ⟨m₁, h₁, h⟩ := Except.bind_ok_iff.mp h
  obtain ⟨m₂, h₂, h⟩ := Except.bind_ok_iff.mp h
  cases h
  have hc₁ := hc.own hi.entries (by simp [ownAreas]) (writeByte_frame h₁)
  exact hc₁.own hi.entries (by simp [ownAreas]) (writeByte_frame h₂)

theorem uartReceive_confined (hc : R.Confined s m.bytes) (hi : R.Isolated s)
    (h : p.uartReceive host m = .ok (p', m')) : R.Confined s m'.bytes := by
  unfold uartReceive at h
  split at h
  · cases h
    exact hc
  split at h
  · cases h
  dsimp only at h
  split at h
  · cases h
    exact hc
  obtain ⟨⟨p₁, m₁⟩, h₁, h⟩ := Except.bind_ok_iff.mp h
  obtain ⟨m₂, h₂, h⟩ := Except.bind_ok_iff.mp h
  cases h
  exact (setUartBuffer_confined hc hi h₁).own hi.entries (by simp [ownAreas]) (write32_frame h₂)

theorem uartEmulation_confined (hc : R.Confined s m.bytes) (hi : R.Isolated s)
    (h : p.uartEmulation host m = .ok (p', m')) : R.Confined s m'.bytes := by
  obtain ⟨p₁, -, h⟩ := Except.bind_ok_iff.mp h
  obtain ⟨⟨p₂, m₂⟩, h₂, h⟩ := Except.bind_ok_iff.mp h
  refine uartReceive_confined ?_ hi h
  unfold uartConsume at h₂
  split at h₂
  · obtain ⟨⟨p₃, m₃⟩, h₃, h₂⟩ := Except.bind_ok_iff.mp h₂
    cases h₂
    exact clearUartBuffer_confined hc hi h₃
  · cases h₂
    exact hc

/-- The disk when nothing is asked of it. -/
theorem virtioEmulation_confined (hc : R.Confined s m.bytes) (hi : R.Isolated s) (hn : p.notified = false)
    (h : p.virtioEmulation m = .ok (p', m')) : R.Confined s m'.bytes ∧ p'.notified = false := by
  cases virtioEmulation_path h with
  | idle => exact ⟨hc, hn⟩
  | other _ _ select => exact ⟨hc.own hi.entries (by simp [ownAreas]) (queueSelect_frame select), rfl⟩
  | served _ notify => rw [notify] at hn; cases hn

theorem deviceEmulation_confined (hc : R.Confined s m.bytes) (hi : R.Isolated s) (hn : p.notified = false)
    (h : p.deviceEmulation host m = .ok (p', m')) : R.Confined s m'.bytes ∧ p'.notified = false := by
  unfold deviceEmulation at h
  split at h
  · obtain ⟨⟨p₁, m₁⟩, h₁, h⟩ := Except.bind_ok_iff.mp h
    exact virtioEmulation_confined (uartEmulation_confined hc hi h₁) hi ((uartEmulation_claim h₁).2.trans hn) h
  · cases h
    exact ⟨hc, hn⟩

theorem emulation_confined (hc : R.Confined s m.bytes) (hi : R.Isolated s) (hn : p.notified = false)
    (h : p.emulation host m = .ok (p', m')) : R.Confined s m'.bytes ∧ p'.notified = false := by
  unfold emulation at h
  split at h
  · obtain ⟨q, hq, h⟩ := Except.bind_ok_iff.mp h
    exact deviceEmulation_confined hc hi ((hostEmulation_devices host hq).2.2.trans hn) h
  · exact deviceEmulation_confined hc hi hn h

/-- A store that does not begin among the registers of the disk does not
notify it. -/
theorem notified_checkDeviceWrite {a data : BitVec 64} {w : Nat} (hw : w ≤ 8) (ha : a < kVirtioBase ∨ kVirtioEnd < a)
    (hn : p.notified = false) : (p.checkDeviceWrite a w data).notified = false := by
  have hbase : kVirtioBase.toNat = 0x10001000 := rfl
  have hend : kVirtioEnd.toNat = 0x100010FF := rfl
  have hnotify : kVirtioMmioQueueNotify.toNat = 0x10001050 := rfl
  have hadd : (a + BitVec.ofNat 64 w).toNat = (a.toNat + w) % 2 ^ 64 := by
    rw [BitVec.toNat_add, BitVec.toNat_ofNat]
    omega
  rw [BitVec.lt_def, BitVec.lt_def, hbase, hend] at ha
  have hout : kVirtioBase < a + BitVec.ofNat 64 w ∧ a ≤ kVirtioEnd →
      a + BitVec.ofNat 64 w ≤ kVirtioMmioQueueNotify := by
    rw [BitVec.lt_def, BitVec.le_def, BitVec.le_def, hadd, hbase, hend, hnotify]
    omega
  unfold checkDeviceWrite
  dsimp only
  split <;> split <;> split <;> simp_all [notified]

end PeripheralEmulator

namespace RiscvCpu

variable {c c' : RiscvCpu} {host : Host} {R : Regime} {s : Bytes.Store 32}

/-! ## Instructions -/

/-- The memory is confined, and nothing is asked of the disk. -/
structure Held (R : Regime) (s : Bytes.Store 32) (c : RiscvCpu) : Prop where
  memory : R.Confined s c.memory.bytes
  quiet : c.peripheral.notified = false

theorem Held.of_eq (h : Held R s c) (hm : c'.memory = c.memory) (hp : c'.peripheral = c.peripheral) : Held R s c' :=
  ⟨hm ▸ h.memory, hp ▸ h.quiet⟩

theorem Held.trap (h : Held R s c) (cause : Nat) (interrupt : Bool) : Held R s (c.trapBody cause interrupt) :=
  h.of_eq (congrArg Data.memory trapBody_data) trapBody_peripheral

theorem Held.translated {va pa : BitVec 64} {write : Bool} (h : Held R s c) (hR : c.regime = .ok R)
    (hv : c.virtualToPhysical va write = .ok (pa, c')) : Held R s c' ∧ c'.regime = .ok R ∧
      ((R.translate s va = none ∧ c'.pageFault = true) ∨ ∃ t, R.translate s va = some t ∧ pa = t.address) := by
  have hp := virtualToPhysical_peripheral hv
  cases ht : R.translate c.memory.bytes va with
  | none =>
    obtain ⟨c₁, hv₁, htr, hfault, -, hb, -⟩ := virtualToPhysical_none hR ht write
    cases hv.symm.trans hv₁
    rw [h.memory.translate] at ht
    exact ⟨⟨hb ▸ h.memory, hp ▸ h.quiet⟩, htr.regime.trans hR, .inl ⟨ht, hfault⟩⟩
  | some t =>
    obtain ⟨c₁, hv₁, htr, -, -, hb, -⟩ := virtualToPhysical_some hR ht write
    cases hv.symm.trans hv₁
    have hmark := h.memory.mark ht write
    rw [h.memory.translate] at ht
    exact ⟨⟨hb ▸ hmark, hp ▸ h.quiet⟩, htr.regime.trans hR, .inr ⟨t, ht, rfl⟩⟩

theorem notified_checkDeviceRead (p : PeripheralEmulator) (a : BitVec 64) (w : Nat) :
    (p.checkDeviceRead a w).notified = p.notified := by
  unfold PeripheralEmulator.checkDeviceRead
  split <;> rfl

theorem Held.load {i : Instruction} {rd rs1 : BitVec 5} {imm : BitVec 32} (h : Held R s c) (hR : c.regime = .ok R)
    (hi : R.Isolated s) (hl : c.loadInstruction i rd rs1 imm = .ok c') : Held R s c' := by
  have h₀ : ∀ {m}, c.peripheral.memoryMappedValueUpdate c.memory = .ok m → Held R s { c with memory := m } :=
    fun hm => ⟨h.memory.own hi.entries (by simp [PeripheralEmulator.ownAreas]) (write64_frame hm), h.quiet⟩
  cases loadInstruction_path hl with
  | fault clock first => exact ((h₀ clock).translated (hR :) first).1.trap _ _
  | whole clock first =>
    have h₁ := ((h₀ clock).translated (hR :) first).1
    exact ⟨h₁.memory, (notified_checkDeviceRead _ _ _).trans h₁.quiet⟩
  | secondFault clock first _ _ _ _ second =>
    obtain ⟨h₁, hR₁, -⟩ := (h₀ clock).translated (hR :) first
    exact (h₁.translated hR₁ second).1.trap _ _
  | cut clock first _ _ _ _ second =>
    obtain ⟨h₁, hR₁, -⟩ := (h₀ clock).translated (hR :) first
    have h₂ := (h₁.translated hR₁ second).1
    exact ⟨h₂.memory, (notified_checkDeviceRead _ _ _).trans h₂.quiet⟩

/-- The first part of a store is on one page: it ends at the end of its
doubleword at the latest. -/
theorem Held.firstPart {i : Instruction} {va pa v : BitVec 64} {m : MemoryWrapper} {w n : Nat} (h : Held R s c)
    (hR : c.regime = .ok R) (hi : R.Isolated s) (first : c.virtualToPhysical va true = .ok (pa, c'))
    (hf : c'.pageFault = false) (width : getStoreWidth i = .ok w) (part : getAccessWidth w va = n)
    (data : storeWd c'.memory pa v n = .ok m) :
    Held R s { c' with memory := m } ∧ { c' with memory := m }.regime = .ok R ∧
      ∀ {p : PeripheralEmulator} {x : BitVec 64},
        p.notified = false → (p.checkDeviceWrite pa w x).notified = false := by
  obtain ⟨h₁, hR₁, htr₁⟩ := h.translated hR first
  obtain ⟨t, ht, rfl⟩ := htr₁.resolve_left fun hn => Bool.eq_false_iff.mp hf hn.2
  have hwidth := getStoreWidth_ok width
  obtain ⟨hpos, hle⟩ := getAccessWidth_pos hwidth va
  have hcut := getAccessWidth_eq hwidth va
  have h8 := hwidth.bounds.2
  rw [part] at hpos hle hcut
  refine ⟨⟨?_, h₁.quiet⟩, hR₁, PeripheralEmulator.notified_checkDeviceWrite h8 (hi.disk _ _ ht)⟩
  exact h₁.memory.store hi.entries ht (w := n) (by split at hcut <;> omega) (storeWd_frame hpos (by omega) data)

/-- Each part of a store is on one page, and the first one is reported. -/
theorem Held.store {i : Instruction} {rs1 rs2 : BitVec 5} {imm : BitVec 32} (h : Held R s c) (hR : c.regime = .ok R)
    (hi : R.Isolated s) (hs : c.storeInstruction i rs1 rs2 imm = .ok c') : Held R s c' := by
  cases storeInstruction_path hs with
  | fault first => exact (h.translated hR first).1.trap _ _
  | whole first hf width part data =>
    obtain ⟨hm, -, hn⟩ := h.firstPart hR hi first hf width part data
    exact ⟨hm.memory, hn hm.quiet⟩
  | secondFault first hf width part data more second =>
    obtain ⟨hm, hRm, -⟩ := h.firstPart hR hi first hf width part data
    exact (hm.translated hRm second).1.trap _ _
  | @cut pa pa₂ c₁ c₂ m m₂ w n first hf width part data more second hf₂ high =>
    obtain ⟨hm, hRm, hn⟩ := h.firstPart hR hi first hf width part data
    obtain ⟨h₂, -, htr₂⟩ := hm.translated hRm second
    obtain ⟨t₂, ht₂, rfl⟩ := htr₂.resolve_left fun hn => Bool.eq_false_iff.mp hf₂ hn.2
    have hwidth := getStoreWidth_ok width
    have hcut := getAccessWidth_eq hwidth (c.reg rs1 + imm.signExtend 64)
    have h8 := hwidth.bounds.2
    rw [part] at hcut
    refine ⟨h₂.memory.store hi.entries ht₂ ?_ (storeWd_frame (by omega) (by omega) high), hn h₂.quiet⟩
    -- The second part begins a doubleword.
    rw [toNat_va_add]
    split at hcut <;> omega

/-- The address of an atomic operation is translated and its bytes are on one
page. -/
def AmoOnPage (R : Regime) (c : RiscvCpu) (d : Decoded) : Prop :=
  isAmo d.instruction = true → (R.translate c.memory.bytes (c.reg d.rs1)).isSome = true ∧
    (c.reg d.rs1).toNat % 2 ^ 12 + (if isAmoDoubleword d.instruction then 8 else 4) ≤ 2 ^ 12

theorem Held.amo {d : Decoded} (h : Held R s c) (hR : c.regime = .ok R) (hi : R.Isolated s)
    (hd : isAmo d.instruction = true) (hpage : AmoOnPage R c d)
    (ha : c.amoInstruction d.instruction d.rd d.rs1 d.rs2 = .ok c') : Held R s c' := by
  obtain ⟨hmap, hone⟩ := hpage hd
  obtain ⟨t, ht⟩ := Option.isSome_iff_exists.mp hmap
  rw [h.memory.translate] at ht
  unfold amoInstruction at ha
  dsimp only at ha
  obtain ⟨⟨pa₁, c₁⟩, hv₁, ha⟩ := Except.bind_ok_iff.mp ha
  obtain ⟨h₁, hR₁, -⟩ := h.translated hR hv₁
  obtain ⟨v, -, ha⟩ := Except.bind_ok_iff.mp ha
  obtain ⟨x, -, ha⟩ := Except.bind_ok_iff.mp ha
  obtain ⟨⟨pa₂, c₂⟩, hv₂, ha⟩ := Except.bind_ok_iff.mp ha
  obtain ⟨h₂, -, htr⟩ := h₁.translated hR₁ hv₂
  obtain ⟨m, hm, ha⟩ := Except.bind_ok_iff.mp ha
  cases ha
  rcases htr with ⟨hn, -⟩ | ⟨t', ht', rfl⟩
  · cases hn.symm.trans ht
  · exact ⟨h₂.memory.store hi.entries ht' hone (storeWd_frame (by split <;> decide) (by split <;> decide) hm), h₂.quiet⟩

section

variable {d : Decoded} {csr : BitVec 12}

/-- The other instructions touch nothing, if the calls of the system are not
emulated. -/
theorem trail_eq_empty (hl : isLoad d.instruction = false) (hs : isStore d.instruction = false)
    (ha : isAmo d.instruction = false) (he : c.ecallEmulation = false) : c.trail d = {} := by
  simp [trail, systemTrail, hl, hs, ha, he, Except.toOption]

theorem Held.execute (h : Held R s c) (hR : c.regime = .ok R) (hi : R.Isolated s) (he : c.ecallEmulation = false)
    (hpage : AmoOnPage R c d) (hx : c.execute host d csr = .ok c') : Held R s c' := by
  by_cases hl : isLoad d.instruction = true
  · rw [execute_load hl] at hx
    exact h.load hR hi hx
  by_cases hs : isStore d.instruction = true
  · rw [execute_store hs] at hx
    exact h.store hR hi hx
  by_cases ha : isAmo d.instruction = true
  · rw [execute_amo ha] at hx
    exact h.amo hR hi ha hpage hx
  simp only [Bool.not_eq_true] at hl hs ha
  have ht := (execute_performs hx).traced
  have hr := execute_reports hx
  rw [trail_eq_empty hl hs ha he] at ht
  rw [footprint_reported hs] at hr
  have hb : c'.memory.bytes = c.memory.bytes := by
    generalize c'.memory.bytes = t at ht
    cases ht
    rfl
  refine ⟨hb ▸ h.memory, ?_⟩
  cases hr with
  | quiet hp => exact hp ▸ h.quiet
  | read a w hp => exact hp ▸ (notified_checkDeviceRead _ a w).trans h.quiet

end

/-! ## What the setters set -/

structure Settings where
  en64bit : Bool
  ecallEmulation : Bool
  hostEmulation : Bool
  peripheralEmulation : Bool
  disableMachineInterruptDelegation : Bool

def settings (c : RiscvCpu) : Settings where
  en64bit := c.en64bit
  ecallEmulation := c.ecallEmulation
  hostEmulation := c.hostEmulation
  peripheralEmulation := c.peripheralEmulation
  disableMachineInterruptDelegation := c.disableMachineInterruptDelegation

theorem settings_of_control (h : c'.control = c.control) : c'.settings = c.settings :=
  congrArg (fun k : Control => (⟨k.en64bit, k.ecallEmulation, k.hostEmulation, k.peripheralEmulation,
    k.disableMachineInterruptDelegation⟩ : Settings)) h

section

variable {cause : Nat} {interrupt : Bool}

theorem settings_of_privilege (p : PrivilegeMode) : { c with privilege := p }.settings = c.settings := rfl

theorem settings_of_nextPc (a : BitVec 64) : { c with nextPc := a }.settings = c.settings := rfl

theorem settings_of_mstatus (m : BitVec 64) : { c with mstatus := m }.settings = c.settings := rfl

theorem setCsr_settings (csr : BitVec 12) (v : BitVec 64) : (c.setCsr csr v).settings = c.settings := rfl

theorem applyMstatusToCsr_settings : c.applyMstatusToCsr.settings = c.settings := by
  simp only [applyMstatusToCsr, setCsr_settings]

theorem applyInterruptPending_settings : c.applyInterruptPending.settings = c.settings := by
  simp only [applyInterruptPending, setCsr_settings]

theorem csrsInstruction_settings (i : Instruction) (csr : BitVec 12) (rd rs1 : BitVec 5) :
    (c.csrsInstruction i csr rd rs1).settings = c.settings := by
  rcases csrsInstruction_cases c i csr rd rs1 with ⟨-, h⟩ | ⟨-, h⟩ | ⟨-, h⟩ | ⟨-, h⟩ <;> rw [h] <;> rfl

theorem leaveTrap_settings : (c.leaveTrap cause interrupt).settings = c.settings := by
  unfold leaveTrap clearInterruptPending
  rw [applyMstatusToCsr_settings]
  split
  · exact applyInterruptPending_settings
  · rfl

theorem enterTrap_settings : (c.enterTrap cause interrupt).settings = c.settings := by
  unfold enterTrap
  dsimp only
  split <;> rfl

theorem trapBody_settings : (c.trapBody cause interrupt).settings = c.settings := by
  cases h : c.svDelegation cause interrupt with
  | true =>
    rw [trapBody_of_supervisor h, leaveTrap_settings, trapToSupervisor]
    simp only [settings_of_privilege, applyMstatusToCsr_settings, settings_of_mstatus, setCsr_settings,
      settings_of_nextPc, enterTrap_settings]
  | false =>
    rw [trapBody_of_machine h, leaveTrap_settings, trapToMachine]
    simp only [settings_of_privilege, applyMstatusToCsr_settings, settings_of_mstatus, setCsr_settings,
      settings_of_nextPc, enterTrap_settings]

end

/-- No instruction is a setter. -/
theorem execute_settings {d : Decoded} {csr : BitVec 12} (hf : c.pageFault = false)
    (h : c.execute host d csr = .ok c') : c'.settings = c.settings := by
  cases execute_effect hf h with
  | write v kept _ _ _ _ => exact settings_of_control kept.control
  | quiet kept _ _ => exact settings_of_control kept.control
  | fault cause page trap =>
    obtain ⟨c₀, kept, -, -, rfl⟩ := trap
    rw [trapBody_settings, settings_of_control kept.control]
  | ecall cause page trap => rw [trap, trapBody_settings]
  | call _ _ call =>
    obtain ⟨r, -, h⟩ := Except.bind_ok_iff.mp call
    cases h
    rfl
  | csrs _ trap => rw [trap, csrsInstruction_settings]
  | mret _ _ h =>
    obtain ⟨p, -, h⟩ := Except.bind_ok_iff.mp h
    cases h
    rfl
  | sret _ _ h =>
    obtain ⟨p, -, h⟩ := Except.bind_ok_iff.mp h
    cases h
    rfl

theorem interruptStage_posts (h : c.interruptStage = .ok (false, c')) : { c with pc := c.nextPc }.Posts c' := by
  obtain ⟨c₁, ht, hposts⟩ := posts_timerTick (c := { c with pc := c.nextPc })
  rw [interruptStage, ht, Except.ok_bind] at h
  rcases checkPendingInterrupt_ok h with ⟨-, rfl⟩ | ⟨hn, -⟩
  · exact hposts.trans posts_interruptCheck
  · cases hn

theorem interruptStage_regime (h : c.interruptStage = .ok (false, c')) : c'.regime = c.regime := by
  obtain ⟨mip, csrs, p, v, u, rfl, hm, hs⟩ := interruptStage_posts h
  exact regime_congr (c := c) rfl hm hs rfl

theorem interruptStage_settings {taken : Bool} (h : c.interruptStage = .ok (taken, c')) :
    c'.settings = c.settings := by
  obtain ⟨c₁, ht, hposts⟩ := posts_timerTick (c := { c with pc := c.nextPc })
  rw [interruptStage, ht, Except.ok_bind] at h
  obtain ⟨mip, csrs, p, v, u, hc₁, -, -⟩ := hposts.trans posts_interruptCheck
  rcases checkPendingInterrupt_ok h with ⟨-, rfl⟩ | ⟨-, cause, rfl⟩
  · rw [hc₁]
    rfl
  · rw [trapBody_settings, hc₁]
    rfl

/-- A round leaves the settings as they are. -/
theorem step_settings (h : c.step host = .ok c') : c'.settings = c.settings := by
  cases step_round h with
  | interrupt taken => exact interruptStage_settings taken
  | fetchFault c₁ c₂ head fetch pageFault trap =>
    rw [trap, trapBody_settings, settings_of_control (fetchStage_ok fetch).1.control, interruptStage_settings head]
  | execute c₁ c₂ c₃ head fetch pageFault execute finish =>
    obtain ⟨p, m, -, -, hfin⟩ := finishStage_ok finish
    rw [settings_of_control hfin.control]
    refine (execute_settings (c := c₂.decodeStage) pageFault execute).trans ?_
    exact (settings_of_control (fetchStage_ok fetch).1.control).trans (interruptStage_settings head)

/-! ## Rounds -/

theorem Held.interruptStage {taken : Bool} (h : Held R s c) (hs : c.interruptStage = .ok (taken, c')) :
    Held R s c' := by
  obtain ⟨c₀, p, -, -, hd, hcase⟩ := interruptStage_ok hs
  have hm : c'.memory = c.memory := by
    have h₀ : c₀.memory = c.memory := congrArg Data.memory hd
    rcases hcase with ⟨-, rfl⟩ | ⟨-, cause, rfl⟩
    · exact h₀
    · exact (congrArg Data.memory trapBody_data).trans h₀
  refine ⟨hm ▸ h.memory, ?_⟩
  rw [interruptStage_peripheral hs]
  exact h.quiet

theorem Held.fetchStage (h : Held R s c) (hR : c.regime = .ok R) (hf : c.fetchStage = .ok c') :
    Held R s c' ∧ c'.regime = .ok R := by
  obtain ⟨⟨ir, c₀⟩, hload, hc'⟩ := Except.bind_ok_iff.mp hf
  cases hc'
  cases loadCmd_path hload with
  | one first =>
    obtain ⟨h₁, hR₁, -⟩ := h.translated hR first
    exact ⟨⟨h₁.memory, h₁.quiet⟩, hR₁⟩
  | two first half second =>
    obtain ⟨h₁, hR₁, -⟩ := h.translated hR first
    obtain ⟨h₂, hR₂, -⟩ := h₁.translated hR₁ second
    exact ⟨⟨h₂.memory, h₂.quiet⟩, hR₂⟩

theorem Held.finishStage (h : Held R s c) (hi : R.Isolated s) (hf : c.finishStage host = .ok c') : Held R s c' := by
  obtain ⟨e, -, hf⟩ := finishStage_cases hf
  split at hf
  · obtain ⟨⟨p, m⟩, hp, hf⟩ := Except.bind_ok_iff.mp hf
    obtain ⟨hm, hn⟩ := PeripheralEmulator.emulation_confined h.memory hi h.quiet hp
    cases hf
    have hkeep : ∀ c₁ : RiscvCpu, Held R s c₁ →
        Held R s c₁.takeHostEnd.takeVirtioInterrupt.takeUartInterrupt.takeUartBreak := by
      intro c₁ h₁
      unfold takeUartBreak takeUartInterrupt takeVirtioInterrupt takeHostEnd
      repeat' split
      all_goals exact ⟨h₁.memory, h₁.quiet⟩
    exact hkeep _ ⟨hm, hn⟩
  · cases hf
    exact ⟨h.memory, h.quiet⟩

/-- The instruction of the round, if it is an atomic operation, has its bytes
on one page. -/
def AmosOnPage (R : Regime) (c : RiscvCpu) : Prop := ∀ c₂, c.Fetches c₂ → AmoOnPage R c₂ (decode c₂.ir c₂.mxl)

theorem Held.step (h : Held R s c) (hR : c.regime = .ok R) (hi : R.Isolated s) (he : c.ecallEmulation = false)
    (hpage : c.AmosOnPage R) (hs : c.step host = .ok c') : Held R s c' := by
  cases step_round hs with
  | interrupt taken => exact h.interruptStage taken
  | fetchFault c₁ c₂ head fetch pageFault trap =>
    obtain ⟨h₂, -⟩ := (h.interruptStage head).fetchStage ((interruptStage_regime head).trans hR) fetch
    subst trap
    exact h₂.trap _ _
  | execute c₁ c₂ c₃ head fetch pageFault execute finish =>
    obtain ⟨h₂, hR₂⟩ := (h.interruptStage head).fetchStage ((interruptStage_regime head).trans hR) fetch
    have he₂ : c₂.settings = c.settings :=
      (settings_of_control (fetchStage_ok fetch).1.control).trans (interruptStage_settings head)
    have h₃ : Held R s c₃ := Held.execute (c := c₂.decodeStage) ⟨h₂.memory, h₂.quiet⟩ hR₂ hi
      ((congrArg Settings.ecallEmulation he₂).trans he) (hpage c₂ ⟨_, head, fetch, pageFault⟩) execute
    exact h₃.finishStage hi finish

/-! ## Runs -/

/-- **Confinement.** In a run under one regime, with the calls of the system
not emulated, the table and the disk out of its reach and every atomic
operation on a page, no translation changes, and of the bytes out of reach
only leaf entries do, in A and D. -/
theorem confined_run (R : Regime) (c c' : RiscvCpu) (hi : R.Isolated c.memory.bytes)
    (hn : c.peripheral.notified = false) (he : c.ecallEmulation = false)
    (h : Run.Steps step (fun _ s => s.regime = .ok R ∧ s.AmosOnPage R) c c') :
    R.Confined c.memory.bytes c'.memory.bytes := by
  have hstep : ∀ host s t, Held R c.memory.bytes s ∧ s.ecallEmulation = false → s.regime = .ok R ∧ s.AmosOnPage R →
      step host s = .ok t → Held R c.memory.bytes t ∧ t.ecallEmulation = false := by
    intro host s t hs hp ht
    have hset : t.ecallEmulation = s.ecallEmulation := congrArg Settings.ecallEmulation (step_settings ht)
    exact ⟨hs.1.step hp.1 hi hs.2 hp.2 ht, hset.trans hs.2⟩
  exact (h.invariant hstep ⟨⟨.refl R _, hn⟩, he⟩).1.memory

/-- User mode on 4 MiB at `0x400000`, where an instruction is. -/
def superpageUser (word : BitVec 32) (address : BitVec 64) : RiscvCpu :=
  let c := ((new false 0).setMemory (leafMemory 0x1000CF word 0x400000)).setCsr Csr.satp 0x80000001
  { (c.setReg x1 address).setReg x2 0x44332211 with privilege := .userMode }

theorem superpage_isolated (word : BitVec 32) :
    (Regime.table (.sv32 1)).Isolated (leafMemory 0x1000CF word 0x400000).bytes where
  entries := (leafMemory_sv32 word).apart (by decide)
  disk va t ht := by
    refine .inl ?_
    have hrange := (leafMemory_sv32 word).range (by decide) ht
    have hpages : (Table.sv32 1).blockPages = 0x400 := rfl
    have hbase : PeripheralEmulator.kVirtioBase.toNat = 0x10001000 := rfl
    rw [BitVec.lt_def, hbase]
    omega

/-- `sw x2, 0(x1)` over the end of a page. -/
theorem confined_run_store : (Regime.table (.sv32 1)).Confined (superpageUser 0x0020A023 0xFFE).memory.bytes
    (superpageUser 0x0020A023 0xFFE).next.memory.bytes :=
  confined_run (.table (.sv32 1)) (superpageUser 0x0020A023 0xFFE) (superpageUser 0x0020A023 0xFFE).next
    (superpage_isolated _) rfl rfl
    (.tail (l := .failing) .refl ⟨rfl, fun _ hf => hf.eq ▸ fun ha => absurd ha (by decide +kernel)⟩
      (step_next (by decide +kernel)))

/-- `amoswap.w x0, x2, (x1)` at an address that is not mapped stores to the
physical one. -/
example : (superpageUser 0x0820A02F 0xC00000).step .failing =
      .ok (superpageUser 0x0820A02F 0xC00000).next ∧
    ¬ (Regime.table (.sv32 1)).Confined (superpageUser 0x0820A02F 0xC00000).memory.bytes
      (superpageUser 0x0820A02F 0xC00000).next.memory.bytes := by
  refine ⟨step_next (by decide +kernel), fun h => ?_⟩
  have hout : ¬ (Regime.table (.sv32 1)).Reach (superpageUser 0x0820A02F 0xC00000).memory.bytes 0xC00000 := by
    rintro (⟨va, t, ht, hb⟩ | ⟨own, hown, hin⟩)
    · have hrange := (leafMemory_sv32 _).range (by decide) ht
      have hpages : (Table.sv32 1).blockPages = 0x400 := rfl
      have hb := congrArg BitVec.toNat hb
      rw [MemoryWrapper.toNat_flat] at hb
      have hc : (0xC00000 : BitVec 32).toNat = 0xC00000 := rfl
      omega
    · have hall : ∀ own ∈ PeripheralEmulator.ownAreas, ¬ InArea own 0xC00000 := by decide
      exact hall own hown hin
  have hbefore : (superpageUser 0x0820A02F 0xC00000).memory.bytes 0xC00000 = 0 := by decide +kernel
  have hafter : (superpageUser 0x0820A02F 0xC00000).next.memory.bytes 0xC00000 = 0x11 := by decide +kernel
  rcases h.bytes 0xC00000 hout with he | ⟨-, he⟩
  · rw [hafter, hbefore] at he
    cases he
  · have := he 0 (by decide) (by decide)
    rw [hafter, hbefore] at this
    cases this

end RiscvCpu

end RiscvEmulator
