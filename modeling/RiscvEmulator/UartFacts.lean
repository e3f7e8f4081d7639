/-
Received characters.

A key that is pressed goes to the byte at `kUartRhr`, which is also the byte
the guest transmits by. `key_run` says when it stays there until a load
returns it, and that no further key is taken before; `key_run_transmit` is a
transmission that overwrites it.
-/
import RiscvEmulator.TimerFacts
import RiscvEmulator.TrailFacts

namespace RiscvEmulator

open Bytes (Access InArea Spares Traced beforeRead byteOf returned)
open MemoryWrapper (flat writeByte_frame write32_frame)

namespace PeripheralEmulator

variable {p p' : PeripheralEmulator} {m m' : MemoryWrapper} {host : Host}

/-! ## The receiver -/

/-- The byte of the receiver in the guest's memory. -/
def rhr : BitVec 32 := flat kUartRhr

/-- The key that `UartEmulation` calls `SetUartBuffer` with. -/
def receivedKey (host : Host) (p : PeripheralEmulator) : Option (BitVec 32) :=
  match p.scrEmulation with
  | none => none
  | some scr => if p.keyArrives host then some (p.translateKey (scr.checkInput host).2.getKeyValue.1).1 else none

/-- What the UART does to the receiver and its byte, by the key received. -/
structure Receives (key : Option (BitVec 32)) (p p' : PeripheralEmulator) (m m' : MemoryWrapper) : Prop where
  accepted : ∀ k, key = some k → m'.bytes rhr = k.setWidth 8 ∧ p'.receiver = (false, true)
  quiet : key = none → m'.bytes rhr = m.bytes rhr ∧ p'.receiver = (false, p.uartFull && !p.uartRead)

theorem translateKey_key (p q : PeripheralEmulator) (key : BitVec 32) :
    (p.translateKey key).1 = (q.translateKey key).1 := by
  unfold translateKey
  split_ifs <;> rfl

theorem receivedKey_congr {q : PeripheralEmulator} (hs : q.scrEmulation = p.scrEmulation)
    (hk : q.keyArrives host = p.keyArrives host) : q.receivedKey host = p.receivedKey host := by
  rw [receivedKey, receivedKey, hs, hk]
  cases p.scrEmulation with
  | none => rfl
  | some scr =>
    dsimp only
    rw [translateKey_key q p]

theorem translateKey_receiver (p : PeripheralEmulator) (key : BitVec 32) :
    (p.translateKey key).2.receiver = p.receiver := by
  unfold translateKey
  split_ifs <;> rfl

theorem uartTransmit_receiver (host : Host) (h : p.uartTransmit = .ok p') :
    p'.receivedKey host = p.receivedKey host ∧ p'.receiver = p.receiver := by
  have hkey := (uartTransmit_key host h).1
  unfold uartTransmit at h
  split at h
  · split at h
    · cases h
    next scr hscr =>
    cases h
    refine ⟨?_, rfl⟩
    rw [receivedKey, receivedKey, hscr, hkey]
    dsimp only
    rw [checkInput_putchar, translateKey_key _ p]
    rfl
  · cases h
    exact ⟨rfl, rfl⟩

theorem uartConsume_receiver (h : p.uartConsume m = .ok (p', m')) :
    m'.bytes rhr = m.bytes rhr ∧ p'.receiver = (false, p.uartFull && !p.uartRead) ∧
      p'.scrEmulation = p.scrEmulation := by
  unfold uartConsume clearUartBuffer at h
  split at h
  · next hr =>
    obtain ⟨⟨p₁, m₁⟩, h₁, h⟩ := Except.bind_ok_iff.mp h
    cases h
    obtain ⟨b, -, h₁⟩ := Except.bind_ok_iff.mp h₁
    obtain ⟨m₂, hm₂, h₁⟩ := Except.bind_ok_iff.mp h₁
    cases h₁
    exact ⟨writeByte_frame hm₂ rhr (by decide), by rw [hr]; simp [receiver], rfl⟩
  · next hr =>
    cases h
    rw [Bool.not_eq_true] at hr
    exact ⟨rfl, by rw [receiver, hr]; simp, rfl⟩

/-- A receiver that has not been read takes no key. -/
theorem receivedKey_of_full (host : Host) (h : p.receiver = (false, true)) : p.receivedKey host = none := by
  obtain ⟨hread, hfull⟩ := Prod.ext_iff.mp h
  have hflags : p.uartRead = false ∧ p.uartFull = true := ⟨hread, hfull⟩
  rw [receivedKey, keyArrives, hflags.1, hflags.2]
  cases p.scrEmulation <;> rfl

theorem uartReceive_receives (hr : p.uartRead = false) (h : p.uartReceive host m = .ok (p', m')) :
    Receives (p.receivedKey host) p p' m m' := by
  unfold uartReceive at h
  split at h
  · next hf =>
    cases h
    rw [receivedKey_of_full host (Prod.ext hr hf)]
    refine ⟨fun k hk => ?_, fun _ => ⟨rfl, by rw [receiver, hf, hr]; rfl⟩⟩
    cases hk
  next hf =>
  rw [Bool.not_eq_true] at hf
  split at h
  · cases h
  next scr hscr =>
  dsimp only at h
  have hkey : p.receivedKey host = if (scr.checkInput host).1 then
      some (p.translateKey (scr.checkInput host).2.getKeyValue.1).1 else none := by
    rw [receivedKey, keyArrives, hscr, hf]
    rfl
  rw [hkey]
  split at h
  · next hready =>
    cases h
    rw [Bool.not_eq_true'] at hready
    rw [hready]
    refine ⟨fun k hk => ?_, fun _ => ⟨rfl, by rw [receiver, hf, hr]; rfl⟩⟩
    cases hk
  next hready =>
  rw [Bool.not_eq_true', Bool.not_eq_false] at hready
  rw [hready]
  obtain ⟨⟨p₁, m₁⟩, h₁, h⟩ := Except.bind_ok_iff.mp h
  obtain ⟨m₂, h₂, h⟩ := Except.bind_ok_iff.mp h
  cases h
  obtain ⟨b, -, h₁⟩ := Except.bind_ok_iff.mp h₁
  obtain ⟨m₃, h₃, h₁⟩ := Except.bind_ok_iff.mp h₁
  obtain ⟨m₄, h₄, h₁⟩ := Except.bind_ok_iff.mp h₁
  cases h₁
  refine ⟨fun k hk => ?_, fun hk => by cases hk⟩
  cases hk
  -- RHR is written first; LSR and the claim word are elsewhere.
  obtain ⟨m', hm', hb⟩ := m.writeByte_bytes kUartRhr
    ((({ p with scrEmulation := some (scr.checkInput host).2.getKeyValue.2 }.translateKey
      (scr.checkInput host).2.getKeyValue.1).1).setWidth 8)
  cases h₃.symm.trans hm'
  refine ⟨?_, ?_⟩
  · rw [write32_frame h₂ rhr (by decide), writeByte_frame h₄ rhr (by decide), hb, translateKey_key _ p,
      Bytes.store_apply _ _ _ (by decide), if_pos (by decide)]
    exact Bytes.byteOf_byte _
  · have hread := congrArg Prod.fst (translateKey_receiver
      { p with scrEmulation := some (scr.checkInput host).2.getKeyValue.2 } (scr.checkInput host).2.getKeyValue.1)
    exact Prod.ext (hread.trans hr) rfl

theorem uartEmulation_receives (h : p.uartEmulation host m = .ok (p', m')) :
    Receives (p.receivedKey host) p p' m m' := by
  obtain ⟨p₁, h₁, h⟩ := Except.bind_ok_iff.mp h
  obtain ⟨⟨p₂, m₂⟩, h₂, h⟩ := Except.bind_ok_iff.mp h
  obtain ⟨hkey, hrec⟩ := uartTransmit_receiver host h₁
  obtain ⟨hb, hrec₂, hscr⟩ := uartConsume_receiver h₂
  obtain ⟨hread, hfull⟩ := Prod.ext_iff.mp hrec
  obtain ⟨hread₂, hfull₂⟩ := Prod.ext_iff.mp hrec₂
  have hflags : p₁.uartRead = p.uartRead ∧ p₁.uartFull = p.uartFull := ⟨hread, hfull⟩
  have hflags₂ : p₂.uartRead = false ∧ p₂.uartFull = (p.uartFull && !p.uartRead) :=
    ⟨hread₂, by rw [← hflags.1, ← hflags.2]; exact hfull₂⟩
  have hkey₂ : p₂.receivedKey host = p.receivedKey host := by
    refine (receivedKey_congr hscr ?_).trans hkey
    rw [keyArrives, keyArrives, hscr, hflags₂.1, hflags₂.2, hflags.1, hflags.2, Bool.not_and, Bool.not_not,
      Bool.or_false]
  have hr := uartReceive_receives hflags₂.1 h
  rw [hkey₂] at hr
  refine ⟨hr.accepted, fun hnone => ?_⟩
  obtain ⟨hb', hrec'⟩ := hr.quiet hnone
  refine ⟨hb'.trans hb, ?_⟩
  rw [hrec', hflags₂.1, hflags₂.2, Bool.not_false, Bool.and_true]

/-- What the disk touches when the devices run. -/
def diskAccesses (host : Host) (p : PeripheralEmulator) (m : MemoryWrapper) : List (Access 32) :=
  (do
    let p ← if p.hostEmulationEnable then p.hostEmulation m else .ok p
    let (p, m) ← p.uartEmulation host m
    return p.virtioTrail m : Except Crash (List (Access 32))).toOption.getD []

theorem deviceEmulation_receives (he : p.deviceEmulationEnable = true) (h : p.deviceEmulation host m = .ok (p', m')) :
    ∃ p₁ m₁, p.uartEmulation host m = .ok (p₁, m₁) ∧
      (Spares rhr (p₁.virtioTrail m₁) → Receives (p.receivedKey host) p p' m m') := by
  rw [deviceEmulation, if_pos he] at h
  obtain ⟨⟨p₁, m₁⟩, h₁, h⟩ := Except.bind_ok_iff.mp h
  have ht := virtioEmulation_traced h
  obtain ⟨image, write, queueNum, interrupt, rfl⟩ := virtioEmulation_frame h
  refine ⟨p₁, m₁, h₁, fun hs => ?_⟩
  have hr := uartEmulation_receives h₁
  refine ⟨fun k hk => ?_, fun hk => ?_⟩
  · rw [ht.frame hs]
    exact hr.accepted k hk
  · rw [ht.frame hs]
    exact hr.quiet hk

/-- A request that leaves the receiver's byte. -/
theorem emulation_receives (he : p.deviceEmulationEnable = true) (h : p.emulation host m = .ok (p', m'))
    (hs : Spares rhr (p.diskAccesses host m)) : Receives (p.receivedKey host) p p' m m' := by
  unfold emulation at h
  unfold diskAccesses at hs
  split at h
  · next hen =>
    obtain ⟨q, hq, h⟩ := Except.bind_ok_iff.mp h
    rw [if_pos hen, hq, Except.ok_bind] at hs
    obtain ⟨value, write, error, ending, output, rfl⟩ := hostEmulation_frame hq
    obtain ⟨p₁, m₁, h₁, hr⟩ := deviceEmulation_receives (by exact he) h
    dsimp only at hs
    rw [h₁] at hs
    have hkey : receivedKey host { p with hostValue := value, hostWrite := write, errorFlag := error, endFlag := ending,
                                          hostOutput := output } = p.receivedKey host := receivedKey_congr rfl rfl
    obtain ⟨haccepted, hquiet⟩ := hr hs
    rw [hkey] at haccepted hquiet
    exact ⟨haccepted, hquiet⟩
  · next hen =>
    rw [if_neg hen, Except.ok_bind] at hs
    obtain ⟨p₁, m₁, h₁, hr⟩ := deviceEmulation_receives he h
    dsimp only at hs
    rw [h₁] at hs
    exact hr hs

theorem emulation_off (he : p.deviceEmulationEnable = false) (h : p.emulation host m = .ok (p', m')) :
    m' = m ∧ p'.receiver = p.receiver := by
  have hoff : ∀ q : PeripheralEmulator, q.deviceEmulationEnable = false → q.deviceEmulation host m = .ok (q, m) := by
    intro q hq
    rw [deviceEmulation, hq]
    rfl
  unfold emulation at h
  split at h
  · obtain ⟨q, hq, h⟩ := Except.bind_ok_iff.mp h
    obtain ⟨value, write, error, ending, output, rfl⟩ := hostEmulation_frame hq
    cases h.symm.trans (hoff _ he)
    exact ⟨rfl, rfl⟩
  · cases h.symm.trans (hoff p he)
    exact ⟨rfl, rfl⟩

end PeripheralEmulator

namespace RiscvCpu

open PeripheralEmulator (rhr)

variable {c c' : RiscvCpu} {host : Host} {key : BitVec 32}

/-! ## A round and the receiver -/

/-- What the fetch of the round touches. -/
def fetchAccesses (c : RiscvCpu) : List (Access 32) :=
  match c.interruptStage with
  | .ok (false, c₁) => c₁.fetchTrail.toOption.getD []
  | _ => []

/-- What its instruction does. -/
def guestTrail (c : RiscvCpu) : Trail :=
  match c.inFlight with
  | some c₂ => c₂.decodeStage.trail (decode c₂.ir c₂.mxl)
  | none => {}

/-- What the disk does at the end of a round. -/
def finishAccesses (host : Host) (c : RiscvCpu) : List (Access 32) :=
  if c.devicesRun then c.peripheral.diskAccesses host c.memory else []

/-- The key that goes to the receiver there. -/
def finishKey (host : Host) (c : RiscvCpu) : Option (BitVec 32) :=
  if c.devicesRun then c.peripheral.receivedKey host else none

def diskAccesses (host : Host) (c : RiscvCpu) : List (Access 32) :=
  match c.guestStage host with
  | .ok (false, c₁) => c₁.finishAccesses host
  | _ => []

/-- A load of the round returns the receiver's byte. -/
def readsKey (c : RiscvCpu) : Bool := (returned rhr c.guestTrail.accesses).isSome

/-- That byte, in the register the instruction gives it to. -/
def returnedByte (host : Host) (c : RiscvCpu) : Option (BitVec 8) := do
  let c₂ ← c.inFlight
  let c₃ ← (c₂.executeStage host).toOption
  let v ← returned rhr c.guestTrail.accesses
  return byteOf (c₃.reg (decode c₂.ir c₂.mxl).rd) v.1

/-- The key the round calls `SetUartBuffer` with. -/
def acceptedKey (host : Host) (c : RiscvCpu) : Option (BitVec 32) :=
  match c.guestStage host with
  | .ok (false, c₁) => c₁.finishKey host
  | _ => none

/-- The receiver has the key, and no load has been reported since. -/
structure HoldsKey (c : RiscvCpu) (key : BitVec 32) : Prop where
  byte : c.memory.bytes rhr = key.setWidth 8
  receiver : c.peripheral.receiver = (false, true)

theorem HoldsKey.of_eq (h : HoldsKey c key) (hm : c'.memory.bytes rhr = c.memory.bytes rhr)
    (hp : c'.peripheral.receiver = c.peripheral.receiver) : HoldsKey c' key :=
  ⟨hm.trans h.byte, hp.trans h.receiver⟩

theorem HoldsKey.of_data (h : HoldsKey c key) (hm : c'.memory = c.memory) (hp : c'.peripheral = c.peripheral) :
    HoldsKey c' key := h.of_eq (by rw [hm]) (by rw [hp])

theorem HoldsKey.interruptStage {taken : Bool} (h : HoldsKey c key) (hs : c.interruptStage = .ok (taken, c')) :
    HoldsKey c' key := by
  refine h.of_eq ?_ ?_
  · obtain ⟨c₀, p, -, -, hd, hcase⟩ := interruptStage_ok hs
    have hm : c₀.memory = c.memory := congrArg Data.memory hd
    rcases hcase with ⟨-, rfl⟩ | ⟨-, cause, rfl⟩
    · rw [hm]
    · rw [show (c₀.trapBody cause true).memory = c₀.memory from congrArg Data.memory trapBody_data, hm]
  · rw [interruptStage_peripheral hs]
    unfold ticked
    rfl

theorem HoldsKey.trap {cause : Nat} {interrupt : Bool} (h : HoldsKey c key) (ht : c.trap cause interrupt = .ok c') :
    HoldsKey c' key := by
  refine h.of_data ?_ (trap_peripheral ht)
  rw [(trap_ok_iff.mp ht).2]
  exact congrArg Data.memory trapBody_data

theorem HoldsKey.fetched {c₁ c₂ : RiscvCpu} (h : HoldsKey c key) (hi : c.interruptStage = .ok (false, c₁))
    (hf : c₁.fetchStage = .ok c₂) (hs : Spares rhr c.fetchAccesses) : HoldsKey c₂ key := by
  obtain ⟨l, hl, ht⟩ := fetchStage_traced hf
  rw [fetchAccesses, hi] at hs
  dsimp only at hs
  rw [hl] at hs
  exact (h.interruptStage hi).of_eq (ht.frame hs) (by rw [fetchStage_peripheral hf])

/-- The range of a reported load has the receiver's register. -/
def reachesUart (address : BitVec 64) (width : Nat) : Bool :=
  PeripheralEmulator.kUartBase < address + BitVec.ofNat 64 width ∧ address ≤ PeripheralEmulator.kUartBase

theorem checkDeviceRead_receiver (p : PeripheralEmulator) (address : BitVec 64) (width : Nat) :
    (p.checkDeviceRead address width).receiver = (p.uartRead || reachesUart address width, p.uartFull) := by
  unfold PeripheralEmulator.checkDeviceRead reachesUart
  split
  · next hr => rw [decide_eq_true hr, Bool.or_true]; rfl
  · next hr => rw [decide_eq_false hr, Bool.or_false]; rfl

theorem HoldsKey.execute {d : Decoded} {csr : BitVec 12} (h : HoldsKey c key)
    (hs : Spares rhr (beforeRead rhr (c.trail d).accesses)) (hx : c.execute host d csr = .ok c') :
    (∀ v, returned rhr (c.trail d).accesses = some v → byteOf (c'.reg d.rd) v.1 = key.setWidth 8) ∧
    (returned rhr (c.trail d).accesses = none →
      (∀ r, (c.trail d).reported = some r → reachesUart r.1 r.2 = false) → HoldsKey c' key) := by
  obtain ⟨traced, returns, receiver⟩ := execute_performs hx
  refine ⟨fun v hv => ?_, fun hnone hr => ⟨?_, ?_⟩⟩
  · rw [returns rhr v hv, traced.returned hs hv, h.byte]
  · rw [Bytes.beforeRead_of_returned hnone] at hs
    rw [traced.frame hs, h.byte]
  · rw [receiver]
    split
    · exact h.receiver
    · next a w hrep =>
      rw [checkDeviceRead_receiver, hr _ hrep, Bool.or_false]
      exact h.receiver

theorem HoldsKey.finishKey (h : HoldsKey c key) (host : Host) : c.finishKey host = none := by
  rw [RiscvCpu.finishKey, PeripheralEmulator.receivedKey_of_full host h.receiver]
  split <;> rfl

/-- The devices leave the receiver, or have a new key in it. -/
theorem finishStage_key (hs : Spares rhr (c.finishAccesses host)) (h : c.finishStage host = .ok c') :
    (∀ key, c.finishKey host = some key → HoldsKey c' key) ∧
    (∀ key, HoldsKey c key → HoldsKey c' key) := by
  obtain ⟨e, -, h⟩ := finishStage_cases h
  unfold finishAccesses devicesRun at hs
  unfold finishKey devicesRun
  split at h
  · next he =>
    obtain ⟨⟨p, m⟩, hp, h⟩ := Except.bind_ok_iff.mp h
    have hc' : c'.memory = m ∧ c'.peripheral.receiver = p.receiver := by
      cases h
      unfold takeUartBreak takeUartInterrupt takeVirtioInterrupt takeHostEnd
      split_ifs <;> exact ⟨rfl, rfl⟩
    rw [he, Bool.true_and] at hs ⊢
    cases hen : c.peripheral.deviceEmulationEnable with
    | true =>
      rw [hen, if_pos rfl] at hs
      rw [if_pos rfl]
      obtain ⟨haccepted, hquiet⟩ := PeripheralEmulator.emulation_receives hen hp hs
      refine ⟨fun key hkey => ?_, fun key hk => ?_⟩
      · obtain ⟨hb, hr⟩ := haccepted key hkey
        exact ⟨by rw [hc'.1, hb], by rw [hc'.2, hr]⟩
      · have hnone := PeripheralEmulator.receivedKey_of_full host hk.receiver
        obtain ⟨hb, hr⟩ := hquiet hnone
        obtain ⟨hread, hfull⟩ := Prod.ext_iff.mp hk.receiver
        have hflags : c.peripheral.uartRead = false ∧ c.peripheral.uartFull = true := ⟨hread, hfull⟩
        refine ⟨?_, ?_⟩
        · rw [hc'.1, hb]
          exact hk.byte
        · rw [hc'.2, hr]
          show (false, c.peripheral.uartFull && !c.peripheral.uartRead) = _
          rw [hflags.1, hflags.2]
          rfl
    | false =>
      obtain ⟨rfl, hr⟩ := PeripheralEmulator.emulation_off hen hp
      rw [if_neg Bool.false_ne_true]
      refine ⟨fun key hkey => (by cases hkey), fun key hk => hk.of_eq ?_ ?_⟩
      · rw [hc'.1]
        rfl
      · rw [hc'.2, hr]
  · next he =>
    cases h
    rw [Bool.eq_false_iff.mpr he, Bool.false_and, if_neg Bool.false_ne_true]
    exact ⟨fun key hkey => (by cases hkey), fun key hk => hk.of_eq rfl rfl⟩

/-! ## Runs -/

/-- The key that no load has returned yet, after the round. -/
def pendingKey (host : Host) (c : RiscvCpu) (pending : Option (BitVec 32)) : Option (BitVec 32) :=
  match c.acceptedKey host with
  | some key => some key
  | none => if c.readsKey then none else pending

/-- The rounds of the loop, with that note. -/
def keyStep : Host → RiscvCpu × Option (BitVec 32) → Except Crash (RiscvCpu × Option (BitVec 32)) :=
  Run.noted step pendingKey

/-- What a round has to leave to the receiver while a key is in it. -/
structure Undisturbed (host : Host) (s : RiscvCpu × Option (BitVec 32)) : Prop where
  /-- No translation of the fetch marks the byte. -/
  fetch : s.2.isSome → Spares rhr s.1.fetchAccesses
  /-- The instruction does not write to the byte before it reads it. -/
  guest : s.2.isSome → Spares rhr (beforeRead rhr s.1.guestTrail.accesses)
  /-- A load that is reported to the UART does read it. -/
  report : s.2.isSome → ∀ r, s.1.guestTrail.reported = some r → reachesUart r.1 r.2 = true → s.1.readsKey = true
  /-- The disk does not write to it. -/
  disk : (pendingKey host s.1 s.2).isSome → Spares rhr (s.1.diskAccesses host)

/-- The key comes back in the first load of the byte, and no other is taken
before. -/
structure KeySurvives (host : Host) (s : RiscvCpu × Option (BitVec 32)) : Prop where
  returned : ∀ key, s.2 = some key → s.1.readsKey = true → s.1.returnedByte host = some (key.setWidth 8)
  first : ∀ key, s.2 = some key → s.1.readsKey = false → s.1.acceptedKey host = none

/-- What is noted is in the receiver. -/
def KeyHeld (s : RiscvCpu × Option (BitVec 32)) : Prop := ∀ key, s.2 = some key → HoldsKey s.1 key

/-- A round that ends before its instruction. -/
theorem trapped_key {c₁ : RiscvCpu} (hg : c.guestStage host = .ok (true, c₁)) (hin : c.inFlight = none) :
    c.acceptedKey host = none ∧ c.readsKey = false := by
  rw [acceptedKey, hg, readsKey, guestTrail, hin]
  exact ⟨rfl, rfl⟩

/-- The instruction of a round that leaves the receiver to a key: what it
loads of the byte is the key, and if it does not load it the key stays. -/
theorem HoldsKey.guest {c₁ c₂ c₃ : RiscvCpu} (h : HoldsKey c key) (hu : Undisturbed host (c, some key))
    (hi : c.interruptStage = .ok (false, c₁)) (hf : c₁.fetchStage = .ok c₂) (hp : c₂.pageFault = false)
    (hx : c₂.executeStage host = .ok c₃) :
    (∀ v, returned rhr c.guestTrail.accesses = some v →
      byteOf (c₃.reg (decode c₂.ir c₂.mxl).rd) v.1 = key.setWidth 8) ∧
    (c.readsKey = false → HoldsKey c₃ key) := by
  have htrail : c.guestTrail = c₂.decodeStage.trail (decode c₂.ir c₂.mxl) := by rw [guestTrail, inFlight_eq hi hf hp]
  have hk₂ : HoldsKey c₂.decodeStage key := (h.fetched hi hf (hu.fetch rfl)).of_eq rfl rfl
  have hspares := hu.guest rfl
  have hreport := hu.report rfl
  dsimp only at hspares hreport
  rw [readsKey] at hreport ⊢
  rw [htrail] at hspares hreport ⊢
  obtain ⟨hreturned, hkept⟩ := hk₂.execute hspares hx
  refine ⟨hreturned, fun hr => hkept ?_ fun r hrep => ?_⟩
  · exact Option.not_isSome_iff_eq_none.mp (by rw [hr]; decide)
  · cases hreach : reachesUart r.1 r.2 with
    | false => rfl
    | true => exact absurd (hreport r hrep hreach) (by rw [hr]; decide)

theorem keyHeld_step {s t : RiscvCpu × Option (BitVec 32)} (hs : KeyHeld s) (hu : Undisturbed host s)
    (h : keyStep host s = .ok t) : KeyHeld t ∧ KeySurvives host s := by
  obtain ⟨c, pending⟩ := s
  obtain ⟨c', pending'⟩ := t
  obtain ⟨hc, hn⟩ := Run.noted_ok_iff.mp h
  dsimp only at hc hn
  have hquiet : c.acceptedKey host = none → c.readsKey = false → (∀ key, pending = some key → HoldsKey c' key) →
      KeyHeld (c', pending') ∧ KeySurvives host (c, pending) := by
    intro ha hr hk
    rw [pendingKey, ha, hr] at hn
    refine ⟨fun key hkey => hk key (hn.symm.trans hkey), fun key _ hread => ?_, fun _ _ _ => ha⟩
    rw [hr] at hread
    cases hread
  cases step_round hc with
  | interrupt taken =>
    have hg : c.guestStage host = .ok (true, c') := by
      rw [guestStage, taken]
      rfl
    obtain ⟨ha, hr⟩ := trapped_key hg (inFlight_of_interrupt taken)
    exact hquiet ha hr fun key hkey => (hs key hkey).interruptStage taken
  | fetchFault c₁ c₂ head fetch pageFault trap =>
    have ht : c₂.trap instructionPageFault false = .ok c' := trap_ok_iff.mpr ⟨rfl, trap⟩
    have hg : c.guestStage host = .ok (true, c') := by
      simp only [guestStage, head, fetch, pageFault, ht, Except.ok_bind, Bool.false_eq_true, if_false, if_true]
      rfl
    obtain ⟨ha, hr⟩ := trapped_key hg (inFlight_of_fault head fetch pageFault)
    exact hquiet ha hr fun key hkey =>
      ((hs key hkey).fetched head fetch (hu.fetch (Option.isSome_of_eq_some hkey))).trap ht
  | execute c₁ c₂ c₃ head fetch pageFault execute finish =>
    have hg : c.guestStage host = .ok (false, c₃) := by
      simp only [guestStage, head, fetch, pageFault, execute, Except.ok_bind, Bool.false_eq_true, if_false]
      rfl
    have haccepted : c.acceptedKey host = c₃.finishKey host := by rw [acceptedKey, hg]
    have hguest := fun key (hkey : pending = some key) =>
      (hs key hkey).guest (show Undisturbed host (c, some key) from hkey ▸ hu) head fetch pageFault execute
    refine ⟨fun key hkey => ?_, fun key hkey hr => ?_, fun key hkey hr => ?_⟩
    · have hkey' : pendingKey host c pending = some key := hn.symm.trans hkey
      have hdisk := hu.disk (Option.isSome_of_eq_some hkey')
      dsimp only at hdisk
      rw [diskAccesses, hg] at hdisk
      obtain ⟨hnew, hold⟩ := finishStage_key hdisk finish
      unfold pendingKey at hkey'
      split at hkey'
      · next k hk =>
        cases hkey'
        exact hnew _ (haccepted.symm.trans hk)
      · split at hkey'
        · cases hkey'
        · next hr => exact hold key ((hguest key hkey').2 (Bool.eq_false_iff.mpr hr))
    · obtain ⟨v, hv⟩ := Option.isSome_iff_exists.mp hr
      have hx : c₂.executeStage host = .ok c₃ := execute
      rw [returnedByte, inFlight_eq head fetch pageFault, Option.bind_eq_bind, Option.bind_some, hx, Except.toOption,
        Option.bind_eq_bind, Option.bind_some, hv]
      exact congrArg some ((hguest key hkey).1 v hv)
    · rw [haccepted]
      exact ((hguest key hkey).2 hr).finishKey host

/-- **A key survives until it is read** in every run whose rounds leave the
receiver to it: the first load of the byte returns the key, and no other key
is taken before. -/
theorem key_run (c : RiscvCpu) (t u : RiscvCpu × Option (BitVec 32)) (host : Host)
    (h : Run.Steps keyStep Undisturbed (c, none) t) (ht : Undisturbed host t) (hu : keyStep host t = .ok u) :
    KeySurvives host t := by
  have hheld : KeyHeld t := by
    refine h.invariant (fun l s s' hs hp hst => (keyHeld_step hs hp hst).1) fun key hkey => ?_
    cases hkey
  exact (keyHeld_step hheld ht hu).2

/-- A guest that runs `word` after the round in which a key is pressed, and
then loads the receiver's byte. -/
def keyGuest (word : BitVec 32) : RiscvCpu :=
  let memory := (((MemoryWrapper.new.assign 0).setWord 0 0 0x00000013).setWord 0 1 word).setWord 0 2 0x0000C183
  let c := (((new false 0).setMemory memory).setReg x1 PeripheralEmulator.kUartBase).setReg x2 98
  { c with
    peripheralEmulation := true
    peripheral := { c.peripheral with deviceEmulationEnable := true, scrEmulation := some { counter := 999 } } }

/-- It after a round. -/
def nextTyping (c : RiscvCpu) : RiscvCpu := (c.step typing).toOption.getD c

theorem keyStep_typing {pending pending' : Option (BitVec 32)} (h : (c.step typing).toOption.isSome = true)
    (hn : pending' = pendingKey typing c pending) : keyStep typing (c, pending) = .ok (c.nextTyping, pending') :=
  Run.noted_ok_iff.mpr ⟨Except.eq_ok_getD h c, hn⟩

/-- The key is loaded in the next round. -/
theorem key_run_load : (keyGuest 0x0000C183).nextTyping.returnedByte typing = some 97 := by
  have hstart : Undisturbed typing (keyGuest 0x0000C183, none) :=
    ⟨fun h => absurd h (by decide), fun h => absurd h (by decide), fun h => absurd h (by decide),
      fun _ => by decide +kernel⟩
  have hload : Undisturbed typing ((keyGuest 0x0000C183).nextTyping, some 97) :=
    ⟨fun _ => by decide +kernel, fun _ => by decide +kernel, fun _ _ _ _ => by decide +kernel,
      fun _ => by decide +kernel⟩
  have hpressed : keyStep typing (keyGuest 0x0000C183, none) = .ok ((keyGuest 0x0000C183).nextTyping, some 97) :=
    keyStep_typing (by decide +kernel) (by decide +kernel)
  have hnext : keyStep typing ((keyGuest 0x0000C183).nextTyping, some 97) =
      .ok ((keyGuest 0x0000C183).nextTyping.nextTyping, none) := keyStep_typing (by decide +kernel) (by decide +kernel)
  exact (key_run _ _ _ _ (.tail .refl hstart hpressed) hload hnext).returned 97 rfl (by decide +kernel)

/-- A transmission of `b` between them: the load returns `b`. -/
theorem key_run_transmit : ∃ s u, Run.Steps keyStep (fun _ _ => True) (keyGuest 0x00208023, none) (s, some 97) ∧
    keyStep typing (s, some 97) = .ok u ∧ s.returnedByte typing = some 98 ∧ ¬ KeySurvives typing (s, some 97) := by
  have hpressed : keyStep typing (keyGuest 0x00208023, none) = .ok ((keyGuest 0x00208023).nextTyping, some 97) :=
    keyStep_typing (by decide +kernel) (by decide +kernel)
  have hsent : keyStep typing ((keyGuest 0x00208023).nextTyping, some 97) =
      .ok ((keyGuest 0x00208023).nextTyping.nextTyping, some 97) :=
    keyStep_typing (by decide +kernel) (by decide +kernel)
  have hloaded : keyStep typing ((keyGuest 0x00208023).nextTyping.nextTyping, some 97) =
      .ok ((keyGuest 0x00208023).nextTyping.nextTyping.nextTyping, none) :=
    keyStep_typing (by decide +kernel) (by decide +kernel)
  have hbyte : (keyGuest 0x00208023).nextTyping.nextTyping.returnedByte typing = some 98 := by decide +kernel
  refine ⟨_, _, .tail (.tail .refl trivial hpressed) trivial hsent, hloaded, hbyte, fun hs => ?_⟩
  have hkey := hs.returned 97 rfl (by decide +kernel)
  rw [hbyte] at hkey
  exact absurd hkey (by decide)

end RiscvCpu

end RiscvEmulator
