/-
Which bytes the guest and the devices touch, in order.

`trail` is the accesses of an instruction and `fetchTrail` those of a fetch:
the loads and stores themselves, the marks that translations leave, the
clock's own word and the buffers of system calls. `execute_performs` says
that it misses none; `virtioEmulation_traced` says it of the disk.
-/
import RiscvEmulator.ClaimFacts
import RiscvEmulator.DataFacts
import RiscvEmulator.DiskFacts
import RiscvEmulator.Lib.Trace
import RiscvEmulator.SystemCallFacts

namespace RiscvEmulator

open Bytes (Area InArea Access Traced byteOf)
open MemoryWrapper (flat writeByte_frame write16_frame write32_frame write64_frame)

/-- What an instruction touches. -/
structure Trail where
  /-- A read counts when the instruction returns it. -/
  accesses : List (Access 32) := []
  /-- What `CheckDeviceRead` is called with. -/
  reported : Option (BitVec 64 × Nat) := none

/-- The part of the UART's receiver. -/
def PeripheralEmulator.receiver (p : PeripheralEmulator) : Bool × Bool := (p.uartRead, p.uartFull)

namespace RiscvCpu

variable {c c' : RiscvCpu} {host : Host}

/-! ## What an instruction touches -/

/-- The leaf entry that a translation of `va` marks. -/
def leafMark (c : RiscvCpu) (va : BitVec 64) : List (Access 32) :=
  match (c.regime.toOption.bind (·.translate c.memory.bytes va)).bind (·.leaf) with
  | none => []
  | some leaf => [.write (leaf, 1)]

/-- `LoadInstruction`; a load that faults returns nothing. -/
def loadTrail (c : RiscvCpu) (instruction : Instruction) (rs1 : BitVec 5) (imm12 : BitVec 32) : Except Crash Trail := do
  let clock : Access 32 := .write (flat PeripheralEmulator.kTimerMtime, 8)
  let c := { c with memory := ← c.peripheral.memoryMappedValueUpdate c.memory }
  let sourceAddress := c.reg rs1 + imm12.signExtend 64
  let mark := c.leafMark sourceAddress
  let (address, c) ← c.virtualToPhysical sourceAddress false
  if c.pageFault then
    return { accesses := clock :: mark }
  let width ← getLoadWidth instruction
  let accessWidth := getAccessWidth width address
  let nextWidth := width - accessWidth
  let first : Access 32 := .read (flat address, accessWidth) c.memory.bytes
  if nextWidth > 0 then
    let nextMark := c.leafMark (address + BitVec.ofNat 64 accessWidth)
    let (nextAddress, c) ← c.virtualToPhysical (address + BitVec.ofNat 64 accessWidth) false
    return if c.pageFault then { accesses := clock :: (mark ++ nextMark) }
      else { accesses := clock :: (mark ++ first :: (nextMark ++ [.read (flat nextAddress, nextWidth) c.memory.bytes]))
             reported := some (address, width) }
  return { accesses := clock :: (mark ++ [first]), reported := some (address, width) }

/-- `StoreInstruction`. -/
def storeTrail (c : RiscvCpu) (instruction : Instruction) (rs1 rs2 : BitVec 5) (imm12Stype : BitVec 32) :
    Except Crash Trail := do
  let dstAddress := c.reg rs1 + imm12Stype.signExtend 64
  let mark := c.leafMark dstAddress
  let (address, c) ← c.virtualToPhysical dstAddress true
  if c.pageFault then
    return { accesses := mark }
  let width ← getStoreWidth instruction
  let accessWidth := getAccessWidth width dstAddress
  let nextWidth := width - accessWidth
  let data := c.reg rs2 &&& (generateBitMask (accessWidth * 8)).signExtend 64
  let c := { c with memory := ← storeWd c.memory address data accessWidth }
  let first : Access 32 := .write (flat address, accessWidth)
  if nextWidth > 0 then
    let nextMark := c.leafMark (dstAddress + BitVec.ofNat 64 accessWidth)
    let (nextAddress, c) ← c.virtualToPhysical (dstAddress + BitVec.ofNat 64 accessWidth) true
    return if c.pageFault then { accesses := mark ++ first :: nextMark }
      else { accesses := mark ++ first :: (nextMark ++ [.write (flat nextAddress, nextWidth)]) }
  return { accesses := mark ++ [first] }

/-- `AmoInstruction`, which reports nothing. -/
def amoTrail (c : RiscvCpu) (instruction : Instruction) (rs1 : BitVec 5) : Except Crash Trail := do
  let wordWidth := if isAmoDoubleword instruction then 8 else 4
  let (source, c₁) ← c.virtualToPhysical (c.reg rs1) false
  let (destination, _) ← c₁.virtualToPhysical (c.reg rs1) true
  return { accesses := c.leafMark (c.reg rs1) ++ .read (flat source, wordWidth) c₁.memory.bytes ::
    (c₁.leafMark (c.reg rs1) ++ [.write (flat destination, wordWidth)]) }

/-- `SystemCallEmulation`: the buffers of `read` and `fstat`. -/
def systemTrail (c : RiscvCpu) (imm : BitVec 32) : Except Crash Trail :=
  if imm = 0b000000000000 ∧ c.ecallEmulation = true then
    if c.reg a7 = 63 then
      .ok { accesses := [.write (flat (c.reg a1), ((c.reg a2).setWidth 32).toNat)] }
    else if c.reg a7 = 80 then .ok { accesses := [.write (flat (c.reg a1), kGuestStatSize)] }
    else .ok {}
  else .ok {}

def trail (c : RiscvCpu) (d : Decoded) : Trail :=
  (if isLoad d.instruction then c.loadTrail d.instruction d.rs1 d.imm
    else if isStore d.instruction then c.storeTrail d.instruction d.rs1 d.rs2 d.imm
    else if isAmo d.instruction then c.amoTrail d.instruction d.rs1
    else if d.instruction = .system then c.systemTrail d.imm
    else .ok {}).toOption.getD {}

/-- `c'` is `c` after an instruction with this trail: `rd` has the bytes that
were read, and the receiver is told of the range reported. -/
structure Performs (c c' : RiscvCpu) (rd : BitVec 5) (r : Trail) : Prop where
  traced : Traced c.memory.bytes r.accesses c'.memory.bytes
  returns : ∀ b v, Bytes.returned b r.accesses = some v → byteOf (c'.reg rd) v.1 = v.2
  receiver : c'.peripheral.receiver = match r.reported with
    | none => c.peripheral.receiver
    | some (address, width) => (c.peripheral.checkDeviceRead address width).receiver

theorem Performs.quiet {rd : BitVec 5} (hm : c'.memory = c.memory)
    (hp : c'.peripheral.receiver = c.peripheral.receiver) : Performs c c' rd {} where
  traced := hm ▸ .nil _
  returns b v h := by cases h
  receiver := hp

theorem Performs.of_data {rd : BitVec 5} (h : c'.data = c.data) : Performs c c' rd {} :=
  .quiet (congrArg Data.memory h) (congrArg (fun d => d.peripheral.receiver) h)

theorem virtualToPhysical_traced {va pa : BitVec 64} {write : Bool} (h : c.virtualToPhysical va write = .ok (pa, c')) :
    Traced c.memory.bytes (c.leafMark va) c'.memory.bytes := by
  obtain ⟨R, hR⟩ := regime_of_ok h
  rw [leafMark, hR]
  cases ht : R.translate c.memory.bytes va with
  | none =>
    obtain ⟨c₁, h₁, -, -, -, hb, -⟩ := virtualToPhysical_none hR ht write
    cases h.symm.trans h₁
    simp only [Except.toOption, Option.bind, ht]
    rw [hb]
    exact .nil _
  | some t =>
    obtain ⟨c₁, h₁, -, -, -, hb, -⟩ := virtualToPhysical_some hR ht write
    cases h.symm.trans h₁
    simp only [Except.toOption, Option.bind, ht]
    rw [hb]
    split
    · next hl =>
      rw [Translation.mark, hl]
      exact .nil _
    · next leaf hl =>
      refine .write_one fun b hb => ?_
      rw [Translation.mark_apply, hl, if_neg]
      intro he
      cases he
      exact hb (by simp [InArea])

theorem returned_leafMark (va : BitVec 64) (b : BitVec 32) (l : List (Access 32)) :
    Bytes.returned b (c.leafMark va ++ l) = Bytes.returned b l := by
  unfold leafMark
  split <;> rfl

theorem returned_leafMark_none (va : BitVec 64) (b : BitVec 32) : Bytes.returned b (c.leafMark va) = none := by
  unfold leafMark
  split <;> rfl

theorem Performs.trap {rd : BitVec 5} {l : List (Access 32)} {cause : Nat} {interrupt : Bool} {c₁ : RiscvCpu}
    (ht : Traced c.memory.bytes l c₁.memory.bytes) (hl : ∀ b, Bytes.returned b l = none)
    (hp : c₁.peripheral = c.peripheral) : Performs c (c₁.trapBody cause interrupt) rd { accesses := l } where
  traced := by
    rw [show (c₁.trapBody cause interrupt).memory = c₁.memory from congrArg Data.memory trapBody_data]
    exact ht
  returns b v hv := by
    rw [hl b] at hv
    cases hv
  receiver := by
    dsimp only
    rw [trapBody_peripheral, hp]

section

variable {i : Instruction} {w n k : Nat} {s s₂ : Bytes.Store 32} {a a₂ b : BitVec 32} {v : Nat × BitVec 8}

/-- What a load of `w` bytes gives to `rd` has those bytes. -/
theorem byteOf_extendLoad (hw : getLoadWidth i = .ok w) (f : Nat → BitVec 8) {j : Nat} (hj : j < w) :
    byteOf (extendLoad i (Bytes.compose 64 f w) w) j = f j := by
  rw [extendLoad_eq hw, byteOf_loadedValue i f (getLoadWidth_ok hw).bounds.2 hj]

theorem returned_whole (hw : getLoadWidth i = .ok w) (h : Bytes.returned b [.read (a, w) s] = some v) :
    byteOf (extendLoad i (Bytes.load 64 s a w) w) v.1 = v.2 := by
  rw [Bytes.returned] at h
  split at h
  · next hin =>
    cases h
    rw [Bytes.load, byteOf_extendLoad hw _ hin, Bytes.add_ofNat_sub]
  · cases h

/-- The two parts of a load that is cut. -/
theorem returned_cut (hw : getLoadWidth i = .ok w) (hn : n + k = w)
    (h : Bytes.returned b [.read (a, n) s, .read (a₂, k) s₂] = some v) :
    byteOf (extendLoad i (Bytes.load 64 s a n ||| (Bytes.load 64 s₂ a₂ k <<< (n * 8))) w) v.1 = v.2 := by
  let f : Nat → BitVec 8 := fun j => if j < n then s (a + BitVec.ofNat 32 j) else s₂ (a₂ + BitVec.ofNat 32 (j - n))
  have hlow : Bytes.load 64 s a n = Bytes.compose 64 f n := Bytes.compose_congr fun j hj => (if_pos hj).symm
  have hhigh : Bytes.load 64 s₂ a₂ k = Bytes.compose 64 (fun j => f (n + j)) k := by
    refine Bytes.compose_congr fun j _ => ?_
    dsimp only [f]
    rw [if_neg (by omega), Nat.add_sub_cancel_left]
  rw [hlow, hhigh, Nat.mul_comm n 8, ← Bytes.compose_append, hn]
  rw [Bytes.returned] at h
  split at h
  · next hin =>
    cases h
    have hlt : (b - a).toNat < n := hin
    rw [byteOf_extendLoad hw f (by dsimp only; omega)]
    dsimp only [f]
    rw [if_pos hlt, Bytes.add_ofNat_sub]
  obtain ⟨r, hr, rfl⟩ := Option.map_eq_some_iff.mp h
  rw [Bytes.returned] at hr
  split at hr
  · next hin =>
    cases hr
    have hlt : (b - a₂).toNat < k := hin
    rw [byteOf_extendLoad hw f (by dsimp only; omega)]
    dsimp only [f]
    rw [if_neg (by omega), Nat.add_sub_cancel_left, Bytes.add_ofNat_sub]
  · cases hr

end

theorem loadInstruction_performs {i : Instruction} {rd rs1 : BitVec 5} {imm : BitVec 32}
    (h : c.loadInstruction i rd rs1 imm = .ok c') :
    ∃ r, c.loadTrail i rs1 imm = .ok r ∧ Performs c c' rd r := by
  have hpart : ∀ {w : Nat} {pa v : BitVec 64} {m : MemoryWrapper}, getLoadWidth i = .ok w →
      loadWd m pa (getAccessWidth w pa) = .ok v →
      v = Bytes.load 64 m.bytes (flat pa) (getAccessWidth w pa) ∧ 1 ≤ getAccessWidth w pa ∧
        getAccessWidth w pa ≤ w ∧ w ≤ 8 := by
    intro w pa v m hw hv
    obtain ⟨hpos, hle⟩ := getAccessWidth_pos (getLoadWidth_ok hw) pa
    have hw8 := (getLoadWidth_ok hw).bounds.2
    rw [loadWd_eq m pa hpos (by omega)] at hv
    exact ⟨(Except.ok.inj hv).symm, hpos, hle, hw8⟩
  unfold loadTrail
  cases loadInstruction_path h with
  | fault clock first hf =>
    rw [clock, Except.ok_bind]
    dsimp only
    rw [first, Except.ok_bind]
    dsimp only
    rw [if_pos hf]
    refine ⟨_, rfl, .trap (.write (write64_frame clock) (virtualToPhysical_traced first :)) (fun b => ?_)
      (virtualToPhysical_peripheral first :)⟩
    rw [Bytes.returned, ← List.append_nil (leafMark _ _), returned_leafMark]
    rfl
  | @whole m pa v c₁ w clock first hf hw hv last =>
    rw [clock, Except.ok_bind]
    dsimp only
    rw [first, Except.ok_bind]
    dsimp only
    rw [if_neg (Bool.eq_false_iff.mp hf), hw, Except.ok_bind, if_neg last]
    obtain ⟨rfl, hpos, hle, hw8⟩ := hpart hw hv
    refine ⟨_, rfl, ?_, fun b v hv => ?_, ?_⟩
    · exact .write (write64_frame clock) ((virtualToPhysical_traced first :).append (.read _ (.nil _)))
    · rw [setReg_same]
      have hall : getAccessWidth w pa = w := by omega
      rw [Bytes.returned, returned_leafMark, hall] at hv
      rw [hall]
      exact returned_whole hw hv
    · show (c₁.peripheral.checkDeviceRead pa w).receiver = (c.peripheral.checkDeviceRead pa w).receiver
      rw [(virtualToPhysical_peripheral first :)]
  | secondFault clock first hf hw hv more second hf₂ =>
    rw [clock, Except.ok_bind]
    dsimp only
    rw [first, Except.ok_bind]
    dsimp only
    rw [if_neg (Bool.eq_false_iff.mp hf), hw, Except.ok_bind, if_pos more, second, Except.ok_bind]
    dsimp only
    rw [if_pos hf₂]
    refine ⟨_, rfl, .trap (.write (write64_frame clock)
      ((virtualToPhysical_traced first :).append (virtualToPhysical_traced second))) (fun b => ?_)
      ((virtualToPhysical_peripheral second).trans (virtualToPhysical_peripheral first :))⟩
    rw [Bytes.returned, returned_leafMark, ← List.append_nil (leafMark _ _), returned_leafMark]
    rfl
  | @cut m pa pa₂ v v₂ c₁ c₂ w clock first hf hw hv more second hf₂ hv₂ =>
    rw [clock, Except.ok_bind]
    dsimp only
    rw [first, Except.ok_bind]
    dsimp only
    rw [if_neg (Bool.eq_false_iff.mp hf), hw, Except.ok_bind, if_pos more, second, Except.ok_bind]
    dsimp only
    rw [if_neg (Bool.eq_false_iff.mp hf₂)]
    obtain ⟨rfl, hpos, hle, hw8⟩ := hpart hw hv
    rw [loadWd_eq c₂.memory pa₂ (by omega) (by omega)] at hv₂
    cases hv₂
    refine ⟨_, rfl, ?_, fun b v hv => ?_, ?_⟩
    · exact .write (write64_frame clock) ((virtualToPhysical_traced first :).append
        (.read _ ((virtualToPhysical_traced second).append (.read _ (.nil _)))))
    · rw [setReg_same]
      rw [Bytes.returned, returned_leafMark, Bytes.returned_cons_congr (returned_leafMark _ b _)] at hv
      exact returned_cut hw (by omega) hv
    · show (c₂.peripheral.checkDeviceRead pa w).receiver = (c.peripheral.checkDeviceRead pa w).receiver
      rw [virtualToPhysical_peripheral second, (virtualToPhysical_peripheral first :)]

theorem receiver_checkDeviceWrite (p : PeripheralEmulator) (a : BitVec 64) (w : Nat) (d : BitVec 64) :
    (p.checkDeviceWrite a w d).receiver = p.receiver := by
  unfold PeripheralEmulator.checkDeviceWrite
  dsimp only
  split <;> split <;> split <;> rfl

/-- An instruction that reads nothing and reports no read. -/
theorem Performs.stores {rd : BitVec 5} {l : List (Access 32)} (ht : Traced c.memory.bytes l c'.memory.bytes)
    (hl : ∀ b, Bytes.returned b l = none) (hp : c'.peripheral.receiver = c.peripheral.receiver) :
    Performs c c' rd { accesses := l } where
  traced := ht
  returns b v hv := by
    rw [hl b] at hv
    cases hv
  receiver := hp

theorem storeWd_frame {m m' : MemoryWrapper} {pa data : BitVec 64} {w : Nat} (h₁ : 1 ≤ w) (h₈ : w ≤ 8)
    (h : storeWd m pa data w = .ok m') : ∀ b, ¬ InArea (flat pa, w) b → m'.bytes b = m.bytes b := by
  intro b hb
  obtain ⟨m₁, hm₁, hbytes⟩ := storeWd_bytes m pa data h₁ h₈
  cases h.symm.trans hm₁
  rw [hbytes, Bytes.store_of_outside _ _ _ (by omega) hb]

/-- Neither part of a store changes a byte outside it. -/
theorem firstPart_frame {i : Instruction} {m m' : MemoryWrapper} {va pa data : BitVec 64} {w n : Nat}
    (hw : getStoreWidth i = .ok w) (part : getAccessWidth w va = n) (h : storeWd m pa data n = .ok m') :
    ∀ b, ¬ InArea (flat pa, n) b → m'.bytes b = m.bytes b := by
  obtain ⟨hpos, hle⟩ := getAccessWidth_pos (getStoreWidth_ok hw) va
  have hw8 := (getStoreWidth_ok hw).bounds.2
  exact storeWd_frame (by omega) (by omega) h

theorem secondPart_frame {i : Instruction} {m m' : MemoryWrapper} {pa data : BitVec 64} {w n : Nat}
    (hw : getStoreWidth i = .ok w) (more : w - n > 0) (h : storeWd m pa data (w - n) = .ok m') :
    ∀ b, ¬ InArea (flat pa, w - n) b → m'.bytes b = m.bytes b := by
  have hw8 := (getStoreWidth_ok hw).bounds.2
  exact storeWd_frame more (by omega) h

theorem storeInstruction_performs {i : Instruction} {rs1 rs2 : BitVec 5} (rd : BitVec 5) {imm : BitVec 32}
    (h : c.storeInstruction i rs1 rs2 imm = .ok c') :
    ∃ r, c.storeTrail i rs1 rs2 imm = .ok r ∧ Performs c c' rd r := by
  have hmark : ∀ b, Bytes.returned b (c.leafMark (c.reg rs1 + imm.signExtend 64)) = none := returned_leafMark_none _
  unfold storeTrail
  dsimp only
  cases storeInstruction_path h with
  | fault first hf =>
    rw [first, Except.ok_bind]
    dsimp only
    rw [if_pos hf]
    exact ⟨_, rfl, .trap (virtualToPhysical_traced first) hmark (virtualToPhysical_peripheral first)⟩
  | @whole pa c₁ m w n first hf hw part data last =>
    have hs := firstPart_frame hw part data
    rw [first, Except.ok_bind]
    dsimp only
    rw [if_neg (Bool.eq_false_iff.mp hf), hw, Except.ok_bind, part, data, Except.ok_bind, if_neg last]
    refine ⟨_, rfl, .stores ((virtualToPhysical_traced first).append (.write_one hs)) (fun b => ?_) ?_⟩
    · exact returned_leafMark _ b _
    · rw [receiver_checkDeviceWrite, virtualToPhysical_peripheral first]
  | @secondFault pa pa₂ c₁ c₂ m w n first hf hw part data more second hf₂ =>
    have hs := firstPart_frame hw part data
    have ht₂ : Traced m.bytes _ c₂.memory.bytes := (virtualToPhysical_traced second :)
    have hp₁ := virtualToPhysical_peripheral first
    have hp₂ : c₂.peripheral = c.peripheral := (virtualToPhysical_peripheral second :).trans hp₁
    rw [first, Except.ok_bind]
    dsimp only
    rw [if_neg (Bool.eq_false_iff.mp hf), hw, Except.ok_bind, part, data, Except.ok_bind, if_pos more, second,
      Except.ok_bind]
    dsimp only
    rw [if_pos hf₂]
    refine ⟨_, rfl, .trap ((virtualToPhysical_traced first).append (.write hs ht₂)) (fun b => ?_) hp₂⟩
    rw [returned_leafMark]
    exact returned_leafMark_none _ b
  | @cut pa pa₂ c₁ c₂ m m₂ w n first hf hw part data more second hf₂ high =>
    have hs := firstPart_frame hw part data
    have ht₂ : Traced m.bytes _ c₂.memory.bytes := (virtualToPhysical_traced second :)
    have hp₁ := virtualToPhysical_peripheral first
    have hp₂ : c₂.peripheral = c.peripheral := (virtualToPhysical_peripheral second :).trans hp₁
    have hs₂ := secondPart_frame hw more high
    rw [first, Except.ok_bind]
    dsimp only
    rw [if_neg (Bool.eq_false_iff.mp hf), hw, Except.ok_bind, part, data, Except.ok_bind, if_pos more, second,
      Except.ok_bind]
    dsimp only
    rw [if_neg (Bool.eq_false_iff.mp hf₂)]
    refine ⟨_, rfl, .stores ((virtualToPhysical_traced first).append (.write hs (ht₂.append (.write_one hs₂))))
      (fun b => ?_) ?_⟩
    · rw [returned_leafMark]
      exact returned_leafMark _ b _
    · rw [receiver_checkDeviceWrite, hp₂]

theorem amoInstruction_performs {i : Instruction} {rd rs1 rs2 : BitVec 5}
    (h : c.amoInstruction i rd rs1 rs2 = .ok c') : ∃ r, c.amoTrail i rs1 = .ok r ∧ Performs c c' rd r := by
  have hwidth : getLoadWidth (if isAmoDoubleword i then .ld else .lw) = .ok (if isAmoDoubleword i then 8 else 4) := by
    split <;> rfl
  unfold amoInstruction at h
  unfold amoTrail
  dsimp only at h ⊢
  obtain ⟨⟨pa₁, c₁⟩, h₁, h⟩ := Except.bind_ok_iff.mp h
  obtain ⟨t, ht, h⟩ := Except.bind_ok_iff.mp h
  obtain ⟨v, -, h⟩ := Except.bind_ok_iff.mp h
  obtain ⟨⟨pa₂, c₂⟩, h₂, h⟩ := Except.bind_ok_iff.mp h
  obtain ⟨m, hm, h⟩ := Except.bind_ok_iff.mp h
  cases h
  rw [h₁, Except.ok_bind, h₂, Except.ok_bind]
  have hp : c₂.peripheral = c.peripheral := (virtualToPhysical_peripheral h₂).trans (virtualToPhysical_peripheral h₁)
  have hw := (getLoadWidth_ok hwidth).bounds
  rw [loadWd_eq c₁.memory pa₁ hw.1 hw.2] at ht
  cases ht
  refine ⟨_, rfl, ?_, fun b r hr => ?_, congrArg _ hp⟩
  · exact (virtualToPhysical_traced h₁).append (.read _ ((virtualToPhysical_traced h₂).append
      (.write_one (storeWd_frame hw.1 hw.2 hm))))
  · rw [returned_leafMark, Bytes.returned_cons_congr (returned_leafMark _ b _)] at hr
    rw [setReg_same]
    have hext : (if (if isAmoDoubleword i then 8 else 4) = 4 then
          signExtend (Bytes.load 64 c₁.memory.bytes (flat pa₁) (if isAmoDoubleword i then 8 else 4)) 32
        else Bytes.load 64 c₁.memory.bytes (flat pa₁) (if isAmoDoubleword i then 8 else 4)) =
        extendLoad (if isAmoDoubleword i then .ld else .lw)
          (Bytes.load 64 c₁.memory.bytes (flat pa₁) (if isAmoDoubleword i then 8 else 4))
          (if isAmoDoubleword i then 8 else 4) := by
      cases isAmoDoubleword i <;> rfl
    rw [hext]
    exact returned_whole hwidth hr

theorem copyToGuest_frame {m m' : MemoryWrapper} {a : BitVec 64} {buffer : Nat → BitVec 8} {n : Nat} (hn : n ≤ 2 ^ 32)
    (h : copyToGuest m a buffer n = .ok m') : ∀ b, ¬ InArea (flat a, n) b → m'.bytes b = m.bytes b := by
  intro b hb
  obtain ⟨m₁, h₁, hbytes⟩ := copyToGuest_bytes m a buffer n
  cases h.symm.trans h₁
  rw [hbytes, Bytes.fill_byte _ _ _ hn, if_neg hb]

/-- Only `read` and `fstat` store to the memory. -/
theorem systemCallEmulation_memory {mem : MemoryWrapper} {reg : RegisterFile} {brk top : BitVec 64} {hs : HostState}
    {r : SystemCallResult} (h63 : reg a7 ≠ 63) (h80 : reg a7 ≠ 80)
    (h : systemCallEmulation host mem reg brk hs top = .ok r) : r.mem = mem := by
  unfold systemCallEmulation at h
  split at h
  · cases h; rfl
  split at h
  · obtain ⟨n, -, h⟩ := Except.bind_ok_iff.mp h
    obtain ⟨buffer, -, h⟩ := Except.bind_ok_iff.mp h
    cases h; rfl
  split at h
  · cases h
    unfold brkCall
    split_ifs <;> rfl
  split at h
  · cases h
    unfold closeCall
    split <;> rfl
  split at h
  · obtain ⟨n, -, h⟩ := Except.bind_ok_iff.mp h
    split at h
    · obtain ⟨path, -, h⟩ := Except.bind_ok_iff.mp h
      cases h; rfl
    · cases h; rfl
  split at h
  · cases h; rfl
  · cases h; rfl

theorem readCall_traced {mem : MemoryWrapper} {reg : RegisterFile} {brk : BitVec 64} {hs : HostState}
    {r : SystemCallResult} (h : readCall host mem reg brk hs = .ok r) :
    Traced mem.bytes [.write (flat (reg a1), ((reg a2).setWidth 32).toNat)] r.mem.bytes := by
  obtain ⟨n, hn, h⟩ := Except.bind_ok_iff.mp h
  obtain ⟨m, hm, h⟩ := Except.bind_ok_iff.mp h
  cases h
  unfold bufferLength at hn
  split at hn <;> cases hn
  exact .write_one (copyToGuest_frame (by omega) hm)

theorem fstatCall_traced {mem : MemoryWrapper} {reg : RegisterFile} {brk : BitVec 64} {hs : HostState}
    {r : SystemCallResult} (h : fstatCall host mem reg brk hs = .ok r) :
    Traced mem.bytes [.write (flat (reg a1), kGuestStatSize)] r.mem.bytes := by
  obtain ⟨m, hm, h⟩ := Except.bind_ok_iff.mp h
  cases h
  exact .write_one (copyToGuest_frame (by decide) hm)

theorem systemCall_performs (rd : BitVec 5) (he : c.ecallEmulation = true) (h : c.systemCall host = .ok c') :
    ∃ r, c.systemTrail 0 = .ok r ∧ Performs c c' rd r := by
  obtain ⟨r, hr, h⟩ := Except.bind_ok_iff.mp h
  cases h
  rw [systemTrail, if_pos ⟨rfl, he⟩]
  by_cases h63 : c.reg a7 = 63
  · rw [if_pos h63]
    simp only [systemCallEmulation, h63, if_true, show ¬ (63 : BitVec 64) = 93 by decide,
      show ¬ (63 : BitVec 64) = 64 by decide, show ¬ (63 : BitVec 64) = 214 by decide, if_false] at hr
    exact ⟨_, rfl, .stores (readCall_traced hr) (fun b => rfl) rfl⟩
  rw [if_neg h63]
  by_cases h80 : c.reg a7 = 80
  · rw [if_pos h80]
    simp only [systemCallEmulation, h80, if_true, show ¬ (80 : BitVec 64) = 93 by decide,
      show ¬ (80 : BitVec 64) = 64 by decide, show ¬ (80 : BitVec 64) = 214 by decide,
      show ¬ (80 : BitVec 64) = 63 by decide, if_false] at hr
    exact ⟨_, rfl, .stores (fstatCall_traced hr) (fun b => rfl) rfl⟩
  rw [if_neg h80]
  exact ⟨{}, rfl, .quiet (systemCallEmulation_memory h63 h80 hr) rfl⟩

theorem systemInstruction_performs {rd : BitVec 5} {imm : BitVec 32} (h : c.systemInstruction host rd imm = .ok c') :
    ∃ r, c.systemTrail imm = .ok r ∧ Performs c c' rd r := by
  unfold systemInstruction at h
  split at h
  · next himm =>
    subst himm
    split at h
    · next he => exact systemCall_performs rd he h
    · next he =>
      refine ⟨{}, by rw [systemTrail, if_neg fun h => he h.2], ?_⟩
      unfold RiscvCpu.ecall at h
      split at h
      all_goals
        obtain ⟨-, rfl⟩ := trap_ok_iff.mp h
        exact .trap (.nil _) (fun b => rfl) rfl
  next himm =>
  refine ⟨{}, by rw [systemTrail, if_neg fun h => himm h.1], ?_⟩
  split at h
  · cases h; exact .quiet rfl rfl
  split at h
  · exact .of_data (mret_data h)
  split at h
  · exact .of_data (sret_data h)
  split at h <;> cases h <;> exact .quiet rfl rfl

/-- An instruction touches what its trail says. -/
theorem execute_performs {d : Decoded} {csr : BitVec 12} (h : c.execute host d csr = .ok c') :
    Performs c c' d.rd (c.trail d) := by
  have htrail : ∀ {x : Except Crash Trail} {r : Trail},
      (if isLoad d.instruction then c.loadTrail d.instruction d.rs1 d.imm
      else if isStore d.instruction then c.storeTrail d.instruction d.rs1 d.rs2 d.imm
      else if isAmo d.instruction then c.amoTrail d.instruction d.rs1
      else if d.instruction = .system then c.systemTrail d.imm
      else .ok {}) = x → x = .ok r → Performs c c' d.rd r → Performs c c' d.rd (c.trail d) := by
    intro x r hx hr hp
    rw [trail, hx, hr]
    exact hp
  cases hi : d.instruction <;> rw [hi] at htrail <;> simp only [execute, hi] at h
  case add | addw | and | sub | subw | or | xor | sll | sllw | srl | srlw | sra | sraw =>
    obtain ⟨v, rfl, -⟩ := operationInstruction_ok h
    exact htrail rfl rfl (.quiet rfl rfl)
  case addi | addiw | andi | ori | xori =>
    obtain ⟨v, rfl, -⟩ := immediateInstruction_ok h
    exact htrail rfl rfl (.quiet rfl rfl)
  case slli | slliw | srli | srliw | srai | sraiw =>
    rcases immediateShiftInstruction_ok h with rfl | ⟨v, rfl, -⟩ <;> exact htrail rfl rfl (.quiet rfl rfl)
  case mul | mulh | mulhsu | mulhu | mulw | div | divu | divuw | divw | rem | remu | remuw | remw =>
    obtain ⟨v, rfl, -⟩ := multInstruction_ok h
    exact htrail rfl rfl (.quiet rfl rfl)
  case slt | sltu | slti | sltiu | lui | auipc | beq | bge | bgeu | blt | bltu | bne | fence | fencei | error =>
    cases h
    exact htrail rfl rfl (.quiet rfl rfl)
  case jal | jalr =>
    split at h <;> cases h <;> exact htrail rfl rfl (.quiet rfl rfl)
  case lb | lbu | lh | lhu | lw | lwu | ld =>
    obtain ⟨r, hr, hp⟩ := loadInstruction_performs h
    exact htrail rfl hr hp
  case sb | sh | sw | sd =>
    obtain ⟨r, hr, hp⟩ := storeInstruction_performs d.rd h
    exact htrail rfl hr hp
  case system =>
    obtain ⟨r, hr, hp⟩ := systemInstruction_performs h
    exact htrail rfl hr hp
  case csrrc | csrrci | csrrs | csrrsi | csrrw | csrrwi =>
    cases h
    have hd := csrsInstruction_data (c := c) d.instruction csr d.rd d.rs1
    rw [hi] at hd
    exact htrail rfl rfl (.quiet (congrArg Data.memory hd) (congrArg (fun x => x.peripheral.receiver) hd))
  all_goals
    obtain ⟨r, hr, hp⟩ := amoInstruction_performs h
    exact htrail rfl hr hp

/-- `LoadCmd`, which translates a second time for the upper half. -/
def fetchTrail (c : RiscvCpu) : Except Crash (List (Access 32)) := do
  let mark := c.leafMark c.pc
  let (physicalAddress, c₁) ← c.virtualToPhysical c.pc false
  let cmd ← c₁.memory.read32 ((physicalAddress >>> 2) <<< 2)
  let cmd := if c.pc &&& 0b10 = 0b10 then (cmd >>> 16) &&& 0xFFFF else cmd
  return if !c₁.pageFault ∧ c.pc &&& 0b10 = 0b10 ∧ cmd &&& 0b11 = 0b11 then mark ++ c₁.leafMark (c.pc + 2) else mark

theorem fetchStage_traced (h : c.fetchStage = .ok c') :
    ∃ l, c.fetchTrail = .ok l ∧ Traced c.memory.bytes l c'.memory.bytes := by
  obtain ⟨⟨ir, c₀⟩, hload, hc'⟩ := Except.bind_ok_iff.mp h
  cases hc'
  clear h
  obtain ⟨⟨pa, c₁⟩, h₁, h⟩ := Except.bind_ok_iff.mp hload
  dsimp only at h
  obtain ⟨cmd, hcmd, h⟩ := Except.bind_ok_iff.mp h
  have ht₁ := virtualToPhysical_traced h₁
  rw [fetchTrail, h₁, Except.ok_bind]
  dsimp only
  rw [hcmd, Except.ok_bind]
  generalize (if c.pc &&& 0b10 = 0b10 then (cmd >>> 16) &&& 0xFFFF else cmd) = cmd at h ⊢
  split at h
  · next hcond =>
    obtain ⟨⟨pa₂, c₂⟩, h₂, h⟩ := Except.bind_ok_iff.mp h
    dsimp only at h
    obtain ⟨w₂, -, h⟩ := Except.bind_ok_iff.mp h
    cases h
    rw [if_pos hcond]
    exact ⟨_, rfl, ht₁.append (virtualToPhysical_traced h₂)⟩
  · next hcond =>
    cases h
    rw [if_neg hcond]
    exact ⟨_, rfl, ht₁⟩

end RiscvCpu

namespace PeripheralEmulator

variable {p p' : PeripheralEmulator} {m m' : MemoryWrapper}

/-! ## What the disk touches -/

/-- `process_disc_access`: the data of a request that reads, and the status. -/
def chainTrail (p : PeripheralEmulator) (mem : MemoryWrapper) (descAddress : BitVec 64) (descIndex : BitVec 16) :
    Except Crash (List (Access 32)) := do
  let (c, next) ← chainCall mem descAddress descIndex
  let (_, mem) ← p.discAccess mem c.sector c.buffer c.len c.write
  let desc ← readDesc mem descAddress next
  let status : Access 32 := .write (flat desc.addr, 1)
  return if c.write then [status] else [.write (flat c.buffer, c.len.toNat), status]

/-- `process_used_buffer`. -/
def usedTrail (mem : MemoryWrapper) (usedBufferAddress : BitVec 64) : Except Crash (List (Access 32)) := do
  let currentUsedIndex ← mem.read16 (usedBufferAddress + 2)
  let entry := usedBufferAddress + 4 + currentUsedIndex.setWidth 64 * 8
  return [.write (flat entry, 4), .write (flat (entry + 4), 4), .write (flat (usedBufferAddress + 2), 2)]

/-- `VirtioDiskAccess`. -/
def diskTrail (p : PeripheralEmulator) (mem : MemoryWrapper) (queueAddress : BitVec 64) :
    Except Crash (List (Access 32)) := do
  let availAddress := queueAddress + (p.queueNum * 16).setWidth 64
  let descIndex ← p.getDescIndex mem availAddress
  let request ← p.chainTrail mem queueAddress descIndex
  let (_, mem) ← p.processDiscAccess mem queueAddress descIndex
  return request ++ (← usedTrail mem (p.usedRingAddress queueAddress))

/-- The rest of `VirtioEmulation`, after the store to QUEUE_SEL. -/
def notifyTrail (p : PeripheralEmulator) (mem : MemoryWrapper) : Except Crash (List (Access 32)) := do
  let queueNum ← mem.read32 kVirtioMmioQueueNum
  let kPageSize ← mem.read32 kVirtioMmioPageSize
  let kQueueAddress := ((← mem.read32 kVirtioMmioQueuePfn) * kPageSize).setWidth 64
  let request ← { p with queueNum }.diskTrail mem kQueueAddress
  return request ++ [.write (flat kPlicClaimAddress, 4)]

/-- `VirtioEmulation`. -/
def virtioTrail (p : PeripheralEmulator) (mem : MemoryWrapper) : List (Access 32) :=
  if !p.virtioWrite then []
  else
    let rest := if !p.notified then [] else
      let p := { p with virtioWrite := false }
      (p.queueSelect mem >>= p.notifyTrail).toOption.getD []
    .write (flat kVirtioMmioQueueMax, 4) :: rest

theorem discRead_frame {image : List (BitVec 8)} {sectorAddress bufferAddress : BitVec 64} {n : Nat} (hn : n ≤ 2 ^ 32)
    (h : discRead m image sectorAddress bufferAddress n = .ok m') :
    ∀ b, ¬ InArea (flat bufferAddress, n) b → m'.bytes b = m.bytes b := by
  induction n generalizing m' with
  | zero =>
    cases h
    exact fun _ _ => rfl
  | succ n ih =>
    intro b hb
    obtain ⟨m₁, h₁, h⟩ := Except.bind_ok_iff.mp h
    dsimp only at h
    split at h
    · cases h
    rw [writeByte_frame h b, ih (by omega) h₁ b]
    · intro hin
      exact hb (Nat.lt_succ_of_lt hin)
    · -- The byte written last is the last of the area.
      intro hin
      rw [MemoryWrapper.flat_add, InArea] at hin
      have hlast : b = flat bufferAddress + BitVec.ofNat 32 n := by
        rw [← Bytes.add_ofNat_sub (flat bufferAddress + BitVec.ofNat 32 n) b, Nat.lt_one_iff.mp hin,
          BitVec.add_zero]
      rw [hlast] at hb
      exact hb (Bytes.inArea_offset _ (by omega) (by omega))

theorem discAccess_traced {sector buffer : BitVec 64} {len : BitVec 32} {write : Bool}
    (h : p.discAccess m sector buffer len write = .ok (p', m')) :
    Traced m.bytes (if write then [] else [.write (flat buffer, len.toNat)]) m'.bytes := by
  unfold discAccess at h
  dsimp only at h
  split at h
  · next hw =>
    obtain ⟨image, -, h⟩ := Except.bind_ok_iff.mp h
    cases h
    rw [if_pos hw]
    exact .nil _
  · next hw =>
    obtain ⟨m₁, h₁, h⟩ := Except.bind_ok_iff.mp h
    cases h
    rw [if_neg hw]
    exact .write_one (discRead_frame (by omega) h₁)

theorem processDiscAccess_traced {a : BitVec 64} {i : BitVec 16} (h : p.processDiscAccess m a i = .ok (p', m')) :
    ∃ l, p.chainTrail m a i = .ok l ∧ Traced m.bytes l m'.bytes := by
  rw [processDiscAccess_call] at h
  obtain ⟨⟨c, next⟩, hcall, h⟩ := Except.bind_ok_iff.mp h
  obtain ⟨⟨p₁, m₁⟩, haccess, h⟩ := Except.bind_ok_iff.mp h
  obtain ⟨desc, hdesc, h⟩ := Except.bind_ok_iff.mp h
  obtain ⟨-, -, h⟩ := Except.bind_ok_iff.mp h
  obtain ⟨m₂, hstatus, h⟩ := Except.bind_ok_iff.mp h
  cases h
  unfold chainTrail
  rw [hcall, Except.ok_bind]
  dsimp only
  rw [haccess, Except.ok_bind, hdesc, Except.ok_bind]
  refine ⟨_, rfl, ?_⟩
  have hdata := (discAccess_traced haccess).append (.write_one (writeByte_frame hstatus))
  split at hdata
  · next hw =>
    rw [if_pos hw]
    exact hdata
  · next hw =>
    rw [if_neg hw]
    exact hdata

theorem processUsedBuffer_traced {a : BitVec 64} {i : BitVec 16} (h : processUsedBuffer m a i = .ok m') :
    ∃ l, usedTrail m a = .ok l ∧ Traced m.bytes l m'.bytes := by
  obtain ⟨idx, hidx, h⟩ := Except.bind_ok_iff.mp h
  obtain ⟨m₁, h₁, h⟩ := Except.bind_ok_iff.mp h
  obtain ⟨m₂, h₂, h⟩ := Except.bind_ok_iff.mp h
  unfold usedTrail
  rw [hidx, Except.ok_bind]
  exact ⟨_, rfl, .write (write32_frame h₁) (.write (write32_frame h₂) (.write_one (write16_frame h)))⟩

theorem virtioDiskAccess_traced {a : BitVec 64} (h : p.virtioDiskAccess m a = .ok (p', m')) :
    ∃ l, p.diskTrail m a = .ok l ∧ Traced m.bytes l m'.bytes := by
  obtain ⟨i, m₁, hi, hprocess, hused⟩ := virtioDiskAccess_ok h
  obtain ⟨request, hrequest, ht⟩ := processDiscAccess_traced hprocess
  obtain ⟨used, hused', ht'⟩ := processUsedBuffer_traced hused
  unfold diskTrail
  dsimp only at hused' ⊢
  rw [hi, Except.ok_bind, hrequest, Except.ok_bind, hprocess, Except.ok_bind, hused']
  exact ⟨_, rfl, ht.append ht'⟩

theorem queueNotify_traced (h : p.queueNotify m = .ok (p', m')) :
    ∃ l, p.notifyTrail m = .ok l ∧ Traced m.bytes l m'.bytes := by
  obtain ⟨q, f, p₁, m₁, hq, hk, hf, hdisk, hclaim, rfl⟩ := queueNotify_ok h
  obtain ⟨l, hl, ht⟩ := virtioDiskAccess_traced hdisk
  unfold notifyTrail
  rw [hq, Except.ok_bind, hk, Except.ok_bind, hf, Except.ok_bind]
  dsimp only [queueAddress] at hl ⊢
  rw [hl]
  exact ⟨_, rfl, ht.append (.write_one (write32_frame hclaim))⟩

theorem virtioEmulation_traced (h : p.virtioEmulation m = .ok (p', m')) :
    Traced m.bytes (p.virtioTrail m) m'.bytes := by
  unfold virtioTrail
  cases virtioEmulation_path h with
  | idle write =>
    rw [write]
    exact .nil _
  | other write quiet select =>
    rw [write, quiet]
    exact .write (queueSelect_frame select) (.nil _)
  | served write notify select serve =>
    rw [write, notify]
    obtain ⟨l, hl, ht⟩ := queueNotify_traced serve
    refine .write (queueSelect_frame select) ?_
    dsimp only
    rw [select, Except.ok_bind, hl]
    exact ht

end PeripheralEmulator

end RiscvEmulator
