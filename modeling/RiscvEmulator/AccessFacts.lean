/-
`LoadWd` and `StoreWd` are the loads and stores of `Lib.Bytes`, whichever
path they take, and so agree with accesses of single bytes
(`wide_eq_bytewise`). `GetAccessWidth` cuts an access at the end of its
doubleword.
-/
import RiscvEmulator.Execute
import RiscvEmulator.MemoryFacts

namespace RiscvEmulator

open Bytes (byteOf)
open MemoryWrapper (flat flat_add)

namespace RiscvCpu

variable {pa : BitVec 64} {w : Nat}

theorem loadBytes_eq (m : MemoryWrapper) (pa : BitVec 64) (w : Nat) :
    loadBytes m pa w = .ok (Bytes.load 64 m.bytes (flat pa) w) := by
  induction w with
  | zero => rfl
  | succ w ih =>
    simp only [loadBytes, ih, MemoryWrapper.readByte_eq, flat_add, Except.ok_bind, Nat.mul_comm w 8]
    rfl

theorem aligned4_iff : pa &&& 0b11#64 = 0#64 ↔ pa.toNat % 4 = 0 := Bits.and_ones_eq_zero pa 2

theorem aligned8_iff : pa &&& 0b111#64 = 0#64 ↔ pa.toNat % 8 = 0 := Bits.and_ones_eq_zero pa 3

theorem loadWd_eq (m : MemoryWrapper) (pa : BitVec 64) (h₁ : 1 ≤ w) (h₈ : w ≤ 8) :
    loadWd m pa w = .ok (Bytes.load 64 m.bytes (flat pa) w) := by
  rw [loadWd, assert_bind (decide_eq_true ⟨h₁, h₈⟩)]
  split
  · next h =>
    obtain ⟨rfl, ha⟩ := h
    rw [MemoryWrapper.read32_eq m (aligned4_iff.mp ha), Except.ok_bind, Bytes.load_setWidth _ _ (by decide)]
    rfl
  split
  · next h =>
    obtain ⟨rfl, ha⟩ := h
    exact MemoryWrapper.read64_eq m (aligned8_iff.mp ha)
  · exact loadBytes_eq m pa w

theorem storeBytes_bytes (m : MemoryWrapper) (pa data : BitVec 64) (w : Nat) :
    ∃ m', storeBytes m pa data w = .ok m' ∧ m'.bytes = Bytes.store m.bytes (flat pa) data w := by
  induction w with
  | zero => exact ⟨m, rfl, rfl⟩
  | succ w ih =>
    obtain ⟨m₁, h₁, hb₁⟩ := ih
    obtain ⟨m₂, h₂, hb₂⟩ := m₁.writeByte_bytes (pa + BitVec.ofNat 64 w) (((data >>> (w * 8)) &&& 0xFF).setWidth 8)
    have hbyte : byteOf (((data >>> (w * 8)) &&& 0xFF).setWidth 8) 0 = byteOf data w := by
      apply BitVec.eq_of_getLsbD_eq
      intro i hi
      have hand : ((data >>> (w * 8)) &&& 0xFF).getLsbD (8 * 0 + i) = _ := Bits.getLsbD_and_ones (data >>> (w * 8)) 8 _
      rw [Bytes.getLsbD_byteOf, Bytes.getLsbD_byteOf, BitVec.getLsbD_setWidth, hand, BitVec.getLsbD_ushiftRight,
        show w * 8 + (8 * 0 + i) = 8 * w + i by omega]
      simp [hi]
    refine ⟨m₂, ?_, ?_⟩
    · rw [storeBytes, h₁]; exact h₂
    · rw [hb₂, hb₁, flat_add, Bytes.store, Bytes.store, Bytes.store, hbyte, BitVec.add_zero]

theorem storeWd_bytes (m : MemoryWrapper) (pa data : BitVec 64) (h₁ : 1 ≤ w) (h₈ : w ≤ 8) :
    ∃ m', storeWd m pa data w = .ok m' ∧ m'.bytes = Bytes.store m.bytes (flat pa) data w := by
  rw [storeWd, assert_bind (decide_eq_true ⟨h₁, h₈⟩)]
  split
  · next h =>
    obtain ⟨rfl, ha⟩ := h
    obtain ⟨m', hw, hb⟩ := m.write32_bytes (aligned4_iff.mp ha) (data.setWidth 32)
    refine ⟨m', hw, ?_⟩
    rw [hb, Bytes.store_setWidth _ _ data (by decide)]
  split
  · next h =>
    obtain ⟨rfl, ha⟩ := h
    exact m.write64_bytes (aligned8_iff.mp ha) data
  · exact storeBytes_bytes m pa data w

/-! ## Byte by byte -/

/-- Byte `k` of `data` written at `pa + k`, for `k < w`. -/
def writeBytes (m : MemoryWrapper) (pa data : BitVec 64) (w : Nat) : Except Crash MemoryWrapper :=
  (List.range w).foldlM (fun m k => m.writeByte (pa + BitVec.ofNat 64 k) (byteOf data k)) m

theorem writeBytes_bytes (m : MemoryWrapper) (pa data : BitVec 64) (w : Nat) :
    ∃ m', writeBytes m pa data w = .ok m' ∧ m'.bytes = Bytes.store m.bytes (flat pa) data w := by
  induction w with
  | zero => exact ⟨m, rfl, rfl⟩
  | succ w ih =>
    obtain ⟨m₁, h₁, hb₁⟩ := ih
    obtain ⟨m₂, h₂, hb₂⟩ := m₁.writeByte_bytes (pa + BitVec.ofNat 64 w) (byteOf data w)
    rw [writeBytes] at h₁
    refine ⟨m₂, ?_, ?_⟩
    · rw [writeBytes, List.range_succ, List.foldlM_append, h₁, Except.ok_bind, List.foldlM_cons, h₂]
      rfl
    · rw [hb₂, hb₁, flat_add, Bytes.store, Bytes.store, Bytes.store, Bytes.byteOf_byte, BitVec.add_zero]

/-- **Wide accesses agree with byte accesses**, whichever path they take: a
load is the little-endian composition of the bytes read one by one, and
after a store every byte reads as after the writes one by one. -/
theorem wide_eq_bytewise (m : MemoryWrapper) (pa data : BitVec 64) (h₁ : 1 ≤ w) (h₈ : w ≤ 8) :
    (∃ (v : BitVec 64) (read : Nat → BitVec 8), loadWd m pa w = .ok v ∧
      (∀ k < w, m.readByte (pa + BitVec.ofNat 64 k) = .ok (read k)) ∧
      v.toNat = ∑ k ∈ Finset.range w, (read k).toNat * 2 ^ (8 * k)) ∧
    ∃ m₁ m₂, storeWd m pa data w = .ok m₁ ∧ writeBytes m pa data w = .ok m₂ ∧
      ∀ i, m₁.readByte i = m₂.readByte i := by
  constructor
  · refine ⟨_, fun k => m.bytes (flat pa + BitVec.ofNat 32 k), loadWd_eq m pa h₁ h₈, fun k _ => ?_, ?_⟩
    · rw [MemoryWrapper.readByte_eq, flat_add]
    · exact (Bytes.toNat_compose _ (by omega)).1
  · obtain ⟨m₁, hw₁, hb₁⟩ := storeWd_bytes m pa data h₁ h₈
    obtain ⟨m₂, hw₂, hb₂⟩ := writeBytes_bytes m pa data w
    refine ⟨m₁, m₂, hw₁, hw₂, fun i => ?_⟩
    rw [MemoryWrapper.readByte_eq, MemoryWrapper.readByte_eq, hb₁, hb₂]

/-- Seven bytes over the end of a fresh memory. -/
theorem wide_eq_bytewise_seven :
    ∃ m₁ m₂, storeWd .new 0xFFFFFFFD 0x11223344556677 7 = .ok m₁ ∧
      writeBytes .new 0xFFFFFFFD 0x11223344556677 7 = .ok m₂ ∧ ∀ i, m₁.readByte i = m₂.readByte i :=
  (wide_eq_bytewise .new 0xFFFFFFFD 0x11223344556677 (by decide) (by decide)).2

/-! ## The cut -/

/-- The widths of the loads and stores. -/
def IsWidth (w : Nat) : Prop := w = 1 ∨ w = 2 ∨ w = 4 ∨ w = 8

theorem IsWidth.bounds (h : IsWidth w) : 1 ≤ w ∧ w ≤ 8 := by
  rcases h with rfl | rfl | rfl | rfl <;> decide

/-- An access that would leave its doubleword is cut at the end of it. -/
theorem getAccessWidth_eq (h : IsWidth w) (a : BitVec 64) :
    getAccessWidth w a = if a.toNat % 8 + w ≤ 8 then w else 8 - a.toNat % 8 := by
  have h1 : (a &&& 0b1).toNat = a.toNat % 2 ^ 1 := Bits.toNat_and_ones a 1
  have h2 : (a &&& 0b11).toNat = a.toNat % 2 ^ 2 := Bits.toNat_and_ones a 2
  have h3 : (a &&& 0b111).toNat = a.toNat % 2 ^ 3 := Bits.toNat_and_ones a 3
  unfold getAccessWidth
  dsimp only
  rw [h3, Nat.shiftRight_eq_div_pow]
  rcases h with rfl | rfl | rfl | rfl
  · rw [if_neg (by omega), if_pos (by omega)]
  · simp only [if_true, h1]
    split <;> split <;> omega
  · simp only [show ¬ (4 = 2) by decide, if_false, if_true, h2]
    split <;> split <;> omega
  · simp only [show ¬ (8 = 2) by decide, show ¬ (8 = 4) by decide, if_false, if_true, h3]
    split <;> split <;> omega

theorem getAccessWidth_pos (h : IsWidth w) (a : BitVec 64) : 1 ≤ getAccessWidth w a ∧ getAccessWidth w a ≤ w := by
  rw [getAccessWidth_eq h]
  rcases h with rfl | rfl | rfl | rfl <;> split <;> omega

theorem getLoadWidth_ok {i : Instruction} (h : getLoadWidth i = .ok w) : IsWidth w := by
  unfold getLoadWidth at h
  split at h <;> cases h <;> simp [IsWidth]

theorem getStoreWidth_ok {i : Instruction} (h : getStoreWidth i = .ok w) : IsWidth w := by
  unfold getStoreWidth at h
  split at h <;> cases h <;> simp [IsWidth]

/-- The mask on the first part of a store keeps the bytes that are stored. -/
theorem byteOf_dataMask (v : BitVec 64) {j : Nat} (hw : w ≤ 8) (hj : j < w) :
    byteOf (v &&& (generateBitMask (w * 8)).signExtend 64) j = byteOf v j := by
  have hmask : ∀ (w : Fin 9) (i : Fin 64), i.val < w.val * 8 →
      ((generateBitMask (w.val * 8)).signExtend 64).getLsbD i = true := by decide
  apply BitVec.eq_of_getLsbD_eq
  intro i hi
  rw [Bytes.getLsbD_byteOf, Bytes.getLsbD_byteOf, BitVec.getLsbD_and,
    hmask ⟨w, by omega⟩ ⟨8 * j + i, by omega⟩ (by dsimp only; omega), Bool.and_true]

end RiscvCpu

end RiscvEmulator
