/-
The default tables, and the translations they give.

The loops lay one table of entries at 0xC0000000, the levels one after
another (`setDefaultMmuTable32_bytes`, `setDefaultMmuTable64_bytes`). What
translations do to it is to set bits 6 and 7 of entries that are valid
(`Marked`), so the walk finds the same page numbers before and after any of
them.
-/
import RiscvEmulator.DefaultTable
import RiscvEmulator.MmuFacts

namespace RiscvEmulator

open PageWalk (Format sv32 sv39)
open Bytes (byteOf fill)
open Run (rounds)

/-! ## The loops -/

/-- `SetPpn` keeps the flags. -/
theorem Pte32.toNat_setPpn (p : Pte32) {ppn : BitVec 32} (h : ppn.toNat < 2 ^ 22) :
    (p.setPpn ppn).pte.toNat = ppn.toNat * 1024 + p.pte.toNat % 1024 := by
  have hmask : ~~~genMask 32 22 10 = Bits.ones 32 10 := by decide
  have hflags : (p.pte &&& Bits.ones 32 10).toNat = p.pte.toNat % 1024 := Bits.toNat_and_ones _ _
  rw [setPpn, hmask, BitVec.or_comm, Bits.toNat_shiftLeft_or _ _ (by omega) (by omega), hflags,
    show 2 ^ 10 = 1024 by rfl]

/-- A loop whose rounds write consecutive entries writes a table. `P` is
what it knows of the entry it carries. -/
theorem rounds_fill {n k count : Nat} {body : Nat → TableState → Except Crash TableState} {P : Nat → Pte32 → Prop}
    {f : Nat → BitVec n} {base : BitVec 32}
    (hbody : ∀ i < count, ∀ pte m, P i pte → ∃ pte' m', body i (pte, m) = .ok (pte', m') ∧ P (i + 1) pte' ∧
      m'.bytes = Bytes.store m.bytes (base + BitVec.ofNat 32 (k * i)) (f i) k)
    {pte : Pte32} (m : MemoryWrapper) (hP : P 0 pte) :
    ∃ pte' m', rounds body count (pte, m) = .ok (pte', m') ∧ P count pte' ∧ m'.bytes = fill m.bytes base k f count := by
  obtain ⟨⟨pte', m'⟩, hr, hP', hb⟩ := @Run.rounds_ok _ _ body
    (fun i s => P i s.1 ∧ s.2.bytes = fill m.bytes base k f i) count (pte, m) ⟨hP, rfl⟩ (by
      intro i hi s hI
      obtain ⟨pte', m', hr, hP', hb⟩ := hbody i hi s.1 s.2 hI.1
      exact ⟨(pte', m'), hr, hP', by rw [hb, hI.2]; rfl⟩)
  exact ⟨pte', m', hr, hP', hb⟩

/-- The entries of the 32-bit table: the root, then the pages. -/
def entry32 (i : Nat) : Nat := if i < 1024 then (0xC0001 + i) * 1024 + 1 else (i - 1024) * 1024 + 15

/-- The entries of the 64-bit table. From the fifth on, those of the root
point to page zero: they are valid still. -/
def entry64 (i : Nat) : Nat :=
  if i < 4 then (0xC0001 + i) * 1024 + 1
  else if i < 512 then 1
  else if i < 2560 then (0xC0005 + (i - 512)) * 1024 + 1
  else (i - 2560) * 1024 + 15

/-- The entry a round makes: the page number given, the flags carried. -/
theorem setPpn_value {pte : Pte32} {ppn : BitVec 32} {p flags e : Nat} (hf : pte.pte.toNat % 1024 = flags)
    (hppn : ppn.toNat = p) (hp : p < 2 ^ 22) (he : p * 1024 + flags = e) :
    (pte.setPpn ppn).pte.toNat % 1024 = flags ∧ (pte.setPpn ppn).getValue.toNat = e := by
  have hv := pte.toNat_setPpn (show ppn.toNat < 2 ^ 22 by omega)
  have hval : (pte.setPpn ppn).getValue = (pte.setPpn ppn).pte := rfl
  rw [hval]
  omega

/-- And where it is written. -/
theorem write_entry32 (m : MemoryWrapper) {v address base : BitVec 32} {e i : Nat} (hv : v.toNat = e)
    (ha : address = base + BitVec.ofNat 32 (4 * i)) (hb : base.toNat % 4 = 0) :
    ∃ m', m.write32 (address.setWidth 64) v = .ok m' ∧
      m'.bytes = Bytes.store m.bytes (base + BitVec.ofNat 32 (4 * i)) (BitVec.ofNat 32 e) 4 := by
  have haddr : address.toNat % 4 = 0 := by
    rw [ha, BitVec.toNat_add, BitVec.toNat_ofNat]; omega
  obtain ⟨m', hw, hm⟩ := m.write32_bytes (i := address.setWidth 64) (by rw [BitVec.toNat_setWidth]; omega) v
  refine ⟨m', hw, ?_⟩
  rw [hm, ← ha, ← hv, BitVec.ofNat_toNat, BitVec.setWidth_eq]
  simp [MemoryWrapper.flat, BitVec.setWidth_setWidth_of_le]

theorem write_entry64 (m : MemoryWrapper) {v address base : BitVec 32} {e i : Nat} (hv : v.toNat = e)
    (ha : address = base + BitVec.ofNat 32 (8 * i)) (hb : base.toNat % 8 = 0) :
    ∃ m', m.write64 (address.setWidth 64) (v.setWidth 64) = .ok m' ∧
      m'.bytes = Bytes.store m.bytes (base + BitVec.ofNat 32 (8 * i)) (BitVec.ofNat 64 e) 8 := by
  have haddr : address.toNat % 8 = 0 := by
    rw [ha, BitVec.toNat_add, BitVec.toNat_ofNat]; omega
  obtain ⟨m', hw, hm⟩ := m.write64_bytes (i := address.setWidth 64) (by rw [BitVec.toNat_setWidth]; omega)
    (v.setWidth 64)
  refine ⟨m', hw, ?_⟩
  rw [hm, ← ha, ← hv, BitVec.ofNat_toNat]
  simp [MemoryWrapper.flat, BitVec.setWidth_setWidth_of_le]

/-- What the loops know of the entry they carry. -/
def Flags (flags : Nat) (pte : Pte32) : Prop := pte.pte.toNat % 1024 = flags

theorem level1Round32_ok {i : Nat} (hi : i < 1024) (pte : Pte32) (m : MemoryWrapper) (hf : Flags 1 pte) :
    ∃ pte' m', level1Round32 i (pte, m) = .ok (pte', m') ∧ Flags 1 pte' ∧
      m'.bytes = Bytes.store m.bytes (0xC0000000#32 + BitVec.ofNat 32 (4 * i)) (BitVec.ofNat 32 (entry32 i)) 4 := by
  have hppn : ((k32BitMmuLevel0 + BitVec.ofNat 32 (i * k32BitMmuLevelZeroSize * k32BitPteSize)) >>> 12).toNat =
      0xC0001 + i := by
    rw [BitVec.toNat_ushiftRight, BitVec.toNat_add, BitVec.toNat_ofNat, Nat.shiftRight_eq_div_pow,
      show k32BitMmuLevel0.toNat = 0xC0001000 by decide, show k32BitMmuLevelZeroSize = 1024 by rfl,
      show k32BitPteSize = 4 by rfl]
    omega
  obtain ⟨hf', hv⟩ := setPpn_value hf hppn (by omega) (show _ = entry32 i by rw [entry32, if_pos hi])
  have ha : k32BitMmuLevel1 + BitVec.ofNat 32 (i * k32BitPteSize) = 0xC0000000#32 + BitVec.ofNat 32 (4 * i) := by
    rw [Nat.mul_comm]; rfl
  obtain ⟨m', hw, hb⟩ := write_entry32 m hv ha (by decide)
  exact ⟨_, m', by simp only [level1Round32, hw, Except.ok_bind, Except.pure_eq_ok], hf', hb⟩

theorem level0Round32_ok {i : Nat} (hi : i < 1024 * 1024) (pte : Pte32) (m : MemoryWrapper) (hf : Flags 15 pte) :
    ∃ pte' m', level0Round32 0 i (pte, m) = .ok (pte', m') ∧ Flags 15 pte' ∧
      m'.bytes =
        Bytes.store m.bytes (0xC0001000#32 + BitVec.ofNat 32 (4 * i)) (BitVec.ofNat 32 (entry32 (1024 + i))) 4 := by
  have hppn : (BitVec.ofNat 32 (0 * k32BitMmuLevelZeroSize + i)).toNat = i := by
    rw [Nat.zero_mul, Nat.zero_add, BitVec.toNat_ofNat]; omega
  have haddr : k32BitMmuLevel0 + BitVec.ofNat 32 (0 * k32BitMmuLevelZeroSize + i) * BitVec.ofNat 32 k32BitPteSize =
      0xC0001000#32 + BitVec.ofNat 32 (4 * i) := by
    rw [Nat.zero_mul, Nat.zero_add, ← BitVec.ofNat_mul, Nat.mul_comm]; rfl
  have hapart : decide (k32BitMmuLevel0 + BitVec.ofNat 32 (0 * k32BitMmuLevelZeroSize + i) *
      BitVec.ofNat 32 k32BitPteSize < k32BitMmuLevel1 ∨
        k32BitMmuLevel1 + BitVec.ofNat 32 (k32BitMmuLevelOneSize * k32BitPteSize) ≤
          k32BitMmuLevel0 +
            BitVec.ofNat 32 (0 * k32BitMmuLevelZeroSize + i) * BitVec.ofNat 32 k32BitPteSize) = true := by
    rw [haddr, decide_eq_true_iff]
    right
    rw [BitVec.le_def, BitVec.toNat_add, BitVec.toNat_add, BitVec.toNat_ofNat, BitVec.toNat_ofNat,
      BitVec.toNat_ofNat, show k32BitMmuLevel1.toNat = 0xC0000000 by rfl,
      show k32BitMmuLevelOneSize * k32BitPteSize = 4096 by rfl]
    omega
  obtain ⟨hf', hv⟩ := setPpn_value hf hppn (by omega) (show _ = entry32 (1024 + i) by
    rw [entry32, if_neg (by omega), Nat.add_sub_cancel_left])
  obtain ⟨m', hw, hb⟩ := write_entry32 m hv haddr (by decide)
  exact ⟨_, m', by simp only [level0Round32, assert_bind hapart, hw, Except.ok_bind, Except.pure_eq_ok], hf', hb⟩

theorem level0Round32_eq (j i : Nat) : level0Round32 j i = level0Round32 0 (j * 1024 + i) := by
  funext s
  simp only [level0Round32, Nat.zero_mul, Nat.zero_add, k32BitMmuLevelZeroSize]
  rfl

/-- The two loops over the pages are one. -/
theorem rounds_level0Round32 (s : TableState) : rounds (fun j => rounds (level0Round32 j) k32BitMmuLevelZeroSize)
    k32BitMmuLevelOneSize s = rounds (level0Round32 0) (1024 * 1024) s := by
  rw [← Run.rounds_rounds, k32BitMmuLevelZeroSize, k32BitMmuLevelOneSize]
  refine Run.rounds_congr (fun j _ s => Run.rounds_congr (fun i _ s => ?_) s) s
  rw [level0Round32_eq]

/-- The flags of a pointer become those of a page. -/
theorem flags_page {pte : Pte32} (hf : Flags 1 pte) : Flags 15 (((pte.setX true).setW true).setR true) := by
  have h15 : (((pte.setX true).setW true).setR true).pte.toNat = pte.pte.toNat ||| 8 ||| 4 ||| 2 := by
    rw [Pte32.setR, toNat_setBit _ (by decide), Pte32.setW, toNat_setBit _ (by decide), Pte32.setX,
      toNat_setBit _ (by decide)]
    rfl
  unfold Flags at hf ⊢
  rw [h15, Nat.or_assoc, Nat.or_assoc, show (1024 : Nat) = 2 ^ 10 by rfl, Nat.or_mod_two_pow,
    show (2 : Nat) ^ 10 = 1024 by rfl,
    hf]
  rfl

theorem setDefaultMmuTable32_eq (m : MemoryWrapper) : setDefaultMmuTable32 m = (do
    let s ← rounds level1Round32 k32BitMmuLevelOneSize ((Pte32.mk 0).setV true, m)
    let s ← rounds (fun j => rounds (level0Round32 j) k32BitMmuLevelZeroSize) k32BitMmuLevelOneSize
      (((s.1.setX true).setW true).setR true, s.2)
    return s.2) := by
  rfl

/-- The 32-bit table: the root's entries and the pages', one after another. -/
theorem setDefaultMmuTable32_bytes (m : MemoryWrapper) : ∃ m', setDefaultMmuTable32 m = .ok m' ∧
    m'.bytes = fill m.bytes 0xC0000000#32 4 (fun i => BitVec.ofNat 32 (entry32 i)) (1024 + 1024 * 1024) := by
  obtain ⟨pte₁, m₁, hr₁, hf₁, hb₁⟩ := @rounds_fill 32 4 k32BitMmuLevelOneSize level1Round32 (fun _ => Flags 1)
    (fun i => BitVec.ofNat 32 (entry32 i)) 0xC0000000#32 (fun _ hi pte m hf => level1Round32_ok hi pte m hf)
    ((Pte32.mk 0).setV true) m rfl
  obtain ⟨pte₂, m₂, hr₂, -, hb₂⟩ := @rounds_fill 32 4 (1024 * 1024) (level0Round32 0) (fun _ => Flags 15)
    (fun i => BitVec.ofNat 32 (entry32 (1024 + i))) 0xC0001000#32 (fun _ hi pte m hf => level0Round32_ok hi pte m hf)
    _ m₁ (flags_page hf₁)
  refine ⟨m₂, ?_, ?_⟩
  · rw [setDefaultMmuTable32_eq, hr₁, Except.ok_bind, rounds_level0Round32, hr₂, Except.ok_bind, Except.pure_eq_ok]
  · rw [hb₂, hb₁, show 0xC0001000#32 = 0xC0000000#32 + BitVec.ofNat 32 (4 * 1024) by rfl, k32BitMmuLevelOneSize,
      Bytes.fill_append]

/-! ## The 64-bit loops -/

/-- V is set by the first round, and stays. -/
def FlagsV (i : Nat) : Pte32 → Prop := Flags (if i = 0 then 0 else 1)

theorem flags_setV {pte : Pte32} (hf : Flags 0 pte ∨ Flags 1 pte) : Flags 1 (pte.setV true) := by
  have h1 : (pte.setV true).pte.toNat = pte.pte.toNat ||| 1 := toNat_setBit _ (by decide)
  unfold Flags at hf ⊢
  rw [h1, show (1024 : Nat) = 2 ^ 10 by rfl, Nat.or_mod_two_pow, show (2 : Nat) ^ 10 = 1024 by rfl]
  rcases hf with hf | hf <;> rw [hf] <;> rfl

theorem level2Round64_ok {i : Nat} (hi : i < 512) (pte : Pte32) (m : MemoryWrapper) (hf : FlagsV i pte) :
    ∃ pte' m', level2Round64 i (pte, m) = .ok (pte', m') ∧ FlagsV (i + 1) pte' ∧
      m'.bytes = Bytes.store m.bytes (0xC0000000#32 + BitVec.ofNat 32 (8 * i)) (BitVec.ofNat 64 (entry64 i)) 8 := by
  have haddr : (k64BitMmuLevel2 + BitVec.ofNat 64 (i * k64BitPteSize)).setWidth 32 =
      0xC0000000#32 + BitVec.ofNat 32 (8 * i) := by
    apply BitVec.eq_of_toNat_eq
    rw [BitVec.toNat_setWidth, BitVec.toNat_add, BitVec.toNat_add, BitVec.toNat_ofNat, BitVec.toNat_ofNat,
      BitVec.toNat_ofNat, show k64BitMmuLevel2.toNat = 0xC0000000 by rfl, show k64BitPteSize = 8 by rfl]
    omega
  have hnext : FlagsV (i + 1) = Flags 1 := by rw [FlagsV, if_neg (by omega)]
  rw [hnext]
  by_cases h4 : i < kLevel2ValidEntry
  · have hppn : (((k64BitMmuLevel1 + BitVec.ofNat 64 (i * k64BitMmuLevelOneSize * k64BitPteSize)) >>> 12).setWidth
        32).toNat = 0xC0001 + i := by
      rw [BitVec.toNat_setWidth, BitVec.toNat_ushiftRight, BitVec.toNat_add, BitVec.toNat_ofNat,
        Nat.shiftRight_eq_div_pow, show k64BitMmuLevel1.toNat = 0xC0001000 by rfl,
        show k64BitMmuLevelOneSize = 512 by rfl, show k64BitPteSize = 8 by rfl]
      omega
    have hV : Flags 1 (pte.setV true) := by
      refine flags_setV ?_
      unfold FlagsV at hf
      split at hf
      · exact .inl hf
      · exact .inr hf
    obtain ⟨hf', hv⟩ := setPpn_value hV hppn (by omega)
      (show _ = entry64 i by rw [entry64, if_pos (show i < 4 from h4)])
    obtain ⟨m', hw, hb⟩ := write_entry64 m hv haddr (by decide)
    refine ⟨_, m', ?_, hf', hb⟩
    simp only [level2Round64, if_pos h4, hw, Except.ok_bind, Except.pure_eq_ok]
  · have hV : Flags 1 pte := by
      unfold FlagsV at hf
      have h0 : i ≠ 0 := by rintro rfl; exact h4 (by decide)
      rwa [if_neg h0] at hf
    obtain ⟨hf', hv⟩ := setPpn_value hV (show (0 : BitVec 32).toNat = 0 by rfl) (by decide)
      (show _ = entry64 i by rw [entry64, if_neg (show ¬ i < 4 from h4), if_pos hi])
    obtain ⟨m', hw, hb⟩ := write_entry64 m hv haddr (by decide)
    refine ⟨_, m', ?_, hf', hb⟩
    simp only [level2Round64, if_neg h4, hw, Except.ok_bind, Except.pure_eq_ok]

theorem level1Round64_ok {i : Nat} (hi : i < 4 * 512) (pte : Pte32) (m : MemoryWrapper) (hf : Flags 1 pte) :
    ∃ pte' m', level1Round64 0 i (pte, m) = .ok (pte', m') ∧ Flags 1 pte' ∧
      m'.bytes =
        Bytes.store m.bytes (0xC0001000#32 + BitVec.ofNat 32 (8 * i)) (BitVec.ofNat 64 (entry64 (512 + i))) 8 := by
  have hppn : (((k64BitMmuLevel0 +
      BitVec.ofNat 64 (0 * k64BitMmuLevelOneSize * k64BitMmuLevelZeroSize * k64BitPteSize) +
      BitVec.ofNat 64 (i * k64BitMmuLevelZeroSize * k64BitPteSize)) >>> 12).setWidth 32).toNat = 0xC0005 + i := by
    rw [BitVec.toNat_setWidth, BitVec.toNat_ushiftRight, BitVec.toNat_add, BitVec.toNat_add, BitVec.toNat_ofNat,
      BitVec.toNat_ofNat, Nat.shiftRight_eq_div_pow, show k64BitMmuLevel0.toNat = 0xC0005000 by rfl,
      show k64BitMmuLevelZeroSize = 512 by rfl, show k64BitPteSize = 8 by rfl]
    omega
  have haddr : (k64BitMmuLevel1 + BitVec.ofNat 64 (0 * k64BitMmuLevelOneSize * k64BitPteSize) +
      BitVec.ofNat 64 (i * k64BitPteSize)).setWidth 32 = 0xC0001000#32 + BitVec.ofNat 32 (8 * i) := by
    apply BitVec.eq_of_toNat_eq
    rw [BitVec.toNat_setWidth, BitVec.toNat_add, BitVec.toNat_add, BitVec.toNat_add, BitVec.toNat_ofNat,
      BitVec.toNat_ofNat, BitVec.toNat_ofNat, BitVec.toNat_ofNat, show k64BitMmuLevel1.toNat = 0xC0001000 by rfl,
      show k64BitPteSize = 8 by rfl]
    omega
  obtain ⟨hf', hv⟩ := setPpn_value hf hppn (by omega) (show _ = entry64 (512 + i) by
    rw [entry64, if_neg (by omega), if_neg (by omega), if_pos (by omega), Nat.add_sub_cancel_left])
  obtain ⟨m', hw, hb⟩ := write_entry64 m hv haddr (by decide)
  exact ⟨_, m', by simp only [level1Round64, hw, Except.ok_bind, Except.pure_eq_ok], hf', hb⟩

theorem level0Round64_ok {i : Nat} (hi : i < 4 * 512 * 512) (pte : Pte32) (m : MemoryWrapper) (hf : Flags 15 pte) :
    ∃ pte' m', level0Round64 0 0 i (pte, m) = .ok (pte', m') ∧ Flags 15 pte' ∧
      m'.bytes =
        Bytes.store m.bytes (0xC0005000#32 + BitVec.ofNat 32 (8 * i)) (BitVec.ofNat 64 (entry64 (2560 + i))) 8 := by
  have hn : 0 * k64BitMmuLevelOneSize * k64BitMmuLevelZeroSize + 0 * k64BitMmuLevelZeroSize + i = i := by
    simp only [Nat.zero_mul, Nat.zero_add]
  have hppn : ((BitVec.ofNat 64 i).setWidth 32).toNat = i := by
    rw [BitVec.toNat_setWidth, BitVec.toNat_ofNat]; omega
  have haddr : (k64BitMmuLevel0 + BitVec.ofNat 64 i * BitVec.ofNat 64 k64BitPteSize).setWidth 32 =
      0xC0005000#32 + BitVec.ofNat 32 (8 * i) := by
    apply BitVec.eq_of_toNat_eq
    rw [← BitVec.ofNat_mul, BitVec.toNat_setWidth, BitVec.toNat_add, BitVec.toNat_add, BitVec.toNat_ofNat,
      BitVec.toNat_ofNat, BitVec.toNat_ofNat, show k64BitMmuLevel0.toNat = 0xC0005000 by rfl,
      show k64BitPteSize = 8 by rfl]
    omega
  obtain ⟨hf', hv⟩ := setPpn_value hf hppn (by omega) (show _ = entry64 (2560 + i) by
    rw [entry64, if_neg (by omega), if_neg (by omega), if_neg (by omega), Nat.add_sub_cancel_left])
  obtain ⟨m', hw, hb⟩ := write_entry64 m hv haddr (by decide)
  exact ⟨_, m', by simp only [level0Round64, hn, hw, Except.ok_bind, Except.pure_eq_ok], hf', hb⟩

theorem level1Round64_eq (j i : Nat) : level1Round64 j i = level1Round64 0 (j * 512 + i) := by
  funext s
  have haddr : k64BitMmuLevel1 + BitVec.ofNat 64 (j * k64BitMmuLevelOneSize * k64BitPteSize) +
      BitVec.ofNat 64 (i * k64BitPteSize) =
        k64BitMmuLevel1 + BitVec.ofNat 64 (0 * k64BitMmuLevelOneSize * k64BitPteSize) +
          BitVec.ofNat 64 ((j * 512 + i) * k64BitPteSize) := by
    rw [BitVec.add_assoc, BitVec.add_assoc, ← BitVec.ofNat_add, ← BitVec.ofNat_add, Nat.add_mul, Nat.zero_mul,
      Nat.zero_mul, Nat.zero_add]
    rfl
  have hppn : k64BitMmuLevel0 + BitVec.ofNat 64 (j * k64BitMmuLevelOneSize * k64BitMmuLevelZeroSize * k64BitPteSize) +
      BitVec.ofNat 64 (i * k64BitMmuLevelZeroSize * k64BitPteSize) =
        k64BitMmuLevel0 + BitVec.ofNat 64 (0 * k64BitMmuLevelOneSize * k64BitMmuLevelZeroSize * k64BitPteSize) +
          BitVec.ofNat 64 ((j * 512 + i) * k64BitMmuLevelZeroSize * k64BitPteSize) := by
    rw [BitVec.add_assoc, BitVec.add_assoc, ← BitVec.ofNat_add, ← BitVec.ofNat_add, Nat.add_mul, Nat.add_mul,
      Nat.zero_mul, Nat.zero_mul, Nat.zero_mul, Nat.zero_add]
    rfl
  simp only [level1Round64, haddr, hppn]

theorem rounds_level1Round64 (s : TableState) : rounds (fun j => rounds (level1Round64 j) k64BitMmuLevelOneSize)
    kLevel2ValidEntry s = rounds (level1Round64 0) (4 * 512) s := by
  rw [← Run.rounds_rounds, k64BitMmuLevelOneSize, kLevel2ValidEntry]
  refine Run.rounds_congr (fun j _ s => Run.rounds_congr (fun i _ s => ?_) s) s
  rw [level1Round64_eq]

theorem level0Round64_eq (k j i : Nat) : level0Round64 k j i = level0Round64 0 0 ((k * 512 + j) * 512 + i) := by
  funext s
  have hn : k * k64BitMmuLevelOneSize * k64BitMmuLevelZeroSize + j * k64BitMmuLevelZeroSize + i =
      0 * k64BitMmuLevelOneSize * k64BitMmuLevelZeroSize + 0 * k64BitMmuLevelZeroSize + ((k * 512 + j) * 512 + i) := by
    simp only [k64BitMmuLevelOneSize, k64BitMmuLevelZeroSize]
    omega
  simp only [level0Round64, hn]

/-- The three loops over the pages are one. -/
theorem rounds_level0Round64 (s : TableState) : rounds (fun k => rounds (fun j => rounds (level0Round64 k j)
    k64BitMmuLevelZeroSize) k64BitMmuLevelOneSize) kLevel2ValidEntry s =
      rounds (level0Round64 0 0) (4 * 512 * 512) s := by
  rw [← Run.rounds_rounds, ← Run.rounds_rounds, k64BitMmuLevelZeroSize, k64BitMmuLevelOneSize, kLevel2ValidEntry]
  refine Run.rounds_congr (fun k _ s => Run.rounds_congr (fun j _ s => Run.rounds_congr (fun i _ s => ?_) s) s) s
  rw [level0Round64_eq]

theorem setDefaultMmuTable64_eq (m : MemoryWrapper) : setDefaultMmuTable64 m = (do
    let s ← rounds level2Round64 k64BitMmuLevelTwoSize (⟨0⟩, m)
    let s ← rounds (fun j => rounds (level1Round64 j) k64BitMmuLevelOneSize) kLevel2ValidEntry (s.1.setV true, s.2)
    let s ← rounds (fun k => rounds (fun j => rounds (level0Round64 k j) k64BitMmuLevelZeroSize)
      k64BitMmuLevelOneSize) kLevel2ValidEntry (((s.1.setX true).setW true).setR true, s.2)
    return s.2) := by
  rfl

/-- The 64-bit table: the three levels one after another. -/
theorem setDefaultMmuTable64_bytes (m : MemoryWrapper) : ∃ m', setDefaultMmuTable64 m = .ok m' ∧
    m'.bytes = fill m.bytes 0xC0000000#32 8 (fun i => BitVec.ofNat 64 (entry64 i)) (512 + 4 * 512 + 4 * 512 * 512) := by
  obtain ⟨pte₂, m₂, hr₂, hf₂, hb₂⟩ := @rounds_fill 64 8 k64BitMmuLevelTwoSize level2Round64 FlagsV
    (fun i => BitVec.ofNat 64 (entry64 i)) 0xC0000000#32 (fun _ hi pte m hf => level2Round64_ok hi pte m hf) ⟨0⟩ m rfl
  obtain ⟨pte₁, m₁, hr₁, hf₁, hb₁⟩ := @rounds_fill 64 8 (4 * 512) (level1Round64 0) (fun _ => Flags 1)
    (fun i => BitVec.ofNat 64 (entry64 (512 + i))) 0xC0001000#32 (fun _ hi pte m hf => level1Round64_ok hi pte m hf)
    _ m₂ (flags_setV (.inr hf₂))
  obtain ⟨pte₀, m₀, hr₀, -, hb₀⟩ := @rounds_fill 64 8 (4 * 512 * 512) (level0Round64 0 0) (fun _ => Flags 15)
    (fun i => BitVec.ofNat 64 (entry64 (2560 + i))) 0xC0005000#32 (fun _ hi pte m hf => level0Round64_ok hi pte m hf)
    _ m₁ (flags_page hf₁)
  refine ⟨m₀, ?_, ?_⟩
  · rw [setDefaultMmuTable64_eq, hr₂, Except.ok_bind, rounds_level1Round64, hr₁, Except.ok_bind, rounds_level0Round64,
      hr₀, Except.ok_bind, Except.pure_eq_ok]
  · rw [hb₀, hb₁, hb₂, show 0xC0001000#32 = 0xC0000000#32 + BitVec.ofNat 32 (8 * 512) by rfl, k64BitMmuLevelTwoSize,
      Bytes.fill_append, show 0xC0005000#32 = 0xC0000000#32 + BitVec.ofNat 32 (8 * (512 + 4 * 512)) by rfl,
      show 2560 = 512 + 4 * 512 by rfl, Bytes.fill_append]

/-! ## The table in memory -/

/-- A table of entries lies in memory from 0xC0000000, but for marks. -/
def Lays (F : Format) (s : Bytes.Store 32) (entry : Nat → Nat) (count : Nat) : Prop :=
  ∀ i < count, F.Same (entry i) (entryAt F s (0xC0000000 + F.pteBytes * i))

theorem entry32_lt {i : Nat} (hi : i < 1024 + 1024 * 1024) : entry32 i < 2 ^ 32 := by
  unfold entry32; split <;> omega

theorem entry64_lt {i : Nat} (hi : i < 512 + 4 * 512 + 4 * 512 * 512) : entry64 i < 2 ^ 32 := by
  unfold entry64; split_ifs <;> omega

theorem entryAt_fill32 (s : Bytes.Store 32) {i : Nat} (hi : i < 1024 + 1024 * 1024) :
    entryAt sv32 (fill s 0xC0000000#32 4 (fun i => BitVec.ofNat 32 (entry32 i)) (1024 + 1024 * 1024))
      (0xC0000000 + sv32.pteBytes * i) = entry32 i := by
  have h4 : sv32.pteBytes = 4 := rfl
  rw [entryAt, h4, ← toNat_load_wide, BitVec.ofNat_add,
    @Bytes.load_fill 32 32 s (BitVec.ofNat 32 0xC0000000) 4 _ i _ rfl (by decide) hi, BitVec.toNat_ofNat,
    Nat.mod_eq_of_lt (entry32_lt hi)]

theorem entryAt_fill64 (s : Bytes.Store 32) {i : Nat} (hi : i < 512 + 4 * 512 + 4 * 512 * 512) :
    entryAt sv39 (fill s 0xC0000000#32 8 (fun i => BitVec.ofNat 64 (entry64 i)) (512 + 4 * 512 + 4 * 512 * 512))
      (0xC0000000 + sv39.pteBytes * i) = entry64 i := by
  have h8 : sv39.pteBytes = 8 := rfl
  have hlt := entry64_lt hi
  rw [entryAt, h8, BitVec.ofNat_add,
    @Bytes.load_fill 32 64 s (BitVec.ofNat 32 0xC0000000) 8 _ i _ rfl (by decide) hi, BitVec.toNat_ofNat,
    Nat.mod_eq_of_lt (by omega)]

/-- Marks leave the table. An entry of 64 bits has nothing in its upper half. -/
theorem lays_of_marked {F : Format} {s t : Bytes.Store 32} {entry : Nat → Nat} {count : Nat} (h : Marked s t)
    (h4 : 4 ∣ F.pteBytes) (h8 : F.pteBytes ≤ 8)
    (he : ∀ i < count, entryAt F s (0xC0000000 + F.pteBytes * i) = entry i ∧ entry i < 2 ^ 32) :
    Lays F t entry count := by
  intro i hi
  obtain ⟨hi, hlt⟩ := he i hi
  rw [← hi]
  have ha : (0xC0000000 + F.pteBytes * i) % 4 = 0 := by
    obtain ⟨d, hd⟩ := Nat.dvd_trans h4 (Nat.dvd_mul_right F.pteBytes i)
    omega
  refine h.same ha h8 ?_
  by_cases hF : F.pteBytes ≤ 4
  · exact .inl hF
  · refine .inr ?_
    have hup := Nat.testBit_lt_two_pow hlt
    rw [← hi, testBit_entryAt] at hup
    rw [BitVec.ofNat_add]
    simpa [show 32 < 8 * F.pteBytes by omega] using hup

theorem ofNat_page {va : BitVec 64} {bits : Nat} (h : va.toNat < 2 ^ bits) :
    BitVec.ofNat 64 ((va.toNat / 2 ^ 12 * 2 ^ 12 + va.toNat % 2 ^ 12) % 2 ^ bits) = va := by
  rw [Nat.div_add_mod', Nat.mod_eq_of_lt h, BitVec.ofNat_toNat, BitVec.setWidth_eq]

/-- The 32-bit table leads every address to itself. -/
theorem translate_identity32 {s : Bytes.Store 32} (h : Lays sv32 s entry32 (1024 + 1024 * 1024)) {va : BitVec 64}
    (hva : va.toNat < 2 ^ 32) : ∃ leaf, (Table.sv32 0xC0000).translate s va = some ⟨va, leaf⟩ := by
  have hv1 := vpn32_lt va.toNat 1
  have hv0 := vpn32_lt va.toNat 0
  have hpage : sv32.vpn va.toNat 1 * 1024 + sv32.vpn va.toNat 0 = va.toNat / 2 ^ 12 := by
    rw [show sv32.vpn va.toNat 1 = va.toNat / 2 ^ 22 % 2 ^ 10 from rfl,
      show sv32.vpn va.toNat 0 = va.toNat / 2 ^ 12 % 2 ^ 10 from rfl]
    omega
  have hroot := h (sv32.vpn va.toNat 1) (by omega)
  rw [entry32, if_pos hv1, show 0xC0000000 + sv32.pteBytes * sv32.vpn va.toNat 1 = sv32.slot va.toNat 1 0xC0000 by
    rw [slot32, show sv32.pteBytes = 4 from rfl]; omega] at hroot
  have hleaf := h (1024 + (sv32.vpn va.toNat 1 * 1024 + sv32.vpn va.toNat 0)) (by omega)
  rw [entry32, if_neg (by omega), Nat.add_sub_cancel_left,
    show 0xC0000000 + sv32.pteBytes * (1024 + (sv32.vpn va.toNat 1 * 1024 + sv32.vpn va.toNat 0)) =
      sv32.slot va.toNat 0 (0xC0001 + sv32.vpn va.toNat 1) by
        rw [slot32, show sv32.pteBytes = 4 from rfl]; omega] at hleaf
  have hw := (Format.walk_pointer hroot (by decide) (by decide) (by decide)
    (by rw [show sv32.ppnBits = 22 from rfl]; omega)).trans (Format.walk_page hleaf (by decide) (by decide) (by decide))
  have hppn : sv32.ppn _ = va.toNat / 2 ^ 12 := hleaf.ppn.trans
    ((Format.ppn_entry (by decide) (by rw [show sv32.ppnBits = 22 from rfl]; omega)).trans hpage)
  obtain ⟨ht, ha⟩ := Format.translate_page hw hppn
  refine ⟨some (BitVec.ofNat 32 (sv32.slot va.toNat 0 (0xC0001 + sv32.vpn va.toNat 1))), ?_⟩
  rw [Table.translate_sv32, ht, Option.map_some, ha, ofNat_page hva]

/-- The root of the 64-bit table leads to page `0xC0001 + VPN[2]` for the
first four entries, and to page zero for the others. -/
theorem walk_root64 {s : Bytes.Store 32} (h : Lays sv39 s entry64 (512 + 4 * 512 + 4 * 512 * 512)) (va : Nat) :
    sv39.walk (entryAt sv39 s) va 2 0xC0000 =
      sv39.walk (entryAt sv39 s) va 1 (if sv39.vpn va 2 < 4 then 0xC0001 + sv39.vpn va 2 else 0) := by
  have hv2 := vpn39_lt va 2
  have hroot := h (sv39.vpn va 2) (by omega)
  rw [show 0xC0000000 + sv39.pteBytes * sv39.vpn va 2 = sv39.slot va 2 0xC0000 by
    rw [slot39, show sv39.pteBytes = 8 from rfl]; omega] at hroot
  by_cases h4 : sv39.vpn va 2 < 4
  · rw [entry64, if_pos h4] at hroot
    rw [if_pos h4]
    exact Format.walk_pointer hroot (by decide) (by decide) (by decide) (by rw [show sv39.ppnBits = 44 from rfl]; omega)
  · rw [entry64, if_neg h4, if_pos hv2] at hroot
    rw [if_neg h4]
    exact @Format.walk_pointer sv39 (entryAt sv39 s) va 1 0xC0000 0 1 hroot (by decide) (by decide)
      (by decide) (by decide)

/-- The 64-bit table leads every 32-bit address to itself. -/
theorem translate_identity64 {s : Bytes.Store 32} (h : Lays sv39 s entry64 (512 + 4 * 512 + 4 * 512 * 512))
    {va : BitVec 64} (hva : va.toNat < 2 ^ 32) : ∃ leaf, (Table.sv39 0xC0000).translate s va = some ⟨va, leaf⟩ := by
  have hv2 : sv39.vpn va.toNat 2 < 4 := by
    rw [show sv39.vpn va.toNat 2 = va.toNat / 2 ^ 30 % 2 ^ 9 from rfl]; omega
  have hv1 := vpn39_lt va.toNat 1
  have hv0 := vpn39_lt va.toNat 0
  have hpage : (sv39.vpn va.toNat 2 * 512 + sv39.vpn va.toNat 1) * 512 + sv39.vpn va.toNat 0 = va.toNat / 2 ^ 12 := by
    rw [show sv39.vpn va.toNat 2 = va.toNat / 2 ^ 30 % 2 ^ 9 from rfl,
      show sv39.vpn va.toNat 1 = va.toNat / 2 ^ 21 % 2 ^ 9 from rfl,
      show sv39.vpn va.toNat 0 = va.toNat / 2 ^ 12 % 2 ^ 9 from rfl]
    omega
  obtain ⟨n, hn⟩ : ∃ n, n = sv39.vpn va.toNat 2 * 512 + sv39.vpn va.toNat 1 := ⟨_, rfl⟩
  rw [← hn] at hpage
  have hmid := h (512 + n) (by omega)
  rw [entry64, if_neg (by omega), if_neg (by omega), if_pos (by omega), Nat.add_sub_cancel_left,
    show 0xC0000000 + sv39.pteBytes * (512 + n) = sv39.slot va.toNat 1 (0xC0001 + sv39.vpn va.toNat 2) by
      rw [slot39, show sv39.pteBytes = 8 from rfl]; omega] at hmid
  have hleaf := h (2560 + (n * 512 + sv39.vpn va.toNat 0)) (by omega)
  rw [entry64, if_neg (by omega), if_neg (by omega), if_neg (by omega), Nat.add_sub_cancel_left,
    show 0xC0000000 + sv39.pteBytes * (2560 + (n * 512 + sv39.vpn va.toNat 0)) = sv39.slot va.toNat 0 (0xC0005 + n) by
      rw [slot39, show sv39.pteBytes = 8 from rfl]; omega] at hleaf
  have hw := (walk_root64 h va.toNat).trans (by rw [if_pos hv2])
  have hw' := hw.trans ((Format.walk_pointer hmid (by decide) (by decide) (by decide)
    (by rw [show sv39.ppnBits = 44 from rfl]; omega)).trans (Format.walk_page hleaf (by decide) (by decide)
      (by decide)))
  have hppn : sv39.ppn _ = va.toNat / 2 ^ 12 := hleaf.ppn.trans
    ((Format.ppn_entry (by decide) (by rw [show sv39.ppnBits = 44 from rfl]; omega)).trans hpage)
  obtain ⟨ht, ha⟩ := Format.translate_page hw' hppn
  refine ⟨some (BitVec.ofNat 32 (sv39.slot va.toNat 0 (0xC0005 + n))), ?_⟩
  rw [Table.translate_sv39, ht, Option.map_some, ha, ofNat_page (show va.toNat < 2 ^ 56 by omega)]

/-! ## Any sequence of translations -/

theorem Mmu.words_ownRegime (u : Mmu) (satp : BitVec 64) : (u.ownRegime satp).Words := by
  unfold ownRegime regime
  split_ifs <;> first | exact trivial | exact (by decide : 4 ∣ 4) | exact (by decide : 4 ∣ 8)

/-- Translations return, whatever the mode and the table, and mark entries. -/
theorem Mmu.runCalls_marked (as : List Mmu.Call) (u : Mmu) (m : MemoryWrapper) :
    ∃ u' m', runCalls as u m = .ok (u', m') ∧ Marked m.bytes m'.bytes := by
  induction as generalizing u m with
  | nil => exact ⟨u, m, rfl, .refl _⟩
  | cons a as ih =>
    obtain ⟨m₁, hr, hb⟩ := ((u.setMxl a.mxl).setPrivilege a.privilege).virtualToPhysical_access m a.satp
      (a.virtualAddress, a.writeAccess)
    obtain ⟨u', m', hr', hm⟩ := ih _ m₁
    refine ⟨u', m', ?_, .trans (hb ▸ Regime.marked_access (words_ownRegime _ _) _ _) hm⟩
    rw [runCalls, call, hr, Except.ok_bind]
    exact hr'

/-- The processor's width code: `RiscvCpu` sets `mxl_` to 2 or 1. -/
def mxlOf (address64bit : Bool) : Nat := if address64bit then 2 else 1

theorem Mmu.ownRegime_run (u : Mmu) {p : PrivilegeMode} (hp : p ≠ .machineMode) (address64bit : Bool) :
    ((u.setMxl (mxlOf address64bit)).setPrivilege p).ownRegime (runSatp true address64bit) =
      .table (if address64bit then .sv39 0xC0000 else .sv32 0xC0000) := by
  rw [ownRegime, if_neg (show ((u.setMxl (mxlOf address64bit)).setPrivilege p).privilege ≠ .machineMode from hp)]
  cases address64bit <;> rfl

/-- **The default tables map identically.** Setting up the tables returns,
and so do any translations after it, in any mode, by any `satp`. Then an
address below 2^32 is translated, in supervisor and user mode and by the
`satp` of `run`, to itself, for a read or a write. -/
theorem setDefaultMmuTable_identity (address64bit : Bool) (m : MemoryWrapper) (u : Mmu) (calls : List Mmu.Call)
    (p : PrivilegeMode) (va : BitVec 64) (write : Bool) (hp : p ≠ .machineMode) (hva : va.toNat < 2 ^ 32) :
    ∃ m₀ u₁ m₁ u₂ m₂, setDefaultMmuTable address64bit m = .ok m₀ ∧ Mmu.runCalls calls u m₀ = .ok (u₁, m₁) ∧
      u₁.call m₁ ⟨mxlOf address64bit, p, runSatp true address64bit, va, write⟩ = .ok (va, u₂, m₂) ∧
      u₂.pageFault = false := by
  have hset : ∃ m₀, setDefaultMmuTable address64bit m = .ok m₀ ∧ ∀ t, Marked m₀.bytes t → ∃ leaf,
      (if address64bit then Table.sv39 0xC0000 else .sv32 0xC0000).translate t va = some ⟨va, leaf⟩ := by
    cases address64bit with
    | true =>
      obtain ⟨m₀, hr, hb⟩ := setDefaultMmuTable64_bytes m
      refine ⟨m₀, hr, fun t ht => translate_identity64 (lays_of_marked ht (by decide) (by decide) fun i hi => ?_) hva⟩
      rw [hb]
      exact ⟨entryAt_fill64 m.bytes hi, entry64_lt hi⟩
    | false =>
      obtain ⟨m₀, hr, hb⟩ := setDefaultMmuTable32_bytes m
      refine ⟨m₀, hr, fun t ht => translate_identity32 (lays_of_marked ht (by decide) (by decide) fun i hi => ?_) hva⟩
      rw [hb]
      exact ⟨entryAt_fill32 m.bytes hi, entry32_lt hi⟩
  obtain ⟨m₀, hr₀, hid⟩ := hset
  obtain ⟨u₁, m₁, hr₁, hm⟩ := Mmu.runCalls_marked calls u m₀
  obtain ⟨leaf, ht⟩ := hid _ hm
  obtain ⟨m₂, hr₂, -⟩ := ((u₁.setMxl (mxlOf address64bit)).setPrivilege p).virtualToPhysical_access m₁
    (runSatp true address64bit) (va, write)
  rw [u₁.ownRegime_run hp, Regime.translate, ht] at hr₂
  exact ⟨m₀, u₁, m₁, _, m₂, hr₀, hr₁, hr₂, rfl⟩

/-- A user's write to the last byte of the 32-bit range, on a fresh memory. -/
theorem setDefaultMmuTable_identity_last : ∃ m₀ u₁ m₁ u₂ m₂, setDefaultMmuTable true .new = .ok m₀ ∧
    Mmu.runCalls [⟨1, .supervisorMode, 0x80000001, 0x1234, true⟩] .new m₀ = .ok (u₁, m₁) ∧
    u₁.call m₁ ⟨2, .userMode, 0x80000000000C0000, 0xFFFFFFFF, true⟩ = .ok (0xFFFFFFFF, u₂, m₂) ∧
    u₂.pageFault = false :=
  setDefaultMmuTable_identity true .new .new [⟨1, .supervisorMode, 0x80000001, 0x1234, true⟩] .userMode 0xFFFFFFFF true
    (by decide) (by decide)

/-! ## Above the 32-bit range -/

/-- The entries of the 64-bit table end here. -/
def tableEnd64 : Nat := 0xC0000000 + 8 * (512 + 4 * 512 + 4 * 512 * 512)

/-- The doubleword at an address once the tables are set up: one of their
entries, or what memory held. -/
def laidEntry (m : MemoryWrapper) (a : Nat) : Nat :=
  if 0xC0000000 ≤ a % 2 ^ 32 ∧ a % 2 ^ 32 < tableEnd64 then entry64 ((a % 2 ^ 32 - 0xC0000000) / 8)
  else entryAt sv39 m.bytes a

/-- What memory holds in page zero passes for a table that maps the address:
the doubleword VPN[1] is an aligned leaf, or points to a page whose
doubleword VPN[0] is a leaf. -/
def Stray (m : MemoryWrapper) (va : Nat) : Prop :=
  PageWalk.valid (entryAt sv39 m.bytes (8 * sv39.vpn va 1)) = true ∧
    if PageWalk.isLeaf (entryAt sv39 m.bytes (8 * sv39.vpn va 1)) = true then
      sv39.ppn (entryAt sv39 m.bytes (8 * sv39.vpn va 1)) % 2 ^ 9 = 0
    else
      PageWalk.valid (laidEntry m (sv39.slot va 0 (sv39.ppn (entryAt sv39 m.bytes (8 * sv39.vpn va 1))))) = true ∧
      PageWalk.isLeaf (laidEntry m (sv39.slot va 0 (sv39.ppn (entryAt sv39 m.bytes (8 * sv39.vpn va 1))))) = true

theorem entryAt_laid (m : MemoryWrapper) {a : Nat} (ha : 8 ∣ a) :
    entryAt sv39 (fill m.bytes 0xC0000000#32 8 (fun i =>
      BitVec.ofNat 64 (entry64 i)) (512 + 4 * 512 + 4 * 512 * 512)) a =
      laidEntry m a := by
  have h8 : sv39.pteBytes = 8 := rfl
  have hmod : BitVec.ofNat 32 a = BitVec.ofNat 32 (a % 2 ^ 32) := by
    apply BitVec.eq_of_toNat_eq
    rw [BitVec.toNat_ofNat, BitVec.toNat_ofNat, Nat.mod_mod]
  have hentry : ∀ t, entryAt sv39 t a = entryAt sv39 t (a % 2 ^ 32) := by
    intro t; rw [entryAt, entryAt, hmod]
  rw [hentry, laidEntry]
  by_cases hin : 0xC0000000 ≤ a % 2 ^ 32 ∧ a % 2 ^ 32 < tableEnd64
  · rw [if_pos hin]
    obtain ⟨hlo, hhi⟩ := hin
    unfold tableEnd64 at hhi
    rw [show a % 2 ^ 32 = 0xC0000000 + sv39.pteBytes * ((a % 2 ^ 32 - 0xC0000000) / 8) by rw [h8]; omega,
      entryAt_fill64 m.bytes (by omega), h8, Nat.add_sub_cancel_left, Nat.mul_div_cancel_left _ (by decide)]
  · rw [if_neg hin, hentry]
    refine entryAt_congr (by decide) fun b hb => Bytes.fill_of_outside _ _ _ (by decide) ?_
    -- doublewords do not straddle the ends of the table
    unfold tableEnd64 at hin
    rw [h8] at hb
    have hlt := b.isLt
    rw [BitVec.toNat_sub, BitVec.toNat_ofNat] at hb
    rw [BitVec.toNat_sub, show (0xC0000000#32).toNat = 0xC0000000 by rfl]
    omega

/-- What the walk finds above the 32-bit range. -/
theorem translate_outside64 (m : MemoryWrapper) {s : Bytes.Store 32}
    (hs : s = fill m.bytes 0xC0000000#32 8 (fun i => BitVec.ofNat 64 (entry64 i)) (512 + 4 * 512 + 4 * 512 * 512))
    {va : Nat} (hlo : 2 ^ 32 ≤ va) (hhi : va < 2 ^ 39) :
    sv39.translate (entryAt sv39 s) va 2 0xC0000 = none ↔ ¬ Stray m va := by
  have hlays : Lays sv39 s entry64 (512 + 4 * 512 + 4 * 512 * 512) :=
    lays_of_marked (.refl s) (by decide) (by decide) fun i hi => by
      rw [hs]
      exact ⟨entryAt_fill64 m.bytes hi, entry64_lt hi⟩
  have hv2 : ¬ sv39.vpn va 2 < 4 := by
    rw [show sv39.vpn va 2 = va / 2 ^ 30 % 2 ^ 9 from rfl]; omega
  have hv1 := vpn39_lt va 1
  have hslot : sv39.slot va 1 0 = 8 * sv39.vpn va 1 := by
    rw [slot39]; omega
  have h1 : entryAt sv39 s (sv39.slot va 1 0) = entryAt sv39 m.bytes (8 * sv39.vpn va 1) := by
    rw [hs, hslot, entryAt_laid m (Nat.dvd_mul_right _ _), laidEntry, if_neg (by omega)]
  have h0 : ∀ base, entryAt sv39 s (sv39.slot va 0 base) = laidEntry m (sv39.slot va 0 base) := by
    intro base
    rw [hs, entryAt_laid m (by rw [slot39]; omega)]
  unfold Format.translate Stray
  rw [walk_root64 hlays, if_neg hv2, Format.walk, Format.walk, h1, h0]
  generalize entryAt sv39 m.bytes (8 * sv39.vpn va 1) = e₁
  generalize laidEntry m (sv39.slot va 0 (sv39.ppn e₁)) = e₀
  cases PageWalk.valid e₁ with
  | false => simp
  | true =>
    cases PageWalk.isLeaf e₁ with
    | true => simp [Format.Aligned, show sv39.vpnBits = 9 from rfl]
    | false =>
      cases PageWalk.valid e₀ with
      | false => simp
      | true =>
        cases PageWalk.isLeaf e₀ with
        | false => simp
        | true => simp [Format.Aligned, Nat.mod_one]

/-- The 64-bit tables, and a translation by them. -/
theorem setDefaultMmuTable64_translates (m : MemoryWrapper) {u : Mmu} (hx : u.mxl ≠ 1) (hp : u.privilege ≠ .machineMode)
    (va : BitVec 64) (write : Bool) :
    ∃ m₀ pa u' m', setDefaultMmuTable64 m = .ok m₀ ∧
      m₀.bytes = fill m.bytes 0xC0000000#32 8 (fun i => BitVec.ofNat 64 (entry64 i)) (512 + 4 * 512 + 4 * 512 * 512) ∧
      u.virtualToPhysical m₀ va (runSatp true true) write = .ok (pa, u', m') ∧
      (u'.pageFault = true ↔ sv39.translate (entryAt sv39 m₀.bytes) va.toNat 2 0xC0000 = none) := by
  obtain ⟨m₀, hr, hb⟩ := setDefaultMmuTable64_bytes m
  have hR : u.ownRegime (runSatp true true) = .table (.sv39 0xC0000) := by
    rw [Mmu.ownRegime, if_neg hp, Mmu.regime, if_neg hx]
    rfl
  obtain ⟨m', hr', -⟩ := u.virtualToPhysical_access m₀ (runSatp true true) (va, write)
  refine ⟨m₀, _, _, m', hr, hb, hr', ?_⟩
  have hnone : ((Table.sv39 0xC0000).translate m₀.bytes va).isNone = true ↔
      sv39.translate (entryAt sv39 m₀.bytes) va.toNat 2 0xC0000 = none := by
    rw [Table.translate_sv39, Option.isNone_map, Option.isNone_iff_eq_none]
  rw [hR]
  exact hnone

/-- **Above the 32-bit range.** After `SetDefaultMmuTable64` an address from
2^32 up to 2^39 faults exactly when page zero held nothing that passes for a
table mapping it: the root's other entries are valid and point there. -/
theorem setDefaultMmuTable64_faults_iff (m : MemoryWrapper) (u : Mmu) (va : BitVec 64) (write : Bool) (hx : u.mxl ≠ 1)
    (hp : u.privilege ≠ .machineMode) (hlo : 2 ^ 32 ≤ va.toNat) (hhi : va.toNat < 2 ^ 39) :
    ∃ m₀ pa u' m', setDefaultMmuTable64 m = .ok m₀ ∧
      u.virtualToPhysical m₀ va (runSatp true true) write = .ok (pa, u', m') ∧
      (u'.pageFault = true ↔ ¬ Stray m va.toNat) := by
  obtain ⟨m₀, pa, u', m', hr, hb, hr', hf⟩ := setDefaultMmuTable64_translates m hx hp va write
  exact ⟨m₀, pa, u', m', hr, hr', hf.trans (translate_outside64 m hb hlo hhi)⟩

/-- On a fresh memory they do fault. -/
theorem setDefaultMmuTable64_faults_new : ∃ m₀ pa u' m', setDefaultMmuTable64 .new = .ok m₀ ∧
    (Mmu.mk 2 false 0 .userMode).virtualToPhysical m₀ 0x100000000 (runSatp true true) false = .ok (pa, u', m') ∧
    u'.pageFault = true := by
  obtain ⟨m₀, pa, u', m', hr, hr', hf⟩ :=
    setDefaultMmuTable64_faults_iff .new (.mk 2 false 0 .userMode) 0x100000000 false
    (by decide) (by decide) (by decide) (by decide)
  exact ⟨m₀, pa, u', m', hr, hr', hf.mpr fun h => absurd h.1 (by decide)⟩

/-- A program whose first word is 15. -/
def strayMemory : MemoryWrapper := (MemoryWrapper.new.assign 0).setWord 0 0 0xF

/-- Its first page is mapped at 2^32 too. -/
theorem stray_mapped : ∃ m₀ pa u' m', setDefaultMmuTable64 strayMemory = .ok m₀ ∧
    (Mmu.mk 2 false 0 .userMode).virtualToPhysical m₀ 0x100000000 (runSatp true true) false = .ok (pa, u', m') ∧
    u'.pageFault = false := by
  obtain ⟨m₀, pa, u', m', hr, hb, hr', hf⟩ := @setDefaultMmuTable64_translates strayMemory (.mk 2 false 0 .userMode)
    (by decide) (by decide) 0x100000000 false
  have hstray : Stray strayMemory (0x100000000 : BitVec 64).toNat := by
    have he : entryAt sv39 strayMemory.bytes (8 * sv39.vpn (0x100000000 : BitVec 64).toNat 1) = 15 := by rfl
    rw [Stray, he]
    decide
  refine ⟨m₀, pa, u', m', hr, hr', Bool.not_eq_true _ ▸ fun h => ?_⟩
  exact (translate_outside64 strayMemory hb (by decide) (by decide)).mp (hf.mp h) hstray

end RiscvEmulator
