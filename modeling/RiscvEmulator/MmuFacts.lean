/-
The translation unit computes the translation of `Regime`.

`Mmu.regime` is what `satp`, the mode and the width select. Each of the two
loops is the walk (`walk64_spec`, `walk32_spec`), though the code keeps
only 32 bits of a page number, and `virtualToPhysical_spec` gives the
result of the whole: the address, the fault and the one byte of memory that
changes.
-/
import Mathlib.Tactic.SplitIfs
import RiscvEmulator.MemoryFacts
import RiscvEmulator.Mmu
import RiscvEmulator.Regime

namespace RiscvEmulator

open PageWalk (Format sv32 sv39)
open Bytes (byteOf)

/-! ## Entries -/

theorem bitcrop_one_eq_ofBool {n : Nat} (v : BitVec n) {o : Nat} (hn : n ≤ 64) :
    bitcrop v 1 o = (BitVec.ofBool (v.getLsbD o)).setWidth n := by
  rw [bitcrop_eq_crop v (by decide) hn, Bits.crop_one]

theorem Pte64.isValid_eq (p : Pte64) : p.isValid = PageWalk.valid p.pte.toNat := by
  simp only [isValid, getV, getR, getW, bitcrop_one_eq_ofBool _ (Nat.le_refl 64), PageWalk.valid,
    BitVec.testBit_toNat]
  cases p.pte.getLsbD 0 <;> cases p.pte.getLsbD 1 <;> cases p.pte.getLsbD 2 <;> rfl

theorem Pte64.isLeaf_eq (p : Pte64) : p.isLeaf = PageWalk.isLeaf p.pte.toNat := by
  simp only [isLeaf, getX, getR, getW, bitcrop_one_eq_ofBool _ (Nat.le_refl 64), PageWalk.isLeaf,
    BitVec.testBit_toNat]
  cases p.pte.getLsbD 1 <;> cases p.pte.getLsbD 2 <;> cases p.pte.getLsbD 3 <;> rfl

theorem Pte32.isValid_eq (p : Pte32) : p.isValid = PageWalk.valid p.pte.toNat := by
  simp only [isValid, getV, getR, getW, bitcrop_one_eq_ofBool _ (show 32 ≤ 64 by decide), PageWalk.valid,
    BitVec.testBit_toNat]
  cases p.pte.getLsbD 0 <;> cases p.pte.getLsbD 1 <;> cases p.pte.getLsbD 2 <;> rfl

theorem Pte32.isLeaf_eq (p : Pte32) : p.isLeaf = PageWalk.isLeaf p.pte.toNat := by
  simp only [isLeaf, getX, getR, getW, bitcrop_one_eq_ofBool _ (show 32 ≤ 64 by decide), PageWalk.isLeaf,
    BitVec.testBit_toNat]
  cases p.pte.getLsbD 1 <;> cases p.pte.getLsbD 2 <;> cases p.pte.getLsbD 3 <;> rfl

/-- Composing bytes in a wider word gives the same number. -/
theorem toNat_load_wide (s : Bytes.Store 32) (a : BitVec 32) :
    (Bytes.load 32 s a 4).toNat = (Bytes.load 64 s a 4).toNat := by
  have := (Bytes.load 32 s a 4).isLt
  rw [← @Bytes.load_setWidth 32 32 64 s a 4 (by decide), BitVec.toNat_setWidth]
  omega

/-! ## The loops -/

/-- What the loop's result says of a leaf: its level, its byte address and its entry. -/
def found (lf : PageWalk.Format.Leaf) : Nat × BitVec 32 × Nat := (lf.level, BitVec.ofNat 32 lf.slot, lf.entry)

theorem slot39 (va level base : Nat) : sv39.slot va level base = base * 4096 + sv39.vpn va level * 8 := rfl

theorem slot32 (va level base : Nat) : sv32.slot va level base = base * 4096 + sv32.vpn va level * 4 := rfl

theorem vpn39_lt (va level : Nat) : sv39.vpn va level < 512 := Nat.mod_lt _ (by decide)

theorem vpn32_lt (va level : Nat) : sv32.vpn va level < 1024 := Nat.mod_lt _ (by decide)

theorem toNat_pteAddress64 {ppn v : BitVec 64} (hp : ppn.toNat < 2 ^ 44) (hv : v.toNat < 512) :
    (ppn * BitVec.ofNat 64 Mmu.kPageSize + v * 8).toNat = ppn.toNat * 4096 + v.toNat * 8 := by
  rw [BitVec.toNat_add, BitVec.toNat_mul, BitVec.toNat_mul,
    show (BitVec.ofNat 64 Mmu.kPageSize).toNat = 4096 by rfl, show (8 : BitVec 64).toNat = 8 by rfl]
  omega

/-- The entry the 64-bit loop reads is the one the walk reads, though the
code keeps only 32 bits of a page number: the memory looks at 20 of them. -/
theorem read_pte64 (m : MemoryWrapper) {va level base : Nat} {ppn v : BitVec 64} (hp : ppn.toNat < 2 ^ 44)
    (hb : ppn.toNat % 2 ^ 20 = base % 2 ^ 20) (hv : v.toNat = sv39.vpn va level) :
    ∃ e, m.read64 (ppn * BitVec.ofNat 64 Mmu.kPageSize + v * 8) = .ok e ∧
      e.toNat = entryAt sv39 m.bytes (sv39.slot va level base) ∧
      MemoryWrapper.flat (ppn * BitVec.ofNat 64 Mmu.kPageSize + v * 8) =
        BitVec.ofNat 32 (sv39.slot va level base) := by
  have hvl := vpn39_lt va level
  have ha := toNat_pteAddress64 hp (hv ▸ hvl)
  have hflat : MemoryWrapper.flat (ppn * BitVec.ofNat 64 Mmu.kPageSize + v * 8) =
      BitVec.ofNat 32 (sv39.slot va level base) := by
    apply BitVec.eq_of_toNat_eq
    rw [MemoryWrapper.toNat_flat, ha, hv, BitVec.toNat_ofNat, slot39]
    omega
  refine ⟨_, m.read64_eq (by rw [ha]; omega), ?_, hflat⟩
  rw [hflat]; rfl

theorem walk64_zero (m : MemoryWrapper) (vpn : Nat → BitVec 64) (ppn : BitVec 64) :
    Mmu.walk64 m vpn 0 ppn = (do
      let pte : Pte64 := ⟨← m.read64 (ppn * BitVec.ofNat 64 Mmu.kPageSize + vpn 0 * 8)⟩
      if !pte.isValid then
        return none
      if pte.isLeaf then
        return some (0, ppn * BitVec.ofNat 64 Mmu.kPageSize + vpn 0 * 8, pte)
      return none) := by
  rfl

theorem walk64_succ (m : MemoryWrapper) (vpn : Nat → BitVec 64) (level : Nat) (ppn : BitVec 64) :
    Mmu.walk64 m vpn (level + 1) ppn = (do
      let pte : Pte64 := ⟨← m.read64 (ppn * BitVec.ofNat 64 Mmu.kPageSize + vpn (level + 1) * 8)⟩
      if !pte.isValid then
        return none
      if pte.isLeaf then
        return some (level + 1, ppn * BitVec.ofNat 64 Mmu.kPageSize + vpn (level + 1) * 8, pte)
      Mmu.walk64 m vpn level (pte.getPpn.setWidth 64)) := by
  rfl

/-- The loop of `VirtualToPhysical64` is the walk. -/
theorem walk64_spec (m : MemoryWrapper) {va : Nat} {vpn : Nat → BitVec 64} :
    ∀ {level : Nat} {ppn : BitVec 64} {base : Nat}, (∀ l ≤ level, (vpn l).toNat = sv39.vpn va l) →
      ppn.toNat < 2 ^ 44 → ppn.toNat % 2 ^ 20 = base % 2 ^ 20 →
      ∃ r, Mmu.walk64 m vpn level ppn = .ok r ∧
        r.map (fun p => (p.1, MemoryWrapper.flat p.2.1, p.2.2.pte.toNat)) =
          (sv39.walk (entryAt sv39 m.bytes) va level base).map found := by
  intro level
  induction level with
  | zero =>
    intro ppn base hvpn hp hb
    obtain ⟨e, hread, he, hflat⟩ := read_pte64 m hp hb (hvpn 0 (Nat.le_refl 0))
    rw [walk64_zero, PageWalk.Format.walk]
    simp only [hread, Except.ok_bind, Pte64.isValid_eq, Pte64.isLeaf_eq, ← he]
    cases PageWalk.valid e.toNat with
    | false => exact ⟨none, rfl, rfl⟩
    | true =>
      cases PageWalk.isLeaf e.toNat with
      | false => exact ⟨none, rfl, rfl⟩
      | true => exact ⟨_, rfl, by simpa [found] using hflat⟩
  | succ level ih =>
    intro ppn base hvpn hp hb
    obtain ⟨e, hread, he, hflat⟩ := read_pte64 m hp hb (hvpn _ (Nat.le_refl _))
    rw [walk64_succ, PageWalk.Format.walk]
    simp only [hread, Except.ok_bind, Pte64.isValid_eq, Pte64.isLeaf_eq, ← he]
    cases PageWalk.valid e.toNat with
    | false => exact ⟨none, rfl, rfl⟩
    | true =>
      cases PageWalk.isLeaf e.toNat with
      | false =>
        have hn : ((Pte64.mk e).getPpn.setWidth 64).toNat = e.toNat / 2 ^ 10 % 2 ^ 44 % 2 ^ 32 := by
          rw [Pte64.getPpn, BitVec.toNat_setWidth, BitVec.toNat_setWidth, toNat_bitcrop _ (by decide) (by decide)]
          dsimp only
          omega
        refine ih (fun l hl => hvpn l (by omega)) (by rw [hn]; omega) ?_
        rw [hn, show sv39.ppn e.toNat = e.toNat / 2 ^ 10 % 2 ^ 44 from rfl]
        omega
      | true => exact ⟨_, rfl, by simpa [found] using hflat⟩

theorem toNat_pteAddress32 (ppn v : BitVec 32) :
    (ppn * BitVec.ofNat 32 Mmu.kPageSize + v * 4).toNat = (ppn.toNat * 4096 + v.toNat * 4) % 2 ^ 32 := by
  rw [BitVec.toNat_add, BitVec.toNat_mul, BitVec.toNat_mul,
    show (BitVec.ofNat 32 Mmu.kPageSize).toNat = 4096 by rfl, show (4 : BitVec 32).toNat = 4 by rfl]
  omega

theorem read_pte32 (m : MemoryWrapper) {va level : Nat} (ppn : BitVec 32) {v : BitVec 32}
    (hv : v.toNat = sv32.vpn va level) :
    ∃ e, m.read32 ((ppn * BitVec.ofNat 32 Mmu.kPageSize + v * 4).setWidth 64) = .ok e ∧
      e.toNat = entryAt sv32 m.bytes (sv32.slot va level ppn.toNat) ∧
      ppn * BitVec.ofNat 32 Mmu.kPageSize + v * 4 = BitVec.ofNat 32 (sv32.slot va level ppn.toNat) := by
  have ha := toNat_pteAddress32 ppn v
  have hslot : ppn * BitVec.ofNat 32 Mmu.kPageSize + v * 4 = BitVec.ofNat 32 (sv32.slot va level ppn.toNat) := by
    apply BitVec.eq_of_toNat_eq
    rw [ha, hv, BitVec.toNat_ofNat, slot32]
  refine ⟨_, m.read32_eq ?_, ?_, hslot⟩
  · rw [BitVec.toNat_setWidth, ha]; omega
  · rw [MemoryWrapper.flat_setWidth, hslot, toNat_load_wide]; rfl

theorem walk32_zero (m : MemoryWrapper) (vpn0 ppn v : BitVec 32) :
    Mmu.walk32 m vpn0 0 ppn v = (do
      let pte : Pte32 := ⟨← m.read32 ((ppn * BitVec.ofNat 32 Mmu.kPageSize + v * 4).setWidth 64)⟩
      if !pte.isValid then
        return none
      if pte.isLeaf then
        return some (0, ppn * BitVec.ofNat 32 Mmu.kPageSize + v * 4, pte)
      return none) := by
  rfl

theorem walk32_succ (m : MemoryWrapper) (vpn0 : BitVec 32) (level : Nat) (ppn v : BitVec 32) :
    Mmu.walk32 m vpn0 (level + 1) ppn v = (do
      let pte : Pte32 := ⟨← m.read32 ((ppn * BitVec.ofNat 32 Mmu.kPageSize + v * 4).setWidth 64)⟩
      if !pte.isValid then
        return none
      if pte.isLeaf then
        return some (level + 1, ppn * BitVec.ofNat 32 Mmu.kPageSize + v * 4, pte)
      Mmu.walk32 m vpn0 level pte.getPpn vpn0) := by
  rfl

/-- The loop of `VirtualToPhysical32` is the walk; the index starts at the
root's and is `vpn0` below it. -/
theorem walk32_spec (m : MemoryWrapper) {va : Nat} {vpn0 : BitVec 32} (h0 : vpn0.toNat = sv32.vpn va 0) :
    ∀ {level : Nat} {ppn v : BitVec 32}, level ≤ 1 → v.toNat = sv32.vpn va level →
      ∃ r, Mmu.walk32 m vpn0 level ppn v = .ok r ∧
        r.map (fun p => (p.1, p.2.1, p.2.2.pte.toNat)) =
          (sv32.walk (entryAt sv32 m.bytes) va level ppn.toNat).map found := by
  intro level
  induction level with
  | zero =>
    intro ppn v _ hv
    obtain ⟨e, hread, he, hslot⟩ := read_pte32 m ppn hv
    rw [walk32_zero, PageWalk.Format.walk]
    simp only [hread, Except.ok_bind, Pte32.isValid_eq, Pte32.isLeaf_eq, ← he]
    cases PageWalk.valid e.toNat with
    | false => exact ⟨none, rfl, rfl⟩
    | true =>
      cases PageWalk.isLeaf e.toNat with
      | false => exact ⟨none, rfl, rfl⟩
      | true => exact ⟨_, rfl, by simpa [found] using hslot⟩
  | succ level ih =>
    intro ppn v hl hv
    obtain ⟨e, hread, he, hslot⟩ := read_pte32 m ppn hv
    rw [walk32_succ, PageWalk.Format.walk]
    simp only [hread, Except.ok_bind, Pte32.isValid_eq, Pte32.isLeaf_eq, ← he]
    cases PageWalk.valid e.toNat with
    | false => exact ⟨none, rfl, rfl⟩
    | true =>
      cases PageWalk.isLeaf e.toNat with
      | false =>
        have hn : (Pte32.mk e).getPpn.toNat = sv32.ppn e.toNat := toNat_bitcrop _ (by decide) (by decide)
        have hz : level = 0 := by omega
        subst hz
        rw [← hn]
        exact ih (by decide) h0
      | true => exact ⟨_, rfl, by simpa [found] using hslot⟩

/-! ## The leaf -/

theorem toNat_setBit {n : Nat} (e : BitVec n) {o : Nat} (ho : o < n) : (setBit e true o).toNat = e.toNat ||| 2 ^ o := by
  have hlt : 2 ^ o < 2 ^ n := Nat.pow_lt_pow_right (by decide) ho
  have hone : 1 % 2 ^ n = 1 := Nat.mod_eq_of_lt (Nat.one_lt_two_pow (by omega))
  rw [setBit, if_pos rfl, BitVec.toNat_or, BitVec.toNat_shiftLeft, BitVec.toNat_ofNat, hone, Nat.one_shiftLeft,
    Nat.mod_eq_of_lt hlt]

/-- The entry the code writes back. -/
theorem toNat_marked64 (p : Pte64) (write : Bool) :
    (if write then (p.setA true).setD true else p.setA true).pte.toNat = Format.mark p.pte.toNat write := by
  have hA : (p.setA true).pte.toNat = p.pte.toNat ||| 0x40 := toNat_setBit p.pte (by decide)
  cases write with
  | false => exact hA
  | true =>
    have hD : ((p.setA true).setD true).pte.toNat = (p.setA true).pte.toNat ||| 0x80 := toNat_setBit _ (by decide)
    rw [if_pos rfl, hD, hA, Nat.or_assoc]
    rfl

theorem toNat_marked32 (p : Pte32) (write : Bool) :
    (if write then (p.setA true).setD true else p.setA true).pte.toNat = Format.mark p.pte.toNat write := by
  have hA : (p.setA true).pte.toNat = p.pte.toNat ||| 0x40 := toNat_setBit p.pte (by decide)
  cases write with
  | false => exact hA
  | true =>
    have hD : ((p.setA true).setD true).pte.toNat = (p.setA true).pte.toNat ||| 0x80 := toNat_setBit _ (by decide)
    rw [if_pos rfl, hD, hA, Nat.or_assoc]
    rfl

/-- Writing back a marked entry changes its low byte only. -/
theorem store_marked {n : Nat} {s : Bytes.Store 32} {a : BitVec 32} {k : Nat} {v : BitVec n} {write : Bool}
    (hk : 0 < k) (hk8 : 8 * k ≤ n) (hk4 : k ≤ 8)
    (hv : v.toNat = Format.mark (Bytes.load n s a k).toNat write) : Bytes.store s a v k = markAt s a write := by
  have hbit : ∀ i, v.getLsbD i = (Format.mark (Bytes.load n s a k).toNat write).testBit i := by
    intro i; rw [← BitVec.testBit_toNat, hv]
  have hlow : byteOf v 0 = marked (s a) write := by
    apply BitVec.eq_of_getLsbD_eq
    intro i hi
    have h0 : (Bytes.load n s a k).getLsbD i = (s a).getLsbD i := by
      rw [Bytes.load, Bytes.getLsbD_compose, show i / 8 = 0 by omega, show i % 8 = i by omega, BitVec.add_zero]
      simp only [show i < n by omega, show i < 8 * k by omega, decide_true, Bool.true_and]
    rw [Bytes.getLsbD_byteOf, hbit, Format.mark, Nat.testBit_or, marked, BitVec.getLsbD_or,
      show 8 * 0 + i = i by omega, BitVec.testBit_toNat, h0]
    cases write with
    | false =>
      have : ∀ i : Fin 8, (0x40 : Nat).testBit i = (0x40#8).getLsbD i := by decide
      simpa [hi] using congrArg ((s a).getLsbD i || ·) (this ⟨i, hi⟩)
    | true =>
      have : ∀ i : Fin 8, (0xC0 : Nat).testBit i = (0xC0#8).getLsbD i := by decide
      simpa [hi] using congrArg ((s a).getLsbD i || ·) (this ⟨i, hi⟩)
  have hpatch : Bytes.store s a v k = Bytes.store s (a + BitVec.ofNat 32 0) v 1 := by
    refine Bytes.store_patch s a (o := 0) (by omega) (by omega) fun l hl => ?_
    by_cases hl0 : l = 0
    · subst hl0; simp
    · rw [if_neg (by omega)]
      rw [← Bytes.byteOf_compose (n := n) (f := fun j => s (a + BitVec.ofNat 32 j)) hl hk8]
      apply BitVec.eq_of_getLsbD_eq
      intro i hi
      rw [Bytes.getLsbD_byteOf, Bytes.getLsbD_byteOf, hbit, Format.testBit_mark (by omega) (by omega),
        BitVec.testBit_toNat]
      rfl
  rw [hpatch]
  simp [Bytes.store, markAt, hlow]

theorem toNat_physical64 {ppn2 ppn1 ppn0 off : BitVec 64} (h2 : ppn2.toNat < 2 ^ 26) (h1 : ppn1.toNat < 2 ^ 9)
    (h0 : ppn0.toNat < 2 ^ 9) (ho : off.toNat < 2 ^ 12) :
    (((ppn2 <<< 30) ||| (ppn1 <<< 21) ||| (ppn0 <<< 12) ||| off) &&& 0x00FFFFFFFFFFFFFF).toNat =
      ppn2.toNat * 2 ^ 30 + ppn1.toNat * 2 ^ 21 + ppn0.toNat * 2 ^ 12 + off.toNat := by
  have e0 := Bits.toNat_shiftLeft_or ppn0 off (k := 12) (by omega) (by omega)
  have e1 := Bits.toNat_shiftLeft_or ppn1 ((ppn0 <<< 12) ||| off) (k := 21) (by omega) (by omega)
  have e2 := Bits.toNat_shiftLeft_or ppn2 ((ppn1 <<< 21) ||| ((ppn0 <<< 12) ||| off)) (k := 30) (by omega) (by omega)
  rw [show (0x00FFFFFFFFFFFFFF : BitVec 64) = Bits.ones 64 56 by rfl, Bits.toNat_and_ones, BitVec.or_assoc,
    BitVec.or_assoc, e2]
  omega

theorem toNat_physical32 {ppn1 ppn0 off : BitVec 64} (h1 : ppn1.toNat < 2 ^ 12) (h0 : ppn0.toNat < 2 ^ 10)
    (ho : off.toNat < 2 ^ 12) :
    (((ppn1 <<< 22) ||| (ppn0 <<< 12) ||| off) &&& 0xFFFFFFFF).toNat =
      (ppn1.toNat * 2 ^ 22 + ppn0.toNat * 2 ^ 12 + off.toNat) % 2 ^ 32 := by
  have e0 := Bits.toNat_shiftLeft_or ppn0 off (k := 12) (by omega) (by omega)
  have e1 := Bits.toNat_shiftLeft_or ppn1 ((ppn0 <<< 12) ||| off) (k := 22) (by omega) (by omega)
  rw [show (0xFFFFFFFF : BitVec 64) = Bits.ones 64 32 by rfl, Bits.toNat_and_ones, BitVec.or_assoc, e1]
  omega

theorem Pte64.toNat_getPpn2 (p : Pte64) : (p.getPpn2.setWidth 64).toNat = p.pte.toNat / 2 ^ 28 % 2 ^ 26 := by
  rw [getPpn2, BitVec.toNat_setWidth, BitVec.toNat_setWidth, toNat_bitcrop _ (by decide) (by decide)]; omega

theorem Pte64.toNat_getPpn1 (p : Pte64) : p.getPpn1.toNat = p.pte.toNat / 2 ^ 19 % 2 ^ 9 := by
  rw [getPpn1, BitVec.toNat_setWidth, toNat_bitcrop _ (by decide) (by decide)]; omega

theorem Pte64.toNat_getPpn0 (p : Pte64) : p.getPpn0.toNat = p.pte.toNat / 2 ^ 10 % 2 ^ 9 := by
  rw [getPpn0, BitVec.toNat_setWidth, toNat_bitcrop _ (by decide) (by decide)]; omega

theorem Pte32.toNat_getPpn1 (p : Pte32) : p.getPpn1.toNat = p.pte.toNat / 2 ^ 20 % 2 ^ 12 :=
  toNat_bitcrop _ (by decide) (by decide)

theorem Pte32.toNat_getPpn0 (p : Pte32) : p.getPpn0.toNat = p.pte.toNat / 2 ^ 10 % 2 ^ 10 :=
  toNat_bitcrop _ (by decide) (by decide)

/-- The test for a misaligned superpage. -/
theorem aligned39_iff (p : Pte64) {lf : Format.Leaf} (hl : lf.level ≤ 2) (he : lf.entry = p.pte.toNat) :
    sv39.Aligned lf ↔ ¬ ((lf.level > 0 ∧ p.getPpn0 ≠ 0) ∨ (lf.level > 1 ∧ p.getPpn1 ≠ 0)) := by
  have h0 : p.getPpn0 = 0 ↔ p.pte.toNat / 2 ^ 10 % 2 ^ 9 = 0 := by
    rw [← p.toNat_getPpn0]; exact (BitVec.toNat_inj (y := 0)).symm
  have h1 : p.getPpn1 = 0 ↔ p.pte.toNat / 2 ^ 19 % 2 ^ 9 = 0 := by
    rw [← p.toNat_getPpn1]; exact (BitVec.toNat_inj (y := 0)).symm
  have ha : sv39.Aligned lf ↔ p.pte.toNat / 2 ^ 10 % 2 ^ 44 % 2 ^ (9 * lf.level) = 0 := by rw [← he]; rfl
  rw [ha, Ne, Ne, h0, h1]
  obtain h | h | h : lf.level = 0 ∨ lf.level = 1 ∨ lf.level = 2 := by omega
  all_goals rw [h]; omega

theorem aligned32_iff (p : Pte32) {lf : Format.Leaf} (hl : lf.level ≤ 1) (he : lf.entry = p.pte.toNat) :
    sv32.Aligned lf ↔ ¬ (lf.level > 0 ∧ p.getPpn0 ≠ 0) := by
  have h0 : p.getPpn0 = 0 ↔ p.pte.toNat / 2 ^ 10 % 2 ^ 10 = 0 := by
    rw [← p.toNat_getPpn0]; exact (BitVec.toNat_inj (y := 0)).symm
  have ha : sv32.Aligned lf ↔ p.pte.toNat / 2 ^ 10 % 2 ^ 22 % 2 ^ (10 * lf.level) = 0 := by rw [← he]; rfl
  rw [ha, Ne, h0]
  obtain h | h : lf.level = 0 ∨ lf.level = 1 := by omega
  all_goals rw [h]; omega

/-! ## Translation -/

/-- What `satp` selects for a mode that is not machine mode. -/
def Mmu.regime (u : Mmu) (satp : BitVec 64) : Regime :=
  if u.mxl = 1 then
    if satp.toNat / 2 ^ 31 % 2 = 0 then .bare else .table (.sv32 (satp.toNat % 2 ^ 22))
  else if satp.toNat / 2 ^ 60 = 0 then .bare
  else if satp.toNat / 2 ^ 60 = 8 then .table (.sv39 (satp.toNat % 2 ^ 44))
  else .unsupported

/-- What a translation returns and leaves behind. -/
def Mmu.Translated (u : Mmu) (m : MemoryWrapper) (va : BitVec 64) (write : Bool) (t : Option Translation)
    (r : Except Crash (BitVec 64 × Mmu × MemoryWrapper)) : Prop :=
  match t with
  | none => r = .ok (va, u.fault va, m)
  | some t => ∃ m', r = .ok (t.address, u, m') ∧ m'.bytes = t.mark m.bytes write

theorem Mmu.toNat_vpn64 (va : BitVec 64) {l : Nat} (hl : l ≤ 2) : (vpn64 va l).toNat = sv39.vpn va.toNat l := by
  obtain rfl | rfl | rfl : l = 0 ∨ l = 1 ∨ l = 2 := by omega
  all_goals exact toNat_bitcrop _ (by decide) (by decide)

/-- A leaf keeps the digits of its page number from its level up; the address gives the others. -/
theorem replaced39 {p2 p1 p0 v1 v0 level : Nat} (h1 : p1 < 2 ^ 9) (h0 : p0 < 2 ^ 9) (hv1 : v1 < 2 ^ 9)
    (hv0 : v0 < 2 ^ 9) (hl : level ≤ 2) :
    (p2 * 2 ^ 18 + p1 * 2 ^ 9 + p0) / 2 ^ (9 * level) * 2 ^ (9 * level) + (v1 * 2 ^ 9 + v0) % 2 ^ (9 * level) =
      p2 * 2 ^ 18 + (if level > 1 then v1 else p1) * 2 ^ 9 + if level > 0 then v0 else p0 := by
  obtain rfl | rfl | rfl : level = 0 ∨ level = 1 ∨ level = 2 := by omega
  · rw [if_neg (by decide), if_neg (by decide)]; omega
  · rw [if_neg (by decide), if_pos (by decide)]; omega
  · rw [if_pos (by decide), if_pos (by decide)]; omega

theorem digits39 (n : Nat) : n % 2 ^ 44 = n / 2 ^ 18 % 2 ^ 26 * 2 ^ 18 + n / 2 ^ 9 % 2 ^ 9 * 2 ^ 9 + n % 2 ^ 9 := by
  omega

theorem address39 {e va : Nat} {lf : Format.Leaf} (hl : lf.level ≤ 2) (he : lf.entry = e) :
    sv39.address va lf % 2 ^ 56 = e / 2 ^ 28 % 2 ^ 26 * 2 ^ 30 +
      (if lf.level > 1 then sv39.vpn va 1 else e / 2 ^ 19 % 2 ^ 9) * 2 ^ 21 +
      (if lf.level > 0 then sv39.vpn va 0 else e / 2 ^ 10 % 2 ^ 9) * 2 ^ 12 + va % 2 ^ 12 := by
  have hp1 : e / 2 ^ 19 % 2 ^ 9 < 2 ^ 9 := Nat.mod_lt _ (by decide)
  have hp0 : e / 2 ^ 10 % 2 ^ 9 < 2 ^ 9 := Nat.mod_lt _ (by decide)
  have hv1 := vpn39_lt va 1
  have hv0 := vpn39_lt va 0
  have hp : e / 2 ^ 10 % 2 ^ 44 = e / 2 ^ 28 % 2 ^ 26 * 2 ^ 18 + e / 2 ^ 19 % 2 ^ 9 * 2 ^ 9 + e / 2 ^ 10 % 2 ^ 9 := by
    have h := digits39 (e / 2 ^ 10)
    rw [Nat.div_div_eq_div_mul, Nat.div_div_eq_div_mul] at h
    exact h
  have hv : va / 2 ^ 12 % 2 ^ 18 = sv39.vpn va 1 * 2 ^ 9 + sv39.vpn va 0 := by
    rw [show sv39.vpn va 1 = va / 2 ^ 21 % 2 ^ 9 from rfl, show sv39.vpn va 0 = va / 2 ^ 12 % 2 ^ 9 from rfl]
    omega
  have hlow : va / 2 ^ 12 % 2 ^ (9 * lf.level) = va / 2 ^ 12 % 2 ^ 18 % 2 ^ (9 * lf.level) :=
    (Nat.mod_mod_of_dvd _ (Nat.pow_dvd_pow 2 (by omega))).symm
  have ha : sv39.address va lf = (e / 2 ^ 10 % 2 ^ 44 / 2 ^ (9 * lf.level) * 2 ^ (9 * lf.level) +
      va / 2 ^ 12 % 2 ^ (9 * lf.level)) * 2 ^ 12 + va % 2 ^ 12 := by rw [← he]; rfl
  rw [ha, hlow, hp, hv, replaced39 hp1 hp0 hv1 hv0 hl]
  have h1 : (if lf.level > 1 then sv39.vpn va 1 else e / 2 ^ 19 % 2 ^ 9) < 2 ^ 9 := by split <;> assumption
  have h0 : (if lf.level > 0 then sv39.vpn va 0 else e / 2 ^ 10 % 2 ^ 9) < 2 ^ 9 := by split <;> assumption
  omega

theorem address32 {e va : Nat} {lf : Format.Leaf} (hl : lf.level ≤ 1) (he : lf.entry = e) :
    sv32.address va lf % 2 ^ 32 = (e / 2 ^ 20 % 2 ^ 12 * 2 ^ 22 +
      (if lf.level = 1 then sv32.vpn va 0 else e / 2 ^ 10 % 2 ^ 10) * 2 ^ 12 + va % 2 ^ 12) % 2 ^ 32 := by
  have hv0 : sv32.vpn va 0 = va / 2 ^ 12 % 2 ^ 10 := rfl
  have hp : e / 2 ^ 10 % 2 ^ 22 = e / 2 ^ 20 % 2 ^ 12 * 2 ^ 10 + e / 2 ^ 10 % 2 ^ 10 := by omega
  have hp0 : e / 2 ^ 10 % 2 ^ 10 < 2 ^ 10 := Nat.mod_lt _ (by decide)
  have ha : sv32.address va lf = (e / 2 ^ 10 % 2 ^ 22 / 2 ^ (10 * lf.level) * 2 ^ (10 * lf.level) +
      va / 2 ^ 12 % 2 ^ (10 * lf.level)) * 2 ^ 12 + va % 2 ^ 12 := by rw [← he]; rfl
  rw [ha, hp, hv0]
  obtain h | h : lf.level = 0 ∨ lf.level = 1 := by omega
  · rw [h, if_neg (by decide)]; omega
  · rw [h, if_pos rfl]; omega

/-- The address the 64-bit code puts together, from the entry it has marked. -/
theorem Mmu.physical64_eq (va : BitVec 64) {p q : Pte64} {lf : Format.Leaf} {write : Bool} (hl : lf.level ≤ 2)
    (he : lf.entry = p.pte.toNat) (hq : q.pte.toNat = Format.mark p.pte.toNat write) :
    ((q.getPpn2.setWidth 64 <<< 30) ||| ((if lf.level > 1 then vpn64 va 1 else q.getPpn1.setWidth 64) <<< 21) |||
      ((if lf.level > 0 then (vpn64 va 0).setWidth 32 else q.getPpn0).setWidth 64 <<< 12) ||| bitcrop va 12 0) &&&
      0x00FFFFFFFFFFFFFF = BitVec.ofNat 64 (sv39.address va.toNat lf % 2 ^ 56) := by
  have hdiv : ∀ k, 8 ≤ k → q.pte.toNat / 2 ^ k = p.pte.toNat / 2 ^ k := by
    intro k hk; rw [hq, Format.mark_div hk]
  have hv1 := vpn39_lt va.toNat 1
  have hv0 := vpn39_lt va.toNat 0
  have h2 : (q.getPpn2.setWidth 64).toNat = p.pte.toNat / 2 ^ 28 % 2 ^ 26 := by
    rw [q.toNat_getPpn2, hdiv 28 (by decide)]
  have h1 : (if lf.level > 1 then vpn64 va 1 else q.getPpn1.setWidth 64).toNat =
      if lf.level > 1 then sv39.vpn va.toNat 1 else p.pte.toNat / 2 ^ 19 % 2 ^ 9 := by
    split
    · exact toNat_vpn64 va (by decide)
    · rw [BitVec.toNat_setWidth, q.toNat_getPpn1, hdiv 19 (by decide)]; omega
  have h0 : ((if lf.level > 0 then (vpn64 va 0).setWidth 32 else q.getPpn0).setWidth 64).toNat =
      if lf.level > 0 then sv39.vpn va.toNat 0 else p.pte.toNat / 2 ^ 10 % 2 ^ 9 := by
    split
    · rw [BitVec.toNat_setWidth, BitVec.toNat_setWidth, toNat_vpn64 va (by decide)]; omega
    · rw [BitVec.toNat_setWidth, q.toNat_getPpn0, hdiv 10 (by decide)]; omega
  have hoff : (bitcrop va 12 0).toNat = va.toNat % 2 ^ 12 := by
    rw [toNat_bitcrop _ (by decide) (by decide)]; omega
  have hpa := toNat_physical64 (by rw [h2]; omega) (by rw [h1]; split <;> omega) (by rw [h0]; split <;> omega)
    (show (bitcrop va 12 0).toNat < 2 ^ 12 by omega)
  rw [h2, h1, h0, hoff, ← address39 hl he] at hpa
  rw [← hpa, BitVec.ofNat_toNat, BitVec.setWidth_eq]

theorem Mmu.toNat_vpn32 (va : BitVec 64) {w : Nat} (o : Nat) (hw : w < 16) :
    (((bitcrop va w o).setWidth 16).setWidth 32).toNat = va.toNat / 2 ^ o % 2 ^ w := by
  have hpow := Nat.pow_lt_pow_right (show 1 < 2 by decide) hw
  have hmod := Nat.mod_lt (va.toNat / 2 ^ o) (Nat.two_pow_pos w)
  rw [BitVec.toNat_setWidth, BitVec.toNat_setWidth, toNat_bitcrop _ (by omega) (by decide)]
  omega

/-- The address the 32-bit code puts together. -/
theorem Mmu.physical32_eq (va : BitVec 64) {p q : Pte32} {lf : Format.Leaf} {write : Bool} (hl : lf.level ≤ 1)
    (he : lf.entry = p.pte.toNat) (hq : q.pte.toNat = Format.mark p.pte.toNat write) :
    ((q.getPpn1.setWidth 64 <<< 22) |||
      ((if lf.level = 1 then ((bitcrop va 10 12).setWidth 16).setWidth 32 else q.getPpn0).setWidth 64 <<< 12) |||
      ((bitcrop va 12 0).setWidth 16).setWidth 64) &&& 0xFFFFFFFF =
        BitVec.ofNat 64 (sv32.address va.toNat lf % 2 ^ 32) := by
  have hdiv : ∀ k, 8 ≤ k → q.pte.toNat / 2 ^ k = p.pte.toNat / 2 ^ k := by
    intro k hk; rw [hq, Format.mark_div hk]
  have hv0 := vpn32_lt va.toNat 0
  have h1 : (q.getPpn1.setWidth 64).toNat = p.pte.toNat / 2 ^ 20 % 2 ^ 12 := by
    rw [BitVec.toNat_setWidth, q.toNat_getPpn1, hdiv 20 (by decide)]; omega
  have h0 : ((if lf.level = 1 then ((bitcrop va 10 12).setWidth 16).setWidth 32
      else q.getPpn0).setWidth 64).toNat =
        if lf.level = 1 then sv32.vpn va.toNat 0 else p.pte.toNat / 2 ^ 10 % 2 ^ 10 := by
    have hvpn := toNat_vpn32 va 12 (show 10 < 16 by decide)
    split
    · rw [BitVec.toNat_setWidth, hvpn]; exact Nat.mod_eq_of_lt (by omega)
    · rw [BitVec.toNat_setWidth, q.toNat_getPpn0, hdiv 10 (by decide)]; omega
  have hoff : (((bitcrop va 12 0).setWidth 16).setWidth 64).toNat = va.toNat % 2 ^ 12 := by
    rw [BitVec.toNat_setWidth, BitVec.toNat_setWidth, toNat_bitcrop _ (by decide) (by decide)]; omega
  have hpa := toNat_physical32 (by rw [h1]; omega) (by rw [h0]; split <;> omega)
    (show (((bitcrop va 12 0).setWidth 16).setWidth 64).toNat < 2 ^ 12 by omega)
  rw [h1, h0, hoff, ← address32 hl he] at hpa
  rw [← hpa, BitVec.ofNat_toNat, BitVec.setWidth_eq]

theorem Mmu.virtualToPhysical64_spec (u : Mmu) (m : MemoryWrapper) (va satp : BitVec 64) (write : Bool)
    (hu : u.mxl ≠ 1) :
    u.Translated m va write ((u.regime satp).translate m.bytes va) (u.virtualToPhysical64 m va satp write) := by
  have hmode : (bitcrop satp 4 60).toNat = satp.toNat / 2 ^ 60 := by
    rw [toNat_bitcrop _ (by decide) (by decide)]; omega
  have h0 : bitcrop satp 4 60 = 0 ↔ satp.toNat / 2 ^ 60 = 0 := by
    rw [← hmode]; exact (BitVec.toNat_inj (y := 0)).symm
  have h8 : bitcrop satp 4 60 = 8 ↔ satp.toNat / 2 ^ 60 = 8 := by
    rw [← hmode]; exact (BitVec.toNat_inj (y := 8)).symm
  unfold regime virtualToPhysical64
  simp only [if_neg hu, h0, h8, ne_eq]
  by_cases hz : satp.toNat / 2 ^ 60 = 0
  · rw [if_pos hz, if_pos hz]; exact ⟨m, rfl, rfl⟩
  rw [if_neg hz, if_neg hz]
  by_cases he : satp.toNat / 2 ^ 60 = 8
  case neg => rw [if_neg he, if_pos he]; rfl
  rw [if_pos he, if_neg (not_not.mpr he)]
  have hppn : (bitcrop satp 44 0).toNat = satp.toNat % 2 ^ 44 := by
    rw [toNat_bitcrop _ (by decide) (by decide)]; omega
  obtain ⟨r, hwalk, hr⟩ := @walk64_spec m va.toNat (vpn64 va) 2 (bitcrop satp 44 0) (satp.toNat % 2 ^ 44)
    (fun l hl => toNat_vpn64 va hl) (by omega) (by omega)
  simp only [k64BitMmuLevels, Nat.reduceSub, hwalk, Except.ok_bind, Regime.translate, Table.translate_sv39,
    Format.translate]
  rcases r with _ | ⟨level, a, p⟩
  · rw [Option.map_none, eq_comm, Option.map_eq_none_iff] at hr
    rw [hr, Option.bind_none, Option.map_none]; exact rfl
  rw [Option.map_some, eq_comm, Option.map_eq_some_iff] at hr
  obtain ⟨lf, hlf, hfound⟩ := hr
  obtain ⟨hmem, hentry, hle⟩ := Format.walk_some hlf
  simp only [found, Prod.mk.injEq] at hfound
  obtain ⟨rfl, hslot, he⟩ := hfound
  rw [hlf, Option.bind_some]
  have hal := aligned39_iff p hle he
  simp only
  by_cases hmis : (lf.level > 0 ∧ p.getPpn0 ≠ 0) ∨ (lf.level > 1 ∧ p.getPpn1 ≠ 0)
  · rw [if_pos hmis, if_neg (fun ha => hal.mp ha hmis), Option.map_none]; exact rfl
  rw [if_neg hmis, if_pos (hal.mpr hmis), Option.map_some]
  have hmark := toNat_marked64 p write
  generalize hq : (if write then (p.setA true).setD true else p.setA true) = q at hmark
  have ha8 : a.toNat % 8 = 0 := by
    obtain ⟨d, hd⟩ := Format.dvd_of_mem_slots (F := sv39) (by decide) hmem
    have := congrArg BitVec.toNat hslot
    rw [MemoryWrapper.toNat_flat, BitVec.toNat_ofNat, hd, show sv39.pteBytes = 8 from rfl] at this
    omega
  obtain ⟨m', hw, hb⟩ := m.write64_bytes ha8 q.getValue
  simp only [hw, Except.ok_bind]
  refine ⟨m', ?_, ?_⟩
  · rw [physical64_eq va hle he hmark]
    rfl
  · rw [hb, hslot]
    refine store_marked (by decide) (by decide) (by decide) ?_
    rw [Pte64.getValue, hmark, ← he, hentry, entryAt, hslot]
    rfl

theorem Mmu.virtualToPhysical32_spec (u : Mmu) (m : MemoryWrapper) (va satp : BitVec 64) (write : Bool)
    (hu : u.mxl = 1) :
    u.Translated m va write ((u.regime satp).translate m.bytes va) (u.virtualToPhysical32 m va satp write) := by
  have hmode : bitcrop satp 1 31 = 0 ↔ satp.toNat / 2 ^ 31 % 2 = 0 := by
    have : (bitcrop satp 1 31).toNat = satp.toNat / 2 ^ 31 % 2 := toNat_bitcrop _ (by decide) (by decide)
    rw [← this]; exact (BitVec.toNat_inj (y := 0)).symm
  have hppn : ((bitcrop satp 22 0).setWidth 32).toNat = satp.toNat % 2 ^ 22 := by
    rw [BitVec.toNat_setWidth, toNat_bitcrop _ (by decide) (by decide)]; omega
  unfold regime virtualToPhysical32
  simp only [if_pos hu, hmode]
  by_cases hz : satp.toNat / 2 ^ 31 % 2 = 0
  · rw [if_pos hz, if_pos hz]; exact ⟨m, rfl, rfl⟩
  rw [if_neg hz, if_neg hz]
  obtain ⟨r, hwalk, hr⟩ := @walk32_spec m va.toNat (((bitcrop va 10 12).setWidth 16).setWidth 32)
    (toNat_vpn32 va 12 (by decide)) 1 ((bitcrop satp 22 0).setWidth 32) (((bitcrop va 10 22).setWidth 16).setWidth 32)
    (by decide) (toNat_vpn32 va 22 (by decide))
  rw [hppn] at hr
  simp only [kMmuLevels, Nat.reduceSub, hwalk, Except.ok_bind, Regime.translate, Table.translate_sv32, Format.translate]
  rcases r with _ | ⟨level, a, p⟩
  · rw [Option.map_none, eq_comm, Option.map_eq_none_iff] at hr
    rw [hr, Option.bind_none, Option.map_none]; exact rfl
  rw [Option.map_some, eq_comm, Option.map_eq_some_iff] at hr
  obtain ⟨lf, hlf, hfound⟩ := hr
  obtain ⟨hmem, hentry, hle⟩ := Format.walk_some hlf
  simp only [found, Prod.mk.injEq] at hfound
  obtain ⟨rfl, hslot, he⟩ := hfound
  rw [hlf, Option.bind_some]
  have hal := aligned32_iff p hle he
  simp only
  by_cases hmis : lf.level > 0 ∧ p.getPpn0 ≠ 0
  · rw [if_pos hmis, if_neg (fun ha => hal.mp ha hmis), Option.map_none]; exact rfl
  rw [if_neg hmis, if_pos (hal.mpr hmis), Option.map_some]
  have hmark := toNat_marked32 p write
  generalize hq : (if write then (p.setA true).setD true else p.setA true) = q at hmark
  have ha4 : (a.setWidth 64).toNat % 4 = 0 := by
    obtain ⟨d, hd⟩ := Format.dvd_of_mem_slots (F := sv32) (by decide) hmem
    have := congrArg BitVec.toNat hslot
    rw [BitVec.toNat_ofNat, hd, show sv32.pteBytes = 4 from rfl] at this
    rw [BitVec.toNat_setWidth]
    omega
  obtain ⟨m', hw, hb⟩ := m.write32_bytes ha4 q.getValue
  simp only [hw, Except.ok_bind]
  refine ⟨m', ?_, ?_⟩
  · rw [physical32_eq va hle he hmark]
    rfl
  · rw [hb, MemoryWrapper.flat_setWidth, hslot]
    refine store_marked (by decide) (by decide) (by decide) ?_
    rw [Pte32.getValue, hmark, ← he, hentry, entryAt, hslot, toNat_load_wide]
    rfl

/-- The registers of the translation unit after a translation. -/
def Mmu.after (u : Mmu) (va : BitVec 64) (fault : Bool) : Mmu :=
  { u with pageFault := fault, faultingAddress := if fault then va else 0 }

/-- The result of a translation, in every mode. -/
theorem Mmu.virtualToPhysical_spec (u : Mmu) (m : MemoryWrapper) (va satp : BitVec 64) (write : Bool) :
    match (if u.privilege = .machineMode then Regime.bare else u.regime satp).translate m.bytes va with
    | none => u.virtualToPhysical m va satp write = .ok (va, u.after va true, m)
    | some t => ∃ m', u.virtualToPhysical m va satp write = .ok (t.address, u.after va false, m') ∧
        m'.bytes = t.mark m.bytes write := by
  unfold virtualToPhysical
  simp only
  by_cases hp : u.privilege = .machineMode
  · rw [if_pos hp, if_pos hp]; exact ⟨m, rfl, rfl⟩
  rw [if_neg hp, if_neg hp]
  have hreg : u.regime satp = (u.after va false).regime satp := rfl
  rw [hreg]
  by_cases hx : u.mxl = 1
  · rw [if_pos hx]
    have h := (u.after va false).virtualToPhysical32_spec m va satp write hx
    unfold Translated at h
    split at h <;> exact h
  · rw [if_neg hx]
    have h := (u.after va false).virtualToPhysical64_spec m va satp write hx
    unfold Translated at h
    split at h <;> exact h

/-- **The walk.** Outside machine mode a translation always returns. It
faults unless the mode is bare or the table's walk ends in an aligned leaf;
it then leads where the leaf does, and marks the leaf and nothing else. A
fault names the address and changes no byte. -/
theorem Mmu.virtualToPhysical_walk (u : Mmu) (m : MemoryWrapper) (va satp : BitVec 64) (write : Bool)
    (hp : u.privilege ≠ .machineMode) :
    ∃ pa u' m', u.virtualToPhysical m va satp write = .ok (pa, u', m') ∧
      (u'.pageFault = false ↔ u.regime satp = .bare ∨ ∃ T lf, u.regime satp = .table T ∧
        T.F.translate (entryAt T.F m.bytes) va.toNat T.top T.root = some lf) ∧
      (u.regime satp = .bare → pa = va ∧ m'.bytes = m.bytes) ∧
      (∀ T lf, u.regime satp = .table T →
        T.F.translate (entryAt T.F m.bytes) va.toNat T.top T.root = some lf →
        pa = BitVec.ofNat 64 (T.F.address va.toNat lf % 2 ^ T.paBits) ∧
        m'.bytes = markAt m.bytes (BitVec.ofNat 32 lf.slot) write) ∧
      (u'.pageFault = true → u'.faultingAddress = va ∧ m'.bytes = m.bytes) := by
  have h := u.virtualToPhysical_spec m va satp write
  rw [if_neg hp] at h
  cases hR : u.regime satp with
  | bare =>
    rw [hR] at h
    obtain ⟨m', hr, hb⟩ := h
    refine ⟨va, _, m', hr, ⟨fun _ => .inl rfl, fun _ => rfl⟩, fun _ => ⟨rfl, hb⟩, ?_, ?_⟩
    · intro T lf h; cases h
    · intro h; cases h
  | unsupported =>
    rw [hR] at h
    refine ⟨va, _, m, h, ⟨?_, ?_⟩, ?_, ?_, fun _ => ⟨rfl, rfl⟩⟩
    · intro h; cases h
    · rintro (h | ⟨T, lf, h, -⟩) <;> cases h
    · intro h; cases h
    · intro T lf h; cases h
  | table T =>
    rw [hR] at h
    simp only [Regime.translate, Table.translate] at h
    cases hlf : T.F.translate (entryAt T.F m.bytes) va.toNat T.top T.root with
    | none =>
      rw [hlf] at h
      refine ⟨va, _, m, h, ⟨?_, ?_⟩, ?_, ?_, fun _ => ⟨rfl, rfl⟩⟩
      · intro h; cases h
      · rintro (h | ⟨T', lf, h, hlf'⟩)
        · cases h
        · cases h; rw [hlf] at hlf'; cases hlf'
      · intro h; cases h
      · intro T' lf h hlf'; cases h; rw [hlf] at hlf'; cases hlf'
    | some lf =>
      rw [hlf] at h
      obtain ⟨m', hr, hb⟩ := h
      refine ⟨_, _, m', hr, ⟨fun _ => .inr ⟨T, lf, rfl, hlf⟩, fun _ => rfl⟩, ?_, ?_, ?_⟩
      · intro h; cases h
      · intro T' lf' h hlf'
        cases h
        rw [hlf] at hlf'
        cases hlf'
        exact ⟨rfl, hb⟩
      · intro h; cases h

/-- A memory whose page 1 is a root table of one entry: a 4 MiB page. -/
def superpageMemory : MemoryWrapper := (MemoryWrapper.new.assign 0).setWord 0 0x400 0x100007

/-- A store through that page: the leaf's byte `0x07` becomes `0xC7`. -/
theorem Mmu.virtualToPhysical_walk_superpage :
    ∃ u' m', (Mmu.mk 1 false 0 .userMode).virtualToPhysical superpageMemory 0x1234 0x80000001 true =
      .ok (0x401234, u', m') ∧ u'.pageFault = false ∧ m'.bytes 0x1000 = 0xC7 := by
  obtain ⟨pa, u', m', hr, hf, -, ht, -⟩ :=
    (Mmu.mk 1 false 0 .userMode).virtualToPhysical_walk superpageMemory 0x1234 0x80000001 true (by decide)
  have hlf : PageWalk.sv32.translate (entryAt PageWalk.sv32 superpageMemory.bytes) 0x1234 1 1 =
      some ⟨1, 0x1000, 0x100007⟩ := by rfl
  obtain ⟨rfl, hb⟩ := ht (.sv32 1) ⟨1, 0x1000, 0x100007⟩ rfl hlf
  exact ⟨u', m', hr, hf.mpr (.inr ⟨.sv32 1, _, rfl, hlf⟩), by rw [hb]; rfl⟩

/-! ## Sequences of translations -/

/-- The regime of the unit's own mode. -/
def Mmu.ownRegime (u : Mmu) (satp : BitVec 64) : Regime :=
  if u.privilege = .machineMode then .bare else u.regime satp

/-- Calls of `VirtualToPhysical`, one after another: the addresses, each for
a write or not. -/
def Mmu.translateAll (satp : BitVec 64) : List (BitVec 64 × Bool) → Mmu → MemoryWrapper →
    Except Crash (Mmu × MemoryWrapper)
  | [], u, mem => .ok (u, mem)
  | (va, write) :: as, u, mem => do
    let (_, u, mem) ← u.virtualToPhysical mem va satp write
    translateAll satp as u mem

/-- A call, in the terms of the regime: what it returns depends on the
translation, and the memory is marked. -/
theorem Mmu.virtualToPhysical_access (u : Mmu) (m : MemoryWrapper) (satp : BitVec 64) (a : BitVec 64 × Bool) :
    ∃ m', u.virtualToPhysical m a.1 satp a.2 = .ok
        (((u.ownRegime satp).translate m.bytes a.1).elim a.1 Translation.address,
          u.after a.1 ((u.ownRegime satp).translate m.bytes a.1).isNone, m') ∧
      m'.bytes = (u.ownRegime satp).access m.bytes a := by
  have h := u.virtualToPhysical_spec m a.1 satp a.2
  change match (u.ownRegime satp).translate m.bytes a.1 with
    | none => _
    | some t => _ at h
  cases ht : (u.ownRegime satp).translate m.bytes a.1 with
  | none =>
    rw [ht] at h
    exact ⟨m, h, (Regime.access_none ht).symm⟩
  | some t =>
    rw [ht] at h
    obtain ⟨m', hr, hb⟩ := h
    exact ⟨m', hr, by rw [Regime.access_some ht, hb]⟩

/-- A sequence of calls always returns; it changes the unit's report of its
last fault, and marks the memory. -/
theorem Mmu.translateAll_spec (u : Mmu) (m : MemoryWrapper) (satp : BitVec 64) (as : List (BitVec 64 × Bool)) :
    ∃ u' m', translateAll satp as u m = .ok (u', m') ∧ u'.ownRegime satp = u.ownRegime satp ∧
      (∀ va fault, u'.after va fault = u.after va fault) ∧ m'.bytes = as.foldl (u.ownRegime satp).access m.bytes := by
  induction as generalizing u m with
  | nil => exact ⟨u, m, rfl, rfl, fun _ _ => rfl, rfl⟩
  | cons a as ih =>
    obtain ⟨m₁, hr, hb⟩ := u.virtualToPhysical_access m satp a
    generalize ((u.ownRegime satp).translate m.bytes a.1).isNone = fault at hr
    obtain ⟨u', m', hr', hR, hu, hb'⟩ := ih (u.after a.1 fault) m₁
    refine ⟨u', m', ?_, hR, hu, ?_⟩
    · rw [translateAll, hr, Except.ok_bind]
      exact hr'
    · rw [hb', hb]
      rfl

/-- **Translations are stable.** Any sequence of translations returns. After
it every translation has the result it had before: the address, the fault and
what the unit reports. And to repeat one of the sequence changes no byte. -/
theorem Mmu.translateAll_stable (u : Mmu) (m : MemoryWrapper) (satp : BitVec 64) (as : List (BitVec 64 × Bool)) :
    ∃ u' m', translateAll satp as u m = .ok (u', m') ∧
      (∀ va write, ∃ pa v m₁ m₂, u.virtualToPhysical m va satp write = .ok (pa, v, m₁) ∧
        u'.virtualToPhysical m' va satp write = .ok (pa, v, m₂)) ∧
      ∀ va write, (va, write) ∈ as → ∃ pa v m₂, u'.virtualToPhysical m' va satp write = .ok (pa, v, m₂) ∧
        m₂.bytes = m'.bytes := by
  obtain ⟨u', m', hr, hR, hu, hb⟩ := u.translateAll_spec m satp as
  have hcall : ∀ a : BitVec 64 × Bool, ∃ m₂, u'.virtualToPhysical m' a.1 satp a.2 = .ok
      (((u.ownRegime satp).translate m.bytes a.1).elim a.1 Translation.address,
        u.after a.1 ((u.ownRegime satp).translate m.bytes a.1).isNone, m₂) ∧
      m₂.bytes = (u.ownRegime satp).access m'.bytes a := by
    intro a
    obtain ⟨m₂, hr₂, hb₂⟩ := u'.virtualToPhysical_access m' satp a
    rw [hR, hu, hb, Regime.translate_foldl] at hr₂
    exact ⟨m₂, hr₂, by rw [hb₂, hR]⟩
  refine ⟨u', m', hr, fun va write => ?_, fun va write hmem => ?_⟩
  · obtain ⟨m₁, hr₁, -⟩ := u.virtualToPhysical_access m satp (va, write)
    obtain ⟨m₂, hr₂, -⟩ := hcall (va, write)
    exact ⟨_, _, m₁, m₂, hr₁, hr₂⟩
  · obtain ⟨m₂, hr₂, hb₂⟩ := hcall (va, write)
    refine ⟨_, _, m₂, hr₂, ?_⟩
    rw [hb₂, hb]
    exact Regime.access_foldl_of_mem hmem

end RiscvEmulator
