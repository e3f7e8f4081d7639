/-
`bit_tools.h`: the mask tables and the bit-field templates built on them.

A template instance at a `w`-bit type is a function on `BitVec w`. The
tables hold `uint64_t`s, so an instance at a narrower type widens its word,
masks it and narrows it again; one at a signed type widens by the sign.
`bitcrop_eq_crop`, `bitset_eq_put` and `signExtend_eq_sext` say that the
table-driven functions are the fields and extensions of `Lib.Bits`, and
`primitives_correct` what they compute.
-/
import RiscvEmulator.Lib.Bits

namespace RiscvEmulator

/-! ## The source -/

def maskTable : List (BitVec 64) :=
  [
    0x0, 0x01, 0x03, 0x07, 0x0F,
    0x01F, 0x03F, 0x07F, 0x0FF, 0x01FF,
    0x03FF, 0x07FF, 0x0FFF, 0x01FFF, 0x03FFF,
    0x07FFF, 0x0FFFF, 0x01FFFF, 0x03FFFF, 0x07FFFF,
    0x0FFFFF, 0x01FFFFF, 0x03FFFFF, 0x07FFFFF, 0x0FFFFFF,
    0x01FFFFFF, 0x03FFFFFF, 0x07FFFFFF, 0x0FFFFFFF,
    0x01FFFFFFF, 0x03FFFFFFF, 0x07FFFFFFF, 0x0FFFFFFFF,
    0x01FFFFFFFF, 0x03FFFFFFFF, 0x07FFFFFFFF, 0x0FFFFFFFFF,
    0x01FFFFFFFFF, 0x03FFFFFFFFF, 0x07FFFFFFFFF, 0x0FFFFFFFFFF,
    0x01FFFFFFFFFF, 0x03FFFFFFFFFF, 0x07FFFFFFFFFF, 0x0FFFFFFFFFFF,
    0x01FFFFFFFFFFF, 0x03FFFFFFFFFFF, 0x07FFFFFFFFFFF, 0x0FFFFFFFFFFFF,
    0x01FFFFFFFFFFFF, 0x03FFFFFFFFFFFF, 0x07FFFFFFFFFFFF, 0x0FFFFFFFFFFFFF,
    0x01FFFFFFFFFFFFF, 0x03FFFFFFFFFFFFF, 0x07FFFFFFFFFFFFF, 0x0FFFFFFFFFFFFFF,
    0x01FFFFFFFFFFFFFF, 0x03FFFFFFFFFFFFFF, 0x07FFFFFFFFFFFFFF, 0x0FFFFFFFFFFFFFFF,
    0x01FFFFFFFFFFFFFFF, 0x03FFFFFFFFFFFFFFF, 0x07FFFFFFFFFFFFFFF, 0xFFFFFFFFFFFFFFFF]

def signMaskTable : List (BitVec 64) :=
  [
    0xFFFFFFFFFFFFFFFE, 0xFFFFFFFFFFFFFFFC, 0xFFFFFFFFFFFFFFF8, 0xFFFFFFFFFFFFFFF0,
    0xFFFFFFFFFFFFFFE0, 0xFFFFFFFFFFFFFFC0, 0xFFFFFFFFFFFFFF80, 0xFFFFFFFFFFFFFF00,
    0xFFFFFFFFFFFFFE00, 0xFFFFFFFFFFFFFC00, 0xFFFFFFFFFFFFF800, 0xFFFFFFFFFFFFF000,
    0xFFFFFFFFFFFFE000, 0xFFFFFFFFFFFFC000, 0xFFFFFFFFFFFF8000, 0xFFFFFFFFFFFF0000,
    0xFFFFFFFFFFFE0000, 0xFFFFFFFFFFFC0000, 0xFFFFFFFFFFF80000, 0xFFFFFFFFFFF00000,
    0xFFFFFFFFFFE00000, 0xFFFFFFFFFFC00000, 0xFFFFFFFFFF800000, 0xFFFFFFFFFF000000,
    0xFFFFFFFFFE000000, 0xFFFFFFFFFC000000, 0xFFFFFFFFF8000000, 0xFFFFFFFFF0000000,
    0xFFFFFFFFE0000000, 0xFFFFFFFFC0000000, 0xFFFFFFFF80000000, 0xFFFFFFFF00000000,
    0xFFFFFFFE00000000, 0xFFFFFFFC00000000, 0xFFFFFFF800000000, 0xFFFFFFF000000000,
    0xFFFFFFE000000000, 0xFFFFFFC000000000, 0xFFFFFF8000000000, 0xFFFFFF0000000000,
    0xFFFFFE0000000000, 0xFFFFFC0000000000, 0xFFFFF80000000000, 0xFFFFF00000000000,
    0xFFFFE00000000000, 0xFFFFC00000000000, 0xFFFF800000000000, 0xFFFF000000000000,
    0xFFFE000000000000, 0xFFFC000000000000, 0xFFF8000000000000, 0xFFF0000000000000,
    0xFFE0000000000000, 0xFFC0000000000000, 0xFF80000000000000, 0xFF00000000000000,
    0xFE00000000000000, 0xFC00000000000000, 0xF800000000000000, 0xF000000000000000,
    0xE000000000000000, 0xC000000000000000, 0x8000000000000000, 0x0000000000000000]

/-- `mask[i]`. -/
def mask (i : Nat) : BitVec 64 := maskTable.getD i 0

/-- `sign_mask[i]`. -/
def signMask (i : Nat) : BitVec 64 := signMaskTable.getD i 0

/-- The loop of `GenMask`: `size` ones. -/
def genMaskLoop (n : Nat) : Nat → BitVec n
  | 0 => 0
  | size + 1 => (genMaskLoop n size <<< 1) ||| 1#n

def genMask (n size shift : Nat) : BitVec n := genMaskLoop n size <<< shift

def setBit {n : Nat} (data : BitVec n) (value : Bool) (pos : Nat) : BitVec n :=
  if value then data ||| (1#n <<< pos) else data &&& ~~~(1#n <<< pos)

def bitShift {n : Nat} (val : BitVec n) (width offset distpos : Nat) : BitVec n :=
  (((val >>> offset).setWidth 64 &&& mask width).setWidth n) <<< distpos

def bitcrop {n : Nat} (val : BitVec n) (width offset : Nat) : BitVec n :=
  ((val >>> offset).setWidth 64 &&& mask width).setWidth n

/-- `SignExtend`. The test bit is the same for a logical and an arithmetic
shift, so signed instances are this function too (`signExtendSigned_eq`). -/
def signExtend {n : Nat} (value : BitVec n) (width : Nat) : BitVec n :=
  if (value >>> (width - 1)) &&& 1#n ≠ 0#n then
    (value.setWidth 64 ||| signMask (width - 1)).setWidth n
  else
    (value.setWidth 64 &&& ~~~signMask (width - 1)).setWidth n

def bitset {n : Nat} (reg : BitVec n) (width offset : Nat) (val : BitVec n) : BitVec n :=
  let newReg := (reg.setWidth 64 &&& (~~~mask (width + offset) ||| mask offset)).setWidth n
  (newReg.setWidth 64 ||| ((val.setWidth 64 &&& mask width) <<< offset)).setWidth n

/-- `bitcrop` of a signed word: it is shifted and widened by its sign. -/
def bitcropSigned {n : Nat} (val : BitVec n) (width offset : Nat) : BitVec n :=
  ((val.sshiftRight offset).signExtend 64 &&& mask width).setWidth n

/-- `SignExtend` of one. -/
def signExtendSigned {n : Nat} (value : BitVec n) (width : Nat) : BitVec n :=
  if (value.sshiftRight (width - 1)) &&& 1#n ≠ 0#n then
    (value.signExtend 64 ||| signMask (width - 1)).setWidth n
  else
    (value.signExtend 64 &&& ~~~signMask (width - 1)).setWidth n

/-- `bitset` of one. -/
def bitsetSigned {n : Nat} (reg : BitVec n) (width offset : Nat) (val : BitVec n) : BitVec n :=
  let newReg := (reg.signExtend 64 &&& (~~~mask (width + offset) ||| mask offset)).setWidth n
  (newReg.signExtend 64 ||| ((val.signExtend 64 &&& mask width) <<< offset)).setWidth n

/-! ## Fields -/

theorem mask_eq_ones {w : Nat} (h : w ≤ 64) : mask w = Bits.ones 64 w := by
  have : ∀ w : Fin 65, mask w = Bits.ones 64 w := by decide
  exact this ⟨w, by omega⟩

theorem getLsbD_mask {w i : Nat} (h : w ≤ 64) : (mask w).getLsbD i = decide (i < w) := by
  rw [mask_eq_ones h, Bits.getLsbD_ones]
  by_cases hi : i < w
  · simp [hi, show i < 64 by omega]
  · simp [hi]

theorem signMask_eq_ones {k : Nat} (h : k < 64) : signMask k = ~~~Bits.ones 64 (k + 1) := by
  have : ∀ k : Fin 64, signMask k = ~~~Bits.ones 64 (k + 1) := by decide
  exact this ⟨k, h⟩

theorem getLsbD_signMask {k i : Nat} (h : k < 64) (hi : i < 64) : (signMask k).getLsbD i = decide (k < i) := by
  rw [signMask_eq_ones h, BitVec.getLsbD_not, Bits.getLsbD_ones]
  by_cases hk : k < i
  · simp [hi, hk, show ¬ i < k + 1 by omega]
  · simp [hi, hk, show i < k + 1 by omega]

theorem bitcrop_eq_crop {n : Nat} (v : BitVec n) {w o : Nat} (hw : w ≤ 64) (hn : n ≤ 64) :
    bitcrop v w o = Bits.crop v w o := by
  apply BitVec.eq_of_getLsbD_eq
  intro i hi
  rw [Bits.getLsbD_crop, bitcrop, BitVec.getLsbD_setWidth, BitVec.getLsbD_and, BitVec.getLsbD_setWidth,
    BitVec.getLsbD_ushiftRight, getLsbD_mask hw]
  simp [hi, show i < 64 by omega, Bool.and_comm]

theorem getLsbD_bitcrop {n : Nat} (v : BitVec n) {w o i : Nat} (hw : w ≤ 64) (hn : n ≤ 64) :
    (bitcrop v w o).getLsbD i = (decide (i < w) && v.getLsbD (o + i)) := by
  rw [bitcrop_eq_crop v hw hn, Bits.getLsbD_crop]

theorem toNat_bitcrop {n : Nat} (v : BitVec n) {w o : Nat} (hw : w ≤ 64) (hn : n ≤ 64) :
    (bitcrop v w o).toNat = v.toNat / 2 ^ o % 2 ^ w := by
  rw [bitcrop_eq_crop v hw hn, Bits.toNat_crop]

/-- As a word of its own width, a field is an extracted slice. -/
theorem setWidth_bitcrop {n : Nat} (v : BitVec n) {w o : Nat} (hw : w ≤ 64) (hn : n ≤ 64) :
    (bitcrop v w o).setWidth w = v.extractLsb' o w := by
  apply BitVec.eq_of_getLsbD_eq
  intro i hi
  rw [BitVec.getLsbD_setWidth, getLsbD_bitcrop v hw hn, BitVec.getLsbD_extractLsb']
  simp [hi]

/-- A field below the sign of a narrow number is read from the number itself. -/
theorem bitcrop_signExtend {k n : Nat} (x : BitVec k) {w o : Nat} (h : o + w ≤ k) (hk : k ≤ n) (hn : n ≤ 64) :
    bitcrop (x.signExtend n) w o = (x.extractLsb' o w).setWidth n := by
  apply BitVec.eq_of_getLsbD_eq
  intro i hi
  rw [getLsbD_bitcrop _ (by omega) hn, BitVec.getLsbD_signExtend, BitVec.getLsbD_setWidth,
    BitVec.getLsbD_extractLsb']
  grind

theorem getLsbD_bitShift {n : Nat} (v : BitVec n) {w o k i : Nat} (hw : w ≤ 64) (hn : n ≤ 64) :
    (bitShift v w o k).getLsbD i =
      (decide (i < n) && !decide (i < k) && (decide (i - k < w) && v.getLsbD (o + (i - k)))) := by
  have h := getLsbD_bitcrop v (o := o) (i := i - k) hw hn
  rw [bitcrop] at h
  rw [bitShift, BitVec.getLsbD_shiftLeft, h]

theorem bitcrop_one_eq_one {n : Nat} (v : BitVec n) {o : Nat} (h0 : 0 < n) (hn : n ≤ 64) :
    bitcrop v 1 o = 1#n ↔ v.getLsbD o = true := by
  rw [bitcrop_eq_crop v (by omega) hn, Bits.crop_one_eq_one v h0]

theorem getLsbD_bitset {n : Nat} (r x : BitVec n) {w o i : Nat} (hw : w + o ≤ n) (hn : n ≤ 64) (hi : i < n) :
    (bitset r w o x).getLsbD i = if o ≤ i ∧ i < o + w then x.getLsbD (i - o) else r.getLsbD i := by
  have hi64 : i < 64 := by omega
  simp only [bitset, BitVec.getLsbD_setWidth, BitVec.getLsbD_or, BitVec.getLsbD_and, BitVec.getLsbD_not,
    BitVec.getLsbD_shiftLeft, getLsbD_mask (show w + o ≤ 64 by omega), getLsbD_mask (show w ≤ 64 by omega),
    getLsbD_mask (show o ≤ 64 by omega), hi, hi64, decide_true, Bool.true_and]
  by_cases h₁ : i < o
  · simp [h₁, show ¬ o ≤ i by omega]
  · by_cases h₂ : i < o + w
    · have hd : i - o < w := by omega
      simp [h₁, h₂, hd, show i < w + o by omega, show o ≤ i by omega, show i - o < 64 by omega]
    · simp [h₁, h₂, show ¬ i < w + o by omega, show ¬ i - o < w by omega]

/-- The bits outside the field are kept. -/
theorem getLsbD_bitset_of_outside {n : Nat} (r x : BitVec n) {w o i : Nat} (hw : w + o ≤ n) (hn : n ≤ 64)
    (h : i < o ∨ o + w ≤ i) : (bitset r w o x).getLsbD i = r.getLsbD i := by
  by_cases hi : i < n
  · rw [getLsbD_bitset r x hw hn hi, if_neg (by omega)]
  · rw [BitVec.getLsbD_of_ge _ _ (by omega), BitVec.getLsbD_of_ge _ _ (by omega)]

/-- `bitset` writes a field. -/
theorem bitset_eq_put {n : Nat} (r x : BitVec n) {w o : Nat} (hw : w + o ≤ n) (hn : n ≤ 64) :
    bitset r w o x = Bits.put r w o x := by
  apply BitVec.eq_of_getLsbD_eq
  intro i hi
  rw [getLsbD_bitset r x hw hn hi, Bits.getLsbD_put r x hi]

/-- `SignExtend` gives the sign extension of the low `width` bits. -/
theorem signExtend_eq_sext {n : Nat} (v : BitVec n) {w : Nat} (h0 : 0 < w) (hw : w ≤ n) (hn : n ≤ 64) :
    signExtend v w = Bits.sext v w := by
  have htest : (v >>> (w - 1)) &&& 1#n ≠ 0#n ↔ v.getLsbD (w - 1) = true := by
    rw [Bits.and_one_ne_zero, BitVec.getLsbD_ushiftRight, Nat.add_zero]
  apply BitVec.eq_of_getLsbD_eq
  intro i hi
  rw [Bits.getLsbD_sext v h0 hi]
  simp only [signExtend, htest]
  have hs := getLsbD_signMask (k := w - 1) (i := i) (by omega) (by omega)
  split
  · next hb =>
    rw [BitVec.getLsbD_setWidth, BitVec.getLsbD_or, BitVec.getLsbD_setWidth, hs]
    by_cases h : w - 1 < i
    · simp [hi, h, show min i (w - 1) = w - 1 by omega, hb]
    · simp [hi, h, show min i (w - 1) = i by omega, show i < 64 by omega]
  · next hb =>
    rw [BitVec.getLsbD_setWidth, BitVec.getLsbD_and, BitVec.getLsbD_not, BitVec.getLsbD_setWidth, hs]
    by_cases h : w - 1 < i
    · simp only [Bool.not_eq_true] at hb
      simp [h, show min i (w - 1) = w - 1 by omega, hb]
    · simp [hi, h, show min i (w - 1) = i by omega, show i < 64 by omega]

theorem signExtend_eq_signExtend {n : Nat} (v : BitVec n) {w : Nat} (h0 : 0 < w) (hw : w ≤ n) (hn : n ≤ 64) :
    signExtend v w = (v.setWidth w).signExtend n := by
  rw [signExtend_eq_sext v h0 hw hn, Bits.sext]

/-! ## Signed instances -/

section

variable {n : Nat} {w o : Nat}

/-- Below its own width a word reads the same however it was widened. -/
theorem getLsbD_widened (v : BitVec n) {i : Nat} (hi : i < n) :
    (v.signExtend 64).getLsbD i = (v.setWidth 64).getLsbD i := by
  rw [BitVec.getLsbD_signExtend, BitVec.getLsbD_setWidth, if_pos hi]

theorem bitcropSigned_eq (v : BitVec n) (hw : w + o ≤ n) (hn : n ≤ 64) : bitcropSigned v w o = bitcrop v w o := by
  apply BitVec.eq_of_getLsbD_eq
  intro i hi
  rw [getLsbD_bitcrop v (by omega) hn, bitcropSigned, BitVec.getLsbD_setWidth, BitVec.getLsbD_and,
    getLsbD_widened _ hi, BitVec.getLsbD_setWidth, getLsbD_mask (by omega)]
  by_cases h : i < w
  · rw [BitVec.getLsbD_sshiftRight, if_pos (by omega)]
    simp [hi, h, show i < 64 by omega, show ¬ n ≤ i by omega]
  · simp [h]

theorem signExtendSigned_eq (v : BitVec n) (h0 : 0 < w) (hw : w ≤ n) (hn : n ≤ 64) :
    signExtendSigned v w = signExtend v w := by
  have htest : v.sshiftRight (w - 1) &&& 1#n ≠ 0#n ↔ (v >>> (w - 1)) &&& 1#n ≠ 0#n := by
    rw [Bits.and_one_ne_zero, Bits.and_one_ne_zero, BitVec.getLsbD_sshiftRight, BitVec.getLsbD_ushiftRight,
      if_pos (by omega)]
    simp [show ¬ n ≤ 0 by omega]
  simp only [signExtendSigned, signExtend, htest]
  apply BitVec.eq_of_getLsbD_eq
  intro i hi
  split
  · rw [BitVec.getLsbD_setWidth, BitVec.getLsbD_setWidth, BitVec.getLsbD_or, BitVec.getLsbD_or,
      getLsbD_widened v hi]
  · rw [BitVec.getLsbD_setWidth, BitVec.getLsbD_setWidth, BitVec.getLsbD_and, BitVec.getLsbD_and,
      getLsbD_widened v hi]

theorem bitsetSigned_eq (r x : BitVec n) : bitsetSigned r w o x = bitset r w o x := by
  have hkept : (r.signExtend 64 &&& (~~~mask (w + o) ||| mask o)).setWidth n =
      (r.setWidth 64 &&& (~~~mask (w + o) ||| mask o)).setWidth n := by
    apply BitVec.eq_of_getLsbD_eq
    intro i hi
    rw [BitVec.getLsbD_setWidth, BitVec.getLsbD_setWidth, BitVec.getLsbD_and, BitVec.getLsbD_and,
      getLsbD_widened r hi]
  apply BitVec.eq_of_getLsbD_eq
  intro i hi
  simp only [bitsetSigned, bitset, hkept, BitVec.getLsbD_setWidth, BitVec.getLsbD_or, BitVec.getLsbD_shiftLeft,
    BitVec.getLsbD_and, getLsbD_widened _ hi, getLsbD_widened x (show i - o < n by omega)]

end

/-! ## What the primitives compute -/

/-- The field of a written word is what was written, modulo the field. -/
theorem toNat_field_bitset {n : Nat} (r x : BitVec n) {w o : Nat} (hw : w + o ≤ n) (hn : n ≤ 64) :
    (bitset r w o x).toNat / 2 ^ o % 2 ^ w = x.toNat % 2 ^ w := by
  rw [← Bits.toNat_crop, bitset_eq_put r x hw hn, Bits.crop_put_same r x hw, Bits.toNat_crop, Nat.pow_zero,
    Nat.div_one]

/-- **The bit-field primitives are correct for all widths**, as instances at
unsigned and at signed types of 64 and 32 bits. -/
theorem primitives_correct {n : Nat} (hn : n = 64 ∨ n = 32) (v x : BitVec n) :
    (∀ width offset, 1 ≤ width → width + offset ≤ n →
      (bitcrop v width offset).toNat = v.toNat / 2 ^ offset % 2 ^ width ∧
      bitcropSigned v width offset = bitcrop v width offset) ∧
    (∀ width offset, 1 ≤ width → width + offset ≤ n →
      (bitset v width offset x).toNat / 2 ^ offset % 2 ^ width = x.toNat % 2 ^ width ∧
      (∀ i, i < offset ∨ offset + width ≤ i → (bitset v width offset x).getLsbD i = v.getLsbD i) ∧
      bitsetSigned v width offset x = bitset v width offset x) ∧
    ∀ width, 1 ≤ width → width ≤ n →
      signExtend v width = (BitVec.ofNat width (v.toNat % 2 ^ width)).signExtend n ∧
      signExtendSigned v width = signExtend v width := by
  have hn64 : n ≤ 64 := by omega
  refine ⟨fun width offset _ hfit => ⟨?_, ?_⟩, fun width offset _ hfit => ⟨?_, ?_, ?_⟩,
    fun width h1 hw => ⟨?_, ?_⟩⟩
  · exact toNat_bitcrop v (by omega) hn64
  · exact bitcropSigned_eq v hfit hn64
  · exact toNat_field_bitset v x hfit hn64
  · intro i hi
    exact getLsbD_bitset_of_outside v x hfit hn64 hi
  · exact bitsetSigned_eq v x
  · have hlow : BitVec.ofNat width (v.toNat % 2 ^ width) = v.setWidth width := by
      apply BitVec.eq_of_toNat_eq
      rw [BitVec.toNat_ofNat, BitVec.toNat_setWidth, Nat.mod_mod]
    rw [hlow, signExtend_eq_signExtend v h1 hw hn64]
  · exact signExtendSigned_eq v h1 hw hn64

/-- A field of 38 bits of a 64-bit word, and the last entries of the tables. -/
theorem primitives_correct_wide :
    (bitcrop 0xFEDCBA9876543210#64 38 20).toNat = 0xFEDCBA9876543210 / 2 ^ 20 % 2 ^ 38 ∧
    signExtend 0x8000000000000000#64 64 = 0x8000000000000000#64 ∧ signExtendSigned 0x800#32 12 = 0xFFFFF800#32 := by
  have h64 := primitives_correct (.inl rfl) 0xFEDCBA9876543210#64 0
  have hword := primitives_correct (.inl rfl) 0x8000000000000000#64 0
  have h32 := primitives_correct (.inr rfl) 0x800#32 0
  refine ⟨(h64.1 38 20 (by decide) (by decide)).1, (hword.2.2 64 (by decide) (by decide)).1.trans (by decide), ?_⟩
  rw [(h32.2.2 12 (by decide) (by decide)).2, (h32.2.2 12 (by decide) (by decide)).1]
  decide

end RiscvEmulator
