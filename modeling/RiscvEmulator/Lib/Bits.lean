/-
Bit fields of a machine word, and words that are sign extensions.

A field is a width and an offset. `crop` reads one and `put` writes one;
both are stated bit by bit (`getLsbD_crop`, `getLsbD_put`), which is the
form every mask-and-shift computation reduces to. `IsSext w v` says that
the bits of `v` from `w - 1` up are all equal, that is, that `v` is a
`w`-bit two's-complement number held in a wider word.
-/
import Mathlib.Algebra.Group.Int.Defs
import Mathlib.Algebra.Group.Nat.Defs
import Mathlib.Logic.Function.Basic

namespace Bits

/-! ## Fields -/

/-- The word whose low `w` bits are one. -/
def ones (n w : Nat) : BitVec n := BitVec.ofNat n (2 ^ w - 1)

@[simp] theorem getLsbD_ones (n w i : Nat) : (ones n w).getLsbD i = (decide (i < n) && decide (i < w)) := by
  simp [ones, BitVec.getLsbD_ofNat, Nat.testBit_two_pow_sub_one]

/-- The field of `w` bits at offset `o`. -/
def crop {n : Nat} (v : BitVec n) (w o : Nat) : BitVec n := (v >>> o) &&& ones n w

/-- `v` with its field of `w` bits at offset `o` replaced by the low bits of `x`. -/
def put {n : Nat} (v : BitVec n) (w o : Nat) (x : BitVec n) : BitVec n :=
  (v &&& ~~~(ones n w <<< o)) ||| ((x &&& ones n w) <<< o)

theorem getLsbD_crop {n : Nat} (v : BitVec n) (w o i : Nat) :
    (crop v w o).getLsbD i = (decide (i < w) && v.getLsbD (o + i)) := by
  simp only [crop, BitVec.getLsbD_and, BitVec.getLsbD_ushiftRight, getLsbD_ones]
  by_cases h : v.getLsbD (o + i) = true
  · have : o + i < n := BitVec.lt_of_getLsbD h
    simp [h, show i < n by omega]
  · simp [h]

theorem toNat_crop {n : Nat} (v : BitVec n) (w o : Nat) :
    (crop v w o).toNat = v.toNat / 2 ^ o % 2 ^ w := by
  apply Nat.eq_of_testBit_eq
  intro i
  have h := getLsbD_crop v w o i
  rw [← BitVec.testBit_toNat, ← BitVec.testBit_toNat] at h
  rw [h, Nat.testBit_mod_two_pow, Nat.testBit_div_two_pow, Nat.add_comm i o]

theorem toNat_and_ones {n : Nat} (v : BitVec n) (k : Nat) : (v &&& ones n k).toNat = v.toNat % 2 ^ k := by
  have h := toNat_crop v k 0
  rwa [crop, BitVec.ushiftRight_zero, Nat.pow_zero, Nat.div_one] at h

theorem getLsbD_and_ones {n : Nat} (v : BitVec n) (k i : Nat) :
    (v &&& ones n k).getLsbD i = (decide (i < k) && v.getLsbD i) := by
  have h := getLsbD_crop v k 0 i
  rwa [crop, BitVec.ushiftRight_zero, Nat.zero_add] at h

/-- The test of an alignment. -/
theorem and_ones_eq_zero {n : Nat} (v : BitVec n) (k : Nat) : v &&& ones n k = 0#n ↔ v.toNat % 2 ^ k = 0 := by
  rw [← toNat_and_ones, ← BitVec.toNat_inj, BitVec.toNat_zero]

theorem getLsbD_put {n : Nat} (v x : BitVec n) {w o i : Nat} (hi : i < n) :
    (put v w o x).getLsbD i = if o ≤ i ∧ i < o + w then x.getLsbD (i - o) else v.getLsbD i := by
  simp only [put, BitVec.getLsbD_or, BitVec.getLsbD_and, BitVec.getLsbD_not,
    BitVec.getLsbD_shiftLeft, getLsbD_ones, hi, decide_true, Bool.true_and]
  by_cases h₁ : i < o
  · simp [h₁, show ¬ o ≤ i by omega]
  · by_cases h₂ : i < o + w
    · have h₃ : i - o < w := by omega
      simp [h₁, h₂, h₃, show o ≤ i by omega, show i - o < n by omega]
    · have h₃ : ¬ i - o < w := by omega
      simp [h₁, h₂, h₃]

theorem getLsbD_put_of_outside {n : Nat} (v x : BitVec n) {w o i : Nat} (h : i < o ∨ o + w ≤ i) :
    (put v w o x).getLsbD i = v.getLsbD i := by
  by_cases hi : i < n
  · rw [getLsbD_put _ _ hi, if_neg (by omega)]
  · rw [BitVec.getLsbD_of_ge _ _ (by omega), BitVec.getLsbD_of_ge _ _ (by omega)]

theorem crop_put_same {n : Nat} (v x : BitVec n) {w o : Nat} (h : w + o ≤ n) :
    crop (put v w o x) w o = crop x w 0 := by
  apply BitVec.eq_of_getLsbD_eq
  intro i hi
  rw [getLsbD_crop, getLsbD_crop]
  by_cases hw : i < w
  · rw [getLsbD_put _ _ (by omega), if_pos (by omega)]
    simp [show o + i - o = i by omega]
  · simp [hw]

theorem toNat_crop_lt {n : Nat} (v : BitVec n) (w o : Nat) : (crop v w o).toNat < 2 ^ w := by
  rw [toNat_crop]
  exact Nat.mod_lt _ (Nat.two_pow_pos w)

theorem crop_zero_of_lt {n : Nat} {x : BitVec n} {w : Nat} (h : x.toNat < 2 ^ w) : crop x w 0 = x := by
  apply BitVec.eq_of_toNat_eq
  rw [toNat_crop, Nat.pow_zero, Nat.div_one, Nat.mod_eq_of_lt h]

/-- A field is not changed by a write elsewhere. -/
theorem crop_put_of_apart {n : Nat} (v x : BitVec n) {w o w' o' : Nat} (h : o + w ≤ o' ∨ o' + w' ≤ o) :
    crop (put v w o x) w' o' = crop v w' o' := by
  apply BitVec.eq_of_getLsbD_eq
  intro i _
  rw [getLsbD_crop, getLsbD_crop]
  by_cases hw : i < w'
  · rw [getLsbD_put_of_outside _ _ (by omega)]
  · simp [hw]

theorem put_crop {n : Nat} (v : BitVec n) {w o : Nat} : put v w o (crop v w o) = v := by
  apply BitVec.eq_of_getLsbD_eq
  intro i hi
  rw [getLsbD_put _ _ hi]
  split
  · rw [getLsbD_crop, show o + (i - o) = i by omega]
    simp [show i - o < w by omega]
  · rfl

/-- A one-bit field is the bit. -/
theorem crop_one {n : Nat} (v : BitVec n) {o : Nat} : crop v 1 o = (BitVec.ofBool (v.getLsbD o)).setWidth n := by
  apply BitVec.eq_of_getLsbD_eq
  intro i hi
  rw [getLsbD_crop]
  by_cases h : i = 0
  · subst h; simp [hi]
  · simp [show ¬ i < 1 by omega, hi, BitVec.getLsbD_ofBool, h]

theorem crop_one_eq_one {n : Nat} (v : BitVec n) {o : Nat} (hn : 0 < n) :
    crop v 1 o = 1#n ↔ v.getLsbD o = true := by
  rw [crop_one]
  constructor
  · intro h
    have := congrArg (·.getLsbD 0) h
    simpa [hn, BitVec.getLsbD_ofBool] using this
  · intro h
    rw [h]
    apply BitVec.eq_of_getLsbD_eq
    intro i hi
    simp [hi, BitVec.getLsbD_one]

theorem and_one_ne_zero {n : Nat} (v : BitVec n) : v &&& 1#n ≠ 0#n ↔ v.getLsbD 0 = true := by
  constructor
  · intro h
    by_contra h0
    apply h
    apply BitVec.eq_of_getLsbD_eq
    intro i hi
    by_cases hz : i = 0
    · subst hz; simpa using fun hv => absurd hv h0
    · simp [BitVec.getLsbD_one, hz]
  · intro h hz
    have h1 : (v &&& 1#n).getLsbD 0 = true := by
      rw [BitVec.getLsbD_and, h, BitVec.getLsbD_one]
      simp [BitVec.lt_of_getLsbD h]
    rw [hz, BitVec.getLsbD_zero] at h1
    exact Bool.noConfusion h1

/-! ## Sign extensions -/

/-- `v` as the sign extension of its low `w` bits. -/
def sext {n : Nat} (v : BitVec n) (w : Nat) : BitVec n := (v.setWidth w).signExtend n

/-- `v` holds a sign-extended `w`-bit value. -/
def IsSext {n : Nat} (w : Nat) (v : BitVec n) : Prop := v = sext v w

instance {n : Nat} (w : Nat) (v : BitVec n) : Decidable (IsSext w v) :=
  inferInstanceAs (Decidable (v = sext v w))

theorem getLsbD_sext {n : Nat} (v : BitVec n) {w i : Nat} (hw : 0 < w) (hi : i < n) :
    (sext v w).getLsbD i = v.getLsbD (min i (w - 1)) := by
  simp only [sext, BitVec.getLsbD_signExtend, hi, decide_true, Bool.true_and,
    BitVec.getLsbD_setWidth, BitVec.msb_eq_getLsbD_last]
  by_cases h : i < w
  · simp [h, show min i (w - 1) = i by omega]
  · simp [h, show min i (w - 1) = w - 1 by omega, show w - 1 < w by omega]

/-- The bits from `w - 1` up are all equal. -/
theorem isSext_iff {n : Nat} {v : BitVec n} {w : Nat} (hw : 0 < w) :
    IsSext w v ↔ ∀ i, w - 1 ≤ i → i < n → v.getLsbD i = v.getLsbD (w - 1) := by
  constructor
  · intro h i hi hin
    rw [h, getLsbD_sext _ hw hin, getLsbD_sext _ hw (by omega)]
    congr 1; omega
  · intro h
    apply BitVec.eq_of_getLsbD_eq
    intro i hi
    rw [getLsbD_sext _ hw hi]
    by_cases hlt : i < w
    · rw [show min i (w - 1) = i by omega]
    · rw [show min i (w - 1) = w - 1 by omega]; exact h i (by omega) hi

theorem setWidth_signExtend {n w : Nat} (x : BitVec w) (h : w ≤ n) : (x.signExtend n).setWidth w = x := by
  apply BitVec.eq_of_getLsbD_eq
  intro i hi
  simp only [BitVec.getLsbD_setWidth, BitVec.getLsbD_signExtend, hi, decide_true, Bool.true_and, if_true,
    show i < n by omega]

theorem signExtend_signExtend {n m w : Nat} (x : BitVec w) (h : w ≤ n) :
    (x.signExtend n).signExtend m = x.signExtend m := by
  apply BitVec.eq_of_getLsbD_eq
  intro i hi
  rw [BitVec.getLsbD_signExtend, BitVec.getLsbD_signExtend, BitVec.getLsbD_signExtend, BitVec.msb_signExtend]
  grind

theorem isSext_signExtend {n w : Nat} (x : BitVec w) (hn : w ≤ n) : IsSext w (x.signExtend n) := by
  rw [IsSext, sext, setWidth_signExtend x hn]

theorem IsSext.mono {n w w' : Nat} {v : BitVec n} (h : IsSext w v) (h0 : 0 < w) (hw : w ≤ w') : IsSext w' v := by
  rw [isSext_iff h0] at h
  rw [isSext_iff (by omega)]
  intro i hi hin
  rw [h i (by omega) hin, h (w' - 1) (by omega) (by omega)]

/-- A word with no bit from `w - 1` up. -/
theorem isSext_of_getLsbD {n w : Nat} {v : BitVec n} (h0 : 0 < w) (h : ∀ i, w - 1 ≤ i → v.getLsbD i = false) :
    IsSext w v := by
  rw [isSext_iff h0]
  intro i hi _
  rw [h i hi, h (w - 1) (Nat.le_refl _)]

/-- An arithmetic shift commutes with the extension. -/
theorem sshiftRight_signExtend {n w : Nat} (x : BitVec w) (k : Nat) (h : w ≤ n) :
    (x.signExtend n).sshiftRight k = (x.sshiftRight k).signExtend n := by
  apply BitVec.eq_of_toInt_eq
  rw [BitVec.toInt_sshiftRight, BitVec.toInt_signExtend_of_le h, BitVec.toInt_signExtend_of_le h,
    BitVec.toInt_sshiftRight]

/-- The extension keeps the unsigned order too: a word with its sign bit set
stays above one without. -/
theorem signExtend_lt_iff {n w : Nat} (x y : BitVec w) (h : w ≤ n) :
    x.signExtend n < y.signExtend n ↔ x < y := by
  have hp : 2 ^ w ≤ 2 ^ n := Nat.pow_le_pow_right (by decide) h
  have hx := x.isLt
  have hy := y.isLt
  rw [BitVec.lt_def, BitVec.lt_def, BitVec.toNat_signExtend, BitVec.toNat_signExtend, BitVec.toNat_setWidth_of_le h,
    BitVec.toNat_setWidth_of_le h]
  have hxm := BitVec.msb_eq_decide x
  have hym := BitVec.msb_eq_decide y
  cases hx' : x.msb <;> cases hy' : y.msb <;> simp_all <;> omega

theorem setWidth_ofInt {n w : Nat} (i : Int) (h : w ≤ n) : (BitVec.ofInt n i).setWidth w = BitVec.ofInt w i := by
  have hd : ((2 ^ w : Nat) : Int) ∣ ((2 ^ n : Nat) : Int) := Int.natCast_dvd_natCast.mpr (Nat.pow_dvd_pow 2 h)
  have hn : ((2 ^ n : Nat) : Int) ≠ 0 := Int.natCast_ne_zero.mpr (Nat.pos_iff_ne_zero.mp (Nat.two_pow_pos n))
  apply BitVec.eq_of_toNat_eq
  rw [BitVec.toNat_setWidth, BitVec.toNat_ofInt, BitVec.toNat_ofInt, ← Int.emod_emod_of_dvd i hd,
    Int.toNat_emod (Int.emod_nonneg i hn) (Int.natCast_nonneg _), Int.toNat_natCast]

/-! ## Slices -/

section

variable {n : Nat} (x : BitVec n) {w t o k : Nat}

/-- A slice of a field that has been put in its place. -/
theorem extractLsb'_field (ht : t ≤ o) (h : o + k ≤ t + w) (hn : t + w ≤ n) :
    ((x &&& ones n w) <<< t).extractLsb' o k = x.extractLsb' (o - t) k := by
  apply BitVec.eq_of_getLsbD_eq
  intro i hi
  simp only [BitVec.getLsbD_extractLsb', BitVec.getLsbD_shiftLeft, getLsbD_and_ones]
  grind

theorem extractLsb'_field_apart (h : o + k ≤ t ∨ t + w ≤ o) : ((x &&& ones n w) <<< t).extractLsb' o k = 0#k := by
  apply BitVec.eq_of_getLsbD_eq
  intro i hi
  simp only [BitVec.getLsbD_extractLsb', BitVec.getLsbD_shiftLeft, getLsbD_and_ones]
  grind

theorem extractLsb'_shifted : (x >>> t).extractLsb' o k = x.extractLsb' (t + o) k := by
  apply BitVec.eq_of_getLsbD_eq
  intro i hi
  simp only [BitVec.getLsbD_extractLsb', BitVec.getLsbD_ushiftRight, Nat.add_assoc]

/-- Below the word's top the two right shifts are one. -/
theorem extractLsb'_sshifted (h : t + o + k ≤ n) : (x.sshiftRight t).extractLsb' o k = x.extractLsb' (t + o) k := by
  apply BitVec.eq_of_getLsbD_eq
  intro i hi
  simp only [BitVec.getLsbD_extractLsb', BitVec.getLsbD_sshiftRight, Nat.add_assoc]
  grind

end

/-! ## Fields side by side -/

/-- A word placed above a field it does not reach is added to it. -/
theorem toNat_shiftLeft_or {n : Nat} (a b : BitVec n) {k : Nat} (ha : a.toNat * 2 ^ k < 2 ^ n)
    (hb : b.toNat < 2 ^ k) : ((a <<< k) ||| b).toNat = a.toNat * 2 ^ k + b.toNat := by
  rw [BitVec.toNat_or, BitVec.toNat_shiftLeft, Nat.shiftLeft_eq, Nat.mod_eq_of_lt ha, ← Nat.shiftLeft_eq,
    Nat.shiftLeft_add_eq_or_of_lt hb]

end Bits
