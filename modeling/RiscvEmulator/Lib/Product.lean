/-
Products of words, by halves.

A word is read as a signed or an unsigned number (`value`). The upper half
of a product is put together from the four products of the halves of the
operands and a carry (`ediv_product`), and each of these products is a word
again, signed if an operand with a signed half goes into it
(`value_mul_halves`).
-/
import Mathlib.Algebra.Order.Ring.Int
import Mathlib.Tactic.Linarith
import Mathlib.Tactic.LinearCombination
import Mathlib.Tactic.Ring
import RiscvEmulator.Lib.Bits

namespace Words

/-! ## Digits -/

/-- The upper part of a product of two-digit numbers, from the products of
the digits. The digits need no bounds. -/
theorem ediv_product {B : Int} (hB : 0 < B) (a b c d : Int) :
    (a * B + b) * (c * B + d) / (B * B) =
      a * c + a * d / B + b * c / B + (a * d % B + b * c % B + b * d / B) / B := by
  have hlow : (a * B + b) * (c * B + d) = b * d + (a * c * B + (a * d + b * c)) * B := by ring
  have hmid : b * d / B + (a * c * B + (a * d + b * c)) =
      (a * d % B + b * c % B + b * d / B) + (a * c + a * d / B + b * c / B) * B := by
    have h₁ := Int.emod_add_mul_ediv (a * d) B
    have h₂ := Int.emod_add_mul_ediv (b * c) B
    linear_combination -h₁ - h₂
  have hne : B ≠ 0 := Int.ne_of_gt hB
  rw [← Int.ediv_ediv_of_nonneg (Int.le_of_lt hB), hlow, Int.add_mul_ediv_right _ _ hne, hmid,
    Int.add_mul_ediv_right _ _ hne]
  ring

/-! ## Words as numbers -/

variable {n k : Nat}

/-- A word read as a signed or an unsigned number. -/
def value (signed : Bool) (v : BitVec n) : Int := if signed then v.toInt else v.toNat

/-- The numbers a word can be read as. -/
def InRange (n : Nat) (signed : Bool) (i : Int) : Prop :=
  if signed then -2 ^ n ≤ 2 * i ∧ 2 * i < 2 ^ n else 0 ≤ i ∧ i < 2 ^ n

theorem ofInt_value (s : Bool) (v : BitVec n) : BitVec.ofInt n (value s v) = v := by
  cases s with
  | true => exact BitVec.ofInt_toInt
  | false => rw [value, if_neg (by decide), BitVec.ofInt_natCast, BitVec.ofNat_toNat, BitVec.setWidth_eq]

theorem value_ofInt {s : Bool} {i : Int} (h : InRange n s i) : value s (BitVec.ofInt n i) = i := by
  cases s with
  | true =>
    obtain ⟨h₁, h₂⟩ := h
    rw [value, if_pos rfl, BitVec.toInt_ofInt]
    exact Int.bmod_eq_of_le_mul_two (by push_cast; omega) (by push_cast; omega)
  | false =>
    obtain ⟨h₁, h₂⟩ := h
    rw [value, if_neg (by decide), BitVec.toNat_ofInt, Int.toNat_of_nonneg (Int.emod_nonneg _ (by positivity))]
    exact Int.emod_eq_of_lt h₁ (by push_cast; exact h₂)

theorem inRange_value (s : Bool) (v : BitVec n) : InRange n s (value s v) := by
  cases s with
  | true =>
    have h₁ := BitVec.le_two_mul_toInt (x := v)
    have h₂ := BitVec.two_mul_toInt_lt (x := v)
    exact ⟨h₁, h₂⟩
  | false => exact ⟨Int.natCast_nonneg _, by simpa [value] using Int.ofNat_lt.mpr v.isLt⟩

/-- A product whose value fits is exact. -/
theorem value_mul {s s₁ s₂ : Bool} (x y : BitVec n) (h : InRange n s (value s₁ x * value s₂ y)) :
    value s (x * y) = value s₁ x * value s₂ y := by
  rw [← value_ofInt h, BitVec.ofInt_mul, ofInt_value, ofInt_value]

/-! ## Halves -/

/-- The upper half of a word, as a word that has its value. -/
def high (s : Bool) (k : Nat) (v : BitVec n) : BitVec n := if s then v.sshiftRight k else v >>> k

theorem value_high (s : Bool) (k : Nat) (v : BitVec n) : value s (high s k v) = value s v / 2 ^ k := by
  cases s with
  | true => rw [value, if_pos rfl, high, if_pos rfl, BitVec.toInt_sshiftRight, Int.shiftRight_eq_div_pow]; rfl
  | false =>
    rw [value, if_neg (by decide), high, if_neg (by decide), BitVec.toNat_ushiftRight, Nat.shiftRight_eq_div_pow]
    rfl

/-- The lower half of a word, which is unsigned. -/
def low (k : Nat) (v : BitVec n) : BitVec n := v &&& Bits.ones n k

theorem value_low (s : Bool) (v : BitVec n) (hk : k ≤ n) : value false (low k v) = value s v % 2 ^ k := by
  have hlow : value false (low k v) = (v.toNat : Int) % 2 ^ k := by
    rw [value, if_neg (by decide), low, Bits.toNat_and_ones]; push_cast; rfl
  cases s with
  | true =>
    have hd : (2 : Int) ^ k ∣ ((2 ^ n : Nat) : Int) := by push_cast; exact pow_dvd_pow 2 hk
    have hsub : (2 : Int) ^ k ∣ v.toInt - v.toNat := by
      rw [BitVec.toInt_eq_toNat_bmod]
      exact Int.dvd_trans hd Int.dvd_bmod_sub_self
    rw [hlow, value, if_pos rfl]
    exact (Int.emod_eq_emod_iff_emod_sub_eq_zero.mpr (Int.emod_eq_zero_of_dvd hsub)).symm
  | false => exact hlow

theorem inRange_mul {s₁ s₂ : Bool} {a c : Int} (ha : InRange k s₁ a) (hc : InRange k s₂ c) :
    InRange (2 * k) (s₁ || s₂) (a * c) := by
  have hP : (0 : Int) < 2 ^ k := by positivity
  have hsq : (2 : Int) ^ (2 * k) = 2 ^ k * 2 ^ k := by rw [Nat.two_mul, pow_add]
  cases s₁ <;> cases s₂ <;> simp only [InRange, Bool.or_true, Bool.or_false, if_true, Bool.false_eq_true, if_false, hsq]
    at ha hc ⊢ <;> constructor <;> nlinarith

theorem inRange_high (s : Bool) (v : BitVec (2 * k)) : InRange k s (value s (high s k v)) := by
  have h := inRange_value s v
  have hP : (0 : Int) < 2 ^ k := by positivity
  have hsq : (2 : Int) ^ (2 * k) = 2 ^ k * 2 ^ k := by rw [Nat.two_mul, pow_add]
  rw [value_high]
  cases s with
  | true =>
    simp only [InRange, if_true, hsq] at h ⊢
    cases k with
    | zero => omega
    | succ k =>
      have hhalf : (2 : Int) ^ (k + 1) = 2 * 2 ^ k := by ring
      rw [hhalf] at h hP ⊢
      have h₁ : -2 ^ k ≤ value true v / (2 * 2 ^ k) := Int.le_ediv_of_mul_le hP (by linarith)
      have h₂ : value true v / (2 * 2 ^ k) < 2 ^ k := Int.ediv_lt_of_lt_mul hP (by linarith)
      exact ⟨by linarith, by linarith⟩
  | false =>
    simp only [InRange, Bool.false_eq_true, if_false, hsq] at h ⊢
    exact ⟨Int.ediv_nonneg h.1 (Int.le_of_lt hP), Int.ediv_lt_of_lt_mul hP h.2⟩

theorem inRange_low (v : BitVec (2 * k)) : InRange k false (value false (low k v)) := by
  rw [value_low false v (by omega)]
  exact ⟨Int.emod_nonneg _ (by positivity), Int.emod_lt_of_pos _ (by positivity)⟩

/-- The products of the halves do not wrap. -/
theorem value_mul_halves (s₁ s₂ : Bool) (x y : BitVec (2 * k)) :
    value (s₁ || s₂) (high s₁ k x * high s₂ k y) = value s₁ (high s₁ k x) * value s₂ (high s₂ k y) ∧
    value s₁ (high s₁ k x * low k y) = value s₁ (high s₁ k x) * value false (low k y) ∧
    value s₂ (low k x * high s₂ k y) = value false (low k x) * value s₂ (high s₂ k y) ∧
    value false (low k x * low k y) = value false (low k x) * value false (low k y) := by
  have hx := inRange_high s₁ x
  have hy := inRange_high s₂ y
  refine ⟨value_mul _ _ (inRange_mul hx hy), value_mul _ _ ?_, value_mul _ _ ?_,
    value_mul _ _ (inRange_mul (inRange_low x) (inRange_low y))⟩
  · simpa only [Bool.or_false] using inRange_mul hx (inRange_low y)
  · simpa only [Bool.false_or] using inRange_mul (inRange_low x) hy

/-- The sum that carries into the upper half. -/
def carrySum (s₁ s₂ : Bool) (k : Nat) (x y : BitVec n) : BitVec n :=
  low k (high s₁ k x * low k y) + low k (low k x * high s₂ k y) + high false k (low k x * low k y)

/-- The upper half of a product, by halves. -/
def mulHigh (s₁ s₂ : Bool) (k : Nat) (x y : BitVec n) : BitVec n :=
  high s₁ k x * high s₂ k y + high s₁ k (high s₁ k x * low k y) + high s₂ k (low k x * high s₂ k y) +
    high false k (carrySum s₁ s₂ k x y)

theorem value_add {s : Bool} {x y : BitVec n} (h : InRange n s (value s x + value s y)) :
    value s (x + y) = value s x + value s y := by
  rw [← value_ofInt h, BitVec.ofInt_add, ofInt_value, ofInt_value]

/-- The sum does not wrap. -/
theorem value_carrySum (s₁ s₂ : Bool) (x y : BitVec (2 * k)) (hk : 2 ≤ k) :
    value false (carrySum s₁ s₂ k x y) =
      value false (low k (high s₁ k x * low k y)) + value false (low k (low k x * high s₂ k y)) +
        value false (high false k (low k x * low k y)) := by
  obtain ⟨a₁, a₂⟩ := inRange_low (high s₁ k x * low k y)
  obtain ⟨b₁, b₂⟩ := inRange_low (low k x * high s₂ k y)
  obtain ⟨c₁, c₂⟩ := inRange_high false (low k x * low k y)
  have hsq : (2 : Int) ^ (2 * k) = 2 ^ k * 2 ^ k := by rw [Nat.two_mul, pow_add]
  have h4 : (2 : Int) ^ 2 ≤ 2 ^ k := pow_le_pow_right₀ (by decide) hk
  have hab : value false (low k (high s₁ k x * low k y) + low k (low k x * high s₂ k y)) = _ :=
    value_add (s := false) ⟨by linarith, by nlinarith⟩
  rw [carrySum, ← hab]
  exact value_add (s := false) ⟨by rw [hab]; linarith, by rw [hab]; nlinarith⟩

/-- **The upper half of a product.** -/
theorem mulHigh_eq (s₁ s₂ : Bool) (x y : BitVec (2 * k)) (hk : 2 ≤ k) :
    mulHigh s₁ s₂ k x y = BitVec.ofInt (2 * k) (value s₁ x * value s₂ y / 2 ^ (2 * k)) := by
  obtain ⟨hac, had, hbc, hbd⟩ := value_mul_halves s₁ s₂ x y
  have hle : k ≤ 2 * k := by omega
  have hx : value s₁ x / 2 ^ k * 2 ^ k + value s₁ x % 2 ^ k = value s₁ x := Int.ediv_mul_add_emod _ _
  have hy : value s₂ y / 2 ^ k * 2 ^ k + value s₂ y % 2 ^ k = value s₂ y := Int.ediv_mul_add_emod _ _
  have hsq : (2 : Int) ^ (2 * k) = 2 ^ k * 2 ^ k := by rw [Nat.two_mul, pow_add]
  rw [mulHigh, ← ofInt_value (s₁ || s₂) (high s₁ k x * high s₂ k y), ← ofInt_value s₁ (high s₁ k (_ * _)),
    ← ofInt_value s₂ (high s₂ k (_ * _)), ← ofInt_value false (high false k (carrySum s₁ s₂ k x y)),
    ← BitVec.ofInt_add, ← BitVec.ofInt_add, ← BitVec.ofInt_add]
  congr 1
  rw [value_high false k (carrySum s₁ s₂ k x y), value_carrySum s₁ s₂ x y hk, value_low s₁ (high s₁ k x * low k y) hle,
    value_low s₂ (low k x * high s₂ k y) hle, value_high false k (low k x * low k y), value_high s₁ k (_ * _),
    value_high s₂ k (_ * _), hac, had, hbc, hbd, value_high, value_high, value_low s₁ x hle, value_low s₂ y hle]
  rw [← ediv_product (by positivity), hx, hy, hsq]

end Words
