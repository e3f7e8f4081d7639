/-
Multiplication and division in 64-bit mode.

`Rv64.value` is the RV64M specification. `getMulh_exact` says that the
three functions for the upper half of a product compute it without losing a
bit on the way, and `multInstruction_rv64_iff` says when the others do what
the specification says: always, but for a W division whose divisor is zero
in its low word only. The guard looks at the whole register, and the host
then divides by zero.
-/
import RiscvEmulator.Lib.Product
import RiscvEmulator.Rv32

namespace RiscvEmulator

/-! ## The specification -/

namespace Rv64

section

variable {n : Nat}

def div (x y : BitVec n) : BitVec n :=
  if y = 0 then -1 else if x = BitVec.intMin n ∧ y = -1 then x else BitVec.ofInt n (x.toInt.tdiv y.toInt)

def divu (x y : BitVec n) : BitVec n := if y = 0 then -1 else BitVec.ofNat n (x.toNat / y.toNat)

def rem (x y : BitVec n) : BitVec n :=
  if y = 0 then x else if x = BitVec.intMin n ∧ y = -1 then 0 else BitVec.ofInt n (x.toInt.tmod y.toInt)

def remu (x y : BitVec n) : BitVec n := if y = 0 then x else BitVec.ofNat n (x.toNat % y.toNat)

end

/-- The low word of a register. -/
def low (x : BitVec 64) : BitVec 32 := x.setWidth 32

/-- What RV64M assigns to the operands `x` and `y`, the upper halves of
products apart. -/
def value (instruction : Instruction) (x y : BitVec 64) : Option (BitVec 64) :=
  match instruction with
  | .mul => some (x * y)
  | .mulw => some ((low x * low y).signExtend 64)
  | .div => some (div x y)
  | .divu => some (divu x y)
  | .divw => some ((div (low x) (low y)).signExtend 64)
  | .divuw => some ((divu (low x) (low y)).signExtend 64)
  | .rem => some (rem x y)
  | .remu => some (remu x y)
  | .remw => some ((rem (low x) (low y)).signExtend 64)
  | .remuw => some ((remu (low x) (low y)).signExtend 64)
  | _ => none

/-- The divisions and remainders of low words. -/
def isWDivision : Instruction → Bool
  | .divw | .divuw | .remw | .remuw => true
  | _ => false

end Rv64

namespace RiscvCpu

/-! ## Upper halves -/

/-- The partial products of `GetMulh64` and its two siblings, and the sum
that carries. -/
structure MulhParts where
  ac : BitVec 64
  ad : BitVec 64
  bc : BitVec 64
  bd : BitVec 64
  d32 : BitVec 64

def getMulh64Parts (op1 op2 : BitVec 64) : MulhParts :=
  let a := op1.sshiftRight 32
  let b := op1 &&& 0xFFFFFFFF
  let c := op2.sshiftRight 32
  let d := op2 &&& 0xFFFFFFFF
  { ac := a * c, ad := a * d, bc := b * c, bd := b * d,
    d32 := (a * d &&& 0xFFFFFFFF) + (b * c &&& 0xFFFFFFFF) + ((b * d) >>> 32) }

def getMulhsu64Parts (op1 op2 : BitVec 64) : MulhParts :=
  let a := op1.sshiftRight 32
  let b := op1 &&& 0xFFFFFFFF
  let c := op2 >>> 32
  let d := op2 &&& 0xFFFFFFFF
  { ac := a * c, ad := a * d, bc := b * c, bd := b * d,
    d32 := (a * d &&& 0xFFFFFFFF) + (b * c &&& 0xFFFFFFFF) + ((b * d) >>> 32) }

def getMulhu64Parts (op1 op2 : BitVec 64) : MulhParts :=
  let a := op1 >>> 32
  let b := op1 &&& 0xFFFFFFFF
  let c := op2 >>> 32
  let d := op2 &&& 0xFFFFFFFF
  { ac := a * c, ad := a * d, bc := b * c, bd := b * d,
    d32 := (a * d &&& 0xFFFFFFFF) + (b * c &&& 0xFFFFFFFF) + ((b * d) >>> 32) }

/-- The upper half put together from the parts, each shifted as its type is
signed or not. -/
def MulhParts.upper (s₁ s₂ : Bool) (p : MulhParts) : BitVec 64 :=
  p.ac + Words.high s₁ 32 p.ad + Words.high s₂ 32 p.bc + (p.d32 >>> 32)

/-- The parts have the values of what they are the product or the sum of,
for operands that are signed or not. -/
structure MulhParts.Exact (s₁ s₂ : Bool) (x y : BitVec 64) (p : MulhParts) : Prop where
  ac : Words.value (s₁ || s₂) p.ac = Words.value s₁ x / 2 ^ 32 * (Words.value s₂ y / 2 ^ 32)
  ad : Words.value s₁ p.ad = Words.value s₁ x / 2 ^ 32 * (Words.value s₂ y % 2 ^ 32)
  bc : Words.value s₂ p.bc = Words.value s₁ x % 2 ^ 32 * (Words.value s₂ y / 2 ^ 32)
  bd : Words.value false p.bd = Words.value s₁ x % 2 ^ 32 * (Words.value s₂ y % 2 ^ 32)
  d32 : Words.value false p.d32 =
    Words.value s₁ p.ad % 2 ^ 32 + Words.value s₂ p.bc % 2 ^ 32 + Words.value false p.bd / 2 ^ 32

theorem exact_of_halves (s₁ s₂ : Bool) (x y : BitVec 64) :
    MulhParts.Exact s₁ s₂ x y
      ⟨Words.high s₁ 32 x * Words.high s₂ 32 y, Words.high s₁ 32 x * Words.low 32 y,
        Words.low 32 x * Words.high s₂ 32 y, Words.low 32 x * Words.low 32 y, Words.carrySum s₁ s₂ 32 x y⟩ := by
  obtain ⟨hac, had, hbc, hbd⟩ := Words.value_mul_halves (k := 32) s₁ s₂ x y
  have hcarry := Words.value_carrySum (k := 32) s₁ s₂ x y (by decide)
  have hle : 32 ≤ 2 * 32 := by decide
  rw [Words.value_high, Words.value_high] at hac
  rw [Words.value_high, Words.value_low s₂ y hle] at had
  rw [Words.value_low s₁ x hle, Words.value_high] at hbc
  rw [Words.value_low s₁ x hle, Words.value_low s₂ y hle] at hbd
  rw [Words.value_low s₁ (_ * _) hle, Words.value_low s₂ (_ * _) hle, Words.value_high] at hcarry
  exact ⟨hac, had, hbc, hbd, hcarry⟩

/-- **Upper halves of products.** For operands that are both signed, signed
and unsigned, and both unsigned, the function returns the upper half of the
product, and its partial products and their sum are exact. -/
theorem getMulh_exact (x y : BitVec 64) :
    (getMulh64 x y = BitVec.ofInt 64 (x.toInt * y.toInt / 2 ^ 64) ∧
      getMulh64 x y = (getMulh64Parts x y).upper true true ∧ (getMulh64Parts x y).Exact true true x y) ∧
    (getMulhsu64 x y = BitVec.ofInt 64 (x.toInt * y.toNat / 2 ^ 64) ∧
      getMulhsu64 x y = (getMulhsu64Parts x y).upper true false ∧ (getMulhsu64Parts x y).Exact true false x y) ∧
    (getMulhu64 x y = BitVec.ofInt 64 (x.toNat * y.toNat / 2 ^ 64) ∧
      getMulhu64 x y = (getMulhu64Parts x y).upper false false ∧ (getMulhu64Parts x y).Exact false false x y) := by
  have h : ∀ s₁ s₂ : Bool, _ := fun s₁ s₂ => Words.mulHigh_eq (k := 32) s₁ s₂ x y (by decide)
  exact ⟨⟨h true true, rfl, exact_of_halves true true x y⟩, ⟨h true false, rfl, exact_of_halves true false x y⟩,
    ⟨h false false, rfl, exact_of_halves false false x y⟩⟩

/-! ## The other instructions -/

section

variable {x y : BitVec 64} {i : Instruction}

/-- The value given to `rd`: the W forms extend the low word. -/
def written (i : Instruction) (t : BitVec 64) : BitVec 64 := if isMultWInstruction i then sext32bit t else t

theorem sext32bit_ofInt (k : Int) : sext32bit (BitVec.ofInt 64 k) = (BitVec.ofInt 32 k).signExtend 64 := by
  rw [sext32bit_eq, Bits.setWidth_ofInt _ (by decide)]

theorem mask_low (v : BitVec 64) : v &&& 0xFFFFFFFF#64 = (Rv64.low v).setWidth 64 := and_low v

theorem signExtend_low (v : BitVec 64) : signExtend v 32 = (Rv64.low v).signExtend 64 :=
  signExtend_eq_signExtend v (by decide) (by decide) (by decide)

theorem toInt_eq_neg_one : y.toInt = -1 ↔ y = -1 := by
  rw [← BitVec.toInt_inj]; rfl

theorem div_rv64 : mult 64 .div x y = .ok (Rv64.div x y) := by
  have hmult : mult 64 .div x y = if y = 0 then .ok (-1) else if y.toInt = -1 ∧ x = BitVec.intMin 64 then
      .ok (BitVec.intMin 64) else int64Div x y := rfl
  rw [hmult, Rv64.div]
  simp only [toInt_eq_neg_one]
  by_cases hy : y = 0
  · rw [if_pos hy, if_pos hy]
  rw [if_neg hy, if_neg hy]
  by_cases ho : x = BitVec.intMin 64 ∧ y = -1
  · rw [if_pos ho.symm, if_pos ho, ho.1]
  rw [if_neg fun h => ho h.symm, if_neg ho, int64Div, if_neg (not_or.mpr ⟨hy, ho⟩), sdiv_eq_ofInt]

theorem rem_rv64 : mult 64 .rem x y = .ok (Rv64.rem x y) := by
  have hmult : mult 64 .rem x y = if y = 0 then .ok x else if y.toInt = -1 ∧ x = BitVec.intMin 64 then .ok 0
      else int64Rem x y := rfl
  rw [hmult, Rv64.rem]
  simp only [toInt_eq_neg_one]
  by_cases hy : y = 0
  · rw [if_pos hy, if_pos hy]
  rw [if_neg hy, if_neg hy]
  by_cases ho : x = BitVec.intMin 64 ∧ y = -1
  · rw [if_pos ho.symm, if_pos ho]
  rw [if_neg fun h => ho h.symm, if_neg ho, int64Rem, if_neg (not_or.mpr ⟨hy, ho⟩), srem_eq_ofInt]

theorem divu_rv64 : mult 64 .divu x y = .ok (Rv64.divu x y) := by
  have hmult : mult 64 .divu x y = if y = 0 then .ok (~~~0) else uint64Div x y := rfl
  rw [hmult, Rv64.divu]
  by_cases hy : y = 0
  · rw [if_pos hy, if_pos hy]; rfl
  rw [if_neg hy, if_neg hy, uint64Div, if_neg hy]
  refine congrArg Except.ok (BitVec.eq_of_toNat_eq ?_)
  rw [BitVec.toNat_udiv, BitVec.toNat_ofNat, Nat.mod_eq_of_lt (Nat.lt_of_le_of_lt (Nat.div_le_self _ _) x.isLt)]

theorem remu_rv64 : mult 64 .remu x y = .ok (Rv64.remu x y) := by
  have hmult : mult 64 .remu x y = if y = 0 then .ok x else uint64Rem x y := rfl
  rw [hmult, Rv64.remu]
  by_cases hy : y = 0
  · rw [if_pos hy, if_pos hy]
  rw [if_neg hy, if_neg hy, uint64Rem, if_neg hy]
  refine congrArg Except.ok (BitVec.eq_of_toNat_eq ?_)
  rw [BitVec.toNat_umod, BitVec.toNat_ofNat, Nat.mod_eq_of_lt (Nat.lt_of_le_of_lt (Nat.mod_le _ _) x.isLt)]

/-- A divisor that is zero in the low word only passes the guard of the W
forms, and the host divides by zero. -/
theorem wDivision_traps (hi : Rv64.isWDivision i = true) (hy : y ≠ 0) (hz : Rv64.low y = 0) :
    mult 64 i x y = .error .divisionTrap := by
  have hm1 : y.toInt ≠ -1 := by
    intro h
    rw [toInt_eq_neg_one.mp h] at hz
    exact absurd hz (by decide)
  cases i <;> try (cases hi; done)
  case divw =>
    have hmult : mult 64 .divw x y = int64Div (signExtend x 32) (signExtend y 32) :=
      (if_neg hy).trans (if_neg fun h => hm1 h.1)
    rw [hmult, signExtend_low y, hz]
    rfl
  case remw =>
    have hmult : mult 64 .remw x y = int64Rem (signExtend x 32) (signExtend y 32) :=
      (if_neg hy).trans (if_neg fun h => hm1 h.1)
    rw [hmult, signExtend_low y, hz]
    rfl
  case divuw =>
    have hmult : mult 64 .divuw x y = uint64Div (x &&& 0xFFFFFFFF#64) (y &&& 0xFFFFFFFF#64) := if_neg hy
    rw [hmult, mask_low y, hz]
    rfl
  case remuw =>
    have hmult : mult 64 .remuw x y = uint64Rem (x &&& 0xFFFFFFFF#64) (y &&& 0xFFFFFFFF#64) := if_neg hy
    rw [hmult, mask_low y, hz]
    rfl

theorem divw_rv64 (h : y = 0 ∨ Rv64.low y ≠ 0) :
    ∃ t, mult 64 .divw x y = .ok t ∧ sext32bit t = (Rv64.div (Rv64.low x) (Rv64.low y)).signExtend 64 := by
  by_cases hy : y = 0
  · subst hy; exact ⟨-1, rfl, rfl⟩
  have hl : Rv64.low y ≠ 0 := h.resolve_left hy
  by_cases ho : y.toInt = -1 ∧ x = 1#64 <<< 31
  · rw [toInt_eq_neg_one] at ho
    obtain ⟨rfl, rfl⟩ := ho
    exact ⟨_, rfl, rfl⟩
  have hmult : mult 64 .divw x y = int64Div (signExtend x 32) (signExtend y 32) := (if_neg hy).trans (if_neg ho)
  rw [hmult, Rv64.div, if_neg hl, signExtend_low, signExtend_low, int64Div,
    if_neg (not_or.mpr ⟨fun h => hl (wide_eq_zero.mp h), fun h => wide_ne_intMin h.1⟩), sdiv_eq_ofInt, toInt_wide,
    toInt_wide]
  refine ⟨_, rfl, ?_⟩
  rw [sext32bit_ofInt]
  split
  · next h => rw [h.1, h.2]; rfl
  · rfl

theorem remw_rv64 (h : y = 0 ∨ Rv64.low y ≠ 0) :
    ∃ t, mult 64 .remw x y = .ok t ∧ sext32bit t = (Rv64.rem (Rv64.low x) (Rv64.low y)).signExtend 64 := by
  by_cases hy : y = 0
  · subst hy; exact ⟨x, rfl, sext32bit_eq x⟩
  have hl : Rv64.low y ≠ 0 := h.resolve_left hy
  by_cases ho : y.toInt = -1 ∧ x = 1#64 <<< 31
  · rw [toInt_eq_neg_one] at ho
    obtain ⟨rfl, rfl⟩ := ho
    exact ⟨_, rfl, rfl⟩
  have hmult : mult 64 .remw x y = int64Rem (signExtend x 32) (signExtend y 32) := (if_neg hy).trans (if_neg ho)
  rw [hmult, Rv64.rem, if_neg hl, signExtend_low, signExtend_low, int64Rem,
    if_neg (not_or.mpr ⟨fun h => hl (wide_eq_zero.mp h), fun h => wide_ne_intMin h.1⟩), srem_eq_ofInt, toInt_wide,
    toInt_wide]
  refine ⟨_, rfl, ?_⟩
  rw [sext32bit_ofInt]
  split
  · next h => rw [h.1, h.2]; rfl
  · rfl

theorem divuw_rv64 (h : y = 0 ∨ Rv64.low y ≠ 0) :
    ∃ t, mult 64 .divuw x y = .ok t ∧ sext32bit t = (Rv64.divu (Rv64.low x) (Rv64.low y)).signExtend 64 := by
  by_cases hy : y = 0
  · subst hy; exact ⟨~~~0, rfl, rfl⟩
  have hl : Rv64.low y ≠ 0 := h.resolve_left hy
  have hmult : mult 64 .divuw x y = uint64Div (x &&& 0xFFFFFFFF#64) (y &&& 0xFFFFFFFF#64) := if_neg hy
  rw [hmult, Rv64.divu, if_neg hl, mask_low, mask_low, uint64Div, if_neg (low_ne_zero hl)]
  refine ⟨_, rfl, ?_⟩
  rw [sext32bit_eq]
  refine congrArg _ (BitVec.eq_of_toNat_eq ?_)
  rw [BitVec.toNat_setWidth, BitVec.toNat_udiv, toNat_low_wide, toNat_low_wide, BitVec.toNat_ofNat]

theorem remuw_rv64 (h : y = 0 ∨ Rv64.low y ≠ 0) :
    ∃ t, mult 64 .remuw x y = .ok t ∧ sext32bit t = (Rv64.remu (Rv64.low x) (Rv64.low y)).signExtend 64 := by
  by_cases hy : y = 0
  · subst hy; exact ⟨x, rfl, sext32bit_eq x⟩
  have hl : Rv64.low y ≠ 0 := h.resolve_left hy
  have hmult : mult 64 .remuw x y = uint64Rem (x &&& 0xFFFFFFFF#64) (y &&& 0xFFFFFFFF#64) := if_neg hy
  rw [hmult, Rv64.remu, if_neg hl, mask_low, mask_low, uint64Rem, if_neg (low_ne_zero hl)]
  refine ⟨_, rfl, ?_⟩
  rw [sext32bit_eq]
  refine congrArg _ (BitVec.eq_of_toNat_eq ?_)
  rw [BitVec.toNat_setWidth, BitVec.toNat_umod, toNat_low_wide, toNat_low_wide, BitVec.toNat_ofNat]

/-- What the specification assigns is computed, unless the guard misses. -/
theorem mult_rv64 {v : BitVec 64} (hv : Rv64.value i x y = some v)
    (h : Rv64.isWDivision i = true → y = 0 ∨ Rv64.low y ≠ 0) : ∃ t, mult 64 i x y = .ok t ∧ written i t = v := by
  cases i <;> try (cases hv; done)
  all_goals cases hv
  case mul => exact ⟨_, rfl, rfl⟩
  case mulw =>
    refine ⟨x * y, rfl, ?_⟩
    have hw : written .mulw (x * y) = sext32bit (x * y) := rfl
    rw [hw, sext32bit_eq, BitVec.setWidth_mul _ _ (by decide)]
    rfl
  case div => exact ⟨_, div_rv64, rfl⟩
  case divu => exact ⟨_, divu_rv64, rfl⟩
  case divw => exact divw_rv64 (h rfl)
  case divuw => exact divuw_rv64 (h rfl)
  case rem => exact ⟨_, rem_rv64, rfl⟩
  case remu => exact ⟨_, remu_rv64, rfl⟩
  case remw => exact remw_rv64 (h rfl)
  case remuw => exact remuw_rv64 (h rfl)

end

/-- **RV64M.** In 64-bit mode an instruction returns with the
specification's value in `rd` and nothing else changed, unless it is a W
division by a register that is zero in its low word only. -/
theorem multInstruction_rv64_iff (c : RiscvCpu) (h64 : c.en64bit = true) (instruction : Instruction)
    (rd rs1 rs2 : BitVec 5) (v : BitVec 64) (hv : Rv64.value instruction (c.reg rs1) (c.reg rs2) = some v) :
    c.multInstruction instruction rd rs1 rs2 = .ok (c.setReg rd v) ↔
      (Rv64.isWDivision instruction = true → c.reg rs2 = 0 ∨ Rv64.low (c.reg rs2) ≠ 0) := by
  have hx : c.xlen = 64 := by rw [xlen, h64]; rfl
  rw [multInstruction, hx]
  constructor
  · intro h hi
    by_contra hn
    obtain ⟨hy, hz⟩ := not_or.mp hn
    rw [wDivision_traps hi hy (not_not.mp hz)] at h
    cases h
  · intro h
    obtain ⟨t, ht, rfl⟩ := mult_rv64 hv h
    simp only [ht, Except.ok_bind, show ¬ 64 = 32 by decide, false_or]
    rfl

/-- Registers `x1` and `x2` in 64-bit mode. -/
def operands (x y : BitVec 64) : RiscvCpu := ((new true 0).setReg x1 x).setReg x2 y

theorem multInstruction_rv64_iff_overflow :
    (operands 0xFFFFFFFF80000000 0xFFFFFFFF).multInstruction .divw a0 x1 x2 =
      .ok ((operands 0xFFFFFFFF80000000 0xFFFFFFFF).setReg a0 0xFFFFFFFF80000000) :=
  (multInstruction_rv64_iff (operands 0xFFFFFFFF80000000 0xFFFFFFFF) rfl .divw a0 x1 x2 _ rfl).mpr (by decide)

/-- The divisor is 2^32: its low word is zero, it is not. The division of the
host traps where the specification gives -1. -/
theorem divw_traps : (operands 1 0x100000000).multInstruction .divw a0 x1 x2 = .error .divisionTrap ∧
    Rv64.value .divw 1 0x100000000 = some (-1) := by
  exact ⟨rfl, rfl⟩

end RiscvCpu

end RiscvEmulator
