/-
The 32-bit architecture on 64-bit registers.

`Rv32.value` and `Rv32.taken` are the RV32IM specification: what an
instruction computes from 32-bit operands. In 32-bit mode the processor
computes with 64-bit words and keeps in each register the sign extension of
a 32-bit value; `execute_rv32` says that what it does to such registers is
the specification's.
-/
import RiscvEmulator.Execute

namespace RiscvEmulator

/-! ## The specification -/

namespace Rv32

/-- What RV32IM assigns to the operands `x` and `y`, the immediate and the
address of the instruction; `none` for an instruction that is not one of
the register computations. A shift amount is the low five bits of its
operand. -/
def value (instruction : Instruction) (x y imm pc : BitVec 32) : Option (BitVec 32) :=
  match instruction with
  | .add => some (x + y)
  | .sub => some (x - y)
  | .and => some (x &&& y)
  | .or => some (x ||| y)
  | .xor => some (x ^^^ y)
  | .sll => some (x <<< (y.toNat % 32))
  | .srl => some (x >>> (y.toNat % 32))
  | .sra => some (x.sshiftRight (y.toNat % 32))
  | .addi => some (x + imm)
  | .andi => some (x &&& imm)
  | .ori => some (x ||| imm)
  | .xori => some (x ^^^ imm)
  | .slli => some (x <<< imm.toNat)
  | .srli => some (x >>> imm.toNat)
  | .srai => some (x.sshiftRight imm.toNat)
  | .slt => some (if x.toInt < y.toInt then 1 else 0)
  | .sltu => some (if x.toNat < y.toNat then 1 else 0)
  | .slti => some (if x.toInt < imm.toInt then 1 else 0)
  | .sltiu => some (if x.toNat < imm.toNat then 1 else 0)
  | .lui => some imm
  | .auipc => some (pc + imm)
  | .mul => some (x * y)
  | .mulh => some (BitVec.ofInt 32 (x.toInt * y.toInt / 2 ^ 32))
  | .mulhsu => some (BitVec.ofInt 32 (x.toInt * y.toNat / 2 ^ 32))
  | .mulhu => some (BitVec.ofNat 32 (x.toNat * y.toNat / 2 ^ 32))
  | .div =>
    some (if y = 0 then -1 else if x = BitVec.intMin 32 ∧ y = -1 then x
      else BitVec.ofInt 32 (x.toInt.tdiv y.toInt))
  | .divu => some (if y = 0 then -1 else BitVec.ofNat 32 (x.toNat / y.toNat))
  | .rem =>
    some (if y = 0 then x else if x = BitVec.intMin 32 ∧ y = -1 then 0
      else BitVec.ofInt 32 (x.toInt.tmod y.toInt))
  | .remu => some (if y = 0 then x else BitVec.ofNat 32 (x.toNat % y.toNat))
  | _ => none

/-- Whether a branch on `x` and `y` is taken. -/
def taken (instruction : Instruction) (x y : BitVec 32) : Option Bool :=
  match instruction with
  | .beq => some (x = y)
  | .bne => some (x ≠ y)
  | .blt => some (x.toInt < y.toInt)
  | .bge => some (y.toInt ≤ x.toInt)
  | .bltu => some (x.toNat < y.toNat)
  | .bgeu => some (y.toNat ≤ x.toNat)
  | _ => none

/-- The shifts by an immediate. -/
def isImmediateShift : Instruction → Bool
  | .slli | .srli | .srai => true
  | _ => false

end Rv32

namespace RiscvCpu

/-! ## Narrowing -/

theorem sext32bit_eq (v : BitVec 64) : sext32bit v = (v.setWidth 32).signExtend 64 := by
  have htest : (v >>> 31) &&& 1#64 ≠ 0#64 ↔ v.getLsbD 31 = true := by
    rw [Bits.and_one_ne_zero, BitVec.getLsbD_ushiftRight, Nat.add_zero]
  have hmask : ∀ i < 64, kUpper32bitMask.getLsbD i = decide (32 ≤ i) := by decide
  apply BitVec.eq_of_getLsbD_eq
  intro i hi
  rw [show (v.setWidth 32).signExtend 64 = Bits.sext v 32 from rfl, Bits.getLsbD_sext v (by decide) hi, sext32bit]
  split
  · next h =>
    rw [BitVec.getLsbD_or, hmask i hi]
    by_cases h32 : 32 ≤ i
    · rw [show min i (32 - 1) = 31 by omega, htest.mp h]; simp [h32]
    · rw [show min i (32 - 1) = i by omega]; simp [h32]
  · next h =>
    rw [htest, Bool.not_eq_true] at h
    rw [BitVec.getLsbD_and, BitVec.getLsbD_not, hmask i hi]
    by_cases h32 : 32 ≤ i
    · rw [show min i (32 - 1) = 31 by omega, h]; simp [h32]
    · rw [show min i (32 - 1) = i by omega]; simp [h32, hi]

theorem and_low (v : BitVec 64) : v &&& 0xFFFFFFFF#64 = (v.setWidth 32).setWidth 64 := by
  have hmask : ∀ i < 64, (0xFFFFFFFF#64).getLsbD i = decide (i < 32) := by decide
  apply BitVec.eq_of_getLsbD_eq
  intro i hi
  rw [BitVec.getLsbD_and, hmask i hi, BitVec.getLsbD_setWidth, BitVec.getLsbD_setWidth]
  simp [hi, Bool.and_comm]

/-! Below, a register holds `X.signExtend 64` for a 32-bit `X`. -/

section

variable (X Y : BitVec 32)

theorem narrow (X : BitVec 32) : (X.signExtend 64).setWidth 32 = X := Bits.setWidth_signExtend X (by decide)

theorem toInt_wide (X : BitVec 32) : (X.signExtend 64).toInt = X.toInt := BitVec.toInt_signExtend_of_le (by decide)

theorem wide_eq_iff : X.signExtend 64 = Y.signExtend 64 ↔ X = Y := by
  constructor
  · intro h
    rw [← narrow X, h, narrow]
  · rintro rfl; rfl

theorem wide_lt_iff : X.signExtend 64 < Y.signExtend 64 ↔ X.toNat < Y.toNat := Bits.signExtend_lt_iff X Y (by decide)

theorem and_low_wide : X.signExtend 64 &&& 0xFFFFFFFF#64 = X.setWidth 64 := by rw [and_low, narrow]

theorem toNat_low_wide : (X.setWidth 64).toNat = X.toNat := BitVec.toNat_setWidth_of_le (by decide)

/-- A shift amount is the low five bits. -/
theorem shiftAmount : (Y.signExtend 64 &&& 0b0011111).toNat = Y.toNat % 32 := by
  have h : Y.signExtend 64 &&& 0b0011111 = (Y &&& 31#32).setWidth 64 := by
    have h31 : ∀ i < 64, (31 : BitVec 64).getLsbD i = (31#32).getLsbD i := by decide
    have hge : ∀ i < 64, 32 ≤ i → (31#32).getLsbD i = false := by decide
    apply BitVec.eq_of_getLsbD_eq
    intro i hi
    rw [BitVec.getLsbD_and, BitVec.getLsbD_setWidth, BitVec.getLsbD_and, BitVec.getLsbD_signExtend, h31 i hi]
    by_cases h32 : i < 32
    · simp [h32, hi]
    · rw [hge i hi (by omega)]; simp
  rw [h, toNat_low_wide, BitVec.toNat_and]
  exact Nat.and_two_pow_sub_one_eq_mod Y.toNat 5

theorem narrow_sll (k : Nat) : (X.signExtend 64 <<< k).setWidth 32 = X <<< k := by
  rw [BitVec.setWidth_shiftLeft_of_le (by decide), narrow]

theorem narrow_srl (k : Nat) : ((X.signExtend 64 &&& 0xFFFFFFFF#64) >>> k).setWidth 32 = X >>> k := by
  rw [and_low_wide]
  apply BitVec.eq_of_toNat_eq
  rw [BitVec.toNat_setWidth, BitVec.toNat_ushiftRight, toNat_low_wide, BitVec.toNat_ushiftRight]
  exact Nat.mod_eq_of_lt (Nat.lt_of_le_of_lt (Nat.shiftRight_le _ _) X.isLt)

theorem narrow_sra (k : Nat) : ((X.signExtend 64).sshiftRight k).setWidth 32 = X.sshiftRight k := by
  rw [Bits.sshiftRight_signExtend X k (by decide), narrow]

theorem narrow_mul : (X.signExtend 64 * Y.signExtend 64).setWidth 32 = X * Y := by
  rw [BitVec.setWidth_mul _ _ (by decide), narrow, narrow]

theorem narrow_add (v : BitVec 64) : (v + Y.signExtend 64).setWidth 32 = v.setWidth 32 + Y := by
  rw [BitVec.setWidth_add _ _ (by decide), narrow]

theorem narrow_sub : (X.signExtend 64 - Y.signExtend 64).setWidth 32 = X - Y := by
  rw [BitVec.sub_eq_add_neg, BitVec.setWidth_add _ _ (by decide), narrow, BitVec.setWidth_neg_of_le (by decide),
    narrow, BitVec.sub_eq_add_neg]

theorem toInt_range : -2 ^ 31 ≤ X.toInt ∧ X.toInt < 2 ^ 31 := by
  have h₁ := BitVec.le_toInt X
  have h₂ := @BitVec.toInt_lt 32 X
  omega

/-- A word of 64 bits holding `i`, shifted, is the upper half of `i`. -/
theorem narrow_high (i : Int) : (BitVec.ofInt 64 i >>> 32).setWidth 32 = BitVec.ofInt 32 (i / 2 ^ 32) := by
  apply BitVec.eq_of_toNat_eq
  rw [BitVec.toNat_setWidth, BitVec.toNat_ushiftRight, BitVec.toNat_ofInt, BitVec.toNat_ofInt,
    Nat.shiftRight_eq_div_pow]
  omega

theorem narrow_high_signed (i : Int) :
    ((BitVec.ofInt 64 i).sshiftRight 32).setWidth 32 = BitVec.ofInt 32 (i / 2 ^ 32) := by
  rw [← narrow_high]
  apply BitVec.eq_of_getLsbD_eq
  intro j hj
  rw [BitVec.getLsbD_setWidth, BitVec.getLsbD_setWidth, BitVec.getLsbD_sshiftRight, BitVec.getLsbD_ushiftRight]
  simp [hj, show 32 + j < 64 by omega, show j < 64 by omega]

theorem mul_eq_ofInt {x y : BitVec 64} {i : Int} (h : x.toInt * y.toInt = i) : x * y = BitVec.ofInt 64 i := by
  rw [← h, BitVec.ofInt_mul, BitVec.ofInt_toInt, BitVec.ofInt_toInt]

end

/-! ## The functions of the processor -/

section

variable {X Y imm pc v : BitVec 32} {i : Instruction}

theorem operation_rv32 {t : BitVec 64} (h : operation 32 i (X.signExtend 64) (Y.signExtend 64) = .ok t)
    (hv : Rv32.value i X Y imm pc = some v) : t.setWidth 32 = v := by
  cases i <;> simp only [operation, true_or, if_true, reduceCtorEq] at h <;> cases h <;> cases hv
  case add => rw [narrow_add, narrow]
  case sub => exact narrow_sub X Y
  case and => rw [BitVec.setWidth_and, narrow, narrow]
  case or => rw [BitVec.setWidth_or, narrow, narrow]
  case xor => rw [BitVec.setWidth_xor, narrow, narrow]
  case sll => rw [shiftAmount, narrow_sll]
  case srl => rw [shiftAmount, narrow_srl]
  case sra => rw [shiftAmount, narrow_sra]

theorem immediate_rv32 {t : BitVec 64} (h : immediate i (X.signExtend 64) (imm.signExtend 64) = .ok t)
    (hv : Rv32.value i X Y imm pc = some v) : t.setWidth 32 = v := by
  cases i <;> simp only [immediate, reduceCtorEq] at h <;> cases h <;> cases hv
  case addi => rw [narrow_add, narrow]
  case andi => rw [BitVec.setWidth_and, narrow, narrow]
  case ori => rw [BitVec.setWidth_or, narrow, narrow]
  case xori => rw [BitVec.setWidth_xor, narrow, narrow]

/-- The product fits, so it is not an overflow in C++. -/
theorem toInt_mul_range (X Y : BitVec 32) : -2 ^ 63 ≤ X.toInt * Y.toInt ∧ X.toInt * Y.toInt < 2 ^ 63 := by
  have hx := toInt_range X
  have hy := toInt_range Y
  have h : (X.toInt * Y.toInt).natAbs ≤ 2 ^ 31 * 2 ^ 31 := by
    rw [Int.natAbs_mul]
    exact Nat.mul_le_mul (by omega) (by omega)
  omega

theorem wide_eq_zero : X.signExtend 64 = 0 ↔ X = 0 := wide_eq_iff X 0

theorem wide_ne_intMin : X.signExtend 64 ≠ BitVec.intMin 64 := by
  intro h
  have := congrArg BitVec.toInt h
  rw [toInt_wide] at this
  have := toInt_range X
  have : (BitVec.intMin 64).toInt = -2 ^ 63 := by decide
  omega

/-- The constant the code compares a dividend with is not sign-extended, so
no register holds it. -/
theorem wide_ne_largestNegative : X.signExtend 64 ≠ 1#64 <<< (32 - 1) := by
  intro h
  have := congrArg BitVec.toInt h
  rw [toInt_wide] at this
  have := toInt_range X
  have : (1#64 <<< (32 - 1)).toInt = 2 ^ 31 := by decide
  omega

theorem sdiv_eq_ofInt (x y : BitVec 64) : x.sdiv y = BitVec.ofInt 64 (x.toInt.tdiv y.toInt) := by
  apply BitVec.eq_of_toInt_eq
  rw [BitVec.toInt_sdiv, BitVec.toInt_ofInt]

theorem srem_eq_ofInt (x y : BitVec 64) : x.srem y = BitVec.ofInt 64 (x.toInt.tmod y.toInt) := by
  rw [← BitVec.toInt_srem, BitVec.ofInt_toInt]

theorem mulh_rv32 : mult 32 .mulh (X.signExtend 64) (Y.signExtend 64) =
    .ok ((BitVec.ofInt 64 (X.toInt * Y.toInt)).sshiftRight 32) := by
  have hp := mul_eq_ofInt (x := X.signExtend 64) (y := Y.signExtend 64) (i := X.toInt * Y.toInt)
    (by rw [toInt_wide, toInt_wide])
  have hrange : -2 ^ 63 ≤ (X.signExtend 64).toInt * (Y.signExtend 64).toInt ∧
      (X.signExtend 64).toInt * (Y.signExtend 64).toInt < 2 ^ 63 := by
    rw [toInt_wide, toInt_wide]
    exact toInt_mul_range X Y
  rw [← hp]
  exact defined_bind (decide_eq_true hrange) _

theorem mulhsu_rv32 : mult 32 .mulhsu (X.signExtend 64) (Y.signExtend 64) =
    .ok (BitVec.ofInt 64 (X.toInt * Y.toNat) >>> 32) := by
  have hy : (Y.setWidth 64).toInt = Y.toNat := by
    rw [BitVec.toInt_eq_toNat_of_lt (by rw [toNat_low_wide]; omega), toNat_low_wide]
  have hp : X.signExtend 64 * Y.setWidth 64 = BitVec.ofInt 64 (X.toInt * Y.toNat) :=
    mul_eq_ofInt (by rw [toInt_wide, hy])
  rw [← hp, ← and_low_wide]
  rfl

theorem mulhu_rv32 : mult 32 .mulhu (X.signExtend 64) (Y.signExtend 64) =
    .ok ((X.setWidth 64 * Y.setWidth 64) >>> 32) := by
  rw [← and_low_wide X, ← and_low_wide Y]
  rfl

theorem narrow_mulhu : ((X.setWidth 64 * Y.setWidth 64) >>> 32).setWidth 32 =
    BitVec.ofNat 32 (X.toNat * Y.toNat / 2 ^ 32) := by
  have h : X.toNat * Y.toNat < 2 ^ 64 := Nat.lt_of_lt_of_eq (Nat.mul_lt_mul'' X.isLt Y.isLt) (by decide)
  apply BitVec.eq_of_toNat_eq
  rw [BitVec.toNat_setWidth, BitVec.toNat_ushiftRight, BitVec.toNat_mul, toNat_low_wide, toNat_low_wide,
    Nat.mod_eq_of_lt h, Nat.shiftRight_eq_div_pow, BitVec.toNat_ofNat]

theorem div_rv32 (hv : Rv32.value .div X Y imm pc = some v) :
    ∃ t, mult 32 .div (X.signExtend 64) (Y.signExtend 64) = .ok t ∧ t.setWidth 32 = v := by
  cases hv
  by_cases hy : Y = 0
  · rw [if_pos hy]
    exact ⟨-1, if_pos (wide_eq_zero.mpr hy), rfl⟩
  have hy64 : Y.signExtend 64 ≠ 0 := fun h => hy (wide_eq_zero.mp h)
  have hmult : mult 32 .div (X.signExtend 64) (Y.signExtend 64) = int64Div (X.signExtend 64) (Y.signExtend 64) :=
    (if_neg hy64).trans (if_neg fun h => wide_ne_largestNegative h.2)
  rw [if_neg hy, hmult, int64Div, if_neg (fun h => h.elim hy64 fun h => wide_ne_intMin h.1)]
  refine ⟨_, rfl, ?_⟩
  rw [sdiv_eq_ofInt, Bits.setWidth_ofInt _ (by decide), toInt_wide, toInt_wide]
  split
  · next h =>
    obtain ⟨rfl, rfl⟩ := h
    decide
  · rfl

theorem rem_rv32 (hv : Rv32.value .rem X Y imm pc = some v) :
    ∃ t, mult 32 .rem (X.signExtend 64) (Y.signExtend 64) = .ok t ∧ t.setWidth 32 = v := by
  cases hv
  by_cases hy : Y = 0
  · rw [if_pos hy]
    exact ⟨_, if_pos (wide_eq_zero.mpr hy), narrow X⟩
  have hy64 : Y.signExtend 64 ≠ 0 := fun h => hy (wide_eq_zero.mp h)
  have hmult : mult 32 .rem (X.signExtend 64) (Y.signExtend 64) = int64Rem (X.signExtend 64) (Y.signExtend 64) :=
    (if_neg hy64).trans (if_neg fun h => wide_ne_largestNegative h.2)
  rw [if_neg hy, hmult, int64Rem, if_neg (fun h => h.elim hy64 fun h => wide_ne_intMin h.1)]
  refine ⟨_, rfl, ?_⟩
  rw [srem_eq_ofInt, Bits.setWidth_ofInt _ (by decide), toInt_wide, toInt_wide]
  split
  · next h =>
    obtain ⟨rfl, rfl⟩ := h
    decide
  · rfl

theorem low_ne_zero (hy : Y ≠ 0) : Y.setWidth 64 ≠ 0 := by
  intro h
  apply hy
  apply BitVec.eq_of_toNat_eq
  rw [← toNat_low_wide, h]
  rfl

theorem divu_rv32 (hv : Rv32.value .divu X Y imm pc = some v) :
    ∃ t, mult 32 .divu (X.signExtend 64) (Y.signExtend 64) = .ok t ∧ t.setWidth 32 = v := by
  cases hv
  by_cases hy : Y = 0
  · rw [if_pos hy]
    exact ⟨~~~0, if_pos (wide_eq_zero.mpr hy), rfl⟩
  have hmult : mult 32 .divu (X.signExtend 64) (Y.signExtend 64) =
      uint64Div (X.signExtend 64 &&& 0xFFFFFFFF#64) (Y.signExtend 64 &&& 0xFFFFFFFF#64) :=
    if_neg fun h => hy (wide_eq_zero.mp h)
  rw [if_neg hy, hmult, and_low_wide, and_low_wide, uint64Div, if_neg (low_ne_zero hy)]
  refine ⟨_, rfl, ?_⟩
  apply BitVec.eq_of_toNat_eq
  rw [BitVec.toNat_setWidth, BitVec.toNat_udiv, toNat_low_wide, toNat_low_wide, BitVec.toNat_ofNat]

theorem remu_rv32 (hv : Rv32.value .remu X Y imm pc = some v) :
    ∃ t, mult 32 .remu (X.signExtend 64) (Y.signExtend 64) = .ok t ∧ t.setWidth 32 = v := by
  cases hv
  by_cases hy : Y = 0
  · rw [if_pos hy]
    exact ⟨_, if_pos (wide_eq_zero.mpr hy), narrow X⟩
  have hmult : mult 32 .remu (X.signExtend 64) (Y.signExtend 64) =
      uint64Rem (X.signExtend 64 &&& 0xFFFFFFFF#64) (Y.signExtend 64 &&& 0xFFFFFFFF#64) :=
    if_neg fun h => hy (wide_eq_zero.mp h)
  rw [if_neg hy, hmult, and_low_wide, and_low_wide, uint64Rem, if_neg (low_ne_zero hy)]
  refine ⟨_, rfl, ?_⟩
  apply BitVec.eq_of_toNat_eq
  rw [BitVec.toNat_setWidth, BitVec.toNat_umod, toNat_low_wide, toNat_low_wide, BitVec.toNat_ofNat]

theorem mult_rv32 (hv : Rv32.value i X Y imm pc = some v)
    (hi : i ∈ [.mul, .mulh, .mulhsu, .mulhu, .div, .divu, .rem, .remu]) :
    ∃ t, mult 32 i (X.signExtend 64) (Y.signExtend 64) = .ok t ∧ t.setWidth 32 = v := by
  simp only [List.mem_cons, List.not_mem_nil, or_false] at hi
  rcases hi with rfl | rfl | rfl | rfl | rfl | rfl | rfl | rfl
  · cases hv; exact ⟨_, rfl, narrow_mul X Y⟩
  · cases hv; exact ⟨_, mulh_rv32, narrow_high_signed _⟩
  · cases hv; exact ⟨_, mulhsu_rv32, narrow_high _⟩
  · cases hv; exact ⟨_, mulhu_rv32, narrow_mulhu⟩
  · exact div_rv32 hv
  · exact divu_rv32 hv
  · exact rem_rv32 hv
  · exact remu_rv32 hv

theorem immediateShift_rv32 (hv : Rv32.value i X Y imm pc = some v) (hi : Rv32.isImmediateShift i = true)
    (hk : imm.toNat < 32) : immediateShift 32 i (X.signExtend 64) imm.toNat = .ok (some (v.signExtend 64)) := by
  have hk64 : decide (imm.toNat < 64) = true := decide_eq_true (by omega)
  cases i <;> try (cases hi; done)
  all_goals
    cases hv
    simp only [immediateShift, if_true]
    rw [defined_bind hk64]
  case slli => rw [sext32bit_eq, narrow_sll]; rfl
  case srli =>
    rw [show ~~~kUpper32bitMask = 0xFFFFFFFF#64 from rfl, sext32bit_eq, narrow_srl]; rfl
  case srai => rw [Bits.sshiftRight_signExtend X _ (by decide)]; rfl

end

/-! ## The switch -/

section

variable {c : RiscvCpu} {rd rs1 rs2 : BitVec 5} {X Y imm pc v : BitVec 32} {i : Instruction}

theorem operationInstruction_rv32 {t : BitVec 64} (hx : c.xlen = 32) (h₁ : c.reg rs1 = X.signExtend 64)
    (h₂ : c.reg rs2 = Y.signExtend 64) (ht : operation 32 i (X.signExtend 64) (Y.signExtend 64) = .ok t)
    (hv : Rv32.value i X Y imm pc = some v) :
    c.operationInstruction i rd rs1 rs2 = .ok (c.setReg rd (v.signExtend 64)) := by
  rw [operationInstruction, hx, h₁, h₂, ht, Except.ok_bind, if_pos (.inl rfl), sext32bit_eq, operation_rv32 ht hv]
  rfl

theorem immediateInstruction_rv32 {t : BitVec 64} (hx : c.xlen = 32) (h₁ : c.reg rs1 = X.signExtend 64)
    (ht : immediate i (X.signExtend 64) (imm.signExtend 64) = .ok t) (hv : Rv32.value i X Y imm pc = some v) :
    c.immediateInstruction i rd rs1 imm = .ok (c.setReg rd (v.signExtend 64)) := by
  rw [immediateInstruction, hx, h₁, ht, Except.ok_bind, if_pos (.inl rfl), sext32bit_eq, immediate_rv32 ht hv]
  rfl

theorem immediateShiftInstruction_rv32 (hx : c.xlen = 32) (h₁ : c.reg rs1 = X.signExtend 64)
    (hi : Rv32.isImmediateShift i = true) (hk : imm.toNat < 32) (hv : Rv32.value i X Y imm pc = some v) :
    c.immediateShiftInstruction i rd rs1 imm = .ok (c.setReg rd (v.signExtend 64)) := by
  rw [immediateShiftInstruction, hx, h₁, immediateShift_rv32 hv hi hk]
  rfl

theorem multInstruction_rv32 (hx : c.xlen = 32) (h₁ : c.reg rs1 = X.signExtend 64)
    (h₂ : c.reg rs2 = Y.signExtend 64) (hi : i ∈ [.mul, .mulh, .mulhsu, .mulhu, .div, .divu, .rem, .remu])
    (hv : Rv32.value i X Y imm pc = some v) :
    c.multInstruction i rd rs1 rs2 = .ok (c.setReg rd (v.signExtend 64)) := by
  obtain ⟨t, ht, rfl⟩ := mult_rv32 hv hi
  rw [multInstruction, hx, h₁, h₂, ht, Except.ok_bind, if_pos (.inl rfl), sext32bit_eq]
  rfl

end

section

variable {c : RiscvCpu} {host : Host} {d : Decoded} {csr : BitVec 12} {X Y v : BitVec 32}

theorem execute_value (hx : c.xlen = 32) (h₁ : c.reg d.rs1 = X.signExtend 64) (h₂ : c.reg d.rs2 = Y.signExtend 64)
    (hs : Rv32.isImmediateShift d.instruction = true → d.imm.toNat < 32)
    (hv : Rv32.value d.instruction X Y d.imm (c.pc.setWidth 32) = some v) :
    c.execute host d csr = .ok (c.setReg d.rd (v.signExtend 64)) := by
  generalize hi : d.instruction = i at hs hv
  cases i <;> try (cases hv; done)
  all_goals simp only [execute, hi, hx, if_true]
  case add | sub | and | or | xor | sll | srl | sra => exact operationInstruction_rv32 hx h₁ h₂ rfl hv
  case addi | andi | ori | xori => exact immediateInstruction_rv32 hx h₁ rfl hv
  case slli | srli | srai => exact immediateShiftInstruction_rv32 hx h₁ rfl (hs rfl) hv
  case mul | mulh | mulhsu | mulhu | div | divu | rem | remu =>
    exact multInstruction_rv32 hx h₁ h₂ (by decide) hv
  case slt =>
    cases hv
    rw [h₁, h₂, toInt_wide, toInt_wide]
    split <;> rfl
  case sltu =>
    cases hv
    simp only [h₁, h₂, wide_lt_iff]
    split <;> rfl
  case slti =>
    cases hv
    rw [h₁, toInt_wide]
    split <;> rfl
  case sltiu =>
    cases hv
    simp only [h₁, wide_lt_iff]
    split <;> rfl
  case lui =>
    cases hv
    rw [sext32bit_eq, narrow]
  case auipc =>
    cases hv
    rw [sext32bit_eq, narrow_add]

theorem execute_taken {b : Bool} (h₁ : c.reg d.rs1 = X.signExtend 64) (h₂ : c.reg d.rs2 = Y.signExtend 64)
    (hb : Rv32.taken d.instruction X Y = some b) :
    c.execute host d csr = .ok { c with nextPc := if b then c.pc + d.imm.signExtend 64 else c.nextPc } := by
  have hcond : c.branchCondition d.instruction d.rs1 d.rs2 = b := by
    generalize d.instruction = i at hb
    cases i <;> try (cases hb; done)
    all_goals
      cases hb
      simp only [branchCondition, h₁, h₂, toInt_wide, wide_eq_iff, wide_lt_iff, ne_eq, BitVec.not_lt.symm]
    all_goals simp
  generalize hi : d.instruction = i at hb hcond
  cases i <;> try (cases hb; done)
  all_goals simp only [execute, hi, branchInstruction, hcond]

end

/-- **RV32 on 64-bit registers.** In 32-bit mode, on registers that hold
sign-extended 32-bit values, an instruction of RV32IM sets `rd` to the
sign extension of the specification's value and changes nothing else, and a
branch is taken exactly when the specification takes it. -/
theorem execute_rv32 (c : RiscvCpu) (host : Host) (d : Decoded) (csr : BitVec 12) (h32 : c.en64bit = false)
    (h₁ : Bits.IsSext 32 (c.reg d.rs1)) (h₂ : Bits.IsSext 32 (c.reg d.rs2))
    (hs : Rv32.isImmediateShift d.instruction = true → d.imm.toNat < 32) :
    (∀ v, Rv32.value d.instruction ((c.reg d.rs1).setWidth 32) ((c.reg d.rs2).setWidth 32) d.imm
        (c.pc.setWidth 32) = some v →
      c.execute host d csr = .ok (c.setReg d.rd (v.signExtend 64))) ∧
    (∀ b, Rv32.taken d.instruction ((c.reg d.rs1).setWidth 32) ((c.reg d.rs2).setWidth 32) = some b →
      c.execute host d csr = .ok { c with nextPc := if b then c.pc + d.imm.signExtend 64 else c.nextPc }) := by
  have hx : c.xlen = 32 := by rw [xlen, h32]; rfl
  exact ⟨fun v hv => execute_value hx h₁ h₂ hs hv, fun b hb => execute_taken h₁ h₂ hb⟩

/-- A state about to divide the least value by minus one. -/
def overflowingDivision : RiscvCpu := ((new false 0).setReg x1 0xFFFFFFFF80000000).setReg x2 (-1)

theorem execute_rv32_overflow :
    overflowingDivision.execute .failing { instruction := .div, rd := a0, rs1 := x1, rs2 := x2, imm := 0 } 0 =
      .ok (overflowingDivision.setReg a0 0xFFFFFFFF80000000) :=
  (execute_rv32 overflowingDivision .failing { instruction := .div, rd := a0, rs1 := x1, rs2 := x2, imm := 0 } 0
    rfl (by decide) (by decide) nofun).1 0x80000000 (by decide)

end RiscvCpu

end RiscvEmulator
