/-
RV64I arithmetic.

An instruction is one of eight operations, on whole registers or on their
low words: `Alu.value` is the specification of both. The source computes all
of them in 64-bit words, and the W forms are put right at the end by
`Sext32bit`; `arithmetic_exact` says that this is the specification's value.
-/
import RiscvEmulator.Rv64

namespace RiscvEmulator

/-! ## The specification -/

namespace Rv64

inductive Alu where
  | add | sub | and | or | xor | sll | srl | sra
  deriving DecidableEq

/-- The operation on words of `n` bits. A shift count is taken mod `n`. -/
def Alu.apply {n : Nat} (x y : BitVec n) : Alu → BitVec n
  | .add => x + y
  | .sub => x - y
  | .and => x &&& y
  | .or => x ||| y
  | .xor => x ^^^ y
  | .sll => x <<< (y.toNat % n)
  | .srl => x >>> (y.toNat % n)
  | .sra => x.sshiftRight (y.toNat % n)

/-- What is written to `rd`: a W form computes from the low words and extends
the sign. -/
def Alu.value (op : Alu) (isW : Bool) (x y : BitVec 64) : BitVec 64 :=
  if isW then (op.apply (low x) (low y)).signExtend 64 else op.apply x y

/-- The operation of an instruction on two registers, and whether it is a W
form. -/
def operationOf : Instruction → Option (Alu × Bool)
  | .add => some (.add, false)
  | .sub => some (.sub, false)
  | .and => some (.and, false)
  | .or => some (.or, false)
  | .xor => some (.xor, false)
  | .sll => some (.sll, false)
  | .srl => some (.srl, false)
  | .sra => some (.sra, false)
  | .addw => some (.add, true)
  | .subw => some (.sub, true)
  | .sllw => some (.sll, true)
  | .srlw => some (.srl, true)
  | .sraw => some (.sra, true)
  | _ => none

/-- That of an instruction on a register and an immediate. -/
def immediateOf : Instruction → Option (Alu × Bool)
  | .addi => some (.add, false)
  | .addiw => some (.add, true)
  | .andi => some (.and, false)
  | .ori => some (.or, false)
  | .xori => some (.xor, false)
  | _ => none

/-- That of a shift by an immediate. -/
def shiftOf : Instruction → Option (Alu × Bool)
  | .slli => some (.sll, false)
  | .srli => some (.srl, false)
  | .srai => some (.sra, false)
  | .slliw => some (.sll, true)
  | .srliw => some (.srl, true)
  | .sraiw => some (.sra, true)
  | _ => none

/-- The width of the operands. -/
def width (isW : Bool) : Nat := if isW then 32 else 64

end Rv64

namespace RiscvCpu

section

variable {i : Instruction} {op : Rv64.Alu} {isW : Bool} (x y : BitVec 64)

/-! ## Shift counts -/

theorem count_full : (y &&& 0b0111111).toNat = y.toNat % 64 := Bits.toNat_and_ones y 6

theorem count_word : (y &&& 0b0011111).toNat = (Rv64.low y).toNat % 32 := by
  have h : (y &&& 0b0011111).toNat = y.toNat % 32 := Bits.toNat_and_ones y 5
  rw [h, Rv64.low, BitVec.toNat_setWidth]
  omega

/-! ## Low words -/

theorem sext32bit_low (v : BitVec 64) : sext32bit v = (Rv64.low v).signExtend 64 := sext32bit_eq v

theorem low_add : Rv64.low (x + y) = Rv64.low x + Rv64.low y := BitVec.setWidth_add _ _ (by decide)

theorem low_sub : Rv64.low (x - y) = Rv64.low x - Rv64.low y := by
  rw [Rv64.low, BitVec.sub_eq_add_neg, BitVec.setWidth_add _ _ (by decide), BitVec.setWidth_neg_of_le (by decide),
    ← BitVec.sub_eq_add_neg]
  rfl

theorem low_shiftLeft (k : Nat) : Rv64.low (x <<< k) = Rv64.low x <<< k := BitVec.setWidth_shiftLeft_of_le (by decide)

theorem low_ushiftRight (k : Nat) : Rv64.low ((x &&& 0xFFFFFFFF#64) >>> k) = Rv64.low x >>> k := by
  rw [mask_low]
  apply BitVec.eq_of_toNat_eq
  rw [Rv64.low, BitVec.toNat_setWidth, BitVec.toNat_ushiftRight, toNat_low_wide, BitVec.toNat_ushiftRight]
  exact Nat.mod_eq_of_lt (Nat.lt_of_le_of_lt (Nat.shiftRight_le _ _) (Rv64.low x).isLt)

theorem low_low (v : BitVec 64) : Rv64.low (v &&& 0xFFFFFFFF#64) = Rv64.low v := by
  rw [mask_low, Rv64.low, BitVec.setWidth_setWidth_of_le _ (by decide), BitVec.setWidth_eq]

/-- A logical shift of the extended word brings copies of the sign into the
low word, as long as there are enough of them. -/
theorem low_signed_ushiftRight (X : BitVec 32) {k : Nat} (hk : k ≤ 32) :
    Rv64.low (X.signExtend 64 >>> k) = X.sshiftRight k := by
  apply BitVec.eq_of_getLsbD_eq
  intro j hj
  rw [Rv64.low, BitVec.getLsbD_setWidth, BitVec.getLsbD_ushiftRight, BitVec.getLsbD_signExtend,
    BitVec.getLsbD_sshiftRight]
  by_cases h : k + j < 32
  · simp [h, hj, show k + j < 64 by omega]
  · simp [h, hj, show k + j < 64 by omega]

/-! ## The three functions -/

/-- What `OperationInstruction` computes is the operation, and for a W form
so is its low word. -/
theorem operation_rv64 (h : Rv64.operationOf i = some (op, isW)) :
    ∃ t, operation 64 i x y = .ok t ∧ isWInstruction i = isW ∧ (if isW then sext32bit t else t) = op.value isW x y := by
  cases i <;> cases h <;> refine ⟨_, rfl, rfl, ?_⟩
  all_goals simp only [isWInstruction, Rv64.Alu.value, Rv64.Alu.apply, Nat.reduceEqDiff, or_self, or_true,
    Bool.false_eq_true, reduceCtorEq, if_true, if_false, ← count_full, ← count_word, sext32bit_low]
  case addw => rw [low_add]
  case subw => rw [low_sub]
  case sllw => rw [low_shiftLeft]
  case srlw => rw [low_ushiftRight]
  case sraw =>
    have hk : (y &&& 0b0011111).toNat ≤ 32 := by rw [count_word]; omega
    rw [low_signed_ushiftRight _ hk]

theorem immediate_rv64 (h : Rv64.immediateOf i = some (op, isW)) :
    ∃ t, immediate i x y = .ok t ∧ (i = .addiw ↔ isW) ∧ (if isW then sext32bit t else t) = op.value isW x y := by
  cases i <;> cases h <;> refine ⟨_, rfl, by decide, ?_⟩
  case addiw =>
    dsimp only [Rv64.Alu.value, Rv64.Alu.apply]
    rw [if_pos rfl, if_pos rfl, sext32bit_low, low_add]
  all_goals rfl

theorem immediateShift_rv64 {shamt : BitVec 32} (h : Rv64.shiftOf i = some (op, isW))
    (hk : shamt.toNat < Rv64.width isW) :
    immediateShift 64 i x shamt.toNat = .ok (some (op.value isW x (shamt.setWidth 64))) := by
  have hdefined : shamt.toNat < 64 := Nat.lt_of_lt_of_le hk (by cases isW <;> decide)
  have hfull : (shamt.setWidth 64).toNat % 64 = shamt.toNat := by
    rw [toNat_low_wide, Nat.mod_eq_of_lt hdefined]
  have hword : isW = true → (Rv64.low (shamt.setWidth 64)).toNat % 32 = shamt.toNat := by
    rintro rfl
    rw [Rv64.low, BitVec.setWidth_setWidth_of_le _ (by decide), BitVec.setWidth_eq]
    exact Nat.mod_eq_of_lt hk
  cases i <;> cases h
  all_goals simp only [immediateShift, Rv64.Alu.value, Rv64.Alu.apply, defined, hdefined, decide_true]
  case slli | srli | srai => rw [hfull]; rfl
  case slliw => rw [hword rfl, sext32bit_low, low_low, low_shiftLeft]; rfl
  case srliw => rw [hword rfl, sext32bit_low, low_ushiftRight]; rfl
  case sraiw =>
    have hk' : shamt.toNat < 32 := hk
    simp only [hk', decide_true, hword rfl]
    rfl

end

/-- **RV64I arithmetic.** In 64-bit mode, for all registers, every 12-bit
immediate and every shift amount smaller than the operands, the three
functions write the specification's value to `rd` and change nothing else. -/
theorem arithmetic_exact (c : RiscvCpu) (h64 : c.en64bit = true) (i : Instruction) (rd rs1 rs2 : BitVec 5)
    (imm12 : BitVec 12) (shamt : BitVec 32) (op : Rv64.Alu) (isW : Bool) :
    (Rv64.operationOf i = some (op, isW) →
      c.operationInstruction i rd rs1 rs2 = .ok (c.setReg rd (op.value isW (c.reg rs1) (c.reg rs2)))) ∧
    (Rv64.immediateOf i = some (op, isW) →
      c.immediateInstruction i rd rs1 (imm12.signExtend 32) =
        .ok (c.setReg rd (op.value isW (c.reg rs1) (imm12.signExtend 64)))) ∧
    (Rv64.shiftOf i = some (op, isW) → shamt.toNat < Rv64.width isW →
      c.immediateShiftInstruction i rd rs1 shamt =
        .ok (c.setReg rd (op.value isW (c.reg rs1) (shamt.setWidth 64)))) := by
  have hx : c.xlen = 64 := by rw [xlen, h64]; rfl
  refine ⟨fun h => ?_, fun h => ?_, fun h hk => ?_⟩
  · obtain ⟨t, ht, hw, hv⟩ := operation_rv64 (c.reg rs1) (c.reg rs2) h
    rw [operationInstruction, hx, ht, Except.ok_bind, ← hv, hw]
    cases isW <;> rfl
  · obtain ⟨t, ht, hw, hv⟩ := immediate_rv64 (c.reg rs1) (imm12.signExtend 64) h
    have himm : (imm12.signExtend 32).signExtend 64 = imm12.signExtend 64 :=
      Bits.signExtend_signExtend imm12 (by decide)
    rw [immediateInstruction, hx, himm, ht, Except.ok_bind, ← hv]
    simp only [show ¬ 64 = 32 by decide, false_or, hw]
    rfl
  · rw [immediateShiftInstruction, hx, immediateShift_rv64 (c.reg rs1) h hk]
    rfl

/-- A register that is no sign-extended word, in a W form of each kind. -/
theorem arithmetic_exact_words :
    (operands 0x180000000 0x24).operationInstruction .sraw a0 x1 x2 =
      .ok ((operands 0x180000000 0x24).setReg a0 0xFFFFFFFFF8000000) ∧
    (operands 0x17FFFFFFF 0).immediateInstruction .addiw a0 x1 1 =
      .ok ((operands 0x17FFFFFFF 0).setReg a0 0xFFFFFFFF80000000) ∧
    (operands 0x180000000 0).immediateShiftInstruction .srliw a0 x1 31 =
      .ok ((operands 0x180000000 0).setReg a0 1) :=
  ⟨(arithmetic_exact (operands 0x180000000 0x24) rfl .sraw a0 x1 x2 0 0 .sra true).1 rfl,
    (arithmetic_exact (operands 0x17FFFFFFF 0) rfl .addiw a0 x1 x2 1 0 .add true).2.1 rfl,
    (arithmetic_exact (operands 0x180000000 0) rfl .srliw a0 x1 x2 0 31 .srl true).2.2 rfl (by decide)⟩

end RiscvCpu

end RiscvEmulator
