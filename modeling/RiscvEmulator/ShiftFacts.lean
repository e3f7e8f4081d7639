/-
Shift amounts.

The decoders take six bits for the amount of every shift by an immediate.
`shift_amount` says which bits they are, and `shift_in_range_iff` when the
amount is smaller than the operand: in 64-bit mode always but for the W
forms, and elsewhere when the highest of the six bits is clear. No decoder
looks at that bit, and `CheckShiftSign` reports it when it is too late.
-/
import RiscvEmulator.CompressedFacts
import RiscvEmulator.Rv64I

namespace RiscvEmulator

/-! ## The bits of an amount -/

/-- The highest of the six bits of the amount, in a word or a parcel. -/
def shamtHigh (ir : BitVec 32) : Bool := if ir &&& 0b11 = 0b11 then ir.getLsbD 25 else ir.getLsbD 12

/-- Six bits whose highest one is `high`. -/
def IsAmount (high : Bool) (imm : BitVec 32) : Prop := ∃ low < 32, imm.toNat = low + 32 * high.toNat

theorem IsAmount.lt_iff {high : Bool} {imm : BitVec 32} (h : IsAmount high imm) : imm.toNat < 32 ↔ high = false := by
  obtain ⟨low, hlow, himm⟩ := h
  cases high
  · exact iff_of_true (by rw [himm, Bool.toNat_false]; omega) rfl
  · exact iff_of_false (by rw [himm, Bool.toNat_true]; omega) (by decide)

theorem IsAmount.lt {high : Bool} {imm : BitVec 32} (h : IsAmount high imm) : imm.toNat < 64 := by
  obtain ⟨low, hlow, himm⟩ := h
  have := Bool.toNat_le high
  omega

section

variable {ir : BitVec 32} {mxl : Nat} {r : Rv64.Alu × Bool}

theorem toNat_bit (ir : BitVec 32) (o : Nat) : ir.toNat / 2 ^ o % 2 = (ir.getLsbD o).toNat := by
  rw [← BitVec.testBit_toNat, Nat.testBit_eq_decide_div_mod_eq]
  rcases Nat.mod_two_eq_zero_or_one (ir.toNat / 2 ^ o) with h | h <;> rw [h] <;> rfl

/-! ## Words -/

theorem code32_shift {opcode funct7 : BitVec 7} {funct3 : BitVec 3}
    (h : Rv64.shiftOf (code32 opcode funct3 funct7) = some r) :
    (opcode = opcodeArithlogI ∨ opcode = opcodeArithlogI64) ∧ (funct3 = func3Sl ∨ funct3 = func3Sr) := by
  simp only [code32, codeArithlog, codeArithlog64, codeArithlogI, codeArithlogI64, codeBranch, codeLoad, codeStore,
    codeSystem, codeAmo, apply_ite Rv64.shiftOf] at h
  simp only [Rv64.shiftOf, ite_self] at h
  grind

/-- `GetImm` keeps the low six bits of the immediate of a shift. -/
theorem getImm_shift (h : Rv64.shiftOf (getCode32 ir) = some r) : IsAmount (ir.getLsbD 25) (getImm ir) := by
  rw [getCode32_eq] at h
  obtain ⟨hopcode, hfunct3⟩ := code32_shift h
  have himm : getImm ir = getImm12 ir &&& 0b111111 := by
    simp only [getImm]
    rw [if_pos hopcode, if_pos hfunct3]
  have hmask : (getImm12 ir &&& 0b111111).toNat = (getImm12 ir).toNat % 2 ^ 6 := Bits.toNat_and_ones _ 6
  have hlow : (getImm12 ir).toNat % 2 ^ 12 = ir.toNat / 2 ^ 20 % 2 ^ 12 := by
    rw [getImm12_eq, ← BitVec.toNat_setWidth, Bits.setWidth_signExtend _ (by decide), BitVec.extractLsb'_toNat,
      Nat.shiftRight_eq_div_pow]
  refine ⟨ir.toNat / 2 ^ 20 % 32, Nat.mod_lt _ (by decide), ?_⟩
  rw [himm, hmask, ← toNat_bit]
  omega

/-! ## Parcels -/

theorem imm6_amount (ir : BitVec 32) : IsAmount (ir.getLsbD 12) (imm6 ir) := by
  have hb := toNat_bitcrop ir (w := 1) (o := 12) (by decide) (by decide)
  have hl := toNat_bitcrop ir (w := 5) (o := 2) (by decide) (by decide)
  refine ⟨ir.toNat / 2 ^ 2 % 2 ^ 5, Nat.mod_lt _ (by decide), ?_⟩
  rw [imm6, Bits.toNat_shiftLeft_or _ _ (by omega) (by omega), hb, hl, Nat.pow_one, toNat_bit]
  omega

/-- Quadrant 1, `funct3` 100, adds the two parts. -/
theorem imm6_add (ir : BitVec 32) : (bitcrop ir 1 12 <<< 5) + bitcrop ir 5 2 = imm6 ir := by
  rw [imm6, BitVec.add_eq_or_of_and_eq_zero]
  apply BitVec.eq_of_getLsbD_eq
  intro i hi
  rw [BitVec.getLsbD_and, BitVec.getLsbD_shiftLeft, getLsbD_bitcrop _ (by decide) (by decide),
    getLsbD_bitcrop _ (by decide) (by decide)]
  by_cases h : i < 5 <;> simp [h]

/-- A decoded shift has its amount in those bits. -/
def TakesImm6 (ir : BitVec 32) (d : Decoded) : Prop := Rv64.shiftOf d.instruction = none ∨ d.imm = imm6 ir

theorem getCode16_shift (ir : BitVec 32) (mxl : Nat) : TakesImm6 ir (getCode16 ir mxl) := by
  unfold getCode16 code16Lui code16Jump code16Arith
  dsimp only
  repeat' split
  all_goals first | exact .inl rfl | exact .inr rfl | exact .inr (imm6_add ir)

/-- The amount of a shift that either decoder gives. -/
theorem shift_amount (h : Rv64.shiftOf (decode ir mxl).instruction = some r) :
    IsAmount (shamtHigh ir) (decode ir mxl).imm := by
  unfold decode at h ⊢
  unfold shamtHigh
  by_cases hlow : ir &&& 0b11 = 0b11
  · rw [if_neg (not_not.mpr hlow)] at h ⊢
    rw [if_pos hlow]
    exact getImm_shift h
  · rw [if_pos hlow] at h ⊢
    rw [if_neg hlow]
    rcases getCode16_shift ir mxl with hn | himm
    · rw [hn] at h; cases h
    · rw [himm]
      exact imm6_amount ir

end

namespace RiscvCpu

/-! ## The shift -/

/-- What `CheckShiftSign` returns, and `ImmediateShiftInstruction` ignores. The
number of every instruction fits the byte it is passed in. -/
def checkShiftSign (c : RiscvCpu) (shamt : BitVec 8) (instruction : Instruction) : Bool :=
  if c.xlen = 32 ∨ instruction = .slliw ∨ instruction = .sraiw ∨ instruction = .srliw then shamt >>> 5 ≠ 0
  else false

/-- The width of the operand of a shift, which may be a W form. -/
def operandWidth (c : RiscvCpu) (isW : Bool) : Nat := if c.xlen = 32 then 32 else Rv64.width isW

/-- The shift in `ir_`: its amount is smaller than the operand, the host shifts
by less than the width it shifts in, and `CheckShiftSign` reports nothing. -/
structure ShiftInRange (c : RiscvCpu) (host : Host) (isW : Bool) : Prop where
  amount : (decode c.ir c.mxl).imm.toNat < c.operandWidth isW
  executed : ∃ c', c.executeStage host = .ok c'
  unreported : c.checkShiftSign ((decode c.ir c.mxl).imm.setWidth 8) (decode c.ir c.mxl).instruction = false

variable {c : RiscvCpu} {i : Instruction} {op : Rv64.Alu} {isW : Bool}

theorem execute_shift {d : Decoded} (host : Host) (csr : BitVec 12) (h : Rv64.shiftOf d.instruction = some (op, isW)) :
    c.execute host d csr = c.immediateShiftInstruction d.instruction d.rd d.rs1 d.imm := by
  unfold execute
  generalize d.instruction = i at h ⊢
  cases i <;> cases h <;> rfl

theorem immediateShift_returns (h : Rv64.shiftOf i = some (op, isW)) (xlen : Nat) (x : BitVec 64) {shamt : Nat}
    (h64 : shamt < 64) (hw : isW = true → shamt < 32) : ∃ v, immediateShift xlen i x shamt = .ok (some v) := by
  cases i <;> cases h
  case sraiw => exact ⟨_, by simp only [immediateShift, defined, hw rfl, decide_true]; rfl⟩
  all_goals exact ⟨_, by simp only [immediateShift, defined, h64, decide_true]; rfl⟩

theorem checkShiftSign_iff (h : Rv64.shiftOf i = some (op, isW)) {shamt : BitVec 32} (hlt : shamt.toNat < 64) :
    c.checkShiftSign (shamt.setWidth 8) i = false ↔ shamt.toNat < c.operandWidth isW := by
  have hsmall : (shamt.setWidth 8) >>> 5 = 0#8 ↔ shamt.toNat < 32 := by
    rw [← BitVec.toNat_inj, BitVec.toNat_ushiftRight, BitVec.toNat_setWidth, Nat.shiftRight_eq_div_pow]
    show shamt.toNat % 2 ^ 8 / 2 ^ 5 = 0 ↔ _
    omega
  unfold checkShiftSign operandWidth
  by_cases hx : c.xlen = 32
  · rw [if_pos (.inl hx), if_pos hx, ← hsmall]
    simp
  · rw [if_neg hx]
    cases i <;> cases h <;> simp [hx, Rv64.width, hsmall, hlt]

/-- **Shift amounts.** In both modes and for every word or parcel that is
decoded to a shift by an immediate, the amount is in range, the shift is
defined and nothing is reported, unless the highest bit of the amount is set
in 32-bit mode or in a W form. -/
theorem shift_in_range_iff (c : RiscvCpu) (host : Host) (op : Rv64.Alu) (isW : Bool)
    (h : Rv64.shiftOf (decode c.ir c.mxl).instruction = some (op, isW)) :
    c.ShiftInRange host isW ↔ (c.mxl = 2 ∧ isW = false) ∨ shamtHigh c.ir = false := by
  have hamount := shift_amount h
  have hwidth : (decode c.ir c.mxl).imm.toNat < c.operandWidth isW ↔
      (c.mxl = 2 ∧ isW = false) ∨ shamtHigh c.ir = false := by
    have h64 := hamount.lt
    rw [← hamount.lt_iff]
    generalize (decode c.ir c.mxl).imm.toNat = n at h64 ⊢
    unfold operandWidth xlen mxl
    cases c.en64bit <;> cases isW <;> simp [Rv64.width, h64]
  rw [← hwidth]
  constructor
  · exact ShiftInRange.amount
  · intro hlt
    refine ⟨hlt, ?_, (checkShiftSign_iff h hamount.lt).mpr hlt⟩
    have hw : isW = true → (decode c.ir c.mxl).imm.toNat < 32 := by
      rintro rfl
      refine Nat.lt_of_lt_of_le hlt ?_
      unfold operandWidth
      split <;> decide
    obtain ⟨v, hv⟩ := immediateShift_returns h c.decodeStage.xlen
      (c.decodeStage.reg (decode c.ir c.mxl).rs1) hamount.lt hw
    rw [executeStage, execute_shift host _ h, immediateShiftInstruction, hv]
    exact ⟨_, rfl⟩

/-- A processor with an instruction fetched. -/
def holding (en64bit : Bool) (ir : BitVec 32) : RiscvCpu := { new en64bit 0 with ir }

/-- `slli x1, x1, 63` in 64-bit mode. -/
theorem shift_in_range_slli : (holding true 0x03F09093).ShiftInRange .failing false :=
  (shift_in_range_iff (holding true 0x03F09093) .failing .sll false (by decide)).mpr (.inl ⟨rfl, rfl⟩)

/-- `sraiw x1, x1, 32` is decoded, shifts a 32-bit value by 32, and would be
reported after that. `c.slli x1, 32` in 32-bit mode is reported. -/
theorem shift_out_of_range :
    (decode 0x4200D09B 2 = { instruction := .sraiw, rd := x1, rs1 := x1, rs2 := 0, imm := 32 } ∧
      (holding true 0x4200D09B).executeStage .failing = .error .undefinedBehaviour ∧
      (holding true 0x4200D09B).checkShiftSign 32 .sraiw = true ∧
      ¬ (holding true 0x4200D09B).ShiftInRange .failing true) ∧
    decode 0x1082 1 = { instruction := .slli, rd := x1, rs1 := x1, imm := 32 } ∧
      (holding false 0x1082).checkShiftSign 32 .slli = true ∧ ¬ (holding false 0x1082).ShiftInRange .failing false := by
  refine ⟨⟨by decide, rfl, rfl, fun h => ?_⟩, by decide, rfl, fun h => ?_⟩
  · exact absurd h.amount (by decide)
  · exact absurd h.amount (by decide)

end RiscvCpu

end RiscvEmulator
