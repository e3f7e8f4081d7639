/-
`GetCode16` gives a parcel the fields that the decoder of 32-bit words gives
to its expansion, up to those the instruction does not look at
(`getCode16_expand`, `execute_used`).
-/
import RiscvEmulator.AssemblerFacts
import RiscvEmulator.Compressed
import RiscvEmulator.StepFacts

namespace RiscvEmulator

/-! ## Fields of a parcel -/

section

variable (p : BitVec 16)

theorem bitcrop_parcel {w o : Nat} (hw : w ≤ 32) :
    bitcrop (p.setWidth 32) w o = (p.extractLsb' o w).setWidth 32 := by
  apply BitVec.eq_of_getLsbD_eq
  intro i hi
  rw [getLsbD_bitcrop _ (by omega) (by decide), BitVec.getLsbD_setWidth, BitVec.getLsbD_setWidth,
    BitVec.getLsbD_extractLsb']
  grind

theorem bitcrop_eight (o : Nat) : bitcrop (p.setWidth 32) 8 o = 0 ↔ p.extractLsb' o 8 = 0 := by
  have h : ∀ x : BitVec 8, x.setWidth 32 = 0 ↔ x = 0 := by decide
  rw [bitcrop_parcel p (by decide), h]

theorem bitcrop_full (o : Nat) : bitcrop (p.setWidth 32) 5 o = 0 ↔ Rvc.full p o = 0 := by
  have h : ∀ x : BitVec 5, x.setWidth 32 = 0 ↔ x = 0 := by decide
  rw [bitcrop_parcel p (by decide), h, Rvc.full]

theorem bitcrop_bit (o : Nat) : bitcrop (p.setWidth 32) 1 o = 1 ↔ ¬ Rvc.bit p o = 0 := by
  have h : ∀ x : BitVec 1, x.setWidth 32 = 1 ↔ ¬ x = 0 := by decide
  rw [bitcrop_parcel p (by decide), h, Rvc.bit]

theorem fullReg_parcel (o : Nat) : fullReg (p.setWidth 32) o = Rvc.full p o := by
  rw [fullReg, bitcrop_parcel p (by decide), Rvc.full, BitVec.setWidth_setWidth_of_le _ (by decide),
    BitVec.setWidth_eq]

theorem windowReg_parcel (o : Nat) : windowReg (p.setWidth 32) o = Rvc.window p o := by
  have h : ∀ x : BitVec 3, (x.setWidth 32 + 8).setWidth 5 = 0b01#2 ++ x := by decide
  rw [windowReg, bitcrop_parcel p (by decide), h, Rvc.window]

theorem opcode_parcel :
    ((((p.setWidth 32 >>> 13) &&& 0b111) <<< 2) ||| (p.setWidth 32 &&& 0b11)).setWidth 5 = Rvc.opcode p := by
  apply BitVec.eq_of_getLsbD_eq
  intro i hi
  have h7 : (0b111 : BitVec 32) = Bits.ones 32 3 := by decide
  have h3 : (0b11 : BitVec 32) = Bits.ones 32 2 := by decide
  rw [h7, h3]
  simp only [Rvc.opcode, BitVec.getLsbD_setWidth, BitVec.getLsbD_or, BitVec.getLsbD_shiftLeft, Bits.getLsbD_and_ones,
    BitVec.getLsbD_ushiftRight, BitVec.getLsbD_append, BitVec.getLsbD_extractLsb']
  grind

/-! ### Immediates -/

theorem imm6_parcel : imm6 (p.setWidth 32) = (Rvc.imm6 p).setWidth 32 := by
  apply BitVec.eq_of_getLsbD_eq
  intro i hi
  simp (disch := decide) only [imm6, Rvc.imm6, Rvc.bit, bitcrop_parcel, BitVec.getLsbD_or, BitVec.getLsbD_shiftLeft,
    BitVec.getLsbD_setWidth, BitVec.getLsbD_append]
  grind

theorem signExtend_imm6 :
    signExtend ((Rvc.imm6 p).setWidth 32) 6 = ((Rvc.imm6 p).signExtend 12).signExtend 32 := by
  simp (disch := decide) only [signExtend_eq_signExtend, BitVec.setWidth_setWidth_of_le, BitVec.setWidth_eq,
    Bits.signExtend_signExtend]

/-- Quadrant 1, `funct3` 100, adds the two parts. -/
theorem imm6_parcel_add :
    (bitcrop (p.setWidth 32) 1 12 <<< 5) + bitcrop (p.setWidth 32) 5 2 = (Rvc.imm6 p).setWidth 32 := by
  rw [BitVec.add_eq_or_of_and_eq_zero]
  · exact imm6_parcel p
  · apply BitVec.eq_of_getLsbD_eq
    intro i hi
    simp (disch := decide) only [bitcrop_parcel, BitVec.getLsbD_and, BitVec.getLsbD_shiftLeft,
      BitVec.getLsbD_setWidth, BitVec.getLsbD_extractLsb', BitVec.getLsbD_zero]
    grind

/-- A bit of a field of the parcel that has been put at `t`. -/
theorem getLsbD_placed {w o t i : Nat} (hw : w ≤ 32) : (bitcrop (p.setWidth 32) w o <<< t).getLsbD i =
    (decide (i < 32) && decide (t ≤ i) && decide (i < t + w) && p.getLsbD (o + (i - t))) := by
  rw [bitcrop_parcel p hw, BitVec.getLsbD_shiftLeft, BitVec.getLsbD_setWidth, BitVec.getLsbD_extractLsb']
  grind

/-- An immediate without a sign. -/
theorem unsigned_parcel {x : BitVec 32} {imm : BitVec 12}
    (h : ∀ i < 32, x.getLsbD i = imm.getLsbD i ∧ (i = 11 → imm.getLsbD i = false)) : x = imm.signExtend 32 := by
  apply BitVec.eq_of_getLsbD_eq
  intro i hi
  rw [(h i hi).1, BitVec.getLsbD_signExtend, BitVec.msb_eq_getLsbD_last, (h 11 (by decide)).2 rfl]
  grind

/-- One with a sign. -/
theorem signed_parcel {x : BitVec 32} {w : Nat} {imm : BitVec w} (h0 : 0 < w) (hw : w ≤ 32)
    (h : ∀ i < w, x.getLsbD i = imm.getLsbD i) : signExtend x w = imm.signExtend 32 := by
  have hx : x.setWidth w = imm := by
    apply BitVec.eq_of_getLsbD_eq
    intro i hi
    rw [BitVec.getLsbD_setWidth, h i hi]
    simp [hi]
  rw [signExtend_eq_signExtend _ h0 hw (by decide), hx]

section

-- the fields the decoder puts together and the slices of an immediate, as bits of the parcel
attribute [local grind =] getLsbD_placed Rvc.bit BitVec.getLsbD_or BitVec.getLsbD_append BitVec.getLsbD_extractLsb'
  BitVec.getLsbD_zero

theorem addi4spnImm_parcel :
    (bitcrop (p.setWidth 32) 2 11 <<< 4) ||| (bitcrop (p.setWidth 32) 4 7 <<< 6) |||
      (bitcrop (p.setWidth 32) 1 6 <<< 2) ||| (bitcrop (p.setWidth 32) 1 5 <<< 3) =
      (Rvc.addi4spnImm p).signExtend 32 := by
  refine unsigned_parcel fun i hi => ?_
  grind [Rvc.addi4spnImm]

theorem wordImm_parcel :
    (bitcrop (p.setWidth 32) 3 10 <<< 3) ||| (bitcrop (p.setWidth 32) 1 6 <<< 2) |||
      (bitcrop (p.setWidth 32) 1 5 <<< 6) =
      (Rvc.wordImm p).signExtend 32 := by
  refine unsigned_parcel fun i hi => ?_
  grind [Rvc.wordImm]

theorem doubleImm_parcel :
    (bitcrop (p.setWidth 32) 3 10 <<< 3) ||| (bitcrop (p.setWidth 32) 2 5 <<< 6) =
      (Rvc.doubleImm p).signExtend 32 := by
  refine unsigned_parcel fun i hi => ?_
  grind [Rvc.doubleImm]

theorem lwspImm_parcel :
    (bitcrop (p.setWidth 32) 1 12 <<< 5) ||| (bitcrop (p.setWidth 32) 3 4 <<< 2) |||
      (bitcrop (p.setWidth 32) 2 2 <<< 6) =
      (Rvc.lwspImm p).signExtend 32 := by
  refine unsigned_parcel fun i hi => ?_
  grind [Rvc.lwspImm]

theorem ldspImm_parcel :
    (bitcrop (p.setWidth 32) 1 12 <<< 5) ||| (bitcrop (p.setWidth 32) 2 5 <<< 3) |||
      (bitcrop (p.setWidth 32) 3 2 <<< 6) =
      (Rvc.ldspImm p).signExtend 32 := by
  refine unsigned_parcel fun i hi => ?_
  grind [Rvc.ldspImm]

theorem swspImm_parcel :
    (bitcrop (p.setWidth 32) 4 9 <<< 2) ||| (bitcrop (p.setWidth 32) 2 7 <<< 6) =
      (Rvc.swspImm p).signExtend 32 := by
  refine unsigned_parcel fun i hi => ?_
  grind [Rvc.swspImm]

theorem sdspImm_parcel :
    (bitcrop (p.setWidth 32) 3 10 <<< 3) ||| (bitcrop (p.setWidth 32) 3 7 <<< 6) =
      (Rvc.sdspImm p).signExtend 32 := by
  refine unsigned_parcel fun i hi => ?_
  grind [Rvc.sdspImm]

theorem addi16spImm_parcel :
    signExtend ((bitcrop (p.setWidth 32) 1 12 <<< 9) ||| (bitcrop (p.setWidth 32) 1 6 <<< 4) |||
      (bitcrop (p.setWidth 32) 1 5 <<< 6) ||| (bitcrop (p.setWidth 32) 2 3 <<< 7) |||
      (bitcrop (p.setWidth 32) 1 2 <<< 5)) 10 = (Rvc.addi16spImm p).signExtend 32 := by
  refine signed_parcel (by decide) (by decide) fun i hi => ?_
  rcases Nat.lt_or_ge i 6 with hlow | hhigh <;> grind [Rvc.addi16spImm]

theorem branchImm_parcel :
    signExtend ((bitcrop (p.setWidth 32) 1 12 <<< 8) ||| (bitcrop (p.setWidth 32) 2 10 <<< 3) |||
      (bitcrop (p.setWidth 32) 2 5 <<< 6) ||| (bitcrop (p.setWidth 32) 2 3 <<< 1) |||
      (bitcrop (p.setWidth 32) 1 2 <<< 5)) 9 = (Rvc.branchImm p).signExtend 32 := by
  refine signed_parcel (by decide) (by decide) fun i hi => ?_
  rcases Nat.lt_or_ge i 6 with hlow | hhigh <;> grind [Rvc.branchImm]

theorem jumpImm_parcel :
    jumpImm16 (p.setWidth 32) = (Rvc.jumpImm p).signExtend 32 := by
  refine signed_parcel (by decide) (by decide) fun i hi => ?_
  -- its eight fields are too many to be told apart one `|||` after another
  simp (disch := decide) only [getLsbD_placed, BitVec.getLsbD_or, Rvc.jumpImm, BitVec.getLsbD_append]
  grind

/-- The immediate of `c.lui` has its twelve zeros already. -/
theorem luiImm_parcel :
    signExtend ((bitcrop (p.setWidth 32) 1 12 <<< 17) ||| (bitcrop (p.setWidth 32) 5 2 <<< 12)) 18 =
      (Rvc.imm6 p).signExtend 32 <<< 12 := by
  have himm : signExtend ((bitcrop (p.setWidth 32) 1 12 <<< 17) ||| (bitcrop (p.setWidth 32) 5 2 <<< 12)) 18 =
      (Rvc.imm6 p ++ 0#12).signExtend 32 := by
    refine signed_parcel (by decide) (by decide) fun i hi => ?_
    rcases Nat.lt_or_ge i 6 with hlow | hhigh <;> grind [Rvc.imm6]
  rw [himm]
  apply BitVec.eq_of_getLsbD_eq
  intro i hi
  simp only [BitVec.getLsbD_shiftLeft, BitVec.getLsbD_signExtend, BitVec.msb_eq_getLsbD_last]
  grind

end

end

/-! ## What an instruction looks at -/

/-- Which of the fields. -/
inductive Operands where
  /-- `rd`, `rs1` and `rs2`. -/
  | r
  /-- `rd`, `rs1` and the immediate. -/
  | i
  /-- `rs1`, `rs2` and the immediate. -/
  | s
  /-- `rd` and the immediate. -/
  | u

def operands : Instruction → Operands
  | .addi | .addiw | .andi | .ori | .xori | .slli | .slliw | .srli | .srliw | .srai | .sraiw | .slti | .sltiu
  | .jalr | .lb | .lbu | .lh | .lhu | .lw | .lwu | .ld
  | .csrrc | .csrrci | .csrrs | .csrrsi | .csrrw | .csrrwi => .i
  | .beq | .bge | .bgeu | .blt | .bltu | .bne | .sb | .sh | .sw | .sd => .s
  | .jal | .lui | .auipc | .system | .fence | .fencei | .error => .u
  | _ => .r

/-- The fields with those the instruction does not look at cleared. -/
def Decoded.used (d : Decoded) : Decoded :=
  match operands d.instruction with
  | .r => { d with imm := 0 }
  | .i => { d with rs2 := 0 }
  | .s => { d with rd := 0 }
  | .u => { d with rs1 := 0, rs2 := 0 }

theorem used_instruction (d : Decoded) : d.used.instruction = d.instruction := by
  unfold Decoded.used
  split <;> rfl

theorem used_imm_of_system {d : Decoded} (h : d.instruction = .system) : d.used.imm = d.imm := by
  rw [Decoded.used, h]
  rfl

theorem RiscvCpu.execute_used (c : RiscvCpu) (host : Host) (d : Decoded) (csr : BitVec 12) :
    c.execute host d.used csr = c.execute host d csr := by
  obtain ⟨instruction, rd, rs1, rs2, imm⟩ := d
  cases instruction <;> rfl

/-- The number of a control and status register is looked at by the
instructions for these. -/
theorem RiscvCpu.execute_csr (c : RiscvCpu) (host : Host) (d : Decoded) (csr csr' : BitVec 12)
    (h : isCsrs d.instruction = false) : c.execute host d csr = c.execute host d csr' := by
  obtain ⟨instruction, rd, rs1, rs2, imm⟩ := d
  cases instruction <;> first | rfl | cases h

/-! ## Decoding the words of the base formats -/

theorem low_eq_three (ir : BitVec 32) : ir &&& 0b11 = 0b11 ↔ ir.extractLsb' 0 2 = 0b11 := by
  have h32 : (0b11 : BitVec 32) = Bits.ones 32 2 := by decide
  have hlow : ir &&& 0b11 = (ir.extractLsb' 0 2).setWidth 32 := by
    rw [h32]
    apply BitVec.eq_of_getLsbD_eq
    intro i hi
    simp only [BitVec.getLsbD_setWidth, Bits.getLsbD_and_ones, BitVec.getLsbD_extractLsb']
    grind
  have h : ∀ x : BitVec 2, x.setWidth 32 = 0b11 ↔ x = 0b11 := by decide
  rw [hlow, h]

theorem low_of_opcode {ir : BitVec 32} (h : (getOpcode ir).extractLsb' 0 2 = 0b11) : ir &&& 0b11 = 0b11 := by
  rw [low_eq_three, ← h, getOpcode_eq]
  apply BitVec.eq_of_getLsbD_eq
  intro i hi
  simp only [BitVec.getLsbD_extractLsb']
  grind

theorem decode_of_opcode {ir : BitVec 32} (mxl : Nat) (h : (getOpcode ir).extractLsb' 0 2 = 0b11) :
    decode ir mxl =
      { instruction := getCode32 ir, rd := getRd ir, rs1 := getRs1 ir, rs2 := getRs2 ir, imm := getImm ir } := by
  rw [decode, if_neg (not_not.mpr (low_of_opcode h))]

section

variable {i : Instruction} (mxl : Nat)

theorem used_rWord {opcode funct7 : BitVec 7} {funct3 : BitVec 3} (rd rs1 rs2 : BitVec 5)
    (hop : opcode.extractLsb' 0 2 = 0b11) (hi : code32 opcode funct3 funct7 = i) (hu : operands i = .r) :
    (decode (Rvc.rWord opcode funct7 funct3 rd rs1 rs2) mxl).used = { instruction := i, rd, rs1, rs2 } := by
  rw [Rvc.rWord, decode_of_opcode mxl (by simpa only [RType.fields] using hop)]
  simp only [getCode32_eq, RType.fields, hi, Decoded.used, hu]

theorem used_iWord {opcode : BitVec 7} {funct3 : BitVec 3} (rd rs1 : BitVec 5) (imm12 : BitVec 12)
    (hop : opcode.extractLsb' 0 2 = 0b11) (himm : plainImm opcode funct3 = true)
    (hi : ∀ funct7, code32 opcode funct3 funct7 = i) (hu : operands i = .i) :
    (decode (Rvc.iWord opcode funct3 rd rs1 imm12) mxl).used =
      { instruction := i, rd, rs1, imm := imm12.signExtend 32 } := by
  rw [Rvc.iWord, decode_of_opcode mxl (by simpa only [IType.fields] using hop),
    getImm_plain (by simpa only [IType.fields] using himm)]
  simp only [getCode32_eq, IType.fields, hi, Decoded.used, hu]

theorem used_shift {funct3 : BitVec 3} (top : BitVec 6) (rd rs1 : BitVec 5) (shamt : BitVec 6)
    (h3 : funct3 = func3Sl ∨ funct3 = func3Sr) (hi : ∀ b : BitVec 1, code32 opcodeArithlogI funct3 (top ++ b) = i)
    (hu : operands i = .i) :
    (decode (Rvc.shift funct3 top rd rs1 shamt) mxl).used =
      { instruction := i, rd, rs1, imm := shamt.setWidth 32 } := by
  rw [Rvc.shift, Rvc.iWord, decode_of_opcode mxl (by simp only [IType.fields]; decide)]
  simp only [getCode32_eq, getImm, IType.fields, shift_funct7, hi, Decoded.used, hu, true_or, if_true, if_pos h3,
    shift_mask]

theorem used_sWord {funct3 : BitVec 3} (rs1 rs2 : BitVec 5) (imm12 : BitVec 12) (hi : codeStore funct3 = i)
    (hu : operands i = .s) :
    (decode (Rvc.sWord funct3 rs1 rs2 imm12) mxl).used =
      { instruction := i, rs1, rs2, imm := imm12.signExtend 32 } := by
  have hcode : ∀ f7, code32 opcodeS funct3 f7 = codeStore funct3 := fun _ => rfl
  rw [Rvc.sWord, decode_of_opcode mxl (by simp only [SType.fields]; decide),
    getImm_store (by simp only [SType.fields])]
  simp only [getCode32_eq, SType.fields, hcode, hi, Decoded.used, hu]

/-- For an even offset of fewer bits than the format has. -/
theorem used_bWord {funct3 : BitVec 3} (rs1 rs2 : BitVec 5) (imm9 : BitVec 9) (heven : imm9.getLsbD 0 = false)
    (hi : codeBranch funct3 = i) (hu : operands i = .s) :
    (decode (Rvc.bWord funct3 rs1 rs2 (imm9.signExtend 13)) mxl).used =
      { instruction := i, rs1, rs2, imm := imm9.signExtend 32 } := by
  have hcode : ∀ f7, code32 opcodeB funct3 f7 = codeBranch funct3 := fun _ => rfl
  have himm : ((imm9.signExtend 13).extractLsb' 1 12 ++ 0#1).signExtend 32 = imm9.signExtend 32 := by
    apply BitVec.eq_of_getLsbD_eq
    intro i hi
    simp only [BitVec.getLsbD_signExtend, BitVec.getLsbD_append, BitVec.getLsbD_extractLsb', BitVec.getLsbD_zero,
      BitVec.msb_eq_getLsbD_last]
    grind
  rw [Rvc.bWord, decode_of_opcode mxl (by simp only [BType.fields]; decide),
    getImm_branch (by simp only [BType.fields])]
  simp only [getCode32_eq, BType.fields, hcode, hi, Decoded.used, hu, himm]

theorem used_jalWord (rd : BitVec 5) (imm12 : BitVec 12) (heven : imm12.getLsbD 0 = false) :
    (decode (Rvc.jalWord rd (imm12.signExtend 21)) mxl).used =
      { instruction := .jal, rd, imm := imm12.signExtend 32 } := by
  have hcode : ∀ f3 f7, code32 opcodeJ f3 f7 = .jal := fun _ _ => rfl
  have himm : ((imm12.signExtend 21).extractLsb' 1 20 ++ 0#1).signExtend 32 = imm12.signExtend 32 := by
    apply BitVec.eq_of_getLsbD_eq
    intro i hi
    simp only [BitVec.getLsbD_signExtend, BitVec.getLsbD_append, BitVec.getLsbD_extractLsb', BitVec.getLsbD_zero,
      BitVec.msb_eq_getLsbD_last]
    grind
  rw [Rvc.jalWord, decode_of_opcode mxl (by simp only [JType.fields]; decide),
    getImm_jump (by simp only [JType.fields])]
  simp only [getCode32_eq, JType.fields, hcode, Decoded.used, operands, himm]

theorem used_luiWord (rd : BitVec 5) (imm6 : BitVec 6) :
    (decode (Rvc.luiWord rd (imm6.signExtend 20)) mxl).used =
      { instruction := .lui, rd, imm := imm6.signExtend 32 <<< 12 } := by
  have hcode : ∀ f3 f7, code32 opcodeLui f3 f7 = .lui := fun _ _ => rfl
  have himm : (((imm6.signExtend 20).setWidth 24).extractLsb' 0 20).signExtend 32 <<< 12 =
      imm6.signExtend 32 <<< 12 := by
    apply BitVec.eq_of_getLsbD_eq
    intro i hi
    simp only [BitVec.getLsbD_shiftLeft, BitVec.getLsbD_signExtend, BitVec.getLsbD_extractLsb',
      BitVec.getLsbD_setWidth, BitVec.msb_eq_getLsbD_last]
    grind
  rw [Rvc.luiWord, decode_of_opcode mxl (by simp only [UType.fields]; decide),
    getImm_upper (by simp only [UType.fields, true_or])]
  simp only [getCode32_eq, UType.fields, hcode, Decoded.used, operands, himm]

end

/-! ## Decoding a parcel -/

section

variable {mxl : Nat} {p : BitVec 16} {w : BitVec 32}

theorem branchImm_even (p : BitVec 16) : (Rvc.branchImm p).getLsbD 0 = false := by
  simp only [Rvc.branchImm, BitVec.getLsbD_append]
  rfl

theorem jumpImm_even (p : BitVec 16) : (Rvc.jumpImm p).getLsbD 0 = false := by
  simp only [Rvc.jumpImm, BitVec.getLsbD_append]
  rfl

theorem slice_slice {w : Nat} (p : BitVec w) {o n i k : Nat} (h : i + k ≤ n) :
    (p.extractLsb' o n).extractLsb' i k = p.extractLsb' (o + i) k := by
  apply BitVec.eq_of_getLsbD_eq
  intro j hj
  simp only [BitVec.getLsbD_extractLsb']
  grind

/-- The bits of `c.addi16sp` are those of the six-bit field. -/
theorem addi16spImm_eq_zero : (Rvc.addi16spImm p).signExtend 32 = 0 ↔ Rvc.imm6 p = 0 := by
  have heq : Rvc.addi16spImm p = (Rvc.imm6 p).extractLsb' 5 1 ++ (Rvc.imm6 p).extractLsb' 1 2 ++
      (Rvc.imm6 p).extractLsb' 3 1 ++ (Rvc.imm6 p).extractLsb' 0 1 ++ (Rvc.imm6 p).extractLsb' 4 1 ++ 0#4 := by
    apply BitVec.eq_of_getLsbD_eq
    intro i hi
    simp only [Rvc.addi16spImm, Rvc.imm6, Rvc.bit, BitVec.getLsbD_append, BitVec.getLsbD_extractLsb',
      BitVec.getLsbD_zero]
    grind
  have h : ∀ x : BitVec 6, (x.extractLsb' 5 1 ++ x.extractLsb' 1 2 ++ x.extractLsb' 3 1 ++ x.extractLsb' 0 1 ++
      x.extractLsb' 4 1 ++ 0#4).signExtend 32 = 0 ↔ x = 0 := by decide
  rw [heq]
  exact h _

theorem luiImm_eq_zero : (Rvc.imm6 p).signExtend 32 <<< 12 = 0 ↔ Rvc.imm6 p = 0 := by
  have h : ∀ x : BitVec 6, x.signExtend 32 <<< 12 = 0 ↔ x = 0 := by decide
  exact h _

theorem code16Lui_expand (h : Rvc.expandLui p = some w) : code16Lui (p.setWidth 32) = (decode w mxl).used := by
  simp only [code16Lui, fullReg_parcel, luiImm_parcel, addi16spImm_parcel, luiImm_eq_zero, addi16spImm_eq_zero]
  simp only [Rvc.expandLui, Option.ite_none_left_eq_some] at h
  obtain ⟨h0, h⟩ := h
  split at h
  · next h2 =>
    cases h
    rw [Rvc.addi, used_iWord mxl _ _ _ rfl rfl (fun _ => rfl) rfl, h2, if_neg (by simp), if_neg h0,
      Bits.signExtend_signExtend _ (by decide)]
    rfl
  · next h2 =>
    cases h
    rw [used_luiWord, if_pos h2, if_neg h0]

theorem code16Arith_expand (h : Rvc.expandArith mxl p = some w) :
    code16Arith (p.setWidth 32) = (decode w mxl).used := by
  have h11 : p.extractLsb' 11 1 = (p.extractLsb' 10 3).extractLsb' 1 1 :=
    (slice_slice p (show 1 + 1 ≤ 3 by decide)).symm
  have h10 : p.extractLsb' 10 1 = (p.extractLsb' 10 3).extractLsb' 0 1 :=
    (slice_slice p (show 0 + 1 ≤ 3 by decide)).symm
  simp only [code16Arith, windowReg_parcel, imm6_parcel_add, signExtend_imm6]
  simp (disch := decide) only [bitcrop_parcel, h11, h10]
  simp only [Rvc.expandArith] at h
  split at h <;> simp only [Option.ite_none_right_eq_some, Option.some.injEq, reduceCtorEq] at h
  case h_1 h3 =>
    rw [h3, ← h, used_shift mxl _ _ _ _ (.inr rfl) (i := .srli) (by decide) rfl]
    rfl
  case h_2 h3 =>
    rw [h3, ← h.2, used_shift mxl _ _ _ _ (.inr rfl) (i := .srli) (by decide) rfl]
    rfl
  case h_3 h3 =>
    rw [h3, ← h, used_shift mxl _ _ _ _ (.inr rfl) (i := .srai) (by decide) rfl]
    rfl
  case h_4 h3 =>
    rw [h3, ← h.2, used_shift mxl _ _ _ _ (.inr rfl) (i := .srai) (by decide) rfl]
    rfl
  case h_5 h3 | h_6 h3 =>
    rw [h3, ← h, used_iWord mxl _ _ _ rfl rfl (fun _ => rfl) rfl]
    rfl
  case h_7 h3 h2 | h_8 h3 h2 | h_9 h3 h2 | h_10 h3 h2 =>
    rw [h3, h2, ← h, used_rWord mxl _ _ _ rfl rfl rfl]
    rfl
  case h_11 h3 h2 | h_12 h3 h2 =>
    rw [h3, h2, ← h.2, used_rWord mxl _ _ _ rfl rfl rfl]
    rfl

theorem code16Jump_expand (hint : ¬ (Rvc.full p 2 ≠ 0 ∧ Rvc.full p 7 = 0)) (h : Rvc.expandJump p = some w) :
    code16Jump (p.setWidth 32) = (decode w mxl).used := by
  simp only [code16Jump, fullReg_parcel, bitcrop_full, bitcrop_bit]
  simp only [Rvc.expandJump] at h
  by_cases hb : Rvc.bit p 12 = 0 <;> by_cases h2 : Rvc.full p 2 = 0 <;>
    simp only [hb, h2, if_true, if_false, not_true_eq_false, not_false_eq_true, ne_eq] at h ⊢
  -- `c.jr`
  · obtain ⟨-, h⟩ := Option.ite_none_left_eq_some.mp h
    cases h
    rw [used_iWord mxl _ _ _ rfl rfl (fun _ => rfl) rfl]
    rfl
  -- `c.mv`
  · cases h
    rw [used_rWord mxl _ _ _ rfl rfl rfl]
    rfl
  -- `c.ebreak` and `c.jalr`
  · split at h
    · next h7 =>
      cases h
      rw [if_pos ⟨trivial, h7⟩]
      rfl
    · next h7 =>
      cases h
      rw [if_neg (fun h => h7 h.2), used_iWord mxl _ _ _ rfl rfl (fun _ => rfl) rfl]
      rfl
  -- `c.add`
  · cases h
    rw [if_neg (fun h => h.1), if_neg (fun h7 => hint ⟨h2, h7⟩), used_rWord mxl _ _ _ rfl rfl rfl]
    rfl

/-- A parcel that is neither reserved nor a HINT gets the fields of its
expansion. -/
theorem getCode16_expand (h : Rvc.expand mxl p = some w) (hint : Rvc.isHint p = false) :
    getCode16 (p.setWidth 32) mxl = (decode w mxl).used := by
  simp only [Rvc.expand, Rvc.addi] at h
  simp only [getCode16, opcode_parcel, fullReg_parcel, windowReg_parcel, addi4spnImm_parcel, wordImm_parcel,
    doubleImm_parcel, lwspImm_parcel, ldspImm_parcel, swspImm_parcel, sdspImm_parcel, branchImm_parcel, jumpImm_parcel,
    imm6_parcel, signExtend_imm6, bitcrop_eight]
  split at h <;> rename_i hop <;>
    try simp only [Option.ite_none_left_eq_some, Option.ite_none_right_eq_some, Option.some.injEq, reduceCtorEq] at h
  case h_1 =>
    rw [hop, ← h.2, used_iWord mxl _ _ _ rfl rfl (fun _ => rfl) rfl]
    exact if_neg h.1
  case h_2 | h_6 | h_8 =>
    rw [hop, ← h, used_iWord mxl _ _ _ rfl rfl (fun _ => rfl) rfl]
    rfl
  case h_3 | h_15 | h_16 =>
    rw [hop, ← h.2, used_iWord mxl _ _ _ rfl rfl (fun _ => rfl) rfl]
    rfl
  case h_4 | h_18 =>
    rw [hop, ← h, used_sWord mxl _ _ _ rfl rfl]
    rfl
  case h_5 | h_19 =>
    rw [hop, ← h.2, used_sWord mxl _ _ _ rfl rfl]
    rfl
  case h_7 =>
    -- `c.jal` in 32-bit mode, `c.addiw` in 64-bit mode
    split at h
    · next h1 =>
      cases h
      rw [hop, used_jalWord mxl _ _ (jumpImm_even p)]
      exact if_pos h1
    · next h1 =>
      obtain ⟨-, h⟩ := Option.ite_none_left_eq_some.mp h
      cases h
      rw [hop, used_iWord mxl _ _ _ rfl rfl (fun _ => rfl) rfl]
      exact if_neg h1
  case h_9 =>
    rw [hop]
    exact code16Lui_expand h
  case h_10 =>
    rw [hop]
    exact code16Arith_expand h
  case h_11 =>
    rw [hop, ← h, used_jalWord mxl _ _ (jumpImm_even p)]
    rfl
  case h_12 | h_13 =>
    rw [hop, ← h, used_bWord mxl _ _ _ (branchImm_even p) rfl rfl]
    rfl
  case h_14 =>
    rw [hop, ← h.2, used_shift mxl _ _ _ _ (.inl rfl) (fun _ => rfl) rfl]
    rfl
  case h_17 =>
    rw [hop]
    refine code16Jump_expand ?_ h
    simpa only [Rvc.isHint, hop, decide_eq_false_iff_not] using hint

/-- A parcel has one of the first three quadrants. -/
theorem expand_parcel (h : Rvc.expand mxl p = some w) : p.setWidth 32 &&& 0b11 ≠ 0b11 := by
  intro hp
  have hlow : p.extractLsb' 0 2 = 0b11 := by
    rwa [low_eq_three, BitVec.extractLsb'_setWidth_of_le (by decide)] at hp
  have hfunct3 : ∀ x : BitVec 3, x = 0 ∨ x = 1 ∨ x = 2 ∨ x = 3 ∨ x = 4 ∨ x = 5 ∨ x = 6 ∨ x = 7 := by decide
  rcases hfunct3 (p.extractLsb' 13 3) with hx | hx | hx | hx | hx | hx | hx | hx <;>
    simp only [Rvc.expand, Rvc.opcode, hx, hlow] at h <;> cases h

/-- Its expansion has the fourth. -/
theorem expand_word (h : Rvc.expand mxl p = some w) : (getOpcode w).extractLsb' 0 2 = 0b11 := by
  simp only [Rvc.expand, Rvc.expandLui, Rvc.expandArith, Rvc.expandJump, Rvc.addi, Rvc.shift, Rvc.rWord, Rvc.iWord,
    Rvc.sWord, Rvc.bWord, Rvc.jalWord, Rvc.luiWord] at h
  repeat' split at h
  all_goals
    cases h
    try simp only [RType.fields, IType.fields, SType.fields, BType.fields, UType.fields, JType.fields]
    try rfl

/-- None of the instructions for control and status registers is compressed. -/
theorem getCode16_csrs (ir : BitVec 32) (mxl : Nat) : RiscvCpu.isCsrs (getCode16 ir mxl).instruction = false := by
  unfold getCode16 code16Lui code16Jump code16Arith
  dsimp only
  repeat' split
  all_goals rfl

/-- The one system instruction that is compressed is `EBREAK`. -/
theorem getCode16_system (ir : BitVec 32) (mxl : Nat) (h : (getCode16 ir mxl).instruction = .system) :
    (getCode16 ir mxl).imm = 1 := by
  revert h
  unfold getCode16 code16Lui code16Jump code16Arith
  dsimp only
  repeat' split
  all_goals first | exact fun _ => rfl | (intro h; cases h)

end

end RiscvEmulator
