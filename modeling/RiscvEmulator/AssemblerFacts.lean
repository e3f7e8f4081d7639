/-
The assembler and the decoder are inverse: an encoder's word decodes to the
instruction it names, and the getters give its operands back.

A format's word is its fields side by side (`getValue_eq`), a getter takes
slices of a word (`getImm13_eq` and its like), and the rest is which slice
falls in which field.
-/
import Mathlib.Data.Bool.Basic
import RiscvEmulator.Assembler

namespace RiscvEmulator

/-! ## What the getters read -/

theorem getOpcode_eq (ir : BitVec 32) : getOpcode ir = ir.extractLsb' 0 7 := by
  simp (disch := decide) only [getOpcode, setWidth_bitcrop]

theorem getRd_eq (ir : BitVec 32) : getRd ir = ir.extractLsb' 7 5 := by
  simp (disch := decide) only [getRd, setWidth_bitcrop]

theorem getFunct3_eq (ir : BitVec 32) : getFunct3 ir = ir.extractLsb' 12 3 := by
  simp (disch := decide) only [getFunct3, setWidth_bitcrop]

theorem getRs1_eq (ir : BitVec 32) : getRs1 ir = ir.extractLsb' 15 5 := by
  simp (disch := decide) only [getRs1, setWidth_bitcrop]

theorem getRs2_eq (ir : BitVec 32) : getRs2 ir = ir.extractLsb' 20 5 := by
  simp (disch := decide) only [getRs2, setWidth_bitcrop]

theorem getFunct7_eq (ir : BitVec 32) : getFunct7 ir = ir.extractLsb' 25 7 := by
  simp (disch := decide) only [getFunct7, setWidth_bitcrop]

theorem getCsr_eq (ir : BitVec 32) : getCsr ir = ir.extractLsb' 20 12 := by
  simp (disch := decide) only [getCsr, setWidth_bitcrop]

theorem getImm12_eq (ir : BitVec 32) : getImm12 ir = (ir.extractLsb' 20 12).signExtend 32 := by
  simp (disch := decide) only [getImm12, signExtend_eq_signExtend, setWidth_bitcrop]

theorem getImm20_eq (ir : BitVec 32) : getImm20 ir = (ir.extractLsb' 12 20).signExtend 32 := by
  simp (disch := decide) only [getImm20, signExtend_eq_signExtend, setWidth_bitcrop]

theorem getStypeImm12_eq (ir : BitVec 32) :
    getStypeImm12 ir = (ir.extractLsb' 25 7 ++ ir.extractLsb' 7 5).signExtend 32 := by
  simp (disch := decide) only [getStypeImm12, signExtend_eq_signExtend]
  congr 1
  apply BitVec.eq_of_getLsbD_eq
  intro i hi
  simp (disch := decide) only [BitVec.getLsbD_setWidth, BitVec.getLsbD_or, getLsbD_bitcrop,
    BitVec.getLsbD_shiftLeft, BitVec.getLsbD_append, BitVec.getLsbD_extractLsb']
  grind

theorem getImm13_eq (ir : BitVec 32) :
    getImm13 ir = (ir.extractLsb' 31 1 ++ ir.extractLsb' 7 1 ++ ir.extractLsb' 25 6 ++ ir.extractLsb' 8 4 ++
      0#1).signExtend 32 := by
  simp (disch := decide) only [getImm13, signExtend_eq_signExtend]
  congr 1
  apply BitVec.eq_of_getLsbD_eq
  intro i hi
  simp (disch := decide) only [BitVec.getLsbD_setWidth, BitVec.getLsbD_or, getLsbD_bitShift,
    BitVec.getLsbD_append, BitVec.getLsbD_extractLsb', BitVec.getLsbD_zero]
  grind

theorem getImm21_eq (ir : BitVec 32) :
    getImm21 ir = (ir.extractLsb' 31 1 ++ ir.extractLsb' 12 8 ++ ir.extractLsb' 20 1 ++ ir.extractLsb' 21 10 ++
      0#1).signExtend 32 := by
  simp (disch := decide) only [getImm21, signExtend_eq_signExtend]
  congr 1
  apply BitVec.eq_of_getLsbD_eq
  intro i hi
  simp (disch := decide) only [BitVec.getLsbD_setWidth, BitVec.getLsbD_or, getLsbD_bitcrop,
    BitVec.getLsbD_shiftLeft, BitVec.getLsbD_append, BitVec.getLsbD_extractLsb', BitVec.getLsbD_zero]
  grind

/-! ## Formats as fields side by side -/

theorem RType.getValue_eq (cmd : RType) :
    cmd.getValue = (cmd.funct7 ++ cmd.rs2 ++ cmd.rs1 ++ cmd.funct3 ++ cmd.rd ++ cmd.opcode).setWidth 32 := by
  apply BitVec.eq_of_getLsbD_eq
  intro i hi
  simp only [RType.getValue, BitVec.getLsbD_or, BitVec.getLsbD_shiftLeft, BitVec.getLsbD_setWidth,
    BitVec.getLsbD_append]
  grind

theorem IType.getValue_eq (cmd : IType) :
    cmd.getValue = (cmd.imm12 ++ cmd.rs1 ++ cmd.funct3 ++ cmd.rd ++ cmd.opcode).setWidth 32 := by
  apply BitVec.eq_of_getLsbD_eq
  intro i hi
  simp only [IType.getValue, BitVec.getLsbD_or, BitVec.getLsbD_shiftLeft, BitVec.getLsbD_setWidth,
    BitVec.getLsbD_append, BitVec.getLsbD_signExtend]
  grind

/-- A field of an `int16_t` bit-field, as the `uint32_t` it is assigned to. -/
theorem bitcrop_int16 {k : Nat} (x : BitVec k) {w o : Nat} (h : o + w ≤ k) (hk : k ≤ 16) (hw : w < 16) :
    (bitcrop (x.signExtend 16) w o).signExtend 32 = (x.extractLsb' o w).setWidth 32 := by
  rw [bitcrop_signExtend x h hk (by decide)]
  apply BitVec.eq_of_getLsbD_eq
  intro i hi
  simp only [BitVec.getLsbD_signExtend, BitVec.getLsbD_setWidth, BitVec.getLsbD_extractLsb',
    BitVec.msb_eq_getLsbD_last]
  grind

theorem SType.getValue_eq (cmd : SType) :
    cmd.getValue = (cmd.imm12.extractLsb' 5 7 ++ cmd.rs2 ++ cmd.rs1 ++ cmd.funct3 ++ cmd.imm12.extractLsb' 0 5 ++
      cmd.opcode).setWidth 32 := by
  apply BitVec.eq_of_getLsbD_eq
  intro i hi
  simp (disch := decide) only [SType.getValue, bitcrop_int16, BitVec.getLsbD_or, BitVec.getLsbD_shiftLeft,
    BitVec.getLsbD_setWidth, BitVec.getLsbD_append]
  grind

theorem BType.getValue_eq (cmd : BType) :
    cmd.getValue = (cmd.imm13.extractLsb' 12 1 ++ cmd.imm13.extractLsb' 5 6 ++ cmd.rs2 ++ cmd.rs1 ++ cmd.funct3 ++
      cmd.imm13.extractLsb' 1 4 ++ cmd.imm13.extractLsb' 11 1 ++ cmd.opcode).setWidth 32 := by
  apply BitVec.eq_of_getLsbD_eq
  intro i hi
  simp (disch := decide) only [BType.getValue, bitcrop_int16, BitVec.getLsbD_or, BitVec.getLsbD_shiftLeft,
    BitVec.getLsbD_setWidth, BitVec.getLsbD_append]
  grind

theorem UType.getValue_eq (cmd : UType) :
    cmd.getValue = (cmd.imm20.extractLsb' 0 20 ++ cmd.rd ++ cmd.opcode).setWidth 32 := by
  have hones : (0xFFFFF : BitVec 32) = Bits.ones 32 20 := by decide
  apply BitVec.eq_of_getLsbD_eq
  intro i hi
  simp only [UType.getValue, hones, BitVec.getLsbD_or, BitVec.getLsbD_shiftLeft, Bits.getLsbD_and_ones,
    BitVec.getLsbD_setWidth, BitVec.getLsbD_append, BitVec.getLsbD_extractLsb']
  grind

theorem JType.getValue_eq (cmd : JType) :
    cmd.getValue = (cmd.imm21.extractLsb' 20 1 ++ cmd.imm21.extractLsb' 1 10 ++ cmd.imm21.extractLsb' 11 1 ++
      cmd.imm21.extractLsb' 12 8 ++ cmd.rd ++ cmd.opcode).setWidth 32 := by
  apply BitVec.eq_of_getLsbD_eq
  intro i hi
  simp (disch := decide) only [JType.getValue, bitcrop_signExtend, BitVec.getLsbD_or, BitVec.getLsbD_shiftLeft,
    BitVec.getLsbD_setWidth, BitVec.getLsbD_append]
  grind

/-! ## Slices of the formats -/

@[simp] theorem RType.fields (cmd : RType) :
    getOpcode cmd.getValue = cmd.opcode ∧ getFunct3 cmd.getValue = cmd.funct3 ∧
      getFunct7 cmd.getValue = cmd.funct7 ∧ getRd cmd.getValue = cmd.rd ∧ getRs1 cmd.getValue = cmd.rs1 ∧
      getRs2 cmd.getValue = cmd.rs2 := by
  simp (disch := decide) only [getOpcode_eq, getFunct3_eq, getFunct7_eq, getRd_eq, getRs1_eq, getRs2_eq,
    RType.getValue_eq, BitVec.extractLsb'_setWidth_of_le, BitVec.extractLsb'_append_eq_of_le,
    BitVec.extractLsb'_append_eq_of_add_le, BitVec.extractLsb'_eq_self, Nat.reduceSub, and_self]

@[simp] theorem IType.fields (cmd : IType) :
    getOpcode cmd.getValue = cmd.opcode ∧ getFunct3 cmd.getValue = cmd.funct3 ∧
      getFunct7 cmd.getValue = cmd.imm12.extractLsb' 5 7 ∧ getRd cmd.getValue = cmd.rd ∧
      getRs1 cmd.getValue = cmd.rs1 ∧ getCsr cmd.getValue = cmd.imm12 ∧
      getImm12 cmd.getValue = cmd.imm12.signExtend 32 := by
  simp (disch := decide) only [getOpcode_eq, getFunct3_eq, getFunct7_eq, getRd_eq, getRs1_eq, getCsr_eq, getImm12_eq,
    IType.getValue_eq, BitVec.extractLsb'_setWidth_of_le, BitVec.extractLsb'_append_eq_of_le,
    BitVec.extractLsb'_append_eq_of_add_le, BitVec.extractLsb'_eq_self, Nat.reduceSub, and_self]

@[simp] theorem SType.fields (cmd : SType) :
    getOpcode cmd.getValue = cmd.opcode ∧ getFunct3 cmd.getValue = cmd.funct3 ∧ getRs1 cmd.getValue = cmd.rs1 ∧
      getRs2 cmd.getValue = cmd.rs2 ∧ getStypeImm12 cmd.getValue = cmd.imm12.signExtend 32 := by
  simp (disch := decide) only [getOpcode_eq, getFunct3_eq, getRs1_eq, getRs2_eq, getStypeImm12_eq,
    SType.getValue_eq, BitVec.extractLsb'_setWidth_of_le, BitVec.extractLsb'_append_eq_of_le,
    BitVec.extractLsb'_append_eq_of_add_le, BitVec.extractLsb'_eq_self, Nat.reduceSub, and_self,
    BitVec.extractLsb'_append_extractLsb'_eq_extractLsb']

/-- The lowest bit of a branch offset is not in the word. -/
@[simp] theorem BType.fields (cmd : BType) :
    getOpcode cmd.getValue = cmd.opcode ∧ getFunct3 cmd.getValue = cmd.funct3 ∧ getRs1 cmd.getValue = cmd.rs1 ∧
      getRs2 cmd.getValue = cmd.rs2 ∧ getImm13 cmd.getValue = (cmd.imm13.extractLsb' 1 12 ++ 0#1).signExtend 32 := by
  simp (disch := decide) only [getOpcode_eq, getFunct3_eq, getRs1_eq, getRs2_eq, getImm13_eq,
    BType.getValue_eq, BitVec.extractLsb'_setWidth_of_le, BitVec.extractLsb'_append_eq_of_le,
    BitVec.extractLsb'_append_eq_of_add_le, BitVec.extractLsb'_eq_self, Nat.reduceSub, and_self,
    BitVec.extractLsb'_append_extractLsb'_eq_extractLsb']

@[simp] theorem UType.fields (cmd : UType) :
    getOpcode cmd.getValue = cmd.opcode ∧ getRd cmd.getValue = cmd.rd ∧
      getImm20 cmd.getValue = (cmd.imm20.extractLsb' 0 20).signExtend 32 := by
  simp (disch := decide) only [getOpcode_eq, getRd_eq, getImm20_eq,
    UType.getValue_eq, BitVec.extractLsb'_setWidth_of_le, BitVec.extractLsb'_append_eq_of_le,
    BitVec.extractLsb'_append_eq_of_add_le, BitVec.extractLsb'_eq_self, Nat.reduceSub, and_self]

@[simp] theorem JType.fields (cmd : JType) :
    getOpcode cmd.getValue = cmd.opcode ∧ getRd cmd.getValue = cmd.rd ∧
      getImm21 cmd.getValue = (cmd.imm21.extractLsb' 1 20 ++ 0#1).signExtend 32 := by
  simp (disch := decide) only [getOpcode_eq, getRd_eq, getImm21_eq,
    JType.getValue_eq, BitVec.extractLsb'_setWidth_of_le, BitVec.extractLsb'_append_eq_of_le,
    BitVec.extractLsb'_append_eq_of_add_le, BitVec.extractLsb'_eq_self, Nat.reduceSub, and_self,
    BitVec.extractLsb'_append_extractLsb'_eq_extractLsb']

/-! ## The decoder on the fields it looks at -/

/-- The tests of `GetCode32`. -/
def code32 (opcode : BitVec 7) (funct3 : BitVec 3) (funct7 : BitVec 7) : Instruction :=
  if opcode = opcodeArithlog then codeArithlog funct3 funct7
  else if opcode = opcodeArithlog64 then codeArithlog64 funct3 funct7
  else if opcode = opcodeArithlogI then codeArithlogI funct3 funct7
  else if opcode = opcodeArithlogI64 then codeArithlogI64 funct3 funct7
  else if opcode = opcodeB then codeBranch funct3
  else if opcode = opcodeJ then .jal
  else if opcode = opcodeJalr then if funct3 = func3Jalr then .jalr else .error
  else if opcode = opcodeLd then codeLoad funct3
  else if opcode = opcodeS then codeStore funct3
  else if opcode = opcodeLui then .lui
  else if opcode = opcodeAuipc then .auipc
  else if opcode = opcodeSystem then codeSystem funct3
  else if opcode = opcodeFence then
    if funct3 = func3Fencei then .fencei else if funct3 = func3Fence then .fence else .error
  else if opcode = opcodeAmo then codeAmo funct3 ((funct7 >>> 2).setWidth 5)
  else .error

theorem getCode32_eq (ir : BitVec 32) : getCode32 ir = code32 (getOpcode ir) (getFunct3 ir) (getFunct7 ir) := rfl

/-- The opcodes whose immediate `GetImm` takes as the plain twelve bits. -/
def plainImm (opcode : BitVec 7) (funct3 : BitVec 3) : Bool :=
  if opcode = opcodeArithlogI ∨ opcode = opcodeArithlogI64 then ¬ (funct3 = func3Sl ∨ funct3 = func3Sr)
  else opcode ≠ opcodeB ∧ opcode ≠ opcodeLui ∧ opcode ≠ opcodeAuipc ∧ opcode ≠ opcodeJ ∧ opcode ≠ opcodeS

theorem getImm_plain {ir : BitVec 32} (h : plainImm (getOpcode ir) (getFunct3 ir) = true) :
    getImm ir = getImm12 ir := by
  simp only [plainImm] at h
  simp only [getImm]
  split at h
  · next hi =>
    simp only [decide_eq_true_eq] at h
    rw [if_pos hi, if_neg h]
  · next hi =>
    simp only [decide_eq_true_eq] at h
    obtain ⟨hb, hl, ha, hj, hs⟩ := h
    rw [if_neg hi, if_neg hb, if_neg (by simp [hl, ha]), if_neg hj, if_neg hs]

theorem getImm_store {ir : BitVec 32} (h : getOpcode ir = opcodeS) : getImm ir = getStypeImm12 ir := by
  simp only [getImm, h]; rfl

theorem getImm_branch {ir : BitVec 32} (h : getOpcode ir = opcodeB) : getImm ir = getImm13 ir := by
  simp only [getImm, h]; rfl

theorem getImm_jump {ir : BitVec 32} (h : getOpcode ir = opcodeJ) : getImm ir = getImm21 ir := by
  simp only [getImm, h]; rfl

theorem getImm_upper {ir : BitVec 32} (h : getOpcode ir = opcodeLui ∨ getOpcode ir = opcodeAuipc) :
    getImm ir = getImm20 ir <<< 12 := by
  rcases h with h | h
  · simp only [getImm, h]; rfl
  · simp only [getImm, h]; rfl

/-! ## Encoders -/

/-- `imm` is a signed number of `w` bits. -/
def Fits (w : Nat) (imm : BitVec 32) : Prop := -2 ^ (w - 1) ≤ imm.toInt ∧ imm.toInt < 2 ^ (w - 1)

/-- An encoder, by the operands it takes. -/
inductive Encoder where
  | r (asm : (rd rs1 rs2 : BitVec 32) → BitVec 32)
  | a (asm : (rd rs1 rs2 aq rl : BitVec 32) → BitVec 32)
  | i (asm : (rd rs1 imm12 : BitVec 32) → BitVec 32)
  | shift (asm : (rd rs1 shamt : BitVec 32) → BitVec 32)
  | csr (asm : (rd rs1 csr : BitVec 32) → BitVec 32)
  | s (asm : (rs1 rs2 offset12 : BitVec 32) → BitVec 32)
  | b (asm : (rs1 rs2 offset13 : BitVec 32) → BitVec 32)
  | u (asm : (rd imm20 : BitVec 32) → BitVec 32)
  | j (asm : (rd offset21 : BitVec 32) → BitVec 32)
  | fence (asm : (pred succ : BitVec 32) → Except Crash (BitVec 32))
  | fixed (ir imm : BitVec 32)

/-- On operands in range the word decodes to the instruction that is named
and the getters give the operands. -/
def Encoder.Inverse (named : Instruction) : Encoder → Prop
  | .r asm => ∀ rd rs1 rs2 : BitVec 32, rd < 32 → rs1 < 32 → rs2 < 32 →
      getCode32 (asm rd rs1 rs2) = named ∧ (getRd (asm rd rs1 rs2)).setWidth 32 = rd ∧
        (getRs1 (asm rd rs1 rs2)).setWidth 32 = rs1 ∧ (getRs2 (asm rd rs1 rs2)).setWidth 32 = rs2
  | .a asm => ∀ rd rs1 rs2 aq rl : BitVec 32, rd < 32 → rs1 < 32 → rs2 < 32 →
      getCode32 (asm rd rs1 rs2 aq rl) = named ∧ (getRd (asm rd rs1 rs2 aq rl)).setWidth 32 = rd ∧
        (getRs1 (asm rd rs1 rs2 aq rl)).setWidth 32 = rs1 ∧ (getRs2 (asm rd rs1 rs2 aq rl)).setWidth 32 = rs2
  | .i asm => ∀ rd rs1 imm12 : BitVec 32, rd < 32 → rs1 < 32 → Fits 12 imm12 →
      getCode32 (asm rd rs1 imm12) = named ∧ (getRd (asm rd rs1 imm12)).setWidth 32 = rd ∧
        (getRs1 (asm rd rs1 imm12)).setWidth 32 = rs1 ∧ getImm (asm rd rs1 imm12) = imm12
  | .shift asm => ∀ rd rs1 shamt : BitVec 32, rd < 32 → rs1 < 32 → shamt < 64 →
      getCode32 (asm rd rs1 shamt) = named ∧ (getRd (asm rd rs1 shamt)).setWidth 32 = rd ∧
        (getRs1 (asm rd rs1 shamt)).setWidth 32 = rs1 ∧ getImm (asm rd rs1 shamt) = shamt
  | .csr asm => ∀ rd rs1 csr : BitVec 32, rd < 32 → rs1 < 32 → csr < 4096 →
      getCode32 (asm rd rs1 csr) = named ∧ (getRd (asm rd rs1 csr)).setWidth 32 = rd ∧
        (getRs1 (asm rd rs1 csr)).setWidth 32 = rs1 ∧ (getCsr (asm rd rs1 csr)).setWidth 32 = csr
  | .s asm => ∀ rs1 rs2 offset12 : BitVec 32, rs1 < 32 → rs2 < 32 → Fits 12 offset12 →
      getCode32 (asm rs1 rs2 offset12) = named ∧ (getRs1 (asm rs1 rs2 offset12)).setWidth 32 = rs1 ∧
        (getRs2 (asm rs1 rs2 offset12)).setWidth 32 = rs2 ∧ getImm (asm rs1 rs2 offset12) = offset12
  | .b asm => ∀ rs1 rs2 offset13 : BitVec 32, rs1 < 32 → rs2 < 32 → Fits 13 offset13 → 2 ∣ offset13.toInt →
      getCode32 (asm rs1 rs2 offset13) = named ∧ (getRs1 (asm rs1 rs2 offset13)).setWidth 32 = rs1 ∧
        (getRs2 (asm rs1 rs2 offset13)).setWidth 32 = rs2 ∧ getImm (asm rs1 rs2 offset13) = offset13
  | .u asm => ∀ rd imm20 : BitVec 32, rd < 32 →
      getCode32 (asm rd imm20) = named ∧ (getRd (asm rd imm20)).setWidth 32 = rd ∧ getImm (asm rd imm20) = imm20 <<< 12
  | .j asm => ∀ rd offset21 : BitVec 32, rd < 32 → Fits 21 offset21 → 2 ∣ offset21.toInt →
      getCode32 (asm rd offset21) = named ∧ (getRd (asm rd offset21)).setWidth 32 = rd ∧
        getImm (asm rd offset21) = offset21
  | .fence asm => ∀ pred succ : BitVec 32, pred < 16 → succ < 16 →
      ∃ ir, asm pred succ = .ok ir ∧ getCode32 ir = named ∧ getRd ir = 0 ∧ getRs1 ir = 0 ∧
        getImm ir = (pred <<< 4) ||| succ
  | .fixed ir imm => getCode32 ir = named ∧ getRd ir = 0 ∧ getRs1 ir = 0 ∧ getImm ir = imm

/-! ### Operands in range -/

theorem setWidth_setWidth_of_lt {w : Nat} (x : BitVec 32) (h : x.toNat < 2 ^ w) :
    (x.setWidth w).setWidth 32 = x := by
  apply BitVec.eq_of_toNat_eq
  rw [BitVec.toNat_setWidth, BitVec.toNat_setWidth, Nat.mod_eq_of_lt h, Nat.mod_eq_of_lt x.isLt]

theorem reg_range {x : BitVec 32} (h : x < 32) : (x.setWidth 5).setWidth 32 = x :=
  setWidth_setWidth_of_lt x h

theorem signExtend_setWidth_of_fits {w : Nat} {x : BitVec 32} (h0 : 0 < w) (hw : w ≤ 32) (h : Fits w x) :
    (x.setWidth w).signExtend 32 = x := by
  have hx : x.setWidth w = BitVec.ofInt w x.toInt := by
    rw [← Bits.setWidth_ofInt _ hw, BitVec.ofInt_toInt]
  have hpow : ((2 ^ w : Nat) : Int) = 2 ^ (w - 1) * 2 := by
    obtain ⟨k, rfl⟩ : ∃ k, w = k + 1 := ⟨w - 1, by omega⟩
    rw [Int.natCast_pow, Nat.add_sub_cancel, Int.pow_succ]; rfl
  obtain ⟨hl, hu⟩ := h
  apply BitVec.eq_of_toInt_eq
  rw [BitVec.toInt_signExtend_of_le hw, hx, BitVec.toInt_ofInt]
  apply Int.bmod_eq_of_le_mul_two
  · omega
  · omega

/-- An even offset is known without its lowest bit. -/
theorem extractLsb'_append_of_even {w : Nat} {x : BitVec 32} (h : 2 ∣ x.toInt) :
    ((x.setWidth (w + 1)).extractLsb' 1 w ++ 0#1) = x.setWidth (w + 1) := by
  have h0 : x.getLsbD 0 = false := by
    rw [← BitVec.testBit_toNat, Nat.testBit_zero]
    have := BitVec.toInt_eq_toNat_cond x
    simp only [decide_eq_false_iff_not]
    omega
  apply BitVec.eq_of_getLsbD_eq
  intro i hi
  simp only [BitVec.getLsbD_append, BitVec.getLsbD_extractLsb', BitVec.getLsbD_setWidth, BitVec.getLsbD_zero]
  cases i with
  | zero => simpa using h0
  | succ i => simp [show i < w by omega, Nat.add_comm]

/-! ### One lemma a form -/

theorem inverse_r {named : Instruction} {opcode funct7 : BitVec 7} {funct3 : BitVec 3}
    (h : code32 opcode funct3 funct7 = named) : Encoder.Inverse named (.r (asmRType opcode funct7 funct3)) := by
  intro rd rs1 rs2 hrd hrs1 hrs2
  simp only [getCode32_eq, asmRType, RType.fields, h, reg_range hrd, reg_range hrs1, reg_range hrs2, and_self]

theorem inverse_a {named : Instruction} {funct5 : BitVec 5} {funct3 : BitVec 3} (h : codeAmo funct3 funct5 = named) :
    Encoder.Inverse named (.a (asmAType opcodeAmo funct5 funct3)) := by
  intro rd rs1 rs2 aq rl hrd hrs1 hrs2
  have hone : 0b1#32 = Bits.ones 32 1 := by decide
  have hf : ((((funct5.setWidth 32 <<< 2) ||| ((aq &&& 0b1#32) <<< 1) ||| (rl &&& 0b1#32)).setWidth 7 >>>
      2).setWidth 5 : BitVec 5) = funct5 := by
    apply BitVec.eq_of_getLsbD_eq
    intro i hi
    simp only [hone, BitVec.getLsbD_setWidth, BitVec.getLsbD_ushiftRight, BitVec.getLsbD_or,
      BitVec.getLsbD_shiftLeft, Bits.getLsbD_and_ones]
    grind
  have hcode : ∀ f7, code32 opcodeAmo funct3 f7 = codeAmo funct3 ((f7 >>> 2).setWidth 5) := fun _ => rfl
  simp only [getCode32_eq, asmAType, RType.fields, hcode, hf, h, reg_range hrd, reg_range hrs1, reg_range hrs2,
    and_self]

/-- The mask of `AsmIType` is that of the bit-field. -/
theorem asmIType_imm (imm12 : BitVec 32) : (imm12 &&& 0xFFF).setWidth 12 = imm12.setWidth 12 := by
  have hones : (0xFFF : BitVec 32) = Bits.ones 32 12 := by decide
  apply BitVec.eq_of_getLsbD_eq
  intro i hi
  rw [BitVec.getLsbD_setWidth, BitVec.getLsbD_setWidth, hones, Bits.getLsbD_and_ones]
  simp [hi]

theorem inverse_i {named : Instruction} {opcode : BitVec 7} {funct3 : BitVec 3} (hi : plainImm opcode funct3 = true)
    (h : ∀ funct7, code32 opcode funct3 funct7 = named) : Encoder.Inverse named (.i (asmIType opcode funct3)) := by
  intro rd rs1 imm12 hrd hrs1 himm
  have hplain : getImm (asmIType opcode funct3 rd rs1 imm12) = getImm12 (asmIType opcode funct3 rd rs1 imm12) :=
    getImm_plain (by simpa only [asmIType, IType.fields] using hi)
  rw [hplain]
  simp only [getCode32_eq, asmIType, asmIType_imm, IType.fields, h, reg_range hrd, reg_range hrs1,
    signExtend_setWidth_of_fits (show 0 < 12 by decide) (by decide) himm, and_self]

theorem inverse_csr {named : Instruction} {funct3 : BitVec 3} (h : codeSystem funct3 = named) :
    Encoder.Inverse named (.csr (asmIType opcodeSystem funct3)) := by
  intro rd rs1 csr hrd hrs1 hcsr
  have hcode : ∀ f7, code32 opcodeSystem funct3 f7 = codeSystem funct3 := fun _ => rfl
  have hrange : (csr.setWidth 12).setWidth 32 = csr := setWidth_setWidth_of_lt csr hcsr
  simp only [getCode32_eq, asmIType, asmIType_imm, IType.fields, hcode, h, reg_range hrd, reg_range hrs1, hrange,
    and_self]

/-- A shift has six bits of `funct7` above its amount. -/
theorem shift_funct7 (top shamt : BitVec 6) :
    (top ++ shamt).extractLsb' 5 7 = top ++ shamt.extractLsb' 5 1 := by
  apply BitVec.eq_of_getLsbD_eq
  intro i hi
  simp only [BitVec.getLsbD_extractLsb', BitVec.getLsbD_append]
  grind

/-- `GetImm` masks them. -/
theorem shift_mask (top shamt : BitVec 6) : (top ++ shamt).signExtend 32 &&& 0b111111 = shamt.setWidth 32 := by
  have hones : (0b111111 : BitVec 32) = Bits.ones 32 6 := by decide
  rw [hones]
  apply BitVec.eq_of_getLsbD_eq
  intro i hi
  simp only [Bits.getLsbD_and_ones, BitVec.getLsbD_signExtend, BitVec.getLsbD_append, BitVec.getLsbD_setWidth]
  grind

theorem inverse_shift {named : Instruction} {opcode : BitVec 7} {funct3 : BitVec 3} (top : BitVec 6)
    {imm : BitVec 32 → BitVec 32} (ho : opcode = opcodeArithlogI ∨ opcode = opcodeArithlogI64)
    (h3 : funct3 = func3Sl ∨ funct3 = func3Sr) (himm : ∀ x, (imm x).setWidth 12 = top ++ x.setWidth 6)
    (h : ∀ b : BitVec 1, code32 opcode funct3 (top ++ b) = named) :
    Encoder.Inverse named (.shift fun rd rs1 x => asmIType opcode funct3 rd rs1 (imm x)) := by
  intro rd rs1 shamt hrd hrs1 hshamt
  have hrange : (shamt.setWidth 6).setWidth 32 = shamt := setWidth_setWidth_of_lt shamt hshamt
  simp only [getCode32_eq, getImm, asmIType, asmIType_imm, IType.fields, himm, shift_funct7, h, reg_range hrd,
    reg_range hrs1, if_pos ho, if_pos h3, shift_mask, hrange, and_self]

/-- A left or a logical right shift. -/
theorem shamt_norm (x : BitVec 32) : (x &&& 0b0111111#32).setWidth 12 = 0#6 ++ x.setWidth 6 := by
  have hones : 0b0111111#32 = Bits.ones 32 6 := by decide
  apply BitVec.eq_of_getLsbD_eq
  intro i hi
  simp only [hones, BitVec.getLsbD_setWidth, Bits.getLsbD_and_ones, BitVec.getLsbD_append, BitVec.getLsbD_zero]
  grind

/-- An arithmetic one. -/
theorem shamt_alt (x : BitVec 32) :
    ((x &&& 0b0111111#32) ||| ((funcAlt.setWidth 32 >>> 1) <<< 6)).setWidth 12 = 0b010000#6 ++ x.setWidth 6 := by
  have halt : (funcAlt.setWidth 32 >>> 1) <<< 6 = (0b010000#6 ++ 0#6).setWidth 32 := by decide
  rw [BitVec.setWidth_or, shamt_norm, halt]
  apply BitVec.eq_of_getLsbD_eq
  intro i hi
  simp only [BitVec.getLsbD_or, BitVec.getLsbD_setWidth, BitVec.getLsbD_append, BitVec.getLsbD_zero]
  grind

theorem inverse_s {named : Instruction} {funct3 : BitVec 3} (h : codeStore funct3 = named) :
    Encoder.Inverse named (.s (asmSType opcodeS funct3)) := by
  intro rs1 rs2 offset12 hrs1 hrs2 himm
  have hcode : ∀ f7, code32 opcodeS funct3 f7 = codeStore funct3 := fun _ => rfl
  rw [getImm_store (by simp only [asmSType, SType.fields])]
  simp only [getCode32_eq, asmSType, SType.fields, hcode, h, reg_range hrs1, reg_range hrs2,
    signExtend_setWidth_of_fits (show 0 < 12 by decide) (by decide) himm, and_self]

theorem inverse_b {named : Instruction} {funct3 : BitVec 3} (h : codeBranch funct3 = named) :
    Encoder.Inverse named (.b (asmBType opcodeB funct3)) := by
  intro rs1 rs2 offset13 hrs1 hrs2 himm heven
  have hcode : ∀ f7, code32 opcodeB funct3 f7 = codeBranch funct3 := fun _ => rfl
  rw [getImm_branch (by simp only [asmBType, BType.fields])]
  simp only [getCode32_eq, asmBType, BType.fields, hcode, h, reg_range hrs1, reg_range hrs2,
    extractLsb'_append_of_even (w := 12) heven,
    signExtend_setWidth_of_fits (show 0 < 13 by decide) (by decide) himm, and_self]

theorem inverse_u {named : Instruction} {opcode : BitVec 7} (ho : opcode = opcodeLui ∨ opcode = opcodeAuipc)
    (h : ∀ funct3 funct7, code32 opcode funct3 funct7 = named) : Encoder.Inverse named (.u (asmUType opcode)) := by
  intro rd imm20 hrd
  have hshift : ((imm20.setWidth 24).extractLsb' 0 20).signExtend 32 <<< 12 = imm20 <<< 12 := by
    apply BitVec.eq_of_getLsbD_eq
    intro i hi
    simp only [BitVec.getLsbD_shiftLeft, BitVec.getLsbD_signExtend, BitVec.getLsbD_extractLsb',
      BitVec.getLsbD_setWidth]
    grind
  rw [getImm_upper (by simpa only [asmUType, UType.fields] using ho)]
  simp only [getCode32_eq, asmUType, UType.fields, h, reg_range hrd, hshift, and_self]

theorem inverse_j : Encoder.Inverse .jal (.j (asmJType opcodeJ)) := by
  intro rd offset21 hrd himm heven
  have hcode : ∀ f3 f7, code32 opcodeJ f3 f7 = .jal := fun _ _ => rfl
  rw [getImm_jump (by simp only [asmJType, JType.fields])]
  simp only [getCode32_eq, asmJType, JType.fields, hcode, reg_range hrd,
    extractLsb'_append_of_even (w := 20) heven,
    signExtend_setWidth_of_fits (show 0 < 21 by decide) (by decide) himm, and_self]

/-- A set of four bits. -/
theorem fence_set {x : BitVec 32} (h : x < 16) : x &&& ~~~0xF = 0 := by
  have hones : (0xF : BitVec 32) = Bits.ones 32 4 := by decide
  rw [hones]
  apply BitVec.eq_of_getLsbD_eq
  intro i hi
  have hbit : 4 ≤ i → x.getLsbD i = false := by
    intro h4
    rw [← BitVec.testBit_toNat]
    exact Nat.testBit_lt_two_pow (Nat.lt_of_lt_of_le h (Nat.pow_le_pow_right (show 2 > 0 by decide) h4))
  simp only [BitVec.getLsbD_and, BitVec.getLsbD_not, Bits.getLsbD_ones]
  grind

theorem inverse_fence : Encoder.Inverse .fence (.fence asmFence) := by
  intro pred succ hpred hsucc
  have hfits : Fits 12 ((pred <<< 4) ||| succ) := by
    have h : ((pred <<< 4) ||| succ).toNat = pred.toNat * 2 ^ 4 + succ.toNat :=
      Bits.toNat_shiftLeft_or pred succ (by have : pred.toNat < 16 := hpred; omega) hsucc
    have hp : pred.toNat < 16 := hpred
    have hs : succ.toNat < 16 := hsucc
    rw [Fits, BitVec.toInt_eq_toNat_cond, h]
    omega
  have hok : asmFence pred succ = .ok (asmIType opcodeFence func3Fence 0 0 ((pred <<< 4) ||| succ)) := by
    rw [asmFence, assert_bind (by simpa using fence_set hpred), assert_bind (by simpa using fence_set hsucc)]
    rfl
  have hinv : Encoder.Inverse .fence (.i (asmIType opcodeFence func3Fence)) := inverse_i rfl fun _ => rfl
  obtain ⟨hcode, -, -, himm⟩ := hinv 0 0 _ (by decide) (by decide) hfits
  refine ⟨_, hok, hcode, ?_, ?_, himm⟩
  · simp only [asmIType, IType.fields]; rfl
  · simp only [asmIType, IType.fields]; rfl

/-! ## The assembler -/

def rEncoders : List (Instruction × Encoder) :=
  [(.add, .r asmAdd), (.addw, .r asmAddw), (.sub, .r asmSub), (.subw, .r asmSubw), (.and, .r asmAnd),
   (.or, .r asmOr), (.xor, .r asmXor), (.sll, .r asmSll), (.sllw, .r asmSllw), (.srl, .r asmSrl),
   (.srlw, .r asmSrlw), (.sra, .r asmSra), (.sraw, .r asmSraw), (.slt, .r asmSlt), (.sltu, .r asmSltu),
   (.mul, .r asmMul), (.mulh, .r asmMulh), (.mulhsu, .r asmMulhsu), (.mulhu, .r asmMulhu), (.mulw, .r asmMulw),
   (.div, .r asmDiv), (.divu, .r asmDivu), (.divuw, .r asmDivuw), (.divw, .r asmDivw), (.rem, .r asmRem),
   (.remu, .r asmRemu), (.remw, .r asmRemw), (.remuw, .r asmRemuw)]

def aEncoders : List (Instruction × Encoder) :=
  [(.amoaddd, .a asmAmoAddd), (.amoaddw, .a asmAmoAddw), (.amoandd, .a asmAmoAndd), (.amoandw, .a asmAmoAndw),
   (.amomaxd, .a asmAmoMaxd), (.amomaxw, .a asmAmoMaxw), (.amomaxud, .a asmAmoMaxud), (.amomaxuw, .a asmAmoMaxuw),
   (.amomind, .a asmAmoMind), (.amominw, .a asmAmoMinw), (.amominud, .a asmAmoMinud), (.amominuw, .a asmAmoMinuw),
   (.amoord, .a asmAmoOrd), (.amoorw, .a asmAmoOrw), (.amoswapd, .a asmAmoSwapd), (.amoswapw, .a asmAmoSwapw),
   (.amoxord, .a asmAmoXord), (.amoxorw, .a asmAmoXorw)]

def iEncoders : List (Instruction × Encoder) :=
  [(.addi, .i asmAddi), (.addiw, .i asmAddiw), (.andi, .i asmAndi), (.ori, .i asmOri), (.xori, .i asmXori),
   (.slti, .i asmSlti), (.sltiu, .i asmSltiu), (.jalr, .i asmJalr), (.lb, .i asmLb), (.lbu, .i asmLbu),
   (.lh, .i asmLh), (.lhu, .i asmLhu), (.lw, .i asmLw), (.ld, .i asmLd), (.lwu, .i asmLwu)]

def shiftEncoders : List (Instruction × Encoder) :=
  [(.slli, .shift asmSlli), (.slliw, .shift asmSlliw), (.srli, .shift asmSrli), (.srliw, .shift asmSrliw),
   (.srai, .shift asmSrai), (.sraiw, .shift asmSraiw)]

def csrEncoders : List (Instruction × Encoder) :=
  [(.csrrc, .csr asmCsrrc), (.csrrci, .csr asmCsrrci), (.csrrs, .csr asmCsrrs), (.csrrsi, .csr asmCsrrsi),
   (.csrrw, .csr asmCsrrw), (.csrrwi, .csr asmCsrrwi)]

def storeEncoders : List (Instruction × Encoder) :=
  [(.sw, .s asmSw), (.sh, .s asmSh), (.sb, .s asmSb), (.sd, .s asmSd)]

def branchEncoders : List (Instruction × Encoder) :=
  [(.beq, .b asmBeq), (.bge, .b asmBge), (.bgeu, .b asmBgeu), (.blt, .b asmBlt), (.bltu, .b asmBltu),
   (.bne, .b asmBne)]

def otherEncoders : List (Instruction × Encoder) :=
  [(.lui, .u asmLui), (.auipc, .u asmAuipc), (.jal, .j asmJal), (.fence, .fence asmFence),
    (.fencei, .fixed asmFencei 0),
   (.system, .fixed asmEbreak 1), (.system, .fixed asmEcall 0), (.system, .fixed asmMret 0x302)]

/-- The encoders of 32-bit instructions, each with the instruction it names. -/
def assembler : List (Instruction × Encoder) :=
  rEncoders ++ aEncoders ++ iEncoders ++ shiftEncoders ++ csrEncoders ++ storeEncoders ++ branchEncoders ++
    otherEncoders

theorem rEncoders_inverse : ∀ e ∈ rEncoders, e.2.Inverse e.1 := by
  simp only [rEncoders, List.forall_mem_cons]
  repeat' refine And.intro (inverse_r rfl) ?_
  exact List.forall_mem_nil _

theorem aEncoders_inverse : ∀ e ∈ aEncoders, e.2.Inverse e.1 := by
  simp only [aEncoders, List.forall_mem_cons]
  repeat' refine And.intro (inverse_a rfl) ?_
  exact List.forall_mem_nil _

theorem iEncoders_inverse : ∀ e ∈ iEncoders, e.2.Inverse e.1 := by
  simp only [iEncoders, List.forall_mem_cons]
  repeat' refine And.intro (inverse_i rfl fun _ => rfl) ?_
  exact List.forall_mem_nil _

theorem shiftEncoders_inverse : ∀ e ∈ shiftEncoders, e.2.Inverse e.1 := by
  simp only [shiftEncoders, List.forall_mem_cons]
  refine ⟨?_, ?_, ?_, ?_, ?_, ?_, List.forall_mem_nil _⟩
  · exact inverse_shift 0#6 (.inl rfl) (.inl rfl) shamt_norm fun _ => rfl
  · exact inverse_shift 0#6 (.inr rfl) (.inl rfl) shamt_norm fun _ => rfl
  · exact inverse_shift 0#6 (.inl rfl) (.inr rfl) shamt_norm (by decide)
  · exact inverse_shift 0#6 (.inr rfl) (.inr rfl) shamt_norm (by decide)
  · exact inverse_shift 0b010000#6 (.inl rfl) (.inr rfl) shamt_alt (by decide)
  · exact inverse_shift 0b010000#6 (.inr rfl) (.inr rfl) shamt_alt (by decide)

theorem csrEncoders_inverse : ∀ e ∈ csrEncoders, e.2.Inverse e.1 := by
  simp only [csrEncoders, List.forall_mem_cons]
  repeat' refine And.intro (inverse_csr rfl) ?_
  exact List.forall_mem_nil _

theorem storeEncoders_inverse : ∀ e ∈ storeEncoders, e.2.Inverse e.1 := by
  simp only [storeEncoders, List.forall_mem_cons]
  repeat' refine And.intro (inverse_s rfl) ?_
  exact List.forall_mem_nil _

theorem branchEncoders_inverse : ∀ e ∈ branchEncoders, e.2.Inverse e.1 := by
  simp only [branchEncoders, List.forall_mem_cons]
  repeat' refine And.intro (inverse_b rfl) ?_
  exact List.forall_mem_nil _

theorem otherEncoders_inverse : ∀ e ∈ otherEncoders, e.2.Inverse e.1 := by
  simp only [otherEncoders, List.forall_mem_cons]
  refine ⟨?_, ?_, inverse_j, inverse_fence, ?_, ?_, ?_, ?_, List.forall_mem_nil _⟩
  · exact inverse_u (.inl rfl) fun _ _ => rfl
  · exact inverse_u (.inr rfl) fun _ _ => rfl
  · simp only [Encoder.Inverse]; decide
  · simp only [Encoder.Inverse]; decide
  · simp only [Encoder.Inverse]; decide
  · simp only [Encoder.Inverse]; decide

/-- **Assembler and decoder are inverse.** The word an encoder makes of
operands in range decodes to the instruction the encoder names, and the
getters give the operands back. -/
theorem assembler_inverse : ∀ e ∈ assembler, e.2.Inverse e.1 := by
  intro e he
  simp only [assembler, List.mem_append] at he
  rcases he with ((((((he | he) | he) | he) | he) | he) | he) | he
  · exact rEncoders_inverse e he
  · exact aEncoders_inverse e he
  · exact iEncoders_inverse e he
  · exact shiftEncoders_inverse e he
  · exact csrEncoders_inverse e he
  · exact storeEncoders_inverse e he
  · exact branchEncoders_inverse e he
  · exact otherEncoders_inverse e he

/-- `beq x3, x4, -4096`. -/
theorem assembler_inverse_beq :
    (.beq, .b asmBeq) ∈ assembler ∧ Fits 13 (-4096) ∧
      getCode32 (asmBeq 3 4 (-4096)) = .beq ∧ getImm (asmBeq 3 4 (-4096)) = -4096 := by
  have hmem : (.beq, .b asmBeq) ∈ assembler := by simp [assembler, branchEncoders]
  have hfits : Fits 13 (-4096) := ⟨by decide, by decide⟩
  obtain ⟨hcode, -, -, himm⟩ := assembler_inverse _ hmem 3 4 (-4096) (by decide) (by decide) hfits (by decide)
  exact ⟨hmem, hfits, hcode, himm⟩

end RiscvEmulator
