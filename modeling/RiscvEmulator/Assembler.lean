/-
The assembler of the tests: the format classes of `instruction_encdec.cc`
and the encoders of 32-bit instructions over them.

A class has the fields its `GetValue` reads, each as wide as its bit-field,
so that an assignment to a field keeps the low bits. Operands are 32 bits,
as `uint32_t` and `int32_t` are. A left shift of a negative bit-field is
taken as the two's-complement one.
-/
import RiscvEmulator.Decode

namespace RiscvEmulator

/-! ## Formats -/

structure RType where
  opcode : BitVec 7
  rd : BitVec 5
  rs2 : BitVec 5
  rs1 : BitVec 5
  funct3 : BitVec 3
  funct7 : BitVec 7

def RType.getValue (cmd : RType) : BitVec 32 :=
  (cmd.funct7.setWidth 32 <<< 25 ||| cmd.rs2.setWidth 32 <<< 20 ||| cmd.rs1.setWidth 32 <<< 15) |||
    (cmd.funct3.setWidth 32 <<< 12 ||| cmd.rd.setWidth 32 <<< 7 ||| cmd.opcode.setWidth 32)

structure IType where
  opcode : BitVec 7
  rd : BitVec 5
  rs1 : BitVec 5
  funct3 : BitVec 3
  imm12 : BitVec 12

def IType.getValue (cmd : IType) : BitVec 32 :=
  (cmd.imm12.signExtend 32 <<< 20 ||| cmd.rs1.setWidth 32 <<< 15) |||
    (cmd.funct3.setWidth 32 <<< 12 ||| cmd.rd.setWidth 32 <<< 7 ||| cmd.opcode.setWidth 32)

structure SType where
  opcode : BitVec 7
  rs2 : BitVec 5
  rs1 : BitVec 5
  funct3 : BitVec 3
  imm12 : BitVec 12

def SType.getValue (cmd : SType) : BitVec 32 :=
  let imm1157 := (bitcrop (cmd.imm12.signExtend 16) 7 5).signExtend 32
  let imm405 := (bitcrop (cmd.imm12.signExtend 16) 5 0).signExtend 32
  (imm1157 <<< 25 ||| cmd.rs2.setWidth 32 <<< 20 ||| cmd.rs1.setWidth 32 <<< 15) |||
    (cmd.funct3.setWidth 32 <<< 12 ||| imm405 <<< 7 ||| cmd.opcode.setWidth 32)

structure BType where
  opcode : BitVec 7
  rs2 : BitVec 5
  rs1 : BitVec 5
  funct3 : BitVec 3
  imm13 : BitVec 13

def BType.getValue (cmd : BType) : BitVec 32 :=
  let imm121 := (bitcrop (cmd.imm13.signExtend 16) 1 12).signExtend 32
  let imm1056 := (bitcrop (cmd.imm13.signExtend 16) 6 5).signExtend 32
  let imm414 := (bitcrop (cmd.imm13.signExtend 16) 4 1).signExtend 32
  let imm111 := (bitcrop (cmd.imm13.signExtend 16) 1 11).signExtend 32
  (imm121 <<< 31 ||| imm1056 <<< 25) ||| (cmd.rs2.setWidth 32 <<< 20 ||| cmd.rs1.setWidth 32 <<< 15) |||
    (cmd.funct3.setWidth 32 <<< 12 ||| imm414 <<< 8 ||| imm111 <<< 7 ||| cmd.opcode.setWidth 32)

/-- The bit-field of the immediate has 24 bits. -/
structure UType where
  opcode : BitVec 7
  rd : BitVec 5
  imm20 : BitVec 24

def UType.getValue (cmd : UType) : BitVec 32 :=
  (cmd.imm20.setWidth 32 &&& 0xFFFFF) <<< 12 ||| (cmd.rd.setWidth 32 <<< 7 ||| cmd.opcode.setWidth 32)

structure JType where
  opcode : BitVec 7
  rd : BitVec 5
  imm21 : BitVec 21

def JType.getValue (cmd : JType) : BitVec 32 :=
  let imm201 := bitcrop (cmd.imm21.signExtend 32) 1 20
  let imm10110 := bitcrop (cmd.imm21.signExtend 32) 10 1
  let imm111 := bitcrop (cmd.imm21.signExtend 32) 1 11
  let imm1912 := bitcrop (cmd.imm21.signExtend 32) 8 12
  (imm201 <<< 31 ||| imm10110 <<< 21 ||| imm111 <<< 20 ||| imm1912 <<< 12) |||
    (cmd.rd.setWidth 32 <<< 7 ||| cmd.opcode.setWidth 32)

def funcMret : BitVec 7 := 0b0011000
def func3Amow : BitVec 3 := 0b010

/-! ## R-type -/

def asmRType (opcode : BitVec 7) (funct : BitVec 7) (funct3 : BitVec 3) (rd rs1 rs2 : BitVec 32) : BitVec 32 :=
  RType.getValue
    { opcode, funct7 := funct, funct3, rd := rd.setWidth 5, rs1 := rs1.setWidth 5, rs2 := rs2.setWidth 5 }

def asmAdd (rd rs1 rs2 : BitVec 32) : BitVec 32 := asmRType opcodeArithlog funcNorm func3Addsub rd rs1 rs2
def asmAddw (rd rs1 rs2 : BitVec 32) : BitVec 32 := asmRType opcodeArithlog64 funcNorm func3Addsub rd rs1 rs2
def asmSub (rd rs1 rs2 : BitVec 32) : BitVec 32 := asmRType opcodeArithlog funcAlt func3Addsub rd rs1 rs2
def asmSubw (rd rs1 rs2 : BitVec 32) : BitVec 32 := asmRType opcodeArithlog64 funcAlt func3Addsub rd rs1 rs2
def asmAnd (rd rs1 rs2 : BitVec 32) : BitVec 32 := asmRType opcodeArithlog funcNorm func3And rd rs1 rs2
def asmOr (rd rs1 rs2 : BitVec 32) : BitVec 32 := asmRType opcodeArithlog funcNorm func3Or rd rs1 rs2
def asmXor (rd rs1 rs2 : BitVec 32) : BitVec 32 := asmRType opcodeArithlog funcNorm func3Xor rd rs1 rs2
def asmSll (rd rs1 rs2 : BitVec 32) : BitVec 32 := asmRType opcodeArithlog funcNorm func3Sl rd rs1 rs2
def asmSllw (rd rs1 rs2 : BitVec 32) : BitVec 32 := asmRType opcodeArithlog64 funcNorm func3Sl rd rs1 rs2
def asmSrl (rd rs1 rs2 : BitVec 32) : BitVec 32 := asmRType opcodeArithlog funcNorm func3Sr rd rs1 rs2
def asmSrlw (rd rs1 rs2 : BitVec 32) : BitVec 32 := asmRType opcodeArithlog64 funcNorm func3Sr rd rs1 rs2
def asmSra (rd rs1 rs2 : BitVec 32) : BitVec 32 := asmRType opcodeArithlog funcAlt func3Sr rd rs1 rs2
def asmSraw (rd rs1 rs2 : BitVec 32) : BitVec 32 := asmRType opcodeArithlog64 funcAlt func3Sr rd rs1 rs2
def asmSlt (rd rs1 rs2 : BitVec 32) : BitVec 32 := asmRType opcodeArithlog funcNorm func3Slt rd rs1 rs2
def asmSltu (rd rs1 rs2 : BitVec 32) : BitVec 32 := asmRType opcodeArithlog funcNorm func3Sltu rd rs1 rs2

def asmMret : BitVec 32 := asmRType opcodeSystem funcMret func3System 0 0 0b00010

/-- A variation of the R-type: `funct7` holds `funct5`, `aq` and `rl`. -/
def asmAType (opcode : BitVec 7) (funct5 : BitVec 5) (funct3 : BitVec 3) (rd rs1 rs2 aq rl : BitVec 32) : BitVec 32 :=
  let funct7 : BitVec 32 := (funct5.setWidth 32 <<< 2) ||| ((aq &&& 0b1#32) <<< 1) ||| (rl &&& 0b1#32)
  RType.getValue { opcode, funct7 := funct7.setWidth 7, funct3, rd := rd.setWidth 5, rs1 := rs1.setWidth 5,
                   rs2 := rs2.setWidth 5 }

def asmAmoAddd (rd rs1 rs2 aq rl : BitVec 32) : BitVec 32 := asmAType opcodeAmo func5Amoadd func3Amod rd rs1 rs2 aq rl
def asmAmoAddw (rd rs1 rs2 aq rl : BitVec 32) : BitVec 32 := asmAType opcodeAmo func5Amoadd func3Amow rd rs1 rs2 aq rl
def asmAmoAndd (rd rs1 rs2 aq rl : BitVec 32) : BitVec 32 := asmAType opcodeAmo func5Amoand func3Amod rd rs1 rs2 aq rl
def asmAmoAndw (rd rs1 rs2 aq rl : BitVec 32) : BitVec 32 := asmAType opcodeAmo func5Amoand func3Amow rd rs1 rs2 aq rl
def asmAmoMaxd (rd rs1 rs2 aq rl : BitVec 32) : BitVec 32 := asmAType opcodeAmo func5Amomax func3Amod rd rs1 rs2 aq rl
def asmAmoMaxw (rd rs1 rs2 aq rl : BitVec 32) : BitVec 32 := asmAType opcodeAmo func5Amomax func3Amow rd rs1 rs2 aq rl
def asmAmoMaxud (rd rs1 rs2 aq rl : BitVec 32) : BitVec 32 :=
  asmAType opcodeAmo func5Amomaxu func3Amod rd rs1 rs2 aq rl
def asmAmoMaxuw (rd rs1 rs2 aq rl : BitVec 32) : BitVec 32 :=
  asmAType opcodeAmo func5Amomaxu func3Amow rd rs1 rs2 aq rl
def asmAmoMind (rd rs1 rs2 aq rl : BitVec 32) : BitVec 32 := asmAType opcodeAmo func5Amomin func3Amod rd rs1 rs2 aq rl
def asmAmoMinw (rd rs1 rs2 aq rl : BitVec 32) : BitVec 32 := asmAType opcodeAmo func5Amomin func3Amow rd rs1 rs2 aq rl
def asmAmoMinud (rd rs1 rs2 aq rl : BitVec 32) : BitVec 32 :=
  asmAType opcodeAmo func5Amominu func3Amod rd rs1 rs2 aq rl
def asmAmoMinuw (rd rs1 rs2 aq rl : BitVec 32) : BitVec 32 :=
  asmAType opcodeAmo func5Amominu func3Amow rd rs1 rs2 aq rl
def asmAmoOrd (rd rs1 rs2 aq rl : BitVec 32) : BitVec 32 := asmAType opcodeAmo func5Amoor func3Amod rd rs1 rs2 aq rl
def asmAmoOrw (rd rs1 rs2 aq rl : BitVec 32) : BitVec 32 := asmAType opcodeAmo func5Amoor func3Amow rd rs1 rs2 aq rl
def asmAmoSwapd (rd rs1 rs2 aq rl : BitVec 32) : BitVec 32 :=
  asmAType opcodeAmo func5Amoswap func3Amod rd rs1 rs2 aq rl
def asmAmoSwapw (rd rs1 rs2 aq rl : BitVec 32) : BitVec 32 :=
  asmAType opcodeAmo func5Amoswap func3Amow rd rs1 rs2 aq rl
def asmAmoXord (rd rs1 rs2 aq rl : BitVec 32) : BitVec 32 := asmAType opcodeAmo func5Amoxor func3Amod rd rs1 rs2 aq rl
def asmAmoXorw (rd rs1 rs2 aq rl : BitVec 32) : BitVec 32 := asmAType opcodeAmo func5Amoxor func3Amow rd rs1 rs2 aq rl

/-! ## I-type -/

def asmIType (opcode : BitVec 7) (funct3 : BitVec 3) (rd rs1 imm12 : BitVec 32) : BitVec 32 :=
  IType.getValue
    { opcode, funct3, imm12 := (imm12 &&& 0xFFF).setWidth 12, rd := rd.setWidth 5, rs1 := rs1.setWidth 5 }

def asmAddi (rd rs1 imm12 : BitVec 32) : BitVec 32 := asmIType opcodeArithlogI func3Addsub rd rs1 imm12
def asmAddiw (rd rs1 imm12 : BitVec 32) : BitVec 32 := asmIType opcodeArithlogI64 func3Addsub rd rs1 imm12
def asmAndi (rd rs1 imm12 : BitVec 32) : BitVec 32 := asmIType opcodeArithlogI func3And rd rs1 imm12
def asmOri (rd rs1 imm12 : BitVec 32) : BitVec 32 := asmIType opcodeArithlogI func3Or rd rs1 imm12
def asmXori (rd rs1 imm12 : BitVec 32) : BitVec 32 := asmIType opcodeArithlogI func3Xor rd rs1 imm12

/-! A shift amount has six bits. The arithmetic shifts put the top bits of
`FUNC_ALT` above it. -/

def asmSlli (rd rs1 imm12 : BitVec 32) : BitVec 32 :=
  asmIType opcodeArithlogI func3Sl rd rs1 (imm12 &&& 0b0111111#32)

def asmSlliw (rd rs1 imm12 : BitVec 32) : BitVec 32 :=
  asmIType opcodeArithlogI64 func3Sl rd rs1 (imm12 &&& 0b0111111#32)

def asmSrli (rd rs1 imm12 : BitVec 32) : BitVec 32 :=
  asmIType opcodeArithlogI func3Sr rd rs1 (imm12 &&& 0b0111111#32)

def asmSrliw (rd rs1 imm12 : BitVec 32) : BitVec 32 :=
  asmIType opcodeArithlogI64 func3Sr rd rs1 (imm12 &&& 0b0111111#32)

def asmSrai (rd rs1 imm12 : BitVec 32) : BitVec 32 :=
  asmIType opcodeArithlogI func3Sr rd rs1 ((imm12 &&& 0b0111111#32) ||| ((funcAlt.setWidth 32 >>> 1) <<< 6))

def asmSraiw (rd rs1 imm12 : BitVec 32) : BitVec 32 :=
  asmIType opcodeArithlogI64 func3Sr rd rs1 ((imm12 &&& 0b0111111#32) ||| ((funcAlt.setWidth 32 >>> 1) <<< 6))

def asmSlti (rd rs1 imm12 : BitVec 32) : BitVec 32 := asmIType opcodeArithlogI func3Slt rd rs1 imm12
def asmSltiu (rd rs1 imm12 : BitVec 32) : BitVec 32 := asmIType opcodeArithlogI func3Sltu rd rs1 imm12
def asmJalr (rd rs1 offset12 : BitVec 32) : BitVec 32 := asmIType opcodeJalr func3Jalr rd rs1 offset12
def asmEbreak : BitVec 32 := asmIType opcodeSystem func3System 0 0 1
def asmEcall : BitVec 32 := asmIType opcodeSystem func3System 0 0 0
def asmCsrrc (rd rs1 offset12 : BitVec 32) : BitVec 32 := asmIType opcodeSystem func3Csrrc rd rs1 offset12
def asmCsrrci (rd zimm offset12 : BitVec 32) : BitVec 32 := asmIType opcodeSystem func3Csrrci rd zimm offset12
def asmCsrrs (rd rs1 offset12 : BitVec 32) : BitVec 32 := asmIType opcodeSystem func3Csrrs rd rs1 offset12
def asmCsrrsi (rd zimm offset12 : BitVec 32) : BitVec 32 := asmIType opcodeSystem func3Csrrsi rd zimm offset12
def asmCsrrw (rd rs1 offset12 : BitVec 32) : BitVec 32 := asmIType opcodeSystem func3Csrrw rd rs1 offset12
def asmCsrrwi (rd zimm offset12 : BitVec 32) : BitVec 32 := asmIType opcodeSystem func3Csrrwi rd zimm offset12

def asmFence (pred succ : BitVec 32) : Except Crash (BitVec 32) := do
  assert (pred &&& ~~~0xF = 0)
  assert (succ &&& ~~~0xF = 0)
  return asmIType opcodeFence func3Fence 0 0 ((pred <<< 4) ||| succ)

def asmFencei : BitVec 32 := asmIType opcodeFence func3Fencei 0 0 0
def asmLb (rd rs1 offset12 : BitVec 32) : BitVec 32 := asmIType opcodeLd func3Lsb rd rs1 offset12
def asmLbu (rd rs1 offset12 : BitVec 32) : BitVec 32 := asmIType opcodeLd func3Lsbu rd rs1 offset12
def asmLh (rd rs1 offset12 : BitVec 32) : BitVec 32 := asmIType opcodeLd func3Lsh rd rs1 offset12
def asmLhu (rd rs1 offset12 : BitVec 32) : BitVec 32 := asmIType opcodeLd func3Lshu rd rs1 offset12
def asmLw (rd rs1 offset12 : BitVec 32) : BitVec 32 := asmIType opcodeLd func3Lsw rd rs1 offset12
def asmLd (rd rs1 offset12 : BitVec 32) : BitVec 32 := asmIType opcodeLd func3Lsd rd rs1 offset12
def asmLwu (rd rs1 offset12 : BitVec 32) : BitVec 32 := asmIType opcodeLd func3Lswu rd rs1 offset12

/-! ## B-type -/

def asmBType (opcode : BitVec 7) (funct3 : BitVec 3) (rs1 rs2 offset13 : BitVec 32) : BitVec 32 :=
  BType.getValue
    { opcode, funct3, rs1 := rs1.setWidth 5, rs2 := rs2.setWidth 5, imm13 := offset13.setWidth 13 }

def asmBeq (rs1 rs2 offset13 : BitVec 32) : BitVec 32 := asmBType opcodeB func3Beq rs1 rs2 offset13
def asmBge (rs1 rs2 offset13 : BitVec 32) : BitVec 32 := asmBType opcodeB func3Bge rs1 rs2 offset13
def asmBgeu (rs1 rs2 offset13 : BitVec 32) : BitVec 32 := asmBType opcodeB func3Bgeu rs1 rs2 offset13
def asmBlt (rs1 rs2 offset13 : BitVec 32) : BitVec 32 := asmBType opcodeB func3Blt rs1 rs2 offset13
def asmBltu (rs1 rs2 offset13 : BitVec 32) : BitVec 32 := asmBType opcodeB func3Bltu rs1 rs2 offset13
def asmBne (rs1 rs2 offset13 : BitVec 32) : BitVec 32 := asmBType opcodeB func3Bne rs1 rs2 offset13

/-! ## J-type -/

def asmJType (opcode : BitVec 7) (rd offset21 : BitVec 32) : BitVec 32 :=
  JType.getValue { opcode, rd := rd.setWidth 5, imm21 := offset21.setWidth 21 }

def asmJal (rd offset21 : BitVec 32) : BitVec 32 := asmJType opcodeJ rd offset21

/-! ## S-type -/

def asmSType (opcode : BitVec 7) (funct3 : BitVec 3) (rs1 rs2 offset12 : BitVec 32) : BitVec 32 :=
  SType.getValue
    { opcode, funct3, rs2 := rs2.setWidth 5, rs1 := rs1.setWidth 5, imm12 := offset12.setWidth 12 }

def asmSw (rs1 rs2 offset12 : BitVec 32) : BitVec 32 := asmSType opcodeS func3Lsw rs1 rs2 offset12
def asmSh (rs1 rs2 offset12 : BitVec 32) : BitVec 32 := asmSType opcodeS func3Lsh rs1 rs2 offset12
def asmSb (rs1 rs2 offset12 : BitVec 32) : BitVec 32 := asmSType opcodeS func3Lsb rs1 rs2 offset12
def asmSd (rs1 rs2 offset12 : BitVec 32) : BitVec 32 := asmSType opcodeS func3Lsd rs1 rs2 offset12

/-! ## U-type -/

def asmUType (opcode : BitVec 7) (rd imm20 : BitVec 32) : BitVec 32 :=
  UType.getValue { opcode, rd := rd.setWidth 5, imm20 := imm20.setWidth 24 }

def asmLui (rd imm20 : BitVec 32) : BitVec 32 := asmUType opcodeLui rd imm20
def asmAuipc (rd imm20 : BitVec 32) : BitVec 32 := asmUType opcodeAuipc rd imm20

/-! ## Multiplication and division -/

def asmMul (rd rs1 rs2 : BitVec 32) : BitVec 32 := asmRType opcodeArithlog funcMult func3Mul rd rs1 rs2
def asmMulh (rd rs1 rs2 : BitVec 32) : BitVec 32 := asmRType opcodeArithlog funcMult func3Mulh rd rs1 rs2
def asmMulhsu (rd rs1 rs2 : BitVec 32) : BitVec 32 := asmRType opcodeArithlog funcMult func3Mulhsu rd rs1 rs2
def asmMulhu (rd rs1 rs2 : BitVec 32) : BitVec 32 := asmRType opcodeArithlog funcMult func3Mulhu rd rs1 rs2
def asmMulw (rd rs1 rs2 : BitVec 32) : BitVec 32 := asmRType opcodeArithlog64 funcMult func3Mul rd rs1 rs2
def asmDiv (rd rs1 rs2 : BitVec 32) : BitVec 32 := asmRType opcodeArithlog funcMult func3Div rd rs1 rs2
def asmDivu (rd rs1 rs2 : BitVec 32) : BitVec 32 := asmRType opcodeArithlog funcMult func3Divu rd rs1 rs2
def asmDivuw (rd rs1 rs2 : BitVec 32) : BitVec 32 := asmRType opcodeArithlog64 funcMult func3Divu rd rs1 rs2
def asmDivw (rd rs1 rs2 : BitVec 32) : BitVec 32 := asmRType opcodeArithlog64 funcMult func3Div rd rs1 rs2
def asmRem (rd rs1 rs2 : BitVec 32) : BitVec 32 := asmRType opcodeArithlog funcMult func3Rem rd rs1 rs2
def asmRemu (rd rs1 rs2 : BitVec 32) : BitVec 32 := asmRType opcodeArithlog funcMult func3Remu rd rs1 rs2
def asmRemw (rd rs1 rs2 : BitVec 32) : BitVec 32 := asmRType opcodeArithlog64 funcMult func3Rem rd rs1 rs2
def asmRemuw (rd rs1 rs2 : BitVec 32) : BitVec 32 := asmRType opcodeArithlog64 funcMult func3Remu rd rs1 rs2

end RiscvEmulator
