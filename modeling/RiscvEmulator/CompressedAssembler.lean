/-
The assembler of the tests: the encoders of 16-bit instructions, but for
those of the floating-point extensions.

Each starts from a word with its opcode and puts its operands into it one
after another. Operands are 32 bits, as `uint32_t` and `int32_t` are; a
signed one is shifted as `int32_t` is.
-/
import RiscvEmulator.Decode

namespace RiscvEmulator

/-- `cmd |= field` for each of the fields. -/
def orInto (cmd : BitVec 16) (fields : List (BitVec 32)) : BitVec 16 :=
  fields.foldl (fun cmd field => (cmd.setWidth 32 ||| field).setWidth 16) cmd

/-! ## Quadrant 2 -/

def asmCAddType (cmd : BitVec 16) (rd rs2 : BitVec 32) : BitVec 16 :=
  orInto cmd [((rd &&& 0x1F) <<< 7) ||| ((rs2 &&& 0x1F) <<< 2)]

def asmCAdd (rd rs2 : BitVec 32) : BitVec 16 := asmCAddType 0b1001000000000010 rd rs2
def asmCMv (rd rs2 : BitVec 32) : BitVec 16 := asmCAddType 0b1000000000000010 rd rs2
def asmCEbreak : BitVec 16 := 0b1001000000000010
def asmCJalr (rs1 : BitVec 32) : BitVec 16 := orInto 0b1001000000000010 [(rs1 &&& 0b011111) <<< 7]
def asmCJr (rs1 : BitVec 32) : BitVec 16 := orInto 0b1000000000000010 [(rs1 &&& 0b011111) <<< 7]

def asmCLdsp (rd uimm : BitVec 32) : BitVec 16 :=
  orInto 0b0110000000000010
    [(rd &&& 0x1F) <<< 7, ((uimm >>> 5) &&& 1) <<< 12, ((uimm >>> 3) &&& 0b11) <<< 5, ((uimm >>> 6) &&& 0b111) <<< 2]

def asmCLwsp (rd uimm : BitVec 32) : BitVec 16 :=
  orInto 0b0100000000000010
    [(rd &&& 0x1F) <<< 7, ((uimm >>> 5) &&& 1) <<< 12, ((uimm >>> 2) &&& 0b111) <<< 4, ((uimm >>> 6) &&& 0b11) <<< 2]

def asmCSdsp (rs2 uimm : BitVec 32) : BitVec 16 :=
  orInto 0b1110000000000010 [(rs2 &&& 0x1F) <<< 2, ((uimm >>> 3) &&& 0b111) <<< 10, ((uimm >>> 6) &&& 0b111) <<< 7]

def asmCSlli (rd uimm : BitVec 32) : BitVec 16 :=
  orInto 0b0000000000000010 [(rd &&& 0x1F) <<< 7, ((uimm >>> 5) &&& 1) <<< 12, (uimm &&& 0b11111) <<< 2]

def asmCSwsp (rs2 uimm : BitVec 32) : BitVec 16 :=
  orInto 0b1100000000000010 [(rs2 &&& 0x1F) <<< 2, ((uimm >>> 2) &&& 0b1111) <<< 9, ((uimm >>> 6) &&& 0b11) <<< 7]

/-! ## Quadrant 1 -/

def asmCAddiType (cmd : BitVec 16) (rd imm : BitVec 32) : BitVec 16 :=
  orInto cmd [(rd &&& 0x1F) <<< 7, ((imm.sshiftRight 5) &&& 1) <<< 12, (imm &&& 0b11111) <<< 2]

def asmCAddi (rd imm : BitVec 32) : BitVec 16 := asmCAddiType 0b0000000000000001 rd imm
def asmCLi (rd imm : BitVec 32) : BitVec 16 := asmCAddiType 0b0100000000000001 rd imm

def asmCAddi16sp (imm : BitVec 32) : BitVec 16 :=
  orInto 0b0110000100000001
    [((imm.sshiftRight 9) &&& 1) <<< 12, ((imm.sshiftRight 5) &&& 1) <<< 2, ((imm.sshiftRight 7) &&& 0b11) <<< 3,
     ((imm.sshiftRight 6) &&& 1) <<< 5, ((imm.sshiftRight 4) &&& 1) <<< 6]

def asmCAddiw (rd imm : BitVec 32) : BitVec 16 :=
  orInto 0b0010000000000001 [(rd &&& 0x1F) <<< 7, ((imm.sshiftRight 5) &&& 1) <<< 12, (imm &&& 0b11111) <<< 2]

def asmCAndType (cmd : BitVec 16) (rd rs2 : BitVec 32) : BitVec 16 :=
  orInto cmd [(rd &&& 0b111) <<< 7, (rs2 &&& 0b111) <<< 2]

def asmCAnd (rd rs2 : BitVec 32) : BitVec 16 := asmCAndType 0b1000110001100001 rd rs2
def asmCAddw (rd rs2 : BitVec 32) : BitVec 16 := asmCAndType 0b1001110000100001 rd rs2
def asmCOr (rd rs2 : BitVec 32) : BitVec 16 := asmCAndType 0b1000110001000001 rd rs2
def asmCSub (rd rs2 : BitVec 32) : BitVec 16 := asmCAndType 0b1000110000000001 rd rs2
def asmCSubw (rd rs2 : BitVec 32) : BitVec 16 := asmCAndType 0b1001110000000001 rd rs2
def asmCXor (rd rs2 : BitVec 32) : BitVec 16 := asmCAndType 0b1000110000100001 rd rs2

def asmCAndiType (cmd : BitVec 16) (rd imm : BitVec 32) : BitVec 16 :=
  orInto cmd [(rd &&& 0b111) <<< 7, ((imm.sshiftRight 5) &&& 1) <<< 12, (imm &&& 0b11111) <<< 2]

def asmCAndi (rd imm : BitVec 32) : BitVec 16 := asmCAndiType 0b1000100000000001 rd imm
def asmCSrai (rd imm : BitVec 32) : BitVec 16 := asmCAndiType 0b1000010000000001 rd imm
def asmCSrli (rd imm : BitVec 32) : BitVec 16 := asmCAndiType 0b1000000000000001 rd imm

def asmCBType (cmd : BitVec 16) (rs1 offset : BitVec 32) : BitVec 16 :=
  orInto cmd
    [(rs1 &&& 0b111) <<< 7, ((offset.sshiftRight 8) &&& 1) <<< 12, ((offset.sshiftRight 3) &&& 0b11) <<< 10,
     ((offset.sshiftRight 6) &&& 0b11) <<< 5, ((offset.sshiftRight 1) &&& 0b11) <<< 3,
     ((offset.sshiftRight 5) &&& 1) <<< 2]

def asmCBeqz (rs1 offset : BitVec 32) : BitVec 16 := asmCBType 0b1100000000000001 rs1 offset
def asmCBnez (rs1 offset : BitVec 32) : BitVec 16 := asmCBType 0b1110000000000001 rs1 offset

def asmCJType (cmd : BitVec 16) (offset : BitVec 32) : BitVec 16 :=
  orInto cmd
    [((offset.sshiftRight 11) &&& 1) <<< 12, ((offset.sshiftRight 4) &&& 1) <<< 11,
     ((offset.sshiftRight 8) &&& 0b11) <<< 9, ((offset.sshiftRight 10) &&& 1) <<< 8,
     ((offset.sshiftRight 6) &&& 1) <<< 7, ((offset.sshiftRight 7) &&& 1) <<< 6,
     ((offset.sshiftRight 1) &&& 0b111) <<< 3, ((offset.sshiftRight 5) &&& 1) <<< 2]

def asmCJ (offset : BitVec 32) : BitVec 16 := asmCJType 0b1010000000000001 offset
def asmCJal (offset : BitVec 32) : BitVec 16 := asmCJType 0b0010000000000001 offset

/-- The register is left out. -/
def asmCLui (_rd imm : BitVec 32) : BitVec 16 :=
  orInto 0b0110000000000001 [((imm.sshiftRight 17) &&& 1) <<< 12, ((imm.sshiftRight 12) &&& 0b11111) <<< 2]

/-! ## Quadrant 0 -/

def asmCAddi4spn (rd uimm : BitVec 32) : BitVec 16 :=
  orInto 0b0000000000000000
    [(rd &&& 0b111) <<< 2, ((uimm >>> 4) &&& 0b11) <<< 11, ((uimm >>> 6) &&& 0b1111) <<< 7,
     ((uimm >>> 2) &&& 0b1) <<< 6, ((uimm >>> 3) &&& 0b1) <<< 5]

def asmCLdType (cmd : BitVec 16) (r4to2 r9to7 uimm : BitVec 32) : BitVec 16 :=
  orInto cmd
    [(r4to2 &&& 0b111) <<< 2, (r9to7 &&& 0b111) <<< 7, ((uimm >>> 3) &&& 0b111) <<< 10, ((uimm >>> 6) &&& 0b11) <<< 5]

def asmCLwType (cmd : BitVec 16) (r4to2 r9to7 uimm : BitVec 32) : BitVec 16 :=
  orInto cmd
    [(r4to2 &&& 0b111) <<< 2, (r9to7 &&& 0b111) <<< 7, ((uimm >>> 3) &&& 0b111) <<< 10, ((uimm >>> 2) &&& 0b1) <<< 6,
     ((uimm >>> 6) &&& 0b1) <<< 5]

def asmCLd (rd rs1 uimm : BitVec 32) : BitVec 16 := asmCLdType 0b0110000000000000 rd rs1 uimm
def asmCLw (rd rs1 uimm : BitVec 32) : BitVec 16 := asmCLwType 0b0100000000000000 rd rs1 uimm
def asmCSd (rs1 rs2 uimm : BitVec 32) : BitVec 16 := asmCLdType 0b1110000000000000 rs2 rs1 uimm
def asmCsw (rs1 rs2 uimm : BitVec 32) : BitVec 16 := asmCLwType 0b1100000000000000 rs2 rs1 uimm

end RiscvEmulator
