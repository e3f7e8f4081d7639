/-
The architecture that the emulator is for when it is not told otherwise:
RV32IMAC without LR, SC and privileged instructions, on one hart whose memory
is all that 32 bits can address.

The emulator has 64-bit registers and a 64-bit `pc` in this mode too.
`Within` says where that does not show: an instruction must not lie, or lead,
across the boundary between the largest and the least signed address.
-/
import RiscvEmulator.Isa
import RiscvEmulator.Rv32

namespace RiscvEmulator

namespace Isa32

/-! ## State -/

/-- The integer registers; `x0` is zero. -/
structure Registers where
  read : BitVec 5 → BitVec 32
  read_zero : read zero = 0

/-- The registers that hold `x`, whatever it has for `x0`. -/
def Registers.of (x : BitVec 5 → BitVec 32) : Registers := ⟨Function.update x zero 0, Function.update_self ..⟩

def Registers.write (x : Registers) (rd : BitVec 5) (v : BitVec 32) : Registers := .of (Function.update x.read rd v)

structure Hart where
  pc : BitVec 32
  x : Registers
  mem : Bytes.Store 32

/-! ## Instructions -/

/-- What an instruction that computes assigns to `rd`. A shift amount that is
too large is reserved. -/
def value (i : Instruction) (x y imm pc : BitVec 32) : Option (BitVec 32) :=
  if Rv32.isImmediateShift i = true ∧ 32 ≤ imm.toNat then none else Rv32.value i x y imm pc

/-- The number of bytes of a load, and whether it extends the sign. -/
def loadOf : Instruction → Option (Nat × Bool)
  | .lb => some (1, true)
  | .lh => some (2, true)
  | .lw => some (4, true)
  | .lbu => some (1, false)
  | .lhu => some (2, false)
  | _ => none

/-- The number of bytes of a store. -/
def storeOf : Instruction → Option Nat
  | .sb => some 1
  | .sh => some 2
  | .sw => some 4
  | _ => none

/-- The operation of an instruction on the word in memory. -/
def amoOf : Instruction → Option Amo
  | .amoaddw => some .add
  | .amoandw => some .and
  | .amoorw => some .or
  | .amoxorw => some .xor
  | .amomaxw => some .max
  | .amomaxuw => some .maxu
  | .amominw => some .min
  | .amominuw => some .minu
  | .amoswapw => some .swap
  | _ => none

/-- The `w` bytes at `a`, extended. -/
def extended (mem : Bytes.Store 32) (a : BitVec 32) (w : Nat) (signed : Bool) : BitVec 32 :=
  if signed then (Bytes.load (8 * w) mem a w).signExtend 32 else (Bytes.load (8 * w) mem a w).setWidth 32

/-! ## Steps -/

namespace Hart

/-- The parcel at `a`. -/
def parcel (h : Hart) (a : BitVec 32) : BitVec 16 := Bytes.load 16 h.mem a 2

/-- The instruction at `pc`: one parcel, or two. -/
def word (h : Hart) : BitVec 32 :=
  if h.parcel h.pc &&& 0b11 = 0b11 then joined (h.parcel h.pc) (h.parcel (h.pc + 2)) else (h.parcel h.pc).setWidth 32

def decoded (h : Hart) : Decoded := decode h.word 1

/-- Its number of bytes. -/
def size (h : Hart) : Nat := if h.parcel h.pc &&& 0b11 = 0b11 then 4 else 2

def next (h : Hart) : BitVec 32 := h.pc + BitVec.ofNat 32 h.size

/-- The effect of a decoded instruction that `next` follows; `none` for an
instruction of the system, of 64 bits or none at all, and for an atomic
operation that is not aligned. -/
def perform (h : Hart) (d : Decoded) (next : BitVec 32) : Option Hart :=
  let x := h.x.read d.rs1
  let y := h.x.read d.rs2
  match d.instruction with
  | .jal => some { h with x := h.x.write d.rd next, pc := h.pc + d.imm }
  | .jalr => some { h with x := h.x.write d.rd next, pc := (x + d.imm) &&& ~~~1 }
  | .fence | .fencei => some { h with pc := next }
  | i =>
    match value i x y d.imm h.pc, Rv32.taken i x y, loadOf i, storeOf i, amoOf i with
    | some v, _, _, _, _ => some { h with x := h.x.write d.rd v, pc := next }
    | _, some b, _, _, _ => some { h with pc := if b then h.pc + d.imm else next }
    | _, _, some (w, signed), _, _ =>
      some { h with x := h.x.write d.rd (extended h.mem (x + d.imm) w signed), pc := next }
    | _, _, _, some w, _ => some { h with mem := Bytes.store h.mem (x + d.imm) y w, pc := next }
    | _, _, _, _, some op =>
      let old := Bytes.load 32 h.mem x 4
      if x.toNat % 4 = 0 then
        some { pc := next, x := h.x.write d.rd old, mem := Bytes.store h.mem x (op.apply old y) 4 }
      else none
    | _, _, _, _, _ => none

def step (h : Hart) : Option Hart := h.perform h.decoded h.next

end Hart

/-! ## What the emulator makes of it -/

/-- A signed address. -/
def InRange (a : Int) : Prop := -0x80000000 ≤ a ∧ a < 0x80000000

instance (a : Int) : Decidable (InRange a) := inferInstanceAs (Decidable (_ ∧ _))

namespace Hart

/-- What the immediate of a jump or a branch is added to. -/
def baseOf (h : Hart) (d : Decoded) : Option (BitVec 32) :=
  match d.instruction with
  | .jal | .beq | .bne | .blt | .bge | .bltu | .bgeu => some h.pc
  | .jalr => some (h.x.read d.rs1)
  | _ => none

-- Without the instance all addresses are tried for the base.
instance (h : Hart) (d : Decoded) : Decidable (∀ a ∈ h.baseOf d, InRange (a.toInt + d.imm.toInt)) :=
  Option.decidableForallMem _

/-- Neither the address that follows nor the target is across the boundary
of the signed addresses, where the emulator's are no sign extensions. -/
structure Within (h : Hart) (d : Decoded) : Prop where
  next : InRange (h.pc.toInt + h.size)
  target : ∀ a ∈ h.baseOf d, InRange (a.toInt + d.imm.toInt)

instance (h : Hart) (d : Decoded) : Decidable (h.Within d) :=
  decidable_of_iff (_ ∧ _) ⟨fun ⟨h₁, h₂⟩ => ⟨h₁, h₂⟩, fun k => ⟨k.next, k.target⟩⟩

/-- A return to address zero, with which a program ends. -/
def EndsBy (h : Hart) (d : Decoded) : Prop :=
  d.instruction = .jalr ∧ d.rd = zero ∧ d.rs1 = ra ∧ h.x.read ra = 0 ∧ d.imm = 0

def Ends (h : Hart) : Prop := h.EndsBy h.decoded

instance (h : Hart) (d : Decoded) : Decidable (h.EndsBy d) := inferInstanceAs (Decidable (_ ∧ _))

instance (h : Hart) : Decidable h.Ends := inferInstanceAs (Decidable (h.EndsBy _))

end Hart

end Isa32

end RiscvEmulator
