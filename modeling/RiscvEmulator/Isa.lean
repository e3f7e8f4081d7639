/-
The architecture that the emulator is for: RV64IMAC without LR, SC and
privileged instructions, on one hart with a flat memory.

`Hart` is its state and `step` its semantics, given by the specifications
of the single instructions. Which bits stand for which instruction is
`decode`'s business. `Kept` lists where the emulator does not keep to the
architecture, and `advance` is `step` as far as the emulator goes on after
it.
-/
import RiscvEmulator.AtomicFacts
import RiscvEmulator.FetchFacts
import RiscvEmulator.Rv64I

namespace RiscvEmulator

namespace Isa

open MemoryWrapper (flat)

/-! ## State -/

/-- The integer registers; `x0` is zero. -/
@[ext] structure Registers where
  read : RegisterFile
  read_zero : read zero = 0

/-- The registers that hold `x`, whatever it has for `x0`. -/
def Registers.of (x : RegisterFile) : Registers := ⟨Function.update x zero 0, Function.update_self ..⟩

def Registers.write (x : Registers) (rd : BitVec 5) (v : BitVec 64) : Registers := .of (Function.update x.read rd v)

structure Hart where
  pc : BitVec 64
  x : Registers
  mem : Bytes.Store 32

/-! ## Instructions -/

/-- What an instruction that computes assigns to `rd`, from the operands, the
immediate and its own address. A shift amount that is too large is
reserved. -/
def value (i : Instruction) (x y imm pc : BitVec 64) : Option (BitVec 64) :=
  match i with
  | .slt => some (if x.toInt < y.toInt then 1 else 0)
  | .sltu => some (if x.toNat < y.toNat then 1 else 0)
  | .slti => some (if x.toInt < imm.toInt then 1 else 0)
  | .sltiu => some (if x.toNat < imm.toNat then 1 else 0)
  | .lui => some imm
  | .auipc => some (pc + imm)
  | .mulh => some (BitVec.ofInt 64 (x.toInt * y.toInt / 2 ^ 64))
  | .mulhsu => some (BitVec.ofInt 64 (x.toInt * y.toNat / 2 ^ 64))
  | .mulhu => some (BitVec.ofInt 64 (x.toNat * y.toNat / 2 ^ 64))
  | i =>
    match Rv64.operationOf i, Rv64.immediateOf i, Rv64.shiftOf i with
    | some (op, isW), _, _ => some (op.value isW x y)
    | _, some (op, isW), _ => some (op.value isW x imm)
    | _, _, some (op, isW) => if imm.toNat < Rv64.width isW then some (op.value isW x imm) else none
    | _, _, _ => Rv64.value i x y

/-- Whether a branch is taken. -/
def taken (i : Instruction) (x y : BitVec 64) : Option Bool :=
  match i with
  | .beq => some (x = y)
  | .bne => some (x ≠ y)
  | .blt => some (x.toInt < y.toInt)
  | .bge => some (y.toInt ≤ x.toInt)
  | .bltu => some (x.toNat < y.toNat)
  | .bgeu => some (y.toNat ≤ x.toNat)
  | _ => none

/-- The number of bytes of a load, and whether it extends the sign. -/
def loadOf : Instruction → Option (Nat × Bool)
  | .lb => some (1, true)
  | .lh => some (2, true)
  | .lw => some (4, true)
  | .lbu => some (1, false)
  | .lhu => some (2, false)
  | .lwu => some (4, false)
  | .ld => some (8, false)
  | _ => none

/-- The number of bytes of a store. -/
def storeOf : Instruction → Option Nat
  | .sb => some 1
  | .sh => some 2
  | .sw => some 4
  | .sd => some 8
  | _ => none

/-- The `w` bytes at `a`, extended. -/
def extended (mem : Bytes.Store 32) (a : BitVec 64) (w : Nat) (signed : Bool) : BitVec 64 :=
  if signed then (Bytes.load (8 * w) mem (flat a) w).signExtend 64 else (Bytes.load (8 * w) mem (flat a) w).setWidth 64

/-! ## Steps -/

namespace Hart

/-- The instruction at `pc`: one parcel, or two. -/
def word (h : Hart) : BitVec 32 :=
  let low := parcel h.mem h.pc
  if low &&& 0b11 = 0b11 then joined low (parcel h.mem (h.pc + 2)) else low.setWidth 32

def decoded (h : Hart) : Decoded := decode h.word 2

/-- Its number of bytes. -/
def size (h : Hart) : Nat := if parcel h.mem h.pc &&& 0b11 = 0b11 then 4 else 2

def next (h : Hart) : BitVec 64 := h.pc + BitVec.ofNat 64 h.size

/-- The effect of a decoded instruction that `next` follows; `none` for an
instruction of the system or none at all, and for an atomic operation that
is not aligned. -/
def perform (h : Hart) (d : Decoded) (next : BitVec 64) : Option Hart :=
  let x := h.x.read d.rs1
  let y := h.x.read d.rs2
  let imm := d.imm.signExtend 64
  match d.instruction with
  | .jal => some { h with x := h.x.write d.rd next, pc := h.pc + imm }
  | .jalr => some { h with x := h.x.write d.rd next, pc := (x + imm) &&& ~~~1 }
  | .fence | .fencei => some { h with pc := next }
  | i =>
    match value i x y imm h.pc, taken i x y, loadOf i, storeOf i, amoOf i with
    | some v, _, _, _, _ => some { h with x := h.x.write d.rd v, pc := next }
    | _, some b, _, _, _ => some { h with pc := if b then h.pc + imm else next }
    | _, _, some (w, signed), _, _ =>
      some { h with x := h.x.write d.rd (extended h.mem (x + imm) w signed), pc := next }
    | _, _, _, some w, _ => some { h with mem := Bytes.store h.mem (flat (x + imm)) y w, pc := next }
    | _, _, _, _, some (op, w) =>
      let old := Bytes.load (8 * w) h.mem (flat x) w
      if x.toNat % w = 0 then
        some { pc := next, x := h.x.write d.rd (old.signExtend 64),
               mem := Bytes.store h.mem (flat x) (op.apply old (y.setWidth (8 * w))) w }
      else none
    | _, _, _, _, _ => none

def step (h : Hart) : Option Hart := h.perform h.decoded h.next

end Hart

/-! ## What the emulator makes of it -/

/-- The doubleword in which the emulator shows the time, whatever was stored
there. -/
def clock : Bytes.Area 32 := (flat PeripheralEmulator.kTimerMtime, 8)

/-- None of the `w` bytes at `a` is in it. -/
def Clear (a : BitVec 64) (w : Nat) : Prop := ∀ k < w, ¬ Bytes.InArea clock (flat a + BitVec.ofNat 32 k)

instance (a : BitVec 64) (w : Nat) : Decidable (Clear a w) := inferInstanceAs (Decidable (∀ k < w, _))

namespace Hart

/-- What keeps the execution of an instruction to the architecture: it loads
nothing from the clock, and is no W division by a register that is zero in
its low word only. -/
structure KeptBy (h : Hart) (d : Decoded) : Prop where
  load : ∀ r ∈ loadOf d.instruction, Clear (h.x.read d.rs1 + d.imm.signExtend 64) r.1
  amo : ∀ r ∈ amoOf d.instruction, Clear (h.x.read d.rs1) r.2
  division : Rv64.isWDivision d.instruction = true → h.x.read d.rs2 = 0 ∨ Rv64.low (h.x.read d.rs2) ≠ 0

instance (h : Hart) (d : Decoded) : Decidable (h.KeptBy d) :=
  decidable_of_iff (_ ∧ _ ∧ _) ⟨fun ⟨h₁, h₂, h₃⟩ => ⟨h₁, h₂, h₃⟩, fun k => ⟨k.load, k.amo, k.division⟩⟩

/-- The emulator keeps to the architecture: at an even address, away from the
clock. -/
structure Kept (h : Hart) : Prop where
  even : h.pc.toNat % 2 = 0
  code : Clear h.pc h.size
  data : h.KeptBy h.decoded

instance (h : Hart) : Decidable h.Kept :=
  decidable_of_iff (_ ∧ _ ∧ _) ⟨fun ⟨h₁, h₂, h₃⟩ => ⟨h₁, h₂, h₃⟩, fun k => ⟨k.even, k.code, k.data⟩⟩

/-- A return to address zero, with which a program ends. -/
def EndsBy (h : Hart) (d : Decoded) : Prop :=
  d.instruction = .jalr ∧ d.rd = zero ∧ d.rs1 = ra ∧ h.x.read ra = 0 ∧ d.imm = 0

def Ends (h : Hart) : Prop := h.EndsBy h.decoded

instance (h : Hart) (d : Decoded) : Decidable (h.EndsBy d) := inferInstanceAs (Decidable (_ ∧ _))

instance (h : Hart) : Decidable h.Ends := inferInstanceAs (Decidable (h.EndsBy _))

/-- A step after which the emulator goes on: the program does not end, nor
jump to where it is. -/
def advance (h : Hart) : Option Hart :=
  if h.Kept ∧ ¬ h.Ends then h.step.filter fun h' => h'.pc ≠ h.pc else none

end Hart

end Isa

end RiscvEmulator
