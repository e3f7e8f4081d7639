/-
What every part of the emulator shares: the privilege modes, and the ways
the process can end in the middle of an operation.

The emulator is built without `NDEBUG`, so a failed `assert` aborts it; a
thrown exception is never caught; a division trap is a signal; and C++
leaves some operations undefined. An operation that can end so returns
`Except Crash`, and a theorem about its result says that it returns.
-/

namespace RiscvEmulator

inductive PrivilegeMode where
  | userMode
  | supervisorMode
  | machineMode
  deriving DecidableEq, Repr

/-- The general registers. -/
abbrev RegisterFile := BitVec 5 → BitVec 64

/-! Register numbers (`enum Registers`). -/

def zero : BitVec 5 := 0
def ra : BitVec 5 := 1
def x1 : BitVec 5 := 1
def x2 : BitVec 5 := 2
def a0 : BitVec 5 := 10
def a1 : BitVec 5 := 11
def a2 : BitVec 5 := 12
def a7 : BitVec 5 := 17

/-- Ways an operation ends the emulator instead of returning. -/
inductive Crash where
  /-- An `assert` failed. -/
  | assertion
  /-- `std::out_of_range`, thrown by `IntToPrivilegeMode`. -/
  | outOfRange
  /-- An integer division by zero, or of the most negative value by -1. -/
  | divisionTrap
  /-- A negative array size given to `new`. -/
  | badAlloc
  /-- A shift, an arithmetic overflow or an access that C++ leaves undefined. -/
  | undefinedBehaviour
  deriving DecidableEq, Repr

/-- `assert(b)`. -/
def assert (b : Bool) : Except Crash Unit :=
  if b then .ok () else .error .assertion

/-- An operation C++ defines only when `b`. -/
def defined (b : Bool) : Except Crash Unit :=
  if b then .ok () else .error .undefinedBehaviour

theorem assert_bind {α : Type} {b : Bool} (h : b = true) (f : Unit → Except Crash α) : (assert b >>= f) = f () := by
  simp only [assert, h, if_true]; rfl

theorem assert_ok {b : Bool} {u : Unit} (h : assert b = .ok u) : b = true := by
  cases b with
  | true => rfl
  | false => cases h

theorem defined_bind {α : Type} {b : Bool} (h : b = true) (f : Unit → Except Crash α) :
    (defined b >>= f) = f () := by
  simp only [defined, h, if_true]; rfl

end RiscvEmulator
