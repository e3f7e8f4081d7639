/-
The host: the operating system behind the emulated system calls and the
terminal behind the emulated UART.

What the host answers is not the emulator's to decide, so it is a
parameter: each answer may depend on every call made before it. A result is
the C type's bits: `ssize_t` and `off_t` are 64 bits wide, `int` 32.
-/

namespace RiscvEmulator

/-- The flag bits given to `open`, one by one. -/
structure OpenFlags where
  rdwr : Bool
  append : Bool
  cloexec : Bool
  creat : Bool
  direct : Bool
  directory : Bool
  excl : Bool
  noctty : Bool
  nonblock : Bool
  sync : Bool
  trunc : Bool
  deriving DecidableEq, Repr

inductive HostCall where
  | write (fd : BitVec 32) (buffer : List (BitVec 8))
  | read (fd : BitVec 32) (length : Nat)
  | fstat (fd : BitVec 32)
  | close (fd : BitVec 32)
  | openFile (path : List (BitVec 8)) (flags : OpenFlags) (mode : BitVec 64)
  | lseek (fd : BitVec 32) (offset : BitVec 64) (whence : BitVec 32)
  deriving DecidableEq, Repr

/-- The fields of `struct stat` that are converted. -/
structure HostStat where
  dev : BitVec 64
  ino : BitVec 64
  mode : BitVec 32
  nlink : BitVec 64
  uid : BitVec 32
  gid : BitVec 32
  rdev : BitVec 64
  size : BitVec 64
  blksize : BitVec 64
  blocks : BitVec 64
  atim : BitVec 64
  mtim : BitVec 64
  ctim : BitVec 64

/-- What the host answers after the calls in its first argument. `read`
also gives the whole buffer as it is after the call: the bytes past the
result are whatever `new` left there. `fstat` gives the structure, and what
the bytes of the guest's structure were before the conversion. -/
structure Host where
  write : List HostCall → BitVec 32 → List (BitVec 8) → BitVec 64
  read : List HostCall → BitVec 32 → Nat → BitVec 64 × (Nat → BitVec 8)
  fstat : List HostCall → BitVec 32 → BitVec 32 × HostStat × (Nat → BitVec 8)
  close : List HostCall → BitVec 32 → BitVec 32
  openFile : List HostCall → List (BitVec 8) → OpenFlags → BitVec 64 → BitVec 32
  lseek : List HostCall → BitVec 32 → BitVec 64 → BitVec 32 → BitVec 64
  /-- The result of the `n`-th call of `getch`. -/
  getch : Nat → BitVec 32

/-- A host on which every call fails. -/
def Host.failing : Host where
  write _ _ _ := -1
  read _ _ _ := (-1, fun _ => 0)
  fstat _ _ := (-1, ⟨0, 0, 0, 0, 0, 0, 0, 0, 0, 0, 0, 0, 0⟩, fun _ => 0)
  close _ _ := -1
  openFile _ _ _ _ := -1
  lseek _ _ _ _ := -1
  getch _ := -1

end RiscvEmulator
