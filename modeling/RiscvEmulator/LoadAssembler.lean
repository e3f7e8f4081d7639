/-
`load_assembler.cc`: the programs of the processor's own tests, put into
memory by the assembler.

`addCmds` is a sequence of calls of `AddCmd`, each at the address the one
before it returns. What it leaves in memory is the table of the words
(`addCmds_fill`), so that the program can be found at its place
(`Holds`). `advance_of_holds` is one step of the architecture in such a
memory.
-/
import RiscvEmulator.AccessFacts
import RiscvEmulator.Assembler
import RiscvEmulator.Isa

namespace RiscvEmulator

open MemoryWrapper (flat flat_add)

/-! ## Programs -/

/-! More of `enum Registers`. -/

def a3 : BitVec 5 := 13
def a4 : BitVec 5 := 14
def a5 : BitVec 5 := 15
def a6 : BitVec 5 := 16

/-- The number of a register as an operand of the assembler. -/
def operand (r : BitVec 5) : BitVec 32 := r.setWidth 32

def addCmd (mem : MemoryWrapper) (address : BitVec 64) (cmd : BitVec 32) :
    Except Crash (MemoryWrapper × BitVec 64) := do
  let mem ← mem.writeByte address ((cmd &&& 0xFF).setWidth 8)
  let mem ← mem.writeByte (address + 1) (((cmd >>> 8) &&& 0xFF).setWidth 8)
  let mem ← mem.writeByte (address + 2) (((cmd >>> 16) &&& 0xFF).setWidth 8)
  let mem ← mem.writeByte (address + 3) (((cmd >>> 24) &&& 0xFF).setWidth 8)
  return (mem, address + 4)

def addCmds (mem : MemoryWrapper) (address : BitVec 64) : List (BitVec 32) → Except Crash (MemoryWrapper × BitVec 64)
  | [] => .ok (mem, address)
  | cmd :: cmds => do
    let (mem, address) ← addCmd mem address cmd
    addCmds mem address cmds

/-- The words that `LoadAssemblerSort` adds. -/
def sortProgram : List (BitVec 32) :=
  [asmAddi (operand a3) (operand a0) 4,
   asmAddi (operand a4) (operand zero) 1,
   -- Outer loop, and the way out of it.
   asmBltu (operand a4) (operand a1) 8,
   asmJalr (operand zero) (operand x1) 0,
   asmLw (operand a6) (operand a3) 0,
   asmAddi (operand a2) (operand a3) 0,
   asmAddi (operand a5) (operand a4) 0,
   -- Inner loop.
   asmLw (operand a7) (operand a2) (-4),
   asmBge (operand a6) (operand a7) 20,
   asmSw (operand a2) (operand a7) 0,
   asmAddi (operand a5) (operand a5) (-1),
   asmAddi (operand a2) (operand a2) (-4),
   asmBne (operand a5) (operand zero) (-20),
   -- After it.
   asmSlli (operand a5) (operand a5) 2,
   asmAdd (operand a5) (operand a0) (operand a5),
   asmSw (operand a5) (operand a6) 0,
   asmAddi (operand a4) (operand a4) 1,
   asmAddi (operand a3) (operand a3) 4,
   asmJal (operand zero) (-64)]

def loadAssemblerSort (mem : MemoryWrapper) (address : BitVec 64) : Except Crash (MemoryWrapper × BitVec 64) :=
  addCmds mem address sortProgram

/-! ## Programs in memory -/

theorem addCmd_bytes (mem : MemoryWrapper) (address : BitVec 64) (cmd : BitVec 32) :
    ∃ mem', addCmd mem address cmd = .ok (mem', address + 4) ∧
      mem'.bytes = Bytes.store mem.bytes (flat address) cmd 4 := by
  have hbyte : ∀ k, ((cmd >>> (8 * k)) &&& 0xFF).setWidth 8 = Bytes.byteOf cmd k := by
    intro k
    apply BitVec.eq_of_getLsbD_eq
    intro i hi
    have hand : ((cmd >>> (8 * k)) &&& 0xFF).getLsbD i = _ := Bits.getLsbD_and_ones (cmd >>> (8 * k)) 8 i
    rw [Bytes.getLsbD_byteOf, BitVec.getLsbD_setWidth, hand, BitVec.getLsbD_ushiftRight]
    simp [hi]
  obtain ⟨m₀, h₀, hb₀⟩ := mem.writeByte_bytes address (Bytes.byteOf cmd 0)
  obtain ⟨m₁, h₁, hb₁⟩ := m₀.writeByte_bytes (address + 1) (Bytes.byteOf cmd 1)
  obtain ⟨m₂, h₂, hb₂⟩ := m₁.writeByte_bytes (address + 2) (Bytes.byteOf cmd 2)
  obtain ⟨m₃, h₃, hb₃⟩ := m₂.writeByte_bytes (address + 3) (Bytes.byteOf cmd 3)
  have hone : ∀ (s : Bytes.Store 32) (x : BitVec 64) (k : Nat),
      Bytes.store s (flat (x + BitVec.ofNat 64 k)) (Bytes.byteOf cmd k) 1 =
        Function.update s (flat x + BitVec.ofNat 32 k) (Bytes.byteOf cmd k) := by
    intro s x k
    rw [flat_add, Bytes.store, Bytes.store, BitVec.add_zero, Bytes.byteOf_byte]
  refine ⟨m₃, ?_, ?_⟩
  · rw [addCmd, show (cmd &&& 0xFF).setWidth 8 = Bytes.byteOf cmd 0 from hbyte 0, h₀, Except.ok_bind,
      show ((cmd >>> 8) &&& 0xFF).setWidth 8 = Bytes.byteOf cmd 1 from hbyte 1, h₁, Except.ok_bind,
      show ((cmd >>> 16) &&& 0xFF).setWidth 8 = Bytes.byteOf cmd 2 from hbyte 2, h₂, Except.ok_bind,
      show ((cmd >>> 24) &&& 0xFF).setWidth 8 = Bytes.byteOf cmd 3 from hbyte 3, h₃]
    rfl
  · have h0 := hone mem.bytes address 0
    rw [BitVec.add_zero] at h0
    rw [hb₃.trans (hone m₂.bytes address 3), hb₂.trans (hone m₁.bytes address 2),
      hb₁.trans (hone m₀.bytes address 1), hb₀, h0]
    rfl

/-- A program in memory is the table of its words. -/
theorem addCmds_fill (mem : MemoryWrapper) (address : BitVec 64) (code : List (BitVec 32)) :
    ∃ mem', addCmds mem address code = .ok (mem', address + BitVec.ofNat 64 (4 * code.length)) ∧
      mem'.bytes = Bytes.fill mem.bytes (flat address) 4 (fun k => code.getD k 0) code.length := by
  induction code generalizing mem address with
  | nil => exact ⟨mem, by simp [addCmds], rfl⟩
  | cons cmd code ih =>
    obtain ⟨m₁, h₁, hb₁⟩ := addCmd_bytes mem address cmd
    obtain ⟨m₂, h₂, hb₂⟩ := ih m₁ (address + 4)
    refine ⟨m₂, ?_, ?_⟩
    · rw [addCmds, h₁, Except.ok_bind]
      dsimp only
      rw [h₂, BitVec.add_assoc, List.length_cons, Nat.mul_succ, Nat.add_comm, BitVec.ofNat_add]
      rfl
    · have hfirst : Bytes.fill mem.bytes (flat address) 4 (fun k => (cmd :: code).getD k 0) 1 = m₁.bytes := by
        rw [hb₁, Bytes.fill, Bytes.fill, BitVec.add_zero]
        rfl
      rw [hb₂, List.length_cons, Nat.add_comm, ← Bytes.fill_append, hfirst, show address + 4 = address +
        BitVec.ofNat 64 4 from rfl, flat_add]
      congr 1
      funext k
      rw [Nat.add_comm]
      rfl

/-- The words of `code` are in the memory from `b` on. -/
def Holds (mem : Bytes.Store 32) (b : BitVec 64) (code : List (BitVec 32)) : Prop :=
  ∀ k < code.length, Bytes.load 32 mem (flat (b + BitVec.ofNat 64 (4 * k))) 4 = code.getD k 0

/-- The bytes that `code` takes up. -/
def codeArea (b : BitVec 64) (code : List (BitVec 32)) : Bytes.Area 32 := (flat b, 4 * code.length)

theorem addCmds_holds {mem mem' : MemoryWrapper} {address e : BitVec 64} {code : List (BitVec 32)}
    (h : addCmds mem address code = .ok (mem', e)) (hlen : 4 * code.length ≤ 2 ^ 32) :
    Holds mem'.bytes address code ∧
      ∀ x, ¬ Bytes.InArea (codeArea address code) x → mem'.bytes x = mem.bytes x := by
  obtain ⟨m, hm, hb⟩ := addCmds_fill mem address code
  rw [hm] at h
  cases h
  refine ⟨fun k hk => ?_, fun x hx => ?_⟩
  · rw [hb, flat_add]
    exact Bytes.load_fill _ _ _ rfl hlen hk
  · rw [hb]
    exact Bytes.fill_of_outside _ _ _ hlen (Nat.le_of_not_lt hx)

/-! ## Addresses -/

section

variable {a : BitVec 64} {o w : Nat}

theorem toNat_flat_add (h : a.toNat + o < 2 ^ 32) : (flat a + BitVec.ofNat 32 o).toNat = a.toNat + o := by
  rw [flat, BitVec.toNat_add, BitVec.toNat_setWidth, BitVec.toNat_ofNat]
  omega

theorem inArea_flat (hn : a.toNat + w ≤ 2 ^ 32) (x : BitVec 32) :
    Bytes.InArea (flat a, w) x ↔ a.toNat ≤ x.toNat ∧ x.toNat < a.toNat + w :=
  Bytes.inArea_ofNat (w := 32) (x := a.toNat) hn x

theorem clear_of_apart (hw : a.toNat + (o + w) ≤ 2 ^ 32)
    (h : a.toNat + (o + w) ≤ 0x200BFF8 ∨ 0x200C000 ≤ a.toNat + o) : Isa.Clear (a + BitVec.ofNat 64 o) w := by
  intro k hk hclock
  have hx := toNat_flat_add (a := a) (o := o + k) (by omega)
  have hclock : Bytes.InArea (flat PeripheralEmulator.kTimerMtime, 8) _ := hclock
  rw [inArea_flat (by decide), flat_add, BitVec.add_assoc, ← BitVec.ofNat_add, hx,
    show PeripheralEmulator.kTimerMtime.toNat = 0x200BFF8 from rfl] at hclock
  omega

end

/-! ## Steps through a program -/

namespace Isa.Hart

variable {h h' : Hart} {b : BitVec 64} {code : List (BitVec 32)} {k : Nat} {d : Decoded}

/-- A word of 32 bits at `pc` is the instruction there. -/
theorem word_of_load {w : BitVec 32} (hw : Bytes.load 32 h.mem (flat h.pc) 4 = w) (h3 : w &&& 0b11 = 0b11) :
    h.word = w ∧ h.size = 4 := by
  rw [load_word] at hw
  have hlow : parcel h.mem h.pc &&& 0b11 = 0b11 := (joined_and_three _ _).mp (hw ▸ h3)
  exact ⟨by rw [word, if_pos hlow]; exact hw, by rw [size, if_pos hlow]⟩

/-- The instruction that the program has at `pc`. -/
theorem decoded_of_holds (hcode : Holds h.mem b code) (hk : k < code.length)
    (hpc : h.pc = b + BitVec.ofNat 64 (4 * k)) (h3 : code.getD k 0 &&& 0b11 = 0b11) :
    h.decoded = decode (code.getD k 0) 2 ∧ h.size = 4 ∧ h.next = b + BitVec.ofNat 64 (4 * (k + 1)) := by
  obtain ⟨hw, hs⟩ := word_of_load (by rw [hpc]; exact hcode k hk) h3
  refine ⟨by rw [decoded, hw], hs, ?_⟩
  rw [next, hs, hpc, BitVec.add_assoc, ← BitVec.ofNat_add]
  rfl

theorem kept_of_holds (hcode : Holds h.mem b code) (hk : k < code.length) (hpc : h.pc = b + BitVec.ofNat 64 (4 * k))
    (h3 : code.getD k 0 &&& 0b11 = 0b11) (heven : b.toNat % 2 = 0) (hclear : Clear (b + BitVec.ofNat 64 (4 * k)) 4)
    (hd : decode (code.getD k 0) 2 = d) (hkept : h.KeptBy d) : h.Kept := by
  obtain ⟨hdec, hsize, -⟩ := decoded_of_holds hcode hk hpc h3
  refine ⟨?_, by rw [hpc, hsize]; exact hclear, by rw [hdec, hd]; exact hkept⟩
  rw [hpc, BitVec.toNat_add, BitVec.toNat_ofNat]
  omega

/-- One step of a program that is in memory. -/
theorem advance_of_holds (hcode : Holds h.mem b code) (hk : k < code.length)
    (hpc : h.pc = b + BitVec.ofNat 64 (4 * k)) (h3 : code.getD k 0 &&& 0b11 = 0b11) (heven : b.toNat % 2 = 0)
    (hclear : Clear (b + BitVec.ofNat 64 (4 * k)) 4) (hd : decode (code.getD k 0) 2 = d) (hkept : h.KeptBy d)
    (hends : d.instruction ≠ .jalr) (hp : h.perform d (b + BitVec.ofNat 64 (4 * (k + 1))) = some h')
    (hne : h'.pc ≠ h.pc) : h.advance = some h' := by
  obtain ⟨hdec, -, hnext⟩ := decoded_of_holds hcode hk hpc h3
  have hjalr : ¬ h.Ends := fun he => hends (hd ▸ hdec ▸ he.1)
  have hstep : h.step = some h' := by rw [step, hdec, hd, hnext, hp]
  rw [advance, if_pos ⟨kept_of_holds hcode hk hpc h3 heven hclear hd hkept, hjalr⟩, hstep]
  simp [hne]

/-- An instruction that neither loads nor divides. -/
theorem keptBy_of_none (hl : loadOf d.instruction = none) (ha : amoOf d.instruction = none)
    (hd : Rv64.isWDivision d.instruction = false) : h.KeptBy d where
  load := by simp [hl]
  amo := by simp [ha]
  division := by simp [hd]

end Isa.Hart

/-! ### Registers -/

namespace Isa.Registers

variable {x : Registers} {rd r : BitVec 5} {v : BitVec 64}

theorem read_write : (x.write rd v).read = Function.update (Function.update x.read rd v) zero 0 := rfl

theorem read_write_update (h : rd ≠ zero) : (x.write rd v).read = Function.update x.read rd v := by
  rw [read_write, Function.update_eq_self_iff, Function.update_of_ne h.symm, x.read_zero]

theorem read_write_same (h : rd ≠ zero) : (x.write rd v).read rd = v := by
  rw [read_write_update h, Function.update_self]

theorem read_write_ne (h : r ≠ rd) : (x.write rd v).read r = x.read r := by
  rw [read_write]
  by_cases hz : r = zero
  · rw [hz, Function.update_self, x.read_zero]
  · rw [Function.update_of_ne hz, Function.update_of_ne h]

theorem write_zero : x.write zero v = x := by
  have hread : (x.write zero v).read = x.read := by
    rw [read_write, Function.update_idem]
    exact Function.update_eq_self_iff.mpr x.read_zero.symm
  cases x
  exact Registers.mk.injEq .. |>.mpr hread

end Isa.Registers

end RiscvEmulator
