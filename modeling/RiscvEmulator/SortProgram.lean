/-
`LoadAssemblerSort` sorts.

The program sorts the `n` words at `a0` as signed numbers, in the way of
`Lib.Insertion`: the cell that is being inserted is in a register, and its
place in memory is the one at `j`. `Sorting` is what stays through the run;
`Outer`, `Inner` and `Placed` are the states at the heads of the two loops
and after the inner one. With `runLoop_isa` the run of the architecture is
one of the emulator (`runCpu_sort`).
-/
import RiscvEmulator.IsaFacts
import RiscvEmulator.Lib.Insertion
import RiscvEmulator.LoadAssembler

namespace RiscvEmulator

open Isa (Hart)
open Machine (Leads)
open MemoryWrapper (flat flat_add)

/-! ## The program and its data -/

/-- What the words are decoded to. A field that an instruction does not have
is what stands in its bits. -/
def sortDecoded : List Decoded :=
  [⟨.addi, a3, a0, 4, 4⟩, ⟨.addi, a4, zero, 1, 1⟩, ⟨.bltu, 8, a4, a1, 8⟩, ⟨.jalr, zero, ra, 0, 0⟩,
   ⟨.lw, a6, a3, 0, 0⟩, ⟨.addi, a2, a3, 0, 0⟩, ⟨.addi, a5, a4, 0, 0⟩, ⟨.lw, a7, a2, 28, -4⟩,
   ⟨.bge, 20, a6, a7, 20⟩, ⟨.sw, 0, a2, a7, 0⟩, ⟨.addi, a5, a5, 31, -1⟩, ⟨.addi, a2, a2, 28, -4⟩,
   ⟨.bne, 13, a5, zero, -20⟩, ⟨.slli, a5, a5, 2, 2⟩, ⟨.add, a5, a0, a5, 15⟩, ⟨.sw, 0, a5, a6, 0⟩,
   ⟨.addi, a4, a4, 1, 1⟩, ⟨.addi, a3, a3, 4, 4⟩, ⟨.jal, zero, 31, 1, -64⟩]

theorem decode_sortProgram : ∀ k < 19, sortProgram.getD k 0 &&& 0b11 = 0b11 ∧
    some (decode (sortProgram.getD k 0) 2) = sortDecoded[k]? := by decide +kernel

/-- The program at `b` and the `n` words at `a` are in the memory, apart from
each other and from the clock. -/
structure SortLayout (b a : BitVec 64) (n : Nat) : Prop where
  even : b.toNat % 2 = 0
  code : b.toNat + 76 ≤ 2 ^ 32
  cells : a.toNat + 4 * n ≤ 2 ^ 32
  apart : b.toNat + 76 ≤ a.toNat ∨ a.toNat + 4 * n ≤ b.toNat
  codeClock : b.toNat + 76 ≤ 0x200BFF8 ∨ 0x200C000 ≤ b.toNat
  cellsClock : a.toNat + 4 * n ≤ 0x200BFF8 ∨ 0x200C000 ≤ a.toNat

/-- The words at `a`. -/
def cells (mem : Bytes.Store 32) (a : BitVec 64) (k : Nat) : BitVec 32 :=
  Bytes.load 32 mem (flat (a + BitVec.ofNat 64 (4 * k))) 4

/-- Storing a word sets its cell. -/
theorem cells_store {mem : Bytes.Store 32} {a : BitVec 64} {n k j : Nat} (v : BitVec 64) (hn : 4 * n ≤ 2 ^ 32)
    (hk : k < n) (hj : j < n) :
    cells (Bytes.store mem (flat (a + BitVec.ofNat 64 (4 * j))) v 4) a k =
      if k = j then v.setWidth 32 else cells mem a k := by
  rw [cells, ← Bytes.store_setWidth (m := 32) _ _ v (by decide)]
  split
  · next h =>
    subst h
    exact Bytes.load_store _ _ _ rfl (by decide)
  · next h =>
    rw [cells, flat_add, flat_add]
    exact Bytes.load_store_of_apart _ _ _ (by omega) (by omega) (by omega)

section

variable {b a : BitVec 64} {n : Nat} {mem : Bytes.Store 32} {h h' : Hart} {k : Nat} {d : Decoded}
  {P : Hart → Prop}

/-- What stays as it is while the program runs: its arguments, and the memory
but for the cells. -/
structure Sorting (b a : BitVec 64) (n : Nat) (mem : Bytes.Store 32) (k : Nat) (h : Hart) : Prop where
  pc : h.pc = b + BitVec.ofNat 64 (4 * k)
  link : h.x.read ra = 0
  base : h.x.read a0 = a
  count : h.x.read a1 = BitVec.ofNat 64 n
  outside : ∀ x, ¬ Bytes.InArea (flat a, 4 * n) x → h.mem x = mem x

theorem SortLayout.clear_code (L : SortLayout b a n) (hk : k < 19) : Isa.Clear (b + BitVec.ofNat 64 (4 * k)) 4 := by
  have := L.code
  have := L.codeClock
  exact clear_of_apart (by omega) (by omega)

theorem SortLayout.clear_cell (L : SortLayout b a n) (hk : k < n) : Isa.Clear (a + BitVec.ofNat 64 (4 * k)) 4 := by
  have := L.cells
  have := L.cellsClock
  exact clear_of_apart (by omega) (by omega)

/-- The program is still there. -/
theorem Sorting.holds (S : Sorting b a n mem k h) (L : SortLayout b a n) (hcode : Holds mem b sortProgram) :
    Holds h.mem b sortProgram := by
  intro i hi
  rw [← hcode i hi]
  refine Bytes.load_congr fun j hj => S.outside _ ?_
  have hlen : sortProgram.length = 19 := rfl
  have := L.code
  have := L.apart
  have hx := toNat_flat_add (a := b) (o := 4 * i + j) (by omega)
  rw [inArea_flat L.cells, flat_add, BitVec.add_assoc, ← BitVec.ofNat_add, hx]
  omega

/-- One instruction of the program, which is no return. -/
theorem Sorting.next {t : Nat} (S : Sorting b a n mem k h) (L : SortLayout b a n) (hcode : Holds mem b sortProgram)
    (hd : sortDecoded[k]? = some d) (hkept : h.KeptBy d) (hends : d.instruction ≠ .jalr)
    (hp : h.perform d (b + BitVec.ofNat 64 (4 * (k + 1))) = some h') (hpc : h'.pc = b + BitVec.ofNat 64 (4 * t))
    (hne : t ≠ k) (ht : t < 19) (hP : Leads Hart.advance h' P) : Leads Hart.advance h P := by
  have hk : k < 19 := (List.getElem?_eq_some_iff.mp hd).1
  obtain ⟨h3, hdec⟩ := decode_sortProgram k hk
  refine .next (Hart.advance_of_holds (S.holds L hcode) hk S.pc h3 L.even (L.clear_code hk)
    (Option.some.inj (hdec.trans hd)) hkept hends hp fun he => hne ?_) hP
  rw [hpc, S.pc, BitVec.add_right_inj] at he
  have := congrArg BitVec.toNat he
  rw [BitVec.toNat_ofNat, BitVec.toNat_ofNat] at this
  omega

/-- The registers that the program does not write. -/
def isArgument (r : BitVec 5) : Bool := r = ra ∨ r = a0 ∨ r = a1

/-- An instruction that sets a register. -/
theorem Sorting.write {v : BitVec 64} (S : Sorting b a n mem k h) (L : SortLayout b a n)
    (hcode : Holds mem b sortProgram) (hd : sortDecoded[k]? = some d) (hkept : h.KeptBy d)
    (hends : d.instruction ≠ .jalr) (hrd : isArgument d.rd = false) (hk : k < 18)
    (hp : h.perform d (b + BitVec.ofNat 64 (4 * (k + 1))) =
      some { h with x := h.x.write d.rd v, pc := b + BitVec.ofNat 64 (4 * (k + 1)) })
    (hP : ∀ h', Sorting b a n mem (k + 1) h' → h'.x = h.x.write d.rd v → h'.mem = h.mem → Leads Hart.advance h' P) :
    Leads Hart.advance h P := by
  have hne : ∀ r, isArgument r = true → r ≠ d.rd := by
    rintro r hr rfl
    rw [hr] at hrd
    cases hrd
  have hread : ∀ r, isArgument r = true → (h.x.write d.rd v).read r = h.x.read r :=
    fun r hr => Isa.Registers.read_write_ne (hne r hr)
  exact S.next L hcode hd hkept hends hp rfl (by omega) (by omega) (hP _ ⟨rfl, (hread _ (by decide)).trans S.link,
    (hread _ (by decide)).trans S.base, (hread _ (by decide)).trans S.count, S.outside⟩ rfl rfl)

/-- A branch, or a jump that links to `zero`. -/
theorem Sorting.branch {t : Nat} {x : Isa.Registers} {p : BitVec 64} (S : Sorting b a n mem k h) (L : SortLayout b a n)
    (hcode : Holds mem b sortProgram) (hd : sortDecoded[k]? = some d) (hkept : h.KeptBy d)
    (hends : d.instruction ≠ .jalr) (hne : t ≠ k) (ht : t < 19)
    (hp : h.perform d (b + BitVec.ofNat 64 (4 * (k + 1))) = some { h with x := x, pc := p })
    (hpc : p = b + BitVec.ofNat 64 (4 * t)) (hx : x = h.x)
    (hP : ∀ h', Sorting b a n mem t h' → h'.x = h.x → h'.mem = h.mem → Leads Hart.advance h' P) :
    Leads Hart.advance h P := by
  subst hx
  exact S.next L hcode hd hkept hends hp hpc hne ht (hP _ ⟨hpc, S.link, S.base, S.count, S.outside⟩ rfl rfl)

/-- A word stored in a cell. -/
theorem Sorting.store {j : Nat} {v : BitVec 64} (S : Sorting b a n mem k h) (L : SortLayout b a n)
    (hcode : Holds mem b sortProgram) (hd : sortDecoded[k]? = some d) (hkept : h.KeptBy d)
    (hends : d.instruction ≠ .jalr) (hk : k < 18) (hj : j < n)
    (hp : h.perform d (b + BitVec.ofNat 64 (4 * (k + 1))) =
      some { h with mem := Bytes.store h.mem (flat (a + BitVec.ofNat 64 (4 * j))) v 4
                    pc := b + BitVec.ofNat 64 (4 * (k + 1)) })
    (hP : ∀ h', Sorting b a n mem (k + 1) h' → h'.x = h.x →
      (∀ i < n, cells h'.mem a i = if i = j then v.setWidth 32 else cells h.mem a i) → Leads Hart.advance h' P) :
    Leads Hart.advance h P := by
  have hcells := L.cells
  refine S.next L hcode hd hkept hends hp rfl (by omega) (by omega) (hP _ ⟨rfl, S.link, S.base, S.count, ?_⟩ rfl
    fun i hi => cells_store v (by omega) hi hj)
  intro x hx
  refine (Bytes.store_of_outside _ _ _ (by decide) fun hin => hx ?_).trans (S.outside x hx)
  have hplace := toNat_flat_add (a := a) (o := 4 * j) (by omega)
  rw [inArea_flat L.cells]
  rw [flat_add, show flat a + BitVec.ofNat 32 (4 * j) = BitVec.ofNat 32 (a.toNat + 4 * j) by
    rw [← hplace, BitVec.ofNat_toNat, BitVec.setWidth_eq], Bytes.inArea_ofNat (by omega)] at hin
  omega

/-! ## The loops -/

/-- The cells of `v` are those there were at first, in some order. -/
def Permuted (a : BitVec 64) (n : Nat) (mem : Bytes.Store 32) (v : Nat → BitVec 32) : Prop :=
  ((List.range n).map v).Perm ((List.range n).map (cells mem a))

/-- At the head of the outer loop: the cells below `i` are in order. -/
structure Outer (b a : BitVec 64) (n : Nat) (mem : Bytes.Store 32) (i : Nat) (h : Hart) : Prop where
  sorting : Sorting b a n mem 2 h
  index : h.x.read a4 = BitVec.ofNat 64 i
  place : h.x.read a3 = a + BitVec.ofNat 64 (4 * i)
  sorted : Insertion.SortedBelow BitVec.toInt (cells h.mem a) i
  perm : Permuted a n mem (cells h.mem a)

/-- The cell at `j` is in `a6`, and its place is free. -/
structure Inserting (a : BitVec 64) (n : Nat) (mem : Bytes.Store 32) (i j : Nat) (v : Nat → BitVec 32) (h : Hart) :
    Prop where
  index : h.x.read a4 = BitVec.ofNat 64 i
  place : h.x.read a3 = a + BitVec.ofNat 64 (4 * i)
  hole : h.x.read a5 = BitVec.ofNat 64 j
  value : h.x.read a6 = (v j).signExtend 64
  others : ∀ k < n, k ≠ j → cells h.mem a k = v k
  perm : Permuted a n mem v

/-- At the head of the inner loop. -/
structure Inner (b a : BitVec 64) (n : Nat) (mem : Bytes.Store 32) (i j : Nat) (v : Nat → BitVec 32) (h : Hart) :
    Prop where
  sorting : Sorting b a n mem 7 h
  inserting : Inserting a n mem i j v h
  pointer : h.x.read a2 = a + BitVec.ofNat 64 (4 * j)
  sorted : Insertion.SortedBut BitVec.toInt v i j

/-- At the branch in it: the cell below the hole is in `a7`. -/
structure Compared (b a : BitVec 64) (n : Nat) (mem : Bytes.Store 32) (i j : Nat) (v : Nat → BitVec 32) (h : Hart) :
    Prop where
  sorting : Sorting b a n mem 8 h
  inserting : Inserting a n mem i (j + 1) v h
  pointer : h.x.read a2 = a + BitVec.ofNat 64 (4 * (j + 1))
  below : h.x.read a7 = (v j).signExtend 64
  sorted : Insertion.SortedBut BitVec.toInt v i (j + 1)

/-- At its end: the hole has gone down to `j`. -/
structure Lowered (b a : BitVec 64) (n : Nat) (mem : Bytes.Store 32) (i j : Nat) (v : Nat → BitVec 32) (h : Hart) :
    Prop where
  sorting : Sorting b a n mem 12 h
  inserting : Inserting a n mem i j v h
  pointer : h.x.read a2 = a + BitVec.ofNat 64 (4 * j)
  sorted : Insertion.SortedBut BitVec.toInt v i j

/-- After it. -/
structure Placed (b a : BitVec 64) (n : Nat) (mem : Bytes.Store 32) (i j : Nat) (v : Nat → BitVec 32) (h : Hart) :
    Prop where
  sorting : Sorting b a n mem 13 h
  inserting : Inserting a n mem i j v h
  sorted : Insertion.SortedBelow BitVec.toInt v (i + 1)

/-- The two instructions before the loops. -/
theorem outer_start (L : SortLayout b a n) (hcode : Holds mem b sortProgram) (S : Sorting b a n mem 0 h)
    (hmem : h.mem = mem) : Leads Hart.advance h (Outer b a n mem 1) := by
  refine S.write L hcode rfl (Hart.keptBy_of_none rfl rfl rfl) nofun rfl (by decide) rfl fun h₁ S₁ hx₁ hm₁ => ?_
  refine S₁.write L hcode rfl (Hart.keptBy_of_none rfl rfl rfl) nofun rfl (by decide) rfl fun h₂ S₂ hx₂ hm₂ => ?_
  refine .done ⟨S₂, ?_, ?_, .one, ?_⟩
  · simp (disch := decide) only [hx₂, Isa.Registers.read_write_same]
    rw [h₁.x.read_zero]
    rfl
  · simp (disch := decide) only [hx₂, hx₁, Isa.Registers.read_write_same, Isa.Registers.read_write_ne, S.base]
    rfl
  · rw [hm₂, hm₁, hmem]
    exact .refl _

/-- Where a jump by `v` leads. -/
theorem Sorting.target {t : Nat} {v : BitVec 64} (S : Sorting b a n mem k h)
    (hv : BitVec.ofNat 64 (4 * k) + v = BitVec.ofNat 64 (4 * t)) : h.pc + v = b + BitVec.ofNat 64 (4 * t) := by
  rw [S.pc, BitVec.add_assoc, hv]

/-- The cell `i` is taken out. -/
theorem outer_body {i : Nat} (L : SortLayout b a n) (hcode : Holds mem b sortProgram) (I : Outer b a n mem i h)
    (hi : i < n) : Leads Hart.advance h (Inner b a n mem i i (cells h.mem a)) := by
  have hcells := L.cells
  have hlt : (h.x.read a4).toNat < (h.x.read a1).toNat := by
    rw [I.index, I.sorting.count, BitVec.toNat_ofNat, BitVec.toNat_ofNat]
    omega
  refine I.sorting.branch (t := 4) L hcode rfl (Hart.keptBy_of_none rfl rfl rfl) nofun (by decide) (by decide) rfl
    ?_ rfl fun h₁ S₁ hx₁ hm₁ => ?_
  · rw [decide_eq_true hlt, if_pos rfl]
    exact I.sorting.target rfl
  have haddr : h₁.x.read a3 + (0 : BitVec 32).signExtend 64 = a + BitVec.ofNat 64 (4 * i) := by
    rw [hx₁, I.place]
    exact BitVec.add_zero _
  refine S₁.write L hcode rfl ⟨?_, nofun, nofun⟩ nofun rfl (by decide) rfl fun h₂ S₂ hx₂ hm₂ => ?_
  · rintro r ⟨⟩
    exact haddr ▸ L.clear_cell hi
  refine S₂.write L hcode rfl (Hart.keptBy_of_none rfl rfl rfl) nofun rfl (by decide) rfl fun h₃ S₃ hx₃ hm₃ => ?_
  refine S₃.write L hcode rfl (Hart.keptBy_of_none rfl rfl rfl) nofun rfl (by decide) rfl fun h₄ S₄ hx₄ hm₄ => ?_
  have hmem : h₄.mem = h.mem := by rw [hm₄, hm₃, hm₂, hm₁]
  refine .done ⟨S₄, ⟨?_, ?_, ?_, ?_, fun k _ _ => by rw [hmem], I.perm⟩, ?_, I.sorted.insert⟩
  all_goals simp (disch := decide) only [hx₄, hx₃, hx₂, hx₁, Isa.Registers.read_write_same, Isa.Registers.read_write_ne]
  · exact I.index
  · exact I.place
  · rw [I.index]
    exact BitVec.add_zero _
  · rw [hx₁] at haddr
    rw [haddr, hm₁]
    rfl
  · rw [I.place]
    exact BitVec.add_zero _

/-- The cell before the hole is moved up into it. -/
theorem Inserting.swap {i j : Nat} {v : Nat → BitVec 32} (I : Inserting a n mem i (j + 1) v h) (hj : j + 1 < n)
    (hindex : h'.x.read a4 = h.x.read a4) (hplace : h'.x.read a3 = h.x.read a3)
    (hhole : h'.x.read a5 = BitVec.ofNat 64 j) (hvalue : h'.x.read a6 = h.x.read a6)
    (hcells : ∀ k < n, cells h'.mem a k = if k = j + 1 then v j else cells h.mem a k) :
    Inserting a n mem i j (v ∘ Equiv.swap j (j + 1)) h' where
  index := hindex.trans I.index
  place := hplace.trans I.place
  hole := hhole
  value := by rw [hvalue, I.value, Function.comp, Equiv.swap_apply_left]
  others := by
    intro k hk hne
    rw [hcells k hk]
    by_cases hk1 : k = j + 1
    · rw [if_pos hk1, hk1, Function.comp, Equiv.swap_apply_right]
    · rw [if_neg hk1, Function.comp, Equiv.swap_apply_of_ne_of_ne hne hk1]
      exact I.others k hk hk1
  perm := (Insertion.perm_swap v (by omega) hj).trans I.perm

/-- The registers it is about, and the memory. -/
theorem Inserting.congr {i j : Nat} {v : Nat → BitVec 32} (I : Inserting a n mem i j v h)
    (hindex : h'.x.read a4 = h.x.read a4) (hplace : h'.x.read a3 = h.x.read a3) (hhole : h'.x.read a5 = h.x.read a5)
    (hvalue : h'.x.read a6 = h.x.read a6) (hm : h'.mem = h.mem) : Inserting a n mem i j v h' :=
  ⟨hindex.trans I.index, hplace.trans I.place, hhole.trans I.hole, hvalue.trans I.value, hm ▸ I.others, I.perm⟩

/-- A jump changes nothing of it. -/
theorem Inserting.jump {i j : Nat} {v : Nat → BitVec 32} (I : Inserting a n mem i j v h) (hx : h'.x = h.x)
    (hm : h'.mem = h.mem) : Inserting a n mem i j v h' :=
  I.congr (by rw [hx]) (by rw [hx]) (by rw [hx]) (by rw [hx]) hm

/-- The pointer goes down by a cell. -/
theorem pointer_down (x : BitVec 64) (j : Nat) : x + BitVec.ofNat 64 (4 * (j + 1)) + (-4 : BitVec 32).signExtend 64 =
    x + BitVec.ofNat 64 (4 * j) := by
  have hzero : BitVec.ofNat 64 4 + (-4 : BitVec 32).signExtend 64 = 0#64 := by decide
  rw [Nat.mul_succ, BitVec.ofNat_add, BitVec.add_assoc, BitVec.add_assoc, hzero, BitVec.add_zero]

theorem index_down (j : Nat) : BitVec.ofNat 64 (j + 1) + (-1 : BitVec 32).signExtend 64 = BitVec.ofNat 64 j := by
  have hzero : BitVec.ofNat 64 1 + (-1 : BitVec 32).signExtend 64 = 0#64 := by decide
  rw [BitVec.ofNat_add, BitVec.add_assoc, hzero, BitVec.add_zero]

/-- The cell below the hole is read. -/
theorem inner_compare {i j : Nat} {v : Nat → BitVec 32} (L : SortLayout b a n) (hcode : Holds mem b sortProgram)
    (I : Inner b a n mem i (j + 1) v h) (hj : j + 1 ≤ i) (hi : i < n) :
    Leads Hart.advance h (Compared b a n mem i j v) := by
  have haddr : h.x.read a2 + (-4 : BitVec 32).signExtend 64 = a + BitVec.ofNat 64 (4 * j) := by
    rw [I.pointer, pointer_down]
  refine I.sorting.write L hcode rfl ⟨?_, nofun, nofun⟩ nofun rfl (by decide) rfl fun h₁ S₁ hx₁ hm₁ => ?_
  · rintro r ⟨⟩
    show Isa.Clear (h.x.read a2 + (-4 : BitVec 32).signExtend 64) 4
    rw [haddr]
    exact L.clear_cell (by omega)
  have hread : ∀ r, r ≠ a7 → h₁.x.read r = h.x.read r := by
    intro r hr
    rw [hx₁]
    exact Isa.Registers.read_write_ne hr
  refine .done ⟨S₁, ?_, (hread a2 (by decide)).trans I.pointer, ?_, I.sorted⟩
  · exact I.inserting.congr (hread a4 (by decide)) (hread a3 (by decide)) (hread a5 (by decide))
      (hread a6 (by decide)) hm₁
  · simp (disch := decide) only [hx₁, Isa.Registers.read_write_same]
    rw [haddr, ← I.inserting.others j (by omega) (by omega)]
    rfl

/-- What the branch compares. -/
theorem Compared.le_iff {i j : Nat} {v : Nat → BitVec 32} (C : Compared b a n mem i j v h) :
    (h.x.read a7).toInt ≤ (h.x.read a6).toInt ↔ (v j).toInt ≤ (v (j + 1)).toInt := by
  rw [C.below, C.inserting.value, RiscvCpu.toInt_wide, RiscvCpu.toInt_wide]

/-- It is not greater: the cell that is inserted stays where it is. -/
theorem inner_stays {i j : Nat} {v : Nat → BitVec 32} (L : SortLayout b a n) (hcode : Holds mem b sortProgram)
    (C : Compared b a n mem i j v h) (hle : (v j).toInt ≤ (v (j + 1)).toInt) :
    Leads Hart.advance h (Placed b a n mem i (j + 1) v) := by
  refine C.sorting.branch (t := 13) L hcode rfl (Hart.keptBy_of_none rfl rfl rfl) nofun (by decide) (by decide) rfl
    ?_ rfl fun h₁ S₁ hx₁ hm₁ => ?_
  · rw [decide_eq_true (C.le_iff.mpr hle), if_pos rfl]
    exact C.sorting.target rfl
  · refine .done ⟨S₁, C.inserting.jump hx₁ hm₁, C.sorted.close ?_⟩
    rintro k hk
    cases hk
    exact hle

/-- It is: it moves up into the hole. -/
theorem inner_moves {i j : Nat} {v : Nat → BitVec 32} (L : SortLayout b a n) (hcode : Holds mem b sortProgram)
    (C : Compared b a n mem i j v h) (hj : j + 1 ≤ i) (hi : i < n) (hlt : (v (j + 1)).toInt < (v j).toInt) :
    Leads Hart.advance h (Lowered b a n mem i j (v ∘ Equiv.swap j (j + 1))) := by
  have hcells := L.cells
  refine C.sorting.branch (t := 9) L hcode rfl (Hart.keptBy_of_none rfl rfl rfl) nofun (by decide) (by decide) rfl
    ?_ rfl fun h₁ S₁ hx₁ hm₁ => ?_
  · rw [decide_eq_false (mt C.le_iff.mp (Int.not_le.mpr hlt))]
    rfl
  have hptr : h₁.x.read a2 + (0 : BitVec 32).signExtend 64 = a + BitVec.ofNat 64 (4 * (j + 1)) := by
    rw [hx₁, C.pointer]
    exact BitVec.add_zero _
  refine S₁.store (j := j + 1) (v := h₁.x.read a7) L hcode rfl (Hart.keptBy_of_none rfl rfl rfl) nofun (by decide)
    (by omega) (by rw [← hptr]; rfl) fun h₂ S₂ hx₂ hm₂ => ?_
  refine S₂.write L hcode rfl (Hart.keptBy_of_none rfl rfl rfl) nofun rfl (by decide) rfl fun h₃ S₃ hx₃ hm₃ => ?_
  refine S₃.write L hcode rfl (Hart.keptBy_of_none rfl rfl rfl) nofun rfl (by decide) rfl fun h₄ S₄ hx₄ hm₄ => ?_
  refine .done ⟨S₄, C.inserting.swap (by omega) ?_ ?_ ?_ ?_ fun k hk => ?_, ?_, C.sorted.swap hj hlt⟩
  · simp (disch := decide) only [hx₄, hx₃, hx₂, hx₁, Isa.Registers.read_write_ne]
  · simp (disch := decide) only [hx₄, hx₃, hx₂, hx₁, Isa.Registers.read_write_ne]
  · simp (disch := decide) only [hx₄, hx₃, hx₂, hx₁, Isa.Registers.read_write_same, Isa.Registers.read_write_ne]
    rw [C.inserting.hole]
    exact index_down j
  · simp (disch := decide) only [hx₄, hx₃, hx₂, hx₁, Isa.Registers.read_write_ne]
  · rw [hm₄, hm₃, hm₂ k hk, hm₁, hx₁, C.below, RiscvCpu.narrow]
  · simp (disch := decide) only [hx₄, hx₃, hx₂, hx₁, Isa.Registers.read_write_same, Isa.Registers.read_write_ne]
    rw [C.pointer]
    exact pointer_down a j

/-- There is no cell below the first. -/
theorem inner_again {i j : Nat} {v : Nat → BitVec 32} (L : SortLayout b a n) (hcode : Holds mem b sortProgram)
    (I : Lowered b a n mem i j v h) (hj : j < n) :
    Leads Hart.advance h fun t => Placed b a n mem i j v t ∨ (0 < j ∧ Inner b a n mem i j v t) := by
  have hcells := L.cells
  have hzero : h.x.read a5 = h.x.read zero ↔ j = 0 := by
    rw [I.inserting.hole, h.x.read_zero, ← BitVec.toNat_inj, BitVec.toNat_ofNat]
    show j % 2 ^ 64 = 0 ↔ j = 0
    omega
  by_cases hj0 : j = 0
  · refine I.sorting.branch (t := 13) L hcode rfl (Hart.keptBy_of_none rfl rfl rfl) nofun (by decide) (by decide) rfl
      ?_ rfl fun h₁ S₁ hx₁ hm₁ => ?_
    · rw [decide_eq_false (not_not.mpr (hzero.mpr hj0))]
      rfl
    · exact .done (.inl ⟨S₁, I.inserting.jump hx₁ hm₁, I.sorted.close fun k hk => by omega⟩)
  · refine I.sorting.branch (t := 7) L hcode rfl (Hart.keptBy_of_none rfl rfl rfl) nofun (by decide) (by decide) rfl
      ?_ rfl fun h₁ S₁ hx₁ hm₁ => ?_
    · have hne : h.x.read a5 ≠ h.x.read zero := fun he => hj0 (hzero.mp he)
      rw [decide_eq_true hne, if_pos rfl]
      exact I.sorting.target rfl
    · exact .done (.inr ⟨by omega, S₁, I.inserting.jump hx₁ hm₁, by rw [hx₁]; exact I.pointer, I.sorted⟩)

/-- The cell finds its place, or goes down by one. -/
theorem inner_body {i j : Nat} {v : Nat → BitVec 32} (L : SortLayout b a n) (hcode : Holds mem b sortProgram)
    (I : Inner b a n mem i (j + 1) v h) (hj : j + 1 ≤ i) (hi : i < n) :
    Leads Hart.advance h fun t =>
      (∃ k w, k ≤ i ∧ Placed b a n mem i k w t) ∨ (0 < j ∧ ∃ w, Inner b a n mem i j w t) := by
  refine (inner_compare L hcode I hj hi).trans fun t C => ?_
  by_cases hle : (v j).toInt ≤ (v (j + 1)).toInt
  · exact (inner_stays L hcode C hle).mono fun u hu => .inl ⟨j + 1, v, hj, hu⟩
  · refine (inner_moves L hcode C hj hi (Int.not_le.mp hle)).trans fun u hu => ?_
    refine (inner_again L hcode hu (by omega)).mono fun w hw => ?_
    rcases hw with hplaced | ⟨h0, hinner⟩
    · exact .inl ⟨j, _, by omega, hplaced⟩
    · exact .inr ⟨h0, _, hinner⟩

/-- The inner loop. -/
theorem inner_loop {i : Nat} {v : Nat → BitVec 32} (L : SortLayout b a n) (hcode : Holds mem b sortProgram)
    (I : Inner b a n mem i i v h) (h1 : 1 ≤ i) (hi : i < n) :
    Leads Hart.advance h fun t => ∃ k w, k ≤ i ∧ Placed b a n mem i k w t := by
  refine Leads.loop (I := fun j t => 1 ≤ j ∧ j ≤ i ∧ ∃ w, Inner b a n mem i j w t) (n := i) ?_ ⟨h1, by omega, v, I⟩
  rintro j t ⟨hj, hji, w, I⟩
  obtain ⟨j, rfl⟩ : ∃ k, j = k + 1 := ⟨j - 1, by omega⟩
  refine (inner_body L hcode I hji hi).mono fun u hu => hu.imp id fun ⟨h0, w', I'⟩ => ?_
  exact ⟨j, by omega, h0, by omega, w', I'⟩

/-- The cell is put where the hole is. -/
theorem placed_body {i j : Nat} {v : Nat → BitVec 32} (L : SortLayout b a n) (hcode : Holds mem b sortProgram)
    (I : Placed b a n mem i j v h) (hj : j ≤ i) (hi : i < n) : Leads Hart.advance h (Outer b a n mem (i + 1)) := by
  have hcells := L.cells
  have hshift : BitVec.ofNat 64 j <<< 2 = BitVec.ofNat 64 (4 * j) := by
    apply BitVec.eq_of_toNat_eq
    rw [BitVec.toNat_shiftLeft, BitVec.toNat_ofNat, BitVec.toNat_ofNat, Nat.shiftLeft_eq]
    omega
  refine I.sorting.write L hcode rfl (Hart.keptBy_of_none rfl rfl rfl) nofun rfl (by decide) rfl
    fun h₁ S₁ hx₁ hm₁ => ?_
  refine S₁.write L hcode rfl (Hart.keptBy_of_none rfl rfl rfl) nofun rfl (by decide) rfl fun h₂ S₂ hx₂ hm₂ => ?_
  have hptr : h₂.x.read a5 + (0 : BitVec 32).signExtend 64 = a + BitVec.ofNat 64 (4 * j) := by
    simp (disch := decide) only [hx₂, hx₁, Isa.Registers.read_write_same, Isa.Registers.read_write_ne]
    rw [I.sorting.base, I.inserting.hole, ← hshift]
    exact BitVec.add_zero _
  refine S₂.store (j := j) (v := h₂.x.read a6) L hcode rfl (Hart.keptBy_of_none rfl rfl rfl) nofun (by decide)
    (by omega) (by rw [← hptr]; rfl) fun h₃ S₃ hx₃ hm₃ => ?_
  refine S₃.write L hcode rfl (Hart.keptBy_of_none rfl rfl rfl) nofun rfl (by decide) rfl fun h₄ S₄ hx₄ hm₄ => ?_
  refine S₄.write L hcode rfl (Hart.keptBy_of_none rfl rfl rfl) nofun rfl (by decide) rfl fun h₅ S₅ hx₅ hm₅ => ?_
  refine S₅.branch (t := 2) L hcode rfl (Hart.keptBy_of_none rfl rfl rfl) nofun (by decide) (by decide) rfl
    (S₅.target rfl) Isa.Registers.write_zero fun h₆ S₆ hx₆ hm₆ => ?_
  -- The cells are those of `v`, the one at `j` too.
  have hv : ∀ k < n, cells h₆.mem a k = v k := by
    intro k hk
    rw [hm₆, hm₅, hm₄, hm₃ k hk, hm₂, hm₁]
    split
    · next hkj =>
      simp (disch := decide) only [hx₂, hx₁, Isa.Registers.read_write_ne]
      rw [I.inserting.value, RiscvCpu.narrow, hkj]
    · next hkj => exact I.inserting.others k hk hkj
  refine .done ⟨S₆, ?_, ?_, fun p q hpq hq => ?_, ?_⟩
  · simp (disch := decide) only [hx₆, hx₅, hx₄, hx₃, hx₂, hx₁, Isa.Registers.read_write_same,
      Isa.Registers.read_write_ne]
    rw [I.inserting.index, BitVec.ofNat_add]
    rfl
  · simp (disch := decide) only [hx₆, hx₅, hx₄, hx₃, hx₂, hx₁, Isa.Registers.read_write_same,
      Isa.Registers.read_write_ne]
    rw [I.inserting.place, Nat.mul_succ, BitVec.ofNat_add, ← BitVec.add_assoc]
    rfl
  · rw [hv p (by omega), hv q (by omega)]
    exact I.sorted p q hpq hq
  · rw [Permuted, List.map_congr_left fun k hk => hv k (List.mem_range.mp hk)]
    exact I.inserting.perm

/-- The return: the program is at its end, and the cells are in order. -/
structure Sorted (b a : BitVec 64) (n : Nat) (mem : Bytes.Store 32) (h : Hart) : Prop where
  sorting : Sorting b a n mem 3 h
  sorted : Insertion.SortedBelow BitVec.toInt (cells h.mem a) n
  perm : Permuted a n mem (cells h.mem a)

/-- The outer loop. -/
theorem outer_loop (L : SortLayout b a n) (hcode : Holds mem b sortProgram) (I : Outer b a n mem 1 h) :
    Leads Hart.advance h (Sorted b a n mem) := by
  refine Leads.loop (I := fun m t => ∃ i, 1 ≤ i ∧ (i ≤ n ∨ i = 1) ∧ m = n - i ∧ Outer b a n mem i t) (n := n - 1) ?_
    ⟨1, by decide, .inr rfl, rfl, I⟩
  rintro m t ⟨i, h1, hin, rfl, I⟩
  by_cases hi : i < n
  · refine (outer_body L hcode I hi).trans fun u I => (inner_loop L hcode I h1 hi).trans ?_
    rintro u ⟨k, w, hk, I⟩
    exact (placed_body L hcode I hk hi).mono fun u I => .inr ⟨n - (i + 1), by omega, i + 1, by omega, by omega, rfl, I⟩
  · have hcells := L.cells
    have hle : ¬ (t.x.read a4).toNat < (t.x.read a1).toNat := by
      rw [I.index, I.sorting.count, BitVec.toNat_ofNat, BitVec.toNat_ofNat]
      omega
    refine I.sorting.branch (t := 3) L hcode rfl (Hart.keptBy_of_none rfl rfl rfl) nofun (by decide) (by decide) rfl
      ?_ rfl fun h₁ S₁ hx₁ hm₁ => .done (.inl ⟨S₁, ?_, ?_⟩)
    · rw [decide_eq_false hle]
      rfl
    · rw [hm₁]
      exact I.sorted.mono (by omega)
    · rw [hm₁]
      exact I.perm

/-- From the first instruction to the return. -/
theorem sort_leads (L : SortLayout b a n) (hcode : Holds h.mem b sortProgram) (S : Sorting b a n h.mem 0 h) :
    Leads Hart.advance h (Sorted b a n h.mem) :=
  (outer_start L hcode S rfl).trans fun _ I => outer_loop L hcode I

/-- The return ends the program. -/
theorem Sorted.ends (I : Sorted b a n mem h) (L : SortLayout b a n) (hcode : Holds mem b sortProgram) :
    h.Kept ∧ h.Ends ∧ ∃ h', h.step = some h' ∧ h'.mem = h.mem ∧ h'.pc ≠ h.pc := by
  have hb := L.code
  have hholds := I.sorting.holds L hcode
  obtain ⟨h3, hdec⟩ := decode_sortProgram 3 (by decide)
  have hd : decode (sortProgram.getD 3 0) 2 = ⟨.jalr, zero, ra, 0, 0⟩ := Option.some.inj hdec
  obtain ⟨hdecoded, -, -⟩ := Hart.decoded_of_holds hholds (by decide) I.sorting.pc h3
  rw [hd] at hdecoded
  have hstep : h.step = some { h with
      x := h.x.write zero h.next, pc := (h.x.read ra + (0 : BitVec 32).signExtend 64) &&& ~~~1 } := by
    rw [Hart.step, hdecoded]
    rfl
  refine ⟨Hart.kept_of_holds hholds (by decide) I.sorting.pc h3 L.even (L.clear_code (by decide)) hd
    (Hart.keptBy_of_none rfl rfl rfl), ?_, _, hstep, rfl, ?_⟩
  · rw [Hart.Ends, hdecoded]
    exact ⟨rfl, rfl, rfl, I.sorting.link, rfl⟩
  · show (h.x.read ra + (0 : BitVec 32).signExtend 64) &&& ~~~1 ≠ h.pc
    rw [I.sorting.link, I.sorting.pc]
    intro he
    have := congrArg BitVec.toNat he
    rw [BitVec.toNat_add, BitVec.toNat_ofNat] at this
    simp at this
    omega

/-- The program does not overlap the cells. -/
theorem cells_of_outside {mem' : Bytes.Store 32} (L : SortLayout b a n)
    (hout : ∀ x, ¬ Bytes.InArea (codeArea b sortProgram) x → mem' x = mem x) (hk : k < n) :
    cells mem' a k = cells mem a k := by
  have := L.cells
  have := L.apart
  refine Bytes.load_congr fun j hj => hout _ fun hin => ?_
  have hlen : sortProgram.length = 19 := rfl
  have hplace := toNat_flat_add (a := a) (o := 4 * k + j) (by omega)
  rw [codeArea, inArea_flat (by rw [hlen]; exact L.code), flat_add, BitVec.add_assoc, ← BitVec.ofNat_add, hplace,
    hlen] at hin
  omega

end

/-- The words that the program sorts. -/
def RiscvCpu.words (c : RiscvCpu) (a : BitVec 64) (n : Nat) : List (BitVec 32) :=
  (List.range n).map (cells c.memory.bytes a)

/-- **The sort program.** The program that `LoadAssemblerSort` writes, at any
place apart from the words and the clock, run by the emulator in 64-bit mode
with the address and the number of the words in `a0` and `a1` and zero in
`ra`, comes to its end without an error, and the words are then in the order
of their signed values, and those there were. -/
theorem runCpu_sort (host : Host) (c : RiscvCpu) (b a e : BitVec 64) (n : Nat) (mem : MemoryWrapper)
    (h64 : c.en64bit = true) (hplain : (c.start b).Plain .bare) (hzero : c.reg zero = 0) (hra : c.reg ra = 0)
    (ha0 : c.reg a0 = a) (ha1 : c.reg a1 = BitVec.ofNat 64 n) (L : SortLayout b a n)
    (hload : loadAssemblerSort c.memory b = .ok (mem, e)) :
    ∃ rounds, ∀ fuel, rounds < fuel → ∃ c', { c with memory := mem }.runCpu host fuel b = .ok (some c') ∧
      c'.endFlag = true ∧ c'.errorFlag = false ∧ (c'.words a n).Pairwise (fun x y => x.toInt ≤ y.toInt) ∧
      (c'.words a n).Perm (c.words a n) := by
  obtain ⟨hcode, hout⟩ := addCmds_holds hload (by decide)
  let h : Hart := ⟨b, ⟨c.reg, hzero⟩, mem.bytes⟩
  have hb0 : h.pc = b + BitVec.ofNat 64 (4 * 0) := (BitVec.add_zero b).symm
  obtain ⟨rounds, t, hrun, I⟩ := sort_leads (h := h) L hcode ⟨hb0, hra, ha0, ha1, fun _ _ => rfl⟩
  obtain ⟨hkept, hends, t', hstep, hmem, hpc⟩ := I.ends L hcode
  refine ⟨rounds, fun fuel hfuel => ?_⟩
  have hagrees : ({ c with memory := mem }.start b).Agrees h :=
    ⟨⟨hplain.regime, hplain.masked, hplain.pageFault, hplain.devices⟩, rfl, rfl, fun _ _ => rfl, h64⟩
  obtain ⟨c', hreturns, ha', he, hn⟩ :=
    RiscvCpu.runLoop_isa host hagrees ⟨rfl, rfl⟩ hrun hkept hstep (.inl hends) hfuel
  -- The words of the emulator are those of the architecture.
  have hwords : c'.words a n = (List.range n).map (cells t.mem a) := by
    refine List.map_congr_left fun k hk => ?_
    have hload := ha'.memory.load (L.clear_cell (List.mem_range.mp hk)) 32
    rw [hmem] at hload
    exact hload
  refine ⟨c', hreturns, hn.mpr hends, Bool.eq_false_iff.mpr fun hc => hpc (he.mp hc), ?_, ?_⟩
  · rw [hwords]
    exact I.sorted.pairwise
  · rw [hwords, RiscvCpu.words,
      ← List.map_congr_left fun k hk => cells_of_outside L hout (List.mem_range.mp hk)]
    exact I.perm

/-- The words 3, -1 and 2 at 512. -/
def RiscvCpu.unsorted : RiscvCpu :=
  let memory := (((MemoryWrapper.new.assign 0).setWord 0 128 3).setWord 0 129 0xFFFFFFFF).setWord 0 130 2
  (((new true 0).setMemory memory).setReg a0 512).setReg a1 3

theorem runCpu_sort_three : ∃ mem e, loadAssemblerSort RiscvCpu.unsorted.memory 0 = .ok (mem, e) ∧
    ∃ rounds, ∀ fuel, rounds < fuel →
      ∃ c', { RiscvCpu.unsorted with memory := mem }.runCpu .failing fuel 0 = .ok (some c') ∧
        c'.endFlag = true ∧ c'.errorFlag = false ∧ (c'.words 512 3).Pairwise (fun x y => x.toInt ≤ y.toInt) ∧
        (c'.words 512 3).Perm (RiscvCpu.unsorted.words 512 3) := by
  obtain ⟨mem, h, -⟩ := addCmds_fill RiscvCpu.unsorted.memory 0 sortProgram
  exact ⟨mem, _, h, runCpu_sort .failing RiscvCpu.unsorted 0 512 _ 3 mem rfl ⟨rfl, .inl rfl, rfl, rfl⟩ rfl rfl rfl rfl
    ⟨by decide, by decide, by decide, by decide, by decide, by decide⟩ h⟩

end RiscvEmulator
