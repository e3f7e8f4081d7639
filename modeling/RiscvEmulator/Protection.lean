/-
What a translation does not look at.

The walk reads V, R, W and X of an entry only to tell whether it is valid
and a leaf. Nothing asks whether the leaf allows the access, for whom it is,
or whether the upper bits of a 39-bit address extend its sign: the result is
the same for user and supervisor, for reads and writes, for addresses alike
in the bits the format has, and for leaves that differ in their permissions.
-/
import RiscvEmulator.MmuFacts

namespace RiscvEmulator

open PageWalk (Format sv32 sv39)

/-- The bits of a virtual address: the page offset and an index a level. -/
def Table.vaBits (T : Table) : Nat := 12 + T.F.vpnBits * (T.top + 1)

example (root : Nat) : (Table.sv32 root).vaBits = 32 ∧ (Table.sv39 root).vaBits = 39 := ⟨rfl, rfl⟩

/-- Two walks that meet entries of the same validity, kind and page number
lead to the same place. -/
theorem Table.address_eq_of_mod (T : Table) {s s' : Bytes.Store 32} {va va' : BitVec 64}
    (h : va'.toNat % 2 ^ T.vaBits = va.toNat % 2 ^ T.vaBits)
    (hs : ∀ a ∈ T.F.slots (entryAt T.F s) va.toNat T.top T.root, T.F.Same (entryAt T.F s a) (entryAt T.F s' a)) :
    (T.translate s' va').map Translation.address = (T.translate s va).map Translation.address := by
  rw [← (T.translate_same hs).1]
  unfold translate
  rw [Format.translate_eq_of_mod h, Option.map_map, Option.map_map]
  apply Option.map_congr
  intro lf hlf
  have hl := (Format.walk_some (Format.translate_some hlf).1).2.2
  simp only [Function.comp, Format.address_eq_of_mod hl h]

/-- A translation outside machine mode, with a table: it returns the
address the table gives, or faults when there is none. -/
theorem Mmu.virtualToPhysical_table {u : Mmu} {satp : BitVec 64} {T : Table} (hp : u.privilege ≠ .machineMode)
    (hT : u.regime satp = .table T) (m : MemoryWrapper) (va : BitVec 64) (write : Bool) :
    ∃ u' m', u.virtualToPhysical m va satp write = .ok (((T.translate m.bytes va).map Translation.address).getD va,
        u', m') ∧
      u'.pageFault = ((T.translate m.bytes va).map Translation.address).isNone := by
  have h := u.virtualToPhysical_spec m va satp write
  rw [if_neg hp, hT] at h
  cases ht : T.translate m.bytes va with
  | none =>
    rw [show (Regime.table T).translate m.bytes va = none from ht] at h
    exact ⟨_, m, h, rfl⟩
  | some t =>
    rw [show (Regime.table T).translate m.bytes va = some t from ht] at h
    obtain ⟨m', hr, -⟩ := h
    exact ⟨_, m', hr, rfl⟩

/-- **No protection.** With a table and outside machine mode a translation
returns, and faults unless the walk ends in an aligned leaf. Any other
access, for user or supervisor, reading or writing, at an address with the
same bits of the format, through entries of the same validity, kind and page
number, faults when this one does and leads where this one does. -/
theorem Mmu.virtualToPhysical_unprotected (u : Mmu) (m : MemoryWrapper) (va satp : BitVec 64) (write : Bool) (T : Table)
    (hp : u.privilege ≠ .machineMode) (hT : u.regime satp = .table T) :
    ∃ pa u' m', u.virtualToPhysical m va satp write = .ok (pa, u', m') ∧
      (u'.pageFault = false ↔ ∃ lf, T.F.translate (entryAt T.F m.bytes) va.toNat T.top T.root = some lf) ∧
      ∀ (v : Mmu) (n : MemoryWrapper) (va' : BitVec 64) (write' : Bool), v.privilege ≠ .machineMode → v.mxl = u.mxl →
        va'.toNat % 2 ^ T.vaBits = va.toNat % 2 ^ T.vaBits →
        (∀ a ∈ T.F.slots (entryAt T.F m.bytes) va.toNat T.top T.root,
          T.F.Same (entryAt T.F m.bytes a) (entryAt T.F n.bytes a)) →
        ∃ pa' v' n', v.virtualToPhysical n va' satp write' = .ok (pa', v', n') ∧ v'.pageFault = u'.pageFault ∧
          (u'.pageFault = false → pa' = pa) := by
  obtain ⟨u', m', hr, hf⟩ := virtualToPhysical_table hp hT m va write
  refine ⟨_, u', m', hr, ?_, fun v n va' write' hv hx hva hs => ?_⟩
  · rw [hf, Option.isNone_map, Table.translate, Option.isNone_map, Option.isNone_eq_false_iff, Option.isSome_iff_exists]
  · have hT' : v.regime satp = .table T := by rw [← hT, regime, regime, hx]
    obtain ⟨v', n', hr', hf'⟩ := virtualToPhysical_table hv hT' n va' write'
    have he := T.address_eq_of_mod hva hs
    refine ⟨_, v', n', hr', by rw [hf', hf, he], fun hno => ?_⟩
    rw [hf, Option.isNone_eq_false_iff, Option.isSome_iff_exists] at hno
    obtain ⟨pa, hpa⟩ := hno
    rw [he, hpa]
    rfl

/-- A page that may be read by the supervisor only: a gigabyte at the root
of a 64-bit table. -/
def readOnlyMemory : MemoryWrapper := (MemoryWrapper.new.assign 0).setWord 0 0x400 0b11

/-- A user's write to it at an address whose upper bits are not the sign of
the lower ones succeeds as a supervisor's read at address zero does. -/
theorem Mmu.virtualToPhysical_unprotected_write :
    ∃ pa u' m', (Mmu.mk 2 false 0 .supervisorMode).virtualToPhysical readOnlyMemory 0 0x8000000000000001 false =
        .ok (pa, u', m') ∧ u'.pageFault = false ∧
      ∃ v' n', (Mmu.mk 2 false 0 .userMode).virtualToPhysical readOnlyMemory
        0x8000000000000000 0x8000000000000001 true =
        .ok (pa, v', n') ∧ v'.pageFault = false := by
  obtain ⟨pa, u', m', hr, hf, ha⟩ := (Mmu.mk 2 false 0 .supervisorMode).virtualToPhysical_unprotected readOnlyMemory 0
    0x8000000000000001 false (.sv39 1) (by decide) rfl
  have hlf : sv39.translate (entryAt sv39 readOnlyMemory.bytes) 0 2 1 = some ⟨2, 0x1000, 3⟩ := by rfl
  have hno : u'.pageFault = false := hf.mpr ⟨_, hlf⟩
  obtain ⟨pa', v', n', hr', hf', ha'⟩ := ha (.mk 2 false 0 .userMode) readOnlyMemory 0x8000000000000000 true (by decide)
    rfl (by decide) fun a _ => Format.Same.refl _
  exact ⟨pa, u', m', hr, hno, v', n', by rw [hr', ha' hno], by rw [hf', hno]⟩

/-- The algorithm refuses that write for each reason: the leaf has W and U
clear, and bits 63 to 39 of the address are not its bit 38. -/
theorem Mmu.refused_write_succeeds : ∃ lf u' m',
    (Mmu.mk 2 false 0 .userMode).regime 0x8000000000000001 = .table (.sv39 1) ∧
    sv39.translate (entryAt sv39 readOnlyMemory.bytes) (0x8000000000000000 : BitVec 64).toNat 2 1 = some lf ∧
    lf.entry.testBit 2 = false ∧ lf.entry.testBit 4 = false ∧
    (0x8000000000000000#64).extractLsb' 39 25 ≠ BitVec.replicate 25 ((0x8000000000000000#64).extractLsb' 38 1) ∧
    (Mmu.mk 2 false 0 .userMode).virtualToPhysical readOnlyMemory 0x8000000000000000 0x8000000000000001 true =
      .ok (0, u', m') ∧ u'.pageFault = false := by
  have hlf : sv39.translate (entryAt sv39 readOnlyMemory.bytes) (0x8000000000000000 : BitVec 64).toNat 2 1 =
      some ⟨2, 0x1000, 3⟩ := by rfl
  obtain ⟨u', m', hr, hf⟩ := @virtualToPhysical_table (.mk 2 false 0 .userMode) 0x8000000000000001 (.sv39 1) (by decide)
    rfl readOnlyMemory 0x8000000000000000 true
  have ht : (Table.sv39 1).translate readOnlyMemory.bytes 0x8000000000000000 = some ⟨0, some 0x1000⟩ :=
    (Table.translate_sv39 _ _ _).trans (congrArg _ hlf)
  rw [ht] at hr hf
  exact ⟨_, u', m', rfl, hlf, rfl, rfl, by decide, hr, hf⟩

end RiscvEmulator
