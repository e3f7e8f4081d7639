/-
A guest in its address space.

`Stands c R s h` says that the processor `c`, which takes no interrupt and
runs no device, is in the state `h` of the architecture: the registers are
the same, and the memory has what `h` has where the translations of `R` lead
to. A round does there what its instruction does to `h` (`Stands.stepped`),
if the accesses are in the guest's space and the instruction computes what
the architecture does. The two instruction sets come after.
-/
import RiscvEmulator.Lib.Machine
import RiscvEmulator.ModeFacts
import RiscvEmulator.Space

namespace RiscvEmulator

open MemoryWrapper (flat flat_add)

namespace Isa.Hart

variable {h h' : Hart} {d : Decoded} {next : BitVec 64}

/-- What an instruction can do. -/
inductive Performs (h : Hart) (d : Decoded) (next : BitVec 64) : Hart → Prop
  | value {v : BitVec 64}
      (computes : value d.instruction (h.x.read d.rs1) (h.x.read d.rs2) (d.imm.signExtend 64) h.pc = some v) :
      Performs h d next { h with x := h.x.write d.rd v, pc := next }
  | branch {b : Bool} (compares : taken d.instruction (h.x.read d.rs1) (h.x.read d.rs2) = some b) :
      Performs h d next { h with pc := if b then h.pc + d.imm.signExtend 64 else next }
  | load {w : Nat} {signed : Bool} (loads : loadOf d.instruction = some (w, signed)) : Performs h d next
      { h with x := h.x.write d.rd (extended h.mem (h.x.read d.rs1 + d.imm.signExtend 64) w signed), pc := next }
  | store {w : Nat} (stores : storeOf d.instruction = some w) : Performs h d next
      { h with mem := Bytes.store h.mem (flat (h.x.read d.rs1 + d.imm.signExtend 64)) (h.x.read d.rs2) w, pc := next }
  | amo {op : Amo} {w : Nat} (operates : amoOf d.instruction = some (op, w))
      (aligned : (h.x.read d.rs1).toNat % w = 0) : Performs h d next
      { pc := next
        x := h.x.write d.rd ((Bytes.load (8 * w) h.mem (flat (h.x.read d.rs1)) w).signExtend 64)
        mem := Bytes.store h.mem (flat (h.x.read d.rs1)) (op.apply
          (Bytes.load (8 * w) h.mem (flat (h.x.read d.rs1)) w) ((h.x.read d.rs2).setWidth (8 * w))) w }
  | jal (links : d.instruction = .jal) :
      Performs h d next { h with x := h.x.write d.rd next, pc := h.pc + d.imm.signExtend 64 }
  | jalr (links : d.instruction = .jalr) : Performs h d next
      { h with x := h.x.write d.rd next, pc := (h.x.read d.rs1 + d.imm.signExtend 64) &&& ~~~1 }
  | fence (waits : d.instruction = .fence ∨ d.instruction = .fencei) : Performs h d next { h with pc := next }

theorem perform_cases (hs : h.perform d next = some h') : Performs h d next h' := by
  unfold perform at hs
  dsimp only at hs
  split at hs
  · next hi => cases hs; exact .jal hi
  · next hi => cases hs; exact .jalr hi
  · next hi => cases hs; exact .fence (.inl hi)
  · next hi => cases hs; exact .fence (.inr hi)
  split at hs
  · cases hs; exact .value ‹_›
  · cases hs; exact .branch ‹_›
  · cases hs; exact .load ‹_›
  · cases hs; exact .store ‹_›
  · split at hs
    · next ha => cases hs; exact .amo ‹_› ha
    · cases hs
  · cases hs

/-- The instruction at `pc` is in the guest's space, and not in the clock. -/
structure CodeIn (h : Hart) (R : Regime) (s : Bytes.Store 32) : Prop where
  even : h.pc.toNat % 2 = 0
  mapped : R.Mapped s h.pc h.size
  clear : R.ClearOf s h.pc h.size

instance (h : Hart) (R : Regime) (s : Bytes.Store 32) : Decidable (h.CodeIn R s) :=
  decidable_of_iff (_ ∧ _ ∧ _) ⟨fun ⟨h₁, h₂, h₃⟩ => ⟨h₁, h₂, h₃⟩, fun k => ⟨k.even, k.mapped, k.clear⟩⟩

/-- What it loads and stores is there. -/
structure DataIn (h : Hart) (R : Regime) (s : Bytes.Store 32) (d : Decoded) : Prop where
  load : ∀ r ∈ loadOf d.instruction, R.Readable s (h.x.read d.rs1 + d.imm.signExtend 64) r.1
  store : ∀ w ∈ storeOf d.instruction, R.Mapped s (h.x.read d.rs1 + d.imm.signExtend 64) w
  amo : ∀ r ∈ amoOf d.instruction, R.Mapped s (h.x.read d.rs1) r.2 ∧ R.ClearOf s (h.x.read d.rs1) r.2

instance (h : Hart) (R : Regime) (s : Bytes.Store 32) (d : Decoded) : Decidable (h.DataIn R s d) :=
  decidable_of_iff (_ ∧ _ ∧ _) ⟨fun ⟨h₁, h₂, h₃⟩ => ⟨h₁, h₂, h₃⟩, fun k => ⟨k.load, k.store, k.amo⟩⟩

end Isa.Hart

namespace RiscvCpu

variable {c c' : RiscvCpu} {host : Host} {R : Regime} {s : Bytes.Store 32}

/-! ## Accesses -/

section

variable {i : Instruction} {rd rs1 rs2 : BitVec 5} {imm : BitVec 32} {va : BitVec 64} {w : Nat} {mem : Bytes.Store 32}

theorem virtualToPhysical_backs {t : Translation} (hs : R.Space s) (hR : c.regime = .ok R)
    (hb : R.Backs s mem c.memory.bytes) (ht : R.translate s va = some t) (write : Bool) : ∃ mmu memory,
    c.virtualToPhysical va write = .ok (t.address, { c with mmu, memory }) ∧ R.Backs s mem memory.bytes := by
  obtain ⟨mmu, memory, h, hm, -⟩ := virtualToPhysical_of_some hR ((hb.confined.translate va).trans ht) write
  exact ⟨mmu, memory, h, hm ▸ hb.mark hs ht write⟩

theorem loadOf_width {signed : Bool} (h : Isa.loadOf i = some (w, signed)) : getLoadWidth i = .ok w := by
  cases i <;> cases h <;> rfl

theorem storeOf_width (h : Isa.storeOf i = some w) : getStoreWidth i = .ok w := by
  cases i <;> cases h <;> rfl

theorem extendLoad_extended {signed : Bool} (h : Isa.loadOf i = some (w, signed)) (s : Bytes.Store 32) :
    extendLoad i (Bytes.load 64 s (flat va) w) w = Isa.extended s va w signed := by
  have hload : ∀ n, 8 * w ≤ n → (Bytes.load n s (flat va) w).setWidth (8 * w) = Bytes.load (8 * w) s (flat va) w :=
    fun n hn => Bytes.load_setWidth _ _ hn
  have hback : (Bytes.load (8 * w) s (flat va) w).setWidth 64 = Bytes.load 64 s (flat va) w :=
    Bytes.load_setWidth _ _ (Nat.le_refl _)
  rw [Bytes.load, extendLoad_eq (loadOf_width h)]
  cases i <;> cases h
  case lb | lh | lw =>
    rw [loadedValue, Bits.sext, ← Bytes.load, hload 64 (by decide)]
    rfl
  case lbu | lhu | lwu | ld => exact hback.symm

/-- The two parts of an access that is cut. -/
theorem load_cut {n : Nat} (s : Bytes.Store 32) (h : n ≤ w) : Bytes.load 64 s (flat va) n |||
    (Bytes.load 64 s (flat (va + BitVec.ofNat 64 n)) (w - n) <<< (n * 8)) = Bytes.load 64 s (flat va) w := by
  rw [flat_add, Nat.mul_comm, ← Bytes.load_append, Nat.add_sub_cancel' h]

theorem store_cut {n : Nat} (s : Bytes.Store 32) (v : BitVec 64) (h : n ≤ w) :
    Bytes.store (Bytes.store s (flat va) v n) (flat (va + BitVec.ofNat 64 n)) (v >>> (n * 8)) (w - n) =
      Bytes.store s (flat va) v w := by
  rw [flat_add, Nat.mul_comm, ← Bytes.store_append, Nat.add_sub_cancel' h]

/-- The first part of an access is on one page, -/
theorem getAccessWidth_page (hw : IsWidth w) (va : BitVec 64) :
    va.toNat % 2 ^ 12 + getAccessWidth w va ≤ 2 ^ 12 := by
  have hcut := getAccessWidth_eq hw va
  split at hcut <;> omega

/-- and so is what is left. -/
theorem getAccessWidth_rest (hw : IsWidth w) (va : BitVec 64) :
    (va + BitVec.ofNat 64 (getAccessWidth w va)).toNat % 2 ^ 12 + (w - getAccessWidth w va) ≤ 2 ^ 12 := by
  have hcut := getAccessWidth_eq hw va
  have h8 := hw.bounds.2
  rw [toNat_va_add]
  split at hcut <;> omega

/-- A load in the guest's space. -/
theorem loadInstruction_backs (rd rs1 : BitVec 5) (imm : BitVec 32) {signed : Bool} (hs : R.Space s)
    (hp : c.pageFault = false) (hR : c.regime = .ok R) (hb : R.Backs s mem c.memory.bytes)
    (hi : Isa.loadOf i = some (w, signed)) (hr : R.Readable s (c.reg rs1 + imm.signExtend 64) w) :
    ∃ mmu memory peripheral, c.loadInstruction i rd rs1 imm =
      .ok ({ c with mmu, memory, peripheral }.setReg rd
        (Isa.extended mem (c.reg rs1 + imm.signExtend 64) w signed)) ∧ R.Backs s mem memory.bytes := by
  have hw := loadOf_width hi
  have hwidth := getLoadWidth_ok hw
  obtain ⟨hpos, hle⟩ := getAccessWidth_pos hwidth (c.reg rs1 + imm.signExtend 64)
  have hcut := getAccessWidth_eq hwidth (c.reg rs1 + imm.signExtend 64)
  have hpage := getAccessWidth_page hwidth (c.reg rs1 + imm.signExtend 64)
  have hrest := getAccessWidth_rest hwidth (c.reg rs1 + imm.signExtend 64)
  have hw8 := hwidth.bounds.2
  obtain ⟨hm, hclear, hagain⟩ := hr
  generalize hva : c.reg rs1 + imm.signExtend 64 = va at *
  generalize hn : getAccessWidth w va = n at *
  obtain ⟨m, hwrite, htime⟩ := c.memory.write64_bytes (i := PeripheralEmulator.kTimerMtime) (by decide)
    c.peripheral.elapsedCycles
  have hb₀ : R.Backs s mem m.bytes := htime ▸ hb.showTime hs _
  obtain ⟨t, ht⟩ := hm.translate_first (by omega)
  obtain ⟨mmu₁, m₁, h₁, hb₁⟩ := virtualToPhysical_backs (c := { c with memory := m }) hs hR hb₀ ht false
  have hsame : getAccessWidth w t.address = n := by
    have hmod := Regime.translate_mod ht
    rw [← hn, getAccessWidth_eq hwidth, getAccessWidth_eq hwidth, show t.address.toNat % 8 = va.toNat % 8 by omega]
  have hlow : loadWd m₁ t.address (getAccessWidth w t.address) = .ok (Bytes.load 64 mem (flat va) n) := by
    rw [hsame, loadWd_eq m₁ t.address hpos (by omega), hb₁.load ((hm.take hle).placedAt ht hpage) (hclear.take hle)]
  subst hva
  by_cases hnext : w - n > 0
  · have hmore : 8 < (c.reg rs1 + imm.signExtend 64).toNat % 8 + w ∧
        n = 8 - (c.reg rs1 + imm.signExtend 64).toNat % 8 := by split at hcut <;> omega
    obtain ⟨t', ht'⟩ := hm.translate (k := n) (by omega)
    obtain ⟨t₂, ht₂, hplace⟩ : ∃ t₂, R.translate s (t.address + BitVec.ofNat 64 n) = some t₂ ∧
        flat t₂.address = flat t'.address := by
      have h₂ := hagain hmore.1 t ht
      rw [← hmore.2, ht', Option.map_some] at h₂
      exact Option.map_eq_some_iff.mp h₂
    obtain ⟨mmu₂, m₂, h₂, hb₂⟩ := virtualToPhysical_backs (c := { c with memory := m₁, mmu := mmu₁ }) hs hR hb₁ ht₂
      false
    have hhigh : loadWd m₂ t₂.address (w - getAccessWidth w t.address) =
        .ok (Bytes.load 64 mem (flat (c.reg rs1 + imm.signExtend 64 + BitVec.ofNat 64 n)) (w - n)) := by
      rw [hsame, loadWd_eq _ _ (by omega) (by omega), hplace, hb₂.load (hm.drop.placedAt ht' hrest) hclear.drop]
    rw [← hsame] at h₂
    have hpath : LoadPath c i rd rs1 imm _ := .cut hwrite h₁ hp hw hlow (by omega) h₂ hp hhigh
    rw [hsame, load_cut _ hle, extendLoad_extended hi] at hpath
    exact ⟨_, _, _, hpath.ok, hb₂⟩
  · have hpath : LoadPath c i rd rs1 imm _ := .whole hwrite h₁ hp hw hlow (by omega)
    rw [show n = w by omega, extendLoad_extended hi] at hpath
    exact ⟨_, _, _, hpath.ok, hb₁⟩

/-- A store there. -/
theorem storeInstruction_backs (rs1 rs2 : BitVec 5) (imm : BitVec 32) (hs : R.Space s) (hp : c.pageFault = false)
    (hR : c.regime = .ok R) (hb : R.Backs s mem c.memory.bytes) (hi : Isa.storeOf i = some w)
    (hm : R.Mapped s (c.reg rs1 + imm.signExtend 64) w) :
    ∃ mmu memory peripheral, c.storeInstruction i rs1 rs2 imm = .ok { c with mmu, memory, peripheral } ∧
      R.Backs s (Bytes.store mem (flat (c.reg rs1 + imm.signExtend 64)) (c.reg rs2) w) memory.bytes := by
  have hw := storeOf_width hi
  have hwidth := getStoreWidth_ok hw
  obtain ⟨hpos, hle⟩ := getAccessWidth_pos hwidth (c.reg rs1 + imm.signExtend 64)
  have hpage := getAccessWidth_page hwidth (c.reg rs1 + imm.signExtend 64)
  have hrest := getAccessWidth_rest hwidth (c.reg rs1 + imm.signExtend 64)
  have hw8 := hwidth.bounds.2
  generalize hva : c.reg rs1 + imm.signExtend 64 = va at *
  generalize hn : getAccessWidth w va = n at *
  obtain ⟨t, ht⟩ := hm.translate_first (by omega)
  obtain ⟨mmu₁, m₁, h₁, hb₁⟩ := virtualToPhysical_backs hs hR hb ht true
  obtain ⟨m₂, h₂, hbytes₂⟩ := storeWd_bytes m₁ t.address (c.reg rs2 &&& (generateBitMask (n * 8)).signExtend 64) hpos
    (by omega)
  have hb₂ : R.Backs s (Bytes.store mem (flat va) (c.reg rs2) n) m₂.bytes := by
    have hdata : Bytes.store m₁.bytes (flat t.address) (c.reg rs2 &&& (generateBitMask (n * 8)).signExtend 64) n =
        Bytes.store m₁.bytes (flat t.address) (c.reg rs2) n :=
      Bytes.store_congr _ _ fun j hj => byteOf_dataMask _ (by omega) hj
    rw [hbytes₂, hdata]
    exact hb₁.store hs (hm.take hle) ht hpage (by omega) _
  subst hva
  by_cases hnext : w - n > 0
  · obtain ⟨t', ht'⟩ := hm.translate (k := n) (by omega)
    obtain ⟨mmu₃, m₃, h₃, hb₃⟩ := virtualToPhysical_backs (c := { c with memory := m₂, mmu := mmu₁ }) hs hR hb₂ ht'
      true
    obtain ⟨m₄, h₄, hbytes₄⟩ := storeWd_bytes m₃ t'.address (c.reg rs2 >>> (n * 8)) (w := w - n) (by omega) (by omega)
    refine ⟨_, _, _, (StorePath.cut h₁ hp hw hn h₂ hnext h₃ hp h₄).ok, ?_⟩
    rw [hbytes₄, ← store_cut mem (c.reg rs2) hle]
    exact hb₃.store hs hm.drop ht' hrest (by omega) _
  · refine ⟨_, _, _, (StorePath.whole h₁ hp hw hn h₂ hnext).ok, ?_⟩
    rw [← show n = w by omega]
    exact hb₂

/-- And an atomic operation, which is aligned. -/
theorem amoInstruction_backs (rd rs1 rs2 : BitVec 5) {op : Amo} (hs : R.Space s) (hR : c.regime = .ok R)
    (hb : R.Backs s mem c.memory.bytes) (hi : amoOf i = some (op, w)) (halign : (c.reg rs1).toNat % w = 0)
    (hm : R.Mapped s (c.reg rs1) w) (hclear : R.ClearOf s (c.reg rs1) w) : ∃ mmu memory,
    c.amoInstruction i rd rs1 rs2 = .ok ({ c with mmu, memory }.setReg rd
      ((Bytes.load (8 * w) mem (flat (c.reg rs1)) w).signExtend 64)) ∧
    R.Backs s (Bytes.store mem (flat (c.reg rs1))
      (op.apply (Bytes.load (8 * w) mem (flat (c.reg rs1)) w) ((c.reg rs2).setWidth (8 * w))) w) memory.bytes := by
  have hw := amoOf_width hi
  have hw48 : w = 4 ∨ w = 8 := by rw [hw]; split <;> simp
  have hpage : (c.reg rs1).toNat % 2 ^ 12 + w ≤ 2 ^ 12 := by rcases hw48 with rfl | rfl <;> omega
  obtain ⟨t, ht⟩ := hm.translate_first (by omega)
  obtain ⟨mmu₁, m₁, h₁, hb₁⟩ := virtualToPhysical_backs hs hR hb ht false
  obtain ⟨mmu₂, m₂, h₂, hb₂⟩ := virtualToPhysical_backs (c := { c with memory := m₁, mmu := mmu₁ }) hs hR hb₁ ht true
  obtain ⟨v, hv, hexact⟩ := amoValue_exact hi ((Bytes.load (8 * w) mem (flat (c.reg rs1)) w).signExtend 64) (c.reg rs2)
  obtain ⟨m₃, h₃, hbytes₃⟩ := storeWd_bytes m₂ t.address v (w := w) (by omega) (by omega)
  rw [amoInstruction]
  dsimp only
  rw [h₁, Except.ok_bind]
  dsimp only
  rw [← hw, loadWd_eq _ _ (by omega) (by omega), Except.ok_bind, hb₁.load (hm.placedAt ht hpage) hclear, amoLoaded hw48,
    hv, Except.ok_bind, h₂, Except.ok_bind]
  dsimp only
  rw [h₃, Except.ok_bind]
  refine ⟨_, _, rfl, ?_⟩
  have hstored := hb₂.store hs hm ht hpage (by omega) v
  rw [← Bytes.store_setWidth (m := 8 * w) mem _ v (by omega), hexact, Bits.setWidth_signExtend _ (by omega)] at hstored
  rw [hbytes₃]
  exact hstored

end

/-! ## A processor that is left alone -/

/-- No interrupt is taken: none is enabled, or the machine masks them all. -/
def Masked (c : RiscvCpu) : Prop := c.mie = 0 ∨ (c.privilege = .machineMode ∧ bitcrop c.mstatus 1 3 = 0)

/-- Addresses are translated by `R`, no interrupt is taken and no device runs. -/
structure Plain (c : RiscvCpu) (R : Regime) : Prop where
  regime : c.regime = .ok R
  masked : c.Masked
  pageFault : c.pageFault = false
  devices : (c.hostEmulation || c.peripheralEmulation) = false

theorem Plain.of_control (h : c.Plain R) (hc : c'.control = c.control) (hp : c'.pageFault = false) : c'.Plain R where
  regime := (regime_of_control hc).trans h.regime
  masked := by
    have hmie : c'.mie = c.mie := congrArg Control.mie hc
    have hpriv : c'.privilege = c.privilege := congrArg Control.privilege hc
    have hm : c'.mstatus = c.mstatus := congrArg Control.mstatus hc
    rw [Masked, hmie, hpriv, hm]
    exact h.masked
  pageFault := hp
  devices := by
    have hh : c'.hostEmulation = c.hostEmulation := congrArg Control.hostEmulation hc
    have hd : c'.peripheralEmulation = c.peripheralEmulation := congrArg Control.peripheralEmulation hc
    rw [hh, hd]
    exact h.devices

/-- What the devices and their interrupts leave behind. -/
def Posts (c c' : RiscvCpu) : Prop := ∃ mip csrs peripheral v u,
  c' = { c with mip, csrs, peripheral, virtioInterrupt := v, uartInterrupt := u } ∧
    csrs Csr.mstatus = c.csrs Csr.mstatus ∧ csrs Csr.satp = c.csrs Csr.satp

theorem Posts.refl (c : RiscvCpu) : c.Posts c := ⟨_, _, _, _, _, rfl, rfl, rfl⟩

theorem Posts.trans {c₁ c₂ : RiscvCpu} (h : c.Posts c₁) (h' : c₁.Posts c₂) : c.Posts c₂ := by
  obtain ⟨_, _, _, _, _, rfl, hm, hs⟩ := h
  obtain ⟨_, _, _, _, _, rfl, hm', hs'⟩ := h'
  exact ⟨_, _, _, _, _, rfl, hm'.trans hm, hs'.trans hs⟩

theorem posts_setInterruptPending (cause : Nat) : c.Posts (c.setInterruptPending cause) :=
  ⟨_, _, _, _, _, rfl, rfl, rfl⟩

theorem posts_interruptCheck : c.Posts c.interruptCheck := by
  have hdisk : c.Posts c.diskInterruptCheck := by
    unfold diskInterruptCheck
    split
    · exact .trans ⟨_, _, _, _, _, rfl, rfl, rfl⟩ (posts_setInterruptPending _)
    · exact .refl c
  refine hdisk.trans ?_
  rw [interruptCheck]
  generalize c.diskInterruptCheck = c₁
  unfold uartInterruptCheck
  split
  · exact .trans ⟨_, _, _, _, _, rfl, rfl, rfl⟩ (posts_setInterruptPending _)
  · exact .refl c₁

theorem posts_timerTick : ∃ c₁, c.timerTick = .ok c₁ ∧ c.Posts c₁ := by
  refine ⟨_, timerTick_eq c, ?_⟩
  have hticked : c.Posts { c with peripheral := c.ticked } :=
    ⟨c.mip, c.csrs, c.ticked, c.virtioInterrupt, c.uartInterrupt, rfl, rfl, rfl⟩
  split
  · exact hticked.trans (posts_setInterruptPending _)
  · exact hticked

/-- What the regime is chosen by. -/
theorem regime_congr (hp : c'.privilege = c.privilege) (hm : c'.csrs Csr.mstatus = c.csrs Csr.mstatus)
    (hs : c'.csrs Csr.satp = c.csrs Csr.satp) (he : c'.en64bit = c.en64bit) : c'.regime = c.regime := by
  unfold regime accessPrivilege Mmu.regime mxl
  rw [hp, hm, hs, he]
  rfl

theorem Posts.plain (h : c.Posts c') (hc : c.Plain R) : c'.Plain R := by
  obtain ⟨mip, csrs, p, v, u, rfl, hm, hs⟩ := h
  refine ⟨.trans ?_ hc.regime, hc.masked, hc.pageFault, hc.devices⟩
  exact regime_congr rfl hm hs rfl

theorem pendingCause_masked (h : c.Masked) : c.pendingCause = none := by
  rcases h with h | ⟨hp, hm⟩
  · simp [pendingCause, interruptStatus, h]
  · simp [pendingCause, globalMie, globalSie, hp, hm]

/-- The start of a round. -/
theorem interruptStage_plain (h : c.Plain R) :
    ∃ c₁, c.interruptStage = .ok (false, c₁) ∧ { c with pc := c.nextPc }.Posts c₁ ∧ c₁.Plain R := by
  obtain ⟨c₁, ht, hposts⟩ := posts_timerTick (c := { c with pc := c.nextPc })
  have hposts := hposts.trans posts_interruptCheck
  have hplain := hposts.plain (R := R) ⟨h.regime, h.masked, h.pageFault, h.devices⟩
  refine ⟨c₁.interruptCheck, ?_, hposts, hplain⟩
  rw [interruptStage, ht, Except.ok_bind, checkPendingInterrupt_pendingCause, pendingCause_masked hplain.masked]

/-! ## The fetch -/

/-- The flags that end the loop, and the address it goes on at. -/
def ending (c : RiscvCpu) : Bool × Bool × BitVec 64 := (c.errorFlag, c.endFlag, c.nextPc)

theorem virtualToPhysical_ending {va pa : BitVec 64} {write : Bool} (h : c.virtualToPhysical va write = .ok (pa, c')) :
    c'.ending = c.ending := by
  obtain ⟨p, mmu, memory, -, -, rfl⟩ := virtualToPhysical_ok h
  rfl

theorem loadCmd_ending {pc : BitVec 64} {ir : BitVec 32} (h : c.loadCmd pc = .ok (ir, c')) : c'.ending = c.ending := by
  cases loadCmd_path h with
  | one first => exact virtualToPhysical_ending first
  | two first half second => exact (virtualToPhysical_ending second).trans (virtualToPhysical_ending first)

theorem fetch_backs {h : Isa.Hart} {s₁ : Bytes.Store 32} (hs : R.Space s) (hb : R.Backs s h.mem s₁)
    (hf : h.CodeIn R s) : (R.fetch s₁ false h.pc).1 = .ok h.word ∧ R.Backs s h.mem (R.fetch s₁ false h.pc).2 := by
  have hpc := hf.even
  have hsize : 2 ≤ h.size := by
    rw [Isa.Hart.size]
    split <;> decide
  obtain ⟨t, ht⟩ := hf.mapped.translate_first (by omega)
  have hb₁ := hb.mark hs ht false
  have hlow : parcel (t.mark s₁ false) t.address = parcel h.mem h.pc :=
    hb₁.load ((hf.mapped.take hsize).placedAt ht (by omega)) (hf.clear.take hsize) 16
  unfold Regime.fetch
  rw [(hb.confined.translate h.pc).trans ht]
  dsimp only
  rw [hlow, Isa.Hart.word]
  by_cases hone : parcel h.mem h.pc &&& 0b11 = 0b11
  · -- The second parcel, on the same page or on its own.
    have hfour : h.size = 4 := if_pos hone
    have hmapped : R.Mapped s (h.pc + 2) 2 := by
      have hdrop := hf.mapped.drop (n := 2)
      rwa [hfour] at hdrop
    have hclear : R.ClearOf s (h.pc + 2) 2 := by
      have hdrop := hf.clear.drop (n := 2)
      rwa [hfour] at hdrop
    obtain ⟨t₂, ht₂⟩ := hmapped.translate_first (by decide)
    have hpage : (h.pc + 2).toNat % 2 ^ 12 + 2 ≤ 2 ^ 12 := by
      rw [show h.pc + 2 = h.pc + BitVec.ofNat 64 2 from rfl, toNat_va_add]
      omega
    have hhigh : ∀ s₂, R.Backs s h.mem s₂ → parcel s₂ t₂.address = parcel h.mem (h.pc + 2) :=
      fun s₂ hb₂ => hb₂.load (hmapped.placedAt ht₂ hpage) hclear 16
    have htr : R.translate (t.mark s₁ false) (h.pc + 2) = some t₂ := (hb₁.confined.translate _).trans ht₂
    rw [if_neg (not_not_intro hone), if_pos hone]
    split
    · rw [Regime.physical, htr]
      dsimp only
      rw [hhigh _ hb₁]
      exact ⟨rfl, hb₁⟩
    · have hb₂ := hb₁.mark hs ht₂ false
      rw [if_neg Bool.false_ne_true, htr]
      dsimp only
      rw [hhigh _ hb₂]
      exact ⟨rfl, hb₂⟩
  · rw [if_pos hone, if_neg hone]
    exact ⟨rfl, hb₁⟩

theorem fetchStage_backs {h : Isa.Hart} (hs : R.Space s) (hc : c.Plain R) (hpc : c.pc = h.pc)
    (hb : R.Backs s h.mem c.memory.bytes) (hf : h.CodeIn R s) :
    ∃ c₁, c.fetchStage = .ok c₁ ∧ c₁.Plain R ∧ c₁.control = c.control ∧ c₁.reg = c.reg ∧
      R.Backs s h.mem c₁.memory.bytes ∧ c₁.ending = c.ending ∧ c₁.ir = h.word := by
  obtain ⟨hword, hbytes⟩ := fetch_backs hs hb hf
  have hfetch := loadCmd_fetch hc.regime (hpc ▸ hf.even)
  rw [hc.pageFault, hpc] at hfetch
  obtain ⟨ir, c₁, hload, htr, hm, hresult⟩ := hfetch
  rw [hword] at hresult
  obtain ⟨-, rfl, hpf, -⟩ := hresult
  have hfault : c₁.pageFault = false := hpf.trans hc.pageFault
  have hplain := hc.of_control htr.control hfault
  have hending := loadCmd_ending hload
  refine ⟨{ c₁ with ir := h.word }, ?_, ⟨hplain.regime, hplain.masked, hfault, hplain.devices⟩, htr.control, htr.reg,
    hm ▸ hbytes, hending, rfl⟩
  rw [fetchStage, hpc, hload]
  rfl

/-! ## Instructions -/

theorem execute_isa_taken {d : Decoded} {csr : BitVec 12} {b : Bool}
    (hb : Isa.taken d.instruction (c.reg d.rs1) (c.reg d.rs2) = some b) :
    c.execute host d csr = .ok { c with nextPc := if b then c.pc + d.imm.signExtend 64 else c.nextPc } := by
  have hcond : c.branchCondition d.instruction d.rs1 d.rs2 = b := by
    generalize d.instruction = i at hb
    cases i <;> try (cases hb; done)
    all_goals
      cases hb
      rfl
  generalize hi : d.instruction = i at hb hcond
  cases i <;> try (cases hb; done)
  all_goals simp only [execute, hi, branchInstruction, hcond]

/-- `c'` is `c` after an instruction that has led to `h`. -/
structure Executed (R : Regime) (s : Bytes.Store 32) (c c' : RiscvCpu) (h : Isa.Hart) (ended : Prop) : Prop where
  control : c'.control = c.control
  pageFault : c'.pageFault = c.pageFault
  nextPc : c'.nextPc = h.pc
  reg : Function.update c'.reg zero 0 = h.x.read
  memory : R.Backs s h.mem c'.memory.bytes
  errorFlag : c'.errorFlag = true → c.errorFlag = true ∨ h.pc = c.pc
  endFlag : c'.endFlag = true ↔ c.endFlag = true ∨ ended

section

variable {h h' : Isa.Hart} {d : Decoded} {csr : BitVec 12}

theorem not_endsBy (hi : d.instruction ≠ .jalr) : ¬ h.EndsBy d := fun he => hi he.1

/-- A register is set on both sides. -/
theorem update_write (hreg : c.reg = h.x.read) (rd : BitVec 5) (v : BitVec 64) :
    Function.update (Function.update c.reg rd v) zero 0 = (h.x.write rd v).read := by
  rw [hreg]; rfl

/-- None is. -/
theorem update_zero (hreg : c.reg = h.x.read) : Function.update c.reg zero 0 = h.x.read := by
  rw [hreg]
  exact Function.update_eq_self_iff.mpr h.x.read_zero.symm

theorem isLoad_of_loadOf {i : Instruction} {r : Nat × Bool} (hi : Isa.loadOf i = some r) : isLoad i = true := by
  cases i <;> first | rfl | cases hi

theorem isStore_of_storeOf {i : Instruction} {w : Nat} (hi : Isa.storeOf i = some w) : isStore i = true := by
  cases i <;> first | rfl | cases hi

theorem isAmo_of_amoOf {i : Instruction} {r : Amo × Nat} (hi : amoOf i = some r) : isAmo i = true := by
  cases i <;> first | rfl | cases hi

theorem load_does {w : Nat} {signed : Bool} (hs : R.Space s) (hc : c.Plain R) (hreg : c.reg = h.x.read)
    (hmem : R.Backs s h.mem c.memory.bytes) (loads : Isa.loadOf d.instruction = some (w, signed))
    (hr : R.Readable s (h.x.read d.rs1 + d.imm.signExtend 64) w) :
    ∃ c', c.execute host d csr = .ok c' ∧ Executed R s c c'
      { h with x := h.x.write d.rd (Isa.extended h.mem (h.x.read d.rs1 + d.imm.signExtend 64) w signed)
               pc := c.nextPc } (h.EndsBy d) := by
  have hends : ¬ h.EndsBy d := not_endsBy fun hi => by rw [hi] at loads; cases loads
  rw [← hreg] at hr
  obtain ⟨mmu, m, p, hx, hm⟩ := loadInstruction_backs d.rd d.rs1 d.imm hs hc.pageFault hc.regime hmem loads hr
  rw [execute_load (isLoad_of_loadOf loads), hx]
  refine ⟨_, rfl, rfl, rfl, rfl, ?_, hm, .inl, (or_iff_left hends).symm⟩
  rw [← hreg]
  exact update_write hreg _ _

theorem store_does {w : Nat} (hs : R.Space s) (hc : c.Plain R) (hreg : c.reg = h.x.read)
    (hmem : R.Backs s h.mem c.memory.bytes) (stores : Isa.storeOf d.instruction = some w)
    (hw : R.Mapped s (h.x.read d.rs1 + d.imm.signExtend 64) w) :
    ∃ c', c.execute host d csr = .ok c' ∧ Executed R s c c'
      { h with mem := Bytes.store h.mem (flat (h.x.read d.rs1 + d.imm.signExtend 64)) (h.x.read d.rs2) w
               pc := c.nextPc } (h.EndsBy d) := by
  have hends : ¬ h.EndsBy d := not_endsBy fun hi => by rw [hi] at stores; cases stores
  rw [← hreg] at hw
  obtain ⟨mmu, m, p, hx, hm⟩ := storeInstruction_backs d.rs1 d.rs2 d.imm hs hc.pageFault hc.regime hmem stores hw
  rw [execute_store (isStore_of_storeOf stores), hx]
  exact ⟨_, rfl, rfl, rfl, rfl, update_zero hreg, hreg ▸ hm, .inl, (or_iff_left hends).symm⟩

theorem amo_does {op : Amo} {w : Nat} (hs : R.Space s) (hc : c.Plain R) (hreg : c.reg = h.x.read)
    (hmem : R.Backs s h.mem c.memory.bytes) (operates : amoOf d.instruction = some (op, w))
    (aligned : (h.x.read d.rs1).toNat % w = 0) (hw : R.Mapped s (h.x.read d.rs1) w)
    (hclear : R.ClearOf s (h.x.read d.rs1) w) :
    ∃ c', c.execute host d csr = .ok c' ∧ Executed R s c c'
      { pc := c.nextPc
        x := h.x.write d.rd ((Bytes.load (8 * w) h.mem (flat (h.x.read d.rs1)) w).signExtend 64)
        mem := Bytes.store h.mem (flat (h.x.read d.rs1)) (op.apply
          (Bytes.load (8 * w) h.mem (flat (h.x.read d.rs1)) w) ((h.x.read d.rs2).setWidth (8 * w))) w }
      (h.EndsBy d) := by
  have hends : ¬ h.EndsBy d := not_endsBy fun hi => by rw [hi] at operates; cases operates
  rw [← hreg] at aligned hw hclear
  obtain ⟨mmu, m, hx, hm⟩ := amoInstruction_backs d.rd d.rs1 d.rs2 hs hc.regime hmem operates aligned hw hclear
  rw [execute_amo (isAmo_of_amoOf operates), hx]
  refine ⟨_, rfl, rfl, rfl, rfl, ?_, hreg ▸ hm, .inl, (or_iff_left hends).symm⟩
  rw [← hreg]
  exact update_write hreg _ _

/-- A jump to itself is where the emulator stops. -/
theorem jal_does (hpc : c.pc = h.pc) (hreg : c.reg = h.x.read) (hmem : R.Backs s h.mem c.memory.bytes)
    (links : d.instruction = .jal) :
    ∃ c', c.execute host d csr = .ok c' ∧ Executed R s c c'
      { h with x := h.x.write d.rd c.nextPc, pc := h.pc + d.imm.signExtend 64 } (h.EndsBy d) := by
  have hends : ¬ h.EndsBy d := not_endsBy fun hi => by rw [hi] at links; cases links
  refine ⟨_, execute_jal links, ?_⟩
  split
  · next hself =>
    exact ⟨rfl, rfl, by rw [← hpc], update_write hreg _ _, hmem, fun _ => .inr (hpc ▸ hself),
      (or_iff_left hends).symm⟩
  · exact ⟨rfl, rfl, by rw [← hpc], update_write hreg _ _, hmem, .inl, (or_iff_left hends).symm⟩

/-- A return to address zero is where the program ends. -/
theorem jalr_does (hreg : c.reg = h.x.read) (hmem : R.Backs s h.mem c.memory.bytes) (links : d.instruction = .jalr) :
    ∃ c', c.execute host d csr = .ok c' ∧ Executed R s c c'
      { h with x := h.x.write d.rd c.nextPc, pc := (h.x.read d.rs1 + d.imm.signExtend 64) &&& ~~~1 }
      (h.EndsBy d) := by
  have hends : (d.rd = zero ∧ d.rs1 = ra ∧ c.reg d.rs1 = 0 ∧ d.imm = 0) ↔ h.EndsBy d := by
    rw [hreg]
    constructor
    · rintro ⟨hrd, hrs, hx, himm⟩
      exact ⟨links, hrd, hrs, hrs ▸ hx, himm⟩
    · rintro ⟨-, hrd, hrs, hx, himm⟩
      exact ⟨hrd, hrs, hrs ▸ hx, himm⟩
  refine ⟨_, execute_jalr links, ?_⟩
  by_cases he : h.EndsBy d
  · rw [if_pos (hends.mpr he)]
    exact ⟨rfl, rfl, by rw [← hreg], update_write hreg _ _, hmem, .inl, iff_of_true rfl (.inr he)⟩
  · rw [if_neg fun hh => he (hends.mp hh)]
    exact ⟨rfl, rfl, by rw [← hreg], update_write hreg _ _, hmem, .inl, (or_iff_left he).symm⟩

/-- The `switch` does what the architecture says, if it computes what the
architecture does. -/
theorem execute_does (host : Host) (csr : BitVec 12) (hs : R.Space s) (hc : c.Plain R) (hpc : c.pc = h.pc)
    (hreg : c.reg = h.x.read) (hmem : R.Backs s h.mem c.memory.bytes) (hk : h.DataIn R s d)
    (hp : h.Performs d c.nextPc h')
    (hvalue : ∀ v, Isa.value d.instruction (h.x.read d.rs1) (h.x.read d.rs2) (d.imm.signExtend 64) h.pc = some v →
      c.execute host d csr = .ok (c.setReg d.rd v)) :
    ∃ c', c.execute host d csr = .ok c' ∧ Executed R s c c' h' (h.EndsBy d) := by
  cases hp with
  | value computes =>
    have hends : ¬ h.EndsBy d := not_endsBy fun hi => by rw [hi] at computes; cases computes
    exact ⟨_, hvalue _ computes, rfl, rfl, rfl, update_write hreg _ _, hmem, .inl, (or_iff_left hends).symm⟩
  | branch compares =>
    have hends : ¬ h.EndsBy d := not_endsBy fun hi => by rw [hi] at compares; cases compares
    rw [← hreg] at compares
    exact ⟨_, execute_isa_taken compares, rfl, rfl, by rw [← hpc], update_zero hreg, hmem, .inl,
      (or_iff_left hends).symm⟩
  | load loads => exact load_does hs hc hreg hmem loads (hk.load _ loads)
  | store stores => exact store_does hs hc hreg hmem stores (hk.store _ stores)
  | amo operates aligned =>
    obtain ⟨hm, hclear⟩ := hk.amo _ operates
    exact amo_does hs hc hreg hmem operates aligned hm hclear
  | jal links => exact jal_does hpc hreg hmem links
  | jalr links => exact jalr_does hreg hmem links
  | fence waits =>
    have hends : ¬ h.EndsBy d := not_endsBy fun hi => by rw [hi] at waits; simp at waits
    have hexec : c.execute host d csr = .ok c := by
      rcases waits with hi | hi <;> simp only [execute, hi]
    exact ⟨_, hexec, rfl, rfl, rfl, update_zero hreg, hmem, .inl, (or_iff_left hends).symm⟩

/-! ## Rounds -/

/-- Between two rounds, the processor is in the state `h`. -/
structure Stands (c : RiscvCpu) (R : Regime) (s : Bytes.Store 32) (h : Isa.Hart) : Prop where
  plain : c.Plain R
  nextPc : c.nextPc = h.pc
  reg : c.reg = h.x.read
  memory : R.Backs s h.mem c.memory.bytes

theorem and_three_word (h : Isa.Hart) : h.word &&& 0b11 = 0b11 ↔ parcel h.mem h.pc &&& 0b11 = 0b11 := by
  rw [Isa.Hart.word]
  split
  · exact joined_and_three _ _
  · exact setWidth_and_three _

theorem decodeStage_nextPc (hpc : c.pc = h.pc) (hir : c.ir = h.word) : c.decodeStage.nextPc = h.next := by
  rw [decodeStage, Isa.Hart.next, Isa.Hart.size, hpc, hir]
  by_cases h3 : parcel h.mem h.pc &&& 0b11 = 0b11
  · rw [if_pos h3, decide_eq_false (not_not.mpr ((and_three_word h).mpr h3))]
    rfl
  · have hne : h.word &&& 0b11 ≠ 0b11 := fun hw => h3 ((and_three_word h).mp hw)
    rw [if_neg h3, decide_eq_true hne]
    rfl

/-- A round without devices ends with `zero` cleared. -/
theorem finishStage_plain (h : c.Plain R) : c.finishStage host =
    .ok ({ c with errorFlag := c.errorFlag || decide (c.pc = c.nextPc) }.setReg zero 0) := by
  rw [finishStage]
  by_cases hpc : c.pc = c.nextPc
  · simp only [hpc, if_true, decide_true, Bool.or_true]
    exact if_neg (by rw [setReg]; exact Bool.eq_false_iff.mp h.devices)
  · simp only [hpc, if_false, decide_false, Bool.or_false]
    exact if_neg (by rw [setReg]; exact Bool.eq_false_iff.mp h.devices)

/-- The state in which the instruction at `h` is executed. -/
structure Fetched (R : Regime) (s : Bytes.Store 32) (c c₂ : RiscvCpu) (h : Isa.Hart) : Prop where
  plain : c₂.Plain R
  en64bit : c₂.en64bit = c.en64bit
  pc : c₂.pc = h.pc
  nextPc : c₂.nextPc = h.next
  reg : c₂.reg = h.x.read
  memory : R.Backs s h.mem c₂.memory.bytes

/-- What a round is that has led to `h'`: it ends the loop with an error if
the program goes nowhere, and at a return to address zero. -/
structure Stepped (R : Regime) (s : Bytes.Store 32) (c c' : RiscvCpu) (h h' : Isa.Hart) (ended : Prop) : Prop
    extends c'.Stands R s h' where
  en64bit : c'.en64bit = c.en64bit
  errorFlag : c'.errorFlag = true ↔ h'.pc = h.pc
  endFlag : c'.endFlag = true ↔ ended

/-- A round does what its instruction does. -/
theorem Stands.stepped {ended : Prop} (hs : R.Space s) (hc : c.Stands R s h) (hf : h.CodeIn R s)
    (hflags : c.errorFlag = false ∧ c.endFlag = false)
    (hexec : ∀ c₂ csr, Fetched R s c c₂ h → ∃ c₄, c₂.execute host (decode h.word c.mxl) csr = .ok c₄ ∧
      Executed R s c₂ c₄ h' ended) : ∃ c', c.step host = .ok c' ∧ Stepped R s c c' h h' ended := by
  obtain ⟨c₁, hhead, hposts, hplain₁⟩ := interruptStage_plain hc.plain
  obtain ⟨mip, csrs, p, v, u, rfl, -, -⟩ := hposts
  obtain ⟨c₂, hfetch, hplain₂, hcontrol₂, hreg₂, hmem₂, hending₂, hir⟩ :=
    fetchStage_backs (h := h) hs hplain₁ hc.nextPc hc.memory hf
  have hpc₂ : c₂.pc = h.pc := (congrArg Control.pc hcontrol₂).trans hc.nextPc
  -- The instruction that is decoded, and the address after it.
  have hen₂ : c₂.en64bit = c.en64bit := congrArg Control.en64bit hcontrol₂
  have hmxl : c₂.mxl = c.mxl := by rw [mxl, mxl, hen₂]
  have hplain₃ : c₂.decodeStage.Plain R := ⟨hplain₂.regime, hplain₂.masked, hplain₂.pageFault, hplain₂.devices⟩
  have hfetched : Fetched R s c c₂.decodeStage h :=
    ⟨hplain₃, hen₂, hpc₂, decodeStage_nextPc hpc₂ hir, hreg₂.trans hc.reg, hmem₂⟩
  obtain ⟨c₄, hexec, hdone⟩ := hexec c₂.decodeStage (getCsr c₂.ir) hfetched
  have hplain₄ := hplain₃.of_control hdone.control (hdone.pageFault.trans hplain₃.pageFault)
  have hpc₄ : c₄.pc = h.pc := (congrArg Control.pc hdone.control).trans hpc₂
  have hf₂ : c₂.errorFlag = false ∧ c₂.endFlag = false :=
    ⟨(congrArg Prod.fst hending₂).trans hflags.1, (congrArg (fun r => r.2.1) hending₂).trans hflags.2⟩
  refine ⟨{ c₄ with errorFlag := c₄.errorFlag || decide (c₄.pc = c₄.nextPc) }.setReg zero 0, ?_,
    ⟨⟨hplain₄.regime, hplain₄.masked, hplain₄.pageFault, hplain₄.devices⟩, hdone.nextPc, hdone.reg, hdone.memory⟩,
    (congrArg Control.en64bit hdone.control).trans hen₂, ?_, ?_⟩
  · rw [step, hhead, Except.ok_bind]
    dsimp only
    rw [if_neg Bool.false_ne_true, hfetch, Except.ok_bind, if_neg (by rw [hplain₂.pageFault]; exact Bool.false_ne_true),
      executeStage, hir, hmxl]
    rw [hir] at hexec
    exact (congrArg (· >>= _) hexec).trans (finishStage_plain hplain₄)
  · show (c₄.errorFlag || decide (c₄.pc = c₄.nextPc)) = true ↔ _
    rw [hpc₄, hdone.nextPc, Bool.or_eq_true, decide_eq_true_iff]
    constructor
    · rintro (he | he)
      · refine (hdone.errorFlag he).elim (fun he => ?_) fun he => he.trans hpc₂
        have hf : c₂.decodeStage.errorFlag = false := hf₂.1
        rw [hf] at he
        cases he
      · exact he.symm
    · exact fun he => .inr he.symm
  · show c₄.endFlag = true ↔ _
    have hf : c₂.decodeStage.endFlag = false := hf₂.2
    rw [hdone.endFlag, hf]
    simp

/-! ## Runs -/

/-- A round after which the loop goes on. -/
def goOn (host : Host) (c : RiscvCpu) : Option RiscvCpu :=
  match c.step host with
  | .ok c' => if c'.errorFlag ∨ c'.endFlag then none else some c'
  | .error _ => none

theorem goOn_some (h : c.goOn host = some c') :
    c.step host = .ok c' ∧ c'.errorFlag = false ∧ c'.endFlag = false := by
  unfold goOn at h
  split at h
  · next hs =>
    split at h
    · cases h
    · next hf =>
      cases h
      rw [not_or, Bool.not_eq_true, Bool.not_eq_true] at hf
      exact ⟨hs, hf⟩
  · cases h

theorem Stepped.goOn {ended : Prop} (hs : c.step host = .ok c') (h₁ : Stepped R s c c' h h' ended) (hpc : h'.pc ≠ h.pc)
    (hends : ¬ ended) : c.goOn host = some c' ∧ c'.errorFlag = false ∧ c'.endFlag = false := by
  have he : c'.errorFlag = false := Bool.eq_false_iff.mpr fun hc => hpc (h₁.errorFlag.mp hc)
  have hn : c'.endFlag = false := Bool.eq_false_iff.mpr fun hc => hends (h₁.endFlag.mp hc)
  rw [RiscvCpu.goOn, hs]
  exact ⟨by simp [he, hn], he, hn⟩

/-- Rounds of the loop, and those that are left. -/
theorem runLoop_after {n : Nat} (fuel : Nat) (h : Machine.after (goOn host) n c = some c') :
    runLoop host (n + fuel) c = runLoop host fuel c' := by
  induction n generalizing c with
  | zero =>
    cases h
    rw [Nat.zero_add]
  | succ n ih =>
    obtain ⟨c₁, h₁, h⟩ := Option.bind_eq_some_iff.mp h
    obtain ⟨hs, he, hn⟩ := goOn_some h₁
    rw [Nat.succ_add, runLoop, hs, Except.ok_bind, if_neg (by simp [he, hn]), ih h]

/-- The loop returns what the round returns with which it ends. -/
theorem runLoop_last {c₁ : RiscvCpu} {n fuel : Nat} (h : Machine.after (goOn host) n c = some c₁)
    (hs : c₁.step host = .ok c') (hstop : c'.errorFlag = true ∨ c'.endFlag = true) (hfuel : n < fuel) :
    runLoop host fuel c = .ok (some c') := by
  obtain ⟨k, rfl⟩ : ∃ k, fuel = n + (k + 1) := ⟨fuel - n - 1, by omega⟩
  rw [runLoop_after _ h, runLoop, hs, Except.ok_bind, if_pos hstop]
  rfl

end

end RiscvCpu

end RiscvEmulator
