/-
Loads and stores, byte by byte.

An access of `w` bytes at `va` is `Mapped` if each byte has a translation of
its own and none of them is part of an entry that is used to translate the
others. The code translates once or twice, cutting the access at the end of
a doubleword. `storeInstruction_bytes` says that a store still writes every
byte where its own translation puts it. The second half of a load is
translated from the physical address of the first: `loadInstruction_iff`
says when that reads the right bytes.
-/
import RiscvEmulator.RoundFacts

namespace RiscvEmulator

open Bytes (byteOf)
open MemoryWrapper (flat flat_add)

/-! ## Mapped accesses -/

/-- Each of the `w` bytes at `va` has a translation, `tr`, and where it leads
is no part of an entry used for one of them. -/
structure Mapped (R : Regime) (s : Bytes.Store 32) (va : BitVec 64) (w : Nat) (tr : Nat → Translation) : Prop where
  translates : ∀ k < w, R.translate s (va + BitVec.ofNat 64 k) = some (tr k)
  apart : ∀ k < w, ∀ j < w, ¬ R.Uses s (va + BitVec.ofNat 64 k) (flat (tr j).address)

section

variable {R : Regime} {s : Bytes.Store 32} {va : BitVec 64} {w : Nat} {tr : Nat → Translation}

theorem toNat_va_add (va : BitVec 64) (k : Nat) :
    (va + BitVec.ofNat 64 k).toNat % 2 ^ 12 = (va.toNat + k) % 2 ^ 12 := by
  rw [BitVec.toNat_add, BitVec.toNat_ofNat, Nat.mod_mod_of_dvd _ (by decide), Nat.add_mod,
    Nat.mod_mod_of_dvd _ (by decide), ← Nat.add_mod]

/-- Bytes of one doubleword are mapped side by side. -/
theorem Mapped.side (h : Mapped R s va w tr) {k j : Nat} (hk : k + j < w) (hw : w ≤ 8)
    (h8 : (va.toNat + k) % 8 + j < 8) :
    tr (k + j) = { tr k with address := (tr k).address + BitVec.ofNat 64 j } := by
  have hmod := toNat_va_add va k
  have hadd := (Regime.translate_add (h.translates k (by omega)) (k := j) (by omega)).1
  have hkj := h.translates (k + j) hk
  rw [BitVec.ofNat_add, ← BitVec.add_assoc, hadd] at hkj
  exact (Option.some.inj hkj).symm

/-- Different bytes are mapped to different places: an access is shorter than
a page, and the page offset is not translated. -/
theorem Mapped.injective (h : Mapped R s va w tr) (hw : w ≤ 8) {k j : Nat} (hk : k < w) (hj : j < w)
    (he : flat (tr k).address = flat (tr j).address) : k = j := by
  have hmk := Regime.translate_mod (h.translates k hk)
  have hmj := Regime.translate_mod (h.translates j hj)
  rw [toNat_va_add] at hmk hmj
  have hflat := congrArg BitVec.toNat he
  rw [MemoryWrapper.toNat_flat, MemoryWrapper.toNat_flat] at hflat
  omega

theorem Mapped.leaf_ne (h : Mapped R s va w tr) {k j : Nat} (hk : k < w) (hj : j < w) {a : BitVec 32}
    (ha : (tr k).leaf = some a) : a ≠ flat (tr j).address := by
  rintro rfl
  exact h.apart k hk j hj (Regime.uses_leaf (h.translates k hk) ha)

/-- Marking a leaf and storing at the places of some of the bytes leaves the
translations as they are. -/
theorem Mapped.translate_store (h : Mapped R s va w tr) {k n : Nat} (hk : k < w) (hn : n ≤ w) (hw : w ≤ 8)
    (d : BitVec 64)
    (hside : ∀ j < n, flat (tr (0 + j)).address = flat (tr 0).address + BitVec.ofNat 32 j) :
    R.translate (Bytes.store ((tr 0).mark s true) (flat (tr 0).address) d n) (va + BitVec.ofNat 64 k) =
      some (tr k) := by
  have hmark := Regime.translate_mark (h.translates 0 (by omega)) true (va + BitVec.ofNat 64 k)
  rw [(Regime.translate_congr fun b hb => ?_).1, hmark.1, h.translates k hk]
  rw [Bytes.store_apply _ _ _ (by omega)]
  split
  · next hlt =>
    have hb' : b = flat (tr (b - flat (tr 0).address).toNat).address := by
      have hj := hside _ hlt
      rw [Nat.zero_add] at hj
      rw [hj, Bytes.add_ofNat_sub]
    rw [hmark.2, hb'] at hb
    exact absurd hb (h.apart k hk _ (by omega))
  · rfl

/-! ## Stored bytes -/

/-- `s'` is `s` after the first `n` bytes of a store of `v`: they are in their
places, and of the others only leaf entries have changed, in A and D. -/
structure Stored (s s' : Bytes.Store 32) (v : BitVec 64) (tr : Nat → Translation) (n : Nat) : Prop where
  bytes : ∀ k < n, s' (flat (tr k).address) = byteOf v k
  others : ∀ b, (∀ k < n, b ≠ flat (tr k).address) →
    s' b = s b ∨ ((∃ k < n, (tr k).leaf = some b) ∧ s' b = marked (s b) true)

theorem Stored.refl (s : Bytes.Store 32) (v : BitVec 64) (tr : Nat → Translation) : Stored s s v tr 0 :=
  ⟨nofun, fun _ _ => .inl rfl⟩

theorem Translation.mark_apply (t : Translation) (s : Bytes.Store 32) (write : Bool) (b : BitVec 32) :
    t.mark s write b = if t.leaf = some b then marked (s b) write else s b := by
  unfold mark
  cases h : t.leaf with
  | none => rw [if_neg nofun]
  | some a =>
    dsimp only
    by_cases hab : a = b
    · subst hab
      rw [if_pos rfl, markAt, Function.update_self]
    · rw [if_neg (fun he => hab (Option.some.inj he)), markAt, Function.update_of_ne (Ne.symm hab)]

/-- The low bytes of `d` after those that are stored, at the address of the
first of them and with its leaf marked. -/
theorem Stored.append {s₁ : Bytes.Store 32} {v d : BitVec 64} {k₀ n : Nat} (h : Stored s s₁ v tr k₀)
    (hm : Mapped R s va w tr) (hw : w ≤ 8) (hn : 0 < n) (hkn : k₀ + n ≤ w)
    (hside : ∀ j < n, flat (tr (k₀ + j)).address = flat (tr k₀).address + BitVec.ofNat 32 j)
    (hd : ∀ j < n, byteOf d j = byteOf v (k₀ + j)) :
    Stored s (Bytes.store ((tr k₀).mark s₁ true) (flat (tr k₀).address) d n) v tr (k₀ + n) := by
  -- A byte of the new part is one of the `n` after `k₀`.
  have hin : ∀ b, (b - flat (tr k₀).address).toNat < n →
      b = flat (tr (k₀ + (b - flat (tr k₀).address).toNat)).address := by
    intro b hb
    rw [hside _ hb, Bytes.add_ofNat_sub]
  refine ⟨fun k hk => ?_, fun b hb => ?_⟩
  · rw [Bytes.store_apply _ _ _ (by omega)]
    split
    · next hlt =>
      have hkj := hm.injective hw (by omega) (by omega) (hin _ hlt)
      rw [hd _ hlt, ← hkj]
    · next hlt =>
      have hk₀ : k < k₀ := by
        by_contra hge
        apply hlt
        have hkj := hside (k - k₀) (by omega)
        rw [show k₀ + (k - k₀) = k by omega] at hkj
        rw [hkj, Bytes.toNat_offset _ (by omega)]
        omega
      rw [Translation.mark_apply, if_neg (fun hl => hm.leaf_ne (by omega) (by omega) hl rfl), h.bytes k hk₀]
  · rw [Bytes.store_apply _ _ _ (by omega), if_neg (fun hlt => hb _ (by omega) (hin b hlt)), Translation.mark_apply]
    have hold := h.others b fun k hk => hb k (by omega)
    split
    · next hl =>
      refine .inr ⟨⟨k₀, by omega, hl⟩, ?_⟩
      rcases hold with he | ⟨-, he⟩
      · rw [he]
      · rw [he, marked_marked]
    · rcases hold with he | ⟨⟨k, hk, hl⟩, he⟩
      · exact .inl he
      · exact .inr ⟨⟨k, by omega, hl⟩, he⟩

/-! ## Loaded bytes -/

/-- The first half reads its own bytes: they are side by side, and the leaf
that is marked is none of them. -/
theorem Mapped.load_first (h : Mapped R s va w tr) {n : Nat} (hn : n ≤ w) (hw : w ≤ 8)
    (h8 : va.toNat % 8 + n ≤ 8) : Bytes.load 64 ((tr 0).mark s false) (flat (tr 0).address) n =
      Bytes.compose 64 (fun k => s (flat (tr k).address)) n := by
  refine Bytes.compose_congr fun j hj => ?_
  have hj' : flat (tr 0).address + BitVec.ofNat 32 j = flat (tr j).address := by
    have hside := h.side (k := 0) (j := j) (by omega) hw (by omega)
    rw [Nat.zero_add] at hside
    rw [hside, flat_add]
  rw [hj', Translation.mark_apply, if_neg (fun hl => h.leaf_ne (by omega) (by omega) hl rfl)]

end

/-! ## Stores -/

namespace RiscvCpu

variable {c : RiscvCpu} {R : Regime} {w : Nat} {tr : Nat → Translation}

/-- The bytes before the cut are side by side, and so are those after it. -/
theorem mapped_cut {s : Bytes.Store 32} {va : BitVec 64} (h : Mapped R s va w tr) (hw : IsWidth w) :
    (∀ j < getAccessWidth w va, flat (tr (0 + j)).address = flat (tr 0).address + BitVec.ofNat 32 j) ∧
      ∀ j < w - getAccessWidth w va, flat (tr (getAccessWidth w va + j)).address =
        flat (tr (getAccessWidth w va)).address + BitVec.ofNat 32 j := by
  have hw8 := hw.bounds.2
  have hcut := getAccessWidth_eq hw va
  refine ⟨fun j hj => ?_, fun j hj => ?_⟩
  · rw [h.side (k := 0) (j := j) (by split at hcut <;> omega) hw8 (by split at hcut <;> omega), flat_add]
  · rw [h.side (by omega) hw8 (by split at hcut <;> omega), flat_add]

/-- The state after the first part of a store is written. -/
structure FirstPart (c c₁ : RiscvCpu) (t : Translation) (v : BitVec 64) (n : Nat) : Prop extends Translated c c₁ where
  pageFault : c₁.pageFault = false
  bytes : c₁.memory.bytes = Bytes.store (t.mark c.memory.bytes true) (flat t.address) v n

/-- A store whose first part translates writes that part, and goes on from
there if there is a second one. -/
theorem storeInstruction_first {i : Instruction} {rs1 : BitVec 5} (rs2 : BitVec 5) {imm : BitVec 32} {va : BitVec 64}
    {t : Translation} (hp : c.pageFault = false) (hR : c.regime = .ok R) (hw : getStoreWidth i = .ok w)
    (hva : c.reg rs1 + imm.signExtend 64 = va) (ht : R.translate c.memory.bytes va = some t) :
      ∃ c₁, FirstPart c c₁ t (c.reg rs2) (getAccessWidth w va) ∧
      c.storeInstruction i rs1 rs2 imm =
        if w - getAccessWidth w va > 0 then do
          let (nextAddress, c₂) ← c₁.virtualToPhysical (va + BitVec.ofNat 64 (getAccessWidth w va)) true
          if c₂.pageFault then
            return ← c₂.trap storePageFault false
          let memory ← storeWd c₂.memory nextAddress (c₂.reg rs2 >>> (getAccessWidth w va * 8))
            (w - getAccessWidth w va)
          return { c₂ with memory, peripheral := c₂.peripheral.checkDeviceWrite t.address w (c₂.reg rs2) }
        else .ok { c₁ with peripheral := c₁.peripheral.checkDeviceWrite t.address w (c₁.reg rs2) } := by
  have hwidth := getStoreWidth_ok hw
  have hw8 := hwidth.bounds.2
  obtain ⟨haw, haw'⟩ := getAccessWidth_pos hwidth va
  obtain ⟨c₁, h₁, hk, hpf, -, hb₁, -⟩ := virtualToPhysical_some hR ht true
  obtain ⟨m₂, h₂, hb₂⟩ := storeWd_bytes c₁.memory t.address
    (c₁.reg rs2 &&& (generateBitMask (getAccessWidth w va * 8)).signExtend 64) haw (by omega)
  refine ⟨{ c₁ with memory := m₂ }, ⟨⟨hk.control, hk.reg, hk.peripheral⟩, hpf.trans hp, ?_⟩, ?_⟩
  · show m₂.bytes = _
    rw [hb₂, hb₁, hk.reg]
    exact Bytes.store_congr _ _ fun j hj => byteOf_dataMask _ (by omega) hj
  · rw [storeInstruction]
    dsimp only
    rw [hva, h₁, Except.ok_bind]
    dsimp only
    rw [if_neg (by rw [hpf, hp]; exact Bool.false_ne_true), hw, Except.ok_bind, h₂, Except.ok_bind]
    rfl

/-- **Stores write every byte through its own translation.** In a state
without a page fault, a store whose bytes are mapped takes no trap, puts
each byte of `rs2` where that byte's address leads, and changes no other
byte but the A and D bits of the leaf entries used. -/
theorem storeInstruction_bytes (c : RiscvCpu) (i : Instruction) (rs1 rs2 : BitVec 5) (imm : BitVec 32) (R : Regime)
    (w : Nat) (tr : Nat → Translation) (hp : c.pageFault = false) (hR : c.regime = .ok R)
    (hw : getStoreWidth i = .ok w) (hm : Mapped R c.memory.bytes (c.reg rs1 + imm.signExtend 64) w tr) :
    ∃ c', c.storeInstruction i rs1 rs2 imm = .ok c' ∧ c'.trapLog = c.trapLog ∧
      Stored c.memory.bytes c'.memory.bytes (c.reg rs2) tr w := by
  have hwidth := getStoreWidth_ok hw
  have hw8 := hwidth.bounds.2
  generalize hva : c.reg rs1 + imm.signExtend 64 = va at hm
  obtain ⟨haw, haw'⟩ := getAccessWidth_pos hwidth va
  obtain ⟨hcut, hcut'⟩ := mapped_cut hm hwidth
  -- The first part.
  have ht₀ := hm.translates 0 (by omega)
  rw [BitVec.add_zero] at ht₀
  obtain ⟨c₁, hf, hstore⟩ := storeInstruction_first rs2 hp hR hw hva ht₀
  have hlog₁ : c₁.trapLog = c.trapLog := congrArg Control.trapLog hf.control
  have hs₁ : Stored c.memory.bytes c₁.memory.bytes (c.reg rs2) tr (0 + getAccessWidth w va) := by
    rw [hf.bytes]
    refine (Stored.refl _ _ _).append hm hw8 (by omega) (by omega) hcut fun j _ => ?_
    rw [Nat.zero_add]
  rw [Nat.zero_add] at hs₁
  rw [hstore]
  split
  · next hnext =>
    -- The second one, translated in the memory the first has left.
    have ht₁ := hm.translate_store (k := getAccessWidth w va) (n := getAccessWidth w va) (by omega) (by omega) hw8
      (c.reg rs2) hcut
    rw [← hf.bytes] at ht₁
    obtain ⟨c₂, h₂, hk, hp₂, -, hb₂, -⟩ := virtualToPhysical_some (hf.toTranslated.regime.trans hR) ht₁ true
    have hreg : c₂.reg = c.reg := (hf.toTranslated.trans hk).reg
    have hlog₂ : c₂.trapLog = c₁.trapLog := congrArg Control.trapLog hk.control
    obtain ⟨m, h₃, hb₃⟩ := storeWd_bytes c₂.memory (tr (getAccessWidth w va)).address
      (c.reg rs2 >>> (getAccessWidth w va * 8)) (w := w - getAccessWidth w va) (by omega) (by omega)
    have hs₂ : Stored c.memory.bytes m.bytes (c.reg rs2) tr (getAccessWidth w va + (w - getAccessWidth w va)) := by
      rw [hb₃, hb₂]
      refine hs₁.append hm hw8 (by omega) (by omega) hcut' fun j hj => ?_
      rw [Nat.mul_comm, Bytes.byteOf_shiftRight]
    rw [h₂, Except.ok_bind]
    dsimp only
    rw [if_neg (by rw [hp₂, hf.pageFault]; exact Bool.false_ne_true), hreg, h₃, Except.ok_bind]
    refine ⟨_, rfl, hlog₂.trans hlog₁, ?_⟩
    rw [show getAccessWidth w va + (w - getAccessWidth w va) = w by omega] at hs₂
    exact hs₂
  · next hnext =>
    refine ⟨_, rfl, hlog₁, ?_⟩
    rw [show getAccessWidth w va = w by omega] at hs₁
    exact hs₁

/-- A supervisor with two pages, of frames 5 and 9, and `x1` two bytes before
the end of the first. -/
def crossing : RiscvCpu :=
  let memory := (((MemoryWrapper.new.assign 0).setWord 0 0x400 0x801).setWord 0 0x800 0x14CF).setWord 0 0x801 0x24CF
  { ((((new false 0).setMemory memory).setCsr Csr.satp 0x80000001).setReg x1 0xFFE).setReg x2 0x44332211 with
    privilege := .supervisorMode }

/-- Where the four bytes at `x1` are. -/
def crossingTranslation (k : Nat) : Translation :=
  if k < 2 then ⟨0x5FFE + BitVec.ofNat 64 k, some 0x2000⟩ else ⟨0x9000 + BitVec.ofNat 64 (k - 2), some 0x2004⟩

theorem storeInstruction_bytes_crossing :
    ∃ c', crossing.storeInstruction .sw x1 x2 0 = .ok c' ∧ c'.trapLog = crossing.trapLog ∧
      Stored crossing.memory.bytes c'.memory.bytes (crossing.reg x2) crossingTranslation 4 :=
  storeInstruction_bytes crossing .sw x1 x2 0 (.table (.sv32 1)) 4 crossingTranslation rfl rfl rfl
    ⟨by decide, by decide⟩

/-! ## Loads -/

/-- What a load of the bytes `f` should give: their sign or zero extension. -/
def loadedValue (i : Instruction) (w : Nat) (f : Nat → BitVec 8) : BitVec 64 :=
  match i with
  | .lb | .lh | .lw => Bits.sext (Bytes.compose 64 f w) (8 * w)
  | _ => Bytes.compose 64 f w

theorem extendLoad_eq {i : Instruction} (hw : getLoadWidth i = .ok w) (f : Nat → BitVec 8) :
    extendLoad i (Bytes.compose 64 f w) w = loadedValue i w f := by
  cases i <;> simp only [getLoadWidth, reduceCtorEq] at hw <;> cases hw <;> simp only [extendLoad, loadedValue]
  case lb | lh | lw => exact signExtend_eq_sext _ (by decide) (by decide) (by decide)
  case lwu =>
    have hmask : ∀ j < 64, (0xFFFFFFFF : BitVec 64).getLsbD j = decide (j < 32) := by decide
    apply BitVec.eq_of_getLsbD_eq
    intro j hj
    rw [BitVec.getLsbD_and, hmask j hj, Bytes.getLsbD_compose]
    by_cases h : j < 32 <;> simp [h]

/-- The bytes are those of the value. -/
theorem byteOf_loadedValue (i : Instruction) (f : Nat → BitVec 8) (hw : w ≤ 8) {j : Nat} (hj : j < w) :
    byteOf (loadedValue i w f) j = f j := by
  have hsext : byteOf (Bits.sext (Bytes.compose 64 f w) (8 * w)) j = byteOf (Bytes.compose 64 f w) j := by
    apply BitVec.eq_of_getLsbD_eq
    intro k hk
    rw [Bytes.getLsbD_byteOf, Bytes.getLsbD_byteOf, Bits.getLsbD_sext _ (by omega) (by omega),
      show min (8 * j + k) (8 * w - 1) = 8 * j + k by omega]
  unfold loadedValue
  split
  · rw [hsext, Bytes.byteOf_compose hj (by omega)]
  · rw [hsext, Bytes.byteOf_compose hj (by omega)]
  · rw [hsext, Bytes.byteOf_compose hj (by omega)]
  · exact Bytes.byteOf_compose hj (by omega)

theorem loadedValue_eq_iff (i : Instruction) (f g : Nat → BitVec 8) (hw : w ≤ 8) :
    loadedValue i w f = loadedValue i w g ↔ ∀ j < w, f j = g j := by
  constructor
  · intro h j hj
    rw [← byteOf_loadedValue i f hw hj, h, byteOf_loadedValue i g hw hj]
  · intro h
    unfold loadedValue
    rw [Bytes.compose_congr h]

/-- The load takes no trap and gives `rd` the bytes of its own translations
in the memory `s`. -/
def LoadsOwnBytes (c : RiscvCpu) (i : Instruction) (rd rs1 : BitVec 5) (imm : BitVec 32) (w : Nat)
    (s : Bytes.Store 32) (tr : Nat → Translation) : Prop :=
  ∃ c', c.loadInstruction i rd rs1 imm = .ok c' ∧ c'.trapLog = c.trapLog ∧
    c'.reg = Function.update c.reg rd (loadedValue i w fun k => s (flat (tr k).address))

/-- The access is not cut, or the address after the physical address of the
first half, taken as a virtual one, translates, and what is there when the
leaves are marked is what the second half should read. -/
def SecondHalfAgrees (R : Regime) (s : Bytes.Store 32) (va : BitVec 64) (w : Nat) (tr : Nat → Translation) : Prop :=
  va.toNat % 8 + w ≤ 8 ∨
    ∃ t, R.translate s ((tr 0).address + BitVec.ofNat 64 (8 - va.toNat % 8)) = some t ∧
      ∀ j < w - (8 - va.toNat % 8), t.mark ((tr 0).mark s false) false (flat t.address + BitVec.ofNat 32 j) =
        s (flat (tr (8 - va.toNat % 8 + j)).address)

section

variable {i : Instruction} {rs1 : BitVec 5} {imm : BitVec 32} {m : MemoryWrapper} {va : BitVec 64}

/-- The physical address is cut where the virtual one is. -/
theorem getAccessWidth_translated {s : Bytes.Store 32} (h : Mapped R s va w tr) (hw : IsWidth w) :
    getAccessWidth w (tr 0).address = if va.toNat % 8 + w ≤ 8 then w else 8 - va.toNat % 8 := by
  have hpos := hw.bounds.1
  have ht := Regime.translate_mod (h.translates 0 hpos)
  rw [BitVec.add_zero] at ht
  rw [getAccessWidth_eq hw, show (tr 0).address.toNat % 8 = va.toNat % 8 by omega]

/-- A load that is not cut. -/
theorem loadInstruction_whole (rd : BitVec 5) (hp : c.pageFault = false) (hR : c.regime = .ok R)
    (hw : getLoadWidth i = .ok w)
    (hm : c.peripheral.memoryMappedValueUpdate c.memory = .ok m) (hva : c.reg rs1 + imm.signExtend 64 = va)
    (hmap : Mapped R m.bytes va w tr) (h8 : va.toNat % 8 + w ≤ 8) : c.LoadsOwnBytes i rd rs1 imm w m.bytes tr := by
  have hwidth := getLoadWidth_ok hw
  have hw8 := hwidth.bounds
  have haw : getAccessWidth w (tr 0).address = w := by rw [getAccessWidth_translated hmap hwidth, if_pos h8]
  have ht₀ := hmap.translates 0 (by omega)
  rw [BitVec.add_zero] at ht₀
  obtain ⟨mmu₁, m₁, h₁, hb₁, -⟩ := virtualToPhysical_of_some (c := { c with memory := m })
    ((regime_of_control rfl).trans hR) ht₀ false
  unfold LoadsOwnBytes
  have hload : loadWd m₁ (tr 0).address (getAccessWidth w (tr 0).address) =
      .ok (Bytes.compose 64 (fun k => m.bytes (flat (tr k).address)) w) := by
    rw [haw, loadWd_eq m₁ _ hw8.1 hw8.2, hb₁, hmap.load_first (Nat.le_refl w) hw8.2 h8]
  subst hva
  refine ⟨_, (LoadPath.whole hm h₁ hp hw hload (by omega)).ok, rfl, ?_⟩
  rw [extendLoad_eq hw]
  rfl

/-- The bytes a load that is cut reads, when the second half is at `t`. -/
def cutBytes (s : Bytes.Store 32) (tr : Nat → Translation) (t : Translation) (cut k : Nat) : BitVec 8 :=
  if k < cut then s (flat (tr k).address)
  else t.mark ((tr 0).mark s false) false (flat t.address + BitVec.ofNat 32 (k - cut))

/-- They are the two halves put together. -/
theorem compose_cutBytes {s : Bytes.Store 32} {t : Translation} {cut : Nat} (h : cut ≤ w) :
    Bytes.compose 64 (fun k => s (flat (tr k).address)) cut |||
        (Bytes.load 64 (t.mark ((tr 0).mark s false) false) (flat t.address) (w - cut) <<< (8 * cut)) =
      Bytes.compose 64 (cutBytes s tr t cut) w := by
  have hw : w = cut + (w - cut) := by omega
  have hlow : Bytes.compose 64 (cutBytes s tr t cut) cut = Bytes.compose 64 (fun k => s (flat (tr k).address)) cut :=
    Bytes.compose_congr fun j hj => if_pos hj
  have hhigh : Bytes.compose 64 (fun j => cutBytes s tr t cut (cut + j)) (w - cut) =
      Bytes.load 64 (t.mark ((tr 0).mark s false) false) (flat t.address) (w - cut) := by
    refine Bytes.compose_congr fun j _ => ?_
    rw [cutBytes, if_neg (by omega), Nat.add_sub_cancel_left]
  rw [← hlow, ← hhigh, ← Bytes.compose_append, ← hw]

/-- A load that is cut: the second half is looked for after the physical
address of the first. -/
theorem loadInstruction_cut (rd : BitVec 5) (hp : c.pageFault = false) (hR : c.regime = .ok R)
    (hw : getLoadWidth i = .ok w)
    (hm : c.peripheral.memoryMappedValueUpdate c.memory = .ok m) (hva : c.reg rs1 + imm.signExtend 64 = va)
    (hmap : Mapped R m.bytes va w tr) (h8 : ¬ va.toNat % 8 + w ≤ 8) :
    ∃ c', c.loadInstruction i rd rs1 imm = .ok c' ∧
      match R.translate m.bytes ((tr 0).address + BitVec.ofNat 64 (8 - va.toNat % 8)) with
      | none => c'.trapLog = (loadPageFault, false) :: c.trapLog
      | some t => c'.trapLog = c.trapLog ∧
          c'.reg = Function.update c.reg rd (loadedValue i w (cutBytes m.bytes tr t (8 - va.toNat % 8))) := by
  have hwidth := getLoadWidth_ok hw
  have hw8 := hwidth.bounds
  have haw : getAccessWidth w (tr 0).address = 8 - va.toNat % 8 := by
    rw [getAccessWidth_translated hmap hwidth, if_neg h8]
  have ht₀ := hmap.translates 0 (by omega)
  rw [BitVec.add_zero] at ht₀
  obtain ⟨mmu₁, m₁, h₁, hb₁, -⟩ := virtualToPhysical_of_some (c := { c with memory := m })
    ((regime_of_control rfl).trans hR) ht₀ false
  have hsecond : R.translate m₁.bytes ((tr 0).address + BitVec.ofNat 64 (8 - va.toNat % 8)) =
      R.translate m.bytes ((tr 0).address + BitVec.ofNat 64 (8 - va.toNat % 8)) := by
    rw [hb₁]
    exact (Regime.translate_mark ht₀ false _).1
  have hR₁ : ({ c with memory := m₁, mmu := mmu₁ } : RiscvCpu).regime = .ok R := (regime_of_control rfl).trans hR
  subst hva
  have hlow := loadWd_eq m₁ (tr 0).address (w := getAccessWidth w (tr 0).address) (by omega) (by omega)
  cases ht : R.translate m.bytes ((tr 0).address + BitVec.ofNat 64 (8 - (c.reg rs1 + imm.signExtend 64).toNat % 8)) with
  | none =>
    obtain ⟨mmu₂, h₂, -⟩ := virtualToPhysical_of_none hR₁ (hsecond.trans ht) false
    rw [← haw] at h₂
    exact ⟨_, (LoadPath.secondFault hm h₁ hp hw hlow (by omega) h₂ rfl).ok, trapBody_trapLog⟩
  | some t =>
    obtain ⟨mmu₂, m₂, h₂, hb₂, -⟩ := virtualToPhysical_of_some hR₁ (hsecond.trans ht) false
    rw [← haw] at h₂
    have hhigh := loadWd_eq m₂ t.address (w := w - getAccessWidth w (tr 0).address) (by omega) (by omega)
    refine ⟨_, (LoadPath.cut hm h₁ hp hw hlow (by omega) h₂ hp hhigh).ok, rfl, ?_⟩
    rw [haw, hb₂, hb₁, hmap.load_first (by omega) hw8.2 (by omega), Nat.mul_comm, compose_cutBytes (by omega),
      extendLoad_eq hw]
    rfl

end

/-- **Loads and their second halves.** In a state without a page fault, a
load whose bytes are mapped takes no trap and reads every byte through its
own translation if and only if it is not cut at the end of a doubleword, or
the second half is also found after the physical address of the first. -/
theorem loadInstruction_iff (c : RiscvCpu) (i : Instruction) (rd rs1 : BitVec 5) (imm : BitVec 32) (R : Regime)
    (w : Nat) (tr : Nat → Translation) (m : MemoryWrapper) (hp : c.pageFault = false) (hR : c.regime = .ok R)
    (hw : getLoadWidth i = .ok w) (hm : c.peripheral.memoryMappedValueUpdate c.memory = .ok m)
    (hmap : Mapped R m.bytes (c.reg rs1 + imm.signExtend 64) w tr) :
    c.LoadsOwnBytes i rd rs1 imm w m.bytes tr ↔
      SecondHalfAgrees R m.bytes (c.reg rs1 + imm.signExtend 64) w tr := by
  generalize hva : c.reg rs1 + imm.signExtend 64 = va at hmap ⊢
  have hw8 := (getLoadWidth_ok hw).bounds.2
  by_cases h8 : va.toNat % 8 + w ≤ 8
  · exact ⟨fun _ => .inl h8, fun _ => loadInstruction_whole rd hp hR hw hm hva hmap h8⟩
  obtain ⟨c', hc', hcut⟩ := loadInstruction_cut rd hp hR hw hm hva hmap h8
  have hown : c.LoadsOwnBytes i rd rs1 imm w m.bytes tr ↔ c'.trapLog = c.trapLog ∧
      c'.reg = Function.update c.reg rd (loadedValue i w fun k => m.bytes (flat (tr k).address)) := by
    rw [LoadsOwnBytes, hc']
    exact ⟨fun ⟨_, he, h⟩ => Except.ok.inj he ▸ h, fun h => ⟨c', rfl, h⟩⟩
  rw [hown, SecondHalfAgrees]
  cases ht : R.translate m.bytes ((tr 0).address + BitVec.ofNat 64 (8 - va.toNat % 8)) with
  | none =>
    rw [ht] at hcut
    refine ⟨fun h => ?_, fun h => ?_⟩
    · rw [hcut] at h
      exact absurd h.1 (List.cons_ne_self _ _)
    · rcases h with h | ⟨t, h, -⟩
      · exact absurd h h8
      · cases h
  | some t =>
    rw [ht] at hcut
    obtain ⟨hlog, hreg⟩ := hcut
    have hvalue : c'.reg = Function.update c.reg rd (loadedValue i w fun k => m.bytes (flat (tr k).address)) ↔
        ∀ j < w, cutBytes m.bytes tr t (8 - va.toNat % 8) j = m.bytes (flat (tr j).address) := by
      rw [hreg, ← loadedValue_eq_iff i _ _ hw8]
      exact ⟨fun h => by simpa using congrFun h rd, fun h => by rw [h]⟩
    rw [hvalue]
    refine ⟨fun h => .inr ⟨t, rfl, fun j hj => ?_⟩, fun h => ⟨hlog, fun j hj => ?_⟩⟩
    · have hb := h.2 (8 - va.toNat % 8 + j) (by omega)
      rwa [cutBytes, if_neg (by omega), Nat.add_sub_cancel_left] at hb
    · rcases h with h | ⟨t', he, h⟩
      · exact absurd h h8
      · cases he
        rw [cutBytes]
        split
        · rfl
        · next hge =>
          have hb := h (j - (8 - va.toNat % 8)) (by omega)
          rwa [show 8 - va.toNat % 8 + (j - (8 - va.toNat % 8)) = j by omega] at hb

/-- A word at address 6 in machine mode, cut after two bytes. -/
def straddling : RiscvCpu := ((new false 0).setMemory (MemoryWrapper.new.assign 0)).setReg x1 6

theorem loadInstruction_iff_straddling :
    ∃ m, straddling.peripheral.memoryMappedValueUpdate straddling.memory = .ok m ∧
      straddling.LoadsOwnBytes .lw x2 x1 0 4 m.bytes fun k => ⟨6 + BitVec.ofNat 64 k, none⟩ := by
  obtain ⟨m, hm, -⟩ := straddling.memory.write64_bytes (i := PeripheralEmulator.kTimerMtime) (by decide) 0
  refine ⟨m, hm, (loadInstruction_iff straddling .lw x2 x1 0 .bare 4 _ m rfl rfl rfl hm ?_).mpr ?_⟩
  · exact ⟨fun _ _ => rfl, fun _ _ _ _ => id⟩
  · refine .inr ⟨⟨8, none⟩, rfl, fun j hj => ?_⟩
    have hj : j = 0 ∨ j = 1 := by
      have : j < 2 := hj
      omega
    rcases hj with rfl | rfl <;> rfl

/-- Every byte of the word at `x1` is mapped, and loading it ends in a page
fault: the second half is looked for at `0x6000`. -/
theorem loadInstruction_crossing :
    ∃ m, crossing.peripheral.memoryMappedValueUpdate crossing.memory = .ok m ∧ crossing.pageFault = false ∧
      crossing.regime = .ok (.table (.sv32 1)) ∧
      Mapped (.table (.sv32 1)) m.bytes (crossing.reg x1 + (0 : BitVec 32).signExtend 64) 4 crossingTranslation ∧
      ¬ crossing.LoadsOwnBytes .lw x2 x1 0 4 m.bytes crossingTranslation := by
  obtain ⟨m, hm, hb⟩ := crossing.memory.write64_bytes (i := PeripheralEmulator.kTimerMtime) (by decide) 0
  refine ⟨m, hm, rfl, rfl, ⟨?_, ?_⟩, ?_⟩
  · rw [hb]
    decide
  · rw [hb]
    decide
  · rintro ⟨c', hc', hlog, -⟩
    have htrap : (crossing.loadInstruction .lw x2 x1 0).toOption.map (·.trapLog) = some [(loadPageFault, false)] := by
      decide
    rw [hc'] at htrap
    exact absurd (hlog.symm.trans (Option.some.inj htrap)) (by decide)

end RiscvCpu

end RiscvEmulator
