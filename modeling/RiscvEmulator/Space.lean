/-
A guest's address space.

`Reach` is the bytes of the memory that the translations of a regime lead to,
and those that the devices write of their own accord, and `Apart` says that
no entry of the table is one of them. Then the translations stay what they
are, whatever is written in reach (`Confined`).

`place` is where the guest's bytes are, and `Backs` says that the memory has
there what the guest has. What is loaded and stored through the translations
is then what the guest loads and stores (`Backs.load`, `Backs.store`).
-/
import RiscvEmulator.Isa
import RiscvEmulator.Lib.View

namespace RiscvEmulator

open Bytes (Area InArea)
open MemoryWrapper (flat flat_add)

/-! ## The bytes in reach -/

namespace PeripheralEmulator

/-- Where the devices write when no request is made of the disk: the clock,
the receiver and its status, the claim word and QUEUE_NUM_MAX. -/
def ownAreas : List (Area 32) :=
  [(flat kTimerMtime, 8), (flat kUartRhr, 1), (flat kUartLsr, 1), (flat kPlicClaimAddress, 4),
    (flat kVirtioMmioQueueMax, 4)]

end PeripheralEmulator

namespace Regime

variable {R : Regime} {s s₁ s₂ : Bytes.Store 32}

/-- A translation leads to the byte, or a device writes it. -/
def Reach (R : Regime) (s : Bytes.Store 32) (b : BitVec 32) : Prop :=
  (∃ va t, R.translate s va = some t ∧ flat t.address = b) ∨ ∃ a ∈ PeripheralEmulator.ownAreas, InArea a b

/-- The byte has the A and D bits of a leaf entry. -/
def Leaf (R : Regime) (s : Bytes.Store 32) (b : BitVec 32) : Prop := ∃ va t, R.translate s va = some t ∧ t.leaf = some b

/-- The entries are out of reach. -/
def Apart (R : Regime) (s : Bytes.Store 32) : Prop := ∀ va b, R.Uses s va b → ¬ R.Reach s b

/-- What `s` and `s₁` have in common. -/
structure Confined (R : Regime) (s s₁ : Bytes.Store 32) : Prop where
  translate : ∀ va, R.translate s₁ va = R.translate s va
  uses : ∀ va b, R.Uses s₁ va b ↔ R.Uses s va b
  bytes : ∀ b, ¬ R.Reach s b →
    s₁ b = s b ∨ (R.Leaf s b ∧ ∀ i, i ≠ 6 → i ≠ 7 → (s₁ b).getLsbD i = (s b).getLsbD i)

theorem Confined.refl (R : Regime) (s : Bytes.Store 32) : R.Confined s s where
  translate _ := rfl
  uses _ _ := Iff.rfl
  bytes _ _ := .inl rfl

/-- A write in reach. -/
theorem Confined.write (h : R.Confined s s₁) (hi : R.Apart s) (hw : ∀ b, ¬ R.Reach s b → s₂ b = s₁ b) :
    R.Confined s s₂ := by
  have hcongr : ∀ va, R.translate s₂ va = R.translate s₁ va ∧ ∀ b, R.Uses s₂ va b ↔ R.Uses s₁ va b := fun va =>
    translate_congr fun b hb => hw b (hi va b ((h.uses va b).mp hb))
  refine ⟨fun va => (hcongr va).1.trans (h.translate va), fun va b => ((hcongr va).2 b).trans (h.uses va b), ?_⟩
  intro b hb
  rw [hw b hb]
  exact h.bytes b hb

theorem getLsbD_marked_of_ne (b : BitVec 8) (write : Bool) {i : Nat} (h6 : i ≠ 6) (h7 : i ≠ 7) :
    (marked b write).getLsbD i = b.getLsbD i := by
  by_cases hi : i < 8
  · rw [getLsbD_marked _ _ hi, PageWalk.Format.testBit_mark h6 h7, BitVec.testBit_toNat]
  · rw [BitVec.getLsbD_of_ge _ _ (by omega), BitVec.getLsbD_of_ge _ _ (by omega)]

/-- The mark of a translation. -/
theorem Confined.mark (h : R.Confined s s₁) {va : BitVec 64} {t : Translation} (ht : R.translate s₁ va = some t)
    (write : Bool) : R.Confined s (t.mark s₁ write) := by
  have hmark := translate_mark ht write
  refine ⟨fun va' => (hmark va').1.trans (h.translate va'), fun va' b => ((hmark va').2 b).trans (h.uses va' b), ?_⟩
  intro b hb
  rw [Translation.mark_apply]
  split
  · next hl =>
    refine .inr ⟨⟨va, t, (h.translate va).symm.trans ht, hl⟩, fun i h6 h7 => ?_⟩
    rw [getLsbD_marked_of_ne _ _ h6 h7]
    rcases h.bytes b hb with he | ⟨-, he⟩
    · rw [he]
    · exact he i h6 h7
  · exact h.bytes b hb

/-- The bytes of an access on one page are in reach. -/
theorem Reach.of_page {va : BitVec 64} {t : Translation} {w : Nat} (ht : R.translate s va = some t)
    (hw : va.toNat % 2 ^ 12 + w ≤ 2 ^ 12) {b : BitVec 32} (hb : InArea (flat t.address, w) b) : R.Reach s b := by
  have hlt : (b - flat t.address).toNat < w := hb
  obtain ⟨hk, -⟩ := translate_add (k := (b - flat t.address).toNat) ht (by omega)
  refine .inl ⟨_, _, hk, ?_⟩
  rw [flat_add, Bytes.add_ofNat_sub]

/-- A store on one page. -/
theorem Confined.store (h : R.Confined s s₁) (hi : R.Apart s) {va : BitVec 64} {t : Translation} {w : Nat}
    (ht : R.translate s va = some t) (hw : va.toNat % 2 ^ 12 + w ≤ 2 ^ 12)
    (hs : ∀ b, ¬ InArea (flat t.address, w) b → s₂ b = s₁ b) : R.Confined s s₂ :=
  h.write hi fun b hb => hs b fun hin => hb (.of_page ht hw hin)

/-- A write of a device. -/
theorem Confined.own (h : R.Confined s s₁) (hi : R.Apart s) {a : Area 32}
    (ha : a ∈ PeripheralEmulator.ownAreas) (hs : ∀ b, ¬ InArea a b → s₂ b = s₁ b) : R.Confined s s₂ :=
  h.write hi fun b hb => hs b fun hin => hb (.inr ⟨a, ha, hin⟩)

/-! ## What the guest sees -/

/-- Where the guest's byte `b` is in the memory. -/
def place (R : Regime) (s : Bytes.Store 32) (b : BitVec 32) : Option (BitVec 32) :=
  (R.translate s (b.setWidth 64)).map fun t => flat t.address

/-- The address leads to a byte of the guest, the one its lower half has. -/
def Seen (R : Regime) (s : Bytes.Store 32) (va : BitVec 64) : Prop :=
  (R.place s (flat va)).isSome = true ∧ (R.translate s va).map (fun t => flat t.address) = R.place s (flat va)

instance (R : Regime) (s : Bytes.Store 32) (va : BitVec 64) : Decidable (R.Seen s va) :=
  inferInstanceAs (Decidable (_ ∧ _))

/-- The `w` bytes at `va` are the guest's. -/
def Mapped (R : Regime) (s : Bytes.Store 32) (va : BitVec 64) (w : Nat) : Prop :=
  ∀ k < w, R.Seen s (va + BitVec.ofNat 64 k)

instance (R : Regime) (s : Bytes.Store 32) (va : BitVec 64) (w : Nat) : Decidable (R.Mapped s va w) :=
  inferInstanceAs (Decidable (∀ k < w, _))

/-- None of them is in the clock. -/
def ClearOf (R : Regime) (s : Bytes.Store 32) (va : BitVec 64) (w : Nat) : Prop :=
  ∀ k < w, ∀ p ∈ R.place s (flat (va + BitVec.ofNat 64 k)), ¬ InArea Isa.clock p

instance (R : Regime) (s : Bytes.Store 32) (va : BitVec 64) (w : Nat) : Decidable (R.ClearOf s va w) :=
  @Nat.decidableBallLT w _ fun _ _ => Option.decidableForallMem _

/-- An access that would leave its doubleword is cut, and what is left of a
load is looked for from where its first part was found. It is found if a
second translation changes nothing. -/
def Again (R : Regime) (s : Bytes.Store 32) (va : BitVec 64) (w : Nat) : Prop :=
  8 < va.toNat % 8 + w → ∀ t ∈ R.translate s va,
    (R.translate s (t.address + BitVec.ofNat 64 (8 - va.toNat % 8))).map (fun t => flat t.address) =
      (R.translate s (va + BitVec.ofNat 64 (8 - va.toNat % 8))).map (fun t => flat t.address)

instance (R : Regime) (s : Bytes.Store 32) (va : BitVec 64) (w : Nat) : Decidable (R.Again s va w) :=
  inferInstanceAs (Decidable (_ → ∀ t ∈ R.translate s va, _))

/-- The `w` bytes at `va` are loaded as the guest's. -/
structure Readable (R : Regime) (s : Bytes.Store 32) (va : BitVec 64) (w : Nat) : Prop where
  mapped : R.Mapped s va w
  clear : R.ClearOf s va w
  again : R.Again s va w

instance (R : Regime) (s : Bytes.Store 32) (va : BitVec 64) (w : Nat) : Decidable (R.Readable s va w) :=
  decidable_of_iff (_ ∧ _ ∧ _) ⟨fun ⟨h₁, h₂, h₃⟩ => ⟨h₁, h₂, h₃⟩, fun k => ⟨k.mapped, k.clear, k.again⟩⟩

/-- The entries are out of reach, and no two bytes of the guest are one. -/
structure Space (R : Regime) (s : Bytes.Store 32) : Prop where
  apart : R.Apart s
  separate : Bytes.Separate (R.place s)

/-- The memory has what the guest has, but for the clock, and is translated
as it was. -/
structure Backs (R : Regime) (s mem s₁ : Bytes.Store 32) : Prop where
  confined : R.Confined s s₁
  shows : Bytes.Shows (R.place s) (InArea Isa.clock) mem s₁

/-- What the guest has at first. -/
def view (R : Regime) (s : Bytes.Store 32) : Bytes.Store 32 := fun b => ((R.place s b).map s).getD 0

theorem backs_view (R : Regime) (s : Bytes.Store 32) : R.Backs s (R.view s) s where
  confined := .refl R s
  shows b p hb _ := by rw [view, hb, Option.map_some, Option.getD_some]

section

variable {mem : Bytes.Store 32} {va : BitVec 64} {t : Translation} {w : Nat}

theorem reach_of_place {b p : BitVec 32} (h : R.place s b = some p) : R.Reach s p := by
  obtain ⟨t, ht, rfl⟩ := Option.map_eq_some_iff.mp h
  exact .inl ⟨_, t, ht, rfl⟩

/-- The bytes of an access on one page are in one piece. -/
theorem Mapped.placedAt (h : R.Mapped s va w) (ht : R.translate s va = some t)
    (hw : va.toNat % 2 ^ 12 + w ≤ 2 ^ 12) : Bytes.PlacedAt (R.place s) (flat va) (flat t.address) w := by
  intro k hk
  obtain ⟨hadd, -⟩ := translate_add (k := k) ht (by omega)
  have hseen := (h k hk).2
  rw [hadd, Option.map_some, flat_add, flat_add] at hseen
  exact hseen.symm

theorem Mapped.translate (h : R.Mapped s va w) {k : Nat} (hk : k < w) :
    ∃ t, R.translate s (va + BitVec.ofNat 64 k) = some t := by
  obtain ⟨hsome, heq⟩ := h k hk
  rw [← heq, Option.isSome_map] at hsome
  exact Option.isSome_iff_exists.mp hsome

theorem Mapped.translate_first (h : R.Mapped s va w) (hw : 0 < w) : ∃ t, R.translate s va = some t := by
  have hfirst := h.translate hw
  rwa [show BitVec.ofNat 64 0 = 0#64 from rfl, BitVec.add_zero] at hfirst

/-- The bytes from the one at `n` on. -/
theorem Mapped.drop (h : R.Mapped s va w) {n : Nat} : R.Mapped s (va + BitVec.ofNat 64 n) (w - n) := by
  intro k hk
  rw [BitVec.add_assoc, ← BitVec.ofNat_add]
  exact h (n + k) (by omega)

theorem Mapped.take (h : R.Mapped s va w) {n : Nat} (hn : n ≤ w) : R.Mapped s va n := fun k hk => h k (by omega)

theorem ClearOf.drop (h : R.ClearOf s va w) {n : Nat} : R.ClearOf s (va + BitVec.ofNat 64 n) (w - n) := by
  intro k hk
  rw [BitVec.add_assoc, ← BitVec.ofNat_add]
  exact h (n + k) (by omega)

theorem ClearOf.take (h : R.ClearOf s va w) {n : Nat} (hn : n ≤ w) : R.ClearOf s va n := fun k hk => h k (by omega)

/-- The same bytes are loaded. -/
theorem Backs.load {p : BitVec 32} (h : R.Backs s mem s₁) (hp : Bytes.PlacedAt (R.place s) (flat va) p w)
    (hclear : R.ClearOf s va w) (n : Nat) : Bytes.load n s₁ p w = Bytes.load n mem (flat va) w := by
  refine h.shows.load hp (fun k hk => ?_) n
  refine hclear k hk _ ?_
  rw [flat_add, hp k hk]
  rfl

/-- A mark of a leaf is not seen. -/
theorem Backs.mark (h : R.Backs s mem s₁) (hs : R.Space s) (ht : R.translate s va = some t) (write : Bool) :
    R.Backs s mem (t.mark s₁ write) := by
  have ht₁ : R.translate s₁ va = some t := (h.confined.translate va).trans ht
  refine ⟨h.confined.mark ht₁ write, h.shows.congr fun b p hb _ => ?_⟩
  rw [Translation.mark_apply]
  split
  · next hl => exact absurd (reach_of_place hb) (hs.apart va p (uses_leaf ht hl))
  · rfl

/-- Nor is the time. -/
theorem Backs.showTime (h : R.Backs s mem s₁) (hs : R.Space s) (time : BitVec 64) :
    R.Backs s mem (Bytes.store s₁ (flat PeripheralEmulator.kTimerMtime) time 8) := by
  have hout : ∀ p, ¬ InArea Isa.clock p →
      Bytes.store s₁ (flat PeripheralEmulator.kTimerMtime) time 8 p = s₁ p :=
    fun p hp => Bytes.store_of_outside _ _ _ (by decide) hp
  exact ⟨h.confined.own hs.apart (a := Isa.clock) (by simp [PeripheralEmulator.ownAreas, Isa.clock]) hout,
    h.shows.congr fun _ p _ hp => hout p hp⟩

/-- A store on one page is a store of the guest. -/
theorem Backs.store {n : Nat} (h : R.Backs s mem s₁) (hs : R.Space s) (hm : R.Mapped s va w)
    (ht : R.translate s va = some t) (hw : va.toNat % 2 ^ 12 + w ≤ 2 ^ 12) (hw8 : w ≤ 8) (v : BitVec n) :
    R.Backs s (Bytes.store mem (flat va) v w) (Bytes.store s₁ (flat t.address) v w) :=
  ⟨h.confined.store hs.apart ht hw fun _ hb => Bytes.store_of_outside _ _ _ (by omega) hb,
    h.shows.store hs.separate (hm.placedAt ht hw) (by omega) (by omega) v⟩

end

/-! ## Without translation -/

theorem place_bare (s : Bytes.Store 32) (b : BitVec 32) : Regime.bare.place s b = some b :=
  congrArg some (MemoryWrapper.flat_setWidth b)

theorem space_bare (s : Bytes.Store 32) : Regime.bare.Space s where
  apart _ _ h := h.elim
  separate b b' p hb hb' := by
    rw [place_bare] at hb hb'
    exact Option.some.inj (hb.trans hb'.symm)

theorem mapped_bare (s : Bytes.Store 32) (va : BitVec 64) (w : Nat) : Regime.bare.Mapped s va w := by
  intro k _
  rw [Seen, place_bare]
  exact ⟨rfl, rfl⟩

theorem clearOf_bare {s : Bytes.Store 32} {va : BitVec 64} {w : Nat} (h : Isa.Clear va w) :
    Regime.bare.ClearOf s va w := by
  intro k hk p hp
  rw [place_bare, flat_add] at hp
  cases hp
  exact h k hk

theorem readable_bare {s : Bytes.Store 32} {va : BitVec 64} {w : Nat} (h : Isa.Clear va w) :
    Regime.bare.Readable s va w where
  mapped := mapped_bare s va w
  clear := clearOf_bare h
  again _ t ht := by
    cases ht
    rfl

/-- Every byte is in reach. -/
theorem backs_bare {s mem s₁ : Bytes.Store 32} :
    Regime.bare.Backs s mem s₁ ↔ ∀ a, ¬ InArea Isa.clock a → s₁ a = mem a := by
  constructor
  · exact fun h a ha => h.shows a a (place_bare s a) ha
  · refine fun h => ⟨⟨fun _ => rfl, fun _ _ => Iff.rfl, fun b hb => ?_⟩, fun b p hb hp => ?_⟩
    · exact absurd (reach_of_place (place_bare s b)) hb
    · rw [place_bare] at hb
      cases hb
      exact h b hp

end Regime

/-! ## A table with one leaf -/

namespace Table

/-- The first entry of the root table maps a block from page `n` on, and the
others nothing. -/
def OneLeaf (T : Table) (n : Nat) (s : Bytes.Store 32) : Prop :=
  ∀ v < 2 ^ T.F.vpnBits, entryAt T.F s (T.root * 2 ^ 12 + v * T.F.pteBytes) = if v = 0 then n * 2 ^ 10 + 0xCF else 0

/-- The number of pages of the block. -/
def blockPages (T : Table) : Nat := 2 ^ (T.F.vpnBits * T.top)

/-- The block is where it can be mapped, above the table. -/
structure BlockAt (T : Table) (n : Nat) : Prop where
  fits : n < 2 ^ T.F.ppnBits
  aligned : n % T.blockPages = 0
  below : (n + T.blockPages) * 2 ^ 12 ≤ 2 ^ 32
  narrow : 32 ≤ T.paBits
  wide : 32 ≤ 12 + T.F.vpnBits * T.top + T.F.vpnBits
  table : 2 ^ T.F.vpnBits * T.F.pteBytes = 2 ^ 12
  above : T.root < n
  own : ∀ a ∈ PeripheralEmulator.ownAreas, (T.root + 1) * 2 ^ 12 ≤ a.1.toNat ∧ a.1.toNat + a.2 ≤ 2 ^ 32

instance (T : Table) (n : Nat) : Decidable (T.BlockAt n) :=
  decidable_of_iff (_ ∧ _ ∧ _ ∧ _ ∧ _ ∧ _ ∧ _ ∧ _)
    ⟨fun ⟨h₁, h₂, h₃, h₄, h₅, h₆, h₇, h₈⟩ => ⟨h₁, h₂, h₃, h₄, h₅, h₆, h₇, h₈⟩,
      fun k => ⟨k.fits, k.aligned, k.below, k.narrow, k.wide, k.table, k.above, k.own⟩⟩

variable {T : Table} {n : Nat} {s : Bytes.Store 32}

theorem OneLeaf.slot (h : T.OneLeaf n s) (va : Nat) : entryAt T.F s (T.F.slot va T.top T.root) =
    if T.F.vpn va T.top = 0 then n * 2 ^ 10 + 0xCF else 0 := h _ (Nat.mod_lt _ (Nat.two_pow_pos _))

theorem OneLeaf.slots (h : T.OneLeaf n s) (va : Nat) :
    T.F.slots (entryAt T.F s) va T.top T.root = [T.F.slot va T.top T.root] := by
  refine PageWalk.Format.slots_stop ?_
  rw [h.slot]
  split
  · exact .inr (PageWalk.Format.isLeaf_entry n (by decide))
  · exact .inl (by decide)

theorem OneLeaf.translate (h : T.OneLeaf n s) (hb : T.BlockAt n) (va : BitVec 64) : T.translate s va =
    if T.F.vpn va.toNat T.top = 0 then
      some ⟨BitVec.ofNat 64 (n * 2 ^ 12 + va.toNat % (2 ^ 12 * T.blockPages)), some (BitVec.ofNat 32 (T.root * 2 ^ 12))⟩
    else none := by
  have hentry := h.slot va.toNat
  rw [Table.translate, PageWalk.Format.translate]
  split
  · next h0 =>
    rw [if_pos h0] at hentry
    have hppn : T.F.ppn (n * 2 ^ 10 + 0xCF) = n := PageWalk.Format.ppn_entry (by decide) hb.fits
    have hslot : T.F.slot va.toNat T.top T.root = T.root * 2 ^ 12 := by
      rw [PageWalk.Format.slot, h0, Nat.zero_mul, Nat.add_zero]
    have haddress : T.F.address va.toNat ⟨T.top, T.root * 2 ^ 12, n * 2 ^ 10 + 0xCF⟩ =
        n * 2 ^ 12 + va.toNat % (2 ^ 12 * T.blockPages) := by
      have hmul : n / 2 ^ (T.F.vpnBits * T.top) * 2 ^ (T.F.vpnBits * T.top) = n :=
        Nat.div_mul_cancel (Nat.dvd_of_mod_eq_zero hb.aligned)
      rw [PageWalk.Format.address, hppn, Nat.mod_mul, blockPages, hmul]
      ring
    have hlt : n * 2 ^ 12 + va.toNat % (2 ^ 12 * T.blockPages) < 2 ^ T.paBits := by
      have hmod : va.toNat % (2 ^ 12 * T.blockPages) < 2 ^ 12 * T.blockPages :=
        Nat.mod_lt _ (Nat.mul_pos (by decide) (Nat.two_pow_pos _))
      have hbelow := hb.below
      have hpa : 2 ^ 32 ≤ 2 ^ T.paBits := Nat.pow_le_pow_right (by decide) hb.narrow
      omega
    have hsame : T.F.Same (n * 2 ^ 10 + 0xCF) (entryAt T.F s (T.F.slot va.toNat T.top T.root)) := hentry ▸ .refl _
    rw [PageWalk.Format.walk_page hsame (by decide) (by decide) (by decide), hentry, hslot, Option.bind_some,
      if_pos (by rw [PageWalk.Format.Aligned, hppn]; exact hb.aligned), Option.map_some,
      haddress, Nat.mod_eq_of_lt hlt]
  · next h0 =>
    rw [if_neg h0] at hentry
    rw [PageWalk.Format.walk_invalid (by rw [hentry]; rfl)]
    rfl

/-- A table that has been written into a page of zeros. -/
theorem oneLeaf_of_bytes (hb : T.BlockAt n) (he : n * 2 ^ 10 + 0xCF < 2 ^ (8 * T.F.pteBytes))
    (hs : ∀ o < 2 ^ 12, s (BitVec.ofNat 32 (T.root * 2 ^ 12) + BitVec.ofNat 32 o) =
      if o < T.F.pteBytes then Bytes.byteOf (BitVec.ofNat 64 (n * 2 ^ 10 + 0xCF)) o else 0) : T.OneLeaf n s := by
  intro v hv
  have hbelow := hb.below
  have hend : v * T.F.pteBytes + T.F.pteBytes ≤ 2 ^ 12 := by
    rw [← hb.table, ← Nat.succ_mul]
    exact Nat.mul_le_mul_right _ hv
  have hbyte : ∀ j < T.F.pteBytes, s (BitVec.ofNat 32 (T.root * 2 ^ 12 + v * T.F.pteBytes) + BitVec.ofNat 32 j) =
      if v = 0 then Bytes.byteOf (BitVec.ofNat 64 (n * 2 ^ 10 + 0xCF)) j else 0 := by
    intro j hj
    rw [BitVec.ofNat_add, BitVec.add_assoc, ← BitVec.ofNat_add, hs _ (by omega)]
    rcases Nat.eq_zero_or_pos v with rfl | hpos
    · rw [Nat.zero_mul, Nat.zero_add, if_pos hj, if_pos rfl]
    · have hle : T.F.pteBytes ≤ v * T.F.pteBytes := Nat.le_mul_of_pos_left _ hpos
      rw [if_neg (by omega), if_neg (by omega)]
  have hload : Bytes.load 64 s (BitVec.ofNat 32 (T.root * 2 ^ 12 + v * T.F.pteBytes)) T.F.pteBytes =
      if v = 0 then BitVec.ofNat 64 (n * 2 ^ 10 + 0xCF) else 0 := by
    symm
    refine Bytes.eq_compose (fun j hj => ?_) fun i hi => ?_
    · rw [hbyte j hj]
      split
      · rfl
      · exact BitVec.extractLsb'_zero
    · split
      · have hlt : (BitVec.ofNat 64 (n * 2 ^ 10 + 0xCF)).toNat < 2 ^ i :=
          Nat.lt_of_le_of_lt (BitVec.toNat_ofNat _ _ ▸ Nat.mod_le _ _)
            (Nat.lt_of_lt_of_le he (Nat.pow_le_pow_right (by decide) hi))
        exact Nat.testBit_lt_two_pow hlt
      · exact BitVec.getLsbD_zero
  rw [entryAt, hload]
  split
  · rw [BitVec.toNat_ofNat, Nat.mod_eq_of_lt (by omega)]
  · rfl

/-- The translations lead to the block. -/
theorem OneLeaf.range (h : T.OneLeaf n s) (hb : T.BlockAt n) {va : BitVec 64} {t : Translation}
    (ht : T.translate s va = some t) :
    n * 2 ^ 12 ≤ t.address.toNat ∧ t.address.toNat < (n + T.blockPages) * 2 ^ 12 := by
  rw [h.translate hb, Option.ite_none_right_eq_some] at ht
  obtain ⟨-, ht⟩ := ht
  cases ht
  have hmod : va.toNat % (2 ^ 12 * T.blockPages) < 2 ^ 12 * T.blockPages :=
    Nat.mod_lt _ (Nat.mul_pos (by decide) (Nat.two_pow_pos _))
  have hbelow := hb.below
  rw [BitVec.toNat_ofNat, Nat.mod_eq_of_lt (by omega)]
  omega

/-- The table is out of reach, -/
theorem OneLeaf.apart (h : T.OneLeaf n s) (hb : T.BlockAt n) : (Regime.table T).Apart s := by
  intro va b huses hreach
  have habove := hb.above
  have hbelow := hb.below
  have hlow : b.toNat < (T.root + 1) * 2 ^ 12 := by
    obtain ⟨a, ha, hab⟩ := huses
    rw [h.slots, List.mem_singleton] at ha
    have hvpn : T.F.vpn va.toNat T.top < 2 ^ T.F.vpnBits := Nat.mod_lt _ (Nat.two_pow_pos _)
    have hend : (T.F.vpn va.toNat T.top + 1) * T.F.pteBytes ≤ 2 ^ 12 := by
      rw [← hb.table]
      exact Nat.mul_le_mul_right _ hvpn
    rw [Nat.add_mul] at hend
    rw [ha, PageWalk.Format.slot, BitVec.toNat_sub, BitVec.toNat_ofNat] at hab
    omega
  rcases hreach with ⟨va', t, ht, rfl⟩ | ⟨a, ha, hin⟩
  · have hrange := h.range hb ht
    rw [MemoryWrapper.toNat_flat, Nat.mod_eq_of_lt (by omega)] at hlow
    omega
  · obtain ⟨hstart, hend⟩ := hb.own a ha
    have hin : (b - a.1).toNat < a.2 := hin
    rw [BitVec.toNat_sub] at hin
    omega

/-- and the bytes of the guest are in the block, one after another. -/
theorem OneLeaf.space (h : T.OneLeaf n s) (hb : T.BlockAt n) : (Regime.table T).Space s where
  apart := h.apart hb
  separate b b' p hp hp' := by
    have hplace : ∀ b, (Regime.table T).place s b = some p → p.toNat = n * 2 ^ 12 + b.toNat := by
      intro b hp
      obtain ⟨t, ht, rfl⟩ := Option.map_eq_some_iff.mp hp
      have hwide : (b.setWidth 64).toNat = b.toNat := BitVec.toNat_setWidth_of_le (by decide)
      rw [Regime.translate, h.translate hb, Option.ite_none_right_eq_some, hwide] at ht
      obtain ⟨h0, ht⟩ := ht
      cases ht
      have hlt : b.toNat < 2 ^ 12 * T.blockPages := by
        refine PageWalk.Format.lt_of_vpn h0 (Nat.lt_of_lt_of_le b.isLt ?_)
        exact Nat.pow_le_pow_right (by decide) hb.wide
      have hbelow := hb.below
      rw [MemoryWrapper.toNat_flat, BitVec.toNat_ofNat, Nat.mod_eq_of_lt hlt]
      omega
    exact BitVec.eq_of_toNat_eq (Nat.add_left_cancel ((hplace b hp).symm.trans (hplace b' hp')))

end Table

/-- A memory with an entry in page 1, and a word of code. -/
def leafMemory (entry word : BitVec 32) (code : BitVec 64) : MemoryWrapper :=
  (MemoryWrapper.new.putWord 0x1000 entry).putWord code word

theorem leafMemory_bytes (entry word : BitVec 32) {code : BitVec 64} (hmod : code.toNat % 4 = 0)
    (hcode : 0x2000 ≤ (flat code).toNat ∧ (flat code).toNat + 4 ≤ 2 ^ 32) {o : Nat} (ho : o < 2 ^ 12) :
    (leafMemory entry word code).bytes (0x1000#32 + BitVec.ofNat 32 o) =
      if o < 4 then Bytes.byteOf entry o else 0 := by
  have ha : (0x1000#32 + BitVec.ofNat 32 o).toNat = 0x1000 + o := by
    rw [BitVec.toNat_add, BitVec.toNat_ofNat, BitVec.toNat_ofNat]
    omega
  have hout : ¬ (0x1000#32 + BitVec.ofNat 32 o - flat code).toNat < 4 := by
    rw [BitVec.toNat_sub, ha]
    omega
  rw [leafMemory, MemoryWrapper.bytes_putWord _ hmod, Bytes.store_apply _ _ _ (by decide), if_neg hout,
    MemoryWrapper.bytes_putWord _ (by decide), MemoryWrapper.bytes_new, Bytes.store_apply _ _ _ (by decide),
    show flat 0x1000 = 0x1000#32 from rfl, Bytes.toNat_offset _ (by omega)]

/-- 4 MiB from page `0x400` on. -/
theorem leafMemory_sv32 (word : BitVec 32) :
    (Table.sv32 1).OneLeaf 0x400 (leafMemory 0x1000CF word 0x400000).bytes := by
  refine Table.oneLeaf_of_bytes (by decide) (by decide) fun o ho => ?_
  refine (leafMemory_bytes 0x1000CF word (by decide) (by decide) ho).trans ?_
  have hbyte : ∀ o < 4, Bytes.byteOf 0x1000CF#32 o = Bytes.byteOf (BitVec.ofNat 64 (0x400 * 2 ^ 10 + 0xCF)) o := by
    decide
  by_cases h4 : o < 4
  · exact (if_pos h4).trans ((hbyte o h4).trans (if_pos h4).symm)
  · exact (if_neg h4).trans (if_neg h4).symm

/-- 1 GiB from page `0x40000` on. -/
theorem leafMemory_sv39 (word : BitVec 32) :
    (Table.sv39 1).OneLeaf 0x40000 (leafMemory 0x100000CF word 0x40000000).bytes := by
  refine Table.oneLeaf_of_bytes (by decide) (by decide) fun o ho => ?_
  refine (leafMemory_bytes 0x100000CF word (by decide) (by decide) ho).trans ?_
  have hbyte : ∀ o < 8, (if o < 4 then Bytes.byteOf 0x100000CF#32 o else 0) =
      Bytes.byteOf (BitVec.ofNat 64 (0x40000 * 2 ^ 10 + 0xCF)) o := by
    decide
  by_cases h8 : o < 8
  · exact (hbyte o h8).trans (if_pos h8).symm
  · exact (if_neg (by omega)).trans (if_neg h8).symm

end RiscvEmulator
