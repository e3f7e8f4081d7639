/-
Requests of the disk: what `process_disc_access` transfers, and what a
notification can make it do.

A request is a chain of three descriptors in the memory. `Chain` says which
request a chain is, and `Transfers` what carrying it out is: the image gets
the buffer's bytes or the buffer the image's, and nothing else changes but
the status byte (`processDiscAccess_transfers`).

The code checks neither that the queue has an entry nor that a request is
within the image. `notification_iff` says when a notification is safe all
the same: no remainder by zero, and no index past the image.
-/
import RiscvEmulator.VirtioFacts

namespace RiscvEmulator

open Bytes (Area InArea Apart)
open MemoryWrapper (flat)

namespace PeripheralEmulator

/-! ## Descriptors and headers -/

/-- Where descriptor `i` of a table is. -/
def descAddress (table : BitVec 32) (i : BitVec 16) : BitVec 32 := table + BitVec.ofNat 32 (16 * i.toNat)

def descAt (s : Bytes.Store 32) (table : BitVec 32) (i : BitVec 16) : VRingDesc where
  addr := Bytes.load 64 s (descAddress table i) 8
  len := Bytes.load 32 s (descAddress table i + BitVec.ofNat 32 8) 4
  flags := Bytes.load 16 s (descAddress table i + BitVec.ofNat 32 12) 2
  next := Bytes.load 16 s (descAddress table i + BitVec.ofNat 32 14) 2

def outhdrAt (s : Bytes.Store 32) (a : BitVec 32) : VirtioBlkOuthdr where
  type := Bytes.load 32 s a 4
  reserved := Bytes.load 32 s (a + BitVec.ofNat 32 4) 4
  sector := Bytes.load 64 s (a + BitVec.ofNat 32 8) 8

theorem readDesc_eq (m : MemoryWrapper) {table : BitVec 64} (h : table.toNat % 8 = 0) (i : BitVec 16) :
    readDesc m table i = .ok (descAt m.bytes (flat table) i) := by
  have haddr : table + i.setWidth 64 * 16 = table + BitVec.ofNat 64 (16 * i.toNat) := by
    have he := entry_address table i 0 16
    rwa [BitVec.add_zero, Nat.zero_add] at he
  have ha : (table + BitVec.ofNat 64 (16 * i.toNat)).toNat % 8 = 0 := aligned_add (by decide) h (by omega)
  have h4 : (table + BitVec.ofNat 64 (16 * i.toNat)).toNat % 4 = 0 := by omega
  have h2 : (table + BitVec.ofNat 64 (16 * i.toNat)).toNat % 2 = 0 := by omega
  have hlen := m.read32_eq (aligned_add (k := 8) (by decide) h4 rfl)
  have hflags := m.read16_eq (aligned_add (k := 12) (by decide) h2 rfl)
  have hnext := m.read16_eq (aligned_add (k := 14) (by decide) h2 rfl)
  unfold readDesc
  dsimp only
  rw [haddr, m.read64_eq ha, Except.ok_bind]
  rw [show table + BitVec.ofNat 64 (16 * i.toNat) + 8 = table + BitVec.ofNat 64 (16 * i.toNat) + BitVec.ofNat 64 8
      from rfl,
    hlen, Except.ok_bind]
  rw [show table + BitVec.ofNat 64 (16 * i.toNat) + 12 = table + BitVec.ofNat 64 (16 * i.toNat) + BitVec.ofNat 64 12
      from rfl,
    hflags, Except.ok_bind]
  rw [show table + BitVec.ofNat 64 (16 * i.toNat) + 14 = table + BitVec.ofNat 64 (16 * i.toNat) + BitVec.ofNat 64 14
      from rfl,
    hnext, Except.ok_bind]
  simp only [MemoryWrapper.flat_add, descAt, descAddress, Except.pure_eq_ok]

theorem readOuthdr_eq (m : MemoryWrapper) {a : BitVec 64} (h : a.toNat % 8 = 0) :
    readOuthdr m a = .ok (outhdrAt m.bytes (flat a)) := by
  have hreserved := m.read32_eq (aligned_add (k := 4) (by decide) (show a.toNat % 4 = 0 by omega) rfl)
  have hsector := m.read64_eq (aligned_add (k := 8) (by decide) h rfl)
  unfold readOuthdr
  rw [m.read32_eq (by omega), Except.ok_bind, show a + 4 = a + BitVec.ofNat 64 4 from rfl, hreserved, Except.ok_bind,
    show a + 8 = a + BitVec.ofNat 64 8 from rfl, hsector, Except.ok_bind]
  simp only [MemoryWrapper.flat_add, outhdrAt, Except.pure_eq_ok]

/-! ## The copy loops -/

section

variable {sectorAddress bufferAddress : BitVec 64} {image : List (BitVec 8)}

theorem toNat_index {n : Nat} (h : sectorAddress.toNat + n < 2 ^ 64) :
    (sectorAddress + BitVec.ofNat 64 n).toNat = sectorAddress.toNat + n := by
  rw [BitVec.toNat_add, BitVec.toNat_ofNat]
  omega

/-- The image after `n` rounds of the writing loop: the first `n` bytes of the
buffer are in it. -/
theorem discWrite_image (m : MemoryWrapper) (hsize : image.length < 2 ^ 64) {n : Nat}
    (hn : sectorAddress.toNat + n ≤ image.length) :
    ∃ image', discWrite m image sectorAddress bufferAddress n = .ok image' ∧ image'.length = image.length ∧
      (∀ k < n, image'[sectorAddress.toNat + k]? = some (m.bytes (flat bufferAddress + BitVec.ofNat 32 k))) ∧
      ∀ i, i < sectorAddress.toNat ∨ sectorAddress.toNat + n ≤ i → image'[i]? = image[i]? := by
  induction n with
  | zero => exact ⟨image, rfl, rfl, fun k hk => absurd hk (Nat.not_lt_zero k), fun _ _ => rfl⟩
  | succ n ih =>
    obtain ⟨image₁, hloop, hlen, hin, hout⟩ := ih (by omega)
    have hindex : (sectorAddress + BitVec.ofNat 64 n).toNat = sectorAddress.toNat + n := toNat_index (by omega)
    refine ⟨image₁.set (sectorAddress.toNat + n) (m.bytes (flat bufferAddress + BitVec.ofNat 32 n)), ?_, ?_, ?_, ?_⟩
    · rw [discWrite, hloop, Except.ok_bind, hindex, m.readByte_eq, Except.ok_bind,
        defined_bind (by rw [decide_eq_true_eq]; omega), MemoryWrapper.flat_add]
      rfl
    · rw [List.length_set, hlen]
    · intro k hk
      rw [List.getElem?_set]
      by_cases hkn : k = n
      · rw [hkn, if_pos rfl, if_pos (by omega)]
      · rw [if_neg (by omega), hin k (by omega)]
    · intro i hi
      rw [List.getElem?_set, if_neg (by omega), hout i (by omega)]

/-- The memory after `n` rounds of the reading loop. -/
theorem discRead_bytes (m : MemoryWrapper) (hsize : image.length < 2 ^ 64) {n : Nat}
    (hn : sectorAddress.toNat + n ≤ image.length) :
    ∃ m', discRead m image sectorAddress bufferAddress n = .ok m' ∧
      m'.bytes = Bytes.fill m.bytes (flat bufferAddress) 1 (fun k => image.getD (sectorAddress.toNat + k) 0) n := by
  induction n with
  | zero => exact ⟨m, rfl, rfl⟩
  | succ n ih =>
    obtain ⟨m₁, hloop, hbytes⟩ := ih (by omega)
    have hindex : (sectorAddress + BitVec.ofNat 64 n).toNat = sectorAddress.toNat + n := toNat_index (by omega)
    have hlt : sectorAddress.toNat + n < image.length := by omega
    obtain ⟨m', hwrite, hbytes'⟩ := m₁.writeByte_bytes (bufferAddress + BitVec.ofNat 64 n)
      (image.getD (sectorAddress.toNat + n) 0)
    refine ⟨m', ?_, ?_⟩
    · rw [discRead, hloop, Except.ok_bind, hindex]
      dsimp only
      rw [List.getD_eq_getElem?_getD, List.getElem?_eq_getElem hlt] at hwrite
      rw [List.getElem?_eq_getElem hlt]
      exact hwrite
    · rw [hbytes', hbytes, Bytes.fill, Nat.one_mul, MemoryWrapper.flat_add]

end

/-! ## Transfers -/

/-- A request: what is moved, and where the status goes. -/
structure BlkRequest where
  write : Bool
  sector : BitVec 64
  buffer : BitVec 64
  len : BitVec 32
  status : BitVec 64

/-- The data descriptor of the chain at `i`, and its status descriptor. -/
def dataIndex (s : Bytes.Store 32) (table : BitVec 32) (i : BitVec 16) : BitVec 16 := (descAt s table i).next
def statusIndex (s : Bytes.Store 32) (table : BitVec 32) (i : BitVec 16) : BitVec 16 :=
  (descAt s table (dataIndex s table i)).next

/-- The header of the chain at `i`. -/
def chainOuthdr (s : Bytes.Store 32) (table : BitVec 32) (i : BitVec 16) : VirtioBlkOuthdr :=
  outhdrAt s (flat (descAt s table i).addr)

/-- The descriptors from `i` on are the chain of the request `r`. -/
structure Chain (s : Bytes.Store 32) (table : BitVec 32) (i : BitVec 16) (r : BlkRequest) : Prop where
  headNext : (descAt s table i).flags &&& 0b01 = 1
  aligned : (descAt s table i).addr.toNat % 8 = 0
  type : (chainOuthdr s table i).type = if r.write then 1 else 0
  sector : (chainOuthdr s table i).sector = r.sector
  buffer : (descAt s table (dataIndex s table i)).addr = r.buffer
  len : (descAt s table (dataIndex s table i)).len = r.len
  direction : (descAt s table (dataIndex s table i)).flags &&& 0b10 = 0 ↔ r.write = true
  status : (descAt s table (statusIndex s table i)).addr = r.status
  statusLen : (descAt s table (statusIndex s table i)).len = 1
  statusFlags : (descAt s table (statusIndex s table i)).flags &&& 0b11 = 0b10

/-- The data buffer, the status byte, the descriptors and the header. -/
def chainAreas (s : Bytes.Store 32) (table : BitVec 32) (i : BitVec 16) (r : BlkRequest) : List (Area 32) :=
  [(flat r.buffer, r.len.toNat), (flat r.status, 1), (descAddress table i, 16),
    (descAddress table (dataIndex s table i), 16), (descAddress table (statusIndex s table i), 16),
    (flat (descAt s table i).addr, 16)]

/-- The first byte of the image that a request is about. -/
def BlkRequest.start (r : BlkRequest) : Nat := r.sector.toNat * 512

/-- The request is carried out on the image and the memory. -/
structure Transfers (r : BlkRequest) (image image' : List (BitVec 8)) (s s' : Bytes.Store 32) : Prop where
  status : s' (flat r.status) = 0
  written : r.write = true → image'.length = image.length ∧
    (∀ k < r.len.toNat, image'[r.start + k]? = some (s (flat r.buffer + BitVec.ofNat 32 k))) ∧
    (∀ i, i < r.start ∨ r.start + r.len.toNat ≤ i → image'[i]? = image[i]?) ∧ ∀ b, b ≠ flat r.status → s' b = s b
  read : r.write = false → image' = image ∧
    (∀ k < r.len.toNat, some (s' (flat r.buffer + BitVec.ofNat 32 k)) = image[r.start + k]?) ∧
    ∀ b, ¬ InArea (flat r.buffer, r.len.toNat) b → b ≠ flat r.status → s' b = s b

/-- A descriptor that no byte of has changed. -/
theorem descAt_congr {s s' : Bytes.Store 32} {table : BitVec 32} {i : BitVec 16}
    (h : ∀ b, InArea (descAddress table i, 16) b → s' b = s b) : descAt s' table i = descAt s table i := by
  have hload : ∀ n o k, o + k ≤ 16 → Bytes.load n s' (descAddress table i + BitVec.ofNat 32 o) k =
      Bytes.load n s (descAddress table i + BitVec.ofNat 32 o) k := by
    intro n o k hk
    refine Bytes.load_congr fun j hj => h _ ?_
    rw [BitVec.add_assoc, ← BitVec.ofNat_add]
    exact Bytes.inArea_offset _ (by omega) (by omega)
  have haddr := hload 64 0 8 (by decide)
  rw [BitVec.add_zero] at haddr
  simp only [descAt, haddr, hload 32 8 4 (by decide), hload 16 12 2 (by decide), hload 16 14 2 (by decide)]

/-- The status byte is written last. -/
theorem writeStatus_bytes (m : MemoryWrapper) (a : BitVec 64) :
    ∃ m', m.writeByte a 0 = .ok m' ∧ m'.bytes (flat a) = 0 ∧ ∀ b, b ≠ flat a → m'.bytes b = m.bytes b := by
  obtain ⟨m', hwrite, hbytes⟩ := m.writeByte_bytes a 0
  refine ⟨m', hwrite, ?_, fun b hb => ?_⟩
  · rw [hbytes, Bytes.store, Bytes.store, BitVec.add_zero, Function.update_self]
    rfl
  · rw [hbytes, Bytes.store, Bytes.store, BitVec.add_zero, Function.update_of_ne hb]

section

variable {p : PeripheralEmulator} {m m' : MemoryWrapper} {table : BitVec 64} {i : BitVec 16} {r : BlkRequest}
  {image : List (BitVec 8)}

/-- What `process_disc_access` has checked when it comes to `disc_access`, and
what is left then. -/
theorem processDiscAccess_chain (p : PeripheralEmulator) (ht : table.toNat % 8 = 0)
    (hc : Chain m.bytes (flat table) i r) :
    p.processDiscAccess m table i = do
      let (p, mem) ← p.discAccess m r.sector r.buffer r.len r.write
      let desc ← readDesc mem table (statusIndex m.bytes (flat table) i)
      assert (desc.len = 1 ∧ desc.flags &&& 0b11 = 0b10)
      return (p, ← mem.writeByte desc.addr 0) := by
  have htype : decide ((chainOuthdr m.bytes (flat table) i).type = 1) = r.write := by
    rw [hc.type]
    cases r.write <;> rfl
  have hdirection : (decide ((descAt m.bytes (flat table) (dataIndex m.bytes (flat table) i)).flags &&& 0b10 = 0) ==
      r.write) = true := by
    rw [beq_iff_eq, Bool.eq_iff_iff, decide_eq_true_eq]
    exact hc.direction
  unfold processDiscAccess
  rw [readDesc_eq m ht, Except.ok_bind, readOuthdr_eq m hc.aligned, Except.ok_bind]
  dsimp only
  rw [assert_bind (decide_eq_true hc.headNext), ← dataIndex, readDesc_eq m ht, Except.ok_bind, ← chainOuthdr, htype,
    assert_bind hdirection, hc.sector, hc.buffer, hc.len, ← statusIndex]

/-- A request within the image starts where its sector does. -/
theorem start_eq (hlen : image.length < 2 ^ 64) (hfits : r.start + r.len.toNat ≤ image.length) :
    (r.sector * kSectorSize).toNat = r.start := by
  have h512 : kSectorSize.toNat = 512 := rfl
  rw [BlkRequest.start] at hfits ⊢
  rw [BitVec.toNat_mul, h512]
  omega

theorem processDiscAccess_write (ht : table.toNat % 8 = 0) (hp : p.diskImage = some image)
    (hlen : image.length < 2 ^ 64) (hc : Chain m.bytes (flat table) i r)
    (hfits : r.start + r.len.toNat ≤ image.length) (hw : r.write = true) :
    ∃ image' m', p.processDiscAccess m table i = .ok ({ p with diskImage := some image' }, m') ∧
      Transfers r image image' m.bytes m'.bytes := by
  have hstart := start_eq hlen hfits
  obtain ⟨image', hloop, hlength, hin, hout⟩ := @discWrite_image (r.sector * kSectorSize) r.buffer image m hlen
    r.len.toNat (by omega)
  obtain ⟨m', hwrite, hstatus, hframe⟩ := writeStatus_bytes m r.status
  refine ⟨image', m', ?_, hstatus, ?_, ?_⟩
  · rw [processDiscAccess_chain p ht hc, discAccess, if_pos hw, hp, Option.getD_some, hloop, Except.ok_bind]
    simp only [Option.map_some, Except.pure_eq_ok, Except.ok_bind]
    rw [readDesc_eq m ht, Except.ok_bind, assert_bind (decide_eq_true ⟨hc.statusLen, hc.statusFlags⟩), hc.status,
      hwrite, Except.ok_bind]
  · intro _
    rw [hstart] at hin hout
    exact ⟨hlength, hin, hout, hframe⟩
  · intro hr
    rw [hw] at hr
    cases hr

theorem processDiscAccess_read (ht : table.toNat % 8 = 0) (hp : p.diskImage = some image)
    (hlen : image.length < 2 ^ 64) (hc : Chain m.bytes (flat table) i r)
    (hapart : (chainAreas m.bytes (flat table) i r).Pairwise Apart)
    (hfits : r.start + r.len.toNat ≤ image.length) (hr : r.write = false) :
    ∃ m', p.processDiscAccess m table i = .ok (p, m') ∧ Transfers r image image m.bytes m'.bytes := by
  have hstart := start_eq hlen hfits
  have hlt := r.len.isLt
  obtain ⟨hbuffer, -⟩ := List.pairwise_cons.mp hapart
  have hstatusApart : Apart (flat r.buffer, r.len.toNat) (flat r.status, 1) := hbuffer _ (by simp)
  have hdescApart : Apart (flat r.buffer, r.len.toNat)
      (descAddress (flat table) (statusIndex m.bytes (flat table) i), 16) := hbuffer _ (by simp)
  obtain ⟨m₁, hloop, hbytes⟩ := @discRead_bytes (r.sector * kSectorSize) r.buffer image m hlen r.len.toNat (by omega)
  have hfill : ∀ b, m₁.bytes b = if InArea (flat r.buffer, r.len.toNat) b then
      image.getD (r.start + (b - flat r.buffer).toNat) 0 else m.bytes b := by
    intro b
    rw [hbytes, Bytes.fill_byte _ _ _ (by omega), hstart]
  -- The copy leaves the status descriptor as it was.
  have hdesc : descAt m₁.bytes (flat table) (statusIndex m.bytes (flat table) i) =
      descAt m.bytes (flat table) (statusIndex m.bytes (flat table) i) := by
    refine descAt_congr fun b hb => ?_
    rw [hfill, if_neg fun h => hdescApart b ⟨h, hb⟩]
  obtain ⟨m', hwrite, hstatus, hframe⟩ := writeStatus_bytes m₁ r.status
  refine ⟨m', ?_, hstatus, ?_, fun _ => ⟨rfl, fun k hk => ?_, fun b hb hne => ?_⟩⟩
  · rw [processDiscAccess_chain p ht hc, discAccess, if_neg (by rw [hr]; decide), hp, Option.getD_some, hloop,
      Except.ok_bind]
    simp only [Except.pure_eq_ok, Except.ok_bind]
    rw [readDesc_eq m₁ ht, Except.ok_bind, hdesc, assert_bind (decide_eq_true ⟨hc.statusLen, hc.statusFlags⟩),
      hc.status, hwrite, Except.ok_bind]
  · intro hw
    rw [hr] at hw
    cases hw
  · have hin : InArea (flat r.buffer, r.len.toNat) (flat r.buffer + BitVec.ofNat 32 k) :=
      Bytes.inArea_offset _ hk (by omega)
    have hne : flat r.buffer + BitVec.ofNat 32 k ≠ flat r.status := by
      intro he
      refine hstatusApart _ ⟨hin, ?_⟩
      rw [he, InArea, BitVec.sub_self]
      exact Nat.zero_lt_one
    rw [hframe _ hne, hfill, if_pos hin, Bytes.toNat_offset _ (by omega), List.getD_eq_getElem?_getD,
      List.getElem?_eq_getElem (by omega)]
    rfl
  · rw [hframe b hne, hfill, if_neg hb]

end

theorem processDiscAccess_request (p : PeripheralEmulator) (m : MemoryWrapper) (table : BitVec 64) (i : BitVec 16)
    (r : BlkRequest) (image : List (BitVec 8)) (ht : table.toNat % 8 = 0) (hp : p.diskImage = some image)
    (hlen : image.length < 2 ^ 64) (hc : Chain m.bytes (flat table) i r)
    (hapart : (chainAreas m.bytes (flat table) i r).Pairwise Apart) (hfits : r.start + r.len.toNat ≤ image.length) :
    ∃ image' m', p.processDiscAccess m table i = .ok ({ p with diskImage := some image' }, m') ∧
      Transfers r image image' m.bytes m'.bytes := by
  cases hw : r.write with
  | true => exact processDiscAccess_write ht hp hlen hc hfits hw
  | false =>
    obtain ⟨m', hrun, htransfers⟩ := processDiscAccess_read ht hp hlen hc hapart hfits hw
    refine ⟨image, m', ?_, htransfers⟩
    rw [hrun, ← hp]

/-- **A request transfers exactly its data.** For a chain whose parts are
apart and a request that fits in the image, `process_disc_access` returns and
carries the request out; it changes nothing of the emulator but the image. So
what a write has put on the disk is what a later read of the same sector and
length, from whatever memory, puts in its buffer. -/
theorem processDiscAccess_transfers :
    (∀ (p : PeripheralEmulator) (m : MemoryWrapper) (table : BitVec 64) (i : BitVec 16) (r : BlkRequest)
      (image : List (BitVec 8)), table.toNat % 8 = 0 → p.diskImage = some image → image.length < 2 ^ 64 →
      Chain m.bytes (flat table) i r → (chainAreas m.bytes (flat table) i r).Pairwise Apart →
      r.start + r.len.toNat ≤ image.length →
      ∃ image' m', p.processDiscAccess m table i = .ok ({ p with diskImage := some image' }, m') ∧
        Transfers r image image' m.bytes m'.bytes) ∧
    ∀ (p p₁ q q₁ : PeripheralEmulator) (m m₁ n n₁ : MemoryWrapper) (table table' : BitVec 64) (i i' : BitVec 16)
      (w r : BlkRequest) (image : List (BitVec 8)), table.toNat % 8 = 0 → table'.toNat % 8 = 0 →
      p.diskImage = some image → image.length < 2 ^ 64 → w.start + w.len.toNat ≤ image.length →
      Chain m.bytes (flat table) i w → (chainAreas m.bytes (flat table) i w).Pairwise Apart →
      Chain n.bytes (flat table') i' r → (chainAreas n.bytes (flat table') i' r).Pairwise Apart →
      w.write = true → r.write = false → r.sector = w.sector → r.len = w.len →
      p.processDiscAccess m table i = .ok (p₁, m₁) → q.diskImage = p₁.diskImage →
      q.processDiscAccess n table' i' = .ok (q₁, n₁) →
      ∀ k < w.len.toNat, n₁.bytes (flat r.buffer + BitVec.ofNat 32 k) =
        m.bytes (flat w.buffer + BitVec.ofNat 32 k) := by
  refine ⟨@processDiscAccess_request, ?_⟩
  intro p p₁ q q₁ m m₁ n n₁ table table' i i' w r image ht ht' hp hlen hfits hcw haw hcr har hw hr hsector hrlen hrun hq
    hrun' k hk
  obtain ⟨image', m₁', hrun₁, htw⟩ := processDiscAccess_request p m table i w image ht hp hlen hcw haw hfits
  rw [hrun₁] at hrun
  cases hrun
  obtain ⟨hlength, hin, -, -⟩ := htw.written hw
  have hstart : r.start = w.start := by rw [BlkRequest.start, BlkRequest.start, hsector]
  obtain ⟨image'', n₁', hrun₂, htr⟩ := processDiscAccess_request q n table' i' r image' ht' hq
    (by rw [hlength]; exact hlen) hcr har (by rw [hstart, hrlen, hlength]; exact hfits)
  rw [hrun₂] at hrun'
  cases hrun'
  obtain ⟨-, hread, -⟩ := htr.read hr
  have hbyte := hread k (by rw [hrlen]; exact hk)
  rw [hstart, hin k hk] at hbyte
  exact Option.some.inj hbyte

/-- A memory with one chain, at descriptor 0 of the table at 0x1000: two bytes
of the buffer at 0x3100 and sector 1. -/
def requestMemory (write : Bool) : MemoryWrapper :=
  let type : BitVec 32 := if write then 1 else 0
  let flags : BitVec 32 := if write then 1 else 3
  let m := (((MemoryWrapper.new.assign 0).setWord 0 0xC00 type).setWord 0 0xC02 1).setWord 0 0xC40 0xBBAA
  let m := ((m.setWord 0 0x400 0x3000).setWord 0 0x402 16).setWord 0 0x403 0x10001
  let m := ((m.setWord 0 0x404 0x3100).setWord 0 0x406 2).setWord 0 0x407 (0x20000 ||| flags)
  ((m.setWord 0 0x408 0x3200).setWord 0 0x40A 1).setWord 0 0x40B 2

/-- Its request. -/
def exampleRequest (write : Bool) : BlkRequest := { write, sector := 1, buffer := 0x3100, len := 2, status := 0x3200 }

theorem requestMemory_chain (write : Bool) : Chain (requestMemory write).bytes 0x1000 0 (exampleRequest write) := by
  cases write <;>
  exact ⟨by decide, by decide, by decide, by decide, by decide,
    by decide, by decide, by decide, by decide, by decide⟩

theorem requestMemory_apart (write : Bool) :
    (chainAreas (requestMemory write).bytes 0x1000 0 (exampleRequest write)).Pairwise Apart := by
  have hareas : chainAreas (requestMemory write).bytes 0x1000 0 (exampleRequest write) =
      [(0x3100, 2), (0x3200, 1), (0x1000, 16), (0x1010, 16), (0x1020, 16), (0x3000, 16)] := by
    cases write <;> decide
  rw [hareas]
  exact List.Pairwise.imp Bytes.apart_of_le (by decide)

/-- A disk of two sectors. -/
def twoSectors : List (BitVec 8) := List.replicate 1024 7

/-- A write to it, and a read of the same sector. -/
theorem processDiscAccess_transfers_both : ∃ p₁ m₁ q₁ n₁,
    { new 1 with diskImage := some twoSectors }.processDiscAccess (requestMemory true) 0x1000 0 = .ok (p₁, m₁) ∧
      p₁.processDiscAccess (requestMemory false) 0x1000 0 = .ok (q₁, n₁) ∧
      ∀ k < 2, n₁.bytes (0x3100 + BitVec.ofNat 32 k) = (requestMemory true).bytes (0x3100 + BitVec.ofNat 32 k) := by
  have hsize : twoSectors.length = 1024 := List.length_replicate ..
  have hstart : ∀ write, (exampleRequest write).start + (exampleRequest write).len.toNat = 514 := by decide
  obtain ⟨image', m₁, hrun, htransfers⟩ := processDiscAccess_transfers.1 { new 1 with diskImage := some twoSectors } _
    0x1000 0 (exampleRequest true) twoSectors (by decide) rfl (by omega) (requestMemory_chain true)
    (requestMemory_apart true) (by rw [hstart]; omega)
  obtain ⟨hlength, -, -, -⟩ := htransfers.written rfl
  obtain ⟨image'', n₁, hrun', -⟩ := processDiscAccess_transfers.1 { new 1 with diskImage := some image' } _ 0x1000 0
    (exampleRequest false) image' (by decide) rfl (by omega) (requestMemory_chain false) (requestMemory_apart false)
    (by rw [hstart]; omega)
  refine ⟨_, m₁, _, n₁, hrun, hrun', ?_⟩
  exact processDiscAccess_transfers.2 _ _ _ _ _ m₁ _ n₁ 0x1000 0x1000 0 0 (exampleRequest true) (exampleRequest false)
    twoSectors (by decide) (by decide) rfl (by omega) (by rw [hstart]; omega) (requestMemory_chain true)
    (requestMemory_apart true) (requestMemory_chain false) (requestMemory_apart false) rfl rfl rfl rfl hrun rfl hrun'

/-! ## Notifications -/

/-- The arguments of a call of `disc_access`. -/
structure DiscCall where
  sector : BitVec 64
  buffer : BitVec 64
  len : BitVec 32
  write : Bool

/-- `process_disc_access` up to its call of `disc_access`: its arguments, and
the descriptor that comes next. -/
def chainCall (mem : MemoryWrapper) (descAddress : BitVec 64) (descIndex : BitVec 16) :
    Except Crash (DiscCall × BitVec 16) := do
  let desc ← readDesc mem descAddress descIndex
  let outhdr ← readOuthdr mem desc.addr
  let write : Bool := outhdr.type = 1
  assert (desc.flags &&& 0b01 = 1)
  let desc ← readDesc mem descAddress desc.next
  assert (decide (desc.flags &&& 0b10 = 0) == write)
  return ({ sector := outhdr.sector, buffer := desc.addr, len := desc.len, write }, desc.next)

theorem processDiscAccess_call (p : PeripheralEmulator) (mem : MemoryWrapper) (descAddress : BitVec 64)
    (descIndex : BitVec 16) : p.processDiscAccess mem descAddress descIndex = do
      let (c, next) ← chainCall mem descAddress descIndex
      let (p, mem) ← p.discAccess mem c.sector c.buffer c.len c.write
      let desc ← readDesc mem descAddress next
      assert (desc.len = 1 ∧ desc.flags &&& 0b11 = 0b10)
      return (p, ← mem.writeByte desc.addr 0) := by
  simp only [processDiscAccess, chainCall, bind_assoc, Except.pure_eq_ok, Except.ok_bind]

/-- `VirtioDiskAccess` up to that call. -/
def discCall (p : PeripheralEmulator) (mem : MemoryWrapper) (queueAddress : BitVec 64) : Except Crash DiscCall := do
  let descIndex ← p.getDescIndex mem (queueAddress + (p.queueNum * 16).setWidth 64)
  return (← chainCall mem queueAddress descIndex).1

/-- The index into the image that round `k` of the loops of `disc_access` uses. -/
def discIndex (sector : BitVec 64) (k : Nat) : Nat := (sector * kSectorSize + BitVec.ofNat 64 k).toNat

/-- The registers that `VirtioEmulation` reads at a notification. -/
def notifiedNumber (m : MemoryWrapper) : BitVec 32 := Bytes.load 32 m.bytes (flat kVirtioMmioQueueNotify) 4
def notifiedQueueNum (m : MemoryWrapper) : BitVec 32 := Bytes.load 32 m.bytes (flat kVirtioMmioQueueNum) 4
def notifiedPageSize (m : MemoryWrapper) : BitVec 32 := Bytes.load 32 m.bytes (flat kVirtioMmioPageSize) 4
def notifiedPfn (m : MemoryWrapper) : BitVec 32 := Bytes.load 32 m.bytes (flat kVirtioMmioQueuePfn) 4

/-- Its three assertions. -/
structure AssertionsPass (m : MemoryWrapper) : Prop where
  number : notifiedNumber m = 0
  queueNum : (notifiedQueueNum m).toInt ≤ kQueueNumMax
  pageSize : notifiedPageSize m = 4096

/-- The device when they have passed. -/
def atNotify (p : PeripheralEmulator) (m : MemoryWrapper) : PeripheralEmulator :=
  { p with virtioWrite := false, queueNum := notifiedQueueNum m }

/-- The size of the queue is in its bounds, and so is every index into the
image. -/
structure NotificationSafe (p : PeripheralEmulator) (m : MemoryWrapper) : Prop where
  queueNum : 1 ≤ (p.atNotify m).queueNum.toInt ∧ (p.atNotify m).queueNum.toInt ≤ kQueueNumMax
  index : ∀ c, (p.atNotify m).discCall m (queueAddress (notifiedPfn m)) = .ok c →
    ∀ k < c.len.toNat, discIndex c.sector k < (p.diskImage.getD []).length

/-- A doubleword is read only where it is aligned. -/
theorem read64_aligned {m : MemoryWrapper} {a v : BitVec 64} (h : m.read64 a = .ok v) : a.toNat % 8 = 0 := by
  obtain ⟨u, hassert, -⟩ := Except.bind_ok_iff.mp h
  exact (Bits.and_ones_eq_zero a 3).mp (beq_iff_eq.mp (assert_ok hassert))

theorem readOuthdr_ok {m : MemoryWrapper} {a : BitVec 64} {o : VirtioBlkOuthdr} (h : readOuthdr m a = .ok o) :
    a.toNat % 8 = 0 ∧ o = outhdrAt m.bytes (flat a) := by
  have ha : a.toNat % 8 = 0 := by
    obtain ⟨type, _, h⟩ := Except.bind_ok_iff.mp h
    obtain ⟨reserved, _, h⟩ := Except.bind_ok_iff.mp h
    obtain ⟨sector, hsector, _⟩ := Except.bind_ok_iff.mp h
    have h8 := read64_aligned hsector
    have hlt := a.isLt
    rw [BitVec.toNat_add, show (8 : BitVec 64).toNat = 8 from rfl] at h8
    omega
  rw [readOuthdr_eq m ha] at h
  exact ⟨ha, (Except.ok.inj h).symm⟩

/-- The checks before `disc_access`. -/
structure Admitted (s : Bytes.Store 32) (table : BitVec 32) (i : BitVec 16) : Prop where
  aligned : (descAt s table i).addr.toNat % 8 = 0
  headNext : (descAt s table i).flags &&& 0b01 = 1
  direction : (descAt s table (dataIndex s table i)).flags &&& 0b10 = 0 ↔ (chainOuthdr s table i).type = 1

/-- The call that a chain is. -/
def callAt (s : Bytes.Store 32) (table : BitVec 32) (i : BitVec 16) : DiscCall where
  sector := (chainOuthdr s table i).sector
  buffer := (descAt s table (dataIndex s table i)).addr
  len := (descAt s table (dataIndex s table i)).len
  write := decide ((chainOuthdr s table i).type = 1)

/-- A chain that passes them is a call for its sector and its data. -/
theorem chainCall_iff {m : MemoryWrapper} {table : BitVec 64} (ht : table.toNat % 8 = 0) {i next : BitVec 16}
    {c : DiscCall} : chainCall m table i = .ok (c, next) ↔
      Admitted m.bytes (flat table) i ∧ c = callAt m.bytes (flat table) i ∧
        next = statusIndex m.bytes (flat table) i := by
  have hbool : ∀ x y : Prop, [Decidable x] → [Decidable y] → ((decide x == decide y) = true ↔ (x ↔ y)) := by
    intro x y _ _
    rw [beq_iff_eq, decide_eq_decide]
  unfold chainCall
  rw [readDesc_eq m ht, Except.ok_bind]
  constructor
  · intro h
    obtain ⟨o, ho, h⟩ := Except.bind_ok_iff.mp h
    obtain ⟨ha, rfl⟩ := readOuthdr_ok ho
    obtain ⟨u, hnext, h⟩ := Except.bind_ok_iff.mp h
    rw [← dataIndex, readDesc_eq m ht, Except.ok_bind] at h
    obtain ⟨u', hdir, h⟩ := Except.bind_ok_iff.mp h
    cases h
    exact ⟨⟨ha, of_decide_eq_true (assert_ok hnext), (hbool _ _).mp (assert_ok hdir)⟩, rfl, rfl⟩
  · rintro ⟨ha, rfl, rfl⟩
    rw [readOuthdr_eq m ha.aligned, Except.ok_bind]
    dsimp only
    rw [assert_bind (decide_eq_true ha.headNext), ← dataIndex, readDesc_eq m ht, Except.ok_bind, ← chainOuthdr,
      assert_bind ((hbool _ _).mpr ha.direction)]
    rfl

/-- The head that the available ring of `n` entries names. -/
def headAt (s : Bytes.Store 32) (n : Nat) (pfn : BitVec 32) : BitVec 16 :=
  let ring := flat (availAddress n pfn)
  let idx : BitVec 16 := Bytes.load 16 s (ring + BitVec.ofNat 32 2) 2
  Bytes.load 16 s (ring + BitVec.ofNat 32 (4 + 2 * (idx.toNat % n))) 2

/-- QUEUE_NUM is positive, and if the chain it leads to is one for the disk,
its data is empty or within an image of `size` bytes. -/
structure ServesWithin (size : Nat) (m : MemoryWrapper) : Prop where
  positive : 1 ≤ (notifiedQueueNum m).toInt
  fits : ∀ table head, table = flat (queueAddress (notifiedPfn m)) →
    head = headAt m.bytes (notifiedQueueNum m).toNat (notifiedPfn m) → Admitted m.bytes table head →
    (callAt m.bytes table head).len = 0 ∨
      ((callAt m.bytes table head).sector * kSectorSize).toNat + (callAt m.bytes table head).len.toNat ≤ size

theorem queueAddress_aligned (pfn : BitVec 32) : (queueAddress pfn).toNat % 8 = 0 := by
  rw [queueAddress, BitVec.toNat_setWidth, BitVec.toNat_mul, show (4096 : BitVec 32).toNat = 4096 from rfl]
  omega

/-- The indices of a call are within the image exactly when its data is. -/
theorem discIndex_lt_iff {sector : BitVec 64} {len : BitVec 32} {size : Nat} (hsize : size < 2 ^ 64) :
    (∀ k < len.toNat, discIndex sector k < size) ↔ len = 0 ∨ (sector * kSectorSize).toNat + len.toNat ≤ size := by
  have hlen := len.isLt
  have hstart := (sector * kSectorSize).isLt
  have hzero : len = 0 ↔ len.toNat = 0 := by
    rw [← BitVec.toNat_inj]
    rfl
  have hindex : ∀ k, discIndex sector k = ((sector * kSectorSize).toNat + k % 2 ^ 64) % 2 ^ 64 := fun k => by
    rw [discIndex, BitVec.toNat_add, BitVec.toNat_ofNat]
  rw [hzero]
  generalize (sector * kSectorSize).toNat = start at *
  constructor
  · intro h
    by_contra hn
    rw [not_or] at hn
    by_cases hwrap : start + len.toNat ≤ 2 ^ 64
    · have hlast := h (len.toNat - 1) (by omega)
      rw [hindex] at hlast
      omega
    · -- Before the index wraps it is the largest there is.
      have hlast := h (2 ^ 64 - 1 - start) (by omega)
      rw [hindex] at hlast
      omega
  · intro h k hk
    rw [hindex]
    omega

/-- A store of at most eight bytes that overlaps QUEUE_NOTIFY. -/
theorem checkDeviceWrite_notify (p : PeripheralEmulator) {address data : BitVec 64} {width : Nat} (hw : width ≤ 8)
    (hlast : kVirtioMmioQueueNotify < address + BitVec.ofNat 64 width) (hfirst : address < kVirtioMmioQueueNotify + 4) :
    NotifyStored (p.checkDeviceWrite address width data) := by
  have hnotify : kVirtioMmioQueueNotify.toNat = 0x10001050 := rfl
  have hnotify4 : (kVirtioMmioQueueNotify + 4).toNat = 0x10001054 := rfl
  have hbase : kVirtioBase.toNat = 0x10001000 := rfl
  have hend : kVirtioEnd.toNat = 0x100010ff := rfl
  have hregisters : kVirtioBase < address + BitVec.ofNat 64 width ∧ address ≤ kVirtioEnd := by
    rw [BitVec.lt_def, hnotify] at hlast
    rw [BitVec.lt_def, hnotify4] at hfirst
    rw [BitVec.lt_def, BitVec.le_def, hbase, hend]
    omega
  have hwidth : BitVec.ofNat 64 width ≤ 8 := by
    rw [BitVec.le_def, BitVec.toNat_ofNat, Nat.mod_eq_of_lt (by omega)]
    exact hw
  unfold checkDeviceWrite
  dsimp only
  rw [if_pos hregisters]
  split <;> split <;> exact ⟨rfl, hwidth, hlast, hfirst⟩

theorem queueNotify_assertions {p : PeripheralEmulator} {m : MemoryWrapper} (ha : AssertionsPass m) :
    p.queueNotify m = do
      let (p, mem) ← { p with queueNum := notifiedQueueNum m }.virtioDiskAccess m (queueAddress (notifiedPfn m))
      let mem ← mem.write32 kPlicClaimAddress 1
      return ({ p with virtioInterrupt := true }, mem) := by
  have hnumber : m.read32 kVirtioMmioQueueNotify = .ok 0 := by
    rw [← ha.number]
    exact m.read32_eq (by decide)
  have hqueueNum : m.read32 kVirtioMmioQueueNum = .ok (notifiedQueueNum m) := m.read32_eq (by decide)
  have hpageSize : m.read32 kVirtioMmioPageSize = .ok 4096 := by
    rw [← ha.pageSize]
    exact m.read32_eq (by decide)
  have hpfn : m.read32 kVirtioMmioQueuePfn = .ok (notifiedPfn m) := m.read32_eq (by decide)
  unfold queueNotify
  rw [hnumber, Except.ok_bind, assert_bind (decide_eq_true rfl), hqueueNum, Except.ok_bind]
  dsimp only
  rw [assert_bind (decide_eq_true ha.queueNum), hpageSize, Except.ok_bind, assert_bind (decide_eq_true rfl), hpfn,
    Except.ok_bind]
  rfl

/-- The rest of the notification, when the assertions have passed. -/
theorem virtioEmulation_atNotify {p : PeripheralEmulator} {m : MemoryWrapper} (hn : NotifyStored p)
    (ha : AssertionsPass m) : p.virtioEmulation m = do
      let (p, mem) ← (p.atNotify m).virtioDiskAccess m (queueAddress (notifiedPfn m))
      let mem ← mem.write32 kPlicClaimAddress 1
      return ({ p with virtioInterrupt := true }, mem) := by
  rw [virtioEmulation_stored hn, queueNotify_assertions ha]
  rfl

section

variable {p : PeripheralEmulator} {m : MemoryWrapper}

/-- A queue number that is positive, as a number of entries. -/
theorem queueNum_range {n : BitVec 32} (h : 1 ≤ n.toInt) (h' : n.toInt ≤ kQueueNumMax) :
    n.toInt = (n.toNat : Int) ∧ 0 < n.toNat ∧ n.toNat ≤ 8 := by
  have hlt := n.isLt
  have hmax : kQueueNumMax = 8 := rfl
  rw [hmax] at h'
  rw [BitVec.toInt_eq_toNat_cond] at h h' ⊢
  split at h' <;> omega

theorem discCall_chain (h : 1 ≤ (notifiedQueueNum m).toInt) (h' : (notifiedQueueNum m).toInt ≤ kQueueNumMax) :
    (p.atNotify m).getDescIndex m (queueAddress (notifiedPfn m) + ((p.atNotify m).queueNum * 16).setWidth 64) =
      .ok (headAt m.bytes (notifiedQueueNum m).toNat (notifiedPfn m)) := by
  obtain ⟨-, hpos, hmax⟩ := queueNum_range h h'
  have hnum : (p.atNotify m).queueNum = BitVec.ofNat 32 (notifiedQueueNum m).toNat := by
    rw [BitVec.ofNat_toNat, BitVec.setWidth_eq]
    rfl
  have haddr : queueAddress (notifiedPfn m) + ((p.atNotify m).queueNum * 16).setWidth 64 =
      availAddress (notifiedQueueNum m).toNat (notifiedPfn m) := by
    rw [hnum, availAddress]
  rw [haddr, getDescIndex_eq hpos m (availAddress_even _ _) hmax hnum]
  rfl

/-- A notification is safe exactly when QUEUE_NUM is positive and the request
it leads to is within the image. -/
theorem notificationSafe_iff (ha : AssertionsPass m) (hsize : (p.diskImage.getD []).length < 2 ^ 64) :
    NotificationSafe p m ↔ ServesWithin (p.diskImage.getD []).length m := by
  constructor
  · intro h
    refine ⟨h.queueNum.1, ?_⟩
    rintro table head rfl rfl hadmitted
    refine (discIndex_lt_iff hsize).mp (h.index (callAt _ _ _) ?_)
    rw [discCall, discCall_chain h.queueNum.1 ha.queueNum, Except.ok_bind,
      (chainCall_iff (queueAddress_aligned _)).mpr ⟨hadmitted, rfl, rfl⟩]
    rfl
  · intro h
    refine ⟨⟨h.positive, ha.queueNum⟩, fun c hc => ?_⟩
    rw [discCall, discCall_chain h.positive ha.queueNum, Except.ok_bind] at hc
    obtain ⟨⟨c', next⟩, hcall, hc⟩ := Except.bind_ok_iff.mp hc
    cases hc
    obtain ⟨hadmitted, rfl, -⟩ := (chainCall_iff (queueAddress_aligned _)).mp hcall
    exact (discIndex_lt_iff hsize).mpr (h.fits _ _ rfl rfl hadmitted)

/-- A call whose data is empty or within the image returns. -/
theorem discAccess_ok {sector buffer : BitVec 64} {len : BitVec 32} (m : MemoryWrapper) (write : Bool)
    (hsize : (p.diskImage.getD []).length < 2 ^ 64)
    (h : len = 0 ∨ (sector * kSectorSize).toNat + len.toNat ≤ (p.diskImage.getD []).length) :
    ∃ p' m', p.discAccess m sector buffer len write = .ok (p', m') := by
  have hloops : ∃ image' m', discWrite m (p.diskImage.getD []) (sector * kSectorSize) buffer len.toNat = .ok image' ∧
      discRead m (p.diskImage.getD []) (sector * kSectorSize) buffer len.toNat = .ok m' := by
    rcases h with rfl | h
    · exact ⟨_, m, rfl, rfl⟩
    · obtain ⟨image', hwrite, -⟩ := @discWrite_image _ buffer _ m hsize _ h
      obtain ⟨m', hread, -⟩ := @discRead_bytes _ buffer _ m hsize _ h
      exact ⟨image', m', hwrite, hread⟩
  obtain ⟨image', m', hwrite, hread⟩ := hloops
  unfold discAccess
  dsimp only
  rw [hwrite, hread]
  cases write with
  | true => exact ⟨_, _, rfl⟩
  | false => exact ⟨_, _, rfl⟩

theorem failsOnly_assert (b : Bool) : Except.FailsOnly (· = .assertion) (assert b) := by
  intro e h
  cases b with
  | true => cases h
  | false => exact (Except.error.inj h).symm

theorem read32_failsOnly (m : MemoryWrapper) (a : BitVec 64) : Except.FailsOnly (· = .assertion) (m.read32 a) :=
  .bind (failsOnly_assert _) fun _ _ => by split <;> exact .ok _

theorem readOuthdr_failsOnly (m : MemoryWrapper) (a : BitVec 64) :
    Except.FailsOnly (· = .assertion) (readOuthdr m a) := by
  refine .bind (read32_failsOnly m _) fun type _ => .bind (read32_failsOnly m _) fun reserved _ => ?_
  refine .bind (.bind (failsOnly_assert _) fun _ _ => ?_) fun sector _ => .ok _
  exact .bind (read32_failsOnly m _) fun lower _ => .bind (read32_failsOnly m _) fun upper _ => .ok _

theorem chainCall_failsOnly (m : MemoryWrapper) {table : BitVec 64} (ht : table.toNat % 8 = 0) (i : BitVec 16) :
    Except.FailsOnly (· = .assertion) (chainCall m table i) := by
  unfold chainCall
  rw [readDesc_eq m ht, Except.ok_bind]
  refine .bind (readOuthdr_failsOnly m _) fun o _ => .bind (failsOnly_assert _) fun _ _ => ?_
  rw [readDesc_eq m ht, Except.ok_bind]
  exact .bind (failsOnly_assert _) fun _ _ => .ok _

/-- A request that is within the image can only fail an assertion. -/
theorem processDiscAccess_failsOnly (hsize : (p.diskImage.getD []).length < 2 ^ 64) {table : BitVec 64}
    (ht : table.toNat % 8 = 0) (i : BitVec 16) (h : Admitted m.bytes (flat table) i →
      (callAt m.bytes (flat table) i).len = 0 ∨ ((callAt m.bytes (flat table) i).sector * kSectorSize).toNat +
        (callAt m.bytes (flat table) i).len.toNat ≤ (p.diskImage.getD []).length) :
    Except.FailsOnly (· = .assertion) (p.processDiscAccess m table i) := by
  rw [processDiscAccess_call]
  refine .bind (chainCall_failsOnly m ht i) fun ⟨c, next⟩ hc => ?_
  obtain ⟨hadmitted, rfl, rfl⟩ := (chainCall_iff ht).mp hc
  obtain ⟨p', m', haccess⟩ := @discAccess_ok p _ (callAt m.bytes (flat table) i).buffer _ m
    (callAt m.bytes (flat table) i).write hsize (h hadmitted)
  dsimp only
  rw [haccess, Except.ok_bind, readDesc_eq m' ht, Except.ok_bind]
  refine .bind (failsOnly_assert _) fun _ _ => ?_
  obtain ⟨m'', hwrite, -⟩ :=
    writeStatus_bytes m' (descAt m'.bytes (flat table) (statusIndex m.bytes (flat table) i)).addr
  rw [hwrite, Except.ok_bind]
  exact .ok _

/-- And so can the notification. -/
theorem virtioEmulation_failsOnly (hn : NotifyStored p) (ha : AssertionsPass m)
    (hsize : (p.diskImage.getD []).length < 2 ^ 64) (h : ServesWithin (p.diskImage.getD []).length m) :
    Except.FailsOnly (· = .assertion) (p.virtioEmulation m) := by
  obtain ⟨hint, hpos, hmax⟩ := queueNum_range h.positive ha.queueNum
  have hring : decide (-2 ^ 31 ≤ 2 * (2 + (p.atNotify m).queueNum.toInt) ∧
      2 * (2 + (p.atNotify m).queueNum.toInt) < 2 ^ 31) = true := by
    rw [decide_eq_true_eq, show (p.atNotify m).queueNum = notifiedQueueNum m from rfl, hint]
    omega
  rw [virtioEmulation_atNotify hn ha]
  refine .bind ?_ fun ⟨q, m₁⟩ _ => ?_
  · unfold virtioDiskAccess
    dsimp only
    rw [defined_bind hring, discCall_chain h.positive ha.queueNum, Except.ok_bind]
    refine .bind (processDiscAccess_failsOnly (p := p.atNotify m) hsize (queueAddress_aligned _) _
      (h.fits _ _ rfl rfl)) fun r _ => ?_
    generalize queueAddress (notifiedPfn m) + ((p.atNotify m).queueNum * 16).setWidth 64 +
      BitVec.ofInt 64 (2 * (2 + (p.atNotify m).queueNum.toInt)) + 4096 - 1 = a
    have hpage : (a / 4096 * 4096).toNat % 4 = 0 := by
      rw [BitVec.toNat_mul, show (4096 : BitVec 64).toNat = 4096 from rfl]
      omega
    obtain ⟨m', hused, -⟩ :=
      processUsedBuffer_completed r.2 hpage (headAt m.bytes (notifiedQueueNum m).toNat (notifiedPfn m))
    rw [hused, Except.ok_bind]
    exact .ok _
  · obtain ⟨m', hplic, -⟩ := m₁.write32_bytes (i := kPlicClaimAddress) (by decide) 1
    dsimp only
    rw [hplic, Except.ok_bind]
    exact .ok _

end

/-- **Safe notifications.** At every store that overlaps QUEUE_NOTIFY, with
whatever memory passes the assertions of `VirtioEmulation`, the queue number
is between 1 and 8 and every index into the image is below its size if and
only if QUEUE_NUM is positive and the request selected, where it is one, is
empty or within the image. Nothing but an assertion then ends the emulator. -/
theorem notification_iff (p : PeripheralEmulator) (m : MemoryWrapper) (hn : NotifyStored p) (ha : AssertionsPass m)
    (hsize : (p.diskImage.getD []).length < 2 ^ 64) :
    (NotificationSafe p m ↔ ServesWithin (p.diskImage.getD []).length m) ∧
      (NotificationSafe p m → ∀ e, p.virtioEmulation m = .error e → e = .assertion) := by
  have hiff := notificationSafe_iff (p := p) ha hsize
  exact ⟨hiff, fun h => virtioEmulation_failsOnly hn ha hsize (hiff.mp h)⟩

/-- The first chain of the example is within its disk. -/
theorem notification_iff_served : NotificationSafe notifiedDisk diskQueue := by
  have ha : AssertionsPass diskQueue := ⟨by decide, by decide, by decide⟩
  refine (notification_iff notifiedDisk diskQueue ⟨rfl, by decide, by decide, by decide⟩ ha (by decide)).1.mpr ⟨?_, ?_⟩
  · decide
  · rintro table head rfl rfl -
    decide +kernel

/-- A page size has been stored, and no queue number. -/
def noEntries : MemoryWrapper := (MemoryWrapper.new.assign 0x100).setWord 0x100 0x40A 4096

/-- Both can go wrong: a queue of no entries divides by zero, and an image
that is too short is indexed past its end. -/
theorem notification_iff_crash :
    (NotifyStored notifiedDisk ∧ AssertionsPass noEntries ∧ ¬ NotificationSafe notifiedDisk noEntries ∧
      notifiedDisk.virtioEmulation noEntries = .error .divisionTrap) ∧
    AssertionsPass diskQueue ∧ ¬ NotificationSafe { notifiedDisk with diskImage := some [] } diskQueue ∧
      { notifiedDisk with diskImage := some [] }.virtioEmulation diskQueue = .error .undefinedBehaviour := by
  have hstored : NotifyStored notifiedDisk := ⟨rfl, by decide, by decide, by decide⟩
  have hnone : AssertionsPass noEntries := ⟨by decide, by decide, by decide⟩
  have hqueue : AssertionsPass diskQueue := ⟨by decide, by decide, by decide⟩
  refine ⟨⟨hstored, hnone, fun h => ?_, ?_⟩, hqueue, fun h => ?_, ?_⟩
  · have hpos := h.queueNum.1
    revert hpos
    decide
  · rfl
  · have hwithin := (notificationSafe_iff hqueue (by decide)).mp h
    have hfits := hwithin.fits _ _ rfl rfl ⟨by decide, by decide, by decide⟩
    revert hfits
    decide
  · rfl

end PeripheralEmulator

end RiscvEmulator
