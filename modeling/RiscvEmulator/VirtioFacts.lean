/-
The rings of the disk's queue.

`process_used_buffer` takes `used.idx` for a position in the used ring
without reducing it by the size of the queue. `usedRing_iff` says when a
call stays in the ring all the same.

`get_desc_index` reads the slot of the available index, which a driver has
incremented by then, and one chain is processed at a notification. The code
with a note of the calls it makes for a chain (`notedEmulation`) is the code
(`notedEmulation_erased`), and `virtioEmulation_chain` says what it notes. An
`AvailRing` is what is left of the memory when only the ring matters;
`Served.eq_served` says which of its heads are processed, and `served_iff`
when they are those the driver published.
-/
import RiscvEmulator.MemoryFacts
import RiscvEmulator.Peripheral

namespace RiscvEmulator

open MemoryWrapper (flat)

namespace PeripheralEmulator

/-! ## The calls for a chain -/

/-- A call that `VirtioDiskAccess` makes for a chain, with the chain's head. -/
inductive ChainCall where
  | processDiscAccess (head : BitVec 16)
  | processUsedBuffer (head : BitVec 16)
  deriving DecidableEq

/-- The address of the queue. -/
def queueAddress (pfn : BitVec 32) : BitVec 64 := (pfn * 4096).setWidth 64

section

variable (p : PeripheralEmulator) (mem : MemoryWrapper)

/-- The address of the used ring, as `VirtioDiskAccess` computes it. -/
def usedRingAddress (queueAddress : BitVec 64) : BitVec 64 :=
  (queueAddress + (p.queueNum * 16).setWidth 64 + BitVec.ofInt 64 (2 * (2 + p.queueNum.toInt)) + 4096 - 1) / 4096 * 4096

/-- `VirtioDiskAccess` with a note of its calls. -/
def notedDiskAccess (queueAddress : BitVec 64) :
    Except Crash (List ChainCall × PeripheralEmulator × MemoryWrapper) := do
  let availAddress := queueAddress + (p.queueNum * 16).setWidth 64
  let ringSize := 2 * (2 + p.queueNum.toInt)
  defined (-2 ^ 31 ≤ ringSize ∧ ringSize < 2 ^ 31)
  let descIndex ← p.getDescIndex mem availAddress
  let calls := [.processDiscAccess descIndex]
  let (p', mem) ← p.processDiscAccess mem queueAddress descIndex
  let calls := calls ++ [.processUsedBuffer descIndex]
  return (calls, p', ← processUsedBuffer mem (p.usedRingAddress queueAddress) descIndex)

def notedNotify : Except Crash (List ChainCall × PeripheralEmulator × MemoryWrapper) := do
  let queueNumber ← mem.read32 kVirtioMmioQueueNotify
  assert (queueNumber = 0)
  let p := { p with queueNum := ← mem.read32 kVirtioMmioQueueNum }
  assert (p.queueNum.toInt ≤ kQueueNumMax)
  let kPageSize ← mem.read32 kVirtioMmioPageSize
  assert (kPageSize = 4096)
  let kQueueAddress := ((← mem.read32 kVirtioMmioQueuePfn) * kPageSize).setWidth 64
  let (calls, p, mem) ← p.notedDiskAccess mem kQueueAddress
  let mem ← mem.write32 kPlicClaimAddress 1
  return (calls, { p with virtioInterrupt := true }, mem)

def notedEmulation : Except Crash (List ChainCall × PeripheralEmulator × MemoryWrapper) := do
  if !p.virtioWrite then
    return ([], p, mem)
  let p := { p with virtioWrite := false }
  let mem ← p.queueSelect mem
  if p.virtioAddress + p.virtioWidth ≤ kVirtioMmioQueueNotify ∨ kVirtioMmioQueueNotify + 4 ≤ p.virtioAddress then
    return ([], p, mem)
  p.notedNotify mem

theorem notedDiskAccess_erased (a : BitVec 64) :
    Except.Related (fun r r' => r.2 = r') (p.notedDiskAccess mem a) (p.virtioDiskAccess mem a) := by
  refine .bind (.same _) ?_
  rintro _ _ rfl
  refine .bind (.same _) ?_
  rintro descIndex _ rfl
  refine .bind (.same _) ?_
  rintro ⟨p', mem'⟩ _ rfl
  refine .bind (.same _) ?_
  rintro m₁ _ rfl
  exact .ok rfl

theorem notedNotify_erased :
    Except.Related (fun r r' => r.2 = r') (p.notedNotify mem) (p.queueNotify mem) := by
  refine .bind (.same _) ?_
  rintro _ _ rfl
  refine .bind (.same _) ?_
  rintro _ _ rfl
  refine .bind (.same _) ?_
  rintro queueNum _ rfl
  refine .bind (.same _) ?_
  rintro _ _ rfl
  refine .bind (.same _) ?_
  rintro pageSize _ rfl
  refine .bind (.same _) ?_
  rintro _ _ rfl
  refine .bind (.same _) ?_
  rintro pfn _ rfl
  refine .bind (notedDiskAccess_erased _ mem _) ?_
  rintro ⟨calls, p', mem'⟩ _ rfl
  refine .bind (.same _) ?_
  rintro m₁ _ rfl
  exact .ok rfl

/-- Without its note this is `VirtioEmulation`. -/
theorem notedEmulation_erased :
    Except.Related (fun r r' => r.2 = r') (p.notedEmulation mem) (p.virtioEmulation mem) := by
  refine .ite Iff.rfl (fun _ => .ok rfl) fun _ => .bind (.same _) ?_
  rintro m₁ _ rfl
  exact .ite Iff.rfl (fun _ => .ok rfl) fun _ => notedNotify_erased _ m₁

/-- The calls that `VirtioEmulation` makes for chains. -/
def chainCalls : List ChainCall := (p.notedEmulation mem).toOption.elim [] Prod.fst

/-- The calls that serve a chain. -/
def servesChain (head : BitVec 16) : List ChainCall := [.processDiscAccess head, .processUsedBuffer head]

end

/-! ## The ways through a notification -/

/-- A store has reached QUEUE_NOTIFY. -/
def notified (p : PeripheralEmulator) : Bool :=
  p.virtioWrite && !(p.virtioAddress + p.virtioWidth ≤ kVirtioMmioQueueNotify ∨
    kVirtioMmioQueueNotify + 4 ≤ p.virtioAddress : Bool)

section

variable {p p' : PeripheralEmulator} {m m' : MemoryWrapper} {calls : List ChainCall}

theorem notedDiskAccess_ok {a : BitVec 64} (h : p.notedDiskAccess m a = .ok (calls, p', m')) :
    ∃ head m₁, p.getDescIndex m (a + (p.queueNum * 16).setWidth 64) = .ok head ∧
      p.processDiscAccess m a head = .ok (p', m₁) ∧ processUsedBuffer m₁ (p.usedRingAddress a) head = .ok m' ∧
      calls = servesChain head := by
  obtain ⟨-, -, h⟩ := Except.bind_ok_iff.mp h
  obtain ⟨head, hhead, h⟩ := Except.bind_ok_iff.mp h
  obtain ⟨⟨p₁, m₁⟩, hdisc, h⟩ := Except.bind_ok_iff.mp h
  obtain ⟨m₂, hused, h⟩ := Except.bind_ok_iff.mp h
  cases h
  exact ⟨head, m₁, hhead, hdisc, hused, rfl⟩

theorem notedNotify_ok (h : p.notedNotify m = .ok (calls, p', m')) :
    ∃ queueNum pfn p₁ m₁, m.read32 kVirtioMmioQueueNum = .ok queueNum ∧ m.read32 kVirtioMmioPageSize = .ok 4096 ∧
      m.read32 kVirtioMmioQueuePfn = .ok pfn ∧
      { p with queueNum }.notedDiskAccess m (queueAddress pfn) = .ok (calls, p₁, m₁) ∧
      m₁.write32 kPlicClaimAddress 1 = .ok m' ∧ p' = { p₁ with virtioInterrupt := true } := by
  obtain ⟨number, -, h⟩ := Except.bind_ok_iff.mp h
  obtain ⟨-, -, h⟩ := Except.bind_ok_iff.mp h
  obtain ⟨queueNum, hnum, h⟩ := Except.bind_ok_iff.mp h
  obtain ⟨-, -, h⟩ := Except.bind_ok_iff.mp h
  obtain ⟨pageSize, hpage, h⟩ := Except.bind_ok_iff.mp h
  obtain ⟨u, hsize, h⟩ := Except.bind_ok_iff.mp h
  obtain ⟨pfn, hpfn, h⟩ := Except.bind_ok_iff.mp h
  obtain ⟨⟨calls, p₁, m₁⟩, hdisk, h⟩ := Except.bind_ok_iff.mp h
  obtain ⟨m₂, hplic, h⟩ := Except.bind_ok_iff.mp h
  cases h
  obtain rfl : pageSize = 4096 := of_decide_eq_true (assert_ok hsize)
  exact ⟨queueNum, pfn, p₁, m₁, hnum, hpage, hpfn, hdisk, hplic, rfl⟩

/-- A chain that is served: its request is carried out, and its head is put in
the used ring. -/
theorem virtioDiskAccess_ok {a : BitVec 64} (h : p.virtioDiskAccess m a = .ok (p', m')) :
    ∃ head m₁, p.getDescIndex m (a + (p.queueNum * 16).setWidth 64) = .ok head ∧
      p.processDiscAccess m a head = .ok (p', m₁) ∧ processUsedBuffer m₁ (p.usedRingAddress a) head = .ok m' := by
  have he := notedDiskAccess_erased p m a
  rw [h] at he
  obtain ⟨⟨calls, r⟩, hn, rfl⟩ := he.ok_right
  obtain ⟨head, m₁, hhead, hdisc, hused, -⟩ := notedDiskAccess_ok hn
  exact ⟨head, m₁, hhead, hdisc, hused⟩

/-- A request that is served ends with the number of the disk in the claim
word. -/
theorem queueNotify_ok (h : p.queueNotify m = .ok (p', m')) :
    ∃ queueNum pfn p₁ m₁, m.read32 kVirtioMmioQueueNum = .ok queueNum ∧ m.read32 kVirtioMmioPageSize = .ok 4096 ∧
      m.read32 kVirtioMmioQueuePfn = .ok pfn ∧
      { p with queueNum }.virtioDiskAccess m (queueAddress pfn) = .ok (p₁, m₁) ∧
      m₁.write32 kPlicClaimAddress 1 = .ok m' ∧ p' = { p₁ with virtioInterrupt := true } := by
  have he := notedNotify_erased p m
  rw [h] at he
  obtain ⟨⟨calls, r⟩, hn, rfl⟩ := he.ok_right
  obtain ⟨queueNum, pfn, p₁, m₁, hnum, hpage, hpfn, hdisk, hrest⟩ := notedNotify_ok hn
  have he := notedDiskAccess_erased { p with queueNum } m (queueAddress pfn)
  rw [hdisk] at he
  obtain ⟨-, hdisk, rfl⟩ := he.ok_left
  exact ⟨queueNum, pfn, p₁, m₁, hnum, hpage, hpfn, hdisk, hrest⟩

/-- The ways through `VirtioEmulation`: no register has been stored to, or
none but others than QUEUE_NOTIFY, or a request is served. -/
inductive VirtioPath (p : PeripheralEmulator) (m : MemoryWrapper) : PeripheralEmulator → MemoryWrapper → Prop
  | idle (write : p.virtioWrite = false) (quiet : p.notified = false) : VirtioPath p m p m
  | other {m₁ : MemoryWrapper} (write : p.virtioWrite = true) (quiet : p.notified = false)
      (select : { p with virtioWrite := false }.queueSelect m = .ok m₁) :
      VirtioPath p m { p with virtioWrite := false } m₁
  | served {m₁ m' : MemoryWrapper} {p' : PeripheralEmulator} (write : p.virtioWrite = true)
      (notify : p.notified = true) (select : { p with virtioWrite := false }.queueSelect m = .ok m₁)
      (serve : { p with virtioWrite := false }.queueNotify m₁ = .ok (p', m')) : VirtioPath p m p' m'

theorem virtioEmulation_path (h : p.virtioEmulation m = .ok (p', m')) : VirtioPath p m p' m' := by
  unfold virtioEmulation at h
  split at h
  · next hw =>
    cases h
    rw [Bool.not_eq_true'] at hw
    exact .idle hw (by rw [notified, hw]; rfl)
  next hw =>
  rw [Bool.not_eq_true', Bool.not_eq_false] at hw
  obtain ⟨m₁, hselect, h⟩ := Except.bind_ok_iff.mp h
  split at h
  · next hout =>
    cases h
    exact .other hw (by rw [notified, hw, decide_eq_true hout]; rfl) hselect
  · next hout => exact .served hw (by rw [notified, hw, decide_eq_false hout]; rfl) hselect h

/-- A store to QUEUE_SEL writes QUEUE_MAX, any other nothing. -/
theorem queueSelect_frame (h : p.queueSelect m = .ok m') :
    ∀ b, ¬ Bytes.InArea (flat kVirtioMmioQueueMax, 4) b → m'.bytes b = m.bytes b := by
  unfold queueSelect at h
  split at h
  · obtain ⟨sel, -, h⟩ := Except.bind_ok_iff.mp h
    exact MemoryWrapper.write32_frame h
  · cases h
    exact fun _ _ => rfl

/-- A store that overlaps QUEUE_NOTIFY has been reported. -/
structure NotifyStored (p : PeripheralEmulator) : Prop where
  write : p.virtioWrite = true
  width : p.virtioWidth ≤ 8
  last : kVirtioMmioQueueNotify < p.virtioAddress + p.virtioWidth
  first : p.virtioAddress < kVirtioMmioQueueNotify + 4

/-- It does not touch QUEUE_SEL. -/
theorem NotifyStored.select (hn : NotifyStored p) :
    ({ p with virtioWrite := false } : PeripheralEmulator).queueSelect m = .ok m := by
  obtain ⟨-, hwidth, hlast, -⟩ := hn
  have hsel : (kVirtioMmioQueueSel + 4).toNat = 0x10001034 := rfl
  have hnotify : kVirtioMmioQueueNotify.toNat = 0x10001050 := rfl
  rw [queueSelect, if_neg]
  · rfl
  rintro ⟨-, hlt⟩
  rw [BitVec.lt_def, hsel] at hlt
  rw [BitVec.lt_def, hnotify, BitVec.toNat_add] at hlast
  rw [BitVec.le_def, show (8 : BitVec 64).toNat = 8 from rfl] at hwidth
  dsimp only at hlt
  omega

theorem NotifyStored.inside (hn : NotifyStored p) : ¬ (p.virtioAddress + p.virtioWidth ≤ kVirtioMmioQueueNotify ∨
    kVirtioMmioQueueNotify + 4 ≤ p.virtioAddress) := by
  rw [not_or, BitVec.not_le, BitVec.not_le]
  exact ⟨hn.last, hn.first⟩

theorem virtioEmulation_stored (hn : NotifyStored p) :
    p.virtioEmulation m = { p with virtioWrite := false }.queueNotify m := by
  unfold virtioEmulation
  rw [if_neg (by rw [hn.write]; decide)]
  dsimp only
  rw [hn.select, Except.ok_bind, if_neg hn.inside]

theorem notedEmulation_stored (hn : NotifyStored p) :
    p.notedEmulation m = { p with virtioWrite := false }.notedNotify m := by
  unfold notedEmulation
  rw [if_neg (by rw [hn.write]; decide)]
  dsimp only
  rw [hn.select, Except.ok_bind, if_neg hn.inside]

/-- The calls of a run that returns have been noted. -/
theorem notedEmulation_of_ok (h : p.virtioEmulation m = .ok (p', m')) :
    p.notedEmulation m = .ok (p.chainCalls m, p', m') := by
  have he := notedEmulation_erased p m
  rw [h] at he
  obtain ⟨⟨calls, r⟩, hn, rfl⟩ := he.ok_right
  rw [chainCalls, hn]
  rfl

end

/-! ## The used ring -/

/-- `used.idx` of the ring at `a`. -/
def usedIdx (s : Bytes.Store 32) (a : BitVec 32) : BitVec 16 := Bytes.load 16 s (a + BitVec.ofNat 32 2) 2

/-- The head and the length at position `i` from the ring's start. -/
def usedElement (s : Bytes.Store 32) (a : BitVec 32) (i : Nat) : BitVec 32 × BitVec 32 :=
  (Bytes.load 32 s (a + BitVec.ofNat 32 (4 + 8 * i)) 4, Bytes.load 32 s (a + BitVec.ofNat 32 (8 + 8 * i)) 4)

/-- The length that is given for every request. -/
def kUsedLength : BitVec 32 := 3

/-- The memory after a call of `process_used_buffer`. -/
def completed (s : Bytes.Store 32) (a : BitVec 32) (head : BitVec 16) : Bytes.Store 32 :=
  let i := (usedIdx s a).toNat
  let s₁ := Bytes.store s (a + BitVec.ofNat 32 (4 + 8 * i)) (head.setWidth 32) 4
  let s₂ := Bytes.store s₁ (a + BitVec.ofNat 32 (8 + 8 * i)) kUsedLength 4
  Bytes.store s₂ (a + BitVec.ofNat 32 2) (usedIdx s a + 1) 2

theorem aligned_add {a : BitVec 64} {k n : Nat} (hn : n ∣ 2 ^ 64) (ha : a.toNat % n = 0) (hk : k % n = 0) :
    (a + BitVec.ofNat 64 k).toNat % n = 0 := by
  rw [BitVec.toNat_add, BitVec.toNat_ofNat, Nat.add_mod_mod, Nat.mod_mod_of_dvd _ hn, Nat.add_mod, ha, hk, Nat.add_zero,
    Nat.zero_mod]

/-- The address of an entry of a table whose index is a halfword. -/
theorem entry_address (a : BitVec 64) (i : BitVec 16) (o c : Nat) :
    a + BitVec.ofNat 64 o + i.setWidth 64 * BitVec.ofNat 64 c = a + BitVec.ofNat 64 (o + c * i.toNat) := by
  have hi : i.setWidth 64 = BitVec.ofNat 64 i.toNat := by
    rw [BitVec.ofNat_toNat]
  rw [hi, BitVec.ofNat_add, BitVec.ofNat_mul, BitVec.add_assoc, BitVec.mul_comm]

theorem processUsedBuffer_completed (m : MemoryWrapper) {a : BitVec 64} (ha : a.toNat % 4 = 0) (head : BitVec 16) :
    ∃ m', processUsedBuffer m a head = .ok m' ∧ m'.bytes = completed m.bytes (flat a) head := by
  have h2 : (a + BitVec.ofNat 64 2).toNat % 2 = 0 := aligned_add (by decide) (by omega) rfl
  have hread : m.read16 (a + 2) = .ok (usedIdx m.bytes (flat a)) := by
    rw [usedIdx, ← MemoryWrapper.flat_add]
    exact m.read16_eq h2
  unfold processUsedBuffer completed
  rw [hread, Except.ok_bind]
  dsimp only
  generalize usedIdx m.bytes (flat a) = i
  have helem : a + 4 + i.setWidth 64 * 8 = a + BitVec.ofNat 64 (4 + 8 * i.toNat) := entry_address a i 4 8
  have hlen : a + 4 + i.setWidth 64 * 8 + 4 = a + BitVec.ofNat 64 (8 + 8 * i.toNat) := by
    rw [helem, BitVec.add_assoc, show (4 : BitVec 64) = BitVec.ofNat 64 4 from rfl, ← BitVec.ofNat_add,
      Nat.add_right_comm]
  rw [hlen, helem]
  obtain ⟨m₁, hw₁, hb₁⟩ := m.write32_bytes (i := a + BitVec.ofNat 64 (4 + 8 * i.toNat))
    (aligned_add (by decide) ha (by omega)) (head.setWidth 32)
  obtain ⟨m₂, hw₂, hb₂⟩ := m₁.write32_bytes (i := a + BitVec.ofNat 64 (8 + 8 * i.toNat))
    (aligned_add (by decide) ha (by omega)) kUsedLength
  obtain ⟨m₃, hw₃, hb₃⟩ := m₂.write16_bytes h2 (i + 1)
  refine ⟨m₃, ?_, ?_⟩
  · rw [hw₁, Except.ok_bind]
    exact (congrArg (· >>= _) hw₂).trans hw₃
  · rw [hb₃, hb₂, hb₁, MemoryWrapper.flat_add, MemoryWrapper.flat_add, MemoryWrapper.flat_add]

section

variable {N : Nat} {s : Bytes.Store 32} {a : BitVec 32} {head : BitVec 16}

/-- What a call should do to a ring of `N` elements: the head and the length
go to the element that `used.idx` selects, `used.idx` is incremented, and no
byte changes but those of the elements and of `used.idx`. -/
structure Completes (N : Nat) (a : BitVec 32) (head : BitVec 16) (s s' : Bytes.Store 32) : Prop where
  element : usedElement s' a ((usedIdx s a).toNat % N) = (head.setWidth 32, kUsedLength)
  idx : usedIdx s' a = usedIdx s a + 1
  frame : ∀ b, s' b ≠ s b → (2 ≤ (b - a).toNat ∧ (b - a).toNat < 4) ∨ (4 ≤ (b - a).toNat ∧ (b - a).toNat < 4 + 8 * N)

/-- `used.idx` is an element's position as it is; or what the call would
write is there already, both in the element and at the position. -/
def StaysInRing (N : Nat) (a : BitVec 32) (head : BitVec 16) (s : Bytes.Store 32) : Prop :=
  (usedIdx s a).toNat < N ∨
    (usedElement s a ((usedIdx s a).toNat % N) = (head.setWidth 32, kUsedLength) ∧
      usedElement s a (usedIdx s a).toNat = (head.setWidth 32, kUsedLength))

theorem completed_idx : usedIdx (completed s a head) a = usedIdx s a + 1 :=
  Bytes.load_store _ _ _ (by decide) (by decide)

/-- The position that `used.idx` names gets the head and the length. -/
theorem completed_element :
    usedElement (completed s a head) a (usedIdx s a).toNat = (head.setWidth 32, kUsedLength) := by
  have hi := (usedIdx s a).isLt
  unfold completed
  dsimp only
  rw [usedElement, Bytes.load_store_of_apart _ _ _ (by omega) (by omega) (by omega),
    Bytes.load_store_of_apart _ _ _ (by omega) (by omega) (by omega), Bytes.load_store _ _ _ (by decide) (by decide),
    Bytes.load_store_of_apart _ _ _ (by omega) (by omega) (by omega), Bytes.load_store _ _ _ (by decide) (by decide)]

/-- The other positions keep what they have. -/
theorem completed_element_of_ne {j : Nat} (hj : j < 2 ^ 16) (hne : j ≠ (usedIdx s a).toNat) :
    usedElement (completed s a head) a j = usedElement s a j := by
  have hi := (usedIdx s a).isLt
  unfold completed
  dsimp only
  rw [usedElement, usedElement]
  congr 1
  all_goals
    rw [Bytes.load_store_of_apart _ _ _ (by omega) (by omega) (by omega),
      Bytes.load_store_of_apart _ _ _ (by omega) (by omega) (by omega),
      Bytes.load_store_of_apart _ _ _ (by omega) (by omega) (by omega)]

/-- Only that position and `used.idx` change. -/
theorem completed_frame {b : BitVec 32} (h : completed s a head b ≠ s b) : (2 ≤ (b - a).toNat ∧ (b - a).toNat < 4) ∨
    (4 + 8 * (usedIdx s a).toNat ≤ (b - a).toNat ∧ (b - a).toNat < 12 + 8 * (usedIdx s a).toNat) := by
  have hi := (usedIdx s a).isLt
  unfold completed at h
  rw [Bytes.store_offset _ _ _ (by omega), Bytes.store_offset _ _ _ (by omega),
    Bytes.store_offset _ _ _ (by omega)] at h
  by_contra hn
  rw [if_neg (by omega), if_neg (by omega), if_neg (by omega)] at h
  exact h rfl

/-- A call whose head and length are in place already changes `used.idx` only. -/
theorem completed_same (h : usedElement s a (usedIdx s a).toNat = (head.setWidth 32, kUsedLength)) :
    completed s a head = Bytes.store s (a + BitVec.ofNat 32 2) (usedIdx s a + 1) 2 := by
  obtain ⟨hhead, hlen⟩ := Prod.mk.inj h
  unfold completed
  dsimp only
  rw [← hhead, Bytes.store_load _ _ (by decide) (by decide), ← hlen, Bytes.store_load _ _ (by decide) (by decide)]

/-- One call does what it should exactly when it stays in the ring. -/
theorem completes_iff (hN : 0 < N) (hN' : N < 2 ^ 16) :
    Completes N a head s (completed s a head) ↔ StaysInRing N a head s := by
  have hi := (usedIdx s a).isLt
  have hmod : (usedIdx s a).toNat % N < N := Nat.mod_lt _ hN
  constructor
  · intro h
    by_cases hlt : (usedIdx s a).toNat < N
    · exact .inl hlt
    refine .inr ⟨?_, ?_⟩
    · rw [← h.element, completed_element_of_ne (by omega) (by omega)]
    · -- The position is outside the ring, so its bytes are as they were.
      have helem : usedElement (completed s a head) a (usedIdx s a).toNat = (head.setWidth 32, kUsedLength) :=
        completed_element
      rw [← helem, usedElement, usedElement]
      have hout : ∀ o, 4 + 8 * (usedIdx s a).toNat ≤ o → o < 2 ^ 32 →
          s (a + BitVec.ofNat 32 o) = completed s a head (a + BitVec.ofNat 32 o) := by
        intro o ho ho'
        by_contra hne
        have hf := h.frame _ (Ne.symm hne)
        rw [Bytes.toNat_offset a ho'] at hf
        omega
      congr 1
      all_goals
        refine Bytes.load_congr fun j hj => ?_
        rw [BitVec.add_assoc, ← BitVec.ofNat_add]
        exact hout _ (by omega) (by omega)
  · intro h
    by_cases hlt : (usedIdx s a).toNat < N
    · refine ⟨?_, completed_idx, fun b hb => ?_⟩
      · rw [Nat.mod_eq_of_lt hlt]
        exact completed_element
      · have := completed_frame hb
        omega
    · rcases h with h | ⟨helem, hpos⟩
      · exact absurd h hlt
      refine ⟨?_, completed_idx, fun b hb => ?_⟩
      · rw [completed_element_of_ne (by omega) (by omega)]
        exact helem
      · rw [completed_same hpos, Bytes.store_offset _ _ _ (by decide)] at hb
        by_contra hn
        rw [if_neg (by omega)] at hb
        exact hb rfl

end

/-- The calls for a sequence of completed requests. -/
def processUsedBuffers (a : BitVec 64) : List (BitVec 16) → MemoryWrapper → Except Crash MemoryWrapper
  | [], mem => .ok mem
  | head :: heads, mem => do
    let mem ← processUsedBuffer mem a head
    processUsedBuffers a heads mem

theorem processUsedBuffers_returns {a : BitVec 64} (ha : a.toNat % 4 = 0) (heads : List (BitVec 16))
    (m : MemoryWrapper) :
    ∃ m', processUsedBuffers a heads m = .ok m' := by
  induction heads generalizing m with
  | nil => exact ⟨m, rfl⟩
  | cons head heads ih =>
    obtain ⟨m₁, h₁, -⟩ := processUsedBuffer_completed m ha head
    obtain ⟨m', h'⟩ := ih m₁
    exact ⟨m', by rw [processUsedBuffers, h₁, Except.ok_bind, h']⟩

/-- **The used ring.** For a queue of at most eight entries and a used ring on
a page boundary, the calls for any sequence of requests return, and each of
them does what it should if and only if each of them stays in the ring. -/
theorem usedRing_iff (N : Nat) (hN : 1 ≤ N) (hN' : N ≤ 8) (a : BitVec 64) (ha : a.toNat % 4096 = 0)
    (m : MemoryWrapper) (heads : List (BitVec 16)) :
    (∃ m', processUsedBuffers a heads m = .ok m') ∧
      ((∀ before head after m₁ m₂, heads = before ++ head :: after → processUsedBuffers a before m = .ok m₁ →
          processUsedBuffer m₁ a head = .ok m₂ → Completes N (flat a) head m₁.bytes m₂.bytes) ↔
        ∀ before head after m₁, heads = before ++ head :: after → processUsedBuffers a before m = .ok m₁ →
          StaysInRing N (flat a) head m₁.bytes) := by
  have ha4 : a.toNat % 4 = 0 := by omega
  refine ⟨processUsedBuffers_returns ha4 heads m, ?_⟩
  constructor
  · intro h before head after m₁ hheads hrun
    obtain ⟨m₂, hcall, hb⟩ := processUsedBuffer_completed m₁ ha4 head
    rw [← completes_iff (by omega) (by omega), ← hb]
    exact h before head after m₁ m₂ hheads hrun hcall
  · intro h before head after m₁ m₂ hheads hrun hcall
    obtain ⟨m₂', hcall', hb⟩ := processUsedBuffer_completed m₁ ha4 head
    cases hcall.symm.trans hcall'
    rw [hb, completes_iff (by omega) (by omega)]
    exact h before head after m₁ hheads hrun

/-- Each call counts one. -/
theorem processUsedBuffers_idx {a : BitVec 64} (ha : a.toNat % 4 = 0) {heads : List (BitVec 16)} {m m' : MemoryWrapper}
    (h : processUsedBuffers a heads m = .ok m') :
    usedIdx m'.bytes (flat a) = usedIdx m.bytes (flat a) + BitVec.ofNat 16 heads.length := by
  induction heads generalizing m with
  | nil =>
    cases h
    exact (BitVec.add_zero _).symm
  | cons head heads ih =>
    obtain ⟨m₁, hcall, hb⟩ := processUsedBuffer_completed m ha head
    rw [processUsedBuffers, hcall, Except.ok_bind] at h
    rw [ih h, hb, completed_idx, List.length_cons, BitVec.ofNat_add, BitVec.add_assoc, BitVec.add_comm 1]
    rfl

/-- Three requests of a fresh queue. -/
theorem usedRing_iff_fresh : ∃ m₁ m₂ m₃, processUsedBuffer .new 0x1000 5 = .ok m₁ ∧
    processUsedBuffer m₁ 0x1000 2 = .ok m₂ ∧ processUsedBuffer m₂ 0x1000 7 = .ok m₃ ∧
    Completes 8 0x1000 5 MemoryWrapper.new.bytes m₁.bytes ∧ Completes 8 0x1000 2 m₁.bytes m₂.bytes ∧
    Completes 8 0x1000 7 m₂.bytes m₃.bytes := by
  have ha : (0x1000 : BitVec 64).toNat % 4 = 0 := by decide
  obtain ⟨m₁, h₁, -⟩ := processUsedBuffer_completed .new ha 5
  obtain ⟨m₂, h₂, -⟩ := processUsedBuffer_completed m₁ ha 2
  obtain ⟨m₃, h₃, -⟩ := processUsedBuffer_completed m₂ ha 7
  have hall := (usedRing_iff 8 (by decide) (by decide) 0x1000 (by decide) .new [5, 2, 7]).2.mpr
    fun before head after m hheads hrun => by
      have hlen : before.length < 3 := by
        have := congrArg List.length hheads
        simp only [List.length_append, List.length_cons, List.length_nil] at this
        omega
      have hidx := congrArg BitVec.toNat (processUsedBuffers_idx ha hrun)
      rw [show usedIdx MemoryWrapper.new.bytes (flat 0x1000) = 0#16 by decide, BitVec.zero_add,
        BitVec.toNat_ofNat] at hidx
      exact .inl (by omega)
  have hrun₁ : processUsedBuffers 0x1000 [5] .new = .ok m₁ := by
    rw [processUsedBuffers, h₁]
    rfl
  have hrun₂ : processUsedBuffers 0x1000 [5, 2] .new = .ok m₂ := by
    rw [processUsedBuffers, h₁, Except.ok_bind, processUsedBuffers, h₂]
    rfl
  exact ⟨m₁, m₂, m₃, h₁, h₂, h₃, hall [] 5 [2, 7] .new m₁ rfl rfl h₁, hall [5] 2 [7] m₁ m₂ rfl hrun₁ h₂,
    hall [5, 2] 7 [] m₂ m₃ rfl hrun₂ h₃⟩

/-- The memory after eight requests. -/
def eightCompleted : MemoryWrapper := (processUsedBuffers 0x1000 (List.replicate 8 1) .new).toOption.getD .new

/-- The ninth request of a queue of eight writes behind the ring. -/
theorem usedRing_iff_ninth : processUsedBuffers 0x1000 (List.replicate 8 1) .new = .ok eightCompleted ∧
    ∃ m', processUsedBuffer eightCompleted 0x1000 1 = .ok m' ∧ eightCompleted.bytes 0x1044 = 0 ∧
      m'.bytes 0x1044 = 1 ∧ ¬ Completes 8 0x1000 1 eightCompleted.bytes m'.bytes := by
  have hrun : processUsedBuffers 0x1000 (List.replicate 8 1) .new = .ok eightCompleted := by
    obtain ⟨m, hm⟩ := processUsedBuffers_returns (a := 0x1000) (by decide) (List.replicate 8 1) .new
    rw [eightCompleted, hm]
    rfl
  obtain ⟨m', hcall, hb⟩ := processUsedBuffer_completed eightCompleted (a := 0x1000) (by decide) 1
  have hbefore : eightCompleted.bytes 0x1044 = 0 := by decide
  have hafter : m'.bytes 0x1044 = 1 := by
    rw [hb]
    decide
  refine ⟨hrun, m', hcall, hbefore, hafter, fun h => ?_⟩
  have hf := h.frame 0x1044 (by rw [hbefore, hafter]; decide)
  exact absurd hf (by decide)

/-! ## The available ring -/

/-- A ring of `N` slots with a free-running index. -/
@[ext] structure AvailRing (N : Nat) where
  idx : BitVec 16
  ring : Fin N → BitVec 16
  pos : 0 < N

section

variable {N : Nat}

/-- The slot that an index selects. -/
def AvailRing.slot (r : AvailRing N) (idx : BitVec 16) : Fin N := ⟨idx.toNat % N, Nat.mod_lt _ r.pos⟩

/-- What a driver does: the head goes to the slot of the index, and the index
is incremented. -/
def AvailRing.publish (r : AvailRing N) (head : BitVec 16) : AvailRing N :=
  { r with idx := r.idx + 1, ring := Function.update r.ring (r.slot r.idx) head }

/-- What the device reads at a notification: the slot of the index. -/
def AvailRing.read (r : AvailRing N) : BitVec 16 := r.ring (r.slot r.idx)

/-- The heads that a device reads which serves one head at a notification,
when a batch of heads is published before each. -/
def AvailRing.served : AvailRing N → List (List (BitVec 16)) → List (BitVec 16)
  | _, [] => []
  | r, heads :: batches => (heads.foldl publish r).read :: served (heads.foldl publish r) batches

/-- Every batch is one head, and it is what the next slot has: either the
next slot is the same one, or it has the head already. -/
def AvailRing.InStep : AvailRing N → List (List (BitVec 16)) → Prop
  | _, [] => True
  | r, heads :: batches => ∃ head, heads = [head] ∧
      (r.slot (r.idx + 1) = r.slot r.idx ∨ r.ring (r.slot (r.idx + 1)) = head) ∧ InStep (r.publish head) batches

theorem AvailRing.served_length (r : AvailRing N) (batches : List (List (BitVec 16))) :
    (r.served batches).length = batches.length := by
  induction batches generalizing r with
  | nil => rfl
  | cons heads batches ih => rw [served, List.length_cons, ih, List.length_cons]

theorem length_le_flatten {batches : List (List (BitVec 16))} (h : ∀ b ∈ batches, b ≠ []) :
    batches.length ≤ batches.flatten.length := by
  induction batches with
  | nil => exact Nat.le_refl _
  | cons b batches ih =>
    have hb : 0 < b.length := List.length_pos_iff.mpr (h b (List.mem_cons_self ..))
    have hrest := ih fun b hb => h b (List.mem_cons_of_mem _ hb)
    rw [List.flatten_cons, List.length_cons, List.length_append]
    omega

/-- What is read after one publication. -/
theorem AvailRing.read_publish (r : AvailRing N) (head : BitVec 16) : (r.publish head).read = head ↔
    r.slot (r.idx + 1) = r.slot r.idx ∨ r.ring (r.slot (r.idx + 1)) = head := by
  change Function.update r.ring (r.slot r.idx) head (r.slot (r.idx + 1)) = head ↔ _
  generalize r.slot (r.idx + 1) = j
  by_cases h : j = r.slot r.idx
  · simp [h]
  · simp [h]

/-- The heads read are the heads published exactly when the batches are in
step. -/
theorem AvailRing.served_eq_iff (r : AvailRing N) {batches : List (List (BitVec 16))} (h : ∀ b ∈ batches, b ≠ []) :
    r.served batches = batches.flatten ↔ r.InStep batches := by
  induction batches generalizing r with
  | nil => exact ⟨fun _ => trivial, fun _ => rfl⟩
  | cons heads batches ih =>
    have hrest : ∀ b ∈ batches, b ≠ [] := fun b hb => h b (List.mem_cons_of_mem _ hb)
    constructor
    · intro hs
      -- There are as many heads read as batches, so this batch has one head.
      have hlen := congrArg List.length hs
      rw [served_length, List.flatten_cons, List.length_append, List.length_cons] at hlen
      have hle := length_le_flatten hrest
      have hpos : 0 < heads.length := List.length_pos_iff.mpr (h heads (List.mem_cons_self ..))
      obtain ⟨head, rfl⟩ := List.length_eq_one_iff.mp (show heads.length = 1 by omega)
      rw [served, List.flatten_cons, List.singleton_append, List.cons.injEq] at hs
      exact ⟨head, rfl, (r.read_publish head).mp hs.1, (ih (r.publish head) hrest).mp hs.2⟩
    · rintro ⟨head, rfl, hslot, hin⟩
      rw [served, List.flatten_cons, List.singleton_append, List.cons.injEq]
      exact ⟨(r.read_publish head).mpr hslot, (ih (r.publish head) hrest).mpr hin⟩

end

/-! ## The queue in memory -/

section

variable {N : Nat} (hN : 0 < N)

/-- The available ring at `a`. -/
def availRing (s : Bytes.Store 32) (a : BitVec 32) : AvailRing N where
  idx := Bytes.load 16 s (a + BitVec.ofNat 32 2) 2
  ring i := Bytes.load 16 s (a + BitVec.ofNat 32 (4 + 2 * i)) 2
  pos := hN

/-- The driver's stores for one head: to the slot of the index, and to the
index. -/
def driverPublish (N : Nat) (a : BitVec 64) (mem : MemoryWrapper) (head : BitVec 16) : Except Crash MemoryWrapper := do
  let idx ← mem.read16 (a + 2)
  let mem ← mem.write16 (a + BitVec.ofNat 64 (4 + 2 * (idx.toNat % N))) head
  mem.write16 (a + 2) (idx + 1)

theorem driverPublish_ring (m : MemoryWrapper) {a : BitVec 64} (ha : a.toNat % 2 = 0) (hN' : N ≤ 8) (head : BitVec 16) :
    ∃ m', driverPublish N a m head = .ok m' ∧
      availRing hN m'.bytes (flat a) = (availRing hN m.bytes (flat a)).publish head := by
  have h2 : (a + BitVec.ofNat 64 2).toNat % 2 = 0 := aligned_add (by decide) ha rfl
  have hread : m.read16 (a + 2) = .ok (availRing hN m.bytes (flat a)).idx := by
    rw [availRing, ← MemoryWrapper.flat_add]
    exact m.read16_eq h2
  unfold driverPublish
  rw [hread, Except.ok_bind]
  have hlt : (availRing hN m.bytes (flat a)).idx.toNat % N < N := Nat.mod_lt _ hN
  obtain ⟨m₁, hw₁, hb₁⟩ := m.write16_bytes
    (i := a + BitVec.ofNat 64 (4 + 2 * ((availRing hN m.bytes (flat a)).idx.toNat % N)))
    (aligned_add (by decide) ha (by omega)) head
  obtain ⟨m₂, hw₂, hb₂⟩ := m₁.write16_bytes h2 ((availRing hN m.bytes (flat a)).idx + 1)
  refine ⟨m₂, ?_, ?_⟩
  · rw [hw₁, Except.ok_bind]
    exact hw₂
  rw [hb₂, hb₁, MemoryWrapper.flat_add, MemoryWrapper.flat_add]
  apply AvailRing.ext
  · exact Bytes.load_store _ _ _ (by decide) (by decide)
  · funext i
    have hi := i.isLt
    change Bytes.load 16 _ (flat a + BitVec.ofNat 32 (4 + 2 * i)) 2 =
      Function.update (availRing hN m.bytes (flat a)).ring
        ((availRing hN m.bytes (flat a)).slot (availRing hN m.bytes (flat a)).idx) head i
    rw [Bytes.load_store_of_apart _ _ _ (by decide) (by omega) (by omega)]
    by_cases h : i = (availRing hN m.bytes (flat a)).slot (availRing hN m.bytes (flat a)).idx
    · rw [h, Function.update_self]
      exact Bytes.load_store _ _ _ (by decide) (by decide)
    · rw [Function.update_of_ne h, Bytes.load_store_of_apart _ _ _ (by omega) (by omega) ?_]
      · rfl
      · have hne : i.val ≠ (availRing hN m.bytes (flat a)).idx.toNat % N := fun he => h (Fin.ext he)
        omega

/-- The driver's stores for a batch of heads. -/
def driverPublishes (N : Nat) (a : BitVec 64) (heads : List (BitVec 16)) (mem : MemoryWrapper) :
    Except Crash MemoryWrapper := heads.foldlM (driverPublish N a) mem

theorem driverPublishes_ring {m m' : MemoryWrapper} {a : BitVec 64} {heads : List (BitVec 16)} (ha : a.toNat % 2 = 0)
    (hN' : N ≤ 8) (h : driverPublishes N a heads m = .ok m') :
    availRing hN m'.bytes (flat a) = heads.foldl AvailRing.publish (availRing hN m.bytes (flat a)) := by
  induction heads generalizing m with
  | nil =>
    cases h
    rfl
  | cons head heads ih =>
    obtain ⟨m₁, h₁, hring⟩ := driverPublish_ring hN m ha hN' head
    rw [driverPublishes, List.foldlM_cons, h₁, Except.ok_bind] at h
    rw [ih h, hring, List.foldl_cons]

/-- The address of the available ring of the queue. -/
def availAddress (N : Nat) (pfn : BitVec 32) : BitVec 64 := queueAddress pfn + (BitVec.ofNat 32 N * 16).setWidth 64

theorem availAddress_even (N : Nat) (pfn : BitVec 32) : (availAddress N pfn).toNat % 2 = 0 := by
  have h4096 : (4096 : BitVec 32).toNat = 4096 := rfl
  have h16 : (16 : BitVec 32).toNat = 16 := rfl
  rw [availAddress, queueAddress, BitVec.toNat_add, BitVec.toNat_setWidth, BitVec.toNat_setWidth, BitVec.toNat_mul,
    BitVec.toNat_mul, h4096, h16]
  omega

/-- The head that `get_desc_index` returns. -/
theorem getDescIndex_eq {p : PeripheralEmulator} (m : MemoryWrapper) {a : BitVec 64} (ha : a.toNat % 2 = 0)
    (hN' : N ≤ 8)
    (hp : p.queueNum = BitVec.ofNat 32 N) : p.getDescIndex m a = .ok (availRing hN m.bytes (flat a)).read := by
  have h2 : (a + BitVec.ofNat 64 2).toNat % 2 = 0 := aligned_add (by decide) ha rfl
  have hread : m.read16 (a + 2) = .ok (availRing hN m.bytes (flat a)).idx := by
    rw [availRing, ← MemoryWrapper.flat_add]
    exact m.read16_eq h2
  have hint : p.queueNum.toInt = (N : Int) := by
    rw [hp, BitVec.toInt_eq_toNat_of_lt, BitVec.toNat_ofNat, Nat.mod_eq_of_lt (by omega)]
    rw [BitVec.toNat_ofNat]
    omega
  have hzero : p.queueNum ≠ 0 := by
    intro h
    rw [h] at hint
    change (0 : Int) = N at hint
    omega
  unfold getDescIndex AvailRing.read
  rw [hread, Except.ok_bind, if_neg hzero, hint, ← Int.ofNat_tmod]
  generalize hi : (availRing hN m.bytes (flat a)).idx = i
  have hlt : i.toNat % N < N := Nat.mod_lt _ hN
  have hindex : BitVec.ofInt 16 ((i.toNat % N : Nat) : Int) = BitVec.ofNat 16 (i.toNat % N) := BitVec.ofInt_natCast ..
  have htoNat : (BitVec.ofNat 16 (i.toNat % N)).toNat = i.toNat % N := by
    rw [BitVec.toNat_ofNat]
    omega
  rw [hindex]
  dsimp only
  rw [htoNat, assert_bind (by rw [decide_eq_true_eq]; omega)]
  have haddr : a + 4 + (BitVec.ofNat 16 (i.toNat % N)).setWidth 64 * 2 =
      a + BitVec.ofNat 64 (4 + 2 * (i.toNat % N)) := by
    have h := entry_address a (BitVec.ofNat 16 (i.toNat % N)) 4 2
    rwa [htoNat] at h
  rw [haddr, m.read16_eq (aligned_add (by decide) ha (by omega)), MemoryWrapper.flat_add]
  rfl

end

/-! ## Runs of a driver and the device -/

section

variable {N : Nat}

/-- The store to QUEUE_NOTIFY has reached the device, whose registers name a
queue of `N` entries at the page `pfn`. -/
structure Notified (N : Nat) (pfn : BitVec 32) (p : PeripheralEmulator) (m : MemoryWrapper) : Prop where
  write : p.virtioWrite = true
  address : p.virtioAddress = kVirtioMmioQueueNotify
  width : p.virtioWidth = 4
  queueNum : Bytes.load 32 m.bytes (flat kVirtioMmioQueueNum) 4 = BitVec.ofNat 32 N
  queuePfn : Bytes.load 32 m.bytes (flat kVirtioMmioQueuePfn) 4 = pfn

theorem Notified.stored {p : PeripheralEmulator} {m : MemoryWrapper} {pfn : BitVec 32} (hn : Notified N pfn p m) :
    NotifyStored p where
  write := hn.write
  width := by rw [hn.width]; decide
  last := by rw [hn.address, hn.width]; decide
  first := by rw [hn.address]; decide

/-- A notification that is served makes the calls for one chain: that of the
head which `get_desc_index` returns. -/
theorem virtioEmulation_chain {p p' : PeripheralEmulator} {m m' : MemoryWrapper} {pfn : BitVec 32}
    (hn : Notified N pfn p m) (h : p.virtioEmulation m = .ok (p', m')) :
    ∃ head, { p with virtioWrite := false, queueNum := BitVec.ofNat 32 N }.getDescIndex m (availAddress N pfn) =
      .ok head ∧ p.chainCalls m = servesChain head := by
  have hnoted := notedEmulation_of_ok h
  rw [notedEmulation_stored hn.stored] at hnoted
  obtain ⟨queueNum, pfn', p₁, m₁, hnum, -, hpfn, hdisk, -⟩ := notedNotify_ok hnoted
  rw [MemoryWrapper.read32_eq m (by decide), hn.queueNum] at hnum
  rw [MemoryWrapper.read32_eq m (by decide), hn.queuePfn] at hpfn
  cases hnum
  cases hpfn
  obtain ⟨head, m₂, hhead, -, -, hcalls⟩ := notedDiskAccess_ok hdisk
  exact ⟨head, hhead, hcalls⟩

/-- The bytes of the available ring are the same in both memories. -/
def SameAvail (N : Nat) (pfn : BitVec 32) (m m' : MemoryWrapper) : Prop :=
  ∀ o < 4 + 2 * N, 2 ≤ o →
    m'.bytes (flat (availAddress N pfn) + BitVec.ofNat 32 o) = m.bytes (flat (availAddress N pfn) + BitVec.ofNat 32 o)

theorem SameAvail.ring {m m' : MemoryWrapper} {pfn : BitVec 32} (h : SameAvail N pfn m m') (hN : 0 < N) :
    availRing hN m'.bytes (flat (availAddress N pfn)) = availRing hN m.bytes (flat (availAddress N pfn)) := by
  apply AvailRing.ext
  · refine Bytes.load_congr fun j hj => ?_
    rw [BitVec.add_assoc, ← BitVec.ofNat_add]
    exact h _ (by omega) (by omega)
  · funext i
    have hi := i.isLt
    refine Bytes.load_congr fun j hj => ?_
    rw [BitVec.add_assoc, ← BitVec.ofNat_add]
    exact h _ (by omega) (by omega)

/-- A run of a driver and the device: before each notification the driver
prepares its requests, publishes a batch of heads and stores to QUEUE_NOTIFY;
then the device runs. Only publications write to the available ring. The last
argument is every call the device makes for a chain. -/
inductive Served (N : Nat) (pfn : BitVec 32) : MemoryWrapper → List (List (BitVec 16)) → List ChainCall → Prop
  | nil {m : MemoryWrapper} : Served N pfn m [] []
  | batch {m m₁ m₂ m₃ m₄ : MemoryWrapper} {p p' : PeripheralEmulator} {heads : List (BitVec 16)}
      {batches : List (List (BitVec 16))} {calls rest : List ChainCall} (prepare : SameAvail N pfn m m₁)
      (publish : driverPublishes N (availAddress N pfn) heads m₁ = .ok m₂) (notify : SameAvail N pfn m₂ m₃)
      (notified : Notified N pfn p m₃) (serve : p.virtioEmulation m₃ = .ok (p', m₄)) (note : p.chainCalls m₃ = calls)
      (apart : SameAvail N pfn m₃ m₄) (more : Served N pfn m₄ batches rest) :
      Served N pfn m (heads :: batches) (calls ++ rest)

/-- The calls are those for the chains that the device reads in the abstract
ring. -/
theorem Served.eq_served {m : MemoryWrapper} {pfn : BitVec 32} {batches : List (List (BitVec 16))}
    {calls : List ChainCall} (hN : 0 < N) (hN' : N ≤ 8) (h : Served N pfn m batches calls) :
    calls = ((availRing hN m.bytes (flat (availAddress N pfn))).served batches).flatMap servesChain := by
  induction h with
  | nil => rfl
  | @batch m m₁ m₂ m₃ m₄ p p' heads batches calls rest prepare publish notify notified serve note apart more ih =>
    have hring := driverPublishes_ring hN (availAddress_even N pfn) hN' publish
    rw [prepare.ring hN] at hring
    obtain ⟨head, hhead, hcalls⟩ := virtioEmulation_chain notified serve
    rw [getDescIndex_eq hN m₃ (availAddress_even N pfn) hN' rfl, notify.ring hN, hring] at hhead
    cases hhead
    rw [AvailRing.served, List.flatMap_cons, ih, apart.ring hN, notify.ring hN, hring, ← note, hcalls]

/-- The calls tell the heads they are for. -/
theorem flatMap_servesChain_inj {heads heads' : List (BitVec 16)} :
    heads.flatMap servesChain = heads'.flatMap servesChain ↔ heads = heads' := by
  refine ⟨fun h => ?_, congrArg _⟩
  induction heads generalizing heads' with
  | nil =>
    cases heads' with
    | nil => rfl
    | cons head' heads' => cases h
  | cons head heads ih =>
    cases heads' with
    | nil => cases h
    | cons head' heads' =>
      obtain ⟨hcalls, hrest⟩ := List.append_inj h (rfl : (servesChain head).length = (servesChain head').length)
      cases hcalls
      rw [ih hrest]

end

/-- **Requests are served in order.** In every run of a driver that publishes
one or more heads before each notification, the calls made are those for the
chains of the heads published, each once and in order, if and only if each
batch is one head, which is also what the slot after its own has. -/
theorem served_iff (N : Nat) (hN : 1 ≤ N) (hN' : N ≤ 8) (pfn : BitVec 32) (m : MemoryWrapper)
    (batches : List (List (BitVec 16))) (calls : List ChainCall) (hne : ∀ b ∈ batches, b ≠ [])
    (h : Served N pfn m batches calls) :
    calls = batches.flatten.flatMap servesChain ↔
      (availRing hN m.bytes (flat (availAddress N pfn))).InStep batches := by
  rw [h.eq_served hN hN', flatMap_servesChain_inj]
  exact AvailRing.served_eq_iff _ hne

/-- A queue of eight descriptors at page 1 with two chains, at 0 and at 3:
each reads a byte of the disk. -/
def diskQueue : MemoryWrapper :=
  let registers := (((MemoryWrapper.new.assign 0x100).setWord 0x100 0x40A 4096).setWord 0x100 0x40E 8).setWord 0x100 0x410 1
  let desc (m : MemoryWrapper) (i : BitVec 18) (addr len flagsNext : BitVec 32) : MemoryWrapper :=
    ((m.setWord 0 (0x400 + 4 * i) addr).setWord 0 (0x402 + 4 * i) len).setWord 0 (0x403 + 4 * i) flagsNext
  let chain (m : MemoryWrapper) (i : BitVec 18) : MemoryWrapper :=
    let next : BitVec 32 := i.setWidth 32 + 1
    desc (desc (desc m i 0x3000 16 (1 ||| next <<< 16)) (i + 1) 0x3100 1 (3 ||| (next + 1) <<< 16)) (i + 2) 0x3200 1 2
  chain (chain (registers.assign 0) 0) 3

/-- A device that has just been notified. -/
def notifiedDisk : PeripheralEmulator :=
  { new 1 with virtioWrite := true, virtioAddress := kVirtioMmioQueueNotify, virtioWidth := 4, diskImage := some [7] }

/-- The memory after a batch. -/
def afterPublish (m : MemoryWrapper) (heads : List (BitVec 16)) : MemoryWrapper :=
  (driverPublishes 8 (availAddress 8 1) heads m).toOption.getD m

/-- And after the notification. -/
def afterNotify (m : MemoryWrapper) : MemoryWrapper :=
  ((notifiedDisk.virtioEmulation m).toOption.getD (notifiedDisk, m)).2

/-- A batch for that queue, evaluated. -/
theorem Served.eval {m : MemoryWrapper} {heads : List (BitVec 16)} {batches : List (List (BitVec 16))} {head : BitVec 16}
    {rest : List ChainCall}
    (publish : (driverPublishes 8 (availAddress 8 1) heads m).toOption.isSome = true)
    (registers : Bytes.load 32 (afterPublish m heads).bytes (flat kVirtioMmioQueueNum) 4 = 8 ∧
      Bytes.load 32 (afterPublish m heads).bytes (flat kVirtioMmioQueuePfn) 4 = 1)
    (serve : (notifiedDisk.virtioEmulation (afterPublish m heads)).toOption.isSome = true)
    (note : notifiedDisk.chainCalls (afterPublish m heads) = servesChain head)
    (apart : SameAvail 8 1 (afterPublish m heads) (afterNotify (afterPublish m heads)))
    (more : Served 8 1 (afterNotify (afterPublish m heads)) batches rest) :
    Served 8 1 m (heads :: batches) (servesChain head ++ rest) :=
  .batch (fun _ _ _ => rfl) (Except.eq_ok_getD publish m) (fun _ _ _ => rfl) ⟨rfl, rfl, rfl, registers.1, registers.2⟩
    (Except.eq_ok_getD serve (notifiedDisk, _)) note apart more

/-- The same queue, with the chain at 3 in slot 2 of the ring already. -/
def recycledQueue : MemoryWrapper := diskQueue.setWord 0 0x422 3

/-- A driver that publishes the chains at 0, 3 and 0 again finds each head in
the slot after its own, and is in step. -/
theorem served_iff_recycled :
    Served 8 1 recycledQueue [[0], [3], [0]] ([0, 3, 0].flatMap servesChain) ∧
      (availRing (N := 8) (by decide) recycledQueue.bytes (flat (availAddress 8 1))).InStep [[0], [3], [0]] := by
  have h : Served 8 1 recycledQueue [[0], [3], [0]] ([0, 3, 0].flatMap servesChain) :=
    .eval (by decide) (by decide) (by decide) (by decide) (by unfold SameAvail; decide)
      (.eval (by decide) (by decide) (by decide) (by decide) (by unfold SameAvail; decide)
        (.eval (by decide) (by decide) (by decide) (by decide) (by unfold SameAvail; decide) .nil))
  exact ⟨h, (served_iff 8 (by decide) (by decide) 1 recycledQueue [[0], [3], [0]] _ (by decide) h).mp rfl⟩

/-- One that uses a ring of zeros is not: 0 is processed twice, 3 never. -/
theorem served_iff_twice : Served 8 1 diskQueue [[0], [3]] ([0, 0].flatMap servesChain) ∧
    [0, 0].flatMap servesChain ≠ ([[0], [3]] : List (List (BitVec 16))).flatten.flatMap servesChain := by
  have h : Served 8 1 diskQueue [[0], [3]] ([0, 0].flatMap servesChain) :=
    .eval (by decide) (by decide) (by decide) (by decide) (by unfold SameAvail; decide)
      (.eval (by decide) (by decide) (by decide) (by decide) (by unfold SameAvail; decide) .nil)
  exact ⟨h, by decide⟩

end PeripheralEmulator

end RiscvEmulator
