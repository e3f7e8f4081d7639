/-
The disk over whole runs.

`DiscCall.request` is what a call of `disc_access` asks of the image, and
`servedCall` the call that a round comes to. `disk_run` says what the disk
is: after any run the image is what the requests of its rounds leave, one
after another, and what a round reads is what was written last.
-/
import RiscvEmulator.Lib.Blocks
import RiscvEmulator.UartFacts

namespace RiscvEmulator

open Blocks (Request)
open Bytes (Access Spares Traced)
open MemoryWrapper (flat writeByte_frame write32_frame)

namespace PeripheralEmulator

variable {p p' : PeripheralEmulator} {m m' : MemoryWrapper} {image : List (BitVec 8)} {c : DiscCall} {host : Host}

/-! ## Requests -/

/-- The first byte of the image that a call is about. -/
def DiscCall.start (c : DiscCall) : Nat := (c.sector * kSectorSize).toNat

/-- Where byte `k` of its data is in memory. -/
def DiscCall.place (c : DiscCall) (k : Nat) : BitVec 32 := flat c.buffer + BitVec.ofNat 32 k

/-- What it asks of the image, in the memory in which it is made. -/
def DiscCall.request (c : DiscCall) (m : MemoryWrapper) : Request (BitVec 8) :=
  if c.write then .write c.start ((List.range c.len.toNat).map fun k => m.bytes (c.place k))
  else .read c.start c.len.toNat

/-- What it writes to memory, but for the status. -/
def DiscCall.data (c : DiscCall) : List (Access 32) := if c.write then [] else [.write (flat c.buffer, c.len.toNat)]

/-- The call has been served. `rest` is what has been written to memory since
its data was. -/
structure Serves (c : DiscCall) (m : MemoryWrapper) (image : List (BitVec 8)) (p' : PeripheralEmulator)
    (m' : MemoryWrapper) (rest : List (Access 32)) : Prop where
  fits : (c.request m).Fits image.length
  disk : p'.diskImage = some ((c.request m).apply image)
  answer : c.write = false → ∀ k < c.len.toNat, Spares (c.place k) rest →
    some (m'.bytes (c.place k)) = image[c.start + k]?

/-- What comes after it. -/
theorem Serves.append {q : PeripheralEmulator} {n : MemoryWrapper} {rest l : List (Access 32)}
    (h : Serves c m image p' m' rest) (hq : q.diskImage = p'.diskImage) (ht : Traced m'.bytes l n.bytes) :
    Serves c m image q n (rest ++ l) where
  fits := h.fits
  disk := hq.trans h.disk
  answer hr k hk hs := by
    have hrest : Spares (c.place k) rest := fun a ha => hs a (List.mem_append_left l ha)
    have hl : Spares (c.place k) l := fun a ha => hs a (List.mem_append_right rest ha)
    rw [ht.frame hl]
    exact h.answer hr k hk hrest

theorem fits_request {size : Nat} (h : c.len = 0 ∨ c.start + c.len.toNat ≤ size) : (c.request m).Fits size := by
  have hlen : c.len.toNat = 0 ∨ c.start + c.len.toNat ≤ size := h.imp_left fun hz => by rw [hz]; rfl
  unfold DiscCall.request
  split
  · simpa [Request.Fits] using hlen
  · exact hlen

/-! ## The copy loops -/

section

variable {sectorAddress bufferAddress : BitVec 64} {n : Nat}

/-- A writing loop that returns has kept to the image. -/
theorem discWrite_within {image' : List (BitVec 8)} (h : discWrite m image sectorAddress bufferAddress n = .ok image') :
    image'.length = image.length ∧ ∀ k < n, (sectorAddress + BitVec.ofNat 64 k).toNat < image.length := by
  induction n generalizing image' with
  | zero =>
    cases h
    exact ⟨rfl, fun k hk => absurd hk (Nat.not_lt_zero k)⟩
  | succ n ih =>
    obtain ⟨image₁, h₁, h⟩ := Except.bind_ok_iff.mp h
    obtain ⟨data, -, h⟩ := Except.bind_ok_iff.mp h
    obtain ⟨u, hdef, h⟩ := Except.bind_ok_iff.mp h
    cases h
    obtain ⟨hlen, hlt⟩ := ih h₁
    have hn : (sectorAddress + BitVec.ofNat 64 n).toNat < image₁.length := by
      by_contra hout
      rw [defined, decide_eq_false hout] at hdef
      cases hdef
    refine ⟨by rw [List.length_set, hlen], fun k hk => ?_⟩
    rcases Nat.lt_succ_iff_lt_or_eq.mp hk with hlt' | rfl
    · exact hlt k hlt'
    · exact hlen ▸ hn

/-- And so has a reading one. -/
theorem discRead_within (h : discRead m image sectorAddress bufferAddress n = .ok m') :
    ∀ k < n, (sectorAddress + BitVec.ofNat 64 k).toNat < image.length := by
  induction n generalizing m' with
  | zero => exact fun k hk => absurd hk (Nat.not_lt_zero k)
  | succ n ih =>
    obtain ⟨m₁, h₁, h⟩ := Except.bind_ok_iff.mp h
    intro k hk
    rcases Nat.lt_succ_iff_lt_or_eq.mp hk with hlt | rfl
    · exact ih h₁ k hlt
    · dsimp only at h
      split at h
      · cases h
      · next hdata => exact (List.getElem?_eq_some_iff.mp hdata).1

end

/-- What a writing loop leaves is the image with the request applied. -/
theorem discWrite_apply {image' : List (BitVec 8)} (hsize : image.length < 2 ^ 64) (hw : c.write = true)
    (hin : c.len = 0 ∨ c.start + c.len.toNat ≤ image.length)
    (h : discWrite m image (c.sector * kSectorSize) c.buffer c.len.toNat = .ok image') :
    image' = (c.request m).apply image := by
  refine List.ext_getElem? fun i => ?_
  rw [Request.getElem?_apply (fits_request hin), DiscCall.request, if_pos hw, Request.puts]
  rcases hin with hzero | hroom
  · rw [hzero] at h ⊢
    cases h
    simp
  · obtain ⟨image₂, h₂, -, hwritten, hkept⟩ : ∃ image₂,
        discWrite m image (c.sector * kSectorSize) c.buffer c.len.toNat = .ok image₂ ∧ image₂.length = image.length ∧
        (∀ k < c.len.toNat, image₂[c.start + k]? = some (m.bytes (c.place k))) ∧
        ∀ i, i < c.start ∨ c.start + c.len.toNat ≤ i → image₂[i]? = image[i]? := discWrite_image m hsize hroom
    cases h.symm.trans h₂
    by_cases hi : c.start ≤ i ∧ i < c.start + c.len.toNat
    · obtain ⟨k, rfl⟩ := Nat.exists_eq_add_of_le hi.1
      have hk : k < c.len.toNat := by omega
      rw [if_pos hi.1, hwritten k hk, Nat.add_sub_cancel_left]
      simp [hk]
    · rw [hkept i (by omega)]
      by_cases hlow : c.start ≤ i
      · have hhigh : c.len.toNat ≤ i - c.start := by omega
        simp [hlow, hhigh]
      · simp [hlow]

/-- `disc_access` serves a call. -/
theorem discAccess_serves (hp : p.diskImage = some image) (hsize : image.length < 2 ^ 64)
    (h : p.discAccess m c.sector c.buffer c.len c.write = .ok (p', m')) : Serves c m image p' m' [] := by
  have hlt := c.len.isLt
  unfold discAccess at h
  rw [hp] at h
  dsimp only [Option.getD_some, Option.map_some] at h
  split at h
  · next hw =>
    obtain ⟨image', hloop, h⟩ := Except.bind_ok_iff.mp h
    cases h
    have hin := (discIndex_lt_iff hsize).mp (discWrite_within hloop).2
    exact ⟨fits_request hin, congrArg some (discWrite_apply hsize hw hin hloop), fun hr => absurd hw (by simp [hr])⟩
  · next hr =>
    obtain ⟨m₁, hloop, h⟩ := Except.bind_ok_iff.mp h
    cases h
    have hin := (discIndex_lt_iff hsize).mp (discRead_within hloop)
    refine ⟨fits_request hin, ?_, fun _ k hk _ => ?_⟩
    · rw [DiscCall.request, if_neg hr]
      exact hp
    · have hroom : c.start + c.len.toNat ≤ image.length := hin.resolve_left fun hz => by simp [hz] at hk
      obtain ⟨m₂, h₂, hbytes⟩ : ∃ m₂, discRead m image (c.sector * kSectorSize) c.buffer c.len.toNat = .ok m₂ ∧
          m₂.bytes = Bytes.fill m.bytes (flat c.buffer) 1 (fun k => image.getD (c.start + k) 0) c.len.toNat :=
        discRead_bytes m hsize hroom
      cases hloop.symm.trans h₂
      have hplace : Bytes.InArea (flat c.buffer, c.len.toNat) (c.place k) := Bytes.inArea_offset _ hk (by omega)
      rw [hbytes, Bytes.fill_byte _ _ _ (by omega), if_pos hplace, DiscCall.place, Bytes.toNat_offset _ (by omega),
        List.getD_eq_getElem?_getD, List.getElem?_eq_getElem (by omega)]
      rfl

/-! ## One notification -/

/-- The call of a request is what `chainCall` reads, and the status comes
after its data. -/
theorem processDiscAccess_serves {a : BitVec 64} {i : BitVec 16} (hp : p.diskImage = some image)
    (hsize : image.length < 2 ^ 64) (h : p.processDiscAccess m a i = .ok (p', m')) :
    ∃ c next rest, chainCall m a i = .ok (c, next) ∧ p.chainTrail m a i = .ok (c.data ++ rest) ∧
      Serves c m image p' m' rest := by
  rw [processDiscAccess_call] at h
  obtain ⟨⟨c, next⟩, hcall, h⟩ := Except.bind_ok_iff.mp h
  obtain ⟨⟨p₁, m₁⟩, haccess, h⟩ := Except.bind_ok_iff.mp h
  obtain ⟨desc, hdesc, h⟩ := Except.bind_ok_iff.mp h
  obtain ⟨-, -, h⟩ := Except.bind_ok_iff.mp h
  obtain ⟨m₂, hstatus, h⟩ := Except.bind_ok_iff.mp h
  cases h
  refine ⟨c, next, [.write (flat desc.addr, 1)], hcall, ?_,
    (discAccess_serves hp hsize haccess).append rfl (.write_one (writeByte_frame hstatus))⟩
  unfold chainTrail DiscCall.data
  rw [hcall, Except.ok_bind]
  dsimp only
  rw [haccess, Except.ok_bind, hdesc, Except.ok_bind]
  split <;> rfl

theorem virtioDiskAccess_serves {a : BitVec 64} (hp : p.diskImage = some image) (hsize : image.length < 2 ^ 64)
    (h : p.virtioDiskAccess m a = .ok (p', m')) :
    ∃ c rest, p.discCall m a = .ok c ∧ p.diskTrail m a = .ok (c.data ++ rest) ∧ Serves c m image p' m' rest := by
  obtain ⟨i, m₁, hi, hprocess, hused⟩ := virtioDiskAccess_ok h
  obtain ⟨c, next, rest, hcall, hrequest, hs⟩ := processDiscAccess_serves hp hsize hprocess
  obtain ⟨used, hused', ht⟩ := processUsedBuffer_traced hused
  refine ⟨c, rest ++ used, ?_, ?_, hs.append rfl ht⟩
  · rw [discCall, hi, Except.ok_bind, hcall]
    rfl
  · unfold diskTrail
    dsimp only
    rw [hi, Except.ok_bind, hrequest, Except.ok_bind, hprocess, Except.ok_bind, hused', ← List.append_assoc]
    rfl

/-- The call behind a notification. -/
def notifyCall (p : PeripheralEmulator) (mem : MemoryWrapper) : Except Crash DiscCall := do
  let queueNum ← mem.read32 kVirtioMmioQueueNum
  let kPageSize ← mem.read32 kVirtioMmioPageSize
  let kQueueAddress := ((← mem.read32 kVirtioMmioQueuePfn) * kPageSize).setWidth 64
  { p with queueNum }.discCall mem kQueueAddress

theorem queueNotify_serves (hp : p.diskImage = some image) (hsize : image.length < 2 ^ 64)
    (h : p.queueNotify m = .ok (p', m')) :
    ∃ c rest, p.notifyCall m = .ok c ∧ p.notifyTrail m = .ok (c.data ++ rest) ∧ Serves c m image p' m' rest := by
  obtain ⟨q, f, p₁, m₁, hq, hk, hf, hdisk, hclaim, rfl⟩ := queueNotify_ok h
  obtain ⟨c, rest, hcall, htrail, hs⟩ := virtioDiskAccess_serves (p := { p with queueNum := q }) hp hsize hdisk
  refine ⟨c, rest ++ [.write (flat kPlicClaimAddress, 4)], ?_, ?_, hs.append rfl (.write_one (write32_frame hclaim))⟩
  · unfold notifyCall
    rw [hq, Except.ok_bind, hk, Except.ok_bind, hf, Except.ok_bind]
    exact hcall
  · unfold notifyTrail
    rw [hq, Except.ok_bind, hk, Except.ok_bind, hf, Except.ok_bind]
    dsimp only [queueAddress] at htrail ⊢
    rw [htrail, ← List.append_assoc]
    rfl

/-- The call that `VirtioEmulation` comes to, and the memory in which it is
made. -/
def virtioCall (p : PeripheralEmulator) (mem : MemoryWrapper) : Option (DiscCall × MemoryWrapper) :=
  if p.notified then
    (do
      let p := { p with virtioWrite := false }
      let mem ← p.queueSelect mem
      return (← p.notifyCall mem, mem)).toOption
  else none

/-- What the devices have done to the disk: they have served the call, if
there was one. The accesses are those of the disk. -/
def DiskServed (call : Option (DiscCall × MemoryWrapper)) (image : List (BitVec 8)) (accesses : List (Access 32))
    (p' : PeripheralEmulator) (m' : MemoryWrapper) : Prop :=
  match call with
  | none => p'.diskImage = some image
  | some (c, m) => ∃ a rest, accesses = a :: (c.data ++ rest) ∧ Serves c m image p' m' rest

theorem virtioEmulation_serves (hp : p.diskImage = some image) (hsize : image.length < 2 ^ 64)
    (h : p.virtioEmulation m = .ok (p', m')) : DiskServed (p.virtioCall m) image (p.virtioTrail m) p' m' := by
  unfold virtioCall virtioTrail
  cases virtioEmulation_path h with
  | idle _ quiet => rw [quiet]; exact hp
  | other _ quiet => rw [quiet]; exact hp
  | served write notify select serve =>
    obtain ⟨c, rest, hcall, htrail, hs⟩ := queueNotify_serves (p := { p with virtioWrite := false }) hp hsize serve
    rw [write, notify]
    dsimp only
    rw [select, Except.ok_bind, Except.ok_bind, hcall, htrail]
    exact ⟨_, rest, rfl, hs⟩

/-! ## A round of the devices -/

theorem uartTransmit_frame (h : p.uartTransmit = .ok p') : ∃ w scr,
    p' = { p with uartWrite := w, scrEmulation := scr } := by
  unfold uartTransmit at h
  split at h
  · split at h <;> cases h
    exact ⟨_, _, rfl⟩
  · cases h
    exact ⟨_, _, rfl⟩

theorem uartConsume_frame (h : p.uartConsume m = .ok (p', m')) : ∃ r f,
    p' = { p with uartRead := r, uartFull := f } := by
  unfold uartConsume clearUartBuffer at h
  split at h
  · obtain ⟨⟨p₁, m₁⟩, h₁, h⟩ := Except.bind_ok_iff.mp h
    cases h
    obtain ⟨b, -, h₁⟩ := Except.bind_ok_iff.mp h₁
    obtain ⟨m₂, -, h₁⟩ := Except.bind_ok_iff.mp h₁
    cases h₁
    exact ⟨_, _, rfl⟩
  · cases h
    exact ⟨_, _, rfl⟩

theorem translateKey_frame (key : BitVec 32) : ∃ b, (p.translateKey key).2 = { p with uartBreak := b } := by
  unfold translateKey
  split
  · exact ⟨_, rfl⟩
  split
  · exact ⟨_, rfl⟩
  split <;> exact ⟨_, rfl⟩

theorem uartReceive_frame (h : p.uartReceive host m = .ok (p', m')) : ∃ f i b scr,
    p' = { p with uartFull := f, uartInterrupt := i, uartBreak := b, scrEmulation := scr } := by
  unfold uartReceive at h
  split at h
  · cases h
    exact ⟨_, _, _, _, rfl⟩
  split at h
  · cases h
  next scr _ =>
  dsimp only at h
  split at h
  · cases h
    exact ⟨_, _, _, _, rfl⟩
  unfold setUartBuffer uartInterruptRaise at h
  obtain ⟨⟨p₁, m₁⟩, h₁, h⟩ := Except.bind_ok_iff.mp h
  obtain ⟨b, -, h₁⟩ := Except.bind_ok_iff.mp h₁
  obtain ⟨m₂, -, h₁⟩ := Except.bind_ok_iff.mp h₁
  obtain ⟨m₃, -, h₁⟩ := Except.bind_ok_iff.mp h₁
  cases h₁
  obtain ⟨m₄, -, h⟩ := Except.bind_ok_iff.mp h
  cases h
  obtain ⟨b, hb⟩ := translateKey_frame
    (p := { p with scrEmulation := some (scr.checkInput host).2.getKeyValue.2 }) (scr.checkInput host).2.getKeyValue.1
  rw [hb]
  exact ⟨_, _, _, _, rfl⟩

theorem uartEmulation_frame (h : p.uartEmulation host m = .ok (p', m')) : ∃ w r f i b scr,
    p' = { p with
      uartWrite := w, uartRead := r, uartFull := f, uartInterrupt := i, uartBreak := b, scrEmulation := scr } := by
  obtain ⟨p₁, h₁, h⟩ := Except.bind_ok_iff.mp h
  obtain ⟨⟨p₂, m₂⟩, h₂, h⟩ := Except.bind_ok_iff.mp h
  obtain ⟨w, scr, rfl⟩ := uartTransmit_frame h₁
  obtain ⟨r, f, rfl⟩ := uartConsume_frame h₂
  obtain ⟨f', i, b, scr', rfl⟩ := uartReceive_frame h
  exact ⟨_, _, _, _, _, _, rfl⟩

/-- The call that the devices come to. -/
def servedCall (host : Host) (p : PeripheralEmulator) (mem : MemoryWrapper) : Option (DiscCall × MemoryWrapper) :=
  if p.deviceEmulationEnable then
    (do
      let p ← if p.hostEmulationEnable then p.hostEmulation mem else .ok p
      let (p, mem) ← p.uartEmulation host mem
      return p.virtioCall mem).toOption.getD none
  else none

theorem deviceEmulation_serves (hp : p.diskImage = some image) (hsize : image.length < 2 ^ 64)
    (he : p.deviceEmulationEnable = true) (h : p.deviceEmulation host m = .ok (p', m')) :
    ∃ p₁ m₁, p.uartEmulation host m = .ok (p₁, m₁) ∧
      DiskServed (p₁.virtioCall m₁) image (p₁.virtioTrail m₁) p' m' := by
  rw [deviceEmulation, if_pos he] at h
  obtain ⟨⟨p₁, m₁⟩, h₁, h⟩ := Except.bind_ok_iff.mp h
  refine ⟨p₁, m₁, h₁, virtioEmulation_serves ?_ hsize h⟩
  obtain ⟨w, r, f, i, b, scr, rfl⟩ := uartEmulation_frame h₁
  exact hp

theorem deviceEmulation_off {q q' : PeripheralEmulator} {n n' : MemoryWrapper} (he : q.deviceEmulationEnable = false)
    (h : q.deviceEmulation host n = .ok (q', n')) : q' = q := by
  rw [deviceEmulation, he] at h
  cases h
  rfl

theorem emulation_serves (hp : p.diskImage = some image) (hsize : image.length < 2 ^ 64)
    (h : p.emulation host m = .ok (p', m')) :
    DiskServed (p.servedCall host m) image (p.diskAccesses host m) p' m' := by
  unfold emulation at h
  unfold servedCall diskAccesses
  split at h
  · next hen =>
    obtain ⟨q, hq, h⟩ := Except.bind_ok_iff.mp h
    obtain ⟨value, write, error, ending, output, hframe⟩ := hostEmulation_frame hq
    rw [if_pos hen, hq, Except.ok_bind]
    split
    · next he =>
      obtain ⟨p₁, m₁, h₁, hs⟩ := deviceEmulation_serves (by rw [hframe]; exact hp) hsize (by rw [hframe]; exact he) h
      rw [Except.ok_bind]
      dsimp only
      rw [h₁]
      exact hs
    · next he =>
      rw [deviceEmulation_off (by rw [hframe]; exact Bool.eq_false_iff.mpr he) h, hframe]
      exact hp
  · next hen =>
    rw [if_neg hen, Except.ok_bind]
    split
    · next he =>
      obtain ⟨p₁, m₁, h₁, hs⟩ := deviceEmulation_serves hp hsize he h
      rw [Except.ok_bind]
      dsimp only
      rw [h₁]
      exact hs
    · next he =>
      rw [deviceEmulation_off (Bool.eq_false_iff.mpr he) h]
      exact hp

theorem DiskServed.congr {q : PeripheralEmulator} {call : Option (DiscCall × MemoryWrapper)} {l : List (Access 32)}
    (h : DiskServed call image l p' m') (hq : q.diskImage = p'.diskImage) : DiskServed call image l q m' := by
  cases call with
  | none => exact hq.trans h
  | some r =>
    obtain ⟨a, rest, hl, hs⟩ := h
    exact ⟨a, rest, hl, hs.fits, hq.trans hs.disk, hs.answer⟩

end PeripheralEmulator

namespace RiscvCpu

open PeripheralEmulator (DiscCall DiskServed)

variable {c c' : RiscvCpu} {host : Host} {image : List (BitVec 8)}

/-! ## A round and the disk -/

/-- The call that the devices come to at the end of a round. -/
def finishCall (host : Host) (c : RiscvCpu) : Option (DiscCall × MemoryWrapper) :=
  if c.hostEmulation || c.peripheralEmulation then c.peripheral.servedCall host c.memory else none

/-- The call of the round, and the memory in which it is made. -/
def servedCall (host : Host) (c : RiscvCpu) : Option (DiscCall × MemoryWrapper) :=
  match c.guestStage host with
  | .ok (false, c₁) => c₁.finishCall host
  | _ => none

/-- Without its device nothing is asked of the disk. -/
theorem servedCall_accesses {p : PeripheralEmulator} {m : MemoryWrapper} {r : DiscCall × MemoryWrapper}
    (h : p.servedCall host m = some r) : p.deviceEmulationEnable = true := by
  unfold PeripheralEmulator.servedCall at h
  split at h
  · next he => exact he
  · cases h

theorem finishStage_serves (hp : c.peripheral.diskImage = some image) (hsize : image.length < 2 ^ 64)
    (h : c.finishStage host = .ok c') :
    DiskServed (c.finishCall host) image (c.finishAccesses host) c'.peripheral c'.memory := by
  obtain ⟨e, -, h⟩ := finishStage_cases h
  unfold finishCall finishAccesses devicesRun
  split at h
  · next he =>
    obtain ⟨⟨p, m⟩, hrun, h⟩ := Except.bind_ok_iff.mp h
    have hc' : c'.memory = m ∧ c'.peripheral.diskImage = p.diskImage := by
      cases h
      unfold takeUartBreak takeUartInterrupt takeVirtioInterrupt takeHostEnd
      split_ifs <;> exact ⟨rfl, rfl⟩
    have hs : DiskServed (c.peripheral.servedCall host c.memory) image (c.peripheral.diskAccesses host c.memory) p m :=
      PeripheralEmulator.emulation_serves hp hsize hrun
    rw [if_pos he, he, Bool.true_and, hc'.1]
    refine DiskServed.congr ?_ hc'.2
    cases hcall : c.peripheral.servedCall host c.memory with
    | none =>
      rw [hcall] at hs
      exact hs
    | some r =>
      rw [hcall] at hs
      rw [if_pos (servedCall_accesses hcall)]
      exact hs
  · next he =>
    cases h
    rw [if_neg he]
    exact hp

theorem execute_diskImage {d : Decoded} {csr : BitVec 12} (h : c.execute host d csr = .ok c') :
    c'.peripheral.diskImage = c.peripheral.diskImage := by
  have hr := execute_reports h
  generalize (c.footprint d).reported = reported at hr
  cases hr with
  | quiet hp => rw [hp]
  | read a w hp =>
    rw [hp]
    unfold PeripheralEmulator.checkDeviceRead
    split <;> rfl
  | write a w data hp =>
    rw [hp]
    unfold PeripheralEmulator.checkDeviceWrite
    dsimp only
    split_ifs <;> rfl

/-- The guest's part of a round: it ends with a trap and the clock has ticked,
or an instruction has been executed after that. -/
theorem guestStage_cases {r : Bool × RiscvCpu} (h : c.guestStage host = .ok r) :
    (r.1 = true ∧ c.inFlight = none ∧ r.2.peripheral = c.ticked) ∨
    (r.1 = false ∧ ∃ c₂, c.inFlight = some c₂ ∧ c₂.peripheral = c.ticked ∧ c₂.executeStage host = .ok r.2) := by
  obtain ⟨⟨taken, c₁⟩, h₁, h⟩ := Except.bind_ok_iff.mp h
  have hp₁ := interruptStage_peripheral h₁
  cases taken with
  | true =>
    cases h
    exact .inl ⟨rfl, inFlight_of_interrupt h₁, hp₁⟩
  | false =>
    obtain ⟨c₂, h₂, h⟩ := Except.bind_ok_iff.mp h
    have hp₂ : c₂.peripheral = c.ticked := (fetchStage_peripheral h₂).trans hp₁
    split at h
    · next hf =>
      obtain ⟨c₃, htrap, h⟩ := Except.bind_ok_iff.mp h
      cases h
      exact .inl ⟨rfl, inFlight_of_fault h₁ h₂ hf, (trap_peripheral htrap).trans hp₂⟩
    · next hf =>
      obtain ⟨c₃, hx, h⟩ := Except.bind_ok_iff.mp h
      cases h
      exact .inr ⟨rfl, c₂, inFlight_eq h₁ h₂ (Bool.eq_false_iff.mpr hf), hp₂, hx⟩

/-- It leaves the image. -/
theorem guestStage_diskImage {r : Bool × RiscvCpu} (h : c.guestStage host = .ok r) :
    r.2.peripheral.diskImage = c.peripheral.diskImage := by
  have hticked : c.ticked.diskImage = c.peripheral.diskImage := by
    unfold ticked
    rfl
  rcases guestStage_cases h with ⟨-, -, hp⟩ | ⟨-, c₂, -, hp, hx⟩
  · rw [hp, hticked]
  · rw [execute_diskImage hx, ← hticked, ← hp]
    rfl

theorem step_serves (hp : c.peripheral.diskImage = some image) (hsize : image.length < 2 ^ 64)
    (h : c.step host = .ok c') :
    DiskServed (c.servedCall host) image (c.diskAccesses host) c'.peripheral c'.memory := by
  rw [step_guestStage] at h
  obtain ⟨⟨trapped, c₁⟩, hg, h⟩ := Except.bind_ok_iff.mp h
  have hp₁ := (guestStage_diskImage hg).trans hp
  unfold servedCall diskAccesses
  rw [hg]
  cases trapped with
  | true =>
    cases h
    exact hp₁
  | false => exact finishStage_serves hp₁ hsize h

/-! ## Runs -/

/-- The requests that have been served, the last one first. -/
def requests (host : Host) (c : RiscvCpu) (log : List (Request (BitVec 8))) : List (Request (BitVec 8)) :=
  match c.servedCall host with
  | some (call, m) => call.request m :: log
  | none => log

/-- The rounds of the loop, with that note. -/
def diskStep : Host → RiscvCpu × List (Request (BitVec 8)) → Except Crash (RiscvCpu × List (Request (BitVec 8))) :=
  Run.noted step requests

/-- The image is what the requests have made of the first one. -/
structure DiskHolds (image : List (BitVec 8)) (s : RiscvCpu × List (Request (BitVec 8))) : Prop where
  fits : ∀ r ∈ s.2, r.Fits image.length
  disk : s.1.peripheral.diskImage = some (Blocks.run image s.2)

theorem diskHolds_step {s t : RiscvCpu × List (Request (BitVec 8))} (hsize : image.length < 2 ^ 64)
    (hs : DiskHolds image s) (h : diskStep host s = .ok t) : DiskHolds image t := by
  obtain ⟨hstep, hlog⟩ := Run.noted_ok_iff.mp h
  have hlen := Blocks.length_run hs.fits
  have hserved := step_serves hs.disk (hlen ▸ hsize) hstep
  rw [requests] at hlog
  cases hcall : s.1.servedCall host with
  | none =>
    rw [hcall] at hserved hlog
    exact ⟨hlog ▸ hs.fits, hlog ▸ hserved⟩
  | some r =>
    rw [hcall] at hserved hlog
    obtain ⟨a, rest, -, hr⟩ := hserved
    refine ⟨?_, hlog ▸ hr.disk⟩
    rw [hlog, List.forall_mem_cons]
    exact ⟨hlen ▸ hr.fits, hs.fits⟩

/-- A disk that forgets nothing: its image has in every place what was written
there last, and so does what the next round reads, unless the device writes
to the buffer again before the round ends. -/
structure DiskKept (image : List (BitVec 8)) (s : RiscvCpu × List (Request (BitVec 8))) : Prop where
  disk : ∃ cells, s.1.peripheral.diskImage = some cells ∧ cells.length = image.length ∧
    ∀ i, cells[i]? = Blocks.current image s.2 i
  reads : ∀ host c' call m, s.1.step host = .ok c' → s.1.servedCall host = some (call, m) → call.write = false →
    ∀ k < call.len.toNat, Spares (call.place k) ((s.1.diskAccesses host).drop 2) →
      some (c'.memory.bytes (call.place k)) = Blocks.current image s.2 (call.start + k)

theorem DiskHolds.kept {s : RiscvCpu × List (Request (BitVec 8))} (hsize : image.length < 2 ^ 64)
    (h : DiskHolds image s) : DiskKept image s := by
  have hlen := Blocks.length_run h.fits
  refine ⟨⟨_, h.disk, hlen, Blocks.getElem?_run h.fits⟩, fun host c' call m hstep hcall hread k hk hspares => ?_⟩
  have hserved := step_serves h.disk (hlen ▸ hsize) hstep
  rw [hcall] at hserved
  obtain ⟨a, rest, haccesses, hr⟩ := hserved
  -- The first access is the one to QUEUE_MAX, and the second one the data's.
  have hdata : call.data = [.write (flat call.buffer, call.len.toNat)] := if_neg (by simp [hread])
  rw [haccesses, hdata] at hspares
  rw [hr.answer hread k hk hspares, Blocks.getElem?_run h.fits]

/-- **The disk is a store.** In every run, whatever the guest does to its
memory and its queue, the image is the first one with the requests served
applied to it, one after another. -/
theorem disk_run (c : RiscvCpu) (image : List (BitVec 8)) (hp : c.peripheral.diskImage = some image)
    (hsize : image.length < 2 ^ 64) (t : RiscvCpu × List (Request (BitVec 8)))
    (h : Run.Steps diskStep (fun _ _ => True) (c, []) t) : DiskKept image t := by
  have hstart : DiskHolds image (c, []) := ⟨by simp, hp⟩
  have hholds : DiskHolds image t :=
    Run.Steps.invariant (fun _ _ _ hs _ hst => diskHolds_step hsize hs hst) h hstart
  exact hholds.kept hsize

/-- A queue like that of `diskQueue`: the chain at 0 writes the byte at 0x3100
to the disk, and the one at 3 reads it to 0x3110. -/
def copyQueue : MemoryWrapper :=
  let m := ((PeripheralEmulator.diskQueue.setWord 0 0xC00 1).setWord 0 0x407 0x20001).setWord 0 0xC40 0x55
  (m.setWord 0 0x40C 0x3040).setWord 0 0x410 0x3110

/-- A guest that notifies the disk of the one, puts the other in its place and
notifies the disk again. -/
def copyingGuest : RiscvCpu :=
  let memory := ((copyQueue.setWord 0 0 0x0000A023).setWord 0 1 0x00219023).setWord 0 2 0x0000A023
  let c := ((new false 0).setMemory memory).setReg x1 PeripheralEmulator.kVirtioMmioQueueNotify
  let c := (c.setReg x2 3).setReg 3 0x1084
  { c with
    peripheralEmulation := true
    peripheral := { c.peripheral with deviceEmulationEnable := true, diskImage := some [7], scrEmulation := some {} } }

/-- It after a round. -/
def nextQuiet (c : RiscvCpu) : RiscvCpu := (c.step .failing).toOption.getD c

theorem diskStep_quiet {log log' : List (Request (BitVec 8))} (h : (c.step .failing).toOption.isSome = true)
    (hn : log' = requests .failing c log) : diskStep .failing (c, log) = .ok (c.nextQuiet, log') :=
  Run.noted_ok_iff.mpr ⟨Except.eq_ok_getD h c, hn⟩

/-- What it has written it reads. -/
theorem disk_run_copying :
    Run.Steps diskStep (fun _ _ => True) (copyingGuest, []) (copyingGuest.nextQuiet.nextQuiet, [.write 0 [0x55]]) ∧
      copyingGuest.nextQuiet.nextQuiet.nextQuiet.memory.bytes 0x3110 = 0x55 := by
  have h₁ : diskStep .failing (copyingGuest, []) = .ok (copyingGuest.nextQuiet, [.write 0 [0x55]]) :=
    diskStep_quiet (by decide +kernel) (by decide +kernel)
  have h₂ : diskStep .failing (copyingGuest.nextQuiet, [.write 0 [0x55]]) =
      .ok (copyingGuest.nextQuiet.nextQuiet, [.write 0 [0x55]]) :=
    diskStep_quiet (by decide +kernel) (by decide +kernel)
  have hrun : Run.Steps diskStep (fun _ _ => True) (copyingGuest, [])
      (copyingGuest.nextQuiet.nextQuiet, [.write 0 [0x55]]) :=
    .tail (.tail .refl trivial h₁) trivial h₂
  have hstep : copyingGuest.nextQuiet.nextQuiet.step .failing = .ok copyingGuest.nextQuiet.nextQuiet.nextQuiet :=
    Except.eq_ok_getD (by decide +kernel) _
  have hkept := disk_run copyingGuest [7] rfl (by decide) _ hrun
  have hcall : (copyingGuest.nextQuiet.nextQuiet.servedCall .failing).map
      (fun r => (r.1.sector, r.1.buffer, r.1.len, r.1.write)) = some (0, 0x3110, 1, false) := by decide +kernel
  obtain ⟨⟨⟨sector, buffer, len, write⟩, m⟩, hserved, hfields⟩ := Option.map_eq_some_iff.mp hcall
  cases hfields
  have hspares : Spares 0x3110 ((copyingGuest.nextQuiet.nextQuiet.diskAccesses .failing).drop 2) := by decide +kernel
  exact ⟨hrun, Option.some.inj (hkept.reads .failing _ _ m hstep hserved rfl 0 (by decide) hspares)⟩

end RiscvCpu

end RiscvEmulator
