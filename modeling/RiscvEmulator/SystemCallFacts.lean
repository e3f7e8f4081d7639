/-
The system calls that go through to the host's files.

`read` copies its whole buffer to the guest, however few bytes were read,
and cuts the result to 32 bits: `readCall_iff` says when the guest sees a
read all the same. `close` goes by a count of the open files and not by
which they are: `handles_run` says in which runs the guest closes only what
it has opened.
-/
import RiscvEmulator.MemoryFacts
import RiscvEmulator.SystemCall
import Mathlib.Data.Finset.Card

namespace RiscvEmulator

open Bytes (Area InArea)
open MemoryWrapper (flat)

/-! ## Reading -/

/-- The loop that copies a buffer to the guest. -/
theorem copyToGuest_bytes (m : MemoryWrapper) (a : BitVec 64) (buffer : Nat → BitVec 8) (n : Nat) :
    ∃ m', copyToGuest m a buffer n = .ok m' ∧ m'.bytes = Bytes.fill m.bytes (flat a) 1 buffer n := by
  induction n with
  | zero => exact ⟨m, rfl, rfl⟩
  | succ n ih =>
    obtain ⟨m₁, hloop, hbytes⟩ := ih
    obtain ⟨m', hwrite, hbytes'⟩ := m₁.writeByte_bytes (a + BitVec.ofNat 64 n) (buffer n)
    refine ⟨m', ?_, ?_⟩
    · rw [copyToGuest, hloop, Except.ok_bind, hwrite]
    · rw [hbytes', hbytes, Bytes.fill, Nat.one_mul, MemoryWrapper.flat_add]

/-- The `int` that `read` takes for the length. -/
def readLength (reg : RegisterFile) : Int := ((reg a2).setWidth 32).toInt

/-- What a `read` that returns `n` and fills the first bytes of `buffer` should
do: the bytes read go to A1, no other byte changes, and A0 is `n`. -/
structure GuestReads (n : BitVec 64) (buffer : Nat → BitVec 8) (reg : RegisterFile) (mem : MemoryWrapper)
    (r : SystemCallResult) : Prop where
  data : ∀ k < n.toInt.toNat, r.mem.bytes (flat (reg a1) + BitVec.ofNat 32 k) = buffer k
  frame : ∀ b, ¬ InArea (flat (reg a1), n.toInt.toNat) b → r.mem.bytes b = mem.bytes b
  result : r.reg a0 = n

/-- What is left in the buffer behind the bytes read is what the guest has in
its own. -/
def LeftAsItWas (n : BitVec 64) (buffer : Nat → BitVec 8) (reg : RegisterFile) (mem : MemoryWrapper) : Prop :=
  ∀ k : Nat, n.toInt ≤ k → k < readLength reg → buffer k = mem.bytes (flat (reg a1) + BitVec.ofNat 32 k)

/-- A result that is not negative is kept by the cut to 32 bits, and no other. -/
theorem narrowed_iff {n : BitVec 64} (hlow : -1 ≤ n.toInt) (hhigh : n.toInt < 2 ^ 31) :
    (n.setWidth 32).setWidth 64 = n ↔ 0 ≤ n.toInt := by
  have hn := n.isLt
  rw [← BitVec.toNat_inj, BitVec.toNat_setWidth, BitVec.toNat_setWidth]
  rw [BitVec.toInt_eq_toNat_cond] at hlow hhigh ⊢
  split at hlow <;> omega

section

variable (host : Host) (mem : MemoryWrapper) (reg : RegisterFile) (brk : BitVec 64) (hs : HostState)

theorem readCall_negative (h : readLength reg < 0) : readCall host mem reg brk hs = .error .badAlloc := by
  have hneg : ¬ 0 ≤ ((reg a2).setWidth 32).toInt := Int.not_le.mpr h
  rw [readCall, bufferLength, if_neg hneg]
  rfl

/-- A call with a length: the whole buffer goes to the guest. -/
theorem readCall_returns (h : 0 ≤ readLength reg) {n : BitVec 64} {buffer : Nat → BitVec 8}
    (hread : host.read hs.calls ((reg a0).setWidth 32) (readLength reg).toNat = (n, buffer)) :
    ∃ r, readCall host mem reg brk hs = .ok r ∧ r.reg a0 = (n.setWidth 32).setWidth 64 ∧
      r.mem.bytes = Bytes.fill mem.bytes (flat (reg a1)) 1 buffer (readLength reg).toNat := by
  have hlen : ((reg a2).setWidth 32).toNat = (readLength reg).toNat := by
    have hlt := ((reg a2).setWidth 32).isLt
    unfold readLength at h ⊢
    generalize (reg a2).setWidth 32 = v at *
    rw [BitVec.toInt_eq_toNat_cond] at h ⊢
    split at h <;> omega
  obtain ⟨m', hcopy, hbytes⟩ := copyToGuest_bytes mem (reg a1) buffer (readLength reg).toNat
  unfold readCall
  rw [bufferLength, if_pos (show 0 ≤ ((reg a2).setWidth 32).toInt from h), Except.ok_bind, hlen]
  simp only [hread]
  rw [show Function.update reg a0 ((n.setWidth 32).setWidth 64) a1 = reg a1 from Function.update_of_ne (by decide) _ _,
    hcopy, Except.ok_bind]
  exact ⟨_, rfl, Function.update_self a0 ((n.setWidth 32).setWidth 64) reg, hbytes⟩

end

/-- **Reading.** For every guest, every length and every answer of the host,
the guest sees the read as it was made if and only if the length is not
negative, the read did not fail, and what is left in the buffer is what the
guest has there: as when the read is a full one. -/
theorem readCall_iff (host : Host) (mem : MemoryWrapper) (reg : RegisterFile) (brk top : BitVec 64) (hs : HostState)
    (n : BitVec 64) (buffer : Nat → BitVec 8) (h7 : reg a7 = 63)
    (hread : host.read hs.calls ((reg a0).setWidth 32) (readLength reg).toNat = (n, buffer)) (hlow : -1 ≤ n.toInt)
    (hhigh : n.toInt ≤ (readLength reg).toNat) :
    (∃ r, systemCallEmulation host mem reg brk hs top = .ok r ∧ GuestReads n buffer reg mem r) ↔
      0 ≤ readLength reg ∧ 0 ≤ n.toInt ∧ LeftAsItWas n buffer reg mem := by
  have hcall : systemCallEmulation host mem reg brk hs top = readCall host mem reg brk hs := by
    rw [systemCallEmulation, h7]
    rfl
  have hmax : readLength reg < 2 ^ 31 := BitVec.toInt_lt
  rw [hcall]
  by_cases hlen : 0 ≤ readLength reg
  · obtain ⟨r, hrun, hreg, hbytes⟩ := readCall_returns host mem reg brk hs hlen hread
    have hall : ∀ b, r.mem.bytes b = if InArea (flat (reg a1), (readLength reg).toNat) b then
        buffer (b - flat (reg a1)).toNat else mem.bytes b := fun b => by
      rw [hbytes, Bytes.fill_byte _ _ _ (by omega)]
    have hbuffer : ∀ k : Nat, k < readLength reg → r.mem.bytes (flat (reg a1) + BitVec.ofNat 32 k) = buffer k := by
      intro k hk
      rw [hall, if_pos (Bytes.inArea_offset _ (by omega) (by omega)), Bytes.toNat_offset _ (by omega)]
    constructor
    · rintro ⟨r', hrun', hreads⟩
      rw [hrun] at hrun'
      cases hrun'
      have hn : 0 ≤ n.toInt := (narrowed_iff hlow (by omega)).mp (hreg.symm.trans hreads.result)
      refine ⟨hlen, hn, fun k hk hk' => ?_⟩
      rw [← hbuffer k hk']
      refine hreads.frame _ fun hin => ?_
      rw [InArea, Bytes.toNat_offset _ (by omega)] at hin
      omega
    · rintro ⟨-, hn, hleft⟩
      refine ⟨r, hrun, fun k hk => hbuffer k (by omega), fun b hb => ?_, ?_⟩
      · rw [hall]
        split
        · next hin =>
          have hin' : (b - flat (reg a1)).toNat < (readLength reg).toNat := hin
          have hout : ¬ (b - flat (reg a1)).toNat < n.toInt.toNat := hb
          rw [hleft _ (by omega) (by omega), Bytes.add_ofNat_sub]
        · rfl
      · rw [hreg]
        exact (narrowed_iff hlow (by omega)).mpr hn
  · rw [readCall_negative host mem reg brk hs (by omega)]
    constructor
    · rintro ⟨r, hrun, -⟩
      cases hrun
    · rintro ⟨h, -⟩
      exact absurd h hlen

/-- A guest that reads eight bytes from its standard input. -/
def reading : RegisterFile := fun r => if r = a7 then 63 else if r = a1 then 0x1000 else if r = a2 then 8 else 0

/-- A host whose reads return `n` and leave ones in the buffer. -/
def answering (n : BitVec 64) : Host := { Host.failing with read := fun _ _ _ => (n, fun _ => 1) }

/-- A full read. -/
theorem readCall_iff_full : ∃ r, systemCallEmulation (answering 8) .new reading 0 {} 0 = .ok r ∧
    GuestReads 8 (fun _ => 1) reading .new r := by
  refine (readCall_iff (answering 8) .new reading 0 0 {} 8 (fun _ => 1) rfl rfl (by decide) (by decide)).mpr
    ⟨by decide, by decide, fun k hk hk' => ?_⟩
  have h8 : (8 : BitVec 64).toInt = 8 := rfl
  have hlen : readLength reading = 8 := rfl
  omega

/-- At the end of the file nothing is read, and eight bytes are written; a
read that fails returns what is not -1. -/
theorem readCall_iff_short :
    (∃ r, systemCallEmulation (answering 0) .new reading 0 {} 0 = .ok r ∧ r.mem.bytes 0x1000 = 1 ∧
      ¬ GuestReads 0 (fun _ => 1) reading .new r) ∧
    ∃ r, systemCallEmulation (answering (-1)) .new reading 0 {} 0 = .ok r ∧ r.reg a0 = 0xFFFFFFFF ∧
      ¬ GuestReads (-1) (fun _ => 1) reading .new r := by
  constructor
  · obtain ⟨r, hrun, -, hbytes⟩ := readCall_returns (answering 0) .new reading 0 {} (by decide) rfl
    have hwritten : r.mem.bytes 0x1000 = 1 := by
      rw [hbytes, Bytes.fill_byte _ _ _ (by decide)]
      rfl
    refine ⟨r, hrun, hwritten, fun h => ?_⟩
    have hkept := h.frame 0x1000 (by decide)
    rw [hwritten, MemoryWrapper.bytes_new] at hkept
    exact absurd hkept (by decide)
  · obtain ⟨r, hrun, hreg, -⟩ := readCall_returns (answering (-1)) .new reading 0 {} (by decide) rfl
    refine ⟨r, hrun, hreg, fun h => ?_⟩
    exact absurd (hreg.symm.trans h.result) (by decide)

/-! ## Opening and closing -/

/-- The descriptors that the guest has opened and not closed since. -/
def guestOpen (host : Host) : List HostCall → Finset (BitVec 32)
  | [] => ∅
  | .openFile path flags mode :: before =>
    let fd := host.openFile before path flags mode
    if 0 ≤ fd.toInt then insert fd (guestOpen host before) else guestOpen host before
  | .close fd :: before => if host.close before fd = 0 then (guestOpen host before).erase fd else guestOpen host before
  | _ :: before => guestOpen host before

/-- `open` gives -1, or a descriptor that is not open. -/
def OpensFresh (host : Host) : Prop :=
  ∀ before path flags mode, host.openFile before path flags mode = -1 ∨
    0 ≤ (host.openFile before path flags mode).toInt ∧ host.openFile before path flags mode ∉ guestOpen host before

/-- Every close was of a descriptor that the guest had open, and the count is
of those that are. -/
structure OwnsHandles (host : Host) (hs : HostState) : Prop where
  closes : ∀ after fd before, hs.calls = after ++ .close fd :: before → fd ∈ guestOpen host before
  count : hs.openHandles = (guestOpen host hs.calls).card

/-- A guest that asks for an `open` or a `close`. -/
structure HandleCall where
  mem : MemoryWrapper
  reg : RegisterFile
  brk : BitVec 64
  top : BitVec 64
  number : reg a7 = 1024 ∨ reg a7 = 57

def handleStep (host : Host) (l : HandleCall) (hs : HostState) : Except Crash HostState := do
  return (← systemCallEmulation host l.mem l.reg l.brk hs l.top).host

/-- A close that goes through to the host is of one of the guest's own, and
the host does it. -/
def ClosesOwn (host : Host) (l : HandleCall) (hs : HostState) : Prop :=
  l.reg a7 = 57 → 0 < hs.openHandles → (l.reg a0).setWidth 32 ∈ guestOpen host hs.calls ∧
    host.close hs.calls ((l.reg a0).setWidth 32) = 0

section

variable {host : Host} {hs : HostState}

theorem OwnsHandles.start : OwnsHandles host {} where
  closes after fd before h := absurd h (by simp)
  count := rfl

/-- What an `open` leaves. -/
theorem openCall_host {mem : MemoryWrapper} {reg : RegisterFile} {brk : BitVec 64} {r : SystemCallResult}
    (h : openCall host mem reg brk hs = .ok r) : r.host = hs ∨ ∃ path flags mode,
      r.host.calls = .openFile path flags mode :: hs.calls ∧ r.host.openHandles =
        if 0 ≤ (host.openFile hs.calls path flags mode).toInt then hs.openHandles + 1 else hs.openHandles := by
  unfold openCall at h
  obtain ⟨length, -, h⟩ := Except.bind_ok_iff.mp h
  split at h
  · obtain ⟨path, -, h⟩ := Except.bind_ok_iff.mp h
    cases h
    exact .inr ⟨path, _, _, rfl, rfl⟩
  · cases h
    exact .inl rfl

/-- An `open` keeps to it always. -/
theorem OwnsHandles.opened (hfresh : OpensFresh host) (h : OwnsHandles host hs) {t : HostState} {path : List (BitVec 8)}
    {flags : OpenFlags} {mode : BitVec 64} (hcalls : t.calls = .openFile path flags mode :: hs.calls)
    (hcount : t.openHandles =
      if 0 ≤ (host.openFile hs.calls path flags mode).toInt then hs.openHandles + 1 else hs.openHandles) :
    OwnsHandles host t where
  closes after fd before heq := by
    rw [hcalls] at heq
    cases after with
    | nil => cases heq
    | cons call after => exact h.closes after fd before (List.cons.inj heq).2
  count := by
    rw [hcalls, hcount, guestOpen, h.count]
    split
    · next hge =>
      rcases hfresh hs.calls path flags mode with hfail | ⟨-, hnew⟩
      · rw [hfail] at hge
        exact absurd hge (by decide)
      · rw [Finset.card_insert_of_notMem hnew]
    · rfl

/-- A `close` that goes through keeps to it when it is one of the guest's own. -/
theorem OwnsHandles.closed_iff (h : OwnsHandles host hs) (hpos : 0 < hs.openHandles) (fd : BitVec 32) :
    OwnsHandles host { calls := .close fd :: hs.calls, openHandles := hs.openHandles - 1 } ↔
      fd ∈ guestOpen host hs.calls ∧ host.close hs.calls fd = 0 := by
  constructor
  · intro ht
    refine ⟨ht.closes [] fd hs.calls rfl, ?_⟩
    by_contra hne
    have hcount : hs.openHandles - 1 = (guestOpen host (.close fd :: hs.calls)).card := ht.count
    rw [guestOpen, if_neg hne, ← h.count] at hcount
    omega
  · rintro ⟨hmem, hzero⟩
    refine ⟨fun after fd' before heq => ?_, ?_⟩
    · cases after with
      | nil =>
        cases heq
        exact hmem
      | cons call after => exact h.closes after fd' before (List.cons.inj heq).2
    · rw [guestOpen, if_pos hzero, Finset.card_erase_of_mem hmem, h.count]

theorem OwnsHandles.step_iff (hfresh : OpensFresh host) {l : HandleCall} (h : OwnsHandles host hs) {t : HostState}
    (hstep : handleStep host l hs = .ok t) : OwnsHandles host t ↔ ClosesOwn host l hs := by
  obtain ⟨r, hrun, ht⟩ := Except.bind_ok_iff.mp hstep
  cases ht
  rcases l.number with hn | hn
  · have hown : OwnsHandles host r.host := by
      rw [systemCallEmulation, hn] at hrun
      rcases openCall_host hrun with heq | ⟨path, flags, mode, hcalls, hcount⟩
      · rw [heq]
        exact h
      · exact h.opened hfresh hcalls hcount
    refine iff_of_true hown fun hn' => ?_
    rw [hn] at hn'
    exact absurd hn' (by decide)
  · rw [systemCallEmulation, hn] at hrun
    have hrun' : Except.ok (closeCall host l.mem l.reg l.brk hs) = Except.ok r := hrun
    cases hrun'
    unfold closeCall
    by_cases hpos : 0 < hs.openHandles
    · rw [if_pos hpos, h.closed_iff hpos]
      exact ⟨fun hc _ _ => hc, fun hc => hc hn hpos⟩
    · rw [if_neg hpos]
      exact iff_of_true h fun _ hpos' => absurd hpos' hpos

end

/-- **Open and close.** On every host whose `open` gives -1 or a descriptor
that is not open, the runs of these two calls in which the guest closes only
what it has open, and `openHandles` counts just that, are those in which
every close that finds a handle counted is of one of the guest's own and
succeeds. -/
theorem handles_run (host : Host) (hfresh : OpensFresh host) (t : HostState) :
    Run.Steps (handleStep host) (fun _ => OwnsHandles host) {} t ∧ OwnsHandles host t ↔
      Run.Steps (handleStep host) (ClosesOwn host) {} t :=
  Run.steps_iff (fun _ _ _ h => h.step_iff hfresh) .start t

/-- A host that opens one file, as descriptor 3. -/
def opening : Host := { Host.failing with
  openFile := fun before _ _ _ => if before = [] then 3 else -1
  close := fun _ _ => 0 }

theorem opening_fresh : OpensFresh opening := by
  intro before path flags mode
  cases before with
  | nil => exact .inr ⟨(by decide : 0 ≤ (3 : BitVec 32).toInt), Finset.notMem_empty _⟩
  | cons call before => exact .inl rfl

/-- A memory that holds the path `a` and an end. -/
def pathMemory : MemoryWrapper := (MemoryWrapper.new.writeByte 0 0x61).toOption.getD .new

/-- The guest opens it, -/
def openIt : HandleCall := ⟨pathMemory, Function.update (fun _ => 0) a7 1024, 0, 0, .inl (Function.update_self ..)⟩

/-- and closes a descriptor. -/
def closeIt (fd : BitVec 64) : HandleCall :=
  ⟨pathMemory, fun r => if r = a7 then 57 else if r = a0 then fd else 0, 0, 0, .inr rfl⟩

/-- The state after it. -/
def opened : HostState := { calls := [.openFile [0x61] (openFlags 0) 0], openHandles := 1 }

theorem openIt_returns : handleStep opening openIt {} = .ok opened := rfl

/-- Its own descriptor, -/
theorem handles_run_own : ∃ t, handleStep opening (closeIt 3) opened = .ok t ∧ OwnsHandles opening t := by
  have hclose : handleStep opening (closeIt 3) opened =
      .ok { calls := .close 3 :: opened.calls, openHandles := 0 } := rfl
  refine ⟨_, hclose, ((handles_run opening opening_fresh _).mpr ?_).2⟩
  exact .tail (.tail .refl (fun h => absurd h (by decide)) openIt_returns) (fun _ _ => by decide) hclose

/-- and the standard input, which it has not opened. -/
theorem handles_run_inherited : OpensFresh opening ∧ ∃ s t, handleStep opening openIt {} = .ok s ∧
    handleStep opening (closeIt 0) s = .ok t ∧ .close 0 ∈ t.calls ∧ 0 ∉ guestOpen opening s.calls ∧
      ¬ OwnsHandles opening t := by
  refine ⟨opening_fresh, opened, { calls := .close 0 :: opened.calls, openHandles := 0 }, openIt_returns, rfl,
    List.mem_cons_self .., by decide, fun h => ?_⟩
  exact absurd (h.closes [] 0 _ rfl) (by decide)

end RiscvEmulator
