/-
The registers of a 32-bit program.

In 32-bit mode the comparisons and the divisions are of 64-bit words and
rely on every register holding a sign-extended 32-bit value. `narrow_run`
says which rounds keep that: all but those that give a register, unextended,
the address of a jump, a control register, a doubleword or the failure of a
read.
-/
import RiscvEmulator.RoundFacts

namespace RiscvEmulator

/-! ## System calls -/

/-- What `write` returns: minus one, or the number of bytes written. -/
def Host.WriteBounded (host : Host) : Prop :=
  ∀ calls fd buffer, host.write calls fd buffer = -1 ∨ (host.write calls fd buffer).toNat ≤ buffer.length

section

variable {host : Host} {mem : MemoryWrapper} {reg : RegisterFile} {brk top : BitVec 64} {hs : HostState}
  {r : SystemCallResult}

theorem isSext_update (hreg : ∀ i, Bits.IsSext 32 (reg i)) {v : BitVec 64} (hv : Bits.IsSext 32 v) (rd : BitVec 5) :
    ∀ i, Bits.IsSext 32 (Function.update reg rd v i) := by
  intro i
  by_cases hi : i = rd
  · subst hi
    rw [Function.update_self]
    exact hv
  · rw [Function.update_of_ne hi]
    exact hreg i

theorem isSext_of_toNat_lt {v : BitVec 64} (h : v.toNat < 2 ^ 31) : Bits.IsSext 32 v :=
  Bits.isSext_of_getLsbD (by decide) fun i hi => by
    rw [BitVec.getLsbD, Nat.testBit_lt_two_pow (Nat.lt_of_lt_of_le h (Nat.pow_le_pow_right (by decide) hi))]

theorem bufferLength_ok {v : BitVec 64} {n : Nat} (h : bufferLength v = .ok n) :
    n = (v.setWidth 32).toNat ∧ n < 2 ^ 31 := by
  unfold bufferLength at h
  split at h
  · next hpos =>
    cases h
    refine ⟨rfl, ?_⟩
    have := BitVec.toInt_eq_toNat_cond (v.setWidth 32)
    omega
  · cases h

theorem memoryWrapperCopy_length {a : BitVec 64} {n : Nat} {b : List (BitVec 8)}
    (h : memoryWrapperCopy mem a n = .ok b) : b.length = n := by
  have hread : (fun i => mem.readByte (a + BitVec.ofNat 64 i)) =
      fun i => pure (mem.bytes (MemoryWrapper.flat (a + BitVec.ofNat 64 i))) :=
    funext fun i => MemoryWrapper.readByte_eq mem _
  rw [memoryWrapperCopy, hread, List.mapM_pure] at h
  cases h
  rw [List.length_map, List.length_range]

theorem writeCall_narrow (hreg : ∀ i, Bits.IsSext 32 (reg i)) (hw : host.WriteBounded)
    (h : writeCall host mem reg brk hs = .ok r) : (∀ i, Bits.IsSext 32 (r.reg i)) ∧ r.brk = brk := by
  obtain ⟨n, hn, h⟩ := Except.bind_ok_iff.mp h
  obtain ⟨b, hb, h⟩ := Except.bind_ok_iff.mp h
  cases h
  refine ⟨isSext_update hreg ?_ a0, rfl⟩
  rcases hw hs.calls ((reg a0).setWidth 32) b with hv | hv
  · rw [hv]
    decide
  · have hlen := memoryWrapperCopy_length hb
    have hlt := (bufferLength_ok hn).2
    exact isSext_of_toNat_lt (by omega)

theorem brkCall_narrow (hreg : ∀ i, Bits.IsSext 32 (reg i)) (hbrk : Bits.IsSext 32 brk) :
    (∀ i, Bits.IsSext 32 ((brkCall mem reg brk hs top).reg i)) ∧ Bits.IsSext 32 (brkCall mem reg brk hs top).brk := by
  unfold brkCall
  split
  · exact ⟨isSext_update hreg hbrk a0, hbrk⟩
  split
  · exact ⟨hreg, hreg a0⟩
  · exact ⟨isSext_update hreg (by decide) a0, hbrk⟩

theorem readCall_narrow (hreg : ∀ i, Bits.IsSext 32 (reg i))
    (hr : (host.read hs.calls ((reg a0).setWidth 32) ((reg a2).setWidth 32).toNat).1.getLsbD 31 = false)
    (h : readCall host mem reg brk hs = .ok r) : (∀ i, Bits.IsSext 32 (r.reg i)) ∧ r.brk = brk := by
  obtain ⟨n, hn, h⟩ := Except.bind_ok_iff.mp h
  obtain ⟨rfl, -⟩ := bufferLength_ok hn
  obtain ⟨m, -, h⟩ := Except.bind_ok_iff.mp h
  cases h
  refine ⟨isSext_update hreg (Bits.isSext_of_getLsbD (by decide) fun i hi => ?_) a0, rfl⟩
  rw [BitVec.getLsbD_setWidth, BitVec.getLsbD_setWidth]
  by_cases h31 : i = 31
  · subst h31
    rw [hr]
    rfl
  · simp [show ¬ i < 32 by omega]

theorem fstatCall_narrow (hreg : ∀ i, Bits.IsSext 32 (reg i)) (h : fstatCall host mem reg brk hs = .ok r) :
    (∀ i, Bits.IsSext 32 (r.reg i)) ∧ r.brk = brk := by
  obtain ⟨m, -, h⟩ := Except.bind_ok_iff.mp h
  cases h
  exact ⟨isSext_update hreg (Bits.isSext_signExtend _ (by decide)) a0, rfl⟩

theorem closeCall_narrow (hreg : ∀ i, Bits.IsSext 32 (reg i)) :
    (∀ i, Bits.IsSext 32 ((closeCall host mem reg brk hs).reg i)) ∧ (closeCall host mem reg brk hs).brk = brk := by
  unfold closeCall
  split
  · exact ⟨isSext_update hreg (Bits.isSext_signExtend _ (by decide)) a0, rfl⟩
  · exact ⟨isSext_update hreg (by decide) a0, rfl⟩

theorem openCall_narrow (hreg : ∀ i, Bits.IsSext 32 (reg i)) (h : openCall host mem reg brk hs = .ok r) :
    (∀ i, Bits.IsSext 32 (r.reg i)) ∧ r.brk = brk := by
  obtain ⟨n, -, h⟩ := Except.bind_ok_iff.mp h
  split at h
  · obtain ⟨path, -, h⟩ := Except.bind_ok_iff.mp h
    cases h
    exact ⟨isSext_update hreg (Bits.isSext_signExtend _ (by decide)) a0, rfl⟩
  · cases h
    exact ⟨isSext_update hreg (by decide) a0, rfl⟩

theorem lseekCall_narrow (hreg : ∀ i, Bits.IsSext 32 (reg i)) :
    (∀ i, Bits.IsSext 32 ((lseekCall host mem reg brk hs).reg i)) ∧ (lseekCall host mem reg brk hs).brk = brk :=
  ⟨isSext_update hreg (Bits.isSext_signExtend _ (by decide)) a0, rfl⟩

/-- The result of a system call is a 32-bit value, but for a read that fails. -/
theorem systemCallEmulation_narrow (hreg : ∀ i, Bits.IsSext 32 (reg i)) (hbrk : Bits.IsSext 32 brk)
    (hw : host.WriteBounded)
    (hr : reg a7 = 63 →
      (host.read hs.calls ((reg a0).setWidth 32) ((reg a2).setWidth 32).toNat).1.getLsbD 31 = false)
    (h : systemCallEmulation host mem reg brk hs top = .ok r) :
    (∀ i, Bits.IsSext 32 (r.reg i)) ∧ Bits.IsSext 32 r.brk := by
  have hkeep : (∀ i, Bits.IsSext 32 (r.reg i)) ∧ r.brk = brk → (∀ i, Bits.IsSext 32 (r.reg i)) ∧ Bits.IsSext 32 r.brk :=
    fun ⟨h₁, h₂⟩ => ⟨h₁, h₂ ▸ hbrk⟩
  unfold systemCallEmulation at h
  split at h
  · cases h; exact ⟨hreg, hbrk⟩
  split at h
  · exact hkeep (writeCall_narrow hreg hw h)
  split at h
  · cases h; exact brkCall_narrow hreg hbrk
  split at h
  · next h63 => exact hkeep (readCall_narrow hreg (hr h63) h)
  split at h
  · exact hkeep (fstatCall_narrow hreg h)
  split at h
  · cases h; exact hkeep (closeCall_narrow hreg)
  split at h
  · exact hkeep (openCall_narrow hreg h)
  split at h
  · cases h; exact hkeep (lseekCall_narrow hreg)
  · cases h; exact ⟨hreg, hbrk⟩

end

namespace RiscvCpu

variable {c c' : RiscvCpu} {host : Host}

/-! ## The invariant -/

/-- A 32-bit processor with a 32-bit value in every register, and in what a
register can be set from. -/
structure Narrow (c : RiscvCpu) : Prop where
  width : c.en64bit = false
  mxl : c.peripheral.mxl = 1
  reg : ∀ r, Bits.IsSext 32 (c.reg r)
  brk : Bits.IsSext 32 c.brk
  hostValue : Bits.IsSext 32 c.peripheral.hostValue

/-- The same, but for register zero, which an instruction may write. -/
structure NarrowButZero (c : RiscvCpu) : Prop where
  width : c.en64bit = false
  mxl : c.peripheral.mxl = 1
  reg : ∀ r, r ≠ zero → Bits.IsSext 32 (c.reg r)
  brk : Bits.IsSext 32 c.brk
  hostValue : Bits.IsSext 32 c.peripheral.hostValue

theorem Narrow.butZero (h : Narrow c) : NarrowButZero c := ⟨h.width, h.mxl, fun r _ => h.reg r, h.brk, h.hostValue⟩

theorem Narrow.of_data (h : Narrow c) (hp : c'.peripheral.hostSide = c.peripheral.hostSide)
    (hd : c'.en64bit = c.en64bit ∧ c'.reg = c.reg ∧ c'.brk = c.brk) : Narrow c' := by
  obtain ⟨hm, hv⟩ := Prod.ext_iff.mp hp
  refine ⟨hd.1.trans h.width, hm.trans h.mxl, ?_, ?_, ?_⟩
  · rw [hd.2.1]; exact h.reg
  · rw [hd.2.2]; exact h.brk
  · rw [show c'.peripheral.hostValue = c.peripheral.hostValue from hv]; exact h.hostValue

theorem Narrow.of_kept (h : Narrow c) (hk : Kept c c') (hr : c'.reg = c.reg) : Narrow c' :=
  h.of_data hk.hostSide ⟨congrArg Control.en64bit hk.control, hr, hk.brk⟩

theorem Narrow.of_data_eq (h : Narrow c) (hd : c'.data = c.data) : Narrow c' :=
  h.of_data (congrArg (·.peripheral.hostSide) hd)
    ⟨congrArg Data.en64bit hd, congrArg Data.reg hd, congrArg Data.brk hd⟩

theorem Narrow.trapBody {cause : Nat} {interrupt : Bool} (h : Narrow c) : Narrow (c.trapBody cause interrupt) :=
  h.of_data (congrArg (·.peripheral.hostSide) trapBody_data)
    ⟨congrArg Data.en64bit trapBody_data, congrArg Data.reg trapBody_data, congrArg Data.brk trapBody_data⟩

/-- Setting a register. -/
theorem Narrow.write {rd : BitVec 5} {v : BitVec 64} (h : Narrow c)
    (hp : c'.peripheral.hostSide = c.peripheral.hostSide)
    (hd : c'.en64bit = c.en64bit ∧ c'.reg = Function.update c.reg rd v ∧ c'.brk = c.brk)
    (hv : rd ≠ zero → Bits.IsSext 32 v) : NarrowButZero c' := by
  have h₀ : Narrow { c' with reg := c.reg } := h.of_data hp ⟨hd.1, rfl, hd.2.2⟩
  refine ⟨h₀.width, h₀.mxl, fun r hz => ?_, h₀.brk, h₀.hostValue⟩
  rw [hd.2.1]
  by_cases hrd : r = rd
  · subst hrd
    rw [Function.update_self]
    exact hv hz
  · rw [Function.update_of_ne hrd]
    exact h.reg r

/-! ## One round -/

/-- What is written to `rd` is a 32-bit value where the code does not narrow
it: the address after a jump, a control register; and no doubleword is
loaded. -/
structure NarrowWrite (c₂ : RiscvCpu) (d : Decoded) (csr : BitVec 12) : Prop where
  link : isLink d.instruction = true → Bits.IsSext 32 c₂.nextPc
  doubleword : isDoubleword d.instruction = false
  csrs : isCsrs d.instruction = true → Bits.IsSext 32 (c₂.csrs csr)

/-- The instruction writes no register, or writes it so; and an emulated read
does not fail. -/
structure Narrows (host : Host) (c₂ : RiscvCpu) (d : Decoded) (csr : BitVec 12) : Prop where
  write : d.rd = zero ∨ NarrowWrite c₂ d csr
  read : c₂.ecallEmulation = true → d.instruction = .system → c₂.reg a7 = 63 →
    (host.read c₂.host.calls ((c₂.reg a0).setWidth 32) ((c₂.reg a2).setWidth 32).toNat).1.getLsbD 31 = false

theorem Narrow.effect {d : Decoded} {csr : BitVec 12} (h : Narrow c) (hw : host.WriteBounded)
    (hn : Narrows host c d csr) (he : Effect c host d csr c') : NarrowButZero c' := by
  cases he with
  | write v hk hr _ hlink hnarrow =>
    refine h.write hk.hostSide ⟨congrArg Control.en64bit hk.control, hr, hk.brk⟩ fun hz => ?_
    obtain ⟨hl, hd, -⟩ := hn.write.resolve_left hz
    cases hlk : isLink d.instruction with
    | true => rw [hlink hlk]; exact hl hlk
    | false => exact hnarrow h.width (h.reg _) hlk hd
  | quiet hk hr => exact (h.of_kept hk hr).butZero
  | fault cause _ ht =>
    obtain ⟨c₀, hk, hr, -, rfl⟩ := ht
    exact (h.of_kept hk hr).trapBody.butZero
  | ecall cause _ ht =>
    subst ht
    exact h.trapBody.butZero
  | call hemu hsys hc =>
    obtain ⟨r, hr, hc⟩ := Except.bind_ok_iff.mp hc
    cases hc
    obtain ⟨hreg, hbrk⟩ := systemCallEmulation_narrow h.reg h.brk hw (hn.read hemu hsys) hr
    exact ⟨h.width, h.mxl, fun r _ => hreg r, hbrk, h.hostValue⟩
  | csrs hcsr ht =>
    subst ht
    have hd := csrsInstruction_data (c := c) d.instruction csr d.rd d.rs1
    exact h.write (congrArg (·.peripheral.hostSide) hd)
      ⟨congrArg Data.en64bit hd, congrArg Data.reg hd, congrArg Data.brk hd⟩
      fun hz => (hn.write.resolve_left hz).csrs hcsr
  | mret _ _ hr => exact (h.of_data_eq (mret_data hr)).butZero
  | sret _ _ hr => exact (h.of_data_eq (sret_data hr)).butZero

theorem NarrowButZero.finishStage (h : NarrowButZero c) (hf : c.finishStage host = .ok c') : Narrow c' := by
  obtain ⟨p, m, hm, hv, hfin⟩ := finishStage_ok hf
  have hp : Bits.IsSext 32 p.hostValue := by
    rcases hv h.mxl with hv | hv
    · rw [hv]; exact h.hostValue
    · exact hv
  refine ⟨(congrArg Control.en64bit hfin.control).trans h.width, hfin.mxl.trans (hm.trans h.mxl), fun r => ?_, ?_, ?_⟩
  · rcases hfin.reg r with hr | hr
    · rw [hr]
      by_cases hz : r = zero
      · subst hz
        rw [setReg_same]
        decide
      · rw [setReg_ne _ _ hz]
        exact h.reg r hz
    · rw [hr]
      exact hp
  · rw [hfin.brk]; exact h.brk
  · rw [hfin.hostValue]; exact hp

theorem Narrow.interruptStage {taken : Bool} (h : Narrow c) (hs : c.interruptStage = .ok (taken, c')) : Narrow c' := by
  obtain ⟨c₀, p, -, hp, hd, hc⟩ := interruptStage_ok hs
  have h₀ : Narrow c₀ := by
    refine h.of_data ?_ ⟨congrArg Data.en64bit hd, congrArg Data.reg hd, congrArg Data.brk hd⟩
    exact (congrArg (·.peripheral.hostSide) hd).trans hp
  rcases hc with ⟨-, rfl⟩ | ⟨-, cause, rfl⟩
  · exact h₀
  · exact h₀.trapBody

/-- The round narrows what it writes, and the host answers as documented. -/
def NarrowRound (host : Host) (c : RiscvCpu) : Prop :=
  host.WriteBounded ∧
    ∀ c₂, c.Fetches c₂ → Narrows host c₂.decodeStage (decode c₂.ir c₂.mxl) (getCsr c₂.ir)

theorem Narrow.step (h : Narrow c) (hn : c.NarrowRound host) (hs : c.step host = .ok c') : Narrow c' := by
  cases step_round hs with
  | interrupt taken => exact h.interruptStage taken
  | fetchFault c₁ c₂ head fetch _ trap =>
    subst trap
    have hf := fetchStage_ok fetch
    exact ((h.interruptStage head).of_kept hf.1 hf.2.1).trapBody
  | execute c₁ c₂ c₃ head fetch pageFault execute finish =>
    have hf := fetchStage_ok fetch
    have h₂ := (h.interruptStage head).of_kept hf.1 hf.2.1
    have hdec : Narrow c₂.decodeStage := ⟨h₂.width, h₂.mxl, h₂.reg, h₂.brk, h₂.hostValue⟩
    have hnarrow := hn.2 c₂ ⟨c₁, head, fetch, pageFault⟩
    exact (hdec.effect hn.1 hnarrow (executeStage_effect pageFault execute)).finishStage finish

/-! ## Runs -/

/-- **The registers of a 32-bit program.** In a run of a 32-bit processor
whose rounds narrow what they write, every register holds a sign-extended
32-bit value in every state reached, if it does at the start. -/
theorem narrow_run (c t : RiscvCpu) (startPc : BitVec 64) (hc : Narrow c)
    (h : Run.Steps RiscvCpu.step NarrowRound (c.start startPc) t) : ∀ r, Bits.IsSext 32 (t.reg r) := by
  have hs : Narrow (c.start startPc) := ⟨hc.width, hc.mxl, hc.reg, hc.brk, hc.hostValue⟩
  exact (h.invariant (fun _ _ _ hc hn hst => hc.step hn hst) hs).reg

/-- `jal x1, 8` at address zero. -/
def lowJump : RiscvCpu := (new false 0).setMemory ((MemoryWrapper.new.assign 0).setWord 0 0 0x008000EF)

theorem narrow_run_lowJump : Bits.IsSext 32 ((lowJump.start 0).next.reg x1) := by
  have hc : Narrow lowJump := ⟨rfl, rfl, fun _ => rfl, by decide, by decide⟩
  have hn : (lowJump.start 0).NarrowRound .failing := by
    refine ⟨fun _ _ _ => .inl rfl, fun c₂ hc₂ => ?_⟩
    rw [hc₂.eq]
    exact ⟨.inr ⟨fun _ => by decide +kernel, by decide +kernel, fun h => absurd h (by decide +kernel)⟩,
      fun h => absurd h (by decide +kernel)⟩
  exact narrow_run lowJump _ 0 hc (.tail .refl hn (step_next (by decide +kernel))) x1

/-- The same instruction at `0x80000000`. -/
def highJump : RiscvCpu := (new false 0).setMemory ((MemoryWrapper.new.assign 0x800).setWord 0x800 0 0x008000EF)

/-- It leaves `0x80000004` in `x1`. -/
theorem narrow_run_highJump :
    Narrow highJump ∧ (0x80000000#64).toNat < 2 ^ 32 ∧
      (highJump.start 0x80000000).step .failing = .ok (highJump.start 0x80000000).next ∧
      (highJump.start 0x80000000).next.reg x1 = 0x80000004 ∧
      ¬ Bits.IsSext 32 ((highJump.start 0x80000000).next.reg x1) := by
  have hx : (highJump.start 0x80000000).next.reg x1 = 0x80000004 := by decide +kernel
  refine ⟨⟨rfl, rfl, fun _ => rfl, by decide, by decide⟩, by decide, step_next (by decide +kernel), hx, ?_⟩
  rw [hx]
  decide

end RiscvCpu

end RiscvEmulator
