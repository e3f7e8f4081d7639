/-
Modes: which values MPP can take, which causes `Trap` is called with, and
what raises the privilege.

Nothing checks what the guest writes to `mstatus`, `mie` and `mip`, so these
hold in runs whose CSR instructions write no MPP of two (`mpp_run`) and make
no interrupt pending and enabled that `Trap` does not know
(`trapCalls_run`). Nor is there a check that a return instruction is allowed
in the current mode; `privilege_rises_iff` says what that leaves.
-/
import RiscvEmulator.StatusFacts

namespace RiscvEmulator

namespace RiscvCpu

variable {c c' : RiscvCpu} {host : Host}

/-- The status state is the constructor's. The memory, the registers, the
devices and the settings are any. -/
def Booted (s : RiscvCpu) : Prop := ∃ en64bit misa64, s.status = (new en64bit misa64).status

/-! ## The previous mode -/

/-- MPP holds a mode. -/
def MppLegal (c : RiscvCpu) : Prop :=
  bitcrop c.mstatus 2 11 = 0 ∨ bitcrop c.mstatus 2 11 = 1 ∨ bitcrop c.mstatus 2 11 = 3

theorem mppLegal_iff : c.MppLegal ↔ ∃ p, intToPrivilegeMode (bitcrop c.mstatus 2 11) = .ok p := by
  unfold MppLegal intToPrivilegeMode
  constructor
  · rintro (h | h | h) <;> rw [h] <;> exact ⟨_, rfl⟩
  · rintro ⟨p, h⟩
    split at h
    · next h0 => exact .inl h0
    split at h
    · next h1 => exact .inr (.inl h1)
    split at h
    · next h3 => exact .inr (.inr h3)
    · cases h

theorem MppLegal.of_bits (h : c.MppLegal) (h11 : c'.mstatus.getLsbD 11 = c.mstatus.getLsbD 11)
    (h12 : c'.mstatus.getLsbD 12 = c.mstatus.getLsbD 12) : c'.MppLegal := by
  have hcrop : bitcrop c'.mstatus 2 11 = bitcrop c.mstatus 2 11 := by
    refine bitcrop_congr (by decide) fun i hi => ?_
    obtain rfl | rfl : i = 0 ∨ i = 1 := by omega
    · exact h11
    · exact h12
  unfold MppLegal
  rw [hcrop]
  exact h

/-- A CSR instruction writes no two to MPP. -/
def LegalMppWrite (c : RiscvCpu) (i : Instruction) (csr : BitVec 12) (rs1 : BitVec 5) : Prop :=
  csr = Csr.mstatus → bitcrop (c.csrValue i (c.csrs csr) rs1) 2 11 ≠ 2

theorem bitcrop_two_cases (v : BitVec 64) (o : Nat) :
    bitcrop v 2 o = 0 ∨ bitcrop v 2 o = 1 ∨ bitcrop v 2 o = 2 ∨ bitcrop v 2 o = 3 := by
  have hlt : (bitcrop v 2 o).toNat < 4 := by
    rw [toNat_bitcrop _ (by decide) (by decide)]
    exact Nat.mod_lt _ (by decide)
  have hcases : ∀ x : BitVec 64, x.toNat < 4 → x = 0 ∨ x = 1 ∨ x = 2 ∨ x = 3 := by
    intro x hx
    obtain h | h | h | h : x.toNat = 0 ∨ x.toNat = 1 ∨ x.toNat = 2 ∨ x.toNat = 3 := by omega
    · exact .inl (BitVec.eq_of_toNat_eq h)
    · exact .inr (.inl (BitVec.eq_of_toNat_eq h))
    · exact .inr (.inr (.inl (BitVec.eq_of_toNat_eq h)))
    · exact .inr (.inr (.inr (BitVec.eq_of_toNat_eq h)))
  exact hcases _ hlt

/-- The hardwired bits are not MPP's. -/
theorem getLsbD_hardwireMstatus (m : BitVec 64) {i : Nat} (hi : i = 11 ∨ i = 12) :
    (c.hardwireMstatus m).getLsbD i = m.getLsbD i := by
  unfold hardwireMstatus xlen mxl
  cases c.en64bit <;> rcases hi with rfl | rfl <;> simp

/-- Nor are they in the views of the lower modes. -/
theorem getLsbD_statusMask {i : Nat} (hi : i = 11 ∨ i = 12) :
    c.sstatusMask.getLsbD i = false ∧ c.ustatusMask.getLsbD i = false := by
  unfold sstatusMask ustatusMask mxl
  cases c.en64bit <;> rcases hi with rfl | rfl <;> decide

/-- `mstatus` after a write of any CSR. -/
theorem csrsInstruction_mstatus (i : Instruction) (csr : BitVec 12) (rd rs1 : BitVec 5) :
    (c.csrsInstruction i csr rd rs1).mstatus =
      if csr = Csr.ustatus then
        c.hardwireMstatus ((c.mstatus &&& ~~~c.ustatusMask) ||| (c.csrValue i (c.csrs csr) rs1 &&& c.ustatusMask))
      else if csr = Csr.sstatus then
        c.hardwireMstatus ((c.mstatus &&& ~~~c.sstatusMask) ||| (c.csrValue i (c.csrs csr) rs1 &&& c.sstatusMask))
      else if csr = Csr.mstatus then c.hardwireMstatus (c.csrValue i (c.csrs csr) rs1)
      else c.mstatus := by
  rcases csrsInstruction_cases c i csr rd rs1 with ⟨hc, h⟩ | ⟨hc, h⟩ | ⟨hc, h⟩ | ⟨hc, h⟩ <;> rw [h]
  · rcases hc with rfl | rfl | rfl <;> rfl
  · rcases hc with rfl | rfl | rfl <;> rfl
  · rcases hc with rfl | rfl | rfl <;> rfl
  · simp only [statusCsrs, List.mem_cons, List.not_mem_nil, or_false, not_or] at hc
    rw [if_neg hc.1, if_neg hc.2.1, if_neg hc.2.2.1]
    rfl

theorem MppLegal.csrsInstruction {i : Instruction} {csr : BitVec 12} {rd rs1 : BitVec 5} (h : c.MppLegal)
    (hw : c.LegalMppWrite i csr rs1) : (c.csrsInstruction i csr rd rs1).MppLegal := by
  have hview : ∀ {mask v : BitVec 64} {i : Nat}, i = 11 ∨ i = 12 → mask.getLsbD i = false →
      (c.hardwireMstatus ((c.mstatus &&& ~~~mask) ||| (v &&& mask))).getLsbD i = c.mstatus.getLsbD i := by
    intro mask v i hi hm
    rw [getLsbD_hardwireMstatus _ hi]
    have hi64 : i < 64 := by omega
    simp only [BitVec.getLsbD_or, BitVec.getLsbD_and, BitVec.getLsbD_not, hm, hi64]
    simp
  have hst := csrsInstruction_mstatus (c := c) i csr rd rs1
  split at hst
  · refine h.of_bits ?_ ?_ <;> rw [hst]
    · exact hview (.inl rfl) (getLsbD_statusMask (.inl rfl)).2
    · exact hview (.inr rfl) (getLsbD_statusMask (.inr rfl)).2
  split at hst
  · refine h.of_bits ?_ ?_ <;> rw [hst]
    · exact hview (.inl rfl) (getLsbD_statusMask (.inl rfl)).1
    · exact hview (.inr rfl) (getLsbD_statusMask (.inr rfl)).1
  split at hst
  · next hm =>
    have hlegal : ({ c with mstatus := c.csrValue i (c.csrs csr) rs1 } : RiscvCpu).MppLegal := by
      rcases bitcrop_two_cases (c.csrValue i (c.csrs csr) rs1) 11 with h0 | h1 | h2 | h3
      · exact .inl h0
      · exact .inr (.inl h1)
      · exact absurd h2 (hw hm)
      · exact .inr (.inr h3)
    refine hlegal.of_bits ?_ ?_ <;> rw [hst]
    · exact getLsbD_hardwireMstatus _ (.inl rfl)
    · exact getLsbD_hardwireMstatus _ (.inr rfl)
  · unfold MppLegal
    rw [hst]
    exact h

theorem MppLegal.trapBody {cause : Nat} {interrupt : Bool} (h : c.MppLegal) :
    (c.trapBody cause interrupt).MppLegal := by
  cases hd : c.svDelegation cause interrupt with
  | true =>
    refine h.of_bits ?_ ?_ <;> rw [(trapBody_supervisor hd).mstatus] <;>
      exact getLsbD_supervisorTrapStatus (by decide)
  | false =>
    rw [mppLegal_iff, (trapBody_machine hd).mstatus]
    exact ⟨_, mpp_machineTrapStatus⟩

/-- `Mret` leaves user mode in MPP. -/
theorem mret_mppLegal (hr : c.mret = .ok c') : c'.MppLegal := by
  obtain ⟨p, -, hr⟩ := Except.bind_ok_iff.mp hr
  cases hr
  refine .inl (bitcrop_eq_of_bits (by decide) (by decide) fun i hi => ?_)
  show (mretStatus c.mstatus).getLsbD (11 + i) = _
  rw [mretStatus, getLsbD_bitset _ _ (by decide) (by decide) (by omega), if_pos (by omega)]
  simp

theorem MppLegal.sret (h : c.MppLegal) (hr : c.sret = .ok c') : c'.MppLegal := by
  obtain ⟨p, -, hr⟩ := Except.bind_ok_iff.mp hr
  cases hr
  exact h.of_bits (getLsbD_sretStatus_of_kept c.mstatus (by decide)) (getLsbD_sretStatus_of_kept c.mstatus (by decide))

/-- The mode a memory access is made in: MPP's if MPRV is set. -/
theorem accessPrivilege_ok (hv : StatusViews c) (h : c.MppLegal) : ∃ p, c.accessPrivilege = .ok p := by
  unfold accessPrivilege
  split
  · rw [hv.mstatus]
    exact mppLegal_iff.mp h
  · exact ⟨_, rfl⟩

/-- One bit is a mode that `Sret` can return to. -/
theorem sret_ok (c : RiscvCpu) : ∃ c', c.sret = .ok c' := by
  have hbit : ∃ p, intToPrivilegeMode (bitcrop c.mstatus 1 8) = .ok p := by
    cases hb : c.mstatus.getLsbD 8 with
    | true => exact ⟨.supervisorMode, by rw [(bit_iff _ _).mpr hb]; rfl⟩
    | false =>
      have hzero : bitcrop c.mstatus 1 8 = 0 := by
        refine bitcrop_eq_of_bits (by decide) (by decide) fun i hi => ?_
        obtain rfl : i = 0 := by omega
        exact hb
      exact ⟨.userMode, by rw [hzero]; rfl⟩
  obtain ⟨p, hp⟩ := hbit
  obtain ⟨c', hc', -⟩ := sret_eq hp
  exact ⟨c', hc'⟩

/-- The views are true and MPP holds a mode. -/
def MppInvariant (c : RiscvCpu) : Prop := StatusViews c ∧ c.MppLegal

theorem mppInvariant : StatusInvariant MppInvariant LegalMppWrite where
  of_status h hs := ⟨h.1.of_status hs, by
    have hm := congrArg Status.mstatus hs
    exact h.2.of_bits (congrArg (BitVec.getLsbD · 11) hm) (congrArg (BitVec.getLsbD · 12) hm)⟩
  setInterruptPending _ h := ⟨h.1.setInterruptPending _, h.2⟩
  trapBody h := ⟨h.1.trapBody, h.2.trapBody⟩
  csrsInstruction hw h := ⟨h.1.csrsInstruction _ _ _ _, h.2.csrsInstruction hw⟩
  mret h hr := ⟨h.1.mret hr, mret_mppLegal hr⟩
  sret h hr := ⟨h.1.sret hr, h.2.sret hr⟩

theorem Booted.mppInvariant {s : RiscvCpu} (hs : Booted s) : MppInvariant s := by
  obtain ⟨en64bit, misa64, hs⟩ := hs
  refine RiscvCpu.mppInvariant.of_status ⟨new_statusViews en64bit misa64, ?_⟩ hs
  cases en64bit with
  | false => exact .inl (show bitcrop (0 : BitVec 64) 2 11 = 0 by decide)
  | true => exact .inl (show bitcrop (0xA00000000 : BitVec 64) 2 11 = 0 by decide)

/-- The instruction of a round and its memory accesses see the status that
its interrupts leave. -/
def AtRound (c u : RiscvCpu) : Prop := ∃ taken c₁, c.interruptStage = .ok (taken, c₁) ∧ u.status = c₁.status

/-- **Privilege values.** In a run from the constructor's status in which no
CSR instruction writes a two to MPP of `mstatus`, MPP holds a mode in every
state reached, and wherever a round calls `Mret`, `Sret` or translates an
address, the mode they read is one. -/
theorem mpp_run (s t : RiscvCpu) (hs : Booted s) (h : Run.Steps step (CsrWrite LegalMppWrite) s t) :
    t.MppLegal ∧ ∀ u, t.AtRound u →
      u.MppLegal ∧ (∃ c', u.mret = .ok c') ∧ (∃ c', u.sret = .ok c') ∧ ∃ p, u.accessPrivilege = .ok p := by
  have ht : MppInvariant t := mppInvariant.run hs.mppInvariant h
  refine ⟨ht.2, ?_⟩
  rintro u ⟨taken, c₁, h₁, hu⟩
  have hui : MppInvariant u := mppInvariant.of_status (mppInvariant.interruptStage ht h₁) hu
  obtain ⟨p, hp⟩ := mppLegal_iff.mp hui.2
  obtain ⟨c', hc', -⟩ := mret_eq hp
  exact ⟨hui.2, ⟨c', hc'⟩, sret_ok u, accessPrivilege_ok hui.1 hui.2⟩

/-- `CSRRW mstatus, x5` and then `MRET`. -/
def setMpp (x5 : BitVec 64) : RiscvCpu :=
  ((new false 0).setMemory (((MemoryWrapper.new.assign 0).setWord 0 0 0x30029073).setWord 0 1 0x30200073)).setReg 5 x5

theorem mpp_run_supervisor : (setMpp 0x800).next.MppLegal ∧ bitcrop (setMpp 0x800).next.mstatus 2 11 = 1 := by
  have hlegal : CsrWrite LegalMppWrite .failing (setMpp 0x800) := by
    intro c₂ hc _
    rw [hc.eq]
    intro _
    decide
  have hrun : Run.Steps step (CsrWrite LegalMppWrite) (setMpp 0x800) (setMpp 0x800).next :=
    .tail .refl hlegal (step_next (by decide))
  exact ⟨(mpp_run (setMpp 0x800) _ ⟨false, 0, rfl⟩ hrun).1, by decide⟩

/-- With a two for MPP the write is taken as it is and the return throws. -/
theorem mpp_run_two :
    Booted (setMpp 0x1000) ∧ Run.Steps step (fun _ _ => True) (setMpp 0x1000) (setMpp 0x1000).next ∧
      bitcrop (setMpp 0x1000).next.mstatus 2 11 = 2 ∧ ¬ (setMpp 0x1000).next.MppLegal ∧
      (setMpp 0x1000).next.step .failing = .error .outOfRange := by
  have hstep : (setMpp 0x1000).step .failing = .ok (setMpp 0x1000).next := step_next (by decide)
  exact ⟨⟨false, 0, rfl⟩, .tail .refl trivial hstep, by decide, by unfold MppLegal; decide,
    step_nextCrash (by decide)⟩

/-! ## The causes of traps -/

/-- The interrupts that `CheckPendingInterrupt` raises and `Trap` does not
know: machine software, supervisor timer and machine external. -/
def unsupportedCauses : List Nat := [machineSoftwareInterrupt, supervisorTimerInterrupt, machineExternalInterrupt]

/-- None of them is both pending and enabled. -/
def Supported (c : RiscvCpu) : Prop := ∀ k ∈ unsupportedCauses, c.interruptStatus.getLsbD k = false

/-- A CSR instruction makes none of them so. `sip` and `sie` show one. -/
structure SupportedWrite (c : RiscvCpu) (i : Instruction) (csr : BitVec 12) (rs1 : BitVec 5) : Prop where
  mip : csr = Csr.mip → ∀ k ∈ unsupportedCauses, (c.csrValue i (c.csrs csr) rs1 &&& c.mie).getLsbD k = false
  mie : csr = Csr.mie → ∀ k ∈ unsupportedCauses, (c.mip &&& c.csrValue i (c.csrs csr) rs1).getLsbD k = false
  sip : csr = Csr.sip → (c.csrValue i (c.csrs csr) rs1 &&& c.mie).getLsbD supervisorTimerInterrupt = false
  sie : csr = Csr.sie → (c.mip &&& c.csrValue i (c.csrs csr) rs1).getLsbD supervisorTimerInterrupt = false

/-- A value without the bits of these causes can be written anywhere. -/
theorem SupportedWrite.of_value {i : Instruction} {csr : BitVec 12} {rs1 : BitVec 5}
    (hv : ∀ k ∈ unsupportedCauses, (c.csrValue i (c.csrs csr) rs1).getLsbD k = false) : SupportedWrite c i csr rs1 where
  mip _ k hk := by rw [BitVec.getLsbD_and, hv k hk, Bool.false_and]
  mie _ k hk := by rw [BitVec.getLsbD_and, hv k hk, Bool.and_false]
  sip _ := by rw [BitVec.getLsbD_and, hv _ (by decide), Bool.false_and]
  sie _ := by rw [BitVec.getLsbD_and, hv _ (by decide), Bool.and_false]

/-- `mip` and `mie` after a write of any CSR. -/
theorem csrsInstruction_mip_mie (i : Instruction) (csr : BitVec 12) (rd rs1 : BitVec 5) :
    (c.csrsInstruction i csr rd rs1).mip =
        (if csr = Csr.mip then c.csrValue i (c.csrs csr) rs1
        else if csr = Csr.uip then (c.mip &&& ~~~kUipMask) ||| (c.csrValue i (c.csrs csr) rs1 &&& kUipMask)
        else if csr = Csr.sip then (c.mip &&& ~~~kSipMask) ||| (c.csrValue i (c.csrs csr) rs1 &&& kSipMask)
        else c.mip) ∧
      (c.csrsInstruction i csr rd rs1).mie =
        (if csr = Csr.mie then c.csrValue i (c.csrs csr) rs1
        else if csr = Csr.uie then (c.mie &&& ~~~kUieMask) ||| (c.csrValue i (c.csrs csr) rs1 &&& kUieMask)
        else if csr = Csr.sie then (c.mie &&& ~~~kSieMask) ||| (c.csrValue i (c.csrs csr) rs1 &&& kSieMask)
        else c.mie) := by
  rcases csrsInstruction_cases c i csr rd rs1 with ⟨hc, h⟩ | ⟨hc, h⟩ | ⟨hc, h⟩ | ⟨hc, h⟩ <;> rw [h]
  · rcases hc with rfl | rfl | rfl <;> exact ⟨rfl, rfl⟩
  · rcases hc with rfl | rfl | rfl <;> exact ⟨rfl, rfl⟩
  · rcases hc with rfl | rfl | rfl <;> exact ⟨rfl, rfl⟩
  · simp only [statusCsrs, List.mem_cons, List.not_mem_nil, or_false, not_or] at hc
    obtain ⟨-, -, -, huip, hsip, hmip, huie, hsie, hmie⟩ := hc
    rw [if_neg hmip, if_neg huip, if_neg hsip, if_neg hmie, if_neg huie, if_neg hsie]
    exact ⟨rfl, rfl⟩

/-- A write through a mask, bit by bit. -/
theorem getLsbD_masked {m v mask : BitVec 64} {k : Nat} (hk : k < 64) :
    ((m &&& ~~~mask) ||| (v &&& mask)).getLsbD k = if mask.getLsbD k then v.getLsbD k else m.getLsbD k := by
  rw [BitVec.getLsbD_or, BitVec.getLsbD_and, BitVec.getLsbD_and, BitVec.getLsbD_not]
  cases mask.getLsbD k <;> simp [hk]

/-- Of the three, `sip` and `sie` show the supervisor timer, and `uip` and
`uie` none. -/
theorem getLsbD_interruptMask {k : Nat} (hk : k ∈ unsupportedCauses) :
    kSipMask.getLsbD k = decide (k = supervisorTimerInterrupt) ∧
      kSieMask.getLsbD k = decide (k = supervisorTimerInterrupt) ∧ kUipMask.getLsbD k = false ∧
      kUieMask.getLsbD k = false := by
  simp only [unsupportedCauses, List.mem_cons, List.not_mem_nil, or_false] at hk
  rcases hk with rfl | rfl | rfl <;> decide

theorem Supported.csrsInstruction {i : Instruction} {csr : BitVec 12} {rd rs1 : BitVec 5} (h : c.Supported)
    (hw : c.SupportedWrite i csr rs1) : (c.csrsInstruction i csr rd rs1).Supported := by
  intro k hk
  have hkeep := h k hk
  obtain ⟨hmip, hmie, hsip, hsie⟩ := hw
  obtain ⟨hsipMask, hsieMask, huipMask, huieMask⟩ := getLsbD_interruptMask hk
  have hk64 : k < 64 := by
    simp only [unsupportedCauses, List.mem_cons, List.not_mem_nil, or_false] at hk
    rcases hk with rfl | rfl | rfl <;> decide
  obtain ⟨hp, he⟩ := csrsInstruction_mip_mie (c := c) i csr rd rs1
  rw [interruptStatus, hp, he]
  rw [interruptStatus] at hkeep
  generalize c.csrValue i (c.csrs csr) rs1 = v at hmip hmie hsip hsie ⊢
  by_cases h₁ : csr = Csr.mip
  · subst h₁
    exact hmip rfl k hk
  by_cases h₂ : csr = Csr.mie
  · subst h₂
    exact hmie rfl k hk
  by_cases h₃ : csr = Csr.sip
  · subst h₃
    rw [if_neg (by decide), if_neg (by decide), if_pos rfl, if_neg (by decide), if_neg (by decide), if_neg (by decide),
      BitVec.getLsbD_and, getLsbD_masked hk64, hsipMask]
    by_cases h5 : k = supervisorTimerInterrupt
    · subst h5
      simpa using hsip rfl
    · simpa [h5] using hkeep
  by_cases h₄ : csr = Csr.sie
  · subst h₄
    rw [if_neg (by decide), if_neg (by decide), if_neg (by decide), if_neg (by decide), if_neg (by decide), if_pos rfl,
      BitVec.getLsbD_and, getLsbD_masked hk64, hsieMask]
    by_cases h5 : k = supervisorTimerInterrupt
    · subst h5
      simpa using hsie rfl
    · simpa [h5] using hkeep
  rw [if_neg h₁, if_neg h₂, if_neg h₃, if_neg h₄, BitVec.getLsbD_and]
  rw [BitVec.getLsbD_and] at hkeep
  -- What is left are the views of user mode, which show none of the three.
  have hp' : (if csr = Csr.uip then (c.mip &&& ~~~kUipMask) ||| (v &&& kUipMask) else c.mip).getLsbD k =
      c.mip.getLsbD k := by
    split
    · simp [getLsbD_masked hk64, huipMask]
    · rfl
  have he' : (if csr = Csr.uie then (c.mie &&& ~~~kUieMask) ||| (v &&& kUieMask) else c.mie).getLsbD k =
      c.mie.getLsbD k := by
    split
    · simp [getLsbD_masked hk64, huieMask]
    · rfl
  rw [hp', he', hkeep]

/-- What a trap does to the pending and enable bits. -/
theorem trapBody_mip_mie (cause : Nat) (interrupt : Bool) :
    ((c.trapBody cause interrupt).mip = c.mip ∨ (c.trapBody cause interrupt).mip = bitset c.mip 1 cause 0) ∧
      (c.trapBody cause interrupt).mie = c.mie := by
  have hleave : ∀ c : RiscvCpu, ((c.leaveTrap cause interrupt).mip = c.mip ∨
      (c.leaveTrap cause interrupt).mip = bitset c.mip 1 cause 0) ∧ (c.leaveTrap cause interrupt).mie = c.mie := by
    intro c
    unfold leaveTrap clearInterruptPending applyInterruptPending applyMstatusToCsr setCsr
    dsimp only
    split
    · exact ⟨.inr rfl, rfl⟩
    · exact ⟨.inl rfl, rfl⟩
  have hsup : ∀ (c : RiscvCpu) sie, (c.trapToSupervisor cause interrupt sie).mip = c.mip ∧
      (c.trapToSupervisor cause interrupt sie).mie = c.mie := by
    intro c sie
    unfold trapToSupervisor applyMstatusToCsr setCsr
    exact ⟨rfl, rfl⟩
  have hmac : ∀ (c : RiscvCpu) mie, (c.trapToMachine cause interrupt mie).mip = c.mip ∧
      (c.trapToMachine cause interrupt mie).mie = c.mie := by
    intro c mie
    unfold trapToMachine applyMstatusToCsr setCsr
    exact ⟨rfl, rfl⟩
  have henter : (c.enterTrap cause interrupt).status = c.status := enterTrap_status
  have hp : (c.enterTrap cause interrupt).mip = c.mip := congrArg Status.mip henter
  have he : (c.enterTrap cause interrupt).mie = c.mie := congrArg Status.mie henter
  cases hd : c.svDelegation cause interrupt with
  | true =>
    have h := hleave ((c.enterTrap cause interrupt).trapToSupervisor cause interrupt c.globalSie)
    rwa [(hsup _ _).1, (hsup _ _).2, hp, he, ← trapBody_of_supervisor hd] at h
  | false =>
    have h := hleave ((c.enterTrap cause interrupt).trapToMachine cause interrupt c.globalMie)
    rwa [(hmac _ _).1, (hmac _ _).2, hp, he, ← trapBody_of_machine hd] at h

theorem Supported.of_eq (h : c.Supported)
    (hp : ∀ k ∈ unsupportedCauses, c'.mip.getLsbD k = true → c.mip.getLsbD k = true)
    (he : c'.mie = c.mie) : c'.Supported := by
  intro k hk
  have hkeep := h k hk
  rw [interruptStatus, BitVec.getLsbD_and] at hkeep ⊢
  rw [he]
  cases hb : c'.mip.getLsbD k with
  | false => rfl
  | true => rwa [hp k hk hb] at hkeep

theorem Supported.trapBody {cause : Nat} {interrupt : Bool} (h : c.Supported) :
    (c.trapBody cause interrupt).Supported := by
  obtain ⟨hp | hp, he⟩ := trapBody_mip_mie (c := c) cause interrupt
  · exact h.of_eq (fun k _ hb => by rwa [hp] at hb) he
  · refine h.of_eq (fun k _ hb => ?_) he
    have hzero : ∀ x (n : Nat), ((0 : BitVec 64) &&& x) <<< n = 0#64 := by
      intro x n
      simp
    rw [hp, bitset] at hb
    simp only [BitVec.setWidth_eq, hzero, BitVec.or_zero, BitVec.getLsbD_and, Bool.and_eq_true] at hb
    exact hb.1

theorem supportedInvariant : StatusInvariant Supported SupportedWrite where
  of_status := by
    intro c c' h hs
    have hp : c'.mip = c.mip := congrArg Status.mip hs
    exact h.of_eq (fun k _ hb => by rwa [hp] at hb) (congrArg Status.mie hs)
  setInterruptPending := by
    intro c cause hc h
    refine h.of_eq (fun k hk hb => ?_) rfl
    -- The devices post the machine timer and the supervisor external interrupt.
    have hne : k ≠ cause ∧ cause < 64 := by
      simp only [unsupportedCauses, List.mem_cons, List.not_mem_nil, or_false] at hk
      rcases hk with rfl | rfl | rfl <;> rcases hc with rfl | rfl <;> decide
    change (bitset c.mip 1 cause 1).getLsbD k = true at hb
    rwa [getLsbD_bitset_of_outside _ _ (by omega) (by decide) (by omega)] at hb
  trapBody h := h.trapBody
  csrsInstruction hw h := h.csrsInstruction hw
  mret h hr := by
    obtain ⟨p, -, hr⟩ := Except.bind_ok_iff.mp hr
    cases hr
    exact h.of_eq (fun _ _ hb => hb) rfl
  sret h hr := by
    obtain ⟨p, -, hr⟩ := Except.bind_ok_iff.mp hr
    cases hr
    exact h.of_eq (fun _ _ hb => hb) rfl

theorem Booted.supported {s : RiscvCpu} (hs : Booted s) : s.Supported := by
  obtain ⟨en64bit, misa64, hs⟩ := hs
  refine supportedInvariant.of_status (fun k _ => ?_) hs
  have hmip : (new en64bit misa64).mip = 0 := by cases en64bit <;> rfl
  rw [interruptStatus, hmip]
  simp

/-- The cause that `CheckPendingInterrupt` passes to `Trap`. -/
def pendingCause (c : RiscvCpu) : Option Nat :=
  if c.globalSie ∧ c.interruptStatus.getLsbD 1 then some supervisorSoftwareInterrupt
  else if c.globalMie ∧ c.interruptStatus.getLsbD 3 then some machineSoftwareInterrupt
  else if c.globalSie ∧ c.interruptStatus.getLsbD 5 then some supervisorTimerInterrupt
  else if c.globalMie ∧ c.interruptStatus.getLsbD 7 then some machineTimerInterrupt
  else if c.globalSie ∧ c.interruptStatus.getLsbD 9 then some supervisorExternalInterrupt
  else if c.globalMie ∧ c.interruptStatus.getLsbD 11 then some machineExternalInterrupt
  else none

theorem checkPendingInterrupt_pendingCause : c.checkPendingInterrupt =
    match c.pendingCause with
    | some cause => (true, ·) <$> c.trap cause true
    | none => .ok (false, c) := by
  rw [checkPendingInterrupt_eq]
  unfold pendingCause
  split_ifs <;> rfl

theorem Supported.trapAccepts {cause : Nat} (h : c.Supported) (hp : c.pendingCause = some cause) :
    RiscvCpu.trapAccepts cause true = true := by
  have h3 : c.interruptStatus.getLsbD 3 = false := h machineSoftwareInterrupt (by decide)
  have h5 : c.interruptStatus.getLsbD 5 = false := h supervisorTimerInterrupt (by decide)
  have h11 : c.interruptStatus.getLsbD 11 = false := h machineExternalInterrupt (by decide)
  unfold pendingCause at hp
  simp only [h3, h5, h11, Bool.false_eq_true, and_false, if_false] at hp
  split_ifs at hp <;> cases hp <;> decide

theorem timerTick_returns (c : RiscvCpu) : ∃ c', c.timerTick = .ok c' := by
  have hp : ∃ p, c.peripheral.timerTick c.memory = .ok p := by
    unfold PeripheralEmulator.timerTick
    rw [MemoryWrapper.read64_eq _ (by decide)]
    cases c.peripheral.timercmpUpdate <;> exact ⟨_, rfl⟩
  obtain ⟨p, hp⟩ := hp
  rw [timerTick, hp, Except.ok_bind]
  split <;> exact ⟨_, rfl⟩

/-- The check for interrupts returns if `Trap` accepts what it raises. -/
theorem checkPendingInterrupt_returns (h : ∀ cause, c.pendingCause = some cause → trapAccepts cause true = true) :
    ∃ r, c.checkPendingInterrupt = .ok r := by
  rw [checkPendingInterrupt_pendingCause]
  cases hp : c.pendingCause with
  | none => exact ⟨_, rfl⟩
  | some cause =>
    dsimp only
    rw [trap_eq (h cause hp)]
    exact ⟨_, rfl⟩

/-- A check that takes no interrupt calls no trap. -/
theorem interruptStage_trapLog (h : c.interruptStage = .ok (false, c')) : c'.trapLog = c.trapLog := by
  obtain ⟨c₀, p, -, -, hd, ⟨-, rfl⟩ | ⟨hf, -⟩⟩ := interruptStage_ok h
  · exact congrArg Data.trapLog hd
  · cases hf

/-- The calls of `Trap` in a round from `c`: for a pending interrupt
(`checkPendingInterrupt_pendingCause`), for a fault of the fetch
(`step_fetch_call`), by `ECALL` (`ecall_eq`), by a load (`loadInstruction_call`)
and by a store (`storeInstruction_call`). -/
inductive TrapCall (c : RiscvCpu) : Nat → Bool → Prop
  | interrupt {c₁ : RiscvCpu} {cause : Nat} (tick : { c with pc := c.nextPc }.timerTick = .ok c₁)
      (pending : c₁.interruptCheck.pendingCause = some cause) : TrapCall c cause true
  | fetch {c₁ c₂ : RiscvCpu} (head : c.interruptStage = .ok (false, c₁)) (fetch : c₁.fetchStage = .ok c₂)
      (fault : c₂.pageFault = true) : TrapCall c instructionPageFault false
  | ecall {c₂ : RiscvCpu} (fetched : c.Fetches c₂) (system : (decode c₂.ir c₂.mxl).instruction = .system)
      (imm : (decode c₂.ir c₂.mxl).imm = 0) (trapped : c₂.ecallEmulation = false) :
      TrapCall c (ecallCause c₂.privilege) false
  | load {c₂ : RiscvCpu} {w : Nat} (fetched : c.Fetches c₂)
      (load : getLoadWidth (decode c₂.ir c₂.mxl).instruction = .ok w) : TrapCall c loadPageFault false
  | store {c₂ : RiscvCpu} {w : Nat} (fetched : c.Fetches c₂)
      (store : getStoreWidth (decode c₂.ir c₂.mxl).instruction = .ok w) : TrapCall c storePageFault false

/-- The call in the fetch path of a round. -/
theorem step_fetch_call {c₁ c₂ : RiscvCpu} (head : c.interruptStage = .ok (false, c₁)) (fetch : c₁.fetchStage = .ok c₂)
    (fault : c₂.pageFault = true) : c.step host = c₂.trap instructionPageFault false := by
  rw [step, head, Except.ok_bind]
  dsimp only
  rw [if_neg Bool.false_ne_true, fetch, Except.ok_bind, if_pos fault, trap_eq (by decide)]

/-- A trap that an instruction takes is by one of the calls. -/
theorem trapCall_of_effect {c₂ : RiscvCpu} {cause : Nat} {interrupt : Bool} (fetched : c.Fetches c₂)
    (h : Effect c₂.decodeStage host (decode c₂.ir c₂.mxl) (getCsr c₂.ir) c')
    (hlog : c'.trapLog = (cause, interrupt) :: c₂.trapLog) : c.TrapCall cause interrupt := by
  have hno : c'.trapLog ≠ c₂.trapLog := hlog ▸ List.cons_ne_self _ _
  have hcall : ∀ {cause' : Nat} (c₀ : RiscvCpu), c₀.trapLog = c₂.trapLog → c' = c₀.trapBody cause' false →
      cause = cause' ∧ interrupt = false := by
    rintro cause' c₀ h₀ rfl
    rw [trapBody_trapLog, h₀] at hlog
    cases hlog
    exact ⟨rfl, rfl⟩
  cases h with
  | write v kept => exact absurd (congrArg Control.trapLog kept.control) hno
  | quiet kept => exact absurd (congrArg Control.trapLog kept.control) hno
  | fault cause' _ trap site =>
    obtain ⟨c₀, kept, -, -, htrap⟩ := trap
    obtain ⟨rfl, rfl⟩ := hcall c₀ (congrArg Control.trapLog kept.control :) htrap
    rcases site with ⟨rfl, w, hw⟩ | ⟨rfl, w, hw⟩
    · exact .load fetched hw
    · exact .store fetched hw
  | ecall cause' _ trap site =>
    obtain ⟨rfl, rfl⟩ := hcall c₂.decodeStage rfl trap
    obtain ⟨hi, himm, he, rfl⟩ := site
    have hc : c.TrapCall (ecallCause c₂.privilege) false := .ecall fetched hi himm he
    exact hc
  | call _ _ call =>
    obtain ⟨r, -, call⟩ := Except.bind_ok_iff.mp call
    cases call
    exact absurd rfl hno
  | csrs _ csrs =>
    subst csrs
    exact absurd (congrArg Data.trapLog (csrsInstruction_data _ _ _ _)) hno
  | mret _ _ hr => exact absurd (congrArg Data.trapLog (mret_data hr)) hno
  | sret _ _ hr => exact absurd (congrArg Data.trapLog (sret_data hr)) hno

/-- A round that returns has trapped by one of the calls, or not at all. -/
theorem trapCall_of_step {cause : Nat} {interrupt : Bool} (h : c.step host = .ok c')
    (hlog : c'.trapLog = (cause, interrupt) :: c.trapLog) : c.TrapCall cause interrupt := by
  cases step_round h with
  | interrupt taken =>
    obtain ⟨c₁, tick, hcheck⟩ := Except.bind_ok_iff.mp taken
    have hl : c₁.interruptCheck.trapLog = c.trapLog := by
      obtain ⟨-, p, -, hd⟩ := timerTick_data tick
      exact congrArg Data.trapLog (interruptCheck_data.1.trans hd)
    rw [checkPendingInterrupt_pendingCause] at hcheck
    cases hp : c₁.interruptCheck.pendingCause with
    | none =>
      rw [hp] at hcheck
      cases hcheck
    | some cause' =>
      rw [hp] at hcheck
      dsimp only at hcheck
      cases htrap : c₁.interruptCheck.trap cause' true with
      | error e =>
        rw [htrap] at hcheck
        cases hcheck
      | ok c₂ =>
        rw [htrap] at hcheck
        cases hcheck
        obtain ⟨-, rfl⟩ := trap_ok_iff.mp htrap
        rw [trapBody_trapLog, hl] at hlog
        cases hlog
        exact .interrupt tick hp
  | fetchFault c₁ c₂ head fetch fault trap =>
    subst trap
    have hl₂ : c₂.trapLog = c₁.trapLog := congrArg Control.trapLog (fetchStage_ok fetch).1.control
    rw [trapBody_trapLog, hl₂, interruptStage_trapLog head] at hlog
    cases hlog
    exact .fetch head fetch fault
  | execute c₁ c₂ c₃ head fetch pageFault execute finish =>
    obtain ⟨p, m, -, -, hfin⟩ := finishStage_ok finish
    have hl₂ : c₂.trapLog = c₁.trapLog := congrArg Control.trapLog (fetchStage_ok fetch).1.control
    have hl₃ : c'.trapLog = c₃.trapLog := congrArg Control.trapLog hfin.control
    refine trapCall_of_effect ⟨c₁, head, fetch, pageFault⟩ (executeStage_effect pageFault execute) ?_
    rw [← hl₃, hlog, hl₂, interruptStage_trapLog head]

/-- **The assertion of `Trap`.** In a run from the constructor's status in
which no CSR instruction makes an interrupt both pending and enabled that
`Trap` does not know, every call of `Trap` meets its assertion; so the check
for interrupts returns in every state reached. -/
theorem trapCalls_run (s t : RiscvCpu) (hs : Booted s) (h : Run.Steps step (CsrWrite SupportedWrite) s t) :
    (∀ cause interrupt, t.TrapCall cause interrupt → trapAccepts cause interrupt = true) ∧
      ∃ r, t.interruptStage = .ok r := by
  have ht : t.Supported := supportedInvariant.run hs.supported h
  have haccept : ∀ cause interrupt, t.TrapCall cause interrupt → trapAccepts cause interrupt = true := by
    intro cause interrupt hc
    cases hc with
    | interrupt tick pending => exact (supportedInvariant.ticked ht tick).trapAccepts pending
    | fetch => decide
    | @ecall c₂ =>
      cases c₂.privilege <;> decide
    | load => decide
    | store => decide
  obtain ⟨c₁, h₁⟩ := timerTick_returns { t with pc := t.nextPc }
  obtain ⟨r, hr⟩ := checkPendingInterrupt_returns fun cause hc => haccept cause true (.interrupt h₁ hc)
  exact ⟨haccept, r, by rw [interruptStage, h₁]; exact hr⟩

/-- A program that enables an interrupt by the instruction `mie`, makes it
pending by `mip` and lets it in by `csrrwi x0, mstatus, 8`. -/
def raiseInterrupt (mie mip : BitVec 32) : RiscvCpu :=
  (new false 0).setMemory ((((MemoryWrapper.new.assign 0).setWord 0 0 mie).setWord 0 1 mip).setWord 0 2 0x30045073)

/-- Supervisor software interrupts are among those `Trap` knows. -/
theorem trapCalls_run_software :
    (∃ r, (raiseInterrupt 0x30415073 0x34415073).next.next.interruptStage = .ok r) ∧
      (raiseInterrupt 0x30415073 0x34415073).next.next.interruptStatus.getLsbD 1 = true := by
  have hwrite : ∀ c : RiscvCpu, (∀ k ∈ unsupportedCauses, (c.fetched.decodeStage.csrValue
      (decode c.fetched.ir c.fetched.mxl).instruction (c.fetched.decodeStage.csrs (getCsr c.fetched.ir))
      (decode c.fetched.ir c.fetched.mxl).rs1).getLsbD k = false) → CsrWrite SupportedWrite .failing c := by
    intro c hv c₂ hc _
    rw [hc.eq]
    exact .of_value hv
  have hrun : Run.Steps step (CsrWrite SupportedWrite) (raiseInterrupt 0x30415073 0x34415073)
      (raiseInterrupt 0x30415073 0x34415073).next.next :=
    .tail (.tail .refl (hwrite _ (by decide)) (step_next (by decide))) (hwrite _ (by decide))
      (step_next (by decide))
  exact ⟨(trapCalls_run (raiseInterrupt 0x30415073 0x34415073) _ ⟨false, 0, rfl⟩ hrun).2, by decide⟩

/-- Machine software interrupts are not, and the assertion fails. -/
theorem trapCalls_run_aborts :
    Booted (raiseInterrupt 0x30445073 0x34445073) ∧
      Run.Steps step (fun _ _ => True) (raiseInterrupt 0x30445073 0x34445073)
        (raiseInterrupt 0x30445073 0x34445073).next.next.next ∧
      (raiseInterrupt 0x30445073 0x34445073).next.next.next.TrapCall machineSoftwareInterrupt true ∧
      trapAccepts machineSoftwareInterrupt true = false ∧
      (raiseInterrupt 0x30445073 0x34445073).next.next.next.step .failing = .error .assertion := by
  have h₁ := step_next (c := raiseInterrupt 0x30445073 0x34445073) (by decide)
  have h₂ := step_next (c := (raiseInterrupt 0x30445073 0x34445073).next) (by decide)
  have h₃ := step_next (c := (raiseInterrupt 0x30445073 0x34445073).next.next) (by decide)
  refine ⟨⟨false, 0, rfl⟩, .tail (.tail (.tail .refl trivial h₁) trivial h₂) trivial h₃, ?_, rfl,
    step_nextCrash (by decide)⟩
  generalize hc : (raiseInterrupt 0x30445073 0x34445073).next.next.next = c
  obtain ⟨c₁, ht⟩ := timerTick_returns { c with pc := c.nextPc }
  refine .interrupt ht ?_
  have hp : ({ c with pc := c.nextPc }.timerTick.toOption.map fun c₁ : RiscvCpu => c₁.interruptCheck.pendingCause) =
      some (some machineSoftwareInterrupt) := by
    rw [← hc]
    decide
  rw [ht] at hp
  exact Option.some.inj hp

/-! ## What raises the privilege -/

/-- Posting an interrupt changes the pending bits only. -/
theorem setInterruptPending_mode (c : RiscvCpu) (cause : Nat) : (c.setInterruptPending cause).mstatus = c.mstatus ∧
    (c.setInterruptPending cause).privilege = c.privilege ∧ (c.setInterruptPending cause).trapLog = c.trapLog := by
  unfold setInterruptPending applyInterruptEnable setCsr
  exact ⟨rfl, rfl, rfl⟩

/-- So do the checks before an instruction. -/
theorem interruptStage_mode (h : c.interruptStage = .ok (false, c')) :
    c'.mstatus = c.mstatus ∧ c'.privilege = c.privilege ∧ c'.trapLog = c.trapLog := by
  obtain ⟨c₁, ht, h⟩ := Except.bind_ok_iff.mp h
  have h₁ : c₁.mstatus = c.mstatus ∧ c₁.privilege = c.privilege ∧ c₁.trapLog = c.trapLog := by
    obtain ⟨p, -, rfl⟩ := timerTick_ok ht
    split
    · exact setInterruptPending_mode _ _
    · exact ⟨rfl, rfl, rfl⟩
  have hdisk : c₁.diskInterruptCheck.mstatus = c₁.mstatus ∧ c₁.diskInterruptCheck.privilege = c₁.privilege ∧
      c₁.diskInterruptCheck.trapLog = c₁.trapLog := by
    unfold diskInterruptCheck
    split
    · exact setInterruptPending_mode _ _
    · exact ⟨rfl, rfl, rfl⟩
  have huart : ∀ c : RiscvCpu, c.uartInterruptCheck.mstatus = c.mstatus ∧ c.uartInterruptCheck.privilege = c.privilege ∧
      c.uartInterruptCheck.trapLog = c.trapLog := by
    intro c
    unfold uartInterruptCheck
    split
    · exact setInterruptPending_mode _ _
    · exact ⟨rfl, rfl, rfl⟩
  rcases checkPendingInterrupt_ok h with ⟨-, rfl⟩ | ⟨h, -⟩
  · exact ⟨(huart _).1.trans (hdisk.1.trans h₁.1), (huart _).2.1.trans (hdisk.2.1.trans h₁.2.1),
      (huart _).2.2.trans (hdisk.2.2.trans h₁.2.2)⟩
  · cases h

theorem Fetches.mode {c₂ : RiscvCpu} (h : c.Fetches c₂) :
    c₂.mstatus = c.mstatus ∧ c₂.privilege = c.privilege ∧ c₂.trapLog = c.trapLog := by
  obtain ⟨c₁, head, fetch, -⟩ := h
  obtain ⟨hm, hp, hl⟩ := interruptStage_mode head
  have hk := (fetchStage_ok fetch).1.control
  exact ⟨(congrArg Control.mstatus hk).trans hm, (congrArg Control.privilege hk).trans hp,
    (congrArg Control.trapLog hk).trans hl⟩

/-- The round executes a return instruction, to the mode `p`. -/
inductive Returns (c : RiscvCpu) (p : PrivilegeMode) : Prop
  | mret {c₂ : RiscvCpu} (fetched : c.Fetches c₂) (system : (decode c₂.ir c₂.mxl).instruction = .system)
      (imm : (decode c₂.ir c₂.mxl).imm = 0b001100000010) (mode : intToPrivilegeMode (bitcrop c.mstatus 2 11) = .ok p)
  | sret {c₂ : RiscvCpu} (fetched : c.Fetches c₂) (system : (decode c₂.ir c₂.mxl).instruction = .system)
      (imm : (decode c₂.ir c₂.mxl).imm = 0b000100000010) (mode : intToPrivilegeMode (bitcrop c.mstatus 1 8) = .ok p)

/-- A CSR instruction does not change the mode. -/
theorem csrsInstruction_privilege (i : Instruction) (csr : BitVec 12) (rd rs1 : BitVec 5) :
    (c.csrsInstruction i csr rd rs1).privilege = c.privilege := by
  rcases csrsInstruction_cases c i csr rd rs1 with ⟨-, h⟩ | ⟨-, h⟩ | ⟨-, h⟩ | ⟨-, h⟩ <;> rw [h] <;> rfl

/-- The mode after the instruction of a round that takes no trap. -/
theorem effect_privilege {d : Decoded} {csr : BitVec 12} (he : Effect c host d csr c') (ht : c'.trapLog = c.trapLog) :
    c'.privilege = c.privilege ∨ (d.instruction = .system ∧
      ((d.imm = 0b001100000010 ∧ intToPrivilegeMode (bitcrop c.mstatus 2 11) = .ok c'.privilege) ∨
        (d.imm = 0b000100000010 ∧ intToPrivilegeMode (bitcrop c.mstatus 1 8) = .ok c'.privilege))) := by
  cases he with
  | write v hk => exact .inl (congrArg Control.privilege hk.control)
  | quiet hk => exact .inl (congrArg Control.privilege hk.control)
  | fault cause _ hf =>
    obtain ⟨c₀, hk, -, -, rfl⟩ := hf
    rw [trapBody_trapLog, show c₀.trapLog = c.trapLog from congrArg Control.trapLog hk.control] at ht
    exact absurd ht (List.cons_ne_self _ _)
  | ecall cause _ hc =>
    subst hc
    rw [trapBody_trapLog] at ht
    exact absurd ht (List.cons_ne_self _ _)
  | call _ _ hc =>
    obtain ⟨r, -, hc⟩ := Except.bind_ok_iff.mp hc
    cases hc
    exact .inl rfl
  | csrs _ hc =>
    subst hc
    exact .inl (csrsInstruction_privilege _ _ _ _)
  | mret hi himm hr =>
    obtain ⟨p, hp, hr⟩ := Except.bind_ok_iff.mp hr
    cases hr
    exact .inr ⟨hi, .inl ⟨himm, hp⟩⟩
  | sret hi himm hr =>
    obtain ⟨p, hp, hr⟩ := Except.bind_ok_iff.mp hr
    cases hr
    exact .inr ⟨hi, .inr ⟨himm, hp⟩⟩

/-- The mode after a round that takes no trap. -/
theorem step_privilege (h : c.step host = .ok c') (ht : c'.trapLog = c.trapLog) :
    c'.privilege = c.privilege ∨ c.Returns c'.privilege := by
  cases step_round h with
  | interrupt taken =>
    obtain ⟨c₀, p, -, -, hd, ⟨hf, -⟩ | ⟨-, cause, rfl⟩⟩ := interruptStage_ok taken
    · cases hf
    · rw [trapBody_trapLog, show c₀.trapLog = c.trapLog from congrArg Data.trapLog hd] at ht
      exact absurd ht (List.cons_ne_self _ _)
  | fetchFault c₁ c₂ head fetch _ trap =>
    subst trap
    rw [trapBody_trapLog, show c₂.trapLog = c₁.trapLog from congrArg Control.trapLog (fetchStage_ok fetch).1.control,
      (interruptStage_mode head).2.2] at ht
    exact absurd ht (List.cons_ne_self _ _)
  | execute c₁ c₂ c₃ head fetch pageFault execute finish =>
    have hf : c.Fetches c₂ := ⟨c₁, head, fetch, pageFault⟩
    obtain ⟨hm, hp, hl⟩ := hf.mode
    obtain ⟨p, m, -, -, hfin⟩ := finishStage_ok finish
    have hp₃ : c'.privilege = c₃.privilege := congrArg Control.privilege hfin.control
    have hl₃ : c'.trapLog = c₃.trapLog := congrArg Control.trapLog hfin.control
    have ht₃ : c₃.trapLog = c₂.decodeStage.trapLog := hl₃.symm.trans (ht.trans hl.symm)
    rw [hp₃]
    rcases effect_privilege (executeStage_effect pageFault execute) ht₃ with h | ⟨hi, ⟨himm, hmode⟩ | ⟨himm, hmode⟩⟩
    · exact .inl (h.trans hp)
    · exact .inr (.mret hf hi himm (by rw [← hm]; exact hmode))
    · exact .inr (.sret hf hi himm (by rw [← hm]; exact hmode))

theorem execute_mret {d : Decoded} {csr : BitVec 12} (hi : d.instruction = .system) (himm : d.imm = 0b001100000010) :
    c.execute host d csr = c.mret := by
  simp only [execute, hi, systemInstruction, himm]
  rfl

theorem execute_sret {d : Decoded} {csr : BitVec 12} (hi : d.instruction = .system) (himm : d.imm = 0b000100000010) :
    c.execute host d csr = c.sret := by
  simp only [execute, hi, systemInstruction, himm]
  rfl

/-- A round that fetches goes on to the `switch`, and its end keeps the mode. -/
theorem Fetches.executeStage {c₂ : RiscvCpu} (hf : c.Fetches c₂) (h : c.step host = .ok c') :
    ∃ c₃, c₂.executeStage host = .ok c₃ ∧ c'.privilege = c₃.privilege := by
  rw [hf.step_eq host] at h
  obtain ⟨c₃, h₃, h⟩ := Except.bind_ok_iff.mp h
  obtain ⟨p, m, -, -, hfin⟩ := finishStage_ok h
  exact ⟨c₃, h₃, congrArg Control.privilege hfin.control⟩

/-- A return sets the mode. -/
theorem Returns.privilege {p : PrivilegeMode} (hr : c.Returns p) (h : c.step host = .ok c') : c'.privilege = p := by
  cases hr with
  | @mret c₂ hf hi himm hmode =>
    obtain ⟨c₃, h₃, hp⟩ := hf.executeStage h
    rw [RiscvCpu.executeStage, execute_mret hi himm] at h₃
    rw [← hf.mode.1] at hmode
    obtain ⟨c₄, h₄, hp₄, -⟩ := mret_eq (c := c₂.decodeStage) hmode
    cases h₃.symm.trans h₄
    exact hp.trans hp₄
  | @sret c₂ hf hi himm hmode =>
    obtain ⟨c₃, h₃, hp⟩ := hf.executeStage h
    rw [RiscvCpu.executeStage, execute_sret hi himm] at h₃
    rw [← hf.mode.1] at hmode
    obtain ⟨c₄, h₄, hp₄, -⟩ := sret_eq (c := c₂.decodeStage) hmode
    cases h₃.symm.trans h₄
    exact hp.trans hp₄

/-- **Rises of the privilege.** In a round without a trap the privilege rises
exactly when a return instruction is executed, in whatever mode, whose saved
mode is a higher one. -/
theorem privilege_rises_iff (c c' : RiscvCpu) (host : Host) (h : c.step host = .ok c') (ht : c'.trapLog = c.trapLog) :
    rank c.privilege < rank c'.privilege ↔ ∃ p, c.Returns p ∧ rank c.privilege < rank p := by
  constructor
  · intro hlt
    rcases step_privilege h ht with he | hr
    · rw [he] at hlt
      exact absurd hlt (Nat.lt_irrefl _)
    · exact ⟨c'.privilege, hr, hlt⟩
  · rintro ⟨p, hr, hlt⟩
    rw [hr.privilege h]
    exact hlt

/-- User mode at an `MRET`, with MPP left at machine mode. -/
def userMret : RiscvCpu :=
  { (new false 0).setMemory ((MemoryWrapper.new.assign 0).setWord 0 0 0x30200073) with
    privilege := .userMode, mstatus := 0x1800 }

theorem privilege_rises_user : rank userMret.privilege < rank userMret.next.privilege := by
  have hf : userMret.Fetches userMret.fetched := fetches_fetched (by decide)
  have hr : userMret.Returns .machineMode :=
    .mret hf (by decide) (by decide) (by rfl)
  exact (privilege_rises_iff userMret _ .failing (step_next (by decide)) (by decide)).mpr
    ⟨.machineMode, hr, by decide⟩

/-- The mode rises, and there is no trap. -/
theorem privilege_rises_untrapped :
    userMret.step .failing = .ok userMret.next ∧ userMret.next.trapLog = userMret.trapLog ∧
      ¬ rank userMret.next.privilege ≤ rank userMret.privilege :=
  ⟨step_next (by decide), by decide, by decide⟩

end RiscvCpu

end RiscvEmulator
