/-
The CSR instructions.

The ways through one are taken apart once (`csrsInstruction_cases`).
`Zicsr.value` is the specification: the new value of a CSR, from the old one
and the operand. On a CSR that is not a view of another register,
`csrsInstruction_iff` says when an instruction writes that value, gives the
old one to `rd` and changes nothing else: always, but for a CSRRCI on a
value with a bit in its upper half, which the complement of a 32-bit
operand clears.
-/
import RiscvEmulator.Cpu

namespace RiscvEmulator

/-! ## The specification -/

namespace Zicsr

/-- The operand: the register `rs1`, or its number as a five-bit immediate. -/
def operand (reg : RegisterFile) (instruction : Instruction) (rs1 : BitVec 5) : BitVec 64 :=
  match instruction with
  | .csrrwi | .csrrsi | .csrrci => rs1.setWidth 64
  | _ => reg rs1

/-- The value written over `t`; `none` for what is not a CSR instruction. -/
def value (instruction : Instruction) (t operand : BitVec 64) : Option (BitVec 64) :=
  match instruction with
  | .csrrw | .csrrwi => some operand
  | .csrrs | .csrrsi => some (t ||| operand)
  | .csrrc | .csrrci => some (t &&& ~~~operand)
  | _ => none

end Zicsr

namespace RiscvCpu

/-- The CSRs whose writes are passed on to `mstatus_`, `mip_` and `mie_`. -/
def statusCsrs : List (BitVec 12) :=
  [Csr.ustatus, Csr.sstatus, Csr.mstatus, Csr.uip, Csr.sip, Csr.mip, Csr.uie, Csr.sie, Csr.mie]

/-! ## What the code writes -/

/-- The array and `rd` after a CSR instruction, before a write is passed on. -/
def csrsWritten (c : RiscvCpu) (instruction : Instruction) (csr : BitVec 12) (rd rs1 : BitVec 5) : RiscvCpu :=
  (c.setCsr csr (c.csrValue instruction (c.csrs csr) rs1)).setReg rd (c.csrs csr)

/-- What a write of `v` is passed on as to `mstatus_`, `mip_` and `mie_`. -/
def mstatusWrite (c : RiscvCpu) (csr : BitVec 12) (v : BitVec 64) : BitVec 64 :=
  if csr = Csr.ustatus then (c.mstatus &&& ~~~c.ustatusMask) ||| (v &&& c.ustatusMask)
  else if csr = Csr.sstatus then (c.mstatus &&& ~~~c.sstatusMask) ||| (v &&& c.sstatusMask)
  else v

def mipWrite (c : RiscvCpu) (csr : BitVec 12) (v : BitVec 64) : BitVec 64 :=
  if csr = Csr.uip then (c.mip &&& ~~~kUipMask) ||| (v &&& kUipMask)
  else if csr = Csr.sip then (c.mip &&& ~~~kSipMask) ||| (v &&& kSipMask)
  else v

def mieWrite (c : RiscvCpu) (csr : BitVec 12) (v : BitVec 64) : BitVec 64 :=
  if csr = Csr.uie then (c.mie &&& ~~~kUieMask) ||| (v &&& kUieMask)
  else if csr = Csr.sie then (c.mie &&& ~~~kSieMask) ||| (v &&& kSieMask)
  else v

/-- The ways through a CSR instruction: a write to a view is passed on to the
register, of which all views are written again. -/
theorem csrsInstruction_cases (c : RiscvCpu) (i : Instruction) (csr : BitVec 12) (rd rs1 : BitVec 5) :
    ((csr = Csr.ustatus ∨ csr = Csr.sstatus ∨ csr = Csr.mstatus) ∧ c.csrsInstruction i csr rd rs1 =
      { c.csrsWritten i csr rd rs1 with
        mstatus := c.hardwireMstatus (c.mstatusWrite csr (c.csrValue i (c.csrs csr) rs1)) }.applyMstatusToCsr) ∨
    ((csr = Csr.uip ∨ csr = Csr.sip ∨ csr = Csr.mip) ∧ c.csrsInstruction i csr rd rs1 =
      { c.csrsWritten i csr rd rs1 with mip := c.mipWrite csr (c.csrValue i (c.csrs csr) rs1) }.applyInterruptPending) ∨
    ((csr = Csr.uie ∨ csr = Csr.sie ∨ csr = Csr.mie) ∧ c.csrsInstruction i csr rd rs1 =
      { c.csrsWritten i csr rd rs1 with mie := c.mieWrite csr (c.csrValue i (c.csrs csr) rs1) }.applyInterruptEnable) ∨
    (csr ∉ statusCsrs ∧ c.csrsInstruction i csr rd rs1 = c.csrsWritten i csr rd rs1) := by
  unfold csrsInstruction csrsWritten
  dsimp only
  generalize c.csrValue i (c.csrs csr) rs1 = v
  generalize c.csrs csr = t
  by_cases hs : csr = Csr.ustatus ∨ csr = Csr.sstatus ∨ csr = Csr.mstatus
  · refine .inl ⟨hs, ?_⟩
    rcases hs with rfl | rfl | rfl <;> rfl
  by_cases hp : csr = Csr.uip ∨ csr = Csr.sip ∨ csr = Csr.mip
  · refine .inr (.inl ⟨hp, ?_⟩)
    rcases hp with rfl | rfl | rfl <;> rfl
  by_cases he : csr = Csr.uie ∨ csr = Csr.sie ∨ csr = Csr.mie
  · refine .inr (.inr (.inl ⟨he, ?_⟩))
    rcases he with rfl | rfl | rfl <;> rfl
  refine .inr (.inr (.inr ⟨?_, ?_⟩))
  · simp only [not_or] at hs hp he
    simp only [statusCsrs, List.mem_cons, List.not_mem_nil, or_false, not_or]
    exact ⟨hs.1, hs.2.1, hs.2.2, hp.1, hp.2.1, hp.2.2, he⟩
  · rw [updateStatus, if_neg hs, if_neg hp, if_neg he]

variable {c : RiscvCpu} {instruction : Instruction} {csr : BitVec 12} {rd rs1 : BitVec 5}

theorem csrsInstruction_of_other (h : csr ∉ statusCsrs) : c.csrsInstruction instruction csr rd rs1 =
    (c.setCsr csr (c.csrValue instruction (c.csrs csr) rs1)).setReg rd (c.csrs csr) := by
  rcases csrsInstruction_cases c instruction csr rd rs1 with ⟨hc, -⟩ | ⟨hc, -⟩ | ⟨hc, -⟩ | ⟨-, he⟩
  · exact absurd (by rcases hc with rfl | rfl | rfl <;> decide) h
  · exact absurd (by rcases hc with rfl | rfl | rfl <;> decide) h
  · exact absurd (by rcases hc with rfl | rfl | rfl <;> decide) h
  · exact he

/-- A mask of 32 bits keeps what the same mask of 64 bits keeps of a value
without upper half, and of no other. -/
theorem and_not_narrow_iff {m : BitVec 32} (t : BitVec 64) :
    t &&& (~~~m).setWidth 64 = t &&& ~~~(m.setWidth 64) ↔ t >>> 32 = 0#64 := by
  have hbit : ∀ i < 64, (t &&& (~~~m).setWidth 64).getLsbD i = (decide (i < 32) && (t.getLsbD i && !m.getLsbD i)) := by
    intro i hi
    rw [BitVec.getLsbD_and, BitVec.getLsbD_setWidth, BitVec.getLsbD_not]
    simp only [hi, decide_true, Bool.true_and]
    cases decide (i < 32) <;> simp
  have hbit' : ∀ i < 64, (t &&& ~~~(m.setWidth 64)).getLsbD i = (t.getLsbD i && !m.getLsbD i) := by
    intro i hi
    rw [BitVec.getLsbD_and, BitVec.getLsbD_not, BitVec.getLsbD_setWidth]
    simp only [hi, decide_true, Bool.true_and]
  constructor
  · intro h
    apply BitVec.eq_of_getLsbD_eq
    intro i hi
    rw [BitVec.getLsbD_ushiftRight, BitVec.getLsbD_zero]
    by_cases hlt : 32 + i < 64
    · have he := congrArg (·.getLsbD (32 + i)) h
      simp only [hbit _ hlt, hbit' _ hlt, show ¬ 32 + i < 32 by omega, decide_false, Bool.false_and,
        BitVec.getLsbD_of_ge m (32 + i) (by omega), Bool.not_false, Bool.and_true] at he
      exact he.symm
    · exact BitVec.getLsbD_of_ge t _ (by omega)
  · intro h
    apply BitVec.eq_of_getLsbD_eq
    intro i hi
    rw [hbit i hi, hbit' i hi]
    by_cases hlt : i < 32
    · simp [hlt]
    · have hz := congrArg (·.getLsbD (i - 32)) h
      simp only [BitVec.getLsbD_ushiftRight, BitVec.getLsbD_zero, show 32 + (i - 32) = i by omega] at hz
      simp [hlt, hz]

/-- The value the code writes is the specification's, but for CSRRCI. -/
theorem csrValue_iff {t v : BitVec 64} (hv : Zicsr.value instruction t (Zicsr.operand c.reg instruction rs1) = some v) :
    c.csrValue instruction t rs1 = v ↔ (instruction = .csrrci → t >>> 32 = 0#64) := by
  cases instruction <;> try (cases hv; done)
  all_goals cases hv
  case csrrci =>
    have hz : (rs1.setWidth 64 : BitVec 64) = (rs1.setWidth 32).setWidth 64 := by
      apply BitVec.eq_of_toNat_eq
      rw [BitVec.toNat_setWidth_of_le (by decide), BitVec.toNat_setWidth_of_le (by decide),
        BitVec.toNat_setWidth_of_le (by decide)]
    simp only [csrValue, Zicsr.operand, true_imp_iff, hz]
    exact and_not_narrow_iff t
  all_goals simp [csrValue, Zicsr.operand]

/-- **The CSR instructions.** On a CSR that is not a view, an instruction
writes the specification's value, gives the old one to `rd` and changes
nothing else, unless it is CSRRCI and the old value has a bit above the low
32. `rd` and `rs1` may be the same. -/
theorem csrsInstruction_iff (c : RiscvCpu) (instruction : Instruction) (csr : BitVec 12) (rd rs1 : BitVec 5)
    (v : BitVec 64) (hcsr : csr ∉ statusCsrs)
    (hv : Zicsr.value instruction (c.csrs csr) (Zicsr.operand c.reg instruction rs1) = some v) :
    c.csrsInstruction instruction csr rd rs1 =
        { c with csrs := Function.update c.csrs csr v, reg := Function.update c.reg rd (c.csrs csr) } ↔
      (instruction = .csrrci → c.csrs csr >>> 32 = 0#64) := by
  rw [csrsInstruction_of_other hcsr, ← csrValue_iff hv]
  constructor
  · intro h
    have := congrArg (fun c' => c'.csrs csr) h
    simpa only [setReg, setCsr, Function.update_self] using this
  · intro h
    rw [h]
    rfl

/-- CSRRC with one register for both operands. -/
theorem csrsInstruction_iff_same : ((new true 7).setReg x1 3).csrsInstruction .csrrc Csr.misa x1 x1 =
    { (new true 7).setReg x1 3 with
      csrs := Function.update ((new true 7).setReg x1 3).csrs Csr.misa 4
      reg := Function.update ((new true 7).setReg x1 3).reg x1 7 } :=
  (csrsInstruction_iff ((new true 7).setReg x1 3) .csrrc Csr.misa x1 x1 4 (by decide) (by decide)).mpr (by decide)

/-- CSRRCI of MEPC with the immediate 1: bit 32 is cleared too. -/
theorem csrrci_clears_upper :
    (((new true 0).setCsr Csr.mepc 0x100000003).csrsInstruction .csrrci Csr.mepc x1 1).csrs Csr.mepc = 2 ∧
      Zicsr.value .csrrci 0x100000003 1 = some 0x100000002 := by
  exact ⟨rfl, rfl⟩

end RiscvCpu

end RiscvEmulator
