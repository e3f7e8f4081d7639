/-
Which illegal encodings the decoders reject.

`GetCode32` is not given the mode and takes every word of 64-bit mode, and
besides the words of `Rv.loose`, which are legal in neither mode
(`getCode32_covers`). `GetCode16` looks at the mode for `c.jal` alone and
takes the parcels of `Rvc.loose` (`unchecked_parcel`). What remains is
rejected (`illegal_rejected`).
-/
import RiscvEmulator.CompressedFacts
import RiscvEmulator.Legal
import RiscvEmulator.RoundFacts

namespace RiscvEmulator

/-! ## What is not checked -/

namespace Rv

section

variable (funct3 : BitVec 3) (funct7 : BitVec 7)

/-- The `funct7` of `sub` and `sra` on another operation. -/
def looseOp : Bool := funct7 = funcAlt ∧ funct3 ≠ func3Addsub ∧ funct3 ≠ func3Sr

def looseOp32 : Bool := funct7 = funcAlt ∧ funct3 = func3Sl

/-- A left shift with bits above its amount. -/
def looseOpImm : Bool := funct3 = func3Sl ∧ funct7.extractLsb' 1 6 ≠ 0

/-- That, or a right shift of a word by an amount of six bits. -/
def looseOpImm32 : Bool :=
  (funct3 = func3Sl ∧ funct7 ≠ 0) ∨ (funct3 = func3Sr ∧ (funct7 = funcNorm + 1 ∨ funct7 = funcAlt + 1))

/-- An AMO of another width. -/
def looseAmo : Bool := funct3 ≠ 0b010 ∧ funct3 ≠ 0b011 ∧ amoOps.contains (funct7.extractLsb' 2 5)

end

/-- The words that are legal in no mode and decode to an instruction. -/
def loose (ir : BitVec 32) : Bool :=
  let opcode := ir.extractLsb' 0 7
  let funct3 := ir.extractLsb' 12 3
  let funct7 := ir.extractLsb' 25 7
  if opcode = opcodeArithlog then looseOp funct3 funct7
  else if opcode = opcodeArithlog64 then looseOp32 funct3 funct7
  else if opcode = opcodeArithlogI then looseOpImm funct3 funct7
  else if opcode = opcodeArithlogI64 then looseOpImm32 funct3 funct7
  else if opcode = opcodeSystem then funct3 = func3System ∧ priv ir = false
  else if opcode = opcodeAmo then looseAmo funct3 funct7
  else false

/-- And in 32-bit mode those of 64-bit mode. -/
def unchecked (mxl : Nat) (ir : BitVec 32) : Bool := loose ir ∨ (mxl = 1 ∧ legal 2 ir ∧ legal 1 ir = false)

end Rv

namespace Rvc

/-- The parcels for `zero` that are legal in no mode and decode to an
instruction: `c.lwsp` and `c.ldsp`, `c.addiw`, and `c.jr`. -/
def loose (mxl : Nat) (p : BitVec 16) : Bool :=
  match opcode p with
  | 0b01010#5 | 0b01110#5 => full p 7 = 0
  | 0b00101#5 => mxl = 2 ∧ full p 7 = 0
  | 0b10010#5 => bit p 12 = 0 ∧ full p 2 = 0 ∧ full p 7 = 0
  | _ => false

def unchecked (mxl : Nat) (p : BitVec 16) : Bool :=
  loose mxl p ∨ (mxl = 1 ∧ legal 2 p ∧ legal 1 p = false)

end Rvc

/-! ## The decoder of 32-bit words -/

/-- `loose` is what is accepted beside the legal words of 64-bit mode, which
those of 32-bit mode are among. -/
def Covers (code : Instruction) (legal₁ legal₂ loose : Bool) : Prop :=
  (code ≠ .error ↔ legal₂ = true ∨ loose = true) ∧ (loose = true → legal₂ = false) ∧ (legal₁ = true → legal₂ = true)

instance (code : Instruction) (legal₁ legal₂ loose : Bool) : Decidable (Covers code legal₁ legal₂ loose) :=
  inferInstanceAs (Decidable (_ ∧ _ ∧ _))

/-- An opcode of one instruction. -/
theorem covers_whole (code : Instruction) (h : code ≠ .error) : Covers code true true false :=
  ⟨iff_of_true h (.inl rfl), fun h => absurd h (by decide), fun _ => rfl⟩

/-- The decoder tells three codes of `funct7` apart. -/
theorem covers_of_funct7 {code : BitVec 7 → Instruction} {legal₁ legal₂ loose : BitVec 7 → Bool} (funct7 : BitVec 7)
    (hnorm : Covers (code funcNorm) (legal₁ funcNorm) (legal₂ funcNorm) (loose funcNorm))
    (halt : Covers (code funcAlt) (legal₁ funcAlt) (legal₂ funcAlt) (loose funcAlt))
    (hmult : Covers (code funcMult) (legal₁ funcMult) (legal₂ funcMult) (loose funcMult))
    (hother : funct7 ≠ funcNorm → funct7 ≠ funcAlt → funct7 ≠ funcMult →
      Covers (code funct7) (legal₁ funct7) (legal₂ funct7) (loose funct7)) :
    Covers (code funct7) (legal₁ funct7) (legal₂ funct7) (loose funct7) := by
  by_cases h0 : funct7 = funcNorm
  · rw [h0]; exact hnorm
  by_cases h1 : funct7 = funcAlt
  · rw [h1]; exact halt
  by_cases h2 : funct7 = funcMult
  · rw [h2]; exact hmult
  exact hother h0 h1 h2

theorem codeArithlog_covers (funct3 : BitVec 3) (funct7 : BitVec 7) :
    Covers (codeArithlog funct3 funct7) (Rv.op funct3 funct7) (Rv.op funct3 funct7) (Rv.looseOp funct3 funct7) := by
  refine covers_of_funct7 funct7 ?_ ?_ ?_ fun h0 h1 h2 => ?_
  · revert funct3; decide
  · revert funct3; decide
  · revert funct3; decide
  · simp only [funcNorm, funcAlt, funcMult, BitVec.ofNat_eq_ofNat] at h0 h1 h2
    simp [codeArithlog, Rv.op, Rv.looseOp, Covers, funcNorm, funcAlt, funcMult, h0, h1, h2]

theorem codeArithlog64_covers (funct3 : BitVec 3) (funct7 : BitVec 7) :
    Covers (codeArithlog64 funct3 funct7) (Rv.op32 1 funct3 funct7) (Rv.op32 2 funct3 funct7)
      (Rv.looseOp32 funct3 funct7) := by
  refine covers_of_funct7 funct7 ?_ ?_ ?_ fun h0 h1 h2 => ?_
  · revert funct3; decide
  · revert funct3; decide
  · revert funct3; decide
  · simp only [funcNorm, funcAlt, funcMult, BitVec.ofNat_eq_ofNat] at h0 h1 h2
    simp [codeArithlog64, Rv.op32, Rv.looseOp32, Covers, funcNorm, funcAlt, funcMult, h0, h1, h2]

theorem codeArithlogI_covers (funct3 : BitVec 3) (funct7 : BitVec 7) :
    Covers (codeArithlogI funct3 funct7) (Rv.opImm 1 funct3 funct7) (Rv.opImm 2 funct3 funct7)
      (Rv.looseOpImm funct3 funct7) := by
  by_cases hl : funct3 = func3Sl
  · subst hl; revert funct7; decide
  by_cases hr : funct3 = func3Sr
  · subst hr; revert funct7; decide
  -- Not a shift: `funct7` is a part of the immediate.
  have h : ∀ f : BitVec 3, f ≠ func3Sl → f ≠ func3Sr →
      Covers (codeArithlogI f 0) (Rv.opImm 1 f 0) (Rv.opImm 2 f 0) (Rv.looseOpImm f 0) := by decide
  have h' := h funct3 hl hr
  simp only [func3Sl, func3Sr, BitVec.ofNat_eq_ofNat] at hl hr
  simpa [codeArithlogI, Rv.opImm, Rv.looseOpImm, func3Sl, func3Sr, hl, hr] using h'

theorem codeArithlogI64_covers (funct3 : BitVec 3) (funct7 : BitVec 7) :
    Covers (codeArithlogI64 funct3 funct7) (Rv.opImm32 1 funct3 funct7) (Rv.opImm32 2 funct3 funct7)
      (Rv.looseOpImm32 funct3 funct7) := by
  by_cases hl : funct3 = func3Sl
  · subst hl; revert funct7; decide
  by_cases hr : funct3 = func3Sr
  · subst hr; revert funct7; decide
  have h : ∀ f : BitVec 3, f ≠ func3Sl → f ≠ func3Sr →
      Covers (codeArithlogI64 f 0) (Rv.opImm32 1 f 0) (Rv.opImm32 2 f 0) (Rv.looseOpImm32 f 0) := by decide
  have h' := h funct3 hl hr
  simp only [func3Sl, func3Sr, BitVec.ofNat_eq_ofNat] at hl hr
  simpa [codeArithlogI64, Rv.opImm32, Rv.looseOpImm32, func3Sl, func3Sr, hl, hr] using h'

theorem codeAmo_covers (funct3 : BitVec 3) (funct7 : BitVec 7) :
    Covers (codeAmo funct3 ((funct7 >>> 2).setWidth 5)) (Rv.amo 1 funct3 funct7) (Rv.amo 2 funct3 funct7)
      (Rv.looseAmo funct3 funct7) := by
  have h5 : (funct7 >>> 2).setWidth 5 = funct7.extractLsb' 2 5 := by
    apply BitVec.eq_of_getLsbD_eq
    intro i hi
    simp [hi]
  have h : ∀ (f3 : BitVec 3) (f5 : BitVec 5),
      Covers (codeAmo f3 f5) ((f3 = 0b010 ∨ (1 = 2 ∧ f3 = 0b011)) ∧ Rv.amoOps.contains f5)
        ((f3 = 0b010 ∨ (2 = 2 ∧ f3 = 0b011)) ∧ Rv.amoOps.contains f5)
        (f3 ≠ 0b010 ∧ f3 ≠ 0b011 ∧ Rv.amoOps.contains f5) := by decide
  rw [h5]
  exact h funct3 (funct7.extractLsb' 2 5)

theorem codeBranch_covers : ∀ funct3, Covers (codeBranch funct3) (Rv.branch funct3) (Rv.branch funct3) false := by
  decide

theorem codeLoad_covers : ∀ funct3, Covers (codeLoad funct3) (Rv.load 1 funct3) (Rv.load 2 funct3) false := by
  decide

theorem codeStore_covers : ∀ funct3, Covers (codeStore funct3) (Rv.store 1 funct3) (Rv.store 2 funct3) false := by
  decide

theorem codeFence_covers : ∀ funct3,
    Covers (if funct3 = func3Fencei then .fencei else if funct3 = func3Fence then .fence else .error)
      (Rv.miscMem funct3) (Rv.miscMem funct3) false := by
  decide

theorem codeJalr_covers : ∀ funct3,
    Covers (if funct3 = func3Jalr then .jalr else .error) (funct3 = 0b000) (funct3 = 0b000) false := by
  decide

theorem codeSystem_covers (funct3 : BitVec 3) (ir : BitVec 32) :
    Covers (codeSystem funct3) (Rv.system funct3 ir) (Rv.system funct3 ir)
      (funct3 = func3System ∧ Rv.priv ir = false) := by
  have h : ∀ (f : BitVec 3) (b : Bool),
      Covers (codeSystem f) (if f = 0b000 then b else f ≠ 0b100) (if f = 0b000 then b else f ≠ 0b100)
        (f = func3System ∧ b = false) := by decide
  exact h funct3 (Rv.priv ir)

theorem getCode32_covers (ir : BitVec 32) : Covers (getCode32 ir) (Rv.legal 1 ir) (Rv.legal 2 ir) (Rv.loose ir) := by
  rw [getCode32_eq, code32, getOpcode_eq, getFunct3_eq, getFunct7_eq]
  unfold Rv.legal Rv.loose
  dsimp only
  generalize ir.extractLsb' 0 7 = opcode
  by_cases h : opcode = opcodeArithlog
  · subst h; exact codeArithlog_covers _ _
  by_cases h : opcode = opcodeArithlog64
  · subst h; exact codeArithlog64_covers _ _
  by_cases h : opcode = opcodeArithlogI
  · subst h; exact codeArithlogI_covers _ _
  by_cases h : opcode = opcodeArithlogI64
  · subst h; exact codeArithlogI64_covers _ _
  by_cases h : opcode = opcodeB
  · subst h; exact codeBranch_covers _
  by_cases h : opcode = opcodeJ
  · subst h; exact covers_whole .jal (by decide)
  by_cases h : opcode = opcodeJalr
  · subst h; exact codeJalr_covers _
  by_cases h : opcode = opcodeLd
  · subst h; exact codeLoad_covers _
  by_cases h : opcode = opcodeS
  · subst h; exact codeStore_covers _
  by_cases h : opcode = opcodeLui
  · subst h; exact covers_whole .lui (by decide)
  by_cases h : opcode = opcodeAuipc
  · subst h; exact covers_whole .auipc (by decide)
  by_cases h : opcode = opcodeSystem
  · subst h; exact codeSystem_covers _ ir
  by_cases h : opcode = opcodeFence
  · subst h; exact codeFence_covers _
  by_cases h : opcode = opcodeAmo
  · subst h; exact codeAmo_covers _ _
  simp only [*, if_false]
  decide

/-- `GetCode32` takes the words of 64-bit mode and the loose ones. -/
theorem unchecked_word {mxl : Nat} (h : mxl = 1 ∨ mxl = 2) (ir : BitVec 32) :
    Rv.unchecked mxl ir = true ↔ Rv.legal mxl ir = false ∧ getCode32 ir ≠ .error := by
  obtain ⟨haccept, hloose, hmode⟩ := getCode32_covers ir
  simp only [Rv.unchecked, decide_eq_true_eq, haccept]
  rcases h with rfl | rfl <;> grind

/-! ## The decoder of parcels -/

section

variable {mxl : Nat} (p : BitVec 16)

theorem code16Lui_error : (code16Lui (p.setWidth 32)).instruction = .error ↔ Rvc.expandLui p = none := by
  simp only [code16Lui, fullReg_parcel, luiImm_parcel, addi16spImm_parcel, luiImm_eq_zero, addi16spImm_eq_zero,
    Rvc.expandLui]
  grind

/-- Of the parcels without an expansion, `c.jr` on `zero` is let pass. -/
theorem expandJump_none :
    Rvc.expandJump p = none ↔ Rvc.bit p 12 = 0 ∧ Rvc.full p 2 = 0 ∧ Rvc.full p 7 = 0 := by
  simp only [Rvc.expandJump]
  grind

theorem code16Jump_none (h : Rvc.expandJump p = none) : (code16Jump (p.setWidth 32)).instruction = .jalr := by
  obtain ⟨hbit, h2, -⟩ := (expandJump_none p).mp h
  simp only [code16Jump, bitcrop_full, bitcrop_bit, hbit, h2, not_true, if_false, if_true]

/-- The mode is not looked at. -/
theorem code16Arith_error :
    (code16Arith (p.setWidth 32)).instruction = .error ↔ Rvc.expandArith 2 p = none := by
  have h11 : p.extractLsb' 11 1 = (p.extractLsb' 10 3).extractLsb' 1 1 :=
    (slice_slice p (show 1 + 1 ≤ 3 by decide)).symm
  have h10 : p.extractLsb' 10 1 = (p.extractLsb' 10 3).extractLsb' 0 1 :=
    (slice_slice p (show 0 + 1 ≤ 3 by decide)).symm
  simp (disch := decide) only [code16Arith, Rvc.expandArith, bitcrop_parcel, h11, h10]
  have hx : ∀ x : BitVec 3, x = 0 ∨ x = 1 ∨ x = 2 ∨ x = 3 ∨ x = 4 ∨ x = 5 ∨ x = 6 ∨ x = 7 := by decide
  have hy : ∀ y : BitVec 2, y = 0 ∨ y = 1 ∨ y = 2 ∨ y = 3 := by decide
  rcases hx (p.extractLsb' 10 3) with h3 | h3 | h3 | h3 | h3 | h3 | h3 | h3 <;>
    rcases hy (p.extractLsb' 5 2) with h2 | h2 | h2 | h2 <;> simp [h3, h2]

/-- `GetCode16` takes the loose parcels, and in 32-bit mode those of 64-bit
mode. -/
theorem unchecked_parcel (h : mxl = 1 ∨ mxl = 2) :
    Rvc.unchecked mxl p = true ↔ Rvc.legal mxl p = false ∧ (getCode16 (p.setWidth 32) mxl).instruction ≠ .error := by
  unfold getCode16
  dsimp only
  rw [opcode_parcel]
  simp only [Rvc.unchecked, Rvc.legal]
  split
  case h_1 hop =>
    simp only [bitcrop_eight]
    rcases h with rfl | rfl <;> simp +contextual [Rvc.expand, Rvc.loose, hop]
  case h_10 hop =>
    rcases h with rfl | rfl <;> simp [Rvc.expand, Rvc.loose, hop, code16Lui_error, Option.isSome_iff_ne_none]
  case h_11 hop =>
    rcases h with rfl | rfl <;> simp [Rvc.expand, Rvc.loose, hop]
    all_goals grind [expandJump_none, code16Jump_none]
  case h_12 hop =>
    rcases h with rfl | rfl <;> simp [Rvc.expand, Rvc.loose, hop, code16Arith_error, Option.isSome_iff_ne_none]
    grind
  case h_20 => rcases h with rfl | rfl <;> simp [Rvc.expand, Rvc.loose, *]
  all_goals
    next hop =>
    rcases h with rfl | rfl <;> simp [Rvc.expand, Rvc.loose, hop]

end

/-! ## Rejection -/

/-- The decoder gives `INST_ERROR`, and so the instruction sets the error
flag, writes no register and no memory, and the round ends with the flag
set. -/
structure Rejects (mxl : Nat) (ir : BitVec 32) : Prop where
  decode : (decode ir mxl).instruction = .error
  execute : ∀ (c : RiscvCpu) (host : Host), c.ir = ir → c.mxl = mxl →
    ∃ c', c.executeStage host = .ok c' ∧ c'.errorFlag = true ∧ c'.reg = c.reg ∧ c'.memory = c.memory
  round : ∀ (c c₁ c' : RiscvCpu) (host : Host), c.Fetches c₁ → c₁.ir = ir → c₁.mxl = mxl → c.step host = .ok c' →
    c'.errorFlag = true

theorem rejects_iff (mxl : Nat) (ir : BitVec 32) : Rejects mxl ir ↔ (decode ir mxl).instruction = .error := by
  refine ⟨fun h => h.decode, fun h => ?_⟩
  have hexec : ∀ (c : RiscvCpu) (host : Host), c.ir = ir → c.mxl = mxl →
      c.executeStage host = .ok { c.decodeStage with errorFlag := true } := by
    rintro c host rfl rfl
    simp only [RiscvCpu.executeStage, RiscvCpu.execute, h]
  refine ⟨h, fun c host hir hmxl => ⟨_, hexec c host hir hmxl, rfl, rfl, rfl⟩, fun c c₁ c' host hf hir hmxl hs => ?_⟩
  rw [hf.step_eq, hexec c₁ host hir hmxl] at hs
  exact RiscvCpu.finishStage_errorFlag rfl hs

/-- **Which illegal encodings are rejected.** In both modes, an illegal word
or parcel is rejected exactly when it is not among the unchecked. -/
theorem illegal_rejected (mxl : Nat) (h : mxl = 1 ∨ mxl = 2) :
    (∀ ir : BitVec 32, ir.extractLsb' 0 2 = 0b11 →
      ((Rv.legal mxl ir = false → Rejects mxl ir) ↔ Rv.unchecked mxl ir = false)) ∧
    (∀ p : BitVec 16, p.extractLsb' 0 2 ≠ 0b11 →
      ((Rvc.legal mxl p = false → Rejects mxl (p.setWidth 32)) ↔ Rvc.unchecked mxl p = false)) := by
  refine ⟨fun ir hir => ?_, fun p hp => ?_⟩
  · have hd : (decode ir mxl).instruction = getCode32 ir := by
      rw [decode, if_neg (not_not.mpr ((low_eq_three ir).mpr hir))]
    rw [rejects_iff, hd, ← Bool.not_eq_true (Rv.unchecked mxl ir), unchecked_word h ir, ne_eq, not_and_not_right]
  · have hd : decode (p.setWidth 32) mxl = getCode16 (p.setWidth 32) mxl := by
      rw [decode, if_pos (by rwa [ne_eq, low_eq_three, BitVec.extractLsb'_setWidth_of_le (by decide)])]
    rw [rejects_iff, hd, ← Bool.not_eq_true (Rvc.unchecked mxl p), unchecked_parcel p h, ne_eq, not_and_not_right]

/-- A word without an opcode and the parcel of all zeros. -/
theorem illegal_rejected_zero : Rejects 2 0xffffffff ∧ Rejects 1 ((0 : BitVec 16).setWidth 32) :=
  ⟨((illegal_rejected 2 (.inr rfl)).1 0xffffffff (by decide)).mpr (by decide) (by decide),
    ((illegal_rejected 1 (.inl rfl)).2 0 (by decide)).mpr (by decide) (by decide)⟩

/-- `and x1, x2, x3` with the `funct7` of `sub`: it is executed. -/
theorem illegal_and_executed :
    (0x403170b3 : BitVec 32).extractLsb' 0 2 = 0b11 ∧ Rv.legal 2 0x403170b3 = false ∧
      (decode 0x403170b3 2).instruction = .and ∧ ¬ Rejects 2 0x403170b3 ∧
      (({ RiscvCpu.new true 0 with ir := 0x403170b3, reg := fun r => r.setWidth 64 }.executeStage .failing).toOption.map
        fun c : RiscvCpu => (c.errorFlag, c.reg 1)) = some (false, 2) := by
  refine ⟨by decide, by decide, by decide, fun h => ?_, by decide +kernel⟩
  have herror := h.decode
  revert herror
  decide

end RiscvEmulator
