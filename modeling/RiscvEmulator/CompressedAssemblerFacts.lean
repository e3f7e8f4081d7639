/-
The encoders of compressed instructions and `GetCode16` are inverse, but for
one of them (`decoded_iff`).

A parcel's slices are slices of its operands (the `_fields` lemmas), an
opcode says which instruction the decoder takes a parcel for (the `code_`
lemmas), and what is left is that the slices of an operand in range are all
of it (`Unsigned.extended`, `Signed.extended`).
-/
import RiscvEmulator.CompressedAssembler
import RiscvEmulator.CompressedFacts

namespace RiscvEmulator

/-! ## Slices of a parcel -/

theorem extractLsb'_orInto (cmd : BitVec 16) (fields : List (BitVec 32)) {o k : Nat} (h : o + k ≤ 16) :
    (orInto cmd fields).extractLsb' o k =
      fields.foldl (fun slice field => slice ||| field.extractLsb' o k) (cmd.extractLsb' o k) := by
  induction fields generalizing cmd with
  | nil => rfl
  | cons field fields ih =>
    have hstep : ((cmd.setWidth 32 ||| field).setWidth 16).extractLsb' o k =
        cmd.extractLsb' o k ||| field.extractLsb' o k := by
      rw [BitVec.extractLsb'_setWidth_of_le h, BitVec.extractLsb'_or, BitVec.extractLsb'_setWidth_of_le (by omega)]
    rw [List.foldl_cons, ← hstep, ← ih]
    rfl

section

variable (x : BitVec 32) {m t o k : Nat}

/-- The masks of the encoders have their low bits set. -/
theorem mask_eq (hm : m + 1 = 2 ^ (m + 1).log2) : BitVec.ofNat 32 m = Bits.ones 32 (m + 1).log2 := by
  rw [Bits.ones, ← hm, Nat.add_sub_cancel]

/-- A slice of a field that has been masked and put at `t`. -/
theorem slice_within (hm : m + 1 = 2 ^ (m + 1).log2) (ht : t ≤ o) (h : o + k ≤ t + (m + 1).log2)
    (hn : t + (m + 1).log2 ≤ 32) : ((x &&& BitVec.ofNat 32 m) <<< t).extractLsb' o k = x.extractLsb' (o - t) k := by
  rw [mask_eq hm, Bits.extractLsb'_field x ht h hn]

theorem slice_apart (hm : m + 1 = 2 ^ (m + 1).log2) (h : o + k ≤ t ∨ t + (m + 1).log2 ≤ o) :
    ((x &&& BitVec.ofNat 32 m) <<< t).extractLsb' o k = 0#k := by
  rw [mask_eq hm, Bits.extractLsb'_field_apart x h]

end

/-! ## Operands -/

/-- A register number. -/
def Reg (r : BitVec 32) : Prop := r < 32

/-- A register of the window `x8` to `x15`, by its number or by that less 8. -/
def Window (r : BitVec 32) : Prop := r < 16

/-- The register meant. -/
def windowNumber (r : BitVec 32) : BitVec 5 := if r < 8 then (r + 8).setWidth 5 else r.setWidth 5

/-- An unsigned immediate of `w` bits, a multiple of `2 ^ k`. -/
def Unsigned (k w : Nat) (x : BitVec 32) : Prop := 2 ^ k ∣ x.toNat ∧ x.toNat < 2 ^ w

/-- A signed one. -/
def Signed (k w : Nat) (x : BitVec 32) : Prop := 2 ^ k ∣ x.toInt ∧ Fits w x

theorem Window.number_eq {r : BitVec 32} (h : Window r) : 0b01#2 ++ r.extractLsb' 0 3 = windowNumber r := by
  have hall : ∀ x : BitVec 4, 0b01#2 ++ (x.setWidth 32).extractLsb' 0 3 = windowNumber (x.setWidth 32) := by decide
  have hr : (r.setWidth 4).setWidth 32 = r := setWidth_setWidth_of_lt r h
  rw [← hr]
  exact hall _

section

variable {k w : Nat} {x : BitVec 32}

/-- An aligned number has no bits below. -/
theorem low_of_dvd (h : 2 ^ k ∣ x.toNat) {i : Nat} (hi : i < k) : x.getLsbD i = false := by
  obtain ⟨q, hq⟩ := h
  rw [← BitVec.testBit_toNat, hq, Nat.testBit_two_pow_mul]
  simp [show ¬ k ≤ i by omega]

theorem Unsigned.high (h : Unsigned k w x) {i : Nat} (hi : w ≤ i) : x.getLsbD i = false := by
  rw [← BitVec.testBit_toNat]
  exact Nat.testBit_lt_two_pow (Nat.lt_of_lt_of_le h.2 (Nat.pow_le_pow_right (by decide) hi))

theorem Signed.dvd (h : Signed k w x) (hk : k ≤ 32) : 2 ^ k ∣ x.toNat := by
  have hd : ((2 ^ k : Nat) : Int) ∣ ((2 ^ 32 : Nat) : Int) := Int.natCast_dvd_natCast.mpr (Nat.pow_dvd_pow 2 hk)
  have hx : ((2 ^ k : Nat) : Int) ∣ x.toInt := by
    rw [Int.natCast_pow]
    exact h.1
  rw [BitVec.toInt_eq_toNat_cond] at hx
  split at hx
  · exact Int.natCast_dvd_natCast.mp hx
  · exact Int.natCast_dvd_natCast.mp (by simpa using (Int.dvd_add hx hd))

/-- From the sign bit up they are one. -/
theorem Signed.high (h : Signed k w x) (h0 : 0 < w) (hw : w ≤ 32) {i : Nat} (hi : w - 1 ≤ i) (hi32 : i < 32) :
    x.getLsbD i = x.getLsbD (w - 1) :=
  (Bits.isSext_iff h0).mp (signExtend_setWidth_of_fits h0 hw h.2).symm i hi hi32

theorem Unsigned.below (h : Unsigned k w x) : x.extractLsb' 0 k = 0#k := by
  apply BitVec.eq_of_getLsbD_eq
  intro i hi
  rw [BitVec.getLsbD_extractLsb', Nat.zero_add, low_of_dvd h.1 hi, Bool.and_false, BitVec.getLsbD_zero]

theorem Unsigned.above (h : Unsigned k w x) {j : Nat} : x.extractLsb' w j = 0#j := by
  apply BitVec.eq_of_getLsbD_eq
  intro i hi
  rw [BitVec.getLsbD_extractLsb', h.high (Nat.le_add_right w i), Bool.and_false, BitVec.getLsbD_zero]

theorem Signed.below (h : Signed k w x) (hk : k ≤ 32) : x.extractLsb' 0 k = 0#k := by
  apply BitVec.eq_of_getLsbD_eq
  intro i hi
  rw [BitVec.getLsbD_extractLsb', Nat.zero_add, low_of_dvd (h.dvd hk) hi, Bool.and_false, BitVec.getLsbD_zero]

/-- All of a slice from the bottom. -/
theorem whole {j : Nat} (hj : j ≤ 32) : x.extractLsb' 0 j = x.setWidth j := (BitVec.setWidth_eq_extractLsb' hj).symm

/-- The immediates of the formats are shorter than twelve bits. -/
theorem Unsigned.extended (h : Unsigned k w x) (hw : w < 12) : (x.setWidth 12).signExtend 32 = x := by
  have hpow : 2 ^ w ≤ 2 ^ 11 := Nat.pow_le_pow_right (by decide) (by omega)
  have hlt : x.toNat < 2 ^ w := h.2
  refine signExtend_setWidth_of_fits (by decide) (by decide) ?_
  rw [Fits, BitVec.toInt_eq_toNat_cond]
  omega

theorem Signed.extended (h : Signed k w x) (h0 : 0 < w) (hw : w ≤ 32) : (x.setWidth w).signExtend 32 = x :=
  signExtend_setWidth_of_fits h0 hw h.2

/-- What `SignExtend` makes of the six-bit field. -/
theorem Signed.extended_six (h : Signed 0 6 x) :
    signExtend ((x.setWidth 6).setWidth 32) 6 = x := by
  simp (disch := decide) only [signExtend_eq_signExtend, BitVec.setWidth_setWidth_of_le, BitVec.setWidth_eq]
  exact h.extended (by decide) (by decide)

theorem full_number (r : BitVec 32) : r.extractLsb' 0 5 = r.setWidth 5 :=
  (BitVec.setWidth_eq_extractLsb' (by decide)).symm

end

/-! ## Fields of the parcels -/

/-- A word with no bit from `lo` to `hi`. -/
def Clear (cmd : BitVec 16) (lo hi : Nat) : Prop := cmd.extractLsb' lo (hi - lo) = 0

instance (cmd : BitVec 16) (lo hi : Nat) : Decidable (Clear cmd lo hi) := inferInstanceAs (Decidable (_ = _))

theorem Clear.slice {cmd : BitVec 16} {lo hi o k : Nat} (h : Clear cmd lo hi) (ho : lo ≤ o) (hk : o + k ≤ hi) :
    cmd.extractLsb' o k = 0#k := by
  have hs := slice_slice cmd (show (o - lo) + k ≤ hi - lo by omega) (o := lo)
  rw [show lo + (o - lo) = o by omega] at hs
  rw [← hs, h]
  exact BitVec.extractLsb'_zero

section

variable (cmd : BitVec 16) (rd rs1 rs2 : BitVec 32) {uimm imm offset : BitVec 32}

-- a slice of a parcel is one of the field it lies in, the others have nothing there
attribute [local simp] Rvc.opcode Rvc.full Rvc.window Rvc.bit extractLsb'_orInto slice_within slice_apart
  Bits.extractLsb'_shifted Bits.extractLsb'_sshifted

/-! ### Quadrant 2 -/

theorem asmCAddType_fields (hcmd : Clear cmd 2 12) : Rvc.opcode (asmCAddType cmd rd rs2) = Rvc.opcode cmd ∧
    Rvc.bit (asmCAddType cmd rd rs2) 12 = Rvc.bit cmd 12 ∧ Rvc.full (asmCAddType cmd rd rs2) 7 = rd.extractLsb' 0 5 ∧
    Rvc.full (asmCAddType cmd rd rs2) 2 = rs2.extractLsb' 0 5 := by
  simp (disch := decide) [asmCAddType, BitVec.extractLsb'_or, hcmd.slice]

/-- `c.jalr` and `c.jr` are of this form, without a second register. -/
theorem asmCJalr_eq : asmCJalr rs1 = asmCAddType 0b1001000000000010 rs1 0 := by
  rw [asmCJalr, asmCAddType, show ((0 : BitVec 32) &&& 0x1F) <<< 2 = 0#32 by decide, BitVec.or_zero]

theorem asmCJr_eq : asmCJr rs1 = asmCAddType 0b1000000000000010 rs1 0 := by
  rw [asmCJr, asmCAddType, show ((0 : BitVec 32) &&& 0x1F) <<< 2 = 0#32 by decide, BitVec.or_zero]

theorem asmCEbreak_eq : asmCEbreak = asmCAddType 0b1001000000000010 0 0 := by decide

theorem asmCLwsp_fields (h : Unsigned 2 8 uimm) : Rvc.opcode (asmCLwsp rd uimm) = 0b01010#5 ∧
    Rvc.full (asmCLwsp rd uimm) 7 = rd.extractLsb' 0 5 ∧ Rvc.lwspImm (asmCLwsp rd uimm) = uimm.setWidth 12 := by
  have himm : uimm.extractLsb' 8 4 ++ uimm.extractLsb' 6 2 ++ uimm.extractLsb' 5 1 ++ uimm.extractLsb' 2 3 ++
      uimm.extractLsb' 0 2 = uimm.setWidth 12 := by
    simp only [BitVec.extractLsb'_append_extractLsb'_eq_extractLsb']
    exact whole (by decide)
  simpa (disch := decide) [Rvc.lwspImm, asmCLwsp, h.below, h.above] using himm

theorem asmCLdsp_fields (h : Unsigned 3 9 uimm) : Rvc.opcode (asmCLdsp rd uimm) = 0b01110#5 ∧
    Rvc.full (asmCLdsp rd uimm) 7 = rd.extractLsb' 0 5 ∧ Rvc.ldspImm (asmCLdsp rd uimm) = uimm.setWidth 12 := by
  have himm : uimm.extractLsb' 9 3 ++ uimm.extractLsb' 6 3 ++ uimm.extractLsb' 5 1 ++ uimm.extractLsb' 3 2 ++
      uimm.extractLsb' 0 3 = uimm.setWidth 12 := by
    simp only [BitVec.extractLsb'_append_extractLsb'_eq_extractLsb']
    exact whole (by decide)
  simpa (disch := decide) [Rvc.ldspImm, asmCLdsp, h.below, h.above] using himm

theorem asmCSwsp_fields (h : Unsigned 2 8 uimm) : Rvc.opcode (asmCSwsp rs2 uimm) = 0b11010#5 ∧
    Rvc.full (asmCSwsp rs2 uimm) 2 = rs2.extractLsb' 0 5 ∧ Rvc.swspImm (asmCSwsp rs2 uimm) = uimm.setWidth 12 := by
  have himm : uimm.extractLsb' 8 4 ++ uimm.extractLsb' 6 2 ++ uimm.extractLsb' 2 4 ++ uimm.extractLsb' 0 2 =
      uimm.setWidth 12 := by
    simp only [BitVec.extractLsb'_append_extractLsb'_eq_extractLsb']
    exact whole (by decide)
  simpa (disch := decide) [Rvc.swspImm, asmCSwsp, h.below, h.above] using himm

theorem asmCSdsp_fields (h : Unsigned 3 9 uimm) : Rvc.opcode (asmCSdsp rs2 uimm) = 0b11110#5 ∧
    Rvc.full (asmCSdsp rs2 uimm) 2 = rs2.extractLsb' 0 5 ∧ Rvc.sdspImm (asmCSdsp rs2 uimm) = uimm.setWidth 12 := by
  have himm : uimm.extractLsb' 9 3 ++ uimm.extractLsb' 6 3 ++ uimm.extractLsb' 3 3 ++ uimm.extractLsb' 0 3 =
      uimm.setWidth 12 := by
    simp only [BitVec.extractLsb'_append_extractLsb'_eq_extractLsb']
    exact whole (by decide)
  simpa (disch := decide) [Rvc.sdspImm, asmCSdsp, h.below, h.above] using himm

/-! ### Quadrant 1 -/

/-- The six-bit immediate is put together from its bit 5 and those below. -/
theorem imm6_slices (x : BitVec 32) : x.extractLsb' 5 1 ++ x.extractLsb' 0 5 = x.setWidth 6 := by
  simp only [BitVec.extractLsb'_append_extractLsb'_eq_extractLsb']
  exact whole (by decide)

theorem asmCAddiType_fields (hcmd : Clear cmd 2 13) (imm : BitVec 32) :
    Rvc.opcode (asmCAddiType cmd rd imm) = Rvc.opcode cmd ∧
    Rvc.full (asmCAddiType cmd rd imm) 7 = rd.extractLsb' 0 5 ∧
      Rvc.imm6 (asmCAddiType cmd rd imm) = imm.setWidth 6 := by
  simpa (disch := decide) [Rvc.imm6, asmCAddiType, hcmd.slice] using imm6_slices imm

/-- The bit of a shift amount. -/
theorem sshiftRight_and_one (x : BitVec 32) {o : Nat} (ho : o < 32) : (x.sshiftRight o) &&& 1 = (x >>> o) &&& 1 := by
  have hmask : (1 : BitVec 32) = Bits.ones 32 1 := by decide
  rw [hmask]
  apply BitVec.eq_of_getLsbD_eq
  intro i hi
  simp only [Bits.getLsbD_and_ones, BitVec.getLsbD_sshiftRight, BitVec.getLsbD_ushiftRight]
  grind

theorem asmCSlli_eq : asmCSlli rd uimm = asmCAddiType 0b0000000000000010 rd uimm := by
  rw [asmCSlli, asmCAddiType, sshiftRight_and_one _ (by decide)]

theorem asmCAddi16sp_fields (h : Signed 4 10 imm) : Rvc.opcode (asmCAddi16sp imm) = 0b01101#5 ∧
    Rvc.full (asmCAddi16sp imm) 7 = 2#5 ∧ Rvc.addi16spImm (asmCAddi16sp imm) = imm.setWidth 10 := by
  have himm : imm.extractLsb' 9 1 ++ imm.extractLsb' 7 2 ++ imm.extractLsb' 6 1 ++ imm.extractLsb' 5 1 ++
      imm.extractLsb' 4 1 ++ imm.extractLsb' 0 4 = imm.setWidth 10 := by
    simp only [BitVec.extractLsb'_append_extractLsb'_eq_extractLsb']
    exact whole (by decide)
  simpa (disch := decide) [Rvc.addi16spImm, asmCAddi16sp, h.below] using himm

theorem asmCLui_fields : Rvc.opcode (asmCLui rd imm) = 0b01101#5 ∧ Rvc.full (asmCLui rd imm) 7 = 0#5 ∧
    Rvc.imm6 (asmCLui rd imm) = imm.extractLsb' 12 6 := by
  have himm : imm.extractLsb' 17 1 ++ imm.extractLsb' 12 5 = imm.extractLsb' 12 6 :=
    BitVec.extractLsb'_append_extractLsb'_eq_extractLsb' rfl
  simpa (disch := decide) [Rvc.imm6, asmCLui] using himm

theorem asmCAndType_fields (hcmd : Clear cmd 2 5 ∧ Clear cmd 7 10) :
    Rvc.opcode (asmCAndType cmd rd rs2) = Rvc.opcode cmd ∧
    (asmCAndType cmd rd rs2).extractLsb' 10 3 = cmd.extractLsb' 10 3 ∧
    (asmCAndType cmd rd rs2).extractLsb' 5 2 = cmd.extractLsb' 5 2 ∧
    Rvc.window (asmCAndType cmd rd rs2) 7 = 0b01#2 ++ rd.extractLsb' 0 3 ∧
    Rvc.window (asmCAndType cmd rd rs2) 2 = 0b01#2 ++ rs2.extractLsb' 0 3 := by
  simp (disch := decide) [asmCAndType, hcmd.1.slice, hcmd.2.slice]

theorem asmCAndiType_fields (hcmd : Clear cmd 2 10 ∧ Clear cmd 12 13) (imm : BitVec 32) :
    Rvc.opcode (asmCAndiType cmd rd imm) = Rvc.opcode cmd ∧
    (asmCAndiType cmd rd imm).extractLsb' 11 1 = cmd.extractLsb' 11 1 ∧
    (asmCAndiType cmd rd imm).extractLsb' 10 1 = cmd.extractLsb' 10 1 ∧
    Rvc.window (asmCAndiType cmd rd imm) 7 = 0b01#2 ++ rd.extractLsb' 0 3 ∧
    Rvc.imm6 (asmCAndiType cmd rd imm) = imm.setWidth 6 := by
  simpa (disch := decide) [Rvc.imm6, asmCAndiType, hcmd.1.slice, hcmd.2.slice] using imm6_slices imm

theorem asmCBType_fields (hcmd : Clear cmd 2 13) (h : Signed 1 9 offset) :
    Rvc.opcode (asmCBType cmd rs1 offset) = Rvc.opcode cmd ∧
    Rvc.window (asmCBType cmd rs1 offset) 7 = 0b01#2 ++ rs1.extractLsb' 0 3 ∧
    Rvc.branchImm (asmCBType cmd rs1 offset) = offset.setWidth 9 := by
  have himm : offset.extractLsb' 8 1 ++ offset.extractLsb' 6 2 ++ offset.extractLsb' 5 1 ++ offset.extractLsb' 3 2 ++
      offset.extractLsb' 1 2 ++ offset.extractLsb' 0 1 = offset.setWidth 9 := by
    simp only [BitVec.extractLsb'_append_extractLsb'_eq_extractLsb']
    exact whole (by decide)
  simpa (disch := decide) [Rvc.branchImm, asmCBType, hcmd.slice, h.below] using himm

theorem asmCJType_fields (hcmd : Clear cmd 2 13) (h : Signed 1 12 offset) :
    Rvc.opcode (asmCJType cmd offset) = Rvc.opcode cmd ∧ Rvc.jumpImm (asmCJType cmd offset) = offset.setWidth 12 := by
  have himm : offset.extractLsb' 11 1 ++ offset.extractLsb' 10 1 ++ offset.extractLsb' 8 2 ++
      offset.extractLsb' 7 1 ++ offset.extractLsb' 6 1 ++ offset.extractLsb' 5 1 ++ offset.extractLsb' 4 1 ++
      offset.extractLsb' 1 3 ++ offset.extractLsb' 0 1 = offset.setWidth 12 := by
    simp only [BitVec.extractLsb'_append_extractLsb'_eq_extractLsb']
    exact whole (by decide)
  simpa (disch := decide) [Rvc.jumpImm, asmCJType, hcmd.slice, h.below] using himm

/-! ### Quadrant 0 -/

theorem asmCAddi4spn_fields (h : Unsigned 2 10 uimm) : Rvc.opcode (asmCAddi4spn rd uimm) = 0b00000#5 ∧
    Rvc.window (asmCAddi4spn rd uimm) 2 = 0b01#2 ++ rd.extractLsb' 0 3 ∧
    Rvc.addi4spnImm (asmCAddi4spn rd uimm) = uimm.setWidth 12 := by
  have himm : uimm.extractLsb' 10 2 ++ uimm.extractLsb' 6 4 ++ uimm.extractLsb' 4 2 ++ uimm.extractLsb' 3 1 ++
      uimm.extractLsb' 2 1 ++ uimm.extractLsb' 0 2 = uimm.setWidth 12 := by
    simp only [BitVec.extractLsb'_append_extractLsb'_eq_extractLsb']
    exact whole (by decide)
  simpa (disch := decide) [Rvc.addi4spnImm, asmCAddi4spn, h.below, h.above] using himm

theorem asmCLwType_fields (hcmd : Clear cmd 2 13) (h : Unsigned 2 7 uimm) :
    Rvc.opcode (asmCLwType cmd rd rs1 uimm) = Rvc.opcode cmd ∧
    Rvc.window (asmCLwType cmd rd rs1 uimm) 2 = 0b01#2 ++ rd.extractLsb' 0 3 ∧
    Rvc.window (asmCLwType cmd rd rs1 uimm) 7 = 0b01#2 ++ rs1.extractLsb' 0 3 ∧
    Rvc.wordImm (asmCLwType cmd rd rs1 uimm) = uimm.setWidth 12 := by
  have himm : uimm.extractLsb' 7 5 ++ uimm.extractLsb' 6 1 ++ uimm.extractLsb' 3 3 ++ uimm.extractLsb' 2 1 ++
      uimm.extractLsb' 0 2 = uimm.setWidth 12 := by
    simp only [BitVec.extractLsb'_append_extractLsb'_eq_extractLsb']
    exact whole (by decide)
  simpa (disch := decide) [Rvc.wordImm, asmCLwType, hcmd.slice, h.below, h.above] using himm

theorem asmCLdType_fields (hcmd : Clear cmd 2 13) (h : Unsigned 3 8 uimm) :
    Rvc.opcode (asmCLdType cmd rd rs1 uimm) = Rvc.opcode cmd ∧
    Rvc.window (asmCLdType cmd rd rs1 uimm) 2 = 0b01#2 ++ rd.extractLsb' 0 3 ∧
    Rvc.window (asmCLdType cmd rd rs1 uimm) 7 = 0b01#2 ++ rs1.extractLsb' 0 3 ∧
    Rvc.doubleImm (asmCLdType cmd rd rs1 uimm) = uimm.setWidth 12 := by
  have himm : uimm.extractLsb' 8 4 ++ uimm.extractLsb' 6 2 ++ uimm.extractLsb' 3 3 ++ uimm.extractLsb' 0 3 =
      uimm.setWidth 12 := by
    simp only [BitVec.extractLsb'_append_extractLsb'_eq_extractLsb']
    exact whole (by decide)
  simpa (disch := decide) [Rvc.doubleImm, asmCLdType, hcmd.slice, h.below, h.above] using himm

/-- Of `c.addi4spn` the immediate is zero only where its field is. -/
theorem addi4spn_field (p : BitVec 16) (h : p.extractLsb' 5 8 = 0) : Rvc.addi4spnImm p = 0 := by
  have hclear : Clear p 5 13 := h
  simp (disch := decide) only [Rvc.addi4spnImm, Rvc.bit, hclear.slice]
  rfl

end

/-! ## The assembler -/

/-- A call of an encoder. -/
inductive CompressedCall where
  | add (rd rs2 : BitVec 32)
  | ebreak
  | jalr (rs1 : BitVec 32)
  | jr (rs1 : BitVec 32)
  | ldsp (rd uimm : BitVec 32)
  | lwsp (rd uimm : BitVec 32)
  | mv (rd rs2 : BitVec 32)
  | sdsp (rs2 uimm : BitVec 32)
  | slli (rd uimm : BitVec 32)
  | swsp (rs2 uimm : BitVec 32)
  | addi (rd imm : BitVec 32)
  | li (rd imm : BitVec 32)
  | addi16sp (imm : BitVec 32)
  | addiw (rd imm : BitVec 32)
  | and (rd rs2 : BitVec 32)
  | addw (rd rs2 : BitVec 32)
  | or (rd rs2 : BitVec 32)
  | sub (rd rs2 : BitVec 32)
  | subw (rd rs2 : BitVec 32)
  | xor (rd rs2 : BitVec 32)
  | andi (rd imm : BitVec 32)
  | srai (rd imm : BitVec 32)
  | srli (rd imm : BitVec 32)
  | beqz (rs1 offset : BitVec 32)
  | bnez (rs1 offset : BitVec 32)
  | j (offset : BitVec 32)
  | jal (offset : BitVec 32)
  | lui (rd imm : BitVec 32)
  | addi4spn (rd uimm : BitVec 32)
  | ld (rd rs1 uimm : BitVec 32)
  | lw (rd rs1 uimm : BitVec 32)
  | sd (rs1 rs2 uimm : BitVec 32)
  | sw (rs1 rs2 uimm : BitVec 32)

namespace CompressedCall

def parcel : CompressedCall → BitVec 16
  | add rd rs2 => asmCAdd rd rs2
  | ebreak => asmCEbreak
  | jalr rs1 => asmCJalr rs1
  | jr rs1 => asmCJr rs1
  | ldsp rd uimm => asmCLdsp rd uimm
  | lwsp rd uimm => asmCLwsp rd uimm
  | mv rd rs2 => asmCMv rd rs2
  | sdsp rs2 uimm => asmCSdsp rs2 uimm
  | slli rd uimm => asmCSlli rd uimm
  | swsp rs2 uimm => asmCSwsp rs2 uimm
  | addi rd imm => asmCAddi rd imm
  | li rd imm => asmCLi rd imm
  | addi16sp imm => asmCAddi16sp imm
  | addiw rd imm => asmCAddiw rd imm
  | and rd rs2 => asmCAnd rd rs2
  | addw rd rs2 => asmCAddw rd rs2
  | or rd rs2 => asmCOr rd rs2
  | sub rd rs2 => asmCSub rd rs2
  | subw rd rs2 => asmCSubw rd rs2
  | xor rd rs2 => asmCXor rd rs2
  | andi rd imm => asmCAndi rd imm
  | srai rd imm => asmCSrai rd imm
  | srli rd imm => asmCSrli rd imm
  | beqz rs1 offset => asmCBeqz rs1 offset
  | bnez rs1 offset => asmCBnez rs1 offset
  | j offset => asmCJ offset
  | jal offset => asmCJal offset
  | lui rd imm => asmCLui rd imm
  | addi4spn rd uimm => asmCAddi4spn rd uimm
  | ld rd rs1 uimm => asmCLd rd rs1 uimm
  | lw rd rs1 uimm => asmCLw rd rs1 uimm
  | sd rs1 rs2 uimm => asmCSd rs1 rs2 uimm
  | sw rs1 rs2 uimm => asmCsw rs1 rs2 uimm

/-- The instruction a call stands for, with its operands. -/
def expansion : CompressedCall → Decoded
  | add rd rs2 => { instruction := .add, rd := rd.setWidth 5, rs1 := rd.setWidth 5, rs2 := rs2.setWidth 5 }
  | ebreak => { instruction := .system, imm := 1 }
  | jalr rs1 => { instruction := .jalr, rd := x1, rs1 := rs1.setWidth 5 }
  | jr rs1 => { instruction := .jalr, rd := zero, rs1 := rs1.setWidth 5 }
  | ldsp rd uimm => { instruction := .ld, rd := rd.setWidth 5, rs1 := x2, imm := uimm }
  | lwsp rd uimm => { instruction := .lw, rd := rd.setWidth 5, rs1 := x2, imm := uimm }
  | mv rd rs2 => { instruction := .add, rd := rd.setWidth 5, rs1 := zero, rs2 := rs2.setWidth 5 }
  | sdsp rs2 uimm => { instruction := .sd, rs1 := x2, rs2 := rs2.setWidth 5, imm := uimm }
  | slli rd uimm => { instruction := .slli, rd := rd.setWidth 5, rs1 := rd.setWidth 5, imm := uimm }
  | swsp rs2 uimm => { instruction := .sw, rs1 := x2, rs2 := rs2.setWidth 5, imm := uimm }
  | addi rd imm => { instruction := .addi, rd := rd.setWidth 5, rs1 := rd.setWidth 5, imm }
  | li rd imm => { instruction := .addi, rd := rd.setWidth 5, rs1 := zero, imm }
  | addi16sp imm => { instruction := .addi, rd := x2, rs1 := x2, imm }
  | addiw rd imm => { instruction := .addiw, rd := rd.setWidth 5, rs1 := rd.setWidth 5, imm }
  | and rd rs2 => { instruction := .and, rd := windowNumber rd, rs1 := windowNumber rd, rs2 := windowNumber rs2 }
  | addw rd rs2 => { instruction := .addw, rd := windowNumber rd, rs1 := windowNumber rd, rs2 := windowNumber rs2 }
  | or rd rs2 => { instruction := .or, rd := windowNumber rd, rs1 := windowNumber rd, rs2 := windowNumber rs2 }
  | sub rd rs2 => { instruction := .sub, rd := windowNumber rd, rs1 := windowNumber rd, rs2 := windowNumber rs2 }
  | subw rd rs2 => { instruction := .subw, rd := windowNumber rd, rs1 := windowNumber rd, rs2 := windowNumber rs2 }
  | xor rd rs2 => { instruction := .xor, rd := windowNumber rd, rs1 := windowNumber rd, rs2 := windowNumber rs2 }
  | andi rd imm => { instruction := .andi, rd := windowNumber rd, rs1 := windowNumber rd, imm }
  | srai rd imm => { instruction := .srai, rd := windowNumber rd, rs1 := windowNumber rd, imm }
  | srli rd imm => { instruction := .srli, rd := windowNumber rd, rs1 := windowNumber rd, imm }
  | beqz rs1 offset => { instruction := .beq, rs1 := windowNumber rs1, rs2 := zero, imm := offset }
  | bnez rs1 offset => { instruction := .bne, rs1 := windowNumber rs1, rs2 := zero, imm := offset }
  | j offset => { instruction := .jal, rd := zero, imm := offset }
  | jal offset => { instruction := .jal, rd := x1, imm := offset }
  | lui rd imm => { instruction := .lui, rd := rd.setWidth 5, imm }
  | addi4spn rd uimm => { instruction := .addi, rd := windowNumber rd, rs1 := x2, imm := uimm }
  | ld rd rs1 uimm => { instruction := .ld, rd := windowNumber rd, rs1 := windowNumber rs1, imm := uimm }
  | lw rd rs1 uimm => { instruction := .lw, rd := windowNumber rd, rs1 := windowNumber rs1, imm := uimm }
  | sd rs1 rs2 uimm => { instruction := .sd, rs1 := windowNumber rs1, rs2 := windowNumber rs2, imm := uimm }
  | sw rs1 rs2 uimm => { instruction := .sw, rs1 := windowNumber rs1, rs2 := windowNumber rs2, imm := uimm }

/-- A shift by fewer bits than the registers have. -/
def Amount (mxl : Nat) (x : BitVec 32) : Prop := x < 64 ∧ (mxl = 1 → x < 32)

/-- The operands are in the ranges of the format, neither reserved nor those
of another instruction, and the instruction exists. HINTs are among them. -/
def Accepted (mxl : Nat) : CompressedCall → Prop
  | add rd rs2 | mv rd rs2 => Reg rd ∧ Reg rs2 ∧ rs2 ≠ 0
  | ebreak => True
  | jalr rs1 | jr rs1 => Reg rs1 ∧ rs1 ≠ 0
  | ldsp rd uimm => mxl = 2 ∧ Reg rd ∧ rd ≠ 0 ∧ Unsigned 3 9 uimm
  | lwsp rd uimm => Reg rd ∧ rd ≠ 0 ∧ Unsigned 2 8 uimm
  | sdsp rs2 uimm => mxl = 2 ∧ Reg rs2 ∧ Unsigned 3 9 uimm
  | swsp rs2 uimm => Reg rs2 ∧ Unsigned 2 8 uimm
  | slli rd uimm => Reg rd ∧ Amount mxl uimm
  | addi rd imm | li rd imm => Reg rd ∧ Signed 0 6 imm
  | addi16sp imm => Signed 4 10 imm ∧ imm ≠ 0
  | addiw rd imm => mxl = 2 ∧ Reg rd ∧ rd ≠ 0 ∧ Signed 0 6 imm
  | and rd rs2 | or rd rs2 | sub rd rs2 | xor rd rs2 => Window rd ∧ Window rs2
  | addw rd rs2 | subw rd rs2 => mxl = 2 ∧ Window rd ∧ Window rs2
  | andi rd imm => Window rd ∧ Signed 0 6 imm
  | srai rd imm | srli rd imm => Window rd ∧ Amount mxl imm
  | beqz rs1 offset | bnez rs1 offset => Window rs1 ∧ Signed 1 9 offset
  | j offset => Signed 1 12 offset
  | jal offset => mxl = 1 ∧ Signed 1 12 offset
  | lui rd imm => Reg rd ∧ rd ≠ 2 ∧ Signed 12 18 imm ∧ imm ≠ 0
  | addi4spn rd uimm => Window rd ∧ Unsigned 2 10 uimm ∧ uimm ≠ 0
  | ld rd rs uimm | sd rs rd uimm => mxl = 2 ∧ Window rd ∧ Window rs ∧ Unsigned 3 8 uimm
  | lw rd rs uimm | sw rs rd uimm => Window rd ∧ Window rs ∧ Unsigned 2 7 uimm

/-- What does not come back: `AsmCLui` leaves its register out, and
`GetCode16` refuses a `c.add` to `x0`. -/
def Lost : CompressedCall → Prop
  | lui rd _ => rd ≠ 0
  | add rd _ => rd = 0
  | _ => False

/-! ### Decoding -/

theorem Amount.extended {mxl : Nat} {x : BitVec 32} (h : Amount mxl x) : (x.setWidth 6).setWidth 32 = x :=
  setWidth_setWidth_of_lt x h.1

section

variable {mxl : Nat} {rd rs1 rs2 uimm imm offset : BitVec 32} (cmd : BitVec 16)

/-- Quadrant 2, opcode `100`. -/
theorem code_addType (hcmd : Clear cmd 2 12) (hop : Rvc.opcode cmd = 0b10010#5) :
    getCode16 ((asmCAddType cmd rd rs2).setWidth 32) mxl =
      if Rvc.bit cmd 12 = 0 then
        if rs2.setWidth 5 = 0 then { instruction := .jalr, rs1 := rd.setWidth 5, rd := zero }
        else { instruction := .add, rd := rd.setWidth 5, rs2 := rs2.setWidth 5, rs1 := zero }
      else
        if rs2.setWidth 5 = 0 then
          if rd.setWidth 5 = 0 then { instruction := .system, imm := 1 }
          else { instruction := .jalr, rs1 := rd.setWidth 5, rd := x1 }
        else if rd.setWidth 5 = 0 then {}
        else { instruction := .add, rd := rd.setWidth 5, rs1 := rd.setWidth 5, rs2 := rs2.setWidth 5 } := by
  obtain ⟨hop', hbit, hrd, hrs2⟩ := asmCAddType_fields cmd rd rs2 hcmd
  simp only [getCode16, opcode_parcel, hop', hop, code16Jump, bitcrop_full, bitcrop_bit, fullReg_parcel,
    hbit, hrd, hrs2,
    full_number]
  by_cases hb : Rvc.bit cmd 12 = 0
  · rw [if_neg (not_not.mpr hb), if_pos hb]
    rfl
  · rw [if_pos hb, if_neg hb]
    by_cases h2 : rs2.setWidth 5 = 0
    · by_cases h7 : rd.setWidth 5 = 0
      · rw [if_pos ⟨h2, h7⟩, if_pos h2, if_pos h7]
      · rw [if_neg fun h => h7 h.2, if_pos h2, if_pos h2, if_neg h7]
    · rw [if_neg fun h => h2 h.1, if_neg h2, if_neg h2]

theorem reg_eq_zero {r : BitVec 32} (h : Reg r) : r.setWidth 5 = 0 ↔ r = 0 := by
  constructor
  · intro h0
    have hr := reg_range h
    rw [h0] at hr
    exact hr.symm
  · rintro rfl
    rfl

theorem code_add (hrd : Reg rd) (hrs2 : Reg rs2) (hne : rs2 ≠ 0) : getCode16 ((asmCAdd rd rs2).setWidth 32) mxl =
    if rd = 0 then {} else (add rd rs2).expansion := by
  rw [asmCAdd, code_addType _ (by decide) rfl, if_neg (by decide), if_neg fun h => hne ((reg_eq_zero hrs2).mp h)]
  simp only [reg_eq_zero hrd]
  rfl

theorem code_mv (hrs2 : Reg rs2) (hne : rs2 ≠ 0) :
    getCode16 ((asmCMv rd rs2).setWidth 32) mxl = (mv rd rs2).expansion := by
  rw [asmCMv, code_addType _ (by decide) rfl, if_pos (by decide), if_neg fun h => hne ((reg_eq_zero hrs2).mp h)]
  rfl

theorem code_jalr (hrs1 : Reg rs1) (hne : rs1 ≠ 0) :
    getCode16 ((asmCJalr rs1).setWidth 32) mxl = (jalr rs1).expansion := by
  have hnone : (0 : BitVec 32).setWidth 5 = 0 := rfl
  rw [asmCJalr_eq, code_addType _ (by decide) rfl, if_neg (by decide), if_pos hnone,
    if_neg fun h => hne ((reg_eq_zero hrs1).mp h)]
  rfl

theorem code_jr : getCode16 ((asmCJr rs1).setWidth 32) mxl = (jr rs1).expansion := by
  have hnone : (0 : BitVec 32).setWidth 5 = 0 := rfl
  rw [asmCJr_eq, code_addType _ (by decide) rfl, if_pos (by decide), if_pos hnone]
  rfl

theorem code_ebreak : getCode16 (asmCEbreak.setWidth 32) mxl = ebreak.expansion := by
  rw [asmCEbreak_eq, code_addType _ (by decide) rfl]
  rfl

theorem code_ldsp (h : Unsigned 3 9 uimm) :
    getCode16 ((asmCLdsp rd uimm).setWidth 32) mxl = (ldsp rd uimm).expansion := by
  obtain ⟨hop, hrd, himm⟩ := asmCLdsp_fields rd h
  simp only [getCode16, opcode_parcel, hop, fullReg_parcel, hrd, full_number, ldspImm_parcel, himm,
    h.extended (by decide)]
  rfl

theorem code_lwsp (h : Unsigned 2 8 uimm) :
    getCode16 ((asmCLwsp rd uimm).setWidth 32) mxl = (lwsp rd uimm).expansion := by
  obtain ⟨hop, hrd, himm⟩ := asmCLwsp_fields rd h
  simp only [getCode16, opcode_parcel, hop, fullReg_parcel, hrd, full_number, lwspImm_parcel, himm,
    h.extended (by decide)]
  rfl

theorem code_sdsp (h : Unsigned 3 9 uimm) :
    getCode16 ((asmCSdsp rs2 uimm).setWidth 32) mxl = (sdsp rs2 uimm).expansion := by
  obtain ⟨hop, hrs2, himm⟩ := asmCSdsp_fields rs2 h
  simp only [getCode16, opcode_parcel, hop, fullReg_parcel, hrs2, full_number, sdspImm_parcel, himm,
    h.extended (by decide)]
  rfl

theorem code_swsp (h : Unsigned 2 8 uimm) :
    getCode16 ((asmCSwsp rs2 uimm).setWidth 32) mxl = (swsp rs2 uimm).expansion := by
  obtain ⟨hop, hrs2, himm⟩ := asmCSwsp_fields rs2 h
  simp only [getCode16, opcode_parcel, hop, fullReg_parcel, hrs2, full_number, swspImm_parcel, himm,
    h.extended (by decide)]
  rfl

theorem code_addi (h : Signed 0 6 imm) :
    getCode16 ((asmCAddi rd imm).setWidth 32) mxl = (addi rd imm).expansion := by
  obtain ⟨hop, hrd, himm⟩ := asmCAddiType_fields 0b0000000000000001 rd (by decide) imm
  simp only [getCode16, opcode_parcel, asmCAddi, hop, fullReg_parcel, hrd, full_number, imm6_parcel, himm,
    h.extended_six]
  rfl

theorem code_li (h : Signed 0 6 imm) : getCode16 ((asmCLi rd imm).setWidth 32) mxl = (li rd imm).expansion := by
  obtain ⟨hop, hrd, himm⟩ := asmCAddiType_fields 0b0100000000000001 rd (by decide) imm
  simp only [getCode16, opcode_parcel, asmCLi, hop, fullReg_parcel, hrd, full_number, imm6_parcel, himm,
    h.extended_six]
  rfl

theorem code_addiw (h : Signed 0 6 imm) (hmxl : mxl = 2) :
    getCode16 ((asmCAddiw rd imm).setWidth 32) mxl = (addiw rd imm).expansion := by
  have hform : asmCAddiw rd imm = asmCAddiType 0b0010000000000001 rd imm := rfl
  obtain ⟨hop, hrd, himm⟩ := asmCAddiType_fields 0b0010000000000001 rd (by decide) imm
  simp only [getCode16, opcode_parcel, hform, hop, fullReg_parcel, hrd, full_number, imm6_parcel, himm,
    h.extended_six, hmxl]
  rfl

theorem code_slli (h : Amount mxl uimm) :
    getCode16 ((asmCSlli rd uimm).setWidth 32) mxl = (slli rd uimm).expansion := by
  obtain ⟨hop, hrd, himm⟩ := asmCAddiType_fields 0b0000000000000010 rd (by decide) uimm
  simp only [getCode16, opcode_parcel, asmCSlli_eq, hop, fullReg_parcel, hrd, full_number, imm6_parcel,
    himm, h.extended]
  rfl

theorem code_addi16sp (h : Signed 4 10 imm) (hne : imm ≠ 0) :
    getCode16 ((asmCAddi16sp imm).setWidth 32) mxl = (addi16sp imm).expansion := by
  obtain ⟨hop, hrd, himm⟩ := asmCAddi16sp_fields h
  simp only [getCode16, opcode_parcel, hop, code16Lui, fullReg_parcel, hrd, addi16spImm_parcel, himm,
    h.extended (by decide) (by decide), if_neg hne]
  rfl

/-- The register is `x0`, whatever is asked for. -/
theorem code_lui (h : Signed 12 18 imm) (hne : imm ≠ 0) :
    getCode16 ((asmCLui rd imm).setWidth 32) mxl = { instruction := .lui, rd := 0, imm } := by
  have himm' : (imm.extractLsb' 12 6).signExtend 32 <<< 12 = imm := by
    have hlow : ∀ i < 12, imm.getLsbD i = false := fun i => low_of_dvd (h.dvd (by decide))
    have hhigh : ∀ i, 17 ≤ i → i < 32 → imm.getLsbD i = imm.getLsbD 17 := fun i => h.high (by decide) (by decide)
    apply BitVec.eq_of_getLsbD_eq
    intro i hi
    simp only [BitVec.getLsbD_shiftLeft, BitVec.getLsbD_signExtend, BitVec.getLsbD_extractLsb',
      BitVec.msb_eq_getLsbD_last]
    grind
  obtain ⟨hop, hrd, himm⟩ := @asmCLui_fields rd imm
  simp only [getCode16, opcode_parcel, hop, code16Lui, fullReg_parcel, hrd, luiImm_parcel, himm, himm', if_neg hne]
  rfl

/-- Quadrant 1, opcode `100`: the operations of two registers, by the bits 12
to 10 and 6 to 5, -/
def registerForms : List (BitVec 3 × BitVec 2 × Instruction) :=
  [(0b011, 0b11, .and), (0b011, 0b10, .or), (0b011, 0b01, .xor), (0b011, 0b00, .sub), (0b111, 0b01, .addw),
   (0b111, 0b00, .subw)]

theorem code_andType (hrd : Window rd) (hrs2 : Window rs2) (hcmd : Clear cmd 2 5 ∧ Clear cmd 7 10)
    (hop : Rvc.opcode cmd = 0b10001#5) {i : Instruction}
    (hform : (cmd.extractLsb' 10 3, cmd.extractLsb' 5 2, i) ∈ registerForms) :
    getCode16 ((asmCAndType cmd rd rs2).setWidth 32) mxl =
      { instruction := i, rd := windowNumber rd, rs1 := windowNumber rd, rs2 := windowNumber rs2 } := by
  obtain ⟨hop', h10, h5, hrd', hrs2'⟩ := asmCAndType_fields cmd rd rs2 hcmd
  simp (disch := decide) only [getCode16, opcode_parcel, hop', hop, code16Arith, windowReg_parcel, hrd', hrs2',
    hrd.number_eq, hrs2.number_eq, bitcrop_parcel, h10, h5]
  simp only [registerForms, List.mem_cons, Prod.mk.injEq, List.not_mem_nil, or_false] at hform
  rcases hform with ⟨h3, h2, rfl⟩ | ⟨h3, h2, rfl⟩ | ⟨h3, h2, rfl⟩ | ⟨h3, h2, rfl⟩ | ⟨h3, h2, rfl⟩ | ⟨h3, h2, rfl⟩
  all_goals
    rw [h3, h2]
    rfl

/-- and those of a register and an immediate, by the bits 11 and 10. -/
theorem code_andiType (hrd : Window rd) (hcmd : Clear cmd 2 10 ∧ Clear cmd 12 13) (hop : Rvc.opcode cmd = 0b10001#5)
    (hform : ¬ (cmd.extractLsb' 11 1 = 1 ∧ cmd.extractLsb' 10 1 = 1)) :
    getCode16 ((asmCAndiType cmd rd imm).setWidth 32) mxl =
      { instruction := if cmd.extractLsb' 11 1 = 1 then .andi else if cmd.extractLsb' 10 1 = 1 then .srai else .srli,
        rd := windowNumber rd, rs1 := windowNumber rd,
        imm := if cmd.extractLsb' 11 1 = 1 then signExtend ((imm.setWidth 6).setWidth 32) 6
          else (imm.setWidth 6).setWidth 32 } := by
  obtain ⟨hop', h11, h10, hrd', himm⟩ := asmCAndiType_fields cmd rd hcmd imm
  -- the tests for the operations of two registers take in a bit of the immediate
  have hregisters : ∀ x : BitVec 3, ¬ (x.extractLsb' 1 1 = 1 ∧ x.extractLsb' 0 1 = 1) →
      ¬ x.setWidth 32 = 0b011 ∧ ¬ x.setWidth 32 = 0b111 := by decide
  obtain ⟨h3, h7⟩ := hregisters ((asmCAndiType cmd rd imm).extractLsb' 10 3) (by
    rw [slice_slice _ (by decide), slice_slice _ (by decide), h11, h10]
    exact hform)
  simp only [getCode16, opcode_parcel, hop', hop, code16Arith, windowReg_parcel, hrd', hrd.number_eq, imm6_parcel_add,
    himm]
  simp (disch := decide) only [bitcrop_parcel, h11, h10, h3, h7, false_and, if_false]
  have hbit : ∀ x : BitVec 1, x = 0 ∨ x = 1 := by decide
  rcases hbit (cmd.extractLsb' 11 1) with hu | hu <;> rcases hbit (cmd.extractLsb' 10 1) with hv | hv
  · rw [hu, hv]
    rfl
  · rw [hu, hv]
    rfl
  · rw [hu, hv]
    rfl
  · exact absurd ⟨hu, hv⟩ hform

theorem code_andi (hrd : Window rd) (h : Signed 0 6 imm) :
    getCode16 ((asmCAndi rd imm).setWidth 32) mxl = (andi rd imm).expansion := by
  rw [asmCAndi, code_andiType _ hrd (by decide) rfl (by decide), h.extended_six]
  rfl

theorem code_srai (hrd : Window rd) (h : Amount mxl imm) :
    getCode16 ((asmCSrai rd imm).setWidth 32) mxl = (srai rd imm).expansion := by
  rw [asmCSrai, code_andiType _ hrd (by decide) rfl (by decide), h.extended]
  rfl

theorem code_srli (hrd : Window rd) (h : Amount mxl imm) :
    getCode16 ((asmCSrli rd imm).setWidth 32) mxl = (srli rd imm).expansion := by
  rw [asmCSrli, code_andiType _ hrd (by decide) rfl (by decide), h.extended]
  rfl

theorem code_j (h : Signed 1 12 offset) : getCode16 ((asmCJ offset).setWidth 32) mxl = (j offset).expansion := by
  obtain ⟨hop, himm⟩ := asmCJType_fields 0b1010000000000001 (by decide) h
  simp only [getCode16, opcode_parcel, asmCJ, hop, jumpImm_parcel, himm, h.extended (by decide) (by decide)]
  rfl

theorem code_jal (h : Signed 1 12 offset) (hmxl : mxl = 1) :
    getCode16 ((asmCJal offset).setWidth 32) mxl = (jal offset).expansion := by
  obtain ⟨hop, himm⟩ := asmCJType_fields 0b0010000000000001 (by decide) h
  simp only [getCode16, opcode_parcel, asmCJal, hop, jumpImm_parcel, himm, h.extended (by decide) (by decide), hmxl]
  rfl

theorem code_beqz (hrs1 : Window rs1) (h : Signed 1 9 offset) :
    getCode16 ((asmCBeqz rs1 offset).setWidth 32) mxl = (beqz rs1 offset).expansion := by
  obtain ⟨hop, hr, himm⟩ := asmCBType_fields 0b1100000000000001 rs1 (by decide) h
  simp only [getCode16, opcode_parcel, asmCBeqz, hop, windowReg_parcel, hr, hrs1.number_eq, branchImm_parcel, himm,
    h.extended (by decide) (by decide)]
  rfl

theorem code_bnez (hrs1 : Window rs1) (h : Signed 1 9 offset) :
    getCode16 ((asmCBnez rs1 offset).setWidth 32) mxl = (bnez rs1 offset).expansion := by
  obtain ⟨hop, hr, himm⟩ := asmCBType_fields 0b1110000000000001 rs1 (by decide) h
  simp only [getCode16, opcode_parcel, asmCBnez, hop, windowReg_parcel, hr, hrs1.number_eq, branchImm_parcel, himm,
    h.extended (by decide) (by decide)]
  rfl

theorem code_addi4spn (hrd : Window rd) (h : Unsigned 2 10 uimm) (hne : uimm ≠ 0) :
    getCode16 ((asmCAddi4spn rd uimm).setWidth 32) mxl = (addi4spn rd uimm).expansion := by
  obtain ⟨hop, hr, himm⟩ := asmCAddi4spn_fields rd h
  have hfield : ¬ (asmCAddi4spn rd uimm).extractLsb' 5 8 = 0 := by
    intro h0
    have hzero := addi4spn_field _ h0
    rw [himm] at hzero
    have hext := h.extended (by decide)
    rw [hzero] at hext
    exact hne hext.symm
  simp only [getCode16, opcode_parcel, hop, bitcrop_eight, if_neg hfield, windowReg_parcel, hr, hrd.number_eq,
    addi4spnImm_parcel, himm, h.extended (by decide)]
  rfl

theorem code_lw (hrd : Window rd) (hrs1 : Window rs1) (h : Unsigned 2 7 uimm) :
    getCode16 ((asmCLw rd rs1 uimm).setWidth 32) mxl = (lw rd rs1 uimm).expansion := by
  obtain ⟨hop, hr, hr', himm⟩ := asmCLwType_fields 0b0100000000000000 rd rs1 (by decide) h
  simp only [getCode16, opcode_parcel, asmCLw, hop, windowReg_parcel, hr, hr', hrd.number_eq, hrs1.number_eq,
    wordImm_parcel, himm, h.extended (by decide)]
  rfl

theorem code_sw (hrs1 : Window rs1) (hrs2 : Window rs2) (h : Unsigned 2 7 uimm) :
    getCode16 ((asmCsw rs1 rs2 uimm).setWidth 32) mxl = (sw rs1 rs2 uimm).expansion := by
  obtain ⟨hop, hr, hr', himm⟩ := asmCLwType_fields 0b1100000000000000 rs2 rs1 (by decide) h
  simp only [getCode16, opcode_parcel, asmCsw, hop, windowReg_parcel, hr, hr', hrs1.number_eq, hrs2.number_eq,
    wordImm_parcel, himm, h.extended (by decide)]
  rfl

theorem code_ld (hrd : Window rd) (hrs1 : Window rs1) (h : Unsigned 3 8 uimm) :
    getCode16 ((asmCLd rd rs1 uimm).setWidth 32) mxl = (ld rd rs1 uimm).expansion := by
  obtain ⟨hop, hr, hr', himm⟩ := asmCLdType_fields 0b0110000000000000 rd rs1 (by decide) h
  simp only [getCode16, opcode_parcel, asmCLd, hop, windowReg_parcel, hr, hr', hrd.number_eq, hrs1.number_eq,
    doubleImm_parcel, himm, h.extended (by decide)]
  rfl

theorem code_sd (hrs1 : Window rs1) (hrs2 : Window rs2) (h : Unsigned 3 8 uimm) :
    getCode16 ((asmCSd rs1 rs2 uimm).setWidth 32) mxl = (sd rs1 rs2 uimm).expansion := by
  obtain ⟨hop, hr, hr', himm⟩ := asmCLdType_fields 0b1110000000000000 rs2 rs1 (by decide) h
  simp only [getCode16, opcode_parcel, asmCSd, hop, windowReg_parcel, hr, hr', hrs1.number_eq, hrs2.number_eq,
    doubleImm_parcel, himm, h.extended (by decide)]
  rfl

end

/-- What a parcel is decoded to. -/
theorem decoded {mxl : Nat} (call : CompressedCall) (h : call.Accepted mxl) (hkept : ¬ call.Lost) :
    getCode16 (call.parcel.setWidth 32) mxl = call.expansion := by
  cases call with
  | add rd rs2 => exact (code_add h.1 h.2.1 h.2.2).trans (if_neg hkept)
  | ebreak => exact code_ebreak
  | jalr rs1 => exact code_jalr h.1 h.2
  | jr rs1 => exact code_jr
  | ldsp rd uimm => exact code_ldsp h.2.2.2
  | lwsp rd uimm => exact code_lwsp h.2.2
  | mv rd rs2 => exact code_mv h.2.1 h.2.2
  | sdsp rs2 uimm => exact code_sdsp h.2.2
  | slli rd uimm => exact code_slli h.2
  | swsp rs2 uimm => exact code_swsp h.2
  | addi rd imm => exact code_addi h.2
  | li rd imm => exact code_li h.2
  | addi16sp imm => exact code_addi16sp h.1 h.2
  | addiw rd imm => exact code_addiw h.2.2.2 h.1
  | and rd rs2 =>
    rw [parcel, asmCAnd]
    exact code_andType _ h.1 h.2 (by decide) rfl (by decide)
  | addw rd rs2 =>
    rw [parcel, asmCAddw]
    exact code_andType _ h.2.1 h.2.2 (by decide) rfl (by decide)
  | or rd rs2 =>
    rw [parcel, asmCOr]
    exact code_andType _ h.1 h.2 (by decide) rfl (by decide)
  | sub rd rs2 =>
    rw [parcel, asmCSub]
    exact code_andType _ h.1 h.2 (by decide) rfl (by decide)
  | subw rd rs2 =>
    rw [parcel, asmCSubw]
    exact code_andType _ h.2.1 h.2.2 (by decide) rfl (by decide)
  | xor rd rs2 =>
    rw [parcel, asmCXor]
    exact code_andType _ h.1 h.2 (by decide) rfl (by decide)
  | andi rd imm => exact code_andi h.1 h.2
  | srai rd imm => exact code_srai h.1 h.2
  | srli rd imm => exact code_srli h.1 h.2
  | beqz rs1 offset => exact code_beqz h.1 h.2
  | bnez rs1 offset => exact code_bnez h.1 h.2
  | j offset => exact code_j h
  | jal offset => exact code_jal h.2 h.1
  | lui rd imm =>
    have hzero : rd = 0 := not_not.mp hkept
    rw [parcel, code_lui h.2.2.1 h.2.2.2, hzero]
    rfl
  | addi4spn rd uimm => exact code_addi4spn h.1 h.2.1 h.2.2
  | ld rd rs1 uimm => exact code_ld h.2.1 h.2.2.1 h.2.2.2
  | lw rd rs1 uimm => exact code_lw h.1 h.2.1 h.2.2
  | sd rs1 rs2 uimm => exact code_sd h.2.2.1 h.2.1 h.2.2.2
  | sw rs1 rs2 uimm => exact code_sw h.2.1 h.1 h.2.2

/-- The two that are lost are decoded to something else. -/
theorem lost {mxl : Nat} (call : CompressedCall) (h : call.Accepted mxl) (hlost : call.Lost) :
    getCode16 (call.parcel.setWidth 32) mxl ≠ call.expansion := by
  cases call with
  | add rd rs2 =>
    have hzero : rd = 0 := hlost
    rw [parcel, code_add h.1 h.2.1 h.2.2, if_pos hzero]
    intro heq
    have hi : Instruction.error = Instruction.add := congrArg Decoded.instruction heq
    cases hi
  | lui rd imm =>
    rw [parcel, code_lui h.2.2.1 h.2.2.2]
    intro heq
    exact hlost ((reg_eq_zero h.1).mp (congrArg Decoded.rd heq).symm)
  | _ => exact absurd hlost not_false

/-- **Assembler and decoder on compressed instructions.** For every encoder,
the parcel it makes of operands it accepts decodes to its expansion with just
these operands, if and only if it is not `AsmCLui` for a register other than
`x0`, which it leaves out, or a `c.add` to `x0`. -/
theorem decoded_iff (mxl : Nat) (call : CompressedCall) (h : call.Accepted mxl) :
    getCode16 (call.parcel.setWidth 32) mxl = call.expansion ↔ ¬ call.Lost :=
  ⟨fun heq hlost => lost call h hlost heq, decoded call h⟩

/-- `c.beqz x9, -256`. -/
theorem decoded_iff_beqz : getCode16 ((asmCBeqz 9 (-256)).setWidth 32) 2 =
    { instruction := .beq, rs1 := 9, rs2 := 0, imm := -256 } :=
  (decoded_iff 2 (beqz 9 (-256))
    ⟨(by decide : (9 : BitVec 32) < 16), (by decide : (2 ^ 1 : Int) ∣ -256), by decide, by decide⟩).mpr not_false

/-- `c.lui x5, 0x1000` goes to `x0`. -/
theorem decoded_iff_lui : (lui 5 0x1000).Accepted 2 ∧
    getCode16 ((asmCLui 5 0x1000).setWidth 32) 2 = { instruction := .lui, rd := 0, imm := 0x1000 } ∧
    (lui 5 0x1000).expansion.rd = 5 :=
  ⟨⟨(by decide : (5 : BitVec 32) < 32), by decide, ⟨(by decide : (2 ^ 12 : Int) ∣ 0x1000), by decide, by decide⟩,
    by decide⟩, by decide, rfl⟩

end CompressedCall

end RiscvEmulator
