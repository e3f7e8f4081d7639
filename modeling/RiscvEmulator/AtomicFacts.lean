/-
Atomicity: stores that fault, and the atomic operations.

A store that is cut at the end of a doubleword writes its first part before
it translates the second. `store_atomic_iff` says when a store that ends in
a page fault has changed nothing all the same.

`Amo` is the meaning of the atomic operations on words of any width.
`amoInstruction_exact` says that the eighteen instructions have it, at the
width of each.
-/
import RiscvEmulator.DataFacts

namespace RiscvEmulator

open Bytes (byteOf)
open MemoryWrapper (flat flat_add)

namespace RiscvCpu

variable {c c' : RiscvCpu} {R : Regime} {w : Nat} {va : BitVec 64} {t : Translation}

/-! ## What a faulting store may change -/

/-- `b` is the low byte of a leaf entry of the page table in use. -/
def LeafByte (c : RiscvCpu) (b : BitVec 32) : Prop :=
  ∃ R va t, c.regime = .ok R ∧ R.translate c.memory.bytes va = some t ∧ t.leaf = some b

/-- The byte `x` at `b` is what was there, but for A and D if it belongs to a
leaf entry. -/
def SameButMarks (c : RiscvCpu) (b : BitVec 32) (x : BitVec 8) : Prop :=
  x = c.memory.bytes b ∨ (c.LeafByte b ∧ x &&& 0x3F = c.memory.bytes b &&& 0x3F)

/-- `c'` is `c` but for what a trap changes and for marks of leaf entries. -/
structure Undone (c c' : RiscvCpu) : Prop where
  reg : c'.reg = c.reg
  peripheral : c'.peripheral = c.peripheral
  memory : ∀ b, c.SameButMarks b (c'.memory.bytes b)

/-- The store ends in a page fault. -/
def StoreFaults (c : RiscvCpu) (i : Instruction) (rs1 rs2 : BitVec 5) (imm : BitVec 32) (c' : RiscvCpu) : Prop :=
  c.storeInstruction i rs1 rs2 imm = .ok c' ∧ c'.trapLog = (storePageFault, false) :: c.trapLog

/-- The first part of a store of `v` at `va` is written, in at least one byte
a different one from what was there, and then the second part faults. -/
structure TornStore (c : RiscvCpu) (va v : BitVec 64) (w : Nat) (R : Regime) (t : Translation) : Prop where
  noFault : c.pageFault = false
  cut : 8 < va.toNat % 8 + w
  regime : c.regime = .ok R
  first : R.translate c.memory.bytes va = some t
  second : R.translate (Bytes.store (t.mark c.memory.bytes true) (flat t.address) v (8 - va.toNat % 8))
    (va + BitVec.ofNat 64 (8 - va.toNat % 8)) = none
  changed : ∃ j < 8 - va.toNat % 8, ¬ c.SameButMarks (flat t.address + BitVec.ofNat 32 j) (byteOf v j)

theorem and_marked (b : BitVec 8) : marked b true &&& 0x3F = b &&& 0x3F := by
  rw [marked, if_pos rfl, BitVec.and_or_distrib_right]
  exact BitVec.or_zero

theorem sameButMarks_mark (hR : c.regime = .ok R) (ht : R.translate c.memory.bytes va = some t) (b : BitVec 32) :
    c.SameButMarks b (t.mark c.memory.bytes true b) := by
  rw [Translation.mark_apply]
  split
  · next hl => exact .inr ⟨⟨R, va, t, hR, ht, hl⟩, and_marked _⟩
  · exact .inl rfl

/-- A store over a marked memory changes no more than marks exactly when each
byte it writes does. -/
theorem sameButMarks_store_iff (hR : c.regime = .ok R) (ht : R.translate c.memory.bytes va = some t)
    (a : BitVec 32) (v : BitVec 64) {n : Nat} (hn : n ≤ 8) :
    (∀ b, c.SameButMarks b (Bytes.store (t.mark c.memory.bytes true) a v n b)) ↔
      ∀ j < n, c.SameButMarks (a + BitVec.ofNat 32 j) (byteOf v j) := by
  constructor
  · intro h j hj
    have hb := h (a + BitVec.ofNat 32 j)
    rwa [Bytes.store_apply _ _ _ (by omega), Bytes.toNat_offset _ (by omega), if_pos hj] at hb
  · intro h b
    rw [Bytes.store_apply _ _ _ (by omega)]
    split
    · next hlt =>
      have hb := h _ hlt
      rwa [Bytes.add_ofNat_sub] at hb
    · exact sameButMarks_mark hR ht b

/-! ## The ways through a store -/

/-- A trap changes what it should, so only the state it is entered in counts. -/
theorem undone_trapBody_iff {c₀ : RiscvCpu} {cause : Nat} {interrupt : Bool} (h : Translated c c₀) :
    Undone c (c₀.trapBody cause interrupt) ↔ ∀ b, c.SameButMarks b (c₀.memory.bytes b) := by
  have hdata : (c₀.trapBody cause interrupt).data = _ := trapBody_data
  have hm : (c₀.trapBody cause interrupt).memory = c₀.memory := congrArg Data.memory hdata
  rw [← hm]
  exact ⟨Undone.memory, fun hb =>
    ⟨(congrArg Data.reg hdata).trans h.reg, (congrArg Data.peripheral hdata).trans h.peripheral, hb⟩⟩

/-- A fault of the first translation, or one that was pending, stops a store
before anything is written. -/
theorem storeInstruction_early {i : Instruction} {rs1 : BitVec 5} (rs2 : BitVec 5) {imm : BitVec 32} {pa : BitVec 64}
    (hva : c.reg rs1 + imm.signExtend 64 = va) (h : c.virtualToPhysical va true = .ok (pa, c'))
    (hp : c'.pageFault = true) : c.storeInstruction i rs1 rs2 imm = .ok (c'.trapBody storePageFault false) := by
  subst hva
  rw [storeInstruction_call h hp, trap_eq (by decide)]

theorem storeInstruction_regime {i : Instruction} {rs1 rs2 : BitVec 5} {imm : BitVec 32}
    (h : c.storeInstruction i rs1 rs2 imm = .ok c') : ∃ R, c.regime = .ok R := by
  obtain ⟨⟨pa, c₁⟩, h₁, -⟩ := Except.bind_ok_iff.mp h
  exact regime_of_ok h₁

/-- A store that ends in a page fault: `Trap` is entered before anything is
written, or after the first part of a store that is cut. -/
theorem storeFaults_cases {i : Instruction} {rs1 rs2 : BitVec 5} {imm : BitVec 32} (hw : getStoreWidth i = .ok w)
    (hva : c.reg rs1 + imm.signExtend 64 = va) (h : c.StoreFaults i rs1 rs2 imm c') :
    ∃ R c₀, c.regime = .ok R ∧ Translated c c₀ ∧ c' = c₀.trapBody storePageFault false ∧
      ((∀ b, c.SameButMarks b (c₀.memory.bytes b)) ∨
        ∃ t, c.pageFault = false ∧ R.translate c.memory.bytes va = some t ∧ w - getAccessWidth w va > 0 ∧
          c₀.memory.bytes = Bytes.store (t.mark c.memory.bytes true) (flat t.address) (c.reg rs2)
            (getAccessWidth w va) ∧
          R.translate c₀.memory.bytes (va + BitVec.ofNat 64 (getAccessWidth w va)) = none) := by
  obtain ⟨hstore, hlog⟩ := h
  obtain ⟨R, hR⟩ := storeInstruction_regime hstore
  cases ht : R.translate c.memory.bytes va with
  | none =>
    obtain ⟨c₀, hv, hk, hpf, -, hb, -⟩ := virtualToPhysical_none hR ht true
    rw [storeInstruction_early rs2 hva hv hpf] at hstore
    cases hstore
    exact ⟨R, c₀, hR, hk, rfl, .inl fun b => .inl (congrFun hb b)⟩
  | some t =>
    by_cases hp : c.pageFault = true
    · obtain ⟨c₀, hv, hk, hpf, -, hb, -⟩ := virtualToPhysical_some hR ht true
      rw [storeInstruction_early rs2 hva hv (hpf.trans hp)] at hstore
      cases hstore
      exact ⟨R, c₀, hR, hk, rfl, .inl fun b => hb ▸ sameButMarks_mark hR ht b⟩
    rw [Bool.not_eq_true] at hp
    obtain ⟨c₁, hf, hfirst⟩ := storeInstruction_first rs2 hp hR hw hva ht
    rw [hfirst] at hstore
    have hlog₁ : c₁.trapLog = c.trapLog := congrArg Control.trapLog hf.control
    split at hstore
    · next hn =>
      have hR₁ : c₁.regime = .ok R := hf.toTranslated.regime.trans hR
      cases ht₂ : R.translate c₁.memory.bytes (va + BitVec.ofNat 64 (getAccessWidth w va)) with
      | none =>
        obtain ⟨c₀, hv, hk, hpf, -, hb, -⟩ := virtualToPhysical_none hR₁ ht₂ true
        rw [hv, Except.ok_bind] at hstore
        dsimp only at hstore
        rw [if_pos hpf] at hstore
        obtain ⟨-, rfl⟩ := trap_ok_iff.mp hstore
        exact ⟨R, c₀, hR, hf.toTranslated.trans hk, rfl, .inr ⟨t, hp, ht, hn, hb.trans hf.bytes, hb ▸ ht₂⟩⟩
      | some t₂ =>
        obtain ⟨c₂, hv, hk, hpf, -, hb, -⟩ := virtualToPhysical_some hR₁ ht₂ true
        rw [hv, Except.ok_bind] at hstore
        dsimp only at hstore
        rw [if_neg (by rw [hpf, hf.pageFault]; exact Bool.false_ne_true)] at hstore
        obtain ⟨m, -, hstore⟩ := Except.bind_ok_iff.mp hstore
        cases hstore
        have hlog₂ : c₂.trapLog = c₁.trapLog := congrArg Control.trapLog hk.control
        exact absurd (hlog.symm.trans (hlog₂.trans hlog₁)) (List.cons_ne_self _ _)
    · cases hstore
      exact absurd (hlog.symm.trans hlog₁) (List.cons_ne_self _ _)

/-- A torn store ends in a page fault, with its first part written. -/
theorem tornStore_faults {i : Instruction} {rs1 rs2 : BitVec 5} {imm : BitVec 32} (hw : getStoreWidth i = .ok w)
    (hva : c.reg rs1 + imm.signExtend 64 = va) (h : c.TornStore va (c.reg rs2) w R t) :
    ∃ c₀, Translated c c₀ ∧ c.StoreFaults i rs1 rs2 imm (c₀.trapBody storePageFault false) ∧
      c₀.memory.bytes =
        Bytes.store (t.mark c.memory.bytes true) (flat t.address) (c.reg rs2) (8 - va.toNat % 8) := by
  have hcut := getAccessWidth_eq (getStoreWidth_ok hw) va
  have h8 := h.cut
  rw [if_neg (by omega)] at hcut
  obtain ⟨c₁, hf, hstore⟩ := storeInstruction_first rs2 h.noFault h.regime hw hva h.first
  rw [hcut] at hf hstore
  rw [if_pos (by omega)] at hstore
  have ht₂ := h.second
  rw [← hf.bytes] at ht₂
  obtain ⟨c₀, hv, hk, hpf, -, hb, -⟩ := virtualToPhysical_none (hf.toTranslated.regime.trans h.regime) ht₂ true
  rw [hv, Except.ok_bind] at hstore
  dsimp only at hstore
  rw [if_pos hpf, trap_eq (by decide)] at hstore
  have hlog : c₀.trapLog = c.trapLog := congrArg Control.trapLog (hf.toTranslated.trans hk).control
  refine ⟨c₀, hf.toTranslated.trans hk, ⟨hstore, ?_⟩, hb.trans hf.bytes⟩
  rw [← hlog]
  exact trapBody_trapLog

/-- **Faulting stores.** A store that ends in a page fault has changed no
register, no byte of memory but in the A and D bits of leaf entries, and
signalled no device, unless it is torn: cut at the end of a doubleword, with
a second part that faults after a first part that changed something. -/
theorem store_atomic_iff (c : RiscvCpu) (i : Instruction) (rs1 rs2 : BitVec 5) (imm : BitVec 32) (w : Nat)
    (hw : getStoreWidth i = .ok w) :
    (∀ c', c.StoreFaults i rs1 rs2 imm c' → Undone c c') ↔
      ¬ ∃ R t, c.TornStore (c.reg rs1 + imm.signExtend 64) (c.reg rs2) w R t := by
  constructor
  · rintro h ⟨R, t, htorn⟩
    obtain ⟨c₀, hk, hfaults, hb⟩ := tornStore_faults hw rfl htorn
    have hun := (undone_trapBody_iff hk).mp (h _ hfaults)
    rw [hb] at hun
    obtain ⟨j, hj, hne⟩ := htorn.changed
    exact hne ((sameButMarks_store_iff htorn.regime htorn.first _ _ (by omega)).mp hun j hj)
  · intro hnot c' hfaults
    have hcut := getAccessWidth_eq (getStoreWidth_ok hw) (c.reg rs1 + imm.signExtend 64)
    obtain ⟨R, c₀, hR, hk, rfl, hearly | ⟨t, hp, ht, hn, hb, hnone⟩⟩ := storeFaults_cases hw rfl hfaults
    · exact (undone_trapBody_iff hk).mpr hearly
    have h8 : 8 < (c.reg rs1 + imm.signExtend 64).toNat % 8 + w := by split at hcut <;> omega
    rw [if_neg (by omega)] at hcut
    rw [hb] at hnone
    rw [hcut] at hb hnone
    refine (undone_trapBody_iff hk).mpr ?_
    rw [hb]
    refine (sameButMarks_store_iff hR ht _ _ (by omega)).mpr fun j hj => ?_
    by_contra hne
    exact hnot ⟨R, t, hp, h8, hR, ht, hnone, j, hj, hne⟩

/-- A supervisor with one page, of frame 5, and `x1` two bytes before its end. -/
def halfMapped : RiscvCpu :=
  let memory := ((MemoryWrapper.new.assign 0).setWord 0 0x400 0x801).setWord 0 0x800 0x14CF
  { ((((new false 0).setMemory memory).setCsr Csr.satp 0x80000001).setReg x1 0xFFE).setReg x2 0x44332211 with
    privilege := .supervisorMode }

theorem halfMapped_torn : halfMapped.TornStore 0xFFE 0x44332211 4 (.table (.sv32 1)) ⟨0x5FFE, some 0x2000⟩ where
  noFault := rfl
  cut := by decide
  regime := rfl
  first := by decide
  second := by decide
  changed := by
    refine ⟨0, by decide, ?_⟩
    rintro (h | ⟨-, h⟩)
    · exact absurd h (by decide)
    · exact absurd h (by decide)

/-- A word stored there takes the fault, and two of its bytes are in memory. -/
theorem store_torn : ∃ c', halfMapped.StoreFaults .sw x1 x2 0 c' ∧ c'.memory.bytes 0x5FFE = 0x11 ∧
    halfMapped.memory.bytes 0x5FFE = 0 ∧ ¬ Undone halfMapped c' := by
  obtain ⟨c₀, hk, hfaults, hb⟩ := @tornStore_faults halfMapped _ 4 0xFFE _ .sw x1 x2 0 rfl rfl halfMapped_torn
  have hm : (c₀.trapBody storePageFault false).memory = c₀.memory := congrArg Data.memory trapBody_data
  have hbyte : c₀.memory.bytes 0x5FFE = 0x11 := by
    rw [hb]
    decide
  refine ⟨_, hfaults, by rw [hm]; exact hbyte, by decide, fun hun => ?_⟩
  rcases (undone_trapBody_iff hk).mp hun 0x5FFE with h | ⟨-, h⟩
  · rw [hbyte] at h
    exact absurd h (by decide)
  · rw [hbyte] at h
    exact absurd h (by decide)

/-- A word stored on the page after it takes the fault too, and leaves nothing. -/
theorem store_atomic_aligned : ∃ c', (halfMapped.setReg x1 0x1000).StoreFaults .sw x1 x2 0 c' ∧
    Undone (halfMapped.setReg x1 0x1000) c' := by
  have hs : (halfMapped.setReg x1 0x1000).storeInstruction .sw x1 x2 0 =
      .ok (((halfMapped.setReg x1 0x1000).storeInstruction .sw x1 x2 0).toOption.getD halfMapped) :=
    Except.eq_ok_getD (by decide) _
  have hfaults : (halfMapped.setReg x1 0x1000).StoreFaults .sw x1 x2 0 _ := ⟨hs, by decide⟩
  refine ⟨_, hfaults, (store_atomic_iff (halfMapped.setReg x1 0x1000) .sw x1 x2 0 4 rfl).mpr ?_ _ hfaults⟩
  rintro ⟨R, t, htorn⟩
  exact absurd htorn.cut (by decide)

end RiscvCpu

/-! ## Atomic operations -/

/-- The operations. -/
inductive Amo where
  | add | and | or | xor | max | maxu | min | minu | swap
  deriving DecidableEq

/-- What is stored, from what was there and the operand. -/
def Amo.apply {n : Nat} (old y : BitVec n) : Amo → BitVec n
  | .add => old + y
  | .and => old &&& y
  | .or => old ||| y
  | .xor => old ^^^ y
  | .max => if old.toInt < y.toInt then y else old
  | .maxu => if old.toNat < y.toNat then y else old
  | .min => if old.toInt < y.toInt then old else y
  | .minu => if old.toNat < y.toNat then old else y
  | .swap => y

/-- The operation of an instruction and the number of bytes it works on. -/
def amoOf : Instruction → Option (Amo × Nat)
  | .amoaddw => some (.add, 4)
  | .amoaddd => some (.add, 8)
  | .amoandw => some (.and, 4)
  | .amoandd => some (.and, 8)
  | .amoorw => some (.or, 4)
  | .amoord => some (.or, 8)
  | .amoxorw => some (.xor, 4)
  | .amoxord => some (.xor, 8)
  | .amomaxw => some (.max, 4)
  | .amomaxd => some (.max, 8)
  | .amomaxuw => some (.maxu, 4)
  | .amomaxud => some (.maxu, 8)
  | .amominw => some (.min, 4)
  | .amomind => some (.min, 8)
  | .amominuw => some (.minu, 4)
  | .amominud => some (.minu, 8)
  | .amoswapw => some (.swap, 4)
  | .amoswapd => some (.swap, 8)
  | _ => none

namespace RiscvCpu

variable {c c' : RiscvCpu} {R : Regime} {w : Nat} {va : BitVec 64} {t : Translation}

theorem amoOf_width {i : Instruction} {op : Amo} (h : amoOf i = some (op, w)) :
    w = if isAmoDoubleword i then 8 else 4 := by
  cases i <;> cases h <;> rfl

/-- `max` of the source chooses the other one of two equal arguments. -/
theorem max_signed {n : Nat} (x y : BitVec n) :
    (if y.toInt < x.toInt then x else y) = if x.toInt < y.toInt then y else x := by
  rcases Int.lt_trichotomy x.toInt y.toInt with h | h | h
  · rw [if_neg (by omega), if_pos h]
  · rw [BitVec.eq_of_toInt_eq h]
  · rw [if_pos h, if_neg (by omega)]

theorem max_unsigned {n : Nat} (x y : BitVec n) :
    (if y.toNat < x.toNat then x else y) = if x.toNat < y.toNat then y else x := by
  rcases Nat.lt_trichotomy x.toNat y.toNat with h | h | h
  · rw [if_neg (by omega), if_pos h]
  · rw [BitVec.eq_of_toNat_eq h]
  · rw [if_pos h, if_neg (by omega)]

/-- The low word of a sign-extended one. -/
theorem setWidth_signExtend_word (v : BitVec 64) : (signExtend v 32).setWidth 32 = v.setWidth 32 := by
  rw [signExtend_eq_signExtend _ (by decide) (by decide) (by decide), Bits.setWidth_signExtend _ (by decide)]

theorem setWidth_setWidth_word (v : BitVec 32) : (v.setWidth 64).setWidth 32 = v := by
  rw [BitVec.setWidth_setWidth_of_le _ (by decide), BitVec.setWidth_eq]

/-- The low bytes of what is stored are the operation on the low bytes. -/
theorem amoValue_exact {i : Instruction} {op : Amo} (h : amoOf i = some (op, w)) (x y : BitVec 64) :
    ∃ v, amoValue i x y = .ok v ∧ v.setWidth (8 * w) = op.apply (x.setWidth (8 * w)) (y.setWidth (8 * w)) := by
  cases i <;> cases h <;> refine ⟨_, rfl, ?_⟩
  all_goals simp only [Nat.reduceMul, Amo.apply, setWidth_signExtend_word, setWidth_setWidth_word, BitVec.setWidth_eq,
    Bits.setWidth_signExtend _ (show 32 ≤ 64 by decide), BitVec.lt_def, max_signed, max_unsigned,
    BitVec.setWidth_add _ _ (show 32 ≤ 64 by decide), BitVec.setWidth_and, BitVec.setWidth_or, BitVec.setWidth_xor]

/-- What an instruction loads, from the bytes in memory. -/
theorem amoLoaded {n : Nat} (h : n = 4 ∨ n = 8) (s : Bytes.Store 32) (a : BitVec 32) :
    (if n = 4 then signExtend (Bytes.load 64 s a n) 32 else Bytes.load 64 s a n) =
      (Bytes.load (8 * n) s a n).signExtend 64 := by
  rcases h with rfl | rfl
  · rw [if_pos rfl, signExtend_eq_signExtend _ (by decide) (by decide) (by decide), Bytes.load_setWidth _ _ (by decide)]
  · rw [if_neg (by decide), BitVec.signExtend_eq]

/-- `c'` is `c` after an atomic operation on the word at `a`. -/
structure AmoDone (c c' : RiscvCpu) (op : Amo) (w : Nat) (a : BitVec 32) (leaf : Option (BitVec 32)) (rd : BitVec 5)
    (y : BitVec 64) : Prop where
  stored : Bytes.load (8 * w) c'.memory.bytes a w =
    op.apply (Bytes.load (8 * w) c.memory.bytes a w) (y.setWidth (8 * w))
  reg : c'.reg = Function.update c.reg rd ((Bytes.load (8 * w) c.memory.bytes a w).signExtend 64)
  others : ∀ b, w ≤ (b - a).toNat →
    c'.memory.bytes b = c.memory.bytes b ∨ (leaf = some b ∧ c'.memory.bytes b = marked (c.memory.bytes b) true)

theorem marked_read_write (b : BitVec 8) : marked (marked b false) true = marked b true := by
  rw [marked, marked, marked, BitVec.or_assoc]
  rfl

/-- **Atomic operations.** At an address, aligned or not, that translates and
leads to no part of an entry of its own translation, each of the eighteen
instructions stores its operation on the word there and the low bits of
`rs2`, gives the old word to `rd`, and changes no other register and no
other byte but the mark of the leaf entry. -/
theorem amoInstruction_exact (c : RiscvCpu) (i : Instruction) (rd rs1 rs2 : BitVec 5) (op : Amo) (w : Nat) (R : Regime)
    (t : Translation) (hi : amoOf i = some (op, w)) (hR : c.regime = .ok R)
    (ht : R.translate c.memory.bytes (c.reg rs1) = some t)
    (hown : ∀ j < w, ¬ R.Uses c.memory.bytes (c.reg rs1) (flat t.address + BitVec.ofNat 32 j)) :
    ∃ c', c.amoInstruction i rd rs1 rs2 = .ok c' ∧ AmoDone c c' op w (flat t.address) t.leaf rd (c.reg rs2) := by
  have hw := amoOf_width hi
  have hw48 : w = 4 ∨ w = 8 := by rw [hw]; split <;> simp
  -- The first translation, for the load.
  obtain ⟨c₁, h₁, hk₁, -, -, hb₁, -⟩ := virtualToPhysical_some hR ht false
  have hleaf : ∀ j < w, t.leaf ≠ some (flat t.address + BitVec.ofNat 32 j) :=
    fun j hj hl => hown j hj (Regime.uses_leaf ht hl)
  have hload : ∀ n, Bytes.load n c₁.memory.bytes (flat t.address) w = Bytes.load n c.memory.bytes (flat t.address) w :=
    fun n => Bytes.load_congr fun j hj => by rw [hb₁, Translation.mark_apply, if_neg (hleaf j hj)]
  -- The second one, for the store, finds the same place.
  have ht₂ : R.translate c₁.memory.bytes (c.reg rs1) = some t := by
    rw [hb₁, (Regime.translate_mark ht false _).1, ht]
  obtain ⟨c₂, h₂, hk₂, -, -, hb₂, -⟩ := virtualToPhysical_some (hk₁.regime.trans hR) ht₂ true
  obtain ⟨v, hv, hexact⟩ := amoValue_exact hi ((Bytes.load (8 * w) c.memory.bytes (flat t.address) w).signExtend 64)
    (c₁.reg rs2)
  obtain ⟨m, hm, hbm⟩ := storeWd_bytes c₂.memory t.address v (w := w) (by omega) (by omega)
  refine ⟨{ c₂ with memory := m }.setReg rd ((Bytes.load (8 * w) c.memory.bytes (flat t.address) w).signExtend 64),
    ?_, ?_, ?_, ?_⟩
  · rw [amoInstruction]
    dsimp only
    rw [h₁, Except.ok_bind]
    dsimp only
    rw [← hw, loadWd_eq _ _ (by omega) (by omega), Except.ok_bind, hload, amoLoaded hw48, hv, Except.ok_bind, h₂,
      Except.ok_bind]
    dsimp only
    rw [hm, Except.ok_bind]
    rfl
  · show Bytes.load (8 * w) m.bytes (flat t.address) w = _
    rw [hbm, ← Bytes.store_setWidth (m := 8 * w) _ _ v (by omega), Bytes.load_store _ _ _ rfl (by omega), hexact,
      Bits.setWidth_signExtend _ (by omega), hk₁.reg]
  · show Function.update c₂.reg rd _ = _
    rw [hk₂.reg, hk₁.reg]
  · intro b hb
    show m.bytes b = c.memory.bytes b ∨ (t.leaf = some b ∧ m.bytes b = marked (c.memory.bytes b) true)
    rw [hbm, Bytes.store_apply _ _ _ (by omega), if_neg (by omega), hb₂, Translation.mark_apply, hb₁,
      Translation.mark_apply]
    split
    · next hl => exact .inr ⟨hl, marked_read_write _⟩
    · exact .inl rfl

/-- The maximum of a word on the mapped page, with the old word going to the
register of the address. -/
theorem amoInstruction_exact_max : ∃ c', (halfMapped.setReg x1 0x10).amoInstruction .amomaxw x1 x1 x2 = .ok c' ∧
    AmoDone (halfMapped.setReg x1 0x10) c' .max 4 (flat 0x5010) (some 0x2000) x1 0x44332211 :=
  amoInstruction_exact (halfMapped.setReg x1 0x10) .amomaxw x1 x1 x2 .max 4 (.table (.sv32 1)) ⟨0x5010, some 0x2000⟩
    rfl rfl (by decide) (by decide)

end RiscvCpu

end RiscvEmulator
