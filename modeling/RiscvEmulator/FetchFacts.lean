/-
The instruction fetch.

`LoadCmd` reads words and shifts them. `Regime.fetch` says what it is to
give: the parcel of 16 bits at the address, and if that is the first half of
an instruction the parcel after it, each through a translation of its own.
`loadCmd_fetch` is the whole of `LoadCmd` in these terms.
-/
import RiscvEmulator.DataFacts
import RiscvEmulator.RoundFacts

namespace RiscvEmulator

open MemoryWrapper (flat flat_add)

/-! ## Parcels -/

/-- The two bytes at a physical address. -/
def parcel (s : Bytes.Store 32) (pa : BitVec 64) : BitVec 16 := Bytes.load 16 s (flat pa) 2

/-- Two parcels side by side. -/
def joined (low high : BitVec 16) : BitVec 32 := low.setWidth 32 ||| (high.setWidth 32 <<< 16)

theorem toNat_joined (low high : BitVec 16) : (joined low high).toNat = low.toNat + 2 ^ 16 * high.toNat := by
  have hlow := low.isLt
  have hhigh := high.isLt
  have hl : (low.setWidth 32).toNat = low.toNat := BitVec.toNat_setWidth_of_le (by decide)
  have hh : (high.setWidth 32).toNat = high.toNat := BitVec.toNat_setWidth_of_le (by decide)
  rw [joined, BitVec.or_comm, Bits.toNat_shiftLeft_or _ _ (by omega) (by omega), hl, hh]
  omega

theorem getLsbD_joined (low high : BitVec 16) {i : Nat} (hi : i < 32) :
    (joined low high).getLsbD i = if i < 16 then low.getLsbD i else high.getLsbD (i - 16) := by
  rw [joined, BitVec.getLsbD_or, BitVec.getLsbD_shiftLeft, BitVec.getLsbD_setWidth, BitVec.getLsbD_setWidth]
  split
  · next h => simp [hi, h]
  · next h => simp [hi, h, show i - 16 < 32 by omega, BitVec.getLsbD_of_ge low i (by omega)]

theorem joined_and_low (low high : BitVec 16) : joined low high &&& 0xFFFF = low.setWidth 32 := by
  apply BitVec.eq_of_getLsbD_eq
  intro i hi
  rw [show (0xFFFF : BitVec 32) = Bits.ones 32 16 from rfl, Bits.getLsbD_and_ones, getLsbD_joined _ _ hi,
    BitVec.getLsbD_setWidth]
  by_cases h : i < 16
  · simp [h, hi]
  · simp [h, BitVec.getLsbD_of_ge low i (by omega)]

theorem joined_shift_high (low high : BitVec 16) : (joined low high >>> 16) &&& 0xFFFF = high.setWidth 32 := by
  apply BitVec.eq_of_getLsbD_eq
  intro i hi
  rw [show (0xFFFF : BitVec 32) = Bits.ones 32 16 from rfl, Bits.getLsbD_and_ones, BitVec.getLsbD_ushiftRight,
    BitVec.getLsbD_setWidth]
  by_cases h : i < 16
  · rw [getLsbD_joined _ _ (by omega)]
    simp [h, hi]
  · simp [h, BitVec.getLsbD_of_ge high i (by omega)]

/-- The two bits that tell a whole instruction from the first half of one. -/
theorem and_three_iff {n : Nat} (hn : 2 ≤ n) (v : BitVec n) : v &&& 0b11#n = 0b11#n ↔ v.toNat % 4 = 3 := by
  have hthree : (0b11#n).toNat = 3 := by
    rw [BitVec.toNat_ofNat]
    exact Nat.mod_eq_of_lt (Nat.lt_of_lt_of_le (by decide) (Nat.pow_le_pow_right (by decide) hn))
  have h : (v &&& 0b11#n).toNat = v.toNat % 2 ^ 2 := Bits.toNat_and_ones v 2
  rw [← BitVec.toNat_inj, hthree, h]
  exact Iff.rfl

theorem setWidth_and_three (p : BitVec 16) : p.setWidth 32 &&& 0b11 = 0b11 ↔ p &&& 0b11 = 0b11 := by
  rw [show (0b11 : BitVec 32) = 0b11#32 from rfl, show (0b11 : BitVec 16) = 0b11#16 from rfl,
    and_three_iff (by decide), and_three_iff (by decide), BitVec.toNat_setWidth_of_le (by decide)]

theorem joined_and_three (low high : BitVec 16) : joined low high &&& 0b11 = 0b11 ↔ low &&& 0b11 = 0b11 := by
  rw [show (0b11 : BitVec 32) = 0b11#32 from rfl, show (0b11 : BitVec 16) = 0b11#16 from rfl,
    and_three_iff (by decide), and_three_iff (by decide), toNat_joined]
  omega

theorem setWidth_setWidth_parcel (p : BitVec 16) : (p.setWidth 32).setWidth 16 = p := by
  rw [BitVec.setWidth_setWidth_of_le _ (by decide), BitVec.setWidth_eq]

theorem setWidth_joined (low high : BitVec 16) : (joined low high).setWidth 16 = low := by
  apply BitVec.eq_of_toNat_eq
  have hlow := low.isLt
  rw [BitVec.toNat_setWidth, toNat_joined]
  omega

theorem joined_inj {a b c d : BitVec 16} (h : joined a b = joined c d) : a = c ∧ b = d := by
  have hlow := congrArg (·.setWidth 16) h
  have hhigh := congrArg (fun v : BitVec 32 => ((v >>> 16) &&& 0xFFFF).setWidth 16) h
  simp only [setWidth_joined] at hlow
  simp only [joined_shift_high, setWidth_setWidth_parcel] at hhigh
  exact ⟨hlow, hhigh⟩

theorem setWidth_and_low (p : BitVec 16) : p.setWidth 32 &&& 0xFFFF = p.setWidth 32 := by
  apply BitVec.eq_of_toNat_eq
  have h : (p.setWidth 32 &&& 0xFFFF).toNat = _ := Bits.toNat_and_ones (p.setWidth 32) 16
  have hp := p.isLt
  rw [h, BitVec.toNat_setWidth_of_le (by decide)]
  omega

theorem and_low_eq (v : BitVec 32) : v &&& 0xFFFF = (v.setWidth 16).setWidth 32 := by
  apply BitVec.eq_of_toNat_eq
  have h : (v &&& 0xFFFF).toNat = _ := Bits.toNat_and_ones v 16
  rw [h, BitVec.toNat_setWidth_of_le (by decide), BitVec.toNat_setWidth]

/-! ## Words in memory -/

theorem load_word (s : Bytes.Store 32) (pa : BitVec 64) :
    Bytes.load 32 s (flat pa) 4 = joined (parcel s pa) (parcel s (pa + 2)) := by
  rw [show 4 = 2 + 2 from rfl, Bytes.load_append, joined, parcel, parcel, Bytes.load_setWidth _ _ (by decide),
    Bytes.load_setWidth _ _ (by decide), show pa + 2 = pa + BitVec.ofNat 64 2 from rfl, flat_add]

/-- The address `LoadCmd` reads at: the word of `pa`. -/
theorem toNat_wordBase (pa : BitVec 64) : ((pa >>> 2) <<< 2).toNat = pa.toNat - pa.toNat % 4 := by
  have h := pa.isLt
  rw [BitVec.toNat_shiftLeft, BitVec.toNat_ushiftRight, Nat.shiftRight_eq_div_pow, Nat.shiftLeft_eq, Nat.mod_eq_of_lt]
  all_goals omega

theorem read32_wordBase (m : MemoryWrapper) (pa : BitVec 64) :
    ∃ low high, m.read32 ((pa >>> 2) <<< 2) = .ok (joined low high) ∧
      (pa.toNat % 4 = 0 → low = parcel m.bytes pa ∧ high = parcel m.bytes (pa + 2)) ∧
      (pa.toNat % 4 = 2 → high = parcel m.bytes pa) := by
  have hbase := toNat_wordBase pa
  refine ⟨_, _, by rw [m.read32_eq (by omega), load_word], fun h => ?_, fun h => ?_⟩
  · rw [BitVec.eq_of_toNat_eq (show ((pa >>> 2) <<< 2).toNat = pa.toNat by omega)]
    exact ⟨rfl, rfl⟩
  · have htwo : (pa >>> 2) <<< 2 + 2 = pa := by
      apply BitVec.eq_of_toNat_eq
      have hlt := pa.isLt
      rw [BitVec.toNat_add, hbase, show (2 : BitVec 64).toNat = 2 from rfl]
      omega
    rw [htwo]

/-! ## What a fetch is to give -/

namespace Regime

/-- Where an address leads, or the address itself. -/
def physical (R : Regime) (s : Bytes.Store 32) (va : BitVec 64) : BitVec 64 :=
  match R.translate s va with
  | none => va
  | some t => t.address

/-- The instruction at `pc`, or the address that faults, and the memory with
the leaves marked. With a page fault `pending`, the second half of an
instruction that is not in one word is left out. -/
def fetch (R : Regime) (s : Bytes.Store 32) (pending : Bool) (pc : BitVec 64) :
    Except (BitVec 64) (BitVec 32) × Bytes.Store 32 :=
  match R.translate s pc with
  | none => (.error pc, s)
  | some t =>
    let s₁ := t.mark s false
    let low := parcel s₁ t.address
    if low &&& 0b11 ≠ 0b11 then (.ok (low.setWidth 32), s₁)
    else if pc.toNat % 4 = 0 then (.ok (joined low (parcel s₁ (R.physical s₁ (pc + 2)))), s₁)
    else if pending then (.ok (low.setWidth 32), s₁)
    else
      match R.translate s₁ (pc + 2) with
      | none => (.error (pc + 2), s₁)
      | some t₂ =>
        let s₂ := t₂.mark s₁ false
        (.ok (joined low (parcel s₂ t₂.address)), s₂)

end Regime

namespace RiscvCpu

variable {c c' : RiscvCpu} {R : Regime} {pc : BitVec 64}

/-- What `LoadCmd` returns and leaves is `f`. The flag of the translation unit
tells a fault of this fetch from one that was pending. -/
def FetchIs (c : RiscvCpu) (pc : BitVec 64) (f : Except (BitVec 64) (BitVec 32) × Bytes.Store 32) : Prop :=
  ∃ ir c', c.loadCmd pc = .ok (ir, c') ∧ Translated c c' ∧ c'.memory.bytes = f.2 ∧
    match f.1 with
    | .error a => c'.mmu.pageFault = true ∧ c'.pageFault = true ∧ c'.faultingAddress = a
    | .ok word => c'.mmu.pageFault = false ∧ ir = word ∧ c'.pageFault = c.pageFault ∧
        c'.faultingAddress = c.faultingAddress

theorem half_iff (heven : pc.toNat % 2 = 0) : pc &&& 0b10 = 0b10 ↔ pc.toNat % 4 = 2 := by
  have hbit : pc &&& 0b10 = 0b10 ↔ pc.getLsbD 1 = true := by
    constructor
    · intro h
      have := congrArg (·.getLsbD 1) h
      simpa using this
    · intro h
      have hmask : ∀ i < 64, (0b10#64).getLsbD i = decide (i = 1) := by decide
      apply BitVec.eq_of_getLsbD_eq
      intro i hi
      rw [BitVec.getLsbD_and, show (0b10 : BitVec 64) = 0b10#64 from rfl, hmask i hi]
      by_cases h1 : i = 1
      · subst h1; simp [h]
      · simp [h1]
  rw [hbit, ← BitVec.testBit_toNat, Nat.testBit_eq_decide_div_mod_eq]
  simp only [decide_eq_true_eq]
  omega

/-- What `LoadCmd` does after the first translation, by the halves of the
word it reads. -/
theorem loadCmd_eq {c₁ : RiscvCpu} {pa : BitVec 64} {low high : BitVec 16} (heven : pc.toNat % 2 = 0)
    (h₁ : c.virtualToPhysical pc false = .ok (pa, c₁))
    (hread : c₁.memory.read32 ((pa >>> 2) <<< 2) = .ok (joined low high)) :
    c.loadCmd pc =
      if pc.toNat % 4 = 0 then .ok (if low &&& 0b11 = 0b11 then joined low high else low.setWidth 32, c₁)
      else if c₁.pageFault ∨ high &&& 0b11 ≠ 0b11 then .ok (high.setWidth 32, c₁)
      else do
        let (pa', c₂) ← c₁.virtualToPhysical (pc + 2) false
        let upper ← c₂.memory.read32 ((pa' >>> 2) <<< 2)
        return (joined high (upper.setWidth 16), c₂) := by
  have hhalf := half_iff heven
  rw [loadCmd, h₁, Except.ok_bind]
  dsimp only
  rw [hread, Except.ok_bind]
  by_cases h0 : pc.toNat % 4 = 0
  · have hno : ¬ pc &&& 0b10 = 0b10 := fun h => by have := hhalf.mp h; omega
    simp only [hno, h0, if_false, if_true, false_and, and_false, Except.pure_eq_ok, Except.ok_bind, joined_and_three,
      joined_and_low]
  · have hyes : pc &&& 0b10 = 0b10 := hhalf.mpr (by omega)
    simp only [hyes, h0, if_false, if_true, true_and, joined_shift_high, setWidth_and_three, Except.pure_eq_ok]
    by_cases hc : c₁.pageFault = true ∨ ¬ high &&& 0b11 = 0b11
    · rw [if_neg (fun h => hc.elim (fun hp => by simp [hp] at h) fun hl => hl h.2), if_pos hc, Except.ok_bind]
      dsimp only
      rw [setWidth_and_low, ite_self]
    · rw [if_neg hc]
      simp only [not_or, not_not, Bool.not_eq_true] at hc
      rw [if_pos ⟨by rw [hc.1]; rfl, hc.2⟩]
      refine bind_congr fun r => bind_congr fun upper => ?_
      rw [Except.ok_bind]
      dsimp only
      rw [show ((0xFFFF : Nat) : BitVec 32) = 0xFFFF from rfl, setWidth_and_low, and_low_eq upper, ← joined,
        if_pos ((joined_and_three _ _).mpr hc.2)]

/-- The parcel after one at the start of a word is on the same page. -/
theorem physical_upper {s : Bytes.Store 32} {t : Translation} (ht : R.translate s pc = some t) (h0 : pc.toNat % 4 = 0) :
    R.physical s (pc + 2) = t.address + 2 := by
  have hadd := (Regime.translate_add ht (k := 2) (by omega)).1
  rw [Regime.physical, show pc + 2 = pc + BitVec.ofNat 64 2 from rfl, hadd]
  rfl

/-- The second half of an instruction that is not in one word. -/
theorem loadCmd_upper (hR : c.regime = .ok R) (hhalf : pc.toNat % 4 = 2) (low : BitVec 16) : ∃ ir c',
    (do let (pa, c₂) ← c.virtualToPhysical (pc + 2) false
        let upper ← c₂.memory.read32 ((pa >>> 2) <<< 2)
        return (joined low (upper.setWidth 16), c₂) : Except Crash (BitVec 32 × RiscvCpu)) = .ok (ir, c') ∧
      Translated c c' ∧
      match R.translate c.memory.bytes (pc + 2) with
      | none => c'.memory.bytes = c.memory.bytes ∧ c'.mmu.pageFault = true ∧ c'.pageFault = true ∧
          c'.faultingAddress = pc + 2
      | some t => c'.memory.bytes = t.mark c.memory.bytes false ∧ c'.mmu.pageFault = false ∧
          ir = joined low (parcel (t.mark c.memory.bytes false) t.address) ∧ c'.pageFault = c.pageFault ∧
          c'.faultingAddress = c.faultingAddress := by
  cases ht : R.translate c.memory.bytes (pc + 2) with
  | none =>
    obtain ⟨c₂, h₂, hk₂, hp₂, ha₂, hb₂, hm₂⟩ := virtualToPhysical_none hR ht false
    obtain ⟨low', high', hread, -⟩ := read32_wordBase c₂.memory (pc + 2)
    refine ⟨joined low low', c₂, ?_, hk₂, hb₂, hm₂, hp₂, ha₂⟩
    rw [h₂, Except.ok_bind]
    dsimp only
    rw [hread, Except.ok_bind, setWidth_joined]
    rfl
  | some t =>
    obtain ⟨c₂, h₂, hk₂, hp₂, ha₂, hb₂, hm₂⟩ := virtualToPhysical_some hR ht false
    obtain ⟨low', high', hread, halign, -⟩ := read32_wordBase c₂.memory t.address
    have hmod := Regime.translate_mod ht
    have hsum : (pc + 2).toNat % 4 = 0 := by
      rw [BitVec.toNat_add, show (2 : BitVec 64).toNat = 2 from rfl]
      omega
    refine ⟨_, c₂, ?_, hk₂, hb₂, hm₂, rfl, hp₂, ha₂⟩
    rw [h₂, Except.ok_bind]
    dsimp only
    rw [hread, Except.ok_bind, setWidth_joined, (halign (by omega)).1, hb₂]
    rfl

/-- `LoadCmd` is the fetch of the regime it runs in. -/
theorem loadCmd_fetch (hR : c.regime = .ok R) (heven : pc.toNat % 2 = 0) :
    c.FetchIs pc (R.fetch c.memory.bytes c.pageFault pc) := by
  rw [Regime.fetch]
  cases ht : R.translate c.memory.bytes pc with
  | none =>
    -- The word read is that of the address itself, and of no account.
    obtain ⟨c₁, h₁, hk₁, hp₁, ha₁, hb₁, hm₁⟩ := virtualToPhysical_none hR ht false
    obtain ⟨low, high, hread, -⟩ := read32_wordBase c₁.memory pc
    have heq := loadCmd_eq heven h₁ hread
    split at heq
    · exact ⟨_, c₁, heq, hk₁, hb₁, hm₁, hp₁, ha₁⟩
    · rw [if_pos (.inl hp₁)] at heq
      exact ⟨_, c₁, heq, hk₁, hb₁, hm₁, hp₁, ha₁⟩
  | some t =>
    obtain ⟨c₁, h₁, hk₁, hp₁, ha₁, hb₁, hm₁⟩ := virtualToPhysical_some hR ht false
    obtain ⟨low, high, hread, halign, hoff⟩ := read32_wordBase c₁.memory t.address
    have ht₁ : R.translate c₁.memory.bytes pc = some t := by rw [hb₁, (Regime.translate_mark ht false _).1, ht]
    have hmod := Regime.translate_mod ht
    have heq := loadCmd_eq heven h₁ hread
    dsimp only
    rw [← hb₁]
    by_cases h0 : pc.toNat % 4 = 0
    · obtain ⟨hlow, hhigh⟩ := halign (by omega)
      rw [if_pos h0, hlow, hhigh] at heq
      by_cases hl : parcel c₁.memory.bytes t.address &&& 0b11 = 0b11
      · rw [if_pos hl] at heq
        rw [if_neg (not_not.mpr hl), if_pos h0, physical_upper ht₁ h0]
        exact ⟨_, c₁, heq, hk₁, rfl, hm₁, rfl, hp₁, ha₁⟩
      · rw [if_neg hl] at heq
        rw [if_pos hl]
        exact ⟨_, c₁, heq, hk₁, rfl, hm₁, rfl, hp₁, ha₁⟩
    rw [if_neg h0, hoff (by omega)] at heq
    by_cases hl : parcel c₁.memory.bytes t.address &&& 0b11 = 0b11
    · rw [if_neg (not_not.mpr hl), if_neg h0]
      cases hpend : c.pageFault with
      | true =>
        rw [if_pos (.inl (hp₁.trans hpend))] at heq
        exact ⟨_, c₁, heq, hk₁, rfl, hm₁, rfl, hp₁, ha₁⟩
      | false =>
        have hp : c₁.pageFault = false := hp₁.trans hpend
        rw [if_neg (fun h => h.elim (fun h => Bool.false_ne_true (hp.symm.trans h)) fun h => h hl)] at heq
        rw [if_neg Bool.false_ne_true]
        -- The second parcel, translated in the memory the first has left.
        obtain ⟨ir, c₂, h₂, hk₂, hupper⟩ := loadCmd_upper (hk₁.regime.trans hR) (show pc.toNat % 4 = 2 by omega)
          (parcel c₁.memory.bytes t.address)
        refine ⟨ir, c₂, heq.trans h₂, hk₁.trans hk₂, ?_⟩
        cases ht₂ : R.translate c₁.memory.bytes (pc + 2) with
        | none =>
          rw [ht₂] at hupper
          exact hupper
        | some t₂ =>
          rw [ht₂] at hupper
          obtain ⟨hb₂, hm₂, rfl, hp₂, ha₂⟩ := hupper
          exact ⟨hb₂, hm₂, rfl, hp₂.trans hp₁, ha₂.trans ha₁⟩
    · rw [if_pos (.inr hl)] at heq
      rw [if_pos hl]
      exact ⟨_, c₁, heq, hk₁, rfl, hm₁, rfl, hp₁, ha₁⟩

/-! ## Which accesses have a regime -/

/-- The mode of an access is to be taken from MPP, which holds the number of
no mode. -/
def ReservedMode (c : RiscvCpu) : Prop :=
  c.privilege = .machineMode ∧ bitcrop (c.csrs Csr.mstatus) 1 17 = 1 ∧ bitcrop (c.csrs Csr.mstatus) 2 11 = 2

theorem intToPrivilegeMode_mpp (m : BitVec 64) :
    (bitcrop m 2 11 = 2 ∧ intToPrivilegeMode (bitcrop m 2 11) = .error .outOfRange) ∨
      (bitcrop m 2 11 ≠ 2 ∧ ∃ p, intToPrivilegeMode (bitcrop m 2 11) = .ok p) := by
  have hlt : (bitcrop m 2 11).toNat < 4 := by
    rw [toNat_bitcrop m (by decide) (by decide)]
    exact Nat.mod_lt _ (by decide)
  generalize bitcrop m 2 11 = v at hlt ⊢
  have hv : v = 0 ∨ v = 1 ∨ v = 2 ∨ v = 3 := by
    have h : v.toNat = 0 ∨ v.toNat = 1 ∨ v.toNat = 2 ∨ v.toNat = 3 := by omega
    rcases h with h | h | h | h
    · exact .inl (BitVec.eq_of_toNat_eq h)
    · exact .inr (.inl (BitVec.eq_of_toNat_eq h))
    · exact .inr (.inr (.inl (BitVec.eq_of_toNat_eq h)))
    · exact .inr (.inr (.inr (BitVec.eq_of_toNat_eq h)))
  rcases hv with rfl | rfl | rfl | rfl
  · exact .inr ⟨by decide, _, rfl⟩
  · exact .inr ⟨by decide, _, rfl⟩
  · exact .inl ⟨rfl, rfl⟩
  · exact .inr ⟨by decide, _, rfl⟩

theorem accessPrivilege_of_reserved (h : c.ReservedMode) : c.accessPrivilege = .error .outOfRange := by
  obtain ⟨hp, h17, h11⟩ := h
  rw [accessPrivilege, if_pos ⟨hp, h17⟩, h11]
  rfl

theorem regime_iff : (∃ R, c.regime = .ok R) ↔ ¬ c.ReservedMode := by
  constructor
  · rintro ⟨R, hR⟩ hres
    rw [regime, accessPrivilege_of_reserved hres] at hR
    cases hR
  · intro hnot
    have hp : ∃ p, c.accessPrivilege = .ok p := by
      rw [accessPrivilege]
      split
      · next h =>
        rcases intToPrivilegeMode_mpp (c.csrs Csr.mstatus) with ⟨h2, -⟩ | ⟨-, hp⟩
        · exact absurd ⟨h.1, h.2, h2⟩ hnot
        · exact hp
      · exact ⟨_, rfl⟩
    obtain ⟨p, hp⟩ := hp
    exact ⟨_, by rw [regime, hp]; rfl⟩

/-- `LoadCmd` puts the instruction together from its parcels. -/
def FetchesParcels (c : RiscvCpu) (pc : BitVec 64) : Prop :=
  ∃ R, c.regime = .ok R ∧ c.FetchIs pc (R.fetch c.memory.bytes false pc)

/-- **Instruction fetch.** Without a pending fault, at every even address, the
fetch is that of its parcels, each through its own translation and read in
the memory that translation leaves, unless there is no mode to translate
for: then `LoadCmd` does not return. -/
theorem loadCmd_parcels_iff (c : RiscvCpu) (pc : BitVec 64) (hp : c.pageFault = false) (heven : pc.toNat % 2 = 0) :
    c.FetchesParcels pc ↔ ¬ c.ReservedMode := by
  rw [← regime_iff]
  constructor
  · rintro ⟨R, hR, -⟩
    exact ⟨R, hR⟩
  · rintro ⟨R, hR⟩
    have h := loadCmd_fetch hR heven
    rw [hp] at h
    exact ⟨R, hR, h⟩

/-- The two pages of `crossing`, with `addi x1, x0, 5` over the end of the
first. -/
def crossingFetch : RiscvCpu :=
  { crossing with memory := (crossing.memory.setWord 0 0x17FF 0x00930000).setWord 0 0x2400 0x50 }

theorem loadCmd_parcels_crossing : crossingFetch.FetchesParcels 0xFFE ∧
    (crossingFetch.loadCmd 0xFFE).toOption.map (·.1) = some 0x00500093 :=
  ⟨(loadCmd_parcels_iff crossingFetch 0xFFE rfl (by decide)).mpr (by rintro ⟨h, -⟩; cases h), by decide +kernel⟩

/-- Machine mode with MPRV set and a reserved MPP. -/
def reserved : RiscvCpu := (new false 0).setCsr Csr.mstatus 0x21000

/-- The fetch ends the emulator. -/
theorem loadCmd_reserved : reserved.pageFault = false ∧ reserved.loadCmd 4 = .error .outOfRange ∧
    ¬ reserved.FetchesParcels 4 := by
  have hcrash : reserved.loadCmd 4 = .error .outOfRange := by
    rw [loadCmd, virtualToPhysical, accessPrivilege_of_reserved ⟨rfl, by decide, by decide⟩]
    rfl
  refine ⟨rfl, hcrash, ?_⟩
  rintro ⟨R, -, ir, c', h, -⟩
  rw [hcrash] at h
  cases h

end RiscvCpu

/-! ## Untranslated fetches -/

/-- The instruction at a physical address. The second half of one that is not
in one word is left out while a page fault is pending. -/
def untranslated (s : Bytes.Store 32) (pending : Bool) (pc : BitVec 64) : BitVec 32 :=
  if parcel s pc &&& 0b11 = 0b11 ∧ (pc.toNat % 4 = 0 ∨ pending = false) then joined (parcel s pc) (parcel s (pc + 2))
  else (parcel s pc).setWidth 32

/-- The translation of `pc` leads to the parcels that are at `pc` itself, and
marks no entry that was not marked. -/
structure SameParcels (R : Regime) (s : Bytes.Store 32) (pending : Bool) (pc : BitVec 64) (t : Translation) : Prop where
  first : R.translate s pc = some t
  unmarked : t.mark s false = s
  low : parcel s t.address = parcel s pc
  high : parcel s pc &&& 0b11 = 0b11 →
    if pc.toNat % 4 = 0 then parcel s (t.address + 2) = parcel s (pc + 2)
    else pending = true ∨
      ∃ t₂, R.translate s (pc + 2) = some t₂ ∧ t₂.mark s false = s ∧ parcel s t₂.address = parcel s (pc + 2)

section

variable {R : Regime} {s : Bytes.Store 32} {pending : Bool} {pc : BitVec 64} {t : Translation}

theorem setWidth_untranslated : (untranslated s pending pc).setWidth 16 = parcel s pc := by
  unfold untranslated
  split
  · exact setWidth_joined _ _
  · exact setWidth_setWidth_parcel _

/-- Marks are not undone. -/
theorem mark_of_mark_mark {t₂ : Translation} (h : t₂.mark (t.mark s false) false = s) : t.mark s false = s := by
  funext b
  have hb := congrFun h b
  rw [Translation.mark_apply, Translation.mark_apply] at hb
  rw [Translation.mark_apply]
  split
  · next hl =>
    rw [if_pos hl] at hb
    split at hb
    · rwa [marked_marked] at hb
    · exact hb
  · rfl

/-- A regime that finds the same parcels fetches the same instruction. -/
theorem SameParcels.fetch_eq (h : SameParcels R s pending pc t) :
    R.fetch s pending pc = (.ok (untranslated s pending pc), s) := by
  rw [Regime.fetch, h.first]
  dsimp only
  rw [h.unmarked, h.low]
  by_cases hl : parcel s pc &&& 0b11 = 0b11
  · have hhigh := h.high hl
    rw [if_neg (not_not.mpr hl)]
    by_cases h0 : pc.toNat % 4 = 0
    · rw [if_pos h0] at hhigh
      rw [if_pos h0, RiscvCpu.physical_upper h.first h0, hhigh, untranslated, if_pos ⟨hl, .inl h0⟩]
    rw [if_neg h0] at hhigh
    rw [if_neg h0]
    cases pending with
    | true => rw [if_pos rfl, untranslated, if_neg (fun hc => hc.2.elim h0 Bool.noConfusion)]
    | false =>
      obtain ⟨t₂, ht₂, hm₂, hp₂⟩ := hhigh.resolve_left Bool.false_ne_true
      rw [if_neg Bool.false_ne_true, ht₂]
      dsimp only
      rw [hm₂, hp₂, untranslated, if_pos ⟨hl, .inr rfl⟩]
  · rw [if_pos hl, untranslated, if_neg (fun hc => hl hc.1)]

/-- And only such a regime does. -/
theorem sameParcels_of_fetch (h : R.fetch s pending pc = (.ok (untranslated s pending pc), s)) :
    ∃ t, SameParcels R s pending pc t := by
  rw [Regime.fetch] at h
  cases ht : R.translate s pc with
  | none => rw [ht] at h; cases h
  | some t =>
    rw [ht] at h
    dsimp only at h
    -- Whatever the length of the instruction, its first parcel is in the result.
    have hlow : ∀ {w : BitVec 32}, w.setWidth 16 = parcel (t.mark s false) t.address → w = untranslated s pending pc →
        parcel (t.mark s false) t.address = parcel s pc := by
      rintro w hw rfl
      rw [← hw, setWidth_untranslated]
    by_cases hl : parcel (t.mark s false) t.address &&& 0b11 = 0b11
    · rw [if_neg (not_not.mpr hl)] at h
      by_cases h0 : pc.toNat % 4 = 0
      · rw [if_pos h0] at h
        obtain ⟨hw, hs⟩ := Prod.mk.inj h
        have hword := Except.ok.inj hw
        rw [hs] at hlow hl hword
        have hl' := hlow (setWidth_joined _ _) hword
        rw [hl'] at hl
        rw [hl', untranslated, if_pos ⟨hl, .inl h0⟩, RiscvCpu.physical_upper ht h0] at hword
        exact ⟨t, ht, hs, hl', fun _ => by rw [if_pos h0]; exact (joined_inj hword).2⟩
      rw [if_neg h0] at h
      cases pending with
      | true =>
        rw [if_pos rfl] at h
        obtain ⟨hw, hs⟩ := Prod.mk.inj h
        have hword := Except.ok.inj hw
        rw [hs] at hlow hword
        have hl' := hlow (setWidth_setWidth_parcel _) hword
        exact ⟨t, ht, hs, hl', fun _ => by rw [if_neg h0]; exact .inl rfl⟩
      | false =>
        rw [if_neg Bool.false_ne_true] at h
        cases ht₂ : R.translate (t.mark s false) (pc + 2) with
        | none => rw [ht₂] at h; cases h
        | some t₂ =>
          rw [ht₂] at h
          obtain ⟨hw, hs₂⟩ := Prod.mk.inj h
          have hword := Except.ok.inj hw
          have hs := mark_of_mark_mark hs₂
          rw [hs] at hlow hl ht₂ hs₂ hword
          rw [hs₂] at hword
          have hl' := hlow (setWidth_joined _ _) hword
          rw [hl'] at hl
          rw [hl', untranslated, if_pos ⟨hl, .inr rfl⟩] at hword
          exact ⟨t, ht, hs, hl', fun _ => by
            rw [if_neg h0]; exact .inr ⟨t₂, ht₂, hs₂, (joined_inj hword).2⟩⟩
    · rw [if_pos hl] at h
      obtain ⟨hw, hs⟩ := Prod.mk.inj h
      have hword := Except.ok.inj hw
      rw [hs] at hlow hl hword
      have hl' := hlow (setWidth_setWidth_parcel _) hword
      exact ⟨t, ht, hs, hl', fun hc => absurd (hl' ▸ hc) hl⟩

/-- The fetch of a regime is the untranslated one exactly when it finds the
same parcels. -/
theorem fetch_eq_iff :
    R.fetch s pending pc = (.ok (untranslated s pending pc), s) ↔ ∃ t, SameParcels R s pending pc t :=
  ⟨sameParcels_of_fetch, fun ⟨_, h⟩ => h.fetch_eq⟩

end

namespace RiscvCpu

variable {c c' : RiscvCpu} {R : Regime} {pc : BitVec 64}

/-- A fetch has one outcome. -/
theorem FetchIs.unique {f g : Except (BitVec 64) (BitVec 32) × Bytes.Store 32} (hf : c.FetchIs pc f)
    (hg : c.FetchIs pc g) : f = g := by
  obtain ⟨ir, c', h, -, hb, hf⟩ := hf
  obtain ⟨ir', c'', h', -, hb', hg⟩ := hg
  rw [h] at h'
  cases h'
  obtain ⟨f₁, f₂⟩ := f
  obtain ⟨g₁, g₂⟩ := g
  have hsnd : f₂ = g₂ := hb.symm.trans hb'
  cases f₁ with
  | error a =>
    cases g₁ with
    | error b => rw [hsnd, ← hf.2.2, ← hg.2.2]
    | ok w => exact absurd (hf.1.symm.trans hg.1) (by decide)
  | ok v =>
    cases g₁ with
    | error b => exact absurd (hg.1.symm.trans hf.1) (by decide)
    | ok w => rw [hsnd, ← hf.2.1, ← hg.2.1]

/-! ## Data accesses in another mode -/

/-- The processor in mode `p`. -/
def inMode (c : RiscvCpu) (p : PrivilegeMode) : RiscvCpu := { c with privilege := p }

/-- `t` is `s` in some mode, and translates for the same one as `s`. -/
def Alike (s t : RiscvCpu) : Prop := (∃ p, t = s.inMode p) ∧ s.accessPrivilege = t.accessPrivilege

/-- The same data, and the same record of traps. -/
def SameData (s t : RiscvCpu) : Prop := s.data = t.data

theorem virtualToPhysical_alike {s t : RiscvCpu} (h : Alike s t) (va : BitVec 64) (write : Bool) :
    Except.Related (fun r r' => r.1 = r'.1 ∧ Alike r.2 r'.2) (s.virtualToPhysical va write)
      (t.virtualToPhysical va write) := by
  obtain ⟨⟨p, rfl⟩, ha⟩ := h
  rw [virtualToPhysical, virtualToPhysical, ← ha]
  refine .bind (.same s.accessPrivilege) ?_
  rintro privilege _ rfl
  refine .bind (.same (((s.mmu.setMxl s.mxl).setPrivilege privilege).virtualToPhysical s.memory va (s.csrs Csr.satp)
    write)) ?_
  rintro ⟨pa, mmu, memory⟩ _ rfl
  dsimp only
  split
  · exact .ok ⟨rfl, ⟨p, rfl⟩, ha⟩
  · exact .ok ⟨rfl, ⟨p, rfl⟩, ha⟩

theorem trap_sameData {s : RiscvCpu} (p : PrivilegeMode) (cause : Nat) (interrupt : Bool) :
    Except.Related SameData (s.trap cause interrupt) ((s.inMode p).trap cause interrupt) := by
  refine .bind (.same (assert (trapAccepts cause interrupt))) ?_
  rintro _ _ rfl
  refine .ok ?_
  rw [SameData, trapBody_data, trapBody_data]
  rfl

theorem alike_access : AccessSimulation Alike SameData where
  reg := by rintro s _ ⟨⟨p, rfl⟩, -⟩; rfl
  memory := by rintro s _ ⟨⟨p, rfl⟩, -⟩; rfl
  peripheral := by rintro s _ ⟨⟨p, rfl⟩, -⟩; rfl
  pageFault := by rintro s _ ⟨⟨p, rfl⟩, -⟩; rfl
  setMemory := by rintro s _ memory ⟨⟨p, rfl⟩, ha⟩; exact ⟨⟨p, rfl⟩, ha⟩
  report := by rintro s _ f ⟨⟨p, rfl⟩, ha⟩; exact ⟨⟨p, rfl⟩, ha⟩
  translate := fun va write h => virtualToPhysical_alike h va write
  trap := by rintro s _ cause - ⟨⟨p, rfl⟩, -⟩; exact trap_sameData p cause false
  loaded := by rintro s _ rd v ⟨⟨p, rfl⟩, -⟩; rfl
  stored := by rintro s _ ⟨⟨p, rfl⟩, -⟩; rfl

/-- Every load, store and atomic operation does to the data what it does in
mode `p`. -/
structure AccessesAs (c : RiscvCpu) (p : PrivilegeMode) : Prop where
  load : ∀ i rd rs1 imm, Except.Related SameData (c.loadInstruction i rd rs1 imm)
    ((c.inMode p).loadInstruction i rd rs1 imm)
  store : ∀ i rs1 rs2 imm,
    Except.Related SameData (c.storeInstruction i rs1 rs2 imm) ((c.inMode p).storeInstruction i rs1 rs2 imm)
  amo : ∀ i rd rs1 rs2, Except.Related SameData (c.amoInstruction i rd rs1 rs2)
    ((c.inMode p).amoInstruction i rd rs1 rs2)

/-- With MPRV set, data is accessed in the mode that MPP holds. -/
def DataTranslated (c : RiscvCpu) : Prop :=
  bitcrop (c.csrs Csr.mstatus) 1 17 = 1 →
    ∀ p, intToPrivilegeMode (bitcrop (c.csrs Csr.mstatus) 2 11) = .ok p → c.AccessesAs p

theorem dataTranslated (hm : c.privilege = .machineMode) : c.DataTranslated := by
  intro h17 p hp
  have ha : Alike c (c.inMode p) := by
    refine ⟨⟨p, rfl⟩, ?_⟩
    rw [accessPrivilege, if_pos ⟨hm, h17⟩, hp, accessPrivilege]
    split
    · exact hp.symm
    · rfl
  exact ⟨alike_access.load ha, alike_access.store ha, alike_access.amo ha⟩

/-! ## Fetches and MPRV -/

/-- `LoadCmd` gives the instruction at the physical address `pc`, raises no
page fault and leaves the memory as it is. -/
def FetchesUntranslated (c : RiscvCpu) (pc : BitVec 64) : Prop :=
  c.FetchIs pc (.ok (untranslated c.memory.bytes c.pageFault pc), c.memory.bytes)

/-- The mode that the wrapper translates for finds the parcels of `pc` at `pc`
itself, through entries that are marked already. -/
def FetchUnaffected (c : RiscvCpu) (pc : BitVec 64) : Prop :=
  ∃ R t, c.regime = .ok R ∧ SameParcels R c.memory.bytes c.pageFault pc t

/-- Without a page table every fetch is unaffected. -/
theorem fetchUnaffected_of_bare (hR : c.regime = .ok .bare) : c.FetchUnaffected pc := by
  refine ⟨.bare, ⟨pc, none⟩, hR, rfl, rfl, rfl, fun _ => ?_⟩
  split
  · rfl
  · exact .inr ⟨⟨pc + 2, none⟩, rfl, rfl, rfl⟩

/-- **Fetches and MPRV.** In machine mode, data is accessed as MPRV says, and
the fetch is untranslated, exactly when the fetch does not depend on its
being translated. -/
theorem fetch_mprv_iff (c : RiscvCpu) (pc : BitVec 64) (hm : c.privilege = .machineMode) (heven : pc.toNat % 2 = 0) :
    (c.FetchesUntranslated pc ∧ c.DataTranslated) ↔ c.FetchUnaffected pc := by
  rw [and_iff_left (dataTranslated hm)]
  constructor
  · intro h
    have hreg : ∃ R, c.regime = .ok R := by
      rw [regime_iff]
      intro hres
      obtain ⟨ir, c', hload, -⟩ := h
      rw [loadCmd, virtualToPhysical, accessPrivilege_of_reserved hres] at hload
      cases hload
    obtain ⟨R, hR⟩ := hreg
    obtain ⟨t, ht⟩ := fetch_eq_iff.mp ((loadCmd_fetch hR heven).unique h)
    exact ⟨R, t, hR, ht⟩
  · rintro ⟨R, t, hR, ht⟩
    have h := loadCmd_fetch hR heven
    rwa [ht.fetch_eq] at h

/-- Machine mode, reading for user mode through a table without entries. -/
def peeking : RiscvCpu :=
  (((new false 0).setMemory (MemoryWrapper.new.assign 0)).setCsr Csr.satp 0x80000001).setCsr Csr.mstatus 0x20000

/-- With MPP at machine mode the same fetch is untranslated. -/
theorem fetch_mprv_machine : (peeking.setCsr Csr.mstatus 0x21800).FetchesUntranslated 0x1000 ∧
    (peeking.setCsr Csr.mstatus 0x21800).DataTranslated :=
  (fetch_mprv_iff (peeking.setCsr Csr.mstatus 0x21800) 0x1000 rfl (by decide)).mpr (fetchUnaffected_of_bare rfl)

/-- The fetch of the handler itself page-faults. -/
theorem fetch_peeking : peeking.privilege = .machineMode ∧
    (∃ ir c', peeking.loadCmd 0x1000 = .ok (ir, c') ∧ c'.pageFault = true ∧ c'.faultingAddress = 0x1000) ∧
    ¬ (peeking.FetchesUntranslated 0x1000 ∧ peeking.DataTranslated) := by
  have hR : peeking.regime = .ok (.table (.sv32 1)) := rfl
  have hnone : (Regime.table (.sv32 1)).translate peeking.memory.bytes 0x1000 = none := by decide +kernel
  have hfetch : (Regime.table (.sv32 1)).fetch peeking.memory.bytes peeking.pageFault 0x1000 =
      (.error 0x1000, peeking.memory.bytes) := by
    rw [Regime.fetch, hnone]
  have h := loadCmd_fetch hR (show (0x1000 : BitVec 64).toNat % 2 = 0 by decide)
  rw [hfetch] at h
  refine ⟨rfl, ?_, fun hun => ?_⟩
  · obtain ⟨ir, c', hload, -, -, -, hp, ha⟩ := h
    exact ⟨ir, c', hload, hp, ha⟩
  · cases h.unique hun.1

end RiscvCpu

end RiscvEmulator
