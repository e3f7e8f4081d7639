/-
The memory is a flat array of `2^32` bytes, little-endian.

`words` reads the blocks as one array of `2^30` words and `bytes` reads the
words as bytes. Each accessor is given once in these terms: an aligned
access returns, a read is `Bytes.load` and a write is `Bytes.store`
(`read32_eq`, `write32_bytes` and so on). `runWrites_reads` puts them
together for any sequence of writes from a fresh memory. `write32_frame` and
its like say what a write leaves.
-/
import RiscvEmulator.Lib.Bits
import RiscvEmulator.Lib.Bytes
import RiscvEmulator.Lib.Run
import RiscvEmulator.MemoryWrapper

namespace RiscvEmulator

open Bytes (InArea byteOf)

namespace MemoryWrapper

/-! ## Words -/

/-- The blocks as one array of words. -/
def words (m : MemoryWrapper) (j : BitVec 30) : BitVec 32 :=
  if m.assigned (j.extractLsb' 18 12) then (m.mapping (j.extractLsb' 18 12)).get (j.extractLsb' 0 18) else 0

/-- The word index of an address. -/
def wordIndex (i : BitVec 64) : BitVec 30 := i.extractLsb' 2 30

theorem entry_eq (i : BitVec 64) : entry i = (wordIndex i).extractLsb' 18 12 := by
  have hmask : kEntryMask.signExtend 64 = Bits.ones 64 12 := by decide
  apply BitVec.eq_of_toNat_eq
  simp only [entry, wordIndex, hmask, kOffsetBits, BitVec.toNat_setWidth, Bits.toNat_and_ones,
    BitVec.toNat_ushiftRight, BitVec.extractLsb'_toNat, Nat.shiftRight_eq_div_pow]
  omega

theorem wordOffset_eq (i : BitVec 64) : wordOffset i = (wordIndex i).extractLsb' 0 18 := by
  have hmask : kOffsetMask.signExtend 64 = Bits.ones 64 20 := by decide
  apply BitVec.eq_of_toNat_eq
  simp only [wordOffset, wordIndex, hmask, kWordBits, BitVec.toNat_setWidth, BitVec.toNat_ushiftRight,
    Bits.toNat_and_ones, BitVec.extractLsb'_toNat, Nat.shiftRight_eq_div_pow]
  omega

theorem index_ext {j k : BitVec 30} (he : j.extractLsb' 18 12 = k.extractLsb' 18 12)
    (ho : j.extractLsb' 0 18 = k.extractLsb' 0 18) : j = k := by
  have h₁ := congrArg BitVec.toNat he
  have h₂ := congrArg BitVec.toNat ho
  simp only [BitVec.extractLsb'_toNat, Nat.shiftRight_eq_div_pow] at h₁ h₂
  apply BitVec.eq_of_toNat_eq
  omega

/-- The body of `Write32`: the block is allocated if it was not. -/
def putWord (m : MemoryWrapper) (i : BitVec 64) (value : BitVec 32) : MemoryWrapper :=
  (if m.checkRange (entry i) then m else m.assign (entry i)).setWord (entry i) (wordOffset i) value

theorem words_assign (m : MemoryWrapper) {e : BitVec 12} (h : m.assigned e = false) :
    (m.assign e).words = m.words := by
  funext j
  have hz : (m.mapping e).size = 0 := by rw [m.sized e, h]; rfl
  simp only [words, assign]
  by_cases hj : j.extractLsb' 18 12 = e
  · simp [hj, h, WordVector.resize, hz]
  · simp [Function.update_of_ne hj]

theorem words_setWord (m : MemoryWrapper) {j : BitVec 30} (h : m.assigned (j.extractLsb' 18 12) = true)
    (value : BitVec 32) :
    (m.setWord (j.extractLsb' 18 12) (j.extractLsb' 0 18) value).words = Function.update m.words j value := by
  funext k
  by_cases hk : k = j
  · subst hk; simp [words, setWord, h, WordVector.set]
  · rw [Function.update_of_ne hk]
    by_cases he : k.extractLsb' 18 12 = j.extractLsb' 18 12
    · have ho : k.extractLsb' 0 18 ≠ j.extractLsb' 0 18 := fun ho => hk (index_ext he ho)
      simp [words, setWord, he, h, WordVector.set, Function.update_of_ne ho]
    · simp [words, setWord, Function.update_of_ne he]

/-- A write changes one word, whether or not its block was allocated. -/
theorem words_putWord (m : MemoryWrapper) (i : BitVec 64) (value : BitVec 32) :
    (m.putWord i value).words = Function.update m.words (wordIndex i) value := by
  simp only [putWord, entry_eq, wordOffset_eq, checkRange]
  cases h : m.assigned ((wordIndex i).extractLsb' 18 12) with
  | true => simp [words_setWord m h]
  | false =>
    have ha : (m.assign ((wordIndex i).extractLsb' 18 12)).assigned ((wordIndex i).extractLsb' 18 12) = true := by
      simp [assign]
    simp [words_setWord _ ha, words_assign m h]

/-! ## Alignment -/

/-- The alignment assertions test the address modulo a power of two. -/
theorem aligned {i : BitVec 64} {k : Nat} (h : i.toNat % 2 ^ k = 0) : (i &&& Bits.ones 64 k == 0#64) = true :=
  beq_iff_eq.mpr ((Bits.and_ones_eq_zero i k).mpr h)

theorem aligned2 {i : BitVec 64} (h : i.toNat % 2 = 0) : (i &&& 1#64 == 0#64) = true := aligned (k := 1) h

theorem aligned4 {i : BitVec 64} (h : i.toNat % 4 = 0) : (i &&& 0b11#64 == 0#64) = true := aligned (k := 2) h

theorem aligned8 {i : BitVec 64} (h : i.toNat % 8 = 0) : (i &&& 0b111#64 == 0#64) = true := aligned (k := 3) h

theorem read32_words (m : MemoryWrapper) {i : BitVec 64} (h : i.toNat % 4 = 0) :
    m.read32 i = .ok (m.words (wordIndex i)) := by
  simp only [read32, assert_bind (aligned4 h), words, checkRange, entry_eq, wordOffset_eq]
  split <;> rfl

theorem write32_putWord (m : MemoryWrapper) {i : BitVec 64} (h : i.toNat % 4 = 0) (value : BitVec 32) :
    m.write32 i value = .ok (m.putWord i value) := by
  simp only [write32, assert_bind (aligned4 h), putWord]
  rfl

/-! ## Bytes -/

/-- The memory as a flat array of bytes. -/
def bytes (m : MemoryWrapper) : Bytes.Store 32 := fun a =>
  byteOf (m.words (a.extractLsb' 2 30)) (a.toNat % 4)

/-- The byte address an address stands for. -/
def flat (i : BitVec 64) : BitVec 32 := i.setWidth 32

theorem toNat_flat (i : BitVec 64) : (flat i).toNat = i.toNat % 2 ^ 32 := by simp [flat]

theorem flat_setWidth (a : BitVec 32) : flat (a.setWidth 64) = a := by
  rw [flat, BitVec.setWidth_setWidth_of_le a (by decide), BitVec.setWidth_eq]

theorem flat_add (i : BitVec 64) (k : Nat) : flat (i + BitVec.ofNat 64 k) = flat i + BitVec.ofNat 32 k := by
  apply BitVec.eq_of_toNat_eq
  simp only [flat, BitVec.toNat_setWidth, BitVec.toNat_add, BitVec.toNat_ofNat]
  omega

theorem wordIndex_flat (i : BitVec 64) : (flat i).extractLsb' 2 30 = wordIndex i := by
  apply BitVec.eq_of_toNat_eq
  simp only [wordIndex, BitVec.extractLsb'_toNat, toNat_flat, Nat.shiftRight_eq_div_pow]
  omega

/-- The bytes of one word. -/
theorem bytes_of_word (m : MemoryWrapper) {a : BitVec 32} (h : a.toNat % 4 = 0) {l : Nat} (hl : l < 4) :
    m.bytes (a + BitVec.ofNat 32 l) = byteOf (m.words (a.extractLsb' 2 30)) l := by
  have hlt := a.isLt
  have hsum : (a + BitVec.ofNat 32 l).toNat = a.toNat + l := by
    rw [BitVec.toNat_add, BitVec.toNat_ofNat]; omega
  have hidx : (a + BitVec.ofNat 32 l).extractLsb' 2 30 = a.extractLsb' 2 30 := by
    apply BitVec.eq_of_toNat_eq
    simp only [BitVec.extractLsb'_toNat, hsum, Nat.shiftRight_eq_div_pow]
    omega
  rw [bytes, hidx, hsum]
  congr 1; omega

theorem bytes_putWord (m : MemoryWrapper) {i : BitVec 64} (h : i.toNat % 4 = 0) (value : BitVec 32) :
    (m.putWord i value).bytes = Bytes.store m.bytes (flat i) value 4 := by
  funext b
  rw [Bytes.store_apply _ _ _ (by decide), bytes, words_putWord]
  have hb := b.isLt
  have hi := (flat i).isLt
  have hf := toNat_flat i
  have hsub : (b - flat i).toNat = (2 ^ 32 - (flat i).toNat + b.toNat) % 2 ^ 32 := BitVec.toNat_sub _ _
  by_cases hj : b.extractLsb' 2 30 = wordIndex i
  · -- `b` lies in the word that is written
    have hd := congrArg BitVec.toNat hj
    simp only [← wordIndex_flat, BitVec.extractLsb'_toNat, Nat.shiftRight_eq_div_pow] at hd
    rw [hj, Function.update_self, if_pos (by omega)]
    congr 1; omega
  · have hd : b.toNat / 4 ≠ (flat i).toNat / 4 := by
      intro hd
      apply hj
      rw [← wordIndex_flat]
      apply BitVec.eq_of_toNat_eq
      simp only [BitVec.extractLsb'_toNat, Nat.shiftRight_eq_div_pow]
      omega
    rw [Function.update_of_ne hj, if_neg (by omega)]
    rfl

theorem read32_eq (m : MemoryWrapper) {i : BitVec 64} (h : i.toNat % 4 = 0) :
    m.read32 i = .ok (Bytes.load 32 m.bytes (flat i) 4) := by
  have hf := toNat_flat i
  rw [read32_words m h]
  congr 1
  apply Bytes.eq_compose
  · intro j hj
    rw [bytes_of_word m (by omega) hj, wordIndex_flat]
  · intro k hk
    exact BitVec.getLsbD_of_ge _ _ (by omega)

theorem write32_bytes (m : MemoryWrapper) {i : BitVec 64} (h : i.toNat % 4 = 0) (value : BitVec 32) :
    ∃ m', m.write32 i value = .ok m' ∧ m'.bytes = Bytes.store m.bytes (flat i) value 4 :=
  ⟨_, write32_putWord m h value, bytes_putWord m h value⟩

/-! ## Narrow accesses -/

/-- The word an access lies in. -/
theorem toNat_dram (i : BitVec 64) : ((i >>> kWordBits) <<< kWordBits).toNat = i.toNat / 4 * 4 := by
  have := i.isLt
  simp only [kWordBits, BitVec.toNat_shiftLeft, BitVec.toNat_ushiftRight, Nat.shiftRight_eq_div_pow,
    Nat.shiftLeft_eq]
  omega

theorem dram_aligned (i : BitVec 64) : ((i >>> kWordBits) <<< kWordBits).toNat % 4 = 0 := by
  rw [toNat_dram]; omega

theorem flat_dram (i : BitVec 64) :
    flat i = flat ((i >>> kWordBits) <<< kWordBits) + BitVec.ofNat 32 (i.toNat % 4) := by
  apply BitVec.eq_of_toNat_eq
  simp only [BitVec.toNat_add, toNat_flat, toNat_dram, BitVec.toNat_ofNat]
  omega

theorem toNat_and_three (i : BitVec 64) : (i &&& 0b11).toNat = i.toNat % 4 := Bits.toNat_and_ones i 2

/-- Bits of a word narrowed by a low mask. -/
theorem getLsbD_narrow (v : BitVec 32) (s k : Nat) {j : Nat} (hj : j < k) :
    (((v.setWidth 64 >>> s) &&& Bits.ones 64 k).setWidth k).getLsbD j = v.getLsbD (s + j) := by
  rw [BitVec.getLsbD_setWidth, Bits.getLsbD_and_ones, BitVec.getLsbD_ushiftRight, BitVec.getLsbD_setWidth]
  by_cases h : s + j < 64
  · simp [hj, h]
  · simp [h, BitVec.getLsbD_of_ge v (s + j) (by omega)]

theorem readByte_eq (m : MemoryWrapper) (i : BitVec 64) : m.readByte i = .ok (m.bytes (flat i)) := by
  simp only [readByte, read32_words m (dram_aligned i), toNat_and_three]
  have hl : i.toNat % 4 < 4 := Nat.mod_lt _ (by decide)
  rw [flat_dram i, bytes_of_word m (by rw [toNat_flat, toNat_dram]; omega) hl, wordIndex_flat]
  refine congrArg Except.ok (BitVec.eq_of_getLsbD_eq fun j hj => ?_)
  rw [Bytes.getLsbD_byteOf, show 0xFF = Bits.ones 64 8 by rfl, getLsbD_narrow _ _ _ hj]
  simp [hj, Nat.mul_comm]

theorem read16_eq (m : MemoryWrapper) {i : BitVec 64} (h : i.toNat % 2 = 0) :
    m.read16 i = .ok (Bytes.load 16 m.bytes (flat i) 2) := by
  simp only [read16, assert_bind (aligned2 h), read32_words m (dram_aligned i), toNat_and_three]
  refine congrArg Except.ok (Bytes.eq_compose (fun j hj => ?_) fun k hk => BitVec.getLsbD_of_ge _ _ (by omega))
  rw [flat_dram i, BitVec.add_assoc, ← BitVec.ofNat_add,
    bytes_of_word m (by rw [toNat_flat, toNat_dram]; omega) (by omega), wordIndex_flat]
  apply BitVec.eq_of_getLsbD_eq
  intro k hk
  rw [Bytes.getLsbD_byteOf, Bytes.getLsbD_byteOf, show 0xFFFF = Bits.ones 64 16 by rfl,
    getLsbD_narrow _ _ _ (by omega)]
  congr 2; omega

theorem getLsbD_writeByteMask {o j : Nat} (ho : o < 4) (hj : j < 32) :
    (writeByteMask.getD o 0).getLsbD j = !decide (j / 8 = o) := by
  have : ∀ (o : Fin 4) (j : Fin 32), (writeByteMask.getD o 0).getLsbD j = !decide (j.val / 8 = o.val) := by decide
  exact this ⟨o, ho⟩ ⟨j, hj⟩

theorem writeByte_bytes (m : MemoryWrapper) (i : BitVec 64) (data : BitVec 8) :
    ∃ m', m.writeByte i data = .ok m' ∧ m'.bytes = Bytes.store m.bytes (flat i) data 1 := by
  simp only [writeByte, read32_words m (dram_aligned i), toNat_and_three]
  obtain ⟨m', hw, hb⟩ := write32_bytes m (dram_aligned i)
    ((((m.words (wordIndex ((i >>> kWordBits) <<< kWordBits))).setWidth 64 &&&
      writeByteMask.getD (i.toNat % 4) 0) ||| (data.setWidth 64 <<< (i.toNat % 4 * 8))).setWidth 32)
  refine ⟨m', hw, ?_⟩
  have hl : i.toNat % 4 < 4 := Nat.mod_lt _ (by decide)
  rw [hb, flat_dram i]
  refine Bytes.store_patch _ _ (by omega) (by decide) fun l hl4 => ?_
  have hmask : ∀ j < 8, (writeByteMask.getD (i.toNat % 4) 0).getLsbD (8 * l + j) =
      !decide (i.toNat % 4 ≤ l ∧ l < i.toNat % 4 + 1) := by
    intro j hj
    rw [getLsbD_writeByteMask hl (by omega)]
    congr 2
    simp only [eq_iff_iff]
    omega
  rw [bytes_of_word m (by rw [toNat_flat, toNat_dram]; omega) hl4, wordIndex_flat, Bytes.byteOf_setWidth _ (by omega),
    Bytes.byteOf_patch _ _ data (c := 1) (by omega) rfl (Nat.mul_comm _ _) hmask, Bytes.byteOf_setWidth _ (by omega)]

theorem getLsbD_write16Mask {o j : Nat} (ho : o < 2) (hj : j < 32) :
    (write16Mask.getD o 0).getLsbD j = !decide (j / 16 = o) := by
  have : ∀ (o : Fin 2) (j : Fin 32), (write16Mask.getD o 0).getLsbD j = !decide (j.val / 16 = o.val) := by decide
  exact this ⟨o, ho⟩ ⟨j, hj⟩

theorem toNat_shift_and_one (i : BitVec 64) : ((i >>> 1) &&& 1).toNat = i.toNat / 2 % 2 := by
  rw [← Nat.shiftRight_eq_div_pow i.toNat 1, ← BitVec.toNat_ushiftRight]
  exact Bits.toNat_and_ones (i >>> 1) 1

theorem write16_bytes (m : MemoryWrapper) {i : BitVec 64} (h : i.toNat % 2 = 0) (data : BitVec 16) :
    ∃ m', m.write16 i data = .ok m' ∧ m'.bytes = Bytes.store m.bytes (flat i) data 2 := by
  simp only [write16, assert_bind (aligned2 h), read32_words m (dram_aligned i), toNat_shift_and_one]
  obtain ⟨m', hw, hb⟩ := write32_bytes m (dram_aligned i)
    ((m.words (wordIndex ((i >>> kWordBits) <<< kWordBits)) &&&
      (write16Mask.getD (i.toNat / 2 % 2) 0).setWidth 32) ||| (data.setWidth 32 <<< (i.toNat / 2 % 2 * 16)))
  refine ⟨m', hw, ?_⟩
  have ho : i.toNat / 2 % 2 < 2 := Nat.mod_lt _ (by decide)
  have h4 : i.toNat % 4 = i.toNat / 2 % 2 * 2 := by omega
  generalize i.toNat / 2 % 2 = o at hb ho h4
  rw [hb, flat_dram i, h4]
  refine Bytes.store_patch _ _ (by omega) (by decide) fun l hl4 => ?_
  have hmask : ∀ j < 8, ((write16Mask.getD o 0).setWidth 32).getLsbD (8 * l + j) =
      !decide (o * 2 ≤ l ∧ l < o * 2 + 2) := by
    intro j hj
    have hin : 8 * l + j < 32 := by omega
    rw [BitVec.getLsbD_setWidth, getLsbD_write16Mask ho hin, decide_eq_true hin, Bool.true_and]
    congr 2
    simp only [eq_iff_iff]
    omega
  rw [bytes_of_word m (by rw [toNat_flat, toNat_dram]; omega) hl4, wordIndex_flat,
    Bytes.byteOf_patch _ _ data (c := 2) (by omega) rfl (by omega) hmask]

/-! ## Doublewords -/

/-- An aligned access lies at the start of its word. -/
theorem dram_of_aligned {i : BitVec 64} (h : i.toNat % 4 = 0) : (i >>> kWordBits) <<< kWordBits = i := by
  apply BitVec.eq_of_toNat_eq
  rw [toNat_dram]; omega

theorem toNat_add_four {i : BitVec 64} (h : i.toNat % 8 = 0) : (i + 4).toNat = i.toNat + 4 := by
  have := i.isLt
  rw [BitVec.toNat_add, show (4 : BitVec 64).toNat = 4 by rfl]
  omega

theorem read64_eq (m : MemoryWrapper) {i : BitVec 64} (h : i.toNat % 8 = 0) :
    m.read64 i = .ok (Bytes.load 64 m.bytes (flat i) 8) := by
  have h4 := toNat_add_four h
  simp only [read64, assert_bind (aligned8 h), dram_of_aligned (show i.toNat % 4 = 0 by omega),
    read32_eq m (show i.toNat % 4 = 0 by omega), read32_eq m (show (i + 4).toNat % 4 = 0 by omega)]
  refine congrArg Except.ok ?_
  rw [Bytes.load_setWidth _ _ (by decide), Bytes.load_setWidth _ _ (by decide), show 8 = 4 + 4 by rfl,
    Bytes.load_append, show flat (i + 4) = flat i + BitVec.ofNat 32 4 from flat_add i 4]

theorem write64_bytes (m : MemoryWrapper) {i : BitVec 64} (h : i.toNat % 8 = 0) (value : BitVec 64) :
    ∃ m', m.write64 i value = .ok m' ∧ m'.bytes = Bytes.store m.bytes (flat i) value 8 := by
  have h4 := toNat_add_four h
  have low : ∀ v : BitVec 64, (v &&& 0xFFFFFFFF).setWidth 32 = v.setWidth 32 := by
    intro v
    apply BitVec.eq_of_getLsbD_eq
    intro k hk
    have hand : (v &&& 0xFFFFFFFF).getLsbD k = _ := Bits.getLsbD_and_ones v 32 k
    rw [BitVec.getLsbD_setWidth, BitVec.getLsbD_setWidth, hand]
    simp [hk]
  obtain ⟨m₁, hw₁, hb₁⟩ := write32_bytes m (show i.toNat % 4 = 0 by omega) (value.setWidth 32)
  obtain ⟨m₂, hw₂, hb₂⟩ := write32_bytes m₁ (show (i + 4).toNat % 4 = 0 by omega) ((value >>> 32).setWidth 32)
  refine ⟨m₂, ?_, ?_⟩
  · simp only [write64, assert_bind (aligned8 h), dram_of_aligned (show i.toNat % 4 = 0 by omega), low, hw₁]
    exact hw₂
  · rw [hb₂, hb₁, show 8 = 4 + 4 by rfl, Bytes.store_append]
    rw [Bytes.store_setWidth _ _ value (by decide), Bytes.store_setWidth _ _ (value >>> 32) (by decide)]
    exact congrArg (fun a => Bytes.store (Bytes.store m.bytes (flat i) value 4) a (value >>> 32) 4) (flat_add i 4)

/-! ## Frames -/

theorem writeByte_frame {m m' : MemoryWrapper} {i : BitVec 64} {data : BitVec 8} (h : m.writeByte i data = .ok m') :
    ∀ b, ¬ InArea (flat i, 1) b → m'.bytes b = m.bytes b := by
  intro b hb
  obtain ⟨m₁, h₁, hbytes⟩ := m.writeByte_bytes i data
  cases h.symm.trans h₁
  rw [hbytes, Bytes.store_of_outside _ _ _ (by decide) hb]

/-- A wide write that returns was aligned. -/
theorem write16_frame {m m' : MemoryWrapper} {i : BitVec 64} {data : BitVec 16} (h : m.write16 i data = .ok m') :
    ∀ b, ¬ InArea (flat i, 2) b → m'.bytes b = m.bytes b := by
  intro b hb
  obtain ⟨u, hassert, -⟩ := Except.bind_ok_iff.mp h
  obtain ⟨m₁, h₁, hbytes⟩ := m.write16_bytes ((Bits.and_ones_eq_zero i 1).mp (beq_iff_eq.mp (assert_ok hassert))) data
  cases h.symm.trans h₁
  rw [hbytes, Bytes.store_of_outside _ _ _ (by decide) hb]

theorem write32_frame {m m' : MemoryWrapper} {i : BitVec 64} {value : BitVec 32} (h : m.write32 i value = .ok m') :
    ∀ b, ¬ InArea (flat i, 4) b → m'.bytes b = m.bytes b := by
  intro b hb
  obtain ⟨u, hassert, -⟩ := Except.bind_ok_iff.mp h
  obtain ⟨m₁, h₁, hbytes⟩ := m.write32_bytes ((Bits.and_ones_eq_zero i 2).mp (beq_iff_eq.mp (assert_ok hassert))) value
  cases h.symm.trans h₁
  rw [hbytes, Bytes.store_of_outside _ _ _ (by decide) hb]

theorem write64_frame {m m' : MemoryWrapper} {i value : BitVec 64} (h : m.write64 i value = .ok m') :
    ∀ b, ¬ InArea (flat i, 8) b → m'.bytes b = m.bytes b := by
  intro b hb
  obtain ⟨u, hassert, -⟩ := Except.bind_ok_iff.mp h
  obtain ⟨m₁, h₁, hbytes⟩ := m.write64_bytes ((Bits.and_ones_eq_zero i 3).mp (beq_iff_eq.mp (assert_ok hassert))) value
  cases h.symm.trans h₁
  rw [hbytes, Bytes.store_of_outside _ _ _ (by decide) hb]

/-! ## Any sequence of writes -/

/-- A call of one of the four writers. -/
inductive Write where
  | writeByte (i : BitVec 64) (data : BitVec 8)
  | write16 (i : BitVec 64) (data : BitVec 16)
  | write32 (i : BitVec 64) (value : BitVec 32)
  | write64 (i : BitVec 64) (value : BitVec 64)

namespace Write

def address : Write → BitVec 64
  | writeByte i _ | write16 i _ | write32 i _ | write64 i _ => i

/-- The bytes the call covers. -/
def width : Write → Nat
  | writeByte .. => 1
  | write16 .. => 2
  | write32 .. => 4
  | write64 .. => 8

def value : Write → BitVec 64
  | writeByte _ v => v.setWidth 64
  | write16 _ v => v.setWidth 64
  | write32 _ v => v.setWidth 64
  | write64 _ v => v

/-- The address is a multiple of the width, as the writers assert. -/
def Aligned (w : Write) : Prop := w.address.toNat % w.width = 0

instance (w : Write) : Decidable w.Aligned := inferInstanceAs (Decidable (_ = _))

/-- The call on the memory of the source. -/
def run (m : MemoryWrapper) : Write → Except Crash MemoryWrapper
  | writeByte i v => m.writeByte i v
  | write16 i v => m.write16 i v
  | write32 i v => m.write32 i v
  | write64 i v => m.write64 i v

/-- The call on a flat array of bytes. -/
def apply (s : Bytes.Store 32) (w : Write) : Bytes.Store 32 :=
  Bytes.store s (flat w.address) w.value w.width

theorem run_bytes {w : Write} (h : w.Aligned) (m : MemoryWrapper) :
    ∃ m', w.run m = .ok m' ∧ m'.bytes = w.apply m.bytes := by
  cases w with
  | writeByte i v =>
    obtain ⟨m', hw, hb⟩ := m.writeByte_bytes i v
    exact ⟨m', hw, hb.trans (Bytes.store_setWidth _ _ v (by decide)).symm⟩
  | write16 i v =>
    obtain ⟨m', hw, hb⟩ := m.write16_bytes h v
    exact ⟨m', hw, hb.trans (Bytes.store_setWidth _ _ v (by decide)).symm⟩
  | write32 i v =>
    obtain ⟨m', hw, hb⟩ := m.write32_bytes h v
    exact ⟨m', hw, hb.trans (Bytes.store_setWidth _ _ v (by decide)).symm⟩
  | write64 i v => exact m.write64_bytes h v

end Write

/-- A sequence of writes from a fresh memory. -/
def runWrites (ws : List Write) : Except Crash MemoryWrapper := ws.foldlM Write.run new

/-- The same writes applied to `2^32` zero bytes. -/
def applyWrites (ws : List Write) : Bytes.Store 32 := ws.foldl Write.apply fun _ => 0

theorem bytes_new : new.bytes = fun _ => 0 := by
  funext a
  simp [bytes, words, new, byteOf]

theorem foldlM_bytes : ∀ {ws : List Write} {m : MemoryWrapper}, (∀ w ∈ ws, w.Aligned) →
    ∃ m', ws.foldlM Write.run m = .ok m' ∧ m'.bytes = ws.foldl Write.apply m.bytes
  | [], m, _ => ⟨m, rfl, rfl⟩
  | w :: ws, m, h => by
    obtain ⟨m₁, hw, hb⟩ := Write.run_bytes (h w (by simp)) m
    obtain ⟨m', hws, hbs⟩ := @foldlM_bytes ws m₁ fun w hm => h w (by simp [hm])
    refine ⟨m', ?_, by rw [hbs, hb]; rfl⟩
    rw [List.foldlM_cons, hw]
    exact hws

/-- **The memory is a flat little-endian byte array.** Any sequence of
aligned writes from a fresh memory returns, every aligned read of the
result is composed of the bytes of the flat array after the same writes,
and one more aligned write changes exactly the bytes it covers. -/
theorem runWrites_reads (ws : List Write) (h : ∀ w ∈ ws, w.Aligned) :
    ∃ m, runWrites ws = .ok m ∧
      (∀ i, m.readByte i = .ok (applyWrites ws (flat i))) ∧
      (∀ i, i.toNat % 2 = 0 → m.read16 i = .ok (Bytes.load 16 (applyWrites ws) (flat i) 2)) ∧
      (∀ i, i.toNat % 4 = 0 → m.read32 i = .ok (Bytes.load 32 (applyWrites ws) (flat i) 4)) ∧
      (∀ i, i.toNat % 8 = 0 → m.read64 i = .ok (Bytes.load 64 (applyWrites ws) (flat i) 8)) ∧
      ∀ w : Write, w.Aligned → ∃ m', w.run m = .ok m' ∧ ∀ i, m'.readByte i =
        if (flat i - flat w.address).toNat < w.width then .ok (byteOf w.value (flat i - flat w.address).toNat)
        else m.readByte i := by
  obtain ⟨m, hm, hb⟩ := @foldlM_bytes ws new h
  have hs : m.bytes = applyWrites ws := by rw [hb, bytes_new]; rfl
  refine ⟨m, hm, fun i => ?_, fun i hi => ?_, fun i hi => ?_, fun i hi => ?_, fun w hw => ?_⟩
  · rw [readByte_eq, hs]
  · rw [read16_eq m hi, hs]
  · rw [read32_eq m hi, hs]
  · rw [read64_eq m hi, hs]
  · obtain ⟨m', hrun, hb'⟩ := Write.run_bytes hw m
    refine ⟨m', hrun, fun i => ?_⟩
    have hwidth : w.width ≤ 2 ^ 32 := by cases w <;> simp [Write.width]
    rw [readByte_eq, readByte_eq, hb', Write.apply, Bytes.store_apply _ _ _ hwidth]
    split <;> rfl

/-- A doubleword below a 1 MiB boundary, then a halfword in the next block,
which no write had allocated. -/
theorem runWrites_reads_boundary :
    ∃ m, runWrites [.write64 0xFFFF8 0x1122334455667788, .write16 0x100000 0xCDEF] = .ok m ∧
      m.read32 0xFFFFC = .ok 0x11223344 ∧ m.read64 0x100000 = .ok 0xCDEF := by
  obtain ⟨m, hm, -, -, h32, h64, -⟩ :=
    runWrites_reads [.write64 0xFFFF8 0x1122334455667788, .write16 0x100000 0xCDEF]
      (by intro w hw; simp at hw; rcases hw with rfl | rfl <;> decide)
  exact ⟨m, hm, (h32 0xFFFFC (by decide)).trans rfl, (h64 0x100000 (by decide)).trans rfl⟩

end MemoryWrapper

end RiscvEmulator
