/-
The restricted views of the status registers.

A write to a user or supervisor view goes through the CSR array and a masked
merge, and for `mstatus` through `hardwireMstatus`, which also writes bits
outside the mask. `view_frame` says that no bit outside the mask changes
all the same: in every state a client of the class can bring about, those
bits already hold what they are hardwired to (`hardwired_reached`).
-/
import RiscvEmulator.CsrFacts
import RiscvEmulator.StatusFacts

namespace RiscvEmulator

/-! ## Hardwiring bit by bit -/

theorem getLsbD_of_bitcrop {m x : BitVec 64} {w o i : Nat} (hw : w ≤ 64) (h : bitcrop m w o = x) (hi : i < w) :
    m.getLsbD (o + i) = x.getLsbD i := by
  rw [← h, getLsbD_bitcrop m hw (by decide), decide_eq_true hi, Bool.true_and]

/-- The fields that are zero. -/
theorem Hardwired.zero_bits {en64bit : Bool} {m : BitVec 64} (h : Hardwired en64bit m) {i : Nat}
    (hi : i = (if en64bit then 63 else 31) ∨ i = 13 ∨ i = 14 ∨ i = 15 ∨ i = 16) : m.getLsbD i = false := by
  rcases hi with rfl | rfl | rfl | rfl | rfl
  · exact getLsbD_of_bitcrop (i := 0) (by decide) h.sd (by decide)
  · exact getLsbD_of_bitcrop (o := 13) (i := 0) (by decide) h.fs (by decide)
  · exact getLsbD_of_bitcrop (o := 13) (i := 1) (by decide) h.fs (by decide)
  · exact getLsbD_of_bitcrop (o := 15) (i := 0) (by decide) h.xs (by decide)
  · exact getLsbD_of_bitcrop (o := 15) (i := 1) (by decide) h.xs (by decide)

/-- SXL and UXL. -/
theorem Hardwired.width_bits {m : BitVec 64} (h : Hardwired true m) {i : Nat} (hi : i = 32 ∨ i = 33 ∨ i = 34 ∨ i = 35) :
    m.getLsbD i = (0b1010#64 <<< 32).getLsbD i := by
  rcases hi with rfl | rfl | rfl | rfl
  · exact getLsbD_of_bitcrop (o := 32) (i := 0) (by decide) (h.uxl rfl) (by decide)
  · exact getLsbD_of_bitcrop (o := 32) (i := 1) (by decide) (h.uxl rfl) (by decide)
  · exact getLsbD_of_bitcrop (o := 34) (i := 0) (by decide) (h.sxl rfl) (by decide)
  · exact getLsbD_of_bitcrop (o := 34) (i := 1) (by decide) (h.sxl rfl) (by decide)

/-- Clearing bits that are clear changes nothing. -/
theorem and_not_eq_self {m mask : BitVec 64} (h : ∀ i < 64, mask.getLsbD i = true → m.getLsbD i = false) :
    m &&& ~~~mask = m := by
  apply BitVec.eq_of_getLsbD_eq
  intro i hi
  rw [BitVec.getLsbD_and, BitVec.getLsbD_not, decide_eq_true hi, Bool.true_and]
  cases hb : mask.getLsbD i with
  | false => rw [Bool.not_false, Bool.and_true]
  | true => rw [h i hi hb, Bool.false_and]

namespace RiscvCpu

variable {c c' : RiscvCpu} {host : Host}

/-- A hardwired bit of the result depends on no other bit. -/
theorem getLsbD_hardwireMstatus_congr {m m' : BitVec 64} {i : Nat} (h : m.getLsbD i = m'.getLsbD i) :
    (c.hardwireMstatus m).getLsbD i = (c.hardwireMstatus m').getLsbD i := by
  unfold hardwireMstatus
  dsimp only
  split <;> simp only [BitVec.getLsbD_or, BitVec.getLsbD_and, h]

/-- Hardwiring changes nothing where the fields are in place. -/
theorem hardwireMstatus_of_hardwired {m : BitVec 64} (h : Hardwired c.en64bit m) : c.hardwireMstatus m = m := by
  unfold hardwireMstatus xlen mxl
  cases hb : c.en64bit with
  | false =>
    rw [hb] at h
    have hmask : ∀ i < 64, ((1#64 <<< (32 - 1)) ||| 0b011110000000000000).getLsbD i = true →
        i = 31 ∨ i = 13 ∨ i = 14 ∨ i = 15 ∨ i = 16 := by decide
    exact and_not_eq_self fun i hi hm => h.zero_bits (hmask i hi hm)
  | true =>
    rw [hb] at h
    have hmask : ∀ i < 64, ((1#64 <<< (64 - 1)) ||| 0b011110000000000000).getLsbD i = true →
        i = 63 ∨ i = 13 ∨ i = 14 ∨ i = 15 ∨ i = 16 := by decide
    have hclear : m &&& ~~~((1#64 <<< (64 - 1)) ||| 0b011110000000000000) = m :=
      and_not_eq_self fun i hi hm => h.zero_bits (hmask i hi hm)
    have hfield : ∀ i < 64, (0b1111#64 <<< 32).getLsbD i = true → i = 32 ∨ i = 33 ∨ i = 34 ∨ i = 35 := by decide
    have hvalue : ∀ i < 64, (0b1111#64 <<< 32).getLsbD i = false → (0b1010#64 <<< 32).getLsbD i = false := by decide
    show (m &&& ~~~((1#64 <<< (64 - 1)) ||| 0b011110000000000000)) &&& ~~~(0b1111#64 <<< 32) ||| (0b1010#64 <<< 32) = m
    rw [hclear]
    apply BitVec.eq_of_getLsbD_eq
    intro i hi
    rw [BitVec.getLsbD_or, BitVec.getLsbD_and, BitVec.getLsbD_not, decide_eq_true hi, Bool.true_and]
    cases hf : (0b1111#64 <<< 32).getLsbD i with
    | false => rw [hvalue i hi hf, Bool.not_false, Bool.and_true, Bool.or_false]
    | true => rw [Bool.not_true, Bool.and_false, Bool.false_or, h.width_bits (hfield i hi hf)]

/-! ## The states a client brings about -/

/-- The hardwired fields are in place. -/
def MstatusHardwired (c : RiscvCpu) : Prop := Hardwired c.en64bit c.mstatus

theorem MstatusHardwired.of_eq (h : MstatusHardwired c) (hen : c'.en64bit = c.en64bit) (hm : c'.mstatus = c.mstatus) :
    MstatusHardwired c' := by
  rw [MstatusHardwired, hen, hm]
  exact h

theorem MstatusHardwired.trapBody {cause : Nat} {interrupt : Bool} (h : MstatusHardwired c) :
    MstatusHardwired (c.trapBody cause interrupt) := by
  have hen : (c.trapBody cause interrupt).en64bit = c.en64bit := congrArg Data.en64bit trapBody_data
  rw [MstatusHardwired, hen]
  cases hd : c.svDelegation cause interrupt with
  | true =>
    rw [(trapBody_supervisor hd).mstatus, supervisorTrapStatus]
    exact ((h.bitset (by decide) _).bitset (by decide) _).bitset (by decide) _
  | false =>
    rw [(trapBody_machine hd).mstatus, machineTrapStatus]
    exact ((h.bitset (by decide) _).bitset (by decide) _).bitset (by decide) _

theorem MstatusHardwired.mret (h : MstatusHardwired c) (hr : c.mret = .ok c') : MstatusHardwired c' := by
  obtain ⟨p, -, hr⟩ := Except.bind_ok_iff.mp hr
  cases hr
  exact ((h.bitset (by decide) _).bitset (by decide) _).bitset (by decide) _

theorem MstatusHardwired.sret (h : MstatusHardwired c) (hr : c.sret = .ok c') : MstatusHardwired c' := by
  obtain ⟨p, -, hr⟩ := Except.bind_ok_iff.mp hr
  cases hr
  exact ((h.bitset (by decide) _).bitset (by decide) _).bitset (by decide) _

/-- A write to `mstatus` or to a view of it is hardwired, any other leaves it. -/
theorem MstatusHardwired.csrsInstruction {i : Instruction} {csr : BitVec 12} {rd rs1 : BitVec 5}
    (h : MstatusHardwired c) : MstatusHardwired (c.csrsInstruction i csr rd rs1) := by
  rcases csrsInstruction_cases c i csr rd rs1 with ⟨-, he⟩ | ⟨-, he⟩ | ⟨-, he⟩ | ⟨-, he⟩ <;> rw [he]
  · exact hardwireMstatus_hardwired c _
  all_goals exact h.of_eq rfl rfl

/-- Every writer of the status state keeps the fields in place. -/
theorem mstatusHardwired_invariant : StatusInvariant MstatusHardwired (fun _ _ _ _ => True) where
  of_status h hs := h.of_eq (congrArg Status.en64bit hs) (congrArg Status.mstatus hs)
  setInterruptPending _ h := h.of_eq rfl rfl
  trapBody h := h.trapBody
  csrsInstruction _ h := h.csrsInstruction
  mret h hr := h.mret hr
  sret h hr := h.sret hr

/-- What a client of the class calls. `RunCpu` is its start and its rounds. -/
inductive Call where
  | setRegister (num : BitVec 5) (value : BitVec 64)
  | setCsr (index : BitVec 12) (value : BitVec 64)
  | setMemory (memory : MemoryWrapper)
  | setWorkMemory (top bottom : BitVec 64)
  | setEcallEmulationEnable (enable : Bool)
  | setHostEmulationEnable (enable : Bool)
  | setDeviceEmulationEnable (enable : Bool)
  | setDisableMachineInterruptDelegation (disable : Bool)
  | setDiskImage (diskImage : Option (List (BitVec 8)))
  | deviceInitialization
  | start (startPc : BitVec 64)
  | step (host : Host)

def Call.run : Call → RiscvCpu → Except Crash RiscvCpu
  | .setRegister num value, c => .ok (c.setReg num value)
  | .setCsr index value, c => .ok (c.setCsr index value)
  | .setMemory memory, c => .ok (c.setMemory memory)
  | .setWorkMemory top bottom, c => .ok (c.setWorkMemory top bottom)
  | .setEcallEmulationEnable enable, c => .ok (c.setEcallEmulationEnable enable)
  | .setHostEmulationEnable enable, c => .ok (c.setHostEmulationEnable enable)
  | .setDeviceEmulationEnable enable, c => .ok (c.setDeviceEmulationEnable enable)
  | .setDisableMachineInterruptDelegation disable, c => .ok (c.setDisableMachineInterruptDelegation disable)
  | .setDiskImage diskImage, c => .ok (c.setDiskImage diskImage)
  | .deviceInitialization, c => c.deviceInitialization
  | .start startPc, c => .ok (c.start startPc)
  | .step host, c => c.step host

theorem deviceInitialization_ok (h : c.deviceInitialization = .ok c') :
    c' = c ∨ ∃ peripheral memory, c' = { c with peripheral, memory } := by
  rw [deviceInitialization] at h
  split at h
  · cases h
    exact .inl rfl
  · obtain ⟨⟨peripheral, memory⟩, -, h⟩ := Except.bind_ok_iff.mp h
    cases h
    exact .inr ⟨_, _, rfl⟩

theorem Call.run_hardwired {call : Call} (h : MstatusHardwired c) (hr : call.run c = .ok c') : MstatusHardwired c' := by
  cases call with
  | deviceInitialization =>
    rcases deviceInitialization_ok hr with rfl | ⟨_, _, rfl⟩
    · exact h
    · exact h.of_eq rfl rfl
  | step host => exact mstatusHardwired_invariant.step h (fun _ _ _ => trivial) hr
  | _ => cases hr; exact h.of_eq rfl rfl

/-- `c` is a state that calls bring about, or the one in which a round from
such a state executes its instruction. -/
inductive Reached (en64bit : Bool) (misa64 : BitVec 64) : RiscvCpu → Prop
  | between {t : RiscvCpu} (h : Run.Steps Call.run (fun _ _ => True) (new en64bit misa64) t) : Reached en64bit misa64 t
  | within {t c₂ : RiscvCpu} (h : Run.Steps Call.run (fun _ _ => True) (new en64bit misa64) t) (hf : t.Fetches c₂) :
      Reached en64bit misa64 c₂.decodeStage

theorem hardwired_reached {en64bit : Bool} {misa64 : BitVec 64} (h : Reached en64bit misa64 c) :
    MstatusHardwired c := by
  have hrun : ∀ {t}, Run.Steps Call.run (fun _ _ => True) (new en64bit misa64) t → MstatusHardwired t := fun ht =>
    ht.invariant (fun _ _ _ hc _ hr => Call.run_hardwired hc hr) (new_statusViews en64bit misa64).hardwired
  cases h with
  | between h => exact hrun h
  | within h hf => exact (mstatusHardwired_invariant.fetched (hrun h) hf).of_eq rfl rfl

/-! ## What a write to a view reaches -/

/-- A mask for each of the three registers. -/
structure StatusMasks where
  mstatus : BitVec 64
  mie : BitVec 64
  mip : BitVec 64

/-- The views that show a part of their register. -/
def restrictedViews : List (BitVec 12) := [Csr.ustatus, Csr.sstatus, Csr.uie, Csr.sie, Csr.uip, Csr.sip]

/-- The bits a view shows; none of the registers it is no view of. -/
def viewMasks (c : RiscvCpu) (csr : BitVec 12) : StatusMasks where
  mstatus := if csr = Csr.ustatus then c.ustatusMask else if csr = Csr.sstatus then c.sstatusMask else 0
  mie := if csr = Csr.uie then kUieMask else if csr = Csr.sie then kSieMask else 0
  mip := if csr = Csr.uip then kUipMask else if csr = Csr.sip then kSipMask else 0

/-- No bit outside the masks differs. -/
structure KeptOutside (masks : StatusMasks) (c c' : RiscvCpu) : Prop where
  mstatus : ∀ i, masks.mstatus.getLsbD i = false → c'.mstatus.getLsbD i = c.mstatus.getLsbD i
  mie : ∀ i, masks.mie.getLsbD i = false → c'.mie.getLsbD i = c.mie.getLsbD i
  mip : ∀ i, masks.mip.getLsbD i = false → c'.mip.getLsbD i = c.mip.getLsbD i

/-- The masked merge. -/
theorem getLsbD_merge {m v : BitVec 64} (mask : BitVec 64) {i : Nat} (h : mask.getLsbD i = false) :
    ((m &&& ~~~mask) ||| (v &&& mask)).getLsbD i = m.getLsbD i := by
  rw [BitVec.getLsbD_or, BitVec.getLsbD_and, BitVec.getLsbD_and, BitVec.getLsbD_not, h]
  by_cases hi : i < 64
  · simp [hi]
  · simp [hi, BitVec.getLsbD_of_ge m i (by omega)]

/-- With the fields in place, what hardwiring writes outside the mask was
there before. -/
theorem MstatusHardwired.merge (h : MstatusHardwired c) {v : BitVec 64} (mask : BitVec 64) {i : Nat}
    (hi : mask.getLsbD i = false) :
    (c.hardwireMstatus ((c.mstatus &&& ~~~mask) ||| (v &&& mask))).getLsbD i = c.mstatus.getLsbD i := by
  rw [getLsbD_hardwireMstatus_congr (getLsbD_merge mask hi), hardwireMstatus_of_hardwired h]

theorem updateStatus_keptOutside {csr : BitVec 12} (h : MstatusHardwired c) (hcsr : csr ∈ restrictedViews) :
    KeptOutside (c.viewMasks csr) c (c.updateStatus csr) := by
  simp only [restrictedViews, List.mem_cons, List.not_mem_nil, or_false] at hcsr
  rcases hcsr with rfl | rfl | rfl | rfl | rfl | rfl
  · exact ⟨fun i hi => h.merge c.ustatusMask hi, fun _ _ => rfl, fun _ _ => rfl⟩
  · exact ⟨fun i hi => h.merge c.sstatusMask hi, fun _ _ => rfl, fun _ _ => rfl⟩
  · exact ⟨fun _ _ => rfl, fun i hi => getLsbD_merge kUieMask hi, fun _ _ => rfl⟩
  · exact ⟨fun _ _ => rfl, fun i hi => getLsbD_merge kSieMask hi, fun _ _ => rfl⟩
  · exact ⟨fun _ _ => rfl, fun _ _ => rfl, fun i hi => getLsbD_merge kUipMask hi⟩
  · exact ⟨fun _ _ => rfl, fun _ _ => rfl, fun i hi => getLsbD_merge kSipMask hi⟩

/-- **Restricted views.** In every state that is reached, a CSR instruction on
a user or supervisor view changes no bit of `mstatus`, `mie` or `mip` that
the view does not show. -/
theorem view_frame (en64bit : Bool) (misa64 : BitVec 64) (c : RiscvCpu) (h : Reached en64bit misa64 c)
    (instruction : Instruction) (csr : BitVec 12) (rd rs1 : BitVec 5) (hcsr : csr ∈ restrictedViews) :
    KeptOutside (c.viewMasks csr) c (c.csrsInstruction instruction csr rd rs1) := by
  -- The write to the array and to `rd` touches neither the registers nor their masks.
  have hwritten : MstatusHardwired ((c.setCsr csr (c.csrValue instruction (c.csrs csr) rs1)).setReg rd (c.csrs csr)) :=
    (hardwired_reached h).of_eq rfl rfl
  obtain ⟨hstatus, henable, hpending⟩ := updateStatus_keptOutside hwritten hcsr
  exact ⟨hstatus, henable, hpending⟩

/-- Every bit set through `sstatus` on a fresh 64-bit processor. -/
theorem view_frame_sstatus :
    KeptOutside ((new true 0).viewMasks Csr.sstatus) ((new true 0).setReg x1 (BitVec.allOnes 64))
      (((new true 0).setReg x1 (BitVec.allOnes 64)).csrsInstruction .csrrw Csr.sstatus x1 x1) ∧
    (((new true 0).setReg x1 (BitVec.allOnes 64)).csrsInstruction .csrrw Csr.sstatus x1 x1).mstatus = 0xA000C0133 :=
  ⟨view_frame true 0 ((new true 0).setReg x1 (BitVec.allOnes 64))
    (.between (.tail (l := .setRegister x1 (BitVec.allOnes 64)) .refl trivial rfl)) .csrrw Csr.sstatus x1 x1
      (by decide),
    by decide⟩

end RiscvCpu

end RiscvEmulator
