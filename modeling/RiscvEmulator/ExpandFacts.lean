/-
A compressed instruction does what its expansion does.

The two get the same fields. Executing these where the following instruction
stands two bytes on instead of four changes the value a jump links and, unless
control is transferred, the address to go on at; nothing else
(`execute_expands`).
-/
import RiscvEmulator.CompressedFacts
import RiscvEmulator.RoundFacts

namespace RiscvEmulator

/-! ## The following instruction -/

namespace RiscvCpu

/-- The state with another word fetched: the word, its length and the
address that follows it. -/
def fetchedAs (c : RiscvCpu) (ir : BitVec 32) (ctype : Bool) (nextPc : BitVec 64) : RiscvCpu :=
  { c with ir, ctype, nextPc }

section

variable (c : RiscvCpu) (ir : BitVec 32) (ctype : Bool) (n : BitVec 64) {cause : Nat}

theorem trapValue_fetchedAs (hc : cause ≠ illegalInstruction) :
    (c.fetchedAs ir ctype n).trapValue cause false = c.trapValue cause false := by
  simp only [trapValue, if_neg hc]
  rfl

theorem trapToSupervisor_fetchedAs (hc : cause ≠ illegalInstruction) (sie : Bool) :
    (c.fetchedAs ir ctype n).trapToSupervisor cause false sie =
      (c.trapToSupervisor cause false sie).fetchedAs ir ctype (c.trapToSupervisor cause false sie).nextPc := by
  unfold trapToSupervisor
  rw [trapValue_fetchedAs c ir ctype n hc]
  rfl

theorem trapToMachine_fetchedAs (hc : cause ≠ illegalInstruction) (mie : Bool) :
    (c.fetchedAs ir ctype n).trapToMachine cause false mie =
      (c.trapToMachine cause false mie).fetchedAs ir ctype (c.trapToMachine cause false mie).nextPc := by
  unfold trapToMachine
  rw [trapValue_fetchedAs c ir ctype n hc]
  rfl

theorem enterTrap_fetchedAs : (c.fetchedAs ir ctype n).enterTrap cause false =
    (c.enterTrap cause false).fetchedAs ir ctype n := by
  unfold enterTrap
  split <;> rfl

theorem leaveTrap_fetchedAs : (c.fetchedAs ir ctype n).leaveTrap cause false =
    (c.leaveTrap cause false).fetchedAs ir ctype n := by
  unfold leaveTrap
  rw [if_neg (by simp), if_neg (by simp)]
  rfl

/-- A trap replaces the address that follows. -/
theorem trapBody_fetchedAs (hc : cause ≠ illegalInstruction) :
    (c.fetchedAs ir ctype n).trapBody cause false =
      (c.trapBody cause false).fetchedAs ir ctype (c.trapBody cause false).nextPc := by
  have hd : ((c.enterTrap cause false).fetchedAs ir ctype n).svDelegation cause false =
      (c.enterTrap cause false).svDelegation cause false := rfl
  simp only [trapBody, enterTrap_fetchedAs, hd]
  split
  · rw [trapToSupervisor_fetchedAs _ _ _ _ hc, leaveTrap_fetchedAs, leaveTrap_nextPc]; rfl
  · rw [trapToMachine_fetchedAs _ _ _ _ hc, leaveTrap_fetchedAs, leaveTrap_nextPc]; rfl

theorem csrsInstruction_fetchedAs (i : Instruction) (csr : BitVec 12) (rd rs1 : BitVec 5) :
    (c.fetchedAs ir ctype n).csrsInstruction i csr rd rs1 =
      (c.csrsInstruction i csr rd rs1).fetchedAs ir ctype n := by
  rcases csrsInstruction_cases c i csr rd rs1 with ⟨hc, h⟩ | ⟨hc, h⟩ | ⟨hc, h⟩ | ⟨hc, h⟩ <;> rw [h]
  · rcases hc with rfl | rfl | rfl <;> rfl
  · rcases hc with rfl | rfl | rfl <;> rfl
  · rcases hc with rfl | rfl | rfl <;> rfl
  · exact csrsInstruction_of_other hc

theorem csrsInstruction_trapLog (i : Instruction) (csr : BitVec 12) (rd rs1 : BitVec 5) :
    (c.csrsInstruction i csr rd rs1).trapLog = c.trapLog := congrArg Data.trapLog (csrsInstruction_data i csr rd rs1)

end

section

variable (ir ir' : BitVec 32) (ctype ctype' : Bool) (n n' : BitVec 64)

def isBranch : Instruction → Bool
  | .beq | .bge | .bgeu | .blt | .bltu | .bne => true
  | _ => false

theorem branchCondition_of_not_branch {i : Instruction} (h : isBranch i = false) (c : RiscvCpu) (rs1 rs2 : BitVec 5) :
    c.branchCondition i rs1 rs2 = false := by
  cases i <;> first | rfl | cases h

/-- Two states that differ by what was fetched. -/
def Framed (s t : RiscvCpu) : Prop :=
  ∃ c : RiscvCpu, s = c.fetchedAs ir ctype n ∧ t = c.fetchedAs ir' ctype' n'

/-- Two states that go on each after its own instruction, without a trap since
`log`, or trapped and go on at the same address. -/
def Follows (log : List (Nat × Bool)) (s t : RiscvCpu) : Prop :=
  (Framed ir ir' ctype ctype' n n' s t ∧ t.trapLog = log) ∨
    (∃ a, Framed ir ir' ctype ctype' a a s t) ∧ t.trapLog ≠ log

variable {ir ir' ctype ctype' n n'}

theorem framed (c : RiscvCpu) :
    Framed ir ir' ctype ctype' n n' (c.fetchedAs ir ctype n) (c.fetchedAs ir' ctype' n') := ⟨c, rfl, rfl⟩

theorem virtualToPhysical_framed {s t : RiscvCpu} (h : Framed ir ir' ctype ctype' n n' s t) (va : BitVec 64)
    (write : Bool) :
    Except.Related (fun r r' => r.1 = r'.1 ∧ Framed ir ir' ctype ctype' n n' r.2 r'.2 ∧ r'.2.trapLog = t.trapLog)
      (s.virtualToPhysical va write) (t.virtualToPhysical va write) := by
  obtain ⟨c, rfl, rfl⟩ := h
  refine .bind (.same c.accessPrivilege) ?_
  rintro privilege _ rfl
  refine .bind (.same (((c.mmu.setMxl c.mxl).setPrivilege privilege).virtualToPhysical c.memory va (c.csrs Csr.satp)
    write)) ?_
  rintro ⟨pa, mmu, memory⟩ _ rfl
  dsimp only
  split
  · exact .ok ⟨rfl, ⟨{ c with mmu, memory, pageFault := true, faultingAddress := mmu.faultingAddress }, rfl, rfl⟩, rfl⟩
  · exact .ok ⟨rfl, ⟨{ c with mmu, memory }, rfl, rfl⟩, rfl⟩

theorem trap_follows {s t : RiscvCpu} (h : Framed ir ir' ctype ctype' n n' s t) {cause : Nat}
    (hc : cause ≠ illegalInstruction) :
    Except.Related (Follows ir ir' ctype ctype' n n' t.trapLog) (s.trap cause false) (t.trap cause false) := by
  obtain ⟨c, rfl, rfl⟩ := h
  refine .bind (.same (assert (trapAccepts cause false))) ?_
  rintro _ _ rfl
  refine .ok (.inr ⟨⟨_, _, trapBody_fetchedAs c ir ctype n hc, trapBody_fetchedAs c ir' ctype' n' hc⟩, ?_⟩)
  -- The trap is a new entry of the log.
  show ((c.fetchedAs ir' ctype' n').trapBody cause false).trapLog ≠ (c.fetchedAs ir' ctype' n').trapLog
  rw [trapBody_trapLog]
  exact List.cons_ne_self _ _

/-- Data is accessed alike, and a trap is the only transfer of control. -/
theorem framed_access (log : List (Nat × Bool)) :
    AccessSimulation (fun s t => Framed ir ir' ctype ctype' n n' s t ∧ t.trapLog = log)
      (Follows ir ir' ctype ctype' n n' log) where
  reg := by rintro _ _ ⟨⟨c, rfl, rfl⟩, -⟩; rfl
  memory := by rintro _ _ ⟨⟨c, rfl, rfl⟩, -⟩; rfl
  peripheral := by rintro _ _ ⟨⟨c, rfl, rfl⟩, -⟩; rfl
  pageFault := by rintro _ _ ⟨⟨c, rfl, rfl⟩, -⟩; rfl
  setMemory := by
    rintro _ _ memory ⟨⟨c, rfl, rfl⟩, hlog⟩
    exact ⟨framed { c with memory }, hlog⟩
  report := by
    rintro _ _ f ⟨⟨c, rfl, rfl⟩, hlog⟩
    exact ⟨framed { c with peripheral := f c.peripheral }, hlog⟩
  translate := fun va write ⟨h, hlog⟩ =>
    (virtualToPhysical_framed h va write).mono fun _ _ ⟨hpa, hf, hl⟩ => ⟨hpa, hf, hl.trans hlog⟩
  trap := by
    rintro s t cause hp ⟨h, rfl⟩
    exact trap_follows h fun hc => by rw [hc] at hp; cases hp
  loaded := by
    rintro _ _ rd v ⟨⟨c, rfl, rfl⟩, hlog⟩
    exact .inl ⟨framed (c.setReg rd v), hlog⟩
  stored := .inl

theorem ecall_follows {s t : RiscvCpu} (h : Framed ir ir' ctype ctype' n n' s t) :
    Except.Related (Follows ir ir' ctype ctype' n n' t.trapLog) s.ecall t.ecall := by
  have hs : s.privilege = t.privilege := by
    obtain ⟨c, rfl, rfl⟩ := h
    rfl
  unfold ecall
  rw [hs]
  split <;> exact trap_follows h (by decide)

theorem systemCall_follows {s t : RiscvCpu} (h : Framed ir ir' ctype ctype' n n' s t) (host : Host) :
    Except.Related (Follows ir ir' ctype ctype' n n' t.trapLog) (s.systemCall host) (t.systemCall host) := by
  obtain ⟨c, rfl, rfl⟩ := h
  refine .bind (.same (systemCallEmulation host c.memory c.reg c.brk c.host c.top)) ?_
  rintro r _ rfl
  exact .ok (.inl ⟨⟨{ c with memory := r.mem, reg := r.reg, brk := r.brk, host := r.host, errorFlag := r.errorFlag,
                             endFlag := r.endFlag }, rfl, rfl⟩, rfl⟩)

/-- A return transfers control without a trap. -/
def isReturn (d : Decoded) : Prop :=
  d.instruction = .system ∧ (d.imm = 0b001100000010 ∨ d.imm = 0b000100000010)

theorem systemInstruction_follows {s t : RiscvCpu} (h : Framed ir ir' ctype ctype' n n' s t) (host : Host)
    (rd : BitVec 5) {imm : BitVec 32} (hm : imm ≠ 0b001100000010) (hsret : imm ≠ 0b000100000010) :
    Except.Related (Follows ir ir' ctype ctype' n n' t.trapLog) (s.systemInstruction host rd imm)
      (t.systemInstruction host rd imm) := by
  have he : s.ecallEmulation = t.ecallEmulation := by
    obtain ⟨c, rfl, rfl⟩ := h
    rfl
  unfold systemInstruction
  refine .ite Iff.rfl (fun _ => .ite (by rw [he]) (fun _ => ?_) fun _ => ?_) fun _ =>
    .ite Iff.rfl (fun _ => ?_) fun _ => .ite Iff.rfl (fun _ => ?_) fun _ => .ite Iff.rfl (fun _ => ?_) fun _ =>
    .ite Iff.rfl (fun _ => ?_) fun _ => ?_
  · exact systemCall_follows h host
  · exact ecall_follows h
  · exact .ok (.inl ⟨h, rfl⟩)
  · exact absurd ‹_› hm
  · exact absurd ‹_› hsret
  · exact .ok (.inl ⟨h, rfl⟩)
  · obtain ⟨c, rfl, rfl⟩ := h
    exact .ok (.inl ⟨⟨{ c with errorFlag := true }, rfl, rfl⟩, rfl⟩)

/-- Other than to jumps, branches and returns, the following instruction
matters as the one to go on at. -/
theorem execute_follows {s t : RiscvCpu} (h : Framed ir ir' ctype ctype' n n' s t) (host : Host) {d : Decoded}
    (csr : BitVec 12) (hl : isLink d.instruction = false) (hb : isBranch d.instruction = false)
    (hr : ¬ isReturn d) :
    Except.Related (Follows ir ir' ctype ctype' n n' t.trapLog) (s.execute host d csr) (t.execute host d csr) := by
  have h₀ := h
  obtain ⟨c, rfl, rfl⟩ := h
  have hset : ∀ v, Except.Related (Follows ir ir' ctype ctype' n n' c.trapLog)
      (.ok ((c.fetchedAs ir ctype n).setReg d.rd v) : Except Crash RiscvCpu)
      (.ok ((c.fetchedAs ir' ctype' n').setReg d.rd v)) := fun v => .ok (.inl ⟨⟨c.setReg d.rd v, rfl, rfl⟩, rfl⟩)
  cases hi : d.instruction
  case jal | jalr => rw [hi] at hl; cases hl
  case beq | bge | bgeu | blt | bltu | bne => rw [hi] at hb; cases hb
  all_goals simp only [execute, hi]
  case add | addw | and | sub | subw | or | xor | sll | sllw | srl | srlw | sra | sraw =>
    refine .bind (.same (operation c.xlen _ (c.reg d.rs1) (c.reg d.rs2))) ?_
    rintro v _ rfl
    exact hset _
  case addi | addiw | andi | ori | xori =>
    refine .bind (.same (immediate _ (c.reg d.rs1) (d.imm.signExtend 64))) ?_
    rintro v _ rfl
    exact hset _
  case slli | slliw | srli | srliw | srai | sraiw =>
    refine .bind (.same (immediateShift c.xlen _ (c.reg d.rs1) d.imm.toNat)) ?_
    rintro v _ rfl
    cases v with
    | some v => exact hset v
    | none => exact .ok (.inl ⟨h₀, rfl⟩)
  case mul | mulh | mulhsu | mulhu | mulw | div | divu | divuw | divw | rem | remu | remuw | remw =>
    refine .bind (.same (mult c.xlen _ (c.reg d.rs1) (c.reg d.rs2))) ?_
    rintro v _ rfl
    exact hset _
  case slt | sltu | slti | sltiu | lui | auipc => exact hset _
  case lb | lbu | lh | lhu | lw | lwu | ld => exact (framed_access c.trapLog).load ⟨h₀, rfl⟩ _ _ _ _
  case sb | sh | sw | sd => exact (framed_access c.trapLog).store ⟨h₀, rfl⟩ _ _ _ _
  case system =>
    exact systemInstruction_follows h₀ host _ (fun h => hr ⟨hi, .inl h⟩) fun h => hr ⟨hi, .inr h⟩
  case csrrc | csrrci | csrrs | csrrsi | csrrw | csrrwi =>
    rw [csrsInstruction_fetchedAs, csrsInstruction_fetchedAs]
    exact .ok (.inl ⟨⟨_, rfl, rfl⟩, csrsInstruction_trapLog c _ csr _ _⟩)
  case fence | fencei => exact .ok (.inl ⟨h₀, rfl⟩)
  case error => exact .ok (.inl ⟨⟨{ c with errorFlag := true }, rfl, rfl⟩, rfl⟩)
  all_goals exact (framed_access c.trapLog).amo ⟨h₀, rfl⟩ _ _ _ _

end

/-! ## Parcels and expansions -/

/-- The instruction decoded as `d` leaves `c` for `t` other than to the
instruction that follows: it is a jump or a taken branch, or it traps. -/
def Transfers (c : RiscvCpu) (d : Decoded) (t : RiscvCpu) : Prop :=
  isLink d.instruction = true ∨ c.branchCondition d.instruction d.rs1 d.rs2 = true ∨ t.trapLog ≠ c.trapLog

/-- `s` is left by a parcel executed in `c`, `t` by its expansion, decoded as
`d`: they agree, but for the word and its length, for the value a jump links
and, where control is not transferred, for the address of the following
instruction. -/
structure Expands (c : RiscvCpu) (d : Decoded) (s t : RiscvCpu) : Prop where
  state : s = { t with reg := s.reg, ir := s.ir, ctype := s.ctype, nextPc := s.nextPc }
  reg : ∀ r, (isLink d.instruction = true → r ≠ d.rd) → s.reg r = t.reg r
  link : isLink d.instruction = true → s.reg d.rd = c.pc + 2 ∧ t.reg d.rd = c.pc + 4
  target : Transfers c d t → s.nextPc = t.nextPc
  sequential : ¬ Transfers c d t → s.nextPc = c.pc + 2 ∧ t.nextPc = c.pc + 4

theorem expands_of_follows {c s t : RiscvCpu} {d : Decoded} {ir ir' : BitVec 32}
    (hl : isLink d.instruction = false) (hb : isBranch d.instruction = false)
    (h : Follows ir ir' true false (c.pc + 2) (c.pc + 4) c.trapLog s t) : Expands c d s t := by
  have hnl : isLink d.instruction ≠ true := by rw [hl]; decide
  have hnb : c.branchCondition d.instruction d.rs1 d.rs2 ≠ true := by
    rw [branchCondition_of_not_branch hb]; decide
  rcases h with ⟨⟨c', rfl, rfl⟩, hlog⟩ | ⟨⟨a, c', rfl, rfl⟩, hlog⟩
  · have hseq : ¬ Transfers c d (c'.fetchedAs ir' false (c.pc + 4)) := by
      rintro (h | h | h)
      exacts [hnl h, hnb h, h hlog]
    exact ⟨rfl, fun _ _ => rfl, fun h => absurd h hnl, fun h => absurd h hseq, fun _ => ⟨rfl, rfl⟩⟩
  · exact ⟨rfl, fun _ _ => rfl, fun h => absurd h hnl, fun _ => rfl, fun h => absurd (.inr (.inr hlog)) h⟩

theorem execute_branch_expands (c : RiscvCpu) (host : Host) (d : Decoded) (csr : BitVec 12) (ir ir' : BitVec 32)
    (hb : isBranch d.instruction = true) :
    Except.Related (Expands c d) ((c.fetchedAs ir true (c.pc + 2)).execute host d csr)
      ((c.fetchedAs ir' false (c.pc + 4)).execute host d csr) := by
  have hnl : isLink d.instruction ≠ true := by
    cases hi : d.instruction <;> rw [hi] at hb <;> first | decide | cases hb
  have hex : ∀ c' : RiscvCpu, c'.execute host d csr =
      .ok { c' with nextPc := c'.branchInstruction d.instruction d.rs1 d.rs2 d.imm } := by
    intro c'
    cases hi : d.instruction <;> rw [hi] at hb <;> first | (simp only [execute, hi]; done) | cases hb
  have hcond : ∀ ir ctype n, (c.fetchedAs ir ctype n).branchCondition d.instruction d.rs1 d.rs2 =
      c.branchCondition d.instruction d.rs1 d.rs2 := fun _ _ _ => rfl
  rw [hex, hex]
  simp only [branchInstruction, hcond]
  by_cases hc : c.branchCondition d.instruction d.rs1 d.rs2 = true
  · rw [if_pos hc, if_pos hc]
    exact .ok ⟨rfl, fun _ _ => rfl, fun h => absurd h hnl, fun _ => rfl, fun h => absurd (.inr (.inl hc)) h⟩
  · rw [if_neg hc, if_neg hc]
    refine .ok ⟨rfl, fun _ _ => rfl, fun h => absurd h hnl, ?_, fun _ => ⟨rfl, rfl⟩⟩
    rintro (h | h | h)
    exacts [absurd h hnl, absurd h hc, absurd rfl h]

/-- Two states with their own link in `rd`. -/
theorem expands_of_link (c c' : RiscvCpu) {d : Decoded} (ir ir' : BitVec 32) (a : BitVec 64)
    (hl : isLink d.instruction = true) :
    Expands c d ((c'.setReg d.rd (c.pc + 2)).fetchedAs ir true a)
      ((c'.setReg d.rd (c.pc + 4)).fetchedAs ir' false a) := by
  refine ⟨rfl, fun r hr => ?_, fun _ => ⟨Function.update_self .., Function.update_self ..⟩, fun _ => rfl,
    fun h => absurd (.inl hl) h⟩
  show Function.update c'.reg d.rd (c.pc + 2) r = Function.update c'.reg d.rd (c.pc + 4) r
  rw [Function.update_of_ne (hr hl), Function.update_of_ne (hr hl)]

theorem execute_jal_fetched (c : RiscvCpu) (host : Host) {d : Decoded} (csr : BitVec 12) (ir : BitVec 32)
    (ctype : Bool) (n : BitVec 64) (hi : d.instruction = .jal) :
    (c.fetchedAs ir ctype n).execute host d csr =
      .ok (((if c.pc + d.imm.signExtend 64 = c.pc then { c with errorFlag := true } else c).setReg d.rd n).fetchedAs ir
        ctype (c.pc + d.imm.signExtend 64)) := by
  rw [execute_jal hi]
  split
  · next h => rw [if_pos (show c.pc + d.imm.signExtend 64 = c.pc from h)]; rfl
  · next h => rw [if_neg (show ¬ c.pc + d.imm.signExtend 64 = c.pc from h)]; rfl

theorem execute_jalr_fetched (c : RiscvCpu) (host : Host) {d : Decoded} (csr : BitVec 12) (ir : BitVec 32)
    (ctype : Bool) (n : BitVec 64) (hi : d.instruction = .jalr) :
    (c.fetchedAs ir ctype n).execute host d csr =
      .ok (((if d.rd = zero ∧ d.rs1 = ra ∧ c.reg d.rs1 = 0 ∧ d.imm = 0 then { c with endFlag := true } else c).setReg
        d.rd n).fetchedAs ir ctype ((c.reg d.rs1 + d.imm.signExtend 64) &&& ~~~1)) := by
  rw [execute_jalr hi]
  split
  · next h => rw [if_pos (show d.rd = zero ∧ d.rs1 = ra ∧ c.reg d.rs1 = 0 ∧ d.imm = 0 from h)]; rfl
  · next h => rw [if_neg (show ¬ (d.rd = zero ∧ d.rs1 = ra ∧ c.reg d.rs1 = 0 ∧ d.imm = 0) from h)]; rfl

theorem execute_link_expands (c : RiscvCpu) (host : Host) (d : Decoded) (csr : BitVec 12) (ir ir' : BitVec 32)
    (hl : isLink d.instruction = true) :
    Except.Related (Expands c d) ((c.fetchedAs ir true (c.pc + 2)).execute host d csr)
      ((c.fetchedAs ir' false (c.pc + 4)).execute host d csr) := by
  have hi : d.instruction = .jal ∨ d.instruction = .jalr := by
    cases hi : d.instruction <;> rw [hi] at hl <;> first | exact .inl rfl | exact .inr rfl | cases hl
  rcases hi with hi | hi
  · rw [execute_jal_fetched c host csr ir _ _ hi, execute_jal_fetched c host csr ir' _ _ hi]
    exact .ok (expands_of_link c _ ir ir' _ hl)
  · rw [execute_jalr_fetched c host csr ir _ _ hi, execute_jalr_fetched c host csr ir' _ _ hi]
    exact .ok (expands_of_link c _ ir ir' _ hl)

/-- Executing one instruction with either length. -/
theorem execute_expands (c : RiscvCpu) (host : Host) (d : Decoded) (csr : BitVec 12) (ir ir' : BitVec 32)
    (hr : ¬ isReturn d) :
    Except.Related (Expands c d) ((c.fetchedAs ir true (c.pc + 2)).execute host d csr)
      ((c.fetchedAs ir' false (c.pc + 4)).execute host d csr) := by
  cases hl : isLink d.instruction with
  | true => exact execute_link_expands c host d csr ir ir' hl
  | false =>
    cases hb : isBranch d.instruction with
    | true => exact execute_branch_expands c host d csr ir ir' hb
    | false => exact (execute_follows (framed c) host csr hl hb hr).mono fun _ _ h => expands_of_follows hl hb h

/-- **A compressed instruction does what its expansion does.** For every
parcel that is neither reserved nor a HINT, in every state: executing it and
executing its expansion at the same `pc` end alike, with the same registers,
memory, CSRs, privilege and target. The link of a jump and, unless control is
transferred, the address to go on at are `pc + 2` for the parcel and `pc + 4`
for the expansion. -/
theorem executeStage_expand (c : RiscvCpu) (host : Host) (p : BitVec 16) (w : BitVec 32)
    (h : Rvc.expand c.mxl p = some w) (hint : Rvc.isHint p = false) :
    Except.Related (Expands c (decode w c.mxl)) ({ c with ir := p.setWidth 32 }.executeStage host)
      ({ c with ir := w }.executeStage host) := by
  have hp := expand_parcel h
  have hw := low_of_opcode (expand_word h)
  have hsp : { c with ir := p.setWidth 32 }.decodeStage = c.fetchedAs (p.setWidth 32) true (c.pc + 2) := by
    simp only [decodeStage, decide_eq_true hp, if_true]
    rfl
  have hsw : { c with ir := w }.decodeStage = c.fetchedAs w false (c.pc + 4) := by
    simp only [decodeStage, hw]
    rfl
  have hd : decode (p.setWidth 32) c.mxl = (decode w c.mxl).used := by
    rw [decode, if_pos hp, getCode16_expand h hint]
  have hcsr : isCsrs (decode w c.mxl).instruction = false := by
    rw [← used_instruction, ← getCode16_expand h hint]
    exact getCode16_csrs _ _
  have hr : ¬ isReturn (decode w c.mxl) := by
    rintro ⟨hi, himm⟩
    have h1 : (decode w c.mxl).imm = 1 := by
      rw [← used_imm_of_system hi, ← getCode16_expand h hint]
      refine getCode16_system _ _ ?_
      rw [getCode16_expand h hint, used_instruction, hi]
    rw [h1] at himm
    rcases himm with h | h <;> cases h
  show Except.Related _ ({ c with ir := p.setWidth 32 }.decodeStage.execute host (decode (p.setWidth 32) c.mxl)
      (getCsr (p.setWidth 32))) ({ c with ir := w }.decodeStage.execute host (decode w c.mxl) (getCsr w))
  rw [hsp, hsw, hd, execute_used, execute_csr _ host _ (getCsr (p.setWidth 32)) (getCsr w) hcsr]
  exact execute_expands c host (decode w c.mxl) (getCsr w) _ _ hr

/-- `c.jalr x5`. -/
theorem executeStage_expand_jalr :
    Rvc.expand (new true 0).mxl 0x9282 = some 0x000280e7 ∧ Rvc.isHint 0x9282 = false ∧
      Except.Related (Expands (new true 0) (decode 0x000280e7 2))
        ({ new true 0 with ir := (0x9282 : BitVec 16).setWidth 32 }.executeStage .failing)
        ({ new true 0 with ir := 0x000280e7 }.executeStage .failing) :=
  ⟨by decide, by decide, executeStage_expand (new true 0) .failing 0x9282 0x000280e7 (by decide) (by decide)⟩

end RiscvCpu

end RiscvEmulator
