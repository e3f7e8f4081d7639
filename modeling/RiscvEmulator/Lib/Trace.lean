/-
Traces of the accesses to a byte memory.

`Traced s l t` says that the accesses `l`, one after another, can turn `s`
into `t`: it says where they write and not what. A byte that none of them
writes is as it was (`Traced.frame`), and the first read of a byte that none
has written before returns what was there (`Traced.returned`).
-/
import RiscvEmulator.Lib.Bytes

namespace Bytes

inductive Access (w : Nat) where
  /-- With the memory that is read. -/
  | read (area : Area w) (seen : Store w)
  | write (area : Area w)

variable {w : Nat}

def Access.reads (b : BitVec w) : Access w → Bool
  | .read area _ => InArea area b
  | .write _ => false

def Access.writes (b : BitVec w) : Access w → Bool
  | .read _ _ => false
  | .write area => InArea area b

/-- None of the accesses writes the byte. -/
def Spares (b : BitVec w) (l : List (Access w)) : Prop := ∀ a ∈ l, a.writes b = false

instance (b : BitVec w) (l : List (Access w)) : Decidable (Spares b l) := inferInstanceAs (Decidable (∀ _ ∈ _, _))

/-- The accesses before the first that reads the byte. -/
def beforeRead (b : BitVec w) (l : List (Access w)) : List (Access w) := l.takeWhile fun a => !a.reads b

/-- That read: where the byte stands in what is read, one area after another,
and what it is. -/
def returned (b : BitVec w) : List (Access w) → Option (Nat × BitVec 8)
  | [] => none
  | .write _ :: l => returned b l
  | .read area seen :: l =>
    if InArea area b then some ((b - area.1).toNat, seen b)
    else (returned b l).map fun r => (area.2 + r.1, r.2)

inductive Traced : Store w → List (Access w) → Store w → Prop
  | nil (s : Store w) : Traced s [] s
  | read {s t : Store w} {l : List (Access w)} (area : Area w) (h : Traced s l t) : Traced s (.read area s :: l) t
  | write {s t u : Store w} {l : List (Access w)} {area : Area w} (frame : ∀ b, ¬ InArea area b → t b = s b)
      (h : Traced t l u) : Traced s (.write area :: l) u

variable {s t u : Store w} {l k : List (Access w)} {b : BitVec w}

theorem Traced.write_one {area : Area w} (frame : ∀ b, ¬ InArea area b → t b = s b) : Traced s [.write area] t :=
  .write frame (.nil t)

theorem Traced.append (h : Traced s l t) (h' : Traced t k u) : Traced s (l ++ k) u := by
  induction h with
  | nil => exact h'
  | read area _ ih => exact .read area (ih h')
  | write frame _ ih => exact .write frame (ih h')

theorem Traced.frame (h : Traced s l t) (hb : Spares b l) : t b = s b := by
  induction h with
  | nil => rfl
  | read area _ ih => exact ih fun a ha => hb a (List.mem_cons_of_mem _ ha)
  | @write s t u l area frame _ ih =>
    have hout : ¬ InArea area b := of_decide_eq_false (hb (.write area) List.mem_cons_self)
    rw [ih fun a ha => hb a (List.mem_cons_of_mem _ ha), frame b hout]

theorem returned_cons_congr (h : returned b l = returned b k) (a : Access w) :
    returned b (a :: l) = returned b (a :: k) := by
  cases a with
  | write area => exact h
  | read area seen => rw [returned, returned, h]

theorem beforeRead_of_returned (h : returned b l = none) : beforeRead b l = l := by
  induction l with
  | nil => rfl
  | cons a l ih =>
    cases a with
    | write area =>
      rw [beforeRead, List.takeWhile_cons_of_pos rfl]
      exact congrArg _ (ih h)
    | read area seen =>
      rw [returned] at h
      split at h
      · cases h
      · next hout =>
        rw [beforeRead, List.takeWhile_cons_of_pos (by rw [Access.reads, decide_eq_false hout]; rfl)]
        exact congrArg _ (ih (Option.map_eq_none_iff.mp h))

/-- A read that no write comes before. -/
theorem Traced.returned (h : Traced s l t) (hb : Spares b (beforeRead b l)) {r : Nat × BitVec 8}
    (hr : returned b l = some r) : r.2 = s b := by
  induction h generalizing r with
  | nil => cases hr
  | @read s t l area _ ih =>
    rw [Bytes.returned] at hr
    split at hr
    · cases hr
      rfl
    · next hout =>
      rw [beforeRead, List.takeWhile_cons_of_pos (by rw [Access.reads, decide_eq_false hout]; rfl)] at hb
      obtain ⟨r', hr', rfl⟩ := Option.map_eq_some_iff.mp hr
      have hseen : r'.2 = s b := ih (fun a ha => hb a (List.mem_cons_of_mem _ ha)) hr'
      exact hseen
  | @write s t u l area frame _ ih =>
    rw [beforeRead, List.takeWhile_cons_of_pos rfl] at hb
    have hout : ¬ InArea area b := of_decide_eq_false (hb (.write area) List.mem_cons_self)
    rw [ih (fun a ha => hb a (List.mem_cons_of_mem _ ha)) hr, frame b hout]

end Bytes
