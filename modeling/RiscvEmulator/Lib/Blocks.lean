/-
An array of cells that requests read and overwrite, one after another.

Requests are kept with the last one first. `run` is the array after them;
`getElem?_run` says that a cell holds what the last request to write it put
there, or what it held before all of them.
-/

namespace Blocks

variable {α : Type}

inductive Request (α : Type) where
  | read (start len : Nat)
  | write (start : Nat) (data : List α)
  deriving DecidableEq

/-- The array with the cells from `start` on overwritten. -/
def overwrite (cells : List α) (start : Nat) (data : List α) : List α :=
  cells.take start ++ data ++ cells.drop (start + data.length)

namespace Request

/-- It is about cells that there are, of `size`; a request for none may be
anywhere. -/
def Fits (size : Nat) : Request α → Prop
  | read start len => len = 0 ∨ start + len ≤ size
  | write start data => data.length = 0 ∨ start + data.length ≤ size

instance (size : Nat) (r : Request α) : Decidable (r.Fits size) := by
  cases r <;> exact inferInstanceAs (Decidable (_ ∨ _))

def apply (cells : List α) : Request α → List α
  | read _ _ => cells
  | write start data => overwrite cells start data

/-- What it puts in the cell `i`. -/
def puts (i : Nat) : Request α → Option α
  | read _ _ => none
  | write start data => if start ≤ i then data[i - start]? else none

end Request

/-- The array after the requests. -/
def run (cells : List α) : List (Request α) → List α
  | [] => cells
  | r :: rs => r.apply (run cells rs)

/-- What the last of the requests to write it put in the cell `i`, or what
was there. -/
def current (cells : List α) (rs : List (Request α)) (i : Nat) : Option α :=
  (rs.findSome? (·.puts i)).or cells[i]?

section

variable {cells data : List α} {start size i : Nat} {r : Request α} {rs : List (Request α)}

theorem overwrite_nil : overwrite cells start [] = cells := by simp [overwrite]

theorem length_overwrite (h : data.length = 0 ∨ start + data.length ≤ cells.length) :
    (overwrite cells start data).length = cells.length := by
  rcases h with h | h
  · rw [List.length_eq_zero_iff.mp h, overwrite_nil]
  · simp only [overwrite, List.length_append, List.length_take, List.length_drop]
    omega

theorem getElem?_overwrite (h : data.length = 0 ∨ start + data.length ≤ cells.length) (i : Nat) :
    (overwrite cells start data)[i]? = (if start ≤ i then data[i - start]? else none).or cells[i]? := by
  rcases h with h | h
  · rw [List.length_eq_zero_iff.mp h, overwrite_nil]
    simp
  · rw [overwrite, List.append_assoc, List.getElem?_append, List.length_take, Nat.min_eq_left (by omega)]
    by_cases hlow : i < start
    · rw [if_pos hlow, if_neg (by omega), List.getElem?_take_of_lt hlow]
      rfl
    · rw [if_neg hlow, if_pos (by omega), List.getElem?_append]
      by_cases hin : i - start < data.length
      · rw [if_pos hin, List.getElem?_eq_getElem hin]
        rfl
      · rw [if_neg hin, List.getElem?_drop, List.getElem?_eq_none (by omega : data.length ≤ i - start)]
        rw [show start + data.length + (i - start - data.length) = i by omega]
        rfl

theorem Request.length_apply (h : r.Fits cells.length) : (r.apply cells).length = cells.length := by
  cases r with
  | read => rfl
  | write => exact length_overwrite h

theorem Request.getElem?_apply (h : r.Fits cells.length) (i : Nat) :
    (r.apply cells)[i]? = (r.puts i).or cells[i]? := by
  cases r with
  | read => rfl
  | write => exact getElem?_overwrite h i

theorem length_run (h : ∀ r ∈ rs, r.Fits cells.length) : (run cells rs).length = cells.length := by
  induction rs with
  | nil => rfl
  | cons r rs ih =>
    rw [List.forall_mem_cons] at h
    have hrs := ih h.2
    rw [run, Request.length_apply (hrs ▸ h.1), hrs]

/-- A cell holds what was put there last. -/
theorem getElem?_run (h : ∀ r ∈ rs, r.Fits cells.length) (i : Nat) : (run cells rs)[i]? = current cells rs i := by
  induction rs with
  | nil => rfl
  | cons r rs ih =>
    rw [List.forall_mem_cons] at h
    rw [run, Request.getElem?_apply (length_run h.2 ▸ h.1), ih h.2, current, current, List.findSome?_cons]
    cases r.puts i <;> rfl

end

end Blocks
