/-
Lines of text and the words in them.

A word is a run of letters, digits and points; `words` takes a line apart.
A line that is put together of two parts has the words of both, when one of
them has a separator where they meet (`words_append_startsApart`,
`words_append_endsApart`).
-/

namespace Text

/-- A character of a word. -/
def isWord (c : Char) : Bool := c.isAlphanum || c == '.'

/-- The word a line starts with, possibly none, and the words after it. -/
def scan : List Char → List Char × List (List Char)
  | [] => ([], [])
  | c :: cs =>
    if isWord c then (c :: (scan cs).1, (scan cs).2)
    else ([], if (scan cs).1 = [] then (scan cs).2 else (scan cs).1 :: (scan cs).2)

theorem scan_cons (c : Char) (cs : List Char) : scan (c :: cs) =
    if isWord c then (c :: (scan cs).1, (scan cs).2)
    else ([], if (scan cs).1 = [] then (scan cs).2 else (scan cs).1 :: (scan cs).2) := rfl

def words (cs : List Char) : List (List Char) :=
  if (scan cs).1 = [] then (scan cs).2 else (scan cs).1 :: (scan cs).2

/-- A word as a number, so that words can be compared as numbers are. -/
def number (w : List Char) : Nat := w.foldl (fun n c => n * 128 + c.toNat) 0

/-- A text that is one word. -/
def isToken (u : List Char) : Bool := !u.isEmpty && u.all isWord

theorem isToken_iff {u : List Char} : isToken u = true ↔ u ≠ [] ∧ ∀ c ∈ u, isWord c = true := by
  rw [isToken, Bool.and_eq_true, List.all_eq_true, Bool.not_eq_true', List.isEmpty_eq_false_iff]

/-- A text of separators only at its start, at its end. -/
def startsApart (cs : List Char) : Bool := cs.head?.all fun c => !isWord c

def endsApart (cs : List Char) : Bool := cs.getLast?.all fun c => !isWord c

theorem scan_of_startsApart {cs : List Char} (h : startsApart cs = true) : scan cs = ([], words cs) := by
  cases cs with
  | nil => rfl
  | cons c cs =>
    have hc : isWord c = false := by simpa [startsApart] using h
    simp only [words, scan_cons, hc, Bool.false_eq_true, if_false, if_true]

/-- A word is read to its end. -/
theorem scan_append {u cs : List Char} (h : ∀ c ∈ u, isWord c = true) :
    scan (u ++ cs) = (u ++ (scan cs).1, (scan cs).2) := by
  induction u with
  | nil => rfl
  | cons c u ih =>
    rw [List.cons_append, scan_cons, if_pos (h c List.mem_cons_self), ih fun d hd => h d (List.mem_cons_of_mem _ hd)]
    rfl

theorem words_token {u : List Char} (h : isToken u = true) : words u = [u] := by
  obtain ⟨hne, h⟩ := isToken_iff.mp h
  have hs : scan u = (u, []) := by simpa [show scan [] = ([], []) from rfl] using (scan_append h : scan (u ++ []) = _)
  rw [words, hs, if_neg hne]

/-- The words before a separator and those after it. -/
theorem scan_append_apart {l r : List Char} (h : startsApart r = true) :
    scan (l ++ r) = ((scan l).1, (scan l).2 ++ words r) := by
  induction l with
  | nil => rw [List.nil_append, scan_of_startsApart h]; rfl
  | cons c l ih =>
    rw [List.cons_append, scan_cons, scan_cons, ih]
    by_cases hc : isWord c = true
    · rw [if_pos hc, if_pos hc]
    · rw [if_neg hc, if_neg hc]
      split
      · rfl
      · rw [List.cons_append]

theorem words_append_startsApart {l r : List Char} (h : startsApart r = true) :
    words (l ++ r) = words l ++ words r := by
  have hl : words (l ++ r) = if (scan l).1 = [] then (scan l).2 ++ words r
      else (scan l).1 :: ((scan l).2 ++ words r) := by
    rw [words, scan_append_apart h]
  have hl' : words l = if (scan l).1 = [] then (scan l).2 else (scan l).1 :: (scan l).2 := rfl
  rw [hl, hl']
  split
  · rfl
  · rw [List.cons_append]

theorem words_cons_apart {c : Char} (hc : isWord c = false) (cs : List Char) : words (c :: cs) = words cs := by
  rw [words, scan_cons, hc]
  simp only [Bool.false_eq_true, if_false, if_true]
  rfl

theorem words_append_endsApart {l r : List Char} (h : endsApart l = true) : words (l ++ r) = words l ++ words r := by
  cases hl : l.getLast? with
  | none => rw [List.getLast?_eq_none_iff.mp hl]; rfl
  | some c =>
    obtain ⟨u, rfl⟩ := List.getLast?_eq_some_iff.mp hl
    have hc : isWord c = false := by simpa [endsApart] using h
    have hstart : ∀ cs, startsApart (c :: cs) = true := by intro cs; simp [startsApart, hc]
    rw [List.append_assoc, List.singleton_append, words_append_startsApart (hstart r),
      words_append_startsApart (hstart []), words_cons_apart hc, words_cons_apart hc, List.append_assoc]
    rfl

theorem endsApart_append {l r : List Char} (hr : r ≠ []) : endsApart (l ++ r) = endsApart r := by
  cases h : r.getLast? with
  | none => exact absurd (List.getLast?_eq_none_iff.mp h) hr
  | some c => rw [endsApart, endsApart, List.getLast?_append, h, Option.some_or]

/-- A text of separators only. -/
def isSeparator (s : List Char) : Bool := !s.isEmpty && s.all fun c => !isWord c

theorem isSeparator_apart {s : List Char} (h : isSeparator s = true) :
    s ≠ [] ∧ startsApart s = true ∧ endsApart s = true ∧ words s = [] := by
  rw [isSeparator, Bool.and_eq_true, List.all_eq_true] at h
  obtain ⟨hne, hall⟩ := h
  have hne' : s ≠ [] := by simpa using hne
  refine ⟨hne', ?_, ?_, ?_⟩
  · cases s with
    | nil => rfl
    | cons c cs => simpa [startsApart] using hall c List.mem_cons_self
  · cases hl : s.getLast? with
    | none => rw [endsApart, hl]; rfl
    | some c =>
      rw [endsApart, hl]
      exact hall c (List.mem_of_getLast? hl)
  · clear hne hne'
    induction s with
    | nil => rfl
    | cons c cs ih =>
      have hc : isWord c = false := by simpa using hall c List.mem_cons_self
      rw [words_cons_apart hc]
      exact ih fun d hd => hall d (List.mem_cons_of_mem _ hd)

end Text
