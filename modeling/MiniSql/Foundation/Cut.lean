import Mathlib.Data.List.Basic

set_option autoImplicit false

/-!
# Foundation: cutting a stream into pieces

A reader that hands out its input one piece at a time, closing a piece as soon
as a condition on the piece holds (a terminator was read, a buffer is full).
`cut full xs` is the list of pieces, the last of which may still be open.

Everything follows from the streaming view: `closed` are the pieces closed so
far, `residue` is the piece still open, and appending input only ever extends
the residue (`cutFrom_append`).
-/

namespace MiniSql.Foundation

variable {α : Type}

/-- Cut `xs`, with `open_` the piece already begun. -/
def cutFrom (full : List α → Bool) (open_ : List α) : List α → List (List α)
  | [] => if open_.isEmpty then [] else [open_]
  | a :: rest =>
      if full (open_ ++ [a]) then (open_ ++ [a]) :: cutFrom full [] rest
      else cutFrom full (open_ ++ [a]) rest

/-- The pieces of `xs`. -/
def cut (full : List α → Bool) (xs : List α) : List (List α) := cutFrom full [] xs

/-- The pieces that are closed once `xs` has been read. -/
def closedFrom (full : List α → Bool) (open_ : List α) : List α → List (List α)
  | [] => []
  | a :: rest =>
      if full (open_ ++ [a]) then (open_ ++ [a]) :: closedFrom full [] rest
      else closedFrom full (open_ ++ [a]) rest

/-- The piece that is still open once `xs` has been read. -/
def residueFrom (full : List α → Bool) (open_ : List α) : List α → List α
  | [] => open_
  | a :: rest =>
      if full (open_ ++ [a]) then residueFrom full [] rest
      else residueFrom full (open_ ++ [a]) rest

/-- The piece of `xs` that is still open at the end of the input. -/
def residue (full : List α → Bool) (xs : List α) : List α := residueFrom full [] xs

variable {full : List α → Bool}

@[simp] theorem cut_nil : cut full [] = [] := rfl

@[simp] theorem residue_nil : residue full [] = [] := rfl

/-! ## The streaming view -/

/-- Reading further input only extends the open piece. -/
theorem cutFrom_append (open_ xs ys : List α) :
    cutFrom full open_ (xs ++ ys) =
      closedFrom full open_ xs ++ cutFrom full (residueFrom full open_ xs) ys := by
  induction xs generalizing open_ with
  | nil => rfl
  | cons a rest ih =>
      simp only [List.cons_append, cutFrom, closedFrom, residueFrom]
      split
      · rw [ih, List.cons_append]
      · exact ih _

theorem residueFrom_append (open_ xs ys : List α) :
    residueFrom full open_ (xs ++ ys) =
      residueFrom full (residueFrom full open_ xs) ys := by
  induction xs generalizing open_ with
  | nil => rfl
  | cons a rest ih =>
      simp only [List.cons_append, residueFrom]
      split
      · exact ih _
      · exact ih _

/-- Input that leaves no piece open is cut independently of what follows. -/
theorem cut_append_of_residue_nil {xs : List α} (ys : List α)
    (h : residue full xs = []) : cut full (xs ++ ys) = cut full xs ++ cut full ys := by
  have hxs : cut full xs = closedFrom full [] xs := by
    have hnil : cutFrom full [] (xs ++ []) = _ := cutFrom_append [] xs []
    rw [show residueFrom full [] xs = [] from h, List.append_nil] at hnil
    simpa [cut, cutFrom] using hnil
  rw [hxs]
  unfold cut
  rw [cutFrom_append, show residueFrom full [] xs = [] from h]

theorem residue_append_of_residue_nil {xs : List α} (ys : List α)
    (h : residue full xs = []) : residue full (xs ++ ys) = residue full ys := by
  unfold residue
  rw [residueFrom_append, show residueFrom full [] xs = [] from h]

/-- The pieces are the closed ones followed by the open one, if any. -/
theorem cut_eq_closed_residue (xs : List α) :
    cut full xs = closedFrom full [] xs ++
      (if (residue full xs).isEmpty then [] else [residue full xs]) := by
  have h : cutFrom full [] (xs ++ []) = _ := cutFrom_append [] xs []
  rw [List.append_nil] at h
  exact h

/-- The first piece that is closed, and what is read behind it. -/
theorem closedFrom_eq_cons {open_ xs piece : List α} {pieces : List (List α)}
    (h : closedFrom full open_ xs = piece :: pieces) :
    ∃ first rest, xs = first ++ rest ∧ piece = open_ ++ first ∧
      closedFrom full open_ first = [piece] ∧ residueFrom full open_ first = [] := by
  induction xs generalizing open_ with
  | nil => simp [closedFrom] at h
  | cons a rest ih =>
      rw [closedFrom] at h
      split at h
      · rename_i hfull
        obtain ⟨rfl, -⟩ := List.cons.inj h
        exact ⟨[a], rest, rfl, rfl, by simp [closedFrom, hfull], by simp [residueFrom, hfull]⟩
      · rename_i hopen
        obtain ⟨first, rest', rfl, hpiece, hclosed, hresidue⟩ := ih h
        refine ⟨a :: first, rest', rfl, by simp [hpiece], ?_, ?_⟩
        · rw [closedFrom, if_neg hopen, hclosed]
        · rw [residueFrom, if_neg hopen, hresidue]

/-- A piece that has been closed is one piece, with nothing open behind it. -/
theorem closed_first {xs piece : List α} {pieces : List (List α)}
    (h : closedFrom full [] xs = piece :: pieces) :
    xs = piece ++ xs.drop piece.length ∧ cut full piece = [piece] ∧ residue full piece = [] := by
  obtain ⟨first, rest, rfl, hpiece, hclosed, hresidue⟩ := closedFrom_eq_cons h
  rw [List.nil_append] at hpiece
  subst hpiece
  refine ⟨by simp, ?_, hresidue⟩
  rw [cut_eq_closed_residue, hclosed, residue, hresidue]
  rfl

/-! ## What the pieces are -/

/-- Nothing is lost: the pieces concatenate to the input. -/
theorem flatten_cutFrom (open_ xs : List α) :
    (cutFrom full open_ xs).flatten = open_ ++ xs := by
  induction xs generalizing open_ with
  | nil => cases open_ <;> simp [cutFrom]
  | cons a rest ih =>
      simp only [cutFrom]
      split
      · rw [List.flatten_cons, ih]
        simp
      · rw [ih]
        simp

theorem flatten_cut (xs : List α) : (cut full xs).flatten = xs :=
  flatten_cutFrom [] xs

theorem cutFrom_eq_cons {open_ xs piece : List α} {pieces : List (List α)}
    (h : cutFrom full open_ xs = piece :: pieces) :
    ∃ n, piece = open_ ++ xs.take n ∧ cut full (xs.drop n) = pieces := by
  induction xs generalizing open_ with
  | nil =>
      cases open_ with
      | nil => simp [cutFrom] at h
      | cons a open_ =>
          obtain ⟨rfl, rfl⟩ := List.cons.inj h
          exact ⟨0, by simp, rfl⟩
  | cons a rest ih =>
      rw [cutFrom] at h
      split at h
      · obtain ⟨rfl, rfl⟩ := List.cons.inj h
        exact ⟨1, by simp, rfl⟩
      · obtain ⟨n, rfl, hrest⟩ := ih h
        exact ⟨n + 1, by simp, hrest⟩

/-- Behind the first piece stand the others. -/
theorem cut_drop_first {xs piece : List α} {pieces : List (List α)}
    (h : cut full xs = piece :: pieces) : cut full (xs.drop piece.length) = pieces := by
  obtain ⟨n, rfl, hrest⟩ := cutFrom_eq_cons h
  rw [List.nil_append, List.length_take]
  rcases Nat.le_total n xs.length with hle | hle
  · rwa [Nat.min_eq_left hle]
  · rw [Nat.min_eq_right hle, List.drop_length]
    rwa [List.drop_eq_nil_of_le hle] at hrest

/-- A stretch during which the open piece never gets full stays open. -/
theorem cutFrom_of_never_full {open_ xs : List α}
    (h : ∀ p q, p ≠ [] → xs = p ++ q → full (open_ ++ p) = false) (ys : List α) :
    cutFrom full open_ (xs ++ ys) = cutFrom full (open_ ++ xs) ys := by
  induction xs generalizing open_ with
  | nil => simp
  | cons a rest ih =>
      have hopen : full (open_ ++ [a]) = false := h [a] rest (by simp) rfl
      rw [List.cons_append, cutFrom, hopen, if_neg (by simp), ih]
      · simp
      · intro p q _ hpq
        have := h (a :: p) q (by simp) (by rw [hpq]; rfl)
        simpa using this

/-- The first piece to get full is cut off as soon as it does. -/
theorem cutFrom_first_full {open_ xs : List α} {a : α}
    (hbefore : ∀ p q, p ≠ [] → xs = p ++ q → full (open_ ++ p) = false)
    (hfull : full (open_ ++ xs ++ [a]) = true) (ys : List α) :
    cutFrom full open_ (xs ++ a :: ys) = (open_ ++ xs ++ [a]) :: cut full ys := by
  rw [cutFrom_of_never_full hbefore, cutFrom, if_pos hfull]
  rfl

/-- The first piece to get full, cut off input that goes on. -/
theorem cut_first_full {xs : List α} (hne : xs ≠ [])
    (hbefore : ∀ p q, q ≠ [] → xs = p ++ q → p ≠ [] → full p = false)
    (hfull : full xs = true) (ys : List α) : cut full (xs ++ ys) = xs :: cut full ys := by
  obtain ⟨zs, a, rfl⟩ := List.eq_nil_or_concat xs |>.resolve_left hne
  rw [List.concat_eq_append] at hbefore hfull ⊢
  have h : cutFrom full [] (zs ++ a :: ys) = ([] ++ zs ++ [a]) :: cut full ys := by
    apply cutFrom_first_full
    · intro p q hp hzs
      exact hbefore p (q ++ [a]) (by simp) (by rw [hzs, List.append_assoc]) hp
    · exact hfull
  simpa [cut] using h

/-! ## Pieces that close behind a terminator or at a size -/

section Chunks

variable {isEnd : α → Bool} {size : Nat}

/-- The piece ends with a terminator. -/
def endsWith (isEnd : α → Bool) (piece : List α) : Bool := piece.getLast?.any isEnd

/-- The piece ends with a terminator or has reached the size. -/
def chunkFull (isEnd : α → Bool) (size : Nat) (piece : List α) : Bool :=
  endsWith isEnd piece || piece.length == size

@[simp] theorem endsWith_concat (xs : List α) (a : α) :
    endsWith isEnd (xs ++ [a]) = isEnd a := by
  simp [endsWith]

theorem endsWith_eq_false {xs : List α} (h : ∀ a ∈ xs, isEnd a = false) :
    endsWith isEnd xs = false := by
  cases hlast : xs.getLast? with
  | none => simp [endsWith, hlast]
  | some a => simp [endsWith, hlast, h a (List.mem_of_getLast? hlast)]

theorem chunkFull_eq_false {xs : List α} (h : ∀ a ∈ xs, isEnd a = false)
    (hlength : xs.length < size) : chunkFull isEnd size xs = false := by
  simp [chunkFull, endsWith_eq_false h, Nat.ne_of_lt hlength]

/-- A piece that closes on every terminator leaves nothing open behind one. -/
theorem residue_concat_of_full (h : ∀ p a, isEnd a = true → full (p ++ [a]) = true)
    (xs : List α) {a : α} (ha : isEnd a = true) : residue full (xs ++ [a]) = [] := by
  unfold residue
  rw [residueFrom_append, residueFrom, if_pos (h _ a ha), residueFrom]

theorem residue_chunkFull_concat (xs : List α) {a : α} (ha : isEnd a = true) :
    residue (chunkFull isEnd size) (xs ++ [a]) = [] :=
  residue_concat_of_full (fun p b hb => by simp [chunkFull, hb]) xs ha

/-- A line is one piece, when the size does not count. -/
theorem cut_endsWith_line {xs : List α} {a : α} (hxs : ∀ b ∈ xs, isEnd b = false)
    (ha : isEnd a = true) (ys : List α) :
    cut (endsWith isEnd) (xs ++ [a] ++ ys) = (xs ++ [a]) :: cut (endsWith isEnd) ys := by
  apply cut_first_full
  · simp
  · intro p q hq hsplit _
    apply endsWith_eq_false
    obtain ⟨r, b, rfl⟩ := List.eq_nil_or_concat q |>.resolve_left hq
    rw [List.concat_eq_append, ← List.append_assoc] at hsplit
    have hinit := (List.append_inj' hsplit (by simp)).1
    exact fun c hc => hxs c (hinit ▸ List.mem_append_left r hc)
  · simp [ha]

end Chunks

end MiniSql.Foundation
