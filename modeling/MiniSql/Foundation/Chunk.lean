import Mathlib.Data.List.DropRight
import MiniSql.Foundation.Cut

set_option autoImplicit false

/-!
# Foundation: lines read through a buffer

The pieces of `chunkFull` against the lines they are taken from.  A line that
fits the buffer is one piece and a longer one is at least two
(`length_cut_line_eq_one_iff`), so a file of lines is read line by line exactly
when every line fits (`length_cut_lines_eq_iff`).  What is open at the end of the
input is what is left of its last line after whole buffers (`residue_chunk`).
-/

namespace MiniSql.Foundation

variable {α : Type} {full : List α → Bool} {isEnd : α → Bool} {size : Nat}

/-! ## Reading on from an open piece -/

/-- No piece closes within `xs`. -/
def NeverFull (full : List α → Bool) (xs : List α) : Prop :=
  ∀ p q, p ≠ [] → xs = p ++ q → full p = false

theorem NeverFull.nil : NeverFull full [] := by
  intro p q hp hsplit
  exact absurd (List.append_eq_nil_iff.mp hsplit.symm).1 hp

theorem NeverFull.concat {xs : List α} {a : α} (h : NeverFull full xs)
    (ha : full (xs ++ [a]) = false) : NeverFull full (xs ++ [a]) := by
  intro p q hp hsplit
  rcases List.eq_nil_or_concat q with rfl | ⟨q, b, rfl⟩
  · rw [List.append_nil] at hsplit
    rwa [← hsplit]
  · rw [List.concat_eq_append, ← List.append_assoc] at hsplit
    exact h p q hp (List.append_inj' hsplit rfl).1

theorem NeverFull.residueFrom {open_ : List α} (h : NeverFull full open_) (xs : List α) :
    NeverFull full (residueFrom full open_ xs) := by
  induction xs generalizing open_ with
  | nil => exact h
  | cons a rest ih =>
      simp only [Foundation.residueFrom]
      split
      · exact ih .nil
      · rename_i ha
        exact ih (h.concat (by simpa using ha))

theorem neverFull_residue (xs : List α) : NeverFull full (residue full xs) :=
  NeverFull.residueFrom .nil xs

/-- What never gets full is left open by what follows. -/
theorem NeverFull.cutFrom {xs : List α} (h : NeverFull full xs) (ys : List α) :
    cutFrom full [] (xs ++ ys) = Foundation.cutFrom full xs ys :=
  cutFrom_of_never_full (by simpa [NeverFull] using h) ys

/-- Input that goes on is cut from the open piece on. -/
theorem cut_append (xs ys : List α) :
    cut full (xs ++ ys) = closedFrom full [] xs ++ cut full (residue full xs ++ ys) := by
  unfold cut
  rw [cutFrom_append, (neverFull_residue xs).cutFrom]
  rfl

theorem residue_of_neverFull {xs : List α} (h : NeverFull full xs) : residue full xs = xs := by
  induction xs using List.reverseRecOn with
  | nil => rfl
  | append_singleton xs a ih =>
      have hxs : NeverFull full xs := by
        intro p q hp hsplit
        exact h p (q ++ [a]) hp (by rw [hsplit, List.append_assoc])
      have hopen := ih hxs
      unfold residue at hopen ⊢
      rw [residueFrom_append, hopen, residueFrom, h (xs ++ [a]) [] (by simp) (by simp)]
      rfl

theorem cut_ne_nil {xs : List α} (h : xs ≠ []) : cut full xs ≠ [] := by
  intro hcut
  have hflatten : (cut full xs).flatten = xs := flatten_cut xs
  rw [hcut, List.flatten_nil] at hflatten
  exact h hflatten.symm

/-! ## Whole buffers and the rest -/

/-- No element is a terminator. -/
def Unended (isEnd : α → Bool) (xs : List α) : Prop := ∀ a ∈ xs, isEnd a = false

theorem Unended.append {xs ys : List α} (hxs : Unended isEnd xs) (hys : Unended isEnd ys) :
    Unended isEnd (xs ++ ys) :=
  List.forall_mem_append.mpr ⟨hxs, hys⟩

theorem Unended.drop {xs : List α} (h : Unended isEnd xs) (n : Nat) :
    Unended isEnd (xs.drop n) :=
  fun a ha => h a (List.mem_of_mem_drop ha)

theorem Unended.take {xs : List α} (h : Unended isEnd xs) (n : Nat) :
    Unended isEnd (xs.take n) :=
  fun a ha => h a (List.mem_of_mem_take ha)

theorem Unended.neverFull {xs : List α} (h : Unended isEnd xs) (hlength : xs.length < size) :
    NeverFull (chunkFull isEnd size) xs := by
  intro p q _ hsplit
  rw [hsplit, List.length_append] at hlength
  apply chunkFull_eq_false
  · exact fun a ha => h a (hsplit ▸ List.mem_append_left q ha)
  · omega

/-- What never fills the buffer has no terminator and fits. -/
theorem NeverFull.unended {xs : List α} (h : NeverFull (chunkFull isEnd size) xs)
    (hsize : 0 < size) : Unended isEnd xs ∧ xs.length < size := by
  constructor
  · intro a ha
    obtain ⟨p, q, rfl⟩ := List.append_of_mem ha
    have hopen := h (p ++ [a]) q (by simp) (by simp)
    simp only [chunkFull, endsWith_concat, Bool.or_eq_false_iff] at hopen
    exact hopen.1
  · by_contra hlong
    have htake : (xs.take size).length = size := List.length_take_of_le (by omega)
    have hne : xs.take size ≠ [] := List.ne_nil_of_length_pos (by omega)
    have hopen := h (xs.take size) (xs.drop size) hne (List.take_append_drop size xs).symm
    simp [chunkFull, htake] at hopen

/-- What is open behind the input is part of one line and fits the buffer. -/
theorem residue_unended (hsize : 0 < size) (xs : List α) :
    Unended isEnd (residue (chunkFull isEnd size) xs) ∧
      (residue (chunkFull isEnd size) xs).length < size :=
  (neverFull_residue xs).unended hsize

/-- A full buffer is a piece. -/
theorem cut_full {xs : List α} (h : Unended isEnd xs) (hlength : xs.length = size)
    (hsize : 0 < size) (ys : List α) :
    cut (chunkFull isEnd size) (xs ++ ys) = xs :: cut (chunkFull isEnd size) ys := by
  apply cut_first_full
  · exact List.ne_nil_of_length_pos (by omega)
  · intro p q hq hsplit _
    have hlt : p.length < size := by
      rw [← hlength, hsplit, List.length_append]
      have := List.length_pos_of_ne_nil hq
      omega
    exact chunkFull_eq_false (fun a ha => h a (hsplit ▸ List.mem_append_left q ha)) hlt
  · simp [chunkFull, hlength]

theorem residue_full {xs : List α} (h : Unended isEnd xs) (hlength : xs.length = size)
    (hsize : 0 < size) : residue (chunkFull isEnd size) xs = [] := by
  obtain ⟨zs, a, rfl⟩ :=
    List.eq_nil_or_concat xs |>.resolve_left (List.ne_nil_of_length_pos (by omega))
  rw [List.concat_eq_append] at h hlength ⊢
  rw [List.length_append, List.length_singleton] at hlength
  have hzs : Unended isEnd zs := fun b hb => h b (List.mem_append_left [a] hb)
  have hopen : residue (chunkFull isEnd size) zs = zs :=
    residue_of_neverFull (hzs.neverFull (by omega))
  unfold residue at hopen ⊢
  rw [residueFrom_append, hopen, residueFrom, if_pos (by simp [chunkFull, hlength]),
    residueFrom]

/-- Within one line, whole buffers are read off and the rest is left open. -/
theorem residue_unended_eq_drop (hsize : 0 < size) {xs : List α} (h : Unended isEnd xs) :
    residue (chunkFull isEnd size) xs = xs.drop (xs.length / size * size) := by
  induction hn : xs.length using Nat.strong_induction_on generalizing xs with
  | _ n ih =>
      by_cases hshort : n < size
      · rw [residue_of_neverFull (h.neverFull (hn ▸ hshort)), Nat.div_eq_of_lt hshort,
          Nat.zero_mul, List.drop_zero]
      · have hle : size ≤ n := Nat.le_of_not_lt hshort
        have htake : (xs.take size).length = size := List.length_take_of_le (hn ▸ hle)
        have hdrop : (xs.drop size).length = n - size := by rw [List.length_drop, hn]
        have hbuffers : size + (n - size) / size * size = n / size * size := by
          rw [Nat.div_eq_sub_div hsize hle, Nat.add_mul, Nat.one_mul, Nat.add_comm]
        calc residue (chunkFull isEnd size) xs
            = residue (chunkFull isEnd size) (xs.take size ++ xs.drop size) := by
              rw [List.take_append_drop]
          _ = residue (chunkFull isEnd size) (xs.drop size) :=
              residue_append_of_residue_nil _ (residue_full (h.take size) htake hsize)
          _ = (xs.drop size).drop ((n - size) / size * size) :=
              ih (n - size) (by omega) (h.drop size) hdrop
          _ = xs.drop (n / size * size) := by rw [List.drop_drop, hbuffers]

/-- The part of the input behind its last terminator. -/
def openLine (isEnd : α → Bool) (xs : List α) : List α := xs.rtakeWhile fun a => !isEnd a

theorem openLine_unended (xs : List α) : Unended isEnd (openLine isEnd xs) := by
  intro a ha
  simpa using List.mem_rtakeWhile_imp ha

/-- What is open behind the input is the rest of its last line. -/
theorem residue_chunk (hsize : 0 < size) (xs : List α) :
    residue (chunkFull isEnd size) xs =
      (openLine isEnd xs).drop ((openLine isEnd xs).length / size * size) := by
  have hclosed : residue (chunkFull isEnd size) (xs.rdropWhile fun a => !isEnd a) = [] := by
    rcases List.eq_nil_or_concat (xs.rdropWhile fun a => !isEnd a) with hnil | ⟨zs, a, hzs⟩
    · rw [hnil, residue_nil]
    · rw [List.concat_eq_append] at hzs
      have hlast := List.rdropWhile_last_not (fun a => !isEnd a) xs (by simp [hzs])
      simp only [hzs, List.getLast_append_singleton, Bool.not_eq_true', Bool.not_eq_false]
        at hlast
      rw [hzs]
      exact residue_chunkFull_concat zs hlast
  calc residue (chunkFull isEnd size) xs
      = residue (chunkFull isEnd size)
          ((xs.rdropWhile fun a => !isEnd a) ++ openLine isEnd xs) := by
        rw [openLine, List.rdropWhile_append_rtakeWhile]
    _ = residue (chunkFull isEnd size) (openLine isEnd xs) :=
        residue_append_of_residue_nil _ hclosed
    _ = _ := residue_unended_eq_drop hsize (openLine_unended xs)

theorem length_residue_chunk (hsize : 0 < size) (xs : List α) :
    (residue (chunkFull isEnd size) xs).length = (openLine isEnd xs).length % size := by
  have hdivision := Nat.div_add_mod' (openLine isEnd xs).length size
  rw [residue_chunk hsize, List.length_drop]
  omega

/-! ## Lines -/

section Lines

variable {body : List α} {a : α}

/-- A line that fits is one piece. -/
theorem cut_line (hbody : Unended isEnd body) (ha : isEnd a = true)
    (hlength : body.length < size) (ys : List α) :
    cut (chunkFull isEnd size) (body ++ [a] ++ ys) =
      (body ++ [a]) :: cut (chunkFull isEnd size) ys := by
  have hclosed : chunkFull isEnd size (body ++ [a]) = true := by simp [chunkFull, ha]
  rw [List.append_assoc, cut, (hbody.neverFull hlength).cutFrom, List.singleton_append,
    cutFrom, if_pos hclosed]
  rfl

/-- A line that does not fit begins with a piece that is a full buffer. -/
theorem cut_long_line (hbody : Unended isEnd body) (hsize : 0 < size)
    (hlength : size ≤ body.length) (ys : List α) :
    cut (chunkFull isEnd size) (body ++ ys) =
      body.take size :: cut (chunkFull isEnd size) (body.drop size ++ ys) := by
  have hfirst := cut_full (hbody.take size) (List.length_take_of_le hlength) hsize
    (body.drop size ++ ys)
  rwa [← List.append_assoc, List.take_append_drop] at hfirst

/-- A line behind an open piece, when the two do not fit together: the piece is
filled up, and the rest of the line is one piece more. -/
theorem cut_open_line {open_ : List α} (hopen : Unended isEnd open_)
    (hopenLength : open_.length < size) (hbody : Unended isEnd body) (ha : isEnd a = true)
    (hlength : body.length < size) (hlong : size ≤ open_.length + body.length) :
    cut (chunkFull isEnd size) (open_ ++ (body ++ [a])) =
      [open_ ++ body.take (size - open_.length), body.drop (size - open_.length) ++ [a]] := by
  have htake : (open_ ++ body).take size = open_ ++ body.take (size - open_.length) := by
    rw [List.take_append, List.take_of_length_le (Nat.le_of_lt hopenLength)]
  have hdrop : (open_ ++ body).drop size = body.drop (size - open_.length) := by
    rw [List.drop_append, List.drop_of_length_le (Nat.le_of_lt hopenLength), List.nil_append]
  have hsize : 0 < size := Nat.zero_lt_of_lt hopenLength
  rw [← List.length_append] at hlong
  have hfirst := cut_long_line (hopen.append hbody) hsize hlong [a]
  have hrest : (body.drop (size - open_.length)).length < size := by
    rw [List.length_drop]
    omega
  have hsecond := cut_line (hbody.drop (size - open_.length)) ha hrest []
  rw [List.append_nil, cut_nil] at hsecond
  rw [← List.append_assoc, hfirst, htake, hdrop, hsecond]

/-- A line is read in one piece exactly when it fits the buffer. -/
theorem length_cut_line_eq_one_iff (hbody : Unended isEnd body) (ha : isEnd a = true)
    (hsize : 0 < size) :
    (cut (chunkFull isEnd size) (body ++ [a])).length = 1 ↔ (body ++ [a]).length ≤ size := by
  rw [List.length_append, List.length_singleton]
  by_cases hfits : body.length < size
  · have hone := cut_line hbody ha hfits []
    rw [List.append_nil, cut_nil] at hone
    rw [hone]
    simp only [List.length_singleton, true_iff]
    omega
  · have hlong := cut_long_line hbody hsize (Nat.le_of_not_lt hfits) [a]
    have hrest : cut (chunkFull isEnd size) (body.drop size ++ [a]) ≠ [] :=
      cut_ne_nil (by simp)
    have hpos := List.length_pos_of_ne_nil hrest
    rw [hlong, List.length_cons]
    omega

/-- Lines one after the other are read in as many pieces as there are lines
exactly when each of them fits the buffer. -/
theorem length_cut_lines_eq_iff (hsize : 0 < size) {lines : List (List α)}
    (h : ∀ line ∈ lines, ∃ body a, Unended isEnd body ∧ isEnd a = true ∧ line = body ++ [a]) :
    lines.length ≤ (cut (chunkFull isEnd size) lines.flatten).length ∧
      ((cut (chunkFull isEnd size) lines.flatten).length = lines.length ↔
        ∀ line ∈ lines, line.length ≤ size) := by
  induction lines with
  | nil => simp
  | cons line lines ih =>
      obtain ⟨⟨body, a, hbody, ha, rfl⟩, hlines⟩ := List.forall_mem_cons.mp h
      obtain ⟨hle, hiff⟩ := ih hlines
      have hclosed : residue (chunkFull isEnd size) (body ++ [a]) = [] :=
        residue_chunkFull_concat body ha
      have hpos : 0 < (cut (chunkFull isEnd size) (body ++ [a])).length :=
        List.length_pos_of_ne_nil (cut_ne_nil (by simp))
      rw [List.flatten_cons, cut_append_of_residue_nil _ hclosed, List.length_append,
        List.length_cons, List.forall_mem_cons, ← hiff,
        ← length_cut_line_eq_one_iff hbody ha hsize]
      omega

/-- Lines that fit are the pieces. -/
theorem cut_lines {lines : List (List α)}
    (h : ∀ line ∈ lines, ∃ body a, Unended isEnd body ∧ isEnd a = true ∧ line = body ++ [a])
    (hfits : ∀ line ∈ lines, line.length ≤ size) :
    cut (chunkFull isEnd size) lines.flatten = lines := by
  induction lines with
  | nil => rfl
  | cons line lines ih =>
      obtain ⟨⟨body, a, hbody, ha, rfl⟩, hlines⟩ := List.forall_mem_cons.mp h
      obtain ⟨hline, hrest⟩ := List.forall_mem_cons.mp hfits
      rw [List.length_append, List.length_singleton] at hline
      rw [List.flatten_cons, cut_line hbody ha (by omega), ih hlines hrest]

end Lines

end MiniSql.Foundation
