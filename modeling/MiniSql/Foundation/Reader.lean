import Mathlib.Algebra.BigOperators.Group.List.Basic
import MiniSql.Foundation.Step

set_option autoImplicit false

/-!
# Foundation: readers of printed texts

A printer writes a value as a text, and a reader takes the value off the front of its
input again.  `Reads p text x` says that it does so whatever stands behind the text, so
texts that are printed one after the other are read one after the other.
-/

namespace MiniSql.Foundation

variable {τ σ α β γ : Type}

/-- A step parser that fails without a word. -/
abbrev Reader (τ α : Type) : Type := Step τ Unit α

/-- The reader takes the value off the text, whatever stands behind it. -/
def Reads (p : Reader τ α) (text : List τ) (x : α) : Prop :=
  ∀ rest, p (text ++ rest) = .ok (x, rest)

/-- The reader fails on the text, whatever stands behind it. -/
def Refuses (p : Reader τ α) (text : List τ) : Prop :=
  ∀ rest, p (text ++ rest) = .error ()

theorem Reads.pure (x : α) : Reads (pure x : Reader τ α) [] x := fun _ => rfl

theorem Reads.bind {p : Reader τ α} {k : α → Reader τ β} {s t : List τ} {x : α} {y : β}
    (hp : Reads p s x) (hk : Reads (k x) t y) : Reads (p >>= k) (s ++ t) y := by
  intro rest
  rw [List.append_assoc]
  exact bind_eq_ok_iff.mpr ⟨x, t ++ rest, hp (t ++ rest), hk rest⟩

/-- A part whose value is put to use and nothing behind it. -/
theorem Reads.returning {p : Reader τ α} {s : List τ} {x : α} (hp : Reads p s x)
    (f : α → β) : Reads (p >>= fun x => Pure.pure (f x)) s (f x) := fun rest =>
  bind_eq_ok_iff.mpr ⟨x, rest, hp rest, rfl⟩

/-! ## Small readers -/

/-- A text that has to be there. -/
def expect [DecidableEq τ] (text : List τ) : Reader τ Unit := fun ts =>
  if text <+: ts then .ok ((), ts.drop text.length) else .error ()

/-- As many items. -/
def takeExactly (n : Nat) : Reader τ (List τ) := fun ts =>
  if n ≤ ts.length then .ok (ts.take n, ts.drop n) else .error ()

/-- The items before the first `stop`, which is taken too. -/
def takeUntil [DecidableEq τ] (stop : τ) : Reader τ (List τ)
  | [] => .error ()
  | t :: rest =>
      if t = stop then .ok ([], rest)
      else
        match takeUntil stop rest with
        | .error e => .error e
        | .ok (taken, rest) => .ok (t :: taken, rest)

/-- Nothing, where there is nothing. -/
def atEnd : Reader τ Unit
  | [] => .ok ((), [])
  | _ :: _ => .error ()

theorem reads_takeExactly (text : List τ) : Reads (takeExactly text.length) text text := by
  intro rest
  unfold takeExactly
  rw [if_pos (by simp), List.take_left, List.drop_left]

section Small

variable [DecidableEq τ]

theorem reads_expect (text : List τ) : Reads (expect text) text () := by
  intro rest
  unfold expect
  rw [if_pos (List.prefix_append text rest), List.drop_left]

theorem refuses_expect {a b : τ} (h : a ≠ b) (s t : List τ) :
    Refuses (expect (a :: s)) (b :: t) := by
  intro rest
  unfold expect
  rw [if_neg]
  intro hprefix
  exact h (List.cons_prefix_cons.mp hprefix).1

theorem reads_takeUntil {stop : τ} {text : List τ} (h : stop ∉ text) :
    Reads (takeUntil stop) (text ++ [stop]) text := by
  intro rest
  induction text with
  | nil => simp [takeUntil]
  | cons t text ih =>
      obtain ⟨hne, hrest⟩ := not_or.mp (List.mem_cons.not.mp h)
      have htail : takeUntil stop (text ++ [stop] ++ rest) = .ok (text, rest) := ih hrest
      simp only [List.cons_append, takeUntil, if_neg (Ne.symm hne), htail]

end Small

/-! ## Many items -/

/-- One item after the other, until the stop can be read. -/
def repeatFor (stop : Reader τ Unit) (item : Reader τ α) : Nat → Reader τ (List α)
  | 0 => fun _ => .error ()
  | fuel + 1 => fun ts =>
      match stop ts with
      | .ok (_, rest) => .ok ([], rest)
      | .error _ => (do
          let x ← item
          let xs ← repeatFor stop item fuel
          pure (x :: xs)) ts

/-- The same, as often as the input can hold items. -/
def repeatTill (stop : Reader τ Unit) (item : Reader τ α) : Reader τ (List α) := fun ts =>
  repeatFor stop item (ts.length + 1) ts

section Many

variable {stop : Reader τ Unit} {item : Reader τ α} {print : γ → List τ} {v : γ → α}
  {items : List γ}

theorem repeatFor_eq (hitems : ∀ i ∈ items, Reads item (print i) (v i))
    (hrefuses : ∀ i ∈ items, Refuses stop (print i)) {last rest : List τ}
    (hstop : stop last = .ok ((), rest)) {fuel : Nat} (hfuel : items.length < fuel) :
    repeatFor stop item fuel (items.flatMap print ++ last) = .ok (items.map v, rest) := by
  induction items generalizing fuel with
  | nil =>
      cases fuel with
      | zero => simp at hfuel
      | succ fuel =>
          show repeatFor stop item (fuel + 1) last = _
          simp only [repeatFor, hstop, List.map_nil]
  | cons i items ih =>
      cases fuel with
      | zero => simp at hfuel
      | succ fuel =>
          obtain ⟨hitem, hrest⟩ := List.forall_mem_cons.mp hitems
          obtain ⟨hfirst, hothers⟩ := List.forall_mem_cons.mp hrefuses
          have htail := ih hrest hothers (Nat.lt_of_succ_lt_succ hfuel)
          rw [List.flatMap_cons, List.append_assoc]
          simp only [repeatFor, hfirst (items.flatMap print ++ last)]
          exact bind_eq_ok_iff.mpr ⟨_, _, hitem _, bind_eq_ok_iff.mpr ⟨_, _, htail, rfl⟩⟩

/-- Items are read up to the stop, when none of them could be taken for it. -/
theorem repeatTill_eq (hitems : ∀ i ∈ items, Reads item (print i) (v i))
    (hrefuses : ∀ i ∈ items, Refuses stop (print i)) (hprint : ∀ i ∈ items, print i ≠ [])
    {last rest : List τ} (hstop : stop last = .ok ((), rest)) :
    repeatTill stop item (items.flatMap print ++ last) = .ok (items.map v, rest) := by
  refine repeatFor_eq hitems hrefuses hstop ?_
  have hlength : items.length ≤ (items.flatMap print).length := by
    rw [List.length_flatMap, ← List.length_map (f := fun i => (print i).length)]
    refine List.length_le_sum_of_one_le _ fun n hn => ?_
    obtain ⟨i, hi, rfl⟩ := List.mem_map.mp hn
    exact List.length_pos_iff.mpr (hprint i hi)
  rw [List.length_append]
  omega

theorem reads_repeatTill (hitems : ∀ i ∈ items, Reads item (print i) (v i))
    (hrefuses : ∀ i ∈ items, Refuses stop (print i)) (hprint : ∀ i ∈ items, print i ≠ [])
    {last : List τ} (hstop : Reads stop last ()) :
    Reads (repeatTill stop item) (items.flatMap print ++ last) (items.map v) := by
  intro rest
  rw [List.append_assoc]
  exact repeatTill_eq hitems hrefuses hprint (hstop rest)

/-- One reader for each of the values, each with a parameter of its own. -/
theorem reads_mapM {p : σ → Reader τ α} {print : σ → γ → List τ} {as : List σ}
    (h : List.Forall₂ (fun a i => Reads (p a) (print a i) (v i)) as items) :
    Reads (as.mapM p) (List.zipWith print as items).flatten (items.map v) := by
  induction h with
  | nil =>
      rw [List.mapM_nil]
      exact .pure []
  | cons hfirst _ ih =>
      rw [List.mapM_cons, List.zipWith_cons_cons, List.flatten_cons]
      exact hfirst.bind (ih.returning _)

end Many

end MiniSql.Foundation
