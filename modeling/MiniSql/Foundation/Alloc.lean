import Mathlib.Data.List.Basic

set_option autoImplicit false

/-!
# Foundation: computations that ask for memory

A computation is a tree: a request for memory goes on one way when it is granted and
another way when it is refused.  A pattern answers the requests in the order they are
made.  `Shadow` compares two computations request by request and says what a pattern
can do to the first: a refusal at a checked site makes it fail, a refusal at a loose
one may leave a hole in its value.  `Checked` is the case without loose sites.
-/

namespace MiniSql.Foundation

variable {σ ε ε' α β γ δ : Type}

/-- A computation with requests at the sites `σ`, errors `ε` and a value in `α`. -/
inductive Alloc (σ ε α : Type) where
  | done (x : α)
  | fail (e : ε)
  | request (site : σ) (next : Bool → Alloc σ ε α)

namespace Alloc

/-- One computation after the other. -/
protected def bind : Alloc σ ε α → (α → Alloc σ ε β) → Alloc σ ε β
  | done x, k => k x
  | fail e, _ => fail e
  | request site next, k => request site fun answer => (next answer).bind k

instance : Monad (Alloc σ ε) where
  pure := done
  bind := Alloc.bind

@[simp] theorem pure_eq (x : α) : (pure x : Alloc σ ε α) = done x := rfl

/-- A request whose answer is handed on. -/
def ask (site : σ) : Alloc σ ε Bool := request site done

/-- A request that must be granted. -/
def demand (site : σ) (e : ε) : Alloc σ ε Unit :=
  request site fun granted => if granted then done () else fail e

/-- Two requests that are both made before either answer is looked at. -/
def demandBoth (first second : σ) (e : ε) : Alloc σ ε Unit :=
  request first fun granted => request second fun granted' =>
    if granted && granted' then done () else fail e

/-- A buffer that is full is given more room. -/
def reserve (site : σ) (e : ε) (full : Bool) (newCapacity capacity : Nat) : Alloc σ ε Nat :=
  if full then do
    demand site e
    pure newCapacity
  else
    pure capacity

/-- The same computation with its errors put differently. -/
def mapError (f : ε → ε') : Alloc σ ε α → Alloc σ ε' α
  | done x => done x
  | fail e => fail (f e)
  | request site next => request site fun answer => (next answer).mapError f

/-! ## Runs -/

/-- The answer when the pattern answers the requests. -/
def run : Alloc σ ε α → (Nat → Bool) → Except ε α
  | done x, _ => .ok x
  | fail e, _ => .error e
  | request _ next, pattern => (next (pattern 0)).run fun n => pattern (n + 1)

/-- The answer when every request is granted. -/
def granted : Alloc σ ε α → Except ε α
  | done x => .ok x
  | fail e => .error e
  | request _ next => (next true).granted

/-- The requests that are made when every one is granted. -/
def sites : Alloc σ ε α → List σ
  | done _ => []
  | fail _ => []
  | request site next => site :: (next true).sites

theorem run_true (c : Alloc σ ε α) : c.run (fun _ => true) = c.granted := by
  induction c with
  | done x => rfl
  | fail e => rfl
  | request site next ih => exact ih true

theorem granted_bind (c : Alloc σ ε α) (k : α → Alloc σ ε β) :
    (c >>= k).granted = c.granted.bind fun x => (k x).granted := by
  induction c with
  | done x => rfl
  | fail e => rfl
  | request site next ih => exact ih true

/-- Behind a part that is granted the rest decides. -/
theorem granted_after {c : Alloc σ ε α} {x : α} (k : α → Alloc σ ε β) (hc : c.granted = .ok x) :
    (c >>= k).granted = (k x).granted := by
  rw [granted_bind, hc]
  rfl

/-- A computation no pattern lets succeed. -/
def Fails : Alloc σ ε α → Prop
  | done _ => False
  | fail _ => True
  | request _ next => ∀ answer, (next answer).Fails

theorem Fails.bind {c : Alloc σ ε α} (h : c.Fails) (k : α → Alloc σ ε β) : (c >>= k).Fails := by
  induction c with
  | done x => exact h.elim
  | fail e => trivial
  | request site next ih => exact fun answer => ih answer (h answer)

theorem Fails.run {c : Alloc σ ε α} (h : c.Fails) (pattern : Nat → Bool) :
    ∃ e, c.run pattern = .error e := by
  induction c generalizing pattern with
  | done x => exact h.elim
  | fail e => exact ⟨e, rfl⟩
  | request site next ih => exact ih _ (h _) _

theorem granted_mapError (f : ε → ε') (c : Alloc σ ε α) :
    (c.mapError f).granted = c.granted.mapError f := by
  induction c with
  | done x => rfl
  | fail e => rfl
  | request site next ih => exact ih true

theorem Fails.mapError {c : Alloc σ ε α} (h : c.Fails) (f : ε → ε') : (c.mapError f).Fails := by
  induction c with
  | done x => exact h.elim
  | fail e => trivial
  | request site next ih => exact fun answer => ih answer (h answer)

/-- Every error the computation can end in has `P`. -/
def FailsWith (P : ε → Prop) : Alloc σ ε α → Prop
  | done _ => True
  | fail e => P e
  | request _ next => ∀ answer, (next answer).FailsWith P

theorem FailsWith.bind {P : ε → Prop} {c : Alloc σ ε α} {k : α → Alloc σ ε β}
    (hc : c.FailsWith P) (hk : ∀ x, (k x).FailsWith P) : (c >>= k).FailsWith P := by
  induction c with
  | done x => exact hk x
  | fail e => exact hc
  | request site next ih => exact fun answer => ih answer (hc answer)

theorem FailsWith.mapError {P : ε' → Prop} {f : ε → ε'} (hf : ∀ e, P (f e))
    (c : Alloc σ ε α) : (c.mapError f).FailsWith P := by
  induction c with
  | done x => trivial
  | fail e => exact hf e
  | request site next ih => exact ih

theorem FailsWith.run {P : ε → Prop} {c : Alloc σ ε α} (hc : c.FailsWith P)
    {pattern : Nat → Bool} {e : ε} (h : c.run pattern = .error e) : P e := by
  induction c generalizing pattern with
  | done x => exact nomatch h
  | fail e' =>
      obtain rfl := Except.error.inj h
      exact hc
  | request site next ih => exact ih _ (hc _) h

/-- Among these requests, the next ones to be answered, one with `P` is refused. -/
def Refuses (P : σ → Prop) (pattern : Nat → Bool) (requests : List σ) : Prop :=
  ∃ n site, requests[n]? = some site ∧ P site ∧ pattern n = false

theorem not_refuses_nil (P : σ → Prop) (pattern : Nat → Bool) : ¬ Refuses P pattern [] := by
  intro h
  obtain ⟨n, site, hsite, -⟩ := h
  simp at hsite

theorem refuses_cons (P : σ → Prop) (pattern : Nat → Bool) (site : σ) (requests : List σ) :
    Refuses P pattern (site :: requests) ↔
      (P site ∧ pattern 0 = false) ∨ Refuses P (fun n => pattern (n + 1)) requests := by
  constructor
  · intro h
    obtain ⟨n, site', hsite, hP, hn⟩ := h
    cases n with
    | zero =>
        obtain rfl : site = site' := by simpa using hsite
        exact .inl ⟨hP, hn⟩
    | succ n => exact .inr ⟨n, site', by simpa using hsite, hP, hn⟩
  · intro h
    rcases h with ⟨hP, hn⟩ | ⟨n, site', hsite, hP, hn⟩
    · exact ⟨0, site, rfl, hP, hn⟩
    · exact ⟨n + 1, site', hsite, hP, hn⟩

/-! ## Two computations side by side -/

section Compared

variable (loose : σ → Prop)

/-- The computations make the same requests.  `holed` says whether a loose request of
the first has been refused that was granted to the second, and `R` relates the values. -/
inductive Shadow (R : Bool → α → β → Prop) : Bool → Alloc σ ε α → Alloc σ ε β → Prop
  | done {holed : Bool} {y : α} {x : β} (h : R holed y x) : Shadow R holed (done y) (done x)
  | fail {holed : Bool} (e : ε) : Shadow R holed (fail e) (fail e)
  | checked {holed : Bool} {site : σ} {next : Bool → Alloc σ ε α} {next' : Bool → Alloc σ ε β}
      (hsite : ¬ loose site) (hrefused : (next false).Fails)
      (hgranted : Shadow R holed (next true) (next' true)) :
      Shadow R holed (request site next) (request site next')
  | loose {holed : Bool} {site : σ} {next : Bool → Alloc σ ε α} {next' : Bool → Alloc σ ε β}
      (hsite : loose site) (hrefused : Shadow R true (next false) (next' true))
      (hgranted : Shadow R holed (next true) (next' true)) :
      Shadow R holed (request site next) (request site next')

/-- Every refusal makes the computation fail. -/
def Checked (c : Alloc σ ε α) : Prop :=
  ∀ holed, Shadow loose (fun holed' y x => holed' = holed ∧ y = x) holed c c

end Compared

variable {loose : σ → Prop} {R : Bool → α → β → Prop} {S : Bool → γ → δ → Prop}

theorem Shadow.bind {holed : Bool} {c : Alloc σ ε α} {d : Alloc σ ε β} {k : α → Alloc σ ε γ}
    {k' : β → Alloc σ ε δ} (hc : Shadow loose R holed c d)
    (hk : ∀ holed' y x, R holed' y x → Shadow loose S holed' (k y) (k' x)) :
    Shadow loose S holed (c >>= k) (d >>= k') := by
  induction hc with
  | done h => exact hk _ _ _ h
  | fail e => exact .fail e
  | checked hsite hrefused _ ih => exact .checked hsite (hrefused.bind k) ih
  | loose hsite _ _ ihRefused ihGranted => exact .loose hsite ihRefused ihGranted

theorem Shadow.mono {R' : Bool → α → β → Prop} {holed : Bool} {c : Alloc σ ε α}
    {d : Alloc σ ε β} (hc : Shadow loose R holed c d)
    (h : ∀ holed y x, R holed y x → R' holed y x) : Shadow loose R' holed c d := by
  induction hc with
  | done hR => exact .done (h _ _ _ hR)
  | fail e => exact .fail e
  | checked hsite hrefused _ ih => exact .checked hsite hrefused ih
  | loose hsite _ _ ihRefused ihGranted => exact .loose hsite ihRefused ihGranted

theorem Shadow.mapError {holed : Bool} {c : Alloc σ ε α} {d : Alloc σ ε β}
    (hc : Shadow loose R holed c d) (f : ε → ε') :
    Shadow loose R holed (c.mapError f) (d.mapError f) := by
  induction hc with
  | done h => exact .done h
  | fail e => exact .fail (f e)
  | checked hsite hrefused _ ih => exact .checked hsite (hrefused.mapError f) ih
  | loose hsite _ _ ihRefused ihGranted => exact .loose hsite ihRefused ihGranted

/-- A hole that is there already stays. -/
theorem Shadow.frame {holed : Bool} {c : Alloc σ ε α} {d : Alloc σ ε β}
    (hc : Shadow loose R holed c d) (before : Bool) :
    Shadow loose (fun holed' y x => ∃ own, holed' = (before || own) ∧ R own y x)
      (before || holed) c d := by
  induction hc with
  | done h => exact .done ⟨_, rfl, h⟩
  | fail e => exact .fail e
  | checked hsite hrefused _ ih => exact .checked hsite hrefused ih
  | loose hsite _ _ ihRefused ihGranted =>
      rw [Bool.or_true] at ihRefused
      exact .loose hsite ihRefused ihGranted

/-- What a pattern does: a refused checked request is a failure.  Otherwise the first
computation answers what the second does with everything granted, up to `R`. -/
theorem Shadow.run {holed : Bool} {c : Alloc σ ε α} {d : Alloc σ ε β}
    (hc : Shadow loose R holed c d) (pattern : Nat → Bool) :
    (Refuses (fun site => ¬ loose site) pattern d.sites → ∃ e, c.run pattern = .error e) ∧
      (¬ Refuses (fun site => ¬ loose site) pattern d.sites →
        (∃ e, d.granted = .error e ∧ c.run pattern = .error e) ∨
          ∃ holed' y x, d.granted = .ok x ∧ c.run pattern = .ok y ∧ R holed' y x ∧
            (holed' = true ↔ holed = true ∨ Refuses loose pattern d.sites)) := by
  induction hc generalizing pattern with
  | @done holed y x h =>
      refine ⟨fun h => absurd h (not_refuses_nil _ _), fun _ => .inr ⟨holed, y, x, rfl, rfl, h, ?_⟩⟩
      exact ⟨.inl, fun h => h.resolve_right (not_refuses_nil _ _)⟩
  | fail e => exact ⟨fun _ => ⟨e, rfl⟩, fun _ => .inl ⟨e, rfl, rfl⟩⟩
  | @checked holed site next next' hsite hrefused hgranted ih =>
      rw [sites, refuses_cons, refuses_cons, Alloc.run, Alloc.granted]
      cases hanswer : pattern 0 with
      | false => exact ⟨fun _ => hrefused.run _, fun h => absurd (.inl ⟨hsite, rfl⟩) h⟩
      | true => simpa [hsite] using ih fun n => pattern (n + 1)
  | @loose holed site next next' hsite hrefused hgranted ihRefused ihGranted =>
      rw [sites, refuses_cons, refuses_cons, Alloc.run, Alloc.granted]
      cases hanswer : pattern 0 with
      | false => simpa [hsite] using ihRefused fun n => pattern (n + 1)
      | true => simpa [hsite] using ihGranted fun n => pattern (n + 1)

/-! ## Checked computations -/

theorem Checked.done (x : α) : Checked loose (Alloc.done x : Alloc σ ε α) :=
  fun _ => .done ⟨rfl, rfl⟩

theorem Checked.fail (e : ε) : Checked loose (Alloc.fail e : Alloc σ ε α) := fun _ => .fail e

theorem Checked.bindShadow {holed : Bool} {c : Alloc σ ε α} {k : α → Alloc σ ε γ}
    {k' : α → Alloc σ ε δ} (hc : Checked loose c)
    (hk : ∀ x, Shadow loose S holed (k x) (k' x)) :
    Shadow loose S holed (c >>= k) (c >>= k') := by
  refine (hc holed).bind ?_
  rintro _ y _ ⟨rfl, rfl⟩
  exact hk y

theorem Checked.bind {c : Alloc σ ε α} {k : α → Alloc σ ε γ} (hc : Checked loose c)
    (hk : ∀ x, Checked loose (k x)) : Checked loose (c >>= k) :=
  fun holed => hc.bindShadow fun x => hk x holed

theorem Checked.mapError {c : Alloc σ ε α} (hc : Checked loose c) (f : ε → ε') :
    Checked loose (c.mapError f) := fun holed => (hc holed).mapError f

theorem Checked.demand {site : σ} (hsite : ¬ loose site) (e : ε) :
    Checked loose (demand site e) :=
  fun _ => .checked hsite trivial (.done ⟨rfl, rfl⟩)

theorem Checked.demandBoth {first second : σ} (hfirst : ¬ loose first)
    (hsecond : ¬ loose second) (e : ε) : Checked loose (demandBoth first second e) := by
  intro holed
  refine .checked hfirst (fun answer => trivial) (.checked hsecond trivial ?_)
  exact .done ⟨rfl, rfl⟩

theorem Checked.reserve {site : σ} (hsite : ¬ loose site) (e : ε) (full : Bool)
    (newCapacity capacity : Nat) :
    Checked loose (reserve site e full newCapacity capacity) := by
  unfold Alloc.reserve
  split
  · exact (Checked.demand hsite e).bind fun _ => .done newCapacity
  · exact .done capacity

/-- A checked computation fails when a request is refused, and answers as ever when none
is. -/
theorem Checked.run {c : Alloc σ ε α} (hc : Checked (fun _ => False) c)
    (pattern : Nat → Bool) :
    (Refuses (fun _ => True) pattern c.sites → ∃ e, c.run pattern = .error e) ∧
      (¬ Refuses (fun _ => True) pattern c.sites → c.run pattern = c.granted) := by
  obtain ⟨hfails, hanswers⟩ := (hc false).run pattern
  simp only [not_false_eq_true] at hfails hanswers
  refine ⟨hfails, fun h => ?_⟩
  rcases hanswers h with ⟨e, hgranted, hrun⟩ | ⟨_, y, x, hgranted, hrun, ⟨-, rfl⟩, -⟩
  · rw [hrun, hgranted]
  · rw [hrun, hgranted]

/-- A checked computation that answers has not been refused anything. -/
theorem Checked.run_ok {c : Alloc σ ε α} (hc : Checked (fun _ => False) c)
    {pattern : Nat → Bool} {x : α} (h : c.run pattern = .ok x) : c.granted = .ok x := by
  obtain ⟨hfails, hanswers⟩ := hc.run pattern
  by_cases hrefused : Refuses (fun _ => True) pattern c.sites
  · obtain ⟨e, hrun⟩ := hfails hrefused
    simp [hrun] at h
  · rw [← hanswers hrefused, h]

/-! ## What a computation answers when nothing is refused -/

/-- With everything granted the computation answers as `r` does, its value related by `ρ`
and its errors through `lift`. -/
def Grants (lift : ε' → ε) (ρ : α → β → Prop) (c : Alloc σ ε α) : Except ε' β → Prop
  | .ok x => ∃ y, c.granted = .ok y ∧ ρ y x
  | .error e => c.granted = .error (lift e)

section Grants

variable {lift : ε' → ε} {ρ : α → β → Prop} {ρ' : γ → δ → Prop}

theorem Grants.error {c : Alloc σ ε α} {e : ε'} (k : α → Alloc σ ε γ)
    (hc : Grants lift ρ c (.error e)) : Grants lift ρ' (c >>= k) (.error e) := by
  have hgranted : c.granted = .error (lift e) := hc
  show (c >>= k).granted = .error (lift e)
  rw [granted_bind, hgranted]
  rfl

/-- Requests in front do not show. -/
theorem Grants.after {c : Alloc σ ε α} {x : α} {k : α → Alloc σ ε γ} {r : Except ε' δ}
    (hc : c.granted = .ok x) (hk : Grants lift ρ' (k x) r) : Grants lift ρ' (c >>= k) r := by
  have hbind := granted_after k hc
  unfold Grants at *
  rwa [hbind]

/-- The first part of a computation against an answer that is decided by its first part. -/
theorem Grants.split {c : Alloc σ ε α} {r : Except ε' β} {k : α → Alloc σ ε γ}
    {answer : Except ε' δ} (hc : Grants lift ρ c r)
    (herror : ∀ e, r = .error e → answer = .error e)
    (hok : ∀ y x, r = .ok x → ρ y x → Grants lift ρ' (k y) answer) :
    Grants lift ρ' (c >>= k) answer := by
  cases r with
  | error e =>
      rw [herror e rfl]
      exact hc.error k
  | ok x =>
      obtain ⟨y, hgranted, hρ⟩ : ∃ y, c.granted = .ok y ∧ ρ y x := hc
      exact .after hgranted (hok y x rfl hρ)

theorem Grants.bind {c : Alloc σ ε α} {r : Except ε' β} {k : α → Alloc σ ε γ}
    {k' : β → Except ε' δ} (hc : Grants lift ρ c r)
    (hk : ∀ y x, ρ y x → Grants lift ρ' (k y) (k' x)) :
    Grants lift ρ' (c >>= k) (r >>= k') := by
  refine hc.split (fun e he => by rw [he]; rfl) ?_
  rintro y x rfl hρ
  exact hk y x hρ

/-- Values related by a function: the answer is `r`'s. -/
theorem Grants.granted_eq {c : Alloc σ ε α} {r : Except ε' β} {f : β → α}
    (hc : Grants lift (fun y x => y = f x) c r) : c.granted = (r.map f).mapError lift := by
  cases r with
  | error e => exact hc
  | ok x =>
      obtain ⟨_, hgranted, rfl⟩ : ∃ y, c.granted = .ok y ∧ y = f x := hc
      exact hgranted

end Grants

theorem granted_demand (site : σ) (e : ε) : (demand site e).granted = .ok () := rfl

theorem granted_demandBoth (first second : σ) (e : ε) :
    (demandBoth first second e).granted = .ok () := rfl

theorem granted_reserve (site : σ) (e : ε) (full : Bool) (newCapacity capacity : Nat) :
    (reserve site e full newCapacity capacity).granted =
      .ok (if full then newCapacity else capacity) := by
  unfold reserve
  split <;> rfl

end Alloc

end MiniSql.Foundation
