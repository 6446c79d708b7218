import Mathlib.Algebra.Order.Group.Multiset
import Mathlib.Tactic.Abel
import MiniSql.Foundation.Alloc

set_option autoImplicit false

/-!
# Foundation: computations that own memory and streams

A computation on the heap acquires blocks and streams, uses them and gives them back.
What it does is undefined when it dereferences NULL, and when it uses or gives back
something it does not hold; a run tells the two apart.
`Safe` runs along such a computation and along one that only asks for memory: nothing
undefined happens, the answers correspond, and what is held in the end is known.
-/

namespace MiniSql.Foundation

/-- What a program has to give back. -/
inductive Resource where
  | block (address : Nat)
  | stream (number : Nat)
  deriving DecidableEq, Repr

/-- A pointer to the start of a block; `none` is NULL. -/
abbrev Pointer : Type := Option Nat

/-- The block behind a pointer, and nothing behind NULL. -/
def Pointer.block : Pointer → Multiset Resource
  | none => 0
  | some address => {.block address}

@[simp] theorem Pointer.block_none : Pointer.block none = 0 := rfl

@[simp] theorem Pointer.block_some (address : Nat) :
    Pointer.block (some address) = {.block address} := rfl

/-- Every stream has been closed. -/
def Closed (held : Multiset Resource) : Prop := ∀ number, .stream number ∉ held

theorem Closed.zero : Closed 0 := fun _ => Multiset.notMem_zero _

theorem Closed.add {held held' : Multiset Resource} (h : Closed held) (h' : Closed held') :
    Closed (held + held') := fun number hmem =>
  (Multiset.mem_add.mp hmem).elim (h number) (h' number)

theorem Pointer.closed (pointer : Pointer) : Closed pointer.block := by
  cases pointer with
  | none => exact .zero
  | some address => simp [Closed]

/-- A computation on the heap.  `realloc` of NULL is `malloc`, and answers NULL when it is
refused; `fault` dereferences NULL. -/
inductive Heap (α : Type) where
  | done (x : α)
  | fault
  | realloc (old : Pointer) (next : Pointer → Heap α)
  | fopen (next : Nat → Heap α)
  | touch (resources : Multiset Resource) (next : Heap α)
  | release (resource : Resource) (next : Heap α)

theorem Alloc.bind_done {σ ε α : Type} (c : Alloc σ ε α) : (c >>= Alloc.done) = c := by
  induction c with
  | done x => rfl
  | fail e => rfl
  | request site next ih => exact congrArg (Alloc.request site) (funext ih)

theorem Alloc.bind_assoc {σ ε α β γ : Type} (c : Alloc σ ε α) (k : α → Alloc σ ε β)
    (l : β → Alloc σ ε γ) : ((c >>= k) >>= l) = c >>= fun x => k x >>= l := by
  induction c with
  | done x => rfl
  | fail e => rfl
  | request site next ih => exact congrArg (Alloc.request site) (funext ih)

theorem Alloc.run_mapError {σ ε ε' α : Type} (f : ε → ε') (c : Alloc σ ε α)
    (pattern : Nat → Bool) : (c.mapError f).run pattern = (c.run pattern).mapError f := by
  induction c generalizing pattern with
  | done x => rfl
  | fail e => rfl
  | request site next ih => exact ih _ _

theorem Alloc.run_bind_done {σ ε α β : Type} (c : Alloc σ ε α) (f : α → β)
    (pattern : Nat → Bool) :
    (c >>= fun x => .done (f x)).run pattern = (c.run pattern).map f := by
  induction c generalizing pattern with
  | done x => rfl
  | fail e => rfl
  | request site next ih => exact ih _ _

section Failing

variable {σ ε α : Type} {P : ε → Prop} {e : ε}

theorem Alloc.FailsWith.demand (he : P e) (site : σ) :
    (Alloc.demand site e : Alloc σ ε Unit).FailsWith P := by
  rintro (_ | _)
  · exact he
  · trivial

theorem Alloc.FailsWith.demandBoth (he : P e) (first second : σ) :
    (Alloc.demandBoth first second e : Alloc σ ε Unit).FailsWith P := by
  rintro (_ | _) (_ | _)
  · exact he
  · exact he
  · exact he
  · trivial

theorem Alloc.FailsWith.reserve (he : P e) (site : σ) (full : Bool)
    (newCapacity capacity : Nat) :
    (Alloc.reserve site e full newCapacity capacity).FailsWith P := by
  unfold Alloc.reserve
  split
  · exact (Alloc.FailsWith.demand he site).bind fun _ => trivial
  · trivial

end Failing

/-- The answer of a call, a value or an error, is handed on; its requests are at sites of
another type. -/
def Alloc.test {σ τ ε ε' α β : Type} (lift : σ → τ) :
    Alloc σ ε α → (Except ε α → Alloc τ ε' β) → Alloc τ ε' β
  | .done x, k => k (.ok x)
  | .fail e, k => k (.error e)
  | .request site next, k => .request (lift site) fun answer => (next answer).test lift k

section Tests

variable {σ τ ε ε' α β γ : Type}

theorem Alloc.bind_test (lift : σ → τ) (c : Alloc σ ε α) (l : α → Alloc σ ε γ)
    (k : Except ε γ → Alloc τ ε' β) :
    (c >>= l).test lift k = c.test lift fun
      | .ok x => (l x).test lift k
      | .error e => k (.error e) := by
  induction c with
  | done x => rfl
  | fail e => rfl
  | request site next ih => exact congrArg (Alloc.request _) (funext ih)

theorem Alloc.mapError_test {ε'' : Type} (lift : σ → τ) (f : ε → ε'') (c : Alloc σ ε α)
    (k : Except ε'' α → Alloc τ ε' β) :
    (c.mapError f).test lift k = c.test lift fun r => k (r.mapError f) := by
  induction c with
  | done x => rfl
  | fail e => rfl
  | request site next ih => exact congrArg (Alloc.request _) (funext ih)

theorem Alloc.granted_test (lift : σ → τ) (c : Alloc σ ε α) (k : Except ε α → Alloc τ ε' β) :
    (c.test lift k).granted = (k c.granted).granted := by
  induction c with
  | done x => rfl
  | fail e => rfl
  | request site next ih => exact ih true

/-- The number of requests that are answered when the pattern answers them. -/
def Alloc.requests : Alloc σ ε α → (Nat → Bool) → Nat
  | .done _, _ => 0
  | .fail _, _ => 0
  | .request _ next, pattern => (next (pattern 0)).requests (fun n => pattern (n + 1)) + 1

theorem Alloc.run_test (lift : σ → τ) (c : Alloc σ ε α) (k : Except ε α → Alloc τ ε' β)
    (pattern : Nat → Bool) :
    (c.test lift k).run pattern =
      (k (c.run pattern)).run fun n => pattern (n + c.requests pattern) := by
  induction c generalizing pattern with
  | done x => rfl
  | fail e => rfl
  | request site next ih => exact ih _ _

theorem Alloc.FailsWith.test {P : ε → Prop} {Q : ε' → Prop} {lift : σ → τ} {c : Alloc σ ε α}
    {k : Except ε α → Alloc τ ε' β} (hc : c.FailsWith P)
    (herror : ∀ e, P e → (k (.error e)).FailsWith Q) (hok : ∀ x, (k (.ok x)).FailsWith Q) :
    (c.test lift k).FailsWith Q := by
  induction c with
  | done x => exact hok x
  | fail e => exact herror e hc
  | request site next ih => exact fun answer => ih answer (hc answer)

theorem Alloc.FailsWith.trivial (c : Alloc σ ε α) : c.FailsWith fun _ => True := by
  induction c with
  | done x => exact True.intro
  | fail e => exact True.intro
  | request site next ih => exact ih

theorem Alloc.run_test_done (lift : σ → τ) (c : Alloc σ ε α) (f : Except ε α → β)
    (pattern : Nat → Bool) :
    (c.test lift fun r => (.done (f r) : Alloc τ ε' β)).run pattern = .ok (f (c.run pattern)) := by
  induction c generalizing pattern with
  | done x => rfl
  | fail e => rfl
  | request site next ih => exact ih _ _

end Tests

namespace Heap

variable {σ ε α β γ δ : Type}

/-- One computation after the other. -/
protected def bind : Heap α → (α → Heap β) → Heap β
  | done x, k => k x
  | fault, _ => fault
  | realloc old next, k => realloc old fun pointer => (next pointer).bind k
  | fopen next, k => fopen fun number => (next number).bind k
  | touch resources next, k => touch resources (next.bind k)
  | release resource next, k => release resource (next.bind k)

instance : Monad Heap where
  pure := done
  bind := Heap.bind

@[simp] theorem pure_eq (x : α) : (pure x : Heap α) = done x := rfl

@[simp] theorem done_bind (x : α) (k : α → Heap β) : (done x >>= k) = k x := rfl

theorem realloc_bind (old : Pointer) (next : Pointer → Heap α) (k : α → Heap β) :
    (realloc old next >>= k) = realloc old fun pointer => next pointer >>= k := rfl

theorem touch_bind (resources : Multiset Resource) (next : Heap α) (k : α → Heap β) :
    (touch resources next >>= k) = touch resources (next >>= k) := rfl

theorem release_bind (resource : Resource) (next : Heap α) (k : α → Heap β) :
    (release resource next >>= k) = release resource (next >>= k) := rfl

theorem bind_assoc (p : Heap α) (k : α → Heap β) (l : β → Heap γ) :
    ((p >>= k) >>= l) = p >>= fun x => k x >>= l := by
  induction p with
  | done x => rfl
  | fault => rfl
  | realloc old next ih => exact congrArg (Heap.realloc old) (funext ih)
  | fopen next ih => exact congrArg Heap.fopen (funext ih)
  | touch resources next ih => exact congrArg (Heap.touch resources) ih
  | release resource next ih => exact congrArg (Heap.release resource) ih

theorem bind_done (p : Heap α) : (p >>= done) = p := by
  induction p with
  | done x => rfl
  | fault => rfl
  | realloc old next ih => exact congrArg (Heap.realloc old) (funext ih)
  | fopen next ih => exact congrArg Heap.fopen (funext ih)
  | touch resources next ih => exact congrArg (Heap.touch resources) ih
  | release resource next ih => exact congrArg (Heap.release resource) ih

/-- `malloc`. -/
def malloc : Heap Pointer := realloc none done

/-- `realloc`. -/
def resize (old : Pointer) : Heap Pointer := realloc old done

/-- `free`, which does nothing to NULL. -/
def free : Pointer → Heap Unit
  | none => done ()
  | some address => release (.block address) (done ())

/-- `fopen` where it succeeds. -/
def openStream : Heap Nat := fopen done

/-- `fclose`. -/
def fclose (number : Nat) : Heap Unit := release (.stream number) (done ())

/-- An access through pointers. -/
def use (resources : Multiset Resource) : Heap Unit := touch resources (done ())

/-- A buffer that is full is moved to a larger block; `none` when that is refused. -/
def reserve (full : Bool) (items : Pointer) (newCapacity capacity : Nat) :
    Heap (Option (Pointer × Nat)) :=
  if full then do
    match ← resize items with
    | none => pure none
    | some address => pure (some (some address, newCapacity))
  else
    pure (some (items, capacity))

/-- A request that must be granted. -/
def demand (e : ε) : Heap (Except ε Nat) := do
  match ← malloc with
  | none => pure (.error e)
  | some address => pure (.ok address)

/-- The test of a call: when it has failed, `cleanup` is run and its error handed on. -/
def orReturn (p : Heap (Except ε α)) (cleanup : Heap Unit) (k : α → Heap (Except ε β)) :
    Heap (Except ε β) := do
  match ← p with
  | .error e => do
      cleanup
      pure (.error e)
  | .ok x => k x

/-- The test of a call where there is nothing to clean up. -/
def andThen (p : Heap (Except ε α)) (k : α → Heap (Except ε β)) : Heap (Except ε β) :=
  p.orReturn (done ()) k

/-! ## Runs -/

/-- How new blocks and streams are named: never as one that is held. -/
structure Allocator where
  address : Multiset Resource → Nat
  number : Multiset Resource → Nat
  address_fresh : ∀ held, Resource.block (address held) ∉ held
  number_fresh : ∀ held, Resource.stream (number held) ∉ held

/-- Why a run is undefined. -/
inductive Undefined where
  /-- NULL is dereferenced -/
  | null
  /-- something is used or given back that is not held -/
  | misuse
  deriving DecidableEq, Repr

/-- The answer of a computation and what is held behind it, when the pattern answers the
requests, up to the first undefined thing that happens. -/
def run (allocator : Allocator) :
    Heap α → (Nat → Bool) → Multiset Resource → Except Undefined (α × Multiset Resource)
  | done x, _, held => .ok (x, held)
  | fault, _, _ => .error .null
  | realloc old next, pattern, held =>
      if old.block ≤ held then
        if pattern 0 then
          let frame := held - old.block
          let address := allocator.address frame
          (next (some address)).run allocator (fun n => pattern (n + 1))
            ({.block address} + frame)
        else (next none).run allocator (fun n => pattern (n + 1)) held
      else .error .misuse
  | fopen next, pattern, held =>
      (next (allocator.number held)).run allocator pattern
        ({.stream (allocator.number held)} + held)
  | touch resources next, pattern, held =>
      if ∀ resource ∈ resources, resource ∈ held then next.run allocator pattern held
      else .error .misuse
  | release resource next, pattern, held =>
      if resource ∈ held then next.run allocator pattern (held.erase resource)
      else .error .misuse

/-! ## Two computations side by side -/

section Compared

variable (undefined : ε → Prop) (R : α → Except ε β → Multiset Resource → Prop)

/-- From what is held, the computation on the heap does what the other does: it makes the
same requests, uses and gives back what it holds, and `R` relates its answer, the answer of
the other and what is held in the end.  It faults only where the other fails with an error
that is `undefined`. -/
inductive Safe : Multiset Resource → Heap α → Alloc σ ε β → Prop
  | done {held : Multiset Resource} {x : α} {y : β} (h : R x (.ok y) held) :
      Safe held (done x) (.done y)
  | fail {held : Multiset Resource} {x : α} {e : ε} (h : R x (.error e) held) :
      Safe held (done x) (.fail e)
  | fault {held : Multiset Resource} {e : ε} (h : undefined e) : Safe held fault (.fail e)
  | realloc {held : Multiset Resource} {old : Pointer} {next : Pointer → Heap α} {site : σ}
      {next' : Bool → Alloc σ ε β} (frame : Multiset Resource) (hheld : held = old.block + frame)
      (hgranted : ∀ address, .block address ∉ frame →
        Safe ({.block address} + frame) (next (some address)) (next' true))
      (hrefused : Safe held (next none) (next' false)) :
      Safe held (realloc old next) (.request site next')
  | fopen {held : Multiset Resource} {next : Nat → Heap α} {c : Alloc σ ε β}
      (h : ∀ number, .stream number ∉ held → Safe ({.stream number} + held) (next number) c) :
      Safe held (fopen next) c
  | touch {held resources : Multiset Resource} {next : Heap α} {c : Alloc σ ε β}
      (hheld : resources ⊆ held) (h : Safe held next c) : Safe held (touch resources next) c
  | release {held : Multiset Resource} {resource : Resource} {next : Heap α} {c : Alloc σ ε β}
      (frame : Multiset Resource) (hheld : held = {resource} + frame) (h : Safe frame next c) :
      Safe held (release resource next) c

end Compared

variable {undefined : ε → Prop} {R : α → Except ε β → Multiset Resource → Prop}
  {S : γ → Except ε δ → Multiset Resource → Prop} {held frame owned : Multiset Resource}

/-- What a run does, whatever is refused and however the blocks are named: it comes to its
answer and goes on from there, or it dereferences NULL where the other fails.  It never
misuses anything. -/
theorem Safe.run_bind {p : Heap α} {c : Alloc σ ε β} (h : Safe undefined R held p c)
    (allocator : Allocator) (pattern : Nat → Bool) :
    (∃ x held', R x (c.run pattern) held' ∧ ∀ k : α → Heap γ,
        (p >>= k).run allocator pattern held =
          (k x).run allocator (fun n => pattern (n + c.requests pattern)) held') ∨
      (∃ e, c.run pattern = .error e ∧ undefined e ∧ ∀ k : α → Heap γ,
        (p >>= k).run allocator pattern held = .error .null) := by
  induction h generalizing pattern with
  | done h => exact .inl ⟨_, _, h, fun _ => rfl⟩
  | fail h => exact .inl ⟨_, _, h, fun _ => rfl⟩
  | fault h => exact .inr ⟨_, rfl, h, fun _ => rfl⟩
  | @realloc _ old next site next' frame hheld _ _ ihGranted ihRefused =>
      subst hheld
      have hle : old.block ≤ old.block + frame := Multiset.le_add_right _ _
      simp only [realloc_bind, Heap.run, Alloc.run, Alloc.requests, hle, if_true]
      cases hanswer : pattern 0 with
      | false => simpa [Nat.add_assoc] using ihRefused fun n => pattern (n + 1)
      | true =>
          have hgranted := ihGranted (allocator.address frame) (allocator.address_fresh frame)
            fun n => pattern (n + 1)
          simpa [Nat.add_assoc] using hgranted
  | fopen _ ih => exact ih _ (allocator.number_fresh _) pattern
  | @touch held resources next c hheld _ ih =>
      have hmem : ∀ resource ∈ resources, resource ∈ held := fun _ h => hheld h
      simp only [touch_bind, Heap.run, if_pos hmem]
      exact ih pattern
  | @release _ resource next c frame hheld _ ih =>
      subst hheld
      have hmem : resource ∈ {resource} + frame := by simp
      have herase : ({resource} + frame).erase resource = frame := by simp
      simp only [release_bind, Heap.run, if_pos hmem, herase]
      exact ih pattern

theorem Safe.run {p : Heap α} {c : Alloc σ ε β} (h : Safe undefined R held p c)
    (allocator : Allocator) (pattern : Nat → Bool) :
    (∃ x held', p.run allocator pattern held = .ok (x, held') ∧ R x (c.run pattern) held') ∨
      (p.run allocator pattern held = .error .null ∧
        ∃ e, c.run pattern = .error e ∧ undefined e) := by
  have hrun := @Safe.run_bind σ ε α β α undefined R held p c h allocator pattern
  rcases hrun with ⟨x, held', hR, hbind⟩ | ⟨e, herror, hundefined, hbind⟩
  · rw [← bind_done p]
    exact .inl ⟨x, held', hbind Heap.done, hR⟩
  · rw [← bind_done p]
    exact .inr ⟨hbind Heap.done, e, herror, hundefined⟩

/-- The same with what is held written another way. -/
theorem Safe.of_eq {held' : Multiset Resource} {p : Heap α} {c : Alloc σ ε β}
    (h : Safe undefined R held' p c) (hheld : held = held') : Safe undefined R held p c :=
  hheld ▸ h

theorem Safe.bind {p : Heap α} {c : Alloc σ ε β} {k : α → Heap γ} {k' : β → Alloc σ ε δ}
    (hp : Safe undefined R held p c)
    (hok : ∀ x y held, R x (.ok y) held → Safe undefined S held (k x) (k' y))
    (herror : ∀ x e held, R x (.error e) held →
      Safe undefined S held (k x) (Alloc.fail e : Alloc σ ε δ)) :
    Safe undefined S held (p >>= k) (c >>= k') := by
  induction hp with
  | done h => exact hok _ _ _ h
  | fail h => exact herror _ _ _ h
  | fault h => exact .fault h
  | realloc frame hheld _ _ ihGranted ihRefused => exact .realloc frame hheld ihGranted ihRefused
  | fopen _ ih => exact .fopen ih
  | touch hheld _ ih => exact .touch hheld ih
  | release frame hheld _ ih => exact .release frame hheld ih

theorem Safe.mono {R' : α → Except ε β → Multiset Resource → Prop} {p : Heap α}
    {c : Alloc σ ε β} (hp : Safe undefined R held p c)
    (h : ∀ x r held, R x r held → R' x r held) : Safe undefined R' held p c := by
  induction hp with
  | done hR => exact .done (h _ _ _ hR)
  | fail hR => exact .fail (h _ _ _ hR)
  | fault h => exact .fault h
  | realloc frame hheld _ _ ihGranted ihRefused => exact .realloc frame hheld ihGranted ihRefused
  | fopen _ ih => exact .fopen ih
  | touch hheld _ ih => exact .touch hheld ih
  | release frame hheld _ ih => exact .release frame hheld ih

/-- The same computation, where the other's value is put differently. -/
theorem Safe.answers {S : α → Except ε δ → Multiset Resource → Prop} {p : Heap α}
    {c : Alloc σ ε β} {f : β → δ} (hp : Safe undefined R held p c)
    (hok : ∀ x y held, R x (.ok y) held → S x (.ok (f y)) held)
    (herror : ∀ x e held, R x (.error e) held → S x (.error e) held) :
    Safe undefined S held p (c >>= fun y => .done (f y)) := by
  rw [← bind_done p]
  exact hp.bind (fun x y held h => .done (hok x y held h))
    fun x e held h => .fail (herror x e held h)

/-- A call whose answer is handed on, a value or an error. -/
theorem Safe.test {τ ε' : Type} {undefined' : ε' → Prop} {lift : σ → τ}
    {S : γ → Except ε' δ → Multiset Resource → Prop} {p : Heap α} {c : Alloc σ ε β}
    {k : α → Heap γ} {k' : Except ε β → Alloc τ ε' δ} (hp : Safe undefined R held p c)
    (hundefined : ∀ e, undefined e → ∃ e', k' (.error e) = .fail e' ∧ undefined' e')
    (hnext : ∀ x r held, R x r held → Safe undefined' S held (k x) (k' r)) :
    Safe undefined' S held (p >>= k) (c.test lift k') := by
  induction hp with
  | done h => exact hnext _ _ _ h
  | fail h => exact hnext _ _ _ h
  | fault h =>
      obtain ⟨e', hfail, he'⟩ := hundefined _ h
      unfold Alloc.test
      rw [hfail]
      exact .fault he'
  | realloc frame hheld _ _ ihGranted ihRefused => exact .realloc frame hheld ihGranted ihRefused
  | fopen _ ih => exact .fopen ih
  | touch hheld _ ih => exact .touch hheld ih
  | release frame hheld _ ih => exact .release frame hheld ih

/-- The other's errors are known. -/
theorem Safe.failing {P : ε → Prop} {p : Heap α} {c : Alloc σ ε β}
    (hp : Safe undefined R held p c) (hc : c.FailsWith P) :
    Safe undefined (fun x r held => R x r held ∧ ∀ e, r = .error e → P e) held p c := by
  induction hp with
  | done h => exact .done ⟨h, fun _ he => nomatch he⟩
  | @fail _ _ e h =>
      refine .fail ⟨h, fun e' he => ?_⟩
      obtain rfl : e = e' := Except.error.inj he
      exact hc
  | fault h => exact .fault h
  | realloc frame hheld _ _ ihGranted ihRefused =>
      exact .realloc frame hheld (fun address hfresh => ihGranted address hfresh (hc true))
        (ihRefused (hc false))
  | fopen _ ih => exact .fopen fun number hfresh => ih number hfresh hc
  | touch hheld _ ih => exact .touch hheld (ih hc)
  | release frame hheld _ ih => exact .release frame hheld (ih hc)

/-- What a caller lends is held whatever else is. -/
theorem lent {resources : Multiset Resource} (h : resources ⊆ frame)
    (owned : Multiset Resource) : resources ⊆ owned + frame :=
  fun _ hr => Multiset.mem_add.mpr (.inr (h hr))

/-! ## Rules for the calls -/

section Calls

variable {site : σ} {e : ε}

theorem Safe.malloc {k : Pointer → Heap α} {next : Bool → Alloc σ ε β}
    (hgranted : ∀ address, Safe undefined R ({.block address} + held) (k (some address))
      (next true))
    (hrefused : Safe undefined R held (k none) (next false)) :
    Safe undefined R held (Heap.malloc >>= k) (.request site next) :=
  .realloc held (zero_add _).symm (fun address _ => hgranted address) hrefused

theorem Safe.openStream {k : Nat → Heap α} {c : Alloc σ ε β}
    (h : ∀ number, Safe undefined R ({.stream number} + held) (k number) c) :
    Safe undefined R held (Heap.openStream >>= k) c :=
  .fopen fun number _ => h number

theorem Safe.fclose {number : Nat} {k : Unit → Heap α} {c : Alloc σ ε β}
    (h : Safe undefined R held (k ()) c) :
    Safe undefined R ({.stream number} + held) (Heap.fclose number >>= k) c :=
  .release held rfl h

theorem Safe.use {resources : Multiset Resource} {k : Unit → Heap α} {c : Alloc σ ε β}
    (hheld : resources ⊆ held) (h : Safe undefined R held (k ()) c) :
    Safe undefined R held (Heap.use resources >>= k) c :=
  .touch hheld h

/-- A buffer is moved when it is full: the old block is gone then, and it stays when the
request is refused. -/
theorem Safe.reserve {full : Bool} {items : Pointer} {newCapacity capacity : Nat}
    {k : Option (Pointer × Nat) → Heap α} {k' : Nat → Alloc σ ε β}
    (hok : ∀ items' : Pointer, (if full then items' ≠ none else items' = items) →
      Safe undefined R (items'.block + held)
        (k (some (items', if full then newCapacity else capacity)))
        (k' (if full then newCapacity else capacity)))
    (hrefused : full = true → Safe undefined R (items.block + held) (k none)
      (Alloc.fail e : Alloc σ ε β)) :
    Safe undefined R (items.block + held) (Heap.reserve full items newCapacity capacity >>= k)
      (Alloc.reserve site e full newCapacity capacity >>= k') := by
  unfold Heap.reserve Alloc.reserve
  cases full with
  | false => exact hok items rfl
  | true =>
      exact .realloc held rfl (fun address _ => hok (some address) (Option.some_ne_none _))
        (hrefused rfl)

end Calls

/-! ## Computations that give back -/

/-- What is owned is given back, and nothing else is done. -/
inductive Frees : Multiset Resource → Heap Unit → Prop
  | done : Frees 0 (done ())
  | touch {owned resources : Multiset Resource} {next : Heap Unit} (h : resources ⊆ owned)
      (hnext : Frees owned next) : Frees owned (touch resources next)
  | release {owned : Multiset Resource} {resource : Resource} {next : Heap Unit}
      (hnext : Frees owned next) : Frees ({resource} + owned) (release resource next)

theorem Frees.of_eq {owned' : Multiset Resource} {p : Heap Unit} (h : Frees owned' p)
    (howned : owned = owned') : Frees owned p := howned ▸ h

theorem Frees.free (pointer : Pointer) : Frees pointer.block (Heap.free pointer) := by
  cases pointer with
  | none => exact .done
  | some address => exact .release .done

theorem Frees.fclose (number : Nat) : Frees {.stream number} (Heap.fclose number) :=
  .release .done

theorem Frees.bind {owned' : Multiset Resource} {p q : Heap Unit} (hp : Frees owned p)
    (hq : Frees owned' q) : Frees (owned + owned') (p >>= fun _ => q) := by
  induction hp with
  | done => exact hq.of_eq (zero_add _)
  | touch h _ ih => exact .touch (fun r hr => Multiset.mem_add.mpr (.inl (h hr))) ih
  | release _ ih => exact (Frees.release ih).of_eq (add_assoc _ _ _)

/-- Behind a computation that gives back, the rest goes on without what it owned. -/
theorem Frees.safe {p : Heap Unit} (hp : Frees owned p) {k : Unit → Heap α} {c : Alloc σ ε β}
    (hk : Safe undefined R frame (k ()) c) :
    Safe undefined R (owned + frame) (p >>= k) c := by
  induction hp with
  | done => exact hk.of_eq (zero_add _)
  | touch h _ ih => exact .touch (fun r hr => Multiset.mem_add.mpr (.inl (h hr))) ih
  | release _ ih => exact .release _ (add_assoc _ _ _) ih

/-- A run gives back what is owned. -/
theorem Frees.run {p : Heap Unit} (hp : Frees owned p) (allocator : Allocator)
    (pattern : Nat → Bool) : p.run allocator pattern (owned + frame) = .ok ((), frame) := by
  induction hp with
  | done => rw [zero_add, Heap.run]
  | touch h _ ih =>
      unfold Heap.run
      rw [if_pos fun r hr => Multiset.mem_add.mpr (.inl (h hr)), ih]
  | @release owned resource next _ ih =>
      have hmem : resource ∈ {resource} + owned + frame := by simp
      have herase : ({resource} + owned + frame).erase resource = owned + frame := by
        rw [add_assoc, Multiset.singleton_add, Multiset.erase_cons_head]
      unfold Heap.run
      rw [if_pos hmem, herase, ih]

/-! ## Calls that answer a value or an error -/

/-- The answers correspond.  A value comes with what it owns on top of `kept`, and behind an
error `left` is held. -/
def Owns (own : α → Multiset Resource) (ρ : α → β → Prop) (kept left : Multiset Resource) :
    Except ε α → Except ε β → Multiset Resource → Prop
  | .ok x, .ok y, held => ρ x y ∧ held = own x + kept
  | .error e, .error e', held => e = e' ∧ held = left
  | _, _, _ => False

/-- The same where a call may lose what it owned: behind an error `e` something with
`lost e` is held beside `left`. -/
def Leaks (own : α → Multiset Resource) (ρ : α → β → Prop) (kept : Multiset Resource)
    (lost : ε → Multiset Resource → Prop) (left : Multiset Resource) :
    Except ε α → Except ε β → Multiset Resource → Prop
  | .ok x, .ok y, held => ρ x y ∧ held = own x + kept
  | .error e, .error e', held => e = e' ∧ ∃ remains, lost e remains ∧ held = remains + left
  | _, _, _ => False

section Answers

variable {own : α → Multiset Resource} {ρ : α → β → Prop} {kept left : Multiset Resource}
  {site : σ} {e : ε} {S : Except ε γ → Except ε δ → Multiset Resource → Prop}

theorem Safe.demand :
    Safe undefined (Owns (fun address => {.block address}) (fun _ _ => True) held held) held
      (Heap.demand e) (Alloc.demand site e) :=
  .malloc (fun _ => .done ⟨trivial, rfl⟩) (.fail ⟨rfl, rfl⟩)

theorem Safe.value {x : α} {y : β} (h : ρ x y) (hheld : held = own x + kept) :
    Safe undefined (Owns own ρ kept left) held (Heap.done (.ok x))
      (Alloc.done y : Alloc σ ε β) :=
  .done ⟨h, hheld⟩

theorem Safe.error :
    Safe undefined (Owns own ρ kept held) held (Heap.done (.error e))
      (Alloc.fail e : Alloc σ ε β) :=
  .fail ⟨rfl, rfl⟩

/-- An exit with an error, behind the cleanup. -/
theorem Safe.exit {cleanup : Heap Unit} (hcleanup : Frees owned cleanup) :
    Safe undefined (Owns own ρ kept frame) (owned + frame)
      (cleanup >>= fun _ => Heap.done (.error e)) (Alloc.fail e : Alloc σ ε β) :=
  hcleanup.safe .error

/-- The test of a call: what is left behind an error is cleaned up. -/
theorem Safe.tested {p : Heap (Except ε α)} {c : Alloc σ ε β} {cleanup : Heap Unit}
    {k : α → Heap (Except ε γ)} {k' : β → Alloc σ ε δ}
    (hp : Safe undefined (Owns own ρ kept (owned + frame)) held p c)
    (hcleanup : Frees owned cleanup) (herror : ∀ e, S (.error e) (.error e) frame)
    (hok : ∀ x y, ρ x y → Safe undefined S (own x + kept) (k x) (k' y)) :
    Safe undefined S held (p.orReturn cleanup k) (c >>= k') := by
  refine hp.bind ?_ ?_
  · intro r y held' hr
    cases r with
    | error e => exact hr.elim
    | ok x => exact (hok x y hr.1).of_eq hr.2
  · intro r e held' hr
    cases r with
    | ok x => exact hr.elim
    | error e' =>
        obtain ⟨rfl, hheld⟩ := hr
        refine Safe.of_eq (hcleanup.safe ?_) hheld
        exact .fail (herror e')

/-- The test of a call that leaves what the caller owns so far. -/
theorem Safe.orReturn {p : Heap (Except ε α)} {c : Alloc σ ε β} {cleanup : Heap Unit}
    {k : α → Heap (Except ε γ)} {k' : β → Alloc σ ε δ}
    (hp : Safe undefined (Owns own ρ (owned + frame) (owned + frame)) held p c)
    (hcleanup : Frees owned cleanup) (herror : ∀ e, S (.error e) (.error e) frame)
    (hok : ∀ x y, ρ x y → Safe undefined S (own x + owned + frame) (k x) (k' y)) :
    Safe undefined S held (p.orReturn cleanup k) (c >>= k') :=
  hp.tested hcleanup herror fun x y h => (hok x y h).of_eq (add_assoc _ _ _).symm

theorem Safe.andThen {p : Heap (Except ε α)} {c : Alloc σ ε β} {k : α → Heap (Except ε γ)}
    {k' : β → Alloc σ ε δ} (hp : Safe undefined (Owns own ρ kept frame) held p c)
    (herror : ∀ e, S (.error e) (.error e) frame)
    (hok : ∀ x y, ρ x y → Safe undefined S (own x + kept) (k x) (k' y)) :
    Safe undefined S held (p.andThen k) (c >>= k') := by
  rw [← zero_add frame] at hp
  exact hp.tested .done herror hok

/-- A request that must be granted, where only its own error matters. -/
theorem Safe.demanded {cleanup : Heap Unit} {k : Nat → Heap (Except ε γ)}
    {k' : Unit → Alloc σ ε δ} (hcleanup : Frees owned cleanup)
    (herror : S (.error e) (.error e) frame)
    (hok : ∀ address, Safe undefined S ({.block address} + owned + frame) (k address) (k' ())) :
    Safe undefined S (owned + frame) ((Heap.demand e).orReturn cleanup k)
      (Alloc.demand site e >>= k') :=
  .malloc (fun address => (hok address).of_eq (add_assoc _ _ _).symm)
    (hcleanup.safe (.fail herror))

/-- The test of a call that may lose something. -/
theorem Safe.leaking {lost : ε → Multiset Resource → Prop} {p : Heap (Except ε α)}
    {c : Alloc σ ε β} {k : α → Heap (Except ε γ)} {k' : β → Alloc σ ε δ}
    (hp : Safe undefined (Leaks own ρ kept lost left) held p c)
    (herror : ∀ e remains, lost e remains → S (.error e) (.error e) (remains + left))
    (hok : ∀ x y, ρ x y → Safe undefined S (own x + kept) (k x) (k' y)) :
    Safe undefined S held (p.andThen k) (c >>= k') := by
  refine hp.bind ?_ ?_
  · rintro (e | x) y held' h
    · exact h.elim
    · exact (hok x y h.1).of_eq h.2
  · rintro (e' | x) e held' h
    · obtain ⟨rfl, remains, hlost, rfl⟩ := h
      exact .fail (herror e' remains hlost)
    · exact h.elim

end Answers

/-! ## Calls that enlarge a structure of the caller -/

/-- The structure stays the caller's as it is then, whether the call succeeds or fails
with `e`.  Behind a success it has `inv`. -/
def Enlarges (inv : α → Prop) (own : α → Multiset Resource) (value : α → β) (e : ε)
    (frame : Multiset Resource) : Bool × α → Except ε β → Multiset Resource → Prop
  | (true, x), .ok y, held => inv x ∧ y = value x ∧ held = own x + frame
  | (false, x), .error e', held => e' = e ∧ held = own x + frame
  | _, _, _ => False

theorem Safe.enlarged {inv : α → Prop} {own : α → Multiset Resource} {value : α → β} {e : ε}
    {S : γ → Except ε δ → Multiset Resource → Prop} {p : Heap (Bool × α)} {c : Alloc σ ε β}
    {k : Bool × α → Heap γ} {k' : β → Alloc σ ε δ}
    (hp : Safe undefined (Enlarges inv own value e frame) held p c)
    (hok : ∀ x, inv x → Safe undefined S (own x + frame) (k (true, x)) (k' (value x)))
    (hfail : ∀ x, Safe undefined S (own x + frame) (k (false, x))
      (Alloc.fail e : Alloc σ ε δ)) :
    Safe undefined S held (p >>= k) (c >>= k') := by
  refine hp.bind ?_ ?_
  · rintro ⟨_ | _, x⟩ y held h
    · exact h.elim
    · obtain ⟨hinv, rfl, rfl⟩ := h
      exact hok x hinv
  · rintro ⟨_ | _, x⟩ e' held h
    · obtain ⟨rfl, rfl⟩ := h
      exact hfail x
    · exact h.elim

end Heap

end MiniSql.Foundation
