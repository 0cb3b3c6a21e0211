import Mathlib.Logic.Function.Basic
import DidHosting.Support.Run

/-!
# Handlers that share a store

A handler goes from one access of a shared store to the next.  Each access is one step: it
changes the store and tells the handler what the store was.  Between two accesses any other
handler may run, and what comes from outside (a clock, a random draw, the answer of another
service) is an input of the step that asks for it.

What a handler has seen is of the past.  A `Protocol` therefore names, besides the
invariant of the store, how the store may grow, and `Atomic.Safe` states what a handler
relies on for every later store.  A protocol may also ask something of the store at an
access; that is how a condition on a run is put.
-/

namespace DidHosting

/-- A handler on a store of type `σ` with accesses `ω` and inputs `η`, that takes locks
named by `κ`.  `halt` is a handler that is not run any further. -/
inductive Atomic (σ ω η κ ε α : Type) where
  | ret (a : α)
  | fail (e : ε)
  | halt
  | input (k : η → Atomic σ ω η κ ε α)
  | access (o : ω) (k : σ → Atomic σ ω η κ ε α)
  | lock (key : κ) (next : Atomic σ ω η κ ε α)
  | unlock (key : κ) (next : Atomic σ ω η κ ε α)

/-- What an access of type `ω` does to a store of type `σ`. -/
class Access (σ ω : Type) where
  perform : ω → σ → σ

namespace Atomic

variable {σ ω η κ ε δ α β : Type}

/-- Run `f` on the result. -/
def bind : Atomic σ ω η κ ε α → (α → Atomic σ ω η κ ε β) → Atomic σ ω η κ ε β
  | ret a, f => f a
  | fail e, _ => fail e
  | halt, _ => halt
  | input k, f => input fun x => bind (k x) f
  | access o k, f => access o fun s => bind (k s) f
  | lock key next, f => lock key (bind next f)
  | unlock key next, f => unlock key (bind next f)

instance : Monad (Atomic σ ω η κ ε) where
  pure := ret
  bind := bind

def check : Except ε α → Atomic σ ω η κ ε α
  | .ok a => ret a
  | .error e => fail e

/-- What comes from outside, seen through `f`. -/
def draw (f : η → α) : Atomic σ ω η κ ε α :=
  input fun x => ret (f x)

/-- An access, and what it tells of the store. -/
def call (o : ω) (f : σ → α) : Atomic σ ω η κ ε α :=
  access o fun s => ret (f s)

/-- Go on only if `c` holds. -/
def require (c : Bool) (e : ε) : Atomic σ ω η κ ε Unit :=
  if c then ret () else fail e

/-- Return the outcome of `p`, also when it is a failure. -/
def attempt : Atomic σ ω η κ ε α → Atomic σ ω η κ δ (Except ε α)
  | ret a => ret (.ok a)
  | fail e => ret (.error e)
  | halt => halt
  | input k => input fun x => attempt (k x)
  | access o k => access o fun s => attempt (k s)
  | lock key next => lock key (attempt next)
  | unlock key next => unlock key (attempt next)

/-- Release `key` at the end of `p`, also when `p` fails. -/
def releasing (key : κ) : Atomic σ ω η κ ε α → Atomic σ ω η κ ε α
  | ret a => unlock key (ret a)
  | fail e => unlock key (fail e)
  | halt => halt
  | input k => input fun x => releasing key (k x)
  | access o k => access o fun s => releasing key (k s)
  | lock key' next => lock key' (releasing key next)
  | unlock key' next => unlock key' (releasing key next)

/-- Run `p` under the lock `key`. -/
def locked (key : κ) (p : Atomic σ ω η κ ε α) : Atomic σ ω η κ ε α :=
  lock key (releasing key p)

/-- The handler has an answer, or has stopped. -/
def isDone : Atomic σ ω η κ ε α → Bool
  | ret _ => true
  | fail _ => true
  | halt => true
  | _ => false

end Atomic

/-! ## Protocols -/

/-- What handlers agree on: an invariant, how the store grows, and what an access asks of
the store it meets. -/
structure Protocol (σ ω : Type) where
  Inv : σ → Prop
  Grows : σ → σ → Prop
  Meets : ω → σ → Prop
  grows_refl : ∀ s, Grows s s
  grows_trans : ∀ s t u, Grows s t → Grows t u → Grows s u

/-- A condition on stores that growth does not end. -/
def Protocol.Lasting {σ ω : Type} (P : Protocol σ ω) (A : σ → Prop) : Prop :=
  ∀ s t, P.Grows s t → A s → A t

namespace Atomic

variable {σ ω η κ ε δ α β : Type} [Access σ ω] (P : Protocol σ ω)

/-- From the store `s` on, whatever grows in between: each access of the handler keeps the
invariant and only lets the store grow, and its answers are as `Q` and `E` say. -/
def Safe (Q : α → σ → Prop) (E : ε → σ → Prop) : Atomic σ ω η κ ε α → σ → Prop
  | ret a, s => Q a s
  | fail e, s => E e s
  | halt, _ => True
  | input k, s => ∀ x, Safe Q E (k x) s
  | access o k, s => ∀ t, P.Grows s t → P.Inv t → P.Meets o t →
      P.Inv (Access.perform o t) ∧ P.Grows t (Access.perform o t) ∧
        Safe Q E (k t) (Access.perform o t)
  | lock _ next, s => Safe Q E next s
  | unlock _ next, s => Safe Q E next s

variable {P} {Q Q' : α → σ → Prop} {E E' : ε → σ → Prop} {s t : σ}

theorem Safe.mono {p : Atomic σ ω η κ ε α} (h : p.Safe P Q E s)
    (hQ : ∀ a t, Q a t → Q' a t) (hE : ∀ e t, E e t → E' e t) : p.Safe P Q' E' s := by
  induction p generalizing s with
  | ret a => exact hQ a s h
  | fail e => exact hE e s h
  | halt => trivial
  | input k ih => exact fun x => ih x (h x)
  | access o k ih =>
      intro t hgrows hinv hmeets
      obtain ⟨hkeeps, hlater, hrest⟩ := h t hgrows hinv hmeets
      exact ⟨hkeeps, hlater, ih t hrest⟩
  | lock key next ih => exact ih h
  | unlock key next ih => exact ih h

/-- What others add does not disturb a handler. -/
theorem Safe.grows {p : Atomic σ ω η κ ε α} (h : p.Safe P Q E s) (hst : P.Grows s t)
    (hQ : ∀ a, P.Lasting (Q a)) (hE : ∀ e, P.Lasting (E e)) :
    p.Safe P Q E t := by
  induction p generalizing s with
  | ret a => exact hQ a s t hst h
  | fail e => exact hE e s t hst h
  | halt => trivial
  | input k ih => exact fun x => ih x (h x) hst
  | access o k ih =>
      intro u htu hinv hmeets
      exact h u (P.grows_trans s t u hst htu) hinv hmeets
  | lock key next ih => exact ih h hst
  | unlock key next ih => exact ih h hst

/-- What growth does not end still holds at the end of a handler. -/
theorem Safe.keeps {p : Atomic σ ω η κ ε α} {A : σ → Prop} (h : p.Safe P Q E s)
    (hA : P.Lasting A) (hs : A s) : p.Safe P (fun a t => Q a t ∧ A t) E s := by
  induction p generalizing s with
  | ret a => exact ⟨h, hs⟩
  | fail e => exact h
  | halt => trivial
  | input k ih => exact fun x => ih x (h x) hs
  | access o k ih =>
      intro t hgrows hinv hmeets
      obtain ⟨hkeeps, hlater, hrest⟩ := h t hgrows hinv hmeets
      have ht : A (Access.perform o t) := hA _ _ hlater (hA _ _ hgrows hs)
      exact ⟨hkeeps, hlater, ih t hrest ht⟩
  | lock key next ih => exact ih h hs
  | unlock key next ih => exact ih h hs

@[simp] theorem safe_pure {a : α} :
    (pure a : Atomic σ ω η κ ε α).Safe P Q E s ↔ Q a s :=
  Iff.rfl

theorem safe_bind {p : Atomic σ ω η κ ε α} {f : α → Atomic σ ω η κ ε β} {R : β → σ → Prop}
    (h : p.Safe P (fun a t => (f a).Safe P R E t) E s) : (p >>= f).Safe P R E s := by
  change (p.bind f).Safe P R E s
  induction p generalizing s with
  | ret a => exact h
  | fail e => exact h
  | halt => trivial
  | input k ih => exact fun x => ih x (h x)
  | access o k ih =>
      intro t hgrows hinv hmeets
      obtain ⟨hkeeps, hlater, hrest⟩ := h t hgrows hinv hmeets
      exact ⟨hkeeps, hlater, ih t hrest⟩
  | lock key next ih => exact ih h
  | unlock key next ih => exact ih h

theorem safe_check {x : Except ε α} (hok : ∀ a, x = .ok a → Q a s)
    (herror : ∀ e, x = .error e → E e s) :
    (check x : Atomic σ ω η κ ε α).Safe P Q E s := by
  cases x with
  | ok a => exact hok a rfl
  | error e => exact herror e rfl

theorem safe_draw_bind {f : η → α} {k : α → Atomic σ ω η κ ε β} {R : β → σ → Prop}
    (h : ∀ x, (k (f x)).Safe P R E s) : (draw f >>= k).Safe P R E s :=
  h

theorem safe_call {o : ω} {f : σ → α}
    (h : ∀ t, P.Grows s t → P.Inv t → P.Meets o t → P.Inv (Access.perform o t) ∧
      P.Grows t (Access.perform o t) ∧ Q (f t) (Access.perform o t)) :
    (call o f : Atomic σ ω η κ ε α).Safe P Q E s :=
  h

theorem safe_attempt {p : Atomic σ ω η κ ε α} {R : Except ε α → σ → Prop} {D : δ → σ → Prop}
    (h : p.Safe P (fun a => R (.ok a)) (fun e => R (.error e)) s) :
    (attempt p : Atomic σ ω η κ δ (Except ε α)).Safe P R D s := by
  induction p generalizing s with
  | ret a => exact h
  | fail e => exact h
  | halt => trivial
  | input k ih => exact fun x => ih x (h x)
  | access o k ih =>
      intro t hgrows hinv hmeets
      obtain ⟨hkeeps, hlater, hrest⟩ := h t hgrows hinv hmeets
      exact ⟨hkeeps, hlater, ih t hrest⟩
  | lock key next ih => exact ih h
  | unlock key next ih => exact ih h

theorem safe_locked {key : κ} {p : Atomic σ ω η κ ε α} (h : p.Safe P Q E s) :
    (locked key p).Safe P Q E s := by
  change (releasing key p).Safe P Q E s
  induction p generalizing s with
  | ret a => exact h
  | fail e => exact h
  | halt => trivial
  | input k ih => exact fun x => ih x (h x)
  | access o k ih =>
      intro t hgrows hinv hmeets
      obtain ⟨hkeeps, hlater, hrest⟩ := h t hgrows hinv hmeets
      exact ⟨hkeeps, hlater, ih t hrest⟩
  | lock key' next ih => exact ih h
  | unlock key' next ih => exact ih h

end Atomic

/-! ## Pools of handlers -/

/-- A store, handlers at work on it, and who holds which lock. -/
structure Pool (ι σ ω η κ ε α : Type) where
  store : σ
  handler : ι → Atomic σ ω η κ ε α
  locks : κ → Option ι

/-- What happens next: a handler takes a step on an input, or is dropped. -/
inductive PoolEvent (ι η : Type) where
  | run (i : ι) (x : η)
  | drop (i : ι)

namespace Pool

variable {ι σ ω η κ ε α : Type} [DecidableEq ι]

/-- The handlers before any of them has run. -/
def start (s : σ) (handlers : ι → Atomic σ ω η κ ε α) : Pool ι σ ω η κ ε α :=
  ⟨s, handlers, fun _ => none⟩

/-- Handler `i` goes on as `p`; at its end it holds no lock. -/
def resume (m : Pool ι σ ω η κ ε α) (i : ι) (p : Atomic σ ω η κ ε α) : Pool ι σ ω η κ ε α where
  store := m.store
  handler := Function.update m.handler i p
  locks := fun key => if p.isDone && m.locks key = some i then none else m.locks key

variable [Access σ ω] [DecidableEq κ]

/-- Handler `i` is not run any further, unless it has answered. -/
def drop (m : Pool ι σ ω η κ ε α) (i : ι) : Pool ι σ ω η κ ε α :=
  if (m.handler i).isDone then m else m.resume i .halt

/-- Handler `i` takes a step.  While it waits for a lock it stays where it is. -/
def run (m : Pool ι σ ω η κ ε α) (i : ι) (x : η) : Pool ι σ ω η κ ε α :=
  match m.handler i with
  | .ret _ => m
  | .fail _ => m
  | .halt => m
  | .input k => m.resume i (k x)
  | .access o k => { m with store := Access.perform o m.store }.resume i (k m.store)
  | .lock key next =>
      if m.locks key = none then
        { m with locks := Function.update m.locks key (some i) }.resume i next
      else m
  | .unlock key next => { m with locks := Function.update m.locks key none }.resume i next

def step (m : Pool ι σ ω η κ ε α) : PoolEvent ι η → Pool ι σ ω η κ ε α
  | .run i x => m.run i x
  | .drop i => m.drop i

/-- The pool after the events. -/
abbrev exec (m : Pool ι σ ω η κ ε α) (events : List (PoolEvent ι η)) : Pool ι σ ω η κ ε α :=
  Run.exec step m events

/-- An event leaves the store alone, or performs the access its handler is at. -/
theorem step_store (m : Pool ι σ ω η κ ε α) (event : PoolEvent ι η) :
    (m.step event).store = m.store ∨ ∃ i x o k, event = .run i x ∧ m.handler i = .access o k ∧
      (m.step event).store = Access.perform o m.store := by
  cases event with
  | drop i =>
      left
      change (m.drop i).store = m.store
      unfold drop
      by_cases hdone : (m.handler i).isDone = true
      · rw [if_pos hdone]
      · rw [if_neg hdone]
        rfl
  | run i x =>
      change (m.run i x).store = m.store ∨ _
      unfold run
      cases hp : m.handler i with
      | ret a => exact Or.inl rfl
      | fail e => exact Or.inl rfl
      | halt => exact Or.inl rfl
      | input k => exact Or.inl rfl
      | access o k =>
          right
          refine ⟨i, x, o, k, rfl, hp, ?_⟩
          change (m.run i x).store = _
          unfold run
          rw [hp]
          rfl
      | lock key next =>
          left
          by_cases hfree : m.locks key = none
          · simp only [if_pos hfree]
            rfl
          · simp only [if_neg hfree]
      | unlock key next => exact Or.inl rfl

variable (P : Protocol σ ω)

/-- The access of an event meets what the protocol asks. -/
def Meets (m : Pool ι σ ω η κ ε α) : PoolEvent ι η → Prop
  | .drop _ => True
  | .run i _ => ∀ o k, m.handler i = .access o k → P.Meets o m.store

/-- All handlers keep to the protocol. -/
structure Safe (Q : ι → α → σ → Prop) (E : ι → ε → σ → Prop) (m : Pool ι σ ω η κ ε α) :
    Prop where
  inv : P.Inv m.store
  handlers : ∀ i, (m.handler i).Safe P (Q i) (E i) m.store

variable {P} {Q : ι → α → σ → Prop} {E : ι → ε → σ → Prop} {m : Pool ι σ ω η κ ε α}

omit [DecidableEq ι] [DecidableEq κ] in
theorem Safe.start {s : σ} {handlers : ι → Atomic σ ω η κ ε α} (hinv : P.Inv s)
    (h : ∀ i, (handlers i).Safe P (Q i) (E i) s) : Safe P Q E (start s handlers) :=
  ⟨hinv, h⟩

omit [DecidableEq κ] in
/-- A handler that goes on without touching the store. -/
theorem Safe.resume (h : Safe P Q E m) {i : ι} {p : Atomic σ ω η κ ε α}
    (hp : p.Safe P (Q i) (E i) m.store) (locks : κ → Option ι) :
    Safe P Q E ({ m with locks := locks }.resume i p) := by
  refine ⟨h.inv, ?_⟩
  intro j
  by_cases hj : j = i
  · subst hj
    change (Function.update m.handler j p j).Safe P (Q j) (E j) m.store
    rw [Function.update_self]
    exact hp
  · change (Function.update m.handler i p j).Safe P (Q j) (E j) m.store
    rw [Function.update_of_ne hj]
    exact h.handlers j

/-- The rule for one event: the handler at work keeps the protocol, and the others are
not disturbed by what it adds. -/
theorem Safe.step (h : Safe P Q E m) {event : PoolEvent ι η} (hmeets : m.Meets P event)
    (hQ : ∀ i a, P.Lasting (Q i a)) (hE : ∀ i e, P.Lasting (E i e)) :
    Safe P Q E (m.step event) ∧ P.Grows m.store (m.step event).store := by
  cases event with
  | drop i =>
      change Safe P Q E (m.drop i) ∧ P.Grows m.store (m.drop i).store
      unfold Pool.drop
      by_cases hdone : (m.handler i).isDone = true
      · rw [if_pos hdone]
        exact ⟨h, P.grows_refl _⟩
      · rw [if_neg hdone]
        have hhalt : (Atomic.halt : Atomic σ ω η κ ε α).Safe P (Q i) (E i) m.store := trivial
        exact ⟨h.resume hhalt m.locks, P.grows_refl _⟩
  | run i x =>
      have hi := h.handlers i
      change Safe P Q E (m.run i x) ∧ P.Grows m.store (m.run i x).store
      unfold Pool.run
      cases hp : m.handler i with
      | ret a => exact ⟨h, P.grows_refl _⟩
      | fail e => exact ⟨h, P.grows_refl _⟩
      | halt => exact ⟨h, P.grows_refl _⟩
      | input k =>
          rw [hp] at hi
          exact ⟨h.resume (hi x) m.locks, P.grows_refl _⟩
      | access o k =>
          rw [hp] at hi
          obtain ⟨hkeeps, hgrows, hrest⟩ :=
            hi m.store (P.grows_refl _) h.inv (hmeets o k hp)
          refine ⟨⟨hkeeps, ?_⟩, hgrows⟩
          intro j
          by_cases hj : j = i
          · subst hj
            change (Function.update m.handler j (k m.store) j).Safe P (Q j) (E j)
              (Access.perform o m.store)
            rw [Function.update_self]
            exact hrest
          · change (Function.update m.handler i (k m.store) j).Safe P (Q j) (E j)
              (Access.perform o m.store)
            rw [Function.update_of_ne hj]
            exact (h.handlers j).grows hgrows (hQ j) (hE j)
      | lock key next =>
          rw [hp] at hi
          have hnext : next.Safe P (Q i) (E i) m.store := hi
          by_cases hfree : m.locks key = none
          · simp only [if_pos hfree]
            exact ⟨h.resume hnext _, P.grows_refl _⟩
          · simp only [if_neg hfree]
            exact ⟨h, P.grows_refl _⟩
      | unlock key next =>
          rw [hp] at hi
          have hnext : next.Safe P (Q i) (E i) m.store := hi
          exact ⟨h.resume hnext _, P.grows_refl _⟩

/-- The rule for a run: the invariant holds at its end, the store has only grown, and
every answer is as promised. -/
theorem Safe.exec {events : List (PoolEvent ι η)} (h : Safe P Q E m)
    (hmeets : Run.Meets Pool.step (fun m event => m.Meets P event) m events)
    (hQ : ∀ i a, P.Lasting (Q i a)) (hE : ∀ i e, P.Lasting (E i e)) :
    Safe P Q E (m.exec events) ∧ P.Grows m.store (m.exec events).store := by
  induction events generalizing m with
  | nil => exact ⟨h, P.grows_refl _⟩
  | cons event events ih =>
      obtain ⟨hsafe, hgrows⟩ := h.step hmeets.1 hQ hE
      obtain ⟨hsafe', hgrows'⟩ := ih hsafe hmeets.2
      rw [exec, Run.exec_cons]
      exact ⟨hsafe', P.grows_trans _ _ _ hgrows hgrows'⟩

omit [DecidableEq ι] [DecidableEq κ] in
theorem Safe.answered (h : Safe P Q E m) {i : ι} {a : α} (hi : m.handler i = .ret a) :
    Q i a m.store := by
  have hsafe := h.handlers i
  rw [hi] at hsafe
  exact hsafe

omit [DecidableEq ι] [DecidableEq κ] in
theorem Safe.refused (h : Safe P Q E m) {i : ι} {e : ε} (hi : m.handler i = .fail e) :
    E i e m.store := by
  have hsafe := h.handlers i
  rw [hi] at hsafe
  exact hsafe

end Pool

end DidHosting
