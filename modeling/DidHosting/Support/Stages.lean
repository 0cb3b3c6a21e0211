import DidHosting.Support.Confined

/-!
# Handlers in stages

What a handler may still do depends on how far it has come.  A `Discipline` names the stages
of a handler and says which access, made on which store, takes it from one to the next; a
handler that follows it makes no other access.  In a pool of such handlers an event is an
access that the stage of its handler allows, or it leaves the store and the stages as they
are.
-/

namespace DidHosting

/-- The stages of a handler: where an access leads, if it is allowed at all.  In a stage
that is `ready` the handler is at its next access. -/
structure Discipline (σ ω S : Type) where
  next : S → ω → σ → Option S
  ready : S → Bool

namespace Atomic

variable {σ ω η κ ε α β S : Type}

/-- From this stage on the handler makes only the accesses that the stages allow, and its
answer goes with its stage as `Q` says. -/
def Follows (D : Discipline σ ω S) (Q : α → S → Prop) : Atomic σ ω η κ ε α → S → Prop
  | ret a, stage => Q a stage
  | fail _, _ => True
  | halt, _ => True
  | input k, stage => D.ready stage = false ∧ ∀ x, Follows D Q (k x) stage
  | access o k, stage => ∀ s, ∃ after, D.next stage o s = some after ∧ Follows D Q (k s) after
  | lock _ rest, stage => D.ready stage = false ∧ Follows D Q rest stage
  | unlock _ rest, stage => D.ready stage = false ∧ Follows D Q rest stage

variable {D : Discipline σ ω S} {Q Q' : α → S → Prop} {stage : S}

theorem Follows.mono {p : Atomic σ ω η κ ε α} (h : p.Follows D Q stage)
    (hQ : ∀ a stage, Q a stage → Q' a stage) : p.Follows D Q' stage := by
  induction p generalizing stage with
  | ret a => exact hQ a stage h
  | fail e => trivial
  | halt => trivial
  | input k ih => exact ⟨h.1, fun x => ih x (h.2 x)⟩
  | access o k ih =>
      intro s
      obtain ⟨after, hnext, hrest⟩ := h s
      exact ⟨after, hnext, ih s hrest⟩
  | lock key rest ih => exact ⟨h.1, ih h.2⟩
  | unlock key rest ih => exact ⟨h.1, ih h.2⟩

theorem follows_bind {p : Atomic σ ω η κ ε α} {f : α → Atomic σ ω η κ ε β}
    {R : β → S → Prop} (h : p.Follows D (fun a after => (f a).Follows D R after) stage) :
    (p >>= f).Follows D R stage := by
  change (p.bind f).Follows D R stage
  induction p generalizing stage with
  | ret a => exact h
  | fail e => trivial
  | halt => trivial
  | input k ih => exact ⟨h.1, fun x => ih x (h.2 x)⟩
  | access o k ih =>
      intro s
      obtain ⟨after, hnext, hrest⟩ := h s
      exact ⟨after, hnext, ih s hrest⟩
  | lock key rest ih => exact ⟨h.1, ih h.2⟩
  | unlock key rest ih => exact ⟨h.1, ih h.2⟩

theorem follows_call_bind {o : ω} {f : σ → α} {k : α → Atomic σ ω η κ ε β} {R : β → S → Prop}
    (h : ∀ s, ∃ after, D.next stage o s = some after ∧ (k (f s)).Follows D R after) :
    (call o f >>= k).Follows D R stage :=
  h

theorem follows_ite {c : Prop} [Decidable c] {p q : Atomic σ ω η κ ε α}
    (hp : p.Follows D Q stage) (hq : q.Follows D Q stage) :
    (if c then p else q).Follows D Q stage := by
  split
  · exact hp
  · exact hq

theorem follows_draw_bind {f : η → α} {k : α → Atomic σ ω η κ ε β} {R : β → S → Prop}
    (hready : D.ready stage = false) (h : ∀ x, (k (f x)).Follows D R stage) :
    (draw f >>= k).Follows D R stage :=
  ⟨hready, h⟩

/-- A handler whose accesses leave its stage. -/
theorem Only.follows {ok : ω → Prop} {P : α → Prop} {p : Atomic σ ω η κ ε α} (h : p.Only ok P)
    (hstay : ∀ o s, ok o → D.next stage o s = some stage) (hready : D.ready stage = false) :
    p.Follows D (fun a after => P a ∧ after = stage) stage := by
  induction p with
  | ret a => exact ⟨h, rfl⟩
  | fail e => trivial
  | halt => trivial
  | input k ih => exact ⟨hready, fun x => ih x (h x)⟩
  | access o k ih => exact fun s => ⟨stage, hstay o s h.1, ih s (h.2 s)⟩
  | lock key rest ih => exact ⟨hready, ih h⟩
  | unlock key rest ih => exact ⟨hready, ih h⟩

theorem Only.follows_bind {ok : ω → Prop} {P : α → Prop} {p : Atomic σ ω η κ ε α}
    {f : α → Atomic σ ω η κ ε β} {R : β → S → Prop} (h : p.Only ok P)
    (hstay : ∀ o s, ok o → D.next stage o s = some stage) (hready : D.ready stage = false)
    (hf : ∀ a, P a → (f a).Follows D R stage) : (p >>= f).Follows D R stage := by
  apply Atomic.follows_bind
  apply (h.follows hstay hready).mono
  rintro a after ⟨ha, rfl⟩
  exact hf a ha

/-- The access a handler is at. -/
def atHand : Atomic σ ω η κ ε α → Option ω
  | access o _ => some o
  | _ => none

theorem eq_access_of_atHand {p : Atomic σ ω η κ ε α} {o : ω} (h : p.atHand = some o) :
    ∃ k, p = .access o k := by
  cases p with
  | access o' k =>
      obtain rfl := Option.some.inj h
      exact ⟨k, rfl⟩
  | _ => simp [atHand] at h

end Atomic

namespace Pool

variable {ι σ ω η κ ε α S : Type} [DecidableEq ι] [Access σ ω] [DecidableEq κ]

/-- The access of an event, and whose it is. -/
def performed (m : Pool ι σ ω η κ ε α) : PoolEvent ι η → Option (ι × ω)
  | .drop _ => none
  | .run i _ => (m.handler i).atHand.map fun o => (i, o)

/-- Each handler follows its discipline from its stage on. -/
def Follows (D : ι → Discipline σ ω S) (m : Pool ι σ ω η κ ε α) (stage : ι → S) : Prop :=
  ∀ i, (m.handler i).Follows (D i) (fun _ _ => True) (stage i)

variable {D : ι → Discipline σ ω S} {m : Pool ι σ ω η κ ε α} {stage : ι → S}

omit [DecidableEq ι] [Access σ ω] [DecidableEq κ] in
theorem atHand_of_performed {event : PoolEvent ι η} {i : ι} {o : ω}
    (h : m.performed event = some (i, o)) : (m.handler i).atHand = some o := by
  cases event with
  | drop i' => simp [performed] at h
  | run i' x =>
      obtain ⟨o', ho', hio⟩ := Option.map_eq_some_iff.mp h
      obtain ⟨rfl, rfl⟩ := Prod.mk.inj hio
      exact ho'

omit [Access σ ω] [DecidableEq κ] in
theorem handler_resume (m : Pool ι σ ω η κ ε α) (i : ι) (p : Atomic σ ω η κ ε α) (j : ι) :
    (m.resume i p).handler j = if j = i then p else m.handler j :=
  Function.update_apply _ _ _ _

omit [Access σ ω] [DecidableEq κ] in
theorem Follows.resume (h : Follows D m stage) {i : ι} {p : Atomic σ ω η κ ε α}
    (hp : p.Follows (D i) (fun _ _ => True) (stage i)) (s : σ) (locks : κ → Option ι) :
    Follows D ({ m with store := s, locks := locks }.resume i p) stage := by
  intro j
  rw [handler_resume]
  by_cases hj : j = i
  · rw [if_pos hj, hj]
    exact hp
  · rw [if_neg hj]
    exact h j

/-- What an event without an access does to the handlers: one of them is dropped, or goes
on from a stage that is not ready. -/
theorem Follows.silent (h : Follows D m stage) {event : PoolEvent ι η}
    (hsilent : m.performed event = none) :
    (m.step event).store = m.store ∧ Follows D (m.step event) stage ∧
      ∀ j, (m.step event).handler j = m.handler j ∨ (m.step event).handler j = .halt ∨
        (D j).ready (stage j) = false := by
  have hresume : ∀ (i : ι) (p : Atomic σ ω η κ ε α) (locks : κ → Option ι),
      p.Follows (D i) (fun _ _ => True) (stage i) →
      (p = .halt ∨ (D i).ready (stage i) = false) →
      Follows D ({ m with locks := locks }.resume i p) stage ∧
        ∀ j, ({ m with locks := locks }.resume i p).handler j = m.handler j ∨
          ({ m with locks := locks }.resume i p).handler j = .halt ∨
          (D j).ready (stage j) = false := by
    intro i p locks hp hready
    refine ⟨h.resume hp m.store locks, ?_⟩
    intro j
    rw [handler_resume]
    by_cases hj : j = i
    · rw [if_pos hj, hj]
      exact Or.inr hready
    · rw [if_neg hj]
      exact Or.inl rfl
  cases event with
  | drop i =>
      by_cases hdone : (m.handler i).isDone = true
      · have hstep : m.step (.drop i : PoolEvent ι η) = m := if_pos hdone
        rw [hstep]
        exact ⟨rfl, h, fun j => Or.inl rfl⟩
      · have hstep : m.step (.drop i : PoolEvent ι η) = m.resume i .halt := if_neg hdone
        rw [hstep]
        exact ⟨rfl, hresume i .halt m.locks trivial (Or.inl rfl)⟩
  | run i x =>
      have hi := h i
      simp only [step, Pool.run]
      rw [Pool.performed] at hsilent
      cases hp : m.handler i with
      | ret a => exact ⟨rfl, h, fun j => Or.inl rfl⟩
      | fail e => exact ⟨rfl, h, fun j => Or.inl rfl⟩
      | halt => exact ⟨rfl, h, fun j => Or.inl rfl⟩
      | input k =>
          rw [hp] at hi
          exact ⟨rfl, hresume i (k x) m.locks (hi.2 x) (Or.inr hi.1)⟩
      | access o k =>
          rw [hp] at hsilent
          simp [Atomic.atHand] at hsilent
      | lock key rest =>
          rw [hp] at hi
          by_cases hfree : m.locks key = none
          · simp only [hfree, if_true]
            exact ⟨rfl, hresume i rest _ hi.2 (Or.inr hi.1)⟩
          · simp only [hfree, if_false]
            exact ⟨trivial, h, fun j => Or.inl trivial⟩
      | unlock key rest =>
          rw [hp] at hi
          exact ⟨rfl, hresume i rest _ hi.2 (Or.inr hi.1)⟩

theorem Follows.access (h : Follows D m stage) {event : PoolEvent ι η} {i : ι} {o : ω}
    (hperformed : m.performed event = some (i, o)) :
    ∃ after, (D i).next (stage i) o m.store = some after ∧
      (m.step event).store = Access.perform o m.store ∧
      Follows D (m.step event) (Function.update stage i after) ∧
      ∀ j, j ≠ i → (m.step event).handler j = m.handler j := by
  have hhand := atHand_of_performed hperformed
  cases event with
  | drop i' => simp [Pool.performed] at hperformed
  | run i' x =>
      obtain ⟨o', -, hio⟩ := Option.map_eq_some_iff.mp hperformed
      obtain ⟨rfl, -⟩ := Prod.mk.inj hio
      obtain ⟨k, hk⟩ := Atomic.eq_access_of_atHand hhand
      have hi := h i'
      rw [hk] at hi
      obtain ⟨after, hnext, hrest⟩ := hi m.store
      simp only [step, Pool.run, hk]
      refine ⟨after, hnext, rfl, ?_, ?_⟩
      · intro j
        rw [handler_resume]
        by_cases hj : j = i'
        · rw [if_pos hj, hj, Function.update_self]
          exact hrest
        · rw [if_neg hj, Function.update_of_ne hj]
          exact h j
      · intro j hj
        rw [handler_resume, if_neg hj]

end Pool

end DidHosting
