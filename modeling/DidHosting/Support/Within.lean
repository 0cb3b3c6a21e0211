import DidHosting.Support.Interleaving

/-!
# Operations among the stores of a set

An operation that can commit a batch in some stores only is judged in those: `Within V P Q`
says what it commits and returns when each of its reads is answered by a store of `V`.  If
the batches it may commit keep the set, all the operations of a machine that starts there
stay there together, in any order of their steps.
-/

namespace DidHosting

namespace Prog

variable {σ ω κ ε α β : Type}

/-- While every read is answered by a store of `V`, every batch satisfies `P` and the result
satisfies `Q`. -/
def Within (V : Set σ) (P : ω → Prop) (Q : α → Prop) : Prog σ ω κ ε α → Prop
  | ret a => Q a
  | fail _ => True
  | ask k => ∀ s ∈ V, Within V P Q (k s)
  | commit w next => P w ∧ Within V P Q next
  | lock _ next => Within V P Q next
  | unlock _ next => Within V P Q next

variable {V : Set σ} {P : ω → Prop} {Q : α → Prop} {R : β → Prop}

theorem within_bind {p : Prog σ ω κ ε α} {f : α → Prog σ ω κ ε β}
    (hp : p.Within V P Q) (hf : ∀ a, Q a → (f a).Within V P R) : (p >>= f).Within V P R := by
  change (p.bind f).Within V P R
  induction p with
  | ret a => exact hf a hp
  | fail e => trivial
  | ask k ih => exact fun s hs => ih s (hp s hs)
  | commit w next ih => exact ⟨hp.1, ih hp.2⟩
  | lock key next ih => exact ih hp
  | unlock key next ih => exact ih hp

theorem within_ofQuery {q : Query σ ε α} (h : ∀ a, q.Yields V a → Q a) :
    (ofQuery q : Prog σ ω κ ε α).Within V P Q := by
  induction q with
  | ret a => exact h a (Query.Yields.ret a)
  | fail e => trivial
  | ask k ih => exact fun s hs => ih s fun a ha => h a (Query.Yields.ask hs ha)

theorem within_check {x : Except ε α} (h : ∀ a, x = .ok a → Q a) :
    (check x : Prog σ ω κ ε α).Within V P Q := by
  cases x with
  | ok a => exact h a rfl
  | error e => trivial

theorem within_writeOpt {w : Option ω} {Q : Unit → Prop} (h : ∀ v, w = some v → P v)
    (hQ : Q ()) : (writeOpt w : Prog σ ω κ ε Unit).Within V P Q := by
  cases w with
  | none => exact hQ
  | some v => exact ⟨h v rfl, hQ⟩

/-- A planned operation commits and returns what its plan yields. -/
theorem within_planned {key : Option κ} {plan : Query σ ε (Option ω × α)}
    (h : ∀ w a, plan.Yields V (w, a) → (∀ v, w = some v → P v) ∧ Q a) :
    (planned key plan : Prog σ ω κ ε α).Within V P Q := by
  have hbody : (commitPlan plan : Prog σ ω κ ε α).Within V P Q := by
    refine within_bind (within_ofQuery fun r hr => h r.1 r.2 hr) ?_
    rintro ⟨w, a⟩ ⟨hw, ha⟩
    exact within_bind (within_writeOpt hw ha) fun _ ha => ha
  cases key with
  | none => exact hbody
  | some k => exact hbody

end Prog

namespace Machine

variable {ι σ ω κ ε α : Type} {V : Set σ} {P : ω → Prop} {Q : ι → α → Prop}

/-- The store is one of the set, and what is left of every operation is judged there. -/
structure AllWithin (V : Set σ) (P : ω → Prop) (Q : ι → α → Prop)
    (m : Machine ι σ ω κ ε α) : Prop where
  store : m.store ∈ V
  thread : ∀ i, (m.thread i).prog.Within V P (Q i)

theorem AllWithin.returned {m : Machine ι σ ω κ ε α} (h : AllWithin V P Q m) {i : ι} {a : α}
    (hret : (m.thread i).prog = .ret a) : Q i a := by
  have hi := h.thread i
  rw [hret] at hi
  exact hi

variable [DecidableEq ι]

theorem AllWithin.resume {m m' : Machine ι σ ω κ ε α} (h : AllWithin V P Q m) {i : ι}
    {p : Prog σ ω κ ε α} {seen : List σ} (hstore : m'.store ∈ V) (hthread : m'.thread = m.thread)
    (hp : p.Within V P (Q i)) : AllWithin V P Q (m'.resume i p seen) where
  store := hstore
  thread := by
    intro j
    by_cases hj : j = i
    · subst hj
      rw [resume_thread_self]
      exact hp
    · rw [resume_thread_ne hj, hthread]
      exact h.thread j

variable [DecidableEq κ] [WriteBatch σ ω]

/-- A step stays among the stores of the set. -/
theorem AllWithin.step (hkeep : ∀ w s, P w → s ∈ V → WriteBatch.commit w s ∈ V)
    {m : Machine ι σ ω κ ε α} (h : AllWithin V P Q m) (i : ι) : AllWithin V P Q (m.step i) := by
  have hi := h.thread i
  cases hprog : (m.thread i).prog with
  | ret a =>
      rw [step_of_done (by rw [hprog]; rfl)]
      exact h
  | fail e =>
      rw [step_of_done (by rw [hprog]; rfl)]
      exact h
  | ask k =>
      rw [step_of_ask hprog]
      rw [hprog] at hi
      exact h.resume h.store rfl (hi m.store h.store)
  | commit w next =>
      rw [step_of_commit hprog]
      rw [hprog] at hi
      exact h.resume (hkeep w m.store hi.1 h.store) rfl hi.2
  | lock key next =>
      rw [hprog] at hi
      cases hlock : m.locks key with
      | none =>
          rw [step_of_lock_free hprog hlock]
          exact h.resume h.store rfl hi
      | some j =>
          rw [step_of_lock_held hprog hlock]
          exact h
  | unlock key next =>
      rw [step_of_unlock hprog]
      rw [hprog] at hi
      exact h.resume h.store rfl hi

/-- Operations that keep the set stay among its stores, in any order of their steps. -/
theorem allWithin_exec (hkeep : ∀ w s, P w → s ∈ V → WriteBatch.commit w s ∈ V)
    {progs : ι → Prog σ ω κ ε α} (hprogs : ∀ i, (progs i).Within V P (Q i)) {s : σ} (hs : s ∈ V)
    (schedule : List ι) : AllWithin V P Q (Run.exec Machine.step (start s progs) schedule) :=
  Run.exec_invariant_of_step (fun _ i h => h.step hkeep i) schedule ⟨hs, hprogs⟩

end Machine

end DidHosting
