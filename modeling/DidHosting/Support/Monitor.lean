import DidHosting.Support.Interleaving

/-!
# Monitored operations

A monitor remembers something of the reads and the commits of an operation, and says which
commits it permits from there.  What it remembers of a thread can be related to the store, if
the commits of the other threads keep the relation.
-/

namespace DidHosting

/-- What is remembered of an operation, and the commits this permits. -/
structure Monitor (γ σ ω : Type) where
  read : γ → σ → γ
  wrote : γ → ω → γ
  permits : γ → ω → Prop

namespace Prog

variable {γ σ ω κ ε α β : Type} {M : Monitor γ σ ω} {V : Set σ} {g : γ}

/-- With reads answered from `V`, every commit is permitted by what is remembered, and the
result meets `Q`. -/
def Obeys (M : Monitor γ σ ω) (V : Set σ) : Prog σ ω κ ε α → γ → (α → γ → Prop) → Prop
  | ret a, g, Q => Q a g
  | fail _, _, _ => True
  | ask k, g, Q => ∀ s ∈ V, Obeys M V (k s) (M.read g s) Q
  | commit w next, g, Q => M.permits g w ∧ Obeys M V next (M.wrote g w) Q
  | lock _ next, g, Q => Obeys M V next g Q
  | unlock _ next, g, Q => Obeys M V next g Q

theorem obeys_mono {p : Prog σ ω κ ε α} {Q Q' : α → γ → Prop} (h : p.Obeys M V g Q)
    (hQ : ∀ a g, Q a g → Q' a g) : p.Obeys M V g Q' := by
  induction p generalizing g with
  | ret a => exact hQ a g h
  | fail e => trivial
  | ask k ih => exact fun s hs => ih s (h s hs)
  | commit w next ih => exact ⟨h.1, ih h.2⟩
  | lock key next ih => exact ih h
  | unlock key next ih => exact ih h

theorem obeys_bind {p : Prog σ ω κ ε α} {f : α → Prog σ ω κ ε β} {Q : β → γ → Prop}
    (h : p.Obeys M V g fun a g => (f a).Obeys M V g Q) : (p >>= f).Obeys M V g Q := by
  change (p.bind f).Obeys M V g Q
  induction p generalizing g with
  | ret a => exact h
  | fail e => trivial
  | ask k ih => exact fun s hs => ih s (h s hs)
  | commit w next ih => exact ⟨h.1, ih h.2⟩
  | lock key next ih => exact ih h
  | unlock key next ih => exact ih h

theorem obeys_read {f : σ → α} {Q : α → γ → Prop} (h : ∀ s ∈ V, Q (f s) (M.read g s)) :
    (liftM (Query.read f : Query σ ε α) : Prog σ ω κ ε α).Obeys M V g Q :=
  h

theorem obeys_write {w : ω} {Q : Unit → γ → Prop} (hw : M.permits g w) (hQ : Q () (M.wrote g w)) :
    (write w : Prog σ ω κ ε Unit).Obeys M V g Q :=
  ⟨hw, hQ⟩

theorem obeys_locked {key : κ} {p : Prog σ ω κ ε α} {Q : α → γ → Prop} (h : p.Obeys M V g Q) :
    (locked key p).Obeys M V g Q :=
  obeys_bind (obeys_mono h fun _ _ hQ => hQ)

end Prog

namespace Machine

variable {ι γ σ ω κ ε α : Type}

/-- Every thread obeys its monitor, and what the monitor remembers is true of what the thread
has read and of the store. -/
def Monitored (M : ι → Monitor γ σ ω) (V : Set σ) (R : ι → γ → List σ → σ → Prop)
    (m : Machine ι σ ω κ ε α) : Prop :=
  ∃ g : ι → γ, ∀ i, (m.thread i).prog.Obeys (M i) V (g i) (fun _ _ => True) ∧
    R i (g i) (m.thread i).seen m.store

variable {M : ι → Monitor γ σ ω} {V : Set σ} {R : ι → γ → List σ → σ → Prop}
  {m : Machine ι σ ω κ ε α}

theorem monitored_start {s : σ} {progs : ι → Prog σ ω κ ε α} (g : ι → γ)
    (hprogs : ∀ i, (progs i).Obeys (M i) V (g i) fun _ _ => True) (hR : ∀ i, R i (g i) [] s) :
    (start s progs).Monitored M V R :=
  ⟨g, fun i => ⟨hprogs i, hR i⟩⟩

/-- A commit that is about to be made is permitted. -/
theorem Monitored.commit (h : m.Monitored M V R) {i : ι} {w : ω} {next : Prog σ ω κ ε α}
    (hp : (m.thread i).prog = .commit w next) :
    ∃ g, R i g (m.thread i).seen m.store ∧ (M i).permits g w := by
  obtain ⟨g, hg⟩ := h
  obtain ⟨hobeys, hR⟩ := hg i
  rw [hp] at hobeys
  exact ⟨g i, hR, hobeys.1⟩

variable [DecidableEq ι]

/-- Thread `i` goes on with `p`, of which `next` is remembered. -/
theorem Monitored.resume {g : ι → γ} {s : σ} {locks : κ → Option ι} {i : ι}
    {p : Prog σ ω κ ε α} {next : γ} {seen : List σ}
    (hg : ∀ j, (m.thread j).prog.Obeys (M j) V (g j) fun _ _ => True)
    (hp : p.Obeys (M i) V next fun _ _ => True) (hself : R i next seen s)
    (hothers : ∀ j, j ≠ i → R j (g j) (m.thread j).seen s) :
    Monitored M V R (({ m with store := s, locks := locks } : Machine ι σ ω κ ε α).resume i p
      seen) := by
  refine ⟨Function.update g i next, fun j => ?_⟩
  by_cases hj : j = i
  · subst hj
    rw [resume_thread_self, Function.update_self]
    exact ⟨hp, hself⟩
  · rw [resume_thread_ne hj, Function.update_of_ne hj]
    exact ⟨hg j, hothers j hj⟩

variable [DecidableEq κ] [WriteBatch σ ω]

/-- The step rule: a read and a commit leave what is remembered of the thread true, and a
commit what is remembered of the others. -/
theorem Monitored.step (h : m.Monitored M V R) (i : ι) (hV : m.store ∈ V)
    (hread : ∀ g seen, R i g seen m.store →
      R i ((M i).read g m.store) (m.store :: seen) m.store)
    (hcommit : ∀ w g seen, R i g seen m.store → (M i).permits g w →
      R i ((M i).wrote g w) seen (WriteBatch.commit w m.store) ∧
        ∀ j, j ≠ i → ∀ g' seen', R j g' seen' m.store →
          R j g' seen' (WriteBatch.commit w m.store)) :
    (m.step i).Monitored M V R := by
  obtain ⟨g, hg⟩ := h
  have hall := fun j => (hg j).1
  obtain ⟨hi, hR⟩ := hg i
  cases hp : (m.thread i).prog with
  | ret a =>
      rw [step_of_done (by rw [hp]; rfl)]
      exact ⟨g, hg⟩
  | fail e =>
      rw [step_of_done (by rw [hp]; rfl)]
      exact ⟨g, hg⟩
  | ask k =>
      rw [hp] at hi
      rw [step_of_ask hp]
      exact Monitored.resume hall (hi m.store hV) (hread _ _ hR) fun j _ => (hg j).2
  | commit w next =>
      rw [hp] at hi
      rw [step_of_commit hp]
      obtain ⟨hself, hothers⟩ := hcommit w _ _ hR hi.1
      exact Monitored.resume hall hi.2 hself fun j hj => hothers j hj _ _ (hg j).2
  | lock key next =>
      rw [hp] at hi
      cases hlock : m.locks key with
      | some j =>
          rw [step_of_lock_held hp hlock]
          exact ⟨g, hg⟩
      | none =>
          rw [step_of_lock_free hp hlock]
          exact Monitored.resume hall hi hR fun j _ => (hg j).2
  | unlock key next =>
      rw [hp] at hi
      rw [step_of_unlock hp]
      exact Monitored.resume hall hi hR fun j _ => (hg j).2

end Machine

end DidHosting
