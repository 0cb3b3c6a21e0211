import DidHosting.Support.Faults
import DidHosting.Support.Interleaving

/-!
# Serial executions

If a thread only begins while no other is under way, an interleaved run is a
sequential one: the operations that succeeded, in the order in which they
returned.  Threads that begin with one common lock keep that discipline by
themselves; for the others it is a condition on the schedule.
-/

namespace DidHosting

theorem Prog.eq_of_isDone {σ ω κ ε α : Type} {p : Prog σ ω κ ε α} (h : p.isDone = true) :
    (∃ a, p = .ret a) ∨ ∃ e, p = .fail e := by
  cases p with
  | ret a => exact Or.inl ⟨a, rfl⟩
  | fail e => exact Or.inr ⟨e, rfl⟩
  | _ => contradiction

namespace Machine

variable {ι σ ω κ ε α : Type} [DecidableEq ι] [DecidableEq κ] [WriteBatch σ ω]

/-- The store after the operations of `order`, one after the other. -/
def sequential (progs : ι → Prog σ ω κ ε α) (s : σ) (order : List ι) : σ :=
  Run.exec (fun s i => ((progs i).run s).2) s order

/-- Thread `i` begins with this step. -/
def Begins (m : Machine ι σ ω κ ε α) (i : ι) : Prop :=
  (m.thread i).begun = false ∧ ((m.step i).thread i).begun = true

/-- The machine has run the operations of `order`, each of which returned, and at
most one more is under way. -/
structure Serial (progs : ι → Prog σ ω κ ε α) (s₀ : σ) (m : Machine ι σ ω κ ε α)
    (order : List ι) : Prop where
  nodup : order.Nodup
  succeeded : ∀ i, i ∈ order ↔ m.Succeeded i
  fresh : ∀ i, (m.thread i).begun = false → (m.thread i).prog = progs i
  live : ∀ i, (m.thread i).begun = true → (progs i).isDone = false
  alone : ∀ i j, m.Active i → m.Active j → i = j
  idle : (∀ i, ¬ m.Active i) → m.store = sequential progs s₀ order
  active : ∀ i, m.Active i →
    (m.thread i).prog.run m.store = (progs i).run (sequential progs s₀ order)
  returned : ∀ before i after, order = before ++ i :: after →
    ∃ a, ((progs i).run (sequential progs s₀ before)).1 = .ok a

section

variable {progs : ι → Prog σ ω κ ε α} {s₀ : σ} {m : Machine ι σ ω κ ε α} {i : ι}

theorem step_run (m : Machine ι σ ω κ ε α) (i : ι) :
    m.step i = m ∨
      ((m.thread i).prog.isDone = false ∧ ((m.step i).thread i).begun = true ∧
        ((m.step i).thread i).prog.run (m.step i).store =
          (m.thread i).prog.run m.store) := by
  cases hp : (m.thread i).prog with
  | ret a => exact Or.inl (step_of_done (by rw [hp]; rfl))
  | fail e => exact Or.inl (step_of_done (by rw [hp]; rfl))
  | ask k =>
      right
      rw [step_of_ask hp, resume_thread_self]
      exact ⟨rfl, rfl, rfl⟩
  | commit w next =>
      right
      rw [step_of_commit hp, resume_thread_self]
      exact ⟨rfl, rfl, rfl⟩
  | lock key next =>
      cases hlock : m.locks key with
      | some j => exact Or.inl (step_of_lock_held hp hlock)
      | none =>
          right
          rw [step_of_lock_free hp hlock, resume_thread_self]
          exact ⟨rfl, rfl, rfl⟩
  | unlock key next =>
      right
      rw [step_of_unlock hp, resume_thread_self]
      exact ⟨rfl, rfl, rfl⟩

theorem active_step_ne {j : ι} (hne : j ≠ i) : (m.step i).Active j ↔ m.Active j := by
  unfold Active
  rw [step_thread_ne hne]

theorem succeeded_step_ne {j : ι} (hne : j ≠ i) :
    (m.step i).Succeeded j ↔ m.Succeeded j := by
  unfold Succeeded
  rw [step_thread_ne hne]

/-- The thread that steps continues its run from the store of the sequential
execution. -/
theorem Serial.run_eq {order : List ι} (h : Serial progs s₀ m order)
    (hbegin : m.Begins i → ∀ j, ¬ m.Active j) (hdone : (m.thread i).prog.isDone = false)
    (hbegun : ((m.step i).thread i).begun = true) :
    (m.thread i).prog.run m.store = (progs i).run (sequential progs s₀ order) := by
  cases hb : (m.thread i).begun with
  | true => exact h.active i ⟨hb, hdone⟩
  | false => rw [h.fresh i hb, h.idle (hbegin ⟨hb, hbegun⟩)]

/-- No other thread is under way when a thread takes a step. -/
theorem Serial.others_idle {order : List ι} (h : Serial progs s₀ m order)
    (hbegin : m.Begins i → ∀ j, ¬ m.Active j) (hdone : (m.thread i).prog.isDone = false)
    (hbegun : ((m.step i).thread i).begun = true) {j : ι} (hne : j ≠ i) : ¬ m.Active j := by
  intro hj
  cases hb : (m.thread i).begun with
  | true => exact hne (h.alone j i hj ⟨hb, hdone⟩)
  | false => exact hbegin ⟨hb, hbegun⟩ j hj

theorem Serial.fresh_step {order : List ι} (h : Serial progs s₀ m order)
    (hbegun : ((m.step i).thread i).begun = true) (j : ι)
    (hj : ((m.step i).thread j).begun = false) : ((m.step i).thread j).prog = progs j := by
  by_cases hji : j = i
  · subst hji
    rw [hbegun] at hj
    contradiction
  · rw [step_thread_ne hji] at hj ⊢
    exact h.fresh j hj

theorem Serial.live_step {order : List ι} (h : Serial progs s₀ m order)
    (hdone : (m.thread i).prog.isDone = false) (j : ι)
    (hj : ((m.step i).thread j).begun = true) : (progs j).isDone = false := by
  by_cases hji : j = i
  · subst hji
    cases hb : (m.thread j).begun with
    | true => exact h.live j hb
    | false => rwa [← h.fresh j hb]
  · rw [step_thread_ne hji] at hj
    exact h.live j hj

/-- A step in which no thread returns leaves the operations of the order. -/
theorem Serial.succeeded_step {order : List ι} (h : Serial progs s₀ m order)
    (hbefore : ¬ m.Succeeded i) (hafter : ¬ (m.step i).Succeeded i) (j : ι) :
    j ∈ order ↔ (m.step i).Succeeded j := by
  rw [h.succeeded j]
  by_cases hji : j = i
  · rw [hji]
    exact iff_of_false hbefore hafter
  · exact (succeeded_step_ne hji).symm

theorem Serial.goes_on {order : List ι} (h : Serial progs s₀ m order)
    (hdone : (m.thread i).prog.isDone = false)
    (hbegun : ((m.step i).thread i).begun = true) (hbefore : ¬ m.Succeeded i)
    (hothers : ∀ j, j ≠ i → ¬ (m.step i).Active j)
    (hd : ((m.step i).thread i).prog.isDone = false)
    (hseq : ((m.step i).thread i).prog.run (m.step i).store =
      (progs i).run (sequential progs s₀ order)) : Serial progs s₀ (m.step i) order := by
  have honly : ∀ j, (m.step i).Active j → j = i := by
    intro j hj
    by_contra hji
    exact hothers j hji hj
  refine ⟨h.nodup, h.succeeded_step hbefore ?_, h.fresh_step hbegun, h.live_step hdone, ?_, ?_,
    ?_, h.returned⟩
  · rintro ⟨-, a, ha⟩
    rw [ha] at hd
    contradiction
  · intro j k hj hk
    rw [honly j hj, honly k hk]
  · intro hnone
    exact absurd ⟨hbegun, hd⟩ (hnone i)
  · intro j hj
    rw [honly j hj]
    exact hseq

/-- The thread has returned and is the last of the new order. -/
theorem Serial.returns {order : List ι} (h : Serial progs s₀ m order)
    (hdone : (m.thread i).prog.isDone = false)
    (hbegun : ((m.step i).thread i).begun = true) (hbefore : ¬ m.Succeeded i)
    (hnone : ∀ j, ¬ (m.step i).Active j) {a : α}
    (hp : ((m.step i).thread i).prog = .ret a)
    (hseq : (.ok a, (m.step i).store) = (progs i).run (sequential progs s₀ order)) :
    Serial progs s₀ (m.step i) (order ++ [i]) := by
  have hstore : (m.step i).store = ((progs i).run (sequential progs s₀ order)).2 := by
    rw [← hseq]
  refine ⟨?_, ?_, h.fresh_step hbegun, h.live_step hdone, fun j k hj => absurd hj (hnone j), ?_,
    fun j hj => absurd hj (hnone j), ?_⟩
  · rw [List.nodup_append]
    refine ⟨h.nodup, List.pairwise_singleton _ i, ?_⟩
    intro j hj k hk hjk
    rw [hjk, List.mem_singleton.mp hk] at hj
    exact hbefore ((h.succeeded i).mp hj)
  · intro j
    rw [List.mem_append, List.mem_singleton]
    by_cases hji : j = i
    · subst hji
      exact ⟨fun _ => ⟨hbegun, a, hp⟩, fun _ => Or.inr rfl⟩
    · rw [succeeded_step_ne hji, h.succeeded j]
      simp [hji]
  · intro _
    rw [hstore, sequential, sequential, Run.exec_append, Run.exec_cons, Run.exec_nil]
  · intro before j after horder
    rcases List.eq_nil_or_concat after with rfl | ⟨init, k, rfl⟩
    · obtain ⟨rfl, hlast⟩ := List.append_inj' horder rfl
      cases hlast
      exact ⟨a, (congrArg Prod.fst hseq).symm⟩
    · rw [List.concat_eq_append, ← List.cons_append, ← List.append_assoc] at horder
      exact h.returned before j init (List.append_inj' horder rfl).1

theorem Serial.fails {order : List ι}
    (hfail : ∀ i s e t, (progs i).run s = (.error e, t) → t = s)
    (h : Serial progs s₀ m order) (hdone : (m.thread i).prog.isDone = false)
    (hbegun : ((m.step i).thread i).begun = true) (hbefore : ¬ m.Succeeded i)
    (hnone : ∀ j, ¬ (m.step i).Active j) {e : ε}
    (hp : ((m.step i).thread i).prog = .fail e)
    (hseq : (.error e, (m.step i).store) = (progs i).run (sequential progs s₀ order)) :
    Serial progs s₀ (m.step i) order := by
  refine ⟨h.nodup, h.succeeded_step hbefore ?_, h.fresh_step hbegun, h.live_step hdone,
    fun j k hj => absurd hj (hnone j), fun _ => hfail i _ e _ hseq.symm,
    fun j hj => absurd hj (hnone j), h.returned⟩
  rintro ⟨-, a, ha⟩
  rw [hp] at ha
  contradiction

/-- A step leaves the machine, or is one of the thread that alone is under way; this may
have returned by it. -/
theorem serial_step {order : List ι}
    (hfail : ∀ i s e t, (progs i).run s = (.error e, t) → t = s)
    (h : Serial progs s₀ m order) (hbegin : m.Begins i → ∀ j, ¬ m.Active j) :
    m.step i = m ∨
      ((m.Active i ∨ m.Begins i) ∧
        ((Serial progs s₀ (m.step i) order ∧
            ∀ j, (m.step i).Active j → j = i) ∨
          (Serial progs s₀ (m.step i) (order ++ [i]) ∧ ∀ j, ¬ (m.step i).Active j))) := by
  rcases step_run m i with hidle | ⟨hdone, hbegun, hrun⟩
  · exact Or.inl hidle
  right
  have hseq := h.run_eq hbegin hdone hbegun
  rw [← hrun] at hseq
  have hothers : ∀ j, j ≠ i → ¬ (m.step i).Active j := by
    intro j hne hj
    exact h.others_idle hbegin hdone hbegun hne ((active_step_ne hne).mp hj)
  have hbefore : ¬ m.Succeeded i := by
    rintro ⟨-, a, ha⟩
    rw [ha] at hdone
    contradiction
  have hself : m.Active i ∨ m.Begins i := by
    cases hb : (m.thread i).begun with
    | true => exact Or.inl ⟨hb, hdone⟩
    | false => exact Or.inr ⟨hb, hbegun⟩
  refine ⟨hself, ?_⟩
  cases hd : ((m.step i).thread i).prog.isDone with
  | false =>
      refine Or.inl ⟨h.goes_on hdone hbegun hbefore hothers hd hseq, fun j hj => ?_⟩
      by_contra hji
      exact hothers j hji hj
  | true =>
      have hnone : ∀ j, ¬ (m.step i).Active j := by
        intro j hj
        by_cases hji : j = i
        · subst hji
          rw [hj.2] at hd
          contradiction
        · exact hothers j hji hj
      rcases Prog.eq_of_isDone hd with ⟨a, hp⟩ | ⟨e, hp⟩
      · rw [hp] at hseq
        exact Or.inr ⟨h.returns hdone hbegun hbefore hnone hp hseq, hnone⟩
      · rw [hp] at hseq
        exact Or.inl ⟨h.fails hfail hdone hbegun hbefore hnone hp hseq,
          fun j hj => absurd hj (hnone j)⟩

omit [DecidableEq ι] [DecidableEq κ] in
theorem serial_start (progs : ι → Prog σ ω κ ε α) (s₀ : σ) :
    Serial progs s₀ (start s₀ progs) [] := by
  have hnone : ∀ i, ¬ (start s₀ progs).Active i := fun i hi => Bool.false_ne_true hi.1
  refine ⟨List.nodup_nil, ?_, fun _ _ => rfl, fun i hi => absurd hi Bool.false_ne_true,
    fun i _ hi => absurd hi (hnone i), ?_, fun i hi => absurd hi (hnone i), by simp⟩
  · intro i
    constructor
    · intro hi
      contradiction
    · intro hi
      exact absurd hi.1 Bool.false_ne_true
  · intro _
    exact (Run.exec_nil ..).symm

/-! ## Locks -/

/-- A thread that begins with a lock, and never releases it, holds it while it
is under way. -/
def HoldsLocks (progs : ι → Prog σ ω κ ε α) (m : Machine ι σ ω κ ε α) : Prop :=
  ∀ i key next, progs i = .lock key next → next.Keeps key → m.Active i →
    (m.thread i).prog.Keeps key ∧ m.locks key = some i

/-- A thread that never releases a lock does not come to. -/
theorem step_keeps {key : κ} (h : (m.thread i).prog.Keeps key) :
    ((m.step i).thread i).prog.Keeps key := by
  cases hp : (m.thread i).prog with
  | ret a =>
      rw [step_of_done (by rw [hp]; rfl)]
      exact h
  | fail e =>
      rw [step_of_done (by rw [hp]; rfl)]
      exact h
  | ask k =>
      rw [hp] at h
      rw [step_of_ask hp, resume_thread_self]
      exact h m.store
  | commit w next =>
      rw [hp] at h
      rw [step_of_commit hp, resume_thread_self]
      exact h
  | lock key' next =>
      cases hlock : m.locks key' with
      | some j =>
          rw [step_of_lock_held hp hlock]
          exact h
      | none =>
          rw [hp] at h
          rw [step_of_lock_free hp hlock, resume_thread_self]
          exact h
  | unlock key' next =>
      rw [hp] at h
      rw [step_of_unlock hp, resume_thread_self]
      exact h.2

/-- A lock stays with a thread that goes on and does not release it. -/
theorem step_locks_self {key : κ} (h : m.locks key = some i)
    (hkeeps : (m.thread i).prog.Keeps key)
    (hgoes : ((m.step i).thread i).prog.isDone = false) : (m.step i).locks key = some i := by
  cases hp : (m.thread i).prog with
  | ret a =>
      rw [step_of_done (by rw [hp]; rfl)]
      exact h
  | fail e =>
      rw [step_of_done (by rw [hp]; rfl)]
      exact h
  | ask k =>
      rw [step_of_ask hp, resume_thread_self] at hgoes
      rw [step_of_ask hp, resume_locks_of_not_done hgoes]
      exact h
  | commit w next =>
      rw [step_of_commit hp, resume_thread_self] at hgoes
      rw [step_of_commit hp, resume_locks_of_not_done hgoes]
      exact h
  | lock key' next =>
      cases hlock : m.locks key' with
      | some j =>
          rw [step_of_lock_held hp hlock]
          exact h
      | none =>
          have hne : key ≠ key' := by
            rintro rfl
            rw [h] at hlock
            contradiction
          rw [step_of_lock_free hp hlock, resume_thread_self] at hgoes
          rw [step_of_lock_free hp hlock, resume_locks_of_not_done hgoes]
          change Function.update m.locks key' (some i) key = some i
          rw [Function.update_of_ne hne, h]
  | unlock key' next =>
      rw [hp] at hkeeps
      have hne : key ≠ key' := hkeeps.1.symm
      rw [step_of_unlock hp, resume_thread_self] at hgoes
      rw [step_of_unlock hp, resume_locks_of_not_done hgoes]
      change (if m.locks key' = some i then Function.update m.locks key' none
        else m.locks) key = some i
      split
      · rw [Function.update_of_ne hne, h]
      · exact h

theorem holdsLocks_step (hfresh : ∀ i, (m.thread i).begun = false → (m.thread i).prog = progs i)
    (h : HoldsLocks progs m) : HoldsLocks progs (m.step i) := by
  intro j key next hprog hnext hactive
  by_cases hji : j = i
  · subst hji
    cases hb : (m.thread j).begun with
    | true =>
        cases hd : (m.thread j).prog.isDone with
        | true =>
            have hsame := step_of_done hd
            rw [hsame] at hactive ⊢
            exact h j key next hprog hnext hactive
        | false =>
            obtain ⟨hkeeps, hheld⟩ := h j key next hprog hnext ⟨hb, hd⟩
            exact ⟨step_keeps hkeeps, step_locks_self hheld hkeeps hactive.2⟩
    | false =>
        have hp := hfresh j hb
        rw [hprog] at hp
        cases hlock : m.locks key with
        | some k =>
            rw [step_of_lock_held hp hlock] at hactive
            rw [hactive.1] at hb
            contradiction
        | none =>
            have hd := hactive.2
            rw [step_of_lock_free hp hlock, resume_thread_self] at hd
            rw [step_of_lock_free hp hlock, resume_thread_self, resume_locks_of_not_done hd]
            exact ⟨hnext, Function.update_self ..⟩
  · obtain ⟨hkeeps, hheld⟩ := h j key next hprog hnext ((active_step_ne hji).mp hactive)
    rw [step_thread_ne hji]
    exact ⟨hkeeps, step_locks_ne hji hheld⟩

theorem Begins.lock_free {key : κ} {next : Prog σ ω κ ε α} (h : m.Begins i)
    (hprog : (m.thread i).prog = .lock key next) : m.locks key = none := by
  cases hlock : m.locks key with
  | none => rfl
  | some j =>
      have hbegun := h.2
      rw [step_of_lock_held hprog hlock, h.1] at hbegun
      contradiction

/-- The condition on a schedule in which the threads of `guarded` share a lock: a
thread begins only beside guarded ones, and only if it is guarded itself. -/
def Separate (guarded : ι → Prop) (m : Machine ι σ ω κ ε α) (i : ι) : Prop :=
  m.Begins i → ∀ j, m.Active j → guarded i ∧ guarded j

/-- A serial machine whose operations keep `Inv` where they meet `cond`.  A thread that
returns after its first commit has not committed while it is under way. -/
structure SerialInv (progs : ι → Prog σ ω κ ε α) (s₀ : σ) (cond : ι → σ → Prop)
    (Inv : σ → Prop) (m : Machine ι σ ω κ ε α) (order : List ι) : Prop where
  serial : Serial progs s₀ m order
  inv : Inv (sequential progs s₀ order)
  meets : ∀ i, m.Active i → cond i (sequential progs s₀ order)
  uncommitted : ∀ i, m.Active i → (progs i).CommitsLast →
    (m.thread i).prog.CommitsLast ∧ m.store = sequential progs s₀ order

/-- A thread that goes on, and returns after its first commit, has not committed. -/
theorem commitsLast_step (h : (m.thread i).prog.CommitsLast)
    (hgoes : ((m.step i).thread i).prog.isDone = false) :
    ((m.step i).thread i).prog.CommitsLast ∧ (m.step i).store = m.store := by
  cases hp : (m.thread i).prog with
  | ret a =>
      rw [step_of_done (by rw [hp]; rfl)]
      exact ⟨h, rfl⟩
  | fail e =>
      rw [step_of_done (by rw [hp]; rfl)]
      exact ⟨h, rfl⟩
  | ask k =>
      rw [hp] at h
      rw [step_of_ask hp, resume_thread_self]
      exact ⟨h m.store, rfl⟩
  | commit w next =>
      rw [hp] at h
      obtain ⟨a, rfl⟩ := h
      rw [step_of_commit hp, resume_thread_self] at hgoes
      cases hgoes
  | lock key next =>
      cases hlock : m.locks key with
      | some j =>
          rw [step_of_lock_held hp hlock]
          exact ⟨h, rfl⟩
      | none =>
          rw [hp] at h
          rw [step_of_lock_free hp hlock, resume_thread_self]
          exact ⟨h, rfl⟩
  | unlock key next =>
      rw [hp] at h
      rw [step_of_unlock hp, resume_thread_self]
      exact ⟨h, rfl⟩

theorem SerialInv.step {cond : ι → σ → Prop} {Inv : σ → Prop} {order : List ι}
    (hfail : ∀ i s e t, (progs i).run s = (.error e, t) → t = s)
    (hkeeps : ∀ i s, cond i s → Inv s → Inv ((progs i).run s).2)
    (h : SerialInv progs s₀ cond Inv m order) (hbegin : m.Begins i → ∀ j, ¬ m.Active j)
    (hcond : m.Begins i → cond i m.store) :
    ∃ order', SerialInv progs s₀ cond Inv (m.step i) order' := by
  rcases serial_step hfail h.serial hbegin with hsame | ⟨hself, hnext⟩
  · rw [hsame]
    exact ⟨order, h⟩
  have hmeets : cond i (sequential progs s₀ order) := by
    rcases hself with hactive | hbegins
    · exact h.meets i hactive
    · rw [← h.serial.idle (hbegin hbegins)]
      exact hcond hbegins
  have hstore : (progs i).CommitsLast →
      (m.thread i).prog.CommitsLast ∧ m.store = sequential progs s₀ order := by
    intro hlast
    rcases hself with hactive | hbegins
    · exact h.uncommitted i hactive hlast
    · rw [h.serial.fresh i hbegins.1]
      exact ⟨hlast, h.serial.idle (hbegin hbegins)⟩
  rcases hnext with ⟨hserial, honly⟩ | ⟨hserial, hnone⟩
  · refine ⟨order, hserial, h.inv, ?_, ?_⟩
    · intro j hj
      rw [honly j hj]
      exact hmeets
    · intro j hj hlast
      obtain rfl := honly j hj
      obtain ⟨hprog, hsame⟩ := hstore hlast
      obtain ⟨hprog', hsame'⟩ := commitsLast_step hprog hj.2
      exact ⟨hprog', hsame'.trans hsame⟩
  · refine ⟨order ++ [i], hserial, ?_, fun j hj => absurd hj (hnone j),
      fun j hj => absurd hj (hnone j)⟩
    rw [sequential, Run.exec_concat]
    exact hkeeps i _ hmeets h.inv

/-- Every run in which threads begin separately, and where they meet `cond`, is serial. -/
theorem serial_exec_inv {guarded : ι → Prop} {key : κ} {cond : ι → σ → Prop} {Inv : σ → Prop}
    (hguarded : ∀ i, guarded i → (∃ next, progs i = .lock key next ∧ next.Keeps key) ∨
      (progs i).isDone = true)
    (hfail : ∀ i s e t, (progs i).run s = (.error e, t) → t = s)
    (hkeeps : ∀ i s, cond i s → Inv s → Inv ((progs i).run s).2) (hinv : Inv s₀)
    {schedule : List ι}
    (hok : Run.Meets step (Separate guarded) (start s₀ progs) schedule)
    (hcond : Run.Meets step (fun m i => m.Begins i → cond i m.store) (start s₀ progs)
      schedule) :
    ∃ order, SerialInv progs s₀ cond Inv (Run.exec step (start s₀ progs) schedule) order := by
  have hnone : ∀ i, ¬ (start s₀ progs).Active i := fun i hi => Bool.false_ne_true hi.1
  have hstart : SerialInv progs s₀ cond Inv (start s₀ progs) [] :=
    ⟨serial_start progs s₀, hinv, fun i hi => absurd hi (hnone i),
      fun i hi => absurd hi (hnone i)⟩
  have hlocks : HoldsLocks progs (start s₀ progs) := fun i _ _ _ _ hi => absurd hi (hnone i)
  have hstep : ∀ (m : Machine ι σ ω κ ε α) (i : ι),
      (Separate guarded m i ∧ (m.Begins i → cond i m.store)) →
      (∃ order, SerialInv progs s₀ cond Inv m order) ∧ HoldsLocks progs m →
      (∃ order, SerialInv progs s₀ cond Inv (m.step i) order) ∧ HoldsLocks progs (m.step i) := by
    rintro m i ⟨hsep, hmeets⟩ ⟨⟨order, hserial⟩, hlocks⟩
    refine ⟨hserial.step hfail hkeeps ?_ hmeets, holdsLocks_step hserial.serial.fresh hlocks⟩
    intro hbegins j hj
    obtain ⟨hgi, hgj⟩ := hsep hbegins j hj
    have hi := hserial.serial.fresh i hbegins.1
    rcases hguarded i hgi with ⟨next, hprog, -⟩ | hdone
    · rw [hprog] at hi
      rcases hguarded j hgj with ⟨next', hprog', hkeeps⟩ | hdone'
      · -- both need the lock, and `j` holds it
        obtain ⟨-, hheld⟩ := hlocks j key next' hprog' hkeeps hj
        rw [hbegins.lock_free hi] at hheld
        contradiction
      · rw [hserial.serial.live j hj.1] at hdone'
        contradiction
    · rw [← hi] at hdone
      have hbegun := hbegins.2
      rw [step_of_done hdone, hbegins.1] at hbegun
      contradiction
  exact (Run.exec_invariant hstep ⟨⟨[], hstart⟩, hlocks⟩ (hok.and hcond)).1

theorem serial_exec {guarded : ι → Prop} {key : κ}
    (hguarded : ∀ i, guarded i → (∃ next, progs i = .lock key next ∧ next.Keeps key) ∨
      (progs i).isDone = true)
    (hfail : ∀ i s e t, (progs i).run s = (.error e, t) → t = s) {schedule : List ι}
    (hok : Run.Meets step (Separate guarded) (start s₀ progs) schedule) :
    ∃ order, Serial progs s₀ (Run.exec step (start s₀ progs) schedule) order := by
  have hkeeps : ∀ (i : ι) (s : σ), (fun _ _ => True : ι → σ → Prop) i s →
      (fun _ => True : σ → Prop) s → (fun _ => True : σ → Prop) ((progs i).run s).2 :=
    fun _ _ _ _ => trivial
  obtain ⟨order, h⟩ := serial_exec_inv hguarded hfail hkeeps trivial hok
    (Run.meets_of_forall fun _ _ _ => trivial)
  exact ⟨order, h.serial⟩

/-! ## Schedules of whole operations -/

/-- The steps of one thread meet a condition on beginning where the first of them does. -/
theorem meets_begins_alone {R : Machine ι σ ω κ ε α → ι → Prop} (h : m.Begins i → R m i)
    {schedule : List ι} (halone : ∀ j ∈ schedule, j = i) :
    Run.Meets step (fun m i => m.Begins i → R m i) m schedule := by
  induction schedule generalizing m with
  | nil => trivial
  | cons j schedule ih =>
      obtain ⟨rfl, hrest⟩ := List.forall_mem_cons.mp halone
      refine ⟨h, ih ?_ hrest⟩
      rcases step_run m j with hidle | ⟨-, hbegun, -⟩
      · rw [hidle]
        exact h
      · intro hbegins
        rw [hbegins.1] at hbegun
        contradiction

/-- A thread that runs alone, and whose plan can commit, comes to its answer. -/
theorem exec_alone {key : Option κ} {q : Query σ ε (Option ω × α)} {w : ω} {a : α}
    (hprog : (m.thread i).prog = Prog.planned key q) (hfree : ∀ k, m.locks k = none)
    (hq : q.Yields {m.store} (some w, a)) :
    ∃ schedule, Returned m (Run.exec step m schedule) i w ∧
      ∀ R : Machine ι σ ω κ ε α → ι → Prop, (m.Begins i → R m i) →
        Run.Meets step (fun m i => m.Begins i → R m i) m schedule := by
  obtain ⟨schedule, halone, hreturned⟩ := exec_return hprog (fun k _ => hfree k)
    (fun k j hk => by rw [hfree k] at hk; cases hk) hq
  exact ⟨schedule, hreturned, fun R hR => meets_begins_alone hR halone⟩

omit [DecidableEq ι] [DecidableEq κ] [WriteBatch σ ω] in
theorem Succeeded.not_active (h : m.Succeeded i) : ¬ m.Active i := by
  rintro ⟨-, hgoes⟩
  obtain ⟨-, a, ha⟩ := h
  rw [ha] at hgoes
  cases hgoes

omit [DecidableEq ι] [DecidableEq κ] in
theorem Returned.idle {m' : Machine ι σ ω κ ε α} {w : ω} (h : Returned m m' i w)
    (hothers : ∀ j, j ≠ i → ¬ m.Active j) (j : ι) : ¬ m'.Active j := by
  by_cases hj : j = i
  · rw [hj]
    exact h.succeeded.not_active
  · unfold Active
    rw [h.others j hj]
    exact hothers j hj

/-- Two threads that want one lock: the second asks for it while the first is under
way, and has to wait. -/
theorem exec_contended {j : ι} {key : κ} {q q' : Query σ ε (Option ω × α)} {w : ω} {a : α}
    (hne : i ≠ j) (hi : (m.thread i).prog = Prog.planned (some key) q)
    (hj : (m.thread j).prog = Prog.planned (some key) q') (hfree : ∀ k, m.locks k = none)
    (hq : q.Yields {m.store} (some w, a)) :
    ∃ schedule, Returned m (Run.exec step m (i :: j :: schedule)) i w ∧
      (m.step i).Active i ∧ (∃ next, ((m.step i).thread j).prog = .lock key next) ∧
      ∀ R : Machine ι σ ω κ ε α → ι → Prop, (m.Begins i → R m i) →
        Run.Meets step (fun m i => m.Begins i → R m i) m (i :: j :: schedule) := by
  have hstep := step_of_lock_free (m := m) (i := i) hi (hfree key)
  have hself : (m.step i).thread i = ⟨Prog.commitPlan q, true, (m.thread i).seen⟩ := by
    rw [hstep, resume_thread_self]
  have hdone : (Prog.commitPlan q : Prog σ ω κ ε α).isDone = false :=
    commitPlan_isDone_of_yields hq
  have hlocks : (m.step i).locks = Function.update m.locks key (some i) := by
    rw [hstep, resume_locks_of_not_done hdone]
  have hstore : (m.step i).store = m.store := by
    rw [hstep]
    rfl
  have hother : (m.step i).thread j = m.thread j := step_thread_ne hne.symm
  have hblocked : (m.step i).step j = m.step i := by
    refine step_of_lock_held (hother ▸ hj) (j := i) ?_
    rw [hlocks, Function.update_self]
  have hnext : ((m.step i).thread i).prog = Prog.planned none q := by
    rw [hself]
    rfl
  have hmine : ∀ k l, (m.step i).locks k = some l → l = i := by
    intro k l hk
    rw [hlocks] at hk
    by_cases hkey : k = key
    · rw [hkey, Function.update_self] at hk
      exact (Option.some.inj hk).symm
    · rw [Function.update_of_ne hkey, hfree k] at hk
      cases hk
  rw [← hstore] at hq
  obtain ⟨schedule, halone, hreturned⟩ :=
    exec_return hnext (fun k hk => by cases hk) hmine hq
  refine ⟨schedule, ?_, ?_, ?_, ?_⟩
  · rw [Run.exec_cons, Run.exec_cons, hblocked]
    refine ⟨by rw [hreturned.store, hstore], hreturned.succeeded, ?_, hreturned.free⟩
    intro k hk
    rw [hreturned.others k hk, step_thread_ne hk]
  · exact ⟨by rw [hself], by rw [hself]; exact hdone⟩
  · exact ⟨Prog.commitPlan q', hother ▸ hj⟩
  · intro R hR
    have hbegun : ¬ (m.step i).Begins i := by
      intro hbegins
      have hfirst := hbegins.1
      rw [hself] at hfirst
      cases hfirst
    refine ⟨hR, ?_, ?_⟩
    · intro hbegins
      have hlast := hbegins.2
      rw [hblocked, hbegins.1] at hlast
      cases hlast
    · rw [hblocked]
      exact meets_begins_alone (fun hbegins => absurd hbegins hbegun) halone

end

end Machine

end DidHosting
