import DidHosting.Support.Prog
import DidHosting.Support.Run
import Mathlib.Logic.Function.Basic

/-!
# Interleaved operations

A machine runs one operation per thread against a shared store.  A schedule
names the thread that takes the next step: one read, one commit, or the
acquisition or release of a lock.  A thread gives up its locks when its
operation returns.  A thread that has returned or waits for a lock does nothing.

Each thread remembers the stores its reads were answered by.  The rule
`guarded_step` is for threads that plan under a lock: what a thread has read
stays true of the store up to its commit, provided the commits of the others
keep it, and the commit can then be judged in the store it is made in.
-/

namespace DidHosting

/-- The operation has returned. -/
def Prog.isDone {σ ω κ ε α : Type} : Prog σ ω κ ε α → Bool
  | .ret _ => true
  | .fail _ => true
  | _ => false

/-- What is left of an operation, whether it has taken a step, and the stores it
has read. -/
structure Thread (σ ω κ ε α : Type) where
  prog : Prog σ ω κ ε α
  begun : Bool
  seen : List σ

/-- The shared store, the holder of each lock, and the threads. -/
structure Machine (ι σ ω κ ε α : Type) where
  store : σ
  locks : κ → Option ι
  thread : ι → Thread σ ω κ ε α

namespace Machine

variable {ι σ ω κ ε α : Type}

/-- No thread has taken a step. -/
def start (s : σ) (progs : ι → Prog σ ω κ ε α) : Machine ι σ ω κ ε α where
  store := s
  locks _ := none
  thread i := ⟨progs i, false, []⟩

/-- The thread has begun and has not returned. -/
def Active (m : Machine ι σ ω κ ε α) (i : ι) : Prop :=
  (m.thread i).begun = true ∧ (m.thread i).prog.isDone = false

/-- The thread has taken a step and returned a result. -/
def Succeeded (m : Machine ι σ ω κ ε α) (i : ι) : Prop :=
  (m.thread i).begun = true ∧ ∃ a, (m.thread i).prog = .ret a

/-! ## Plans -/

section Plans

variable {q : Query σ ε (Option ω × α)}

theorem commitPlan_eq_commit {w : ω} {next : Prog σ ω κ ε α}
    (h : (Prog.commitPlan q : Prog σ ω κ ε α) = .commit w next) :
    ∃ a, q = .ret (some w, a) ∧ next = .ret a := by
  rcases q with ⟨_ | w', a⟩ | e | k
  · contradiction
  · cases h
    exact ⟨a, rfl, rfl⟩
  · contradiction
  · contradiction

theorem commitPlan_eq_ask {k : σ → Prog σ ω κ ε α}
    (h : (Prog.commitPlan q : Prog σ ω κ ε α) = .ask k) :
    ∃ k', q = .ask k' ∧ k = fun s => Prog.commitPlan (k' s) := by
  rcases q with ⟨_ | w', a⟩ | e | k'
  · contradiction
  · contradiction
  · contradiction
  · cases h
    exact ⟨k', rfl, rfl⟩

theorem commitPlan_ne_lock {key : κ} {next : Prog σ ω κ ε α} :
    (Prog.commitPlan q : Prog σ ω κ ε α) ≠ .lock key next := by
  rcases q with ⟨_ | w', a⟩ | e | k' <;> exact fun h => by contradiction

theorem commitPlan_ne_unlock {key : κ} {next : Prog σ ω κ ε α} :
    (Prog.commitPlan q : Prog σ ω κ ε α) ≠ .unlock key next := by
  rcases q with ⟨_ | w', a⟩ | e | k' <;> exact fun h => by contradiction

theorem commitPlan_isDone_of_yields {V : Set σ} {w : ω} {a : α}
    (h : q.Yields V (some w, a)) :
    (Prog.commitPlan q : Prog σ ω κ ε α).isDone = false := by
  cases h <;> rfl

end Plans

/-! ## The machine -/

variable [DecidableEq ι]

/-- Thread `i` goes on with `p`, and gives up its locks if `p` has returned. -/
def resume (m : Machine ι σ ω κ ε α) (i : ι) (p : Prog σ ω κ ε α) (seen : List σ) :
    Machine ι σ ω κ ε α where
  store := m.store
  locks key := if p.isDone && m.locks key = some i then none else m.locks key
  thread := Function.update m.thread i ⟨p, true, seen⟩

section

variable {m : Machine ι σ ω κ ε α} {i : ι}

@[simp] theorem resume_store (p : Prog σ ω κ ε α) (seen : List σ) :
    (m.resume i p seen).store = m.store :=
  rfl

@[simp] theorem resume_thread_self (p : Prog σ ω κ ε α) (seen : List σ) :
    (m.resume i p seen).thread i = ⟨p, true, seen⟩ :=
  Function.update_self ..

theorem resume_thread_ne {j : ι} (hne : j ≠ i) (p : Prog σ ω κ ε α) (seen : List σ) :
    (m.resume i p seen).thread j = m.thread j :=
  Function.update_of_ne hne ..

theorem resume_locks_ne {j : ι} {key : κ} (hne : j ≠ i) (p : Prog σ ω κ ε α) (seen : List σ)
    (h : m.locks key = some j) : (m.resume i p seen).locks key = some j := by
  change (if p.isDone && decide (m.locks key = some i) then none else m.locks key) = some j
  rw [h]
  simp [hne]

theorem resume_locks_of_not_done {p : Prog σ ω κ ε α} (hp : p.isDone = false)
    (seen : List σ) : (m.resume i p seen).locks = m.locks := by
  funext key
  change (if p.isDone && decide (m.locks key = some i) then none else m.locks key) = _
  rw [hp]
  rfl

end

variable [DecidableEq κ] [WriteBatch σ ω]

/-- One step of thread `i`. -/
def step (m : Machine ι σ ω κ ε α) (i : ι) : Machine ι σ ω κ ε α :=
  match (m.thread i).prog with
  | .ret _ => m
  | .fail _ => m
  | .ask k => m.resume i (k m.store) (m.store :: (m.thread i).seen)
  | .commit w next =>
      { m with store := WriteBatch.commit w m.store }.resume i next (m.thread i).seen
  | .lock key next =>
      if m.locks key = none then
        { m with locks := Function.update m.locks key (some i) }.resume i next
          (m.thread i).seen
      else m
  | .unlock key next =>
      { m with
        locks := if m.locks key = some i then Function.update m.locks key none
          else m.locks }.resume i next (m.thread i).seen

/-! ## Steps -/

section Steps

variable {m : Machine ι σ ω κ ε α} {i : ι}

theorem step_of_done (h : (m.thread i).prog.isDone = true) : m.step i = m := by
  unfold step
  split
  · rfl
  · rfl
  all_goals
    rename_i hprog
    rw [hprog] at h
    contradiction

theorem step_of_ask {k : σ → Prog σ ω κ ε α} (h : (m.thread i).prog = .ask k) :
    m.step i = m.resume i (k m.store) (m.store :: (m.thread i).seen) := by
  unfold step
  rw [h]

theorem step_of_commit {w : ω} {next : Prog σ ω κ ε α}
    (h : (m.thread i).prog = .commit w next) :
    m.step i =
      { m with store := WriteBatch.commit w m.store }.resume i next (m.thread i).seen := by
  unfold step
  rw [h]

theorem step_of_lock_free {key : κ} {next : Prog σ ω κ ε α}
    (h : (m.thread i).prog = .lock key next) (hfree : m.locks key = none) :
    m.step i = { m with locks := Function.update m.locks key (some i) }.resume i next
      (m.thread i).seen := by
  unfold step
  rw [h]
  simp only [hfree, if_true]

theorem step_of_lock_held {key : κ} {next : Prog σ ω κ ε α} {j : ι}
    (h : (m.thread i).prog = .lock key next) (hheld : m.locks key = some j) :
    m.step i = m := by
  unfold step
  rw [h]
  simp [hheld]

theorem step_of_unlock {key : κ} {next : Prog σ ω κ ε α}
    (h : (m.thread i).prog = .unlock key next) :
    m.step i = { m with
      locks := if m.locks key = some i then Function.update m.locks key none
        else m.locks }.resume i next (m.thread i).seen := by
  unfold step
  rw [h]

theorem step_thread_ne {j : ι} (hne : j ≠ i) : (m.step i).thread j = m.thread j := by
  unfold step
  split
  · rfl
  · rfl
  · exact resume_thread_ne hne ..
  · exact resume_thread_ne hne ..
  · split
    · exact resume_thread_ne hne ..
    · rfl
  · exact resume_thread_ne hne ..

/-- A lock that another thread holds stays with it. -/
theorem step_locks_ne {j : ι} {key : κ} (hne : j ≠ i) (h : m.locks key = some j) :
    (m.step i).locks key = some j := by
  unfold step
  split
  · exact h
  · exact h
  · exact resume_locks_ne hne _ _ h
  · exact resume_locks_ne hne _ _ h
  · rename_i key' next hprog
    split
    · rename_i hfree
      have hkey : key ≠ key' := by
        rintro rfl
        rw [h] at hfree
        contradiction
      refine resume_locks_ne hne _ _ ?_
      change Function.update m.locks key' (some i) key = some j
      rw [Function.update_of_ne hkey, h]
    · exact h
  · rename_i key' next hprog
    refine resume_locks_ne hne _ _ ?_
    change (if m.locks key' = some i then Function.update m.locks key' none
      else m.locks) key = some j
    split
    · rename_i hheld
      have hkey : key ≠ key' := by
        rintro rfl
        rw [h] at hheld
        exact hne (Option.some.inj hheld)
      rw [Function.update_of_ne hkey, h]
    · exact h

/-- A step leaves the store, or is a commit. -/
theorem step_store (m : Machine ι σ ω κ ε α) (i : ι) :
    (m.step i).store = m.store ∨
      ∃ w next, (m.thread i).prog = .commit w next ∧
        (m.step i).store = WriteBatch.commit w m.store := by
  cases hp : (m.thread i).prog with
  | ret a => exact Or.inl (by rw [step_of_done (by rw [hp]; rfl)])
  | fail e => exact Or.inl (by rw [step_of_done (by rw [hp]; rfl)])
  | ask k => exact Or.inl (by rw [step_of_ask hp, resume_store])
  | commit w next => exact Or.inr ⟨w, next, rfl, by rw [step_of_commit hp, resume_store]⟩
  | unlock key next => exact Or.inl (by rw [step_of_unlock hp, resume_store])
  | lock key next =>
      left
      cases hlock : m.locks key with
      | some j => rw [step_of_lock_held hp hlock]
      | none => rw [step_of_lock_free hp hlock, resume_store]

/-- A step leaves the store, or commits a batch the thread is permitted; the
threads stay within what they are permitted. -/
theorem step_writes {P : ω → Prop} (h : ∀ j, (m.thread j).prog.Writes P) :
    (∀ j, ((m.step i).thread j).prog.Writes P) ∧
      ((m.step i).store = m.store ∨
        ∃ w next, (m.thread i).prog = .commit w next ∧ P w ∧
          (m.step i).store = WriteBatch.commit w m.store) := by
  have hself : ∀ {m' : Machine ι σ ω κ ε α} {p : Prog σ ω κ ε α} {seen : List σ},
      m'.thread = m.thread → p.Writes P →
        ∀ j, ((m'.resume i p seen).thread j).prog.Writes P := by
    intro m' p seen hthread hp j
    by_cases hj : j = i
    · subst hj
      rw [resume_thread_self]
      exact hp
    · rw [resume_thread_ne hj, hthread]
      exact h j
  have hi := h i
  unfold step
  split
  · exact ⟨h, Or.inl rfl⟩
  · exact ⟨h, Or.inl rfl⟩
  · rename_i k hprog
    rw [hprog] at hi
    exact ⟨hself rfl (hi m.store), Or.inl rfl⟩
  · rename_i w next hprog
    rw [hprog] at hi
    exact ⟨hself rfl hi.2, Or.inr ⟨w, next, hprog, hi.1, rfl⟩⟩
  · rename_i key next hprog
    rw [hprog] at hi
    split
    · exact ⟨hself rfl hi, Or.inl rfl⟩
    · exact ⟨h, Or.inl rfl⟩
  · rename_i key next hprog
    rw [hprog] at hi
    exact ⟨hself rfl hi, Or.inl rfl⟩

end Steps

/-! ## Threads that plan under a lock -/

section Guarded

variable (keys : ι → κ) (plans : ι → Query σ ε (Option ω × α))
  (Inv : σ → Prop) (Agree : ι → σ → σ → Prop) (cond : ι → Set σ → σ → Prop)

/-- Where a thread that plans under its lock can be.  While it reads it holds the
lock, the rest `q` of its plan continues what it has read, and what it has read
agrees with the store. -/
inductive Stage (m : Machine ι σ ω κ ε α) (i : ι) : Prop where
  | waiting (hprog : (m.thread i).prog = .lock (keys i) (Prog.commitPlan (plans i)))
      (hseen : (m.thread i).seen = [])
  | reading (q : Query σ ε (Option ω × α)) (hlock : m.locks (keys i) = some i)
      (hprog : (m.thread i).prog = Prog.commitPlan q)
      (hrest : ∀ W r, q.Yields W r →
        (plans i).Yields ({s | s ∈ (m.thread i).seen} ∪ W) r)
      (hagree : ∀ t ∈ (m.thread i).seen, Agree i t m.store)
  | done (hprog : (m.thread i).prog.isDone = true)

/-- The invariant of a machine whose threads plan under locks. -/
structure Guarded (m : Machine ι σ ω κ ε α) : Prop where
  inv : Inv m.store
  stage : ∀ i, Stage keys plans Agree m i

/-- If thread `i` is about to commit, what it has seen meets the condition. -/
def CommitMeets (m : Machine ι σ ω κ ε α) (i : ι) : Prop :=
  ∀ w next, (m.thread i).prog = .commit w next →
    cond i {s | s ∈ (m.thread i).seen} m.store

variable {keys plans Inv Agree cond} {m : Machine ι σ ω κ ε α}

/-- A step of another thread that keeps the agreement keeps the stage. -/
theorem Stage.frame {i j : ι} (h : Stage keys plans Agree m j) (hne : j ≠ i)
    (hkeep : m.locks (keys j) = some j → ∀ t, Agree j t m.store →
      Agree j t (m.step i).store) :
    Stage keys plans Agree (m.step i) j := by
  have hthread : (m.step i).thread j = m.thread j := step_thread_ne hne
  cases h with
  | waiting hprog hseen =>
      refine .waiting ?_ ?_
      · rw [hthread, hprog]
      · rw [hthread, hseen]
  | reading q hlock hprog hrest hagree =>
      refine .reading q (step_locks_ne hne hlock) ?_ ?_ ?_
      · rw [hthread, hprog]
      · rw [hthread]
        exact hrest
      · rw [hthread]
        exact fun t ht => hkeep hlock t (hagree t ht)
  | done hprog =>
      refine .done ?_
      rw [hthread, hprog]

theorem Stage.step {i : ι} (hrefl : ∀ s, Agree i s s) (h : Stage keys plans Agree m i) :
    Stage keys plans Agree (m.step i) i := by
  cases h with
  | waiting hprog hseen =>
      cases hlock : m.locks (keys i) with
      | some j =>
          rw [step_of_lock_held hprog hlock]
          exact .waiting hprog hseen
      | none =>
          rw [step_of_lock_free hprog hlock]
          cases hdone : (Prog.commitPlan (plans i) : Prog σ ω κ ε α).isDone with
          | true =>
              refine .done ?_
              rw [resume_thread_self]
              exact hdone
          | false =>
              refine .reading (plans i) ?_ ?_ ?_ ?_
              · rw [resume_locks_of_not_done hdone]
                exact Function.update_self ..
              · rw [resume_thread_self]
              · intro W r hr
                exact hr.mono Set.subset_union_right
              · rw [resume_thread_self, hseen]
                intro t ht
                contradiction
  | reading q hlock hprog hrest hagree =>
      cases hp : (m.thread i).prog with
      | ret a =>
          rw [step_of_done (by rw [hp]; rfl)]
          exact .done (by rw [hp]; rfl)
      | fail e =>
          rw [step_of_done (by rw [hp]; rfl)]
          exact .done (by rw [hp]; rfl)
      | lock key next =>
          rw [hprog] at hp
          exact absurd hp commitPlan_ne_lock
      | unlock key next =>
          rw [hprog] at hp
          exact absurd hp commitPlan_ne_unlock
      | commit w next =>
          -- a plan returns right after its commit
          rw [step_of_commit hp]
          rw [hprog] at hp
          obtain ⟨a, -, rfl⟩ := commitPlan_eq_commit hp
          refine .done ?_
          rw [resume_thread_self]
          rfl
      | ask k =>
          rw [step_of_ask hp]
          rw [hprog] at hp
          obtain ⟨k', rfl, rfl⟩ := commitPlan_eq_ask hp
          cases hdone : (Prog.commitPlan (k' m.store) : Prog σ ω κ ε α).isDone with
          | true =>
              refine .done ?_
              rw [resume_thread_self]
              exact hdone
          | false =>
              refine .reading (k' m.store) ?_ ?_ ?_ ?_
              · rw [resume_locks_of_not_done hdone, hlock]
              · rw [resume_thread_self]
              · intro W r hr
                rw [resume_thread_self]
                -- the read adds the current store to what was seen
                have hask : (Query.ask k').Yields (insert m.store W) r :=
                  .ask (Set.mem_insert _ _) (hr.mono (Set.subset_insert _ _))
                refine (hrest _ r hask).mono ?_
                intro t ht
                simp only [Set.mem_union, Set.mem_ofPred_eq, Set.mem_insert_iff,
                  List.mem_cons] at ht ⊢
                tauto
              · rw [resume_thread_self]
                intro t ht
                rcases List.mem_cons.mp ht with rfl | ht
                · exact hrefl _
                · exact hagree t ht
  | done hprog =>
      rw [step_of_done hprog]
      exact .done hprog

/-- A step leaves the store or commits a batch that the thread planned from what
it has seen. -/
theorem Stage.step_store {i : ι} (h : Stage keys plans Agree m i) :
    (m.step i).store = m.store ∨
      ∃ w a next, (m.thread i).prog = .commit w next ∧ m.locks (keys i) = some i ∧
        (plans i).Yields {s | s ∈ (m.thread i).seen} (some w, a) ∧
        (∀ t ∈ (m.thread i).seen, Agree i t m.store) ∧
        (m.step i).store = WriteBatch.commit w m.store := by
  cases hp : (m.thread i).prog with
  | ret a =>
      rw [step_of_done (by rw [hp]; rfl)]
      exact Or.inl rfl
  | fail e =>
      rw [step_of_done (by rw [hp]; rfl)]
      exact Or.inl rfl
  | ask k =>
      rw [step_of_ask hp]
      exact Or.inl rfl
  | lock key next =>
      cases hlock : m.locks key with
      | some j =>
          rw [step_of_lock_held hp hlock]
          exact Or.inl rfl
      | none =>
          rw [step_of_lock_free hp hlock]
          exact Or.inl rfl
  | unlock key next =>
      rw [step_of_unlock hp]
      exact Or.inl rfl
  | commit w next =>
      right
      cases h with
      | waiting hprog hseen =>
          rw [hprog] at hp
          contradiction
      | reading q hlock hprog hrest hagree =>
          have hq := hp
          rw [hprog] at hq
          obtain ⟨a, rfl, rfl⟩ := commitPlan_eq_commit hq
          refine ⟨w, a, _, rfl, hlock, ?_, hagree, ?_⟩
          · have hplan := hrest ∅ _ (Query.Yields.ret _)
            rwa [Set.union_empty] at hplan
          · rw [step_of_commit hp]
            rfl
      | done hprog =>
          rw [hp] at hprog
          contradiction

/-- The rule for threads that plan under locks: it is enough to look at commits,
each in the store it is made in, with all reads in agreement with that store. -/
theorem guarded_step {i : ι} (hrefl : ∀ i s, Agree i s s)
    (hcommit : ∀ i w a s (V : Set σ), Inv s → (∀ t ∈ V, Agree i t s) →
      (plans i).Yields V (some w, a) → cond i V s →
      Inv (WriteBatch.commit w s) ∧
        ∀ j, keys j ≠ keys i → ∀ t, Agree j t s → Agree j t (WriteBatch.commit w s))
    (h : Guarded keys plans Inv Agree m) (hok : CommitMeets cond m i) :
    Guarded keys plans Inv Agree (m.step i) := by
  rcases (h.stage i).step_store with hsame | ⟨w, a, next, hp, hlock, hplan, hagree, hstore⟩
  · refine ⟨?_, ?_⟩
    · rw [hsame]
      exact h.inv
    · intro j
      by_cases hj : j = i
      · subst hj
        exact (h.stage j).step (hrefl j)
      · refine (h.stage j).frame hj ?_
        intro _ t ht
        rwa [hsame]
  · obtain ⟨hinv, hothers⟩ := hcommit i w a m.store _ h.inv hagree hplan (hok w next hp)
    refine ⟨?_, ?_⟩
    · rw [hstore]
      exact hinv
    · intro j
      by_cases hj : j = i
      · subst hj
        exact (h.stage j).step (hrefl j)
      · refine (h.stage j).frame hj ?_
        intro hlockj t ht
        rw [hstore]
        refine hothers j ?_ t ht
        intro hkey
        rw [hkey, hlock] at hlockj
        exact hj (Option.some.inj hlockj).symm

omit [DecidableEq ι] [DecidableEq κ] [WriteBatch σ ω] in
theorem guarded_start {s : σ} {progs : ι → Prog σ ω κ ε α} (hinv : Inv s)
    (hprogs : ∀ i, progs i = Prog.planned (some (keys i)) (plans i) ∨
      (progs i).isDone = true) :
    Guarded keys plans Inv Agree (start s progs) := by
  refine ⟨hinv, ?_⟩
  intro i
  rcases hprogs i with h | h
  · exact .waiting h rfl
  · exact .done h

end Guarded

/-! ## Schedules that run a plan up to its commit -/

/-- `m'` is `m` once thread `i` alone has run up to the commit of `w`, with which
it returns `a`. -/
structure AtCommit (m m' : Machine ι σ ω κ ε α) (i : ι) (w : ω) (a : α) : Prop where
  store : m'.store = m.store
  prog : (m'.thread i).prog = .commit w (.ret a)
  seen : ∀ t ∈ (m'.thread i).seen, t = m.store ∨ t ∈ (m.thread i).seen
  others : ∀ j, j ≠ i → m'.thread j = m.thread j

section Reach

variable {m : Machine ι σ ω κ ε α} {i : ι} {w : ω} {a : α}

/-- Alone, a thread that plans comes to its commit. -/
theorem exec_plan {q : Query σ ε (Option ω × α)}
    (hprog : (m.thread i).prog = Prog.commitPlan q)
    (hq : q.Yields {m.store} (some w, a)) :
    ∃ schedule, (∀ j ∈ schedule, j = i) ∧ AtCommit m (Run.exec step m schedule) i w a ∧
      (Run.exec step m schedule).locks = m.locks ∧
      ∀ cond, Run.Meets step (CommitMeets cond) m schedule := by
  induction q generalizing m with
  | ret r =>
      cases hq
      refine ⟨[], by simp, ?_, ?_, fun _ => trivial⟩
      · rw [Run.exec_nil]
        exact ⟨rfl, hprog, fun t ht => Or.inr ht, fun _ _ => rfl⟩
      · rw [Run.exec_nil]
  | fail e => simp at hq
  | ask k ih =>
      have hk : (k m.store).Yields {m.store} (some w, a) := by simpa using hq
      have hstep := step_of_ask (m := m) (i := i) hprog
      have hstore : (m.step i).store = m.store := by
        rw [hstep]
        rfl
      have hself : (m.step i).thread i =
          ⟨Prog.commitPlan (k m.store), true, m.store :: (m.thread i).seen⟩ := by
        rw [hstep, resume_thread_self]
        rfl
      have hdone : (Prog.commitPlan (k m.store) : Prog σ ω κ ε α).isDone = false :=
        commitPlan_isDone_of_yields hk
      obtain ⟨schedule, halone, hat, hlocks, hmeets⟩ :=
        ih m.store (m := m.step i) (by rw [hself]) (by rw [hstore]; exact hk)
      refine ⟨i :: schedule, List.forall_mem_cons.mpr ⟨rfl, halone⟩, ?_, ?_, ?_⟩
      · rw [Run.exec_cons]
        refine ⟨hat.store.trans hstore, hat.prog, ?_, ?_⟩
        · intro t ht
          rcases hat.seen t ht with rfl | hmem
          · exact Or.inl hstore
          · rw [hself] at hmem
            exact List.mem_cons.mp hmem
        · intro j hj
          rw [hat.others j hj]
          exact step_thread_ne hj
      · rw [Run.exec_cons, hlocks, hstep]
        exact resume_locks_of_not_done hdone _
      · intro cond
        refine ⟨?_, hmeets cond⟩
        intro w' next hp
        rw [hprog] at hp
        contradiction

/-- Alone, a thread whose lock is free takes it and comes to its commit. -/
theorem exec_planned {key : Option κ} {q : Query σ ε (Option ω × α)}
    (hprog : (m.thread i).prog = Prog.planned key q)
    (hfree : ∀ k, key = some k → m.locks k = none)
    (hq : q.Yields {m.store} (some w, a)) :
    ∃ schedule, (∀ j ∈ schedule, j = i) ∧ AtCommit m (Run.exec step m schedule) i w a ∧
      (∀ k, (Run.exec step m schedule).locks k =
        if key = some k then some i else m.locks k) ∧
      ∀ cond, Run.Meets step (CommitMeets cond) m schedule := by
  cases key with
  | none =>
      obtain ⟨schedule, halone, hat, hlocks, hmeets⟩ := exec_plan hprog hq
      exact ⟨schedule, halone, hat, fun k => congrFun hlocks k, hmeets⟩
  | some key =>
      have hstep := step_of_lock_free (m := m) (i := i) hprog (hfree key rfl)
      have hstore : (m.step i).store = m.store := by
        rw [hstep]
        rfl
      have hself : (m.step i).thread i =
          ⟨Prog.commitPlan q, true, (m.thread i).seen⟩ := by
        rw [hstep, resume_thread_self]
      have hdone : (Prog.commitPlan q : Prog σ ω κ ε α).isDone = false :=
        commitPlan_isDone_of_yields hq
      obtain ⟨schedule, halone, hat, hlocks, hmeets⟩ :=
        exec_plan (m := m.step i) (i := i) (q := q) (by rw [hself]) (by rw [hstore]; exact hq)
      refine ⟨i :: schedule, List.forall_mem_cons.mpr ⟨rfl, halone⟩, ?_, ?_, ?_⟩
      · rw [Run.exec_cons]
        refine ⟨hat.store.trans hstore, hat.prog, ?_, ?_⟩
        · intro t ht
          rcases hat.seen t ht with rfl | hmem
          · exact Or.inl hstore
          · rw [hself] at hmem
            exact Or.inr hmem
        · intro j hj
          rw [hat.others j hj]
          exact step_thread_ne hj
      · intro k
        rw [Run.exec_cons, hlocks, hstep, resume_locks_of_not_done hdone]
        change Function.update m.locks key (some i) k = _
        by_cases hk : k = key
        · rw [hk, Function.update_self, if_pos rfl]
        · rw [Function.update_of_ne hk, if_neg fun h => hk (Option.some.inj h).symm]
      · intro cond
        refine ⟨?_, hmeets cond⟩
        intro w' next hp
        rw [hprog] at hp
        contradiction

theorem AtCommit.step_store {m' : Machine ι σ ω κ ε α} (h : AtCommit m m' i w a) :
    (m'.step i).store = WriteBatch.commit w m.store := by
  rw [step_of_commit h.prog, ← h.store]
  rfl

theorem succeeded_step {m : Machine ι σ ω κ ε α}
    (h : (m.thread i).prog = .commit w (.ret a)) : (m.step i).Succeeded i := by
  unfold Succeeded
  rw [step_of_commit h, resume_thread_self]
  exact ⟨rfl, a, rfl⟩

/-- `m'` is `m` once thread `i` has committed `w` and returned; nobody holds a lock. -/
structure Returned (m m' : Machine ι σ ω κ ε α) (i : ι) (w : ω) : Prop where
  store : m'.store = WriteBatch.commit w m.store
  succeeded : m'.Succeeded i
  others : ∀ j, j ≠ i → m'.thread j = m.thread j
  free : ∀ k, m'.locks k = none

/-- A thread that holds all the locks that are held gives them up with its commit. -/
theorem AtCommit.returned {m' : Machine ι σ ω κ ε α} (h : AtCommit m m' i w a)
    (hmine : ∀ k j, m'.locks k = some j → j = i) : Returned m (m'.step i) i w := by
  refine ⟨?_, succeeded_step h.prog, ?_, ?_⟩
  · rw [step_of_commit h.prog, ← h.store]
    rfl
  · intro j hj
    rw [step_thread_ne hj, h.others j hj]
  · intro k
    rw [step_of_commit h.prog]
    change (if true && decide (m'.locks k = some i) then none else m'.locks k) = none
    cases hlock : m'.locks k with
    | none => simp
    | some j => simp [hmine k j hlock]

/-- Alone, a thread whose plan can commit comes to its answer. -/
theorem exec_return {key : Option κ} {q : Query σ ε (Option ω × α)}
    (hprog : (m.thread i).prog = Prog.planned key q)
    (hfree : ∀ k, key = some k → m.locks k = none)
    (hmine : ∀ k j, m.locks k = some j → j = i)
    (hq : q.Yields {m.store} (some w, a)) :
    ∃ schedule, (∀ j ∈ schedule, j = i) ∧ Returned m (Run.exec step m schedule) i w := by
  obtain ⟨schedule, halone, hat, hlocks, -⟩ := exec_planned hprog hfree hq
  refine ⟨schedule ++ [i], ?_, ?_⟩
  · intro j hj
    rcases List.mem_append.mp hj with hmem | hmem
    · exact halone j hmem
    · exact List.mem_singleton.mp hmem
  · rw [Run.exec_concat]
    refine hat.returned ?_
    intro k j hk
    rw [hlocks k] at hk
    split at hk
    · cases hk
      rfl
    · exact hmine k j hk

/-- Two threads that do not share a lock can both plan before either commits; the
commits then follow one another. -/
theorem exec_race {j : ι} {key key' : Option κ} {q q' : Query σ ε (Option ω × α)} {w' : ω}
    {a' : α} (hne : i ≠ j) (hi : (m.thread i).prog = Prog.planned key q)
    (hj : (m.thread j).prog = Prog.planned key' q') (hfree : ∀ k, m.locks k = none)
    (hkeys : ∀ k, key' = some k → key ≠ some k)
    (hq : q.Yields {m.store} (some w, a)) (hq' : q'.Yields {m.store} (some w', a')) :
    ∃ both,
      ((Run.exec step m both).thread i).prog = .commit w (.ret a) ∧
      ((Run.exec step m both).thread j).prog = .commit w' (.ret a') ∧
      (Run.exec step m (both ++ [i])).store = WriteBatch.commit w m.store ∧
      (Run.exec step m (both ++ [i] ++ [j])).store =
        WriteBatch.commit w' (WriteBatch.commit w m.store) ∧
      (Run.exec step m (both ++ [i] ++ [j])).Succeeded i ∧
      (Run.exec step m (both ++ [i] ++ [j])).Succeeded j ∧
      ∀ cond : ι → Set σ → σ → Prop,
        (∀ V, (∀ t ∈ V, t = m.store ∨ t ∈ (m.thread i).seen) → cond i V m.store) →
        (∀ V, (∀ t ∈ V, t = m.store ∨ t ∈ (m.thread j).seen) →
          cond j V (WriteBatch.commit w m.store)) →
        Run.Meets step (CommitMeets cond) m (both ++ [i] ++ [j]) := by
  obtain ⟨first, -, hat, hlocks, hmeets⟩ := exec_planned hi (fun k _ => hfree k) hq
  obtain ⟨second, -, hat', -, hmeets'⟩ :=
    exec_planned (m := Run.exec step m first) (i := j)
      (by rw [hat.others j hne.symm, hj])
      (fun k hk => by rw [hlocks k, if_neg (hkeys k hk), hfree k]) (by rw [hat.store]; exact hq')
  generalize hm' : Run.exec step (Run.exec step m first) second = m' at hat'
  have hboth : Run.exec step m (first ++ second) = m' := by rw [Run.exec_append, hm']
  have hstore : m'.store = m.store := hat'.store.trans hat.store
  have hthread : m'.thread i = (Run.exec step m first).thread i := hat'.others i hne
  have hprog : (m'.thread i).prog = .commit w (.ret a) := by rw [hthread, hat.prog]
  have hother : (m'.step i).thread j = m'.thread j := step_thread_ne hne.symm
  have hnext : ((m'.step i).thread j).prog = .commit w' (.ret a') := by
    rw [hother, hat'.prog]
  have hcommitted : (m'.step i).store = WriteBatch.commit w m.store := by
    rw [step_of_commit hprog, ← hstore]
    rfl
  have hseen' : ∀ t ∈ (m'.thread j).seen, t = m.store ∨ t ∈ (m.thread j).seen := by
    intro t ht
    rcases hat'.seen t ht with heq | hmem
    · exact Or.inl (heq.trans hat.store)
    · rw [hat.others j hne.symm] at hmem
      exact Or.inr hmem
  have hone : Run.exec step m (first ++ second ++ [i]) = m'.step i := by
    rw [Run.exec_concat, hboth]
  have htwo : Run.exec step m (first ++ second ++ [i] ++ [j]) = (m'.step i).step j := by
    rw [Run.exec_concat, hone]
  refine ⟨first ++ second, ?_, ?_, ?_, ?_, ?_, ?_, ?_⟩
  · rw [hboth, hprog]
  · rw [hboth, hat'.prog]
  · rw [hone, hcommitted]
  · rw [htwo, step_of_commit hnext, ← hcommitted]
    rfl
  · have hi' := succeeded_step hprog
    unfold Succeeded at hi' ⊢
    rw [htwo, step_thread_ne hne]
    exact hi'
  · rw [htwo]
    exact succeeded_step hnext
  · intro cond hci hcj
    refine (((hmeets cond).append (hmeets' cond)).concat ?_).concat ?_
    · intro w₁ next₁ _
      rw [hboth, hstore, hthread]
      exact hci _ hat.seen
    · intro w₁ next₁ _
      rw [hone, hother, hcommitted]
      exact hcj _ hseen'

end Reach

end Machine

end DidHosting
