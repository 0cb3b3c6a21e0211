import DidHosting.Support.Interleaving

/-!
# What a thread commits

A thread judges a commit by what it has learnt: the stores it has read, and
what it read while it held a lock.  `Prog.wp` says that every commit of an
operation satisfies a condition on what was learnt, wherever the reads are
answered from; its rules follow the syntax of the operation.

`Machine.watched_step` carries the judgement through an interleaving.  What was
read under the lock still agrees with the store at the commit, if the commits
made without the lock keep that agreement.
-/

namespace DidHosting

/-- The stores a thread has read, latest first; and, while it holds the lock, the
store it last read since it took the lock or committed. -/
structure Learnt (σ : Type) where
  seen : List σ
  held : Option (Option σ)

namespace Learnt

variable {σ : Type}

/-- A read of the store `s`. -/
def read (l : Learnt σ) (s : σ) : Learnt σ :=
  ⟨s :: l.seen, l.held.map fun _ => some s⟩

/-- A commit: what was read under the lock is of the past. -/
def wrote (l : Learnt σ) : Learnt σ :=
  ⟨l.seen, l.held.map fun _ => none⟩

/-- The lock is taken. -/
def took (l : Learnt σ) : Learnt σ :=
  ⟨l.seen, some none⟩

/-- The lock is released. -/
def gave (l : Learnt σ) : Learnt σ :=
  ⟨l.seen, none⟩

end Learnt

namespace Prog

variable {σ ω κ ε α β : Type} [DecidableEq κ]

/-- With reads answered from `V`, every commit of the operation meets `ok`, and
the result meets `Q`; `key` is the lock that is watched. -/
def wp (key : κ) (V : Set σ) (ok : Learnt σ → ω → Prop) :
    Prog σ ω κ ε α → Learnt σ → (α → Learnt σ → Prop) → Prop
  | ret a, l, Q => Q a l
  | fail _, _, _ => True
  | ask k, l, Q => ∀ s ∈ V, wp key V ok (k s) (l.read s) Q
  | commit w next, l, Q => ok l w ∧ wp key V ok next l.wrote Q
  | lock k next, l, Q => wp key V ok next (if k = key then l.took else l) Q
  | unlock k next, l, Q => wp key V ok next (if k = key then l.gave else l) Q

variable {key : κ} {V : Set σ} {ok : Learnt σ → ω → Prop} {l : Learnt σ}

theorem wp_mono {p : Prog σ ω κ ε α} {Q Q' : α → Learnt σ → Prop}
    (h : wp key V ok p l Q) (hQ : ∀ a l, Q a l → Q' a l) : wp key V ok p l Q' := by
  induction p generalizing l with
  | ret a => exact hQ a l h
  | fail e => trivial
  | ask k ih => exact fun s hs => ih s (h s hs)
  | commit w next ih => exact ⟨h.1, ih h.2⟩
  | lock k next ih => exact ih h
  | unlock k next ih => exact ih h

theorem wp_bind {p : Prog σ ω κ ε α} {f : α → Prog σ ω κ ε β} {Q : β → Learnt σ → Prop}
    (h : wp key V ok p l fun a l => wp key V ok (f a) l Q) : wp key V ok (p >>= f) l Q := by
  change wp key V ok (p.bind f) l Q
  induction p generalizing l with
  | ret a => exact h
  | fail e => trivial
  | ask k ih => exact fun s hs => ih s (h s hs)
  | commit w next ih => exact ⟨h.1, ih h.2⟩
  | lock k next ih => exact ih h
  | unlock k next ih => exact ih h

theorem wp_read {f : σ → α} {Q : α → Learnt σ → Prop}
    (h : ∀ s ∈ V, Q (f s) (l.read s)) :
    wp key V ok (liftM (Query.read f : Query σ ε α) : Prog σ ω κ ε α) l Q :=
  h

theorem wp_write {w : ω} {Q : Unit → Learnt σ → Prop} (hok : ok l w) (hQ : Q () l.wrote) :
    wp key V ok (write w : Prog σ ω κ ε Unit) l Q :=
  ⟨hok, hQ⟩

theorem wp_locked {p : Prog σ ω κ ε α} {Q : α → Learnt σ → Prop}
    (h : wp key V ok p l.took fun a l => Q a l.gave) : wp key V ok (locked key p) l Q := by
  change wp key V ok _ (if key = key then l.took else l) Q
  rw [if_pos rfl]
  refine wp_bind (wp_mono h ?_)
  intro a l hQ
  change Q a (if key = key then l.gave else l)
  rwa [if_pos rfl]

end Prog

namespace Machine

variable {ι σ ω κ ε α : Type} [DecidableEq κ] (key : κ) (V : Set σ)
  (ok : ι → Learnt σ → ω → Prop) (Agree : ι → σ → σ → Prop)

/-- What thread `i` has learnt is what it has read, it holds the lock exactly when
it thinks so, and what it read under the lock agrees with the store. -/
structure Knows (m : Machine ι σ ω κ ε α) (i : ι) (l : Learnt σ) : Prop where
  seen : l.seen = (m.thread i).seen
  held : l.held.isSome = true ↔ m.locks key = some i
  agree : ∀ s, l.held = some (some s) → Agree i s m.store

/-- Every commit a thread can still make meets its condition. -/
structure Watched (m : Machine ι σ ω κ ε α) : Prop where
  store : m.store ∈ V
  seen : ∀ i, ∀ s ∈ (m.thread i).seen, s ∈ V
  thread : ∀ i, ∃ l, Knows key Agree m i l ∧
    (m.thread i).prog.wp key V (ok i) l fun _ _ => True

variable {key V ok Agree} {m : Machine ι σ ω κ ε α} {i : ι}

theorem watched_start {s : σ} {progs : ι → Prog σ ω κ ε α} (hs : s ∈ V)
    (hprogs : ∀ i, (progs i).wp key V (ok i) ⟨[], none⟩ fun _ _ => True) :
    Watched key V ok Agree (start s progs) where
  store := hs
  seen _ t ht := absurd ht List.not_mem_nil
  thread i := by
    refine ⟨⟨[], none⟩, ⟨rfl, ?_, ?_⟩, hprogs i⟩
    · constructor
      · intro h
        contradiction
      · intro h
        contradiction
    · intro t ht
      contradiction

/-- A commit that is about to be made meets its condition. -/
theorem Watched.commit {w : ω} {next : Prog σ ω κ ε α} (h : Watched key V ok Agree m)
    (hp : (m.thread i).prog = .commit w next) : ∃ l, Knows key Agree m i l ∧ ok i l w := by
  obtain ⟨l, hknows, hwp⟩ := h.thread i
  rw [hp] at hwp
  exact ⟨l, hknows, hwp.1⟩

variable [DecidableEq ι] [WriteBatch σ ω]

theorem Knows.frame {j : ι} {l : Learnt σ} (h : Knows key Agree m j l) (hne : j ≠ i)
    (hagree : ∀ s, l.held = some (some s) → Agree j s m.store → Agree j s (m.step i).store)
    (hfree : m.locks key ≠ some j → (m.step i).locks key ≠ some j) :
    Knows key Agree (m.step i) j l where
  seen := by rw [step_thread_ne hne, h.seen]
  held := by
    rw [h.held]
    exact ⟨fun hl => step_locks_ne hne hl, fun hl => by
      by_contra hno
      exact hfree hno hl⟩
  agree s hs := hagree s hs (h.agree s hs)

/-- A step of thread `i` gives no lock to another thread. -/
theorem step_locks_free {j : ι} (hne : j ≠ i) (h : m.locks key ≠ some j) :
    (m.step i).locks key ≠ some j := by
  have hresume : ∀ (m' : Machine ι σ ω κ ε α) (p : Prog σ ω κ ε α) (seen : List σ),
      m'.locks key ≠ some j → (m'.resume i p seen).locks key ≠ some j := by
    intro m' p seen hm'
    change (if p.isDone && decide (m'.locks key = some i) then none else m'.locks key) ≠ some j
    split
    · exact fun hc => by contradiction
    · exact hm'
  unfold step
  split
  · exact h
  · exact h
  · exact hresume _ _ _ h
  · exact hresume _ _ _ h
  · split
    · refine hresume _ _ _ ?_
      rename_i key' next hprog hfree
      change Function.update m.locks key' (some i) key ≠ some j
      by_cases hkey : key = key'
      · subst hkey
        rw [Function.update_self]
        exact fun hc => hne (Option.some.inj hc).symm
      · rwa [Function.update_of_ne hkey]
    · exact h
  · refine hresume _ _ _ ?_
    rename_i key' next hprog
    change (if m.locks key' = some i then Function.update m.locks key' none
      else m.locks) key ≠ some j
    split
    · by_cases hkey : key = key'
      · subst hkey
        rw [Function.update_self]
        exact fun hc => by contradiction
      · rwa [Function.update_of_ne hkey]
    · exact h

omit [WriteBatch σ ω] in
/-- The thread that goes on with `p` knows `l`, if it has not returned; once it has
returned nothing is left to judge. -/
theorem wp_resume {p : Prog σ ω κ ε α} {l : Learnt σ}
    (hlock : l.held.isSome = true ↔ m.locks key = some i)
    (hagree : ∀ s, l.held = some (some s) → Agree i s m.store)
    (hwp : p.wp key V (ok i) l fun _ _ => True) :
    ∃ l', Knows key Agree (m.resume i p l.seen) i l' ∧
      ((m.resume i p l.seen).thread i).prog.wp key V (ok i) l' fun _ _ => True := by
  rw [resume_thread_self]
  cases hdone : p.isDone with
  | false =>
      refine ⟨l, ⟨?_, ?_, hagree⟩, hwp⟩
      · rw [resume_thread_self]
      · rw [hlock, resume_locks_of_not_done hdone]
  | true =>
      refine ⟨⟨l.seen, none⟩, ⟨?_, ?_, ?_⟩, ?_⟩
      · rw [resume_thread_self]
      · constructor
        · intro h
          contradiction
        · intro h
          change (if p.isDone && decide (m.locks key = some i) then none
            else m.locks key) = some i at h
          rw [hdone] at h
          split at h
          · contradiction
          · rename_i hno
            simp [h] at hno
      · intro s h
        contradiction
      · cases p with
        | ret a => trivial
        | fail e => trivial
        | _ => contradiction

theorem Watched.self (hrefl : ∀ i s, Agree i s s) (h : Watched key V ok Agree m) :
    ∃ l, Knows key Agree (m.step i) i l ∧
      ((m.step i).thread i).prog.wp key V (ok i) l fun _ _ => True := by
  obtain ⟨l, hknows, hwp⟩ := h.thread i
  cases hp : (m.thread i).prog with
  | ret a =>
      rw [step_of_done (by rw [hp]; rfl)]
      exact ⟨l, hknows, hwp⟩
  | fail e =>
      rw [step_of_done (by rw [hp]; rfl)]
      exact ⟨l, hknows, hwp⟩
  | ask k =>
      rw [hp] at hwp
      rw [step_of_ask hp, ← hknows.seen]
      refine wp_resume (l := l.read m.store) ?_ ?_ (hwp m.store h.store)
      · rw [← hknows.held, Learnt.read, Option.isSome_map]
      · intro s hs
        cases hl : l.held with
        | none => simp [Learnt.read, hl] at hs
        | some v =>
            have hsame : m.store = s := by simpa [Learnt.read, hl] using hs
            rw [hsame]
            exact hrefl i s
  | commit w next =>
      rw [hp] at hwp
      rw [step_of_commit hp, ← hknows.seen]
      refine wp_resume (l := l.wrote) ?_ ?_ hwp.2
      · change l.wrote.held.isSome = true ↔ m.locks key = some i
        rw [← hknows.held, Learnt.wrote, Option.isSome_map]
      · intro s hs
        cases hl : l.held with
        | none => simp [Learnt.wrote, hl] at hs
        | some v => simp [Learnt.wrote, hl] at hs
  | lock key' next =>
      cases hlock : m.locks key' with
      | some j =>
          rw [step_of_lock_held hp hlock]
          exact ⟨l, hknows, hwp⟩
      | none =>
          rw [hp] at hwp
          rw [step_of_lock_free hp hlock, ← hknows.seen]
          by_cases hkey : key' = key
          · subst hkey
            refine wp_resume (l := l.took) ?_ ?_ ?_
            · change true = true ↔ Function.update m.locks key' (some i) key' = some i
              rw [Function.update_self]
              exact ⟨fun _ => rfl, fun _ => rfl⟩
            · intro s hs
              cases hs
            · simpa [Prog.wp] using hwp
          · refine wp_resume (l := l) ?_ hknows.agree ?_
            · change l.held.isSome = true ↔ Function.update m.locks key' (some i) key = some i
              rw [Function.update_of_ne (Ne.symm hkey), hknows.held]
            · simpa [Prog.wp, hkey] using hwp
  | unlock key' next =>
      rw [hp] at hwp
      rw [step_of_unlock hp, ← hknows.seen]
      by_cases hkey : key' = key
      · subst hkey
        refine wp_resume (l := l.gave) ?_ ?_ ?_
        · change false = true ↔ (if m.locks key' = some i then Function.update m.locks key' none
            else m.locks) key' = some i
          split
          · rw [Function.update_self]
            exact ⟨fun h => by contradiction, fun h => by contradiction⟩
          · rename_i hno
            exact ⟨fun h => by contradiction, fun h => absurd h hno⟩
        · intro s hs
          cases hs
        · simpa [Prog.wp] using hwp
      · refine wp_resume (l := l) ?_ hknows.agree ?_
        · change l.held.isSome = true ↔ (if m.locks key' = some i then
            Function.update m.locks key' none else m.locks) key = some i
          split
          · rw [Function.update_of_ne (Ne.symm hkey), hknows.held]
          · exact hknows.held
        · simpa [Prog.wp, hkey] using hwp

/-- A step leaves the store, or is the commit of a batch that meets the thread's
condition. -/
theorem Watched.step_store (h : Watched key V ok Agree m) :
    (m.step i).store = m.store ∨
      ∃ w l, Knows key Agree m i l ∧ ok i l w ∧
        (m.step i).store = WriteBatch.commit w m.store := by
  rcases Machine.step_store m i with hsame | ⟨w, next, hp, hw⟩
  · exact Or.inl hsame
  · obtain ⟨l, hknows, hok⟩ := h.commit hp
    exact Or.inr ⟨w, l, hknows, hok, hw⟩

/-- A step adds at most the current store to what the thread has seen. -/
theorem step_seen (m : Machine ι σ ω κ ε α) (i : ι) {s : σ}
    (h : s ∈ ((m.step i).thread i).seen) : s = m.store ∨ s ∈ (m.thread i).seen := by
  cases hp : (m.thread i).prog with
  | ret a =>
      rw [step_of_done (by rw [hp]; rfl)] at h
      exact Or.inr h
  | fail e =>
      rw [step_of_done (by rw [hp]; rfl)] at h
      exact Or.inr h
  | ask k =>
      rw [step_of_ask hp, resume_thread_self] at h
      exact List.mem_cons.mp h
  | commit w next =>
      rw [step_of_commit hp, resume_thread_self] at h
      exact Or.inr h
  | lock key' next =>
      cases hlock : m.locks key' with
      | some j =>
          rw [step_of_lock_held hp hlock] at h
          exact Or.inr h
      | none =>
          rw [step_of_lock_free hp hlock, resume_thread_self] at h
          exact Or.inr h
  | unlock key' next =>
      rw [step_of_unlock hp, resume_thread_self] at h
      exact Or.inr h

/-- The rule for interleavings: commits that meet their condition keep the set of
stores, and those made without the lock keep what is read under it. -/
theorem watched_step (hrefl : ∀ i s, Agree i s s)
    (hcommit : ∀ i l w s, s ∈ V → (∀ t ∈ l.seen, t ∈ V) → ok i l w →
      (∀ t, l.held = some (some t) → Agree i t s) →
      WriteBatch.commit w s ∈ V ∧
        (l.held = none → ∀ j, j ≠ i → ∀ t, Agree j t s → Agree j t (WriteBatch.commit w s)))
    (h : Watched key V ok Agree m) (i : ι) : Watched key V ok Agree (m.step i) := by
  have hstore : (m.step i).store ∈ V ∧
      (m.locks key ≠ some i → ∀ j, j ≠ i → ∀ t, Agree j t m.store →
        Agree j t (m.step i).store) := by
    rcases h.step_store (i := i) with hsame | ⟨w, l, hknows, hok, hw⟩
    · rw [hsame]
      exact ⟨h.store, fun _ _ _ _ ht => ht⟩
    · have hseen : ∀ t ∈ l.seen, t ∈ V := by
        rw [hknows.seen]
        exact h.seen i
      obtain ⟨hV, hkeep⟩ := hcommit i l w m.store h.store hseen hok hknows.agree
      rw [hw]
      refine ⟨hV, fun hno => hkeep ?_⟩
      rw [Ne, ← hknows.held] at hno
      exact Option.not_isSome_iff_eq_none.mp hno
  refine ⟨hstore.1, ?_, ?_⟩
  · intro j s hs
    by_cases hj : j = i
    · subst hj
      rcases step_seen m j hs with rfl | hseen
      · exact h.store
      · exact h.seen j s hseen
    · rw [step_thread_ne hj] at hs
      exact h.seen j s hs
  intro j
  by_cases hj : j = i
  · subst hj
    exact h.self hrefl
  · obtain ⟨l, hknows, hwp⟩ := h.thread j
    refine ⟨l, hknows.frame hj ?_ (step_locks_free hj), ?_⟩
    · intro s hs hagree
      refine hstore.2 ?_ j hj s hagree
      -- what `j` read under the lock, `i` cannot hold it
      have hheld : m.locks key = some j := hknows.held.mp (by rw [hs]; rfl)
      rw [hheld]
      exact fun hc => hj (Option.some.inj hc)
    · rw [step_thread_ne hj]
      exact hwp

end Machine

end DidHosting
