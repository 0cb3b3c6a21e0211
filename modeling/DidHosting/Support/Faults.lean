import DidHosting.Support.Prog

/-!
# Operations on a store that fails

Any access of an operation to its store can fail, and the operation then ends with the
error.  An operation that commits nothing but its last access has changed nothing when
it fails.
-/

namespace DidHosting

namespace Query

variable {σ ε α β : Type}

/-- The reads of a query on one store. -/
def accesses : Query σ ε α → σ → ℕ
  | ret _, _ => 0
  | fail _, _ => 0
  | ask k, s => accesses (k s) s + 1

theorem eval_bind (q : Query σ ε α) (f : α → Query σ ε β) (s : σ) :
    (q >>= f).eval s = match q.eval s with
      | .ok a => (f a).eval s
      | .error e => .error e := by
  induction q with
  | ret a => rfl
  | fail e => rfl
  | ask k ih => exact ih s

theorem eval_bind_eq_ok {q : Query σ ε α} {f : α → Query σ ε β} {s : σ} {b : β}
    (h : (q >>= f).eval s = .ok b) : ∃ a, q.eval s = .ok a ∧ (f a).eval s = .ok b := by
  rw [eval_bind] at h
  cases hq : q.eval s with
  | error e =>
      rw [hq] at h
      cases h
  | ok a =>
      rw [hq] at h
      exact ⟨a, rfl, h⟩

theorem eval_ofExcept (x : Except ε α) (s : σ) : (ofExcept x : Query σ ε α).eval s = x := by
  cases x <;> rfl

end Query

namespace Prog

variable {σ ω κ ε α β : Type} [WriteBatch σ ω]

/-- Run an operation alone, from its `n`-th access on, on a store whose `i`-th access
fails with `fault i`: the outcome, the store and the number of accesses made. -/
def runFaulty (fault : ℕ → Option ε) : Prog σ ω κ ε α → ℕ → σ → Except ε α × σ × ℕ
  | ret a, n, s => (.ok a, s, n)
  | fail e, n, s => (.error e, s, n)
  | ask k, n, s =>
      match fault n with
      | some e => (.error e, s, n)
      | none => runFaulty fault (k s) (n + 1) s
  | commit w next, n, s =>
      match fault n with
      | some e => (.error e, s, n)
      | none => runFaulty fault next (n + 1) (WriteBatch.commit w s)
  | lock _ next, n, s => runFaulty fault next n s
  | unlock _ next, n, s => runFaulty fault next n s

theorem runFaulty_ask (fault : ℕ → Option ε) (k : σ → Prog σ ω κ ε α) (n : ℕ) (s : σ) :
    runFaulty fault (ask k) n s =
      match fault n with
      | some e => (.error e, s, n)
      | none => runFaulty fault (k s) (n + 1) s :=
  rfl

theorem runFaulty_commit (fault : ℕ → Option ε) (w : ω) (next : Prog σ ω κ ε α) (n : ℕ) (s : σ) :
    runFaulty fault (commit w next) n s =
      match fault n with
      | some e => (.error e, s, n)
      | none => runFaulty fault next (n + 1) (WriteBatch.commit w s) :=
  rfl

theorem runFaulty_read (fault : ℕ → Option ε) (f : σ → β) (q : β → Query σ ε α) (n : ℕ) (s : σ) :
    runFaulty fault (ofQuery (Query.read f >>= q) : Prog σ ω κ ε α) n s =
      match fault n with
      | some e => (.error e, s, n)
      | none => runFaulty fault (ofQuery (q (f s)) : Prog σ ω κ ε α) (n + 1) s :=
  rfl

theorem runFaulty_bind (fault : ℕ → Option ε) (p : Prog σ ω κ ε α) (f : α → Prog σ ω κ ε β)
    (n : ℕ) (s : σ) :
    runFaulty fault (p >>= f) n s =
      match runFaulty fault p n s with
      | (.ok a, t, m) => runFaulty fault (f a) m t
      | (.error e, t, m) => (.error e, t, m) := by
  induction p generalizing n s with
  | ret a => rfl
  | fail e => rfl
  | ask k ih =>
      change runFaulty fault (ask fun s => k s >>= f) n s = _
      rw [runFaulty_ask, runFaulty_ask]
      cases fault n with
      | some e => rfl
      | none => exact ih s (n + 1) s
  | commit w next ih =>
      change runFaulty fault (commit w (next >>= f)) n s = _
      rw [runFaulty_commit, runFaulty_commit]
      cases fault n with
      | some e => rfl
      | none => exact ih (n + 1) (WriteBatch.commit w s)
  | lock key next ih => exact ih n s
  | unlock key next ih => exact ih n s

/-- A query reads to its end, or one of its reads fails. -/
theorem runFaulty_ofQuery (fault : ℕ → Option ε) (q : Query σ ε α) (n : ℕ) (s : σ) :
    ((∀ i < q.accesses s, fault (n + i) = none) ∧
      runFaulty fault (ofQuery q : Prog σ ω κ ε α) n s = (q.eval s, s, n + q.accesses s)) ∨
    ∃ i < q.accesses s, ∃ e, fault (n + i) = some e ∧
      runFaulty fault (ofQuery q : Prog σ ω κ ε α) n s = (.error e, s, n + i) := by
  induction q generalizing n with
  | ret a => exact .inl ⟨fun i hi => absurd hi (Nat.not_lt_zero i), rfl⟩
  | fail e => exact .inl ⟨fun i hi => absurd hi (Nat.not_lt_zero i), rfl⟩
  | ask k ih =>
      have hrun : runFaulty fault (ofQuery (.ask k) : Prog σ ω κ ε α) n s =
          match fault n with
          | some e => (.error e, s, n)
          | none => runFaulty fault (ofQuery (k s) : Prog σ ω κ ε α) (n + 1) s :=
        runFaulty_ask fault (fun s => ofQuery (k s)) n s
      rw [hrun]
      cases hfault : fault n with
      | some e => exact .inr ⟨0, Nat.succ_pos _, e, hfault, rfl⟩
      | none =>
          rcases ih s (n + 1) with ⟨hnone, hread⟩ | ⟨i, hi, e, hsome, hread⟩
          · refine .inl ⟨?_, ?_⟩
            · intro i hi
              cases i with
              | zero => exact hfault
              | succ i =>
                  have hnext := hnone i (Nat.lt_of_succ_lt_succ hi)
                  rwa [Nat.add_right_comm] at hnext
            · rw [hread, Nat.add_right_comm]
              rfl
          · refine .inr ⟨i + 1, Nat.succ_lt_succ hi, e, ?_, ?_⟩
            · rwa [Nat.add_right_comm] at hsome
            · rw [hread, Nat.add_right_comm]
              rfl

theorem runFaulty_check (fault : ℕ → Option ε) (x : Except ε α) (next : α → Prog σ ω κ ε β) (n : ℕ)
    (s : σ) : runFaulty fault (check x >>= next) n s =
      match x with
      | .ok a => runFaulty fault (next a) n s
      | .error e => (.error e, s, n) := by
  cases x <;> rfl

theorem runFaulty_write (fault : ℕ → Option ε) (w : ω) (next : Unit → Prog σ ω κ ε β) (n : ℕ) (s : σ) :
    runFaulty fault (write w >>= next) n s =
      match fault n with
      | some e => (.error e, s, n)
      | none => runFaulty fault (next ()) (n + 1) (WriteBatch.commit w s) :=
  runFaulty_commit fault w (next ()) n s

theorem runFaulty_readThen (fault : ℕ → Option ε) (f : σ → α) (next : α → Prog σ ω κ ε β) (n : ℕ) (s : σ) :
    runFaulty fault (ofQuery (Query.read f) >>= next) n s =
      match fault n with
      | some e => (.error e, s, n)
      | none => runFaulty fault (next (f s)) (n + 1) s :=
  runFaulty_ask fault (fun s => next (f s)) n s
/-- An operation that commits what a query gives: either no access fails, and the batch is
committed, or one does, and nothing is. -/
theorem runFaulty_commitQuery (fault : ℕ → Option ε) {q : Query σ ε ω} {s : σ} {w : ω}
    (h : q.eval s = .ok w) (n : ℕ) :
    let r := runFaulty fault (ofQuery q >>= fun w => commit w (ret ()) : Prog σ ω κ ε Unit) n s
    ((∀ i ≤ q.accesses s, fault (n + i) = none) ∧ r.1 = .ok () ∧ r.2.1 = WriteBatch.commit w s) ∨
      ((∃ i ≤ q.accesses s, fault (n + i) ≠ none) ∧ (∃ e, r.1 = .error e) ∧ r.2.1 = s) := by
  intro r
  have hr : r = _ := runFaulty_bind fault (ofQuery q : Prog σ ω κ ε ω)
    (fun w => (commit w (ret ()) : Prog σ ω κ ε Unit)) n s
  rcases runFaulty_ofQuery (ω := ω) (κ := κ) fault q n s with
    ⟨hnone, hread⟩ | ⟨i, hi, e, hsome, hread⟩
  · rw [hread, h] at hr
    simp only [runFaulty_commit] at hr
    cases hfault : fault (n + q.accesses s) with
    | none =>
        rw [hfault] at hr
        refine .inl ⟨?_, by rw [hr]; rfl, by rw [hr]; rfl⟩
        intro i hi
        rcases Nat.lt_or_eq_of_le hi with hlt | rfl
        · exact hnone i hlt
        · exact hfault
    | some e =>
        rw [hfault] at hr
        exact .inr ⟨⟨_, Nat.le_refl _, by rw [hfault]; exact Option.some_ne_none e⟩,
          ⟨e, by rw [hr]⟩, by rw [hr]⟩
  · rw [hread] at hr
    exact .inr ⟨⟨i, hi.le, by rw [hsome]; exact Option.some_ne_none e⟩, ⟨e, by rw [hr]⟩,
      by rw [hr]⟩

/-- Every commit of the operation is its last access, and it returns after it. -/
def CommitsLast : Prog σ ω κ ε α → Prop
  | ret _ => True
  | fail _ => True
  | ask k => ∀ s, CommitsLast (k s)
  | commit _ next => ∃ a, next = ret a
  | lock _ next => CommitsLast next
  | unlock _ next => CommitsLast next

/-- An operation that commits last has changed nothing when it fails. -/
theorem CommitsLast.unchanged {fault : ℕ → Option ε} {p : Prog σ ω κ ε α} (hp : CommitsLast p)
    {n : ℕ} {s : σ} {e : ε} (h : (runFaulty fault p n s).1 = .error e) :
    (runFaulty fault p n s).2.1 = s := by
  induction p generalizing n with
  | ret a => rfl
  | fail e => rfl
  | ask k ih =>
      rw [runFaulty_ask] at h ⊢
      cases hfault : fault n with
      | some e' => rfl
      | none =>
          rw [hfault] at h
          exact ih s (hp s) h
  | commit w next ih =>
      obtain ⟨a, rfl⟩ := hp
      rw [runFaulty_commit] at h ⊢
      cases hfault : fault n with
      | some e' => rfl
      | none =>
          rw [hfault] at h
          cases h
  | lock key next ih => exact ih hp h
  | unlock key next ih => exact ih hp h

omit [WriteBatch σ ω] in
theorem commitsLast_ofQuery_bind {q : Query σ ε α} {f : α → Prog σ ω κ ε β}
    (hf : ∀ a, CommitsLast (f a)) : CommitsLast (ofQuery q >>= f) := by
  induction q with
  | ret a => exact hf a
  | fail e => trivial
  | ask k ih => exact fun s => ih s

omit [WriteBatch σ ω] in
theorem commitsLast_planned (key : Option κ) (plan : Query σ ε (Option ω × α)) :
    CommitsLast (planned key plan : Prog σ ω κ ε α) := by
  have hbody : CommitsLast (commitPlan plan : Prog σ ω κ ε α) := by
    refine commitsLast_ofQuery_bind ?_
    rintro ⟨_ | w, a⟩
    · trivial
    · exact ⟨a, rfl⟩
  cases key with
  | none => exact hbody
  | some key => exact hbody

omit [WriteBatch σ ω] in
theorem commitsLast_map {p : Prog σ ω κ ε α} (h : CommitsLast p) (f : α → β) :
    CommitsLast (p >>= fun a => (ret (f a) : Prog σ ω κ ε β)) := by
  change CommitsLast (p.bind _)
  induction p with
  | ret a => trivial
  | fail e => trivial
  | ask k ih => exact fun s => ih s (h s)
  | commit w next ih =>
      obtain ⟨a, rfl⟩ := h
      exact ⟨f a, rfl⟩
  | lock key next ih => exact ih h
  | unlock key next ih => exact ih h

omit [WriteBatch σ ω] in
theorem commitsLast_check_bind {x : Except ε α} {f : α → Prog σ ω κ ε β}
    (hf : ∀ a, CommitsLast (f a)) : CommitsLast (check x >>= f) := by
  cases x with
  | ok a => exact hf a
  | error e => trivial

end Prog

end DidHosting
