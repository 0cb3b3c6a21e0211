import Mathlib.Data.Set.Insert
import Mathlib.Tactic.Common

/-!
# Programs over a store

A service operation is a sequence of store reads, pure checks and batch
commits.  Two levels of syntax keep the two kinds of step apart:

- `Query` may only read and fail.  Every read is a separate step, because
  another operation may commit between two reads of the same operation.
- `Prog` adds the commit of one write batch and the acquisition of a named
  lock, which the operation holds until it releases it or returns.

A query has a sequential meaning, `Query.eval`, in which every read sees the
same store, and a relational one, `Query.Yields V`, in which each read is
answered by some store of the set `V`.  The relational one is what survives
interleaving; the sequential one is its instance at a singleton.
-/

namespace DidHosting

/-! ## Read-only computations -/

/-- A computation that reads a store of type `σ`, may fail with an `ε`, and
returns an `α`. -/
inductive Query (σ ε α : Type) where
  | ret (a : α)
  | fail (e : ε)
  | ask (k : σ → Query σ ε α)

namespace Query

variable {σ ε α β γ : Type}

/-- Run `f` on the result. -/
def bind : Query σ ε α → (α → Query σ ε β) → Query σ ε β
  | ret a, f => f a
  | fail e, _ => fail e
  | ask k, f => ask fun s => bind (k s) f

instance : Monad (Query σ ε) where
  pure := ret
  bind := bind

def read (f : σ → α) : Query σ ε α :=
  ask fun s => ret (f s)

/-- Go on only if `c` holds. -/
def require (c : Bool) (e : ε) : Query σ ε Unit :=
  if c then ret () else fail e

/-- A pure computation that may fail. -/
def ofExcept : Except ε α → Query σ ε α
  | .ok a => ret a
  | .error e => fail e

def okOr (e : ε) : Option α → Query σ ε α
  | some a => ret a
  | none => fail e

def mapError {δ : Type} (f : ε → δ) : Query σ ε α → Query σ δ α
  | ret a => ret a
  | fail e => fail (f e)
  | ask k => ask fun s => mapError f (k s)

/-- The result when every read sees the store `s`. -/
def eval : Query σ ε α → σ → Except ε α
  | ret a, _ => .ok a
  | fail e, _ => .error e
  | ask k, s => eval (k s) s

/-- `q` can return `a` when each of its reads is answered by a store in `V`. -/
inductive Yields (V : Set σ) : Query σ ε α → α → Prop where
  | ret (a : α) : Yields V (ret a) a
  | ask {k : σ → Query σ ε α} {s : σ} {a : α} :
      s ∈ V → Yields V (k s) a → Yields V (ask k) a

variable {V W : Set σ} {q : Query σ ε α} {a b : α}

@[simp] theorem yields_ret :
    Yields V (ret b : Query σ ε α) a ↔ a = b := by
  constructor
  · rintro ⟨⟩
    rfl
  · rintro rfl
    exact Yields.ret a

@[simp] theorem yields_pure :
    Yields V (pure b : Query σ ε α) a ↔ a = b :=
  yields_ret

@[simp] theorem yields_fail {e : ε} :
    Yields V (fail e : Query σ ε α) a ↔ False := by
  constructor
  · rintro ⟨⟩
  · exact False.elim

@[simp] theorem yields_ask {k : σ → Query σ ε α} :
    Yields V (ask k) a ↔ ∃ s ∈ V, Yields V (k s) a := by
  constructor
  · rintro (_ | ⟨hs, h⟩)
    exact ⟨_, hs, h⟩
  · rintro ⟨s, hs, h⟩
    exact Yields.ask hs h

@[simp] theorem yields_read {f : σ → α} :
    Yields V (read f : Query σ ε α) a ↔ ∃ s ∈ V, a = f s := by
  simp [read]

@[simp] theorem yields_require {c : Bool} {e : ε} {u : Unit} :
    Yields V (require c e : Query σ ε Unit) u ↔ c = true := by
  cases c <;> simp [require]

@[simp] theorem yields_ofExcept {x : Except ε α} :
    Yields V (ofExcept x : Query σ ε α) a ↔ x = .ok a := by
  cases x with
  | ok b => simp [ofExcept, eq_comm]
  | error e => simp [ofExcept]

@[simp] theorem yields_okOr {e : ε} {o : Option α} :
    Yields V (okOr e o : Query σ ε α) a ↔ o = some a := by
  cases o with
  | some b => simp [okOr, eq_comm]
  | none => simp [okOr]

/-- A sequence returns `b` exactly when its first part returns some `a` from
which the rest returns `b`. -/
@[simp] theorem yields_bind {f : α → Query σ ε β} {b : β} :
    Yields V (q >>= f) b ↔ ∃ a, Yields V q a ∧ Yields V (f a) b := by
  change Yields V (q.bind f) b ↔ _
  induction q with
  | ret a => simp [bind]
  | fail e => simp [bind]
  | ask k ih =>
      simp only [bind, yields_ask, ih]
      constructor
      · rintro ⟨s, hs, a, ha, hb⟩
        exact ⟨a, ⟨s, hs, ha⟩, hb⟩
      · rintro ⟨a, ⟨s, hs, ha⟩, hb⟩
        exact ⟨s, hs, a, ha, hb⟩

@[simp] theorem yields_map {f : α → β} {b : β} :
    Yields V (f <$> q) b ↔ ∃ a, Yields V q a ∧ b = f a := by
  change Yields V (q >>= fun a => pure (f a)) b ↔ _
  simp

@[simp] theorem yields_mapError {δ : Type} {f : ε → δ} :
    Yields V (q.mapError f) a ↔ Yields V q a := by
  induction q with
  | ret b => simp [mapError]
  | fail e => simp [mapError]
  | ask k ih => simp [mapError, ih]

/-- More stores to read from allow more results. -/
theorem Yields.mono (hVW : V ⊆ W) (h : Yields V q a) : Yields W q a := by
  induction h with
  | ret a => exact Yields.ret a
  | ask hs _ ih => exact Yields.ask (hVW hs) ih

/-- Sequential success is success at the singleton. -/
theorem eval_eq_ok_iff {s : σ} :
    q.eval s = .ok a ↔ Yields {s} q a := by
  induction q with
  | ret b => simp [eval, eq_comm]
  | fail e => simp [eval]
  | ask k ih => simp [eval, ih]

end Query

/-! ## Operations -/

/-- How a committed batch of type `ω` changes a store of type `σ`. -/
class WriteBatch (σ ω : Type) where
  commit : ω → σ → σ

/-- An operation on a store of type `σ` that commits batches of type `ω` and
takes locks named by `κ`. -/
inductive Prog (σ ω κ ε α : Type) where
  | ret (a : α)
  | fail (e : ε)
  | ask (k : σ → Prog σ ω κ ε α)
  | commit (w : ω) (next : Prog σ ω κ ε α)
  | lock (key : κ) (next : Prog σ ω κ ε α)
  | unlock (key : κ) (next : Prog σ ω κ ε α)

namespace Prog

variable {σ ω κ ε α β : Type}

/-- Run `f` on the result. -/
def bind : Prog σ ω κ ε α → (α → Prog σ ω κ ε β) → Prog σ ω κ ε β
  | ret a, f => f a
  | fail e, _ => fail e
  | ask k, f => ask fun s => bind (k s) f
  | commit w next, f => commit w (bind next f)
  | lock key next, f => lock key (bind next f)
  | unlock key next, f => unlock key (bind next f)

instance : Monad (Prog σ ω κ ε) where
  pure := ret
  bind := bind

/-- A query, as an operation. -/
def ofQuery : Query σ ε α → Prog σ ω κ ε α
  | .ret a => ret a
  | .fail e => fail e
  | .ask k => ask fun s => ofQuery (k s)

instance : MonadLift (Query σ ε) (Prog σ ω κ ε) where
  monadLift := ofQuery

def check : Except ε α → Prog σ ω κ ε α
  | .ok a => ret a
  | .error e => fail e

/-- Commit a batch. -/
def write (w : ω) : Prog σ ω κ ε Unit :=
  commit w (ret ())

/-- Commit a batch if there is one. -/
def writeOpt : Option ω → Prog σ ω κ ε Unit
  | some w => write w
  | none => ret ()

/-- Run `p` under the lock `key`, and release it. -/
def locked (key : κ) (p : Prog σ ω κ ε α) : Prog σ ω κ ε α :=
  lock key (p.bind fun a => unlock key (ret a))

/-! ### What an operation may write -/

/-- Every batch the operation can commit, whatever it reads, satisfies `P`. -/
def Writes (P : ω → Prop) : Prog σ ω κ ε α → Prop
  | ret _ => True
  | fail _ => True
  | ask k => ∀ s, Writes P (k s)
  | commit w next => P w ∧ Writes P next
  | lock _ next => Writes P next
  | unlock _ next => Writes P next

section Writes

variable {P : ω → Prop}

theorem writes_bind {p : Prog σ ω κ ε α} {f : α → Prog σ ω κ ε β}
    (hp : Writes P p) (hf : ∀ a, Writes P (f a)) : Writes P (p >>= f) := by
  change Writes P (p.bind f)
  induction p with
  | ret a => exact hf a
  | fail e => trivial
  | ask k ih => exact fun s => ih s (hp s)
  | commit w next ih => exact ⟨hp.1, ih hp.2⟩
  | lock key next ih => exact ih hp
  | unlock key next ih => exact ih hp

theorem writes_ofQuery (q : Query σ ε α) : Writes P (ofQuery q : Prog σ ω κ ε α) := by
  induction q with
  | ret a => trivial
  | fail e => trivial
  | ask k ih => exact fun s => ih s

theorem writes_liftM (q : Query σ ε α) : Writes P (liftM q : Prog σ ω κ ε α) :=
  writes_ofQuery q

theorem writes_check (x : Except ε α) : Writes P (check x : Prog σ ω κ ε α) := by
  cases x <;> trivial

theorem writes_writeOpt {w : Option ω} (h : ∀ v, w = some v → P v) :
    Writes P (writeOpt w : Prog σ ω κ ε Unit) := by
  cases w with
  | none => trivial
  | some v => exact ⟨h v rfl, trivial⟩

end Writes

/-! ### Operations that do not fail -/

/-- The operation does not fail, whatever it reads. -/
def Returns : Prog σ ω κ ε α → Prop
  | ret _ => True
  | fail _ => False
  | ask k => ∀ s, Returns (k s)
  | commit _ next => Returns next
  | lock _ next => Returns next
  | unlock _ next => Returns next

theorem returns_bind {p : Prog σ ω κ ε α} {f : α → Prog σ ω κ ε β}
    (hp : Returns p) (hf : ∀ a, Returns (f a)) : Returns (p >>= f) := by
  change Returns (p.bind f)
  induction p with
  | ret a => exact hf a
  | fail e => exact hp.elim
  | ask k ih => exact fun s => ih s (hp s)
  | commit w next ih => exact ih hp
  | lock key next ih => exact ih hp
  | unlock key next ih => exact ih hp

/-! ### Locks an operation keeps -/

/-- The operation never releases `key` before it returns. -/
def Keeps (key : κ) : Prog σ ω κ ε α → Prop
  | ret _ => True
  | fail _ => True
  | ask k => ∀ s, Keeps key (k s)
  | commit _ next => Keeps key next
  | lock _ next => Keeps key next
  | unlock key' next => key' ≠ key ∧ Keeps key next

/-! ### Runs -/

variable [WriteBatch σ ω]

/-- The operation run alone: its outcome and the store it leaves. -/
def run : Prog σ ω κ ε α → σ → Except ε α × σ
  | ret a, s => (.ok a, s)
  | fail e, s => (.error e, s)
  | ask k, s => run (k s) s
  | commit w next, s => run next (WriteBatch.commit w s)
  | lock _ next, s => run next s
  | unlock _ next, s => run next s

@[simp] theorem run_write (w : ω) (s : σ) :
    run (write w : Prog σ ω κ ε Unit) s =
      (.ok (), WriteBatch.commit w s) := rfl

theorem run_bind (p : Prog σ ω κ ε α) (f : α → Prog σ ω κ ε β) (s : σ) :
    run (p >>= f) s =
      match run p s with
      | (.ok a, t) => run (f a) t
      | (.error e, t) => (.error e, t) := by
  change run (p.bind f) s = _
  induction p generalizing s with
  | ret a => rfl
  | fail e => rfl
  | ask k ih => exact ih s s
  | commit w next ih => exact ih _
  | lock key next ih => exact ih s
  | unlock key next ih => exact ih s

/-- An operation that does not fail ends in a store. -/
theorem Returns.run {p : Prog σ ω κ ε α} (h : Returns p) (s : σ) :
    ∃ a t, Prog.run p s = (.ok a, t) := by
  induction p generalizing s with
  | ret a => exact ⟨a, s, rfl⟩
  | fail e => exact h.elim
  | ask k ih => exact ih s (h s) s
  | commit w next ih => exact ih h _
  | lock key next ih => exact ih h s
  | unlock key next ih => exact ih h s

/-- After a part that returns, the rest goes on in the store it leaves. -/
theorem run_bind_ok {p : Prog σ ω κ ε α} {f : α → Prog σ ω κ ε β} {s t : σ} {a : α}
    (h : run p s = (.ok a, t)) : run (p >>= f) s = run (f a) t := by
  rw [run_bind, h]

theorem run_writeOpt (w : Option ω) (s : σ) :
    run (writeOpt w : Prog σ ω κ ε Unit) s =
      (.ok (), (run (writeOpt w : Prog σ ω κ ε Unit) s).2) := by
  cases w <;> rfl

theorem run_ofQuery (q : Query σ ε α) (s : σ) :
    run (ofQuery q : Prog σ ω κ ε α) s = (q.eval s, s) := by
  induction q with
  | ret a => rfl
  | fail e => rfl
  | ask k ih => exact ih s

@[simp] theorem run_liftM (q : Query σ ε α) (s : σ) :
    run (liftM q : Prog σ ω κ ε α) s = (q.eval s, s) :=
  run_ofQuery q s

/-- Plan a batch by reading, and commit it if there is one. -/
def commitPlan (plan : Query σ ε (Option ω × α)) : Prog σ ω κ ε α :=
  (ofQuery plan).bind fun r => (writeOpt r.1).bind fun _ => ret r.2

/-- `commitPlan` under a lock, or under none. -/
def planned (key : Option κ) (plan : Query σ ε (Option ω × α)) : Prog σ ω κ ε α :=
  match key with
  | some k => lock k (commitPlan plan)
  | none => commitPlan plan

omit [WriteBatch σ ω] in
theorem commitPlan_keeps (plan : Query σ ε (Option ω × α)) (key : κ) :
    (commitPlan plan : Prog σ ω κ ε α).Keeps key := by
  induction plan with
  | ret r => rcases r with ⟨_ | w, a⟩ <;> trivial
  | fail e => trivial
  | ask k ih => exact fun s => ih s

omit [WriteBatch σ ω] in
/-- A planned operation commits what its plan yields. -/
theorem writes_planned {P : ω → Prop} {key : Option κ} {plan : Query σ ε (Option ω × α)}
    (h : ∀ w a, plan.Yields Set.univ (some w, a) → P w) :
    Writes P (planned key plan : Prog σ ω κ ε α) := by
  have hbody : Writes P (commitPlan plan : Prog σ ω κ ε α) := by
    induction plan with
    | ret r =>
        obtain ⟨w, a⟩ := r
        cases w with
        | none => trivial
        | some w => exact ⟨h w a (Query.Yields.ret _), trivial⟩
    | fail e => trivial
    | ask k ih =>
        intro s
        exact ih s fun w a hw => h w a (Query.Yields.ask (Set.mem_univ s) hw)
  cases key with
  | none => exact hbody
  | some k => exact hbody

@[simp] theorem run_check_bind_ok (x : Except ε β) (a : β) (hx : x = .ok a)
    (f : β → Prog σ ω κ ε α) (s : σ) : run (check x >>= f) s = run (f a) s := by
  subst hx
  rfl

/-- A planned operation run alone: a failed plan changes nothing, a successful
one commits its batch. -/
theorem run_planned (key : Option κ) (plan : Query σ ε (Option ω × α)) (s : σ) :
    run (planned key plan) s =
      match plan.eval s with
      | .error e => (.error e, s)
      | .ok (none, a) => (.ok a, s)
      | .ok (some w, a) => (.ok a, WriteBatch.commit w s) := by
  have hbody : run (commitPlan plan : Prog σ ω κ ε α) s =
      match plan.eval s with
      | .error e => (.error e, s)
      | .ok (none, a) => (.ok a, s)
      | .ok (some w, a) => (.ok a, WriteBatch.commit w s) := by
    refine (run_bind (ofQuery plan) _ s).trans ?_
    rw [run_ofQuery]
    rcases plan.eval s with e | ⟨_ | w, a⟩ <;> rfl
  cases key with
  | none => exact hbody
  | some k => exact hbody

/-- A planned operation whose plan succeeds commits its batch. -/
theorem run_planned_ok {key : Option κ} {plan : Query σ ε (Option ω × α)} {s : σ} {w : ω}
    {a : α} (hplan : plan.Yields {s} (some w, a)) :
    run (planned key plan) s = (.ok a, WriteBatch.commit w s) := by
  rw [run_planned, Query.eval_eq_ok_iff.mpr hplan]

/-- A checked plan that fails changes nothing. -/
theorem run_check_planned_error {γ : Type} {pre : Except ε γ} {key : Option κ}
    {plan : Query σ ε (Option ω × α)} {s t : σ} {e : ε}
    (h : run (check pre >>= fun _ => planned key plan) s = (.error e, t)) : t = s := by
  cases pre with
  | error e' => exact (congrArg Prod.snd h).symm
  | ok u =>
      rw [run_check_bind_ok _ u rfl, run_planned] at h
      rcases hplan : plan.eval s with e' | ⟨_ | w, a⟩ <;> rw [hplan] at h <;> cases h
      rfl

/-- Either a checked plan leaves the store as it is, or the check passed and
the plan, read in that store, gave the batch that was committed. -/
theorem run_check_planned {γ : Type} (pre : Except ε γ) (key : Option κ)
    (plan : Query σ ε (Option ω × α)) (s : σ) :
    (run (check pre >>= fun _ => planned key plan) s).2 = s ∨
      ∃ w a, (∃ u, pre = .ok u) ∧ plan.Yields {s} (some w, a) ∧
        (run (check pre >>= fun _ => planned key plan) s).2 = WriteBatch.commit w s := by
  cases pre with
  | error e => exact Or.inl rfl
  | ok u =>
      rw [run_check_bind_ok _ u rfl, run_planned]
      rcases hplan : plan.eval s with e | ⟨_ | w, a⟩
      · exact Or.inl rfl
      · exact Or.inl rfl
      · exact Or.inr ⟨w, a, ⟨u, rfl⟩, Query.eval_eq_ok_iff.mp hplan, rfl⟩

/-- The next access to the store, by an operation that runs alone or between the
writes of others. -/
def access : Prog σ ω κ ε α → σ → Prog σ ω κ ε α × σ
  | ret a, s => (ret a, s)
  | fail e, s => (fail e, s)
  | ask k, s => (k s, s)
  | commit w next, s => (next, WriteBatch.commit w s)
  | lock _ next, s => (next, s)
  | unlock _ next, s => (next, s)

/-- An access leaves the store, or commits a permitted write. -/
theorem Writes.access {P : ω → Prop} {p : Prog σ ω κ ε α} (hp : Writes P p) (s : σ) :
    Writes P (access p s).1 ∧
      ((Prog.access p s).2 = s ∨ ∃ w, P w ∧ (Prog.access p s).2 = WriteBatch.commit w s) := by
  cases p with
  | ret a => exact ⟨trivial, Or.inl rfl⟩
  | fail e => exact ⟨trivial, Or.inl rfl⟩
  | ask k => exact ⟨hp s, Or.inl rfl⟩
  | commit w next => exact ⟨hp.2, Or.inr ⟨w, hp.1, rfl⟩⟩
  | lock key next => exact ⟨hp, Or.inl rfl⟩
  | unlock key next => exact ⟨hp, Or.inl rfl⟩

/-- What every permitted write keeps, the operation keeps. -/
theorem Writes.run_invariant {P : ω → Prop} {Inv : σ → Prop}
    (hkeep : ∀ w s, P w → Inv s → Inv (WriteBatch.commit w s))
    {p : Prog σ ω κ ε α} (hp : Writes P p) {s : σ} (h₀ : Inv s) : Inv (run p s).2 := by
  induction p generalizing s with
  | ret a => exact h₀
  | fail e => exact h₀
  | ask k ih => exact ih s (hp s) h₀
  | commit w next ih => exact ih hp.2 (hkeep w s hp.1 h₀)
  | lock key next ih => exact ih hp h₀
  | unlock key next ih => exact ih hp h₀

end Prog

end DidHosting
