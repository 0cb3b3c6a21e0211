import DidHosting.Support.Atomic

/-!
# Handlers that run alone

A handler that runs with nothing in between goes from the store it starts on to one other
store.  `Atomic.After` says what it leaves there, for all inputs that meet a condition; its
rules follow the handler.  A sequence of operations is a run of handlers, each alone.
-/

namespace DidHosting

namespace Atomic

variable {σ ω η κ ε δ α β : Type} [Access σ ω]

/-- Run to the end on the inputs `xs`: the outcome, if there is one, and the store. -/
def alone : Atomic σ ω η κ ε α → (ℕ → η) → σ → Option (Except ε α) × σ
  | ret a, _, s => (some (.ok a), s)
  | fail e, _, s => (some (.error e), s)
  | halt, _, s => (none, s)
  | input k, xs, s => alone (k (xs 0)) (fun n => xs (n + 1)) s
  | access o k, xs, s => alone (k s) xs (Access.perform o s)
  | lock _ next, xs, s => alone next xs s
  | unlock _ next, xs, s => alone next xs s

/-- The store after a handler that ran alone. -/
def effect (p : Atomic σ ω η κ ε α) (xs : ℕ → η) (s : σ) : σ :=
  (p.alone xs s).2

/-- An answer that is only put in another form is no step. -/
theorem effect_bind_pure (p : Atomic σ ω η κ ε α) (f : α → β) (xs : ℕ → η) (s : σ) :
    (p >>= fun a => pure (f a)).effect xs s = p.effect xs s := by
  change ((p.bind fun a => ret (f a)).alone xs s).2 = (p.alone xs s).2
  induction p generalizing xs s with
  | ret a => rfl
  | fail e => rfl
  | halt => rfl
  | input k ih => exact ih (xs 0) _ s
  | access o k ih => exact ih s xs _
  | lock key next ih => exact ih xs s
  | unlock key next ih => exact ih xs s

theorem alone_draw_bind {f : η → α} {k : α → Atomic σ ω η κ ε β} {xs : ℕ → η} {s : σ} :
    (draw f >>= k).alone xs s = (k (f (xs 0))).alone (fun n => xs (n + 1)) s :=
  rfl

theorem alone_call_bind {o : ω} {f : σ → α} {k : α → Atomic σ ω η κ ε β} {xs : ℕ → η} {s : σ} :
    (call o f >>= k).alone xs s = (k (f s)).alone xs (Access.perform o s) :=
  rfl

/-- A failure at the beginning is the failure of the whole. -/
theorem alone_bind_error {p : Atomic σ ω η κ ε α} {f : α → Atomic σ ω η κ ε β} {xs : ℕ → η}
    {s : σ} {e : ε} (h : (p.alone xs s).1 = some (.error e)) :
    ((p >>= f).alone xs s).1 = some (.error e) := by
  change ((p.bind f).alone xs s).1 = _
  induction p generalizing xs s with
  | ret a => simp [alone] at h
  | fail e' =>
      have he : e' = e := by simpa [alone] using h
      rw [he]
      rfl
  | halt => simp [alone] at h
  | input k ih => exact ih (xs 0) h
  | access o k ih => exact ih s h
  | lock key next ih => exact ih h
  | unlock key next ih => exact ih h

/-- Alone from `s` on, and with inputs that meet `ok`, the handler answers as `Q` says or
fails as `E` says. -/
def After (ok : η → Prop) (Q : α → σ → Prop) (E : ε → σ → Prop) : Atomic σ ω η κ ε α → σ → Prop
  | ret a, s => Q a s
  | fail e, s => E e s
  | halt, _ => False
  | input k, s => ∀ x, ok x → After ok Q E (k x) s
  | access o k, s => After ok Q E (k s) (Access.perform o s)
  | lock _ next, s => After ok Q E next s
  | unlock _ next, s => After ok Q E next s

variable {ok : η → Prop} {Q Q' : α → σ → Prop} {E E' : ε → σ → Prop} {s : σ}

theorem After.mono {p : Atomic σ ω η κ ε α} (h : p.After ok Q E s)
    (hQ : ∀ a t, Q a t → Q' a t) (hE : ∀ e t, E e t → E' e t) : p.After ok Q' E' s := by
  induction p generalizing s with
  | ret a => exact hQ a s h
  | fail e => exact hE e s h
  | halt => exact h
  | input k ih => exact fun x hx => ih x (h x hx)
  | access o k ih => exact ih s h
  | lock key next ih => exact ih h
  | unlock key next ih => exact ih h

theorem After.alone {p : Atomic σ ω η κ ε α} (h : p.After ok Q E s) {xs : ℕ → η}
    (hxs : ∀ n, ok (xs n)) :
    (∃ a, (p.alone xs s).1 = some (.ok a) ∧ Q a (p.effect xs s)) ∨
      ∃ e, (p.alone xs s).1 = some (.error e) ∧ E e (p.effect xs s) := by
  induction p generalizing s xs with
  | ret a => exact Or.inl ⟨a, rfl, h⟩
  | fail e => exact Or.inr ⟨e, rfl, h⟩
  | halt => exact h.elim
  | input k ih => exact ih (xs 0) (h (xs 0) (hxs 0)) fun n => hxs (n + 1)
  | access o k ih => exact ih s h hxs
  | lock key next ih => exact ih h hxs
  | unlock key next ih => exact ih h hxs

/-- What holds of the store however the handler ends. -/
theorem After.effect {I : σ → Prop} {p : Atomic σ ω η κ ε α}
    (h : p.After ok (fun _ => I) (fun _ => I) s) {xs : ℕ → η} (hxs : ∀ n, ok (xs n)) :
    I (p.effect xs s) := by
  rcases h.alone hxs with ⟨a, -, ha⟩ | ⟨e, -, he⟩
  · exact ha
  · exact he

theorem after_bind {p : Atomic σ ω η κ ε α} {f : α → Atomic σ ω η κ ε β} {R : β → σ → Prop}
    (h : p.After ok (fun a t => (f a).After ok R E t) E s) : (p >>= f).After ok R E s := by
  change (p.bind f).After ok R E s
  induction p generalizing s with
  | ret a => exact h
  | fail e => exact h
  | halt => exact h
  | input k ih => exact fun x hx => ih x (h x hx)
  | access o k ih => exact ih s h
  | lock key next ih => exact ih h
  | unlock key next ih => exact ih h

theorem after_check {x : Except ε α} (hok : ∀ a, x = .ok a → Q a s)
    (herror : ∀ e, x = .error e → E e s) :
    (check x : Atomic σ ω η κ ε α).After ok Q E s := by
  cases x with
  | ok a => exact hok a rfl
  | error e => exact herror e rfl

theorem after_draw_bind {f : η → α} {k : α → Atomic σ ω η κ ε β} {R : β → σ → Prop}
    (h : ∀ x, ok x → (k (f x)).After ok R E s) : (draw f >>= k).After ok R E s :=
  h

theorem after_call_bind {o : ω} {f : σ → α} {k : α → Atomic σ ω η κ ε β} {R : β → σ → Prop}
    (h : (k (f s)).After ok R E (Access.perform o s)) : (call o f >>= k).After ok R E s :=
  h

theorem after_attempt {p : Atomic σ ω η κ ε α} {R : Except ε α → σ → Prop} {D : δ → σ → Prop}
    (h : p.After ok (fun a => R (.ok a)) (fun e => R (.error e)) s) :
    (attempt p : Atomic σ ω η κ δ (Except ε α)).After ok R D s := by
  induction p generalizing s with
  | ret a => exact h
  | fail e => exact h
  | halt => exact h
  | input k ih => exact fun x hx => ih x (h x hx)
  | access o k ih => exact ih s h
  | lock key next ih => exact ih h
  | unlock key next ih => exact ih h

theorem after_locked {key : κ} {p : Atomic σ ω η κ ε α} (h : p.After ok Q E s) :
    (locked key p).After ok Q E s := by
  change (releasing key p).After ok Q E s
  induction p generalizing s with
  | ret a => exact h
  | fail e => exact h
  | halt => exact h
  | input k ih => exact fun x hx => ih x (h x hx)
  | access o k ih => exact ih s h
  | lock key' next ih => exact ih h
  | unlock key' next ih => exact ih h

end Atomic

/-! ## Handlers that only read -/

namespace Atomic

variable {σ ω η κ ε α β : Type} [Access σ ω]

/-- The beginning has answered; the rest goes on from there. -/
theorem alone_bind_ok {p : Atomic σ ω η κ ε α} {f : α → Atomic σ ω η κ ε β} {xs : ℕ → η}
    {s t : σ} {a : α} (h : p.alone xs s = (some (.ok a), t)) :
    ∃ ys, (p >>= f).alone xs s = (f a).alone ys t := by
  change ∃ ys, (p.bind f).alone xs s = (f a).alone ys t
  induction p generalizing xs s with
  | ret b =>
      obtain ⟨hb, rfl⟩ := Prod.mk.inj h
      obtain rfl := Except.ok.inj (Option.some.inj hb)
      exact ⟨xs, rfl⟩
  | fail e => simp [alone] at h
  | halt => simp [alone] at h
  | input k ih => exact ih (xs 0) h
  | access o k ih => exact ih s h
  | lock key next ih => exact ih h
  | unlock key next ih => exact ih h

theorem alone_bind_fail {p : Atomic σ ω η κ ε α} {f : α → Atomic σ ω η κ ε β} {xs : ℕ → η}
    {s t : σ} {e : ε} (h : p.alone xs s = (some (.error e), t)) :
    (p >>= f).alone xs s = (some (.error e), t) := by
  change (p.bind f).alone xs s = _
  induction p generalizing xs s with
  | ret b => simp [alone] at h
  | fail e' => simpa [Atomic.bind, alone] using h
  | halt => simp [alone] at h
  | input k ih => exact ih (xs 0) h
  | access o k ih => exact ih s h
  | lock key next ih => exact ih h
  | unlock key next ih => exact ih h

/-- The outcome of a handler whose answer is put in another form. -/
theorem alone_bind_pure (p : Atomic σ ω η κ ε α) (f : α → β) (xs : ℕ → η) (s : σ) :
    (p >>= fun a => pure (f a)).alone xs s =
      ((p.alone xs s).1.map (Except.map f), (p.alone xs s).2) := by
  change (p.bind fun a => ret (f a)).alone xs s = _
  induction p generalizing xs s with
  | ret a => rfl
  | fail e => rfl
  | halt => rfl
  | input k ih => exact ih (xs 0) _ s
  | access o k ih => exact ih s xs _
  | lock key next ih => exact ih xs s
  | unlock key next ih => exact ih xs s

/-- Alone, the handler leaves the store as it is and answers as `f` says. -/
def Reads (p : Atomic σ ω η κ ε α) (f : σ → Except ε α) : Prop :=
  ∀ xs s, p.alone xs s = (some (f s), s)

theorem reads_check (x : Except ε α) : (check x : Atomic σ ω η κ ε α).Reads fun _ => x := by
  intro xs s
  cases x <;> rfl

theorem reads_bind {p : Atomic σ ω η κ ε α} {f : σ → Except ε α}
    {g : α → Atomic σ ω η κ ε β} {h : α → σ → Except ε β} (hp : p.Reads f)
    (hg : ∀ a, (g a).Reads (h a)) : (p >>= g).Reads fun s => f s >>= fun a => h a s := by
  intro xs s
  have hfirst := hp xs s
  change _ = (some (f s >>= fun a => h a s), s)
  cases hf : f s with
  | error e =>
      rw [hf] at hfirst
      exact alone_bind_fail hfirst
  | ok a =>
      rw [hf] at hfirst
      obtain ⟨ys, hrest⟩ := alone_bind_ok (f := g) hfirst
      exact hrest.trans (hg a ys s)

/-- A protocol that asks nothing of the store is kept by a handler alone. -/
theorem Safe.effect {P : Protocol σ ω} {Q : α → σ → Prop} {E : ε → σ → Prop}
    {p : Atomic σ ω η κ ε α} {s : σ} (h : p.Safe P Q E s) (hmeets : ∀ o t, P.Meets o t)
    (hinv : P.Inv s) (xs : ℕ → η) : P.Inv (p.effect xs s) := by
  induction p generalizing xs s with
  | ret a => exact hinv
  | fail e => exact hinv
  | halt => exact hinv
  | input k ih => exact ih (xs 0) (h (xs 0)) hinv _
  | access o k ih =>
      obtain ⟨hkeeps, -, hrest⟩ := h s (P.grows_refl s) hinv (hmeets o s)
      exact ih s hrest hkeeps xs
  | lock key next ih => exact ih h hinv xs
  | unlock key next ih => exact ih h hinv xs

end Atomic

/-! ## One handler of a pool -/

namespace Pool

variable {ι σ ω η κ ε α : Type} [DecidableEq ι] [DecidableEq κ] [Access σ ω] [IsEmpty κ]

/-- Where there are no locks, a handler can come to its answer while the others wait. -/
theorem exec_alone {m : Pool ι σ ω η κ ε α} {i : ι} {p : Atomic σ ω η κ ε α}
    (hp : m.handler i = p) {xs : ℕ → η} {answer : Except ε α}
    (h : (p.alone xs m.store).1 = some answer) :
    ∃ events, (m.exec events).store = p.effect xs m.store ∧
      (m.exec events).handler i = Atomic.check answer ∧
      ∀ j, j ≠ i → (m.exec events).handler j = m.handler j := by
  have hstep : ∀ {m m' : Pool ι σ ω η κ ε α} {x : η} {q : Atomic σ ω η κ ε α},
      m.run i x = m'.resume i q → (∀ j, m'.handler j = m.handler j) →
        (m.run i x).handler i = q ∧ ∀ j, j ≠ i → (m.run i x).handler j = m.handler j := by
    intro m m' x q hrun hsame
    rw [hrun]
    refine ⟨Function.update_self .., fun j hj => ?_⟩
    exact (Function.update_of_ne hj ..).trans (hsame j)
  induction p generalizing m xs with
  | ret a =>
      obtain rfl : Except.ok a = answer := Option.some.inj h
      exact ⟨[], rfl, hp, fun _ _ => rfl⟩
  | fail e =>
      obtain rfl : Except.error e = answer := Option.some.inj h
      exact ⟨[], rfl, hp, fun _ _ => rfl⟩
  | halt => contradiction
  | input k ih =>
      have hrun : m.run i (xs 0) = m.resume i (k (xs 0)) := by
        unfold run
        rw [hp]
      obtain ⟨hself, hothers⟩ := hstep hrun fun _ => rfl
      have hstore : (m.run i (xs 0)).store = m.store := by
        rw [hrun]
        rfl
      rw [← hstore] at h
      change ((k (xs 0)).alone (fun n => xs (n + 1)) (m.run i (xs 0)).store).1 = some answer at h
      obtain ⟨events, hend, hanswer, hrest⟩ := ih (xs 0) hself h
      refine ⟨.run i (xs 0) :: events, ?_, hanswer, fun j hj => (hrest j hj).trans (hothers j hj)⟩
      rw [hstore] at hend
      exact hend
  | access o k ih =>
      have hrun : m.run i (xs 0) =
          { m with store := Access.perform o m.store }.resume i (k m.store) := by
        unfold run
        rw [hp]
      obtain ⟨hself, hothers⟩ := hstep hrun fun _ => rfl
      have hstore : (m.run i (xs 0)).store = Access.perform o m.store := by
        rw [hrun]
        rfl
      have hk : ((k m.store).alone xs (m.run i (xs 0)).store).1 = some answer := by
        rw [hstore]
        exact h
      obtain ⟨events, hend, hanswer, hrest⟩ := ih m.store hself hk
      refine ⟨.run i (xs 0) :: events, ?_, hanswer, fun j hj => (hrest j hj).trans (hothers j hj)⟩
      rw [hstore] at hend
      exact hend
  | lock key next ih => exact isEmptyElim key
  | unlock key next ih => exact isEmptyElim key

end Pool

end DidHosting
