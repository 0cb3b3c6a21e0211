import DidHosting.Support.Part

/-!
# Handlers confined to some accesses

What a handler can do to a store is often plain from the accesses it makes, whatever it
reads.  `Atomic.Only` says which accesses a handler makes and what its result is like; it
is shown once for a handler, and then holds in a pool and alone.
-/

namespace DidHosting

namespace Atomic

variable {σ ω η κ ε δ α β : Type}

/-- Every access of the handler is as `ok` says, and its result is as `Q` says. -/
def Only (ok : ω → Prop) (Q : α → Prop) : Atomic σ ω η κ ε α → Prop
  | ret a => Q a
  | fail _ => True
  | halt => True
  | input k => ∀ x, Only ok Q (k x)
  | access o k => ok o ∧ ∀ s, Only ok Q (k s)
  | lock _ next => Only ok Q next
  | unlock _ next => Only ok Q next

variable {ok ok' : ω → Prop} {Q Q' : α → Prop}

theorem Only.mono {p : Atomic σ ω η κ ε α} (h : p.Only ok Q) (hok : ∀ o, ok o → ok' o)
    (hQ : ∀ a, Q a → Q' a) : p.Only ok' Q' := by
  induction p with
  | ret a => exact hQ a h
  | fail e => trivial
  | halt => trivial
  | input k ih => exact fun x => ih x (h x)
  | access o k ih => exact ⟨hok o h.1, fun s => ih s (h.2 s)⟩
  | lock key next ih => exact ih h
  | unlock key next ih => exact ih h

theorem only_bind {p : Atomic σ ω η κ ε α} {f : α → Atomic σ ω η κ ε β} {R : β → Prop}
    (h : p.Only ok fun a => (f a).Only ok R) : (p >>= f).Only ok R := by
  change (p.bind f).Only ok R
  induction p with
  | ret a => exact h
  | fail e => trivial
  | halt => trivial
  | input k ih => exact fun x => ih x (h x)
  | access o k ih => exact ⟨h.1, fun s => ih s (h.2 s)⟩
  | lock key next ih => exact ih h
  | unlock key next ih => exact ih h

/-- In sequence, when nothing is to be known of the first result. -/
theorem only_seq {p : Atomic σ ω η κ ε α} {f : α → Atomic σ ω η κ ε β} {R : β → Prop}
    (h : p.Only ok fun _ => True) (hf : ∀ a, (f a).Only ok R) : (p >>= f).Only ok R :=
  only_bind (h.mono (fun _ ho => ho) fun a _ => hf a)

theorem only_check {x : Except ε α} (h : ∀ a, x = .ok a → Q a) :
    (check x : Atomic σ ω η κ ε α).Only ok Q := by
  cases x with
  | ok a => exact h a rfl
  | error e => trivial

theorem only_ite {c : Prop} [Decidable c] {p q : Atomic σ ω η κ ε α} (hp : p.Only ok Q)
    (hq : q.Only ok Q) : (if c then p else q).Only ok Q := by
  split
  · exact hp
  · exact hq

theorem only_draw_bind {f : η → α} {k : α → Atomic σ ω η κ ε β} {R : β → Prop}
    (h : ∀ x, (k (f x)).Only ok R) : (draw f >>= k).Only ok R :=
  h

theorem only_call_bind {o : ω} {f : σ → α} {k : α → Atomic σ ω η κ ε β} {R : β → Prop}
    (ho : ok o) (h : ∀ s, (k (f s)).Only ok R) : (call o f >>= k).Only ok R :=
  ⟨ho, h⟩

theorem only_attempt {p : Atomic σ ω η κ ε α} {R : Except ε α → Prop}
    (h : p.Only ok fun a => R (.ok a)) (herror : ∀ e, R (.error e)) :
    (attempt p : Atomic σ ω η κ δ (Except ε α)).Only ok R := by
  induction p with
  | ret a => exact h
  | fail e => exact herror e
  | halt => trivial
  | input k ih => exact fun x => ih x (h x)
  | access o k ih => exact ⟨h.1, fun s => ih s (h.2 s)⟩
  | lock key next ih => exact ih h
  | unlock key next ih => exact ih h

theorem only_locked {key : κ} {p : Atomic σ ω η κ ε α} (h : p.Only ok Q) :
    (locked key p).Only ok Q := by
  change (releasing key p).Only ok Q
  induction p with
  | ret a => exact h
  | fail e => trivial
  | halt => trivial
  | input k ih => exact fun x => ih x (h x)
  | access o k ih => exact ⟨h.1, fun s => ih s (h.2 s)⟩
  | lock key' next ih => exact ih h
  | unlock key' next ih => exact ih h

section

variable [Access σ ω]

/-- A handler whose accesses keep to a protocol, each in every store. -/
theorem Only.safe {P : Protocol σ ω} {p : Atomic σ ω η κ ε α} (h : p.Only ok Q)
    (hok : ∀ o t, ok o → P.Inv t → P.Meets o t →
      P.Inv (Access.perform o t) ∧ P.Grows t (Access.perform o t)) (s : σ) :
    p.Safe P (fun a _ => Q a) (fun _ _ => True) s := by
  induction p generalizing s with
  | ret a => exact h
  | fail e => trivial
  | halt => trivial
  | input k ih => exact fun x => ih x (h x) s
  | access o k ih =>
      intro t _ hinv hmeets
      obtain ⟨hkeeps, hgrows⟩ := hok o t h.1 hinv hmeets
      exact ⟨hkeeps, hgrows, ih t (h.2 t) _⟩
  | lock key next ih => exact ih h s
  | unlock key next ih => exact ih h s

theorem Only.safe_bind {P : Protocol σ ω} {p : Atomic σ ω η κ ε α}
    {f : α → Atomic σ ω η κ ε β} {R : β → σ → Prop} (h : p.Only ok Q)
    (hok : ∀ o t, ok o → P.Inv t → P.Meets o t →
      P.Inv (Access.perform o t) ∧ P.Grows t (Access.perform o t)) {s : σ}
    (hf : ∀ a t, Q a → (f a).Safe P R (fun _ _ => True) t) :
    (p >>= f).Safe P R (fun _ _ => True) s := by
  refine Atomic.safe_bind ?_
  refine (h.safe hok s).mono ?_ ?_
  · intro a t ha
    exact hf a t ha
  · intro e t _
    trivial

end

end Atomic

namespace Part

variable {σ ω ρ π η θ κ ℓ ε δ α : Type} [Access σ ω] [Access ρ π] {part : Part σ ω ρ π}
  {seen : η → θ} {key : ℓ → κ} {err : δ → ε}

theorem only_lift {ok : π → Prop} {ok' : ω → Prop} {Q : α → Prop} {p : Atomic ρ π θ ℓ δ α}
    (h : p.Only ok Q) (hok : ∀ o, ok o → ok' (part.access o)) :
    (part.lift seen key err p).Only ok' Q := by
  induction p with
  | ret a => exact h
  | fail e => trivial
  | halt => trivial
  | input k ih => exact fun x => ih (seen x) (h (seen x))
  | access o k ih => exact ⟨hok o h.1, fun s => ih (part.get s) (h.2 (part.get s))⟩
  | lock l next ih => exact ih h
  | unlock l next ih => exact ih h

theorem only_lift_part {ok' : ω → Prop} (p : Atomic ρ π θ ℓ δ α)
    (hok : ∀ o, ok' (part.access o)) :
    (part.lift seen key err p).Only ok' fun _ => True := by
  induction p with
  | ret a => trivial
  | fail e => trivial
  | halt => trivial
  | input k ih => exact fun x => ih (seen x)
  | access o k ih => exact ⟨hok o, fun s => ih (part.get s)⟩
  | lock l next ih => exact ih
  | unlock l next ih => exact ih

end Part

end DidHosting
