import DidHosting.Support.Alone

/-!
# Handlers on a part of a store

A store often has parts with accesses of their own.  A handler on a part is a handler on
the whole store, and what is known of it on the part holds there.
-/

namespace DidHosting

/-- A part of type `ρ` of a store of type `σ`: an access of the part is one of the store,
and does to the part what it says. -/
structure Part (σ ω ρ π : Type) [Access σ ω] [Access ρ π] where
  get : σ → ρ
  access : π → ω
  get_perform : ∀ o s, get (Access.perform (access o) s) = Access.perform o (get s)

namespace Part

variable {σ ω ρ π η θ κ ℓ ε δ α β : Type} [Access σ ω] [Access ρ π] (part : Part σ ω ρ π)
  (seen : η → θ) (key : ℓ → κ) (err : δ → ε)

/-- A handler on the part, as one on the store. -/
def lift : Atomic ρ π θ ℓ δ α → Atomic σ ω η κ ε α
  | .ret a => .ret a
  | .fail e => .fail (err e)
  | .halt => .halt
  | .input k => .input fun x => lift (k (seen x))
  | .access o k => .access (part.access o) fun s => lift (k (part.get s))
  | .lock l next => .lock (key l) (lift next)
  | .unlock l next => .unlock (key l) (lift next)

/-- A protocol of the part, which asks nothing of other accesses. -/
def protocol (P : Protocol ρ π) (Meets : ω → σ → Prop) : Protocol σ ω where
  Inv s := P.Inv (part.get s)
  Grows s t := P.Grows (part.get s) (part.get t)
  Meets := Meets
  grows_refl s := P.grows_refl (part.get s)
  grows_trans s t u := P.grows_trans (part.get s) (part.get t) (part.get u)

variable {part seen key err}

theorem safe_lift {P : Protocol ρ π} {Meets : ω → σ → Prop} {p : Atomic ρ π θ ℓ δ α}
    {Q : α → ρ → Prop} {E : δ → ρ → Prop} {R : α → σ → Prop} {F : ε → σ → Prop} {s : σ}
    (h : p.Safe P Q E (part.get s))
    (hmeets : ∀ o t, Meets (part.access o) t → P.Meets o (part.get t))
    (hQ : ∀ a t, Q a (part.get t) → R a t) (hE : ∀ e t, E e (part.get t) → F (err e) t) :
    (part.lift seen key err p).Safe (part.protocol P Meets) R F s := by
  induction p generalizing s with
  | ret a => exact hQ a s h
  | fail e => exact hE e s h
  | halt => trivial
  | input k ih => exact fun x => ih (seen x) (h (seen x))
  | access o k ih =>
      intro t hgrows hinv ho
      obtain ⟨hkeeps, hlater, hrest⟩ := h (part.get t) hgrows hinv (hmeets o t ho)
      rw [← part.get_perform] at hkeeps hlater hrest
      exact ⟨hkeeps, hlater, ih (part.get t) hrest⟩
  | lock l next ih => exact ih h
  | unlock l next ih => exact ih h

/-- A handler on the part leaves there what it does alone, and keeps what no access of the
part changes. -/
theorem after_lift {ok : η → Prop} {ok' : θ → Prop} {p : Atomic ρ π θ ℓ δ α}
    {Q : α → ρ → Prop} {E : δ → ρ → Prop} {R : α → σ → Prop} {F : ε → σ → Prop}
    {I : σ → Prop} {s : σ} (h : p.After ok' Q E (part.get s)) (hs : I s)
    (hok : ∀ x, ok x → ok' (seen x))
    (hkept : ∀ o t, I t → I (Access.perform (part.access o) t))
    (hQ : ∀ a t, I t → Q a (part.get t) → R a t)
    (hE : ∀ e t, I t → E e (part.get t) → F (err e) t) :
    (part.lift seen key err p).After ok R F s := by
  induction p generalizing s with
  | ret a => exact hQ a s hs h
  | fail e => exact hE e s hs h
  | halt => exact h
  | input k ih => exact fun x hx => ih (seen x) (h (seen x) (hok x hx)) hs
  | access o k ih =>
      apply ih (part.get s)
      · rw [part.get_perform]
        exact h
      · exact hkept o s hs
  | lock l next ih => exact ih h hs
  | unlock l next ih => exact ih h hs

end Part

end DidHosting
