import Mathlib.Tactic.Common

/-!
# Runs of a step function

A run applies a step function to a list of events.  A condition on a run is a
condition on every step, stated on the state before it; an invariant that each
step meeting the condition keeps holds at the end of every run that meets it.
-/

namespace DidHosting

namespace Run

variable {σ ε : Type} (step : σ → ε → σ)

/-- The state after the events. -/
def exec (s : σ) (events : List ε) : σ :=
  events.foldl step s

@[simp] theorem exec_nil (s : σ) : exec step s [] = s := by
  unfold exec
  rw [List.foldl_nil]

@[simp] theorem exec_cons (s : σ) (e : ε) (events : List ε) :
    exec step s (e :: events) = exec step (step s e) events := by
  unfold exec
  rw [List.foldl_cons]

theorem exec_append (s : σ) (events more : List ε) :
    exec step s (events ++ more) = exec step (exec step s events) more :=
  List.foldl_append

theorem exec_concat (s : σ) (events : List ε) (e : ε) :
    exec step s (events ++ [e]) = step (exec step s events) e := by
  rw [exec_append, exec_cons, exec_nil]

/-- Every step of the run meets `ok` in the state before it. -/
def Meets (ok : σ → ε → Prop) : σ → List ε → Prop
  | _, [] => True
  | s, e :: events => ok s e ∧ Meets ok (step s e) events

instance Meets.decidable (ok : σ → ε → Prop) [∀ s e, Decidable (ok s e)] :
    ∀ s events, Decidable (Meets step ok s events)
  | _, [] => inferInstanceAs (Decidable True)
  | s, e :: events =>
      have := Meets.decidable ok (step s e) events
      inferInstanceAs (Decidable (ok s e ∧ Meets step ok (step s e) events))

variable {step}

theorem exec_invariant {ok : σ → ε → Prop} {Inv : σ → Prop}
    (hstep : ∀ s e, ok s e → Inv s → Inv (step s e))
    {s : σ} {events : List ε} (h₀ : Inv s) (hok : Meets step ok s events) :
    Inv (exec step s events) := by
  induction events generalizing s with
  | nil => exact h₀
  | cons e events ih => exact ih (hstep s e hok.1 h₀) hok.2

/-- A condition that holds of every step is met. -/
theorem meets_of_forall {ok : σ → ε → Prop} (h : ∀ s e, ok s e) {s : σ} {events : List ε} :
    Meets step ok s events := by
  induction events generalizing s with
  | nil => trivial
  | cons e events ih => exact ⟨h s e, ih⟩

theorem Meets.mono {ok ok' : σ → ε → Prop} (himp : ∀ s e, ok s e → ok' s e)
    {s : σ} {events : List ε} (h : Meets step ok s events) : Meets step ok' s events := by
  induction events generalizing s with
  | nil => trivial
  | cons e events ih => exact ⟨himp s e h.1, ih h.2⟩

theorem Meets.and {ok ok' : σ → ε → Prop} {s : σ} {events : List ε}
    (h : Meets step ok s events) (h' : Meets step ok' s events) :
    Meets step (fun s e => ok s e ∧ ok' s e) s events := by
  induction events generalizing s with
  | nil => trivial
  | cons e events ih => exact ⟨⟨h.1, h'.1⟩, ih h.2 h'.2⟩

theorem Meets.append {ok : σ → ε → Prop} {s : σ} {events more : List ε}
    (h : Meets step ok s events) (hmore : Meets step ok (exec step s events) more) :
    Meets step ok s (events ++ more) := by
  induction events generalizing s with
  | nil => exact hmore
  | cons e events ih => exact ⟨h.1, ih h.2 hmore⟩

theorem Meets.concat {ok : σ → ε → Prop} {s : σ} {events : List ε} {e : ε}
    (h : Meets step ok s events) (he : ok (exec step s events) e) :
    Meets step ok s (events ++ [e]) :=
  h.append ⟨he, trivial⟩

theorem Meets.of_append {ok : σ → ε → Prop} {s : σ} {events more : List ε}
    (h : Meets step ok s (events ++ more)) :
    Meets step ok s events ∧ Meets step ok (exec step s events) more := by
  induction events generalizing s with
  | nil => exact ⟨trivial, h⟩
  | cons e events ih =>
      obtain ⟨hrest, hmore⟩ := ih h.2
      exact ⟨⟨h.1, hrest⟩, hmore⟩

/-- What an invariant gives at each step of a run, the run meets. -/
theorem Meets.of_invariant {ok ok' : σ → ε → Prop} {Inv : σ → Prop}
    (hgives : ∀ s e, ok s e → Inv s → ok' s e) (hstep : ∀ s e, ok s e → Inv s → Inv (step s e))
    {s : σ} {events : List ε} (h₀ : Inv s) (hok : Meets step ok s events) :
    Meets step ok' s events := by
  induction events generalizing s with
  | nil => trivial
  | cons e events ih =>
      exact ⟨hgives s e hok.1 h₀, ih (hstep s e hok.1 h₀) hok.2⟩

/-- The invariant rule for a run without conditions. -/
theorem exec_invariant_of_step {Inv : σ → Prop}
    (hstep : ∀ s e, Inv s → Inv (step s e)) {s : σ} (events : List ε) (h₀ : Inv s) :
    Inv (exec step s events) := by
  induction events generalizing s with
  | nil => exact h₀
  | cons e events ih => exact ih (hstep s e h₀)

/-! ## What is seen of a run -/

section Seen

variable {φ : Type} (step) (seen : σ → ε → Option φ)

/-- What is seen of the steps, in order. -/
def history : σ → List ε → List φ
  | _, [] => []
  | s, e :: events => (seen s e).toList ++ history (step s e) events

variable {step seen}

/-- What was seen up to some step is what was seen of the run until then. -/
theorem history_split {s : σ} {events : List ε} {past later : List φ} {f : φ}
    (h : history step seen s events = past ++ f :: later) :
    ∃ before, history step seen s before = past ++ [f] := by
  induction events generalizing s past with
  | nil => simp [history] at h
  | cons e events ih =>
      rw [history] at h
      cases hseen : seen s e with
      | none =>
          rw [hseen, Option.toList_none, List.nil_append] at h
          obtain ⟨before, hbefore⟩ := ih h
          refine ⟨e :: before, ?_⟩
          rw [history, hseen]
          exact hbefore
      | some g =>
          rw [hseen, Option.toList_some, List.singleton_append] at h
          cases past with
          | nil =>
              obtain ⟨rfl, -⟩ := List.cons.inj h
              refine ⟨[e], ?_⟩
              rw [history, hseen]
              rfl
          | cons g' past =>
              obtain ⟨hg, hrest⟩ := List.cons.inj h
              obtain ⟨before, hbefore⟩ := ih hrest
              refine ⟨e :: before, ?_⟩
              rw [history, hseen, hbefore, hg]
              rfl

/-- The invariant rule for a state together with what was seen on the way there. -/
theorem history_invariant {ok : σ → ε → Prop} {Inv : σ → List φ → Prop}
    (hstep : ∀ s e h, ok s e → Inv s h → Inv (step s e) (h ++ (seen s e).toList))
    {s : σ} {events : List ε} {h : List φ} (h₀ : Inv s h) (hok : Meets step ok s events) :
    Inv (exec step s events) (h ++ history step seen s events) := by
  induction events generalizing s h with
  | nil =>
      rw [history, List.append_nil]
      exact h₀
  | cons e events ih =>
      rw [history, ← List.append_assoc]
      exact ih (hstep s e h hok.1 h₀) hok.2

end Seen

end Run

end DidHosting
