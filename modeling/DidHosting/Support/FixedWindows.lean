import Mathlib.Data.List.Count
import Mathlib.Order.Nat

/-!
# Fixed windows

A budget spent in windows of a fixed length.  A window opens at some instant and takes what
is spent until it is over; whoever keeps the budget keeps the window that is open now and
nothing of those before, and may forget it once it is over.  What was charged is written down
beside, the latest first: no window takes more charges than the limit, and the windows do
not overlap.
-/

namespace DidHosting

namespace FixedWindows

/-- The window that is open: when it opened, and what was spent in it. -/
structure Window where
  start : ℕ
  spent : ℕ
deriving DecidableEq, Repr

/-- One charge: the window it was made in, and when it was made. -/
structure Charge where
  window : ℕ
  time : ℕ
deriving DecidableEq, Repr

/-- The charges made in the window that opened at `start`. -/
def within (start : ℕ) (log : List Charge) : ℕ :=
  log.countP (·.window = start)

/-- A window that is over is followed by one that opens now. -/
def Window.rolled (length now : ℕ) (w : Window) : Window :=
  if length ≤ now - w.start then ⟨now, 0⟩ else w

/-- The charges fall into windows of `length` that do not overlap, at most `limit` of them
into each. -/
structure Holds (length limit : ℕ) (log : List Charge) : Prop where
  inWindow : ∀ c ∈ log, c.window ≤ c.time ∧ c.time < c.window + length
  apart : ∀ c ∈ log, ∀ c' ∈ log, c.window < c'.window → c.window + length ≤ c'.window
  atMost : ∀ start, within start log ≤ limit

/-- `w` is what has to be known at `now` about charges that hold the limit. -/
structure Describes (length limit now : ℕ) (w : Option Window) (log : List Charge) : Prop
    extends Holds length limit log where
  past : ∀ c ∈ log, c.time ≤ now
  opened : ∀ v, w = some v → v.start ≤ now
  /-- The window of a charge is over, or it is the one that is open. -/
  settled : ∀ c ∈ log, c.window + length ≤ now ∨ ∃ v, w = some v ∧ v.start = c.window
  /-- While a window is open, its charges were paid for. -/
  paid : ∀ v, w = some v → now < v.start + length → within v.start log ≤ v.spent
  /-- The windows before the open one were over when it opened. -/
  before : ∀ v, w = some v → now < v.start + length →
    ∀ c ∈ log, c.window = v.start ∨ c.window + length ≤ v.start

section Rolling

variable {length now : ℕ} {w : Window}

theorem Window.rolled_of_le (hstart : w.start ≤ now) (h : w.start + length ≤ now) :
    w.rolled length now = ⟨now, 0⟩ := by
  rw [Window.rolled, if_pos (by omega)]

theorem Window.rolled_of_lt (hstart : w.start ≤ now) (h : now < w.start + length) :
    w.rolled length now = w := by
  rw [Window.rolled, if_neg (by omega)]

theorem Window.lt_rolled (hlength : 0 < length) (hstart : w.start ≤ now) :
    now < (w.rolled length now).start + length := by
  by_cases hover : w.start + length ≤ now
  · rw [Window.rolled_of_le hstart hover]
    exact Nat.lt_add_of_pos_right hlength
  · rw [Window.rolled_of_lt hstart (not_le.mp hover)]
    exact not_le.mp hover

end Rolling

theorem within_cons (start : ℕ) (c : Charge) (log : List Charge) :
    within start (c :: log) = within start log + if c.window = start then 1 else 0 := by
  by_cases h : c.window = start
  · simp [within, h]
  · simp [within, h]

theorem within_eq_zero {start : ℕ} {log : List Charge} (h : ∀ c ∈ log, c.window ≠ start) :
    within start log = 0 := by
  rw [within, List.countP_eq_zero]
  simpa using h

namespace Describes

variable {length limit now : ℕ} {log : List Charge} {w : Option Window} {v : Window}

theorem nil (h : ∀ v, w = some v → v.start ≤ now) : Describes length limit now w [] where
  inWindow := by simp
  apart := by simp
  atMost := by simp [within]
  past := by simp
  opened := h
  settled := by simp
  paid := by simp [within]
  before := by simp

theorem wait (h : Describes length limit now w log) {later : ℕ} (hle : now ≤ later) :
    Describes length limit later w log where
  toHolds := h.toHolds
  past c hc := (h.past c hc).trans hle
  opened v hv := (h.opened v hv).trans hle
  settled c hc := (h.settled c hc).imp_left fun hover => hover.trans hle
  paid v hv hlt := h.paid v hv (hle.trans_lt hlt)
  before v hv hlt := h.before v hv (hle.trans_lt hlt)

/-- A window that is over may be forgotten. -/
theorem forget (h : Describes length limit now (some v) log) (hover : v.start + length ≤ now) :
    Describes length limit now none log where
  toHolds := h.toHolds
  past := h.past
  opened := by simp
  settled c hc := by
    apply Or.inl
    obtain hover' | ⟨u, hu, hstart⟩ := h.settled c hc
    · exact hover'
    · obtain rfl := Option.some.inj hu
      rwa [← hstart]
  paid := by simp
  before := by simp

theorem allOver (h : Describes length limit now none log) :
    ∀ c ∈ log, c.window + length ≤ now := by
  intro c hc
  obtain hover | ⟨u, hu, -⟩ := h.settled c hc
  · exact hover
  · simp at hu

/-- Where no window is open, a new one starts with nothing spent: now, or at the
beginning of time. -/
theorem reopen (h : Describes length limit now none log) {start : ℕ}
    (hstart : start = now ∨ start = 0) : Describes length limit now (some ⟨start, 0⟩) log where
  toHolds := h.toHolds
  past := h.past
  opened u hu := by
    obtain rfl := Option.some.inj hu
    change start ≤ now
    omega
  settled c hc := Or.inl (h.allOver c hc)
  paid u hu hlt := by
    obtain rfl := Option.some.inj hu
    apply Nat.le_of_eq
    apply within_eq_zero
    intro c hc heq
    have hover := h.allOver c hc
    rw [heq] at hover
    exact absurd hlt (not_lt.mpr hover)
  before u hu hlt c hc := by
    obtain rfl := Option.some.inj hu
    have hover := h.allOver c hc
    change now < start + length at hlt
    change c.window = start ∨ c.window + length ≤ start
    omega

/-- A window that is over makes room for the next. -/
theorem roll (h : Describes length limit now (some v) log) :
    Describes length limit now (some (v.rolled length now)) log := by
  have hstart := h.opened v rfl
  by_cases hover : v.start + length ≤ now
  · rw [Window.rolled_of_le hstart hover]
    exact (h.forget hover).reopen (Or.inl rfl)
  · rw [Window.rolled_of_lt hstart (not_le.mp hover)]
    exact h

/-- A charge that leaves the open window within the limit. -/
theorem charge (h : Describes length limit now (some v) log) (hopen : now < v.start + length)
    {cost : ℕ} (hcost : 0 < cost) (hroom : v.spent + cost ≤ limit) :
    Describes length limit now (some ⟨v.start, v.spent + cost⟩) (⟨v.start, now⟩ :: log) where
  inWindow := by
    intro c hc
    obtain rfl | hc := List.mem_cons.mp hc
    · exact ⟨h.opened v rfl, hopen⟩
    · exact h.inWindow c hc
  apart := by
    have hbefore := h.before v rfl hopen
    intro c hc c' hc' hlt
    obtain rfl | hc := List.mem_cons.mp hc
    · obtain rfl | hc' := List.mem_cons.mp hc'
      · exact absurd hlt (lt_irrefl _)
      · have := hbefore c' hc'
        change v.start < c'.window at hlt
        change v.start + length ≤ c'.window
        omega
    · obtain rfl | hc' := List.mem_cons.mp hc'
      · have := hbefore c hc
        change c.window < v.start at hlt
        change c.window + length ≤ v.start
        omega
      · exact h.apart c hc c' hc' hlt
  atMost start := by
    rw [within_cons]
    by_cases hstart : v.start = start
    · have hpaid := h.paid v rfl hopen
      rw [← hstart, if_pos rfl]
      omega
    · rw [if_neg hstart]
      exact h.atMost start
  past := by
    intro c hc
    obtain rfl | hc := List.mem_cons.mp hc
    · exact le_refl now
    · exact h.past c hc
  opened u hu := by
    obtain rfl := Option.some.inj hu
    exact h.opened v rfl
  settled := by
    intro c hc
    obtain rfl | hc := List.mem_cons.mp hc
    · exact Or.inr ⟨_, rfl, rfl⟩
    · obtain hover | ⟨u, hu, hstart⟩ := h.settled c hc
      · exact Or.inl hover
      · obtain rfl := Option.some.inj hu
        exact Or.inr ⟨_, rfl, hstart⟩
  paid u hu hlt := by
    obtain rfl := Option.some.inj hu
    have hpaid := h.paid v rfl hopen
    change within v.start (⟨v.start, now⟩ :: log) ≤ v.spent + cost
    rw [within_cons, if_pos rfl]
    omega
  before u hu hlt := by
    obtain rfl := Option.some.inj hu
    intro c hc
    obtain rfl | hc := List.mem_cons.mp hc
    · exact Or.inl rfl
    · exact h.before v rfl hopen c hc

end Describes

end FixedWindows

end DidHosting
