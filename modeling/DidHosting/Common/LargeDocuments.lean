import Mathlib.Algebra.GroupWithZero.Nat
import Mathlib.Data.List.Induction
import DidHosting.Support.FixedWindows
import DidHosting.Support.Table

/-!
# The budget for large documents

A document above the default size is parsed only for an address whose budget has room: five
such documents in a window of a minute, sixty for all addresses together, and twice as much
for each document after one that did not keep what it claimed.  The windows are those of
`FixedWindows`, one for each address and one for all of them.
-/

namespace DidHosting

open FixedWindows

/-! ## The budget -/

def largeDocumentBudgetPerWindow : ℕ := 5

def largeDocumentBudgetWindowSecs : ℕ := 60

def largeDocumentGlobalBudgetPerWindow : ℕ := 60

def maxTrackedAddresses : ℕ := 10000

/-- The bound of `penalize`. -/
def maxCost : ℕ := 2 ^ 20

structure Bucket where
  spent : ℕ
  windowStart : ℕ
  cost : ℕ
deriving DecidableEq, Repr

/-- `BudgetState`: what is behind the lock of a `LargeDocumentBudget`. -/
structure BudgetState where
  buckets : Table String Bucket
  globalSpent : ℕ
  globalWindowStart : ℕ

def Bucket.window (b : Bucket) : Window :=
  ⟨b.windowStart, b.spent⟩

/-- An address that has not been heard of. -/
def Bucket.fresh (now : ℕ) : Bucket :=
  ⟨0, now, 1⟩

/-- A bucket whose window is over starts the next one. -/
def Bucket.rolled (now : ℕ) (b : Bucket) : Bucket :=
  if largeDocumentBudgetWindowSecs ≤ now - b.windowStart then
    { b with spent := 0, windowStart := now }
  else b

/-- The bucket may not be forgotten: it carries a penalty, or its window is open. -/
def Bucket.atStake (now : ℕ) (b : Bucket) : Bool :=
  1 < b.cost || now - b.windowStart < largeDocumentBudgetWindowSecs

namespace BudgetState

/-- `BudgetState::default`. -/
def empty : BudgetState :=
  ⟨∅, 0, 0⟩

/-- The window of all addresses. -/
def globalWindow (s : BudgetState) : Window :=
  ⟨s.globalWindowStart, s.globalSpent⟩

/-- A global window that is over starts the next one. -/
def rolled (now : ℕ) (s : BudgetState) : BudgetState :=
  if largeDocumentBudgetWindowSecs ≤ now - s.globalWindowStart then
    { s with globalSpent := 0, globalWindowStart := now }
  else s

/-- The map holds as many addresses as it may. -/
def IsFull (s : BudgetState) : Prop :=
  maxTrackedAddresses ≤ s.buckets.keys.length

instance (s : BudgetState) : Decidable s.IsFull :=
  inferInstanceAs (Decidable (maxTrackedAddresses ≤ s.buckets.keys.length))

/-- The addresses with nothing at stake are forgotten. -/
def evicted (now : ℕ) (s : BudgetState) : BudgetState :=
  { s with buckets := s.buckets.retain fun _ b => b.atStake now }

/-- The end of `try_charge`, where the address has a place in the map. -/
def spend (address : String) (now : ℕ) (s : BudgetState) : Except ℕ Unit × BudgetState :=
  let entry := ((s.buckets.lookup address).getD (Bucket.fresh now)).rolled now
  if largeDocumentBudgetPerWindow < entry.spent + entry.cost then
    (.error (entry.windowStart + largeDocumentBudgetWindowSecs - now),
      { s with buckets := s.buckets.insert address entry })
  else
    (.ok (),
      { s with
        buckets := s.buckets.insert address { entry with spent := entry.spent + entry.cost }
        globalSpent := s.globalSpent + 1 })

def tryCharge (address : String) (now : ℕ) (s : BudgetState) : Except ℕ Unit × BudgetState :=
  let s := s.rolled now
  let globalRetry := s.globalWindowStart + largeDocumentBudgetWindowSecs - now
  if largeDocumentGlobalBudgetPerWindow ≤ s.globalSpent then (.error globalRetry, s)
  else if s.IsFull ∧ s.buckets.lookup address = none then
    let s := s.evicted now
    if s.IsFull then (.error globalRetry, s) else s.spend address now
  else s.spend address now

def penalize (address : String) (s : BudgetState) : BudgetState :=
  let entry := (s.buckets.lookup address).getD (Bucket.fresh 0)
  { s with buckets := s.buckets.insert address { entry with cost := min (entry.cost * 2) maxCost } }

def cost (s : BudgetState) (address : String) : ℕ :=
  ((s.buckets.lookup address).map (·.cost)).getD 1

end BudgetState

/-! ## Runs -/

inductive BudgetCall where
  | tryCharge (address : String) (now : ℕ)
  | penalize (address : String)
deriving DecidableEq, Repr

/-- When a charge was tried. -/
def BudgetCall.time : BudgetCall → Option ℕ
  | tryCharge _ now => some now
  | penalize _ => none

/-- The times of the calls, in order. -/
def callTimes (calls : List BudgetCall) : List ℕ :=
  calls.filterMap BudgetCall.time

/-- The clock does not go back. -/
def Chronological (calls : List BudgetCall) : Prop :=
  (callTimes calls).Pairwise (· ≤ ·)

/-- The penalties of an address. -/
def penalties (address : String) (calls : List BudgetCall) : ℕ :=
  calls.count (.penalize address)

/-- A document that was charged: for whom and when, and the windows it was charged to. -/
structure Charged where
  address : String
  time : ℕ
  window : ℕ
  globalWindow : ℕ
deriving DecidableEq, Repr

/-- A budget, and what was charged to it, the latest first. -/
structure BudgetRun where
  state : BudgetState
  charged : List Charged

namespace BudgetRun

/-- What is written down of the outcome of a charge. -/
def recorded (charged : List Charged) (address : String) (now : ℕ) :
    Except ℕ Unit × BudgetState → BudgetRun
  | (.error _, s) => ⟨s, charged⟩
  | (.ok (), s) =>
      { state := s
        charged :=
          { address, time := now
            window := ((s.buckets.lookup address).map (·.windowStart)).getD now
            globalWindow := s.globalWindowStart } :: charged }

def step (run : BudgetRun) : BudgetCall → BudgetRun
  | .tryCharge address now =>
      recorded run.charged address now (run.state.tryCharge address now)
  | .penalize address => { run with state := run.state.penalize address }

/-- A new budget after some calls. -/
def after (calls : List BudgetCall) : BudgetRun :=
  calls.foldl step ⟨BudgetState.empty, []⟩

/-- What an address was charged, and the windows. -/
def chargedTo (run : BudgetRun) (address : String) : List Charge :=
  (run.charged.filter (·.address = address)).map fun c => ⟨c.window, c.time⟩

/-- What all addresses were charged, and the global windows. -/
def chargedGlobally (run : BudgetRun) : List Charge :=
  run.charged.map fun c => ⟨c.globalWindow, c.time⟩

/-- The windows that are kept describe what was charged. -/
structure Sound (run : BudgetRun) (now : ℕ) : Prop where
  global : Describes largeDocumentBudgetWindowSecs largeDocumentGlobalBudgetPerWindow now
    (some run.state.globalWindow) run.chargedGlobally
  address : ∀ a, Describes largeDocumentBudgetWindowSecs largeDocumentBudgetPerWindow now
    ((run.state.buckets.lookup a).map Bucket.window) (run.chargedTo a)
  costly : ∀ a b, run.state.buckets.lookup a = some b → 0 < b.cost

end BudgetRun

/-! ## Windows -/

section Windows

variable {now : ℕ} {b : Bucket} {s : BudgetState}

theorem Bucket.window_rolled :
    (b.rolled now).window = b.window.rolled largeDocumentBudgetWindowSecs now := by
  by_cases h : largeDocumentBudgetWindowSecs ≤ now - b.windowStart
  · simp [Bucket.rolled, Window.rolled, Bucket.window, h]
  · simp [Bucket.rolled, Window.rolled, Bucket.window, h]

theorem Bucket.cost_rolled : (b.rolled now).cost = b.cost := by
  by_cases h : largeDocumentBudgetWindowSecs ≤ now - b.windowStart
  · simp [Bucket.rolled, h]
  · simp [Bucket.rolled, h]

theorem BudgetState.globalWindow_rolled :
    (s.rolled now).globalWindow =
      s.globalWindow.rolled largeDocumentBudgetWindowSecs now := by
  by_cases h : largeDocumentBudgetWindowSecs ≤ now - s.globalWindowStart
  · simp [BudgetState.rolled, Window.rolled, BudgetState.globalWindow, h]
  · simp [BudgetState.rolled, Window.rolled, BudgetState.globalWindow, h]

theorem BudgetState.buckets_rolled : (s.rolled now).buckets = s.buckets := by
  by_cases h : largeDocumentBudgetWindowSecs ≤ now - s.globalWindowStart
  · simp [BudgetState.rolled, h]
  · simp [BudgetState.rolled, h]

theorem BudgetState.lookup_evicted (address : String) :
    (s.evicted now).buckets.lookup address =
      (s.buckets.lookup address).filter (Bucket.atStake now) :=
  Table.lookup_retain _ _ _

end Windows

/-! ## One call -/

namespace BudgetState

/-- The address is in the map, or the map has a place for it once the addresses with nothing
at stake are forgotten. -/
def HasPlace (s : BudgetState) (address : String) (now : ℕ) : Prop :=
  (s.buckets.lookup address).isSome ∨ ¬ s.IsFull ∨ ¬ (s.evicted now).IsFull

/-- The bucket a charge is made to. -/
def entry (s : BudgetState) (address : String) (now : ℕ) : Bucket :=
  ((s.buckets.lookup address).getD (Bucket.fresh now)).rolled now

/-- The seconds until the global window is over. -/
def globalRetry (s : BudgetState) (now : ℕ) : ℕ :=
  s.globalWindowStart + largeDocumentBudgetWindowSecs - now

section TryCharge

variable {s : BudgetState} {address : String} {now : ℕ}

theorem hasPlace_rolled : (s.rolled now).HasPlace address now ↔ s.HasPlace address now := by
  simp [HasPlace, IsFull, evicted, buckets_rolled]

theorem spend_of_room
    (h : (s.entry address now).spent + (s.entry address now).cost ≤
      largeDocumentBudgetPerWindow) :
    s.spend address now =
      (.ok (),
        { s with
          buckets := s.buckets.insert address
            { s.entry address now with
              spent := (s.entry address now).spent + (s.entry address now).cost }
          globalSpent := s.globalSpent + 1 }) :=
  if_neg (not_lt.mpr h)

theorem spend_of_spent
    (h : largeDocumentBudgetPerWindow <
      (s.entry address now).spent + (s.entry address now).cost) :
    s.spend address now =
      (.error ((s.entry address now).windowStart + largeDocumentBudgetWindowSecs - now),
        { s with buckets := s.buckets.insert address (s.entry address now) }) :=
  if_pos h

theorem tryCharge_of_spent
    (h : largeDocumentGlobalBudgetPerWindow ≤ (s.rolled now).globalSpent) :
    s.tryCharge address now = (.error ((s.rolled now).globalRetry now), s.rolled now) :=
  if_pos h

theorem tryCharge_of_full
    (h : (s.rolled now).globalSpent < largeDocumentGlobalBudgetPerWindow)
    (hplace : ¬ s.HasPlace address now) :
    s.tryCharge address now =
      (.error ((s.rolled now).globalRetry now), (s.rolled now).evicted now) := by
  rw [← hasPlace_rolled, HasPlace, not_or, not_or, not_not, not_not] at hplace
  obtain ⟨hnew, hfull, hevicted⟩ := hplace
  have hnone : (s.rolled now).buckets.lookup address = none := by
    simpa using hnew
  rw [tryCharge, if_neg (not_le.mpr h), if_pos ⟨hfull, hnone⟩]
  exact if_pos hevicted

/-- The address has a place: what is left is its own window. -/
theorem tryCharge_of_place
    (h : (s.rolled now).globalSpent < largeDocumentGlobalBudgetPerWindow)
    (hplace : s.HasPlace address now) :
    s.tryCharge address now = (s.rolled now).spend address now ∨
      (s.buckets.lookup address = none ∧
        s.tryCharge address now = ((s.rolled now).evicted now).spend address now) := by
  by_cases hfull : (s.rolled now).IsFull ∧ (s.rolled now).buckets.lookup address = none
  · have hnone : s.buckets.lookup address = none := by
      simpa only [buckets_rolled] using hfull.2
    have hroom : ¬ ((s.rolled now).evicted now).IsFull := by
      rw [← hasPlace_rolled] at hplace
      obtain hsome | hroom | hroom := hplace
      · simp [hfull.2] at hsome
      · exact absurd hfull.1 hroom
      · exact hroom
    apply Or.inr
    refine ⟨hnone, ?_⟩
    rw [tryCharge, if_neg (not_le.mpr h), if_pos hfull]
    exact if_neg hroom
  · apply Or.inl
    rw [tryCharge, if_neg (not_le.mpr h), if_neg hfull]

end TryCharge

end BudgetState

/-! ## What a call preserves -/

namespace BudgetRun

variable {s : BudgetState} {charged : List Charged} {address : String} {now : ℕ}

theorem chargedTo_cons (c : Charged) (a : String) :
    chargedTo ⟨s, c :: charged⟩ a =
      if c.address = a then ⟨c.window, c.time⟩ :: chargedTo ⟨s, charged⟩ a
      else chargedTo ⟨s, charged⟩ a := by
  by_cases h : c.address = a
  · simp [chargedTo, h]
  · simp [chargedTo, h]

namespace Sound

theorem wait {run : BudgetRun} (h : run.Sound now) {later : ℕ} (hle : now ≤ later) :
    run.Sound later where
  global := h.global.wait hle
  address a := (h.address a).wait hle
  costly := h.costly

theorem rolled (h : Sound ⟨s, charged⟩ now) : Sound ⟨s.rolled now, charged⟩ now where
  global := by
    have hroll := h.global.roll
    rwa [← BudgetState.globalWindow_rolled] at hroll
  address a := by
    simp only [BudgetState.buckets_rolled]
    exact h.address a
  costly := by
    simp only [BudgetState.buckets_rolled]
    exact h.costly

theorem evicted (h : Sound ⟨s, charged⟩ now) : Sound ⟨s.evicted now, charged⟩ now where
  global := h.global
  address a := by
    have ha := h.address a
    simp only [BudgetState.lookup_evicted] at ha ⊢
    cases hb : s.buckets.lookup a with
    | none =>
        rw [hb] at ha
        exact ha
    | some b =>
        rw [hb] at ha
        by_cases hstake : b.atStake now = true
        · rw [Option.filter_some, if_pos hstake]
          exact ha
        · have hidle := hstake
          simp only [Bucket.atStake, Bool.or_eq_true, decide_eq_true_eq, not_or] at hidle
          have hopened : b.windowStart ≤ now := ha.opened b.window rfl
          rw [Option.filter_some, if_neg hstake]
          apply ha.forget
          change b.windowStart + largeDocumentBudgetWindowSecs ≤ now
          omega
  costly a b hb := by
    rw [BudgetState.lookup_evicted, Option.filter_eq_some_iff] at hb
    exact h.costly a b hb.1

/-- The bucket of one address is replaced by one that describes its charges as well. -/
theorem insert (h : Sound ⟨s, charged⟩ now) {b : Bucket}
    (hb : Describes largeDocumentBudgetWindowSecs largeDocumentBudgetPerWindow now
      (some b.window) (chargedTo ⟨s, charged⟩ address))
    (hcost : 0 < b.cost) :
    Sound ⟨{ s with buckets := s.buckets.insert address b }, charged⟩ now where
  global := h.global
  address a := by
    simp only [Table.lookup_insert_ite]
    by_cases ha : a = address
    · rw [if_pos ha, ha]
      exact hb
    · rw [if_neg ha]
      exact h.address a
  costly a b' hb' := by
    rcases Table.lookup_insert_cases hb' with ⟨-, rfl⟩ | hold
    · exact hcost
    · exact h.costly a b' hold

/-- The bucket a charge is made to describes what the address was charged. -/
theorem entry (h : Sound ⟨s, charged⟩ now) :
    Describes largeDocumentBudgetWindowSecs largeDocumentBudgetPerWindow now
      (some (s.entry address now).window) (chargedTo ⟨s, charged⟩ address) := by
  rw [BudgetState.entry, Bucket.window_rolled]
  apply Describes.roll
  have ha := h.address address
  cases hb : s.buckets.lookup address with
  | none =>
      simp only [hb] at ha
      exact ha.reopen (Or.inl rfl)
  | some b =>
      simp only [hb] at ha
      exact ha

theorem entry_costly (h : Sound ⟨s, charged⟩ now) : 0 < (s.entry address now).cost := by
  rw [BudgetState.entry, Bucket.cost_rolled]
  cases hb : s.buckets.lookup address with
  | none => exact Nat.one_pos
  | some b => exact h.costly address b hb

/-- The window of the bucket a charge is made to is open. -/
theorem entry_open (h : Sound ⟨s, charged⟩ now) :
    now < (s.entry address now).windowStart + largeDocumentBudgetWindowSecs := by
  have hopened :
      ((s.buckets.lookup address).getD (Bucket.fresh now)).window.start ≤ now := by
    have ha := h.address address
    cases hb : s.buckets.lookup address with
    | none => exact le_refl now
    | some b =>
        rw [hb] at ha
        exact ha.opened b.window rfl
  have hlt := Window.lt_rolled (by decide : 0 < largeDocumentBudgetWindowSecs) hopened
  rw [← Bucket.window_rolled] at hlt
  exact hlt

/-- A charge that is made falls into the windows that are open. -/
theorem spend (h : Sound ⟨s, charged⟩ now)
    (hopen : now < s.globalWindowStart + largeDocumentBudgetWindowSecs)
    (hglobal : s.globalSpent < largeDocumentGlobalBudgetPerWindow) :
    Sound (recorded charged address now (s.spend address now)) now := by
  have hentry : Describes _ _ _ _ (chargedTo ⟨s, charged⟩ address) := h.entry
  by_cases hroom : (s.entry address now).spent + (s.entry address now).cost ≤
      largeDocumentBudgetPerWindow
  · rw [BudgetState.spend_of_room hroom]
    simp only [recorded, AList.lookup_insert, Option.map_some, Option.getD_some]
    constructor
    · exact h.global.charge hopen Nat.one_pos hglobal
    · intro a
      simp only [Table.lookup_insert_ite, chargedTo_cons]
      by_cases ha : a = address
      · rw [if_pos ha, if_pos ha.symm, ha]
        exact hentry.charge h.entry_open h.entry_costly hroom
      · rw [if_neg ha, if_neg (Ne.symm ha)]
        exact h.address a
    · intro a b hb
      rcases Table.lookup_insert_cases hb with ⟨-, rfl⟩ | hold
      · exact h.entry_costly
      · exact h.costly a b hold
  · rw [BudgetState.spend_of_spent (not_le.mp hroom)]
    exact h.insert hentry h.entry_costly

theorem tryCharge (h : Sound ⟨s, charged⟩ now) :
    Sound (recorded charged address now (s.tryCharge address now)) now := by
  have hopen : now < (s.rolled now).globalWindowStart + largeDocumentBudgetWindowSecs := by
    have hlt := Window.lt_rolled (by decide : 0 < largeDocumentBudgetWindowSecs)
      (h.global.opened _ rfl)
    rw [← BudgetState.globalWindow_rolled] at hlt
    exact hlt
  by_cases hglobal : (s.rolled now).globalSpent < largeDocumentGlobalBudgetPerWindow
  · by_cases hplace : s.HasPlace address now
    · obtain htry | ⟨-, htry⟩ := BudgetState.tryCharge_of_place hglobal hplace
      · rw [htry]
        exact h.rolled.spend hopen hglobal
      · rw [htry]
        exact h.rolled.evicted.spend hopen hglobal
    · rw [BudgetState.tryCharge_of_full hglobal hplace]
      exact h.rolled.evicted
  · rw [BudgetState.tryCharge_of_spent (not_lt.mp hglobal)]
    exact h.rolled

/-- A penalty for an address that has no bucket opens a window at the beginning of time. -/
theorem penalize (h : Sound ⟨s, charged⟩ now) :
    Sound ⟨s.penalize address, charged⟩ now := by
  have ha := h.address address
  apply h.insert
  · cases hb : s.buckets.lookup address with
    | none =>
        rw [hb] at ha
        exact ha.reopen (Or.inr rfl)
    | some b =>
        rw [hb] at ha
        exact ha
  · have hcost : 0 < ((s.buckets.lookup address).getD (Bucket.fresh 0)).cost := by
      cases hb : s.buckets.lookup address with
      | none => exact Nat.one_pos
      | some b => exact h.costly address b hb
    have hmax : 0 < maxCost := by decide
    exact lt_min (Nat.mul_pos hcost Nat.two_pos) hmax

/-- What a call preserves; a charge is tried now. -/
theorem step {run : BudgetRun} (h : run.Sound now) {call : BudgetCall}
    (hnow : ∀ t, call.time = some t → t = now) : (run.step call).Sound now := by
  cases call with
  | tryCharge address t =>
      obtain rfl := hnow t rfl
      exact h.tryCharge
  | penalize address => exact h.penalize

/-- What a run preserves, until any time after its calls. -/
theorem run {run : BudgetRun} {calls : List BudgetCall} (h : run.Sound now)
    (hfrom : ∀ t ∈ callTimes calls, now ≤ t) (hcalls : Chronological calls) {later : ℕ}
    (hnow : now ≤ later) (hlater : ∀ t ∈ callTimes calls, t ≤ later) :
    (calls.foldl BudgetRun.step run).Sound later := by
  induction calls generalizing run now with
  | nil => exact h.wait hnow
  | cons call calls ih =>
      rw [List.foldl_cons]
      cases htime : call.time with
      | none =>
          have htimes : callTimes (call :: calls) = callTimes calls :=
            List.filterMap_cons_none htime
          rw [Chronological, htimes] at hcalls
          rw [htimes] at hfrom hlater
          exact ih (h.step (by simp [htime])) hfrom hcalls hnow hlater
      | some t =>
          have htimes : callTimes (call :: calls) = t :: callTimes calls :=
            List.filterMap_cons_some htime
          rw [Chronological, htimes] at hcalls
          rw [htimes] at hfrom hlater
          obtain ⟨hrest, hcalls⟩ := List.pairwise_cons.mp hcalls
          have hwait := h.wait (hfrom t List.mem_cons_self)
          apply ih (hwait.step (by simp [htime])) hrest hcalls
          · exact hlater t List.mem_cons_self
          · exact fun u hu => hlater u (List.mem_cons_of_mem t hu)

theorem start : Sound ⟨BudgetState.empty, []⟩ 0 where
  global := Describes.nil (by simp [BudgetState.empty, BudgetState.globalWindow])
  address a := Describes.nil (by simp [BudgetState.empty])
  costly a b hb := by simp [BudgetState.empty] at hb

theorem after {calls : List BudgetCall} (hcalls : Chronological calls) {later : ℕ}
    (hlater : ∀ t ∈ callTimes calls, t ≤ later) : (BudgetRun.after calls).Sound later :=
  start.run (fun t _ => Nat.zero_le t) hcalls (Nat.zero_le later) hlater

end Sound

end BudgetRun

namespace BudgetRun

variable {run : BudgetRun} {call : BudgetCall} {calls : List BudgetCall}

theorem charged_step : run.charged <:+ (run.step call).charged := by
  cases call with
  | tryCharge address now =>
      rw [step]
      obtain ⟨_ | _, s⟩ := run.state.tryCharge address now
      · exact List.suffix_refl _
      · exact List.suffix_cons _ _
  | penalize address => exact List.suffix_refl _

theorem charged_run : run.charged <:+ (calls.foldl step run).charged := by
  induction calls generalizing run with
  | nil => exact List.suffix_refl _
  | cons call calls ih => exact charged_step.trans ih

end BudgetRun

/-! ## Penalties -/

namespace BudgetState

variable {s : BudgetState} {a address : String} {now : ℕ}

theorem cost_insert (b : Bucket) :
    BudgetState.cost { s with buckets := s.buckets.insert address b } a =
      if a = address then b.cost else s.cost a := by
  rw [cost, Table.lookup_insert_ite]
  by_cases ha : a = address
  · rw [if_pos ha, if_pos ha]
    rfl
  · rw [if_neg ha, if_neg ha]
    rfl

theorem cost_rolled : (s.rolled now).cost a = s.cost a := by
  simp [cost, buckets_rolled]

theorem cost_entry : (s.entry address now).cost = s.cost address := by
  rw [entry, Bucket.cost_rolled, cost]
  cases s.buckets.lookup address with
  | none => rfl
  | some b => rfl

theorem cost_evicted (h : ∀ a b, s.buckets.lookup a = some b → 0 < b.cost) :
    (s.evicted now).cost a = s.cost a := by
  rw [cost, cost, lookup_evicted]
  cases hb : s.buckets.lookup a with
  | none => rfl
  | some b =>
      by_cases hstake : b.atStake now = true
      · rw [Option.filter_some, if_pos hstake]
      · have hidle := hstake
        simp only [Bucket.atStake, Bool.or_eq_true, decide_eq_true_eq, not_or] at hidle
        have hpos := h a b hb
        rw [Option.filter_some, if_neg hstake]
        change 1 = b.cost
        omega

theorem cost_spend : (s.spend address now).2.cost a = s.cost a := by
  have hinsert : ∀ b : Bucket, b.cost = s.cost address →
      (if a = address then b.cost else s.cost a) = s.cost a := by
    intro b hb
    by_cases ha : a = address
    · rw [if_pos ha, hb, ha]
    · rw [if_neg ha]
  by_cases hroom : (s.entry address now).spent + (s.entry address now).cost ≤
      largeDocumentBudgetPerWindow
  · rw [spend_of_room hroom]
    exact (cost_insert _).trans (hinsert _ cost_entry)
  · rw [spend_of_spent (not_le.mp hroom)]
    exact (cost_insert _).trans (hinsert _ cost_entry)

theorem cost_tryCharge (h : ∀ a b, s.buckets.lookup a = some b → 0 < b.cost) :
    (s.tryCharge address now).2.cost a = s.cost a := by
  have hrolled : ∀ a b, (s.rolled now).buckets.lookup a = some b → 0 < b.cost := by
    simpa only [buckets_rolled] using h
  by_cases hglobal : (s.rolled now).globalSpent < largeDocumentGlobalBudgetPerWindow
  · by_cases hplace : s.HasPlace address now
    · obtain htry | ⟨-, htry⟩ := tryCharge_of_place hglobal hplace
      · rw [htry, cost_spend, cost_rolled]
      · rw [htry, cost_spend, cost_evicted hrolled, cost_rolled]
    · rw [tryCharge_of_full hglobal hplace]
      exact (cost_evicted hrolled).trans cost_rolled
  · rw [tryCharge_of_spent (not_lt.mp hglobal)]
    exact cost_rolled

theorem cost_penalize :
    (s.penalize address).cost a =
      if a = address then min (s.cost a * 2) maxCost else s.cost a := by
  rw [penalize, cost_insert]
  by_cases ha : a = address
  · subst ha
    rw [if_pos rfl, if_pos rfl, cost]
    cases s.buckets.lookup a with
    | none => rfl
    | some b => rfl
  · rw [if_neg ha, if_neg ha]

end BudgetState

namespace BudgetRun

variable {a : String} {now : ℕ}

theorem state_recorded (charged : List Charged) (address : String)
    (outcome : Except ℕ Unit × BudgetState) :
    (recorded charged address now outcome).state = outcome.2 := by
  obtain ⟨_ | _, s⟩ := outcome
  · rfl
  · rfl

theorem cost_step {run : BudgetRun} (h : run.Sound now) (call : BudgetCall) :
    (run.step call).state.cost a =
      if call = .penalize a then min (run.state.cost a * 2) maxCost else run.state.cost a := by
  cases call with
  | tryCharge address t =>
      rw [if_neg (by simp), step, state_recorded]
      exact BudgetState.cost_tryCharge h.costly
  | penalize address =>
      rw [step, BudgetState.cost_penalize]
      simp only [BudgetCall.penalize.injEq, eq_comm]

theorem after_append (calls : List BudgetCall) (call : BudgetCall) :
    after (calls ++ [call]) = (after calls).step call :=
  List.foldl_concat _ _ _ _

theorem exists_sound {calls : List BudgetCall} (h : Chronological calls) :
    ∃ later, (after calls).Sound later :=
  ⟨(callTimes calls).max?.getD 0, Sound.after h fun _ => List.le_max?_getD_of_mem⟩

theorem Chronological.of_append {calls more : List BudgetCall}
    (h : Chronological (calls ++ more)) : Chronological calls := by
  rw [Chronological, callTimes, List.filterMap_append] at h
  exact (List.pairwise_append.mp h).1

theorem cost_after {calls : List BudgetCall} (h : Chronological calls) :
    (after calls).state.cost a = min (2 ^ penalties a calls) maxCost := by
  induction calls using List.reverseRecOn with
  | nil => rfl
  | append_singleton calls call ih =>
      have hcalls := Chronological.of_append h
      obtain ⟨later, hsound⟩ := exists_sound hcalls
      rw [after_append, cost_step hsound, ih hcalls]
      by_cases hcall : call = .penalize a
      · have hcount : penalties a (calls ++ [call]) = penalties a calls + 1 := by
          rw [penalties, List.count_append, hcall, List.count_singleton_self]
          rfl
        rw [if_pos hcall, hcount, Nat.pow_succ]
        omega
      · have hcount : penalties a (calls ++ [call]) = penalties a calls := by
          rw [penalties, List.count_append, List.count_singleton, if_neg (by simpa using hcall)]
          rfl
        rw [if_neg hcall, hcount]

end BudgetRun

end DidHosting
