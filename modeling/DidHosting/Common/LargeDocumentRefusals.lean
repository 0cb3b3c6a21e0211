import DidHosting.Common.LargeDocuments

/-!
# Refusals of the large-document budget

What limits the service also limits how soon a refused address gets in again.  The number of
seconds in a refusal is that of one window; the other window, or a map full of addresses that
may not be forgotten, may refuse the address once more.
-/

namespace DidHosting

open FixedWindows

/-! ## Retrying -/

namespace BudgetState

/-- The window of all addresses is over by now, or it has room. -/
def GlobalHasRoom (s : BudgetState) (now : ℕ) : Prop :=
  now < s.globalWindowStart + largeDocumentBudgetWindowSecs →
    s.globalSpent < largeDocumentGlobalBudgetPerWindow

/-- The address has a place, and a window that is over by now or has room. -/
structure Admits (s : BudgetState) (address : String) (now : ℕ) : Prop where
  place : s.HasPlace address now
  window : ∀ b, s.buckets.lookup address = some b →
    now < b.windowStart + largeDocumentBudgetWindowSecs →
    b.spent < largeDocumentBudgetPerWindow

variable {s : BudgetState} {address : String} {now r : ℕ}

theorem globalSpent_rolled_lt (hstart : s.globalWindowStart ≤ now) :
    (s.rolled now).globalSpent < largeDocumentGlobalBudgetPerWindow ↔ s.GlobalHasRoom now := by
  by_cases hover : s.globalWindowStart + largeDocumentBudgetWindowSecs ≤ now
  · have hrolled : (s.rolled now).globalSpent = 0 := by
      rw [rolled, if_pos (by omega)]
    rw [hrolled]
    constructor
    · intro _ hlt
      exact absurd hover (not_le.mpr hlt)
    · intro _
      decide
  · have hrolled : s.rolled now = s := by
      rw [rolled, if_neg (by omega)]
    rw [hrolled]
    constructor
    · exact fun hlt _ => hlt
    · exact fun hroom => hroom (not_le.mp hover)

theorem fst_spend_eq_ok :
    (s.spend address now).1 = .ok () ↔
      (s.entry address now).spent + (s.entry address now).cost ≤
        largeDocumentBudgetPerWindow := by
  by_cases hroom : (s.entry address now).spent + (s.entry address now).cost ≤
      largeDocumentBudgetPerWindow
  · simp [spend_of_room hroom, hroom]
  · simp [spend_of_spent (not_le.mp hroom), hroom]

theorem globalWindow_spend (h : (s.spend address now).1 = .error r) :
    (s.spend address now).2.globalWindow = s.globalWindow := by
  by_cases hroom : (s.entry address now).spent + (s.entry address now).cost ≤
      largeDocumentBudgetPerWindow
  · rw [spend_of_room hroom] at h
    simp at h
  · rw [spend_of_spent (not_le.mp hroom)]
    rfl

theorem entry_rolled : (s.rolled now).entry address now = s.entry address now := by
  rw [entry, buckets_rolled, entry]

theorem entry_of_lookup_none (h : s.buckets.lookup address = none) :
    (s.entry address now).spent = 0 := by
  rw [entry, h]
  simp [Bucket.rolled, Bucket.fresh]

/-- Without penalties a bucket has room for one document more, or its window is over. -/
theorem entry_hasRoom
    (hopened : ∀ b, s.buckets.lookup address = some b → b.windowStart ≤ now)
    (hcost : s.cost address = 1) :
    (s.entry address now).spent + (s.entry address now).cost ≤ largeDocumentBudgetPerWindow ↔
      ∀ b, s.buckets.lookup address = some b →
        now < b.windowStart + largeDocumentBudgetWindowSecs →
        b.spent < largeDocumentBudgetPerWindow := by
  rw [cost_entry, hcost]
  cases hb : s.buckets.lookup address with
  | none =>
      rw [entry_of_lookup_none hb]
      simp [largeDocumentBudgetPerWindow]
  | some b =>
      have hstart := hopened b hb
      rw [entry, hb, Option.getD_some, Bucket.rolled]
      by_cases hover : largeDocumentBudgetWindowSecs ≤ now - b.windowStart
      · rw [if_pos hover]
        constructor
        · intro _ b' hb' hlt
          obtain rfl := Option.some.inj hb'
          omega
        · intro _
          exact Nat.one_le_of_lt (by decide : 0 < largeDocumentBudgetPerWindow)
      · rw [if_neg hover]
        constructor
        · intro hlt b' hb' _
          obtain rfl := Option.some.inj hb'
          exact hlt
        · intro hroom
          exact hroom b rfl (by omega)

/-- A refusal leaves the global window, or starts the next one. -/
theorem globalWindow_tryCharge (h : (s.tryCharge address now).1 = .error r) :
    (s.tryCharge address now).2.globalWindow = (s.rolled now).globalWindow := by
  by_cases hglobal : (s.rolled now).globalSpent < largeDocumentGlobalBudgetPerWindow
  · by_cases hplace : s.HasPlace address now
    · obtain htry | ⟨-, htry⟩ := tryCharge_of_place hglobal hplace
      · rw [htry] at h ⊢
        exact globalWindow_spend h
      · rw [htry] at h ⊢
        exact globalWindow_spend h
    · rw [tryCharge_of_full hglobal hplace]
      rfl
  · rw [tryCharge_of_spent (not_lt.mp hglobal)]

/-- Where the window of all addresses has room, an address without penalties gets in if and
only if it has a place and its own window has room. -/
theorem fst_tryCharge_eq_ok
    (hopened : ∀ b, s.buckets.lookup address = some b → b.windowStart ≤ now)
    (hcost : s.cost address = 1)
    (hglobal : (s.rolled now).globalSpent < largeDocumentGlobalBudgetPerWindow) :
    (s.tryCharge address now).1 = .ok () ↔ s.Admits address now := by
  by_cases hplace : s.HasPlace address now
  · obtain htry | ⟨hnone, htry⟩ := tryCharge_of_place hglobal hplace
    · rw [htry, fst_spend_eq_ok, entry_rolled, entry_hasRoom hopened hcost]
      exact ⟨fun h => ⟨hplace, h⟩, fun h => h.window⟩
    · have hevicted : ((s.rolled now).evicted now).buckets.lookup address = none := by
        rw [lookup_evicted, buckets_rolled, hnone]
        rfl
      rw [htry, fst_spend_eq_ok, entry_of_lookup_none hevicted, cost_entry, cost, hevicted]
      constructor
      · intro _
        exact ⟨hplace, by simp [hnone]⟩
      · intro _
        decide
  · rw [tryCharge_of_full hglobal hplace]
    constructor
    · simp
    · exact fun h => absurd h.place hplace

theorem GlobalHasRoom.of_globalWindow {s' : BudgetState} {t : ℕ} (h : s.GlobalHasRoom t)
    (hwindow : s'.globalWindow = s.globalWindow) : s'.GlobalHasRoom t := by
  obtain ⟨hstart, hspent⟩ := Window.mk.inj hwindow
  rwa [GlobalHasRoom, hstart, hspent]

theorem GlobalHasRoom.rolled {t : ℕ} (h : s.GlobalHasRoom t) :
    (s.rolled now).GlobalHasRoom t := by
  rw [BudgetState.rolled]
  by_cases hover : largeDocumentBudgetWindowSecs ≤ now - s.globalWindowStart
  · rw [if_pos hover]
    intro _
    exact (by decide : 0 < largeDocumentGlobalBudgetPerWindow)
  · rw [if_neg hover]
    exact h

/-- After as many seconds as a refusal names, the window of all addresses is no obstacle. -/
theorem globalHasRoom_of_refused (h : (s.tryCharge address now).1 = .error r) :
    (s.tryCharge address now).2.GlobalHasRoom (now + r) := by
  by_cases hglobal : (s.rolled now).globalSpent < largeDocumentGlobalBudgetPerWindow
  · have hrolled : (s.rolled now).GlobalHasRoom (now + r) := fun _ => hglobal
    exact hrolled.of_globalWindow (globalWindow_tryCharge h)
  · rw [tryCharge_of_spent (not_lt.mp hglobal)] at h ⊢
    have hr : (s.rolled now).globalRetry now = r := by
      simpa using h
    rw [globalRetry] at hr
    intro hlt
    change now + r < (s.rolled now).globalWindowStart + largeDocumentBudgetWindowSecs at hlt
    omega

/-- An address whose own window refuses it has a bucket, and that window is over after as
many seconds as the refusal names. -/
theorem bucket_of_refused (hroom : (s.rolled now).globalSpent < largeDocumentGlobalBudgetPerWindow)
    (hplace : s.HasPlace address now) (h : (s.tryCharge address now).1 = .error r) :
    ∃ b, (s.tryCharge address now).2.buckets.lookup address = some b ∧
      b.windowStart + largeDocumentBudgetWindowSecs ≤ now + r := by
  have hspend : ∀ s' : BudgetState, (s'.spend address now).1 = .error r →
      ∃ b, (s'.spend address now).2.buckets.lookup address = some b ∧
        b.windowStart + largeDocumentBudgetWindowSecs ≤ now + r := by
    intro s' h'
    by_cases hfits : (s'.entry address now).spent + (s'.entry address now).cost ≤
        largeDocumentBudgetPerWindow
    · rw [spend_of_room hfits] at h'
      simp at h'
    · rw [spend_of_spent (not_le.mp hfits)] at h' ⊢
      refine ⟨s'.entry address now, AList.lookup_insert _, ?_⟩
      have hr := Except.error.inj h'
      omega
  obtain htry | ⟨-, htry⟩ := tryCharge_of_place hroom hplace
  · rw [htry] at h ⊢
    exact hspend _ h
  · rw [htry] at h ⊢
    exact hspend _ h

end BudgetState

namespace BudgetRun

variable {run : BudgetRun} {call : BudgetCall} {calls : List BudgetCall}

/-- A call that charges nothing is a penalty or a refusal. -/
theorem refused_of_uncharged {address : String} {now : ℕ}
    (h : (run.step (.tryCharge address now)).charged = run.charged) :
    ∃ r, (run.state.tryCharge address now).1 = .error r := by
  rw [step] at h
  generalize run.state.tryCharge address now = outcome at h
  obtain ⟨r | _, s⟩ := outcome
  · exact ⟨r, rfl⟩
  · exact absurd h (List.cons_ne_self _ _)

/-- Calls that charge nothing leave the room in the window of all addresses. -/
theorem globalHasRoom_run {t : ℕ} (h : run.state.GlobalHasRoom t)
    (hcharged : (calls.foldl step run).charged = run.charged) :
    (calls.foldl step run).state.GlobalHasRoom t := by
  induction calls generalizing run with
  | nil => exact h
  | cons call calls ih =>
      rw [List.foldl_cons] at hcharged ⊢
      have hle : (run.step call).charged <:+ run.charged := hcharged ▸ charged_run
      have hstep : (run.step call).charged = run.charged :=
        hle.eq_of_length_le charged_step.length_le
      apply ih
      · cases call with
        | tryCharge address now =>
            obtain ⟨r, hr⟩ := refused_of_uncharged hstep
            rw [step, state_recorded]
            exact h.rolled.of_globalWindow (BudgetState.globalWindow_tryCharge hr)
        | penalize address => exact h
      · rw [hcharged, hstep]

/-- Penalties of others leave the bucket of an address. -/
theorem lookup_penalties {a : String} (htimes : callTimes calls = [])
    (hpenalties : penalties a calls = 0) :
    (calls.foldl step run).state.buckets.lookup a = run.state.buckets.lookup a := by
  induction calls generalizing run with
  | nil => rfl
  | cons call calls ih =>
      cases call with
      | tryCharge address now => simp [callTimes, BudgetCall.time] at htimes
      | penalize address =>
          have ha : address ≠ a ∧ penalties a calls = 0 := by
            simpa [penalties, List.count_cons, and_comm] using hpenalties
          rw [List.foldl_cons, ih htimes ha.2]
          exact AList.lookup_insert_ne ha.1.symm

end BudgetRun

/-! ## The budget over a run -/

open BudgetRun in
/-- After any calls: no window of an address took more than five charges and none of all
addresses more than sixty, and every penalty is still there.  An address that never earned a
penalty and was refused, and that comes back after as many seconds as it was told with
nothing charged in between, gets in exactly if it has a place and its own window is over or
has room.  It does get in if it was its own window that had refused it and nobody else came
in between. -/
theorem large_document_budget {calls : List BudgetCall} (hcalls : Chronological calls) :
    (∀ a, Holds largeDocumentBudgetWindowSecs largeDocumentBudgetPerWindow
        ((after calls).chargedTo a)) ∧
      Holds largeDocumentBudgetWindowSecs largeDocumentGlobalBudgetPerWindow
        (after calls).chargedGlobally ∧
      (∀ a, (after calls).state.cost a = min (2 ^ penalties a calls) maxCost) ∧
      ∀ past a now r between, calls = past ++ .tryCharge a now :: between →
        ((after past).state.tryCharge a now).1 = .error r →
        penalties a calls = 0 →
        (after calls).charged = (after past).charged →
        (∀ t ∈ callTimes calls, t ≤ now + r) →
        (((after calls).state.tryCharge a (now + r)).1 = .ok () ↔
            (after calls).state.Admits a (now + r)) ∧
          ((after past).state.HasPlace a now → (after past).state.GlobalHasRoom now →
            callTimes between = [] →
            ((after calls).state.tryCharge a (now + r)).1 = .ok ()) := by
  obtain ⟨later, hsound⟩ := exists_sound hcalls
  refine ⟨fun a => (hsound.address a).toHolds, hsound.global.toHolds,
    fun a => cost_after hcalls, ?_⟩
  intro past a now r between hsplit hrefused hnever hcharged htimes
  have hlater := Sound.after hcalls htimes
  -- what the refusal leaves, and what the calls in between make of it
  have hstep : (after past).step (.tryCharge a now) =
      ⟨((after past).state.tryCharge a now).2, (after past).charged⟩ := by
    rw [step]
    generalize (after past).state.tryCharge a now = outcome at hrefused
    obtain ⟨_, s⟩ := outcome
    obtain rfl := hrefused
    rfl
  have hafter : after calls =
      between.foldl step ⟨((after past).state.tryCharge a now).2, (after past).charged⟩ := by
    rw [hsplit, after, List.foldl_append, List.foldl_cons, ← hstep]
    rfl
  have hglobal : (after calls).state.GlobalHasRoom (now + r) := by
    rw [hafter] at hcharged ⊢
    exact globalHasRoom_run (BudgetState.globalHasRoom_of_refused hrefused) hcharged
  have hopened : ∀ b, (after calls).state.buckets.lookup a = some b →
      b.windowStart ≤ now + r := by
    intro b hb
    have ha := hlater.address a
    rw [hb] at ha
    exact ha.opened b.window rfl
  have hcost : (after calls).state.cost a = 1 := by
    rw [cost_after hcalls, hnever]
    decide
  have hroom := (BudgetState.globalSpent_rolled_lt (hlater.global.opened _ rfl)).mpr hglobal
  have hadmits := BudgetState.fst_tryCharge_eq_ok hopened hcost hroom
  refine ⟨hadmits, ?_⟩
  intro hplace hglobalRoom hquiet
  have hpast : Chronological past := by
    rw [hsplit] at hcalls
    exact Chronological.of_append hcalls
  have hpastTimes : ∀ t ∈ callTimes past, t ≤ now := by
    rw [hsplit, Chronological, callTimes, List.filterMap_append] at hcalls
    intro t ht
    exact (List.pairwise_append.mp hcalls).2.2 t ht now List.mem_cons_self
  have hbetween : penalties a between = 0 := by
    rw [hsplit, penalties, List.count_append] at hnever
    have hcons : (BudgetCall.tryCharge a now :: between).count (.penalize a) =
        between.count (.penalize a) := List.count_cons_of_ne (by simp)
    rw [penalties]
    omega
  have hpastRoom := (BudgetState.globalSpent_rolled_lt
    ((Sound.after hpast hpastTimes).global.opened _ rfl)).mpr hglobalRoom
  obtain ⟨b, hb, hover⟩ := BudgetState.bucket_of_refused hpastRoom hplace hrefused
  have hlookup : (after calls).state.buckets.lookup a = some b := by
    rw [hafter, lookup_penalties hquiet hbetween]
    exact hb
  rw [hadmits]
  constructor
  · apply Or.inl
    rw [hlookup]
    rfl
  · intro b' hb' hlt
    rw [hlookup] at hb'
    obtain rfl := Option.some.inj hb'
    omega

/-! ## Addresses that stay outside -/

namespace BudgetState

/-- A map full of addresses with penalties has no place for `address`, now or later. -/
structure Crowded (s : BudgetState) (address : String) : Prop where
  outside : s.buckets.lookup address = none
  full : s.IsFull
  penalized : ∀ e ∈ s.buckets.entries, 1 < e.2.cost

variable {s : BudgetState} {address : String} {now : ℕ}

theorem Crowded.buckets_evicted (h : s.Crowded address) (now : ℕ) :
    (s.evicted now).buckets = s.buckets := by
  apply AList.ext
  apply List.filter_eq_self.mpr
  intro e he
  simp [Bucket.atStake, h.penalized e he]

theorem Crowded.tryCharge (h : s.Crowded address) :
    (s.tryCharge address now).1 ≠ .ok () ∧
      (s.tryCharge address now).2.buckets = s.buckets := by
  have hplace : ¬ s.HasPlace address now := by
    have hfull := h.full
    rw [IsFull] at hfull
    simp [HasPlace, h.outside, IsFull, h.buckets_evicted, hfull]
  by_cases hglobal : (s.rolled now).globalSpent < largeDocumentGlobalBudgetPerWindow
  · rw [tryCharge_of_full hglobal hplace]
    refine ⟨by simp, ?_⟩
    rw [evicted, buckets_rolled]
    exact h.buckets_evicted now
  · rw [tryCharge_of_spent (not_lt.mp hglobal)]
    exact ⟨by simp, buckets_rolled⟩

theorem Crowded.of_buckets {s' : BudgetState} (h : s.Crowded address)
    (hbuckets : s'.buckets = s.buckets) : s'.Crowded address := by
  constructor
  · rw [hbuckets]
    exact h.outside
  · rw [IsFull, hbuckets]
    exact h.full
  · rw [hbuckets]
    exact h.penalized

end BudgetState

namespace BudgetRun

variable {run : BudgetRun} {address : String}

/-- However often it comes back, the address is refused. -/
theorem crowded_run (h : run.state.Crowded address) (times : List ℕ) :
    ((times.map (.tryCharge address)).foldl step run).state.Crowded address := by
  induction times generalizing run with
  | nil => exact h
  | cons t times ih =>
      rw [List.map_cons, List.foldl_cons]
      apply ih
      rw [step, state_recorded]
      exact h.of_buckets h.tryCharge.2

/-- Penalties for addresses that have no bucket give each of them one. -/
theorem penalize_all {names : List String} (run : BudgetRun) (hnodup : names.Nodup)
    (hnew : ∀ n ∈ names, n ∉ run.state.buckets.keys)
    (hcost : ∀ e ∈ run.state.buckets.entries, 1 < e.2.cost) :
    ((names.map .penalize).foldl step run).state.buckets.keys =
        names.reverse ++ run.state.buckets.keys ∧
      ∀ e ∈ ((names.map .penalize).foldl step run).state.buckets.entries, 1 < e.2.cost := by
  induction names generalizing run with
  | nil => exact ⟨rfl, hcost⟩
  | cons n names ih =>
      obtain ⟨hn, hnodup⟩ := List.nodup_cons.mp hnodup
      have hmem : n ∉ run.state.buckets := hnew n List.mem_cons_self
      have hentries : (run.step (.penalize n)).state.buckets.entries =
          ⟨n, ⟨0, 0, 2⟩⟩ :: run.state.buckets.entries := by
        rw [step, BudgetState.penalize, AList.lookup_eq_none.mpr hmem]
        exact AList.entries_insert_of_notMem hmem
      have hkeys : (run.step (.penalize n)).state.buckets.keys =
          n :: run.state.buckets.keys := by
        rw [AList.keys, hentries]
        rfl
      have hnew' : ∀ m ∈ names, m ∉ (run.step (.penalize n)).state.buckets.keys := by
        intro m hm
        rw [hkeys, List.mem_cons, not_or]
        exact ⟨fun heq => hn (heq ▸ hm), hnew m (List.mem_cons_of_mem n hm)⟩
      have hcost' : ∀ e ∈ (run.step (.penalize n)).state.buckets.entries, 1 < e.2.cost := by
        intro e he
        rw [hentries] at he
        obtain rfl | he := List.mem_cons.mp he
        · exact Nat.one_lt_two
        · exact hcost e he
      rw [List.map_cons, List.foldl_cons]
      obtain ⟨hall, hall'⟩ := ih _ hnodup hnew' hcost'
      refine ⟨?_, hall'⟩
      rw [hall, hkeys, List.reverse_cons, List.append_assoc]
      rfl

/-- As many addresses with penalties as the map holds shut out every other one. -/
theorem crowded_of_penalties {names : List String} (hnodup : names.Nodup)
    (hmany : maxTrackedAddresses ≤ names.length) (hnew : address ∉ names) :
    (after (names.map .penalize)).state.Crowded address := by
  obtain ⟨hkeys, hcost⟩ := penalize_all ⟨BudgetState.empty, []⟩ hnodup
    (by simp [BudgetState.empty]) (by simp [BudgetState.empty])
  have hkeys' : (after (names.map .penalize)).state.buckets.keys = names.reverse := by
    rw [after, hkeys]
    exact List.append_nil _
  constructor
  · rw [AList.lookup_eq_none, AList.mem_keys, hkeys', List.mem_reverse]
    exact hnew
  · rw [BudgetState.IsFull, hkeys', List.length_reverse]
    exact hmany
  · exact hcost

end BudgetRun

namespace Sample

/-- The address with a number. -/
def addressOf (i : ℕ) : String :=
  String.ofList (List.replicate i 'x')

/-- Eleven addresses spend what they may, and half a minute later a twelfth one. -/
def busyMinute : List BudgetCall :=
  (List.range 55).map (fun i => .tryCharge (addressOf (i % 11)) 100) ++
    List.replicate 5 (.tryCharge "late" 130)

/-- As many addresses as the map holds, and each of them has a penalty. -/
def penalizedCrowd : List BudgetCall :=
  ((List.range maxTrackedAddresses).map addressOf).map .penalize

theorem chronological_penalizedCrowd : Chronological penalizedCrowd := by
  have htimes : callTimes penalizedCrowd = [] := by
    rw [penalizedCrowd, List.map_map, callTimes, List.filterMap_map]
    exact List.filterMap_eq_nil_iff.mpr fun _ _ => rfl
  rw [Chronological, htimes]
  exact List.Pairwise.nil

theorem crowded_penalizedCrowd : (BudgetRun.after penalizedCrowd).state.Crowded "new" := by
  have hinj : Function.Injective addressOf := by
    intro i j hij
    simpa [addressOf] using congrArg String.length hij
  apply BudgetRun.crowded_of_penalties
  · exact List.nodup_range.map hinj
  · rw [List.length_map, List.length_range]
  · intro hmem
    obtain ⟨i, -, hi⟩ := List.mem_map.mp hmem
    have hchars : List.replicate i 'x' = "new".toList := by
      rw [← hi, addressOf, String.toList_ofList]
    have hn : 'n' ∈ List.replicate i 'x' := by
      rw [hchars]
      decide
    exact absurd (List.eq_of_mem_replicate hn) (by decide)

/-- A refused address comes back when it was told to and is refused again: its own window
ends later, or there is no place for it, however often it comes. -/
theorem refusal_outlasts_its_seconds :
    (Chronological busyMinute ∧
      ((BudgetRun.after busyMinute).state.tryCharge "late" 131).1 = .error 29 ∧
      ((BudgetRun.after (busyMinute ++ [.tryCharge "late" 131])).state.tryCharge
        "late" (131 + 29)).1 = .error 30) ∧
    (Chronological penalizedCrowd ∧
      ∀ (times : List ℕ) (now : ℕ),
        ((BudgetRun.after (penalizedCrowd ++ times.map (.tryCharge "new"))).state.tryCharge
          "new" now).1 ≠ .ok ()) := by
  constructor
  · rw [Chronological]
    decide +kernel
  · refine ⟨chronological_penalizedCrowd, ?_⟩
    intro times now
    rw [BudgetRun.after, List.foldl_append]
    exact (BudgetRun.crowded_run crowded_penalizedCrowd times).tryCharge.1

/-- An address that spent its budget waits for its own window. -/
def ownWindow : List BudgetCall :=
  List.replicate 5 (.tryCharge "late" 130) ++ [.tryCharge "late" 131]

theorem large_document_budget_ownWindow :
    Chronological ownWindow ∧
      ((BudgetRun.after (List.replicate 5 (.tryCharge "late" 130))).state.tryCharge
        "late" 131).1 = .error 59 ∧
      ((BudgetRun.after ownWindow).state.tryCharge "late" (131 + 59)).1 = .ok () ∧
      (BudgetRun.after ownWindow).state.Admits "late" (131 + 59) := by
  have hcalls : Chronological ownWindow := by
    rw [Chronological]
    decide +kernel
  have hrefused : ((BudgetRun.after (List.replicate 5 (.tryCharge "late" 130))).state.tryCharge
      "late" 131).1 = .error 59 := by
    decide +kernel
  obtain ⟨-, -, -, hretry⟩ := large_document_budget hcalls
  obtain ⟨hiff, hown⟩ := hretry (List.replicate 5 (.tryCharge "late" 130)) "late" 131 59 [] rfl
    hrefused (by decide +kernel) (by decide +kernel) (by decide +kernel)
  have hok := hown (Or.inl (by decide +kernel)) (fun _ => by decide +kernel) rfl
  exact ⟨hcalls, hrefused, hok, hiff.mp hok⟩

end Sample

end DidHosting
