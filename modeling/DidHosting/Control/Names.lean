import DidHosting.Control.State

/-!
# Reconciling agent names

A publish brings the slot's name registry in line with the names its document
claims.  `reconcileAgentNames` computes the new registry and the changes to the
name index; its specification, `reconcileAgentNames_spec`, says what each name
of the result comes from.
-/

namespace DidHosting

open Text

/-! ## The operation -/

/-- The claim loop of `reconcile_agent_names`.  A reserved name or one held by
another slot refuses the publish; a malformed one is skipped. -/
def claimNames (mnemonic domain : String) : List String → ControlQ (List String)
  | [] => pure []
  | name :: rest =>
      match validateAgentNameBinding name mnemonic with
      | .error e =>
          if e = .agentName .reserved then Query.fail (.agentName .reserved)
          else claimNames mnemonic domain rest
      | .ok () => do
          let holder ← Query.read (·.nameHolder domain name)
          Query.require (holder.isNone || holder = some mnemonic) (.agentName .taken)
          let claimed ← claimNames mnemonic domain rest
          return name :: claimed

/-- The release loop of `reconcile_agent_names` over the enabled names the
document no longer claims: retire the index rows that point here. -/
def releaseNames (mnemonic domain : String) : List String → ControlQ (List String)
  | [] => pure []
  | name :: rest => do
      let holder ← Query.read (·.nameHolder domain name)
      let released ← releaseNames mnemonic domain rest
      return if holder = some mnemonic then name :: released else released

/-- The enabled names the document dropped. -/
def droppedNames (names : List AgentNameEntry) (claimed : List String) : List String :=
  (names.filter fun e => e.enabled && !claimed.contains e.name).map (·.name)

/-- The entry of a claimed name: enabled, with the creation time it had. -/
def claimedEntry (names : List AgentNameEntry) (now : ℕ) (name : String) :
    AgentNameEntry :=
  ⟨name, true, ((names.find? fun e => e.name == name).map (·.createdAt)).getD now⟩

/-- The new registry: parked names the document does not claim, then the
claimed ones. -/
def reconciledNames (names : List AgentNameEntry) (claimed : List String) (now : ℕ) :
    List AgentNameEntry :=
  (names.filter fun e => !e.enabled && !claimed.contains e.name) ++
    claimed.map (claimedEntry names now)

/-- The index changes of a publish. -/
structure NameChanges where
  claimed : List String
  released : List String
deriving DecidableEq, Repr

/-- `reconcile_agent_names`: the new registry and the index changes. -/
def reconcileAgentNames (names : List AgentNameEntry) (mnemonic : String)
    (claims : List String) (domain : String) (now : ℕ) :
    ControlQ (List AgentNameEntry × NameChanges) := do
  let claimed ← claimNames mnemonic domain claims
  let released ← releaseNames mnemonic domain (droppedNames names claimed)
  return (reconciledNames names claimed now, ⟨claimed, released⟩)

/-- The index part of the commit batch of a publish. -/
def nameBatch (changes : NameChanges) (domain mnemonic : String) : Batch :=
  (changes.claimed.map fun n => .insertName domain n mnemonic) ++
    changes.released.map fun n => .removeName domain n

/-! ## What it computes -/

/-- The names of a document that the slot may bind. -/
def bindableNames (mnemonic : String) (claims : List String) : List String :=
  claims.filter fun n => (validateAgentNameBinding n mnemonic).isOk

variable {V : Set ControlStore} {mnemonic domain : String}

/-- The claimed names are the bindable ones, and each was seen free or held by
this slot. -/
theorem yields_claimNames {claims claimed : List String}
    (h : (claimNames mnemonic domain claims).Yields V claimed) :
    claimed = bindableNames mnemonic claims ∧
      ∀ n ∈ claimed, ∃ s ∈ V,
        s.nameHolder domain n = none ∨ s.nameHolder domain n = some mnemonic := by
  induction claims generalizing claimed with
  | nil =>
      rw [claimNames, Query.yields_pure] at h
      subst h
      simp [bindableNames]
  | cons name rest ih =>
      rw [claimNames] at h
      cases hv : validateAgentNameBinding name mnemonic with
      | error e =>
          have hskip : bindableNames mnemonic (name :: rest) =
              bindableNames mnemonic rest := by
            simp [bindableNames, hv, Except.isOk, Except.toBool]
          rw [hv] at h
          simp only at h
          split at h
          · simp at h
          · rw [hskip]
            exact ih h
      | ok u =>
          have hkeep : bindableNames mnemonic (name :: rest) =
              name :: bindableNames mnemonic rest := by
            simp [bindableNames, hv, Except.isOk, Except.toBool]
          rw [hv] at h
          simp only [Query.yields_bind, Query.yields_read, Query.yields_require,
            Query.yields_pure] at h
          obtain ⟨holder, ⟨s, hs, rfl⟩, _, hfree, claimed', hrest, rfl⟩ := h
          obtain ⟨rfl, hseen⟩ := ih hrest
          refine ⟨hkeep.symm, ?_⟩
          intro n hn
          rcases List.mem_cons.mp hn with rfl | hn
          · refine ⟨s, hs, ?_⟩
            simpa [Option.isNone_iff_eq_none] using hfree
          · exact hseen n hn

/-- The released names are among the dropped ones; a released name was seen
pointing here, a dropped one that is not released was seen pointing elsewhere. -/
theorem yields_releaseNames {names released : List String}
    (h : (releaseNames mnemonic domain names).Yields V released) :
    released ⊆ names ∧
      ∀ n ∈ names, n ∉ released → ∃ s ∈ V, s.nameHolder domain n ≠ some mnemonic := by
  induction names generalizing released with
  | nil =>
      rw [releaseNames, Query.yields_pure] at h
      subst h
      simp
  | cons name rest ih =>
      rw [releaseNames] at h
      simp only [Query.yields_bind, Query.yields_read, Query.yields_pure] at h
      obtain ⟨holder, ⟨s, hs, rfl⟩, released', hrest, rfl⟩ := h
      obtain ⟨hsub, hother⟩ := ih hrest
      by_cases hours : s.nameHolder domain name = some mnemonic
      · rw [if_pos hours]
        refine ⟨List.cons_subset_cons name hsub, ?_⟩
        intro n hn hnot
        rcases List.mem_cons.mp hn with rfl | hn
        · exact absurd List.mem_cons_self hnot
        · exact hother n hn fun hmem => hnot (List.mem_cons_of_mem _ hmem)
      · rw [if_neg hours]
        refine ⟨fun n hn => List.mem_cons_of_mem _ (hsub hn), ?_⟩
        intro n hn hnot
        rcases List.mem_cons.mp hn with rfl | hn
        · exact ⟨s, hs, hours⟩
        · exact hother n hn hnot

/-- What a successful reconciliation establishes, whatever stores its reads
saw. -/
structure Reconciled (V : Set ControlStore) (names : List AgentNameEntry)
    (mnemonic : String) (claims : List String) (domain : String) (now : ℕ)
    (next : List AgentNameEntry) (changes : NameChanges) : Prop where
  next_eq : next = reconciledNames names changes.claimed now
  claimed_eq : changes.claimed = bindableNames mnemonic claims
  claimed_free : ∀ n ∈ changes.claimed, ∃ s ∈ V,
    s.nameHolder domain n = none ∨ s.nameHolder domain n = some mnemonic
  released_dropped : changes.released ⊆ droppedNames names changes.claimed
  kept_elsewhere : ∀ n ∈ droppedNames names changes.claimed, n ∉ changes.released →
    ∃ s ∈ V, s.nameHolder domain n ≠ some mnemonic

theorem reconcileAgentNames_spec {names : List AgentNameEntry} {claims : List String}
    {now : ℕ} {next : List AgentNameEntry} {changes : NameChanges}
    (h : (reconcileAgentNames names mnemonic claims domain now).Yields V (next, changes)) :
    Reconciled V names mnemonic claims domain now next changes := by
  unfold reconcileAgentNames at h
  simp only [Query.yields_bind, Query.yields_pure] at h
  obtain ⟨claimed, hclaimed, released, hreleased, heq⟩ := h
  obtain ⟨rfl, rfl⟩ := Prod.mk.inj heq
  obtain ⟨hc, hfree⟩ := yields_claimNames hclaimed
  obtain ⟨hr, hk⟩ := yields_releaseNames hreleased
  exact ⟨rfl, hc, hfree, hr, hk⟩

theorem mem_reconciledNames {names : List AgentNameEntry} {claimed : List String}
    {now : ℕ} {n : String} :
    n ∈ (reconciledNames names claimed now).map (·.name) ↔
      n ∈ claimed ∨ ∃ e ∈ names, e.name = n ∧ e.enabled = false ∧ n ∉ claimed := by
  unfold reconciledNames
  rw [List.map_append, List.mem_append, List.map_map]
  constructor
  · rintro (h | h)
    · obtain ⟨e, he, rfl⟩ := List.mem_map.mp h
      obtain ⟨hmem, hcond⟩ := List.mem_filter.mp he
      simp only [Bool.and_eq_true, Bool.not_eq_true', List.contains_eq_mem,
        decide_eq_false_iff_not] at hcond
      exact Or.inr ⟨e, hmem, rfl, hcond.1, hcond.2⟩
    · obtain ⟨c, hc, rfl⟩ := List.mem_map.mp h
      exact Or.inl hc
  · rintro (h | ⟨e, he, rfl, hoff, hnot⟩)
    · exact Or.inr (List.mem_map.mpr ⟨n, h, rfl⟩)
    · refine Or.inl (List.mem_map.mpr ⟨e, List.mem_filter.mpr ⟨he, ?_⟩, rfl⟩)
      simp [hoff, hnot]

/-- The enabled names of the new registry are the claimed ones. -/
theorem enabled_reconciledNames {names : List AgentNameEntry} {claimed : List String}
    {now : ℕ} {e : AgentNameEntry} (he : e ∈ reconciledNames names claimed now)
    (hon : e.enabled = true) : e.name ∈ claimed := by
  unfold reconciledNames at he
  rcases List.mem_append.mp he with h | h
  · have := (List.mem_filter.mp h).2
    simp [hon] at this
  · obtain ⟨c, hc, rfl⟩ := List.mem_map.mp h
    exact hc

/-- A registry without duplicates stays without duplicates. -/
theorem nodup_reconciledNames {names : List AgentNameEntry} {claimed : List String}
    {now : ℕ} (hnames : (names.map (·.name)).Nodup) (hclaimed : claimed.Nodup) :
    ((reconciledNames names claimed now).map (·.name)).Nodup := by
  unfold reconciledNames
  rw [List.map_append, List.map_map]
  have hparked : ((names.filter fun e => !e.enabled && !claimed.contains e.name).map
      (·.name)).Nodup :=
    hnames.sublist (List.filter_sublist.map _)
  have hmap : claimed.map ((fun e => e.name) ∘ claimedEntry names now) = claimed := by
    simp [Function.comp_def, claimedEntry]
  rw [hmap, List.nodup_append]
  refine ⟨hparked, hclaimed, ?_⟩
  intro a ha b hb hab
  subst hab
  obtain ⟨e, he, rfl⟩ := List.mem_map.mp ha
  have := (List.mem_filter.mp he).2
  simp [hb] at this

theorem mem_droppedNames {names : List AgentNameEntry} {claimed : List String}
    {n : String} :
    n ∈ droppedNames names claimed ↔
      ∃ e ∈ names, e.name = n ∧ e.enabled = true ∧ n ∉ claimed := by
  unfold droppedNames
  rw [List.mem_map]
  constructor
  · rintro ⟨e, he, rfl⟩
    obtain ⟨hmem, hcond⟩ := List.mem_filter.mp he
    simp only [Bool.and_eq_true, Bool.not_eq_true', List.contains_eq_mem,
      decide_eq_false_iff_not] at hcond
    exact ⟨e, hmem, rfl, hcond.1, hcond.2⟩
  · rintro ⟨e, he, rfl, hon, hnot⟩
    exact ⟨e, List.mem_filter.mpr ⟨he, by simp [hon, hnot]⟩, rfl⟩

theorem nodup_bindableNames {claims : List String} (h : claims.Nodup) :
    (bindableNames mnemonic claims).Nodup :=
  h.filter _

end DidHosting
