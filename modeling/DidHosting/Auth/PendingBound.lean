import DidHosting.Auth.PendingLedger

/-!
# The size of the tracker

The entries, the sessions and the queues of the DIDs are never more than the global cap.
The expiry queue drops a released id only when it reaches the front: as long as the oldest
challenge lives, every challenge issued and released behind it stays.  The queue holds what
was issued from the oldest live challenge on, and is bounded where that is.
-/

namespace DidHosting

namespace Auth

open Deadlines

/-! ## Runs -/

/-- A tracker, the clock, the reservations its callers hold, and everything issued. -/
structure Issuance where
  inner : Inner
  now : ℕ
  held : List ℕ
  issued : List Slot

namespace Issuance

/-- An empty tracker. -/
def start (now : ℕ) : Issuance :=
  ⟨Inner.empty, now, [], []⟩

def step (config : TrackerConfig) (v : Issuance) : TrackerEvent → Issuance
  | .issue did perDidCap =>
      match tryIssue config v.inner v.now did perDidCap with
      | (.error _, inner) => { v with inner := inner }
      | (.ok reservation, inner) =>
          { v with
            inner := inner
            held := reservation :: v.held
            issued := v.issued ++ [(v.now + config.challengeTtl, reservation)] }
  | .bind reservation sessionId =>
      if reservation ∈ v.held then
        { v with
          inner := bindSession v.inner reservation sessionId
          held := v.held.filter (· != reservation) }
      else v
  | .cancel reservation =>
      if reservation ∈ v.held then
        { v with
          inner := Auth.cancel v.inner reservation
          held := v.held.filter (· != reservation) }
      else v
  | .release sessionId => { v with inner := (releaseSession v.inner v.now sessionId).2 }
  | .tick nanoseconds => { v with now := v.now + nanoseconds }

/-- The challenge has an entry and its time has not passed. -/
def isLive (v : Issuance) (slot : Slot) : Bool :=
  (v.inner.entries.lookup slot.2).isSome && decide (v.now < slot.1)

def live (v : Issuance) : List Slot :=
  v.issued.filter v.isLive

/-- The live challenges of a DID. -/
def liveFor (v : Issuance) (did : String) : List Slot :=
  v.live.filter fun slot => (v.inner.entries.lookup slot.2).any (·.did == did)

/-- What was issued from the oldest live challenge on. -/
def sinceOldest (v : Issuance) : List Slot :=
  v.issued.dropWhile fun slot => !v.isLive slot

end Issuance

/-- The structures hold no more than `cap` elements. -/
structure Bounded (cap : ℕ) (s : Inner) : Prop where
  entries : s.entries.keys.length ≤ cap
  bySession : s.bySession.keys.length ≤ cap
  perDid : s.perDid.keys.length ≤ cap
  slots : ((Table.rows s.perDid).flatMap (·.2)).length ≤ cap
  expiry : s.expiry.length ≤ cap

/-- Where the caps leave room for a challenge, fewer than the global cap were issued from
the oldest live one on. -/
def Uncrowded (config : TrackerConfig) (v : Issuance) : TrackerEvent → Prop
  | .issue did perDidCap =>
      v.live.length < config.globalCap →
        (v.liveFor did = [] ∨ (v.liveFor did).length < perDidCap) →
        v.sinceOldest.length < config.globalCap
  | _ => True

instance (config : TrackerConfig) (v : Issuance) : ∀ e, Decidable (Uncrowded config v e)
  | .issue did perDidCap =>
      inferInstanceAs (Decidable (v.live.length < config.globalCap →
        (v.liveFor did = [] ∨ (v.liveFor did).length < perDidCap) →
        v.sinceOldest.length < config.globalCap))
  | .bind _ _ => inferInstanceAs (Decidable True)
  | .cancel _ => inferInstanceAs (Decidable True)
  | .release _ => inferInstanceAs (Decidable True)
  | .tick _ => inferInstanceAs (Decidable True)

/-! ## Sessions -/

/-- Every session kept is that of a challenge. -/
def SessionsIn (s : Inner) (l : List Challenge) : Prop :=
  ∀ sessionId id, s.bySession.lookup sessionId = some id →
    ∃ c ∈ l, c.session = some sessionId ∧ c.id = id

section Sessions

variable {s : Inner} {l : List Challenge} {now : ℕ}

theorem SessionsIn.remove (hd : Describes s l) (h : SessionsIn s l) (id : ℕ) :
    SessionsIn (s.remove id).2 (l.filter (·.id != id)) := by
  unfold Inner.remove
  cases hentry : s.entries.lookup id with
  | none =>
      rw [filter_id_eq_self (hd.notMem_of_lookup hentry)]
      exact h
  | some entry =>
      obtain ⟨c, hc, hid, rfl⟩ := (hd.entries id entry).mp hentry
      intro sessionId id' hlookup
      have hkept : s.bySession.lookup sessionId = some id' ∧ c.session ≠ some sessionId := by
        change (c.session.elim s.bySession s.bySession.erase).lookup sessionId = some id'
          at hlookup
        cases hsession : c.session with
        | none =>
            rw [hsession] at hlookup
            exact ⟨hlookup, fun hcontra => nomatch hcontra⟩
        | some sid =>
            rw [hsession] at hlookup
            change (s.bySession.erase sid).lookup sessionId = some id' at hlookup
            rw [Table.lookup_erase_ite] at hlookup
            split_ifs at hlookup with heq
            exact ⟨hlookup, fun hcontra => heq (Option.some.inj hcontra).symm⟩
      obtain ⟨x, hx, hxsession, hxid⟩ := h sessionId id' hkept.1
      refine ⟨x, List.mem_filter.mpr ⟨hx, ?_⟩, hxsession, hxid⟩
      have hne : x.id ≠ id := by
        intro heq
        have hsame := hd.eq_of_id hx hc (heq.trans hid.symm)
        exact hkept.2 (hsame ▸ hxsession)
      simpa using hne

theorem SessionsIn.prune (hd : Describes s l) (h : SessionsIn s l) (now : ℕ) :
    SessionsIn (s.prune now) (l.filter (·.isLive now)) :=
  (pruneFrom_keeps (fun _ _ _ hP => hP) (fun _ _ id hd hP => hP.remove hd id) s.expiry hd h).2

theorem SessionsIn.insert (h : SessionsIn s l) (did : String) (expiresAt : ℕ) :
    SessionsIn (s.insert did expiresAt none).2
      (put Challenge.expiresAt ⟨s.nextId, did, expiresAt, none⟩ l) := by
  intro sessionId id hlookup
  obtain ⟨c, hc, hc'⟩ := h sessionId id hlookup
  exact ⟨c, mem_put.mpr (Or.inr hc), hc'⟩

theorem SessionsIn.bind (hd : Describes s l) (h : SessionsIn s l) {reservation : ℕ}
    (hunbound : ∀ c ∈ l, c.id = reservation → c.session = none) (sessionId : String) :
    SessionsIn (bindSession s reservation sessionId)
      (l.map (Challenge.bound reservation sessionId)) := by
  unfold bindSession
  cases hentry : s.entries.lookup reservation with
  | none =>
      rw [map_bound_of_notMem (hd.notMem_of_lookup hentry)]
      exact h
  | some entry =>
      obtain ⟨c, hc, hid, rfl⟩ := (hd.entries reservation entry).mp hentry
      intro sessionId' id hlookup
      dsimp only at hlookup
      rw [Table.lookup_insert_ite] at hlookup
      split_ifs at hlookup with heq
      · cases hlookup
        refine ⟨_, List.mem_map_of_mem hc, ?_, (Challenge.bound_id _ _ c).trans hid⟩
        rw [Challenge.bound_of_eq hid, heq]
      · obtain ⟨x, hx, hxsession, hxid⟩ := h sessionId' id hlookup
        refine ⟨_, List.mem_map_of_mem hx, ?_, (Challenge.bound_id _ _ x).trans hxid⟩
        rw [Challenge.bound_of_ne]
        · exact hxsession
        · intro hcontra
          rw [hunbound x hx hcontra] at hxsession
          cases hxsession

/-- There are at most as many sessions as challenges. -/
theorem SessionsIn.length_le (h : SessionsIn s l) : s.bySession.keys.length ≤ l.length := by
  have hsubset : s.bySession.keys ⊆ l.filterMap (·.session) := by
    intro sessionId hmem
    obtain ⟨id, hid⟩ := Option.isSome_iff_exists.mp
      (AList.lookup_isSome.mpr (AList.mem_keys.mpr hmem))
    obtain ⟨c, hc, hsession, -⟩ := h sessionId id hid
    exact List.mem_filterMap.mpr ⟨c, hc, hsession⟩
  calc s.bySession.keys.length
      ≤ (l.filterMap (·.session)).length :=
        (List.subperm_of_subset s.bySession.keys_nodup hsubset).length_le
    _ ≤ l.length := List.length_filterMap_le _ l

end Sessions

/-! ## The queues of the DIDs -/

section Queues

variable {s : Inner} {l : List Challenge}

theorem Describes.perDid_queue (h : Describes s l) {did : String} {q : List Slot}
    (hq : s.perDid.lookup did = some q) :
    q = (l.filter (·.did == did)).map Challenge.slot ∧ q ≠ [] := by
  rw [h.perDid] at hq
  unfold queueOf at hq
  split_ifs at hq with hempty
  cases hq
  refine ⟨rfl, ?_⟩
  intro hnil
  rw [List.map_eq_nil_iff] at hnil
  exact hempty (List.isEmpty_iff.mpr hnil)

/-- There are at most as many queues as challenges. -/
theorem Describes.perDid_keys_length (h : Describes s l) :
    s.perDid.keys.length ≤ l.length := by
  have hsubset : s.perDid.keys ⊆ l.map (·.did) := by
    intro did hmem
    obtain ⟨q, hq⟩ := Option.isSome_iff_exists.mp
      (AList.lookup_isSome.mpr (AList.mem_keys.mpr hmem))
    obtain ⟨rfl, hne⟩ := h.perDid_queue hq
    obtain ⟨slot, hslot⟩ := List.exists_mem_of_ne_nil _ hne
    obtain ⟨c, hc, -⟩ := List.mem_map.mp hslot
    obtain ⟨hcmem, hcdid⟩ := List.mem_filter.mp hc
    exact List.mem_map.mpr ⟨c, hcmem, by simpa using hcdid⟩
  calc s.perDid.keys.length
      ≤ (l.map (·.did)).length :=
        (List.subperm_of_subset s.perDid.keys_nodup hsubset).length_le
    _ = l.length := List.length_map _

/-- The queues together have at most as many places as there are challenges. -/
theorem Describes.perDid_slots_length (h : Describes s l) :
    ((Table.rows s.perDid).flatMap (·.2)).length ≤ l.length := by
  have hslots : (l.map Challenge.slot).Nodup := by
    refine List.Nodup.of_map Prod.snd ?_
    rw [List.map_map]
    exact h.ids
  have hnodup : ((Table.rows s.perDid).flatMap (·.2)).Nodup := by
    rw [List.nodup_flatMap]
    refine ⟨?_, ?_⟩
    · rintro ⟨did, q⟩ hrow
      obtain ⟨rfl, -⟩ := h.perDid_queue (Table.mem_rows.mp hrow)
      exact hslots.sublist (List.filter_sublist.map _)
    · have hkeys : (Table.rows s.perDid).Pairwise fun a b => a.1 ≠ b.1 :=
        List.pairwise_map.mp (Table.keys_rows_nodup s.perDid)
      refine List.Pairwise.imp_of_mem ?_ hkeys
      rintro ⟨did, q⟩ ⟨did', q'⟩ hrow hrow' hne slot hslot hslot'
      obtain ⟨rfl, -⟩ := h.perDid_queue (Table.mem_rows.mp hrow)
      obtain ⟨rfl, -⟩ := h.perDid_queue (Table.mem_rows.mp hrow')
      obtain ⟨c, hc, hcslot⟩ := List.mem_map.mp hslot
      obtain ⟨c', hc', hcslot'⟩ := List.mem_map.mp hslot'
      obtain ⟨hcmem, hcdid⟩ := List.mem_filter.mp hc
      obtain ⟨hcmem', hcdid'⟩ := List.mem_filter.mp hc'
      have hid : c.id = c'.id := congrArg Prod.snd (hcslot.trans hcslot'.symm)
      have hsame := h.eq_of_id hcmem hcmem' hid
      have hdid : c.did = did := by simpa using hcdid
      have hdid' : c'.did = did' := by simpa using hcdid'
      exact hne (hdid.symm.trans ((congrArg Challenge.did hsame).trans hdid'))
  have hsubset : (Table.rows s.perDid).flatMap (·.2) ⊆ l.map Challenge.slot := by
    intro slot hslot
    obtain ⟨⟨did, q⟩, hrow, hmem⟩ := List.mem_flatMap.mp hslot
    obtain ⟨rfl, -⟩ := h.perDid_queue (Table.mem_rows.mp hrow)
    exact (List.filter_sublist.map _).subset hmem
  calc ((Table.rows s.perDid).flatMap (·.2)).length
      ≤ (l.map Challenge.slot).length := (List.subperm_of_subset hnodup hsubset).length_le
    _ = l.length := List.length_map _

end Queues

/-! ## The expiry queue -/

section Expiry

variable {s : Inner} {l : List Challenge} {now : ℕ}

theorem remove_entries_none {id id' : ℕ} (h : s.entries.lookup id' = none) :
    (s.remove id).2.entries.lookup id' = none := by
  unfold Inner.remove
  cases hentry : s.entries.lookup id with
  | none => exact h
  | some entry =>
      change (s.entries.erase id).lookup id' = none
      rw [Table.lookup_erase_ite, h, ite_self]

theorem remove_entries_self (s : Inner) (id : ℕ) :
    (s.remove id).2.entries.lookup id = none := by
  unfold Inner.remove
  cases hentry : s.entries.lookup id with
  | none => exact hentry
  | some entry => exact AList.lookup_erase id s.entries

theorem pruneFrom_entries_none {id : ℕ} (q : List Slot) (h : s.entries.lookup id = none) :
    (Inner.pruneFrom now q s).entries.lookup id = none := by
  induction q generalizing s with
  | nil => exact h
  | cons slot rest ih =>
      unfold Inner.pruneFrom
      split_ifs
      · exact h
      · exact ih (remove_entries_none h)
      · exact ih h

/-- A prune takes places from the front, of ids that have no entry any more. -/
theorem pruneFrom_suffix (now : ℕ) (q : List Slot) (s : Inner) :
    ∃ dropped, q = dropped ++ (Inner.pruneFrom now q s).expiry ∧
      ∀ slot ∈ dropped, (Inner.pruneFrom now q s).entries.lookup slot.2 = none := by
  induction q generalizing s with
  | nil => exact ⟨[], rfl, fun _ hslot => nomatch hslot⟩
  | cons slot rest ih =>
      unfold Inner.pruneFrom
      split_ifs with hsome hlive
      · exact ⟨[], rfl, fun _ hslot => nomatch hslot⟩
      · obtain ⟨dropped, hrest, hnone⟩ := ih (s.remove slot.2).2
        refine ⟨slot :: dropped, congrArg (slot :: ·) hrest, ?_⟩
        intro x hx
        obtain rfl | hx := List.mem_cons.mp hx
        · exact pruneFrom_entries_none rest (remove_entries_self s _)
        · exact hnone x hx
      · obtain ⟨dropped, hrest, hnone⟩ := ih s
        refine ⟨slot :: dropped, congrArg (slot :: ·) hrest, ?_⟩
        intro x hx
        obtain rfl | hx := List.mem_cons.mp hx
        · exact pruneFrom_entries_none rest (by simpa using hsome)
        · exact hnone x hx

/-- A challenge in the queue is live if and only if a prune leaves its entry. -/
theorem Describes.prune_isSome (h : Describes s l) {slot : Slot} (hslot : slot ∈ s.expiry) :
    ((s.prune now).entries.lookup slot.2).isSome = true ↔
      ((s.entries.lookup slot.2).isSome && decide (now < slot.1)) = true := by
  rw [(h.prune now).isSome_lookup, Bool.and_eq_true, decide_eq_true_iff]
  have hplace : (s.entries.lookup slot.2).isSome = true → ∃ c ∈ l, c.slot = slot := by
    intro hsome
    have hmem : slot ∈ l.map Challenge.slot := by
      rw [← h.expiry]
      exact List.mem_filter.mpr ⟨hslot, hsome⟩
    exact List.mem_map.mp hmem
  constructor
  · intro hmem
    obtain ⟨c, hc, hid⟩ := List.mem_map.mp hmem
    obtain ⟨hcmem, hlive⟩ := List.mem_filter.mp hc
    have hsome : (s.entries.lookup slot.2).isSome = true :=
      h.isSome_lookup.mpr (List.mem_map.mpr ⟨c, hcmem, hid⟩)
    obtain ⟨c', hc', hslot'⟩ := hplace hsome
    have hsame := h.eq_of_id hc' hcmem ((congrArg Prod.snd hslot').trans hid.symm)
    refine ⟨hsome, ?_⟩
    rw [← hslot', hsame]
    exact of_decide_eq_true hlive
  · rintro ⟨hsome, hlive⟩
    obtain ⟨c, hc, rfl⟩ := hplace hsome
    exact List.mem_map.mpr ⟨c, List.mem_filter.mpr ⟨hc, decide_eq_true hlive⟩, rfl⟩

end Expiry

/-! ## Invariants -/

namespace Issuance

/-- The structures describe at most `cap` challenges, and the expiry queue is the end of
what was issued; what is not in it has no entry. -/
structure Good (config : TrackerConfig) (v : Issuance) : Prop where
  described : ∃ l, Describes v.inner l ∧ SessionsIn v.inner l ∧ l.length ≤ config.globalCap ∧
    ∀ reservation ∈ v.held, ∀ c ∈ l, c.id = reservation → c.session = none
  heldFresh : ∀ reservation ∈ v.held, reservation < v.inner.nextId
  suffix : ∃ gone, v.issued = gone ++ v.inner.expiry ∧
    ∀ slot ∈ gone, v.inner.entries.lookup slot.2 = none ∧ slot.2 < v.inner.nextId
  soon : ∀ slot ∈ v.inner.expiry, slot.1 ≤ v.now + config.challengeTtl

section

variable {config : TrackerConfig} {v : Issuance}

theorem Good.prune (h : v.Good config) : Good config { v with inner := v.inner.prune v.now } := by
  obtain ⟨l, hd, hs, hle, hheld⟩ := h.described
  obtain ⟨gone, hissued, hgone⟩ := h.suffix
  obtain ⟨dropped, hexpiry, hdropped⟩ := pruneFrom_suffix v.now v.inner.expiry v.inner
  refine ⟨⟨_, hd.prune v.now, hs.prune hd v.now, ?_, ?_⟩, ?_, ⟨gone ++ dropped, ?_, ?_⟩, ?_⟩
  · exact le_trans (List.length_filter_le _ _) hle
  · exact fun r hr c hc => hheld r hr c (List.mem_of_mem_filter hc)
  · intro r hr
    rw [prune_nextId]
    exact h.heldFresh r hr
  · rw [List.append_assoc, hissued]
    exact congrArg (gone ++ ·) hexpiry
  · intro slot hslot
    rw [prune_nextId]
    obtain hslot | hslot := List.mem_append.mp hslot
    · obtain ⟨hnone, hlt⟩ := hgone slot hslot
      exact ⟨pruneFrom_entries_none _ hnone, hlt⟩
    · refine ⟨hdropped slot hslot, hd.expiryFresh slot ?_⟩
      rw [hexpiry]
      exact List.mem_append_left _ hslot
  · intro slot hslot
    refine h.soon slot ?_
    rw [hexpiry]
    exact List.mem_append_right _ hslot

theorem Good.remove (h : v.Good config) (id : ℕ) (held : List ℕ) (hsub : held ⊆ v.held) :
    Good config { v with inner := (v.inner.remove id).2, held := held } := by
  obtain ⟨l, hd, hs, hle, hheld⟩ := h.described
  obtain ⟨gone, hissued, hgone⟩ := h.suffix
  have hexpiry : (v.inner.remove id).2.expiry = v.inner.expiry := by
    unfold Inner.remove
    cases v.inner.entries.lookup id with
    | none => rfl
    | some entry => rfl
  refine ⟨⟨_, hd.remove id, hs.remove hd id, ?_, ?_⟩, ?_, ⟨gone, ?_, ?_⟩, ?_⟩
  · exact le_trans (List.length_filter_le _ _) hle
  · exact fun r hr c hc => hheld r (hsub hr) c (List.mem_of_mem_filter hc)
  · intro r hr
    rw [remove_nextId]
    exact h.heldFresh r (hsub hr)
  · rw [hexpiry]
    exact hissued
  · intro slot hslot
    rw [remove_nextId]
    obtain ⟨hnone, hlt⟩ := hgone slot hslot
    exact ⟨remove_entries_none hnone, hlt⟩
  · rw [hexpiry]
    exact h.soon

theorem Good.live_eq (h : v.Good config) :
    ∃ l, Describes (v.inner.prune v.now) l ∧ v.live = l.map Challenge.slot ∧
      ∀ did, v.liveFor did = (l.filter (·.did == did)).map Challenge.slot := by
  obtain ⟨l, hd, -⟩ := h.described
  obtain ⟨gone, hissued, hgone⟩ := h.suffix
  have hlive : v.live = (l.filter (·.isLive v.now)).map Challenge.slot := by
    have hgonelive : gone.filter v.isLive = [] := by
      rw [List.filter_eq_nil_iff]
      intro slot hslot
      unfold isLive
      rw [(hgone slot hslot).1]
      exact Bool.false_ne_true
    have hexpirylive : v.inner.expiry.filter v.isLive =
        (l.map Challenge.slot).filter fun slot => decide (v.now < slot.1) := by
      rw [← hd.expiry, List.filter_filter]
      refine List.filter_congr ?_
      intro slot _
      exact Bool.and_comm _ _
    unfold live
    rw [hissued, List.filter_append, hgonelive, List.nil_append, hexpirylive]
    exact List.filter_map
  refine ⟨_, hd.prune v.now, hlive, ?_⟩
  intro did
  unfold liveFor
  rw [hlive, List.filter_map]
  congr 1
  refine List.filter_congr ?_
  intro c hc
  have hentry := (hd.entries c.id c.entry).mpr ⟨c, List.mem_of_mem_filter hc, rfl, rfl⟩
  change (v.inner.entries.lookup c.id).any (·.did == did) = _
  rw [hentry]
  rfl

/-- A prune leaves in the expiry queue what was issued from the oldest live challenge on. -/
theorem Good.sinceOldest_eq (h : v.Good config) :
    v.sinceOldest = (v.inner.prune v.now).expiry := by
  obtain ⟨l, hd, -⟩ := h.described
  obtain ⟨gone, hissued, hgone⟩ := h.suffix
  obtain ⟨dropped, hexpiry, hdropped⟩ := pruneFrom_suffix v.now v.inner.expiry v.inner
  change v.inner.expiry = dropped ++ (v.inner.prune v.now).expiry at hexpiry
  have hfront : ∀ slot ∈ gone ++ dropped, (!v.isLive slot) = true := by
    intro slot hslot
    rw [Bool.not_eq_true', Bool.eq_false_iff]
    intro hlive
    obtain hslot | hslot := List.mem_append.mp hslot
    · unfold isLive at hlive
      rw [(hgone slot hslot).1] at hlive
      exact Bool.false_ne_true hlive
    · have hmem : slot ∈ v.inner.expiry := by
        rw [hexpiry]
        exact List.mem_append_left _ hslot
      have hsome := (hd.prune_isSome hmem).mpr hlive
      change ((Inner.pruneFrom v.now v.inner.expiry v.inner).entries.lookup slot.2).isSome = true
        at hsome
      rw [hdropped slot hslot] at hsome
      exact Bool.false_ne_true hsome
  unfold sinceOldest
  rw [hissued, hexpiry, ← List.append_assoc, List.dropWhile_append_of_pos hfront]
  cases hq : (v.inner.prune v.now).expiry with
  | nil => rfl
  | cons slot rest =>
      have hmem : slot ∈ v.inner.expiry := by
        rw [hexpiry, hq]
        exact List.mem_append_right _ List.mem_cons_self
      have hsome : ((v.inner.prune v.now).entries.lookup slot.2).isSome = true := by
        refine pruneFrom_front v.now v.inner.expiry v.inner ?_
        change (v.inner.prune v.now).expiry.head? = some slot
        rw [hq]
        rfl
      have hlive : v.isLive slot = true := (hd.prune_isSome hmem).mp hsome
      rw [List.dropWhile_cons_of_neg (by simp [hlive])]

/-- The caps leave room for another challenge. -/
def HasRoom (config : TrackerConfig) (v : Issuance) (did : String) (perDidCap : ℕ) : Prop :=
  v.live.length < config.globalCap ∧
    (v.liveFor did = [] ∨ (v.liveFor did).length < perDidCap)

theorem any_queueOf_iff {perDidCap : ℕ} {l : List Challenge} :
    (queueOf l).any (fun q => decide (perDidCap ≤ q.length)) = true ↔
      l ≠ [] ∧ perDidCap ≤ l.length := by
  unfold queueOf
  cases l with
  | nil => simp
  | cons c rest => simp

/-- A challenge is issued if and only if there is room. -/
theorem Good.tryIssue (h : v.Good config) (did : String) (perDidCap : ℕ) :
    (v.HasRoom config did perDidCap ∧ Auth.tryIssue config v.inner v.now did perDidCap =
      (.ok v.inner.nextId,
        ((v.inner.prune v.now).insert did (v.now + config.challengeTtl) none).2)) ∨
    (¬v.HasRoom config did perDidCap ∧ ∃ refusal,
      Auth.tryIssue config v.inner v.now did perDidCap =
        (.error refusal, v.inner.prune v.now)) := by
  obtain ⟨l, hd, hlive, hliveFor⟩ := h.live_eq
  have hglobal : (v.inner.prune v.now).entries.keys.length = v.live.length := by
    rw [hd.entries_length, hlive, List.length_map]
  have hany : ((v.inner.prune v.now).perDid.lookup did).any (perDidCap ≤ ·.length) = true ↔
      v.liveFor did ≠ [] ∧ perDidCap ≤ (v.liveFor did).length := by
    rw [hd.perDid, any_queueOf_iff, hliveFor, List.length_map, Ne, Ne, List.map_eq_nil_iff]
  unfold Auth.tryIssue HasRoom
  dsimp only
  rw [hglobal]
  by_cases hfull : config.globalCap ≤ v.live.length
  · right
    rw [if_pos hfull]
    exact ⟨fun hroom => absurd hfull (Nat.not_le.mpr hroom.1), _, rfl⟩
  · rw [if_neg hfull]
    by_cases hmany : v.liveFor did ≠ [] ∧ perDidCap ≤ (v.liveFor did).length
    · right
      rw [if_pos (hany.mpr hmany)]
      refine ⟨?_, _, rfl⟩
      rintro ⟨-, hnil | hfew⟩
      · exact hmany.1 hnil
      · exact absurd hmany.2 (Nat.not_le.mpr hfew)
    · left
      rw [if_neg (fun hcontra => hmany (hany.mp hcontra))]
      refine ⟨⟨Nat.lt_of_not_le hfull, ?_⟩, ?_⟩
      · by_cases hnil : v.liveFor did = []
        · exact Or.inl hnil
        · exact Or.inr (Nat.lt_of_not_le fun hle => hmany ⟨hnil, hle⟩)
      · unfold Inner.insert
        rw [prune_nextId]

/-- A challenge that is issued goes to the end of the expiry queue. -/
theorem Good.issue (h : v.Good config) {did : String} {perDidCap : ℕ}
    (hroom : v.HasRoom config did perDidCap) :
    Good config (v.step config (.issue did perDidCap)) ∧
      (v.step config (.issue did perDidCap)).inner.expiry.length = v.sinceOldest.length + 1 := by
  obtain ⟨-, htry⟩ | ⟨hnoroom, -⟩ := h.tryIssue did perDidCap
  swap
  · exact absurd hroom hnoroom
  have hstep : v.step config (.issue did perDidCap) =
      { v with
        inner := ((v.inner.prune v.now).insert did (v.now + config.challengeTtl) none).2
        held := v.inner.nextId :: v.held
        issued := v.issued ++ [(v.now + config.challengeTtl, v.inner.nextId)] } := by
    dsimp only [step]
    rw [htry]
  have hpruned := h.prune
  obtain ⟨l, hd, hs, -, hheld⟩ := hpruned.described
  obtain ⟨l', hd', hlive, -⟩ := h.live_eq
  obtain ⟨gone, hissued, hgone⟩ := hpruned.suffix
  have hlength : l.length = v.live.length := by
    rw [hlive, List.length_map, ← hd'.entries_length]
    exact hd.entries_length.symm
  have hlast : ((v.inner.prune v.now).insert did (v.now + config.challengeTtl) none).2.expiry =
      (v.inner.prune v.now).expiry ++ [(v.now + config.challengeTtl, v.inner.nextId)] := by
    have hput : put Prod.fst (v.now + config.challengeTtl, (v.inner.prune v.now).nextId)
        (v.inner.prune v.now).expiry = _ :=
      put_of_le hpruned.soon
    rw [prune_nextId] at hput
    rw [← hput, ← prune_nextId v.inner v.now]
    rfl
  rw [hstep]
  refine ⟨⟨⟨_, hd.insert did (v.now + config.challengeTtl) none,
    hs.insert did (v.now + config.challengeTtl), ?_, ?_⟩, ?_, ⟨gone, ?_, ?_⟩, ?_⟩, ?_⟩
  · rw [put_perm.length_eq, List.length_cons, hlength]
    exact hroom.1
  · intro r hr c hc hid
    obtain rfl | hc := mem_put.mp hc
    · rfl
    · obtain rfl | hr := List.mem_cons.mp hr
      · have hfresh := hd.fresh c hc
        change c.id < (v.inner.prune v.now).nextId at hfresh
        rw [prune_nextId, hid] at hfresh
        exact absurd hfresh (Nat.lt_irrefl _)
      · exact hheld r hr c hc hid
  · intro r hr
    change r < (v.inner.prune v.now).nextId + 1
    rw [prune_nextId]
    obtain rfl | hr := List.mem_cons.mp hr
    · exact Nat.lt_succ_self _
    · exact Nat.lt_succ_of_lt (h.heldFresh r hr)
  · change v.issued ++ _ = gone ++ _
    rw [hlast, ← List.append_assoc]
    exact congrArg (· ++ [(v.now + config.challengeTtl, v.inner.nextId)]) hissued
  · intro slot hslot
    obtain ⟨hnone, hlt⟩ := hgone slot hslot
    refine ⟨?_, Nat.lt_succ_of_lt hlt⟩
    change ((v.inner.prune v.now).entries.insert (v.inner.prune v.now).nextId _).lookup slot.2 = _
    rw [Table.lookup_insert_ite, if_neg (Nat.ne_of_lt hlt)]
    exact hnone
  · intro slot hslot
    change slot ∈ ((v.inner.prune v.now).insert did (v.now + config.challengeTtl) none).2.expiry
      at hslot
    rw [hlast] at hslot
    obtain hslot | hslot := List.mem_append.mp hslot
    · exact hpruned.soon slot hslot
    · rw [List.mem_singleton.mp hslot]
  · change ((v.inner.prune v.now).insert did (v.now + config.challengeTtl) none).2.expiry.length = _
    rw [hlast, List.length_append, h.sinceOldest_eq]
    rfl

theorem prune_expiry_length (s : Inner) (now : ℕ) :
    (s.prune now).expiry.length ≤ s.expiry.length := by
  obtain ⟨dropped, hexpiry, -⟩ := pruneFrom_suffix now s.expiry s
  change s.expiry = dropped ++ (s.prune now).expiry at hexpiry
  rw [hexpiry, List.length_append]
  exact Nat.le_add_left _ _

theorem remove_expiry_eq (s : Inner) (id : ℕ) : (s.remove id).2.expiry = s.expiry := by
  unfold Inner.remove
  cases s.entries.lookup id with
  | none => rfl
  | some entry => rfl

/-- Without room the expiry queue does not grow. -/
theorem Good.refuse (h : v.Good config) {did : String} {perDidCap : ℕ}
    (hroom : ¬v.HasRoom config did perDidCap) :
    Good config (v.step config (.issue did perDidCap)) ∧
      (v.step config (.issue did perDidCap)).inner.expiry.length ≤ v.inner.expiry.length := by
  obtain ⟨hyes, -⟩ | ⟨-, refusal, htry⟩ := h.tryIssue did perDidCap
  · exact absurd hyes hroom
  · have hstep : v.step config (.issue did perDidCap) =
        { v with inner := v.inner.prune v.now } := by
      dsimp only [step]
      rw [htry]
    rw [hstep]
    exact ⟨h.prune, prune_expiry_length _ _⟩

theorem Good.bind (h : v.Good config) (reservation : ℕ) (sessionId : String) :
    Good config (v.step config (.bind reservation sessionId)) := by
  dsimp only [step]
  split_ifs with hmem
  · obtain ⟨l, hd, hs, hle, hheld⟩ := h.described
    obtain ⟨gone, hissued, hgone⟩ := h.suffix
    have hexpiry : (bindSession v.inner reservation sessionId).expiry = v.inner.expiry := by
      unfold bindSession
      cases v.inner.entries.lookup reservation with
      | none => rfl
      | some entry => rfl
    refine ⟨⟨_, hd.bind reservation sessionId, hs.bind hd (hheld reservation hmem) sessionId,
      ?_, ?_⟩, ?_, ⟨gone, ?_, ?_⟩, ?_⟩
    · rw [List.length_map]
      exact hle
    · intro r hr x hx hid
      obtain ⟨c, hc, rfl⟩ := List.mem_map.mp hx
      obtain ⟨hr, hne⟩ := List.mem_filter.mp hr
      rw [Challenge.bound_id] at hid
      have hne' : c.id ≠ reservation := by
        rw [hid]
        simpa using hne
      rw [Challenge.bound_of_ne hne']
      exact hheld r hr c hc hid
    · intro r hr
      dsimp only
      rw [bindSession_nextId]
      exact h.heldFresh r (List.mem_of_mem_filter hr)
    · dsimp only
      rw [hexpiry]
      exact hissued
    · intro slot hslot
      obtain ⟨hnone, hlt⟩ := hgone slot hslot
      dsimp only
      rw [bindSession_nextId]
      refine ⟨?_, hlt⟩
      unfold bindSession
      cases hentry : v.inner.entries.lookup reservation with
      | none => exact hnone
      | some entry =>
          dsimp only
          rw [Table.lookup_insert_ite, if_neg]
          · exact hnone
          · intro heq
            rw [heq, hentry] at hnone
            cases hnone
    · dsimp only
      rw [hexpiry]
      exact h.soon
  · exact h

theorem Good.release (h : v.Good config) (sessionId : String) :
    Good config (v.step config (.release sessionId)) ∧
      (v.step config (.release sessionId)).inner.expiry.length ≤ v.inner.expiry.length := by
  dsimp only [step, releaseSession]
  cases (v.inner.prune v.now).bySession.lookup sessionId with
  | none => exact ⟨h.prune, prune_expiry_length _ _⟩
  | some id =>
      refine ⟨h.prune.remove id v.held fun _ hr => hr, ?_⟩
      dsimp only
      rw [remove_expiry_eq]
      exact prune_expiry_length _ _

/-- Every event keeps the invariant, and only an issue lets the expiry queue grow. -/
theorem Good.step (h : v.Good config) (e : TrackerEvent) :
    Good config (v.step config e) ∧
      ((v.step config e).inner.expiry.length ≤ v.inner.expiry.length ∨
        ∃ did perDidCap, e = .issue did perDidCap ∧ v.HasRoom config did perDidCap) := by
  cases e with
  | issue did perDidCap =>
      by_cases hroom : v.HasRoom config did perDidCap
      · exact ⟨(h.issue hroom).1, Or.inr ⟨did, perDidCap, rfl, hroom⟩⟩
      · exact ⟨(h.refuse hroom).1, Or.inl (h.refuse hroom).2⟩
  | bind reservation sessionId =>
      refine ⟨h.bind reservation sessionId, Or.inl (Nat.le_of_eq ?_)⟩
      dsimp only [Issuance.step]
      split_ifs
      · unfold bindSession
        cases v.inner.entries.lookup reservation with
        | none => rfl
        | some entry => rfl
      · rfl
  | cancel reservation =>
      dsimp only [Issuance.step]
      split_ifs
      · refine ⟨h.remove reservation _ (List.filter_subset_self _), Or.inl ?_⟩
        dsimp only [Auth.cancel]
        rw [remove_expiry_eq]
      · exact ⟨h, Or.inl (Nat.le_refl _)⟩
  | release sessionId => exact ⟨(h.release sessionId).1, Or.inl (h.release sessionId).2⟩
  | tick nanoseconds =>
      refine ⟨⟨h.described, h.heldFresh, h.suffix, ?_⟩, Or.inl (Nat.le_refl _)⟩
      intro slot hslot
      have hsoon := h.soon slot hslot
      change slot.1 ≤ v.now + nanoseconds + config.challengeTtl
      omega

theorem start_good (now : ℕ) : (start now).Good config := by
  refine ⟨⟨[], empty_describes, ?_, Nat.zero_le _, ?_⟩, ?_, ⟨[], rfl, ?_⟩, ?_⟩
  · intro sessionId id hlookup
    cases hlookup
  · exact fun _ hr => nomatch hr
  · exact fun _ hr => nomatch hr
  · exact fun _ hslot => nomatch hslot
  · exact fun _ hslot => nomatch hslot

end

end Issuance

/-! ## Bounds -/

section Bounds

variable {config : TrackerConfig} {v : Issuance}

/-- All but the expiry queue are bounded in every run. -/
theorem Issuance.Good.bounded (h : v.Good config)
    (hexpiry : v.inner.expiry.length ≤ config.globalCap) : Bounded config.globalCap v.inner := by
  obtain ⟨l, hd, hs, hle, -⟩ := h.described
  refine ⟨?_, le_trans hs.length_le hle, le_trans hd.perDid_keys_length hle,
    le_trans hd.perDid_slots_length hle, hexpiry⟩
  rw [hd.entries_length]
  exact hle

/-- A step that finds fewer than the cap issued from the oldest live challenge on keeps the
bound. -/
theorem Issuance.Good.step_bounded (h : v.Good config) {e : TrackerEvent}
    (hexpiry : v.inner.expiry.length ≤ config.globalCap) (huncrowded : Uncrowded config v e) :
    (v.step config e).inner.expiry.length ≤ config.globalCap := by
  obtain ⟨-, hle | ⟨did, perDidCap, rfl, hroom⟩⟩ := h.step e
  · exact le_trans hle hexpiry
  · rw [(h.issue hroom).2]
    exact huncrowded hroom.1 hroom.2

/-- A step after which the bound holds has found fewer. -/
theorem Issuance.Good.uncrowded (h : v.Good config) {e : TrackerEvent}
    (hexpiry : (v.step config e).inner.expiry.length ≤ config.globalCap) :
    Uncrowded config v e := by
  cases e with
  | issue did perDidCap =>
      intro hlive hdid
      have hlength := (h.issue ⟨hlive, hdid⟩).2
      omega
  | bind reservation sessionId => trivial
  | cancel reservation => trivial
  | release sessionId => trivial
  | tick nanoseconds => trivial

/-- The structures hold no more than the cap at all times of a run if and only if, whenever
the caps leave room for a challenge, fewer were issued from the oldest live one on. -/
theorem tracker_bounded_iff (config : TrackerConfig) (now : ℕ) (events : List TrackerEvent) :
    (∀ before after, events = before ++ after → Bounded config.globalCap
      (Run.exec (Issuance.step config) (Issuance.start now) before).inner) ↔
      Run.Meets (Issuance.step config) (Uncrowded config) (Issuance.start now) events := by
  have hstart : (Issuance.start now).Good config := Issuance.start_good now
  have hzero : (Issuance.start now).inner.expiry.length ≤ config.globalCap := Nat.zero_le _
  generalize Issuance.start now = v at hstart hzero
  constructor
  · intro hbounded
    induction events generalizing v with
    | nil => trivial
    | cons e rest ih =>
        have hnext := (hbounded [e] rest rfl).expiry
        rw [Run.exec_cons, Run.exec_nil] at hnext
        refine ⟨hstart.uncrowded hnext, ih _ (hstart.step e).1 hnext ?_⟩
        intro before after hsplit
        have hlater := hbounded (e :: before) after (congrArg (e :: ·) hsplit)
        rw [Run.exec_cons] at hlater
        exact hlater
  · rintro hmeets before after rfl
    obtain ⟨hbefore, -⟩ := hmeets.of_append
    have hstep : ∀ (w : Issuance) (e : TrackerEvent), Uncrowded config w e →
        (w.Good config ∧ w.inner.expiry.length ≤ config.globalCap) →
        ((w.step config e).Good config ∧
          (w.step config e).inner.expiry.length ≤ config.globalCap) :=
      fun _ e huncrowded hw => ⟨(hw.1.step e).1, hw.1.step_bounded hw.2 huncrowded⟩
    obtain ⟨hgood, hexpiry⟩ := Run.exec_invariant hstep ⟨hstart, hzero⟩ hbefore
    exact hgood.bounded hexpiry

/-- One challenge lives while others are issued and released behind it. -/
theorem tracker_not_bounded :
    ¬∀ before after,
      [TrackerEvent.issue "did:a" 5, .issue "did:b" 5, .cancel 1, .issue "did:b" 5, .cancel 2] =
        before ++ after →
      Bounded Sample.tracker.globalCap
        (Run.exec (Issuance.step Sample.tracker) (Issuance.start 0) before).inner := by
  intro hbounded
  have hexpiry := (hbounded _ [] (List.append_nil _).symm).expiry
  revert hexpiry
  decide +kernel

end Bounds

end Auth

end DidHosting
