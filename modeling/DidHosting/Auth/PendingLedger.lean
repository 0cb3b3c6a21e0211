import DidHosting.Auth.PendingList
import DidHosting.Support.Run

/-!
# The pending challenges counted

A ledger has every challenge that was issued and neither handed back nor released.  In
every run of the tracker what is live in the ledger is what its structures describe, so
that its counts, its refusals and its hints are those of the ledger.
-/

namespace DidHosting

namespace Auth

open Deadlines

/-! ## Runs -/

/-- A tracker, the clock, the reservations its callers hold, the ledger, and the sessions
that challenges were issued under. -/
structure Tracking where
  inner : Inner
  now : ℕ
  held : List ℕ
  ledger : List Challenge
  sessions : List String

/-- A call of the tracker, or the time.  A reservation is used up by the call that takes
it. -/
inductive TrackerEvent where
  | issue (did : String) (perDidCap : ℕ)
  | bind (reservation : ℕ) (sessionId : String)
  | cancel (reservation : ℕ)
  | release (sessionId : String)
  | tick (nanoseconds : ℕ)

namespace Tracking

def step (config : TrackerConfig) (v : Tracking) : TrackerEvent → Tracking
  | .issue did perDidCap =>
      match tryIssue config v.inner v.now did perDidCap with
      | (.error _, inner) => { v with inner := inner }
      | (.ok reservation, inner) =>
          { v with
            inner := inner
            held := reservation :: v.held
            ledger := ⟨reservation, did, v.now + config.challengeTtl, none⟩ :: v.ledger }
  | .bind reservation sessionId =>
      if reservation ∈ v.held then
        { v with
          inner := bindSession v.inner reservation sessionId
          held := v.held.filter (· != reservation)
          ledger := v.ledger.map (Challenge.bound reservation sessionId)
          sessions := sessionId :: v.sessions }
      else v
  | .cancel reservation =>
      if reservation ∈ v.held then
        { v with
          inner := Auth.cancel v.inner reservation
          held := v.held.filter (· != reservation)
          ledger := v.ledger.filter (·.id != reservation) }
      else v
  | .release sessionId =>
      { v with
        inner := (releaseSession v.inner v.now sessionId).2
        ledger := v.ledger.filter (·.session != some sessionId) }
  | .tick nanoseconds => { v with now := v.now + nanoseconds }

/-- The seed of one stored session; one that is redeemable counts as issued. -/
def seed (config : TrackerConfig) (nowEpoch : ℕ) (v : Tracking) (session : Session) : Tracking :=
  let inner := seedOne config nowEpoch v.now v.inner session
  match redeemableFor config nowEpoch session with
  | none => { v with inner := inner }
  | some remaining =>
      if session.sessionId ∈ v.sessions then { v with inner := inner }
      else
        { v with
          inner := inner
          ledger := ⟨v.inner.nextId, session.did, v.now + remaining, some session.sessionId⟩ ::
            v.ledger
          sessions := session.sessionId :: v.sessions }

/-- A tracker that comes up on the stored sessions. -/
def boot (config : TrackerConfig) (nowEpoch now : ℕ) (rows : List Session) : Tracking :=
  rows.foldl (seed config nowEpoch) ⟨Inner.empty, now, [], [], []⟩

def live (v : Tracking) : List Challenge :=
  v.ledger.filter (·.isLive v.now)

/-- The live challenges of a DID. -/
def liveFor (v : Tracking) (did : String) : List Challenge :=
  v.live.filter (·.did == did)

/-- There are no more live challenges than the caps allow. -/
structure WithinCaps (config : TrackerConfig) (perDidCap : ℕ) (v : Tracking) : Prop where
  global : v.live.length ≤ config.globalCap
  perDid : ∀ did, (v.liveFor did).length ≤ perDidCap

/-- The structures describe what is live in the ledger, in the order of expiry. -/
structure Accounted (v : Tracking) : Prop where
  described : ∃ l, Describes v.inner l ∧ SessionsOf v.inner l ∧
    (l.filter (·.isLive v.now)).Perm v.live ∧
    (∀ c ∈ l, ∀ sessionId, c.session = some sessionId → sessionId ∈ v.sessions) ∧
    ∀ reservation ∈ v.held, ∀ c ∈ l, c.id = reservation → c.session = none
  heldFresh : ∀ reservation ∈ v.held, reservation < v.inner.nextId

end Tracking

/-- Every issue is under the configured cap, and every session is new. -/
def Orderly (perDidCap : ℕ) (v : Tracking) : TrackerEvent → Prop
  | .issue _ cap => cap = perDidCap
  | .bind _ sessionId => sessionId ∉ v.sessions
  | _ => True

instance (perDidCap : ℕ) (v : Tracking) : ∀ e, Decidable (Orderly perDidCap v e)
  | .issue _ cap => inferInstanceAs (Decidable (cap = perDidCap))
  | .bind _ sessionId => inferInstanceAs (Decidable (sessionId ∉ v.sessions))
  | .cancel _ => inferInstanceAs (Decidable True)
  | .release _ => inferInstanceAs (Decidable True)
  | .tick _ => inferInstanceAs (Decidable True)

/-- The call does not issue a challenge. -/
def IssuesNothing (config : TrackerConfig) (v : Tracking) : TrackerEvent → Prop
  | .issue did perDidCap =>
      ∃ refusal, (tryIssue config v.inner v.now did perDidCap).1 = .error refusal
  | _ => True

/-! ## Accounts -/

section Accounts

variable {config : TrackerConfig} {perDidCap : ℕ} {v : Tracking} {l : List Challenge}

theorem filter_isLive_later {now later : ℕ} (hle : now ≤ later) (l : List Challenge) :
    (l.filter (·.isLive now)).filter (·.isLive later) = l.filter (·.isLive later) := by
  rw [List.filter_filter]
  refine List.filter_congr ?_
  intro c _
  unfold Challenge.isLive
  by_cases hlater : later < c.expiresAt
  · simp [hlater, lt_of_le_of_lt hle hlater]
  · simp [hlater]

theorem bound_isLive (reservation : ℕ) (sessionId : String) (now : ℕ) (c : Challenge) :
    (Challenge.bound reservation sessionId c).isLive now = c.isLive now := by
  unfold Challenge.isLive
  rw [Challenge.bound_expiresAt]

theorem Tracking.Accounted.pruned (h : v.Accounted) :
    ∃ l, Describes (v.inner.prune v.now) l ∧ SessionsOf (v.inner.prune v.now) l ∧
      l.Perm v.live ∧ l.filter (·.isLive v.now) = l ∧
      (∀ c ∈ l, ∀ sessionId, c.session = some sessionId → sessionId ∈ v.sessions) ∧
      (∀ reservation ∈ v.held, ∀ c ∈ l, c.id = reservation → c.session = none) ∧
      (v.inner.prune v.now).expiry.head? = (l.map Challenge.slot).head? := by
  obtain ⟨l, hd, hs, hperm, hsessions, hheld⟩ := h.described
  refine ⟨l.filter (·.isLive v.now), hd.prune v.now, hs.prune hd v.now, hperm, ?_, ?_, ?_, ?_⟩
  · exact filter_isLive_later (Nat.le_refl _) l
  · exact fun c hc => hsessions c (List.mem_of_mem_filter hc)
  · exact fun r hr c hc => hheld r hr c (List.mem_of_mem_filter hc)
  · exact hd.prune_head v.now

theorem Tracking.Accounted.counts (h : v.Accounted) :
    globalCount v.inner v.now = v.live.length ∧
      ∀ did, countFor v.inner v.now did = (v.liveFor did).length := by
  obtain ⟨l, hd, -, hperm, -⟩ := h.pruned
  constructor
  · unfold globalCount
    rw [hd.entries_length]
    exact hperm.length_eq
  · intro did
    unfold countFor Tracking.liveFor
    rw [hd.perDid_length]
    exact (hperm.filter _).length_eq

theorem any_queueOf (hcap : 1 ≤ perDidCap) (l : List Challenge) :
    (queueOf l).any (fun q => decide (perDidCap ≤ q.length)) = decide (perDidCap ≤ l.length) := by
  unfold queueOf
  cases l with
  | nil =>
      symm
      rw [List.isEmpty_nil, if_pos rfl, Option.any_none, decide_eq_false_iff_not]
      exact Nat.not_le.mpr hcap
  | cons c rest => simp

theorem Tracking.Accounted.tryIssue (config : TrackerConfig) (h : v.Accounted)
    (hcap : 1 ≤ perDidCap) (did : String) :
    (config.globalCap ≤ v.live.length ∧
      ∃ refusal, Auth.tryIssue config v.inner v.now did perDidCap =
        (.error refusal, v.inner.prune v.now) ∧ refusal.limiter = limiterGlobal ∧
        refusal.retryAfterSecs = retryAfter (v.inner.prune v.now).expiry v.now) ∨
    (v.live.length < config.globalCap ∧ perDidCap ≤ (v.liveFor did).length ∧
      ∃ refusal, Auth.tryIssue config v.inner v.now did perDidCap =
        (.error refusal, v.inner.prune v.now) ∧
        refusal.limiter = limiterPendingChallengesPerDid ∧
        refusal.retryAfterSecs =
          retryAfter (((v.inner.prune v.now).perDid.lookup did).getD []) v.now) ∨
    (v.live.length < config.globalCap ∧ (v.liveFor did).length < perDidCap ∧
      Auth.tryIssue config v.inner v.now did perDidCap =
        (.ok v.inner.nextId,
          ((v.inner.prune v.now).insert did (v.now + config.challengeTtl) none).2)) := by
  obtain ⟨l, hd, -, hperm, -⟩ := h.pruned
  have hglobal : (v.inner.prune v.now).entries.keys.length = v.live.length := by
    rw [hd.entries_length]
    exact hperm.length_eq
  have hlength : (l.filter (·.did == did)).length = (v.liveFor did).length :=
    (hperm.filter _).length_eq
  have hany : ((v.inner.prune v.now).perDid.lookup did).any (perDidCap ≤ ·.length) =
      decide (perDidCap ≤ (v.liveFor did).length) := by
    rw [hd.perDid, any_queueOf hcap, hlength]
  unfold Auth.tryIssue
  dsimp only
  rw [hglobal, hany]
  by_cases hfull : config.globalCap ≤ v.live.length
  · left
    rw [if_pos hfull]
    exact ⟨hfull, _, rfl, rfl, rfl⟩
  · right
    rw [if_neg hfull]
    by_cases hmany : perDidCap ≤ (v.liveFor did).length
    · left
      rw [if_pos (decide_eq_true hmany)]
      exact ⟨Nat.lt_of_not_le hfull, hmany, _, rfl, rfl, rfl⟩
    · right
      rw [if_neg (by simpa using hmany)]
      refine ⟨Nat.lt_of_not_le hfull, Nat.lt_of_not_le hmany, ?_⟩
      unfold Inner.insert
      rw [prune_nextId]

/-! ### Steps -/

theorem Tracking.step_issue_ok {did : String} {reservation : ℕ} {inner : Inner}
    (h : Auth.tryIssue config v.inner v.now did perDidCap = (.ok reservation, inner)) :
    v.step config (.issue did perDidCap) =
      { v with
        inner := inner
        held := reservation :: v.held
        ledger := ⟨reservation, did, v.now + config.challengeTtl, none⟩ :: v.ledger } := by
  dsimp only [Tracking.step]
  rw [h]

theorem Tracking.step_issue_error {did : String} {refusal : RateLimited} {inner : Inner}
    (h : Auth.tryIssue config v.inner v.now did perDidCap = (.error refusal, inner)) :
    v.step config (.issue did perDidCap) = { v with inner := inner } := by
  dsimp only [Tracking.step]
  rw [h]

theorem Tracking.Accounted.prune (h : v.Accounted) :
    Tracking.Accounted { v with inner := v.inner.prune v.now } := by
  obtain ⟨l, hd, hs, hperm, hlive, hsessions, hheld, -⟩ := h.pruned
  refine ⟨⟨l, hd, hs, ?_, hsessions, hheld⟩, ?_⟩
  · rw [hlive]
    exact hperm
  · intro reservation hreservation
    rw [prune_nextId]
    exact h.heldFresh reservation hreservation

theorem Tracking.Accounted.issue (h : v.Accounted) (hcap : 1 ≤ perDidCap) (did : String) :
    (v.step config (.issue did perDidCap)).Accounted := by
  obtain ⟨-, refusal, htry, -⟩ | ⟨-, -, refusal, htry, -⟩ | ⟨-, -, htry⟩ :=
    h.tryIssue config hcap did
  · rw [Tracking.step_issue_error htry]
    exact h.prune
  · rw [Tracking.step_issue_error htry]
    exact h.prune
  · rw [Tracking.step_issue_ok htry]
    obtain ⟨l, hd, hs, hperm, hlive, hsessions, hheld, -⟩ := h.pruned
    have hd' := hd.insert did (v.now + config.challengeTtl) none
    have hs' := hs.insert did (v.now + config.challengeTtl) none
      fun _ _ _ hnone => nomatch hnone
    rw [prune_nextId] at hd' hs'
    refine ⟨⟨_, hd', hs', ?_, ?_, ?_⟩, ?_⟩
    · refine (put_perm.filter _).trans ?_
      have hcons : (Challenge.mk v.inner.nextId did (v.now + config.challengeTtl) none :: l).Perm
          (Challenge.mk v.inner.nextId did (v.now + config.challengeTtl) none :: v.live) :=
        hperm.cons _
      refine (hcons.filter _).trans ?_
      unfold Tracking.live
      rw [List.filter_cons, List.filter_cons, filter_isLive_later (Nat.le_refl _)]
    · intro c hc sessionId hsession
      obtain rfl | hc := mem_put.mp hc
      · cases hsession
      · exact hsessions c hc sessionId hsession
    · intro reservation hreservation c hc hid
      obtain rfl | hc := mem_put.mp hc
      · rfl
      · obtain rfl | hreservation := List.mem_cons.mp hreservation
        · have hfresh := hd.fresh c hc
          rw [prune_nextId, hid] at hfresh
          exact absurd hfresh (Nat.lt_irrefl _)
        · exact hheld reservation hreservation c hc hid
    · intro reservation hreservation
      change reservation < (v.inner.prune v.now).nextId + 1
      rw [prune_nextId]
      obtain rfl | hreservation := List.mem_cons.mp hreservation
      · exact Nat.lt_succ_self _
      · exact Nat.lt_succ_of_lt (h.heldFresh reservation hreservation)

theorem bindSession_nextId (s : Inner) (reservation : ℕ) (sessionId : String) :
    (bindSession s reservation sessionId).nextId = s.nextId := by
  unfold bindSession
  cases s.entries.lookup reservation with
  | none => rfl
  | some entry => rfl

theorem Tracking.Accounted.bind (h : v.Accounted) {reservation : ℕ} {sessionId : String}
    (hnew : sessionId ∉ v.sessions) :
    (v.step config (.bind reservation sessionId)).Accounted := by
  dsimp only [Tracking.step]
  split_ifs with hmem
  · obtain ⟨l, hd, hs, hperm, hsessions, hheld⟩ := h.described
    have hfresh : ∀ c ∈ l, c.session ≠ some sessionId :=
      fun c hc hcontra => hnew (hsessions c hc sessionId hcontra)
    refine ⟨⟨_, hd.bind reservation sessionId, hs.bind hd (hheld reservation hmem) hfresh,
      ?_, ?_, ?_⟩, ?_⟩
    · unfold Tracking.live
      rw [filter_map_bound fun c => bound_isLive _ _ _ c,
        filter_map_bound fun c => bound_isLive _ _ _ c]
      exact hperm.map _
    · intro x hx sessionId' hsession
      obtain ⟨c, hc, rfl⟩ := List.mem_map.mp hx
      by_cases hid : c.id = reservation
      · rw [Challenge.bound_of_eq hid] at hsession
        cases hsession
        exact List.mem_cons_self
      · rw [Challenge.bound_of_ne hid] at hsession
        exact List.mem_cons_of_mem _ (hsessions c hc sessionId' hsession)
    · intro r hr x hx hid
      obtain ⟨c, hc, rfl⟩ := List.mem_map.mp hx
      obtain ⟨hr, hne⟩ := List.mem_filter.mp hr
      rw [Challenge.bound_id] at hid
      have hne' : c.id ≠ reservation := by
        rw [hid]
        simpa using hne
      rw [Challenge.bound_of_ne hne']
      exact hheld r hr c hc hid
    · intro r hr
      change r < (bindSession v.inner reservation sessionId).nextId
      rw [bindSession_nextId]
      exact h.heldFresh r (List.mem_of_mem_filter hr)
  · exact h

theorem Tracking.Accounted.cancel (h : v.Accounted) (reservation : ℕ) :
    (v.step config (.cancel reservation)).Accounted := by
  dsimp only [Tracking.step]
  split_ifs with hmem
  · obtain ⟨l, hd, hs, hperm, hsessions, hheld⟩ := h.described
    refine ⟨⟨_, hd.remove reservation, hs.remove hd reservation, ?_, ?_, ?_⟩, ?_⟩
    · change ((l.filter (·.id != reservation)).filter (·.isLive v.now)).Perm
        ((v.ledger.filter (·.id != reservation)).filter (·.isLive v.now))
      rw [List.filter_comm, List.filter_comm (l := v.ledger)]
      exact hperm.filter _
    · exact fun c hc => hsessions c (List.mem_of_mem_filter hc)
    · exact fun r hr c hc => hheld r (List.mem_of_mem_filter hr) c (List.mem_of_mem_filter hc)
    · intro r hr
      change r < (v.inner.remove reservation).2.nextId
      rw [remove_nextId]
      exact h.heldFresh r (List.mem_of_mem_filter hr)
  · exact h

theorem releaseSession_list {s : Inner} {now : ℕ} (sessionId : String)
    (hd : Describes (s.prune now) l) (hs : SessionsOf (s.prune now) l) :
    Describes (releaseSession s now sessionId).2 (l.filter (·.session != some sessionId)) ∧
      SessionsOf (releaseSession s now sessionId).2 (l.filter (·.session != some sessionId)) ∧
      (releaseSession s now sessionId).2.nextId = s.nextId := by
  unfold releaseSession
  dsimp only
  cases hlookup : (s.prune now).bySession.lookup sessionId with
  | none =>
      have hall : l.filter (·.session != some sessionId) = l := by
        rw [List.filter_eq_self]
        intro c hc
        have hne : c.session ≠ some sessionId := by
          intro hsession
          have hsome := (hs sessionId c.id).mpr ⟨c, hc, hsession, rfl⟩
          rw [hlookup] at hsome
          cases hsome
        simpa using hne
      rw [hall]
      exact ⟨hd, hs, prune_nextId s now⟩
  | some id =>
      have hsame : l.filter (·.session != some sessionId) = l.filter (·.id != id) := by
        refine List.filter_congr ?_
        intro c hc
        obtain ⟨c', hc', hsession', hid'⟩ := (hs sessionId id).mp hlookup
        by_cases hid : c.id = id
        · have hcc := hd.eq_of_id hc hc' (hid.trans hid'.symm)
          simp [hcc, hid', hsession']
        · have hne : c.session ≠ some sessionId := by
            intro hsession
            have hsome := (hs sessionId c.id).mpr ⟨c, hc, hsession, rfl⟩
            rw [hlookup] at hsome
            exact hid (Option.some.inj hsome).symm
          rw [bne_iff_ne.mpr hne, bne_iff_ne.mpr hid]
      rw [hsame]
      refine ⟨hd.remove id, hs.remove hd id, ?_⟩
      rw [remove_nextId, prune_nextId]

theorem Tracking.Accounted.release (h : v.Accounted) (sessionId : String) :
    (v.step config (.release sessionId)).Accounted := by
  obtain ⟨l, hd, hs, hperm, hlive, hsessions, hheld, -⟩ := h.pruned
  obtain ⟨hd', hs', hnext⟩ := releaseSession_list sessionId hd hs
  refine ⟨⟨_, hd', hs', ?_, ?_, ?_⟩, ?_⟩
  · change ((l.filter (·.session != some sessionId)).filter (·.isLive v.now)).Perm
      ((v.ledger.filter (·.session != some sessionId)).filter (·.isLive v.now))
    rw [List.filter_comm, List.filter_comm (l := v.ledger), hlive]
    exact hperm.filter _
  · exact fun c hc => hsessions c (List.mem_of_mem_filter hc)
  · exact fun r hr c hc => hheld r hr c (List.mem_of_mem_filter hc)
  · intro r hr
    change r < (releaseSession v.inner v.now sessionId).2.nextId
    rw [hnext]
    exact h.heldFresh r hr

theorem Tracking.Accounted.tick (h : v.Accounted) (nanoseconds : ℕ) :
    (v.step config (.tick nanoseconds)).Accounted := by
  obtain ⟨l, hd, hs, hperm, hsessions, hheld⟩ := h.described
  refine ⟨⟨l, hd, hs, ?_, hsessions, hheld⟩, h.heldFresh⟩
  have hle : v.now ≤ v.now + nanoseconds := Nat.le_add_right _ _
  change (l.filter (·.isLive (v.now + nanoseconds))).Perm
    (v.ledger.filter (·.isLive (v.now + nanoseconds)))
  rw [← filter_isLive_later hle, ← filter_isLive_later hle v.ledger]
  exact hperm.filter _

theorem Tracking.Accounted.step {e : TrackerEvent} (hcap : 1 ≤ perDidCap) (h : v.Accounted)
    (horderly : Orderly perDidCap v e) : (v.step config e).Accounted := by
  cases e with
  | issue did cap =>
      obtain rfl : cap = perDidCap := horderly
      exact h.issue hcap did
  | bind reservation sessionId => exact h.bind horderly
  | cancel reservation => exact h.cancel reservation
  | release sessionId => exact h.release sessionId
  | tick nanoseconds => exact h.tick nanoseconds

/-! ### Boot -/

/-- While the tracker comes up, the sessions it has seeded are those it knows. -/
structure Tracking.Seeded (v : Tracking) : Prop where
  accounted : v.Accounted
  held : v.held = []
  known : ∀ sessionId ∈ v.sessions, (v.inner.bySession.lookup sessionId).isSome = true

theorem Tracking.Seeded.seed (h : v.Seeded) (nowEpoch : ℕ) (session : Session) :
    (v.seed config nowEpoch session).Seeded := by
  unfold Tracking.seed seedOne
  cases hredeemable : redeemableFor config nowEpoch session with
  | none => exact h
  | some remaining =>
      obtain ⟨l, hd, hs, hperm, hsessions, -⟩ := h.accounted.described
      dsimp only
      by_cases hmem : session.sessionId ∈ v.sessions
      · rw [if_pos hmem, if_pos (h.known _ hmem)]
        exact h
      · have hnone : ¬(v.inner.bySession.lookup session.sessionId).isSome = true := by
          intro hsome
          obtain ⟨id, hid⟩ := Option.isSome_iff_exists.mp hsome
          obtain ⟨c, hc, hsession, -⟩ := (hs _ id).mp hid
          exact hmem (hsessions c hc _ hsession)
        rw [if_neg hmem, if_neg hnone]
        have hfresh : ∀ c ∈ l, ∀ sessionId, some session.sessionId = some sessionId →
            c.session ≠ some sessionId := by
          rintro c hc sessionId heq hsession
          cases heq
          exact hmem (hsessions c hc _ hsession)
        refine ⟨⟨⟨_, hd.insert session.did (v.now + remaining) (some session.sessionId),
          hs.insert session.did (v.now + remaining) (some session.sessionId) hfresh,
          ?_, ?_, ?_⟩, ?_⟩, h.held, ?_⟩
        · refine (put_perm.filter _).trans ?_
          change (List.filter (·.isLive v.now) (_ :: l)).Perm
            (List.filter (·.isLive v.now) (_ :: v.ledger))
          rw [List.filter_cons, List.filter_cons]
          split_ifs
          · exact hperm.cons _
          · exact hperm
        · intro c hc sessionId hsession
          obtain rfl | hc := mem_put.mp hc
          · cases hsession
            exact List.mem_cons_self
          · exact List.mem_cons_of_mem _ (hsessions c hc sessionId hsession)
        · intro reservation hreservation
          rw [h.held] at hreservation
          cases hreservation
        · intro reservation hreservation
          rw [h.held] at hreservation
          cases hreservation
        · intro sessionId hsessionId
          change ((v.inner.bySession.insert session.sessionId v.inner.nextId).lookup
            sessionId).isSome = true
          rw [Table.lookup_insert_ite]
          split_ifs with heq
          · rfl
          · refine h.known sessionId ?_
            exact (List.mem_cons.mp hsessionId).resolve_left heq

theorem Tracking.boot_seeded (config : TrackerConfig) (nowEpoch now : ℕ) (rows : List Session) :
    (Tracking.boot config nowEpoch now rows).Seeded := by
  unfold Tracking.boot
  have hstart : Tracking.Seeded ⟨Inner.empty, now, [], [], []⟩ := by
    refine ⟨⟨⟨[], empty_describes, ?_, List.Perm.refl _, ?_, ?_⟩, ?_⟩, rfl, ?_⟩
    · intro sessionId id
      constructor
      · exact fun hcontra => nomatch hcontra
      · rintro ⟨c, hc, -⟩
        cases hc
    · exact fun _ hc => nomatch hc
    · exact fun _ hr => nomatch hr
    · exact fun _ hr => nomatch hr
    · exact fun _ hsession => nomatch hsession
  generalize (⟨Inner.empty, now, [], [], []⟩ : Tracking) = v at hstart
  induction rows generalizing v with
  | nil => exact hstart
  | cons session rest ih => exact ih _ (hstart.seed nowEpoch session)

/-! ### Caps -/

/-- Whose a challenge is, and until when. -/
def Challenge.claim (c : Challenge) : String × ℕ :=
  (c.did, c.expiresAt)

/-- The claims of the ledger that are live and whose DIDs `q` selects. -/
def Tracking.claims (v : Tracking) (q : String → Bool) (now : ℕ) : List (String × ℕ) :=
  (v.ledger.map Challenge.claim).filter fun k => decide (now < k.2) && q k.1

theorem Tracking.claims_length (v : Tracking) (q : String → Bool) :
    (v.claims q v.now).length = (v.live.filter fun c => q c.did).length := by
  unfold Tracking.claims Tracking.live
  rw [List.filter_map, List.length_map, List.filter_filter]
  congr 1
  refine List.filter_congr ?_
  intro c _
  exact Bool.and_comm _ _

theorem Tracking.live_length (v : Tracking) :
    v.live.length = (v.claims (fun _ => true) v.now).length := by
  rw [v.claims_length, List.filter_true]

theorem Tracking.liveFor_length (v : Tracking) (did : String) :
    (v.liveFor did).length = (v.claims (· == did) v.now).length := by
  rw [v.claims_length]
  rfl

/-- An event that issues nothing leaves no new claim. -/
theorem Tracking.step_claims {e : TrackerEvent} (hnothing : IssuesNothing config v e) :
    ((v.step config e).ledger.map Challenge.claim).Sublist (v.ledger.map Challenge.claim) ∧
      v.now ≤ (v.step config e).now := by
  cases e with
  | issue did cap =>
      obtain ⟨refusal, hrefusal⟩ := hnothing
      have hstep := Tracking.step_issue_error (v := v) (Prod.ext hrefusal rfl)
      rw [hstep]
      exact ⟨List.Sublist.refl _, Nat.le_refl _⟩
  | bind reservation sessionId =>
      dsimp only [Tracking.step]
      split_ifs
      · have hclaims : (v.ledger.map (Challenge.bound reservation sessionId)).map
            Challenge.claim = v.ledger.map Challenge.claim := by
          rw [List.map_map]
          refine List.map_congr_left ?_
          intro c _
          unfold Challenge.claim
          rw [Function.comp_apply, Challenge.bound_did, Challenge.bound_expiresAt]
        rw [hclaims]
        exact ⟨List.Sublist.refl _, Nat.le_refl _⟩
      · exact ⟨List.Sublist.refl _, Nat.le_refl _⟩
  | cancel reservation =>
      dsimp only [Tracking.step]
      split_ifs
      · exact ⟨List.filter_sublist.map _, Nat.le_refl _⟩
      · exact ⟨List.Sublist.refl _, Nat.le_refl _⟩
  | release sessionId => exact ⟨List.filter_sublist.map _, Nat.le_refl _⟩
  | tick nanoseconds => exact ⟨List.Sublist.refl _, Nat.le_add_right _ _⟩

theorem claims_le {old new : List (String × ℕ)} (hsub : new.Sublist old) {now later : ℕ}
    (hle : now ≤ later) (q : String → Bool) :
    (new.filter fun k => decide (later < k.2) && q k.1).length ≤
      (old.filter fun k => decide (now < k.2) && q k.1).length := by
  refine le_trans (hsub.filter _).length_le ?_
  refine List.Sublist.length_le (List.monotone_filter_right old ?_)
  intro k hk
  simp only [Bool.and_eq_true, decide_eq_true_eq] at hk ⊢
  exact ⟨lt_of_le_of_lt hle hk.1, hk.2⟩

/-- A claim that has run out in between makes it fewer. -/
theorem claims_lt {old new : List (String × ℕ)} (hsub : new.Sublist old) {now later : ℕ}
    (hle : now ≤ later) {q : String → Bool} {k : String × ℕ} (hk : k ∈ old) (hq : q k.1 = true)
    (hnow : now < k.2) (hlater : k.2 ≤ later) :
    (new.filter fun k => decide (later < k.2) && q k.1).length <
      (old.filter fun k => decide (now < k.2) && q k.1).length := by
  refine lt_of_le_of_lt (hsub.filter _).length_le ?_
  have hsplit : (old.filter fun k => decide (later < k.2) && q k.1) =
      (old.filter fun k => decide (now < k.2) && q k.1).filter
        fun k => decide (later < k.2) := by
    rw [List.filter_filter]
    refine List.filter_congr ?_
    intro x _
    by_cases hx : later < x.2
    · simp [hx, lt_of_le_of_lt hle hx]
    · simp [hx]
  rw [hsplit]
  refine List.length_filter_lt_length_iff_exists.mpr ⟨k, ?_, ?_⟩
  · refine List.mem_filter.mpr ⟨hk, ?_⟩
    rw [decide_eq_true hnow, hq]
    rfl
  · simpa using hlater

theorem Tracking.WithinCaps.of_claims {w : Tracking} (h : v.WithinCaps config perDidCap)
    (hsub : (w.ledger.map Challenge.claim).Sublist (v.ledger.map Challenge.claim))
    (hle : v.now ≤ w.now) : w.WithinCaps config perDidCap := by
  have hfewer : ∀ q, (w.claims q w.now).length ≤ (v.claims q v.now).length :=
    claims_le hsub hle
  refine ⟨?_, ?_⟩
  · rw [w.live_length]
    refine le_trans (hfewer _) ?_
    rw [← v.live_length]
    exact h.global
  · intro did
    rw [w.liveFor_length]
    refine le_trans (hfewer _) ?_
    rw [← v.liveFor_length]
    exact h.perDid did

theorem Tracking.WithinCaps.step {e : TrackerEvent} (hcap : 1 ≤ perDidCap)
    (haccounted : v.Accounted) (h : v.WithinCaps config perDidCap)
    (horderly : Orderly perDidCap v e) : (v.step config e).WithinCaps config perDidCap := by
  by_cases hnothing : IssuesNothing config v e
  · obtain ⟨hsub, hle⟩ := Tracking.step_claims hnothing
    exact h.of_claims hsub hle
  · cases e with
    | issue did cap =>
        obtain rfl : cap = perDidCap := horderly
        obtain ⟨-, refusal, htry, -⟩ | ⟨-, -, refusal, htry, -⟩ | ⟨hglobal, hdid, htry⟩ :=
          haccounted.tryIssue config hcap did
        · exact absurd ⟨refusal, congrArg Prod.fst htry⟩ hnothing
        · exact absurd ⟨refusal, congrArg Prod.fst htry⟩ hnothing
        · rw [Tracking.step_issue_ok htry]
          have hlive : ∀ c : Challenge, ((c :: v.ledger).filter (·.isLive v.now)).length ≤
              v.live.length + 1 := by
            intro c
            rw [List.filter_cons]
            split_ifs
            · exact Nat.le_refl _
            · exact Nat.le_succ _
          refine ⟨le_trans (hlive _) hglobal, ?_⟩
          intro did'
          change (((_ :: v.ledger).filter (·.isLive v.now)).filter (·.did == did')).length ≤ _
          rw [List.filter_comm, List.filter_cons]
          by_cases heq : did = did'
          · subst heq
            rw [if_pos (beq_self_eq_true did), List.filter_cons]
            have hrest : ((v.ledger.filter (·.did == did)).filter (·.isLive v.now)).length =
                (v.liveFor did).length := by
              rw [List.filter_comm]
              rfl
            split_ifs
            · rw [List.length_cons, hrest]
              exact hdid
            · rw [hrest]
              exact Nat.le_of_lt hdid
          · rw [if_neg (by simpa using heq), List.filter_comm]
            exact h.perDid did'
    | bind reservation sessionId => exact absurd trivial hnothing
    | cancel reservation => exact absurd trivial hnothing
    | release sessionId => exact absurd trivial hnothing
    | tick nanoseconds => exact absurd trivial hnothing

/-! ### Hints -/

theorem le_secsUntil (expiresAt now : ℕ) : expiresAt ≤ now + secsUntil expiresAt now * second := by
  have hceil : expiresAt - now ≤ ((expiresAt - now) / second +
      if 0 < (expiresAt - now) % second then 1 else 0) * second := by
    have hdiv := Nat.div_add_mod (expiresAt - now) second
    have hmod : (expiresAt - now) % second < second := Nat.mod_lt _ (by decide)
    split_ifs with hpos
    · rw [Nat.add_mul, Nat.one_mul, Nat.mul_comm]
      omega
    · rw [Nat.add_zero, Nat.mul_comm]
      omega
  have hmax : ((expiresAt - now) / second +
      if 0 < (expiresAt - now) % second then 1 else 0) * second ≤
      secsUntil expiresAt now * second :=
    Nat.mul_le_mul_right second (Nat.le_max_left _ _)
  omega

/-- Where a queue of live challenges is not empty, one of them has run out when the hint
says. -/
theorem exists_due {l : List Challenge} (now : ℕ) (hne : l ≠ []) {q : List Slot}
    (hhead : q.head? = (l.map Challenge.slot).head?) :
    ∃ c ∈ l, c.expiresAt ≤ now + retryAfter q now * second := by
  cases l with
  | nil => exact absurd rfl hne
  | cons c rest =>
      refine ⟨c, List.mem_cons_self, ?_⟩
      unfold retryAfter
      rw [hhead]
      exact le_secsUntil c.expiresAt now

/-- A run without an issue leaves no new claim. -/
theorem Tracking.run_claims {more : List TrackerEvent}
    (hnothing : Run.Meets (Tracking.step config) (IssuesNothing config) v more) :
    ((Run.exec (Tracking.step config) v more).ledger.map Challenge.claim).Sublist
        (v.ledger.map Challenge.claim) ∧
      v.now ≤ (Run.exec (Tracking.step config) v more).now := by
  have hstep : ∀ (w : Tracking) (e : TrackerEvent), IssuesNothing config w e →
      ((w.ledger.map Challenge.claim).Sublist (v.ledger.map Challenge.claim) ∧
        v.now ≤ w.now) →
      (((w.step config e).ledger.map Challenge.claim).Sublist (v.ledger.map Challenge.claim) ∧
        v.now ≤ (w.step config e).now) := by
    intro w e he h
    obtain ⟨hsub, hle⟩ := Tracking.step_claims he
    exact ⟨hsub.trans h.1, le_trans h.2 hle⟩
  exact Run.exec_invariant hstep ⟨List.Sublist.refl _, Nat.le_refl _⟩ hnothing

/-- Where a live challenge has run out in between, there are fewer. -/
theorem Tracking.claims_lt {w : Tracking} {c : Challenge} (hc : c ∈ v.live) {q : String → Bool}
    (hq : q c.did = true)
    (hsub : (w.ledger.map Challenge.claim).Sublist (v.ledger.map Challenge.claim))
    (hle : v.now ≤ w.now) (hdue : c.expiresAt ≤ w.now) :
    (w.claims q w.now).length < (v.claims q v.now).length := by
  obtain ⟨hmem, hlive⟩ := List.mem_filter.mp hc
  have hlive' : v.now < c.expiresAt := of_decide_eq_true hlive
  exact Auth.claims_lt hsub hle (List.mem_map_of_mem hmem) hq hlive' hdue

theorem limiters_ne : limiterGlobal ≠ limiterPendingChallengesPerDid := by
  decide

/-- After the time a refusal names, the same call is not refused by the same cap. -/
theorem Tracking.retry {did : String} {refusal again : RateLimited} {w : Tracking}
    (hglobal : 1 ≤ config.globalCap) (hcap : 1 ≤ perDidCap) (h : v.Accounted)
    (hcaps : v.WithinCaps config perDidCap)
    (hrefused : (Auth.tryIssue config v.inner v.now did perDidCap).1 = .error refusal)
    (hw : w.Accounted)
    (hsub : (w.ledger.map Challenge.claim).Sublist (v.ledger.map Challenge.claim))
    (hle : v.now ≤ w.now) (hlate : v.now + refusal.retryAfterSecs * second ≤ w.now)
    (hagain : (Auth.tryIssue config w.inner w.now did perDidCap).1 = .error again) :
    again.limiter ≠ refusal.limiter := by
  obtain ⟨l, hd, -, hperm, -, -, -, hhead⟩ := h.pruned
  obtain ⟨hfull, refusal', htry, hlimiter, hhint⟩ |
      ⟨-, hmany, refusal', htry, hlimiter, hhint⟩ | ⟨-, -, htry⟩ :=
    h.tryIssue config hcap did
  · -- the global cap
    rw [htry] at hrefused
    cases hrefused
    have hne : l ≠ [] := by
      rintro rfl
      have hnone := hperm.length_eq
      rw [List.length_nil] at hnone
      omega
    obtain ⟨c, hc, hdue⟩ := exists_due v.now hne hhead
    rw [← hhint] at hdue
    have hfewer := Tracking.claims_lt (q := fun _ => true) (hperm.mem_iff.mp hc) rfl hsub hle
      (le_trans hdue hlate)
    rw [← v.live_length, ← w.live_length] at hfewer
    have hbelow := hcaps.global
    rw [hlimiter]
    obtain ⟨hfull', -⟩ | ⟨-, -, again', htry', hlimiter', -⟩ | ⟨-, -, htry'⟩ :=
      hw.tryIssue config hcap did
    · omega
    · rw [htry'] at hagain
      cases hagain
      rw [hlimiter']
      exact limiters_ne.symm
    · rw [htry'] at hagain
      cases hagain
  · -- the cap of the DID
    rw [htry] at hrefused
    cases hrefused
    have hlength : (l.filter (·.did == did)).length = (v.liveFor did).length :=
      (hperm.filter _).length_eq
    have hne : l.filter (·.did == did) ≠ [] := by
      intro hnil
      rw [hnil, List.length_nil] at hlength
      omega
    have hqueue : (((v.inner.prune v.now).perDid.lookup did).getD []).head? =
        ((l.filter (·.did == did)).map Challenge.slot).head? := by
      rw [hd.perDid, queueOf_getD]
    obtain ⟨c, hc, hdue⟩ := exists_due v.now hne hqueue
    rw [← hhint] at hdue
    obtain ⟨hcmem, hcdid⟩ := List.mem_filter.mp hc
    have hfewer := Tracking.claims_lt (q := (· == did)) (hperm.mem_iff.mp hcmem) hcdid hsub hle
      (le_trans hdue hlate)
    rw [← v.liveFor_length, ← w.liveFor_length] at hfewer
    have hbelow := hcaps.perDid did
    rw [hlimiter]
    obtain ⟨-, again', htry', hlimiter', -⟩ | ⟨-, hmany', -⟩ | ⟨-, -, htry'⟩ :=
      hw.tryIssue config hcap did
    · rw [htry'] at hagain
      cases hagain
      rw [hlimiter']
      exact limiters_ne
    · omega
    · rw [htry'] at hagain
      cases hagain
  · rw [htry] at hrefused
    cases hrefused

theorem Tracking.run_accounted {events : List TrackerEvent} (hcap : 1 ≤ perDidCap)
    (h : v.Accounted ∧ v.WithinCaps config perDidCap)
    (hmeets : Run.Meets (Tracking.step config) (Orderly perDidCap) v events) :
    (Run.exec (Tracking.step config) v events).Accounted ∧
      (Run.exec (Tracking.step config) v events).WithinCaps config perDidCap := by
  have hstep : ∀ (w : Tracking) (e : TrackerEvent), Orderly perDidCap w e →
      (w.Accounted ∧ w.WithinCaps config perDidCap) →
      ((w.step config e).Accounted ∧ (w.step config e).WithinCaps config perDidCap) :=
    fun _ _ horderly hw => ⟨hw.1.step hcap horderly, hw.2.step hcap hw.1 horderly⟩
  exact Run.exec_invariant hstep h hmeets

/-- The tracker counts what is live, refuses where that reaches a cap and only there, its
structures describe the same challenges, and its hints are not too early. -/
theorem pending_challenges_accounted (config : TrackerConfig) (perDidCap nowEpoch now : ℕ)
    (rows : List Session) (events : List TrackerEvent) (hglobal : 1 ≤ config.globalCap)
    (hcap : 1 ≤ perDidCap)
    (hseed : (Tracking.boot config nowEpoch now rows).WithinCaps config perDidCap)
    (hmeets : Run.Meets (Tracking.step config) (Orderly perDidCap)
      (Tracking.boot config nowEpoch now rows) events) :
    let v := Run.exec (Tracking.step config) (Tracking.boot config nowEpoch now rows) events
    (globalCount v.inner v.now = v.live.length ∧
      ∀ did, countFor v.inner v.now did = (v.liveFor did).length) ∧
    (∀ did, (∃ refusal, (tryIssue config v.inner v.now did perDidCap).1 = .error refusal) ↔
      config.globalCap ≤ v.live.length ∨ perDidCap ≤ (v.liveFor did).length) ∧
    (∃ l, Describes v.inner l ∧ SessionsOf v.inner l ∧
      (l.filter (·.isLive v.now)).Perm v.live) ∧
    ∀ did refusal, (tryIssue config v.inner v.now did perDidCap).1 = .error refusal →
      ∀ more, Run.Meets (Tracking.step config) (Orderly perDidCap) v more →
        Run.Meets (Tracking.step config) (IssuesNothing config) v more →
        let w := Run.exec (Tracking.step config) v more
        v.now + refusal.retryAfterSecs * second ≤ w.now →
        ∀ again, (tryIssue config w.inner w.now did perDidCap).1 = .error again →
          again.limiter ≠ refusal.limiter := by
  have hstart := (Tracking.boot_seeded config nowEpoch now rows).accounted
  obtain ⟨hv, hcaps⟩ := Tracking.run_accounted hcap ⟨hstart, hseed⟩ hmeets
  intro v
  refine ⟨hv.counts, ?_, ?_, ?_⟩
  · intro did
    obtain ⟨hfull, refusal, htry, -⟩ | ⟨-, hmany, refusal, htry, -⟩ | ⟨hfull, hmany, htry⟩ :=
      hv.tryIssue config hcap did
    · exact ⟨fun _ => Or.inl hfull, fun _ => ⟨refusal, congrArg Prod.fst htry⟩⟩
    · exact ⟨fun _ => Or.inr hmany, fun _ => ⟨refusal, congrArg Prod.fst htry⟩⟩
    · constructor
      · rintro ⟨refusal, hrefusal⟩
        rw [htry] at hrefusal
        cases hrefusal
      · rintro (hfull' | hmany')
        · exact absurd hfull' (Nat.not_le.mpr hfull)
        · exact absurd hmany' (Nat.not_le.mpr hmany)
  · obtain ⟨l, hd, hs, hperm, -⟩ := hv.described
    exact ⟨l, hd, hs, hperm⟩
  · intro did refusal hrefused more horderly hnothing w hlate again hagain
    obtain ⟨hw, -⟩ := Tracking.run_accounted hcap ⟨hv, hcaps⟩ horderly
    obtain ⟨hsub, hle⟩ := Tracking.run_claims hnothing
    exact Tracking.retry hglobal hcap hv hcaps hrefused hw hsub hle hlate hagain

end Accounts

/-! ## A sample run -/

namespace Sample

/-- Challenges of half a minute, two at a time. -/
def tracker : TrackerConfig :=
  ⟨30 * second, 2⟩

/-- A stored session whose challenge has not been answered. -/
def unanswered (sessionId did : String) (createdAt : ℕ) : Session where
  sessionId := sessionId
  did := did
  challenge := "c"
  state := .challengeSent
  createdAt := createdAt
  lastSeen := createdAt
  refreshToken := none
  refreshExpiresAt := none
  teeAttested := false
  tokenId := none
  sessionPubkeyB58btc := none
  amr := []
  acr := ""
  acrExpiresAt := none
  notAfter := none

/-- One challenge is seeded, one is issued and answered, and one is issued. -/
def answering : List TrackerEvent :=
  [.issue "did:b" 1, .bind 1 "s1", .release "s1", .tick (5 * second), .issue "did:b" 1]

end Sample

theorem pending_challenges_accounted_seeded :
    let v := Run.exec (Tracking.step Sample.tracker)
      (Tracking.boot Sample.tracker 110 0 [Sample.unanswered "s0" "did:a" 100]) Sample.answering
    (globalCount v.inner v.now = v.live.length ∧
      ∀ did, countFor v.inner v.now did = (v.liveFor did).length) ∧
    (∀ did, (∃ refusal, (tryIssue Sample.tracker v.inner v.now did 1).1 = .error refusal) ↔
      Sample.tracker.globalCap ≤ v.live.length ∨ 1 ≤ (v.liveFor did).length) ∧
    (∃ l, Describes v.inner l ∧ SessionsOf v.inner l ∧
      (l.filter (·.isLive v.now)).Perm v.live) ∧
    ∀ did refusal, (tryIssue Sample.tracker v.inner v.now did 1).1 = .error refusal →
      ∀ more, Run.Meets (Tracking.step Sample.tracker) (Orderly 1) v more →
        Run.Meets (Tracking.step Sample.tracker) (IssuesNothing Sample.tracker) v more →
        let w := Run.exec (Tracking.step Sample.tracker) v more
        v.now + refusal.retryAfterSecs * second ≤ w.now →
        ∀ again, (tryIssue Sample.tracker w.inner w.now did 1).1 = .error again →
          again.limiter ≠ refusal.limiter := by
  refine pending_challenges_accounted Sample.tracker 1 110 0 _ Sample.answering (by decide)
    (by decide) ⟨by decide +kernel, ?_⟩ (by decide +kernel)
  intro did
  exact le_trans (List.length_filter_le _ _) (by decide +kernel)

end Auth

end DidHosting
