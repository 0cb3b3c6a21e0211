import Mathlib.Logic.Relation
import DidHosting.Oob.Service

/-!
# The history of sign-in requests

The log of the store is the history of its requests.  This module says what each change in
it means, how the records of one request follow one another, and which invariant the store
keeps.  `oobProtocol` is what the handlers of the service agree on.
-/

namespace DidHosting

namespace Oob

/-! ## The states of a request -/

/-- A request moves from one state to another. -/
inductive OobState.Edge : OobState → OobState → Prop
  | claim : Edge pending claimed
  | identify : Edge claimed identified
  | approve : Edge identified approved
  | consume : Edge approved consumed
  | close {s t : OobState} (hopen : s.isFinal = false)
      (hclosed : t = declined ∨ t = cancelled ∨ t = expired) : Edge s t

/-- A request gets from one state to another, in any number of moves. -/
abbrev OobState.Reaches : OobState → OobState → Prop :=
  Relation.ReflTransGen OobState.Edge

/-! ## What a change means -/

/-- The `identify` document passed the checks of `prove` for the request `r`. -/
structure IdentifyChecked (L : OobLibs) (r : OobRecord) (identify : OobDocument) (did : String) :
    Prop where
  issuer : identify.issuer = some did
  proven : verifyOperational L.toTaskLibs ⟨L.keys, none⟩ identify.toTrustTask = .ok ()
  approverKey : (identify.payload.get "approverKey").bind Json.asStr = r.approverKey
  payload : ∃ q, L.readIdentify identify.payload = some q ∧ q.requestId = r.requestId ∧
    r.matchNumber = some q.enteredNumber

/-- The grant passed the checks of `respond` for the request `r`. -/
structure GrantChecked (L : OobLibs) (r : OobRecord) (grant : OobDocument) (p : GrantPayload) :
    Prop where
  issuer : grant.issuer = some (r.identifiedDid.getD "")
  proven : verifyApproval L.toTaskLibs ⟨L.keys, none⟩ grant.toTrustTask = .ok ()
  payload : L.readGrant grant.payload = some p
  requestId : p.requestId = r.requestId
  approverKey : r.approverKey = some p.approverKey
  sessionKey : p.sessionKey = r.startKey
  origin : p.origin = r.origin
  digest : contextDigestsEqual L p.contextDigest (r.step2Digest.getD "") = true

/-- What a change of `b` to `a` means. -/
def Move.Holds (L : OobLibs) (cfg : OobConfig) (b a : OobRecord) : Move → Prop
  | .claimed => b.state = .pending ∧ ∃ key number now, a = claimedRecord cfg b key number now
  | .delivered => b.state = .claimed ∧
      ∃ now, a = { b.next .claimed now with matchNumberDelivered := true }
  | .identified identify step2 => b.state = .claimed ∧ ∃ did now,
      IdentifyChecked L b identify did ∧ a = identifiedRecord L b did step2 now
  | .decided grant checkedAt => b.state = .identified ∧ b.lapsed checkedAt = false ∧
      ∃ p raw now, GrantChecked L b grant p ∧ a = decidedRecord b raw p now
  | .declined => (b.state = .claimed ∨ b.state = .identified) ∧ ∃ now, a = b.next .declined now
  | .cancelled => b.state.isFinal = false ∧ ∃ now, a = b.next .cancelled now
  | .expired => ∃ now, b.lapsed now = true ∧ a = b.next .expired now
  | .consumed _ checkedAt => b.state = .approved ∧ b.lapsed checkedAt = false ∧
      ∃ now, a = b.next .consumed now

/-- The parts of a request that no change touches. -/
structure SameRequest (b a : OobRecord) : Prop where
  requestId : a.requestId = b.requestId
  startKey : a.startKey = b.startKey
  origin : a.origin = b.origin

theorem SameRequest.trans {a b c : OobRecord} (hab : SameRequest a b) (hbc : SameRequest b c) :
    SameRequest a c :=
  ⟨hbc.requestId.trans hab.requestId, hbc.startKey.trans hab.startKey,
    hbc.origin.trans hab.origin⟩

/-- `a` is a later record of the request `b` is a record of. -/
structure Later (b a : OobRecord) : Prop extends SameRequest b a where
  version : b.version < a.version
  isOpen : b.state.isFinal = false
  reaches : b.state.Reaches a.state

theorem Later.trans {a b c : OobRecord} (hab : Later a b) (hbc : Later b c) : Later a c where
  toSameRequest := hab.toSameRequest.trans hbc.toSameRequest
  version := hab.version.trans hbc.version
  isOpen := hab.isOpen
  reaches := hab.reaches.trans hbc.reaches

theorem OobRecord.isOpen_of_lapsed {r : OobRecord} {now : ℕ} (h : r.lapsed now = true) :
    r.state.isFinal = false := by
  unfold OobRecord.lapsed at h
  cases hs : r.state with
  | pending => rfl
  | claimed => rfl
  | identified => rfl
  | approved => rfl
  | consumed => simp [hs, OobState.inDecisionWindow] at h
  | declined => simp [hs, OobState.inDecisionWindow] at h
  | cancelled => simp [hs, OobState.inDecisionWindow] at h
  | expired => simp [hs, OobState.inDecisionWindow] at h

theorem Move.Holds.isOpen {L : OobLibs} {cfg : OobConfig} {b a : OobRecord} {why : Move}
    (h : why.Holds L cfg b a) : b.state.isFinal = false := by
  cases why with
  | expired =>
      obtain ⟨now, hlapsed, -⟩ := h
      exact OobRecord.isOpen_of_lapsed hlapsed
  | cancelled => exact h.1
  | declined => rcases h.1 with hstate | hstate <;> rw [hstate] <;> rfl
  | _ =>
      rw [h.1]
      rfl

/-- The step lemma for the states: a change stays, or moves along an edge. -/
theorem Move.Holds.edge {L : OobLibs} {cfg : OobConfig} {b a : OobRecord} {why : Move}
    (h : why.Holds L cfg b a) : a.state = b.state ∨ b.state.Edge a.state := by
  cases why with
  | claimed =>
      obtain ⟨hstate, key, number, now, rfl⟩ := h
      rw [hstate]
      exact Or.inr .claim
  | delivered =>
      obtain ⟨hstate, now, rfl⟩ := h
      rw [hstate]
      exact Or.inl rfl
  | identified identify step2 =>
      obtain ⟨hstate, did, now, -, rfl⟩ := h
      rw [hstate]
      exact Or.inr .identify
  | decided grant checkedAt =>
      obtain ⟨hstate, -, p, raw, now, -, rfl⟩ := h
      rw [hstate]
      change _ ∨ OobState.Edge .identified (if p.approve then .approved else .declined)
      by_cases happrove : p.approve = true
      · rw [if_pos happrove]
        exact Or.inr .approve
      · rw [if_neg happrove]
        exact Or.inr (.close rfl (Or.inl rfl))
  | declined =>
      have hopen := h.isOpen
      obtain ⟨-, now, rfl⟩ := h
      exact Or.inr (.close hopen (Or.inl rfl))
  | cancelled =>
      obtain ⟨hopen, now, rfl⟩ := h
      exact Or.inr (.close hopen (Or.inr (Or.inl rfl)))
  | expired =>
      have hopen := h.isOpen
      obtain ⟨now, -, rfl⟩ := h
      exact Or.inr (.close hopen (Or.inr (Or.inr rfl)))
  | consumed me checkedAt =>
      obtain ⟨hstate, -, now, rfl⟩ := h
      rw [hstate]
      exact Or.inr .consume

/-- A change leaves a later record of the request. -/
theorem Move.Holds.later {L : OobLibs} {cfg : OobConfig} {b a : OobRecord} {why : Move}
    (h : why.Holds L cfg b a) : Later b a := by
  have hopen := h.isOpen
  have hreaches : b.state.Reaches a.state := by
    rcases h.edge with hstay | hedge
    · rw [hstay]
    · exact .single hedge
  have hsame : SameRequest b a ∧ b.version < a.version := by
    cases why with
    | claimed =>
        obtain ⟨-, key, number, now, rfl⟩ := h
        exact ⟨⟨rfl, rfl, rfl⟩, Nat.lt_succ_self _⟩
    | delivered =>
        obtain ⟨-, now, rfl⟩ := h
        exact ⟨⟨rfl, rfl, rfl⟩, Nat.lt_succ_self _⟩
    | identified identify step2 =>
        obtain ⟨-, did, now, -, rfl⟩ := h
        exact ⟨⟨rfl, rfl, rfl⟩, Nat.lt_succ_self _⟩
    | decided grant checkedAt =>
        obtain ⟨-, -, p, raw, now, -, rfl⟩ := h
        exact ⟨⟨rfl, rfl, rfl⟩, Nat.lt_succ_self _⟩
    | declined =>
        obtain ⟨-, now, rfl⟩ := h
        exact ⟨⟨rfl, rfl, rfl⟩, Nat.lt_succ_self _⟩
    | cancelled =>
        obtain ⟨-, now, rfl⟩ := h
        exact ⟨⟨rfl, rfl, rfl⟩, Nat.lt_succ_self _⟩
    | expired =>
        obtain ⟨now, -, rfl⟩ := h
        exact ⟨⟨rfl, rfl, rfl⟩, Nat.lt_succ_self _⟩
    | consumed me checkedAt =>
        obtain ⟨-, -, now, rfl⟩ := h
        exact ⟨⟨rfl, rfl, rfl⟩, Nat.lt_succ_self _⟩
  exact ⟨hsame.1, hsame.2, hopen, hreaches⟩

/-- The states a change can lead to. -/
def Move.leadsTo : Move → OobState → Bool
  | .claimed, .claimed => true
  | .delivered, .claimed => true
  | .identified _ _, .identified => true
  | .decided _ _, .approved => true
  | .decided _ _, .declined => true
  | .declined, .declined => true
  | .cancelled, .cancelled => true
  | .expired, .expired => true
  | .consumed _ _, .consumed => true
  | _, _ => false

theorem Move.Holds.leads {L : OobLibs} {cfg : OobConfig} {b a : OobRecord} {why : Move}
    (h : why.Holds L cfg b a) : why.leadsTo a.state = true := by
  cases why with
  | claimed =>
      obtain ⟨-, key, number, now, rfl⟩ := h
      rfl
  | delivered =>
      obtain ⟨-, now, rfl⟩ := h
      rfl
  | identified identify step2 =>
      obtain ⟨-, did, now, -, rfl⟩ := h
      rfl
  | decided grant checkedAt =>
      obtain ⟨-, -, p, raw, now, -, rfl⟩ := h
      change (Move.decided grant checkedAt).leadsTo
        (if p.approve then .approved else .declined) = true
      cases p.approve <;> rfl
  | declined =>
      obtain ⟨-, now, rfl⟩ := h
      rfl
  | cancelled =>
      obtain ⟨-, now, rfl⟩ := h
      rfl
  | expired =>
      obtain ⟨now, -, rfl⟩ := h
      rfl
  | consumed me checkedAt =>
      obtain ⟨-, -, now, rfl⟩ := h
      rfl

/-! ## The invariant -/

/-- `r` is a record of the history. -/
def OobStore.Written (s : OobStore) (r : OobRecord) : Prop :=
  ∃ f ∈ s.log, f.written = r

/-- `r` is the last record of its request. -/
def OobStore.Last (s : OobStore) (r : OobRecord) : Prop :=
  ∀ f ∈ s.log, f.written.requestId = r.requestId → f.written = r ∨ Later f.written r

/-- The invariant of the store. -/
structure Recorded (L : OobLibs) (cfg : OobConfig) (s : OobStore) : Prop where
  /-- A stored record is in the history, and the last of its request. -/
  stored : ∀ id r, s.records.lookup id = some r → r.requestId = id ∧ s.Written r ∧ s.Last r
  /-- The records of a request follow one another. -/
  trail : s.log.Pairwise fun f g => f.written.requestId = g.written.requestId →
    Later f.written g.written
  opened : ∀ r, .opened r ∈ s.log → r.state = .pending
  moved : ∀ b a why, .moved b a why ∈ s.log → why.Holds L cfg b a ∧ s.Written b

/-- No open record is stored under `id`: it is final, or is not kept any longer. -/
def OobStore.ended (s : OobStore) (id : String) : Bool :=
  (s.records.lookup id).all fun r => r.state.isFinal

theorem OobStore.ended_iff {s : OobStore} {id : String} :
    s.ended id = true ↔ ∀ r, s.records.lookup id = some r → r.state.isFinal = true := by
  unfold OobStore.ended
  cases s.records.lookup id with
  | none => simp
  | some r => simp

/-- A request has come to its end. -/
def OobStore.Closed (s : OobStore) (id : String) : Prop :=
  (∃ f ∈ s.log, f.written.requestId = id) ∧
    ∀ r, s.records.lookup id = some r → r.state.isFinal = true

/-- How the store grows. -/
structure Extends (s t : OobStore) : Prop where
  log : ∃ more, t.log = s.log ++ more
  closed : ∀ id, s.Closed id → t.Closed id
  still : ∀ id, s.Closed id → ∀ f ∈ t.log, f.written.requestId = id → f ∈ s.log

theorem Extends.refl (s : OobStore) : Extends s s :=
  ⟨⟨[], (List.append_nil _).symm⟩, fun _ h => h, fun _ _ _ h _ => h⟩

theorem Extends.trans {s t u : OobStore} (hst : Extends s t) (htu : Extends t u) :
    Extends s u := by
  obtain ⟨more, hmore⟩ := hst.log
  obtain ⟨more', hmore'⟩ := htu.log
  refine ⟨⟨more ++ more', ?_⟩, ?_, ?_⟩
  · rw [hmore', hmore, List.append_assoc]
  · intro id hclosed
    exact htu.closed id (hst.closed id hclosed)
  · intro id hclosed f hf hid
    exact hst.still id hclosed f (htu.still id (hst.closed id hclosed) f hf hid) hid

theorem Extends.mem {s t : OobStore} (h : Extends s t) {f : Fact} (hf : f ∈ s.log) :
    f ∈ t.log := by
  obtain ⟨more, hmore⟩ := h.log
  rw [hmore]
  exact List.mem_append_left _ hf

theorem OobStore.Written.extends {s t : OobStore} {r : OobRecord} (h : s.Written r)
    (hst : Extends s t) : t.Written r := by
  obtain ⟨f, hf, hwritten⟩ := h
  exact ⟨f, hst.mem hf, hwritten⟩

/-- What the handlers agree on.  A request is opened under an id that no request had
before; where the protocol is `guarded`, a request is declined only while its record is the
one that was read, or once it has come to its end. -/
def oobProtocol (L : OobLibs) (cfg : OobConfig) (guarded : Prop) :
    Protocol OobStore OobAccess where
  Inv := Recorded L cfg
  Grows := Extends
  Meets
    | .create record _, s => ∀ f ∈ s.log, f.written.requestId ≠ record.requestId
    | .compareAndSet expected next .declined, s => guarded →
        s.matchesVersion next.requestId expected = true ∨ s.ended next.requestId = true
    | _, _ => True
  grows_refl := Extends.refl
  grows_trans _ _ _ := Extends.trans

/-! ## The accesses -/

section

variable {L : OobLibs} {cfg : OobConfig} {s : OobStore}

theorem recorded_new : Recorded L cfg OobStore.new where
  stored := fun _ _ h => nomatch h
  trail := List.Pairwise.nil
  opened := fun _ h => nomatch h
  moved := fun _ _ _ h => nomatch h

/-- Two entries about one request are one, or one of them came later. -/
theorem Recorded.comparable (h : Recorded L cfg s) {f g : Fact} (hf : f ∈ s.log)
    (hg : g ∈ s.log) (hid : f.written.requestId = g.written.requestId) :
    f = g ∨ Later f.written g.written ∨ Later g.written f.written := by
  have hsymm : Std.Symm fun f g : Fact => f.written.requestId = g.written.requestId →
      Later f.written g.written ∨ Later g.written f.written :=
    ⟨fun f g hfg hgf => (hfg hgf.symm).symm⟩
  have hpairs : s.log.Pairwise fun f g : Fact => f.written.requestId = g.written.requestId →
      Later f.written g.written ∨ Later g.written f.written := by
    refine h.trail.imp ?_
    intro f g hlater hid
    exact Or.inl (hlater hid)
  by_cases heq : f = g
  · exact Or.inl heq
  · exact Or.inr (hpairs.forall hf hg heq hid)

theorem Recorded.sameRequest (h : Recorded L cfg s) {r r' : OobRecord} (hr : s.Written r)
    (hr' : s.Written r') (hid : r.requestId = r'.requestId) : SameRequest r r' := by
  obtain ⟨f, hf, rfl⟩ := hr
  obtain ⟨g, hg, rfl⟩ := hr'
  rcases h.comparable hf hg hid with rfl | hlater | hlater
  · exact ⟨rfl, rfl, rfl⟩
  · exact hlater.toSameRequest
  · exact ⟨hlater.requestId.symm, hlater.startKey.symm, hlater.origin.symm⟩

/-- A request comes to its end once. -/
theorem Recorded.final_unique (h : Recorded L cfg s) {f g : Fact} (hf : f ∈ s.log)
    (hg : g ∈ s.log) (hid : f.written.requestId = g.written.requestId)
    (hffinal : f.written.state.isFinal = true) (hgfinal : g.written.state.isFinal = true) :
    f = g := by
  rcases h.comparable hf hg hid with heq | hlater | hlater
  · exact heq
  · rw [hlater.isOpen] at hffinal
    cases hffinal
  · rw [hlater.isOpen] at hgfinal
    cases hgfinal

/-- Of two records that were stored one after the other, the second is the first or came
later. -/
theorem Recorded.stored_later (hs : Recorded L cfg s) {t : OobStore} (ht : Recorded L cfg t)
    (hst : ∃ more, t.log = s.log ++ more) {id : String} {r r' : OobRecord}
    (hr : s.records.lookup id = some r) (hr' : t.records.lookup id = some r') :
    r' = r ∨ Later r r' := by
  obtain ⟨hid, ⟨f, hf, rfl⟩, -⟩ := hs.stored id r hr
  obtain ⟨hid', -, hlast⟩ := ht.stored id r' hr'
  obtain ⟨more, hmore⟩ := hst
  have hft : f ∈ t.log := by
    rw [hmore]
    exact List.mem_append_left _ hf
  rcases hlast f hft (hid.trans hid'.symm) with heq | hlater
  · exact Or.inl heq.symm
  · exact Or.inr hlater

theorem Recorded.wrote (h : Recorded L cfg s) {r : OobRecord} (hr : s.Written r)
    (hstate : r.state ≠ .pending) :
    ∃ b why, .moved b r why ∈ s.log ∧ why.Holds L cfg b r ∧ s.Written b := by
  obtain ⟨f, hf, hfr⟩ := hr
  cases f with
  | opened r' =>
      obtain rfl : r' = r := hfr
      exact absurd (h.opened r' hf) hstate
  | moved b a why =>
      obtain rfl : a = r := hfr
      exact ⟨b, why, hf, h.moved b a why hf⟩

theorem Recorded.approved (h : Recorded L cfg s) {r : OobRecord} (hr : s.Written r)
    (hstate : r.state = .approved) :
    ∃ b grant checkedAt p raw now, .moved b r (.decided grant checkedAt) ∈ s.log ∧
      s.Written b ∧ b.state = .identified ∧ b.lapsed checkedAt = false ∧
      GrantChecked L b grant p ∧ p.approve = true ∧ r = decidedRecord b raw p now := by
  have hmoved : r.state ≠ .pending := by
    rw [hstate]
    exact nofun
  obtain ⟨b, why, hmem, hholds, hb⟩ := h.wrote hr hmoved
  have hleads := hholds.leads
  rw [hstate] at hleads
  cases why with
  | decided grant checkedAt =>
      obtain ⟨hident, hlapsed, p, raw, now, hchecked, hdecided⟩ := hholds
      refine ⟨b, grant, checkedAt, p, raw, now, hmem, hb, hident, hlapsed, hchecked, ?_, hdecided⟩
      rw [hdecided] at hstate
      have happrove : (if p.approve then OobState.approved else .declined) = .approved := hstate
      cases hp : p.approve with
      | true => rfl
      | false =>
          rw [hp] at happrove
          cases happrove
  | _ => cases hleads

theorem Recorded.identified (h : Recorded L cfg s) {r : OobRecord} (hr : s.Written r)
    (hstate : r.state = .identified) :
    ∃ b identify step2 did now, .moved b r (.identified identify step2) ∈ s.log ∧
      s.Written b ∧ IdentifyChecked L b identify did ∧
      r = identifiedRecord L b did step2 now := by
  have hmoved : r.state ≠ .pending := by
    rw [hstate]
    exact nofun
  obtain ⟨b, why, hmem, hholds, hb⟩ := h.wrote hr hmoved
  have hleads := hholds.leads
  rw [hstate] at hleads
  cases why with
  | identified identify step2 =>
      obtain ⟨-, did, now, hchecked, hident⟩ := hholds
      exact ⟨b, identify, step2, did, now, hmem, hb, hchecked, hident⟩
  | _ => cases hleads

theorem Recorded.forget (h : Recorded L cfg s) {t : OobStore} (hlog : t.log = s.log)
    (hrecords : ∀ id r, t.records.lookup id = some r → s.records.lookup id = some r) :
    Recorded L cfg t where
  stored := by
    intro id r hlookup
    obtain ⟨hid, hwritten, hlast⟩ := h.stored id r (hrecords id r hlookup)
    unfold OobStore.Written OobStore.Last
    rw [hlog]
    exact ⟨hid, hwritten, hlast⟩
  trail := by
    rw [hlog]
    exact h.trail
  opened := by
    rw [hlog]
    exact h.opened
  moved := by
    unfold OobStore.Written
    rw [hlog]
    exact h.moved

theorem Extends.forget {t : OobStore} (hlog : t.log = s.log)
    (hrecords : ∀ id r, t.records.lookup id = some r → s.records.lookup id = some r) :
    Extends s t where
  log := ⟨[], by rw [hlog, List.append_nil]⟩
  closed := by
    intro id hclosed
    unfold OobStore.Closed
    rw [hlog]
    exact ⟨hclosed.1, fun r hr => hclosed.2 r (hrecords id r hr)⟩
  still := by
    intro id _ f hf _
    rw [← hlog]
    exact hf

theorem lookup_eraseRows (rows : List (String × OobRecord)) (t : Table String OobRecord)
    {id : String} {r : OobRecord}
    (h : (rows.foldl (fun t row => t.erase row.1) t).lookup id = some r) :
    t.lookup id = some r := by
  induction rows generalizing t with
  | nil => exact h
  | cons row rows ih =>
      have hrest := ih (t.erase row.1) h
      exact Table.lookup_of_erase hrest

theorem lookup_sweep {now : ℕ} {id : String} {r : OobRecord}
    (h : (s.sweep now).records.lookup id = some r) : s.records.lookup id = some r :=
  lookup_eraseRows _ _ h

/-- The stored record of a request is the one that was read, if the version is. -/
theorem Recorded.lookup_of_matches (h : Recorded L cfg s) {r : OobRecord} (hr : s.Written r)
    (hmatch : s.matchesVersion r.requestId r.version = true) :
    s.records.lookup r.requestId = some r := by
  unfold OobStore.matchesVersion at hmatch
  cases hlookup : s.records.lookup r.requestId with
  | none =>
      rw [hlookup] at hmatch
      cases hmatch
  | some cur =>
      rw [hlookup] at hmatch
      have hversion : cur.version = r.version := of_decide_eq_true hmatch
      obtain ⟨hid, -, hlast⟩ := h.stored _ _ hlookup
      obtain ⟨f, hf, hwritten⟩ := hr
      have hsame := hlast f hf (by rw [hwritten, hid])
      rw [hwritten] at hsame
      rcases hsame with rfl | hlater
      · rfl
      · have hlt := hlater.version
        rw [hversion] at hlt
        exact absurd hlt (Nat.lt_irrefl _)

/-- The store after an entry of its history. -/
def OobStore.add (s : OobStore) (f : Fact) : OobStore :=
  { s with
    records := s.records.insert f.written.requestId f.written
    log := s.log ++ [f] }

theorem Recorded.add (h : Recorded L cfg s) {f : Fact}
    (hnew : ∀ g ∈ s.log, g.written.requestId = f.written.requestId → Later g.written f.written)
    (hopened : ∀ r, f = .opened r → r.state = .pending)
    (hmoved : ∀ b a why, f = .moved b a why → why.Holds L cfg b a ∧ s.Written b) :
    Recorded L cfg (s.add f) := by
  have hkeep {r : OobRecord} (hr : s.Written r) : (s.add f).Written r := by
    obtain ⟨g, hg, hgr⟩ := hr
    exact ⟨g, List.mem_append_left _ hg, hgr⟩
  constructor
  · intro id r hlookup
    have hrow : (s.records.insert f.written.requestId f.written).lookup id = some r := hlookup
    rw [Table.lookup_insert_ite] at hrow
    by_cases hid : id = f.written.requestId
    · rw [if_pos hid] at hrow
      obtain rfl := Option.some.inj hrow
      refine ⟨hid.symm, ⟨f, List.mem_append_right _ (List.mem_singleton_self _), rfl⟩, ?_⟩
      intro g hg hsame
      rcases List.mem_append.mp hg with hg | hg
      · exact Or.inr (hnew g hg hsame)
      · rw [List.mem_singleton.mp hg]
        exact Or.inl rfl
    · rw [if_neg hid] at hrow
      obtain ⟨hrid, hwritten, hlast⟩ := h.stored id r hrow
      refine ⟨hrid, hkeep hwritten, ?_⟩
      intro g hg hsame
      rcases List.mem_append.mp hg with hg | hg
      · exact hlast g hg hsame
      · rw [List.mem_singleton.mp hg] at hsame
        exact absurd (hrid.symm.trans hsame.symm) hid
  · refine List.pairwise_append.mpr ⟨h.trail, List.pairwise_singleton _ _, ?_⟩
    intro g hg g' hg' hid
    obtain rfl := List.mem_singleton.mp hg'
    exact hnew g hg hid
  · intro r hr
    rcases List.mem_append.mp hr with hr | hr
    · exact h.opened r hr
    · exact hopened r (List.mem_singleton.mp hr).symm
  · intro b a why hmem
    rcases List.mem_append.mp hmem with hmem | hmem
    · obtain ⟨hholds, hwritten⟩ := h.moved b a why hmem
      exact ⟨hholds, hkeep hwritten⟩
    · obtain ⟨hholds, hwritten⟩ := hmoved b a why (List.mem_singleton.mp hmem).symm
      exact ⟨hholds, hkeep hwritten⟩

/-- An entry about a request that has not come to its end. -/
theorem Extends.add {f : Fact} (hopen : ¬s.Closed f.written.requestId) : Extends s (s.add f) := by
  refine ⟨⟨_, rfl⟩, ?_, ?_⟩
  · intro id hclosed
    have hid : id ≠ f.written.requestId := by
      rintro rfl
      exact hopen hclosed
    obtain ⟨⟨g, hg, hgid⟩, hfinal⟩ := hclosed
    refine ⟨⟨g, List.mem_append_left _ hg, hgid⟩, ?_⟩
    intro r hr
    have hrow : (s.records.insert f.written.requestId f.written).lookup id = some r := hr
    rw [Table.lookup_insert_ite, if_neg hid] at hrow
    exact hfinal r hrow
  · intro id hclosed g hg hgid
    rcases List.mem_append.mp hg with hg | hg
    · exact hg
    · rw [List.mem_singleton.mp hg] at hgid
      rw [← hgid] at hclosed
      exact absurd hclosed hopen

theorem Recorded.move (h : Recorded L cfg s) {b a : OobRecord} {why : Move}
    (hb : s.records.lookup b.requestId = some b) (hholds : why.Holds L cfg b a) :
    Recorded L cfg (s.add (.moved b a why)) := by
  obtain ⟨-, hwritten, hlast⟩ := h.stored _ _ hb
  have hlater := hholds.later
  apply h.add
  · intro g hg hid
    rcases hlast g hg (hid.trans hlater.requestId) with heq | hbefore
    · rw [heq]
      exact hlater
    · exact hbefore.trans hlater
  · intro r hr
    cases hr
  · intro b' a' why' heq
    cases heq
    exact ⟨hholds, hwritten⟩

/-- A change lets the store grow: the request was open. -/
theorem Extends.move {b a : OobRecord} {why : Move}
    (hb : s.records.lookup b.requestId = some b) (hholds : why.Holds L cfg b a) :
    Extends s (s.add (.moved b a why)) := by
  have hlater := hholds.later
  apply Extends.add
  intro hclosed
  have hid : (Fact.moved b a why).written.requestId = b.requestId := hlater.requestId
  rw [hid] at hclosed
  have hfinal := hclosed.2 b hb
  rw [hlater.isOpen] at hfinal
  cases hfinal

/-- Opening a request under a new id. -/
theorem Recorded.opening (h : Recorded L cfg s) {r : OobRecord} (hstate : r.state = .pending)
    (hnew : ∀ f ∈ s.log, f.written.requestId ≠ r.requestId) :
    Recorded L cfg (s.add (.opened r)) := by
  apply h.add
  · intro g hg hid
    exact absurd hid (hnew g hg)
  · intro r' heq
    cases heq
    exact hstate
  · intro b a why heq
    cases heq

theorem Extends.opening {r : OobRecord} (hnew : ∀ f ∈ s.log, f.written.requestId ≠ r.requestId) :
    Extends s (s.add (.opened r)) := by
  apply Extends.add
  rintro ⟨⟨f, hf, hfid⟩, -⟩
  exact hnew f hf hfid

theorem perform_compareAndSet {cur next : OobRecord} {why : Move}
    (h : s.records.lookup next.requestId = some cur) :
    OobStore.perform (.compareAndSet cur.version next why) s = s.add (.moved cur next why) := by
  unfold OobStore.perform
  simp only [h, if_true]
  rfl

theorem perform_compareAndSet_of_not {expected : ℕ} {next : OobRecord} {why : Move}
    (h : s.matchesVersion next.requestId expected = false) :
    OobStore.perform (.compareAndSet expected next why) s = s := by
  unfold OobStore.matchesVersion at h
  unfold OobStore.perform
  cases hlookup : s.records.lookup next.requestId with
  | none => simp only [hlookup]
  | some cur =>
      rw [hlookup] at h
      have hversion : cur.version ≠ expected := of_decide_eq_false h
      simp only [hlookup, if_neg hversion]

theorem perform_remember (key : String × String) (until' now : ℕ) (s : OobStore) :
    ∃ seen, OobStore.perform (.remember key until' now) s = { s with seen := seen } := by
  simp only [OobStore.perform]
  cases rememberResult (s.seen.filter fun e => now ≤ e.2) key with
  | ok _ => exact ⟨_, rfl⟩
  | error _ => exact ⟨_, rfl⟩

/-- An access takes a stored record at most one move further. -/
theorem perform_edge {o : OobAccess} {guarded : Prop} (hs : Recorded L cfg s)
    (hmeets : (oobProtocol L cfg guarded).Meets o s) (ht : Recorded L cfg (OobStore.perform o s))
    {id : String} {r r' : OobRecord} (hr : s.records.lookup id = some r)
    (hr' : (OobStore.perform o s).records.lookup id = some r') :
    r'.state = r.state ∨ r.state.Edge r'.state := by
  have hsame (h : s.records.lookup id = some r') : r'.state = r.state ∨ r.state.Edge r'.state := by
    rw [hr] at h
    exact Or.inl (congrArg OobRecord.state (Option.some.inj h).symm)
  cases o with
  | get => exact hsame hr'
  | remember key until' now =>
      obtain ⟨seen, hseen⟩ := perform_remember key until' now s
      rw [hseen] at hr'
      exact hsame hr'
  | create record now =>
      simp only [OobStore.perform] at hr'
      cases hcreate : createResult (s.sweep now) record with
      | error _ =>
          rw [hcreate] at hr'
          exact hsame (lookup_sweep hr')
      | ok _ =>
          rw [hcreate] at hr'
          change ((s.sweep now).records.insert record.requestId record).lookup id = some r' at hr'
          rw [Table.lookup_insert_ite] at hr'
          by_cases hid : id = record.requestId
          · obtain ⟨hrid, ⟨f, hf, hfr⟩, -⟩ := hs.stored id r hr
            refine absurd ?_ (hmeets f hf)
            rw [hfr, hrid, hid]
          · rw [if_neg hid] at hr'
            exact hsame (lookup_sweep hr')
  | compareAndSet expected next why =>
      cases hmatch : s.matchesVersion next.requestId expected with
      | false =>
          rw [perform_compareAndSet_of_not hmatch] at hr'
          exact hsame hr'
      | true =>
          unfold OobStore.matchesVersion at hmatch
          cases hcur : s.records.lookup next.requestId with
          | none =>
              rw [hcur] at hmatch
              cases hmatch
          | some cur =>
              rw [hcur] at hmatch
              have hversion : cur.version = expected := of_decide_eq_true hmatch
              subst hversion
              rw [perform_compareAndSet hcur] at hr' ht
              change (s.records.insert next.requestId next).lookup id = some r' at hr'
              rw [Table.lookup_insert_ite] at hr'
              by_cases hid : id = next.requestId
              · rw [if_pos hid] at hr'
                obtain rfl := Option.some.inj hr'
                rw [hid, hcur] at hr
                obtain rfl := Option.some.inj hr
                have hmem : Fact.moved cur next why ∈ (s.add (.moved cur next why)).log :=
                  List.mem_append_right _ (List.mem_singleton_self _)
                exact (ht.moved cur next why hmem).1.edge
              · rw [if_neg hid] at hr'
                exact hsame hr'

/-- A compare-and-set on the record that was read: it is stored, or another change came
first. -/
theorem safe_compareAndSet {guarded : Prop} {b a : OobRecord} {why : Move}
    {Q : Bool → OobStore → Prop} {E : OobRefusal → OobStore → Prop} (hb : s.Written b)
    (hholds : why.Holds L cfg b a)
    (hyes : ∀ t, Extends s t → .moved b a why ∈ t.log → t.records.lookup a.requestId = some a →
      Q true t)
    (hno : ∀ t, Extends s t → t.matchesVersion a.requestId b.version = false →
      (oobProtocol L cfg guarded).Meets (.compareAndSet b.version a why) t → Q false t) :
    (compareAndSet b.version a why).Safe (oobProtocol L cfg guarded) Q E s := by
  have hid : a.requestId = b.requestId := hholds.later.requestId
  apply Atomic.safe_call
  intro t hst hinv hmeets
  change Recorded L cfg (OobStore.perform _ t) ∧ Extends t (OobStore.perform _ t) ∧ _
  cases hmatch : t.matchesVersion a.requestId b.version with
  | true =>
      have hstored : t.records.lookup b.requestId = some b := by
        apply Recorded.lookup_of_matches hinv (hb.extends hst)
        rw [← hid]
        exact hmatch
      have hstored' : t.records.lookup a.requestId = some b := by
        rw [hid]
        exact hstored
      have hmoves := @perform_compareAndSet t b a why hstored'
      have hgrows : Extends t (t.add (.moved b a why)) := .move hstored hholds
      change _ ∧ _ ∧ Q true (OobStore.perform _ t)
      rw [hmoves]
      refine ⟨hinv.move hstored hholds, hgrows, ?_⟩
      apply hyes _ (hst.trans hgrows)
      · exact List.mem_append_right _ (List.mem_singleton_self _)
      · exact AList.lookup_insert _
  | false =>
      change _ ∧ _ ∧ Q false (OobStore.perform _ t)
      rw [perform_compareAndSet_of_not hmatch]
      exact ⟨hinv, .refl t, hno t hst hmatch hmeets⟩

theorem safe_rememberDocument {guarded : Prop} {issuer id : String} {until' now : ℕ}
    {Q : Except SeenError Unit → OobStore → Prop} {E : OobRefusal → OobStore → Prop}
    (h : ∀ t x, Extends s t → Q x t) :
    (rememberDocument issuer id until' now).Safe (oobProtocol L cfg guarded) Q E s := by
  apply Atomic.safe_call
  intro t hst hinv _
  change Recorded L cfg (OobStore.perform _ t) ∧ Extends t (OobStore.perform _ t) ∧
    Q _ (OobStore.perform _ t)
  obtain ⟨seen, hseen⟩ := perform_remember (issuer, id) until' now t
  rw [hseen]
  have hgrows : Extends t { t with seen := seen } := Extends.forget rfl fun _ _ h => h
  exact ⟨hinv.forget rfl fun _ _ h => h, hgrows, h _ _ (hst.trans hgrows)⟩

/-- Opening a request under an id that no request had before. -/
theorem safe_create {guarded : Prop} {record : OobRecord} {now : ℕ}
    {Q : Except CreateError Unit → OobStore → Prop} {E : OobRefusal → OobStore → Prop}
    (hstate : record.state = .pending) (h : ∀ t x, Extends s t → Q x t) :
    (.call (.create record now) fun s => createResult (s.sweep now) record :
      OobM (Except CreateError Unit)).Safe (oobProtocol L cfg guarded) Q E s := by
  apply Atomic.safe_call
  intro t hst hinv hnew
  change Recorded L cfg (OobStore.perform _ t) ∧ Extends t (OobStore.perform _ t) ∧
    Q _ (OobStore.perform _ t)
  have hswept : Extends t (t.sweep now) := Extends.forget rfl fun _ _ => lookup_sweep
  have hinv' : Recorded L cfg (t.sweep now) := hinv.forget rfl fun _ _ => lookup_sweep
  simp only [OobStore.perform]
  cases createResult (t.sweep now) record with
  | ok _ =>
      have hgrows : Extends (t.sweep now) ((t.sweep now).add (.opened record)) :=
        Extends.opening hnew
      exact ⟨hinv'.opening hstate hnew, hswept.trans hgrows,
        h _ _ (hst.trans (hswept.trans hgrows))⟩
  | error _ => exact ⟨hinv', hswept, h _ _ (hst.trans hswept)⟩

theorem safe_get {guarded : Prop} {id : String} {Q : Option OobRecord → OobStore → Prop}
    {E : OobRefusal → OobStore → Prop} (hnone : ∀ t, Extends s t → Q none t)
    (hsome : ∀ t r, Extends s t → t.Written r → r.requestId = id → Q (some r) t) :
    (.call .get fun s => s.records.lookup id : OobM (Option OobRecord)).Safe
      (oobProtocol L cfg guarded) Q E s := by
  apply Atomic.safe_call
  intro t hst hinv _
  refine ⟨hinv, Extends.refl t, ?_⟩
  change Q (t.records.lookup id) t
  cases hlookup : t.records.lookup id with
  | none => exact hnone t hst
  | some r =>
      obtain ⟨hid, hwritten, -⟩ := Recorded.stored hinv id r hlookup
      exact hsome t r hst hwritten hid

end

end Oob

end DidHosting
