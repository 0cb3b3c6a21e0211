import Mathlib.Data.Fintype.Basic
import DidHosting.Support.Stages
import DidHosting.Auth.Credentials

/-!
# Step-up challenges

A step-up binds a challenge to a session, and a response that carries the challenge raises
the session.  A response compares its challenge with the one that is pending, takes the
pending step-up away in one access, and compares once more; a step-up that is started in
between has put another challenge there, and it is that one which is taken.

A response goes through stages, from its first comparison to the write that raises the
session.  What is issued, taken and raised in a run is written down as it happens.
-/

namespace DidHosting

namespace Auth

/-! ## Requests -/

/-- The access leaves the pending step-ups alone. -/
def AuthAccess.LeavesPending : AuthAccess → Prop
  | .putPending .. => False
  | .takePending .. => False
  | _ => True

/-- A request that neither starts a step-up nor answers one. -/
structure OtherRequest where
  handler : AuthM AuthAnswer
  leaves : handler.Only AuthAccess.LeavesPending fun _ => True

/-- What is asked of the control plane while step-ups are pending. -/
inductive StepUpCall where
  | start (cx : Cx) (p : StepUpStart)
  | respond (process : ℕ) (cx : Cx) (p : ApproveResponse)
  | other (request : OtherRequest)

/-- The session and the challenge that a response is about. -/
def StepUpCall.answers : StepUpCall → Option (String × String)
  | .respond _ _ p => p.sessionId.map fun sessionId => (sessionId, p.challenge)
  | _ => none

section

variable (L : AuthLibs) (cfg : AuthConfig)

def StepUpCall.handler : StepUpCall → AuthM AuthAnswer
  | .start cx p => do return .stepUpStarted (← stepUpStart L cfg cx p)
  | .respond process cx p => approveResponse L cfg process cx p
  | .other request => request.handler

variable {ι : Type}

abbrev StepUpPool (ι : Type) := Pool ι AuthStore AuthAccess AuthEnv AuthLock TaskError AuthAnswer

/-- The requests at work on a store. -/
def stepUps (s : AuthStore) (calls : ι → StepUpCall) : StepUpPool ι :=
  Pool.start s fun i => (calls i).handler L cfg

end

/-! ## What happens -/

/-- What happens to the challenges of sessions. -/
inductive StepUpFact (ι : Type) where
  | issued (sessionId challenge : String)
  /-- Request `i` took away a pending step-up with this challenge. -/
  | claimed (i : ι) (sessionId challenge : String)
  /-- Response `i` raised its session. -/
  | elevated (i : ι)
deriving DecidableEq, Repr

/-- The access raises a session. -/
def AuthAccess.elevates : AuthAccess → Bool
  | .session (.putSession _ _ (.steppedUp _)) => true
  | _ => false

/-- The access is one to the pending step-ups. -/
def AuthAccess.touchesPending : AuthAccess → Bool
  | .putPending .. => true
  | .takePending .. => true
  | _ => false

def StepUpCall.isResponse : StepUpCall → Bool
  | .respond .. => true
  | _ => false

section

variable {ι : Type} (calls : ι → StepUpCall)

/-- What an access means for the challenges. -/
def stepUpFact (s : AuthStore) (i : ι) : AuthAccess → Option (StepUpFact ι)
  | .putPending sessionId pending => some (.issued sessionId pending.challenge)
  | .takePending sessionId =>
      (s.pendingStepUps.lookup sessionId).map fun pending =>
        .claimed i sessionId pending.challenge
  | o => if o.elevates && (calls i).isResponse then some (.elevated i) else none

variable [DecidableEq ι]

/-- What an event means for the challenges. -/
def seenStepUp (m : StepUpPool ι) (event : PoolEvent ι AuthEnv) : Option (StepUpFact ι) :=
  (m.performed event).bind fun access => stepUpFact calls m.store access.1 access.2

/-- The facts of a run. -/
def stepUpHistory (m : StepUpPool ι) (events : List (PoolEvent ι AuthEnv)) :
    List (StepUpFact ι) :=
  Run.history Pool.step (seenStepUp calls) m events

/-- How often a challenge was issued for a session. -/
def issues (sessionId challenge : String) (h : List (StepUpFact ι)) : ℕ :=
  h.count (.issued sessionId challenge)

def StepUpFact.elevatedBy : StepUpFact ι → Option ι
  | .elevated i => some i
  | _ => none

/-- How often a challenge raised its session. -/
def elevations (sessionId challenge : String) (h : List (StepUpFact ι)) : ℕ :=
  (h.filterMap StepUpFact.elevatedBy).countP fun i =>
    (calls i).answers = some (sessionId, challenge)

/-- Whether a challenge is pending for a session, as a number. -/
def AuthStore.pendingCount (s : AuthStore) (sessionId challenge : String) : ℕ :=
  if (s.pendingStepUps.lookup sessionId).any (·.challenge = challenge) then 1 else 0

/-! ## The condition -/

/-- The pending step-up an access binds to a session. -/
def AuthAccess.binds : AuthAccess → Option (String × PendingStepUp)
  | .putPending sessionId pending => some (sessionId, pending)
  | _ => none

/-- The handler is about to take away the pending step-up of a session. -/
def takesPending (sessionId : String) (p : AuthM AuthAnswer) : Bool :=
  match p.atHand with
  | some (.takePending id) => id = sessionId
  | _ => false

/-- No challenge is bound to a session between the comparison that a response with another
challenge has made there and its taking. -/
def Undisturbed (m : StepUpPool ι) (event : PoolEvent ι AuthEnv) : Prop :=
  ∀ bound ∈ (m.performed event).bind fun access => access.2.binds,
    ∀ j, takesPending bound.1 (m.handler j) = true →
      (calls j).answers = some (bound.1, bound.2.challenge)

instance [Fintype ι] (m : StepUpPool ι) (event : PoolEvent ι AuthEnv) :
    Decidable (Undisturbed calls m event) :=
  inferInstanceAs (Decidable (∀ bound ∈ (m.performed event).bind fun access => access.2.binds,
    ∀ j, takesPending bound.1 (m.handler j) = true →
      (calls j).answers = some (bound.1, bound.2.challenge)))

end

/-! ## Stages -/

/-- How far a request has come: a response waits for its comparison, has made it, has taken
what it compared with, or cannot raise the session any more. -/
inductive StepUpStage where
  | outside
  | waiting
  | matched
  | claimed
  | ended
deriving DecidableEq, Repr

/-- The stages of a response to `challenge`. -/
def responseNext (sessionId challenge : String) :
    StepUpStage → AuthAccess → AuthStore → Option StepUpStage
  | .waiting, .get, s =>
      some (if (s.pendingStepUps.lookup sessionId).any (·.challenge = challenge) then .matched
        else .ended)
  | .matched, .takePending id, s =>
      if id = sessionId then
        some (if (s.pendingStepUps.lookup sessionId).any (·.challenge = challenge) then .claimed
          else .ended)
      else none
  | .claimed, o, _ =>
      if o.touchesPending then none else some (if o.elevates then .ended else .claimed)
  | .ended, o, _ => if o.touchesPending || o.elevates then none else some .ended
  | _, _, _ => none

/-- The discipline of a request.  Only a response takes a pending step-up away. -/
def StepUpCall.discipline : StepUpCall → Discipline AuthStore AuthAccess StepUpStage
  | .respond _ _ p =>
      ⟨fun stage o s => p.sessionId.bind fun sessionId =>
          responseNext sessionId p.challenge stage o s,
        fun stage => stage = .matched⟩
  | _ =>
      ⟨fun stage o _ =>
          match o with
          | .takePending _ => none
          | _ => some stage,
        fun _ => false⟩

def StepUpCall.first : StepUpCall → StepUpStage
  | .respond .. => .waiting
  | _ => .outside

/-! ## The handlers and their stages -/

/-- The access neither raises a session nor touches the pending step-ups. -/
def AuthAccess.Aside (o : AuthAccess) : Prop :=
  o.touchesPending = false ∧ o.elevates = false

theorem AuthAccess.Reads.aside {o : AuthAccess} (h : o.Reads) : o.Aside := by
  cases o with
  | get => exact ⟨rfl, rfl⟩
  | session o =>
      cases o with
      | get => exact ⟨rfl, rfl⟩
      | _ => exact False.elim h
  | credential purpose o => exact ⟨rfl, rfl⟩
  | _ => exact False.elim h

section Handlers

variable {α : Type} {L : AuthLibs} {cfg : AuthConfig}

theorem aside_onCredentials (purpose : Purpose) (p : CredentialM α) :
    (onCredentials purpose p).Only AuthAccess.Aside fun _ => True :=
  Part.only_lift_part p fun _ => ⟨rfl, rfl⟩

theorem aside_of_reading {p : AuthM α} (h : Reading p) :
    p.Only AuthAccess.Aside fun _ => True :=
  h.mono (fun _ ho => ho.aside) fun _ _ => trivial

theorem aside_holdsCredential (purpose : Purpose) (did : String) :
    (holdsCredential purpose did).Only AuthAccess.Aside fun _ => True :=
  Atomic.only_seq (aside_onCredentials purpose _) fun _ => trivial

theorem aside_verifyStepUp (process : ℕ) (pending : PendingStepUp) (assertion : Json) :
    (verifyStepUp L cfg process pending assertion).Only AuthAccess.Aside fun _ => True := by
  rw [verifyStepUp]
  cases pending.webauthn with
  | none => trivial
  | some state =>
      refine Atomic.only_ite trivial ?_
      apply Atomic.only_seq
      · apply aside_of_reading
        exact Atomic.only_seq reading_check fun _ => reading_check
      · intro result
        refine Atomic.only_ite trivial ?_
        apply Atomic.only_locked
        apply Atomic.only_seq (aside_onCredentials .stepUp _)
        intro user
        cases user.filter fun u => u.did = pending.subject with
        | none => trivial
        | some user => exact aside_onCredentials .stepUp _

theorem only_stepUpStart (cx : Cx) (p : StepUpStart) :
    (stepUpStart L cfg cx p).Only (fun o => ∀ id, o ≠ .takePending id) fun _ => True := by
  apply (starts_stepUpStart L cfg cx p).mono
  · rintro o ho id rfl
    exact ho
  · exact fun _ _ => trivial

end Handlers

section Responses

variable {L : AuthLibs} {cfg : AuthConfig} {p : ApproveResponse} {sessionId : String}

/-- The discipline of a response about a session. -/
def responding (sessionId challenge : String) : Discipline AuthStore AuthAccess StepUpStage :=
  ⟨responseNext sessionId challenge, fun stage => stage = .matched⟩

theorem discipline_respond {process : ℕ} {cx : Cx} (h : p.sessionId = some sessionId) :
    (StepUpCall.respond process cx p).discipline = responding sessionId p.challenge := by
  rw [StepUpCall.discipline, h]
  rfl

/-- What a response has claimed it has compared before and again. -/
theorem follows_claimStepUp :
    (claimStepUp p sessionId).Follows (responding sessionId p.challenge)
      (fun _ stage => stage = .claimed) .waiting := by
  rw [claimStepUp]
  apply Atomic.follows_call_bind
  intro s
  refine ⟨_, rfl, ?_⟩
  cases hrow : s.pendingStepUps.lookup sessionId with
  | none => trivial
  | some peeked =>
      by_cases hpeeked : peeked.challenge = p.challenge
      · simp only [ne_eq, hpeeked, not_true_eq_false, if_false, Option.any_some, decide_true,
          if_true]
        apply Atomic.follows_call_bind
        intro t
        refine ⟨_, if_pos rfl, ?_⟩
        cases ht : t.pendingStepUps.lookup sessionId with
        | none => trivial
        | some pending =>
            by_cases hpending : pending.challenge = p.challenge
            · simp only [hpending, not_true_eq_false, if_false, Option.any_some, decide_true,
                if_true]
              rfl
            · simp only [hpending, not_false_eq_true, if_true]
              trivial
      · simp only [ne_eq, hpeeked, not_false_eq_true, if_true]
        trivial

theorem next_claimed_of_aside {challenge : String} (o : AuthAccess) (s : AuthStore)
    (h : o.Aside) : (responding sessionId challenge).next .claimed o s = some .claimed := by
  change responseNext sessionId challenge .claimed o s = _
  rw [responseNext, h.1, h.2]
  rfl

/-- An approval raises the session at most once. -/
theorem follows_elevate {challenge : String} (pending : PendingStepUp) :
    (elevate p pending sessionId).Follows (responding sessionId challenge) (fun _ _ => True)
      .claimed := by
  rw [elevate]
  apply (aside_holdsCredential .stepUp pending.subject).follows_bind next_claimed_of_aside rfl
  intro holds _
  refine Atomic.follows_ite trivial ?_
  cases p.grantedAcr.filter (· ≠ stepUpAcr) with
  | some granted => trivial
  | none =>
      apply (aside_of_reading (reading_getSession sessionId)).follows_bind
        next_claimed_of_aside rfl
      intro found _
      cases found.filter fun s => s.state = .authenticated && s.did = pending.subject with
      | none => trivial
      | some session =>
          apply (aside_of_reading (reading_checkAcl session.did)).follows_bind
            next_claimed_of_aside rfl
          intro role _
          -- the write of the session, and then the one of its index row
          exact fun s => ⟨.ended, rfl, fun t => ⟨.ended, rfl, trivial⟩⟩

theorem follows_decided {challenge : String} (pending : PendingStepUp) :
    (p.decided pending sessionId).Follows (responding sessionId challenge) (fun _ _ => True)
      .claimed := by
  rw [ApproveResponse.decided]
  cases p.decision with
  | denied => trivial
  | other => trivial
  | approved =>
      apply Atomic.follows_bind
      exact (follows_elevate pending).mono fun _ _ _ => trivial

theorem follows_approveResponse (process : ℕ) (cx : Cx) :
    (approveResponse L cfg process cx p).Follows
      (StepUpCall.respond process cx p).discipline (fun _ _ => True) .waiting := by
  rw [approveResponse]
  apply (only_callerOf cx).follows_bind (fun _ _ h => h.elim) rfl
  intro approver _
  cases hsession : p.sessionId with
  | none => trivial
  | some sessionId =>
      rw [discipline_respond hsession]
      apply Atomic.follows_bind
      apply follows_claimStepUp.mono
      rintro pending stage rfl
      apply Atomic.follows_draw_bind rfl
      intro env
      refine Atomic.follows_ite trivial ?_
      refine Atomic.follows_ite trivial ?_
      refine Atomic.follows_ite trivial ?_
      cases p.evidence with
      | none => exact follows_decided pending
      | some evidence =>
          cases evidence with
          | didSigned => exact follows_decided pending
          | webauthn assertion =>
              apply (aside_verifyStepUp process pending assertion).follows_bind
                next_claimed_of_aside rfl
              exact fun _ _ => follows_decided pending

theorem follows_handler (call : StepUpCall) :
    (call.handler L cfg).Follows call.discipline (fun _ _ => True) call.first := by
  cases call with
  | start cx p =>
      apply (only_stepUpStart cx p).follows_bind
      · intro o s ho
        cases o with
        | takePending id => exact absurd rfl (ho id)
        | _ => rfl
      · rfl
      · exact fun _ _ => trivial
  | respond process cx p => exact follows_approveResponse process cx
  | other request =>
      apply (request.leaves.follows _ _).mono
      · exact fun _ _ _ => trivial
      · intro o s ho
        cases o with
        | takePending id => exact ho.elim
        | _ => rfl
      · rfl

end Responses

/-! ## What one access does -/

section Accesses

variable {s : AuthStore} {o : AuthAccess}

theorem pendingStepUps_perform (h : o.touchesPending = false) :
    (Access.perform o s).pendingStepUps = s.pendingStepUps := by
  change (AuthStore.perform o s).pendingStepUps = _
  cases o with
  | putPending sessionId pending => simp [AuthAccess.touchesPending] at h
  | takePending sessionId => simp [AuthAccess.touchesPending] at h
  | credential purpose o => cases purpose <;> rfl
  | persist purpose copied user credId aclEntry =>
      cases purpose <;> cases aclEntry <;> rfl
  | _ => rfl

theorem stepUpFact_of_untouched {ι : Type} {calls : ι → StepUpCall} {i : ι}
    (h : o.touchesPending = false) :
    stepUpFact calls s i o =
      if o.elevates && (calls i).isResponse then some (.elevated i) else none := by
  cases o with
  | putPending sessionId pending => simp [AuthAccess.touchesPending] at h
  | takePending sessionId => simp [AuthAccess.touchesPending] at h
  | _ => rfl

/-- An access that a discipline allows is one of a response, or it takes nothing away. -/
theorem discipline_next {call : StepUpCall} {stage after : StepUpStage}
    (h : call.discipline.next stage o s = some after) :
    (call.isResponse = false ∧ after = stage ∧ ∀ id, o ≠ .takePending id) ∨
      ∃ sessionId challenge, call.answers = some (sessionId, challenge) ∧
        call.isResponse = true ∧ responseNext sessionId challenge stage o s = some after := by
  cases call with
  | respond process cx p =>
      obtain ⟨sessionId, hsession, hnext⟩ := Option.bind_eq_some_iff.mp h
      refine Or.inr ⟨sessionId, p.challenge, ?_, rfl, hnext⟩
      rw [StepUpCall.answers, hsession]
      rfl
  | start cx p =>
      cases o with
      | takePending id => cases h
      | _ => exact Or.inl ⟨rfl, (Option.some.inj h).symm, by simp⟩
  | other request =>
      cases o with
      | takePending id => cases h
      | _ => exact Or.inl ⟨rfl, (Option.some.inj h).symm, by simp⟩

/-- The accesses of a response: its comparison, its taking, and what follows. -/
theorem responseNext_cases {sessionId challenge : String} {stage after : StepUpStage}
    (h : responseNext sessionId challenge stage o s = some after) :
    (stage = .waiting ∧ o = .get ∧
        after = if (s.pendingStepUps.lookup sessionId).any (·.challenge = challenge) then .matched
          else .ended) ∨
      (stage = .matched ∧ o = .takePending sessionId ∧
        after = if (s.pendingStepUps.lookup sessionId).any (·.challenge = challenge) then .claimed
          else .ended) ∨
      (stage = .claimed ∧ o.touchesPending = false ∧
        after = if o.elevates then .ended else .claimed) ∨
      (stage = .ended ∧ o.Aside ∧ after = .ended) := by
  cases stage with
  | outside => simp [responseNext] at h
  | waiting =>
      cases o with
      | get => exact Or.inl ⟨rfl, rfl, (Option.some.inj h).symm⟩
      | _ => simp [responseNext] at h
  | matched =>
      cases o with
      | takePending id =>
          by_cases hid : id = sessionId
          · rw [responseNext, if_pos hid] at h
            exact Or.inr (Or.inl ⟨rfl, by rw [hid], (Option.some.inj h).symm⟩)
          · rw [responseNext, if_neg hid] at h
            cases h
      | _ => simp [responseNext] at h
  | claimed =>
      rw [responseNext] at h
      by_cases htouches : o.touchesPending = true
      · rw [if_pos htouches] at h
        cases h
      · rw [if_neg htouches] at h
        rw [Bool.not_eq_true] at htouches
        exact Or.inr (Or.inr (Or.inl ⟨rfl, htouches, (Option.some.inj h).symm⟩))
  | ended =>
      rw [responseNext] at h
      by_cases hloud : (o.touchesPending || o.elevates) = true
      · rw [if_pos hloud] at h
        cases h
      · rw [if_neg hloud] at h
        rw [Bool.not_eq_true, Bool.or_eq_false_iff] at hloud
        exact Or.inr (Or.inr (Or.inr ⟨rfl, hloud, (Option.some.inj h).symm⟩))

end Accesses

/-! ## What a run tells -/

section Told

variable {ι : Type} [DecidableEq ι] (calls : ι → StepUpCall)

/-- Whether a pending step-up with this challenge was taken away. -/
def StepUpFact.isClaim (sessionId challenge : String) : StepUpFact ι → Bool
  | .claimed _ id c => id = sessionId && c = challenge
  | _ => false

/-- How often a pending step-up with this challenge was taken away. -/
def claims (sessionId challenge : String) (h : List (StepUpFact ι)) : ℕ :=
  h.countP (StepUpFact.isClaim sessionId challenge)

/-- What was written down, beside the store and the stages: a session was raised once by a
response, after it took its challenge away; and no challenge was taken more often than it was
there. -/
structure Told (first s : AuthStore) (stage : ι → StepUpStage) (h : List (StepUpFact ι)) :
    Prop where
  finished : ∀ i, .elevated i ∈ h → stage i = .ended
  claimed : ∀ i, stage i = .claimed → ∃ sessionId challenge,
    (calls i).answers = some (sessionId, challenge) ∧ .claimed i sessionId challenge ∈ h
  elevated : ∀ i, .elevated i ∈ h → ∃ sessionId challenge,
    (calls i).answers = some (sessionId, challenge) ∧ .claimed i sessionId challenge ∈ h
  once : (h.filterMap StepUpFact.elevatedBy).Nodup
  rows : ∀ sessionId challenge,
    claims sessionId challenge h + s.pendingCount sessionId challenge ≤
      issues sessionId challenge h + first.pendingCount sessionId challenge

variable {calls} {first s t : AuthStore} {stage : ι → StepUpStage} {h : List (StepUpFact ι)}

omit [DecidableEq ι] in
theorem mem_elevatedBy {i : ι} {h : List (StepUpFact ι)} :
    i ∈ h.filterMap StepUpFact.elevatedBy ↔ .elevated i ∈ h := by
  rw [List.mem_filterMap]
  constructor
  · rintro ⟨f, hf, hfi⟩
    cases f with
    | elevated j =>
        obtain rfl := Option.some.inj hfi
        exact hf
    | issued id c => cases hfi
    | claimed j id c => cases hfi
  · exact fun hi => ⟨_, hi, rfl⟩

namespace Told

theorem of_pending (hs : t.pendingStepUps = s.pendingStepUps) (ht : Told calls first s stage h) :
    Told calls first t stage h where
  finished := ht.finished
  claimed := ht.claimed
  elevated := ht.elevated
  once := ht.once
  rows sessionId challenge := by
    rw [AuthStore.pendingCount, hs]
    exact ht.rows sessionId challenge

/-- A request comes to another stage. -/
theorem advance (ht : Told calls first s stage h) {i : ι} {after : StepUpStage}
    (hfinished : .elevated i ∈ h → after = .ended)
    (hclaimed : after = .claimed → ∃ sessionId challenge,
      (calls i).answers = some (sessionId, challenge) ∧ .claimed i sessionId challenge ∈ h) :
    Told calls first s (Function.update stage i after) h where
  finished j hj := by
    by_cases hji : j = i
    · rw [hji, Function.update_self]
      exact hfinished (hji ▸ hj)
    · rw [Function.update_of_ne hji]
      exact ht.finished j hj
  claimed j hj := by
    by_cases hji : j = i
    · rw [hji, Function.update_self] at hj
      rw [hji]
      exact hclaimed hj
    · rw [Function.update_of_ne hji] at hj
      exact ht.claimed j hj
  elevated := ht.elevated
  once := ht.once
  rows := ht.rows

theorem issue (ht : Told calls first s stage h) (sessionId : String) (pending : PendingStepUp) :
    Told calls first (Access.perform (AuthAccess.putPending sessionId pending) s) stage
      (h ++ [.issued sessionId pending.challenge]) where
  finished i hi := ht.finished i (by simpa using hi)
  claimed i hi := by
    obtain ⟨id, c, hanswers, hmem⟩ := ht.claimed i hi
    exact ⟨id, c, hanswers, List.mem_append_left _ hmem⟩
  elevated i hi := by
    obtain ⟨id, c, hanswers, hmem⟩ := ht.elevated i (by simpa using hi)
    exact ⟨id, c, hanswers, List.mem_append_left _ hmem⟩
  once := by
    have hnone : ([.issued sessionId pending.challenge] : List (StepUpFact ι)).filterMap
        StepUpFact.elevatedBy = [] := rfl
    rw [List.filterMap_append, hnone, List.append_nil]
    exact ht.once
  rows id c := by
    have hrows := ht.rows id c
    have hlookup : (Access.perform (AuthAccess.putPending sessionId pending) s).pendingStepUps =
        s.pendingStepUps.insert sessionId pending := rfl
    rw [claims, issues, List.countP_append, List.count_append, AuthStore.pendingCount, hlookup,
      Table.lookup_insert_ite]
    rw [claims, issues] at hrows
    by_cases hid : id = sessionId
    · subst hid
      by_cases hc : pending.challenge = c
      · simp [StepUpFact.isClaim, hc]
        omega
      · simp [StepUpFact.isClaim, hc]
        omega
    · rw [AuthStore.pendingCount] at hrows
      simp only [hid, if_false]
      simp [StepUpFact.isClaim]
      omega

/-- What is pending for a session is taken away. -/
theorem take (ht : Told calls first s stage h) (i : ι) (sessionId : String) :
    Told calls first (Access.perform (AuthAccess.takePending sessionId) s) stage
      (h ++ ((s.pendingStepUps.lookup sessionId).map fun pending =>
        StepUpFact.claimed i sessionId pending.challenge).toList) where
  finished j hj := ht.finished j (by simpa using hj)
  claimed j hj := by
    obtain ⟨id, c, hanswers, hmem⟩ := ht.claimed j hj
    exact ⟨id, c, hanswers, List.mem_append_left _ hmem⟩
  elevated j hj := by
    obtain ⟨id, c, hanswers, hmem⟩ := ht.elevated j (by simpa using hj)
    exact ⟨id, c, hanswers, List.mem_append_left _ hmem⟩
  once := by
    have hnone : ((s.pendingStepUps.lookup sessionId).map fun pending =>
        StepUpFact.claimed i sessionId pending.challenge).toList.filterMap
          StepUpFact.elevatedBy = [] := by
      cases s.pendingStepUps.lookup sessionId with
      | none => rfl
      | some pending => rfl
    rw [List.filterMap_append, hnone, List.append_nil]
    exact ht.once
  rows id c := by
    have hrows := ht.rows id c
    have hlookup : (Access.perform (AuthAccess.takePending sessionId) s).pendingStepUps =
        s.pendingStepUps.erase sessionId := rfl
    rw [AuthStore.pendingCount, claims, issues] at hrows
    rw [claims, issues, List.countP_append, List.count_append, AuthStore.pendingCount, hlookup,
      Table.lookup_erase_ite]
    by_cases hid : id = sessionId
    · subst hid
      cases hrow : s.pendingStepUps.lookup id with
      | none =>
          rw [hrow] at hrows
          simpa using hrows
      | some pending =>
          rw [hrow] at hrows
          by_cases hc : pending.challenge = c
          · simp [StepUpFact.isClaim, hc] at hrows ⊢
            omega
          · simp [StepUpFact.isClaim, hc] at hrows ⊢
            omega
    · have hother : Ne sessionId id := Ne.symm hid
      cases s.pendingStepUps.lookup sessionId with
      | none => simpa [hid] using hrows
      | some pending => simpa [hid, hother, StepUpFact.isClaim] using hrows

/-- A response that took its challenge away raises the session. -/
theorem elevate (ht : Told calls first s stage h) {i : ι} (hi : .elevated i ∉ h)
    (hclaimed : ∃ sessionId challenge, (calls i).answers = some (sessionId, challenge) ∧
      .claimed i sessionId challenge ∈ h) :
    Told calls first s (Function.update stage i .ended) (h ++ [.elevated i]) where
  finished j hj := by
    by_cases hji : j = i
    · rw [hji, Function.update_self]
    · rw [Function.update_of_ne hji]
      apply ht.finished j
      simpa [hji] using hj
  claimed j hj := by
    by_cases hji : j = i
    · rw [hji, Function.update_self] at hj
      cases hj
    · rw [Function.update_of_ne hji] at hj
      obtain ⟨id, c, hanswers, hmem⟩ := ht.claimed j hj
      exact ⟨id, c, hanswers, List.mem_append_left _ hmem⟩
  elevated j hj := by
    by_cases hji : j = i
    · obtain ⟨id, c, hanswers, hmem⟩ := hclaimed
      exact ⟨id, c, hji ▸ hanswers, List.mem_append_left _ (hji ▸ hmem)⟩
    · obtain ⟨id, c, hanswers, hmem⟩ := ht.elevated j (by simpa [hji] using hj)
      exact ⟨id, c, hanswers, List.mem_append_left _ hmem⟩
  once := by
    have hone : [StepUpFact.elevated i].filterMap StepUpFact.elevatedBy = [i] := rfl
    have hnew : i ∉ h.filterMap StepUpFact.elevatedBy := by
      rwa [mem_elevatedBy]
    rw [List.filterMap_append, hone, ← List.concat_eq_append]
    exact ht.once.concat hnew
  rows id c := by
    have hrows := ht.rows id c
    rw [claims, issues] at hrows
    rw [claims, issues, List.countP_append, List.count_append]
    simpa [StepUpFact.isClaim] using hrows

/-- No challenge raised its session more often than it was taken away. -/
theorem elevations_le (ht : Told calls first s stage h) (sessionId challenge : String) :
    elevations calls sessionId challenge h ≤ claims sessionId challenge h := by
  have hsubset : ((h.filterMap StepUpFact.elevatedBy).filter fun i =>
      (calls i).answers = some (sessionId, challenge)).map
        (StepUpFact.claimed · sessionId challenge) ⊆ h := by
    intro f hf
    obtain ⟨i, hi, rfl⟩ := List.mem_map.mp hf
    obtain ⟨hmem, hanswers⟩ := List.mem_filter.mp hi
    obtain ⟨id, c, hanswers', hclaimed⟩ := ht.elevated i (mem_elevatedBy.mp hmem)
    rw [of_decide_eq_true hanswers] at hanswers'
    obtain ⟨rfl, rfl⟩ := Prod.mk.inj (Option.some.inj hanswers')
    exact hclaimed
  have hnodup : (((h.filterMap StepUpFact.elevatedBy).filter fun i =>
      (calls i).answers = some (sessionId, challenge)).map
        (StepUpFact.claimed · sessionId challenge)).Nodup := by
    apply (ht.once.filter _).map
    intro i j hij
    simpa using hij
  have hall := (hnodup.subperm hsubset).countP_le (StepUpFact.isClaim sessionId challenge)
  rw [List.countP_map, List.countP_filter] at hall
  rw [claims, elevations]
  simpa [StepUpFact.isClaim, Function.comp_def] using hall

/-- Nothing is told of an access that leaves the challenges alone. -/
theorem aside (ht : Told calls first s stage h) {i : ι} {o : AuthAccess}
    (htouches : o.touchesPending = false)
    (haside : (o.elevates && (calls i).isResponse) = false) :
    Told calls first (Access.perform o s) stage (h ++ (stepUpFact calls s i o).toList) := by
  rw [stepUpFact_of_untouched htouches, haside, if_neg Bool.false_ne_true, Option.toList_none,
    List.append_nil]
  exact ht.of_pending (pendingStepUps_perform htouches)

theorem access (ht : Told calls first s stage h) {i : ι} {o : AuthAccess} {after : StepUpStage}
    (hnext : (calls i).discipline.next (stage i) o s = some after) :
    Told calls first (Access.perform o s) (Function.update stage i after)
      (h ++ (stepUpFact calls s i o).toList) := by
  obtain ⟨hother, rfl, htake⟩ | ⟨sessionId, challenge, hanswers, hresponse, hnext⟩ :=
    discipline_next hnext
  · rw [Function.update_eq_self]
    by_cases htouches : o.touchesPending = true
    · cases o with
      | putPending sessionId pending => exact ht.issue sessionId pending
      | takePending sessionId => exact absurd rfl (htake sessionId)
      | _ => simp [AuthAccess.touchesPending] at htouches
    · exact ht.aside (Bool.not_eq_true _ ▸ htouches) (by rw [hother, Bool.and_false])
  · have hbefore : stage i ≠ .ended → .elevated i ∉ h := fun hne hi => hne (ht.finished i hi)
    obtain ⟨hstage, rfl, hafter⟩ | ⟨hstage, rfl, hafter⟩ | ⟨hstage, htouches, hafter⟩ |
      ⟨hstage, haside, hafter⟩ := responseNext_cases hnext
    · apply (ht.aside rfl rfl).advance
      · intro hi
        refine absurd ?_ (hbefore (by simp [hstage]))
        simpa [stepUpFact, AuthAccess.elevates] using hi
      · intro hclaimed
        rw [hafter] at hclaimed
        by_cases hmatch : ((s.pendingStepUps.lookup sessionId).any fun pending =>
            pending.challenge = challenge) = true
        · simp [hmatch] at hclaimed
        · simp [hmatch] at hclaimed
    · apply (ht.take i sessionId).advance
      · intro hi
        refine absurd ?_ (hbefore (by simp [hstage]))
        simpa using hi
      · intro hclaimed
        refine ⟨sessionId, challenge, hanswers, List.mem_append_right _ ?_⟩
        rw [hafter] at hclaimed
        cases hrow : s.pendingStepUps.lookup sessionId with
        | none => simp [hrow] at hclaimed
        | some pending =>
            by_cases hmatch : pending.challenge = challenge
            · rw [Option.map_some, Option.toList_some, hmatch]
              exact List.mem_singleton_self _
            · simp [hrow, hmatch] at hclaimed
    · by_cases helevates : o.elevates = true
      · rw [stepUpFact_of_untouched htouches, helevates, hresponse, hafter, if_pos helevates]
        have hs : Told calls first (Access.perform o s) stage h :=
          ht.of_pending (pendingStepUps_perform htouches)
        exact hs.elevate (hbefore (by simp [hstage])) (ht.claimed i hstage)
      · rw [hafter, if_neg helevates, ← hstage, Function.update_eq_self]
        rw [Bool.not_eq_true] at helevates
        exact ht.aside htouches (by rw [helevates, Bool.false_and])
    · rw [hafter, ← hstage, Function.update_eq_self]
      exact ht.aside haside.1 (by rw [haside.2, Bool.false_and])

theorem step {m : StepUpPool ι} (ht : Told calls first m.store stage h)
    (hf : m.Follows (fun i => (calls i).discipline) stage) (event : PoolEvent ι AuthEnv) :
    ∃ after, (m.step event).Follows (fun i => (calls i).discipline) after ∧
      Told calls first (m.step event).store after (h ++ (seenStepUp calls m event).toList) := by
  cases hp : m.performed event with
  | none =>
      obtain ⟨hstore, hfollows, -⟩ := hf.silent hp
      have hseen : seenStepUp calls m event = none := by
        rw [seenStepUp, hp]
        rfl
      rw [hstore, hseen, Option.toList_none, List.append_nil]
      exact ⟨stage, hfollows, ht⟩
  | some access =>
      obtain ⟨i, o⟩ := access
      obtain ⟨after, hnext, hstore, hfollows, -⟩ := hf.access hp
      have hseen : seenStepUp calls m event = stepUpFact calls m.store i o := by
        rw [seenStepUp, hp]
        rfl
      rw [hstore, hseen]
      exact ⟨_, hfollows, ht.access hnext⟩

end Told

end Told

/-! ## What a response takes away -/

section Carried

variable {ι : Type} [DecidableEq ι] (calls : ι → StepUpCall)

/-- What a response is about to take, and what was taken, has the challenge the response
carries. -/
structure Carried (m : StepUpPool ι) (h : List (StepUpFact ι)) : Prop where
  standing : ∀ j sessionId pending, takesPending sessionId (m.handler j) = true →
    m.store.pendingStepUps.lookup sessionId = some pending →
    (calls j).answers = some (sessionId, pending.challenge)
  taken : ∀ i sessionId challenge, .claimed i sessionId challenge ∈ h →
    (calls i).answers = some (sessionId, challenge)

variable {calls} {m : StepUpPool ι} {stage : ι → StepUpStage} {h : List (StepUpFact ι)}

theorem atHand_of_takesPending {sessionId : String} {p : AuthM AuthAnswer}
    (hp : takesPending sessionId p = true) : p.atHand = some (.takePending sessionId) := by
  rw [takesPending] at hp
  split at hp
  · next id hid =>
    rw [hid, of_decide_eq_true hp]
  · cases hp

/-- Only a response that has made its comparison is about to take something away. -/
theorem matched_of_takesPending {call : StepUpCall} {sessionId : String} {p : AuthM AuthAnswer}
    {stage : StepUpStage} (hf : p.Follows call.discipline (fun _ _ => True) stage)
    (hp : takesPending sessionId p = true) :
    stage = .matched ∧ call.discipline.ready stage = true ∧
      ∃ challenge, call.answers = some (sessionId, challenge) := by
  obtain ⟨k, rfl⟩ := Atomic.eq_access_of_atHand (atHand_of_takesPending hp)
  obtain ⟨after, hnext, -⟩ := hf (AuthStore.new ∅)
  obtain ⟨-, -, htake⟩ | ⟨id, challenge, hanswers, hresponse, hnext⟩ := discipline_next hnext
  · exact absurd rfl (htake sessionId)
  · obtain ⟨-, ho, -⟩ | ⟨hstage, ho, -⟩ | ⟨-, ho, -⟩ | ⟨-, ho, -⟩ := responseNext_cases hnext
    · cases ho
    · obtain rfl := AuthAccess.takePending.inj ho
      refine ⟨hstage, ?_, challenge, hanswers⟩
      cases call with
      | respond process cx p => simp [StepUpCall.discipline, hstage]
      | start cx p => cases hresponse
      | other request => cases hresponse
    · cases ho
    · cases ho.1

namespace Carried

theorem silent (hc : Carried calls m h)
    (hf : m.Follows (fun i => (calls i).discipline) stage) {event : PoolEvent ι AuthEnv}
    (hp : m.performed event = none) : Carried calls (m.step event) h := by
  obtain ⟨hstore, hfollows, hhandlers⟩ := hf.silent hp
  refine ⟨?_, hc.taken⟩
  intro j sessionId pending htakes hrow
  rw [hstore] at hrow
  obtain hsame | hhalt | hready := hhandlers j
  · rw [hsame] at htakes
    exact hc.standing j sessionId pending htakes hrow
  · rw [hhalt] at htakes
    cases htakes
  · obtain ⟨-, hready', -⟩ := matched_of_takesPending (hfollows j) htakes
    rw [hready] at hready'
    cases hready'

/-- What is pending for a session when a response is about to take it was there before the
access, or the access has bound it. -/
theorem lookup_perform {s : AuthStore} {o : AuthAccess} {sessionId : String}
    {pending : PendingStepUp}
    (hrow : (Access.perform o s).pendingStepUps.lookup sessionId = some pending) :
    o.binds = some (sessionId, pending) ∨ s.pendingStepUps.lookup sessionId = some pending := by
  by_cases htouches : o.touchesPending = true
  · cases o with
    | putPending id bound =>
        change (s.pendingStepUps.insert id bound).lookup sessionId = some pending at hrow
        rcases Table.lookup_insert_cases hrow with ⟨rfl, rfl⟩ | hold
        · exact Or.inl rfl
        · exact Or.inr hold
    | takePending id =>
        change (s.pendingStepUps.erase id).lookup sessionId = some pending at hrow
        exact Or.inr (Table.lookup_of_erase hrow)
    | _ => simp [AuthAccess.touchesPending] at htouches
  · rw [Bool.not_eq_true] at htouches
    rw [pendingStepUps_perform htouches] at hrow
    exact Or.inr hrow

omit [DecidableEq ι] in
/-- What an access takes away, its handler was about to take. -/
theorem claimed_of_seen {s : AuthStore} {i j : ι} {o : AuthAccess} {sessionId challenge : String}
    (hmem : .claimed j sessionId challenge ∈ (stepUpFact calls s i o).toList) :
    j = i ∧ o = .takePending sessionId ∧
      ∃ pending, s.pendingStepUps.lookup sessionId = some pending ∧
        pending.challenge = challenge := by
  rw [Option.mem_toList] at hmem
  by_cases htouches : o.touchesPending = true
  · cases o with
    | putPending id bound => cases hmem
    | takePending id =>
        obtain ⟨pending, hrow, hfact⟩ := Option.map_eq_some_iff.mp hmem
        obtain ⟨rfl, rfl, rfl⟩ := StepUpFact.claimed.inj hfact
        exact ⟨rfl, rfl, pending, hrow, rfl⟩
    | _ => simp [AuthAccess.touchesPending] at htouches
  · rw [Bool.not_eq_true] at htouches
    rw [stepUpFact_of_untouched htouches] at hmem
    by_cases helevates : (o.elevates && (calls i).isResponse) = true
    · rw [if_pos helevates] at hmem
      cases hmem
    · rw [if_neg helevates] at hmem
      cases hmem

omit [DecidableEq ι] in
/-- A response that has just made its comparison carries the challenge that is pending. -/
theorem answers_of_matched {s : AuthStore} {o : AuthAccess} {call : StepUpCall}
    {before : StepUpStage} {sessionId challenge : String} {pending : PendingStepUp}
    (hnext : call.discipline.next before o s = some .matched)
    (hanswers : call.answers = some (sessionId, challenge))
    (hrow : (Access.perform o s).pendingStepUps.lookup sessionId = some pending) :
    call.answers = some (sessionId, pending.challenge) := by
  obtain ⟨hother, -, -⟩ | ⟨id, c, hanswers', -, hnext⟩ := discipline_next hnext
  · cases call with
    | respond process cx p => cases hother
    | start cx p => cases hanswers
    | other request => cases hanswers
  · rw [hanswers] at hanswers'
    obtain ⟨rfl, rfl⟩ := Prod.mk.inj (Option.some.inj hanswers')
    obtain ⟨-, rfl, hafter⟩ | ⟨-, -, hafter⟩ | ⟨-, -, hafter⟩ | ⟨-, -, hafter⟩ :=
      responseNext_cases hnext
    · change s.pendingStepUps.lookup sessionId = some pending at hrow
      rw [hrow] at hafter
      by_cases hmatch : pending.challenge = challenge
      · rw [hanswers, hmatch]
      · simp [hmatch] at hafter
    · by_cases hmatch : ((s.pendingStepUps.lookup sessionId).any fun pending =>
          pending.challenge = challenge) = true
      · simp [hmatch] at hafter
      · simp [hmatch] at hafter
    · by_cases helevates : o.elevates = true
      · simp [helevates] at hafter
      · simp [helevates] at hafter
    · cases hafter

theorem access (hc : Carried calls m h)
    (hf : m.Follows (fun i => (calls i).discipline) stage) {event : PoolEvent ι AuthEnv}
    (hundisturbed : Undisturbed calls m event) {i : ι} {o : AuthAccess}
    (hp : m.performed event = some (i, o)) :
    Carried calls (m.step event) (h ++ (stepUpFact calls m.store i o).toList) := by
  obtain ⟨after, hnext, hstore, hfollows, hothers⟩ := hf.access hp
  have hhand : (m.handler i).atHand = some o := Pool.atHand_of_performed hp
  constructor
  · intro j sessionId pending htakes hrow
    rw [hstore] at hrow
    by_cases hji : j = i
    · rw [hji] at htakes ⊢
      obtain ⟨hmatched, -, challenge, hanswers⟩ := matched_of_takesPending (hfollows i) htakes
      rw [Function.update_self] at hmatched
      rw [hmatched] at hnext
      exact answers_of_matched hnext hanswers hrow
    · rw [hothers j hji] at htakes
      obtain hbinds | hrow := lookup_perform hrow
      · apply hundisturbed (sessionId, pending) _ j htakes
        rw [hp]
        exact hbinds
      · exact hc.standing j sessionId pending htakes hrow
  · intro j sessionId challenge hmem
    obtain hmem | hmem := List.mem_append.mp hmem
    · exact hc.taken j sessionId challenge hmem
    · obtain ⟨rfl, rfl, pending, hrow, rfl⟩ := claimed_of_seen hmem
      apply hc.standing j sessionId pending _ hrow
      rw [takesPending, hhand]
      exact decide_eq_true rfl

theorem step (hc : Carried calls m h) (hf : m.Follows (fun i => (calls i).discipline) stage)
    {event : PoolEvent ι AuthEnv} (hundisturbed : Undisturbed calls m event) :
    Carried calls (m.step event) (h ++ (seenStepUp calls m event).toList) := by
  rw [seenStepUp]
  cases hp : m.performed event with
  | none =>
      rw [Option.bind_none, Option.toList_none, List.append_nil]
      exact hc.silent hf hp
  | some access =>
      obtain ⟨i, o⟩ := access
      exact hc.access hf hundisturbed hp

end Carried

end Carried

/-! ## Runs -/

section Runs

variable {ι : Type} [DecidableEq ι] (L : AuthLibs) (cfg : AuthConfig) (first : AuthStore)
  (calls : ι → StepUpCall)

omit [DecidableEq ι] in
theorem follows_stepUps :
    (stepUps L cfg first calls).Follows (fun i => (calls i).discipline)
      fun i => (calls i).first :=
  fun i => follows_handler (calls i)

theorem told_stepUps :
    Told calls first (stepUps L cfg first calls).store (fun i => (calls i).first) [] where
  finished i hi := by simp at hi
  claimed i hi := by
    cases hcall : calls i with
    | respond process cx p => simp [hcall, StepUpCall.first] at hi
    | start cx p => simp [hcall, StepUpCall.first] at hi
    | other request => simp [hcall, StepUpCall.first] at hi
  elevated i hi := by simp at hi
  once := List.nodup_nil
  rows sessionId challenge := by
    simp [claims, issues, stepUps, Pool.start]

omit [DecidableEq ι] in
/-- A response is not about to take anything before it has compared. -/
theorem carried_stepUps : Carried calls (stepUps L cfg first calls) [] where
  standing j sessionId pending htakes _ := by
    obtain ⟨hmatched, -, -⟩ :=
      matched_of_takesPending (follows_stepUps L cfg first calls j) htakes
    cases hcall : calls j with
    | respond process cx p => simp [hcall, StepUpCall.first] at hmatched
    | start cx p => simp [hcall, StepUpCall.first] at hmatched
    | other request => simp [hcall, StepUpCall.first] at hmatched
  taken i sessionId challenge hi := by simp at hi

/-- What holds of a pool and of what was seen of it. -/
def StepUpsTold (m : StepUpPool ι) (h : List (StepUpFact ι)) : Prop :=
  ∃ stage, m.Follows (fun i => (calls i).discipline) stage ∧ Told calls first m.store stage h

theorem told_exec (events : List (PoolEvent ι AuthEnv)) :
    StepUpsTold first calls ((stepUps L cfg first calls).exec events)
      (stepUpHistory calls (stepUps L cfg first calls) events) := by
  have hstep : ∀ (m : StepUpPool ι) event h, True → StepUpsTold first calls m h →
      StepUpsTold first calls (m.step event) (h ++ (seenStepUp calls m event).toList) := by
    rintro m event h - ⟨stage, hf, ht⟩
    exact ht.step hf event
  have hstart : StepUpsTold first calls (stepUps L cfg first calls) [] :=
    ⟨_, follows_stepUps L cfg first calls, told_stepUps L cfg first calls⟩
  exact Run.history_invariant hstep hstart (Run.meets_of_forall fun _ _ => trivial)

theorem carried_exec {events : List (PoolEvent ι AuthEnv)}
    (hevents : Run.Meets Pool.step (Undisturbed calls) (stepUps L cfg first calls) events) :
    Carried calls ((stepUps L cfg first calls).exec events)
      (stepUpHistory calls (stepUps L cfg first calls) events) := by
  have hstep : ∀ (m : StepUpPool ι) event h, Undisturbed calls m event →
      StepUpsTold first calls m h ∧ Carried calls m h →
      StepUpsTold first calls (m.step event) (h ++ (seenStepUp calls m event).toList) ∧
        Carried calls (m.step event) (h ++ (seenStepUp calls m event).toList) := by
    rintro m event h hundisturbed ⟨⟨stage, hf, ht⟩, hc⟩
    exact ⟨ht.step hf event, hc.step hf hundisturbed⟩
  have hstart : StepUpsTold first calls (stepUps L cfg first calls) [] ∧
      Carried calls (stepUps L cfg first calls) [] :=
    ⟨⟨_, follows_stepUps L cfg first calls, told_stepUps L cfg first calls⟩,
      carried_stepUps L cfg first calls⟩
  exact (Run.history_invariant hstep hstart hevents).2

/-- A response that raises its session took its challenge away before. -/
theorem claimed_before_elevated {events : List (PoolEvent ι AuthEnv)} {i : ι}
    {past later : List (StepUpFact ι)}
    (h : stepUpHistory calls (stepUps L cfg first calls) events =
      past ++ .elevated i :: later) :
    ∃ sessionId challenge, (calls i).answers = some (sessionId, challenge) ∧
      .claimed i sessionId challenge ∈ past := by
  obtain ⟨before, hbefore⟩ := Run.history_split h
  obtain ⟨stage, -, ht⟩ := told_exec L cfg first calls before
  rw [stepUpHistory, hbefore] at ht
  obtain ⟨sessionId, challenge, hanswers, hclaimed⟩ := ht.elevated i (by simp)
  refine ⟨sessionId, challenge, hanswers, ?_⟩
  simpa using hclaimed

/-- Over any run: a challenge raises its session no more often than it was issued for it, and
a response raises its session only after it took away a pending step-up with the challenge it
carries.  Where no step-up is started between a response's comparison and its taking, only
responses that carry a challenge take it away. -/
theorem step_up_challenges (events : List (PoolEvent ι AuthEnv)) :
    (∀ sessionId challenge,
      elevations calls sessionId challenge
          (stepUpHistory calls (stepUps L cfg first calls) events) ≤
        issues sessionId challenge (stepUpHistory calls (stepUps L cfg first calls) events) +
          first.pendingCount sessionId challenge) ∧
      (∀ i past later, stepUpHistory calls (stepUps L cfg first calls) events =
          past ++ .elevated i :: later →
        ∃ sessionId challenge, (calls i).answers = some (sessionId, challenge) ∧
          .claimed i sessionId challenge ∈ past) ∧
      (Run.Meets Pool.step (Undisturbed calls) (stepUps L cfg first calls) events →
        ∀ i sessionId challenge, .claimed i sessionId challenge ∈
            stepUpHistory calls (stepUps L cfg first calls) events →
          (calls i).answers = some (sessionId, challenge)) := by
  obtain ⟨stage, -, ht⟩ := told_exec L cfg first calls events
  refine ⟨?_, fun _ _ _ => claimed_before_elevated L cfg first calls,
    fun hevents => (carried_exec L cfg first calls hevents).taken⟩
  intro sessionId challenge
  have helevations := ht.elevations_le sessionId challenge
  have hrows := ht.rows sessionId challenge
  omega

end Runs

/-! ## A step-up that is started during a response -/

namespace Sample

/-- A session of the holder that was not raised yet. -/
def plainSession : Session :=
  ⟨"s", keyHolder, "", .authenticated, 1000, 1000, none, some 90000, false, none, none, ["did"],
    "aal1", none, none⟩

def stepUpStore : AuthStore :=
  { AuthStore.new holderAcl with
    sessions := { SessionStore.new with
      sessions := (∅ : Table String Session).insert "s" plainSession } }

/-- The holder approves the challenge of the first step-up. -/
def approval : StepUpCall :=
  .respond 0 holderCx ⟨some "s", "c0", keyHolder, .approved, none, none⟩

/-- Two step-ups of one session, and a response to the first. -/
def stepUpCalls : Fin 3 → StepUpCall
  | 2 => approval
  | _ => .start holderCx ⟨"s", none⟩

/-- Request `i` takes `n` steps; a challenge that it draws has its number. -/
def stepUpSteps (i : Fin 3) (n : ℕ) : List (PoolEvent (Fin 3) AuthEnv) :=
  List.replicate n (.run i ⟨⟨1000, "", "", ""⟩, "", s!"c{i.val}"⟩)

def stepUpPool : StepUpPool (Fin 3) :=
  stepUps authLibs authConfig stepUpStore stepUpCalls

/-- The second step-up is started while the response has compared its challenge. -/
def overtaken : List (PoolEvent (Fin 3) AuthEnv) :=
  stepUpSteps 0 9 ++ stepUpSteps 2 1 ++ stepUpSteps 1 9 ++ stepUpSteps 2 20

/-- The second step-up is started after the response. -/
def inTurn : List (PoolEvent (Fin 3) AuthEnv) :=
  stepUpSteps 0 9 ++ stepUpSteps 2 20 ++ stepUpSteps 1 9

end Sample

open DidHosting.Auth.Sample in
/-- The response has compared its challenge, and takes away the one of the second step-up. -/
theorem newer_challenge_taken :
    (stepUpCalls 2).answers = some ("s", "c0") ∧
      stepUpHistory stepUpCalls stepUpPool overtaken =
        [.issued "s" "c0", .issued "s" "c1", .claimed 2 "s" "c1"] ∧
      ((stepUpPool.exec overtaken).store.pendingStepUps.lookup "s").isNone = true := by
  exact ⟨rfl, by decide +kernel⟩

open DidHosting.Auth.Sample in
/-- The second step-up is started after the response: each challenge is where it was put. -/
theorem step_up_challenges_undisturbed :
    Run.Meets Pool.step (Undisturbed stepUpCalls) stepUpPool inTurn ∧
      .claimed 2 "s" "c0" ∈ stepUpHistory stepUpCalls stepUpPool inTurn ∧
      .elevated 2 ∈ stepUpHistory stepUpCalls stepUpPool inTurn ∧
      (stepUpCalls 2).answers = some ("s", "c0") := by
  have ⟨hmeets, hclaimed, helevated⟩ :
      Run.Meets Pool.step (Undisturbed stepUpCalls) stepUpPool inTurn ∧
      .claimed 2 "s" "c0" ∈ stepUpHistory stepUpCalls stepUpPool inTurn ∧
      .elevated 2 ∈ stepUpHistory stepUpCalls stepUpPool inTurn := by
    decide +kernel
  obtain ⟨-, -, htaken⟩ :=
    step_up_challenges authLibs authConfig stepUpStore stepUpCalls inTurn
  exact ⟨hmeets, hclaimed, helevated, htaken hmeets 2 "s" "c0" hclaimed⟩

end Auth

end DidHosting
