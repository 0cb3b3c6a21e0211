import DidHosting.Auth.Session

/-!
# Session indices in lockstep

Each operation on sessions writes or removes up to three rows.  This module says when the
three agree, and which operations keep them so: all but an elevation of a session that has
a refresh token, and a session that is stored with another DID or refresh token than the
one it replaces.
-/

namespace DidHosting

namespace Auth

/-! ## Agreement of the rows -/

/-- The rows of sessions, refresh tokens and DIDs agree. -/
structure Lockstep (s : SessionStore) : Prop where
  stored : ∀ id session, s.sessions.lookup id = some session → session.sessionId = id
  /-- A refresh token leads to the session whose token it is. -/
  current : ∀ token id, s.refresh.lookup token = some id →
    ∃ session, s.sessions.lookup id = some session ∧ session.refreshToken = some token
  /-- The refresh token of a session leads to it. -/
  indexed : ∀ id session token, s.sessions.lookup id = some session →
    session.refreshToken = some token → s.refresh.lookup token = some id
  /-- A row of a DID leads to a session of that DID. -/
  owned : ∀ key id, s.sessionDids.lookup key = some id →
    ∃ session, s.sessions.lookup id = some session ∧ key = sessionDidKey session.did id

theorem lockstep_new : Lockstep SessionStore.new := by
  constructor
  · intro id session h
    cases h
  · intro token id h
    cases h
  · intro id session token h
    cases h
  · intro key id h
    cases h

/-- A refresh token that was superseded leads nowhere. -/
theorem Lockstep.superseded {s : SessionStore} (h : Lockstep s) {token id : String}
    (hnot : ∀ session, s.sessions.lookup id = some session →
      session.refreshToken ≠ some token) : s.refresh.lookup token ≠ some id := by
  intro hrow
  obtain ⟨session, hsession, htoken⟩ := h.current token id hrow
  exact hnot session hsession htoken

/-! ## Writing and removing a session -/

section

variable {s : SessionStore} {session : Session} {copied : Option Session} {why : SessionChange}

/-- The store after `store_session`. -/
def SessionStore.withSession (s : SessionStore) (copied : Option Session) (session : Session)
    (why : SessionChange) : SessionStore :=
  (s.perform (.putSession copied session why)).perform
    (.putSessionDid (sessionDidKey session.did session.sessionId) session.sessionId)

theorem withSession_sessions (id : String) :
    (s.withSession copied session why).sessions.lookup id =
      if id = session.sessionId then some session else s.sessions.lookup id :=
  Table.lookup_insert_ite _ _ _ _

theorem withSession_refresh : (s.withSession copied session why).refresh = s.refresh :=
  rfl

theorem withSession_sessionDids (key : String) :
    (s.withSession copied session why).sessionDids.lookup key =
      if key = sessionDidKey session.did session.sessionId then some session.sessionId
      else s.sessionDids.lookup key :=
  Table.lookup_insert_ite _ _ _ _

/-- What is known of the DID rows once a session is stored: its DID is the one of the
session it replaces. -/
theorem withSession_owned (h : Lockstep s)
    (hdid : ∀ old, s.sessions.lookup session.sessionId = some old → old.did = session.did)
    {key id : String} (hrow : (s.withSession copied session why).sessionDids.lookup key = some id) :
    ∃ t, (s.withSession copied session why).sessions.lookup id = some t ∧
      key = sessionDidKey t.did id := by
  rw [withSession_sessionDids] at hrow
  by_cases hkey : key = sessionDidKey session.did session.sessionId
  · rw [if_pos hkey] at hrow
    obtain rfl := Option.some.inj hrow
    refine ⟨session, ?_, hkey⟩
    rw [withSession_sessions, if_pos rfl]
  · rw [if_neg hkey] at hrow
    obtain ⟨t, ht, hkeyt⟩ := h.owned key id hrow
    by_cases hid : id = session.sessionId
    · subst hid
      rw [hdid t ht] at hkeyt
      exact absurd hkeyt hkey
    · refine ⟨t, ?_, hkeyt⟩
      rw [withSession_sessions, if_neg hid]
      exact ht

theorem lockstep_withSession (h : Lockstep s)
    (hdid : ∀ old, s.sessions.lookup session.sessionId = some old → old.did = session.did)
    (htoken : ∀ old, s.sessions.lookup session.sessionId = some old →
      old.refreshToken = session.refreshToken)
    (hnew : s.sessions.lookup session.sessionId = none → session.refreshToken = none) :
    Lockstep (s.withSession copied session why) := by
  constructor
  · intro id t ht
    rw [withSession_sessions] at ht
    by_cases hid : id = session.sessionId
    · rw [if_pos hid] at ht
      obtain rfl := Option.some.inj ht
      exact hid.symm
    · rw [if_neg hid] at ht
      exact h.stored id t ht
  · intro token id hrow
    rw [withSession_refresh] at hrow
    obtain ⟨t, ht, htokent⟩ := h.current token id hrow
    rw [withSession_sessions]
    by_cases hid : id = session.sessionId
    · subst hid
      refine ⟨session, if_pos rfl, ?_⟩
      rw [← htoken t ht]
      exact htokent
    · refine ⟨t, ?_, htokent⟩
      rw [if_neg hid]
      exact ht
  · intro id t token ht htokent
    rw [withSession_sessions] at ht
    rw [withSession_refresh]
    by_cases hid : id = session.sessionId
    · rw [if_pos hid] at ht
      obtain rfl := Option.some.inj ht
      rw [hid]
      cases hold : s.sessions.lookup session.sessionId with
      | none =>
          rw [hnew hold] at htokent
          cases htokent
      | some old =>
          apply h.indexed _ old token hold
          rw [htoken old hold]
          exact htokent
    · rw [if_neg hid] at ht
      exact h.indexed id t token ht htokent
  · intro key id hrow
    exact withSession_owned h hdid hrow

/-- A session with a new refresh token in place of one that had none. -/
theorem lockstep_indexed {token : String} (h : Lockstep s)
    (hdid : ∀ old, s.sessions.lookup session.sessionId = some old → old.did = session.did)
    (hnone : ∀ old, s.sessions.lookup session.sessionId = some old → old.refreshToken = none)
    (hfresh : s.refresh.lookup token = none) (htoken : session.refreshToken = some token) :
    Lockstep ((s.withSession copied session why).perform (.putRefresh token session.sessionId)) := by
  have hrefresh : ∀ token', ((s.withSession copied session why).perform
      (.putRefresh token session.sessionId)).refresh.lookup token' =
        if token' = token then some session.sessionId else s.refresh.lookup token' := by
    intro token'
    exact Table.lookup_insert_ite _ _ _ _
  have hsessions : ∀ id, ((s.withSession copied session why).perform
      (.putRefresh token session.sessionId)).sessions.lookup id =
        if id = session.sessionId then some session else s.sessions.lookup id := by
    intro id
    exact Table.lookup_insert_ite _ _ _ _
  constructor
  · intro id t ht
    rw [hsessions] at ht
    by_cases hid : id = session.sessionId
    · rw [if_pos hid] at ht
      obtain rfl := Option.some.inj ht
      exact hid.symm
    · rw [if_neg hid] at ht
      exact h.stored id t ht
  · intro token' id hrow
    rw [hrefresh] at hrow
    rw [hsessions]
    by_cases hsame : token' = token
    · rw [if_pos hsame] at hrow
      obtain rfl := Option.some.inj hrow
      refine ⟨session, if_pos rfl, ?_⟩
      rw [hsame]
      exact htoken
    · rw [if_neg hsame] at hrow
      obtain ⟨t, ht, htokent⟩ := h.current token' id hrow
      have hid : id ≠ session.sessionId := by
        rintro rfl
        rw [hnone t ht] at htokent
        cases htokent
      refine ⟨t, ?_, htokent⟩
      rw [if_neg hid]
      exact ht
  · intro id t token' ht htokent
    rw [hsessions] at ht
    rw [hrefresh]
    by_cases hid : id = session.sessionId
    · rw [if_pos hid] at ht
      obtain rfl := Option.some.inj ht
      rw [htoken] at htokent
      obtain rfl := Option.some.inj htokent
      rw [if_pos rfl, hid]
    · rw [if_neg hid] at ht
      have hrow := h.indexed id t token' ht htokent
      have hsame : token' ≠ token := by
        rintro rfl
        rw [hfresh] at hrow
        cases hrow
      rw [if_neg hsame]
      exact hrow
  · intro key id hrow
    exact withSession_owned h hdid hrow

theorem lockstep_removed {t : SessionStore} {id : String} (h : Lockstep s)
    (hid : s.sessions.lookup id = some session)
    (hsessions : ∀ id', t.sessions.lookup id' = if id' = id then none else s.sessions.lookup id')
    (hrefresh : ∀ token, t.refresh.lookup token =
      if session.refreshToken = some token then none else s.refresh.lookup token)
    (hdids : ∀ key, t.sessionDids.lookup key =
      if key = sessionDidKey session.did id then none else s.sessionDids.lookup key) :
    Lockstep t := by
  constructor
  · intro id' t' ht'
    rw [hsessions] at ht'
    by_cases hsame : id' = id
    · rw [if_pos hsame] at ht'
      cases ht'
    · rw [if_neg hsame] at ht'
      exact h.stored id' t' ht'
  · intro token id' hrow
    rw [hrefresh] at hrow
    by_cases htoken : session.refreshToken = some token
    · rw [if_pos htoken] at hrow
      cases hrow
    · rw [if_neg htoken] at hrow
      obtain ⟨t', ht', htoken'⟩ := h.current token id' hrow
      have hsame : id' ≠ id := by
        rintro rfl
        rw [hid] at ht'
        obtain rfl := Option.some.inj ht'
        exact htoken htoken'
      refine ⟨t', ?_, htoken'⟩
      rw [hsessions, if_neg hsame]
      exact ht'
  · intro id' t' token ht' htoken'
    rw [hsessions] at ht'
    by_cases hsame : id' = id
    · rw [if_pos hsame] at ht'
      cases ht'
    · rw [if_neg hsame] at ht'
      have hrow := h.indexed id' t' token ht' htoken'
      have htoken : session.refreshToken ≠ some token := by
        intro htoken
        have hrow' := h.indexed id session token hid htoken
        rw [hrow] at hrow'
        exact hsame (Option.some.inj hrow')
      rw [hrefresh, if_neg htoken]
      exact hrow
  · intro key id' hrow
    rw [hdids] at hrow
    by_cases hkey : key = sessionDidKey session.did id
    · rw [if_pos hkey] at hrow
      cases hrow
    · rw [if_neg hkey] at hrow
      obtain ⟨t', ht', hkey'⟩ := h.owned key id' hrow
      have hsame : id' ≠ id := by
        rintro rfl
        rw [hid] at ht'
        obtain rfl := Option.some.inj ht'
        exact hkey hkey'
      refine ⟨t', ?_, hkey'⟩
      rw [hsessions, if_neg hsame]
      exact ht'

end

/-! ## The operations -/

section

variable {s : SessionStore} {ok : SessionEnv → Prop}

/-- What an operation is to leave, however it ends. -/
abbrev Keeps (ok : SessionEnv → Prop) {α : Type} (p : SessionM α) (s : SessionStore) : Prop :=
  p.After ok (fun _ => Lockstep) (fun _ => Lockstep) s

/-- The session may be stored: it has the DID and the refresh token of the one it replaces,
or replaces none and has no refresh token. -/
def SessionStore.mayStore (s : SessionStore) (session : Session) : Bool :=
  match s.sessions.lookup session.sessionId with
  | some old => old.did = session.did && old.refreshToken = session.refreshToken
  | none => session.refreshToken = none

theorem lockstep_of_mayStore {session : Session} {copied : Option Session} {why : SessionChange}
    (h : Lockstep s) (hmay : s.mayStore session = true) :
    Lockstep (s.withSession copied session why) := by
  unfold SessionStore.mayStore at hmay
  cases hold : s.sessions.lookup session.sessionId with
  | none =>
      simp only [hold] at hmay
      have hnone : session.refreshToken = none := of_decide_eq_true hmay
      apply lockstep_withSession h
      · intro old hsome
        rw [hold] at hsome
        cases hsome
      · intro old hsome
        rw [hold] at hsome
        cases hsome
      · intro _
        exact hnone
  | some old =>
      simp only [hold, Bool.and_eq_true, decide_eq_true_eq] at hmay
      apply lockstep_withSession h
      · intro old' hsome
        rw [hold] at hsome
        obtain rfl := Option.some.inj hsome
        exact hmay.1
      · intro old' hsome
        rw [hold] at hsome
        obtain rfl := Option.some.inj hsome
        exact hmay.2
      · intro hnone
        rw [hold] at hnone
        cases hnone

theorem keeps_storeSession {session : Session} {copied : Option Session} {why : SessionChange}
    (h : Lockstep s) (hmay : s.mayStore session = true) :
    Keeps ok (storeSession copied session why) s := by
  unfold storeSession
  refine Atomic.after_call_bind ?_
  exact lockstep_of_mayStore h hmay

theorem keeps_touchLastSeen {session : Session} {now : ℕ} (h : Lockstep s)
    (hmay : s.mayStore session = true) : Keeps ok (touchLastSeen session now) s := by
  unfold touchLastSeen
  by_cases hfresh : now < session.lastSeen + lastSeenGranularitySecs
  · rw [if_pos hfresh]
    exact h
  · rw [if_neg hfresh]
    refine Atomic.after_bind ?_
    exact keeps_storeSession h hmay

/-- The rows of refresh tokens without the one of a session. -/
def SessionStore.refreshWithout (s : SessionStore) (session : Session) : Table String String :=
  match session.refreshToken with
  | some token => s.refresh.erase token
  | none => s.refresh

theorem refreshWithout_lookup {session : Session} (token : String) :
    (s.refreshWithout session).lookup token =
      if session.refreshToken = some token then none else s.refresh.lookup token := by
  unfold SessionStore.refreshWithout
  cases htoken : session.refreshToken with
  | none => rw [if_neg (nofun : ¬ none = some token)]
  | some token' =>
      change (s.refresh.erase token').lookup token = _
      rw [Table.lookup_erase_ite]
      by_cases hsame : token = token'
      · rw [if_pos hsame, if_pos (congrArg some hsame.symm)]
      · rw [if_neg hsame, if_neg fun heq => hsame (Option.some.inj heq).symm]

theorem after_removeRefreshOf {α : Type} {session : Session} {next : SessionM α}
    {Q : α → SessionStore → Prop} {E : AuthError → SessionStore → Prop}
    (h : next.After ok Q E { s with refresh := s.refreshWithout session }) :
    (removeRefreshOf session >>= fun _ => next).After ok Q E s := by
  unfold removeRefreshOf
  unfold SessionStore.refreshWithout at h
  cases htoken : session.refreshToken with
  | none =>
      simp only [htoken] at h
      exact h
  | some token =>
      simp only [htoken] at h
      exact h

/-- The store without the rows of a session, whatever the log says. -/
theorem lockstep_without {session : Session} {id : String} {log : List SessionFact}
    (h : Lockstep s) (hid : s.sessions.lookup id = some session) :
    Lockstep ⟨s.sessions.erase id, s.refreshWithout session,
      s.sessionDids.erase (sessionDidKey session.did id), log⟩ := by
  apply lockstep_removed h hid
  · intro id'
    exact Table.lookup_erase_ite _ _ _
  · intro token
    exact refreshWithout_lookup token
  · intro key
    exact Table.lookup_erase_ite _ _ _

theorem keeps_deleteSession {id : String} (h : Lockstep s) : Keeps ok (deleteSession id) s := by
  unfold deleteSession
  refine Atomic.after_call_bind ?_
  cases hid : s.sessions.lookup id with
  | none => exact h
  | some session =>
      change (removeRefreshOf session >>= fun _ => _).After ok _ _ s
      apply after_removeRefreshOf
      refine Atomic.after_call_bind ?_
      exact lockstep_without h hid

theorem keeps_cleanupAll {now challengeTtl : ℕ} {entries : List (String × Session)}
    (h : Lockstep s) (hkeys : (entries.map (·.1)).Nodup)
    (hentries : ∀ e ∈ entries, s.sessions.lookup e.1 = some e.2) :
    Keeps ok (cleanupAll now challengeTtl entries) s := by
  induction entries generalizing s with
  | nil => exact h
  | cons e rest ih =>
      obtain ⟨key, session⟩ := e
      obtain ⟨hkey, hrest⟩ := List.nodup_cons.mp hkeys
      have hid : s.sessions.lookup key = some session := hentries _ List.mem_cons_self
      have hsame : session.sessionId = key := h.stored key session hid
      unfold cleanupAll
      by_cases hexpired : session.isExpired now challengeTtl = true
      · rw [if_pos hexpired]
        refine Atomic.after_call_bind ?_
        change (removeRefreshOf session >>= fun _ => _).After ok _ _ _
        apply after_removeRefreshOf
        refine Atomic.after_call_bind ?_
        apply ih
        · rw [hsame]
          exact lockstep_without h hid
        · exact hrest
        · intro e he
          have hne : e.1 ≠ key := by
            intro heq
            exact hkey (List.mem_map.mpr ⟨e, he, heq⟩)
          change (s.sessions.erase key).lookup e.1 = some e.2
          rw [Table.lookup_erase_ite, if_neg hne]
          exact hentries e (List.mem_cons_of_mem _ he)
      · rw [if_neg hexpired]
        apply ih h hrest
        intro e he
        exact hentries e (List.mem_cons_of_mem _ he)

theorem keeps_cleanupExpiredSessions {challengeTtl : ℕ} (h : Lockstep s) :
    Keeps ok (cleanupExpiredSessions challengeTtl) s := by
  unfold cleanupExpiredSessions
  refine Atomic.after_call_bind ?_
  refine Atomic.after_draw_bind ?_
  intro env _
  apply keeps_cleanupAll h
  · exact Table.keys_rows_nodup _
  · intro e he
    exact Table.mem_rows.mp he

theorem keeps_demoteAll {subject : String} {ids : List String} {n : ℕ} (h : Lockstep s) :
    Keeps ok (demoteAll subject ids n) s := by
  induction ids generalizing s n with
  | nil => exact h
  | cons id rest ih =>
      unfold demoteAll
      refine Atomic.after_call_bind ?_
      cases hid : s.sessions.lookup id with
      | none => exact ih h
      | some session =>
          by_cases helevated : session.elevatedWithoutPasskey subject = true
          · change (if session.elevatedWithoutPasskey subject = true then _ else _ :
              SessionM ℕ).After ok _ _ s
            rw [if_pos helevated]
            refine Atomic.after_bind ?_
            have hsame : session.sessionId = id := h.stored id session hid
            refine (keeps_storeSession h ?_).mono ?_ ?_
            · unfold SessionStore.mayStore
              change (match s.sessions.lookup session.sessionId with
                | some old => _
                | none => _) = true
              rw [hsame, hid]
              simp [Session.demoted]
            · intro _ t ht
              exact ih ht
            · intro _ t ht
              exact ht
          · change (if session.elevatedWithoutPasskey subject = true then _ else _ :
              SessionM ℕ).After ok _ _ s
            rw [if_neg helevated]
            exact ih h

theorem keeps_demoteNonPasskeyStepUpSessions {subject : String} (h : Lockstep s) :
    Keeps ok (demoteNonPasskeyStepUpSessions subject) s := by
  unfold demoteNonPasskeyStepUpSessions
  refine Atomic.after_call_bind ?_
  exact keeps_demoteAll h

/-- The session may get a new refresh token: it has the DID of the one it replaces, which
had no refresh token. -/
def SessionStore.mayIndex (s : SessionStore) (session : Session) : Bool :=
  (s.sessions.lookup session.sessionId).all fun old =>
    old.did = session.did && old.refreshToken = none

/-- A session is stored with a new refresh token, and the row that leads to it. -/
theorem keeps_indexed {α : Type} {session : Session} {copied : Option Session}
    {why : SessionChange} {token id : String} {next : SessionM α} (h : Lockstep s)
    (hmay : s.mayIndex session = true) (htoken : session.refreshToken = some token)
    (hid : session.sessionId = id) (hfresh : s.refresh.lookup token = none)
    (hnext : ∀ t, Lockstep t → Keeps ok next t) :
    Keeps ok (storeSession copied session why >>= fun _ =>
      storeRefreshIndex token id >>= fun _ => next) s := by
  subst hid
  refine Atomic.after_bind ?_
  refine Atomic.after_call_bind ?_
  change (storeRefreshIndex token session.sessionId >>= fun _ => next).After ok _ _
    (s.withSession copied session why)
  refine Atomic.after_call_bind ?_
  have hold : ∀ old, s.sessions.lookup session.sessionId = some old →
      old.did = session.did ∧ old.refreshToken = none := by
    intro old hsome
    unfold SessionStore.mayIndex at hmay
    rw [hsome] at hmay
    simpa using hmay
  apply hnext
  apply lockstep_indexed h (fun old hsome => (hold old hsome).1)
    (fun old hsome => (hold old hsome).2) hfresh htoken

theorem after_generateTokens {jwt : JwtKeys} {did sessionId : String} {role : Role}
    {accessExpiry refreshExpiry : ℕ} {override : Option (List String × String)}
    {Q : Tokens → SessionStore → Prop} {E : AuthError → SessionStore → Prop}
    (h : ∀ env tokens, ok env → tokens.refreshToken = env.refreshToken → Q tokens s)
    (herr : ∀ e, E e s) :
    (generateTokens jwt did sessionId role accessExpiry refreshExpiry override).After ok Q E s := by
  unfold generateTokens newClaims
  refine Atomic.after_bind ?_
  refine Atomic.after_draw_bind ?_
  intro env₁ _
  refine Atomic.after_draw_bind ?_
  intro env₂ _
  refine Atomic.after_bind (Atomic.after_check ?_ fun e _ => herr e)
  intro accessToken _
  refine Atomic.after_draw_bind ?_
  intro env hok
  refine Atomic.after_draw_bind ?_
  intro env₃ _
  exact h env _ hok rfl

theorem keeps_clock {α : Type} {f : ℕ → α} (h : Lockstep s) :
    Keeps ok (clock >>= fun now => pure (f now)) s := by
  refine Atomic.after_draw_bind ?_
  intro env _
  exact h

theorem keeps_finalizeChallengeSession {jwt : JwtKeys} {session : Session} {role : Role}
    {accessExpiry refreshExpiry : ℕ} (h : Lockstep s) (hmay : s.mayIndex session = true)
    (hfresh : ∀ env, ok env → s.refresh.lookup env.refreshToken = none) :
    Keeps ok (finalizeChallengeSession jwt session role accessExpiry refreshExpiry) s := by
  unfold finalizeChallengeSession
  refine Atomic.after_bind (after_generateTokens ?_ fun _ => h)
  intro env tokens hok htokens
  have hmay' : s.mayIndex (session.finalized tokens) = true := hmay
  refine keeps_indexed h hmay' rfl rfl ?_ ?_
  · rw [htokens]
    exact hfresh env hok
  · intro t ht
    exact keeps_clock ht

theorem keeps_createAuthenticatedSession {jwt : JwtKeys} {did : String} {role : Role}
    {accessExpiry refreshExpiry : ℕ} {key : Option String}
    {override : Option (List String × String)} (h : Lockstep s)
    (hnew : ∀ env, ok env → s.sessions.lookup env.sessionId = none)
    (hfresh : ∀ env, ok env → s.refresh.lookup env.refreshToken = none) :
    Keeps ok (createAuthenticatedSession jwt did role accessExpiry refreshExpiry key override)
      s := by
  unfold createAuthenticatedSession
  refine Atomic.after_draw_bind ?_
  intro env hok
  refine Atomic.after_bind (after_generateTokens ?_ fun _ => h)
  intro env' tokens hok' htokens
  refine Atomic.after_draw_bind ?_
  intro env₁ _
  refine Atomic.after_draw_bind ?_
  intro env₂ _
  refine keeps_indexed h ?_ rfl rfl ?_ ?_
  · change (s.sessions.lookup env.sessionId).all _ = true
    rw [hnew env hok]
    rfl
  · rw [htokens]
    exact hfresh env' hok'
  · intro t ht
    exact keeps_clock ht

theorem keeps_elevateSession {jwt : JwtKeys} {id : String} {role : Role} {amr : List String}
    {acr : String} {accessExpiry refreshExpiry : ℕ} (h : Lockstep s)
    (hnone : ∀ old, s.sessions.lookup id = some old → old.state = .authenticated →
      old.refreshToken = none)
    (hfresh : ∀ env, ok env → s.refresh.lookup env.refreshToken = none) :
    Keeps ok (elevateSession jwt id role amr acr accessExpiry refreshExpiry) s := by
  unfold elevateSession
  refine Atomic.after_call_bind ?_
  cases hid : s.sessions.lookup id with
  | none => exact h
  | some session =>
      change (if session.state ≠ .authenticated then _ else _ :
        SessionM TokenResponse).After ok _ _ s
      by_cases hstate : session.state ≠ .authenticated
      · rw [if_pos hstate]
        exact h
      · rw [if_neg hstate]
        unfold newClaims
        refine Atomic.after_bind ?_
        refine Atomic.after_draw_bind ?_
        intro env₁ _
        refine Atomic.after_draw_bind ?_
        intro env₂ _
        refine Atomic.after_bind (Atomic.after_check ?_ fun e _ => h)
        intro accessToken _
        refine Atomic.after_draw_bind ?_
        intro env hok
        refine Atomic.after_draw_bind ?_
        intro env₃ _
        have hsame : session.sessionId = id := h.stored id session hid
        have hmay : s.mayIndex (session.elevated env₂.jti env.refreshToken
            (env₃.now + refreshExpiry) amr acr) = true := by
          change (s.sessions.lookup session.sessionId).all _ = true
          rw [hsame, hid]
          simp [hnone session hid (not_not.mp hstate), Session.elevated]
        refine keeps_indexed h hmay rfl hsame (hfresh env hok) ?_
        intro t ht
        exact keeps_clock ht

end

/-! ## Runs -/

/-- The operations on sessions. -/
inductive SessionOp where
  | store (session : Session)
  | touch (session : Session) (now : ℕ)
  | finalize (session : Session) (role : Role) (accessExpiry refreshExpiry : ℕ)
  | create (did : String) (role : Role) (accessExpiry refreshExpiry : ℕ)
      (sessionPubkeyB58btc : Option String) (amrAcrOverride : Option (List String × String))
  | elevate (sessionId : String) (role : Role) (amr : List String) (acr : String)
      (accessExpiry refreshExpiry : ℕ)
  | delete (sessionId : String)
  | demote (subject : String)
  | cleanup (challengeTtl : ℕ)
deriving DecidableEq

/-- An operation, with its random draws and the readings of the clock. -/
structure SessionCall where
  op : SessionOp
  sessionId : String
  jti : String
  refreshToken : String
  clock : ℕ → ℕ

/-- The inputs of an operation, in the order it asks for them. -/
def SessionCall.inputs (call : SessionCall) (n : ℕ) : SessionEnv :=
  ⟨call.clock n, call.sessionId, call.jti, call.refreshToken⟩

section

variable (jwt : JwtKeys)

/-- The operation, without its answer. -/
def SessionOp.handler : SessionOp → SessionM Unit
  | store session => storeSession none session .challenged
  | touch session now => do let _ ← touchLastSeen session now
  | finalize session role accessExpiry refreshExpiry => do
      let _ ← finalizeChallengeSession jwt session role accessExpiry refreshExpiry
  | create did role accessExpiry refreshExpiry key override => do
      let _ ← createAuthenticatedSession jwt did role accessExpiry refreshExpiry key override
  | elevate sessionId role amr acr accessExpiry refreshExpiry => do
      let _ ← elevateSession jwt sessionId role amr acr accessExpiry refreshExpiry
  | delete sessionId => deleteSession sessionId
  | demote subject => do let _ ← demoteNonPasskeyStepUpSessions subject
  | cleanup challengeTtl => cleanupExpiredSessions challengeTtl

/-- One operation after another. -/
def sessionStep (s : SessionStore) (call : SessionCall) : SessionStore :=
  (call.op.handler jwt).effect call.inputs s

abbrev sessionExec (s : SessionStore) (calls : List SessionCall) : SessionStore :=
  Run.exec (sessionStep jwt) s calls

end

/-- What an operation draws was not drawn before. -/
def newDraws (s : SessionStore) (call : SessionCall) : Bool :=
  (s.sessions.lookup call.sessionId).isNone && (s.refresh.lookup call.refreshToken).isNone

/-- No operation replaces a refresh token: a session is stored with the DID and the token it
has in the store, and only one without a token is finalized or elevated. -/
def keepsToken (s : SessionStore) (call : SessionCall) : Bool :=
  match call.op with
  | .store session => s.mayStore session
  | .touch session _ => s.mayStore session
  | .finalize session _ _ _ => s.mayIndex session
  | .elevate id _ _ _ _ _ =>
      (s.sessions.lookup id).all fun old =>
        old.state ≠ .authenticated || old.refreshToken = none
  | _ => true

section

variable {jwt : JwtKeys} {s : SessionStore} {call : SessionCall}

theorem Keeps.discard {ok : SessionEnv → Prop} {α : Type} {p : SessionM α}
    (h : Keeps ok p s) : Keeps ok (p >>= fun _ => pure ()) s :=
  Atomic.after_bind h

theorem lockstep_step (h : Lockstep s) (hnew : newDraws s call = true)
    (hkeeps : keepsToken s call = true) : Lockstep (sessionStep jwt s call) := by
  obtain ⟨hsession, hrefresh⟩ := Bool.and_eq_true_iff.mp hnew
  have hdrawn : ∀ env, (∃ n, call.inputs n = env) →
      s.sessions.lookup env.sessionId = none := by
    rintro env ⟨n, rfl⟩
    exact Option.isNone_iff_eq_none.mp hsession
  have hfresh : ∀ env, (∃ n, call.inputs n = env) →
      s.refresh.lookup env.refreshToken = none := by
    rintro env ⟨n, rfl⟩
    exact Option.isNone_iff_eq_none.mp hrefresh
  have hop : Keeps (fun env => ∃ n, call.inputs n = env) (call.op.handler jwt) s := by
    unfold keepsToken at hkeeps
    cases hcall : call.op with
    | store session =>
        simp only [hcall] at hkeeps
        exact keeps_storeSession h hkeeps
    | touch session now =>
        simp only [hcall] at hkeeps
        exact (keeps_touchLastSeen h hkeeps).discard
    | finalize session role accessExpiry refreshExpiry =>
        simp only [hcall] at hkeeps
        exact (keeps_finalizeChallengeSession h hkeeps hfresh).discard
    | create did role accessExpiry refreshExpiry key override =>
        exact (keeps_createAuthenticatedSession h hdrawn hfresh).discard
    | elevate id role amr acr accessExpiry refreshExpiry =>
        simp only [hcall] at hkeeps
        refine (keeps_elevateSession h ?_ hfresh).discard
        intro old hold hstate
        rw [hold] at hkeeps
        simpa [hstate] using hkeeps
    | delete id => exact keeps_deleteSession h
    | demote subject => exact (keeps_demoteNonPasskeyStepUpSessions h).discard
    | cleanup challengeTtl => exact keeps_cleanupExpiredSessions h
  exact hop.effect fun n => ⟨n, rfl⟩

end

/-- In a run whose operations replace no refresh token, the rows of sessions, refresh tokens
and DIDs agree. -/
theorem session_lockstep (jwt : JwtKeys) (calls : List SessionCall)
    (hnew : Run.Meets (sessionStep jwt) (fun s call => newDraws s call = true)
      SessionStore.new calls)
    (hkeeps : Run.Meets (sessionStep jwt) (fun s call => keepsToken s call = true)
      SessionStore.new calls) :
    Lockstep (sessionExec jwt SessionStore.new calls) := by
  refine Run.exec_invariant ?_ lockstep_new (hnew.and hkeeps)
  intro s call hok h
  exact lockstep_step h hok.1 hok.2

namespace Sample

/-- Every token is the id of its claims. -/
def jwtKeys : JwtKeys where
  encode claims := .ok claims.jti
  decode _ := .error (.unauthorized "invalid token")

/-- A session that waits for its challenge to be answered. -/
def challenged : Session :=
  ⟨"s1", "did:example:alice", "c", .challengeSent, 100, 100, none, none, false, none, none, [],
    "aal1", none, none⟩

def sessionCall (op : SessionOp) (n : ℕ) : SessionCall :=
  ⟨op, s!"id{n}", s!"jti{n}", s!"token{n}", fun _ => 100⟩

/-- A login whose session is elevated. -/
def elevatedLogin : List SessionCall :=
  [sessionCall (.store challenged) 0, sessionCall (.finalize challenged .owner 900 3600) 1,
    sessionCall (.elevate "s1" .owner ["did", "passkey"] "aal2" 900 3600) 2]

/-- A login whose session is deleted. -/
def deletedLogin : List SessionCall :=
  [sessionCall (.store challenged) 0, sessionCall (.finalize challenged .owner 900 3600) 1,
    sessionCall (.delete "s1") 2]

end Sample

/-- The refresh token of a deleted session leads nowhere. -/
theorem session_lockstep_deleted :
    (sessionExec Sample.jwtKeys SessionStore.new Sample.deletedLogin).refresh.lookup "token1" ≠
      some "s1" := by
  have hlockstep := session_lockstep Sample.jwtKeys Sample.deletedLogin (by decide +kernel)
    (by decide +kernel)
  apply hlockstep.superseded
  intro session hsession
  have hnone : (sessionExec Sample.jwtKeys SessionStore.new
      Sample.deletedLogin).sessions.lookup "s1" = none := by
    decide +kernel
  rw [hnone] at hsession
  cases hsession

/-- After an elevation both the old and the new refresh token lead to the session. -/
theorem elevated_keeps_old_token :
    (sessionExec Sample.jwtKeys SessionStore.new Sample.elevatedLogin).refresh.lookup "token1" =
      some "s1" ∧
    ((sessionExec Sample.jwtKeys SessionStore.new Sample.elevatedLogin).sessions.lookup
      "s1").map (·.refreshToken) = some (some "token2") ∧
    ¬ Lockstep (sessionExec Sample.jwtKeys SessionStore.new Sample.elevatedLogin) := by
  have hold : (sessionExec Sample.jwtKeys SessionStore.new
      Sample.elevatedLogin).refresh.lookup "token1" = some "s1" := by
    decide +kernel
  have hnow : ((sessionExec Sample.jwtKeys SessionStore.new
      Sample.elevatedLogin).sessions.lookup "s1").map (·.refreshToken) =
        some (some "token2") := by
    decide +kernel
  refine ⟨hold, hnow, ?_⟩
  intro hlockstep
  obtain ⟨session, hsession, htoken⟩ := hlockstep.current _ _ hold
  rw [hsession, Option.map_some, htoken] at hnow
  simp at hnow

end Auth

end DidHosting
