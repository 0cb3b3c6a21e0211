import DidHosting.Auth.Refresh

/-!
# The ceiling of a session

A login gives its session a ceiling, and no refresh may carry the refresh deadline beyond it.
A refresh is refused for the lifetime of the session if the deadline of the session has
reached the ceiling; the clock is not asked.  What the last refresh has set therefore decides
about the next: its own time and the life of a refresh token, cut at the ceiling.

A refresh runs alone here, from the store that the one before has left and whatever happened
in between to other rows.  The canonical handler is known by its contract.
-/

namespace DidHosting

namespace Auth

open Atomic

/-! ## One session -/

/-- An authenticated session, stored under its own id and with a ceiling. -/
structure Renewable (s : AuthStore) (sessionId : String) (session : Session)
    (m : AuthProxyMeta) : Prop where
  row : s.sessions.sessions.lookup sessionId = some session
  own : session.sessionId = sessionId
  authenticated : session.state = .authenticated
  ceiling : s.proxyMeta.lookup sessionId = some m

/-- The contract of the canonical handler: it refuses, or it keeps the session under its id
and gives it a new refresh deadline, a token's life after some reading of the clock. -/
structure RenewsSessions (canon : CanonicalHandlers) (refreshTokenTtl : ℕ) : Prop where
  renewed : ∀ (ok : SessionEnv → Prop) (acl : Table String AclEntry) (input : RefreshInput)
    (s : SessionStore) (sessionId : String) (session : Session),
    s.refresh.lookup input.refreshToken = some sessionId →
    s.sessions.lookup sessionId = some session → session.sessionId = sessionId →
    session.state = .authenticated →
    (canon.handleRefresh acl input).After ok
      (fun answered t => answered = sessionId ∧ ∃ after env, ok env ∧
        t.sessions.lookup sessionId = some after ∧ after.sessionId = sessionId ∧
        after.state = .authenticated ∧
        after.refreshExpiresAt = some (env.now + refreshTokenTtl))
      (fun _ _ => True) s

/-- The refusal because of the lifetime. -/
def lifetimeExceeded : TaskError :=
  .declared "SESSION_LIFETIME_EXCEEDED"
    ("the session has reached its absolute lifetime; re-authenticate via " ++
      "auth/authenticate")

section OneRefresh

variable {canon : CanonicalHandlers} {cfg : AuthConfig} {s : AuthStore} {sessionId : String}
  {session : Session} {m : AuthProxyMeta} {doc : RefreshDoc} {ok : AuthEnv → Prop}
  {E : TaskError → AuthStore → Prop}

theorem after_reading {α β : Type} {f : SessionStore → α} {k : α → AuthM β}
    {R : β → AuthStore → Prop} (h : (k (f s.sessions)).After ok R E s) :
    (onSessions (.call .get f) >>= k).After ok R E s :=
  h

theorem alone_reading {α β : Type} {f : SessionStore → α} {k : α → AuthM β} {xs : ℕ → AuthEnv} :
    (onSessions (.call .get f) >>= k).alone xs s = (k (f s.sessions)).alone xs s :=
  rfl

/-- What the checks come to, on a session that is in order. -/
theorem after_refreshPeek {Q : Bool → AuthStore → Prop} (h : Renewable s sessionId session m)
    (htoken : s.sessions.refresh.lookup doc.refreshToken = some sessionId)
    (hidle : ∀ x, ok x → session.isIdle x.now cfg.adminIdleTimeout = true →
      E (.standard "PermissionDenied" "authentication refused") s)
    (hproof : E (.declared "SESSION_KEY_PROOF_REQUIRED"
      "a session that bound a key must refresh with that key's proof") s)
    (hover : session.lifetimeOver m = true → E lifetimeExceeded s)
    (hQ : session.lifetimeOver m = false → Q session.sessionPubkeyB58btc.isSome s) :
    (refreshPeek cfg doc).After ok Q E s := by
  apply after_reading
  rw [htoken]
  apply after_reading
  rw [h.row]
  apply after_draw_bind
  intro x hx
  by_cases hquiet : session.isIdle x.now cfg.adminIdleTimeout = true
  · rw [if_pos hquiet]
    exact hidle x hx hquiet
  · rw [if_neg hquiet]
    by_cases hproven : (!doc.provenBy session.sessionPubkeyB58btc) = true
    · rw [if_pos hproven]
      exact hproof
    · rw [if_neg hproven]
      apply after_call_bind
      rw [h.ceiling]
      by_cases hlife : session.lifetimeOver m = true
      · simp only [hlife, if_true]
        exact hover hlife
      · rw [Bool.not_eq_true] at hlife
        simp only [hlife, Bool.false_eq_true, if_false]
        exact hQ hlife

/-- The canonical handler on the whole store. -/
theorem after_backendRefresh {input : RefreshInput}
    (hcanon : RenewsSessions canon cfg.refreshTokenExpiry) (h : Renewable s sessionId session m)
    (htoken : s.sessions.refresh.lookup input.refreshToken = some sessionId)
    (hdenied : ∀ t, E (.standard "PermissionDenied" "authentication refused") t) :
    (backendRefresh canon cfg input).After ok
      (fun answered t => answered = sessionId ∧ ∃ after x, ok x ∧
        Renewable t sessionId after m ∧
        after.refreshExpiresAt = some (x.now + cfg.refreshTokenExpiry)) E s := by
  rw [backendRefresh]
  cases cfg.jwtKeys with
  | none => exact hdenied s
  | some jwt =>
      have hrenewed := hcanon.renewed (fun env => ∃ x : AuthEnv, ok x ∧ x.toSessionEnv = env)
        s.acl input s.sessions sessionId session htoken h.row h.own h.authenticated
      apply after_call_bind
      refine Part.after_lift hrenewed ?_ ?_
        (fun _ t (ht : t.proxyMeta.lookup sessionId = some m) => ht) ?_ ?_
      · exact h.ceiling
      · exact fun x hx => ⟨x, hx, rfl⟩
      · rintro answered t hceiling ⟨rfl, after, env, ⟨x, hx, rfl⟩, hrow, hown, hauth, hexpires⟩
        exact ⟨rfl, after, x, hx, ⟨hrow, hown, hauth, hceiling⟩, hexpires⟩
      · exact fun _ t _ _ => hdenied t

/-- The deadline of the refreshed session is cut at the ceiling. -/
theorem after_refreshClamp {d : ℕ} {E : TaskError → AuthStore → Prop}
    (h : Renewable s sessionId session m) (hd : session.refreshExpiresAt = some d) :
    (refreshClamp sessionId).After ok
      (fun _ t => ∃ after, Renewable t sessionId after m ∧
        after.refreshExpiresAt = some (min d m.absoluteExpiresAt)) E s := by
  have hread : Renewable (Access.perform AuthAccess.get s) sessionId session m := h
  apply after_call_bind
  rw [h.ceiling]
  apply after_reading
  rw [hread.row]
  by_cases hlater : m.absoluteExpiresAt < d
  · simp only [hd, Option.any_some, hlater, decide_true, if_true]
    refine ⟨session.clamped m, ⟨?_, h.own, h.authenticated, h.ceiling⟩, ?_⟩
    · change (s.sessions.sessions.insert session.sessionId (session.clamped m)).lookup sessionId = _
      rw [h.own]
      exact AList.lookup_insert _
    · rw [min_eq_right hlater.le]
      rfl
  · simp only [hd, Option.any_some, hlater, decide_false, Bool.false_eq_true, if_false]
    refine ⟨session, h, ?_⟩
    rw [hd, min_eq_left (not_lt.mp hlater)]

/-- A refresh that is accepted sets the deadline a token's life after its own time, or at
the ceiling. -/
theorem after_refreshV2 (hcanon : RenewsSessions canon cfg.refreshTokenExpiry)
    (h : Renewable s sessionId session m)
    (htoken : s.sessions.refresh.lookup doc.refreshToken = some sessionId)
    (hdenied : ∀ t, E (.standard "PermissionDenied" "authentication refused") t)
    (hproof : E (.declared "SESSION_KEY_PROOF_REQUIRED"
      "a session that bound a key must refresh with that key's proof") s)
    (hover : session.lifetimeOver m = true → E lifetimeExceeded s) :
    (refreshV2 canon cfg doc).After ok
      (fun _ t => ∃ after x, ok x ∧ Renewable t sessionId after m ∧
        after.refreshExpiresAt =
          some (min (x.now + cfg.refreshTokenExpiry) m.absoluteExpiresAt)) E s := by
  apply after_bind
  apply after_refreshPeek h htoken (fun _ _ _ => hdenied s) hproof hover
  intro _
  apply after_bind
  apply (after_backendRefresh hcanon h htoken hdenied).mono
  · rintro answered t ⟨rfl, after, x, hx, hafter, hexpires⟩
    apply after_bind
    apply (after_refreshClamp hafter hexpires).mono
    · rintro _ u ⟨clamped, hclamped, hmin⟩
      exact ⟨clamped, x, hx, hclamped, hmin⟩
    · exact fun _ _ he => he
  · exact fun _ _ he => he

/-- A refresh in order is refused for the lifetime of its session exactly if the refresh
deadline of the session has reached the ceiling. -/
theorem lifetimeExceeded_iff (hcanon : RenewsSessions canon cfg.refreshTokenExpiry)
    (h : Renewable s sessionId session m)
    (htoken : s.sessions.refresh.lookup doc.refreshToken = some sessionId) {xs : ℕ → AuthEnv}
    (hidle : session.isIdle (xs 0).now cfg.adminIdleTimeout = false)
    (hproven : doc.provenBy session.sessionPubkeyB58btc = true) :
    ((refreshV2 canon cfg doc).alone xs s).1 = some (.error lifetimeExceeded) ↔
      session.lifetimeOver m = true := by
  constructor
  · intro hrefused
    by_contra hover
    have hafter : (refreshV2 canon cfg doc).After (fun _ : AuthEnv => True) _
        (fun e _ => e ≠ lifetimeExceeded) s :=
      after_refreshV2 hcanon h htoken (by simp [lifetimeExceeded])
        (by simp [lifetimeExceeded]) fun hlife => absurd hlife hover
    obtain ⟨a, hok, -⟩ | ⟨e, herror, he⟩ :=
        hafter.alone fun n => (trivial : (fun _ : AuthEnv => True) (xs n))
    · rw [hok] at hrefused
      simp at hrefused
    · rw [herror] at hrefused
      exact he (Except.error.inj (Option.some.inj hrefused))
  · intro hover
    apply alone_bind_error
    rw [refreshPeek, getSessionByRefresh, alone_reading, htoken]
    simp only [getSession, alone_reading, h.row]
    rw [refreshChecks, nowEpoch, alone_draw_bind, hidle, hproven, if_neg Bool.false_ne_true,
      Bool.not_true, if_neg Bool.false_ne_true, alone_call_bind, h.ceiling]
    simp only [hover, if_true]
    rfl

end OneRefresh

/-! ## Refreshes in sequence -/

/-- A request for a refresh, and what the clock and the draws answer while it runs. -/
structure RefreshRequest where
  doc : RefreshDoc
  inputs : ℕ → AuthEnv

/-- The time of a refresh: the clock where its session is checked. -/
def RefreshRequest.now (r : RefreshRequest) : ℕ :=
  (r.inputs 0).now

/-- The session keeps its refresh deadline and its ceiling, whatever else is done to the
store. -/
def KeepsDeadline (sessionId : String) (s t : AuthStore) : Prop :=
  ∀ session m, Renewable s sessionId session m →
    ∃ after, Renewable t sessionId after m ∧ after.refreshExpiresAt = session.refreshExpiresAt

/-- What a refresh leaves and answers. -/
def RefreshRequest.run (canon : CanonicalHandlers) (cfg : AuthConfig) (r : RefreshRequest)
    (s : AuthStore) : Option (Except TaskError String) × AuthStore :=
  (refreshV2 canon cfg r.doc).alone r.inputs s

/-- Refreshes of one session that are accepted one after the other, with anything in between
that keeps its deadline. -/
inductive AcceptedRefreshes (canon : CanonicalHandlers) (cfg : AuthConfig) (sessionId : String)
    (s : AuthStore) : List RefreshRequest → AuthStore → Prop where
  | none : AcceptedRefreshes canon cfg sessionId s [] s
  | between {rs : List RefreshRequest} {t u : AuthStore} :
      AcceptedRefreshes canon cfg sessionId s rs t → KeepsDeadline sessionId t u →
      AcceptedRefreshes canon cfg sessionId s rs u
  | accepted {rs : List RefreshRequest} {t : AuthStore} {r : RefreshRequest} {answer : String} :
      AcceptedRefreshes canon cfg sessionId s rs t →
      t.sessions.refresh.lookup r.doc.refreshToken = some sessionId →
      (r.run canon cfg t).1 = some (.ok answer) →
      AcceptedRefreshes canon cfg sessionId s (rs ++ [r]) (r.run canon cfg t).2

/-- The deadline that was set last, before it was cut: by the login, or by the last refresh
at one of its readings of the clock. -/
def DeadlineSet (refreshTokenTtl : ℕ) (atLogin : Option ℕ) (rs : List RefreshRequest)
    (d : Option ℕ) : Prop :=
  match rs.getLast? with
  | none => d = atLogin
  | some r => ∃ n, d = some ((r.inputs n).now + refreshTokenTtl)

/-- A deadline that has reached the ceiling of a session. -/
def AuthProxyMeta.reachedBy (m : AuthProxyMeta) (d : Option ℕ) : Bool :=
  d.any fun expires => m.absoluteExpiresAt ≤ expires

/-- A refresh with a token of the session, made before the session was idle for too long and
with the proof of a bound key. -/
structure RefreshInOrder (cfg : AuthConfig) (s : AuthStore) (sessionId : String)
    (r : RefreshRequest) : Prop where
  token : s.sessions.refresh.lookup r.doc.refreshToken = some sessionId
  session : ∃ session, s.sessions.sessions.lookup sessionId = some session ∧
    session.isIdle r.now cfg.adminIdleTimeout = false ∧
    r.doc.provenBy session.sessionPubkeyB58btc = true

section Sequence

variable {canon : CanonicalHandlers} {cfg : AuthConfig} {s t : AuthStore} {sessionId : String}
  {session : Session} {m : AuthProxyMeta} {rs : List RefreshRequest}

/-- Cutting a deadline at the ceiling does not hide that it has reached it. -/
theorem lifetimeOver_of_cut {d : ℕ}
    (h : session.refreshExpiresAt = some (min d m.absoluteExpiresAt)) :
    session.lifetimeOver m = m.reachedBy (some d) := by
  rw [Session.lifetimeOver, h, AuthProxyMeta.reachedBy, Option.any_some, Option.any_some]
  simp

theorem renewable_run (hcanon : RenewsSessions canon cfg.refreshTokenExpiry)
    (h : Renewable s sessionId session m) {r : RefreshRequest} {answer : String}
    (htoken : s.sessions.refresh.lookup r.doc.refreshToken = some sessionId)
    (haccepted : (r.run canon cfg s).1 = some (.ok answer)) :
    ∃ after n, Renewable (r.run canon cfg s).2 sessionId after m ∧
      after.refreshExpiresAt =
        some (min ((r.inputs n).now + cfg.refreshTokenExpiry) m.absoluteExpiresAt) := by
  have hafter : (refreshV2 canon cfg r.doc).After (fun x => ∃ n, x = r.inputs n) _
      (fun _ _ => True) s :=
    after_refreshV2 hcanon h htoken (fun _ => trivial) trivial fun _ => trivial
  obtain ⟨a, -, after, x, ⟨n, rfl⟩, hrenewed, hexpires⟩ | ⟨e, herror, -⟩ :=
      hafter.alone fun n => ⟨n, rfl⟩
  · exact ⟨after, n, hrenewed, hexpires⟩
  · rw [RefreshRequest.run, herror] at haccepted
    simp at haccepted

/-- After any accepted refreshes the check of the lifetime sees the deadline that was set
last. -/
theorem renewable_refreshes (hcanon : RenewsSessions canon cfg.refreshTokenExpiry)
    (h : Renewable s sessionId session m)
    (hrs : AcceptedRefreshes canon cfg sessionId s rs t) :
    ∃ d current, DeadlineSet cfg.refreshTokenExpiry session.refreshExpiresAt rs d ∧
      Renewable t sessionId current m ∧ current.lifetimeOver m = m.reachedBy d := by
  induction hrs with
  | none => exact ⟨_, session, rfl, h, rfl⟩
  | between _ hkeeps ih =>
      obtain ⟨d, current, hd, hcurrent, hover⟩ := ih
      obtain ⟨after, hafter, hexpires⟩ := hkeeps current m hcurrent
      refine ⟨d, after, hd, hafter, ?_⟩
      rw [← hover, Session.lifetimeOver, hexpires]
      rfl
  | accepted _ htoken haccepted ih =>
      obtain ⟨-, current, -, hcurrent, -⟩ := ih
      obtain ⟨after, n, hafter, hexpires⟩ := renewable_run hcanon hcurrent htoken haccepted
      refine ⟨_, after, ?_, hafter, lifetimeOver_of_cut hexpires⟩
      rw [DeadlineSet, List.getLast?_concat]
      exact ⟨n, rfl⟩

/-- After any accepted refreshes, the next one is refused for the lifetime of the session
only at the ceiling, if and only if the deadline that was set last has reached the ceiling
exactly when the clock has. -/
theorem refused_at_ceiling_iff (hcanon : RenewsSessions canon cfg.refreshTokenExpiry)
    (h : Renewable s sessionId session m)
    (hrs : AcceptedRefreshes canon cfg sessionId s rs t) :
    ∃ d, DeadlineSet cfg.refreshTokenExpiry session.refreshExpiresAt rs d ∧
      ∀ next : RefreshRequest, RefreshInOrder cfg t sessionId next →
        (((next.run canon cfg t).1 = some (.error lifetimeExceeded) ↔
            m.absoluteExpiresAt ≤ next.now) ↔
          (m.reachedBy d = true ↔ m.absoluteExpiresAt ≤ next.now)) := by
  obtain ⟨d, current, hd, hcurrent, hover⟩ := renewable_refreshes hcanon h hrs
  refine ⟨d, hd, ?_⟩
  intro next hnext
  obtain ⟨current', hrow, hidle, hproven⟩ := hnext.session
  have hsame : current' = current := by
    rw [hcurrent.row] at hrow
    exact (Option.some.inj hrow).symm
  rw [hsame] at hidle hproven
  rw [RefreshRequest.run, lifetimeExceeded_iff hcanon hcurrent hnext.token hidle hproven, hover]

end Sequence

/-! ## A handler that rotates tokens -/

namespace Sample

/-- The session after its token was rotated. -/
def rotated (session : Session) (refreshTokenTtl now : ℕ) (token jti : String) : Session :=
  { session with
    refreshToken := some token
    refreshExpiresAt := some (now + refreshTokenTtl)
    tokenId := some jti
    lastSeen := now }

/-- A refresh that spends the token and gives the session a new one. -/
def rotateToken (refreshTokenTtl : ℕ) (input : RefreshInput) : SessionM String := do
  match ← takeSessionIdByRefresh input.refreshToken with
  | none => .fail (.authentication "refresh token not found")
  | some sessionId =>
      match ← getSession sessionId with
      | none => .fail (.authentication "session not found")
      | some session =>
          let now ← clock
          if session.state ≠ .authenticated then
            .fail (.authentication "session not authenticated")
          else if session.refreshExpiresAt.any (· < now) then
            .fail (.authentication "refresh token expired")
          else if input.signerDid.any (· ≠ session.did) then
            .fail (.authentication "signer does not match the session")
          else
            let token ← .draw (·.refreshToken)
            let jti ← .draw (·.jti)
            storeSession (some session) (rotated session refreshTokenTtl now token jti) .refreshed
            storeRefreshIndex token sessionId
            return sessionId

def rotatingHandlers (refreshTokenTtl : ℕ) : CanonicalHandlers where
  handleRefresh _ := rotateToken refreshTokenTtl

theorem renewsSessions_rotatingHandlers (refreshTokenTtl : ℕ) :
    RenewsSessions (rotatingHandlers refreshTokenTtl) refreshTokenTtl where
  renewed := by
    intro ok acl input s sessionId session htoken hrow hown hauth
    apply after_call_bind
    rw [htoken]
    apply after_call_bind
    change After _ _ _ (match s.sessions.lookup sessionId with | none => _ | some session => _) _
    rw [hrow]
    apply after_draw_bind
    intro x hx
    rw [if_neg (not_not.mpr hauth)]
    by_cases hexpired : session.refreshExpiresAt.any (· < x.now) = true
    · rw [if_pos hexpired]
      trivial
    · rw [if_neg hexpired]
      by_cases hsigner : input.signerDid.any (· ≠ session.did) = true
      · rw [if_pos hsigner]
        trivial
      · rw [if_neg hsigner]
        intro y _ z _
        refine ⟨rfl, rotated session refreshTokenTtl x.now y.refreshToken z.jti, x, hx, ?_, hown,
          hauth, rfl⟩
        change (s.sessions.insert session.sessionId _).lookup sessionId = _
        rw [hown]
        exact AList.lookup_insert _

/-- A refresh token lives for a day, and a session for ten minutes longer. -/
def ceilingConfig : AuthConfig :=
  ⟨some ⟨fun claims => .ok claims.jti, fun _ => .error (.unauthorized "invalid token")⟩, true,
    none, 900, 86400, 87000, 1800⟩

def ceilingSession : Session :=
  ⟨"s", "did:example:alice", "", .authenticated, 1000, 0, some "token0", some 87400, false, none,
    none, ["did"], "aal1", none, none⟩

/-- The ceiling of the session. -/
def ceilingMeta : AuthProxyMeta := ⟨none, 88000⟩

def ceilingStore : AuthStore :=
  { AuthStore.new ∅ with
    sessions :=
      ⟨(∅ : Table String Session).insert "s" ceilingSession,
        (∅ : Table String String).insert "token0" "s", ∅, []⟩
    proxyMeta := (∅ : Table String AuthProxyMeta).insert "s" ceilingMeta }

/-- A refresh with one token, that draws the next. -/
def refreshAt (token next : String) (now : ℕ) : RefreshRequest :=
  ⟨⟨none, none, token⟩, fun _ => ⟨⟨now, "", "jti", next⟩, "", ""⟩⟩

theorem renewable_ceilingStore : Renewable ceilingStore "s" ceilingSession ceilingMeta :=
  ⟨by decide +kernel, rfl, rfl, by decide +kernel⟩

/-- The store after one refresh. -/
def refreshedOnce (now : ℕ) : AuthStore :=
  ((refreshAt "token0" "token1" now).run (rotatingHandlers 86400) ceilingConfig ceilingStore).2

theorem accepted_refreshedOnce (now : ℕ)
    (h : ((refreshAt "token0" "token1" now).run (rotatingHandlers 86400) ceilingConfig
      ceilingStore).1 = some (.ok "s")) :
    AcceptedRefreshes (rotatingHandlers 86400) ceilingConfig "s" ceilingStore
      [refreshAt "token0" "token1" now] (refreshedOnce now) := by
  have htoken : ceilingStore.sessions.refresh.lookup "token0" = some "s" := by
    decide +kernel
  exact .accepted .none htoken h

end Sample

/-- A refresh whose deadline would be behind the ceiling is accepted, and the next one is
refused for the lifetime of the session, almost a day before its end. -/
theorem refused_below_ceiling :
    RenewsSessions (Sample.rotatingHandlers 86400) Sample.ceilingConfig.refreshTokenExpiry ∧
      Renewable Sample.ceilingStore "s" Sample.ceilingSession Sample.ceilingMeta ∧
      AcceptedRefreshes (Sample.rotatingHandlers 86400) Sample.ceilingConfig "s"
        Sample.ceilingStore [Sample.refreshAt "token0" "token1" 2000]
        (Sample.refreshedOnce 2000) ∧
      RefreshInOrder Sample.ceilingConfig (Sample.refreshedOnce 2000) "s"
        (Sample.refreshAt "token1" "token2" 2100) ∧
      ((Sample.refreshAt "token1" "token2" 2100).run (Sample.rotatingHandlers 86400)
        Sample.ceilingConfig (Sample.refreshedOnce 2000)).1 = some (.error lifetimeExceeded) ∧
      (Sample.refreshAt "token1" "token2" 2100).now < Sample.ceilingMeta.absoluteExpiresAt := by
  refine ⟨Sample.renewsSessions_rotatingHandlers 86400, Sample.renewable_ceilingStore,
    Sample.accepted_refreshedOnce 2000 (by decide +kernel), ⟨by decide +kernel, ?_⟩,
    by decide +kernel, by decide⟩
  exact ⟨_, Option.eq_some_of_isSome (by decide +kernel), by decide +kernel, by decide +kernel⟩

/-- A refresh whose deadline stays before the ceiling does not hinder the next one. -/
theorem refused_at_ceiling_iff_early :
    RefreshInOrder Sample.ceilingConfig (Sample.refreshedOnce 1500) "s"
        (Sample.refreshAt "token1" "token2" 1600) ∧
      (((Sample.refreshAt "token1" "token2" 1600).run (Sample.rotatingHandlers 86400)
          Sample.ceilingConfig (Sample.refreshedOnce 1500)).1 = some (.error lifetimeExceeded) ↔
        Sample.ceilingMeta.absoluteExpiresAt ≤
          (Sample.refreshAt "token1" "token2" 1600).now) := by
  have haccepted := Sample.accepted_refreshedOnce 1500 (by decide +kernel)
  have hnext : RefreshInOrder Sample.ceilingConfig (Sample.refreshedOnce 1500) "s"
      (Sample.refreshAt "token1" "token2" 1600) :=
    ⟨by decide +kernel, _, Option.eq_some_of_isSome (by decide +kernel), by decide +kernel,
      by decide +kernel⟩
  obtain ⟨d, ⟨n, hd⟩, hiff⟩ := refused_at_ceiling_iff
    (Sample.renewsSessions_rotatingHandlers 86400) Sample.renewable_ceilingStore haccepted
  refine ⟨hnext, (hiff _ hnext).mpr ?_⟩
  rw [hd]
  change Sample.ceilingMeta.reachedBy (some (1500 + 86400)) = true ↔ 88000 ≤ 1600
  decide

end Auth

end DidHosting
