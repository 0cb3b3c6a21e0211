import DidHosting.Common.DomainStore
import DidHosting.Common.DomainWire
import DidHosting.Edge.DomainSpec

/-!
# Replication of domain entries

The control plane's domain tasks change the domain store and send the entry they were
asked about to the servers, which store what they are sent.  A task that moves the
default flag changes the entry of the previous default too, and does not send it; the
servers' copies agree with the control plane's as long as no task takes the flag from
an entry that was sent.
-/

namespace DidHosting

/-! ## Tasks -/

/-- `TaskError`, as far as the domain tasks raise it. -/
inductive DomainTaskError where
  | invalidName (cause : AppError)
  | domainExists (msg : String)
  | unknownDomain (msg : String)
  | isDefault (msg : String)
  | domainDisabled (msg : String)
  | app (e : AppError)
deriving DecidableEq, Repr

/-- A domain task that changes the store, with the time of a task that reads it and the
caller of a task that records one.  A state is none when it is neither `active` nor
`disabled`. -/
inductive DomainTask where
  | create (name : String) (label : Option String) (setAsDefault : Bool) (now : ℕ)
  | update (name : String) (label : Option String)
  | setState (name : String) (state : Option DomainStatus) (now : ℕ) (caller : String)
  | setDefault (name : String)
deriving DecidableEq, Repr

namespace DomainTask

section Tasks

variable (L : Libs)

def canonicalName (name : String) : Except DomainTaskError String :=
  match normalizeDomainName L name with
  | .ok canonical => .ok canonical
  | .error _ => .error (.unknownDomain s!"`{name}` is not a valid domain name")

def existing (s : DomainStore) (name : String) : Except DomainTaskError DomainEntry :=
  match getDomain L s.domains name with
  | .ok (some entry) => .ok entry
  | .ok none => .error (.unknownDomain s!"`{name}` is not a hosting domain")
  | .error e => .error (.app e)

/-- A store operation whose conflicts a task declares as `code`. -/
def declared (code : String → DomainTaskError) :
    Except AppError DomainStore → Except DomainTaskError DomainStore
  | .ok s => .ok s
  | .error (.conflict msg) => .error (code msg)
  | .error e => .error (.app e)

def runCreate (s : DomainStore) (name : String) (label : Option String) (setAsDefault : Bool)
    (now : ℕ) : Except DomainTaskError (DomainStore × DomainEntry) := do
  let name ← (normalizeDomainName L name).mapError .invalidName
  let entry : DomainEntry := { name := name, label := label, createdAt := now }
  let s ← declared .domainExists (s.createDomain L entry)
  let s ← (if setAsDefault then (s.setDefaultDomain L name).mapError .app else .ok s)
  let stored ← existing L s name
  return (s, stored)

def runUpdate (s : DomainStore) (name : String) (label : Option String) :
    Except DomainTaskError (DomainStore × DomainEntry) := do
  let name ← canonicalName L name
  let entry ← existing L s name
  let entry : DomainEntry := { entry with label := label.or entry.label }
  let s ← (s.updateDomain L name entry).mapError .app
  return (s, entry)

/-- The store operation of `set_state`, with the configured grace period. -/
def changeState (grace : String) (s : DomainStore) (name : String)
    (state : Option DomainStatus) (now : ℕ) (caller : String) :
    Except DomainTaskError DomainStore :=
  match state with
  | some .active => (s.enableDomain L name).mapError .app
  | some .disabled =>
      match parseGraceString grace with
      | .error e =>
          .error (.app (.internal s!"config [hosting] disable_purge_grace is invalid: {e}"))
      | .ok graceSeconds =>
          declared .isDefault (s.disableDomain L name now graceSeconds caller)
  | none => .error (.app (.validation "unsupported domain state"))

def runSetState (grace : String) (s : DomainStore) (name : String)
    (state : Option DomainStatus) (now : ℕ) (caller : String) :
    Except DomainTaskError (DomainStore × DomainEntry) := do
  let name ← canonicalName L name
  let _ ← existing L s name
  let s ← changeState L grace s name state now caller
  let entry ← existing L s name
  return (s, entry)

def runSetDefault (s : DomainStore) (name : String) :
    Except DomainTaskError (DomainStore × DomainEntry) := do
  let name ← canonicalName L name
  let _ ← existing L s name
  let s ← declared .domainDisabled (s.setDefaultDomain L name)
  let entry ← existing L s name
  return (s, entry)

/-- The task of an administrator: the store after it, and the entry that is sent to the
servers. -/
def run (grace : String) (s : DomainStore) :
    DomainTask → Except DomainTaskError (DomainStore × DomainEntry)
  | .create name label setAsDefault now => runCreate L s name label setAsDefault now
  | .update name label => runUpdate L s name label
  | .setState name state now caller => runSetState L grace s name state now caller
  | .setDefault name => runSetDefault L s name

end Tasks

end DomainTask

/-! ## Directives -/

/-- The body of `send_domain_upsert`. -/
def upsertBody (W : WireLibs) (entry : DomainEntry) : Json :=
  .obj [("entry", toSpec W entry)]

/-- What `do_domain_upsert` reads from a directive. -/
def readUpsert (W : WireLibs) (body : Json) : Except OpError DomainEntry :=
  match W.upsertEntry body with
  | .error e =>
      .error (.refused s!"replica/domain/upsert payload does not fit its schema: {e}")
  | .ok value =>
      match fromSpec W value with
      | .error e => .error (.refused s!"replica/domain/upsert: {e}")
      | .ok entry => .ok entry

/-- The edge after a directive of the control plane. -/
def applyUpsert (W : WireLibs) (control : String) (s : EdgeStore) (body : Json) : EdgeStore :=
  match readUpsert W body with
  | .error _ => s
  | .ok entry => ((doDomainUpsert W.toLibs control entry).run s).2

/-- The control plane while a server is registered with it: the store, the domains that
tasks have changed and the directives that were sent to the server, in order. -/
structure UpsertRun where
  store : DomainStore
  touched : List String
  sent : List Json

namespace UpsertRun

/-- No task has run yet. -/
def initial (store : DomainStore) : UpsertRun := ⟨store, [], []⟩

/-- The control plane after a task; one that fails changes and sends nothing. -/
def step (W : WireLibs) (grace : String) (r : UpsertRun) (task : DomainTask) : UpsertRun :=
  match task.run W.toLibs grace r.store with
  | .error _ => r
  | .ok (store, entry) =>
      ⟨store, entry.name :: r.touched, r.sent ++ [upsertBody W entry]⟩

/-- The default flag is on none of the other domains that were sent. -/
def Unflagged (r : UpsertRun) (name : String) : Prop :=
  ∀ other ∈ r.touched, other ≠ name →
    ∀ entry ∈ r.store.domains.lookup other, entry.defaultDomain = false

/-- The task takes the flag from no domain that was sent, and stores only times that a
date-time can hold. -/
def Settles (grace : String) (r : UpsertRun) : DomainTask → Prop
  | .create name _ setAsDefault now =>
      now < endOfTime ∧ (setAsDefault = true → r.Unflagged name)
  | .update _ _ => True
  | .setState _ state now _ =>
      state = some .disabled → ∀ graceSeconds, parseGraceString grace = .ok graceSeconds →
        now + graceSeconds < endOfTime
  | .setDefault name => r.Unflagged name

end UpsertRun

/-! ## What a task does -/

/-- The store's entries can be sent: they are stored under canonical names and tidy. -/
structure Replicable (L : Libs) (s : DomainStore) : Prop where
  keyed : s.Keyed
  canonical : ∀ name entry, s.domains.lookup name = some entry →
    normalizeDomainName L name = .ok name
  tidy : ∀ name entry, s.domains.lookup name = some entry → entry.Tidy

theorem replicable_empty (L : Libs) : Replicable L DomainStore.empty where
  keyed := fun _ _ h => nomatch h
  canonical := fun _ _ h => nomatch h
  tidy := fun _ _ h => nomatch h

/-- A task has stored the entry it sends, and left the other entries of `touched`. -/
structure Stored (L : Libs) (touched : List String) (s s' : DomainStore) (entry : DomainEntry) :
    Prop where
  replicable : Replicable L s'
  row : s'.domains.lookup entry.name = some entry
  others : ∀ other ∈ touched, other ≠ entry.name →
    s'.domains.lookup other = s.domains.lookup other

namespace DomainTask

variable {L : Libs} {s s' : DomainStore} {name : String} {entry : DomainEntry}

theorem canonicalName_ok {canonical : String} (h : canonicalName L name = .ok canonical) :
    canonical = name ∧ normalizeDomainName L name = .ok name := by
  unfold canonicalName at h
  split at h
  · rename_i c hnormal
    cases h
    cases normalizeDomainName_eq_ok hnormal
    exact ⟨rfl, hnormal⟩
  · cases h

theorem existing_ok (h : existing L s name = .ok entry) :
    s.domains.lookup name = some entry := by
  unfold existing at h
  split at h
  · rename_i e hget
    cases h
    obtain ⟨canonical, hnormal, hlookup⟩ := bind_eq_ok hget
    cases normalizeDomainName_eq_ok hnormal
    exact Except.ok.inj hlookup
  · cases h
  · cases h

theorem declared_ok {code : String → DomainTaskError} {x : Except AppError DomainStore}
    (h : declared code x = .ok s') : x = .ok s' := by
  unfold declared at h
  split at h
  · cases h
    rfl
  · cases h
  · cases h

theorem replicable_insert (h : Replicable L s) {s' : DomainStore}
    (hdomains : s'.domains = s.domains.insert name entry)
    (hcanonical : normalizeDomainName L name = .ok name) (hname : entry.name = name)
    (htidy : entry.Tidy) : Replicable L s' := by
  have hrows : ∀ other e, s'.domains.lookup other = some e →
      (other = name ∧ e = entry) ∨ s.domains.lookup other = some e := by
    intro other e hrow
    rw [hdomains] at hrow
    exact Table.lookup_insert_cases hrow
  refine ⟨?_, ?_, ?_⟩
  · intro other e hrow
    rcases hrows other e hrow with ⟨rfl, rfl⟩ | hold
    · exact hname
    · exact h.keyed other e hold
  · intro other e hrow
    rcases hrows other e hrow with ⟨rfl, rfl⟩ | hold
    · exact hcanonical
    · exact h.canonical other e hold
  · intro other e hrow
    rcases hrows other e hrow with ⟨rfl, rfl⟩ | hold
    · exact htidy
    · exact h.tidy other e hold

theorem stored_insert (h : Replicable L s) (touched : List String) {s' : DomainStore}
    (hdomains : s'.domains = s.domains.insert name entry)
    (hcanonical : normalizeDomainName L name = .ok name) (hname : entry.name = name)
    (htidy : entry.Tidy) : Stored L touched s s' entry where
  replicable := replicable_insert h hdomains hcanonical hname htidy
  row := by
    rw [hdomains, Table.lookup_insert_ite, if_pos hname]
  others := by
    intro other _ hne
    rw [hdomains, Table.lookup_insert_ite, if_neg (hname ▸ hne)]

/-- A new default takes the flag from no other domain that was sent. -/
theorem stored_setDefault (h : Replicable L s) {touched : List String}
    (hset : s.setDefaultDomain L name = .ok s') (hrow : s'.domains.lookup name = some entry)
    (hunflagged : ∀ other ∈ touched, other ≠ name →
      ∀ e ∈ s.domains.lookup other, e.defaultDomain = false) :
    Stored L touched s s' entry := by
  have hrows := DomainStore.lookup_setDefaultDomain h.keyed hset
  have hheld : ∀ other e, s'.domains.lookup other = some e →
      ∃ held, s.domains.lookup other = some held ∧ DomainStore.flagged name held = e := by
    intro other e he
    rw [hrows, Option.map_eq_some_iff] at he
    exact he
  have hreplicable : Replicable L s' := by
    refine ⟨?_, ?_, ?_⟩
    · intro other e he
      obtain ⟨held, hold, rfl⟩ := hheld other e he
      exact h.keyed other held hold
    · intro other e he
      obtain ⟨held, hold, -⟩ := hheld other e he
      exact h.canonical other held hold
    · intro other e he
      obtain ⟨held, hold, rfl⟩ := hheld other e he
      obtain ⟨htimers, hcreated, hdisabled, hpurge⟩ := h.tidy other held hold
      exact ⟨htimers, hcreated, hdisabled, hpurge⟩
  have hname : entry.name = name := hreplicable.keyed name entry hrow
  refine ⟨hreplicable, by rw [hname]; exact hrow, ?_⟩
  intro other htouched hne
  rw [hname] at hne
  rw [hrows]
  cases hold : s.domains.lookup other with
  | none => rfl
  | some held =>
      have hflag := hunflagged other htouched hne held hold
      have hother : held.name ≠ name := by
        rw [h.keyed other held hold]
        exact hne
      have hsame : DomainStore.flagged name held = held := by
        unfold DomainStore.flagged
        rw [decide_eq_false hother, ← hflag]
      rw [Option.map_some, hsame]

section Run

variable {touched : List String} (h : Replicable L s)

include h

theorem stored_create {label : Option String} {setAsDefault : Bool} {now : ℕ}
    (hnow : now < endOfTime)
    (hunflagged : setAsDefault = true → ∀ other ∈ touched, other ≠ name →
      ∀ e ∈ s.domains.lookup other, e.defaultDomain = false)
    (hrun : runCreate L s name label setAsDefault now = .ok (s', entry)) :
    Stored L touched s s' entry := by
  obtain ⟨canonical, hnormal, hrun⟩ := bind_eq_ok hrun
  have hnormal := mapError_eq_ok hnormal
  cases normalizeDomainName_eq_ok hnormal
  obtain ⟨s₁, hcreate, hrun⟩ := bind_eq_ok hrun
  obtain ⟨-, hnew, hs₁⟩ := DomainStore.createDomain_ok (declared_ok hcreate)
  obtain ⟨s₂, hset, hrun⟩ := bind_eq_ok hrun
  obtain ⟨stored, hstored, hrun⟩ := bind_eq_ok hrun
  cases hrun
  have hrow := existing_ok hstored
  have htidy : DomainEntry.Tidy { name := name, label := label, createdAt := now } :=
    ⟨fun _ => ⟨rfl, rfl⟩, hnow, nofun, nofun⟩
  have hdomains : s₁.domains =
      s.domains.insert name { name := name, label := label, createdAt := now } := by
    rw [hs₁]
  have hstored₁ := stored_insert h touched hdomains hnormal rfl htidy
  cases setAsDefault with
  | false =>
      cases hset
      have hentry : entry = { name := name, label := label, createdAt := now } := by
        rw [hstored₁.row] at hrow
        exact (Option.some.inj hrow).symm
      rw [hentry]
      exact hstored₁
  | true =>
      have hset := mapError_eq_ok hset
      have hothers : ∀ other, other ≠ name → s₁.domains.lookup other = s.domains.lookup other := by
        intro other hne
        rw [hdomains, Table.lookup_insert_ite, if_neg hne]
      have hafter := stored_setDefault hstored₁.replicable hset hrow
        (fun other htouched hne e he => hunflagged rfl other htouched hne e (hothers other hne ▸ he))
      have hname : entry.name = name := hafter.replicable.keyed name entry hrow
      refine ⟨hafter.replicable, hafter.row, ?_⟩
      intro other htouched hne
      rw [hafter.others other htouched hne]
      exact hothers other (hname ▸ hne)

theorem stored_update {label : Option String}
    (hrun : runUpdate L s name label = .ok (s', entry)) : Stored L touched s s' entry := by
  obtain ⟨canonical, hcanonical, hafter⟩ := bind_eq_ok hrun
  obtain ⟨rfl, hnormal⟩ := canonicalName_ok hcanonical
  obtain ⟨held, hheld, hafter⟩ := bind_eq_ok hafter
  have hrow := existing_ok hheld
  obtain ⟨s₁, hupdate, hafter⟩ := bind_eq_ok hafter
  obtain ⟨-, hname, -, hs₁⟩ := DomainStore.updateDomain_ok (mapError_eq_ok hupdate)
  cases hafter
  obtain ⟨htimers, hcreated, hdisabled, hpurge⟩ := h.tidy _ held hrow
  refine stored_insert h touched ?_ hnormal hname ⟨htimers, hcreated, hdisabled, hpurge⟩
  rw [hs₁]

theorem stored_setState {grace : String} {state : Option DomainStatus} {now : ℕ}
    {caller : String}
    (htimes : state = some .disabled → ∀ graceSeconds, parseGraceString grace = .ok graceSeconds →
      now + graceSeconds < endOfTime)
    (hrun : runSetState L grace s name state now caller = .ok (s', entry)) :
    Stored L touched s s' entry := by
  obtain ⟨canonical, hcanonical, hafter⟩ := bind_eq_ok hrun
  obtain ⟨rfl, hnormal⟩ := canonicalName_ok hcanonical
  obtain ⟨-, -, hafter⟩ := bind_eq_ok hafter
  obtain ⟨s₁, hchange, hafter⟩ := bind_eq_ok hafter
  obtain ⟨stored, hstored, hafter⟩ := bind_eq_ok hafter
  cases hafter
  have hrow := existing_ok hstored
  -- the entry that was written is the one that is read back
  have hwritten : ∀ written : DomainEntry, s'.domains = s.domains.insert canonical written →
      entry = written := by
    intro written hdomains
    rw [hdomains, Table.lookup_insert_ite, if_pos rfl] at hrow
    exact (Option.some.inj hrow).symm
  unfold changeState at hchange
  split at hchange
  · obtain ⟨held, hheld, -, hdomains⟩ := DomainStore.enableDomain_ok (mapError_eq_ok hchange)
    obtain ⟨-, hcreated, -, -⟩ := h.tidy _ held hheld
    rw [hwritten _ hdomains]
    exact stored_insert h touched hdomains hnormal (h.keyed _ held hheld)
      ⟨fun _ => ⟨rfl, rfl⟩, hcreated, nofun, nofun⟩
  · split at hchange
    · cases hchange
    · rename_i graceSeconds hgrace
      obtain ⟨-, held, hheld, -, hdomains⟩ := DomainStore.disableDomain_ok (declared_ok hchange)
      obtain ⟨-, hcreated, -, -⟩ := h.tidy _ held hheld
      have hend := htimes rfl graceSeconds hgrace
      rw [hwritten _ hdomains]
      refine stored_insert h touched hdomains hnormal (h.keyed _ held hheld)
        ⟨nofun, hcreated, ?_, ?_⟩
      · intro t ht
        cases ht
        omega
      · intro t ht
        cases ht
        unfold addSeconds
        omega
  · cases hchange

theorem stored_run {grace : String} {r : UpsertRun} {task : DomainTask}
    (hr : r.store = s) (hsettles : r.Settles grace task)
    (hrun : task.run L grace s = .ok (s', entry)) : Stored L r.touched s s' entry := by
  subst hr
  cases task with
  | create name label setAsDefault now =>
      exact stored_create h hsettles.1 hsettles.2 hrun
  | update name label => exact stored_update h hrun
  | setState name state now caller => exact stored_setState h hsettles hrun
  | setDefault name =>
      obtain ⟨canonical, hcanonical, hafter⟩ := bind_eq_ok hrun
      obtain ⟨rfl, hnormal⟩ := canonicalName_ok hcanonical
      obtain ⟨-, -, hafter⟩ := bind_eq_ok hafter
      obtain ⟨s₁, hset, hafter⟩ := bind_eq_ok hafter
      obtain ⟨stored, hstored, hafter⟩ := bind_eq_ok hafter
      cases hafter
      exact stored_setDefault h (declared_ok hset) (existing_ok hstored) hsettles

end Run

end DomainTask

/-! ## Convergence -/

/-- What the wire documentation says of the generated type of `replica/domain/upsert`:
an entry in the shared shape fits it, and is written as it was read. -/
def PayloadKeeps (W : WireLibs) : Prop :=
  ∀ entry : DomainEntry, normalizeDomainName W.toLibs entry.name = .ok entry.name → entry.Tidy →
    W.upsertEntry (upsertBody W entry) = .ok (toSpec W entry)

section Apply

variable {W : WireLibs} (hpayload : PayloadKeeps W) (htimes : TimesReadBack W)

include hpayload htimes

/-- An edge stores the entry it is sent and leaves the others. -/
theorem lookup_applyUpsert (control : String) (s : EdgeStore) {entry : DomainEntry}
    (hname : normalizeDomainName W.toLibs entry.name = .ok entry.name) (htidy : entry.Tidy)
    (other : String) :
    (applyUpsert W control s (upsertBody W entry)).domains.lookup other =
      if other = entry.name then some entry else s.domains.lookup other := by
  have hread : readUpsert W (upsertBody W entry) = .ok entry := by
    unfold readUpsert
    rw [hpayload entry hname htidy]
    simp only [fromSpec_toSpec htimes htidy]
  have hcheck : checkUpsertName W.toLibs entry.name = .ok () := by
    unfold checkUpsertName
    rw [hname]
    simp
  have hstored := run_doDomainUpsert W.toLibs control entry s
  rw [hcheck] at hstored
  have hdomains : ∀ t : EdgeStore, (t.rescheduled control entry).domains = t.domains := by
    intro t
    rcases rescheduled_cases t control entry with ⟨-, h⟩ | ⟨_, _, -, -, h⟩ | h
    · rw [h]
      unfold EdgeStore.cancelled
      split <;> rfl
    · rw [h]
    · rw [h]
  unfold applyUpsert
  simp only [hread]
  rw [hstored]
  simp only [hdomains]
  rw [Table.lookup_insert_ite]

/-- The server's copies of the domains that were sent are the control plane's entries. -/
structure Converged (W : WireLibs) (control : String) (server : EdgeStore) (r : UpsertRun) :
    Prop where
  replicable : Replicable W.toLibs r.store
  copies : ∀ name ∈ r.touched, ∃ entry, r.store.domains.lookup name = some entry ∧
    (Run.exec (applyUpsert W control) server r.sent).domains.lookup name = some entry

theorem Converged.step {control : String} {server : EdgeStore} {grace : String} {r : UpsertRun}
    {task : DomainTask} (hsettles : r.Settles grace task)
    (h : Converged W control server r) : Converged W control server (r.step W grace task) := by
  unfold UpsertRun.step
  cases hrun : task.run W.toLibs grace r.store with
  | error e => exact h
  | ok result =>
      obtain ⟨store, entry⟩ := result
      have hstored := DomainTask.stored_run h.replicable rfl hsettles hrun
      have hname := hstored.replicable.canonical _ entry hstored.row
      have htidy := hstored.replicable.tidy _ entry hstored.row
      refine ⟨hstored.replicable, ?_⟩
      intro name htouched
      -- the last directive is the entry's; the copies of the others stay
      have hlast : (Run.exec (applyUpsert W control) server
          (r.sent ++ [upsertBody W entry])).domains.lookup name =
            if name = entry.name then some entry
            else (Run.exec (applyUpsert W control) server r.sent).domains.lookup name := by
        rw [Run.exec_append]
        exact lookup_applyUpsert hpayload htimes control _ hname htidy name
      by_cases hsame : name = entry.name
      · refine ⟨entry, ?_, ?_⟩
        · rw [hsame]
          exact hstored.row
        · rw [hlast, if_pos hsame]
      · have hbefore : name ∈ r.touched := (List.mem_cons.mp htouched).resolve_left hsame
        obtain ⟨held, hheld, hcopy⟩ := h.copies name hbefore
        refine ⟨held, ?_, ?_⟩
        · exact (hstored.others name hbefore hsame).trans hheld
        · rw [hlast, if_neg hsame]
          exact hcopy

end Apply

/-- In every run of tasks that settle, a server that has applied the directives it was
sent, in order, holds the control plane's entry of every domain the tasks have changed. -/
theorem domain_upserts_converge (W : WireLibs) (hpayload : PayloadKeeps W)
    (htimes : TimesReadBack W) (grace control : String) {store : DomainStore}
    (hstore : Replicable W.toLibs store) (server : EdgeStore) (tasks : List DomainTask)
    (hsettles : Run.Meets (UpsertRun.step W grace) (UpsertRun.Settles grace)
      (.initial store) tasks) :
    let r := Run.exec (UpsertRun.step W grace) (.initial store) tasks
    ∀ name ∈ r.touched, ∃ entry, r.store.domains.lookup name = some entry ∧
      (Run.exec (applyUpsert W control) server r.sent).domains.lookup name = some entry := by
  intro r
  have hinitial : Converged W control server (.initial store) :=
    ⟨hstore, fun _ h => absurd h List.not_mem_nil⟩
  exact (Run.exec_invariant (fun _ _ hsettle h => h.step hpayload htimes hsettle) hinitial
    hsettles).copies

/-! ## Two domains -/

namespace UpsertSample

open Reference

/-- The date-time of the second 1000, and a code for the other seconds. -/
def dateTime (t : ℤ) : String :=
  if t = 1000 then "1970-01-01T00:16:40Z" else String.ofList (List.replicate t.toNat 'x')

/-- The second of a date-time. -/
def parseDateTime (text : String) : Except String ℤ :=
  if text = "1970-01-01T00:16:40Z" then .ok 1000 else .ok text.toList.length

/-- The wire on the reference libraries. -/
abbrev wire : WireLibs where
  toLibs := libs
  dateTime := dateTime
  parseFromRfc3339 := parseDateTime
  malformed _ := "invalid type"
  upsertEntry body :=
    match body.get "entry" with
    | some entry => .ok entry
    | none => .error "missing field `entry`"

theorem timesReadBack : TimesReadBack wire := by
  intro t _
  change parseDateTime (dateTime t) = .ok (t : ℤ)
  unfold parseDateTime dateTime
  by_cases ht : (t : ℤ) = 1000
  · rw [if_pos ht, if_pos rfl, ht]
  · rw [if_neg ht, Int.toNat_natCast]
    have hne : String.ofList (List.replicate t 'x') ≠ "1970-01-01T00:16:40Z" := by
      intro heq
      have hlist := congrArg String.toList heq
      rw [String.toList_ofList] at hlist
      have hmem : '1' ∈ List.replicate t 'x' := by
        rw [hlist]
        decide
      exact absurd (List.eq_of_mem_replicate hmem) (by decide)
    rw [if_neg hne, String.toList_ofList, List.length_replicate]

theorem payloadKeeps : PayloadKeeps wire := by
  intro entry _ _
  rfl

/-- A server without domains. -/
def server : EdgeStore := ⟨DidsKs.empty, ∅, ∅, ∅, none⟩

/-- The first domain is created as the default, and then labelled. -/
def labelled : List DomainTask :=
  [.create "h.io" none true 1000, .update "h.io" (some "H")]

/-- A second domain is created as the default. -/
def moved : List DomainTask :=
  [.create "h.io" none true 1000, .create "x.io" none true 1000]

/-- The control plane after the tasks. -/
def after (tasks : List DomainTask) : UpsertRun :=
  Run.exec (UpsertRun.step wire "2h") (.initial .empty) tasks

/-- The server after their directives. -/
def copies (tasks : List DomainTask) : EdgeStore :=
  Run.exec (applyUpsert wire "did:c") server (after tasks).sent

theorem settles_labelled : Run.Meets (UpsertRun.step wire "2h") (UpsertRun.Settles "2h")
    (.initial .empty) labelled :=
  ⟨⟨by decide, fun _ _ h => absurd h List.not_mem_nil⟩, trivial, trivial⟩

theorem touched_labelled : "h.io" ∈ (after labelled).touched := by
  decide +kernel

theorem touched_moved : "h.io" ∈ (after moved).touched := by
  decide +kernel

/-- The control plane's entry is no longer the default. -/
theorem entry_moved :
    ((after moved).store.domains.lookup "h.io").map (·.defaultDomain) = some false := by
  decide +kernel

theorem copy_moved :
    ((copies moved).domains.lookup "h.io").map (·.defaultDomain) = some true := by
  decide +kernel

end UpsertSample

open UpsertSample in
/-- A domain that is created and then labelled. -/
theorem domain_upserts_converge_labelled :
    ∃ entry, (after labelled).store.domains.lookup "h.io" = some entry ∧
      (copies labelled).domains.lookup "h.io" = some entry :=
  domain_upserts_converge wire payloadKeeps timesReadBack "2h" "did:c" (replicable_empty _)
    server labelled settles_labelled "h.io" touched_labelled

open UpsertSample in
/-- The default moves to a second domain, and the server is not sent the first one's
entry. -/
theorem moved_default_not_replicated :
    ¬ ∀ (W : WireLibs), PayloadKeeps W → TimesReadBack W → ∀ (grace control : String)
      (server : EdgeStore) (tasks : List DomainTask),
        let r := Run.exec (UpsertRun.step W grace) (.initial .empty) tasks
        ∀ name ∈ r.touched, ∃ entry, r.store.domains.lookup name = some entry ∧
          (Run.exec (applyUpsert W control) server r.sent).domains.lookup name = some entry := by
  intro h
  obtain ⟨entry, hentry, hcopy⟩ :=
    h wire payloadKeeps timesReadBack "2h" "did:c" server moved "h.io" touched_moved
  have hflag : some entry.defaultDomain = some false := by
    rw [← entry_moved, after, hentry]
    rfl
  have hcopied : some entry.defaultDomain = some true := by
    rw [← copy_moved, copies, after, hcopy]
    rfl
  rw [hflag] at hcopied
  cases hcopied

end DidHosting
