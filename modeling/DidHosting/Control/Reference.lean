import DidHosting.Common.Reference
import DidHosting.Control.Accept
import DidHosting.Control.Effects

/-!
# A reference deployment

A control plane on the reference libraries, at `https://h.io`, without
configured domains, and its administrator.  The results say which store a
request of the administrator leaves, for every log the reference libraries
verify.
-/

namespace DidHosting.Reference

open Text

/-- The control plane at `https://h.io`. -/
def control : AppState :=
  ⟨libs, ⟨some "https://h.io", none, true⟩⟩

def admin : AuthClaims :=
  ⟨"did:key:z", .admin⟩

/-- The store of a fresh deployment. -/
def fresh : ControlStore :=
  ControlStore.initial ∅ ∅

theorem fresh_record (m : String) : fresh.record m = none :=
  rfl

theorem unrestricted_fresh : Unrestricted admin fresh :=
  ⟨rfl, rfl⟩

variable {s : ControlStore} {es : List Json} {did : String} {state : Json} {path : String}

/-- The publication of a log the reference libraries verify. -/
def publicationOf (es : List Json) (did : String) (state : Json) : Publication :=
  ⟨.webvh, some did, some state, logOf es⟩

/-- The record a registration of a fresh slot stores. -/
def registeredRecord (es : List Json) (did : String) (state : Json) (path : String)
    (now : ℕ) : DidRecord :=
  registerRecord control admin path (logOf es) (publicationOf es did state) did none false
    (reconciledNames [] (agentNamesFromDocument libs state (didHostOrEmpty libs did)) now) now

/-- The batch of a registration of a fresh slot. -/
def registeredBatch (es : List Json) (did : String) (state : Json) (path : String)
    (now : ℕ) : Batch :=
  registerBatch admin path (logOf es) none false (registeredRecord es did state path now)
    ⟨agentNamesFromDocument libs state (didHostOrEmpty libs did), []⟩
    (didHostOrEmpty libs did)

theorem registerPrecheck_valid (hlog : ValidLog es did state)
    (hpath : validateMnemonic path = .ok ()) :
    registerPrecheck control admin path (logOf es) = .ok () := by
  have hnot : ¬ (decide (path = rootDidMnemonic) && decide (admin.role ≠ .admin)) := by
    simp [admin]
  have hdet : detectMethod control.libs (logOf es) ≠ some .webs := by
    rw [show control.libs = libs from rfl, hlog.detectMethod_eq]
    simp
  unfold registerPrecheck
  rw [if_neg hnot, if_neg hdet, hpath]

/-- The administrator registers a free slot: the names the document claims on
its host must be bindable and free. -/
theorem registerPlan_free (now : ℕ) (h : Unrestricted admin s) (hlog : ValidLog es did state)
    (hbound : validateDidIdMatchesRequest libs did path "https://h.io" = .ok ())
    (hfree : s.record path = none)
    (hnames : ∀ n ∈ agentNamesFromDocument libs state (didHostOrEmpty libs did),
      validateAgentNameBinding n path = .ok () ∧
        s.nameHolder (didHostOrEmpty libs did) n = none) :
    ∃ response, (registerPlan control admin now path (logOf es) false none).Yields {s}
      (some (registeredBatch es did state path now), response) := by
  have hrec : (reconcileAgentNames [] path
      (agentNamesFromDocument libs state (didHostOrEmpty libs did))
      (didHostOrEmpty libs did) now).Yields {s}
      (reconciledNames [] (agentNamesFromDocument libs state (didHostOrEmpty libs did)) now,
        ⟨agentNamesFromDocument libs state (didHostOrEmpty libs did), []⟩) :=
    reconcileAgentNames_yields [] now
      (fun n hn => ⟨(hnames n hn).1, Or.inl (hnames n hn).2⟩)
  have hpub : verifyPublication control.libs ((none : Option String).getD "") path (logOf es)
      (s.log path) (s.witness path) = .ok (publicationOf es did state) :=
    hlog.verifyPublication_eq _ _ _ _
  have howner : registerOwnership admin false (s.record path) = .ok false := by
    rw [hfree]
    rfl
  obtain ⟨response, hplan⟩ :=
    registerPlan_yields h hpub rfl rfl (registerBinding_bound hbound) howner
      (by rw [hfree]; exact hrec)
  rw [hfree] at hplan
  exact ⟨response, hplan⟩

theorem register_thread (now : ℕ) (h : Unrestricted admin s) (hlog : ValidLog es did state)
    (hpath : validateMnemonic path = .ok ())
    (hbound : validateDidIdMatchesRequest libs did path "https://h.io" = .ok ())
    (hfree : s.record path = none)
    (hnames : ∀ n ∈ agentNamesFromDocument libs state (didHostOrEmpty libs did),
      validateAgentNameBinding n path = .ok () ∧
        s.nameHolder (didHostOrEmpty libs did) n = none) :
    (Op.register admin now path (logOf es) false none).prog control =
        Prog.planned (some path)
          (dropAnswer (registerPlan control admin now path (logOf es) false none)) ∧
      (dropAnswer (registerPlan control admin now path (logOf es) false none)).Yields {s}
        (some (registeredBatch es did state path now), ()) := by
  constructor
  · simp only [Op.prog, registerDidAtomic, registerPrecheck_valid hlog hpath]
    exact ignore_planned (some path) _
  · obtain ⟨response, hplan⟩ := registerPlan_free now h hlog hbound hfree hnames
    exact dropAnswer_yields hplan

/-- What an accepted log leaves: the slot holds `content` and `r`, and the index
has the given changes of names on `host`. -/
structure Stored (s t : ControlStore) (path content : String) (r : DidRecord)
    (changes : NameChanges) (host : String) : Prop where
  unrestricted : Unrestricted admin t
  record : t.record path = some r
  log : t.log path = some content
  names : t.ks.agentName = reindex changes host path s.ks.agentName
  others : ∀ m, m ≠ path → SameSlot s t m

/-- The commit of a registration of a fresh slot. -/
theorem stored_registeredBatch (h : Unrestricted admin s) (es : List Json) (did : String)
    (state : Json) (path : String) (now : ℕ) :
    Stored s (WriteBatch.commit (registeredBatch es did state path now) s) path (logOf es)
      (registeredRecord es did state path now)
      ⟨agentNamesFromDocument libs state (didHostOrEmpty libs did), []⟩
      (didHostOrEmpty libs did) := by
  obtain ⟨hdids, hlogs, hindex⟩ := commit_registerBatch s.ks admin path (logOf es)
    (didHostOrEmpty libs did) none false (registeredRecord es did state path now)
    ⟨agentNamesFromDocument libs state (didHostOrEmpty libs did), []⟩
  obtain ⟨hothers, hrecord, hcontent⟩ := write_slot hdids hlogs
  exact ⟨h.commit _, hrecord, hcontent, hindex, hothers⟩

theorem stored_register (h : Unrestricted admin s) (hlog : ValidLog es did state)
    (hpath : validateMnemonic path = .ok ())
    (hbound : validateDidIdMatchesRequest libs did path "https://h.io" = .ok ())
    (hfree : s.record path = none)
    (hnames : ∀ n ∈ agentNamesFromDocument libs state (didHostOrEmpty libs did),
      validateAgentNameBinding n path = .ok () ∧
        s.nameHolder (didHostOrEmpty libs did) n = none) (now : ℕ) :
    Stored s
      (Event.step control s (.serve (.register admin now path (logOf es) false none)))
      path (logOf es) (registeredRecord es did state path now)
      ⟨agentNamesFromDocument libs state (didHostOrEmpty libs did), []⟩
      (didHostOrEmpty libs did) := by
  obtain ⟨response, hplan⟩ := registerPlan_free now h hlog hbound hfree hnames
  rw [step_register (registerPrecheck_valid hlog hpath) hplan]
  exact stored_registeredBatch h es did state path now

/-- The registration of a log that claims no names. -/
theorem registered_plain (h : Unrestricted admin s)
    (hlog : ValidLog es did (document did []))
    (hpath : validateMnemonic path = .ok ())
    (hbound : validateDidIdMatchesRequest libs did path "https://h.io" = .ok ())
    (hfree : s.record path = none) (now : ℕ) :
    Stored s
      (Event.step control s (.serve (.register admin now path (logOf es) false none)))
      path (logOf es) (registeredRecord es did (document did []) path now) ⟨[], []⟩
      (didHostOrEmpty libs did) := by
  have hstored := stored_register h hlog hpath hbound hfree (by rw [agentNames_plain]; simp) now
  rwa [agentNames_plain] at hstored

theorem registeredRecord_agentNames_plain (es : List Json) (did path : String) (now : ℕ) :
    (registeredRecord es did (document did []) path now).agentNames = [] := by
  change reconciledNames [] (agentNamesFromDocument libs (document did []) _) now = []
  rw [agentNames_document]
  rfl

/-- The domain of the slot once the log is published. -/
def publishedDomain (r : DidRecord) (es : List Json) (did : String) (state : Json)
    (now : ℕ) : String :=
  slotDomain libs (republished libs r (publicationOf es did state) (logOf es) now)

/-- The names a document claims on the domain of its slot. -/
def publishedClaims (r : DidRecord) (es : List Json) (did : String) (state : Json)
    (now : ℕ) : List String :=
  agentNamesFromDocument libs state (publishedDomain r es did state now)

/-- The record a publish stores. -/
def publishedRecord (r : DidRecord) (es : List Json) (did : String) (state : Json)
    (now : ℕ) : DidRecord :=
  { republished libs r (publicationOf es did state) (logOf es) now with
    agentNames := reconciledNames r.agentNames (publishedClaims r es did state now) now }

/-- The administrator publishes a version: the names the document claims must be
bindable, and free or held by this slot. -/
theorem publishPlan_yields {r : DidRecord} (h : Unrestricted admin s)
    (hrec : s.record path = some r) (hmethod : r.method = .webvh)
    (hlog : ValidLog es did state) (hpath : validateMnemonic path = .ok ()) (now : ℕ)
    (hnames : ∀ n ∈ publishedClaims r es did state now,
      validateAgentNameBinding n path = .ok () ∧
        (s.nameHolder (publishedDomain r es did state now) n = none ∨
          s.nameHolder (publishedDomain r es did state now) n = some path)) :
    (publishPlan control admin now path (logOf es) none).Yields {s}
      (some (publishBatch path (logOf es) (publishedRecord r es did state now)
        ⟨publishedClaims r es did state now,
          (droppedNames r.agentNames (publishedClaims r es did state now)).filter fun n =>
            s.nameHolder (publishedDomain r es did state now) n = some path⟩
        (publishedDomain r es did state now)), ()) := by
  have hprep : (prepareRepublish control admin now path (logOf es) none).Yields {s}
      (republished libs r (publicationOf es did state) (logOf es) now,
        publishedDomain r es did state now, publicationOf es did state) :=
    prepareRepublish_yields h hrec (by rw [hmethod]; exact hpath)
      (hlog.verifyPublication_eq _ _ _ _) hmethod.symm
  unfold publishPlan
  simp only [Query.yields_bind, Query.yields_pure]
  exact ⟨_, hprep, _, reconcileAgentNames_yields r.agentNames now hnames, rfl⟩

theorem stored_publish {r : DidRecord} (h : Unrestricted admin s)
    (hrec : s.record path = some r) (hmethod : r.method = .webvh)
    (hlog : ValidLog es did state) (hpath : validateMnemonic path = .ok ()) (now : ℕ)
    (hnames : ∀ n ∈ publishedClaims r es did state now,
      validateAgentNameBinding n path = .ok () ∧
        (s.nameHolder (publishedDomain r es did state now) n = none ∨
          s.nameHolder (publishedDomain r es did state now) n = some path)) :
    Stored s
      (Event.step control s (.serve (.publish admin now path (logOf es) none)))
      path (logOf es) (publishedRecord r es did state now)
      ⟨publishedClaims r es did state now,
        (droppedNames r.agentNames (publishedClaims r es did state now)).filter fun n =>
          s.nameHolder (publishedDomain r es did state now) n = some path⟩
      (publishedDomain r es did state now) := by
  rw [step_publish (publishPlan_yields h hrec hmethod hlog hpath now hnames)]
  have heff := commit_publishBatch s.ks path (logOf es) (publishedDomain r es did state now)
    (publishedRecord r es did state now)
    ⟨publishedClaims r es did state now,
      (droppedNames r.agentNames (publishedClaims r es did state now)).filter fun n =>
        s.nameHolder (publishedDomain r es did state now) n = some path⟩
  obtain ⟨hothers, hrecord, hcontent⟩ :=
    write_slot (congrArg DidsKs.dids heff) (congrArg DidsKs.contentLog heff)
  have hindex := congrArg DidsKs.agentName heff
  exact ⟨h.commit _, hrecord, hcontent, hindex, hothers⟩

/-- The administrator publishes a version without names on a slot without
names. -/
theorem published_plain {r : DidRecord} (h : Unrestricted admin s)
    (hrec : s.record path = some r) (hmethod : r.method = .webvh) (hnames : r.agentNames = [])
    (hlog : ValidLog es did (document did [])) (hpath : validateMnemonic path = .ok ())
    (now : ℕ) :
    Stored s
      (Event.step control s (.serve (.publish admin now path (logOf es) none)))
      path (logOf es) (publishedRecord r es did (document did []) now) ⟨[], []⟩
      (publishedDomain r es did (document did []) now) := by
  have hnone : publishedClaims r es did (document did []) now = [] :=
    agentNames_document did _ []
  have hstored := stored_publish h hrec hmethod hlog hpath now (by rw [hnone]; simp)
  rwa [hnone, hnames] at hstored

/-- The administrator rolls a slot back; the name index stays as it is. -/
theorem stored_rollback {r : DidRecord} {content : String} {targetVersion : Option ℕ}
    {keep : ℕ} (h : Unrestricted admin s) (hpath : validateMnemonic path = .ok ())
    (hrec : s.record path = some r) (hlog : s.log path = some content)
    (hkeep : rollbackKeep (entryCount content) targetVersion = .ok keep)
    (hlt : keep < entryCount content) (now : ℕ) (host : String) :
    Stored s (Event.step control s (.serve (.rollback admin now path targetVersion)))
      path (truncateLog content keep)
      (rolledBack libs r (truncateLog content keep) keep now) ⟨[], []⟩ host := by
  rw [step_rollback h hpath hrec hlog hkeep hlt]
  exact ⟨h.commit _, AList.lookup_insert _, AList.lookup_insert _, rfl,
    fun m hne => ⟨AList.lookup_insert_ne hne, AList.lookup_insert_ne hne⟩⟩

theorem truncateLog_logOf {es : List Json} (hes : ∀ e ∈ es, WellFormed e) (keep : ℕ) :
    truncateLog (logOf es) keep = logOf (es.take keep) := by
  unfold truncateLog
  rw [nonblankLines_logOf hes, ← List.map_take]
  rfl

end DidHosting.Reference
