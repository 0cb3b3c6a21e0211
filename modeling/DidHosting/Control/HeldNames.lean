import DidHosting.Control.NameIndex

/-!
# The names slots can hold

A name is bound by an agent-name operation or by a publish whose document claims it.  Both
check it with `validate_agent_name_binding`, which looks past a leading `@`; only the
agent-name operations also bind it without the `@`.  As long as no document claims a name
that begins with `@`, every bound name is one the grammar allows, and two spellings of one
public name cannot be bound apart.
-/

namespace DidHosting

open Text

/-! ## Holdable names -/

/-- A name slot `m` may hold: no reserved one, a path segment or the community name, the
latter for the root slot only, and without the `@` of the public spelling. -/
structure Holdable (name m : String) : Prop where
  unreserved : name ∉ reservedAgentNames
  segment : name = "" ∨ validateSegment name = .ok ()
  community : name = "" → m = rootDidMnemonic
  plain : startsWith "@" name = false

section

variable {name m : String}

theorem bareName_eq_self_iff : bareName name = name ↔ startsWith "@" name = false := by
  unfold bareName stripPrefix
  cases h : startsWith "@" name with
  | false => simp
  | true =>
      obtain ⟨rest, hrest⟩ := startsWith_iff.mp h
      simp only [if_true, Option.getD_some, Bool.true_eq_false, iff_false]
      intro heq
      have hlen := congrArg (fun s => s.toList.length) heq
      simp only [String.toList_ofList, List.length_drop, ← hrest, List.length_append] at hlen
      have hat : "@".toList.length = 1 := rfl
      omega

theorem startsWith_at_of_segment (h : validateSegment name = .ok ()) :
    startsWith "@" name = false := by
  cases hat : startsWith "@" name with
  | false => rfl
  | true =>
      exfalso
      obtain ⟨rest, hrest⟩ := startsWith_iff.mp hat
      unfold validateSegment at h
      rw [← hrest] at h
      split at h
      · contradiction
      · rw [if_pos (by rfl)] at h
        contradiction

/-- The binding check accepts what the slot may hold once the `@` is gone. -/
theorem validateAgentNameBinding_eq_ok_iff :
    validateAgentNameBinding name m = .ok () ↔ Holdable (bareName name) m := by
  unfold validateAgentNameBinding validateAgentName
  simp only
  by_cases hempty : bareName name = ""
  · rw [if_pos hempty, hempty]
    constructor
    · intro h
      obtain ⟨_, -, hroot⟩ := bind_eq_ok h
      have hm : m = rootDidMnemonic := by
        by_contra hne
        rw [if_pos (by simp [hne])] at hroot
        contradiction
      exact ⟨by decide, Or.inl rfl, fun _ => hm, rfl⟩
    · intro h
      rw [h.community rfl]
      rfl
  · rw [if_neg hempty]
    constructor
    · intro h
      obtain ⟨_, hname, -⟩ := bind_eq_ok h
      obtain ⟨_, hsegment, hfree⟩ := bind_eq_ok hname
      have hunreserved : bareName name ∉ reservedAgentNames := by
        intro hmem
        rw [if_pos (List.contains_iff_mem.mpr hmem)] at hfree
        contradiction
      exact ⟨hunreserved, Or.inr hsegment, fun h => absurd h hempty,
        startsWith_at_of_segment hsegment⟩
    · intro h
      rw [h.segment.resolve_left hempty]
      have hfree : reservedAgentNames.contains (bareName name) ≠ true :=
        fun hmem => h.unreserved (List.contains_iff_mem.mp hmem)
      simp only [bind, Except.bind, if_neg hfree]
      rw [if_neg (by simp [hempty])]

/-- A name a publish binds is one the slot may hold, unless it begins with `@`. -/
theorem holdable_of_mem_bindableNames {claims : List String}
    (h : name ∈ bindableNames m claims) (hplain : startsWith "@" name = false) :
    Holdable name m := by
  have hok := (List.mem_filter.mp h).2
  cases hv : validateAgentNameBinding name m with
  | error e =>
      rw [hv] at hok
      contradiction
  | ok u =>
      have hheld := validateAgentNameBinding_eq_ok_iff.mp hv
      rwa [bareName_eq_self_iff.mpr hplain] at hheld

end

/-! ## The condition -/

/-- No name the slot would bind of these claims begins with `@`. -/
def PlainNames (m : String) (claims : List String) : Prop :=
  ∀ name ∈ bindableNames m claims, startsWith "@" name = false

/-- A register or publish brings a document whose bindable claims on the slot's domain do
not begin with `@`. -/
def PlainClaims (A : AppState) (s : ControlStore) : Event → Prop
  | .serve (.register _ _ path didLog _ domain) =>
      ∀ p did, verifyPublication A.libs (domain.getD "") path didLog (s.log path)
        (s.witness path) = .ok p → p.didId = some did →
          PlainNames path (p.agentNames A.libs (didHostOrEmpty A.libs did))
  | .serve (.publish auth now m didLog _) =>
      ∀ r p, s.record m = some r → authorized auth r = true →
        verifyPublication A.libs r.domain m didLog (s.log m) (s.witness m) = .ok p →
          PlainNames m (p.agentNames A.libs
            (slotDomain A.libs (republished A.libs r p didLog now)))
  | _ => True

/-! ## The invariant -/

/-- Every row of the name index and every entry of a record is a name its slot may hold. -/
structure NamesHeld (s : ControlStore) : Prop where
  rows : ∀ d n m, s.nameHolder d n = some m → Holdable n m
  entries : ∀ m r, s.record m = some r → ∀ e ∈ r.agentNames, Holdable e.name m

theorem namesHeld_initial (acl : Table String AclEntry) (domains : Table String DomainEntry) :
    NamesHeld (ControlStore.initial acl domains) where
  rows _ _ _ h := by cases h
  entries _ _ h := by cases h

section

variable {A : AppState} {s t : ControlStore} {m : String}

/-- The invariant after the record of one slot and rows of the index have changed. -/
theorem NamesHeld.write {r : DidRecord} (h : NamesHeld s)
    (hdids : t.ks.dids = s.ks.dids.insert m r)
    (hentries : ∀ e ∈ r.agentNames, Holdable e.name m)
    (hrows : ∀ d n m', t.nameHolder d n = some m' →
      s.nameHolder d n = some m' ∨ Holdable n m') : NamesHeld t where
  rows d n m' hrow := by
    rcases hrows d n m' hrow with hold | hnew
    · exact h.rows d n m' hold
    · exact hnew
  entries m' r' hr' := by
    have hrecord : t.record m' = if m' = m then some r else s.record m' :=
      (congrArg (AList.lookup m') hdids).trans (Table.lookup_insert_ite ..)
    rw [hrecord] at hr'
    split at hr'
    · rename_i hm
      cases hr'
      exact hm ▸ hentries
    · exact h.entries m' r' hr'

/-- A change of a record that keeps its names and the index. -/
theorem NamesHeld.touch {r r' : DidRecord} (h : NamesHeld s) (hread : s.record m = some r)
    (hdids : t.ks.dids = s.ks.dids.insert m r') (hnames : r'.agentNames = r.agentNames)
    (hindex : t.ks.agentName = s.ks.agentName) : NamesHeld t :=
  h.write hdids (hnames ▸ h.entries m r hread) fun _ _ _ hrow => by
    rw [ControlStore.nameHolder, hindex] at hrow
    exact Or.inl hrow

/-- The registry and the rows after a publish. -/
theorem NamesHeld.reconciled {names next : List AgentNameEntry} {claims : List String}
    {domain : String} {now : ℕ} {changes : NameChanges} {r : DidRecord} (h : NamesHeld s)
    (hnames : ∀ e ∈ names, Holdable e.name m)
    (hrec : Reconciled {s} names m claims domain now next changes)
    (hplain : PlainNames m claims) (hr : r.agentNames = next)
    (hdids : t.ks.dids = s.ks.dids.insert m r)
    (hindex : t.ks.agentName = reindex changes domain m s.ks.agentName) : NamesHeld t := by
  have hclaimed : ∀ n ∈ changes.claimed, Holdable n m := by
    intro n hn
    rw [hrec.claimed_eq] at hn
    exact holdable_of_mem_bindableNames hn (hplain n hn)
  refine h.write hdids ?_ ?_
  · intro e he
    rw [hr, hrec.next_eq] at he
    rcases mem_reconciledNames.mp (List.mem_map_of_mem he) with hnew | ⟨e', he', hname, -, -⟩
    · exact hclaimed _ hnew
    · exact hname ▸ hnames e' he'
  · intro d n m' hrow
    rw [ControlStore.nameHolder, hindex, lookup_reindex] at hrow
    split at hrow
    · contradiction
    · split at hrow
      · rename_i hnew
        cases hrow
        exact Or.inr (hclaimed n hnew.2)
      · exact Or.inl hrow

/-- The names after an agent-name operation are those before it and the name it is about. -/
theorem mem_agentNameEffect {op : AgentNameOp} {names : List AgentNameEntry}
    {domain name : String} {now : ℕ} {holder : Option String}
    {effect : List AgentNameEntry × Batch}
    (h : agentNameEffect op names m domain name now holder = .ok effect) {e : AgentNameEntry}
    (he : e ∈ effect.1) : e.name ∈ names.map (·.name) ∨ e.name = name := by
  have hmem : e.name ∈ effect.1.map (·.name) := List.mem_map_of_mem he
  rcases agentNameEffect_cases h with ⟨-, -, rfl⟩ | ⟨-, rfl⟩ | ⟨-, -, rfl⟩
  · rw [map_name_upsert] at hmem
    split at hmem
    · exact Or.inl hmem
    · rcases List.mem_append.mp hmem with hold | hnew
      · exact Or.inl hold
      · exact Or.inr (List.mem_singleton.mp hnew)
  · rw [map_name_setEnabled] at hmem
    exact Or.inl hmem
  · exact Or.inl (List.mem_map_of_mem (List.mem_of_mem_filter he))

/-- The rows after an agent-name operation are those before it and the row of its name. -/
theorem lookup_agentNameEffect {op : AgentNameOp} {names : List AgentNameEntry}
    {domain name : String} {now : ℕ} {holder : Option String}
    {effect : List AgentNameEntry × Batch}
    (h : agentNameEffect op names m domain name now holder = .ok effect) {ks : DidsKs}
    {d n m' : String} (hrow : (DidsKs.commit effect.2 ks).agentName.lookup (d, n) = some m') :
    ks.agentName.lookup (d, n) = some m' ∨ n = name ∧ m' = m := by
  rcases agentNameEffect_cases h with ⟨-, -, rfl⟩ | ⟨-, rfl⟩ | ⟨-, -, rfl⟩
  · rw [show (DidsKs.commit [.insertName domain name m] ks).agentName =
      ks.agentName.insert (domain, name) m from rfl] at hrow
    rcases Table.lookup_insert_cases hrow with ⟨hkey, rfl⟩ | hold
    · exact Or.inr ⟨congrArg Prod.snd hkey, rfl⟩
    · exact Or.inl hold
  · exact Or.inl hrow
  · rw [show (DidsKs.commit [.removeName domain name] ks).agentName =
      ks.agentName.erase (domain, name) from rfl] at hrow
    exact Or.inl (Table.lookup_of_erase hrow)

/-! ## Steps -/

/-- The name of an agent-name operation passed the binding check. -/
def Op.NameChecked : Op → Prop
  | .agentName _ _ m name _ _ _ => validateAgentNameBinding name m = .ok ()
  | _ => True

/-- `step_batch`, with the check an agent-name operation makes first. -/
theorem step_batch_checked (op : Op) (s : ControlStore) :
    ((op.prog A).run s).2 = s ∨
      ∃ w, OpBatch A {s} op w ∧ op.NameChecked ∧
        ((op.prog A).run s).2 = WriteBatch.commit w s := by
  cases op with
  | agentName auth now m name didLog requestDomain op =>
      cases hcheck : validateAgentNameBinding name m with
      | error e =>
          refine Or.inl ?_
          simp only [Op.prog]
          rw [run_ignore, applyAgentNameOp, hcheck]
          rfl
      | ok u =>
          rcases step_batch (A := A) (.agentName auth now m name didLog requestDomain op) s with
            hsame | ⟨w, hw, hcommit⟩
          · exact Or.inl hsame
          · exact Or.inr ⟨w, hw, hcheck, hcommit⟩
  | _ =>
      rcases step_batch (A := A) _ s with hsame | ⟨w, hw, hcommit⟩
      · exact Or.inl hsame
      · exact Or.inr ⟨w, hw, trivial, hcommit⟩

theorem namesHeld_batch {op : Op} {w : Batch} (hw : OpBatch A {s} op w)
    (hchecked : op.NameChecked) (hok : PlainClaims A s (.serve op)) (h : NamesHeld s) :
    NamesHeld (WriteBatch.commit w s) := by
  cases hw with
  | @created auth now path force domain draws m existing hread hauth =>
      obtain ⟨hdids, -, hindex⟩ := commit_createBatches s.ks auth m existing domain now
      refine h.write hdids (fun e he => nomatch he) ?_
      intro d n m' hrow
      exact Or.inl ((congrArg (AList.lookup (d, n)) hindex).symm.trans hrow)
  | @registered auth now path didLog force domain existing ownerChanged p did base names
      changes hpre hreg =>
      obtain ⟨hdids, -, hindex⟩ := commit_registerBatch s.ks auth path didLog
        (didHostOrEmpty A.libs did) existing ownerChanged
        (registerRecord A auth path didLog p did existing ownerChanged names now) changes
      have hnames : ∀ e ∈ existingNames existing, Holdable e.name path := by
        intro e he
        cases existing with
        | none => cases he
        | some r => exact h.entries path r (read_singleton hreg.existing_read) e he
      exact h.reconciled hnames hreg.reconciled (hok p did hreg.verified_at hreg.didId_eq) rfl
        hdids hindex
  | @published auth now m didLog requestDomain r p names changes hrep hrec =>
      have hread := read_singleton hrep.record_read
      have heff := commit_publishBatch s.ks m didLog
        (slotDomain A.libs (republished A.libs r p didLog now))
        { republished A.libs r p didLog now with agentNames := names } changes
      exact h.reconciled (h.entries m r hread) hrec (hok r p hread hrep.allowed hrep.verified_at)
        rfl (congrArg DidsKs.dids heff) (congrArg DidsKs.agentName heff)
  | @named auth now m name didLog requestDomain op r p holder effect hrep hclaim hholder
      heffect =>
      have hbare : Holdable (bareName name) m :=
        validateAgentNameBinding_eq_ok_iff.mp hchecked
      have hread := read_singleton hrep.record_read
      have heff := commit_namedBatch heffect didLog
        { republished A.libs r p didLog now with agentNames := effect.1 } s.ks
      refine h.write (congrArg DidsKs.dids heff) ?_ ?_
      · intro e he
        rcases mem_agentNameEffect heffect he with hold | hnew
        · obtain ⟨e', he', hname⟩ := List.mem_map.mp hold
          exact hname ▸ h.entries m r hread e' he'
        · exact hnew ▸ hbare
      · intro d n m' hrow
        have hrow' := (congrArg (fun ks : DidsKs => ks.agentName.lookup (d, n))
          heff).symm.trans hrow
        rcases lookup_agentNameEffect heffect hrow' with hold | ⟨rfl, rfl⟩
        · exact Or.inl hold
        · exact Or.inr hbare
  | witnessed => exact ⟨h.rows, h.entries⟩
  | @deleted auth m requestDomain r hread hauth =>
      refine ⟨h.rows, ?_⟩
      intro m' r' hr'
      have hlookup : (WriteBatch.commit (deleteBatch m r.owner) s).record m' =
          (s.ks.dids.erase m).lookup m' := rfl
      rw [hlookup] at hr'
      exact h.entries m' r' (Table.lookup_of_erase hr')
  | transferred hread hauth => exact h.touch (read_singleton hread) rfl rfl rfl
  | disabled hread hauth => exact h.touch (read_singleton hread) rfl rfl rfl
  | rolledBack hread hauth hcontent hkeep hlt => exact h.touch (read_singleton hread) rfl rfl rfl

theorem namesHeld_step (e : Event) (hok : PlainClaims A s e) (h : NamesHeld s) :
    NamesHeld (e.step A s) := by
  cases e with
  | administer acl domains => exact ⟨h.rows, h.entries⟩
  | serve op =>
      change NamesHeld ((op.prog A).run s).2
      rcases step_batch_checked op s with hsame | ⟨w, hw, hchecked, hcommit⟩
      · rw [hsame]
        exact h
      · rw [hcommit]
        exact namesHeld_batch hw hchecked hok h

/-- Two rows of a domain with one public spelling are one row. -/
theorem NamesHeld.one_holder (h : NamesHeld s) {d n n' m m' : String}
    (hrow : s.nameHolder d n = some m) (hrow' : s.nameHolder d n' = some m')
    (hspelling : bareName n = bareName n') : n = n' ∧ m = m' := by
  rw [bareName_eq_self_iff.mpr (h.rows d n m hrow).plain,
    bareName_eq_self_iff.mpr (h.rows d n' m' hrow').plain] at hspelling
  subst hspelling
  exact ⟨rfl, Option.some.inj (hrow.symm.trans hrow')⟩

end

/-- In every run in which no bindable claim of a document begins with `@`, index and records
hold no reserved name, only names of the grammar, the community name at the root slot only,
and no name with an `@`; each public spelling has one possible holder on a domain. -/
theorem reserved_names_unbound (A : AppState) (acl : Table String AclEntry)
    (domains : Table String DomainEntry) (events : List Event)
    (hok : Run.Meets (Event.step A) (PlainClaims A) (ControlStore.initial acl domains)
      events) :
    let s := Run.exec (Event.step A) (ControlStore.initial acl domains) events
    (∀ d n m, s.nameHolder d n = some m → Holdable n m) ∧
      (∀ m r, s.record m = some r → ∀ e ∈ r.agentNames, Holdable e.name m) ∧
      ∀ d n n' m m', s.nameHolder d n = some m → s.nameHolder d n' = some m' →
        bareName n = bareName n' → n = n' ∧ m = m' := by
  intro s
  have hheld : NamesHeld s :=
    Run.exec_invariant (fun _ e => namesHeld_step e) (namesHeld_initial acl domains) hok
  exact ⟨hheld.rows, hheld.entries, fun _ _ _ _ _ => hheld.one_holder⟩

section Samples

open Reference

/-- A first version whose document claims the name `@al`. -/
def marked1 : Json := entry "1-a" didAl ["https://h.io/@@al"]

/-- What the libraries read in the sample version and its name, evaluated. -/
theorem marked_evaluated :
    (('\n' ∉ printValue marked1 ∧ '\r' ∉ printValue marked1) ∧
      trimChars (printValue marked1) = printValue marked1) ∧
    validateAgentNameBinding "@al" "al" = .ok () ∧ startsWith "@" "@al" = true ∧
      validateSegment "@al" ≠ .ok () := by
  decide +kernel

theorem validLog_marked1 :
    ValidLog [marked1] didAl (document didAl ["https://h.io/@@al"]) where
  wellFormed := by
    have hmarked : WellFormed marked1 := ⟨marked_evaluated.1.1, marked_evaluated.1.2, rfl⟩
    simpa using hmarked
  short := by decide
  chain := rfl
  last := rfl
  did_eq := rfl
  webvh := webvh_dids.1

theorem agentNames_marked1 :
    agentNamesFromDocument libs (document didAl ["https://h.io/@@al"])
      (didHostOrEmpty libs didAl) = ["@al"] := by
  rw [host_didAl, agentNames_document]
  decide +kernel

/-- A registration of slot `al` with one entry. -/
def registering (e : Json) : Event :=
  .serve (.register admin 1 "al" (logOf [e]) false none)

/-- The administrator registers slot `al` with one entry that claims `name` on `h.io`. -/
theorem registering_row {e : Json} {url name : String}
    (hlog : ValidLog [e] didAl (document didAl [url]))
    (hnames : agentNamesFromDocument libs (document didAl [url]) (didHostOrEmpty libs didAl) =
      [name])
    (hbinding : validateAgentNameBinding name "al" = .ok ()) :
    (Run.exec (Event.step control) fresh [registering e]).nameHolder "h.io" name =
      some "al" := by
  have hfree : ∀ n ∈ agentNamesFromDocument libs (document didAl [url])
      (didHostOrEmpty libs didAl), validateAgentNameBinding n "al" = .ok () ∧
        fresh.nameHolder (didHostOrEmpty libs didAl) n = none := by
    rw [hnames]
    intro n hn
    rw [List.mem_singleton.mp hn]
    exact ⟨hbinding, rfl⟩
  have hstored := stored_register unrestricted_fresh hlog validateMnemonic_al bound_didAl rfl
    hfree 1
  rw [hnames, host_didAl] at hstored
  rw [Run.exec_cons, Run.exec_nil, registering, ControlStore.nameHolder, hstored.names,
    lookup_reindex]
  simp

/-- Such a registration meets the condition if the name does not begin with `@`. -/
theorem plainClaims_registering {e : Json} {url name : String}
    (hlog : ValidLog [e] didAl (document didAl [url]))
    (hnames : agentNamesFromDocument libs (document didAl [url]) (didHostOrEmpty libs didAl) =
      [name])
    (hplain : startsWith "@" name = false) :
    PlainClaims control fresh (registering e) := by
  intro p did hverified hdid n hn
  have hp : publicationOf [e] didAl (document didAl [url]) = p :=
    Except.ok.inj ((hlog.verifyPublication_eq _ _ _ _).symm.trans hverified)
  subst hp
  have hdidAl : didAl = did := Option.some.inj hdid
  subst hdidAl
  have hmem : n ∈ agentNamesFromDocument libs (document didAl [url])
      (didHostOrEmpty libs didAl) := List.mem_of_mem_filter hn
  rw [hnames] at hmem
  rw [List.mem_singleton.mp hmem]
  exact hplain

theorem binding_named1 : validateAgentNameBinding "al" "al" = .ok () := by
  decide +kernel

/-- The guarantee along a run that registers slot `al` under the name `al`. -/
theorem reserved_names_unbound_register :
    Run.Meets (Event.step control) (PlainClaims control) fresh [registering named1] ∧
      (Run.exec (Event.step control) fresh [registering named1]).nameHolder "h.io" "al" =
        some "al" ∧
      Holdable "al" "al" := by
  have hok : Run.Meets (Event.step control) (PlainClaims control) fresh
      [registering named1] :=
    ⟨plainClaims_registering validLog_named1 agentNames_named1 (by decide), trivial⟩
  have hrow := registering_row validLog_named1 agentNames_named1 binding_named1
  exact ⟨hok, hrow, (reserved_names_unbound control ∅ ∅ [registering named1] hok).1 _ _ _ hrow⟩

/-- A registration whose document claims `@al` binds it: a name that begins with `@` and is
no path segment. -/
theorem marked_name_bound :
    (Run.exec (Event.step control) fresh [registering marked1]).nameHolder "h.io" "@al" =
        some "al" ∧
      startsWith "@" "@al" = true ∧ validateSegment "@al" ≠ .ok () := by
  obtain ⟨hbinding, hmark, hsegment⟩ := marked_evaluated.2
  exact ⟨registering_row validLog_marked1 agentNames_marked1 hbinding, hmark, hsegment⟩

end Samples

end DidHosting
