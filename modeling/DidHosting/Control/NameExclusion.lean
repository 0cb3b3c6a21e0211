import DidHosting.Support.Interleaving
import DidHosting.Control.NameIndex

/-!
# Exclusive names under concurrent publishes

The lock of a publish is that of its slot, so two publishes on different slots
run side by side.  Each checks that the names its document claims are free and
points the index at its slot in a later commit.  The check is good as long as
the rows it read have not changed when the commit is made.
-/

namespace DidHosting

open Text

/-! ## Requests as guarded plans -/

/-- The plan of a request that stores a new log, with its check in front. -/
def Op.storePlan (A : AppState) : Op → ControlQ (Option Batch × Unit)
  | .register auth now path didLog force domain => do
      Query.ofExcept (registerPrecheck A auth path didLog)
      dropAnswer (registerPlan A auth now path didLog force domain)
  | .publish auth now mnemonic didLog requestDomain =>
      publishPlan A auth now mnemonic didLog requestDomain
  | .agentName auth now mnemonic name didLog requestDomain op => do
      Query.ofExcept (validateAgentNameBinding name mnemonic)
      dropAnswer (agentNamePlan A auth now mnemonic (bareName name) didLog requestDomain op)
  | _ => pure (none, ())

section

variable {A : AppState} {V : Set ControlStore} {s : ControlStore} {op : Op} {w : Batch}
  {m : String}

/-- A request that stores a log runs its plan under the lock of the slot, unless
its check fails at once. -/
theorem prog_eq_planned (A : AppState) (hop : op.publishes = some m) :
    op.prog A = Prog.planned (some m) (op.storePlan A) ∨ (op.prog A).isDone = true := by
  cases op with
  | register auth now path didLog force domain =>
      cases hop
      cases hpre : registerPrecheck A auth m didLog with
      | error e =>
          right
          simp only [Op.prog, registerDidAtomic, hpre]
          rfl
      | ok u =>
          left
          simp only [Op.prog, registerDidAtomic, Op.storePlan, hpre]
          exact ignore_planned (some m) _
  | publish auth now mnemonic didLog requestDomain =>
      cases hop
      exact Or.inl rfl
  | agentName auth now mnemonic name didLog requestDomain nameOp =>
      cases hop
      cases hpre : validateAgentNameBinding name m with
      | error e =>
          right
          simp only [Op.prog, applyAgentNameOp, hpre]
          rfl
      | ok u =>
          left
          simp only [Op.prog, applyAgentNameOp, Op.storePlan, hpre]
          exact ignore_planned (some m) _
  | _ => contradiction

theorem storePlan_batch {u : Unit} (hop : op.publishes = some m)
    (h : (op.storePlan A).Yields V (some w, u)) : OpBatch A V op w := by
  cases op with
  | register auth now path didLog force domain =>
      simp only [Op.storePlan, Query.yields_bind, Query.yields_ofExcept] at h
      obtain ⟨_, hpre, hplan⟩ := h
      obtain ⟨a, hplan⟩ := yields_dropAnswer hplan
      obtain ⟨existing, ownerChanged, publication, didId, base, names, changes, hreg, hw⟩ :=
        registerPlan_spec hplan
      cases hw
      exact .registered hpre hreg
  | publish auth now mnemonic didLog requestDomain =>
      obtain ⟨record, publication, names, changes, hrep, hnames, hw⟩ := publishPlan_spec h
      cases hw
      exact .published hrep hnames
  | agentName auth now mnemonic name didLog requestDomain nameOp =>
      simp only [Op.storePlan, Query.yields_bind, Query.yields_ofExcept] at h
      obtain ⟨_, hpre, hplan⟩ := h
      obtain ⟨a, hplan⟩ := yields_dropAnswer hplan
      obtain ⟨record, publication, holder, effect, hrep, hclaim, hholder, heffect, hw⟩ :=
        agentNamePlan_spec hplan
      cases hw
      exact .named hrep hclaim hholder heffect
  | _ => contradiction

/-- It writes record, log and witness file of its own slot only. -/
theorem OpBatch.slot_of_publishes (h : OpBatch A V op w) (hop : op.publishes = some m)
    (o : BatchOp) (ho : o ∈ w) (m' : String) (hslot : o.slot = some m') : m' = m := by
  cases h with
  | @registered auth now path didLog force domain existing ownerChanged publication didId base
      names changes hpre hreg =>
      have hm : path = m := Option.some.inj hop
      subst hm
      have htake : ∀ o ∈ takeoverBatch path existing ownerChanged, ∀ m',
          o.slot = some m' → m' = path := by
        intro o ho m' hslot
        cases existing with
        | none => contradiction
        | some prev =>
            cases ownerChanged with
            | false => contradiction
            | true =>
                simp only [takeoverBatch, List.mem_cons, List.not_mem_nil, or_false] at ho
                rcases ho with rfl | rfl
                · exact (Option.some.inj hslot).symm
                · contradiction
      simp only [registerBatch, nameBatch, List.mem_append, List.mem_cons,
        List.not_mem_nil, or_false, List.mem_map] at ho
      rcases ho with ((rfl | ho) | rfl | rfl) | ⟨n, -, rfl⟩ | ⟨n, -, rfl⟩
      · exact (Option.some.inj hslot).symm
      · exact htake o ho m' hslot
      · exact (Option.some.inj hslot).symm
      · contradiction
      · contradiction
      · contradiction
  | @published auth now m didLog requestDomain record publication names changes hrep hrec =>
      cases hop
      simp only [publishBatch, nameBatch, List.mem_append, List.mem_cons, List.not_mem_nil,
        or_false, List.mem_map] at ho
      rcases ho with (rfl | rfl) | ⟨n, -, rfl⟩ | ⟨n, -, rfl⟩
      · exact (Option.some.inj hslot).symm
      · exact (Option.some.inj hslot).symm
      · contradiction
      · contradiction
  | @named auth now m name didLog requestDomain nameOp record publication holder effect hrep
      hclaim hholder heffect =>
      cases hop
      have hnames : ∀ o ∈ effect.2, o.slot = none := by
        rcases agentNameEffect_cases heffect with ⟨-, -, rfl⟩ | ⟨-, rfl⟩ | ⟨-, -, rfl⟩
        all_goals simp [BatchOp.slot]
      simp only [List.mem_append, List.mem_cons, List.not_mem_nil, or_false] at ho
      rcases ho with (rfl | rfl) | ho
      · exact (Option.some.inj hslot).symm
      · exact (Option.some.inj hslot).symm
      · rw [hnames o ho] at hslot
        contradiction
  | _ => contradiction

end

/-! ## What a publish has read -/

/-- The content of the request claims name `n` on `domain`. -/
def Op.Claims (L : Libs) : Op → String → String → Prop
  | .register _ _ m didLog _ _, domain, n => ∃ host existing witness p,
      verifyPublication L host m didLog existing witness = .ok p ∧ n ∈ p.agentNames L domain
  | .publish _ _ m didLog _, domain, n => ∃ host existing witness p,
      verifyPublication L host m didLog existing witness = .ok p ∧ n ∈ p.agentNames L domain
  | .agentName _ _ m _ didLog _ _, domain, n => ∃ host existing witness p,
      verifyPublication L host m didLog existing witness = .ok p ∧ n ∈ p.agentNames L domain
  | _, _, _ => False

/-- Two stores agree on slot `m`: on its record, its files, and the rows that
point at it. -/
structure SlotView (m : String) (t s : ControlStore) : Prop where
  record : t.record m = s.record m
  log : t.log m = s.log m
  witness : t.witness m = s.witness m
  rows : ∀ d n, t.nameHolder d n = some m ↔ s.nameHolder d n = some m

theorem SlotView.refl (m : String) (s : ControlStore) : SlotView m s s :=
  ⟨rfl, rfl, rfl, fun _ _ => Iff.rfl⟩

section

variable {A : AppState} {V : Set ControlStore} {s : ControlStore} {op : Op} {w : Batch}
  {m : String}

/-- A reconciliation whose reads agree with store `s` is one in `s`. -/
theorem Reconciled.at_store {names next : List AgentNameEntry} {claims : List String}
    {domain : String} {now : ℕ} {changes : NameChanges}
    (h : Reconciled V names m claims domain now next changes)
    (hview : ∀ t ∈ V, SlotView m t s)
    (hrows : ∀ t ∈ V, ∀ n ∈ claims, t.nameHolder domain n = s.nameHolder domain n) :
    Reconciled {s} names m claims domain now next changes := by
  refine ⟨h.next_eq, h.claimed_eq, ?_, h.released_dropped, ?_⟩
  · intro n hn
    obtain ⟨t, ht, hfree⟩ := h.claimed_free n hn
    have hclaim : n ∈ claims := by
      rw [h.claimed_eq] at hn
      exact List.mem_of_mem_filter hn
    rw [hrows t ht n hclaim] at hfree
    exact ⟨s, rfl, hfree⟩
  · intro n hn hnot
    obtain ⟨t, ht, helse⟩ := h.kept_elsewhere n hn hnot
    rw [Ne, (hview t ht).rows] at helse
    exact ⟨s, rfl, helse⟩

theorem Republishes.at_store {auth : AuthClaims} {didLog : String} {record : DidRecord}
    {p : Publication} (h : Republishes A V auth m didLog record p)
    (hview : ∀ t ∈ V, SlotView m t s) : Republishes A {s} auth m didLog record p := by
  obtain ⟨t, ht, hpath⟩ := h.path_valid
  obtain ⟨u, hu, hrecord⟩ := h.record_read
  obtain ⟨x, hx, y, hy, hverified⟩ := h.verified
  refine ⟨⟨s, rfl, ?_⟩, ⟨s, rfl, ?_⟩, h.allowed, h.same_method, ⟨s, rfl, s, rfl, ?_⟩⟩
  · rwa [← (hview t ht).record]
  · rwa [← (hview u hu).record]
  · rwa [← (hview x hx).log, ← (hview y hy).witness]

/-- A batch planned from stores that agree with `s` on the slot, and on the rows
of the names its content claims, is one the request commits when it runs alone
in `s`. -/
theorem OpBatch.at_store (h : OpBatch A V op w) (hop : op.publishes = some m)
    (hview : ∀ t ∈ V, SlotView m t s)
    (hrows : ∀ t ∈ V, ∀ d n, op.Claims A.libs d n → t.nameHolder d n = s.nameHolder d n) :
    OpBatch A {s} op w := by
  cases h with
  | @registered auth now path didLog force domain existing ownerChanged p did base names
      changes hpre hreg =>
      have hm : path = m := Option.some.inj hop
      subst hm
      obtain ⟨x, hx, y, hy, hverified⟩ := hreg.verified
      obtain ⟨u, hu, hexisting⟩ := hreg.existing_read
      refine .registered hpre ⟨⟨s, rfl, ?_⟩, ⟨s, rfl, s, rfl, ?_⟩, hreg.base_eq, hreg.didId_eq,
        hreg.bound, hreg.ownership, hreg.reconciled.at_store hview ?_⟩
      · rwa [← (hview u hu).record]
      · rwa [← (hview x hx).log, ← (hview y hy).witness]
      · intro t ht n hn
        exact hrows t ht _ n ⟨_, _, _, p, hverified, hn⟩
  | @published auth now m didLog requestDomain record p names changes hrep hrec =>
      cases hop
      obtain ⟨x, hx, y, hy, hverified⟩ := hrep.verified
      refine .published (hrep.at_store hview) (hrec.at_store hview ?_)
      intro t ht n hn
      exact hrows t ht _ n ⟨_, _, _, p, hverified, hn⟩
  | @named auth now m name didLog requestDomain nameOp record p holder effect hrep hclaim
      hholder heffect =>
      cases hop
      obtain ⟨x, hx, y, hy, hverified⟩ := hrep.verified
      refine .named (hrep.at_store hview) hclaim ?_ heffect
      intro hact
      obtain ⟨t, ht, hrow⟩ := hholder hact
      refine ⟨s, rfl, ?_⟩
      have hn : bareName name ∈ p.agentNames A.libs
          (slotDomain A.libs (republished A.libs record p didLog now)) := by
        rw [hact] at hclaim
        exact List.contains_iff_mem.mp hclaim
      rw [← hrows t ht _ _ ⟨_, _, _, p, hverified, hn⟩]
      exact hrow
  | _ => contradiction

end

/-! ## The guarantee -/

/-- The condition on a commit of request `op` whose reads were answered by the
stores `V`: the rows of the names its content claims are as they were read, and
it moves no slot with names to another host. -/
def Undisturbed (A : AppState) (op : Op) (V : Set ControlStore) (s : ControlStore) : Prop :=
  (∀ t ∈ V, ∀ d n, op.Claims A.libs d n → t.nameHolder d n = s.nameHolder d n) ∧
    KeepsIndex A s (.serve op)

section

variable {ι : Type} {A : AppState} {ops : ι → Op} {slots : ι → String}

/-- A commit of a guarded publish keeps the index in agreement with the records,
and what the publishes of other slots have read. -/
theorem names_commit (hops : ∀ i, (ops i).publishes = some (slots i)) (i : ι) (w : Batch)
    (u : Unit) (s : ControlStore) (V : Set ControlStore) (hinv : NameInv A.libs s)
    (hview : ∀ t ∈ V, SlotView (slots i) t s)
    (hplan : ((ops i).storePlan A).Yields V (some w, u)) (hok : Undisturbed A (ops i) V s) :
    NameInv A.libs (WriteBatch.commit w s) ∧
      ∀ j, slots j ≠ slots i → ∀ t, SlotView (slots j) t s →
        SlotView (slots j) t (WriteBatch.commit w s) := by
  have hbatch := (storePlan_batch (hops i) hplan).at_store (hops i) hview hok.1
  obtain ⟨r, hdids, hown, hnodup, helse⟩ := hbatch.renames (hops i) hok.2 hinv
  refine ⟨hinv.write hdids hown hnodup helse, ?_⟩
  intro j hne t ht
  have hother : ∀ o ∈ w, o.slot ≠ some (slots j) := by
    intro o ho hslot
    exact hne (hbatch.slot_of_publishes (hops i) o ho _ hslot)
  obtain ⟨hrecord, hlog, hwitness⟩ := DidsKs.commit_other_slot hother s.ks
  refine ⟨ht.record.trans hrecord.symm, ht.log.trans hlog.symm, ht.witness.trans hwitness.symm,
    ?_⟩
  intro d n
  rw [ht.rows d n]
  exact (helse d n (slots j) hne).symm

end

/-- Publishes on any slots, interleaved in any way after any sequence of requests
that keeps the index: as long as no row of a name changes between the check of a
publish that claims the name and its commit, no two slots of a domain carry the
same name, and a row loses its holder only in a commit of the holder, which frees
it. -/
theorem concurrent_names_exclusive {ι : Type} [DecidableEq ι] (A : AppState)
    (acl : Table String AclEntry) (domains : Table String DomainEntry) (events : List Event)
    (hevents : Run.Meets (Event.step A) (KeepsIndex A) (ControlStore.initial acl domains)
      events)
    (ops : ι → Op) (slots : ι → String) (hops : ∀ i, (ops i).publishes = some (slots i))
    (schedule : List ι) :
    let s₀ := Run.exec (Event.step A) (ControlStore.initial acl domains) events
    let m₀ := Machine.start s₀ fun i => (ops i).prog A
    let ok := Machine.CommitMeets fun i V s => Undisturbed A (ops i) V s
    Run.Meets Machine.step ok m₀ schedule →
    let m := Run.exec Machine.step m₀ schedule
    (∀ p p' r r' e e', m.store.record p = some r → m.store.record p' = some r' →
      e ∈ r.agentNames → e' ∈ r'.agentNames → e.enabled = true → e'.enabled = true →
      e.name = e'.name → slotDomain A.libs r = slotDomain A.libs r' → p = p') ∧
    ∀ i, ok m i → ∀ d n p, m.store.nameHolder d n = some p →
      (m.step i).store.nameHolder d n = some p ∨
        (slots i = p ∧ (m.step i).store.nameHolder d n = none) := by
  intro s₀ m₀ ok hmeets m
  have hinv : NameInv A.libs s₀ :=
    Run.exec_invariant (fun _ e => nameInv_step e) (nameInv_initial A.libs acl domains) hevents
  have hguarded : Machine.Guarded slots (fun i => (ops i).storePlan A) (NameInv A.libs)
      (fun i => SlotView (slots i)) m :=
    Run.exec_invariant
      (fun _ _ hok h =>
        Machine.guarded_step (fun i s => SlotView.refl (slots i) s) (names_commit hops) h hok)
      (Machine.guarded_start hinv fun i => prog_eq_planned A (hops i)) hmeets
  refine ⟨?_, ?_⟩
  · intro p p' r r' e e' hr hr' he he' hon hon' hname hdomain
    have hrow := (hguarded.inv.nameHolder_iff (slotDomain A.libs r) e.name p).mpr
      ⟨r, hr, List.mem_map_of_mem he, rfl⟩
    have hrow' := (hguarded.inv.nameHolder_iff (slotDomain A.libs r) e.name p').mpr
      ⟨r', hr', hname ▸ List.mem_map_of_mem he', hdomain.symm⟩
    rw [hrow] at hrow'
    exact Option.some.inj hrow'
  · intro i hok d n p hrow
    rcases (hguarded.stage i).step_store with
      hsame | ⟨w, u, next, hp, hlock, hplan, hview, hstore⟩
    · left
      rw [hsame]
      exact hrow
    · have hcond := hok w next hp
      have hbatch := (storePlan_batch (hops i) hplan).at_store (hops i) hview hcond.1
      obtain ⟨r, -, -, -, helse⟩ := hbatch.renames (hops i) hcond.2 hguarded.inv
      rw [hstore]
      by_cases hpi : p = slots i
      · subst hpi
        cases hafter : (WriteBatch.commit w m.store).nameHolder d n with
        | none => exact Or.inr ⟨rfl, rfl⟩
        | some p' =>
            left
            by_contra hne
            -- a row of another slot after the commit was there before it
            have hbefore := (helse d n p' fun h => hne (by rw [h])).mp hafter
            rw [← ControlStore.nameHolder, hrow] at hbefore
            exact hne (congrArg some (Option.some.inj hbefore).symm)
      · exact Or.inl ((helse d n p hpi).mpr hrow)

section Samples

open Reference

theorem named1_free (n : String)
    (hn : n ∈ agentNamesFromDocument libs (document didAl ["https://h.io/@al"])
      (didHostOrEmpty libs didAl)) :
    validateAgentNameBinding n "al" = .ok () ∧
      fresh.nameHolder (didHostOrEmpty libs didAl) n = none := by
  rw [agentNames_named1] at hn
  rw [List.mem_singleton.mp hn]
  exact ⟨by decide +kernel, rfl⟩

theorem rival1_free (n : String)
    (hn : n ∈ agentNamesFromDocument libs (document didBo ["https://h.io/@al"])
      (didHostOrEmpty libs didBo)) :
    validateAgentNameBinding n "bo" = .ok () ∧
      fresh.nameHolder (didHostOrEmpty libs didBo) n = none := by
  rw [agentNames_rival1] at hn
  rw [List.mem_singleton.mp hn]
  exact ⟨by decide +kernel, rfl⟩

theorem bo1_free (n : String)
    (hn : n ∈ agentNamesFromDocument libs (document didBo ["https://h.io/@bo"])
      (didHostOrEmpty libs didBo)) :
    validateAgentNameBinding n "bo" = .ok () ∧
      fresh.nameHolder (didHostOrEmpty libs didBo) n = none := by
  rw [agentNames_bo1] at hn
  rw [List.mem_singleton.mp hn]
  exact ⟨by decide +kernel, rfl⟩

/-- The requests of the guarantee: registrations of slots `al` and `bo`, each with a
name of its own. -/
def apartOps (other : Bool) : Op :=
  if other then .register admin 2 "bo" (logOf [bo1]) false none
  else .register admin 1 "al" (logOf [named1]) false none

theorem claims_bo {d n : String} (h : (apartOps true).Claims libs d n) : n = "bo" := by
  obtain ⟨host, existing, witness, p, hp, hn⟩ := h
  rw [validLog_bo1.verifyPublication_eq] at hp
  cases hp
  have hmem : n ∈ agentNamesFromDocument libs (document didBo ["https://h.io/@bo"]) d := hn
  rw [agentNames_bo] at hmem
  split at hmem
  · exact List.mem_singleton.mp hmem
  · contradiction

/-- A registration of a free slot moves no slot. -/
theorem keepsIndex_free {s : ControlStore} {auth : AuthClaims} {now : ℕ} {m didLog : String}
    {force : Bool} {domain : Option String} (h : s.record m = none) :
    KeepsIndex control s (.serve (.register auth now m didLog force domain)) := by
  intro r p did hr
  rw [h] at hr
  cases hr

/-- What the registration of `bo` has read of the names it claims, the registration of
`al` leaves. -/
theorem undisturbed_bo {s : ControlStore} (hrecord : s.record "bo" = none)
    (hrows : s.ks.agentName =
      reindex ⟨["al"], []⟩ "h.io" "al" fresh.ks.agentName) {V : Set ControlStore}
    (hV : ∀ t ∈ V, t = fresh) : Undisturbed control (apartOps true) V s := by
  refine ⟨?_, keepsIndex_free hrecord⟩
  intro t ht d n hclaim
  rw [hV t ht, claims_bo hclaim]
  refine Eq.symm ((congrArg (AList.lookup (d, "bo")) hrows).trans ?_)
  rw [lookup_reindex]
  simp only [List.mem_singleton, List.not_mem_nil]
  rw [if_neg (by simp), if_neg (by simp)]
  rfl

theorem undisturbed_al {V : Set ControlStore} (hV : ∀ t ∈ V, t = fresh) :
    Undisturbed control (apartOps false) V fresh := by
  refine ⟨?_, keepsIndex_free (fresh_record "al")⟩
  intro t ht d n _
  rw [hV t ht]

/-- The guarantee for two registrations that both plan before either commits. -/
theorem concurrent_names_exclusive_register :
    let m₀ := Machine.start fresh fun i => (apartOps i).prog control
    let ok := Machine.CommitMeets fun i V s => Undisturbed control (apartOps i) V s
    ∃ schedule, Run.Meets Machine.step ok m₀ (schedule ++ [false] ++ [true]) ∧
      (∀ i, ∃ w next, ((Run.exec Machine.step m₀ schedule).thread i).prog = .commit w next) ∧
      let m := Run.exec Machine.step m₀ (schedule ++ [false] ++ [true])
      m.Succeeded false ∧ m.Succeeded true ∧
      m.store.nameHolder "h.io" "al" = some "al" ∧
      m.store.nameHolder "h.io" "bo" = some "bo" ∧
      ∀ p p' r r' e e', m.store.record p = some r → m.store.record p' = some r' →
        e ∈ r.agentNames → e' ∈ r'.agentNames → e.enabled = true → e'.enabled = true →
        e.name = e'.name → slotDomain libs r = slotDomain libs r' → p = p' := by
  intro m₀ ok
  obtain ⟨hprog, hplan⟩ := register_thread 1 unrestricted_fresh validLog_named1
    validateMnemonic_al bound_didAl rfl named1_free
  obtain ⟨hprog', hplan'⟩ := register_thread 2 unrestricted_fresh validLog_bo1
    validateMnemonic_bo bound_didBo rfl bo1_free
  obtain ⟨schedule, hcommit, hcommit', -, hstore, hfirst, hsecond, hmeets⟩ :=
    Machine.exec_race (m := m₀) (i := false) (j := true) (by decide) hprog hprog'
      (fun _ => rfl) (by simp) hplan hplan'
  have hal := stored_registeredBatch unrestricted_fresh [named1] didAl
    (document didAl ["https://h.io/@al"]) "al" 1
  have hbo := stored_registeredBatch hal.unrestricted [bo1] didBo
    (document didBo ["https://h.io/@bo"]) "bo" 2
  rw [agentNames_named1, host_didAl] at hal
  rw [agentNames_bo1, host_didBo] at hbo
  have hnames := hbo.names.trans (congrArg (reindex _ _ _) hal.names)
  have hfresh : ∀ {V : Set ControlStore} {i : Bool},
      (∀ t ∈ V, t = m₀.store ∨ t ∈ (m₀.thread i).seen) → ∀ t ∈ V, t = fresh :=
    fun hV t ht => (hV t ht).resolve_right List.not_mem_nil
  have hok : Run.Meets Machine.step ok m₀ (schedule ++ [false] ++ [true]) :=
    hmeets (fun i V s => Undisturbed control (apartOps i) V s)
      (fun V hV => undisturbed_al (hfresh hV))
      (fun V hV => undisturbed_bo (hal.others "bo" (by decide)).1 hal.names (hfresh hV))
  refine ⟨schedule, hok, ?_, hfirst, hsecond, ?_, ?_, ?_⟩
  · intro i
    cases i with
    | false => exact ⟨_, _, hcommit⟩
    | true => exact ⟨_, _, hcommit'⟩
  · rw [hstore, ControlStore.nameHolder]
    refine (congrArg (AList.lookup ("h.io", "al")) hnames).trans ?_
    rw [lookup_reindex, lookup_reindex]
    simp
  · rw [hstore, ControlStore.nameHolder]
    refine (congrArg (AList.lookup ("h.io", "bo")) hnames).trans ?_
    rw [lookup_reindex]
    simp
  · exact (concurrent_names_exclusive control ∅ ∅ [] trivial apartOps
      (fun i => if i then "bo" else "al") (fun i => by cases i <;> rfl) _ hok).1

/-- Two registrations claim the name `al` for different slots.  Both find it
free before the first of them commits; the second then takes the row over, and
both records carry the enabled name. -/
theorem raced_name_taken :
    let ops : Bool → Op := fun rival =>
      if rival then .register admin 2 "bo" (logOf [rival1]) false none
      else .register admin 1 "al" (logOf [named1]) false none
    let m₀ := Machine.start fresh fun i => (ops i).prog control
    ∃ schedule,
      let m := Run.exec Machine.step m₀ schedule
      m.store.nameHolder "h.io" "al" = some "al" ∧
      (m.step true).store.nameHolder "h.io" "al" = some "bo" ∧
      ∃ r r' e e', (m.step true).store.record "al" = some r ∧
        (m.step true).store.record "bo" = some r' ∧ e ∈ r.agentNames ∧ e' ∈ r'.agentNames ∧
        e.enabled = true ∧ e'.enabled = true ∧ e.name = e'.name ∧
        slotDomain libs r = slotDomain libs r' := by
  intro ops m₀
  obtain ⟨hprog, hplan⟩ := register_thread 1 unrestricted_fresh validLog_named1
    validateMnemonic_al bound_didAl rfl named1_free
  obtain ⟨hprog', hplan'⟩ := register_thread 2 unrestricted_fresh validLog_rival1
    validateMnemonic_bo bound_didBo rfl rival1_free
  obtain ⟨both, -, -, hfirst, htwo, -, -, -⟩ :=
    Machine.exec_race (m := m₀) (i := false) (j := true) (by decide) hprog hprog'
      (fun _ => rfl) (by simp) hplan hplan'
  have hsecond := (congrArg Machine.store (Run.exec_concat Machine.step m₀ (both ++ [false])
    true)).symm.trans htwo
  have hal := stored_registeredBatch unrestricted_fresh [named1] didAl
    (document didAl ["https://h.io/@al"]) "al" 1
  have hbo := stored_registeredBatch hal.unrestricted [rival1] didBo
    (document didBo ["https://h.io/@al"]) "bo" 2
  rw [agentNames_named1, host_didAl] at hal
  rw [agentNames_rival1, host_didBo] at hbo
  have hrecord := (hbo.others "al" (by decide)).1.trans hal.record
  refine ⟨both ++ [false], ?_, ?_, ?_⟩
  · rw [hfirst]
    refine (congrArg (AList.lookup ("h.io", "al")) hal.names).trans ?_
    rw [lookup_reindex]
    simp
  · rw [hsecond]
    refine (congrArg (AList.lookup ("h.io", "al")) hbo.names).trans ?_
    rw [lookup_reindex]
    simp
  · rw [hsecond]
    refine ⟨_, _, ⟨"al", true, 1⟩, ⟨"al", true, 2⟩, hrecord, hbo.record, ?_, ?_, rfl, rfl, rfl,
      ?_⟩
    · rw [registeredRecord, agentNames_named1]
      exact List.mem_singleton_self _
    · rw [registeredRecord, agentNames_rival1]
      exact List.mem_singleton_self _
    · have hdomain : ∀ es did state path now,
          slotDomain libs (registeredRecord es did state path now) = didHostOrEmpty libs did :=
        fun es did state path now => slotDomain_registerRecord control ..
      rw [hdomain, hdomain, host_didAl, host_didBo]

end Samples

end DidHosting
