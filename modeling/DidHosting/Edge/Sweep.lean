import DidHosting.Common.Reference
import DidHosting.Support.Interleaving
import DidHosting.Support.Run
import DidHosting.Support.Scan
import DidHosting.Edge.PendingPurges
import DidHosting.Edge.Reference

/-!
# The sweep between other operations

`run_sweep_once` reads the pending purges once and then works through its list.
Here it proceeds by single accesses to the store, and between two of them any other
operation may commit a write: a re-assign or an enable that cancels a row, a sync
update, another directive.

The sweep does not look at a row again before it deletes the slots of its domain.
What it deletes is therefore right as long as nobody cancels a row between the
listing and the moment the sweep reaches its domain.
-/

namespace DidHosting

open Text

/-! ## The sweep as a state machine -/

/-- What is left of a due entry once its slots are deleted. -/
def finishEntry (L : Libs) (entry : PendingPurge) : EdgeM Unit := do
  let done ← finishPurge L entry
  if done then cancelPurge entry.domain else pure ()

/-- The entries that are due, as the sweep lists them. -/
def dueEntries (now : ℕ) (s : EdgeStore) : List PendingPurge :=
  ((Table.rows s.pendingPurges).map Prod.snd).filter (·.isRipe now)

inductive SweepPhase where
  | idle
  | loop
  | deleting (entry : PendingPurge) (records : List DidRecord)
  | finishing (entry : PendingPurge) (rest : EdgeM Unit)

/-- The store, the sweep, the due entries it has listed and not reached, and the
domains it has reached.  With each of these stands whether the row has been pending
ever since the listing. -/
structure SweepRun where
  store : EdgeStore
  phase : SweepPhase
  ahead : List (PendingPurge × Bool)
  reached : List (String × Bool)

/-- Records in a write are filed under their mnemonics. -/
def EdgeWrite.Filed : EdgeWrite → Prop
  | .dids batch => ∀ m record, BatchOp.insertDid m record ∈ batch → record.mnemonic = m
  | _ => True

/-- The sweep makes its next access, or another operation commits a write. -/
inductive SweepEvent where
  | sweep (now : ℕ)
  | write (w : EdgeWrite) (filed : w.Filed)

namespace SweepRun

/-- The next access of the sweep.  `now` is read when the rows are listed. -/
def advance (L : Libs) (now : ℕ) (r : SweepRun) : SweepRun :=
  match r.phase with
  | .idle =>
      { r with
        phase := .loop
        ahead := (dueEntries now r.store).map (·, true) }
  | .loop =>
      match r.ahead with
      | [] => { r with phase := .idle }
      | (entry, pending) :: ahead =>
          { r with
            phase := .deleting entry (allRecords r.store)
            ahead := ahead
            reached := r.reached ++ [(entry.domain, pending)] }
  | .deleting entry [] => { r with phase := .finishing entry (finishEntry L entry) }
  | .deleting entry (record :: records) =>
      if record.domain = "" ∨ record.domain ≠ entry.domain then
        { r with phase := .deleting entry records }
      else
        { r with
          store := EdgeStore.commit (.dids (purgeBatch L record)) r.store
          phase := .deleting entry records }
  | .finishing entry rest =>
      { r with
        store := (rest.access r.store).2
        phase := if (rest.access r.store).1.isDone then .loop
          else .finishing entry (rest.access r.store).1 }

theorem advance_deleting (L : Libs) (now : ℕ) (s : EdgeStore) (entry : PendingPurge)
    (record : DidRecord) (records : List DidRecord) (ahead : List (PendingPurge × Bool))
    (reached : List (String × Bool)) :
    advance L now ⟨s, .deleting entry (record :: records), ahead, reached⟩ =
      if record.domain = "" ∨ record.domain ≠ entry.domain then
        ⟨s, .deleting entry records, ahead, reached⟩
      else
        ⟨EdgeStore.commit (.dids (purgeBatch L record)) s, .deleting entry records, ahead,
          reached⟩ := rfl

/-- Which of the rows ahead are still pending. -/
def watch (r : SweepRun) : SweepRun :=
  { r with
    ahead := r.ahead.map fun x =>
      (x.1, x.2 && (r.store.pendingPurges.lookup x.1.domain).isSome) }

def step (L : Libs) (r : SweepRun) : SweepEvent → SweepRun
  | .sweep now => (r.advance L now).watch
  | .write w _ => watch { r with store := EdgeStore.commit w r.store }

theorem step_sweep_store (L : Libs) (r : SweepRun) (now : ℕ) :
    (r.step L (.sweep now)).store = (r.advance L now).store := rfl

/-- Before the sweep. -/
def start (s : EdgeStore) : SweepRun := ⟨s, .idle, [], []⟩

/-- The records the sweep has read and not looked at yet. -/
def unread (r : SweepRun) : List DidRecord :=
  match r.phase with
  | .deleting _ records => records
  | _ => []

/-- The entry the sweep is at. -/
def current (r : SweepRun) : Option PendingPurge :=
  match r.phase with
  | .deleting entry _ => some entry
  | .finishing entry _ => some entry
  | _ => none

/-- No other operation cancels a row the sweep has listed as due and not reached, or
moves a slot the sweep has read to another domain. -/
def Undisturbed (r : SweepRun) : SweepEvent → Prop
  | .sweep _ => True
  | .write w _ =>
      (∀ x ∈ r.ahead, (r.store.pendingPurges.lookup x.1.domain).isSome = true →
        ((EdgeStore.commit w r.store).pendingPurges.lookup x.1.domain).isSome = true) ∧
      ∀ record ∈ r.unread, ∀ record',
        (EdgeStore.commit w r.store).record record.mnemonic = some record' →
        record'.domain = record.domain

end SweepRun

/-! ## Invariant -/

/-- The writes that finish an entry: the domain's record and its row. -/
def EdgeWrite.Finishes (domain : String) (w : EdgeWrite) : Prop :=
  w = .removeDomain domain ∨ w = .removePendingPurge domain

theorem normalizeDomainName_eq {L : Libs} {name canonical : String}
    (h : normalizeDomainName L name = .ok canonical) : canonical = name := by
  unfold normalizeDomainName at h
  split at h
  · contradiction
  split at h
  · contradiction
  split at h
  · contradiction
  split at h
  · contradiction
  cases hc : canonicalDomain L name with
  | error e => simp [hc, bind, Except.bind] at h
  | ok c =>
      by_cases hne : c = name
      · simp [hc, hne, bind, Except.bind] at h
        exact h.symm
      · simp [hc, hne, bind, Except.bind] at h

theorem finishEntry_writes (L : Libs) (entry : PendingPurge) :
    (finishEntry L entry).Writes (EdgeWrite.Finishes entry.domain) := by
  refine Prog.writes_bind ?_ fun done => ?_
  · unfold finishPurge
    split
    · unfold deleteDomainRecord
      split
      · trivial
      · rename_i canonical hcanonical
        refine Prog.writes_bind (Prog.writes_liftM _) fun _ =>
          Prog.writes_bind (Prog.writes_liftM _) fun _ =>
            Prog.writes_bind (Prog.writes_writeOpt ?_) fun _ => trivial
        intro w hw
        split at hw
        · cases hw
          exact Or.inl (by rw [normalizeDomainName_eq hcanonical])
        · contradiction
    · trivial
  · split
    · refine Prog.writes_bind (Prog.writes_liftM _) fun row => Prog.writes_writeOpt ?_
      intro w hw
      split at hw
      · cases hw
        exact Or.inr rfl
      · contradiction
    · trivial

/-- What holds of an undisturbed sweep. -/
structure SweepInv (r : SweepRun) : Prop where
  keyed : r.store.Keyed
  named : ∀ d p, r.store.pendingPurges.lookup d = some p → p.domain = d
  ahead : ∀ x ∈ r.ahead,
    x.2 = true ∧ (r.store.pendingPurges.lookup x.1.domain).isSome = true
  distinct : (r.ahead.map (·.1.domain)).Nodup
  past : ∀ entry, r.current = some entry → entry.domain ∉ r.ahead.map (·.1.domain)
  reached : ∀ x ∈ r.reached, x.2 = true
  here : ∀ entry, r.current = some entry → r.reached.getLast? = some (entry.domain, true)
  unread : ∀ record ∈ r.unread, ∀ record', r.store.record record.mnemonic = some record' →
    record'.domain = record.domain
  rest : ∀ entry p, r.phase = .finishing entry p →
    p.Writes (EdgeWrite.Finishes entry.domain)

namespace SweepInv

theorem start {s : EdgeStore} (hkeyed : s.Keyed)
    (hnamed : ∀ d p, s.pendingPurges.lookup d = some p → p.domain = d) :
    SweepInv (SweepRun.start s) where
  keyed := hkeyed
  named := hnamed
  ahead := fun _ h => absurd h List.not_mem_nil
  distinct := List.nodup_nil
  past := fun _ h => nomatch h
  reached := fun _ h => absurd h List.not_mem_nil
  here := fun _ h => nomatch h
  unread := fun _ h => absurd h List.not_mem_nil
  rest := fun _ _ h => nomatch h

/-- A listed row is pending, and the domains listed are distinct. -/
theorem listed {s : EdgeStore}
    (hnamed : ∀ d p, s.pendingPurges.lookup d = some p → p.domain = d) (now : ℕ) :
    (∀ entry ∈ dueEntries now s, (s.pendingPurges.lookup entry.domain).isSome = true) ∧
      ((dueEntries now s).map (·.domain)).Nodup := by
  have hkey : ∀ row ∈ Table.rows s.pendingPurges, row.2.domain = row.1 :=
    fun row hrow => hnamed row.1 row.2 (Table.mem_rows.mp hrow)
  constructor
  · intro entry hmem
    obtain ⟨⟨d, p⟩, hrow, rfl⟩ := List.mem_map.mp (List.mem_filter.mp hmem).1
    rw [hkey (d, p) hrow, Table.mem_rows.mp hrow]
    rfl
  · have hnames : ((Table.rows s.pendingPurges).map Prod.snd).map (·.domain) =
        (Table.rows s.pendingPurges).map Prod.fst := by
      rw [List.map_map]
      exact List.map_congr_left hkey
    refine ((List.filter_sublist.map _).nodup ?_)
    rw [hnames]
    exact Table.keys_rows_nodup _

variable {L : Libs} {r : SweepRun}

theorem list {s : EdgeStore} {ahead : List (PendingPurge × Bool)} {reached : List (String × Bool)}
    (h : SweepInv ⟨s, .idle, ahead, reached⟩) (now : ℕ) :
    SweepInv (SweepRun.advance L now ⟨s, .idle, ahead, reached⟩) where
  keyed := h.keyed
  named := h.named
  ahead := by
    intro x hx
    obtain ⟨entry, hmem, rfl⟩ := List.mem_map.mp hx
    exact ⟨rfl, (listed h.named now).1 entry hmem⟩
  distinct := by
    change (((dueEntries now s).map (·, true)).map (·.1.domain)).Nodup
    rw [List.map_map]
    exact (listed h.named now).2
  past := fun _ hcur => nomatch hcur
  reached := h.reached
  here := fun _ hcur => nomatch hcur
  unread := fun _ hmem => absurd hmem List.not_mem_nil
  rest := fun _ _ hphase => nomatch hphase

theorem reach {s : EdgeStore} {ahead : List (PendingPurge × Bool)} {reached : List (String × Bool)}
    (h : SweepInv ⟨s, .loop, ahead, reached⟩) (now : ℕ) :
    SweepInv (SweepRun.advance L now ⟨s, .loop, ahead, reached⟩) := by
  cases ahead with
  | nil =>
      exact ⟨h.keyed, h.named, h.ahead, h.distinct, fun _ hcur => (nomatch hcur), h.reached,
        fun _ hcur => (nomatch hcur), fun _ hmem => absurd hmem List.not_mem_nil,
        fun _ _ hphase => (nomatch hphase)⟩
  | cons x ahead =>
      obtain ⟨entry, pending⟩ := x
      have hpending : pending = true := (h.ahead (entry, pending) List.mem_cons_self).1
      obtain ⟨hfirst, hdistinct⟩ := List.nodup_cons.mp h.distinct
      refine ⟨h.keyed, h.named, ?_, hdistinct, ?_, ?_, ?_, ?_, fun _ _ hphase => (nomatch hphase)⟩
      · exact fun e he => h.ahead e (List.mem_cons_of_mem _ he)
      · rintro _ ⟨⟩
        exact hfirst
      · intro x hx
        rcases List.mem_append.mp hx with hold | hnew
        · exact h.reached x hold
        · rw [List.mem_singleton.mp hnew]
          exact hpending
      · rintro _ ⟨⟩
        change (reached ++ [(entry.domain, pending)]).getLast? = some (entry.domain, true)
        rw [hpending, List.getLast?_concat]
      · intro record hmem record' hrec
        obtain ⟨m, hm⟩ := mem_allRecords.mp hmem
        have hrec' : s.record record.mnemonic = some record' := hrec
        rw [h.keyed m record hm, hm] at hrec'
        cases hrec'
        rfl

theorem delete {s : EdgeStore} {entry : PendingPurge} {records : List DidRecord}
    {ahead : List (PendingPurge × Bool)} {reached : List (String × Bool)}
    (h : SweepInv ⟨s, .deleting entry records, ahead, reached⟩) (now : ℕ) :
    SweepInv (SweepRun.advance L now ⟨s, .deleting entry records, ahead, reached⟩) := by
  have hhere := h.here entry rfl
  have hpast := h.past entry rfl
  cases records with
  | nil =>
      refine ⟨h.keyed, h.named, h.ahead, h.distinct, ?_, h.reached, ?_,
        fun _ hmem => absurd hmem List.not_mem_nil, ?_⟩
      · rintro _ ⟨⟩
        exact hpast
      · rintro _ ⟨⟩
        exact hhere
      · rintro _ _ ⟨⟩
        exact finishEntry_writes L entry
  | cons record records =>
      have hunread : ∀ rec ∈ records, ∀ record', s.record rec.mnemonic = some record' →
          record'.domain = rec.domain :=
        fun rec hmem => h.unread rec (List.mem_cons_of_mem _ hmem)
      rw [SweepRun.advance_deleting]
      split
      · refine ⟨h.keyed, h.named, h.ahead, h.distinct, ?_, h.reached, ?_, hunread,
          fun _ _ hphase => (nomatch hphase)⟩
        · rintro _ ⟨⟩
          exact hpast
        · rintro _ ⟨⟩
          exact hhere
      · have hrec : ∀ m rec, (EdgeStore.commit (.dids (purgeBatch L record)) s).record m =
            some rec → s.record m = some rec := by
          intro m rec hm
          rw [(commit_purgeBatch L record s m).1] at hm
          split at hm
          · contradiction
          · exact hm
        refine ⟨keyed_of_record h.keyed hrec, h.named, h.ahead, h.distinct, ?_, h.reached, ?_, ?_,
          fun _ _ hphase => (nomatch hphase)⟩
        · rintro _ ⟨⟩
          exact hpast
        · rintro _ ⟨⟩
          exact hhere
        · exact fun rec hmem record' hr => hunread rec hmem record' (hrec _ _ hr)

theorem finish {s : EdgeStore} {entry : PendingPurge} {rest : EdgeM Unit}
    {ahead : List (PendingPurge × Bool)} {reached : List (String × Bool)}
    (h : SweepInv ⟨s, .finishing entry rest, ahead, reached⟩) (now : ℕ) :
    SweepInv (SweepRun.advance L now ⟨s, .finishing entry rest, ahead, reached⟩) := by
  have hhere := h.here entry rfl
  have hpast := h.past entry rfl
  obtain ⟨hrest, hstore⟩ := (h.rest entry rest rfl).access s
  -- the slots stay, and so do the rows of other domains
  have hks : (rest.access s).2.ks = s.ks := by
    rcases hstore with heq | ⟨w, rfl | rfl, heq⟩ <;> rw [heq] <;> rfl
  have hrows : ∀ d, d ≠ entry.domain →
      (rest.access s).2.pendingPurges.lookup d = s.pendingPurges.lookup d := by
    intro d hd
    rcases hstore with heq | ⟨w, rfl | rfl, heq⟩ <;> rw [heq]
    · rfl
    · exact (Table.lookup_erase_ite ..).trans (if_neg hd)
  have hnamed : ∀ d p, (rest.access s).2.pendingPurges.lookup d = some p → p.domain = d := by
    intro d p hp
    rcases hstore with heq | ⟨w, rfl | rfl, heq⟩ <;> rw [heq] at hp
    · exact h.named d p hp
    · exact h.named d p hp
    · have hp' := (Table.lookup_erase_ite ..).symm.trans hp
      split at hp'
      · contradiction
      · exact h.named d p hp'
  have hkeyed : (rest.access s).2.Keyed := by
    refine keyed_of_record h.keyed fun m record hm => ?_
    rwa [EdgeStore.record, hks] at hm
  have hahead : ∀ x ∈ ahead,
      x.2 = true ∧ ((rest.access s).2.pendingPurges.lookup x.1.domain).isSome = true := by
    intro x hx
    have hne : x.1.domain ≠ entry.domain :=
      fun heq => hpast (heq ▸ List.mem_map_of_mem (f := (·.1.domain)) hx)
    rw [hrows x.1.domain hne]
    exact h.ahead x hx
  unfold SweepRun.advance
  simp only
  split
  · refine ⟨hkeyed, hnamed, hahead, h.distinct, ?_, h.reached, ?_,
      fun _ hmem => absurd hmem List.not_mem_nil, ?_⟩
    · rintro _ ⟨⟩
    · rintro _ ⟨⟩
    · rintro _ _ ⟨⟩
  · refine ⟨hkeyed, hnamed, hahead, h.distinct, ?_, h.reached, ?_,
      fun _ hmem => absurd hmem List.not_mem_nil, ?_⟩
    · rintro _ ⟨⟩
      exact hpast
    · rintro _ ⟨⟩
      exact hhere
    · rintro _ _ ⟨⟩
      exact hrest

theorem advance (h : SweepInv r) (now : ℕ) : SweepInv (r.advance L now) := by
  obtain ⟨s, phase, ahead, reached⟩ := r
  cases phase with
  | idle => exact h.list now
  | loop => exact h.reach now
  | deleting entry records => exact h.delete now
  | finishing entry rest => exact h.finish now

theorem keyed_commit {w : EdgeWrite} (hw : w.Filed) {s : EdgeStore} (h : s.Keyed) :
    (EdgeStore.commit w s).Keyed := by
  cases w with
  | dids batch =>
      change ∀ m record, BatchOp.insertDid m record ∈ batch → record.mnemonic = m at hw
      induction batch generalizing s with
      | nil => exact h
      | cons op batch ih =>
          refine ih (s := { s with ks := s.ks.apply op }) ?_
            (fun m record hmem => hw m record (List.mem_cons_of_mem _ hmem))
          intro m record hrec
          cases op with
          | insertDid m' record' =>
              have hrec' := (Table.lookup_insert_ite ..).symm.trans hrec
              split at hrec'
              · rename_i hm
                cases hrec'
                rw [hm]
                exact hw m' record List.mem_cons_self
              · exact h m record hrec'
          | removeDid m' =>
              have hrec' := (Table.lookup_erase_ite ..).symm.trans hrec
              split at hrec'
              · contradiction
              · exact h m record hrec'
          | _ => exact h m record hrec
  | _ => exact h

theorem named_commit (w : EdgeWrite) {s : EdgeStore}
    (h : ∀ d p, s.pendingPurges.lookup d = some p → p.domain = d) (d : String)
    (p : PendingPurge) (hp : (EdgeStore.commit w s).pendingPurges.lookup d = some p) :
    p.domain = d := by
  cases w with
  | insertPendingPurge p' =>
      have hp' := (Table.lookup_insert_ite ..).symm.trans hp
      split at hp'
      · rename_i hd
        cases hp'
        exact hd.symm
      · exact h d p hp'
  | removePendingPurge d' =>
      have hp' := (Table.lookup_erase_ite ..).symm.trans hp
      split at hp'
      · contradiction
      · exact h d p hp'
  | _ => exact h d p hp

/-- Rows that are all pending stay marked so. -/
theorem watch (h : SweepInv r) : SweepInv r.watch := by
  have hsame : (r.ahead.map fun x =>
      (x.1, x.2 && (r.store.pendingPurges.lookup x.1.domain).isSome)) = r.ahead := by
    refine (List.map_congr_left fun x hx => ?_).trans (List.map_id _)
    obtain ⟨hmarked, hpending⟩ := h.ahead x hx
    rw [hpending, Bool.and_true]
    rfl
  unfold SweepRun.watch
  rw [hsame]
  exact h

theorem write (h : SweepInv r) {w : EdgeWrite} (hw : w.Filed)
    (hcalm : r.Undisturbed (.write w hw)) : SweepInv (r.step L (.write w hw)) := by
  have hcommit : SweepInv { r with store := EdgeStore.commit w r.store } :=
    { keyed := keyed_commit hw h.keyed
      named := named_commit w h.named
      ahead := fun x hx => ⟨(h.ahead x hx).1, hcalm.1 x hx (h.ahead x hx).2⟩
      distinct := h.distinct
      past := h.past
      reached := h.reached
      here := h.here
      unread := hcalm.2
      rest := h.rest }
  exact hcommit.watch

theorem step (h : SweepInv r) (e : SweepEvent) (hcalm : r.Undisturbed e) :
    SweepInv (r.step L e) := by
  cases e with
  | sweep now => exact (h.advance now).watch
  | write w hw => exact h.write hw hcalm

end SweepInv

/-! ## The sweep run alone -/

/-- Accesses of the sweep alone lead from `r` to `t`. -/
def SweepRun.Leads (L : Libs) (now : ℕ) (r t : SweepRun) : Prop :=
  ∃ n, Run.exec (SweepRun.step L) r (List.replicate n (.sweep now)) = t

namespace SweepRun.Leads

variable {L : Libs} {now : ℕ} {r t u : SweepRun}

theorem refl (r : SweepRun) : Leads L now r r :=
  ⟨0, rfl⟩

theorem head (h : Leads L now (r.step L (.sweep now)) t) : Leads L now r t := by
  obtain ⟨n, hn⟩ := h
  refine ⟨n + 1, ?_⟩
  rw [List.replicate_succ, Run.exec_cons]
  exact hn

theorem trans (h : Leads L now r t) (h' : Leads L now t u) : Leads L now r u := by
  obtain ⟨n, hn⟩ := h
  obtain ⟨k, hk⟩ := h'
  refine ⟨n + k, ?_⟩
  rw [← List.replicate_append_replicate, Run.exec_append, hn, hk]

end SweepRun.Leads

section Alone

variable (L : Libs) (now : ℕ)

theorem watch_entries (r : SweepRun) : r.watch.ahead.map Prod.fst = r.ahead.map Prod.fst := by
  unfold SweepRun.watch
  rw [List.map_map]
  rfl

/-- The end of an entry, access by access. -/
theorem leads_finishing (entry : PendingPurge) (rest : EdgeM Unit)
    (reached : List (String × Bool)) (s : EdgeStore) (ahead : List (PendingPurge × Bool)) :
    ∃ ahead', ahead'.map Prod.fst = ahead.map Prod.fst ∧
      SweepRun.Leads L now ⟨s, .finishing entry rest, ahead, reached⟩
        ⟨(rest.run s).2, .loop, ahead', reached⟩ := by
  -- a part that has returned leaves the loop at once, any other part goes on
  have hnext : ∀ (p : EdgeM Unit) (t : EdgeStore) (b : List (PendingPurge × Bool)),
      (∀ b', ∃ c, c.map Prod.fst = b'.map Prod.fst ∧
        SweepRun.Leads L now ⟨t, .finishing entry p, b', reached⟩
          ⟨(p.run t).2, .loop, c, reached⟩) →
      ∃ c, c.map Prod.fst = b.map Prod.fst ∧
        SweepRun.Leads L now
          (SweepRun.watch ⟨t, if p.isDone then .loop else .finishing entry p, b, reached⟩)
          ⟨(p.run t).2, .loop, c, reached⟩ := by
    intro p t b hp
    have hwatch := watch_entries ⟨t, .loop, b, reached⟩
    cases hdone : p.isDone with
    | true =>
        have hstore : (p.run t).2 = t := by
          cases p with
          | ret a => rfl
          | fail e => rfl
          | _ => contradiction
        rw [hstore]
        exact ⟨_, hwatch, SweepRun.Leads.refl _⟩
    | false =>
        obtain ⟨c, hc, hleads⟩ := hp (SweepRun.watch ⟨t, .loop, b, reached⟩).ahead
        exact ⟨c, hc.trans hwatch, hleads⟩
  induction rest generalizing s ahead with
  | ret a =>
      exact ⟨_, watch_entries ⟨s, .loop, ahead, reached⟩, (SweepRun.Leads.refl _).head⟩
  | fail e =>
      exact ⟨_, watch_entries ⟨s, .loop, ahead, reached⟩, (SweepRun.Leads.refl _).head⟩
  | ask k ih =>
      obtain ⟨c, hc, hleads⟩ := hnext (k s) s ahead (ih s s)
      exact ⟨c, hc, hleads.head⟩
  | commit w next ih =>
      obtain ⟨c, hc, hleads⟩ := hnext next (WriteBatch.commit w s) ahead (ih _)
      exact ⟨c, hc, hleads.head⟩
  | lock key next ih =>
      obtain ⟨c, hc, hleads⟩ := hnext next s ahead (ih s)
      exact ⟨c, hc, hleads.head⟩
  | unlock key next ih =>
      obtain ⟨c, hc, hleads⟩ := hnext next s ahead (ih s)
      exact ⟨c, hc, hleads.head⟩

/-- The deletion of a domain's slots, record by record. -/
theorem leads_deleting (entry : PendingPurge) (reached : List (String × Bool))
    (records : List DidRecord) (report : PurgeReport) (s : EdgeStore)
    (ahead : List (PendingPurge × Bool)) :
    ∃ ahead', ahead'.map Prod.fst = ahead.map Prod.fst ∧
      SweepRun.Leads L now ⟨s, .deleting entry records, ahead, reached⟩
        ⟨((purgeLoop L entry.domain report records).run s).2,
          .finishing entry (finishEntry L entry), ahead', reached⟩ := by
  induction records generalizing report s ahead with
  | nil =>
      exact ⟨_, watch_entries ⟨s, .loop, ahead, reached⟩, (SweepRun.Leads.refl _).head⟩
  | cons record records ih =>
      have hstep : ∀ (t : EdgeStore) (report' : PurgeReport),
          SweepRun.step L ⟨s, .deleting entry (record :: records), ahead, reached⟩
              (.sweep now) =
            SweepRun.watch ⟨t, .deleting entry records, ahead, reached⟩ →
          (purgeLoop L entry.domain report (record :: records)).run s =
            (purgeLoop L entry.domain report' records).run t →
          ∃ ahead', ahead'.map Prod.fst = ahead.map Prod.fst ∧
            SweepRun.Leads L now ⟨s, .deleting entry (record :: records), ahead, reached⟩
              ⟨((purgeLoop L entry.domain report (record :: records)).run s).2,
                .finishing entry (finishEntry L entry), ahead', reached⟩ := by
        intro t report' hstep hrun
        obtain ⟨ahead', hsame, hleads⟩ :=
          ih report' t (SweepRun.watch ⟨t, .deleting entry records, ahead, reached⟩).ahead
        refine ⟨ahead', hsame.trans (watch_entries _), SweepRun.Leads.head ?_⟩
        rw [hstep, hrun]
        exact hleads
      by_cases hempty : record.domain = ""
      · refine hstep s _ ?_ (by rw [purgeLoop, if_pos hempty])
        exact congrArg SweepRun.watch ((SweepRun.advance_deleting ..).trans
          (if_pos (Or.inl hempty)))
      · by_cases hother : record.domain ≠ entry.domain
        · refine hstep s _ ?_ (by rw [purgeLoop, if_neg hempty, if_pos hother])
          exact congrArg SweepRun.watch ((SweepRun.advance_deleting ..).trans
            (if_pos (Or.inr hother)))
        · refine hstep (EdgeStore.commit (.dids (purgeBatch L record)) s) _ ?_
            (by rw [purgeLoop, if_neg hempty, if_neg hother]; rfl)
          exact congrArg SweepRun.watch ((SweepRun.advance_deleting ..).trans
            (if_neg (not_or.mpr ⟨hempty, hother⟩)))

theorem leads_loop (entries : List PendingPurge) (purged : ℕ) (s : EdgeStore)
    (ahead : List (PendingPurge × Bool)) (reached : List (String × Bool))
    (hahead : ahead.map Prod.fst = entries.filter (·.isRipe now)) :
    ∃ reached', SweepRun.Leads L now ⟨s, .loop, ahead, reached⟩
      ⟨((sweepLoop L now purged entries).run s).2, .idle, [], reached'⟩ := by
  induction entries generalizing purged s ahead reached with
  | nil =>
      rw [List.filter_nil, List.map_eq_nil_iff] at hahead
      subst hahead
      exact ⟨reached, (SweepRun.Leads.refl _).head⟩
  | cons entry entries ih =>
      by_cases hripe : entry.isRipe now = true
      · rw [List.filter_cons_of_pos (p := fun e : PendingPurge => e.isRipe now) hripe, List.map_eq_cons_iff] at hahead
        obtain ⟨⟨entry, pending⟩, ahead, rfl, rfl, hahead⟩ := hahead
        obtain ⟨report, s₁, hpurge, -⟩ :=
          run_purgeLoop L entry.domain (allRecords s) ⟨0, 0, 0⟩ s
        obtain ⟨done, s₂, hfinish, -⟩ := run_finishPurge L entry s₁
        let s₃ := ((finishEntry L entry).run s₁).2
        -- the accesses for this entry
        obtain ⟨ahead₁, hsame₁, hdelete⟩ := leads_deleting L now entry
          (reached ++ [(entry.domain, pending)]) (allRecords s) ⟨0, 0, 0⟩ s
          (SweepRun.watch ⟨s, .loop, ahead, reached⟩).ahead
        obtain ⟨ahead₂, hsame₂, hend⟩ := leads_finishing L now entry (finishEntry L entry)
          (reached ++ [(entry.domain, pending)]) s₁ ahead₁
        rw [hpurge] at hdelete
        have hentry := (hdelete.trans hend).head (r := ⟨s, .loop, (entry, pending) :: ahead, reached⟩)
        have hahead₂ : ahead₂.map Prod.fst = entries.filter (·.isRipe now) := by
          rw [hsame₂, hsame₁, watch_entries, hahead]
        -- the run of the loop goes through the same stores
        have hloop : ∃ purged', (sweepLoop L now purged (entry :: entries)).run s =
            (sweepLoop L now purged' entries).run s₃ := by
          have hall : (purgeDomainDids L entry.domain).run s = (.ok report, s₁) := hpurge
          have hs₃ : s₃ = if done then s₂.cancelled entry.domain else s₂ := by
            change ((finishEntry L entry).run s₁).2 = _
            unfold finishEntry
            rw [Prog.run_bind_ok hfinish]
            cases done with
            | true => rw [if_pos rfl, if_pos rfl, run_cancelPurge]
            | false => rfl
          have hrun : (sweepLoop L now purged (entry :: entries)).run s =
              Prog.run (if done then do
                cancelPurge entry.domain
                sweepLoop L now (purged + 1) entries
              else sweepLoop L now purged entries) s₂ := by
            rw [sweepLoop, hripe, if_neg (by simp), Prog.run_bind_ok hall,
              Prog.run_bind_ok hfinish]
          rw [hs₃, hrun]
          cases done with
          | true => exact ⟨purged + 1, Prog.run_bind_ok (run_cancelPurge _ _)⟩
          | false => exact ⟨purged, rfl⟩
        obtain ⟨purged', hloop⟩ := hloop
        obtain ⟨reached', hrest⟩ := ih purged' s₃ ahead₂ _ hahead₂
        rw [hloop]
        exact ⟨reached', hentry.trans hrest⟩
      · rw [List.filter_cons_of_neg (p := fun e : PendingPurge => e.isRipe now) hripe] at hahead
        obtain ⟨reached', hrest⟩ := ih purged s ahead reached hahead
        have hskip : sweepLoop L now purged (entry :: entries) = sweepLoop L now purged entries := by
          rw [sweepLoop, if_pos (by simp [hripe])]
        rw [hskip]
        exact ⟨reached', hrest⟩

/-- Without writes of others, the accesses of the sweep are those of
`run_sweep_once`. -/
theorem leads_runSweepOnce (s : EdgeStore) :
    ∃ reached, SweepRun.Leads L now (SweepRun.start s)
      ⟨((runSweepOnce L now).run s).2, .idle, [], reached⟩ := by
  have hlist : (SweepRun.watch ⟨s, .loop, (dueEntries now s).map (·, true), []⟩).ahead.map
      Prod.fst = ((Table.rows s.pendingPurges).map Prod.snd).filter (·.isRipe now) := by
    rw [watch_entries, List.map_map]
    exact List.map_id _
  obtain ⟨reached, hloop⟩ := leads_loop L now _ 0 s _ [] hlist
  refine ⟨reached, SweepRun.Leads.head ?_⟩
  exact hloop

end Alone

/-! ## The guarantee -/

namespace SweepInv

variable {L : Libs} {r : SweepRun}

theorem deletes_slot (h : SweepInv r) (now : ℕ) {m : String} {record : DidRecord}
    (hrec : r.store.record m = some record)
    (hgone : ¬ SlotKept r.store (r.step L (.sweep now)).store m) :
    r.reached.getLast? = some (record.domain, true) := by
  obtain ⟨s, phase, ahead, reached⟩ := r
  cases phase with
  | idle => exact absurd ⟨rfl, rfl⟩ hgone
  | loop =>
      cases ahead with
      | nil => exact absurd ⟨rfl, rfl⟩ hgone
      | cons x ahead => exact absurd ⟨rfl, rfl⟩ hgone
  | finishing entry rest =>
      obtain ⟨-, hstore⟩ := (h.rest entry rest rfl).access s
      have hks : (rest.access s).2.ks = s.ks := by
        rcases hstore with heq | ⟨w, rfl | rfl, heq⟩ <;> rw [heq] <;> rfl
      refine absurd ⟨?_, ?_⟩ hgone
      · exact congrArg (fun ks => ks.dids.lookup m) hks
      · exact congrArg (fun ks => ks.contentLog.lookup m) hks
  | deleting entry records =>
      cases records with
      | nil => exact absurd ⟨rfl, rfl⟩ hgone
      | cons first records =>
          have hadvance := SweepRun.advance_deleting L now s entry first records ahead reached
          by_cases hskip : first.domain = "" ∨ first.domain ≠ entry.domain
          · rw [if_pos hskip] at hadvance
            refine absurd ?_ hgone
            rw [SweepRun.step_sweep_store, hadvance]
            exact ⟨rfl, rfl⟩
          · rw [if_neg hskip] at hadvance
            have hdomain : first.domain = entry.domain :=
              not_not.mp fun hne => hskip (Or.inr hne)
            have hdrop := commit_purgeBatch L first s m
            have hm : m = first.mnemonic := by
              by_contra hne
              refine hgone ?_
              rw [SweepRun.step_sweep_store, hadvance]
              exact ⟨hdrop.1.trans (if_neg hne), hdrop.2.trans (if_neg hne)⟩
            have hsame : record.domain = first.domain :=
              h.unread first List.mem_cons_self record (hm ▸ hrec)
            rw [hsame, hdomain]
            exact h.here entry rfl

theorem deletes_domain (h : SweepInv r) (now : ℕ) {d : String}
    (hgone : (r.step L (.sweep now)).store.domains.lookup d ≠ r.store.domains.lookup d) :
    r.reached.getLast? = some (d, true) := by
  obtain ⟨s, phase, ahead, reached⟩ := r
  cases phase with
  | idle => exact absurd rfl hgone
  | loop =>
      cases ahead with
      | nil => exact absurd rfl hgone
      | cons x ahead => exact absurd rfl hgone
  | deleting entry records =>
      cases records with
      | nil => exact absurd rfl hgone
      | cons first records =>
          refine absurd ?_ hgone
          rw [SweepRun.step_sweep_store, SweepRun.advance_deleting]
          split <;> rfl
  | finishing entry rest =>
      obtain ⟨-, hstore⟩ := (h.rest entry rest rfl).access s
      have hd : d = entry.domain := by
        by_contra hne
        refine hgone ?_
        change (rest.access s).2.domains.lookup d = s.domains.lookup d
        rcases hstore with heq | ⟨w, rfl | rfl, heq⟩ <;> rw [heq]
        · exact (Table.lookup_erase_ite ..).trans (if_neg hne)
        · rfl
      rw [hd]
      exact h.here entry rfl

end SweepInv

/-- An edge that was told `ops` from a start without pending purges runs the sweep,
and other operations commit writes between its accesses, without cancelling a row
that the sweep has listed and not reached, or moving a slot it has read to another
domain.  Whenever the next access of the sweep deletes a slot or a domain record, the
domain is the one reached last, and its row has been pending from the listing until
it was reached. -/
theorem sweep_deletes_pending (E : EdgeState) (assignments : Table String AssignmentEntry)
    (domains : Table String DomainEntry) (defaultDomain : Option String) (ops : List EdgeOp)
    (events : List SweepEvent) (now : ℕ)
    (hcalm : Run.Meets (SweepRun.step E.libs) SweepRun.Undisturbed
      (SweepRun.start (Run.exec (EdgeRun.step E)
        (EdgeRun.initial assignments ∅ domains defaultDomain) ops).store) events) :
    let r := Run.exec (SweepRun.step E.libs)
      (SweepRun.start (Run.exec (EdgeRun.step E)
        (EdgeRun.initial assignments ∅ domains defaultDomain) ops).store) events
    let t := (r.step E.libs (.sweep now)).store
    (∀ m record, r.store.record m = some record → ¬ SlotKept r.store t m →
      r.reached.getLast? = some (record.domain, true)) ∧
    ∀ d, t.domains.lookup d ≠ r.store.domains.lookup d →
      r.reached.getLast? = some (d, true) := by
  intro r t
  have hstart := purgeInv_exec E assignments domains defaultDomain ops
  have hinv : SweepInv r :=
    Run.exec_invariant (fun _ e hok h => h.step e hok)
      (SweepInv.start hstart.keyed fun d p hp => (hstart.named d p hp).1) hcalm
  exact ⟨fun m record hrec hgone => hinv.deletes_slot now hrec hgone,
    fun d hgone => hinv.deletes_domain now hgone⟩

theorem exec_sync_unassign (E : EdgeState) (r : EdgeRun) (now : ℕ) (update : DidSyncUpdate)
    (now' grace : ℕ) (assigner domain : String) :
    (Run.exec (EdgeRun.step E) r
        [.syncUpdate now update, .domainUnassign now' grace assigner domain]).store =
      ((doDomainUnassign E.libs now' grace assigner domain).run
        (r.step E (.syncUpdate now update)).store).2 := rfl

namespace SweepSample

open Reference

/-- The reference edge holds slot `al`, and its domain has been taken back. -/
def told : List EdgeOp :=
  [.syncUpdate 2 (updateOf [al1] didAl "al" false), .domainUnassign 5 60 "did:c" "h.io"]

/-- The edge starts with `h.io` assigned to it. -/
def assigned : Table String AssignmentEntry :=
  AList.singleton "h.io" ⟨"h.io", 1, "did:c"⟩

/-- The edge when the sweep starts. -/
def taken : EdgeRun :=
  Run.exec (EdgeRun.step edge) (EdgeRun.initial assigned ∅ ∅ none) told

def row : PendingPurge := ⟨"h.io", 5, 60, "grace-expired", "did:c"⟩

theorem taken_eq :
    taken.store.ks.dids = AList.insert "al" (recordAl 2) ∅ ∧
      taken.store.pendingPurges = AList.insert "h.io" row ∅ := by
  have hcanonical : checkCanonical edge.libs "h.io" "replica/domain/unassign" = .ok () := by
    decide +kernel
  obtain ⟨s, hs⟩ : ∃ s, s = (EdgeRun.step edge (EdgeRun.initial assigned ∅ ∅ none)
      (.syncUpdate 2 (updateOf [al1] didAl "al" false))).store := ⟨_, rfl⟩
  have hdids : s.ks.dids = AList.insert "al" (recordAl 2) ∅ := by
    rw [hs]
    exact initialSync_dids assigned ∅ ∅ none 2 validLog_al1 bound_didAl scid_didAl
  have hsame : s.assignments = assigned ∧ s.pendingPurges = ∅ := by
    rw [hs, step_initialSync assigned ∅ ∅ none 2 validLog_al1 bound_didAl scid_didAl]
    exact ⟨rfl, rfl⟩
  have hunassign := run_doDomainUnassign edge.libs 5 60 "did:c" "h.io" s
  have hheld : (s.assignments.lookup "h.io").isSome = true := by
    rw [hsame.1]
    rfl
  rw [hcanonical] at hunassign
  have hstore : taken.store = ((doDomainUnassign edge.libs 5 60 "did:c" "h.io").run s).2 := by
    rw [taken, told, exec_sync_unassign, hs]
  rw [hstore, hunassign]
  simp only [hheld, if_true, hdids, hsame.2, true_and]
  rfl

/-- The control plane assigns the domain again. -/
def reassign : List SweepEvent :=
  [.write (.insertAssignment ⟨"h.io", 101, "did:c"⟩) trivial,
    .write (.removePendingPurge "h.io") trivial]

/-- A sweep of a store with one due row and one slot of its domain: listing, the
re-assignment, and reaching the domain. -/
theorem exec_reassigned {L : Libs} {s : EdgeStore} {record : DidRecord}
    (hdue : dueEntries 100 s = [row]) (hrecords : allRecords s = [record]) :
    ∃ t, t.ks = s.ks ∧ Run.exec (SweepRun.step L) (SweepRun.start s)
      ([.sweep 100] ++ reassign ++ [.sweep 102]) =
        ⟨t, .deleting row [record], [], [("h.io", false)]⟩ := by
  refine ⟨EdgeStore.commit (.removePendingPurge "h.io")
    (EdgeStore.commit (.insertAssignment ⟨"h.io", 101, "did:c"⟩) s), rfl, ?_⟩
  have hgone : ((s.pendingPurges.erase "h.io").lookup "h.io").isSome = false := by
    rw [AList.lookup_erase]
    rfl
  unfold reassign
  simp only [List.cons_append, List.nil_append, Run.exec_cons, Run.exec_nil, SweepRun.step,
    SweepRun.start, SweepRun.advance, SweepRun.watch, hdue, List.map_cons, List.map_nil,
    EdgeStore.commit]
  rw [show row.domain = "h.io" from rfl, hgone, Bool.and_false]
  change SweepRun.mk _ (.deleting row (allRecords s)) [] _ = _
  rw [hrecords]

/-- The same with another domain assigned in between. -/
theorem exec_unrelated {L : Libs} {s : EdgeStore} {record : DidRecord}
    (hdue : dueEntries 100 s = [row]) (hrecords : allRecords s = [record])
    (hpending : (s.pendingPurges.lookup "h.io").isSome = true) :
    ∃ t, t.ks = s.ks ∧ Run.exec (SweepRun.step L) (SweepRun.start s)
      [.sweep 100, .write (.insertAssignment ⟨"g.io", 101, "did:c"⟩) trivial, .sweep 102] =
        ⟨t, .deleting row [record], [], [("h.io", true)]⟩ := by
  refine ⟨EdgeStore.commit (.insertAssignment ⟨"g.io", 101, "did:c"⟩) s, rfl, ?_⟩
  simp only [Run.exec_cons, Run.exec_nil, SweepRun.step, SweepRun.start, SweepRun.advance,
    SweepRun.watch, hdue, List.map_cons, List.map_nil, EdgeStore.commit]
  rw [show row.domain = "h.io" from rfl, hpending]
  change SweepRun.mk _ (.deleting row (allRecords s)) [] _ = _
  rw [hrecords]
  rfl

theorem undisturbed_unrelated (L : Libs) (s : EdgeStore) :
    Run.Meets (SweepRun.step L) SweepRun.Undisturbed (SweepRun.start s)
      [.sweep 100, .write (.insertAssignment ⟨"g.io", 101, "did:c"⟩) trivial, .sweep 102] :=
  ⟨trivial, ⟨fun _ _ h => h, fun _ h => absurd h List.not_mem_nil⟩, trivial, trivial⟩

theorem step_deleting (L : Libs) (now : ℕ) {t : EdgeStore} {reached : List (String × Bool)} :
    (SweepRun.step L ⟨t, .deleting row [recordAl 2], [], reached⟩ (.sweep now)).store.record "al" =
      none := by
  have hdomain : ¬ ((recordAl 2).domain = "" ∨ (recordAl 2).domain ≠ row.domain) := by
    rw [recordAl_domain]
    decide
  have hadvance := SweepRun.advance_deleting L now t row (recordAl 2) [] [] reached
  rw [if_neg hdomain] at hadvance
  rw [SweepRun.step_sweep_store, hadvance, (commit_purgeBatch L (recordAl 2) t "al").1,
    recordAl_mnemonic, if_pos rfl]

theorem taken_rows :
    dueEntries 100 taken.store = [row] ∧ allRecords taken.store = [recordAl 2] ∧
      taken.store.record "al" = some (recordAl 2) ∧
      (taken.store.pendingPurges.lookup "h.io").isSome = true := by
  obtain ⟨hdids, hpending⟩ := taken_eq
  unfold dueEntries allRecords EdgeStore.record
  rw [hdids, hpending]
  exact ⟨rfl, rfl, AList.lookup_insert .., rfl⟩

end SweepSample

open SweepSample Reference in
/-- Slot `al` is deleted for a row that stayed pending while another domain was
assigned. -/
theorem sweep_deletes_pending_al :
    ∃ r : SweepRun, r = Run.exec (SweepRun.step edge.libs) (SweepRun.start taken.store)
        [.sweep 100, .write (.insertAssignment ⟨"g.io", 101, "did:c"⟩) trivial, .sweep 102] ∧
      ¬ SlotKept r.store (r.step edge.libs (.sweep 103)).store "al" ∧
      r.reached.getLast? = some ("h.io", true) := by
  obtain ⟨hdue, hrecords, hrecord, hrow⟩ := taken_rows
  have hthm := sweep_deletes_pending edge assigned ∅ none told
    [.sweep 100, .write (.insertAssignment ⟨"g.io", 101, "did:c"⟩) trivial, .sweep 102] 103
  rw [← taken] at hthm
  generalize taken.store = s at *
  have hdeleted := (hthm (undisturbed_unrelated edge.libs s)).1 "al" (recordAl 2)
  obtain ⟨t, hks, hexec⟩ := exec_unrelated (L := edge.libs) hdue hrecords hrow
  rw [hexec, recordAl_domain] at hdeleted
  have hheld : t.record "al" = some (recordAl 2) := by
    rw [EdgeStore.record, hks]
    exact hrecord
  have hgone : ¬ SlotKept t (SweepRun.step edge.libs
      ⟨t, .deleting row [recordAl 2], [], [("h.io", true)]⟩ (.sweep 103)).store "al" := by
    rintro ⟨hsame, -⟩
    rw [step_deleting, hheld] at hsame
    contradiction
  refine ⟨_, rfl, ?_⟩
  rw [hexec]
  exact ⟨hgone, hdeleted hheld hgone⟩

open SweepSample Reference in
/-- A re-assignment after the listing is ignored: the sweep deletes the slot of a domain
whose row is gone when it reaches it. -/
theorem sweep_deletes_reassigned :
    ∃ r : SweepRun, r = Run.exec (SweepRun.step edge.libs) (SweepRun.start taken.store)
        ([.sweep 100] ++ reassign ++ [.sweep 102]) ∧
      r.reached.getLast? = some ("h.io", false) ∧
      r.store.record "al" = some (recordAl 2) ∧ (recordAl 2).domain = "h.io" ∧
      (r.step edge.libs (.sweep 103)).store.record "al" = none := by
  obtain ⟨hdue, hrecords, hrecord, -⟩ := taken_rows
  generalize taken.store = s at *
  obtain ⟨t, hks, hexec⟩ := exec_reassigned (L := edge.libs) hdue hrecords
  refine ⟨_, rfl, ?_⟩
  rw [hexec]
  refine ⟨rfl, ?_, recordAl_domain 2, step_deleting edge.libs 103⟩
  rw [EdgeStore.record, hks]
  exact hrecord

end DidHosting
