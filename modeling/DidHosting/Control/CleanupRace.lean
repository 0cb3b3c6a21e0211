import Mathlib.Data.List.Chain
import DidHosting.Control.PairedWrites
import DidHosting.Edge.Domains

/-!
# Clean-up beside the control plane

A daemon runs `cleanup_empty_dids` on the store its control plane serves from.  A pass takes
the time, scans the records once, and removes the rows of each chosen slot by four separate
writes.  It takes no lock, so a request may commit between any two accesses of the pass.

A pass removes what it chose, not what it finds.  It spares the live slots as long as each
chosen slot stays as the scan saw it; this is shown for every interleaving of passes with
any requests, whatever these read and in whatever order their steps come.
-/

namespace DidHosting.Cleanup

open Text

/-! ## The removes of a pass -/

/-- The writes by which `cleanup_empty_dids` removes a slot. -/
def slotRemoves (record : DidRecord) : List BatchOp :=
  [.removeDid record.mnemonic, .removeLog record.mnemonic, .removeWitness record.mnemonic,
    .removeOwner record.owner record.mnemonic]

/-- The removes of a pass over the scanned records, each with the record it is for. -/
def cleanupRemoves (now ttlSeconds : ℕ) : List DidRecord → List (DidRecord × BatchOp)
  | [] => []
  | record :: rest =>
      if shouldRemove now ttlSeconds record then
        (slotRemoves record).map (record, ·) ++ cleanupRemoves now ttlSeconds rest
      else
        cleanupRemoves now ttlSeconds rest

/-- The record was soft-deleted longer ago than the retention. -/
def SoftDeletedPast (now : ℕ) (record : DidRecord) : Prop :=
  ∃ d, record.deletedAt = some d ∧ softDeleteRetention < now - d

theorem shouldRemove_iff {now ttlSeconds : ℕ} {record : DidRecord} :
    shouldRemove now ttlSeconds record = true ↔
      record.versionCount = 0 ∧ ttlSeconds < now - record.createdAt ∨
        SoftDeletedPast now record := by
  unfold shouldRemove SoftDeletedPast
  cases record.deletedAt with
  | none => simp
  | some d => simp

theorem SoftDeletedPast.later {now now' : ℕ} {record : DidRecord}
    (h : SoftDeletedPast now record) (hle : now ≤ now') : SoftDeletedPast now' record := by
  obtain ⟨d, hd, hlt⟩ := h
  exact ⟨d, hd, by omega⟩

theorem cleanupRemoves_chosen {now ttlSeconds : ℕ} {records : List DidRecord}
    {x : DidRecord × BatchOp} (h : x ∈ cleanupRemoves now ttlSeconds records) :
    shouldRemove now ttlSeconds x.1 = true ∧ x.2 ∈ slotRemoves x.1 := by
  induction records with
  | nil => cases h
  | cons record rest ih =>
      rw [cleanupRemoves] at h
      split at h
      · rename_i hchosen
        rcases List.mem_append.mp h with hhere | hrest
        · obtain ⟨op, hop, rfl⟩ := List.mem_map.mp hhere
          exact ⟨hchosen, hop⟩
        · exact ih hrest
      · exact ih h

/-- A slot is begun with its record. -/
def Begins (x : DidRecord × BatchOp) : Prop :=
  x.2 = .removeDid x.1.mnemonic

theorem cleanupRemoves_begins (now ttlSeconds : ℕ) (records : List DidRecord) :
    ∀ x ∈ (cleanupRemoves now ttlSeconds records).head?, Begins x := by
  induction records with
  | nil => simp [cleanupRemoves]
  | cons record rest ih =>
      rw [cleanupRemoves]
      split
      · rintro x ⟨⟩
        rfl
      · exact ih

/-- The removes of one slot come one after the other. -/
theorem cleanupRemoves_blocks (now ttlSeconds : ℕ) (records : List DidRecord) :
    (cleanupRemoves now ttlSeconds records).IsChain fun x y => Begins y ∨ y.1 = x.1 := by
  induction records with
  | nil => exact List.IsChain.nil
  | cons record rest ih =>
      rw [cleanupRemoves]
      split
      · simp only [slotRemoves, List.map_cons, List.map_nil, List.cons_append,
          List.nil_append, List.isChain_cons_cons, or_true, true_and]
        exact ih.cons fun x hx => Or.inl (cleanupRemoves_begins now ttlSeconds rest x hx)
      · exact ih

/-! ## The daemon -/

/-- How far the clean-up has come: the time it took, and the removes ahead of it. -/
inductive Pass where
  | idle
  | begun (now : ℕ)
  | removing (now : ℕ) (ahead : List (DidRecord × BatchOp))

/-- The requests the daemon serves, one thread each, its clock, and its clean-up. -/
structure Daemon (ι : Type) where
  machine : Machine ι ControlStore Batch String AppError Unit
  clock : ℕ
  pass : Pass

/-- What the daemon does next: a request takes a step, time passes, or the clean-up makes its
next access, which may fail. -/
inductive DaemonEvent (ι : Type) where
  | request (i : ι)
  | wait (seconds : ℕ)
  | clean (fails : Bool)

namespace Daemon

variable {ι : Type}

def store (d : Daemon ι) : ControlStore :=
  d.machine.store

/-- No request has taken a step, and no pass runs. -/
def start (s : ControlStore) (clock : ℕ)
    (progs : ι → Prog ControlStore Batch String AppError Unit) : Daemon ι :=
  ⟨Machine.start s progs, clock, .idle⟩

/-- The next access of `cleanup_empty_dids`; a failed one ends the pass. -/
def clean (ttlSeconds : ℕ) (fails : Bool) (d : Daemon ι) : Daemon ι :=
  match d.pass with
  | .idle => { d with pass := .begun d.clock }
  | .begun now =>
      if fails then { d with pass := .idle }
      else { d with
        pass := .removing now
          (cleanupRemoves now ttlSeconds ((Table.rows d.store.ks.dids).map Prod.snd)) }
  | .removing _ [] => { d with pass := .idle }
  | .removing now ((_, op) :: ahead) =>
      if fails then { d with pass := .idle }
      else { d with
        machine := { d.machine with store := WriteBatch.commit [op] d.store }
        pass := .removing now ahead }

variable [DecidableEq ι]

def step (ttlSeconds : ℕ) (d : Daemon ι) : DaemonEvent ι → Daemon ι
  | .request i => { d with machine := d.machine.step i }
  | .wait seconds => { d with clock := d.clock + seconds }
  | .clean fails => d.clean ttlSeconds fails

end Daemon

/-! ## What the clean-up must spare -/

/-- The clean-up may remove a row of the slot of `record`, which it chose: a log there is
that of a record soft-deleted past the retention, and so is an empty record unless its time
is over.  The record is the stored one, or the chosen one once it is removed. -/
structure Removable (ttlSeconds now : ℕ) (s : ControlStore) (record : DidRecord) : Prop where
  published : ∀ content, s.log record.mnemonic = some content →
    SoftDeletedPast now ((s.record record.mnemonic).getD record)
  reserved : ∀ r, s.record record.mnemonic = some r → r.versionCount = 0 →
    ttlSeconds < now - r.createdAt ∨ SoftDeletedPast now r

/-- A published record has its log, and an owner-index row its record. -/
structure Whole (s : ControlStore) (m : String) : Prop where
  logged : ∀ r, s.record m = some r → r.versionCount ≠ 0 → (s.log m).isSome = true
  owned : ∀ o, (s.ks.ownerIndex.lookup (o, m)).isSome = true → (s.record m).isSome = true

/-- A remove of the clean-up meets a removable slot, and one that fails midway through a
slot leaves the slot whole. -/
def Spares {ι : Type} (ttlSeconds : ℕ) (d : Daemon ι) : DaemonEvent ι → Prop
  | .clean fails =>
      match d.pass with
      | .removing _ (x :: _) =>
          if fails then ¬ Begins x → Whole d.store x.1.mnemonic
          else Removable ttlSeconds d.clock d.store x.1
      | _ => True
  | _ => True

/-! ## The condition -/

/-- The slot of the next remove is as the pass left it: it holds the scanned record if the
pass has yet to begin with it, and no record afterwards. -/
def AsLeft (s : ControlStore) (x : DidRecord × BatchOp) : Prop :=
  (Begins x → s.record x.1.mnemonic = some x.1) ∧
    (¬ Begins x → s.record x.1.mnemonic = none)

/-- A remove meets its slot as the pass left it, and only the first remove of a slot fails;
a request stores an empty record only where there is no log. -/
def Undisturbed {ι : Type} (d : Daemon ι) : DaemonEvent ι → Prop
  | .request i =>
      ∀ w next, (d.machine.thread i).prog = .commit w next →
        ∀ m r, BatchOp.insertDid m r ∈ w → r.versionCount = 0 → d.store.log m = none
  | .wait _ => True
  | .clean fails =>
      match d.pass with
      | .removing _ (x :: _) => if fails then Begins x else AsLeft d.store x
      | _ => True

instance Begins.decidable (x : DidRecord × BatchOp) : Decidable (Begins x) :=
  inferInstanceAs (Decidable (_ = _))

instance AsLeft.decidable (s : ControlStore) (x : DidRecord × BatchOp) :
    Decidable (AsLeft s x) :=
  inferInstanceAs (Decidable (_ ∧ _))

instance Undisturbed.decidableClean {ι : Type} (fails : Bool) :
    ∀ d : Daemon ι, Decidable (Undisturbed d (.clean fails))
  | ⟨_, _, .idle⟩ => isTrue trivial
  | ⟨_, _, .begun _⟩ => isTrue trivial
  | ⟨_, _, .removing _ []⟩ => isTrue trivial
  | ⟨m, _, .removing _ (x :: _)⟩ =>
      inferInstanceAs (Decidable (if fails then Begins x else AsLeft m.store x))

/-! ## The invariant -/

/-- An empty slot has no log. -/
def EmptyUnlogged (s : ControlStore) : Prop :=
  ∀ m r, s.record m = some r → r.versionCount = 0 → s.log m = none

/-- The removes ahead of a pass.  The log of a slot whose record the pass has removed is that
of a record soft-deleted past the retention. -/
structure Ahead (ttlSeconds now : ℕ) (s : ControlStore) (ahead : List (DidRecord × BatchOp)) :
    Prop where
  chosen : ∀ x ∈ ahead, shouldRemove now ttlSeconds x.1 = true ∧ x.2 ∈ slotRemoves x.1
  blocks : ahead.IsChain fun x y => Begins y ∨ y.1 = x.1
  midway : ∀ x ∈ ahead.head?, ¬ Begins x → s.record x.1.mnemonic = none →
    s.log x.1.mnemonic ≠ none → SoftDeletedPast now x.1

def Pass.Knows (ttlSeconds clock : ℕ) (s : ControlStore) : Pass → Prop
  | .idle => True
  | .begun now => now ≤ clock
  | .removing now ahead => now ≤ clock ∧ Ahead ttlSeconds now s ahead

/-- Requests write paired batches, empty slots have no log, and the pass knows what it
removes. -/
structure CleanInv {ι : Type} (ttlSeconds : ℕ) (d : Daemon ι) : Prop where
  paired : ∀ i, (d.machine.thread i).prog.Writes Paired
  empty : EmptyUnlogged d.store
  pass : d.pass.Knows ttlSeconds d.clock d.store

section Steps

variable {ttlSeconds now : ℕ} {s : ControlStore} {x : DidRecord × BatchOp}
  {ahead : List (DidRecord × BatchOp)}

theorem ahead_scanned (ttlSeconds now : ℕ) (s : ControlStore) (records : List DidRecord) :
    Ahead ttlSeconds now s (cleanupRemoves now ttlSeconds records) where
  chosen _ hx := cleanupRemoves_chosen hx
  blocks := cleanupRemoves_blocks now ttlSeconds records
  midway x hx hnot := absurd (cleanupRemoves_begins now ttlSeconds records x hx) hnot

/-- A remove of another kind than the first leaves the record, and the log or nothing of
it. -/
theorem remove_rest (hmem : x.2 ∈ slotRemoves x.1) (hnot : ¬ Begins x) (m : String) :
    (WriteBatch.commit [x.2] s).record m = s.record m ∧
      ((WriteBatch.commit [x.2] s).log m = none ∨
        (WriteBatch.commit [x.2] s).log m = s.log m) := by
  obtain ⟨record, op⟩ := x
  simp only [slotRemoves, List.mem_cons, List.not_mem_nil, or_false] at hmem
  rcases hmem with rfl | rfl | rfl | rfl
  · exact absurd rfl hnot
  · refine ⟨rfl, ?_⟩
    by_cases hm : m = record.mnemonic
    · subst hm
      exact Or.inl (AList.lookup_erase _ _)
    · exact Or.inr (AList.lookup_erase_ne hm)
  · exact ⟨rfl, Or.inr rfl⟩
  · exact ⟨rfl, Or.inr rfl⟩

/-- The first remove takes the record and leaves the log. -/
theorem remove_first (hbegins : Begins x) (m : String) :
    (WriteBatch.commit [x.2] s).log m = s.log m ∧
      (m ≠ x.1.mnemonic → (WriteBatch.commit [x.2] s).record m = s.record m) ∧
      (WriteBatch.commit [x.2] s).record x.1.mnemonic = none := by
  rw [show x.2 = .removeDid x.1.mnemonic from hbegins]
  exact ⟨rfl, fun hm => AList.lookup_erase_ne hm, AList.lookup_erase _ _⟩

/-- A chosen record whose slot has a log was chosen for its soft deletion. -/
theorem softDeletedPast_of_log {record : DidRecord} {m : String}
    (hempty : EmptyUnlogged s) (hchosen : shouldRemove now ttlSeconds record = true)
    (hrecord : s.record m = some record) (hlog : s.log m ≠ none) :
    SoftDeletedPast now record := by
  rcases shouldRemove_iff.mp hchosen with ⟨hzero, -⟩ | hdeleted
  · exact absurd (hempty m record hrecord hzero) hlog
  · exact hdeleted

/-- A remove that meets its slot as the pass left it meets a removable slot. -/
theorem Ahead.removable {clock : ℕ} (h : Ahead ttlSeconds now s (x :: ahead))
    (hempty : EmptyUnlogged s) (hle : now ≤ clock) (hleft : AsLeft s x) :
    Removable ttlSeconds clock s x.1 := by
  have hchosen := (h.chosen x List.mem_cons_self).1
  by_cases hbegins : Begins x
  · have hrecord := hleft.1 hbegins
    refine ⟨?_, ?_⟩
    · intro content hlog
      rw [hrecord, Option.getD_some]
      exact (softDeletedPast_of_log hempty hchosen hrecord (by simp [hlog])).later hle
    · intro r hr _
      cases hrecord.symm.trans hr
      rcases shouldRemove_iff.mp hchosen with ⟨-, hover⟩ | hdeleted
      · exact Or.inl (by omega)
      · exact Or.inr (hdeleted.later hle)
  · have hrecord := hleft.2 hbegins
    refine ⟨?_, ?_⟩
    · intro content hlog
      rw [hrecord, Option.getD_none]
      exact (h.midway x rfl hbegins hrecord (by simp [hlog])).later hle
    · intro r hr
      cases hrecord.symm.trans hr

theorem Ahead.remove (h : Ahead ttlSeconds now s (x :: ahead)) (hempty : EmptyUnlogged s)
    (hleft : AsLeft s x) : Ahead ttlSeconds now (WriteBatch.commit [x.2] s) ahead := by
  have hx := h.chosen x List.mem_cons_self
  have hchain := List.isChain_cons.mp h.blocks
  refine ⟨fun y hy => h.chosen y (List.mem_cons_of_mem _ hy), hchain.2, ?_⟩
  intro y hy hnot hrecord hlog
  -- the next remove of the same slot: its log was there before this one
  rcases hchain.1 y hy with hbegins | hsame
  · exact absurd hbegins hnot
  · rw [hsame] at hrecord hlog ⊢
    by_cases hbegins : Begins x
    · rw [(remove_first hbegins _).1] at hlog
      exact softDeletedPast_of_log hempty hx.1 (hleft.1 hbegins) hlog
    · obtain ⟨hkept, hgone | hlogged⟩ := remove_rest (s := s) hx.2 hbegins x.1.mnemonic
      · exact absurd hgone hlog
      · rw [hkept] at hrecord
        rw [hlogged] at hlog
        exact h.midway x rfl hbegins hrecord hlog

theorem EmptyUnlogged.remove (h : EmptyUnlogged s) (hmem : x.2 ∈ slotRemoves x.1) :
    EmptyUnlogged (WriteBatch.commit [x.2] s) := by
  intro m r hr hzero
  by_cases hbegins : Begins x
  · obtain ⟨hlog, hothers, hnone⟩ := remove_first (s := s) hbegins m
    rw [hlog]
    by_cases hm : m = x.1.mnemonic
    · rw [hm] at hr
      cases hnone.symm.trans hr
    · exact h m r (hothers hm ▸ hr) hzero
  · obtain ⟨hrecord, hgone | hlog⟩ := remove_rest (s := s) hmem hbegins m
    · exact hgone
    · rw [hlog]
      exact h m r (hrecord ▸ hr) hzero

/-- A paired batch that stores no empty record over a log keeps empty slots without one. -/
theorem EmptyUnlogged.commit {w : Batch} (h : EmptyUnlogged s) (hw : Paired w)
    (hclear : ∀ m r, BatchOp.insertDid m r ∈ w → r.versionCount = 0 → s.log m = none) :
    EmptyUnlogged (WriteBatch.commit w s) := by
  intro m r hr hzero
  obtain ⟨hfrom, hgone | hlog⟩ := (hw s m).empty r hr hzero
  · exact hgone
  · rw [hlog]
    rcases hfrom with hkept | hstored
    · exact h m r hkept hzero
    · exact hclear m r hstored hzero

/-- What a pass knows of the slot it is in outlasts the commits of requests. -/
theorem Ahead.commit {w : Batch} (h : Ahead ttlSeconds now s ahead) (hw : Paired w) :
    Ahead ttlSeconds now (WriteBatch.commit w s) ahead := by
  refine ⟨h.chosen, h.blocks, ?_⟩
  intro x hx hnot hrecord hlog
  rcases (hw s x.1.mnemonic).absent hrecord with hgone | ⟨hnone, hkept⟩
  · exact absurd hgone hlog
  · rw [hkept] at hlog
    exact h.midway x hx hnot hnone hlog

end Steps

section Runs

variable {ι : Type} {ttlSeconds : ℕ} {d : Daemon ι}

theorem cleanInv_clean {fails : Bool} (h : CleanInv ttlSeconds d)
    (hcalm : Undisturbed d (.clean fails)) :
    CleanInv ttlSeconds (d.clean ttlSeconds fails) := by
  obtain ⟨machine, clock, pass⟩ := d
  obtain ⟨hpaired, hempty, hpass⟩ := h
  cases pass with
  | idle => exact ⟨hpaired, hempty, le_refl clock⟩
  | begun now =>
      cases fails with
      | true => exact ⟨hpaired, hempty, trivial⟩
      | false => exact ⟨hpaired, hempty, hpass, ahead_scanned ttlSeconds now _ _⟩
  | removing now ahead =>
      cases ahead with
      | nil => exact ⟨hpaired, hempty, trivial⟩
      | cons x ahead =>
          cases fails with
          | true => exact ⟨hpaired, hempty, trivial⟩
          | false =>
              exact ⟨hpaired, hempty.remove (hpass.2.chosen x List.mem_cons_self).2, hpass.1,
                hpass.2.remove hempty hcalm⟩

theorem CleanInv.spares (e : DaemonEvent ι) (hcalm : Undisturbed d e)
    (h : CleanInv ttlSeconds d) : Spares ttlSeconds d e := by
  obtain ⟨machine, clock, pass⟩ := d
  cases e with
  | request i => trivial
  | wait seconds => trivial
  | clean fails =>
      cases pass with
      | idle => trivial
      | begun now => trivial
      | removing now ahead =>
          cases ahead with
          | nil => trivial
          | cons x ahead =>
              cases fails with
              | true => exact fun hnot => absurd hcalm hnot
              | false => exact h.pass.2.removable h.empty h.pass.1 hcalm

variable [DecidableEq ι]

theorem cleanInv_request {i : ι} (h : CleanInv ttlSeconds d)
    (hcalm : Undisturbed d (.request i)) :
    CleanInv ttlSeconds { d with machine := d.machine.step i } := by
  obtain ⟨hpaired, hstore⟩ := Machine.step_writes (i := i) h.paired
  obtain ⟨machine, clock, pass⟩ := d
  have hpass := h.pass
  rcases hstore with hsame | ⟨w, next, hprog, hw, hcommit⟩
  · refine ⟨hpaired, ?_, ?_⟩
    · exact (congrArg EmptyUnlogged hsame).mpr h.empty
    · exact (congrArg (pass.Knows ttlSeconds clock) hsame).mpr hpass
  · refine ⟨hpaired, ?_, ?_⟩
    · exact (congrArg EmptyUnlogged hcommit).mpr (h.empty.commit hw (hcalm w next hprog))
    · refine (congrArg (pass.Knows ttlSeconds clock) hcommit).mpr ?_
      cases pass with
      | idle => trivial
      | begun now => exact hpass
      | removing now ahead => exact ⟨hpass.1, hpass.2.commit hw⟩

theorem cleanInv_step (e : DaemonEvent ι) (hcalm : Undisturbed d e)
    (h : CleanInv ttlSeconds d) : CleanInv ttlSeconds (d.step ttlSeconds e) := by
  cases e with
  | request i => exact cleanInv_request h hcalm
  | clean fails => exact cleanInv_clean h hcalm
  | wait seconds =>
      refine ⟨h.paired, h.empty, ?_⟩
      obtain ⟨machine, clock, pass⟩ := d
      have hpass := h.pass
      cases pass with
      | idle => trivial
      | begun now => exact Nat.le_add_right_of_le hpass
      | removing now ahead => exact ⟨Nat.le_add_right_of_le hpass.1, hpass.2⟩

/-- In every interleaving of the clean-up with requests in which the chosen slots stay as the
scan saw them, every remove meets a slot without a log, or one soft-deleted past the
retention; no reservation within its time is removed; and no removal fails midway with a row
left that lacks its counterpart. -/
theorem spares_live (A : AppState) (ttlSeconds clock : ℕ) (ops : ι → Op)
    (s₀ : ControlStore) (hempty : EmptyUnlogged s₀) (events : List (DaemonEvent ι))
    (hcalm : Run.Meets (Daemon.step ttlSeconds) Undisturbed
      (Daemon.start s₀ clock fun i => (ops i).prog A) events) :
    Run.Meets (Daemon.step ttlSeconds) (Spares ttlSeconds)
      (Daemon.start s₀ clock fun i => (ops i).prog A) events := by
  have hstart : CleanInv ttlSeconds (Daemon.start s₀ clock fun i => (ops i).prog A) :=
    ⟨fun i => (ops i).writes_paired A, hempty, trivial⟩
  exact Run.Meets.of_invariant (fun _ e hok hinv => hinv.spares e hok)
    (fun _ e hok hinv => cleanInv_step e hok hinv) hstart hcalm

end Runs

section Samples

open Reference

/-- The store once the administrator has reserved `al` at time 0. -/
def reserved : ControlStore :=
  Event.step control fresh (.serve (.create admin 0 (some "al") false none []))

def reservation : DidRecord :=
  emptyRecord admin "al" none 0

theorem reserved_evaluated : reserved.record "al" = some reservation ∧
    (Table.rows reserved.ks.dids).map Prod.snd = [reservation] := by
  decide +kernel

theorem reserved_record : reserved.record "al" = some reservation :=
  reserved_evaluated.1

theorem unrestricted_reserved : Unrestricted admin reserved :=
  ⟨rfl, rfl⟩

theorem reserved_rows : (Table.rows reserved.ks.dids).map Prod.snd = [reservation] :=
  reserved_evaluated.2

theorem emptyUnlogged_reserved : EmptyUnlogged reserved :=
  fun _ _ _ _ => rfl

/-- The publication of `al`, an hour and a second later. -/
def publishing (_ : Unit) : Op :=
  .publish admin 3601 "al" (logOf [al1]) none

/-- The daemon an hour and a second after the reservation, whose time is an hour. -/
def overdue : Daemon Unit :=
  Daemon.start reserved 3601 fun i => (publishing i).prog control

/-- The reservation of another slot, at the same time. -/
def reserving (_ : Unit) : Op :=
  .create admin 3601 (some "bo") false none []

def crowded : Daemon Unit :=
  Daemon.start reserved 3601 fun i => (reserving i).prog control

/-- The step meets no log, when it is one of a request. -/
def Logless (d : Daemon Unit) : DaemonEvent Unit → Prop
  | .request _ => d.store.ks.contentLog.entries = []
  | .clean fails => Undisturbed d (.clean fails)
  | .wait _ => True

instance (d : Daemon Unit) : ∀ e, Decidable (Logless d e)
  | .request _ => inferInstanceAs (Decidable (_ = _))
  | .clean fails => inferInstanceAs (Decidable (Undisturbed d (.clean fails)))
  | .wait _ => isTrue trivial

theorem undisturbed_of_logless (d : Daemon Unit) (e : DaemonEvent Unit) (h : Logless d e) :
    Undisturbed d e := by
  cases e with
  | request i =>
      intro w next _ m r _ _
      have hrows : d.store.ks.contentLog.entries = [] := h
      exact congrArg (List.dlookup m) hrows
  | clean fails => exact h
  | wait seconds => trivial

/-- A slot is reserved while the pass removes the four rows of a reservation nobody
publishes, and the new one is spared. -/
theorem spares_live_overdue :
    let events : List (DaemonEvent Unit) :=
      [.clean false, .request (), .clean false, .request (), .clean false, .request (),
        .clean false, .clean false, .clean false]
    let d := Run.exec (Daemon.step 3600) crowded events
    Run.Meets (Daemon.step 3600) (Spares 3600) crowded events ∧
      d.store.record "al" = none ∧ (d.store.record "bo").isSome := by
  intro events d
  have ⟨hquiet, hrecords⟩ : Run.Meets (Daemon.step 3600) Logless crowded events ∧
      d.store.record "al" = none ∧ (d.store.record "bo").isSome := by
    decide +kernel
  exact ⟨spares_live control 3600 3601 reserving reserved emptyUnlogged_reserved events
    (hquiet.mono undisturbed_of_logless), hrecords⟩

theorem exec_request {ι : Type} [DecidableEq ι] (ttlSeconds : ℕ) (d : Daemon ι)
    (schedule : List ι) :
    Run.exec (Daemon.step ttlSeconds) d (schedule.map .request) =
      { d with machine := Run.exec Machine.step d.machine schedule } := by
  induction schedule generalizing d with
  | nil => rfl
  | cons i schedule ih =>
      rw [List.map_cons, Run.exec_cons, ih, Run.exec_cons]
      rfl

/-- The pass that has scanned the reservation. -/
def scanned : Daemon Unit :=
  { overdue with pass := .removing 3601 ((slotRemoves reservation).map (reservation, ·)) }

theorem exec_scan :
    Run.exec (Daemon.step 3600) overdue [.clean false, .clean false] = scanned := by
  have hscan : cleanupRemoves 3601 3600 ((Table.rows reserved.ks.dids).map Prod.snd) =
      (slotRemoves reservation).map (reservation, ·) := by
    rw [reserved_rows]
    decide +kernel
  exact congrArg (fun ahead => ({ overdue with pass := .removing 3601 ahead } : Daemon Unit))
    hscan

/-- The publication runs up to its commit after the scan, and commits. -/
theorem exec_published : ∃ schedule : List Unit,
    (Run.exec (Daemon.step 3600) scanned (schedule.map .request)).store =
        WriteBatch.commit (publishBatch "al" (logOf [al1])
          (publishedRecord reservation [al1] didAl (document didAl []) 3601) ⟨[], []⟩
          (publishedDomain reservation [al1] didAl (document didAl []) 3601)) reserved ∧
      (Run.exec (Daemon.step 3600) scanned (schedule.map .request)).pass = scanned.pass := by
  have hnone : publishedClaims reservation [al1] didAl (document didAl []) 3601 = [] :=
    agentNames_document didAl _ []
  have hplan := publishPlan_yields unrestricted_reserved reserved_record rfl validLog_al1
    validateMnemonic_al 3601 (by rw [hnone]; simp)
  rw [hnone] at hplan
  have hprog : (scanned.machine.thread ()).prog = Prog.planned (some "al")
      (publishPlan control admin 3601 "al" (logOf [al1]) none) := rfl
  obtain ⟨schedule, -, hat, -, -⟩ := Machine.exec_planned hprog (fun _ _ => rfl) hplan
  refine ⟨schedule ++ [()], ?_, ?_⟩
  · rw [exec_request, Run.exec_append, Run.exec_cons, Run.exec_nil]
    exact hat.step_store
  · rw [exec_request]

/-- A pass that comes to its first remove takes the record and the log it finds. -/
theorem removes_found (d : Daemon Unit) (hpass : d.pass = scanned.pass) :
    let t := Run.exec (Daemon.step 3600) d [.clean false, .clean false]
    t.store.record "al" = none ∧ t.store.log "al" = none := by
  obtain ⟨machine, clock, pass⟩ := d
  cases hpass
  exact ⟨AList.lookup_erase _ _, AList.lookup_erase _ _⟩

/-- A pass does not spare a published record that is not soft-deleted. -/
theorem not_spares_of_log (d : Daemon Unit) (hpass : d.pass = scanned.pass) {r : DidRecord}
    {content : String} (hrecord : d.store.record "al" = some r) (hkept : r.deletedAt = none)
    (hlog : d.store.log "al" = some content) : ¬ Spares 3600 d (.clean false) := by
  obtain ⟨machine, clock, pass⟩ := d
  cases hpass
  intro hspares
  have hremovable : Removable 3600 clock machine.store reservation := hspares
  obtain ⟨t, ht, -⟩ := hremovable.published content hlog
  rw [show machine.store.record reservation.mnemonic = some r from hrecord, Option.getD_some,
    hkept] at ht
  cases ht

/-- A reservation is published after the scan saw it expired; the pass removes the published
record and its log.  A pass whose second remove fails leaves the owner-index row of a slot
without a record. -/
theorem removes_published :
    (∃ events, let d := Run.exec (Daemon.step 3600) overdue events
      d.store.log "al" = some (logOf [al1]) ∧
        (∃ r, d.store.record "al" = some r ∧ r.versionCount = 1 ∧ r.deletedAt = none) ∧
        ¬ Spares 3600 d (.clean false) ∧
        let t := Run.exec (Daemon.step 3600) d [.clean false, .clean false]
        t.store.record "al" = none ∧ t.store.log "al" = none) ∧
      let d := Run.exec (Daemon.step 3600) overdue
        [.clean false, .clean false, .clean false, .clean true]
      d.store.record "al" = none ∧ d.store.ks.ownerIndex.lookup (admin.did, "al") = some "al" := by
  constructor
  · obtain ⟨schedule, hstore, hpass⟩ := exec_published
    refine ⟨[.clean false, .clean false] ++ schedule.map .request, ?_⟩
    rw [Run.exec_append, exec_scan]
    intro d
    have heff := commit_publishBatch reserved.ks "al" (logOf [al1])
      (publishedDomain reservation [al1] didAl (document didAl []) 3601)
      (publishedRecord reservation [al1] didAl (document didAl []) 3601) ⟨[], []⟩
    obtain ⟨-, hrecord, hlog⟩ :=
      write_slot (congrArg DidsKs.dids heff) (congrArg DidsKs.contentLog heff)
    have hrecord' : d.store.record "al" =
        some (publishedRecord reservation [al1] didAl (document didAl []) 3601) :=
      (congrArg (fun s : ControlStore => s.record "al") hstore).trans hrecord
    have hlog' : d.store.log "al" = some (logOf [al1]) :=
      (congrArg (fun s : ControlStore => s.log "al") hstore).trans hlog
    exact ⟨hlog', ⟨_, hrecord', rfl, rfl⟩, not_spares_of_log d hpass hrecord' rfl hlog',
      removes_found d hpass⟩
  · exact ⟨by decide +kernel, by decide +kernel⟩

end Samples

end DidHosting.Cleanup
