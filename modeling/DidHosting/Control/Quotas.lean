import Mathlib.Algebra.Order.BigOperators.Group.List
import DidHosting.Support.Totals
import DidHosting.Control.Listing
import DidHosting.Control.Reference

/-!
# Quotas

A request that adds a slot or stores a longer log is admitted only while its caller stays
within the caps of its entry.  What the caller holds is counted by a scan of the owner index;
the count is the number of slots and the bytes of the logs that are stored for it, after any
run.  From this every request keeps an owner within its caps, save those that the caps do
not bind.
-/

namespace DidHosting

open Text

/-! ## What an owner holds -/

/-- What a record counts for `owner`. -/
def ofOwner (owner : String) (count : String → DidRecord → ℕ) (m : String)
    (record : DidRecord) : ℕ :=
  if record.owner = owner then count m record else 0

/-- The bytes of the log stored for a slot. -/
def ControlStore.logSize (s : ControlStore) (m : String) : ℕ :=
  ((s.log m).map String.utf8ByteSize).getD 0

/-- How many slots the owner holds. -/
def heldCount (owner : String) (s : ControlStore) : ℕ :=
  Table.total (ofOwner owner fun _ _ => 1) s.ks.dids

/-- The size the records of the owner's slots state. -/
def heldSize (owner : String) (s : ControlStore) : ℕ :=
  Table.total (ofOwner owner fun _ record => record.contentSize) s.ks.dids

/-- The bytes stored as logs of the owner's slots. -/
def heldBytes (owner : String) (s : ControlStore) : ℕ :=
  Table.total (ofOwner owner fun m _ => s.logSize m) s.ks.dids

/-! ## Sizes are those of the stored logs -/

/-- A record states the size of the log, and there is no log without a record. -/
structure SizedSlot (record : Option DidRecord) (log : Option String) : Prop where
  size : ∀ r, record = some r → r.contentSize = (log.map String.utf8ByteSize).getD 0
  unlogged : record = none → log = none

/-- Every record states the size of the log of its slot. -/
def Sized (s : ControlStore) : Prop :=
  ∀ m, SizedSlot (s.record m) (s.log m)

section

variable {A : AppState} {s : ControlStore}

theorem SizedSlot.stored {r : DidRecord} {log : String}
    (h : r.contentSize = log.utf8ByteSize) : SizedSlot (some r) (some log) where
  size := by
    rintro r' ⟨⟩
    exact h
  unlogged := by
    intro hnone
    contradiction

theorem SlotChange.sized {op : Op} {m : String} {record : Option DidRecord}
    {log : Option String} (hchange : SlotChange A s op m record log)
    (h : SizedSlot (s.record m) (s.log m)) : SizedSlot record log := by
  cases hchange with
  | created hauth =>
      refine ⟨?_, fun hnone => by contradiction⟩
      rintro r ⟨⟩
      cases hread : s.record m with
      | none => rw [Option.isSome_none, h.unlogged hread]; rfl
      | some r => rfl
  | registered hpre hreg => exact .stored rfl
  | published hrep hnames => exact .stored rfl
  | named hrep hclaim heffect => exact .stored rfl
  | deleted hread hauth => exact ⟨fun r hr => by contradiction, fun _ => rfl⟩
  | rolledBack hread hauth hcontent hkeep hlt => exact .stored rfl
  | @touched _ m r r' hread hsame =>
      refine ⟨?_, fun hnone => by contradiction⟩
      rintro r'' ⟨⟩
      rw [hsame.contentSize]
      exact h.size r hread

theorem sized_step (e : Event) (h : Sized s) : Sized (e.step A s) := by
  cases e with
  | administer acl domains => exact h
  | serve op =>
      exact slotwise_step (P := fun _ record log => SizedSlot record log)
        (fun m record log hchange => hchange.sized) h

theorem sized_initial (acl : Table String AclEntry) (domains : Table String DomainEntry) :
    Sized (ControlStore.initial acl domains) :=
  fun _ => ⟨fun r hr => by contradiction, fun _ => rfl⟩

theorem sized_run (A : AppState) (acl : Table String AclEntry)
    (domains : Table String DomainEntry) (events : List Event) :
    Sized (Run.exec (Event.step A) (ControlStore.initial acl domains) events) :=
  Run.exec_invariant_of_step (fun _ e h => sized_step e h) events (sized_initial acl domains)

theorem Sized.heldBytes (h : Sized s) (owner : String) :
    DidHosting.heldBytes owner s = heldSize owner s := by
  apply Table.total_congr_weight
  intro m r hrow
  unfold ofOwner
  congr 1
  exact ((h m).size r hrow).symm

end

/-! ## The count of a scan -/

section

variable {s : ControlStore}

theorem saturatingAdd_min (a b c : ℕ) :
    min (saturatingAdd a b + c) u64Max = min (a + (b + c)) u64Max := by
  unfold saturatingAdd
  omega

theorem weight_of_none {owner m : String} {count : String → DidRecord → ℕ}
    (hread : s.record m = none) : Table.weight (ofOwner owner count) s.ks.dids m = 0 := by
  unfold Table.weight
  rw [show s.ks.dids.lookup m = none from hread]
  rfl

theorem weight_of_some {owner m : String} {count : String → DidRecord → ℕ} {r : DidRecord}
    (hread : s.record m = some r) :
    Table.weight (ofOwner owner count) s.ks.dids m =
      if r.owner = owner then count m r else 0 := by
  unfold Table.weight
  rw [show s.ks.dids.lookup m = some r from hread]
  rfl

/-- The loop adds what the rows of the scan count. -/
theorem ownerUsageFrom_eval (owner : String) (mnemonics : List String) (count total : ℕ)
    (htotal : total ≤ u64Max) :
    (ownerUsageFrom owner count total mnemonics).eval s =
      .ok (count + (mnemonics.map (Table.weight (ofOwner owner fun _ _ => 1) s.ks.dids)).sum,
        min (total + (mnemonics.map
          (Table.weight (ofOwner owner fun _ r => r.contentSize) s.ks.dids)).sum) u64Max) := by
  induction mnemonics generalizing count total with
  | nil =>
      rw [List.map_nil, List.map_nil, List.sum_nil, Nat.add_zero, Nat.add_zero,
        min_eq_left htotal]
      rfl
  | cons m rest ih =>
      rw [List.map_cons, List.map_cons, List.sum_cons, List.sum_cons]
      cases hread : s.record m with
      | none =>
          have hstep : (ownerUsageFrom owner count total (m :: rest)).eval s =
              (ownerUsageFrom owner count total rest).eval s := by
            simp only [ownerUsageFrom, bind, Query.bind, Query.read, Query.eval, hread]
          rw [hstep, weight_of_none hread, weight_of_none hread, Nat.zero_add, Nat.zero_add]
          exact ih count total htotal
      | some r =>
          rw [weight_of_some hread, weight_of_some hread]
          by_cases howner : r.owner = owner
          · have hstep : (ownerUsageFrom owner count total (m :: rest)).eval s =
                (ownerUsageFrom owner (count + 1) (saturatingAdd total r.contentSize) rest).eval
                  s := by
              simp only [ownerUsageFrom, bind, Query.bind, Query.read, Query.eval, hread,
                if_pos howner]
            rw [hstep, if_pos howner, if_pos howner, 
              ih (count + 1) (saturatingAdd total r.contentSize) (min_le_right _ _),
              saturatingAdd_min, Nat.add_assoc]
          · have hstep : (ownerUsageFrom owner count total (m :: rest)).eval s =
                (ownerUsageFrom owner count total rest).eval s := by
              simp only [ownerUsageFrom, bind, Query.bind, Query.read, Query.eval, hread,
                if_neg howner]
            rw [hstep, if_neg howner, if_neg howner, Nat.zero_add, Nat.zero_add]
            exact ih count total htotal

/-- The scan for an owner leads to a slot once. -/
theorem OwnersIndexed.nodup_ownerRows (h : OwnersIndexed s) (owner : String) :
    (ownerRows owner s).Nodup := by
  unfold ownerRows
  refine List.pairwise_map.mpr (List.Pairwise.filter _ ?_)
  refine List.Pairwise.imp_of_mem ?_
    (List.pairwise_map.mp (Table.keys_rows_nodup s.ks.ownerIndex))
  rintro ⟨⟨o, m⟩, v⟩ ⟨⟨o', m'⟩, v'⟩ hrow hrow' hne hsame
  obtain ⟨rfl, howner⟩ := h.of_row (Table.mem_rows.mp hrow)
  obtain ⟨rfl, howner'⟩ := h.of_row (Table.mem_rows.mp hrow')
  obtain rfl : v = v' := hsame
  rw [howner] at howner'
  obtain rfl := Option.some.inj howner'
  exact hne rfl

/-- A scan finds what the owner's slots count. -/
theorem OwnersIndexed.sum_ownerRows (h : OwnersIndexed s) (owner : String)
    (count : String → DidRecord → ℕ) :
    ((ownerRows owner s).map (Table.weight (ofOwner owner count) s.ks.dids)).sum =
      Table.total (ofOwner owner count) s.ks.dids := by
  apply Table.sum_weight _ (h.nodup_ownerRows owner)
  intro m r hrow hcounts
  have howner : r.owner = owner := by
    by_contra hne
    exact hcounts (if_neg hne)
  subst howner
  exact h.mem_ownerRows hrow

theorem OwnersIndexed.ownerUsage_eval (h : OwnersIndexed s) (owner : String) :
    (ownerUsage owner).eval s = .ok (heldCount owner s, min (heldSize owner s) u64Max) := by
  have hscan : (ownerUsage owner).eval s =
      (ownerUsageFrom owner 0 0 (ownerRows owner s)).eval s := rfl
  rw [hscan, ownerUsageFrom_eval owner _ 0 0 (Nat.zero_le _), h.sum_ownerRows,
    h.sum_ownerRows, Nat.zero_add, Nat.zero_add]
  rfl

end

/-- After any run an owner's usage is the number of its slots and the bytes of their logs. -/
theorem owner_usage_run (A : AppState) (acl : Table String AclEntry)
    (domains : Table String DomainEntry) (events : List Event) (owner : String) :
    let s := Run.exec (Event.step A) (ControlStore.initial acl domains) events
    (ownerUsage owner).eval s = .ok (heldCount owner s, min (heldBytes owner s) u64Max) := by
  intro s
  rw [(sized_run A acl domains events).heldBytes owner]
  exact (ownersIndexed_run A acl domains events).ownerUsage_eval owner

/-! ## The size of a cut log -/

theorem utf8Len_stripCr_le (current : List Char) :
    String.utf8Len (stripCr current) ≤ String.utf8Len current := by
  rcases stripCr_cases current with hsame | hcr
  · rw [hsame]
  · conv_rhs => rw [hcr, String.utf8Len_cons]
    exact Nat.le_add_right _ _

/-- The lines of a text and a byte for the end of each are at most one byte more. -/
theorem sum_linesFrom_le (cs current : List Char) :
    ((linesFrom current cs).map fun l => String.utf8Len l + 1).sum ≤
      String.utf8Len current + String.utf8Len cs + 1 := by
  induction cs generalizing current with
  | nil =>
      change ((if current = [] then [] else [current.reverse]).map _).sum ≤ _
      split
      · exact Nat.zero_le _
      · simp
  | cons c cs ih =>
      by_cases hc : c = '\n'
      · subst hc
        have hrest := ih []
        have hline := utf8Len_stripCr_le current
        have hsize : Char.utf8Size '\n' = 1 := rfl
        rw [linesFrom_newline, List.map_cons, List.sum_cons, String.utf8Len_cons,
          String.utf8Len_reverse, hsize]
        rw [String.utf8Len_nil] at hrest
        omega
      · have hrest := ih (c :: current)
        rw [linesFrom_cons hc, String.utf8Len_cons]
        rw [String.utf8Len_cons] at hrest
        omega

/-- Joined lines take one byte less than the lines and a byte for the end of each. -/
theorem utf8Len_intercalate_le (ls : List (List Char)) :
    String.utf8Len (['\n'].intercalate ls) ≤ (ls.map fun l => String.utf8Len l + 1).sum - 1 := by
  induction ls with
  | nil => rfl
  | cons l ls ih =>
      by_cases hls : ls = []
      · subst hls
        simp
      · have hsize : String.utf8Len ['\n'] = 1 := rfl
        have hpos : 0 < (ls.map fun l => String.utf8Len l + 1).sum := by
          obtain ⟨l', ls', rfl⟩ := List.exists_cons_of_ne_nil hls
          rw [List.map_cons, List.sum_cons]
          omega
        rw [List.intercalate_cons_of_ne_nil hls, String.utf8Len_append, String.utf8Len_append,
          hsize, List.map_cons, List.sum_cons]
        omega

/-- A log cut to its first entries is no longer than it was. -/
theorem truncateLog_size_le (content : String) (keep : ℕ) :
    (truncateLog content keep).utf8ByteSize ≤ content.utf8ByteSize := by
  have hlines : ((lines content).map fun l => String.utf8Len l.toList + 1).sum ≤
      content.utf8ByteSize + 1 := by
    have hsum := sum_linesFrom_le content.toList []
    have hmap : ((lines content).map fun l => String.utf8Len l.toList + 1) =
        (linesFrom [] content.toList).map fun l => String.utf8Len l + 1 := by
      unfold lines
      rw [List.map_map]
      apply List.map_congr_left
      intro l _
      rw [Function.comp_apply, String.toList_ofList]
    have hbytes : String.utf8Len content.toList = content.utf8ByteSize := by
      rw [← String.utf8ByteSize_ofList, String.ofList_toList]
    rw [String.utf8Len_nil, hbytes] at hsum
    rw [hmap]
    omega
  have hkept : (((nonblankLines content).take keep).map fun l => String.utf8Len l.toList + 1).sum ≤
      ((lines content).map fun l => String.utf8Len l.toList + 1).sum := by
    apply List.Sublist.sum_le_sum
    · exact ((List.take_sublist _ _).trans List.filter_sublist).map _
    · exact fun _ _ => Nat.zero_le _
  have hjoin := utf8Len_intercalate_le (((nonblankLines content).take keep).map String.toList)
  rw [List.map_map] at hjoin
  unfold truncateLog joinLines
  rw [String.utf8ByteSize_ofList]
  refine hjoin.trans ?_
  change (((nonblankLines content).take keep).map fun l => String.utf8Len l.toList + 1).sum - 1 ≤ _
  omega

/-! ## What a request changes -/

/-- The caller of a request. -/
def Op.auth : Op → AuthClaims
  | .create auth .. => auth
  | .register auth .. => auth
  | .publish auth .. => auth
  | .agentName auth .. => auth
  | .uploadWitness auth .. => auth
  | .delete auth .. => auth
  | .changeOwner auth .. => auth
  | .setDisabled auth .. => auth
  | .rollback auth .. => auth

/-- The ways a request can change what is held: `UsageChange A s op m record` says that
request `op`, served in store `s`, leaves slot `m` with `record`, and which quota it has
passed. -/
inductive UsageChange (A : AppState) (s : ControlStore) :
    Op → String → Option DidRecord → Prop where
  | added {op m r} :
      s.record m = none → r.owner = op.auth.did →
      (checkDidCountLimit op.auth).eval s = .ok () →
      r.contentSize = 0 ∨ (checkTotalSizeLimit op.auth 0 r.contentSize).eval s = .ok () →
      UsageChange A s op m (some r)
  | stored {op m r r'} :
      s.record m = some r → r'.owner = r.owner → authorized op.auth r = true →
      op.publishes = some m →
      (checkTotalSizeLimit op.auth r.contentSize r'.contentSize).eval s = .ok () →
      UsageChange A s op m (some r')
  | taken {op m r r'} :
      s.record m = some r → op.auth.role = .admin → r'.owner = op.auth.did →
      UsageChange A s op m (some r')
  | lessened {op m r r'} :
      s.record m = some r → r'.owner = r.owner → r'.contentSize ≤ r.contentSize →
      UsageChange A s op m (some r')
  | transferred {auth now m newOwner r r'} :
      s.record m = some r → (resolveDidOrAgentName A newOwner).eval s = .ok r'.owner →
      r'.contentSize = r.contentSize →
      UsageChange A s (.changeOwner auth now m newOwner) m (some r')
  | removed {op m} : UsageChange A s op m none

section

variable {A : AppState} {s t : ControlStore}

/-- Slot `m` is left with `record`, the others as they were. -/
def LeavesRecord (s t : ControlStore) (m : String) (record : Option DidRecord) : Prop :=
  (∀ m', m' ≠ m → t.record m' = s.record m') ∧ t.record m = record

theorem leavesRecord_insert {m : String} {r : DidRecord}
    (hdids : t.ks.dids = s.ks.dids.insert m r) : LeavesRecord s t m (some r) := by
  unfold LeavesRecord ControlStore.record
  rw [hdids]
  exact ⟨fun m' hm => AList.lookup_insert_ne hm, AList.lookup_insert _⟩

theorem leavesRecord_erase {m : String} (hdids : t.ks.dids = s.ks.dids.erase m) :
    LeavesRecord s t m none := by
  unfold LeavesRecord ControlStore.record
  rw [hdids]
  exact ⟨fun m' hm => AList.lookup_erase_ne hm, AList.lookup_erase _ _⟩

/-- A create leaves the store, or adds an empty slot that the quota allows. -/
theorem createDid_counted (A : AppState) (auth : AuthClaims) (now : ℕ) (s : ControlStore)
    (path : Option String) (force : Bool) (domain : Option String) (draws : List String) :
    ((createDid A auth now path force domain draws).run s).2 = s ∨
      ∃ m, LeavesRecord s ((createDid A auth now path force domain draws).run s).2 m
          (some (emptyRecord auth m domain now)) ∧
        (s.record m = none → (checkDidCountLimit auth).eval s = .ok ()) ∧
        ∀ r, s.record m = some r → authorized auth r = true := by
  have hfails := createDid_run A auth now s path force domain draws
  unfold createDid at hfails ⊢
  rw [Prog.run_bind] at hfails ⊢
  rcases createPath_run auth s path force draws with ⟨e, he⟩ | ⟨m, existing, hrun, hrec, hauth⟩
  · rw [he]
    exact Or.inl rfl
  · rw [hrun] at hfails ⊢
    simp only at hfails ⊢
    rw [Prog.run_bind, Prog.run_liftM] at hfails ⊢
    cases hq : (checkAddedSlot auth m).eval (afterReplace auth m existing s) with
    | ok u =>
        refine Or.inr ⟨m, ⟨fun m' hm => ?_, ?_⟩, ?_, fun r hr => ?_⟩
        · have hkept : (afterReplace auth m existing s).record m' = s.record m' :=
            afterReplace_record m m' existing
          exact Eq.trans (AList.lookup_insert_ne hm) hkept
        · exact AList.lookup_insert _
        · intro hnone
          obtain rfl : none = existing := hnone.symm.trans hrec
          unfold checkAddedSlot at hq
          change (_ : ControlQ Unit).eval s = _ at hq
          simp only [bind, Query.bind, Query.read, Query.eval, hnone] at hq
          exact hq
        · exact (hauth r (hrec.symm.trans hr)).2.2
    | error e =>
        rw [hq] at hfails
        refine Or.inl ?_
        rcases hfails with ⟨e', he'⟩ | ⟨_, _, _, _, _, hok⟩
        · exact congrArg Prod.snd he'
        · cases hok

/-- A registration that is committed has passed the quotas. -/
theorem registerPlan_charged {auth : AuthClaims} {now : ℕ} {path didLog : String} {force : Bool}
    {domain : Option String} {r : Option Batch × RequestUriResponse}
    (h : (registerPlan A auth now path didLog force domain).Yields {s} r) :
    (checkNewSlot auth (s.record path)).eval s = .ok () ∧
      (checkTotalSizeLimit auth (((s.record path).map (·.contentSize)).getD 0)
        didLog.utf8ByteSize).eval s = .ok () := by
  unfold registerPlan at h
  simp only [Query.yields_bind, Query.yields_read, Query.yields_ofExcept,
    Query.yields_okOr, Query.yields_pure, Set.mem_singleton_iff, exists_eq_left] at h
  obtain ⟨_, _, _, _, _, _, _, _, _, _, _, _, _, hcount, _, hsize, _⟩ := h
  exact ⟨Query.eval_eq_ok_iff.mpr hcount, Query.eval_eq_ok_iff.mpr hsize⟩

/-- A republication that is committed has passed the quota of the size. -/
theorem prepareRepublish_charged {auth : AuthClaims} {now : ℕ} {mnemonic didLog : String}
    {requestDomain : Option String} {r : DidRecord × String × Publication}
    (h : (prepareRepublish A auth now mnemonic didLog requestDomain).Yields {s} r) :
    ∃ record, s.record mnemonic = some record ∧
      (checkTotalSizeLimit auth record.contentSize didLog.utf8ByteSize).eval s = .ok () := by
  unfold prepareRepublish at h
  simp only [Query.yields_bind, Query.yields_read, Query.yields_ofExcept,
    Query.yields_pure, yields_getAuthorizedRecord, Set.mem_singleton_iff, exists_eq_left] at h
  obtain ⟨_, _, record, ⟨hrecord, _⟩, _, _, _, _, _, hsize, _⟩ := h
  exact ⟨record, hrecord, Query.eval_eq_ok_iff.mpr hsize⟩

theorem publishPlan_charged {auth : AuthClaims} {now : ℕ} {mnemonic didLog : String}
    {requestDomain : Option String} {r : Option Batch × Unit}
    (h : (publishPlan A auth now mnemonic didLog requestDomain).Yields {s} r) :
    ∃ record, s.record mnemonic = some record ∧
      (checkTotalSizeLimit auth record.contentSize didLog.utf8ByteSize).eval s = .ok () := by
  unfold publishPlan at h
  simp only [Query.yields_bind] at h
  obtain ⟨_, hprepared, _⟩ := h
  exact prepareRepublish_charged hprepared

theorem agentNamePlan_charged {auth : AuthClaims} {now : ℕ} {mnemonic name didLog : String}
    {requestDomain : Option String} {op : AgentNameOp} {r : Option Batch × DidRecord}
    (h : (agentNamePlan A auth now mnemonic name didLog requestDomain op).Yields {s} r) :
    ∃ record, s.record mnemonic = some record ∧
      (checkTotalSizeLimit auth record.contentSize didLog.utf8ByteSize).eval s = .ok () := by
  unfold agentNamePlan at h
  simp only [Query.yields_bind] at h
  obtain ⟨_, hprepared, _⟩ := h
  exact prepareRepublish_charged hprepared

theorem changeOwnerPlan_resolved {auth : AuthClaims} {now : ℕ} {mnemonic newOwner : String}
    {w : Batch} {record : DidRecord}
    (h : (changeOwnerPlan A auth now mnemonic newOwner).Yields {s} (some w, record)) :
    ∃ r owner, s.record mnemonic = some r ∧
      (resolveDidOrAgentName A newOwner).eval s = .ok owner ∧
      w = changeOwnerBatch mnemonic owner r now := by
  unfold changeOwnerPlan at h
  simp only [Query.yields_bind, yields_getAuthorizedRecord, Set.mem_singleton_iff,
    exists_eq_left] at h
  obtain ⟨r, ⟨hread, _⟩, _, _, owner, howner, h⟩ := h
  refine ⟨r, owner, hread, Query.eval_eq_ok_iff.mpr howner, ?_⟩
  split at h
  · rw [Query.yields_pure] at h
    cases h
  · simp only [Query.yields_bind, Query.yields_pure] at h
    obtain ⟨_, _, hw⟩ := h
    cases hw
    rfl

theorem registered_usage {auth : AuthClaims} {now : ℕ} {path didLog : String} {force : Bool}
    {domain : Option String} {ownerChanged : Bool} {p : Publication} {did : String}
    {names : List AgentNameEntry}
    (howner : registerOwnership auth force (s.record path) = .ok ownerChanged)
    (hcount : (checkNewSlot auth (s.record path)).eval s = .ok ())
    (hsize : (checkTotalSizeLimit auth (((s.record path).map (·.contentSize)).getD 0)
      didLog.utf8ByteSize).eval s = .ok ()) :
    UsageChange A s (.register auth now path didLog force domain) path
      (some (registerRecord A auth path didLog p did (s.record path) ownerChanged names now)) := by
  cases hread : s.record path with
  | none =>
      rw [hread] at hcount hsize
      exact .added hread rfl hcount (Or.inr hsize)
  | some r =>
      rw [hread] at howner hsize
      unfold registerOwnership at howner
      simp only at howner
      split at howner
      · rename_i hsame
        exact .stored hread hsame.symm (by simp [authorized, Op.auth, hsame]) rfl hsize
      · split at howner
        · cases howner
        · rename_i hadmin
          exact .taken hread (not_not.mp hadmin) rfl

/-- The store `t` has the records of `s`, or one of them has changed in one of the ways that
`UsageChange` lists. -/
def ChangesUsage (A : AppState) (s t : ControlStore) (op : Op) : Prop :=
  (∀ m, t.record m = s.record m) ∨
    ∃ m record, LeavesRecord s t m record ∧ UsageChange A s op m record

theorem ChangesUsage.unchanged {op : Op} (h : t = s) : ChangesUsage A s t op :=
  Or.inl fun m => congrArg (·.record m) h

theorem createDid_usage (auth : AuthClaims) (now : ℕ) (path : Option String) (force : Bool)
    (domain : Option String) (draws : List String) :
    ChangesUsage A s ((createDid A auth now path force domain draws).run s).2
      (.create auth now path force domain draws) := by
  rcases createDid_counted A auth now s path force domain draws with
    hsame | ⟨m, hleaves, hcount, hauth⟩
  · exact .unchanged hsame
  · refine Or.inr ⟨m, _, hleaves, ?_⟩
    cases hread : s.record m with
    | none => exact .added hread rfl (hcount hread) (Or.inl rfl)
    | some r =>
        by_cases howner : r.owner = auth.did
        · exact .lessened hread howner.symm (Nat.zero_le _)
        · have hadmin : auth.role = .admin := by
            simpa [authorized, howner] using hauth r hread
          exact .taken hread hadmin rfl

theorem registerDidAtomic_usage (auth : AuthClaims) (now : ℕ) (path didLog : String)
    (force : Bool) (domain : Option String) :
    ChangesUsage A s ((registerDidAtomic A auth now path didLog force domain).run s).2
      (.register auth now path didLog force domain) := by
  rcases Prog.run_check_planned (registerPrecheck A auth path didLog) (some path)
    (registerPlan A auth now path didLog force domain) s with
    hsame | ⟨w, a, -, hplan, hrun⟩
  · exact .unchanged hsame
  · obtain ⟨hcount, hsize⟩ := registerPlan_charged hplan
    obtain ⟨existing, ownerChanged, p, did, base, names, changes, hreg, hw⟩ :=
      registerPlan_spec hplan
    cases hw
    obtain rfl := read_singleton hreg.existing_read
    refine Or.inr ⟨path, some (registerRecord A auth path didLog p did (s.record path)
      ownerChanged names now), ?_, registered_usage hreg.ownership hcount hsize⟩
    unfold registerDidAtomic
    rw [hrun]
    exact leavesRecord_insert (commit_registerBatch ..).1

theorem applyAgentNameOp_usage (auth : AuthClaims) (now : ℕ) (m name didLog : String)
    (requestDomain : Option String) (op : AgentNameOp) :
    ChangesUsage A s ((applyAgentNameOp A auth now m name didLog requestDomain op).run s).2
      (.agentName auth now m name didLog requestDomain op) := by
  rcases Prog.run_check_planned (validateAgentNameBinding name m) (some m)
    (agentNamePlan A auth now m (bareName name) didLog requestDomain op) s with
    hsame | ⟨w, a, -, hplan, hrun⟩
  · exact .unchanged hsame
  · obtain ⟨r, hread, hsize⟩ := agentNamePlan_charged hplan
    obtain ⟨record, p, holder, effect, hrep, -, -, heffect, hw⟩ := agentNamePlan_spec hplan
    cases hw
    obtain rfl := Option.some.inj (hread.symm.trans (read_singleton hrep.record_read))
    refine Or.inr ⟨m, some { republished A.libs r p didLog now with
      agentNames := effect.1 }, ?_, .stored hread rfl hrep.allowed rfl hsize⟩
    unfold applyAgentNameOp
    rw [hrun]
    exact leavesRecord_insert (congrArg DidsKs.dids (commit_namedBatch heffect didLog
      { republished A.libs r p didLog now with agentNames := effect.1 } s.ks))

theorem step_usage (hsized : Sized s) (op : Op) :
    ChangesUsage A s ((op.prog A).run s).2 op := by
  cases op with
  | create auth now path force domain draws =>
      simp only [Op.prog]
      rw [run_ignore]
      exact createDid_usage auth now path force domain draws
  | register auth now path didLog force domain =>
      simp only [Op.prog]
      rw [run_ignore]
      exact registerDidAtomic_usage auth now path didLog force domain
  | agentName auth now m name didLog requestDomain op =>
      simp only [Op.prog]
      rw [run_ignore]
      exact applyAgentNameOp_usage auth now m name didLog requestDomain op
  | publish auth now m didLog requestDomain =>
      simp only [Op.prog]
      rcases publish_run A auth now s m didLog requestDomain with hsame | ⟨w, hplan, hrun⟩
      · exact .unchanged hsame
      · obtain ⟨r, hread, hsize⟩ := publishPlan_charged hplan
        obtain ⟨record, p, names, changes, hrep, -, hw⟩ := publishPlan_spec hplan
        cases hw
        obtain rfl := Option.some.inj (hread.symm.trans (read_singleton hrep.record_read))
        refine Or.inr ⟨m, some { republished A.libs r p didLog now with agentNames := names }, ?_,
          .stored hread rfl hrep.allowed rfl hsize⟩
        rw [hrun]
        exact leavesRecord_insert (congrArg DidsKs.dids (commit_publishBatch ..) :)
  | changeOwner auth now m newOwner =>
      simp only [Op.prog]
      rw [run_ignore]
      rcases Prog.run_check_planned (validateMnemonic m) (some m)
        (changeOwnerPlan A auth now m newOwner) s with hsame | ⟨w, a, -, hplan, hrun⟩
      · exact .unchanged hsame
      · obtain ⟨r, owner, hread, howner, rfl⟩ := changeOwnerPlan_resolved hplan
        refine Or.inr ⟨m, some { r with owner := owner, updatedAt := now }, ?_,
          .transferred hread howner rfl⟩
        unfold changeDidOwner
        rw [hrun]
        exact leavesRecord_insert rfl
  | uploadWitness auth m witnessEntry =>
      refine Or.inl fun m' => ?_
      rcases step_batch (A := A) (.uploadWitness auth m witnessEntry) s with
        hsame | ⟨w, hw, hrun⟩
      · rw [hsame]
      · rw [hrun]
        cases hw
        rfl
  | delete auth m requestDomain =>
      rcases step_batch (A := A) (.delete auth m requestDomain) s with hsame | ⟨w, hw, hrun⟩
      · exact .unchanged hsame
      · rw [hrun]
        cases hw with
        | deleted hread hauth => exact Or.inr ⟨m, _, leavesRecord_erase rfl, .removed⟩
  | setDisabled auth m disabled =>
      rcases step_batch (A := A) (.setDisabled auth m disabled) s with hsame | ⟨w, hw, hrun⟩
      · exact .unchanged hsame
      · rw [hrun]
        cases hw with
        | disabled hread hauth =>
            exact Or.inr ⟨m, _, leavesRecord_insert rfl,
              .lessened (read_singleton hread) rfl le_rfl⟩
  | rollback auth now m targetVersion =>
      rcases step_batch (A := A) (.rollback auth now m targetVersion) s with
        hsame | ⟨w, hw, hrun⟩
      · exact .unchanged hsame
      · rw [hrun]
        cases hw with
        | @rolledBack _ _ _ _ record content keep hread hauth hcontent hkeep hlt =>
            have hread := read_singleton hread
            refine Or.inr ⟨m, _, leavesRecord_insert rfl, .lessened hread rfl ?_⟩
            have hsize := (hsized m).size record hread
            rw [read_singleton hcontent] at hsize
            rw [hsize]
            exact truncateLog_size_le content keep

end

/-! ## The caps -/

/-- The cap on the number of slots in the owner's entry. -/
def ControlStore.countCap (s : ControlStore) (owner : String) : Option ℕ :=
  (s.acl.lookup owner).bind AclEntry.maxDidCount

/-- The cap on the bytes in the owner's entry. -/
def ControlStore.sizeCap (s : ControlStore) (owner : String) : Option ℕ :=
  (s.acl.lookup owner).bind AclEntry.maxTotalSize

/-- `s` and `t` as stores before and after: the owner stays within its caps, or at least holds
no more than before. -/
structure KeptWithin (owner : String) (s t : ControlStore) : Prop where
  count : ∀ cap, s.countCap owner = some cap → cap < u64Max →
    heldCount owner t ≤ max cap (heldCount owner s)
  size : ∀ cap, s.sizeCap owner = some cap → cap < u64Max →
    heldBytes owner t ≤ max cap (heldBytes owner s)

/-- The requests that the caps of `owner` bind: an administrator neither acts as the owner nor
stores a log in a slot of the owner, and no slot is transferred to the owner. -/
structure Binds (A : AppState) (owner : String) (s : ControlStore) (op : Op) : Prop where
  caller : op.auth.role = .admin → op.auth.did ≠ owner
  stores : op.auth.role = .admin → ∀ m, op.publishes = some m →
    (s.record m).map DidRecord.owner ≠ some owner
  transfers : ∀ auth now m newOwner, op = .changeOwner auth now m newOwner →
    (resolveDidOrAgentName A newOwner).eval s ≠ .ok owner

/-- The events of a run in which the caps of `owner` hold: they bind every request, and no
administrator changes them. -/
def KeepsCaps (A : AppState) (owner : String) (s : ControlStore) : Event → Prop
  | .serve op => Binds A owner s op
  | .administer acl _ => acl.lookup owner = s.acl.lookup owner

section

variable {A : AppState} {s t : ControlStore} {owner : String}

theorem OwnersIndexed.count_allowed (h : OwnersIndexed s) {auth : AuthClaims} {cap : ℕ}
    (hrole : auth.role ≠ .admin) (hcap : s.countCap auth.did = some cap) (hmax : cap < u64Max)
    (hok : (checkDidCountLimit auth).eval s = .ok ()) : heldCount auth.did s + 1 ≤ cap := by
  have hstep : (checkDidCountLimit auth).eval s =
      (do
        let usage ← ownerUsage auth.did
        Query.require (usage.1 < cap)
          (.quotaExceeded s!"DID count limit reached ({cap})") : ControlQ Unit).eval s := by
    unfold checkDidCountLimit
    rw [if_neg hrole]
    simp only [getAclEntry, bind, Query.bind, Query.read, Query.eval]
    rw [show (s.acl.lookup auth.did).bind AclEntry.maxDidCount = some cap from hcap]
    simp only
    rw [if_neg hmax.ne]
  rw [hstep, Query.eval_eq_ok_iff] at hok
  simp only [Query.yields_bind, Query.yields_require, decide_eq_true_eq] at hok
  obtain ⟨usage, husage, hless⟩ := hok
  rw [← Query.eval_eq_ok_iff, h.ownerUsage_eval auth.did] at husage
  cases husage
  exact hless

theorem OwnersIndexed.size_allowed (h : OwnersIndexed s) {auth : AuthClaims} {cap old new : ℕ}
    (hrole : auth.role ≠ .admin) (hcap : s.sizeCap auth.did = some cap) (hmax : cap < u64Max)
    (hok : (checkTotalSizeLimit auth old new).eval s = .ok ()) :
    saturatingAdd (min (heldSize auth.did s) u64Max - old) new ≤ cap := by
  have hstep : (checkTotalSizeLimit auth old new).eval s =
      (do
        let usage ← ownerUsage auth.did
        Query.require (saturatingAdd (usage.2 - old) new ≤ cap)
          (.quotaExceeded s!"total content size limit reached ({cap} bytes)") :
            ControlQ Unit).eval s := by
    unfold checkTotalSizeLimit
    rw [if_neg hrole]
    simp only [getAclEntry, bind, Query.bind, Query.read, Query.eval]
    rw [show (s.acl.lookup auth.did).bind AclEntry.maxTotalSize = some cap from hcap]
    simp only
    rw [if_neg hmax.ne]
  rw [hstep, Query.eval_eq_ok_iff] at hok
  simp only [Query.yields_bind, Query.yields_require, decide_eq_true_eq] at hok
  obtain ⟨usage, husage, hless⟩ := hok
  rw [← Query.eval_eq_ok_iff, h.ownerUsage_eval auth.did] at husage
  cases husage
  exact hless

theorem LeavesRecord.total {m : String} {record : Option DidRecord}
    (h : LeavesRecord s t m record) (owner : String) (count : String → DidRecord → ℕ) :
    Table.total (ofOwner owner count) t.ks.dids +
        ((s.record m).map (ofOwner owner count m)).getD 0 =
      Table.total (ofOwner owner count) s.ks.dids + (record.map (ofOwner owner count m)).getD 0 := by
  have hupdate := Table.total_update (ofOwner owner count) m h.1
  unfold Table.weight at hupdate
  rw [show t.ks.dids.lookup m = record from h.2] at hupdate
  exact hupdate

theorem ofOwner_eq {count : String → DidRecord → ℕ} {m : String} {r : DidRecord}
    (howner : r.owner = owner) : ofOwner owner count m r = count m r :=
  if_pos howner

theorem ofOwner_ne {count : String → DidRecord → ℕ} {m : String} {r : DidRecord}
    (howner : r.owner ≠ owner) : ofOwner owner count m r = 0 :=
  if_neg howner

/-- A record that counts no more than the one it replaces. -/
theorem LeavesRecord.total_le {m : String} {record : Option DidRecord}
    (h : LeavesRecord s t m record) {count : String → DidRecord → ℕ}
    (hle : (record.map (ofOwner owner count m)).getD 0 ≤
      ((s.record m).map (ofOwner owner count m)).getD 0) :
    Table.total (ofOwner owner count) t.ks.dids ≤ Table.total (ofOwner owner count) s.ks.dids := by
  have htotal := h.total owner count
  omega

/-- A change by a request that the caps bind adds nothing to what the owner holds, unless it
adds or rewrites a slot of the owner, who is then no Admin and has passed a quota. -/
theorem UsageChange.total_le_or {op : Op} {m : String} {record : Option DidRecord}
    (hchange : UsageChange A s op m record) (hleaves : LeavesRecord s t m record)
    (hbinds : Binds A owner s op) (count : String → DidRecord → ℕ)
    (hcount : ∀ r r' : DidRecord, r'.contentSize ≤ r.contentSize → count m r' ≤ count m r) :
    Table.total (ofOwner owner count) t.ks.dids ≤ Table.total (ofOwner owner count) s.ks.dids ∨
      op.auth.did = owner ∧ op.auth.role ≠ .admin ∧
        ((∃ r, record = some r ∧ s.record m = none ∧ r.owner = owner ∧
            (checkDidCountLimit op.auth).eval s = .ok () ∧ (r.contentSize = 0 ∨
              (checkTotalSizeLimit op.auth 0 r.contentSize).eval s = .ok ())) ∨
          ∃ r r', record = some r' ∧ s.record m = some r ∧ r.owner = owner ∧ r'.owner = owner ∧
            (checkTotalSizeLimit op.auth r.contentSize r'.contentSize).eval s = .ok ()) := by
  have hother : ∀ {r' : DidRecord}, record = some r' → r'.owner ≠ owner →
      Table.total (ofOwner owner count) t.ks.dids ≤
        Table.total (ofOwner owner count) s.ks.dids := by
    rintro r' rfl hne
    apply hleaves.total_le
    rw [Option.map_some, ofOwner_ne hne]
    exact Nat.zero_le _
  cases hchange with
  | @added _ _ r hread howner hallowed hsize =>
      by_cases hown : r.owner = owner
      · have hdid : op.auth.did = owner := howner.symm.trans hown
        exact Or.inr ⟨hdid, fun hadmin => hbinds.caller hadmin hdid,
          Or.inl ⟨r, rfl, hread, hown, hallowed, hsize⟩⟩
      · exact Or.inl (hother rfl hown)
  | @stored _ _ r r' hread howner hauth hstores hsize =>
      by_cases hown : r.owner = owner
      · have hrole : op.auth.role ≠ .admin := by
          intro hadmin
          apply hbinds.stores hadmin m hstores
          rw [hread, ← hown]
          rfl
        have hcaller : r.owner = op.auth.did := by
          simpa [authorized, hrole] using hauth
        exact Or.inr ⟨hcaller.symm.trans hown, hrole,
          Or.inr ⟨r, r', rfl, hread, hown, howner.trans hown, hsize⟩⟩
      · exact Or.inl (hother rfl (howner.trans_ne hown))
  | @taken _ _ r r' hread hadmin howner =>
      exact Or.inl (hother rfl (howner.trans_ne (hbinds.caller hadmin)))
  | @lessened _ _ r r' hread howner hsize =>
      apply Or.inl (hleaves.total_le _)
      rw [hread, Option.map_some, Option.map_some]
      unfold ofOwner
      rw [howner]
      split
      · exact hcount r r' hsize
      · exact le_rfl
  | @transferred auth now _ newOwner r r' hread hresolved hsize =>
      refine Or.inl (hother rfl ?_)
      rintro rfl
      exact hbinds.transfers _ _ _ _ rfl hresolved
  | removed => exact Or.inl (hleaves.total_le (Nat.zero_le _))

/-- A request that the caps bind keeps the number of slots within its cap. -/
theorem UsageChange.count_kept {op : Op} {m : String} {record : Option DidRecord}
    (hchange : UsageChange A s op m record) (hleaves : LeavesRecord s t m record)
    (hindexed : OwnersIndexed s) (hbinds : Binds A owner s op) {cap : ℕ}
    (hcap : s.countCap owner = some cap) (hmax : cap < u64Max) :
    heldCount owner t ≤ max cap (heldCount owner s) := by
  have htotal : heldCount owner t + _ = heldCount owner s + _ := hleaves.total owner fun _ _ => 1
  rcases hchange.total_le_or hleaves hbinds (fun _ _ => 1) fun _ _ _ => le_rfl with
    hless | ⟨rfl, hrole, ⟨r, rfl, hread, hown, hallowed, -⟩ | ⟨r, r', rfl, hread, hown, hown', -⟩⟩
  · exact hless.trans (le_max_right _ _)
  · rw [hread, Option.map_none, Option.map_some, ofOwner_eq hown] at htotal
    refine le_trans ?_ (le_max_left _ _)
    exact htotal.trans_le (hindexed.count_allowed hrole hcap hmax hallowed)
  · rw [hread, Option.map_some, Option.map_some, ofOwner_eq hown, ofOwner_eq hown'] at htotal
    exact (Nat.add_right_cancel htotal).le.trans (le_max_right _ _)

/-- A request that the caps bind keeps the stated sizes within their cap. -/
theorem UsageChange.size_kept {op : Op} {m : String} {record : Option DidRecord}
    (hchange : UsageChange A s op m record) (hleaves : LeavesRecord s t m record)
    (hindexed : OwnersIndexed s) (hbinds : Binds A owner s op) {cap : ℕ}
    (hcap : s.sizeCap owner = some cap) (hmax : cap < u64Max) :
    heldSize owner t ≤ max cap (heldSize owner s) := by
  have htotal : heldSize owner t + _ = heldSize owner s + _ :=
    hleaves.total owner fun _ r => r.contentSize
  -- what the quota allows the caller is what the total becomes
  have hgrows : ∀ {old new : ℕ}, op.auth.did = owner → op.auth.role ≠ .admin →
      old ≤ heldSize owner s → heldSize owner t + old = heldSize owner s + new →
      (checkTotalSizeLimit op.auth old new).eval s = .ok () →
      heldSize owner t ≤ max cap (heldSize owner s) := by
    rintro old new rfl hrole hold hsum hok
    have hallowed := hindexed.size_allowed hrole hcap hmax hok
    unfold saturatingAdd at hallowed
    omega
  rcases hchange.total_le_or hleaves hbinds (fun _ r => r.contentSize) fun _ _ hle => hle with
    hless | ⟨hdid, hrole, ⟨r, rfl, hread, hown, -, hsize⟩ | ⟨r, r', rfl, hread, hown, hown', hsize⟩⟩
  · exact hless.trans (le_max_right _ _)
  · rw [hread, Option.map_none, Option.map_some, ofOwner_eq hown] at htotal
    rcases hsize with hempty | hsize
    · rw [hempty] at htotal
      exact htotal.le.trans (le_max_right _ _)
    · exact hgrows hdid hrole (Nat.zero_le _) htotal hsize
  · rw [hread, Option.map_some, Option.map_some, ofOwner_eq hown, ofOwner_eq hown'] at htotal
    have hold : r.contentSize ≤ heldSize owner s := by
      have hweight := Table.weight_le_total (ofOwner owner fun _ r => r.contentSize)
        s.ks.dids m
      rwa [weight_of_some hread, if_pos hown] at hweight
    exact hgrows hdid hrole hold htotal hsize

/-- An event of such a run keeps the caps and what is held within them. -/
theorem keptWithin_step (hindexed : OwnersIndexed s) (hsized : Sized s) {e : Event}
    (hkeeps : KeepsCaps A owner s e) :
    (e.step A s).acl.lookup owner = s.acl.lookup owner ∧ KeptWithin owner s (e.step A s) := by
  cases e with
  | administer acl domains =>
      exact ⟨hkeeps, fun _ _ _ => le_max_right _ _, fun _ _ _ => le_max_right _ _⟩
  | serve op =>
      have hacl : ((op.prog A).run s).2.acl = s.acl := by
        rcases step_batch (A := A) op s with hsame | ⟨w, -, hrun⟩
        · rw [hsame]
        · rw [hrun]
          rfl
      refine ⟨congrArg (·.lookup owner) hacl, ?_⟩
      have hbytes := hsized.heldBytes owner
      have hbytes' : heldBytes owner ((op.prog A).run s).2 = _ :=
        (sized_step (.serve op) hsized : Sized ((op.prog A).run s).2).heldBytes owner
      rcases step_usage hsized op with hsame | ⟨m, record, hleaves, hchange⟩
      · have htotal : ∀ count : String → DidRecord → ℕ,
            Table.total (ofOwner owner count) ((op.prog A).run s).2.ks.dids =
              Table.total (ofOwner owner count) s.ks.dids :=
          fun count => Table.total_congr _ hsame
        constructor
        · intro cap _ _
          exact (htotal _).le.trans (le_max_right _ _)
        · intro cap _ _
          change heldBytes owner ((op.prog A).run s).2 ≤ _
          rw [hbytes, hbytes']
          exact (htotal _).le.trans (le_max_right _ _)
      · constructor
        · intro cap hcap hmax
          exact hchange.count_kept hleaves hindexed hkeeps hcap hmax
        · intro cap hcap hmax
          change heldBytes owner ((op.prog A).run s).2 ≤ _
          rw [hbytes, hbytes']
          exact hchange.size_kept hleaves hindexed hkeeps hcap hmax

theorem KeptWithin.trans {u : ControlStore} (h : KeptWithin owner s t)
    (hacl : t.acl.lookup owner = s.acl.lookup owner) (h' : KeptWithin owner t u) :
    KeptWithin owner s u where
  count := by
    intro cap hcap hmax
    have hsame : t.countCap owner = s.countCap owner :=
      congrArg (·.bind AclEntry.maxDidCount) hacl
    have hlater := h'.count cap (hsame.trans hcap) hmax
    have hearlier := h.count cap hcap hmax
    omega
  size := by
    intro cap hcap hmax
    have hsame : t.sizeCap owner = s.sizeCap owner :=
      congrArg (·.bind AclEntry.maxTotalSize) hacl
    have hlater := h'.size cap (hsame.trans hcap) hmax
    have hearlier := h.size cap hcap hmax
    omega

end

/-- After any history, a run of requests that the caps of an owner bind keeps the owner within
them: neither the number of its slots nor the bytes stored for it come to exceed the cap, and
where they already do they do not grow. -/
theorem quotas_run (A : AppState) (acl : Table String AclEntry)
    (domains : Table String DomainEntry) (before events : List Event) (owner : String)
    (hkeeps : Run.Meets (Event.step A) (KeepsCaps A owner)
      (Run.exec (Event.step A) (ControlStore.initial acl domains) before) events) :
    let s := Run.exec (Event.step A) (ControlStore.initial acl domains) before
    KeptWithin owner s (Run.exec (Event.step A) s events) := by
  intro s
  have hstep : ∀ t e, KeepsCaps A owner t e →
      ((OwnersIndexed t ∧ Sized t) ∧ t.acl.lookup owner = s.acl.lookup owner ∧
        KeptWithin owner s t) →
      (OwnersIndexed (e.step A t) ∧ Sized (e.step A t)) ∧
        (e.step A t).acl.lookup owner = s.acl.lookup owner ∧ KeptWithin owner s (e.step A t) := by
    rintro t e he ⟨⟨hindexed, hsized⟩, hacl, hkept⟩
    obtain ⟨hacl', hkept'⟩ := keptWithin_step hindexed hsized he
    exact ⟨⟨ownersIndexed_step e hindexed, sized_step e hsized⟩, hacl'.trans hacl,
      hkept.trans hacl hkept'⟩
  have hstart : (OwnersIndexed s ∧ Sized s) ∧ s.acl.lookup owner = s.acl.lookup owner ∧
      KeptWithin owner s s :=
    ⟨⟨ownersIndexed_run A acl domains before, sized_run A acl domains before⟩, rfl,
      fun _ _ _ => le_max_right _ _, fun _ _ _ => le_max_right _ _⟩
  exact (Run.exec_invariant hstep hstart hkeeps).2.2

section Samples

open Reference

/-- An owner with a cap of one slot asks for two. -/
theorem quotas_run_two_creates :
    let owner : AuthClaims := ⟨"did:example:owner", .owner⟩
    let entry : AclEntry := ⟨"did:example:owner", .owner, some 1000, some 1, .all⟩
    let events : List Event :=
      [.serve (.create owner 1 (some "al") false none []),
        .serve (.create owner 2 (some "bo") false none [])]
    let s := Run.exec (Event.step control)
      (ControlStore.initial (AList.singleton "did:example:owner" entry) ∅) []
    KeptWithin "did:example:owner" s (Run.exec (Event.step control) s events) := by
  intro owner entry events
  have hbinds : ∀ s op, op.auth = owner → (∀ auth now m newOwner,
      op ≠ .changeOwner auth now m newOwner) → Binds control "did:example:owner" s op := by
    intro s op hauth hop
    refine ⟨fun hadmin => ?_, fun hadmin => ?_, fun auth now m newOwner heq => ?_⟩
    · rw [hauth] at hadmin
      contradiction
    · rw [hauth] at hadmin
      contradiction
    · exact absurd heq (hop auth now m newOwner)
  exact quotas_run control (AList.singleton "did:example:owner" entry) ∅ [] events
    "did:example:owner"
    ⟨hbinds _ _ rfl (fun _ _ _ _ h => by cases h),
      hbinds _ _ rfl (fun _ _ _ _ h => by cases h), trivial⟩

end Samples

end DidHosting
