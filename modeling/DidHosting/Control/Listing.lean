import Mathlib.Data.List.Sort
import Mathlib.Data.PNat.Basic
import Mathlib.Data.String.Basic
import DidHosting.Control.OwnerIndex
import DidHosting.Control.Reference
import DidHosting.Control.Resync
import DidHosting.Stats.Collector
import DidHosting.Support.Interleaving
import DidHosting.Support.Paging
import DidHosting.Support.Scan

/-!
# The listing of slots

A caller lists the slots it may see, page by page.  An owner's slots are found through
the owner index, whose keys are strings: the rows of a longer owner are in the scan too,
and a row counts only if the record names the owner.  The pages, followed to the end, are
the whole listing; that the index leads to every slot of an owner is an invariant of the
requests.
-/

namespace DidHosting

open Text

/-! ## The code -/

/-- What the listing reads: the slots, the `stats:` rows by mnemonic and the `instance:`
rows by id. -/
structure ListingStore where
  slots : ControlStore
  stats : Table String DidStats
  registry : Table String Registry.ServiceInstance

/-- The lifetime resolve count of a slot. -/
def ListingStore.totalResolves (t : ListingStore) (mnemonic : String) : ℕ :=
  ((t.stats.lookup mnemonic).getD DidStats.zero).totalResolves

section Code

variable (L : Libs) (s : ControlStore) (auth : AuthClaims) (replica : Bool)
  (requestedOwner domain : Option String)

/-- The records the owner index leads to, whose owner is `targetOwner`. -/
def ownedRecords (targetOwner : String) : List DidRecord :=
  (ownerRows targetOwner s).filterMap fun mnemonic =>
    (s.record mnemonic).filter fun record => record.owner = targetOwner

/-- The records `list_dids_page` collects. -/
def collectedRecords : List DidRecord :=
  if (decide (auth.role = .admin) || replica) && requestedOwner.isNone then s.records
  else
    ownedRecords s
      (if auth.role = .admin then requestedOwner.getD auth.did else auth.did)

/-- The filter on the domain. -/
def hostedUnder (record : DidRecord) : Bool :=
  match domain with
  | some domain => eqIgnoreAsciiCase (slotDomain L record) domain
  | none => true

/-- The whole listing, which the pages are cut from. -/
def sortedRecords : List DidRecord :=
  ((collectedRecords s auth replica requestedOwner).filter (hostedUnder L domain)).insertionSort
    fun a b => a.mnemonic ≤ b.mnemonic

end Code

def maxListLimit : ℕ := 1000

/-- `list_dids_page`: a page of slots with their resolve counts, and the size of the whole
listing. -/
def listDidsPage (L : Libs) (t : ListingStore) (auth : AuthClaims) (replica : Bool)
    (requestedOwner domain : Option String) (limit offset : Option ℕ) :
    List (DidRecord × ℕ) × ℕ :=
  let records := sortedRecords L t.slots auth replica requestedOwner domain
  let limit := min (limit.getD maxListLimit) maxListLimit
  let page := (records.drop (offset.getD 0)).take limit
  (page.map fun record => (record, t.totalResolves record.mnemonic), records.length)

/-! ### The request -/

/-- The payload of `did/list/0.1`. -/
structure ListPayload where
  owner : Option String
  domain : Option String
  limit : Option ℕ+
  offset : Option ℕ

/-- A record of the answer: what the listing says of a slot. -/
structure ListedRecord where
  mnemonic : String
  owner : String
  createdAt : ℕ
  updatedAt : ℕ
  versionCount : ℕ
  method : Method
  disabled : Bool
  didUrl : String
  domain : Option String
  didId : Option String
  agentNames : List AgentNameEntry
  totalResolves : Option ℕ
deriving DecidableEq, Repr

/-- `TaskError`, as far as a listing ends in it. -/
inductive ListError where
  | declared (code msg : String)
  | app (e : AppError)
deriving DecidableEq, Repr

def didUrl (A : AppState) (mnemonic : String) : String :=
  let baseUrl := trimEndMatches '/' (A.config.hostingUrl.getD "http://localhost")
  s!"{baseUrl}/{mnemonic}/did.jsonl"

def specDidRecord (record : DidRecord) (didUrl : String) : ListedRecord where
  mnemonic := record.mnemonic
  owner := record.owner
  createdAt := record.createdAt
  updatedAt := record.updatedAt
  versionCount := record.versionCount
  method := record.method
  disabled := record.disabled
  didUrl := didUrl
  domain := if record.domain = "" then none else some record.domain
  didId := if 0 < record.versionCount then record.didId else none
  agentNames := record.agentNames
  totalResolves := none

/-- A replica is not told who owns a slot and how often it is resolved. -/
def listedRecord (A : AppState) (replica : Bool) (row : DidRecord × ℕ) : ListedRecord :=
  let value := specDidRecord row.1 (didUrl A row.1.mnemonic)
  if replica then { value with owner := "" } else { value with totalResolves := some row.2 }

def isHostingServer (registry : Table String Registry.ServiceInstance) (did : String) : Bool :=
  match registry.lookup (Registry.instanceId did) with
  | some instance_ => decide (instance_.serviceType = .server) && instance_.did == some did
  | none => false

/-- The caller is a hosting server this control plane drives. -/
def isReplica (t : ListingStore) (auth : AuthClaims) : Bool :=
  decide (auth.role = .service) && isHostingServer t.registry auth.did

def unknownDomain (domain : String) : ListError :=
  .declared "did-management:unknownDomain" s!"`{domain}` is not a hosting domain on this service"

/-- The domain filter of a request, in canonical form. -/
def listedDomain (L : Libs) (s : ControlStore) : Option String → Except ListError (Option String)
  | none => .ok none
  | some domain =>
      match normalizeDomainName L domain with
      | .error _ => .error (unknownDomain domain)
      | .ok canonical =>
          match getDomain L s.domains canonical with
          | .error e => .error (.app e)
          | .ok none => .error (unknownDomain domain)
          | .ok (some _) => .ok (some canonical)

/-- `record_reconcile`, on the row of the caller. -/
def ListingStore.recordReconcile (t : ListingStore) (did : String) (now : ℕ) : ListingStore :=
  match Registry.recordReconcile now (t.registry.lookup (Registry.instanceId did)) with
  | some row => { t with registry := t.registry.insert (Registry.instanceId did) row }
  | none => t

/-- The schemas of the answer: why a record, or the whole answer, does not fit. -/
structure ListSchema where
  record : ListedRecord → Option String
  response : List ListedRecord × ℕ → Option String

def listAnswer (A : AppState) (schema : ListSchema) (replica : Bool)
    (page : List (DidRecord × ℕ) × ℕ) : Except ListError (List ListedRecord × ℕ) :=
  let projections := page.1.map fun row => specDidRecord row.1 (didUrl A row.1.mnemonic)
  match projections.findSome? schema.record with
  | some e => .error (.app (.internal s!"DID record projection does not fit its schema: {e}"))
  | none =>
      let answer := (page.1.map (listedRecord A replica), page.2)
      match schema.response answer with
      | some e => .error (.app (.internal s!"list response does not fit its schema: {e}"))
      | none => .ok answer

/-- `did::list`, the handler of `did/list/0.1`. -/
def didList (A : AppState) (schema : ListSchema) (t : ListingStore) (auth : AuthClaims) (now : ℕ)
    (p : ListPayload) : Except ListError (List ListedRecord × ℕ) × ListingStore :=
  if decide (auth.role ≠ .admin) && p.owner.any (· ≠ auth.did) then
    (.error (.declared "did-management/did/list:forbidden"
      "only an administrator may list another owner's slots"), t)
  else
    match listedDomain A.libs t.slots p.domain with
    | .error e => (.error e, t)
    | .ok domain =>
        let replica := isReplica t auth
        let t := if replica && p.owner.isNone && p.offset.getD 0 == 0 then
            t.recordReconcile auth.did now
          else t
        let page := listDidsPage A.libs t auth replica p.owner domain
          (p.limit.map PNat.val) p.offset
        (listAnswer A schema replica page, t)

/-! ## What a caller may see -/

/-- The slots a caller may see: all for an administrator and for a replica, those of an
owner the administrator names, and otherwise the caller's own. -/
def MaySee (auth : AuthClaims) (replica : Bool) (requestedOwner : Option String)
    (record : DidRecord) : Prop :=
  match requestedOwner with
  | none => auth.role = .admin ∨ replica = true ∨ record.owner = auth.did
  | some owner =>
      if auth.role = .admin then record.owner = owner else record.owner = auth.did

section Spec

variable (L : Libs) (s : ControlStore) (auth : AuthClaims) (replica : Bool)
  (requestedOwner domain : Option String)

/-- The record is one of the store that the caller may see and the filter lets through. -/
structure Visible (record : DidRecord) : Prop where
  stored : ∃ m, s.record m = some record
  allowed : MaySee auth replica requestedOwner record
  hosted : hostedUnder L domain record = true

/-- The listing holds each visible slot once, in the order of the mnemonics, with its
resolve count. -/
structure Lists (t : ListingStore) (rows : List (DidRecord × ℕ)) : Prop where
  ordered : rows.Pairwise fun a b => a.1.mnemonic < b.1.mnemonic
  visible : ∀ row ∈ rows, Visible L t.slots auth replica requestedOwner domain row.1
  slot : ∀ row ∈ rows, t.slots.record row.1.mnemonic = some row.1
  counted : ∀ row ∈ rows, row.2 = t.totalResolves row.1.mnemonic
  complete : ∀ record, Visible L t.slots auth replica requestedOwner domain record →
    ∃ row ∈ rows, row.1 = record

end Spec

/-! ## The listing of any store -/

section AnyStore

variable {L : Libs} {s : ControlStore} {auth : AuthClaims} {replica : Bool}
  {requestedOwner domain : Option String} {record : DidRecord}

theorem mem_records : record ∈ s.records ↔ ∃ m, s.record m = some record := by
  unfold ControlStore.records
  constructor
  · intro h
    obtain ⟨⟨m, r⟩, hrow, rfl⟩ := List.mem_map.mp h
    exact ⟨m, Table.mem_rows.mp hrow⟩
  · rintro ⟨m, h⟩
    exact List.mem_map.mpr ⟨(m, record), Table.mem_rows.mpr h, rfl⟩

theorem mem_ownedRecords {owner : String} :
    record ∈ ownedRecords s owner ↔
      (∃ m ∈ ownerRows owner s, s.record m = some record) ∧ record.owner = owner := by
  unfold ownedRecords
  rw [List.mem_filterMap]
  simp only [Option.filter_eq_some_iff, decide_eq_true_eq]
  constructor
  · rintro ⟨m, hm, hrecord, howner⟩
    exact ⟨⟨m, hm, hrecord⟩, howner⟩
  · rintro ⟨⟨m, hm, hrecord⟩, howner⟩
    exact ⟨m, hm, hrecord, howner⟩

/-- A collected record is a stored one that the caller may see, whatever is stored. -/
theorem collectedRecords_sound (h : record ∈ collectedRecords s auth replica requestedOwner) :
    (∃ m, s.record m = some record) ∧ MaySee auth replica requestedOwner record := by
  unfold collectedRecords at h
  split at h
  · rename_i hall
    rw [Bool.and_eq_true, Bool.or_eq_true, decide_eq_true_eq, Option.isNone_iff_eq_none] at hall
    obtain ⟨hwho, rfl⟩ := hall
    refine ⟨mem_records.mp h, ?_⟩
    rcases hwho with hadmin | hreplica
    · exact Or.inl hadmin
    · exact Or.inr (Or.inl hreplica)
  · obtain ⟨⟨m, -, hrecord⟩, howner⟩ := mem_ownedRecords.mp h
    refine ⟨⟨m, hrecord⟩, ?_⟩
    rename_i hown
    cases requestedOwner with
    | none =>
        have hnot : auth.role ≠ .admin := by
          intro hadmin
          simp [hadmin] at hown
        rw [if_neg hnot] at howner
        exact Or.inr (Or.inr howner)
    | some owner =>
        unfold MaySee
        split at howner <;> simp_all

theorem mem_sortedRecords :
    record ∈ sortedRecords L s auth replica requestedOwner domain ↔
      record ∈ collectedRecords s auth replica requestedOwner ∧
        hostedUnder L domain record = true := by
  unfold sortedRecords
  rw [List.mem_insertionSort, List.mem_filter]

theorem sortedRecords_ordered :
    (sortedRecords L s auth replica requestedOwner domain).Pairwise
      fun a b => a.mnemonic ≤ b.mnemonic := by
  exact pairwise_sort_key DidRecord.mnemonic _

theorem visible_of_mem (h : record ∈ sortedRecords L s auth replica requestedOwner domain) :
    Visible L s auth replica requestedOwner domain record := by
  obtain ⟨hcollected, hhosted⟩ := mem_sortedRecords.mp h
  obtain ⟨hstored, hallowed⟩ := collectedRecords_sound hcollected
  exact ⟨hstored, hallowed, hhosted⟩

/-! ### Its pages -/

variable {t : ListingStore}

/-- The whole listing with the resolve counts. -/
def countedRecords (L : Libs) (t : ListingStore) (auth : AuthClaims) (replica : Bool)
    (requestedOwner domain : Option String) : List (DidRecord × ℕ) :=
  (sortedRecords L t.slots auth replica requestedOwner domain).map fun record =>
    (record, t.totalResolves record.mnemonic)

/-- The largest page of a request. -/
def pageSize (limit : Option ℕ+) : ℕ :=
  min ((limit.map PNat.val).getD maxListLimit) maxListLimit

theorem pageSize_pos (limit : Option ℕ+) : 0 < pageSize limit := by
  unfold pageSize maxListLimit
  cases limit with
  | none => simp
  | some n => simp [n.pos]

theorem listDidsPage_eq (limit : Option ℕ+) (offset : ℕ) :
    listDidsPage L t auth replica requestedOwner domain (limit.map PNat.val) (some offset) =
      Paging.window (pageSize limit)
        (countedRecords L t auth replica requestedOwner domain) offset := by
  unfold countedRecords
  rw [Paging.window_map]
  rfl

/-- A client that reads the pages of a listing. -/
def followPages (L : Libs) (t : ListingStore) (auth : AuthClaims) (replica : Bool)
    (requestedOwner domain : Option String) (limit : Option ℕ+) (requests : ℕ) :
    Option (List (DidRecord × ℕ)) :=
  Paging.follow
    (fun offset =>
      listDidsPage L t auth replica requestedOwner domain (limit.map PNat.val) (some offset))
    requests []

/-- Enough requests read the whole listing. -/
theorem followPages_eq (limit : Option ℕ+) (more : ℕ) :
    followPages L t auth replica requestedOwner domain limit
        ((countedRecords L t auth replica requestedOwner domain).length + 1 + more) =
      some (countedRecords L t auth replica requestedOwner domain) := by
  unfold followPages
  rw [funext fun offset => listDidsPage_eq limit offset]
  exact Paging.follow_window (pageSize_pos limit) _ []
    (countedRecords L t auth replica requestedOwner domain) (by omega)

theorem mem_countedRecords {row : DidRecord × ℕ} :
    row ∈ countedRecords L t auth replica requestedOwner domain ↔
      row.1 ∈ sortedRecords L t.slots auth replica requestedOwner domain ∧
        row.2 = t.totalResolves row.1.mnemonic := by
  unfold countedRecords
  rw [List.mem_map]
  constructor
  · rintro ⟨record, hmem, rfl⟩
    exact ⟨hmem, rfl⟩
  · rintro ⟨hmem, hcount⟩
    exact ⟨row.1, hmem, Prod.ext rfl hcount.symm⟩

end AnyStore

/-! ## The listing of an indexed store -/

section Indexed

variable {L : Libs} {s : ControlStore} {auth : AuthClaims} {replica : Bool}
  {requestedOwner domain : Option String} {record : DidRecord}

theorem mem_ownerRows {owner m : String} :
    m ∈ ownerRows owner s ↔ ∃ o m', s.ks.ownerIndex.lookup (o, m') = some m ∧
      startsWith ("owner:" ++ owner ++ ":") (RowKey.owner o m').render = true := by
  unfold ownerRows
  rw [List.mem_map]
  constructor
  · rintro ⟨⟨⟨o, m'⟩, v⟩, hrow, rfl⟩
    obtain ⟨hmem, hscan⟩ := List.mem_filter.mp hrow
    exact ⟨o, m', Table.mem_rows.mp hmem, hscan⟩
  · rintro ⟨o, m', hlookup, hscan⟩
    exact ⟨((o, m'), m), List.mem_filter.mpr ⟨Table.mem_rows.mpr hlookup, hscan⟩, rfl⟩

theorem OwnersIndexed.mem_ownerRows (h : OwnersIndexed s) {m : String}
    (hread : s.record m = some record) : m ∈ ownerRows record.owner s := by
  refine DidHosting.mem_ownerRows.mpr ⟨record.owner, m, h.owned hread, ?_⟩
  rw [startsWith_iff]
  simp only [RowKey.render, String.toList_append]
  exact List.prefix_append _ _

theorem OwnersIndexed.collected (h : OwnersIndexed s) {m : String}
    (hread : s.record m = some record) (hsee : MaySee auth replica requestedOwner record) :
    record ∈ collectedRecords s auth replica requestedOwner := by
  have hown : ∀ owner, record.owner = owner → record ∈ ownedRecords s owner := by
    rintro owner rfl
    exact mem_ownedRecords.mpr ⟨⟨m, h.mem_ownerRows hread, hread⟩, rfl⟩
  unfold collectedRecords
  cases requestedOwner with
  | none =>
      by_cases hall : auth.role = .admin ∨ replica = true
      · rw [if_pos (by simpa using hall)]
        exact mem_records.mpr ⟨m, hread⟩
      · have hnot : ¬ auth.role = .admin := fun hadmin => hall (Or.inl hadmin)
        rw [if_neg (by simpa using hall), if_neg hnot]
        rcases hsee with hadmin | hreplica | howner
        · exact absurd hadmin hnot
        · exact absurd (Or.inr hreplica) hall
        · exact hown _ howner
  | some owner =>
      rw [if_neg (by simp)]
      simp only [MaySee] at hsee
      split at hsee
      · rename_i hadmin
        rw [if_pos hadmin]
        exact hown _ hsee
      · rename_i hnot
        rw [if_neg hnot]
        exact hown _ hsee

theorem OwnersIndexed.nodup_records (h : OwnersIndexed s) :
    (s.records.map DidRecord.mnemonic).Nodup := by
  unfold ControlStore.records
  rw [List.map_map]
  refine List.pairwise_map.mpr ?_
  refine List.Pairwise.imp_of_mem ?_ (List.pairwise_map.mp (Table.keys_rows_nodup s.ks.dids))
  rintro ⟨m, r⟩ ⟨m', r'⟩ hrow hrow' hne
  change r.mnemonic ≠ r'.mnemonic
  rw [(h m).keyed r (Table.mem_rows.mp hrow), (h m').keyed r' (Table.mem_rows.mp hrow')]
  exact hne

/-- Two rows of the index lead to different records of an owner: a row that leads to one is
the row of that slot and owner. -/
theorem OwnersIndexed.nodup_ownedRecords (h : OwnersIndexed s) (owner : String) :
    ((ownedRecords s owner).map DidRecord.mnemonic).Nodup := by
  have hfound : ∀ row ∈ Table.rows s.ks.ownerIndex, ∀ r,
      (s.record row.2).filter (fun record => record.owner = owner) = some r →
        row.1 = (owner, r.mnemonic) := by
    rintro ⟨⟨o, m⟩, v⟩ hrow r hr
    rw [Option.filter_eq_some_iff, decide_eq_true_eq] at hr
    obtain ⟨hread, howner⟩ := hr
    obtain ⟨rfl, hrecord⟩ := h.of_row (Table.mem_rows.mp hrow)
    have ho : o = owner := by
      rw [hread] at hrecord
      exact (Option.some.inj hrecord).symm.trans howner
    rw [ho, (h v).keyed r hread]
  unfold ownedRecords ownerRows
  rw [List.filterMap_map]
  refine List.pairwise_map.mpr (List.pairwise_filterMap.mpr ?_)
  refine List.Pairwise.filter _ ?_
  refine List.Pairwise.imp_of_mem ?_ (List.pairwise_map.mp (Table.keys_rows_nodup s.ks.ownerIndex))
  intro row row' hrow hrow' hne r hr r' hr' hsame
  exact hne (by rw [hfound row hrow r hr, hfound row' hrow' r' hr', hsame])

theorem OwnersIndexed.nodup_collected (h : OwnersIndexed s) :
    ((collectedRecords s auth replica requestedOwner).map DidRecord.mnemonic).Nodup := by
  unfold collectedRecords
  split
  · exact h.nodup_records
  · exact h.nodup_ownedRecords _

/-- The listing of an indexed store holds each visible slot once, in order. -/
theorem OwnersIndexed.lists {t : ListingStore} (h : OwnersIndexed t.slots) :
    Lists L auth replica requestedOwner domain t
      (countedRecords L t auth replica requestedOwner domain) where
  ordered := by
    unfold countedRecords
    rw [List.pairwise_map]
    refine pairwise_sort_key_lt DidRecord.mnemonic _ ?_
    exact (List.filter_sublist.map DidRecord.mnemonic).nodup h.nodup_collected
  visible := fun row hrow => visible_of_mem (mem_countedRecords.mp hrow).1
  slot := by
    intro row hrow
    obtain ⟨m, hread⟩ := (visible_of_mem (mem_countedRecords.mp hrow).1).stored
    rw [(h m).keyed row.1 hread]
    exact hread
  counted := fun row hrow => (mem_countedRecords.mp hrow).2
  complete := by
    rintro record ⟨⟨m, hread⟩, hsee, hhosted⟩
    have hmem := mem_sortedRecords.mpr ⟨h.collected hread hsee, hhosted⟩
    exact ⟨(record, t.totalResolves record.mnemonic), mem_countedRecords.mpr ⟨hmem, rfl⟩, rfl⟩

end Indexed

/-! ## The answers of the handler -/

/-- A listing that is answered is a page of what its caller may see: a caller who names an
owner is an administrator or that owner, and the owner and the resolve count of a slot are
withheld from a replica. -/
theorem list_answered {A : AppState} {schema : ListSchema} {t : ListingStore}
    {auth : AuthClaims} {now : ℕ} {p : ListPayload} {answer : List ListedRecord × ℕ}
    (h : (didList A schema t auth now p).1 = .ok answer) :
    (auth.role = .admin ∨ ∀ owner, p.owner = some owner → owner = auth.did) ∧
      ∃ domain, listedDomain A.libs t.slots p.domain = .ok domain ∧
        answer =
          let page := listDidsPage A.libs t auth (isReplica t auth) p.owner domain
            (p.limit.map PNat.val) p.offset
          (page.1.map (listedRecord A (isReplica t auth)), page.2) := by
  have hmark : ∀ did : String, (t.recordReconcile did now).slots = t.slots ∧
      (t.recordReconcile did now).stats = t.stats := by
    intro did
    unfold ListingStore.recordReconcile
    split <;> exact ⟨rfl, rfl⟩
  have hpage : ∀ (t' : ListingStore) domain, t'.slots = t.slots → t'.stats = t.stats →
      listDidsPage A.libs t' auth (isReplica t auth) p.owner domain (p.limit.map PNat.val)
          p.offset =
        listDidsPage A.libs t auth (isReplica t auth) p.owner domain (p.limit.map PNat.val)
          p.offset := by
    intro t' domain hslots hstats
    unfold listDidsPage ListingStore.totalResolves
    rw [hslots, hstats]
  unfold didList at h
  split at h
  · contradiction
  · rename_i hallowed
    have hwho : auth.role = .admin ∨ ∀ owner, p.owner = some owner → owner = auth.did := by
      by_cases hadmin : auth.role = .admin
      · exact Or.inl hadmin
      · right
        intro owner howner
        simpa [hadmin, howner] using hallowed
    refine ⟨hwho, ?_⟩
    split at h
    · contradiction
    · rename_i domain hdomain
      refine ⟨domain, hdomain, ?_⟩
      unfold listAnswer at h
      simp only at h
      split at h
      · contradiction
      · split at h
        · contradiction
        · cases h
          split
          · rw [hpage _ domain (hmark _).1 (hmark _).2]
          · rfl

/-! ## The pages -/

/-- In every store the pages of a listing, followed to the end, give a list in the order of
the mnemonics, of stored slots that the caller may see and the filter lets through.  In
every store that requests, served one after the other, leave behind, it holds each such
slot exactly once.  The handler answers with such a page; only a registered hosting server
counts as a replica. -/
theorem list_pages_tile :
    (∀ (L : Libs) (t : ListingStore) (auth : AuthClaims) (replica : Bool)
        (requestedOwner domain : Option String) (limit : Option ℕ+),
      ∃ requests rows,
        (∀ more, followPages L t auth replica requestedOwner domain limit (requests + more) =
          some rows) ∧
        rows.Pairwise (fun a b => a.1.mnemonic ≤ b.1.mnemonic) ∧
        ∀ row ∈ rows, Visible L t.slots auth replica requestedOwner domain row.1) ∧
    (∀ (A : AppState) (acl : Table String AclEntry) (domains : Table String DomainEntry)
        (events : List Event) (stats : Table String DidStats)
        (registry : Table String Registry.ServiceInstance) (auth : AuthClaims) (replica : Bool)
        (requestedOwner domain : Option String) (limit : Option ℕ+),
      let t : ListingStore :=
        ⟨Run.exec (Event.step A) (ControlStore.initial acl domains) events, stats, registry⟩
      ∃ requests rows,
        (∀ more, followPages A.libs t auth replica requestedOwner domain limit
          (requests + more) = some rows) ∧
        Lists A.libs auth replica requestedOwner domain t rows) ∧
    (∀ (A : AppState) (schema : ListSchema) (t : ListingStore) (auth : AuthClaims) (now : ℕ)
        (p : ListPayload) (answer : List ListedRecord × ℕ),
      (didList A schema t auth now p).1 = .ok answer →
        (auth.role = .admin ∨ ∀ owner, p.owner = some owner → owner = auth.did) ∧
          ∃ domain, listedDomain A.libs t.slots p.domain = .ok domain ∧
            answer =
              let page := listDidsPage A.libs t auth (isReplica t auth) p.owner domain
                (p.limit.map PNat.val) p.offset
              (page.1.map (listedRecord A (isReplica t auth)), page.2)) := by
  refine ⟨?_, ?_, ?_⟩
  · intro L t auth replica requestedOwner domain limit
    refine ⟨_, _, followPages_eq limit, ?_, ?_⟩
    · unfold countedRecords
      rw [List.pairwise_map]
      exact sortedRecords_ordered
    · exact fun row hrow => visible_of_mem (mem_countedRecords.mp hrow).1
  · intro A acl domains events stats registry auth replica requestedOwner domain limit t
    have hindexed : OwnersIndexed t.slots := ownersIndexed_run A acl domains events
    exact ⟨_, _, followPages_eq limit, hindexed.lists⟩
  · intro A schema t auth now p answer h
    exact list_answered h

section Samples

open Reference

/-- The store in which the administrator has reserved `al`, and knows another owner. -/
def oneSlot : ControlStore :=
  Run.exec (Event.step control)
    (ControlStore.initial
      ((∅ : Table String AclEntry).insert "did:key:b" ⟨"did:key:b", .owner, none, none, .all⟩) ∅)
    [.serve (.create admin 0 (some "al") false none [])]

def hostingServer : AuthClaims :=
  ⟨"did:web:e", .service⟩

/-- Its row in the registry. -/
def edgeInstance : Registry.ServiceInstance where
  instanceId := "did_web_e"
  serviceType := .server
  label := none
  url := "https://e.io"
  status := .active
  lastHealthCheck := none
  registeredAt := 0
  metadata := .obj [("did", .str "did:web:e")]
  enabledMethods := []
  servedDomains := []
  protocolVersion := ""
  advertisedServices := none
  servicesCheckedAt := none
  trustTaskCapable := true
  syncBatchCapable := true
  lastInboundTransport := none
  lastInboundAt := none
  lastOutboundTransport := none
  lastOutboundAt := none
  lastAckAt := none
  lastReconcileAt := none

/-- The store with the server registered. -/
def withEdge : ListingStore :=
  ⟨oneSlot, ∅, (∅ : Table String Registry.ServiceInstance).insert "did_web_e" edgeInstance⟩

/-- Two requests on the slot: it is disabled, and it is given to the other owner. -/
def disableOrTransfer (disable : Bool) : Op :=
  if disable then .setDisabled admin "al" true else .changeOwner admin 1 "al" "did:key:b"

/-- The disable reads the record, the transfer runs, and the disable writes back what it
has read. -/
def overlapped : Machine Bool ControlStore Batch String AppError Unit :=
  Run.exec Machine.step
    (Machine.start oneSlot fun i => (disableOrTransfer i).prog control)
    ([true] ++ List.replicate 5 false ++ [true])

/-- A registered hosting server, which is no administrator, is shown a slot of another
owner.  After a disable and a transfer of the slot that overlapped, its record names an
owner whose listing, read to the end, is empty. -/
theorem replica_shown_other_owner :
    (hostingServer.role ≠ .admin ∧ isReplica withEdge hostingServer = true ∧
        ∃ row ∈ (listDidsPage libs withEdge hostingServer (isReplica withEdge hostingServer)
            none none none none).1,
          row.1.owner ≠ hostingServer.did) ∧
      overlapped.Succeeded true ∧ overlapped.Succeeded false ∧
        (∃ record, overlapped.store.record "al" = some record ∧ record.owner = admin.did) ∧
        followPages libs ⟨overlapped.store, ∅, ∅⟩ ⟨admin.did, .owner⟩ false none none none 1 =
          some [] := by
  refine ⟨⟨by decide, by decide +kernel, by decide +kernel⟩, ?_⟩
  refine ⟨⟨by decide +kernel, (), rfl⟩, ⟨by decide +kernel, (), rfl⟩, ?_, by decide +kernel⟩
  exact ⟨{ emptyRecord admin "al" none 0 with disabled := true }, by decide +kernel, rfl⟩

end Samples

end DidHosting
