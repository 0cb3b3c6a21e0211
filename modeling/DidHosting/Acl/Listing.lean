import Mathlib.Data.List.Sort
import Mathlib.Data.PNat.Basic
import Mathlib.Data.String.Basic
import DidHosting.Acl.Grants
import DidHosting.Support.Base64
import DidHosting.Support.CursorPaging
import DidHosting.Support.Scan

/-!
# Listing the access control list

`acl/list` answers the entries that match the filters, in the order of their DIDs and page by
page.  The cursor is the DID of the last entry of a page, so the pages are taken from the
list as it is at each request.
-/

namespace DidHosting.Acl

open Text

/-! ## The code -/

/-- An `acl/list/0.1` request, with its resolved issuer. -/
structure ListRequest where
  issuer : Option String
  role : Option String
  scope : Option String
  subjectPrefix : Option String
  pageSize : Option ℕ+

/-- An `acl/list/0.1` response. -/
structure ListResponse where
  cursor : Option String
  entries : List WireAclEntry
  truncated : Bool

/-- `serde_json` on a `CursorState`, and the error texts of the cursor's decoders. -/
structure CursorLibs where
  toVec : String → List UInt8
  fromSlice : List UInt8 → Except String String
  decodeError : String → String

def defaultPageSize : ℕ := 50

def maxPageSize : ℕ := 500

/-- The page size of a request. -/
def ListRequest.size (r : ListRequest) : ℕ :=
  (r.pageSize.map fun n => min (n : ℕ) maxPageSize).getD defaultPageSize

def entryHasScope (row : AclRow) (want : String) : Bool :=
  match stripPrefix "domain:" want with
  | some domain => row.domains.allows domain
  | none => false

/-- The filters of a request. -/
def ListRequest.selects (r : ListRequest) (row : AclRow) : Bool :=
  (r.role.all fun want => roleText row.role = want) &&
    (r.scope.all fun want => entryHasScope row want) &&
    (r.subjectPrefix.all fun want => startsWith want row.did)

/-- The entries that match, in the order of their DIDs. -/
def ListRequest.sorted (r : ListRequest) (s : AclKs) : List AclRow :=
  (s.list.filter r.selects).insertionSort fun a b => a.did ≤ b.did

section Code

variable (C : CursorLibs)

def encodeCursor (lastSeen : String) : String :=
  String.ofList (Base64.encode (C.toVec lastSeen))

def decodeCursor (cursor : String) : Except String String :=
  match Base64.decode cursor.toList with
  | none =>
      let e := C.decodeError cursor
      .error s!"cursor is not valid base64url: {e}"
  | some bytes => (C.fromSlice bytes).mapError fun e => s!"cursor payload malformed: {e}"

def readCursor (cursor : Option String) : AclQ (Option String) :=
  match cursor with
  | none => return none
  | some text =>
      match decodeCursor C text with
      | .ok lastSeen => return some lastSeen
      | .error message => reject .malformedRequest message none

/-- The page behind the cursor, with one look-ahead for what is left. -/
def listPage (size : ℕ) (lastSeen : Option String) (sorted : List AclRow) : ListResponse :=
  let rest := match lastSeen with
    | some last => sorted.dropWhile fun e : AclRow => e.did ≤ last
    | none => sorted
  let window := rest.take (size + 1)
  let hasMore := decide (size < window.length)
  let page := window.take size
  { cursor :=
      if hasMore then page.getLast?.map fun e : AclRow => encodeCursor C e.did else none
    entries := page.map WireAclEntry.fromLocal
    truncated := hasMore }

/-- `handle_inner` of `acl/list`. -/
def listPlan (r : ListRequest) (cursor : Option String) : AclQ ListResponse := do
  let caller ← resolvedIssuer r.issuer
  match ← checkAcl caller with
  | .ok .admin =>
      let lastSeen ← readCursor C cursor
      let sorted ← Query.read r.sorted
      return listPage C r.size lastSeen sorted
  | _ => reject .permissionDenied "only Admin callers may enumerate the ACL" none

end Code

/-! ## Walks -/

/-- A request of a walk: the list as it is then, and the cursor that is followed while the
answers are truncated. -/
def serveList (C : CursorLibs) (r : ListRequest) (acls : ℕ → AclKs) (i : ℕ)
    (cursor : Option String) : Except Refusal (List WireAclEntry × Option String) :=
  ((listPlan C r cursor).eval (acls i)).map fun response =>
    (response.entries, if response.truncated then response.cursor else none)

/-- The caller may list the entries. -/
def MayList (issuer : Option String) (s : AclKs) : Prop :=
  ∃ caller, issuer = some caller ∧ caller.utf8ByteSize ≤ 512 ∧ IsAdmin s caller

theorem ListRequest.size_pos (r : ListRequest) : 0 < r.size := by
  unfold ListRequest.size
  cases r.pageSize with
  | none => decide
  | some n => exact lt_min n.pos (by decide)

theorem AclKs.nodup_dids (s : AclKs) : (s.list.map (·.did)).Nodup := by
  have hkeys : s.list.map (·.did) = (Table.rows s.rows).map (·.1) := by
    unfold AclKs.list
    rw [List.map_map]
    apply List.map_congr_left
    rintro ⟨did, row⟩ hrow
    exact s.keyed did row (Table.mem_rows.mp hrow)
  rw [hkeys]
  exact Table.keys_rows_nodup s.rows

section

variable {C : CursorLibs} {r : ListRequest} {s : AclKs}

theorem ListRequest.mem_sorted {row : AclRow} :
    row ∈ r.sorted s ↔ row ∈ s.list ∧ r.selects row = true := by
  unfold ListRequest.sorted
  rw [List.mem_insertionSort, List.mem_filter]

theorem ListRequest.pairwise_sorted (r : ListRequest) (s : AclKs) :
    (r.sorted s).Pairwise fun a b => a.did < b.did := by
  refine pairwise_sort_key_lt (fun row : AclRow => row.did) _ ?_
  exact (List.filter_sublist.map _).nodup s.nodup_dids

theorem listPage_eq (size : ℕ) (lastSeen : Option String) (sorted : List AclRow) :
    ((listPage C size lastSeen sorted).entries,
      if (listPage C size lastSeen sorted).truncated then
        (listPage C size lastSeen sorted).cursor else none) =
      ((CursorPaging.page (fun e : WireAclEntry => e.subject) size lastSeen
          (sorted.map WireAclEntry.fromLocal)).1,
        (CursorPaging.page (fun e : WireAclEntry => e.subject) size lastSeen
          (sorted.map WireAclEntry.fromLocal)).2.map (encodeCursor C)) := by
  rw [CursorPaging.page_map]
  have hkey : ∀ e : AclRow, (WireAclEntry.fromLocal e).subject = e.did := fun _ => rfl
  simp only [hkey]
  have hlist : ∀ rest : List AclRow,
      ((rest.take (size + 1)).take size |>.map WireAclEntry.fromLocal,
        if decide (size < (rest.take (size + 1)).length) then
          if decide (size < (rest.take (size + 1)).length) then
            ((rest.take (size + 1)).take size).getLast?.map fun e => encodeCursor C e.did
          else none
        else none) =
      (((rest.take (size + 1)).take size).map WireAclEntry.fromLocal,
        (if size < (rest.take (size + 1)).length then
          ((rest.take (size + 1)).take size).getLast?.map fun e => e.did else none).map
            (encodeCursor C)) := by
    intro rest
    by_cases hmore : size < (rest.take (size + 1)).length
    · simp only [hmore, decide_true, if_true, Option.map_map]
      rfl
    · simp only [hmore, decide_false, if_false, Option.map_none, Bool.false_eq_true]
  cases lastSeen with
  | none => exact hlist sorted
  | some last => exact hlist (sorted.dropWhile fun e => e.did ≤ last)

/-- An Admin with a DID that is not too long passes the check. -/
theorem checkAcl_yields {caller : String} :
    (checkAcl caller).Yields {s} (.ok .admin) ↔
      caller.utf8ByteSize ≤ 512 ∧ IsAdmin s caller := by
  unfold checkAcl IsAdmin
  split
  · rename_i hlong
    rw [Query.yields_pure]
    constructor
    · nofun
    · intro h
      exact absurd h.1 (not_le.mpr hlong)
  · rename_i hshort
    simp only [Query.yields_bind, Query.yields_read, Set.mem_singleton_iff, exists_eq_left,
      not_lt.mp hshort, true_and]
    cases hrow : s.get caller with
    | none => simp
    | some row => simp [eq_comm]

variable (hread : ∀ did, C.fromSlice (C.toVec did) = .ok did)
include hread

theorem decodeCursor_encodeCursor (did : String) :
    decodeCursor C (encodeCursor C did) = .ok did := by
  unfold decodeCursor encodeCursor
  rw [String.toList_ofList, Base64.decode_encode]
  simp only [hread]
  rfl

theorem readCursor_yields {lastSeen answer : Option String} {V : Set AclKs} :
    (readCursor C (lastSeen.map (encodeCursor C))).Yields V answer ↔ answer = lastSeen := by
  cases lastSeen with
  | none => exact Query.yields_pure
  | some did =>
      unfold readCursor
      simp only [Option.map_some, decodeCursor_encodeCursor hread]
      exact Query.yields_pure

/-- What a request with a cursor of ours answers. -/
theorem listPlan_yields (lastSeen : Option String) {response : ListResponse} :
    (listPlan C r (lastSeen.map (encodeCursor C))).Yields {s} response ↔
      MayList r.issuer s ∧ response = listPage C r.size lastSeen (r.sorted s) := by
  unfold listPlan resolvedIssuer
  cases hissuer : r.issuer with
  | none =>
      simp only [Query.yields_bind, yields_reject, false_and, exists_false, MayList, reduceCtorEq,
        false_and]
  | some caller =>
      simp only [Query.yields_bind, Query.yields_pure, exists_eq_left, MayList,
        Option.some.injEq, exists_eq_left']
      constructor
      · rintro ⟨checked, hchecked, h⟩
        split at h
        · obtain ⟨lastSeen', hlast, _, ⟨t, ht, rfl⟩, hresponse⟩ := by
            simpa only [Query.yields_bind, Query.yields_read] using h
          obtain rfl := (readCursor_yields hread).mp hlast
          obtain rfl : t = s := ht
          exact ⟨checkAcl_yields.mp hchecked, Query.yields_pure.mp hresponse⟩
        · exact (yields_reject.mp h).elim
      · rintro ⟨hmay, rfl⟩
        refine ⟨.ok .admin, checkAcl_yields.mpr hmay, ?_⟩
        simp only [Query.yields_bind, Query.yields_read, Query.yields_pure]
        exact ⟨lastSeen, (readCursor_yields hread).mpr rfl, _, ⟨s, rfl, rfl⟩, rfl⟩

/-- The requests of a walk serve the pages of the lists as they are then. -/
theorem serves_list (acls : ℕ → AclKs) :
    CursorPaging.Serves (fun e : WireAclEntry => e.subject) r.size (encodeCursor C)
      (fun i => (r.sorted (acls i)).map WireAclEntry.fromLocal) (serveList C r acls) := by
  intro i cursor answer h
  unfold serveList at h
  cases hplan : (listPlan C r (cursor.map (encodeCursor C))).eval (acls i) with
  | error e =>
      rw [hplan] at h
      cases h
  | ok response =>
      obtain ⟨-, rfl⟩ := (listPlan_yields hread _).mp (Query.eval_eq_ok_iff.mp hplan)
      rw [hplan] at h
      cases h
      exact listPage_eq _ _ _

theorem serveList_answers {acls : ℕ → AclKs} {i : ℕ} (hmay : MayList r.issuer (acls i))
    (cursor : Option String) :
    ∃ answer, serveList C r acls i (cursor.map (encodeCursor C)) = .ok answer := by
  have hplan := Query.eval_eq_ok_iff.mpr ((listPlan_yields hread cursor).mpr
    ⟨hmay, rfl⟩)
  unfold serveList
  rw [hplan]
  exact ⟨_, rfl⟩

end

theorem pairwise_subjects (r : ListRequest) (s : AclKs) :
    ((r.sorted s).map WireAclEntry.fromLocal).Pairwise fun a b => a.subject < b.subject :=
  List.pairwise_map.mpr (r.pairwise_sorted s)

open CursorPaging in
/-- The walks of `acl/list`, whatever the list is at each request.  No entry is answered twice
and none that does not match then; a walk that comes to its end has answered every entry that
matched at each of its requests; it is refused only where the caller is no Admin, and it
comes to an end when the subjects that match are not more and more. -/
theorem acl_list_pages_tile (C : CursorLibs) (r : ListRequest) (acls : ℕ → AclKs) (fuel : ℕ)
    (hread : ∀ did, C.fromSlice (C.toVec did) = .ok did) :
    ((walk (serveList C r acls) fuel 0 none).1.flatten.map (·.subject)).Nodup ∧
      (∀ n items, (walk (serveList C r acls) fuel 0 none).1[n]? = some items → ∀ e ∈ items,
        ∃ row, (acls n).get e.subject = some row ∧ r.selects row = true ∧
          e = WireAclEntry.fromLocal row) ∧
      ((walk (serveList C r acls) fuel 0 none).2 = .complete → ∀ did,
        (∀ n < (walk (serveList C r acls) fuel 0 none).1.length,
          ∃ row, (acls n).get did = some row ∧ r.selects row = true) →
        ∃ e ∈ (walk (serveList C r acls) fuel 0 none).1.flatten, e.subject = did) ∧
      (∀ e, (walk (serveList C r acls) fuel 0 none).2 = .refused e →
        ∃ n, ¬ MayList r.issuer (acls n)) ∧
      ∀ dids : Finset String,
        (∀ n row, (acls n).get row.did = some row → r.selects row = true → row.did ∈ dids) →
        dids.card < fuel → (walk (serveList C r acls) fuel 0 none).2 ≠ .cut := by
  have hserves := serves_list (r := r) hread acls
  have hsorted := fun i => pairwise_subjects r (acls i)
  have hmem : ∀ n (e : WireAclEntry), e ∈ (r.sorted (acls n)).map WireAclEntry.fromLocal →
      ∃ row, (acls n).get e.subject = some row ∧ r.selects row = true ∧
        e = WireAclEntry.fromLocal row := by
    intro n e he
    obtain ⟨row, hrow, rfl⟩ := List.mem_map.mp he
    obtain ⟨hlist, hselects⟩ := ListRequest.mem_sorted.mp hrow
    exact ⟨row, AclKs.mem_list.mp hlist, hselects, rfl⟩
  refine ⟨?_, ?_, ?_, ?_, ?_⟩
  · have hordered := (walk_pairwise r.size_pos hserves hsorted fuel 0 none).1
    rw [List.Nodup, List.pairwise_map]
    exact hordered.imp fun hlt => hlt.ne
  · intro n items hitems e he
    have hin := walk_mem r.size_pos hserves hsorted fuel 0 none n items hitems e he
    rw [Nat.zero_add] at hin
    exact hmem n e hin
  · intro hcomplete did hdid
    refine walk_complete r.size_pos hserves hsorted fuel 0 none hcomplete did nofun ?_
    intro n hn
    obtain ⟨row, hrow, hselects⟩ := hdid n hn
    have hkey := AclKs.did_of_get hrow
    rw [Nat.zero_add]
    refine ⟨WireAclEntry.fromLocal row, List.mem_map_of_mem ?_, hkey⟩
    exact ListRequest.mem_sorted.mpr ⟨AclKs.mem_list.mpr (hkey.symm ▸ hrow), hselects⟩
  · intro e hrefused
    obtain ⟨n, cursor, herror⟩ := walk_refused fuel 0 none e hserves hrefused
    refine ⟨n, fun hmay => ?_⟩
    obtain ⟨answer, hanswer⟩ := serveList_answers hread hmay cursor
    rw [hanswer] at herror
    contradiction
  · intro dids hdids hfuel
    refine walk_not_cut r.size_pos hserves hsorted dids fuel 0 none ?_ ?_
    · intro n e he
      rw [Nat.zero_add] at he
      obtain ⟨row, hrow, hselects, rfl⟩ := hmem n e he
      exact hdids n row hrow hselects
    · exact lt_of_le_of_lt (Finset.card_filter_le _ _) hfuel

namespace Sample

/-- The JSON of a cursor whose DID needs no escapes. -/
def cursorPrefix : List Char := "\x7b\"last_seen\":\"".toList

/-- Cursors with the JSON of their DID in UTF-8. -/
def cursorLibs : CursorLibs where
  toVec did :=
    (String.ofList (cursorPrefix ++ did.toList ++ ['\"', '\x7d'])).toUTF8.data.toList
  fromSlice bytes :=
    match String.fromUTF8? ⟨bytes.toArray⟩ with
    | none => .error "invalid unicode code point"
    | some text =>
        if cursorPrefix <+: text.toList ∧ ['\"', '\x7d'] <:+ text.toList then
          .ok (String.ofList ((text.toList.drop cursorPrefix.length).dropLast.dropLast))
        else .error "expected value"
  decodeError _ := "Invalid padding"

theorem fromSlice_toVec (did : String) :
    cursorLibs.fromSlice (cursorLibs.toVec did) = .ok did := by
  have htext : ∀ text : String, String.fromUTF8? ⟨text.toUTF8.data.toList.toArray⟩ = some text := by
    intro text
    rw [Array.toArray_toList]
    exact dif_pos text.isValidUTF8
  unfold cursorLibs
  simp only [htext, String.toList_ofList]
  rw [if_pos ⟨⟨did.toList ++ ['\"', '\x7d'], by simp⟩, ⟨cursorPrefix ++ did.toList, rfl⟩⟩]
  simp

/-- A request for the Owners, one to a page. -/
def owners : ListRequest where
  issuer := some "did:a"
  role := some "owner"
  scope := none
  subjectPrefix := none
  pageSize := some 1

/-- The DID of an Owner, which grows with the number. -/
def guest (n : ℕ) : String := String.ofList (['d', 'i', 'd', ':', 'o'] ++ List.replicate n 'o')

/-- An Admin and the first `n` of these Owners. -/
def crowd : ℕ → AclKs
  | 0 => AclKs.empty.store (entry "did:a" .admin .all)
  | n + 1 => (crowd n).store (entry (guest n) .owner .all)

/-- The grant of one of these Owners. -/
def invitation (n : ℕ) : AclTask :=
  .grant ⟨some "did:a", ⟨guest n, "owner", [], none, none, some (.ok ⟨none, none, .all⟩)⟩, 0⟩

theorem lt_append_cons (l : List Char) (c : Char) (cs : List Char) : l < l ++ c :: cs := by
  induction l with
  | nil => exact List.nil_lt_cons c cs
  | cons a l ih => exact List.cons_lt_cons_iff.mpr (.inr ⟨rfl, ih⟩)

theorem guest_lt {m n : ℕ} (h : m < n) : guest m < guest n := by
  obtain ⟨d, rfl⟩ := Nat.exists_eq_add_of_lt h
  have hreplicate : List.replicate (m + d + 1) 'o' =
      List.replicate m 'o' ++ 'o' :: List.replicate d 'o' := by
    rw [← List.replicate_succ, ← List.replicate_add, Nat.add_assoc]
  rw [String.lt_iff_toList_lt, guest, guest, String.toList_ofList, String.toList_ofList,
    hreplicate, ← List.append_assoc]
  exact lt_append_cons _ _ _

theorem guest_inj {m n : ℕ} (h : guest m = guest n) : m = n := by
  rcases Nat.lt_trichotomy m n with hlt | heq | hlt
  · exact absurd h (guest_lt hlt).ne
  · exact heq
  · exact absurd h (guest_lt hlt).ne'

theorem guest_ne_admin (n : ℕ) : guest n ≠ "did:a" := by
  intro h
  have hadmin : "did:a".toList = ['d', 'i', 'd', ':', 'a'] := by decide +kernel
  have hlist := congrArg String.toList h
  rw [guest, String.toList_ofList, hadmin] at hlist
  simp only [List.cons_append, List.cons.injEq, true_and] at hlist
  exact absurd hlist.1 (by decide)

theorem get_crowd (n : ℕ) (did : String) (row : AclRow) :
    (crowd n).get did = some row ↔
      (did = "did:a" ∧ row = entry "did:a" .admin .all) ∨
        ∃ m < n, did = guest m ∧ row = entry (guest m) .owner .all := by
  induction n with
  | zero =>
      rw [crowd, AclKs.get_store, AclKs.get_empty]
      by_cases hdid : did = "did:a"
      · subst hdid
        simp [entry, eq_comm]
      · have hne : ¬ did = (entry "did:a" .admin .all).did := hdid
        simp [hne, hdid]
  | succ n ih =>
      rw [crowd, AclKs.get_store]
      by_cases hdid : did = (entry (guest n) .owner .all).did
      · rw [if_pos hdid]
        obtain rfl : did = guest n := hdid
        constructor
        · rintro ⟨⟩
          exact .inr ⟨n, Nat.lt_succ_self n, rfl, rfl⟩
        · rintro (⟨hadmin, -⟩ | ⟨m, -, hm, rfl⟩)
          · exact absurd hadmin (guest_ne_admin n)
          · rw [guest_inj hm]
      · rw [if_neg hdid, ih]
        constructor
        · rintro (h | ⟨m, hm, h⟩)
          · exact .inl h
          · exact .inr ⟨m, by omega, h⟩
        · rintro (h | ⟨m, hm, heq, hrow⟩)
          · exact .inl h
          · have hmn : m ≠ n := by
              rintro rfl
              exact hdid heq
            exact .inr ⟨m, by omega, heq, hrow⟩

theorem run_invitation (n : ℕ) :
    ((invitation n).prog framework).run (crowd n) =
      (.ok (some (entry (guest n) .owner .all)), crowd (n + 1)) := by
  have hnew : (crowd n).get (guest n) = none := by
    rw [Option.eq_none_iff_forall_ne_some]
    intro row hrow
    rcases (get_crowd n _ _).mp hrow with ⟨hadmin, -⟩ | ⟨m, hm, heq, -⟩
    · exact guest_ne_admin n hadmin
    · exact absurd (guest_inj heq) hm.ne'
  have hadmin : (crowd n).get "did:a" = some (entry "did:a" .admin .all) :=
    (get_crowd n _ _).mpr (.inl ⟨rfl, rfl⟩)
  have hdid : framework.parsesAsDid (guest n) = true := by
    refine startsWith_iff.mpr ?_
    rw [guest, String.toList_ofList, String.toList_ofList]
    exact ⟨'o' :: List.replicate n 'o', rfl⟩
  have hplan : (grantPlan framework ⟨some "did:a", ⟨guest n, "owner", [], none, none,
      some (.ok ⟨none, none, .all⟩)⟩, 0⟩).Yields {crowd n}
        (some (.store (entry (guest n) .owner .all)), some (entry (guest n) .owner .all)) := by
    unfold grantPlan
    simp only [Query.yields_bind, Query.yields_read]
    refine ⟨"did:a", Query.yields_pure.mpr rfl, (), ?_, entry (guest n) .owner .all, ?_, none,
      ⟨crowd n, rfl, hnew.symm⟩, Query.yields_pure.mpr rfl⟩
    · unfold requireAdmin
      simp only [Query.yields_bind]
      refine ⟨.ok .admin, checkAcl_yields.mpr ⟨by decide +kernel, _, hadmin, rfl⟩, ?_⟩
      exact Query.yields_pure.mpr rfl
    · have hlocal : SpecAclEntry.intoLocal ⟨guest n, "owner", [], none, none,
          some (.ok ⟨none, none, .all⟩)⟩ 0 = .ok (entry (guest n) .owner .all) := rfl
      unfold proposedRow
      simp only [hlocal]
      rw [if_neg (by simp [entry, hdid]), if_neg (by simp)]
      exact Query.yields_pure.mpr rfl
  exact Prog.run_planned_ok hplan

/-- The list at the requests of a walk: two more Owners come in between two requests. -/
def crowds (i : ℕ) : AclKs := crowd (2 * i + 2)

theorem eq_of_length_le_one {α : Type} {l : List α} (h : l.length ≤ 1) {x y : α} (hx : x ∈ l)
    (hy : y ∈ l) : x = y := by
  match l, h with
  | [a], _ => rw [List.mem_singleton.mp hx, List.mem_singleton.mp hy]

theorem mem_sorted_crowd {n : ℕ} {row : AclRow} :
    row ∈ owners.sorted (crowd n) ↔ ∃ m < n, row = entry (guest m) .owner .all := by
  rw [ListRequest.mem_sorted, AclKs.mem_list, get_crowd]
  constructor
  · rintro ⟨⟨-, rfl⟩ | ⟨m, hm, -, hrow⟩, hselects⟩
    · exact absurd hselects (by decide +kernel)
    · exact ⟨m, hm, hrow⟩
  · rintro ⟨m, hm, rfl⟩
    exact ⟨.inr ⟨m, hm, rfl, rfl⟩, rfl⟩

end Sample

open DidHosting.Acl.Sample in
/-- While two more Owners are granted between two requests, the walk does not come to its
end. -/
theorem walk_goes_on :
    (∀ n, ((invitation n).prog framework).run (crowd n) =
      (.ok (some (entry (guest n) .owner .all)), crowd (n + 1))) ∧
    ∀ fuel, (CursorPaging.walk (serveList cursorLibs owners crowds) fuel 0 none).2 = .cut := by
  refine ⟨run_invitation, fun fuel => ?_⟩
  have hmem : ∀ {i : ℕ} {e : WireAclEntry},
      e ∈ (owners.sorted (crowds i)).map WireAclEntry.fromLocal ↔
        ∃ m < 2 * i + 2, e = WireAclEntry.fromLocal (entry (guest m) .owner .all) := by
    intro i e
    rw [List.mem_map]
    constructor
    · rintro ⟨row, hrow, rfl⟩
      obtain ⟨m, hm, rfl⟩ := mem_sorted_crowd.mp hrow
      exact ⟨m, hm, rfl⟩
    · rintro ⟨m, hm, rfl⟩
      exact ⟨_, mem_sorted_crowd.mpr ⟨m, hm, rfl⟩, rfl⟩
  refine CursorPaging.walk_cut owners.size_pos (serves_list fromSlice_toVec crowds)
    (fun i => pairwise_subjects owners (crowds i)) ?_ ?_ fuel 0 none nofun
  · intro i cursor
    refine serveList_answers fromSlice_toVec ⟨"did:a", rfl, by decide +kernel,
      entry "did:a" .admin .all, ?_, rfl⟩ cursor
    exact (get_crowd _ _ _).mpr (.inl ⟨rfl, rfl⟩)
  · intro i cursor hcursor
    apply CursorPaging.page_goes_on owners.size_pos
    have hbehind : ∀ m, 2 * i ≤ m → m < 2 * i + 2 →
        WireAclEntry.fromLocal (entry (guest m) .owner .all) ∈
          CursorPaging.behind (fun e : WireAclEntry => e.subject) cursor
            ((owners.sorted (crowds i)).map WireAclEntry.fromLocal) := by
      intro m hle hlt
      refine (CursorPaging.mem_behind (pairwise_subjects owners (crowds i))).mpr
        ⟨hmem.mpr ⟨m, hlt, rfl⟩, ?_⟩
      intro last hlast
      obtain ⟨j, hj, e, he, rfl⟩ := hcursor last hlast
      obtain ⟨k, hk, rfl⟩ := hmem.mp he
      exact guest_lt (by omega)
    have hfirst := hbehind (2 * i) le_rfl (by omega)
    have hsecond := hbehind (2 * i + 1) (by omega) (by omega)
    have hsize : owners.size = 1 := by decide +kernel
    rw [hsize]
    by_contra hshort
    have hsame := eq_of_length_le_one (not_lt.mp hshort) hfirst hsecond
    exact (guest_lt (Nat.lt_succ_self (2 * i))).ne (congrArg WireAclEntry.subject hsame)

namespace Sample

/-- One Owner comes in after the first request. -/
def growing (i : ℕ) : AclKs := crowd (if i = 0 then 2 else 3)

theorem row_of_growing {i : ℕ} {row : AclRow} (hrow : (growing i).get row.did = some row)
    (hselects : owners.selects row = true) : ∃ m < 3, row = entry (guest m) .owner .all := by
  obtain ⟨m, hm, rfl⟩ := mem_sorted_crowd.mp
    (ListRequest.mem_sorted.mpr ⟨AclKs.mem_list.mpr hrow, hselects⟩)
  refine ⟨m, ?_, rfl⟩
  split at hm <;> omega

end Sample

open DidHosting.Acl.Sample in
/-- A walk during which an Owner comes in: it comes to its end, and the two Owners there from
the start are answered, each once. -/
theorem acl_list_pages_tile_crowd :
    let w := CursorPaging.walk (serveList cursorLibs owners growing) 4 0 none
    w.2 = .complete ∧ (w.1.flatten.map (·.subject)).Nodup ∧
      ∀ m < 2, ∃ e ∈ w.1.flatten, e.subject = guest m := by
  intro w
  obtain ⟨hnodup, -, hanswered, hrefused, hends⟩ :=
    acl_list_pages_tile cursorLibs owners growing 4 fromSlice_toVec
  have hcomplete : w.2 = .complete := by
    cases hend : w.2 with
    | complete => rfl
    | refused e =>
        obtain ⟨n, hnot⟩ := hrefused e hend
        refine absurd ⟨"did:a", rfl, by decide +kernel, entry "did:a" .admin .all, ?_, rfl⟩ hnot
        exact (get_crowd _ _ _).mpr (.inl ⟨rfl, rfl⟩)
    | cut =>
        refine absurd hend (hends {guest 0, guest 1, guest 2} ?_ ?_)
        · intro n row hrow hselects
          obtain ⟨m, hm, rfl⟩ := row_of_growing hrow hselects
          obtain rfl | rfl | rfl : m = 0 ∨ m = 1 ∨ m = 2 := by omega
          all_goals simp [entry]
        · exact lt_of_le_of_lt Finset.card_le_three (by decide)
  refine ⟨hcomplete, hnodup, fun m hm => hanswered hcomplete (guest m) fun n _ => ?_⟩
  refine ⟨entry (guest m) .owner .all, (get_crowd _ _ _).mpr (.inr ⟨m, ?_, rfl, rfl⟩), rfl⟩
  split <;> omega

end DidHosting.Acl
