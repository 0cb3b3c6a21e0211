import DidHosting.Control.OutboxOrder

/-!
# The errors the outbox records

A failed delivery leaves its error on the row, cut to 200 bytes.  The cut is made at a byte,
and a text can be cut there only if no character goes across it: otherwise the slice panics,
and the worker stops for every target.
-/

namespace DidHosting

open OutboxStore

/-! ## Beginnings of a text -/

/-- `kept` is the longest beginning of a text that has at most `limit` bytes. -/
structure LongestWithin (limit : ℕ) (text kept : String) : Prop where
  beginning : ∃ rest, text = kept ++ rest
  fits : kept.utf8ByteSize ≤ limit
  longest : ∀ other rest, text = other ++ rest → other.utf8ByteSize ≤ limit →
    other.utf8ByteSize ≤ kept.utf8ByteSize

/-- A text that fits is its own longest beginning. -/
theorem longestWithin_self {limit : ℕ} {text : String} (h : text.utf8ByteSize ≤ limit) :
    LongestWithin limit text text where
  beginning := ⟨"", by simp⟩
  fits := h
  longest := by
    rintro other rest rfl -
    rw [String.utf8ByteSize_append]
    exact Nat.le_add_right _ _

/-- A beginning that uses up the limit is the longest. -/
theorem longestWithin_of_eq {limit : ℕ} {kept rest : String} (h : kept.utf8ByteSize = limit) :
    LongestWithin limit (kept ++ rest) kept where
  beginning := ⟨rest, rfl⟩
  fits := h.le
  longest := by
    intro other _ _ hother
    exact hother.trans h.ge

/-- `recorded` is a text cut to `limit` bytes: the longest beginning, and an ellipsis if
something was cut off. -/
def CutTo (limit : ℕ) (text recorded : String) : Prop :=
  ∃ kept, LongestWithin limit text kept ∧
    recorded = if kept = text then text else kept ++ "…"

/-! ## The cut -/

/-- What is cut off at a byte is a beginning that ends there. -/
theorem of_bytePrefix_eq_some {n : ℕ} {cs kept : List Char} (h : bytePrefix n cs = some kept) :
    ∃ rest, cs = kept ++ rest ∧ String.utf8Len kept = n := by
  fun_induction bytePrefix n cs generalizing kept with
  | case1 cs =>
      obtain rfl := Option.some.inj h
      exact ⟨cs, rfl, rfl⟩
  | case2 n => contradiction
  | case3 n c cs hfits ih =>
      obtain ⟨kept', hkept', rfl⟩ := Option.map_eq_some_iff.mp h
      obtain ⟨rest, rfl, hlen⟩ := ih hkept'
      refine ⟨rest, rfl, ?_⟩
      rw [String.utf8Len_cons, hlen]
      exact Nat.sub_add_cancel hfits
  | case4 n c cs hlong => contradiction

/-- A beginning is cut off where it ends. -/
theorem bytePrefix_append (kept rest : List Char) :
    bytePrefix (String.utf8Len kept) (kept ++ rest) = some kept := by
  induction kept with
  | nil => simp [bytePrefix]
  | cons c kept ih =>
      have hpos : 0 < c.utf8Size := Char.utf8Size_pos c
      obtain ⟨m, hm⟩ : ∃ m, String.utf8Len (c :: kept) = m + 1 :=
        Nat.exists_eq_succ_of_ne_zero (by rw [String.utf8Len_cons]; omega)
      have hrest : m + 1 - c.utf8Size = String.utf8Len kept := by
        rw [← hm, String.utf8Len_cons, Nat.add_sub_cancel]
      have hfits : c.utf8Size ≤ m + 1 := by
        rw [← hm, String.utf8Len_cons]
        exact Nat.le_add_left _ _
      rw [hm, List.cons_append, bytePrefix, if_pos hfits, hrest, ih, Option.map_some]

/-- A byte where a character ends, or the text begins, ends a beginning of the text. -/
theorem isValid_iff_exists_beginning {n : ℕ} {text : String} :
    (⟨n⟩ : String.Pos.Raw).IsValid text ↔
      ∃ kept rest, text = kept ++ rest ∧ kept.utf8ByteSize = n := by
  rw [String.Pos.Raw.isValid_iff_exists_append]
  constructor
  · rintro ⟨kept, rest, htext, hend⟩
    exact ⟨kept, rest, htext, (congrArg String.Pos.Raw.byteIdx hend).symm⟩
  · rintro ⟨kept, rest, htext, hkept⟩
    exact ⟨kept, rest, htext, String.Pos.Raw.ext hkept.symm⟩

theorem truncated_of_le {err : String} (h : err.utf8ByteSize ≤ 200) :
    truncated err = .ok err := by
  rw [truncated, if_pos h]

/-- A longer text is cut where a character ends at byte 200. -/
theorem truncated_append {kept rest : String} (hkept : kept.utf8ByteSize = 200)
    (hlong : ¬ (kept ++ rest).utf8ByteSize ≤ 200) :
    truncated (kept ++ rest) = .ok (kept ++ "…") := by
  have hlen : String.utf8Len kept.toList = 200 := by
    rw [String.utf8Len_toList, hkept]
  have hcut : bytePrefix 200 (kept ++ rest).toList = some kept.toList := by
    rw [String.toList_append, ← hlen]
    exact bytePrefix_append _ _
  simp only [truncated, if_neg hlong, hcut, String.ofList_toList]

/-- The slice panics exactly where a character goes across byte 200. -/
theorem truncated_ok_iff {err : String} :
    (∃ text, truncated err = .ok text) ↔
      err.utf8ByteSize ≤ 200 ∨ (⟨200⟩ : String.Pos.Raw).IsValid err := by
  by_cases hshort : err.utf8ByteSize ≤ 200
  · exact ⟨fun _ => Or.inl hshort, fun _ => ⟨err, truncated_of_le hshort⟩⟩
  constructor
  · rintro ⟨text, htext⟩
    right
    rw [truncated, if_neg hshort] at htext
    split at htext
    · rename_i kept hkept
      obtain ⟨rest, hrest, hlen⟩ := of_bytePrefix_eq_some hkept
      rw [isValid_iff_exists_beginning]
      refine ⟨String.ofList kept, String.ofList rest, ?_, ?_⟩
      · rw [← String.ofList_append, ← hrest, String.ofList_toList]
      · rw [String.utf8ByteSize_ofList, hlen]
    · contradiction
  · rintro (hfits | hvalid)
    · exact absurd hfits hshort
    · obtain ⟨kept, rest, rfl, hkept⟩ := isValid_iff_exists_beginning.mp hvalid
      exact ⟨_, truncated_append hkept hshort⟩

theorem cutTo_of_truncated {err text : String} (h : truncated err = .ok text) :
    CutTo 200 err text := by
  by_cases hshort : err.utf8ByteSize ≤ 200
  · rw [truncated_of_le hshort] at h
    obtain rfl := Except.ok.inj h
    exact ⟨err, longestWithin_self hshort, (if_pos rfl).symm⟩
  · obtain hfits | hvalid := truncated_ok_iff.mp ⟨text, h⟩
    · exact absurd hfits hshort
    obtain ⟨kept, rest, rfl, hkept⟩ := isValid_iff_exists_beginning.mp hvalid
    have hcut : kept ≠ kept ++ rest := by
      intro heq
      rw [← heq, hkept] at hshort
      exact hshort le_rfl
    rw [truncated_append hkept hshort] at h
    obtain rfl := Except.ok.inj h
    exact ⟨kept, longestWithin_of_eq hkept, (if_neg hcut).symm⟩

/-! ## The failure on its row -/

variable {s : OutboxStore} {key err : String} {entry : OutboxEntry} {now : ℕ}

/-- A row that was removed meanwhile stays removed. -/
theorem run_rewriteIfPresent_eq (next : OutboxEntry) :
    (rewriteIfPresent key next).run s =
      (.ok (), if (s.row key).isSome then commit (.insert key next) s else s) := by
  by_cases hheld : (s.row key).isSome = true
  · change (Prog.bind (Prog.writeOpt (if (s.row key).isSome = true then
      some (OutboxWrite.insert key next) else none)) _).run s = _
    rw [if_pos hheld, if_pos hheld]
    rfl
  · change (Prog.bind (Prog.writeOpt (if (s.row key).isSome = true then
      some (OutboxWrite.insert key next) else none)) _).run s = _
    rw [if_neg hheld, if_neg hheld]
    rfl

/-- The failure `err` of a delivery is recorded: on every row the worker delivers, whose
attempts are not used up, nothing panics, and a row that is still queued carries the error
cut to 200 bytes. -/
def FailureRecorded (err : String) : Prop :=
  ∀ (s : OutboxStore) (key : String) (entry : OutboxEntry) (now : ℕ),
    entry.attempts < maxAttempts →
      ∃ text s', (recordFailure key entry err now).run s = (.ok (), s') ∧
        CutTo 200 err text ∧
        s'.row key = (s.row key).map fun _ => failedEntry entry text now

theorem failureRecorded_of_truncated {text : String} (h : truncated err = .ok text) :
    FailureRecorded err := by
  intro s key entry now _
  have hrun : (recordFailure key entry err now).run s =
      (.ok (), if (s.row key).isSome then commit (.insert key (failedEntry entry text now)) s
        else s) := by
    rw [recordFailure, Prog.run_check_bind_ok _ text h]
    exact run_rewriteIfPresent_eq _
  refine ⟨text, _, hrun, cutTo_of_truncated h, ?_⟩
  by_cases hheld : (s.row key).isSome = true
  · obtain ⟨old, hold⟩ := Option.isSome_iff_exists.mp hheld
    rw [if_pos hheld, hold, Option.map_some]
    exact AList.lookup_insert _
  · have hnone : s.row key = none := Option.not_isSome_iff_eq_none.mp hheld
    rw [if_neg hheld, hnone, Option.map_none]

/-- A text that cannot be cut stops the worker. -/
theorem run_recordFailure_of_error {e : AppError} (h : truncated err = .error e) :
    (recordFailure key entry err now).run s = (.error e, s) := by
  rw [recordFailure, h]
  rfl

theorem exists_truncated_of_recorded (h : FailureRecorded err) :
    ∃ text, truncated err = .ok text := by
  cases htext : truncated err with
  | ok text => exact ⟨text, rfl⟩
  | error e =>
      -- any row will do: the panic comes before the row is read
      obtain ⟨text, s', hrun, -, -⟩ := h ⟨∅, []⟩ "" (newEntry "" "" .null 0) 0 (by decide)
      rw [run_recordFailure_of_error htext] at hrun
      simp at hrun

/-- A failure is recorded exactly when its text fits, or a character of it ends at byte 200. -/
theorem failure_recorded_iff (err : String) :
    FailureRecorded err ↔
      err.utf8ByteSize ≤ 200 ∨ (⟨200⟩ : String.Pos.Raw).IsValid err := by
  rw [← truncated_ok_iff]
  constructor
  · exact exists_truncated_of_recorded
  · rintro ⟨text, htext⟩
    exact failureRecorded_of_truncated htext

namespace OutboxSample

/-- One `a`, and characters of two bytes up to byte 201. -/
def acrossByte200 : String :=
  String.ofList ('a' :: List.replicate 100 'é')

/-- The characters before a boundary take an odd number of bytes, or none. -/
theorem utf8ByteSize_take (n : ℕ) :
    (String.ofList (('a' :: List.replicate 100 'é').take n)).utf8ByteSize =
      if n = 0 then 0 else 2 * min (n - 1) 100 + 1 := by
  have hrest : ∀ k, String.utf8Len (List.replicate k 'é') = 2 * k := by
    intro k
    induction k with
    | zero => rfl
    | succ k ih => exact congrArg (· + 2) ih
  rw [String.utf8ByteSize_ofList]
  cases n with
  | zero => rfl
  | succ n =>
      rw [List.take_succ_cons, List.take_replicate, if_neg (Nat.succ_ne_zero n),
        String.utf8Len_cons, hrest]
      rfl

end OutboxSample

/-- A character of the text goes across byte 200. -/
theorem failure_not_recorded : ¬ FailureRecorded OutboxSample.acrossByte200 := by
  intro h
  have htake := OutboxSample.utf8ByteSize_take
  rcases truncated_ok_iff.mp (exists_truncated_of_recorded h) with hfits | hboundary
  · have hsize : OutboxSample.acrossByte200.utf8ByteSize = 201 := htake 101
    omega
  · obtain ⟨n, hn⟩ := String.Pos.Raw.isValid_ofList.mp hboundary
    change 200 = _ at hn
    rw [htake] at hn
    split at hn <;> omega

/-! ## The worker -/

theorem returns_rewriteIfPresent (key : String) (next : OutboxEntry) :
    (rewriteIfPresent key next).Returns := by
  intro s
  change (Prog.bind (Prog.writeOpt _) _).Returns
  split
  · trivial
  · trivial

theorem returns_recordFailure (h : ∃ text, truncated err = .ok text) :
    (recordFailure key entry err now).Returns := by
  obtain ⟨text, htext⟩ := h
  rw [recordFailure, htext]
  exact returns_rewriteIfPresent key _

theorem returns_acknowledge (signer docId : String) : (acknowledge signer docId).Returns := by
  have hloop : ∀ pending, (ackLoop docId pending).Returns := by
    intro pending
    induction pending with
    | nil => trivial
    | cons row rest ih =>
        obtain ⟨key, entry⟩ := row
        rw [ackLoop]
        split
        · trivial
        · exact ih
  exact fun s => hloop _

theorem returns_selfAcknowledge (target docId : String) (transport : PeerTransport) :
    (selfAcknowledge target docId transport).Returns := by
  rw [selfAcknowledge]
  split
  · exact Prog.returns_bind (returns_acknowledge target docId) fun _ => trivial
  · trivial

section

variable {send : Send} {sends : String → Send}

/-- The error of a delivery, if it failed, can be recorded. -/
def Recordable (send : Send) : Prop :=
  ∀ err, send.outcome = .failed err →
    err.utf8ByteSize ≤ 200 ∨ (⟨200⟩ : String.Pos.Raw).IsValid err

theorem returns_tickRows (hsend : Recordable send) (target : String) (report : TickReport)
    (pending : List (String × OutboxEntry)) :
    (tickRows now send target report pending).Returns := by
  induction pending generalizing report with
  | nil => trivial
  | cons row rest ih =>
      obtain ⟨key, entry⟩ := row
      rw [tickRows]
      split
      · exact ih _
      · split
        · trivial
        · split
          · refine Prog.returns_bind trivial fun _ => ?_
            refine Prog.returns_bind (returns_rewriteIfPresent key _) fun _ => ?_
            exact Prog.returns_bind (returns_selfAcknowledge _ _ _) fun _ => trivial
          · rename_i err houtcome
            have hcut := truncated_ok_iff.mpr (hsend err houtcome)
            exact Prog.returns_bind (returns_recordFailure hcut) fun _ => trivial

theorem returns_tickTargets (hsends : ∀ target, Recordable (sends target))
    (report : TickReport) (targets : List String) :
    (tickTargets now sends report targets).Returns := by
  induction targets generalizing report with
  | nil => trivial
  | cons target rest ih =>
      rw [tickTargets]
      refine Prog.returns_bind (fun s => trivial) fun pending => ?_
      exact Prog.returns_bind (returns_tickRows (hsends target) target report pending) ih

/-- The worker's tick ends, whatever is queued, when every error that a failed delivery
leaves can be recorded. -/
theorem tick_ends (now : ℕ) (hsends : ∀ target, Recordable (sends target)) (s : OutboxStore) :
    ∃ report t, (runTick now sends).run s = (.ok report, t) := by
  have hreturns : (runTick now sends).Returns := fun s => returns_tickTargets hsends _ _
  exact hreturns.run s

end

end DidHosting
