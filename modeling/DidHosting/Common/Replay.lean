import DidHosting.Support.Table
import Mathlib.Data.List.Perm.Basic
import Mathlib.Tactic.Common

/-!
# The replay cache

Signed input is fresh for a while, and a copy of it would be fresh as well.  The cache
remembers each accepted pair of a signer and an id for as long as a copy can be fresh.
It keeps three structures: the pairs with the time of their acceptance, a queue of the
same pairs in order of that time, and a counter of pairs for each signer.  At its bounds
it refuses new pairs and never forgets one early.
-/

namespace DidHosting

/-! ## The freshness gates -/

def freshnessWindowSecs : ℕ := 300

def futureSkewSecs : ℕ := 60

def replayWindowSecs : ℕ := freshnessWindowSecs + futureSkewSecs

/-- Clock readings are in nanoseconds since the epoch. -/
def nanosPerSec : ℕ := 1000000000

/-- `now_epoch` at a clock reading. -/
def nowEpoch (now : ℕ) : ℕ := now / nanosPerSec

/-- The gate of `verify_bound`, on the `issuedAt` of a document. -/
def freshDocument (now : ℕ) (issuedAt : ℤ) : Prop :=
  ¬ (issuedAt < now - (freshnessWindowSecs * nanosPerSec : ℕ) ∨
    now + (futureSkewSecs * nanosPerSec : ℕ) < issuedAt)

/-- The gate of `unpack_signed`, on the `created_time` of a message in seconds. -/
def freshMessage (now createdTime : ℕ) : Prop :=
  ¬ freshnessWindowSecs < nowEpoch now - createdTime ∧
    ¬ nowEpoch now + futureSkewSecs < createdTime

/-! ## The cache -/

def maxEntries : ℕ := 50000

def maxEntriesPerSigner : ℕ := 5000

inductive ReplayError where
  | duplicate
  | full
deriving DecidableEq, Repr

/-- A signer and an id. -/
abbrev ReplayKey := String × String

/-- `ReplayCache`, with the pairs of its lock. -/
structure ReplayCache where
  seen : Table ReplayKey ℕ
  order : List (ℕ × ReplayKey)
  perSigner : Table String ℕ

namespace ReplayCache

def new : ReplayCache := ⟨∅, [], ∅⟩

/-- The counter update of `expire`.  There is no result where `*n -= 1` underflows. -/
def release (signer : String) (perSigner : Table String ℕ) : Option (Table String ℕ) :=
  match perSigner.lookup signer with
  | none => some perSigner
  | some 0 => none
  | some (n + 1) =>
      some (if n = 0 then perSigner.erase signer else perSigner.insert signer n)

/-- The loop of `expire` over the queue. -/
def expireLoop (now : ℕ) (seen : Table ReplayKey ℕ) (perSigner : Table String ℕ) :
    List (ℕ × ReplayKey) → Option ReplayCache
  | [] => some ⟨seen, [], perSigner⟩
  | (time, key) :: order =>
      if now - time ≤ replayWindowSecs then
        some ⟨seen, (time, key) :: order, perSigner⟩
      else
        (release key.1 perSigner).bind fun perSigner =>
          expireLoop now (seen.erase key) perSigner order

def expire (c : ReplayCache) (now : ℕ) : Option ReplayCache :=
  expireLoop now c.seen c.perSigner c.order

/-- The pair is accepted. -/
def remember (c : ReplayCache) (signer id : String) (now : ℕ) : ReplayCache where
  seen := c.seen.insert (signer, id) now
  order := c.order ++ [(now, (signer, id))]
  perSigner := c.perSigner.insert signer ((c.perSigner.lookup signer).getD 0 + 1)

def checkAt (c : ReplayCache) (signer id : String) (now : ℕ) :
    Option (Except ReplayError Unit × ReplayCache) :=
  (c.expire now).map fun c =>
    if (c.seen.lookup (signer, id)).isSome then (.error .duplicate, c)
    else if maxEntries ≤ c.seen.entries.length ||
        maxEntriesPerSigner ≤ (c.perSigner.lookup signer).getD 0 then
      (.error .full, c)
    else (.ok (), c.remember signer id now)

/-! ## The three structures -/

/-- How many ids of the signer are live. -/
def liveCount (c : ReplayCache) (signer : String) : ℕ :=
  (Table.rows c.seen).countP fun row => row.1.1 = signer

/-- The queue holds the pairs that were seen, and each counter counts the live ids of
its signer. -/
structure Consistent (c : ReplayCache) : Prop where
  queue : (Table.rows c.seen).Perm (c.order.map Prod.swap)
  counted : ∀ signer, (c.perSigner.lookup signer).getD 0 = c.liveCount signer
  positive : ∀ signer, c.perSigner.lookup signer ≠ some 0

theorem consistent_new : new.Consistent where
  queue := .refl _
  counted := fun _ => rfl
  positive := fun _ h => nomatch h

section Consistency

variable {c : ReplayCache} (h : c.Consistent)

include h

theorem Consistent.lookup_iff {key : ReplayKey} {time : ℕ} :
    c.seen.lookup key = some time ↔ (time, key) ∈ c.order := by
  rw [← Table.mem_rows, h.queue.mem_iff, List.mem_map]
  constructor
  · rintro ⟨⟨time', key'⟩, hmem, heq⟩
    cases heq
    exact hmem
  · intro hmem
    exact ⟨(time, key), hmem, rfl⟩

theorem Consistent.remember {signer id : String} (now : ℕ)
    (hnew : c.seen.lookup (signer, id) = none) : (c.remember signer id now).Consistent := by
  have hrows : Table.rows (c.remember signer id now).seen =
      ((signer, id), now) :: Table.rows c.seen := Table.rows_insert_of_lookup now hnew
  refine ⟨?_, fun other => ?_, fun other hzero => ?_⟩
  · rw [hrows]
    unfold ReplayCache.remember
    rw [List.map_append]
    exact (h.queue.cons _).trans (List.perm_append_singleton _ _).symm
  · unfold liveCount
    rw [hrows, List.countP_cons]
    have hcount := h.counted other
    unfold liveCount at hcount
    unfold ReplayCache.remember
    rw [Table.lookup_insert_ite]
    by_cases hother : other = signer
    · subst hother
      simp [hcount]
    · have hsigner : ¬ signer = other := fun heq => hother heq.symm
      simp [hother, hsigner, hcount]
  · unfold ReplayCache.remember at hzero
    rcases Table.lookup_insert_cases hzero with ⟨-, hcount⟩ | hold
    · exact nomatch hcount
    · exact h.positive other hold

end Consistency

/-- Dropping the front of the queue keeps the structures in step, and the counter does
not underflow. -/
theorem Consistent.release {seen : Table ReplayKey ℕ} {time : ℕ} {key : ReplayKey}
    {order : List (ℕ × ReplayKey)} {perSigner : Table String ℕ}
    (h : Consistent ⟨seen, (time, key) :: order, perSigner⟩) :
    ∃ perSigner', ReplayCache.release key.1 perSigner = some perSigner' ∧
      Consistent ⟨seen.erase key, order, perSigner'⟩ := by
  have hheld : seen.lookup key = some time := h.lookup_iff.mpr List.mem_cons_self
  have hperm : (Table.rows seen).Perm ((key, time) :: Table.rows (seen.erase key)) :=
    Table.rows_perm_erase hheld
  have hqueue : (Table.rows (seen.erase key)).Perm (order.map Prod.swap) :=
    (hperm.symm.trans h.queue).cons_inv
  have hcount : ∀ signer, (perSigner.lookup signer).getD 0 =
      (Table.rows (seen.erase key)).countP (fun row => row.1.1 = signer) +
        if key.1 = signer then 1 else 0 := by
    intro signer
    rw [h.counted signer]
    unfold liveCount
    rw [hperm.countP_eq, List.countP_cons]
    simp
  obtain ⟨n, hn⟩ : ∃ n, perSigner.lookup key.1 = some (n + 1) := by
    have hsigner := hcount key.1
    rw [if_pos rfl] at hsigner
    cases hlookup : perSigner.lookup key.1 with
    | none =>
        rw [hlookup, Option.getD_none] at hsigner
        omega
    | some m =>
        rw [hlookup, Option.getD_some] at hsigner
        exact ⟨_, congrArg some hsigner⟩
  have hleft : (Table.rows (seen.erase key)).countP (fun row => row.1.1 = key.1) = n := by
    have hsigner := hcount key.1
    rw [hn, Option.getD_some, if_pos rfl] at hsigner
    omega
  refine ⟨if n = 0 then perSigner.erase key.1 else perSigner.insert key.1 n, ?_, hqueue, ?_, ?_⟩
  · unfold ReplayCache.release
    rw [hn]
  · intro signer
    have hsigner := hcount signer
    change _ = (Table.rows (seen.erase key)).countP fun row => row.1.1 = signer
    by_cases hsame : signer = key.1
    · subst hsame
      rw [hleft]
      by_cases hzero : n = 0
      · simp [hzero]
      · simp [hzero]
    · have hkey : ¬ key.1 = signer := fun heq => hsame heq.symm
      rw [if_neg hkey, Nat.add_zero] at hsigner
      rw [← hsigner]
      split
      · simp only [Table.lookup_erase_ite, if_neg hsame]
      · simp only [Table.lookup_insert_ite, if_neg hsame]
  · intro signer hzero
    have hpositive := h.positive signer
    by_cases hsame : signer = key.1
    · subst hsame
      split at hzero
      · simp at hzero
      · simp at hzero
        contradiction
    · split at hzero
      · simp only [Table.lookup_erase_ite, if_neg hsame] at hzero
        exact hpositive hzero
      · simp only [Table.lookup_insert_ite, if_neg hsame] at hzero
        exact hpositive hzero

/-! ## Expiry -/

/-- A pair of the queue that is still remembered at `now`. -/
def live (now : ℕ) (entry : ℕ × ReplayKey) : Bool :=
  now - entry.1 ≤ replayWindowSecs

/-- The pairs of the queue in the order of their times. -/
def Ordered (c : ReplayCache) : Prop :=
  c.order.Pairwise fun a b => a.1 ≤ b.1

/-- Expiry never fails, drops exactly the expired pairs and keeps the structures in
step. -/
theorem expireLoop_spec (now : ℕ) {seen : Table ReplayKey ℕ} {perSigner : Table String ℕ}
    {order : List (ℕ × ReplayKey)} (h : Consistent ⟨seen, order, perSigner⟩)
    (hordered : order.Pairwise fun a b => a.1 ≤ b.1) :
    ∃ c, expireLoop now seen perSigner order = some c ∧ c.Consistent ∧
      c.order = order.filter (live now) := by
  induction order generalizing seen perSigner with
  | nil => exact ⟨_, rfl, h, rfl⟩
  | cons entry order ih =>
      obtain ⟨time, key⟩ := entry
      obtain ⟨hfirst, hrest⟩ := List.pairwise_cons.mp hordered
      unfold expireLoop
      by_cases hlive : now - time ≤ replayWindowSecs
      · rw [if_pos hlive]
        refine ⟨_, rfl, h, ?_⟩
        symm
        rw [List.filter_eq_self]
        intro later hlater
        have htime : time ≤ later.1 := by
          rcases List.mem_cons.mp hlater with rfl | hmem
          · exact le_rfl
          · exact hfirst later hmem
        unfold live
        rw [decide_eq_true_eq]
        omega
      · rw [if_neg hlive]
        obtain ⟨perSigner', hrelease, hconsistent⟩ := h.release
        obtain ⟨c, hloop, hc, horder⟩ := ih hconsistent hrest
        refine ⟨c, ?_, hc, ?_⟩
        · rw [hrelease, Option.bind_some]
          exact hloop
        · have hdead : live now (time, key) = false := decide_eq_false hlive
          rw [horder, List.filter_cons, hdead]
          rfl

theorem expire_spec (now : ℕ) {c : ReplayCache} (h : c.Consistent) (hordered : c.Ordered) :
    ∃ c', c.expire now = some c' ∧ c'.Consistent ∧ c'.order = c.order.filter (live now) :=
  expireLoop_spec now h hordered

/-- What a check does: it drops the expired pairs, and then either refuses and changes
nothing or accepts a pair that is not remembered. -/
theorem checkAt_spec (signer id : String) (now : ℕ) {c : ReplayCache} (h : c.Consistent)
    (hordered : c.Ordered) :
    ∃ c', c.expire now = some c' ∧ c'.Consistent ∧ c'.order = c.order.filter (live now) ∧
      ((∃ e, c.checkAt signer id now = some (.error e, c')) ∨
        c'.seen.lookup (signer, id) = none ∧
          c.checkAt signer id now = some (.ok (), c'.remember signer id now)) := by
  obtain ⟨c', hexpire, hc, horder⟩ := expire_spec now h hordered
  refine ⟨c', hexpire, hc, horder, ?_⟩
  unfold checkAt
  rw [hexpire, Option.map_some]
  by_cases hseen : (c'.seen.lookup (signer, id)).isSome = true
  · rw [if_pos hseen]
    exact Or.inl ⟨_, rfl⟩
  · rw [if_neg hseen]
    split
    · exact Or.inl ⟨_, rfl⟩
    · exact Or.inr ⟨by simpa using hseen, rfl⟩

end ReplayCache

/-! ## Runs of checks -/

/-- A call of `check` and the clock reading it makes. -/
structure ReplayCheck where
  now : ℕ
  signer : String
  id : String
deriving DecidableEq, Repr

/-- The pair a call is about. -/
def ReplayCheck.key (k : ReplayCheck) : ReplayKey := (k.signer, k.id)

/-- The cache and the calls it has accepted. -/
structure ReplayRun where
  cache : ReplayCache
  accepted : List ReplayCheck

namespace ReplayRun

/-- One call of `check`. -/
def step (r : ReplayRun) (k : ReplayCheck) : Option ReplayRun :=
  (r.cache.checkAt k.signer k.id (nowEpoch k.now)).map fun
    | (.ok _, cache) => ⟨cache, r.accepted ++ [k]⟩
    | (.error _, cache) => ⟨cache, r.accepted⟩

/-- Calls one after another. -/
def exec (r : ReplayRun) : List ReplayCheck → Option ReplayRun
  | [] => some r
  | k :: checks => (r.step k).bind (exec · checks)

/-- A service that has just started. -/
def initial : ReplayRun := ⟨.new, []⟩

/-- A second acceptance of a pair comes after the window of the first. -/
def Apart (a b : ReplayCheck) : Prop :=
  a.key = b.key → replayWindowSecs < nowEpoch b.now - nowEpoch a.now

/-- What holds after calls up to the reading `clock`. -/
structure Inv (clock : ℕ) (r : ReplayRun) : Prop where
  consistent : r.cache.Consistent
  ordered : r.cache.Ordered
  reached : ∀ entry ∈ r.cache.order, entry.1 ≤ nowEpoch clock
  remembered : ∀ a ∈ r.accepted, replayWindowSecs < nowEpoch clock - nowEpoch a.now ∨
    (nowEpoch a.now, a.key) ∈ r.cache.order
  apart : r.accepted.Pairwise Apart

theorem inv_initial (clock : ℕ) : Inv clock initial where
  consistent := ReplayCache.consistent_new
  ordered := .nil
  reached := fun _ h => absurd h List.not_mem_nil
  remembered := fun _ h => absurd h List.not_mem_nil
  apart := .nil

theorem nowEpoch_mono {a b : ℕ} (h : a ≤ b) : nowEpoch a ≤ nowEpoch b :=
  Nat.div_le_div_right h

theorem Inv.expired {clock now : ℕ} {r : ReplayRun} {cache : ReplayCache} (h : Inv clock r)
    (hclock : clock ≤ now) (hcache : cache.Consistent)
    (horder : cache.order = r.cache.order.filter (ReplayCache.live (nowEpoch now))) :
    Inv now ⟨cache, r.accepted⟩ := by
  have hle : nowEpoch clock ≤ nowEpoch now := nowEpoch_mono hclock
  refine ⟨hcache, ?_, ?_, ?_, h.apart⟩
  · change cache.order.Pairwise fun a b => a.1 ≤ b.1
    rw [horder]
    exact h.ordered.sublist List.filter_sublist
  · intro entry hmem
    change entry ∈ cache.order at hmem
    rw [horder] at hmem
    exact Nat.le_trans (h.reached entry (List.mem_filter.mp hmem).1) hle
  · intro a ha
    rcases h.remembered a ha with hpast | hqueued
    · exact Or.inl (by omega)
    · by_cases hlive : nowEpoch now - nowEpoch a.now ≤ replayWindowSecs
      · right
        change _ ∈ cache.order
        rw [horder]
        exact List.mem_filter.mpr ⟨hqueued, decide_eq_true hlive⟩
      · exact Or.inl (by omega)

theorem Inv.remember {k : ReplayCheck} {r : ReplayRun} (h : Inv k.now r)
    (hnew : r.cache.seen.lookup k.key = none) :
    Inv k.now ⟨r.cache.remember k.signer k.id (nowEpoch k.now), r.accepted ++ [k]⟩ := by
  refine ⟨h.consistent.remember _ hnew, ?_, ?_, ?_, ?_⟩
  · refine List.pairwise_append.mpr ⟨h.ordered, List.pairwise_singleton _ _, ?_⟩
    intro entry hentry last hlast
    rw [List.mem_singleton.mp hlast]
    exact h.reached entry hentry
  · intro entry hmem
    rcases List.mem_append.mp hmem with hold | hlast
    · exact h.reached entry hold
    · rw [List.mem_singleton.mp hlast]
  · intro a ha
    rcases List.mem_append.mp ha with hold | hlast
    · exact (h.remembered a hold).imp_right fun hmem => List.mem_append_left _ hmem
    · rw [List.mem_singleton.mp hlast]
      exact Or.inr (List.mem_append_right _ List.mem_cons_self)
  · refine List.pairwise_append.mpr ⟨h.apart, List.pairwise_singleton _ _, ?_⟩
    intro a ha last hlast
    rw [List.mem_singleton.mp hlast]
    intro hkey
    -- a pair that is still queued would have been seen
    rcases h.remembered a ha with hpast | hqueued
    · exact hpast
    · have hseen := h.consistent.lookup_iff.mpr hqueued
      rw [hkey, hnew] at hseen
      contradiction

/-- One call keeps the invariant, and no counter underflows in it. -/
theorem step_inv {clock : ℕ} {r : ReplayRun} (h : Inv clock r) {k : ReplayCheck}
    (hclock : clock ≤ k.now) : ∃ r', r.step k = some r' ∧ Inv k.now r' := by
  obtain ⟨c', -, hc, horder, hcheck⟩ :=
    ReplayCache.checkAt_spec k.signer k.id (nowEpoch k.now) h.consistent h.ordered
  have hexpired := h.expired hclock hc horder
  unfold step
  rcases hcheck with ⟨e, hrefused⟩ | ⟨hnew, haccepted⟩
  · rw [hrefused]
    exact ⟨_, rfl, hexpired⟩
  · rw [haccepted]
    exact ⟨_, rfl, hexpired.remember hnew⟩

/-- A run under a clock that does not go back keeps the invariant. -/
theorem exec_inv {checks : List ReplayCheck} {clock : ℕ} {r : ReplayRun} (h : Inv clock r)
    (hfrom : ∀ k ∈ checks, clock ≤ k.now)
    (hclock : checks.Pairwise fun a b => a.now ≤ b.now) :
    ∃ r' clock', r.exec checks = some r' ∧ Inv clock' r' := by
  induction checks generalizing clock r with
  | nil => exact ⟨r, clock, rfl, h⟩
  | cons k checks ih =>
      obtain ⟨hnext, hrest⟩ := List.pairwise_cons.mp hclock
      obtain ⟨r', hstep, hinv⟩ := step_inv h (hfrom k List.mem_cons_self)
      obtain ⟨r'', clock', hexec, hinv'⟩ := ih hinv hnext hrest
      refine ⟨r'', clock', ?_, hinv'⟩
      unfold exec
      rw [hstep, Option.bind_some]
      exact hexec

/-! ## Copies of an accepted message -/

/-- A document that was fresh before its acceptance is stale once the pair is
forgotten. -/
theorem Apart.document {a b : ReplayCheck} (h : Apart a b) (hkey : a.key = b.key)
    {arrived : ℕ} (harrived : arrived ≤ a.now) {issuedAt : ℤ}
    (hfresh : freshDocument arrived issuedAt) : ¬ freshDocument b.now issuedAt := by
  intro hcopy
  have hapart := h hkey
  unfold freshDocument freshnessWindowSecs futureSkewSecs nanosPerSec at hfresh hcopy
  unfold replayWindowSecs freshnessWindowSecs futureSkewSecs nowEpoch nanosPerSec at hapart
  omega

theorem Apart.message {a b : ReplayCheck} (h : Apart a b) (hkey : a.key = b.key)
    {arrived : ℕ} (harrived : arrived ≤ a.now) {createdTime : ℕ}
    (hfresh : freshMessage arrived createdTime) : ¬ freshMessage b.now createdTime := by
  intro hcopy
  have hapart := h hkey
  unfold freshMessage freshnessWindowSecs futureSkewSecs nowEpoch nanosPerSec at hfresh hcopy
  unfold replayWindowSecs freshnessWindowSecs futureSkewSecs nowEpoch nanosPerSec at hapart
  omega

end ReplayRun

theorem ReplayCache.checkAt_refused {c c' : ReplayCache} (h : c.Consistent) (hordered : c.Ordered)
    {signer id : String} {now : ℕ} {e : ReplayError}
    (hrefused : c.checkAt signer id now = some (.error e, c')) :
    c'.Consistent ∧ ∀ key, c'.seen.lookup key =
      (c.seen.lookup key).filter fun time => now - time ≤ replayWindowSecs := by
  obtain ⟨c₁, -, hc₁, horder, hcheck⟩ := checkAt_spec signer id now h hordered
  have hsame : c' = c₁ := by
    rcases hcheck with ⟨e', heq⟩ | ⟨-, heq⟩
    · rw [hrefused] at heq
      cases heq
      rfl
    · rw [hrefused] at heq
      exact nomatch congrArg (Option.map Prod.fst) heq
  subst hsame
  refine ⟨hc₁, fun key => ?_⟩
  ext time
  rw [Option.filter_eq_some_iff, hc₁.lookup_iff, h.lookup_iff, horder,
    List.mem_filter]
  rfl

/-- For every sequence of checks under a clock that does not go back: no counter
underflows, the three structures stay in step, no pair is accepted a second time while
a copy of the first message is fresh, and a refused check only drops expired pairs. -/
theorem replay_protected (checks : List ReplayCheck)
    (hclock : checks.Pairwise fun a b => a.now ≤ b.now) :
    ∃ r, ReplayRun.initial.exec checks = some r ∧ r.cache.Consistent ∧
      (r.accepted.Pairwise fun a b => a.key = b.key → ∀ arrived ≤ a.now,
        (∀ issuedAt, freshDocument arrived issuedAt → ¬ freshDocument b.now issuedAt) ∧
        ∀ createdTime, freshMessage arrived createdTime → ¬ freshMessage b.now createdTime) ∧
      ∀ signer id now e c, r.cache.checkAt signer id now = some (.error e, c) →
        c.Consistent ∧ ∀ key, c.seen.lookup key =
          (r.cache.seen.lookup key).filter fun time => now - time ≤ replayWindowSecs := by
  obtain ⟨r, clock, hexec, hinv⟩ := ReplayRun.exec_inv (ReplayRun.inv_initial 0)
    (fun _ _ => Nat.zero_le _) hclock
  refine ⟨r, hexec, hinv.consistent, ?_, ?_⟩
  · refine hinv.apart.imp fun {a b} hapart hkey arrived harrived => ⟨?_, ?_⟩
    · exact fun _ hfresh => hapart.document hkey harrived hfresh
    · exact fun _ hfresh => hapart.message hkey harrived hfresh
  · intro signer id now e c hrefused
    exact ReplayCache.checkAt_refused hinv.consistent hinv.ordered hrefused

/-- A pair that is sent twice within a second is accepted once. -/
theorem replay_protected_resent :
    ∃ r, ReplayRun.initial.exec
      [⟨1000 * nanosPerSec, "did:a", "m"⟩, ⟨1001 * nanosPerSec, "did:a", "m"⟩] = some r ∧
      r.cache.Consistent ∧ r.accepted = [⟨1000 * nanosPerSec, "did:a", "m"⟩] := by
  obtain ⟨r, hexec, hconsistent, -⟩ := replay_protected
    [⟨1000 * nanosPerSec, "did:a", "m"⟩, ⟨1001 * nanosPerSec, "did:a", "m"⟩] (by decide)
  refine ⟨r, hexec, hconsistent, ?_⟩
  have haccepted : (ReplayRun.initial.exec
      [⟨1000 * nanosPerSec, "did:a", "m"⟩, ⟨1001 * nanosPerSec, "did:a", "m"⟩]).map
        (·.accepted) = some [⟨1000 * nanosPerSec, "did:a", "m"⟩] := by
    decide +kernel
  rw [hexec] at haccepted
  exact Option.some.inj haccepted

end DidHosting
