import DidHosting.Auth.Invite
import DidHosting.Support.Sections

/-!
# Lockout and single use of invites

The counter of wrong claim codes and the removal of an invite are each one step of the
store.  Saving an invite is not: it writes back what was read before.  Within one process
`ATTEMPT_LOCKS` keeps the sections of an invite apart, so that what a section has read is
still there when it saves, counts or locks out.  A section of another process can be cut by
a take, and stores the invite again.
-/

namespace DidHosting

namespace Auth

/-! ## The history of an invite -/

namespace InviteStore

/-- What the store keeps to: an invite has only so many wrong claim codes, is locked out and
taken once, and is not stored after that. -/
structure Recorded (s : InviteStore) : Prop where
  keyed : ∀ h i, s.invites.lookup h = some i → i.tokenHash = h
  counted : ∀ h, s.counted h < maxWrongCodes
  counter : ∀ h, s.takes h = 0 → s.counted h ≤ (s.wrong.lookup h).getD 0
  taken : ∀ h, s.takes h ≤ 1
  gone : ∀ h, 0 < s.takes h → s.stored h = false
  lockouts : ∀ h, s.lockouts h ≤ 1
  lockedOut : ∀ h, 0 < s.lockouts h → s.stored h = false

/-- Nothing was recorded of an invite with this token yet. -/
def unknown (s : InviteStore) (tokenHash : String) : Bool :=
  s.log.all fun f => f.tokenHash ≠ tokenHash

theorem takes_of_unknown {s : InviteStore} {h : String} (hunknown : s.unknown h = true) :
    s.takes h = 0 ∧ s.lockouts h = 0 := by
  have hne : ∀ f ∈ s.log, f.tokenHash ≠ h := fun f hf =>
    of_decide_eq_true (List.all_eq_true.mp hunknown f hf)
  refine ⟨List.countP_eq_zero.mpr fun f hf => ?_, List.countP_eq_zero.mpr fun f hf => ?_⟩
  · cases f with
    | taken by' h' => exact fun htaken => hne _ hf (of_decide_eq_true htaken)
    | _ => exact Bool.false_ne_true
  · cases f with
    | lockedOut by' h' => exact fun hlocked => hne _ hf (of_decide_eq_true hlocked)
    | _ => exact Bool.false_ne_true

/-- Rows of the index are not part of what is recorded, nor are counters of invites that
were taken. -/
theorem Recorded.of_eq {s t : InviteStore} (h : s.Recorded) (hlog : t.log = s.log)
    (hinvites : t.invites = s.invites)
    (hwrong : ∀ k, s.takes k = 0 → t.wrong.lookup k = s.wrong.lookup k) : t.Recorded := by
  have hcounted : t.counted = s.counted := by
    funext k
    rw [InviteStore.counted, InviteStore.counted, hlog]
  have htakes : t.takes = s.takes := by
    funext k
    rw [InviteStore.takes, InviteStore.takes, hlog]
  have hlockouts : t.lockouts = s.lockouts := by
    funext k
    rw [InviteStore.lockouts, InviteStore.lockouts, hlog]
  have hstored : t.stored = s.stored := by
    funext k
    rw [InviteStore.stored, InviteStore.stored, hinvites]
  constructor
  · rw [hinvites]
    exact h.keyed
  · rw [hcounted]
    exact h.counted
  · intro k hk
    rw [htakes] at hk
    rw [hcounted, hwrong k hk]
    exact h.counter k hk
  · rw [htakes]
    exact h.taken
  · rw [htakes, hstored]
    exact h.gone
  · rw [hlockouts]
    exact h.lockouts
  · rw [hlockouts, hstored]
    exact h.lockedOut

theorem lookup_insert (s : InviteStore) (i : Invite) (h : String) :
    (s.invites.insert i.tokenHash i).lookup h =
      if h = i.tokenHash then some i else s.invites.lookup h :=
  Table.lookup_insert_ite _ _ _ _

theorem takes_takeFacts (s : InviteStore) (by' : ℕ) (h : String) (why : Taking) (k : String) :
    (s.takeFacts by' h why).countP (·.isTaken k) =
      if h = k ∧ s.stored h = true then 1 else 0 := by
  unfold takeFacts
  cases s.stored h <;> cases why <;> by_cases hk : h = k <;>
    simp [InviteFact.isTaken, hk]

theorem lockouts_takeFacts (s : InviteStore) (by' : ℕ) (h : String) (why : Taking) (k : String) :
    (s.takeFacts by' h why).countP (·.isLockedOut k) =
      if h = k ∧ why = .lockout then 1 else 0 := by
  unfold takeFacts
  cases s.stored h <;> cases why <;> by_cases hk : h = k <;>
    simp [InviteFact.isLockedOut, hk]

theorem counted_takeFacts (s : InviteStore) (by' : ℕ) (h : String) (why : Taking) (k : String) :
    (s.takeFacts by' h why).countP (·.isCounted k) = 0 := by
  unfold takeFacts
  cases s.stored h <;> cases why <;> simp [InviteFact.isCounted]

end InviteStore

/-! ## What the handlers agree on -/

/-- What an access relies on: a saved invite is still stored, and so is one a wrong claim
code is counted against; an invite is locked out once. -/
def InviteAccess.Finds : InviteAccess → InviteStore → Prop
  | .putInvite i .rewrite, s => s.stored i.tokenHash = true
  | .incrWrong _ h, s => s.stored h = true
  | .takeInvite _ h .lockout, s => s.lockouts h = 0
  | _, _ => True

/-- Beside it, a new invite has a token of its own. -/
def InviteAccess.Meets (o : InviteAccess) (s : InviteStore) : Prop :=
  o.Finds s ∧ ∀ i, o = .putInvite i .issue → s.unknown i.tokenHash = true

def inviteProtocol : Protocol InviteStore InviteAccess where
  Inv := InviteStore.Recorded
  Grows s t := s.log <+: t.log
  Meets := InviteAccess.Meets
  grows_refl _ := List.prefix_rfl
  grows_trans _ _ _ hst htu := hst.trans htu

open InviteStore in
theorem recorded_issue {s : InviteStore} {i : Invite} (h : s.Recorded)
    (hnew : s.unknown i.tokenHash = true) : (s.perform (.putInvite i .issue)).Recorded := by
  obtain ⟨htakes, hlockouts⟩ := takes_of_unknown hnew
  have hcount : ∀ p : InviteFact → Bool, p (.issued i.tokenHash) = false →
      (s.perform (.putInvite i .issue)).log.countP p = s.log.countP p := by
    intro p hp
    change (s.log ++ [InviteFact.issued i.tokenHash]).countP p = _
    rw [List.countP_append, List.countP_singleton, hp]
    rfl
  have hlookup : ∀ k, (s.perform (.putInvite i .issue)).invites.lookup k =
      if k = i.tokenHash then some i else s.invites.lookup k := lookup_insert s i
  have hstored : ∀ k, k ≠ i.tokenHash → (s.perform (.putInvite i .issue)).stored k = s.stored k := by
    intro k hk
    rw [stored, hlookup, if_neg hk]
    rfl
  constructor
  · intro k found hfound
    rw [hlookup] at hfound
    by_cases hk : k = i.tokenHash
    · rw [if_pos hk] at hfound
      rw [← Option.some.inj hfound, hk]
    · rw [if_neg hk] at hfound
      exact h.keyed k found hfound
  · intro k
    rw [counted, hcount _ rfl]
    exact h.counted k
  · intro k hk
    rw [takes, hcount _ rfl] at hk
    rw [counted, hcount _ rfl]
    exact h.counter k hk
  · intro k
    rw [takes, hcount _ rfl]
    exact h.taken k
  · intro k hk
    rw [takes, hcount _ rfl] at hk
    have hne : k ≠ i.tokenHash := by
      rintro rfl
      exact absurd htakes (Nat.pos_iff_ne_zero.mp hk)
    rw [hstored k hne]
    exact h.gone k hk
  · intro k
    rw [lockouts, hcount _ rfl]
    exact h.lockouts k
  · intro k hk
    rw [lockouts, hcount _ rfl] at hk
    have hne : k ≠ i.tokenHash := by
      rintro rfl
      exact absurd hlockouts (Nat.pos_iff_ne_zero.mp hk)
    rw [hstored k hne]
    exact h.lockedOut k hk

open InviteStore in
theorem recorded_rewrite {s : InviteStore} {i : Invite} (h : s.Recorded)
    (hthere : s.stored i.tokenHash = true) : (s.perform (.putInvite i .rewrite)).Recorded := by
  have hlookup : ∀ k, (s.perform (.putInvite i .rewrite)).invites.lookup k =
      if k = i.tokenHash then some i else s.invites.lookup k := lookup_insert s i
  have hstored : ∀ k, s.stored k = false →
      (s.perform (.putInvite i .rewrite)).stored k = false := by
    intro k hgone
    have hne : k ≠ i.tokenHash := by
      rintro rfl
      rw [hthere] at hgone
      contradiction
    rw [stored, hlookup, if_neg hne]
    exact hgone
  constructor
  · intro k found hfound
    rw [hlookup] at hfound
    by_cases hk : k = i.tokenHash
    · rw [if_pos hk] at hfound
      rw [← Option.some.inj hfound, hk]
    · rw [if_neg hk] at hfound
      exact h.keyed k found hfound
  · exact h.counted
  · exact h.counter
  · exact h.taken
  · exact fun k hk => hstored k (h.gone k hk)
  · exact h.lockouts
  · exact fun k hk => hstored k (h.lockedOut k hk)

open InviteStore in
theorem recorded_takeInvite {s : InviteStore} {by' : ℕ} {k : String} {why : Taking}
    (h : s.Recorded) (honce : why = .lockout → s.lockouts k = 0) :
    (s.perform (.takeInvite by' k why)).Recorded := by
  have hlookup : ∀ k', (s.perform (.takeInvite by' k why)).invites.lookup k' =
      if k' = k then none else s.invites.lookup k' := fun k' => Table.lookup_erase_ite _ _ _
  have hgone : (s.perform (.takeInvite by' k why)).stored k = false := by
    rw [stored, hlookup, if_pos rfl]
    rfl
  have hstored : ∀ k', k' ≠ k →
      (s.perform (.takeInvite by' k why)).stored k' = s.stored k' := by
    intro k' hk
    rw [stored, hlookup, if_neg hk]
    rfl
  have htakes : ∀ k', (s.perform (.takeInvite by' k why)).takes k' =
      s.takes k' + if k = k' ∧ s.stored k = true then 1 else 0 := by
    intro k'
    rw [← takes_takeFacts s by' k why k']
    exact List.countP_append
  have hlockouts : ∀ k', (s.perform (.takeInvite by' k why)).lockouts k' =
      s.lockouts k' + if k = k' ∧ why = .lockout then 1 else 0 := by
    intro k'
    rw [← lockouts_takeFacts s by' k why k']
    exact List.countP_append
  have hcounted : ∀ k', (s.perform (.takeInvite by' k why)).counted k' = s.counted k' := by
    intro k'
    have happend : (s.perform (.takeInvite by' k why)).counted k' =
        s.counted k' + (s.takeFacts by' k why).countP (·.isCounted k') := List.countP_append
    rw [happend, counted_takeFacts, Nat.add_zero]
  constructor
  · intro k' found hfound
    rw [hlookup] at hfound
    by_cases hk : k' = k
    · rw [if_pos hk] at hfound
      contradiction
    · rw [if_neg hk] at hfound
      exact h.keyed k' found hfound
  · intro k'
    rw [hcounted]
    exact h.counted k'
  · intro k' hk'
    rw [htakes] at hk'
    rw [hcounted]
    exact h.counter k' (Nat.eq_zero_of_add_eq_zero hk').1
  · intro k'
    rw [htakes]
    by_cases hk : k = k' ∧ s.stored k = true
    · obtain ⟨rfl, hthere⟩ := hk
      -- a stored invite was not taken before
      have hnone : s.takes k = 0 := by
        by_contra hpos
        have hwas := h.gone k (Nat.pos_of_ne_zero hpos)
        rw [hthere] at hwas
        contradiction
      rw [if_pos ⟨rfl, hthere⟩, hnone]
    · rw [if_neg hk]
      exact h.taken k'
  · intro k' hk'
    by_cases hk : k' = k
    · rw [hk, hgone]
    · rw [htakes, if_neg fun heq => hk heq.1.symm] at hk'
      rw [hstored k' hk]
      exact h.gone k' hk'
  · intro k'
    rw [hlockouts]
    by_cases hk : k = k' ∧ why = .lockout
    · obtain ⟨rfl, hwhy⟩ := hk
      rw [if_pos ⟨rfl, hwhy⟩, honce hwhy]
    · rw [if_neg hk]
      exact h.lockouts k'
  · intro k' hk'
    by_cases hk : k' = k
    · rw [hk, hgone]
    · rw [hlockouts, if_neg fun heq => hk heq.1.symm] at hk'
      rw [hstored k' hk]
      exact h.lockedOut k' hk'

open InviteStore in
/-- A counter counts the wrong codes of an invite that was not taken. -/
theorem recorded_incrWrong {s : InviteStore} {by' : ℕ} {k : String} (h : s.Recorded)
    (hthere : s.stored k = true) : (s.perform (.incrWrong by' k)).Recorded := by
  have hcount : ∀ p : InviteFact → Bool, p (.counted by' k) = false →
      (s.perform (.incrWrong by' k)).log.countP p = s.log.countP p := by
    intro p hp
    change (if s.nextWrong k < maxWrongCodes then s.log ++ [InviteFact.counted by' k]
      else s.log).countP p = _
    by_cases hleft : s.nextWrong k < maxWrongCodes
    · rw [if_pos hleft, List.countP_append, List.countP_singleton, hp]
      rfl
    · rw [if_neg hleft]
  have hcounted : ∀ k', (s.perform (.incrWrong by' k)).counted k' =
      s.counted k' + if k = k' ∧ s.nextWrong k < maxWrongCodes then 1 else 0 := by
    intro k'
    change (if s.nextWrong k < maxWrongCodes then s.log ++ [InviteFact.counted by' k]
      else s.log).countP _ = _
    by_cases hleft : s.nextWrong k < maxWrongCodes
    · rw [if_pos hleft, List.countP_append, List.countP_singleton]
      change s.counted k' + _ = _
      congr 1
      by_cases hk : k = k'
      · subst hk
        simp [InviteFact.isCounted, hleft]
      · simp [InviteFact.isCounted, hk]
    · rw [if_neg hleft, if_neg fun heq => hleft heq.2]
      rfl
  have hwrong : ∀ k', (s.perform (.incrWrong by' k)).wrong.lookup k' =
      if k' = k then some (s.nextWrong k) else s.wrong.lookup k' :=
    fun k' => Table.lookup_insert_ite _ _ _ _
  have hnone : s.takes k = 0 := by
    by_contra hpos
    have hwas := h.gone k (Nat.pos_of_ne_zero hpos)
    rw [hthere] at hwas
    contradiction
  have hcounter : s.counted k + 1 ≤ s.nextWrong k := Nat.succ_le_succ (h.counter k hnone)
  constructor
  · exact h.keyed
  · intro k'
    rw [hcounted]
    by_cases hk : k = k' ∧ s.nextWrong k < maxWrongCodes
    · obtain ⟨rfl, hleft⟩ := hk
      rw [if_pos ⟨rfl, hleft⟩]
      exact hcounter.trans_lt hleft
    · rw [if_neg hk]
      exact h.counted k'
  · intro k' hk'
    rw [takes, hcount _ rfl] at hk'
    rw [hcounted, hwrong]
    by_cases hk : k' = k
    · subst hk
      rw [if_pos rfl]
      change _ ≤ s.nextWrong k'
      split
      · exact hcounter
      · exact (Nat.le_succ _).trans hcounter
    · rw [if_neg hk, if_neg fun heq => hk heq.1.symm]
      exact h.counter k' hk'
  · intro k'
    rw [takes, hcount _ rfl]
    exact h.taken k'
  · intro k' hk'
    rw [takes, hcount _ rfl] at hk'
    exact h.gone k' hk'
  · intro k'
    rw [lockouts, hcount _ rfl]
    exact h.lockouts k'
  · intro k' hk'
    rw [lockouts, hcount _ rfl] at hk'
    exact h.lockedOut k' hk'

/-- The counter of an invite that was taken is of no use. -/
theorem recorded_removeWrong {s : InviteStore} {k : String} (h : s.Recorded)
    (htaken : 0 < s.takes k) : (s.perform (.removeWrong k)).Recorded := by
  refine h.of_eq rfl rfl fun k' hk' => ?_
  change (s.wrong.erase k).lookup k' = _
  rw [Table.lookup_erase_ite, if_neg]
  rintro rfl
  omega

/-- The step lemma: an access that is made as it is asked keeps what is recorded. -/
theorem recorded_perform {s : InviteStore} {o : InviteAccess} (h : s.Recorded)
    (hmeets : o.Meets s) (htaken : ∀ k, o = .removeWrong k → 0 < s.takes k) :
    (s.perform o).Recorded := by
  cases o with
  | get => exact h
  | putInvite i why =>
      cases why with
      | issue => exact recorded_issue h (hmeets.2 i rfl)
      | rewrite => exact recorded_rewrite h hmeets.1
  | putInviteId inviteId tokenHash => exact h.of_eq rfl rfl fun _ _ => rfl
  | takeInvite by' tokenHash why =>
      refine recorded_takeInvite h ?_
      rintro rfl
      exact hmeets.1
  | removeInviteId inviteId => exact h.of_eq rfl rfl fun _ _ => rfl
  | incrWrong by' tokenHash => exact recorded_incrWrong h hmeets.1
  | removeWrong tokenHash => exact recorded_removeWrong h (htaken tokenHash rfl)

theorem log_perform (s : InviteStore) (o : InviteAccess) : s.log <+: (s.perform o).log := by
  cases o with
  | putInvite i why =>
      by_cases hwhy : why = .issue
      · simp only [InviteStore.perform, if_pos hwhy]
        exact List.prefix_append _ _
      · simp only [InviteStore.perform, if_neg hwhy]
        exact List.prefix_rfl
  | takeInvite by' k why => exact List.prefix_append _ _
  | incrWrong by' k =>
      by_cases hleft : s.nextWrong k < maxWrongCodes
      · simp only [InviteStore.perform, if_pos hleft]
        exact List.prefix_append _ _
      · simp only [InviteStore.perform, if_neg hleft]
        exact List.prefix_rfl
  | _ => exact List.prefix_rfl

/-! ## The handlers -/

section

variable {s : InviteStore} {E : InviteError → InviteStore → Prop}

theorem safe_access {α : Type} {o : InviteAccess} {f : InviteStore → α}
    {Q : α → InviteStore → Prop} (htaken : ∀ k, o = .removeWrong k → 0 < s.takes k)
    (h : ∀ t, s.log <+: t.log → Q (f t) (t.perform o)) :
    (Atomic.call o f : InviteM α).Safe inviteProtocol Q E s := by
  apply Atomic.safe_call
  intro t hgrows hinv hmeets
  refine ⟨recorded_perform hinv hmeets fun k hk => ?_, log_perform t o, h t hgrows⟩
  exact (htaken k hk).trans_le hgrows.sublist.countP_le

theorem safe_save {i : Invite} {why : Saving} {Q : Unit → InviteStore → Prop}
    (h : ∀ t, Q () t) : (save i why).Safe inviteProtocol Q E s := by
  unfold save
  refine Atomic.safe_bind (safe_access (fun _ => nofun) ?_)
  intro t _
  refine safe_access (fun _ => nofun) ?_
  intro u _
  exact h _

theorem safe_byTokenHash {k : String} {Q : Option Invite → InviteStore → Prop}
    (h : ∀ i t, Q i t) : (byTokenHash k).Safe inviteProtocol Q E s := by
  refine safe_access (fun _ => nofun) ?_
  intro t _
  exact h _ _

/-- Whoever got the invite has removed it, and a lockout is recorded. -/
theorem safe_takeLocked {me : ℕ} {k : String} {why : Taking}
    {Q : Option Invite → InviteStore → Prop}
    (hnone : ∀ t, (why = .lockout → .lockedOut me k ∈ t.log) → Q none t)
    (hsome : ∀ i t, .taken me k ∈ t.log → (why = .lockout → .lockedOut me k ∈ t.log) →
      Q (some i) t) :
    (takeLocked me k why).Safe inviteProtocol Q E s := by
  unfold takeLocked
  refine Atomic.safe_bind (safe_access (fun _ => nofun) ?_)
  intro t _
  have hlocked : why = .lockout →
      InviteFact.lockedOut me k ∈ (t.perform (.takeInvite me k why)).log := by
    rintro rfl
    exact List.mem_append_right _ (List.mem_append_right _ List.mem_cons_self)
  cases hfound : t.invites.lookup k with
  | none => exact hnone _ hlocked
  | some i =>
      have hthere : t.stored k = true := by
        rw [InviteStore.stored, hfound]
        rfl
      have htaken : InviteFact.taken me k ∈ (t.perform (.takeInvite me k why)).log := by
        refine List.mem_append_right _ (List.mem_append_left _ ?_)
        rw [if_pos hthere]
        exact List.mem_cons_self
      refine Atomic.safe_bind (safe_access (fun _ => nofun) ?_)
      intro u hu
      refine Atomic.safe_bind (safe_access ?_ ?_)
      · rintro _ ⟨⟩
        exact List.countP_pos_iff.mpr ⟨_, hu.subset htaken, decide_eq_true rfl⟩
      · intro v hv
        apply hsome i
        · exact hv.subset (hu.subset htaken)
        · exact fun hwhy => hv.subset (hu.subset (hlocked hwhy))

theorem safe_redeem {L : InviteLibs} {me process : ℕ} {token claimCode : String}
    {Q : Redemption → InviteStore → Prop} (h : ∀ r t, r ≠ .tooManyAttempts → Q r t)
    (hmany : ∀ t, .lockedOut me (L.hashToken token) ∈ t.log → Q .tooManyAttempts t) :
    (redeem L me process token claimCode).Safe inviteProtocol Q E s := by
  unfold redeem
  refine Atomic.safe_draw_bind ?_
  intro env
  refine Atomic.safe_bind (safe_byTokenHash ?_)
  intro found t
  by_cases hthere : (found.any fun i => !i.isExpired env.now) = true
  · simp only [if_pos hthere]
    refine Atomic.safe_locked ?_
    unfold redeemLocked
    refine Atomic.safe_bind (safe_byTokenHash ?_)
    intro found' u
    cases found'.filter fun i => !i.isExpired env.now with
    | none => exact h .invalid u nofun
    | some i =>
        by_cases hcode : verifyClaimCode L i.claim claimCode = true
        · simp only [if_pos hcode]
          exact h (.valid i) u nofun
        · simp only [if_neg hcode]
          unfold countWrong
          refine Atomic.safe_bind (safe_access (fun _ => nofun) ?_)
          intro v _
          by_cases hlast : maxWrongCodes ≤ v.nextWrong (L.hashToken token)
          · simp only [if_pos hlast]
            refine Atomic.safe_bind (safe_takeLocked ?_ ?_)
            · intro w hlocked
              exact hmany w (hlocked rfl)
            · intro _ w _ hlocked
              exact hmany w (hlocked rfl)
          · simp only [if_neg hlast]
            refine Atomic.safe_bind (safe_save ?_)
            intro w
            exact h .invalid w nofun
  · simp only [if_neg hthere]
    exact h .invalid t nofun

end

/-- The accesses that `ATTEMPT_LOCKS` of a process keeps apart. -/
def inviteConduct (process : ℕ) : Conduct InviteStore InviteAccess InviteLock where
  needs
    | .putInvite i .rewrite => some (.attempts process i.tokenHash)
    | .takeInvite _ h _ => some (.attempts process h)
    | .incrWrong _ h => some (.attempts process h)
    | _ => none
  finds := InviteAccess.Finds

/-- A handler of a process whose sections are under its locks. -/
abbrev Guarded (process : ℕ) (outer : List InviteLock) {α : Type} (p : InviteM α)
    (Q : α → InviteStore → Prop) (s : InviteStore) : Prop :=
  p.Careful (inviteConduct process) InviteStore.Recorded outer Q outer s

section

variable {process : ℕ} {outer : List InviteLock} {s : InviteStore}

end

/-! ## The processes -/

theorem recorded_new : InviteStore.new.Recorded where
  keyed _ _ hfound := nomatch hfound
  counted _ := Nat.zero_lt_succ 4
  counter _ _ := Nat.zero_le _
  taken _ := Nat.zero_le _
  gone _ hpos := nomatch hpos
  lockouts _ := Nat.zero_le _
  lockedOut _ hpos := nomatch hpos

namespace Sample

/-- Bytes are written as their characters, and nothing is hashed. -/
def inviteLibs : InviteLibs where
  hashToken token := "#" ++ token
  hexDecode text := some (text.toList.map fun c => c.toNat.toUInt8)
  hexEncode bytes := String.ofList (bytes.map fun b => Char.ofNat b.toNat)
  argon2 text _ _ _ _ := .ok (text.toList.map fun c => c.toNat.toUInt8)

end Sample

end Auth

end DidHosting
