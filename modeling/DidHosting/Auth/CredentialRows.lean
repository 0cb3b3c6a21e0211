import DidHosting.Support.Confined
import DidHosting.Auth.Credential

/-!
# What the rows of credentials keep to

The store of one purpose, whatever handlers make of it: which accesses fit together, what
the rows then agree on, and what stays true once it is.
-/

namespace DidHosting

namespace Auth

namespace CredentialStore

/-- A credential was revoked, or a revocation is under way: no row leads from it. -/
def Gone (s : CredentialStore) (c : String) : Prop :=
  s.creds.lookup c = none ∧ (c ∈ s.removing ∨ .revoked c ∈ s.log)

structure Kept (s : CredentialStore) : Prop where
  keyed : ∀ uuid u, s.users.lookup uuid = some u → u.userUuid = uuid
  /-- The DID of a user leads to it. -/
  didRow : ∀ uuid u, s.users.lookup uuid = some u → s.dids.lookup u.did = some uuid
  didUser : ∀ did uuid, s.dids.lookup did = some uuid →
    ∃ u, s.users.lookup uuid = some u ∧ u.did = did
  /-- A credential leads to a user that lists it. -/
  mapped : ∀ c uuid, s.creds.lookup c = some uuid →
    ∃ u, s.users.lookup uuid = some u ∧ c ∈ u.credIds
  /-- A listed credential leads to its user, unless its revocation is under way. -/
  listed : ∀ uuid u c, s.users.lookup uuid = some u → c ∈ u.credIds →
    s.creds.lookup c = some uuid ∨ c ∈ s.removing
  single : ∀ uuid uuid' u u' c, s.users.lookup uuid = some u → s.users.lookup uuid' = some u' →
    c ∈ u.credIds → c ∈ u'.credIds → uuid = uuid'
  removing : ∀ c, c ∈ s.removing → s.creds.lookup c = none
  revoked : ∀ c, .revoked c ∈ s.log →
    s.creds.lookup c = none ∧ ∀ uuid u, s.users.lookup uuid = some u → c ∉ u.credIds
  enrolled : ∀ uuid c, .enrolled uuid c ∈ s.log →
    .revoked c ∈ s.log ∨ ∃ u, s.users.lookup uuid = some u ∧ c ∈ u.credIds

theorem kept_new : Kept new := by
  constructor <;> intros <;> simp_all [new]

/-- How the store grows. -/
structure Grows (s t : CredentialStore) : Prop where
  log : s.log <+: t.log
  users : ∀ uuid u, s.users.lookup uuid = some u →
    ∃ u', t.users.lookup uuid = some u' ∧ u'.did = u.did
  gone : ∀ c, s.Gone c → t.Gone c

theorem Grows.refl (s : CredentialStore) : Grows s s :=
  ⟨List.prefix_rfl, fun _ u h => ⟨u, h, rfl⟩, fun _ h => h⟩

theorem Grows.trans {s t u : CredentialStore} (hst : Grows s t) (htu : Grows t u) : Grows s u where
  log := hst.log.trans htu.log
  users uuid a ha := by
    obtain ⟨b, hb, hbdid⟩ := hst.users uuid a ha
    obtain ⟨c, hc, hcdid⟩ := htu.users uuid b hb
    exact ⟨c, hc, hcdid.trans hbdid⟩
  gone c h := htu.gone c (hst.gone c h)

/-! ## Conditions on an access -/

/-- The stored record still lists the credentials of the copy. -/
def current (s : CredentialStore) (copied : PasskeyUser) : Bool :=
  (s.users.lookup copied.userUuid).any fun u => u.did = copied.did && u.credIds = copied.credIds

/-- The copy a new credential is added to is current: the record that was read, or none
when the subject still has none. -/
def currentFor (s : CredentialStore) (copied : Option PasskeyUser) (user : PasskeyUser) : Bool :=
  match copied with
  | some old => s.current old
  | none => (s.dids.lookup user.did).isNone && (s.users.lookup user.userUuid).isNone

/-- Nothing is known of a credential. -/
def fresh (s : CredentialStore) (c : String) : Bool :=
  (s.creds.lookup c).isNone && !s.removing.contains c &&
    s.log.all fun f =>
      match f with
      | .enrolled _ c' => c' ≠ c
      | .revoked c' => c' ≠ c

/-- What an access asks of the store. -/
def Meets : CredentialAccess → CredentialStore → Prop
  | .putUser copied _ _, s => s.current copied = true
  | .bind copied user c, s => s.currentFor copied user = true ∧ s.fresh c = true
  | _, _ => True

def protocol : Protocol CredentialStore CredentialAccess where
  Inv := Kept
  Grows := Grows
  Meets := Meets
  grows_refl := Grows.refl
  grows_trans _ _ _ := Grows.trans

theorem current_eq {s : CredentialStore} {copied : PasskeyUser} (h : s.current copied = true) :
    ∃ u, s.users.lookup copied.userUuid = some u ∧ u.did = copied.did ∧
      u.credIds = copied.credIds := by
  obtain ⟨u, hu, hsame⟩ := (Option.any_eq_true _ _).mp h
  obtain ⟨hdid, hcreds⟩ := Bool.and_eq_true_iff.mp hsame
  exact ⟨u, hu, of_decide_eq_true hdid, of_decide_eq_true hcreds⟩

/-- A new credential is in no row, no list and no entry of the log. -/
structure Unknown (s : CredentialStore) (c : String) : Prop where
  noRow : s.creds.lookup c = none
  notRemoving : c ∉ s.removing
  notRevoked : .revoked c ∉ s.log
  notEnrolled : ∀ uuid, .enrolled uuid c ∉ s.log
  notListed : ∀ uuid u, s.users.lookup uuid = some u → c ∉ u.credIds

theorem unknown_of_fresh {s : CredentialStore} (hs : s.Kept) {c : String}
    (h : s.fresh c = true) : s.Unknown c := by
  obtain ⟨hrows, hlog⟩ := Bool.and_eq_true_iff.mp h
  obtain ⟨hrow, hremoving⟩ := Bool.and_eq_true_iff.mp hrows
  have hnone : s.creds.lookup c = none := Option.isNone_iff_eq_none.mp hrow
  have hnot : c ∉ s.removing := by
    intro hmem
    rw [List.contains_iff_mem.mpr hmem] at hremoving
    cases hremoving
  have hfacts := List.all_eq_true.mp hlog
  refine ⟨hnone, hnot, ?_, ?_, ?_⟩
  · intro hmem
    exact of_decide_eq_true (hfacts _ hmem) rfl
  · intro uuid hmem
    exact of_decide_eq_true (hfacts _ hmem) rfl
  · intro uuid u hu hc
    rcases hs.listed uuid u c hu hc with hmapped | hmem
    · rw [hnone] at hmapped
      cases hmapped
    · exact hnot hmem

/-! ## What one access does -/

/-- The record is the copy with other credentials. -/
structure Rewrites (copied user : PasskeyUser) (ids : List String) : Prop where
  userUuid : user.userUuid = copied.userUuid
  did : user.did = copied.did
  credIds : user.credIds = ids

/-- The access is one that the handlers make. -/
def WellMade : CredentialAccess → Prop
  | .putUser copied user .used => Rewrites copied user copied.credIds
  | .putUser copied user (.revoked c) =>
      c ∈ copied.credIds ∧ Rewrites copied user (copied.credIds.filter (· ≠ c))
  | .bind none user c => user.credIds = [c]
  | .bind (some old) user c => Rewrites old user (old.credIds ++ [c])
  | _ => True

section

variable {s : CredentialStore} {copied user : PasskeyUser} {c : String}

theorem users_insert (uuid : String) :
    (s.users.insert user.userUuid user).lookup uuid =
      if uuid = user.userUuid then some user else s.users.lookup uuid :=
  Table.lookup_insert_ite _ _ _ _

/-- Records are stored under their own ids. -/
theorem keyed_insert (hs : s.Kept) {uuid : String} {v : PasskeyUser}
    (hv : (s.users.insert user.userUuid user).lookup uuid = some v) : v.userUuid = uuid := by
  rcases Table.lookup_insert_cases hv with ⟨rfl, rfl⟩ | hold
  · rfl
  · exact hs.keyed uuid v hold

theorem users_persist {u : PasskeyUser} (hstored : s.users.lookup user.userUuid = some u)
    (hdid : user.did = u.did) (uuid : String) (v : PasskeyUser)
    (hv : s.users.lookup uuid = some v) :
    ∃ v', (s.users.insert user.userUuid user).lookup uuid = some v' ∧ v'.did = v.did := by
  rw [users_insert]
  by_cases huuid : uuid = user.userUuid
  · subst huuid
    rw [hstored] at hv
    obtain rfl := Option.some.inj hv
    exact ⟨user, if_pos rfl, hdid⟩
  · exact ⟨v, by rw [if_neg huuid]; exact hv, rfl⟩

/-- The records of `t` are those of `s` without the credentials in `dropped`, from which no
row leads. -/
structure Loses (s t : CredentialStore) (dropped : String → Prop) : Prop where
  keyed : ∀ uuid v, t.users.lookup uuid = some v → v.userUuid = uuid
  back : ∀ uuid v, t.users.lookup uuid = some v → ∃ w, s.users.lookup uuid = some w ∧
    v.did = w.did ∧ ∀ c ∈ v.credIds, c ∈ w.credIds ∧ ¬dropped c
  front : ∀ uuid w, s.users.lookup uuid = some w → ∃ v, t.users.lookup uuid = some v ∧
    v.did = w.did ∧ ∀ c ∈ w.credIds, ¬dropped c → c ∈ v.credIds
  dids : t.dids = s.dids
  creds : t.creds = s.creds
  unmapped : ∀ c, dropped c → s.creds.lookup c = none
  removing : ∀ c, c ∈ t.removing ↔ c ∈ s.removing ∧ ¬dropped c
  log : ∀ f, f ∈ t.log ↔ f ∈ s.log ∨ ∃ c, dropped c ∧ f = .revoked c

theorem Kept.loses {t : CredentialStore} {dropped : String → Prop} (hs : s.Kept)
    (h : Loses s t dropped) : t.Kept where
  keyed := h.keyed
  didRow uuid v hv := by
    obtain ⟨w, hw, hdid, -⟩ := h.back uuid v hv
    rw [h.dids, hdid]
    exact hs.didRow uuid w hw
  didUser did uuid hrow := by
    rw [h.dids] at hrow
    obtain ⟨w, hw, hwdid⟩ := hs.didUser did uuid hrow
    obtain ⟨v, hv, hvdid, -⟩ := h.front uuid w hw
    exact ⟨v, hv, hvdid.trans hwdid⟩
  mapped c uuid hrow := by
    rw [h.creds] at hrow
    obtain ⟨w, hw, hwc⟩ := hs.mapped c uuid hrow
    obtain ⟨v, hv, -, hvc⟩ := h.front uuid w hw
    refine ⟨v, hv, hvc c hwc fun hdropped => ?_⟩
    rw [h.unmapped c hdropped] at hrow
    cases hrow
  listed uuid v c hv hc := by
    obtain ⟨w, hw, -, hvc⟩ := h.back uuid v hv
    obtain ⟨hwc, hkept⟩ := hvc c hc
    rw [h.creds, h.removing]
    exact (hs.listed uuid w c hw hwc).imp_right fun hremoving => ⟨hremoving, hkept⟩
  single uuid uuid' v v' c hv hv' hc hc' := by
    obtain ⟨w, hw, -, hvc⟩ := h.back uuid v hv
    obtain ⟨w', hw', -, hvc'⟩ := h.back uuid' v' hv'
    exact hs.single uuid uuid' w w' c hw hw' (hvc c hc).1 (hvc' c hc').1
  removing c hc := by
    rw [h.creds]
    exact hs.removing c ((h.removing c).mp hc).1
  revoked c hc := by
    rw [h.creds]
    rcases (h.log _).mp hc with hold | ⟨c', hdropped, heq⟩
    · obtain ⟨hrow, hlists⟩ := hs.revoked c hold
      refine ⟨hrow, fun uuid v hv hvc => ?_⟩
      obtain ⟨w, hw, -, hback⟩ := h.back uuid v hv
      exact hlists uuid w hw (hback c hvc).1
    · obtain rfl := CredentialFact.revoked.inj heq
      refine ⟨h.unmapped c hdropped, fun uuid v hv hvc => ?_⟩
      obtain ⟨w, hw, -, hback⟩ := h.back uuid v hv
      exact (hback c hvc).2 hdropped
  enrolled uuid c hc := by
    have hold : .enrolled uuid c ∈ s.log := by
      rcases (h.log _).mp hc with hold | ⟨c', -, heq⟩
      · exact hold
      · cases heq
    rcases hs.enrolled uuid c hold with hrevoked | ⟨w, hw, hwc⟩
    · exact Or.inl ((h.log _).mpr (Or.inl hrevoked))
    · by_cases hdropped : dropped c
      · exact Or.inl ((h.log _).mpr (Or.inr ⟨c, hdropped, rfl⟩))
      · obtain ⟨v, hv, -, hvc⟩ := h.front uuid w hw
        exact Or.inr ⟨v, hv, hvc c hwc hdropped⟩

/-- A record is written again without credentials that it lists. -/
theorem Loses.record {t : CredentialStore} {dropped : String → Prop} {u : PasskeyUser}
    (hs : s.Kept) (hu : s.users.lookup user.userUuid = some u) (hdid : user.did = u.did)
    (hids : ∀ c, c ∈ user.credIds ↔ c ∈ u.credIds ∧ ¬dropped c)
    (hlisted : ∀ c, dropped c → c ∈ u.credIds ∧ s.creds.lookup c = none)
    (husers : t.users = s.users.insert user.userUuid user) (hdids : t.dids = s.dids)
    (hcreds : t.creds = s.creds)
    (hremoving : ∀ c, c ∈ t.removing ↔ c ∈ s.removing ∧ ¬dropped c)
    (hlog : ∀ f, f ∈ t.log ↔ f ∈ s.log ∨ ∃ c, dropped c ∧ f = .revoked c) :
    Loses s t dropped where
  keyed uuid v hv := by
    rw [husers] at hv
    exact keyed_insert hs hv
  back uuid v hv := by
    rw [husers, users_insert] at hv
    by_cases huuid : uuid = user.userUuid
    · rw [if_pos huuid] at hv
      obtain rfl := Option.some.inj hv
      exact ⟨u, huuid ▸ hu, hdid, fun c hc => (hids c).mp hc⟩
    · rw [if_neg huuid] at hv
      refine ⟨v, hv, rfl, fun c hc => ⟨hc, fun hdropped => ?_⟩⟩
      exact huuid (hs.single _ _ v u c hv hu hc (hlisted c hdropped).1)
  front uuid w hw := by
    rw [husers, users_insert]
    by_cases huuid : uuid = user.userUuid
    · subst huuid
      rw [hu] at hw
      obtain rfl := Option.some.inj hw
      exact ⟨user, if_pos rfl, hdid, fun c hc hkept => (hids c).mpr ⟨hc, hkept⟩⟩
    · exact ⟨w, by rw [if_neg huuid]; exact hw, rfl, fun _ hc _ => hc⟩
  dids := hdids
  creds := hcreds
  unmapped c hdropped := (hlisted c hdropped).2
  removing := hremoving
  log := hlog

theorem kept_used (hs : s.Kept) (hcurrent : s.current copied = true)
    (hmade : Rewrites copied user copied.credIds) :
    (s.perform (.putUser copied user .used)).Kept ∧
      Grows s (s.perform (.putUser copied user .used)) := by
  obtain ⟨u, hu, hdid, hids⟩ := current_eq hcurrent
  rw [← hmade.userUuid] at hu
  have hdid' : user.did = u.did := hmade.did.trans hdid.symm
  have hloses : Loses s (s.perform (.putUser copied user .used)) fun _ => False :=
    Loses.record hs hu hdid' (fun c => by rw [hmade.credIds, ← hids]; simp) nofun rfl rfl rfl
      (fun c => by simp [perform]) (fun f => by simp [perform])
  exact ⟨hs.loses hloses, List.prefix_rfl, users_persist hu hdid', fun _ h => h⟩

theorem kept_revoked (hs : s.Kept) (hcurrent : s.current copied = true)
    (hlists : c ∈ copied.credIds) (hmade : Rewrites copied user (copied.credIds.filter (· ≠ c)))
    (hgone : s.Gone c) :
    (s.perform (.putUser copied user (.revoked c))).Kept ∧
      Grows s (s.perform (.putUser copied user (.revoked c))) := by
  obtain ⟨u, hu, hdid, hids⟩ := current_eq hcurrent
  rw [← hmade.userUuid] at hu
  have hdid' : user.did = u.did := hmade.did.trans hdid.symm
  have hloses : Loses s (s.perform (.putUser copied user (.revoked c))) (· = c) := by
    refine Loses.record hs hu hdid' ?_ ?_ rfl rfl rfl ?_ ?_
    · intro c'
      rw [hmade.credIds, ← hids, List.mem_filter, decide_eq_true_eq]
    · rintro _ rfl
      exact ⟨hids ▸ hlists, hgone.1⟩
    · intro c'
      exact List.mem_filter.trans (and_congr_right fun _ => decide_eq_true_iff)
    · intro f
      simp [perform]
  refine ⟨hs.loses hloses, List.prefix_append _ _, users_persist hu hdid', ?_⟩
  intro c' hc'
  refine ⟨hc'.1, ?_⟩
  rcases hc'.2 with hremoving | hrevoked
  · by_cases hsame : c' = c
    · exact Or.inr ((hloses.log _).mpr (Or.inr ⟨c', hsame, rfl⟩))
    · exact Or.inl ((hloses.removing c').mpr ⟨hremoving, hsame⟩)
  · exact Or.inr ((hloses.log _).mpr (Or.inl hrevoked))

theorem kept_removeCred (hs : s.Kept) :
    (s.perform (.removeCred c)).Kept ∧ Grows s (s.perform (.removeCred c)) ∧
      (s.perform (.removeCred c)).Gone c := by
  have hcreds : ∀ c', (s.creds.erase c).lookup c' = if c' = c then none else s.creds.lookup c' := by
    intro c'
    exact Table.lookup_erase_ite _ _ _
  have hgone : (s.creds.erase c).lookup c = none := by
    rw [hcreds, if_pos rfl]
  have hnone : ∀ c', s.creds.lookup c' = none → (s.creds.erase c).lookup c' = none := by
    intro c' h
    rw [hcreds]
    by_cases hsame : c' = c
    · rw [if_pos hsame]
    · rw [if_neg hsame]
      exact h
  refine ⟨?_, ⟨List.prefix_rfl, fun _ u h => ⟨u, h, rfl⟩, ?_⟩, hgone, Or.inl List.mem_cons_self⟩
  · constructor
    · exact hs.keyed
    · exact hs.didRow
    · exact hs.didUser
    · intro c' uuid hrow
      change (s.creds.erase c).lookup c' = some uuid at hrow
      rw [hcreds] at hrow
      by_cases hsame : c' = c
      · rw [if_pos hsame] at hrow
        cases hrow
      · rw [if_neg hsame] at hrow
        exact hs.mapped c' uuid hrow
    · intro uuid u c' hu hc'
      change (s.creds.erase c).lookup c' = some uuid ∨ c' ∈ c :: s.removing
      by_cases hsame : c' = c
      · exact Or.inr (hsame ▸ List.mem_cons_self)
      · rw [hcreds, if_neg hsame]
        rcases hs.listed uuid u c' hu hc' with hrow | hremoving
        · exact Or.inl hrow
        · exact Or.inr (List.mem_cons_of_mem _ hremoving)
    · exact hs.single
    · intro c' hc'
      rcases List.mem_cons.mp hc' with rfl | hremoving
      · exact hgone
      · exact hnone c' (hs.removing c' hremoving)
    · intro c' hc'
      obtain ⟨hrow, hlists⟩ := hs.revoked c' hc'
      exact ⟨hnone c' hrow, hlists⟩
    · exact hs.enrolled
  · intro c' hc'
    refine ⟨hnone c' hc'.1, ?_⟩
    rcases hc'.2 with hremoving | hrevoked
    · exact Or.inl (List.mem_cons_of_mem _ hremoving)
    · exact Or.inr hrevoked

/-- The DID row of a record is written again. -/
theorem kept_putUserDid {did uuid : String} {u : PasskeyUser} (hs : s.Kept)
    (hu : s.users.lookup uuid = some u) (hdid : u.did = did) :
    (s.perform (.putUserDid did uuid)).Kept ∧ Grows s (s.perform (.putUserDid did uuid)) := by
  have hrow : s.dids.lookup did = some uuid := hdid ▸ hs.didRow uuid u hu
  have hdids : ∀ did', (s.dids.insert did uuid).lookup did' = s.dids.lookup did' := by
    intro did'
    rw [Table.lookup_insert_ite]
    by_cases hsame : did' = did
    · rw [if_pos hsame, hsame, hrow]
    · rw [if_neg hsame]
  refine ⟨⟨hs.keyed, ?_, ?_, hs.mapped, hs.listed, hs.single, hs.removing, hs.revoked,
    hs.enrolled⟩, List.prefix_rfl, fun _ v h => ⟨v, h, rfl⟩, fun _ h => h⟩
  · intro uuid' v hv
    exact (hdids v.did).trans (hs.didRow uuid' v hv)
  · intro did' uuid' hrow'
    exact hs.didUser did' uuid' ((hdids did').symm.trans hrow')

/-- Adding a credential gives the record `user`: there was one with its DID and the other
credentials, or none and no row of its DID. -/
def BoundTo (s : CredentialStore) (user : PasskeyUser) (c : String) : Prop :=
  (∃ u, s.users.lookup user.userUuid = some u ∧ user.did = u.did ∧
    user.credIds = u.credIds ++ [c]) ∨
  (s.users.lookup user.userUuid = none ∧ s.dids.lookup user.did = none ∧ user.credIds = [c])

theorem before_bind {old : Option PasskeyUser}
    (hcurrent : s.currentFor old user = true) (hmade : WellMade (.bind old user c)) :
    s.BoundTo user c := by
  cases old with
  | some old =>
      left
      obtain ⟨u, hu, hdid, hids⟩ := current_eq hcurrent
      obtain ⟨huuid, hdid', hids'⟩ := hmade
      refine ⟨u, huuid ▸ hu, hdid'.trans hdid.symm, ?_⟩
      rw [hids', hids]
  | none =>
      right
      obtain ⟨hdid, huser⟩ := Bool.and_eq_true_iff.mp hcurrent
      exact ⟨Option.isNone_iff_eq_none.mp huser, Option.isNone_iff_eq_none.mp hdid, hmade⟩

theorem mem_bind (h : s.BoundTo user c) : c ∈ user.credIds := by
  rcases h with ⟨u, -, -, hids⟩ | ⟨-, -, hids⟩
  · rw [hids]
    exact List.mem_append_right _ List.mem_cons_self
  · rw [hids]
    exact List.mem_cons_self

/-- A credential of a record afterwards is the new one, or one of the record before. -/
theorem back_bind (hunknown : s.Unknown c) (h : s.BoundTo user c) (uuid : String)
    (v : PasskeyUser) (hv : (s.users.insert user.userUuid user).lookup uuid = some v)
    (c' : String) (hc' : c' ∈ v.credIds) :
    (c' = c ∧ uuid = user.userUuid) ∨
      ∃ w, s.users.lookup uuid = some w ∧ c' ∈ w.credIds ∧ c' ≠ c := by
  rw [users_insert] at hv
  by_cases huuid : uuid = user.userUuid
  · rw [if_pos huuid] at hv
    obtain rfl := Option.some.inj hv
    rcases h with ⟨u, hu, -, hids⟩ | ⟨-, -, hids⟩
    · rw [hids] at hc'
      rcases List.mem_append.mp hc' with hmem | hmem
      · refine Or.inr ⟨u, huuid ▸ hu, hmem, ?_⟩
        rintro rfl
        exact hunknown.notListed _ u hu hmem
      · exact Or.inl ⟨List.mem_singleton.mp hmem, huuid⟩
    · rw [hids] at hc'
      exact Or.inl ⟨List.mem_singleton.mp hc', huuid⟩
  · rw [if_neg huuid] at hv
    refine Or.inr ⟨v, hv, hc', ?_⟩
    rintro rfl
    exact hunknown.notListed uuid v hv hc'

/-- A record of before is still there, with its DID and its credentials. -/
theorem front_bind (h : s.BoundTo user c) (uuid : String) (w : PasskeyUser)
    (hw : s.users.lookup uuid = some w) :
    ∃ v, (s.users.insert user.userUuid user).lookup uuid = some v ∧ v.did = w.did ∧
      ∀ c', c' ∈ w.credIds → c' ∈ v.credIds := by
  rw [users_insert]
  by_cases huuid : uuid = user.userUuid
  · subst huuid
    rcases h with ⟨u, hu, hdid, hids⟩ | ⟨hnone, -, -⟩
    · rw [hu] at hw
      obtain rfl := Option.some.inj hw
      refine ⟨user, if_pos rfl, hdid, ?_⟩
      intro c' hc'
      rw [hids]
      exact List.mem_append_left _ hc'
    · rw [hnone] at hw
      cases hw
  · exact ⟨w, by rw [if_neg huuid]; exact hw, rfl, fun _ h => h⟩

theorem didRow_bind (hs : s.Kept) (h : s.BoundTo user c) (uuid : String) (v : PasskeyUser)
    (hv : (s.users.insert user.userUuid user).lookup uuid = some v) :
    (s.dids.insert user.did user.userUuid).lookup v.did = some uuid := by
  rw [users_insert] at hv
  rw [Table.lookup_insert_ite]
  by_cases huuid : uuid = user.userUuid
  · rw [if_pos huuid] at hv
    obtain rfl := Option.some.inj hv
    rw [if_pos rfl, huuid]
  · rw [if_neg huuid] at hv
    have hrow := hs.didRow uuid v hv
    have hne : v.did ≠ user.did := by
      intro hsame
      rw [hsame] at hrow
      rcases h with ⟨u, hu, hdid, -⟩ | ⟨-, hnone, -⟩
      · have hrow' := hs.didRow _ u hu
        rw [← hdid, hrow] at hrow'
        exact huuid (Option.some.inj hrow')
      · rw [hnone] at hrow
        cases hrow
    rw [if_neg hne]
    exact hrow

theorem lookup_bind_creds (c' : String) (hne : c' ≠ c) :
    (s.creds.insert c user.userUuid).lookup c' = s.creds.lookup c' :=
  AList.lookup_insert_ne hne

theorem kept_bind_rows (hs : s.Kept) (hunknown : s.Unknown c) (hbefore : s.BoundTo user c)
    (old : Option PasskeyUser) : (s.perform (.bind old user c)).Kept where
  keyed _ _ hv := keyed_insert hs hv
  didRow := didRow_bind hs hbefore
  didUser did uuid hrow := by
    rcases Table.lookup_insert_cases hrow with ⟨rfl, rfl⟩ | hold
    · exact ⟨user, AList.lookup_insert _, rfl⟩
    · obtain ⟨w, hw, hwdid⟩ := hs.didUser did uuid hold
      obtain ⟨v, hv, hvdid, -⟩ := front_bind hbefore uuid w hw
      exact ⟨v, hv, hvdid.trans hwdid⟩
  mapped c' uuid hrow := by
    rcases Table.lookup_insert_cases hrow with ⟨rfl, rfl⟩ | hold
    · exact ⟨user, AList.lookup_insert _, mem_bind hbefore⟩
    · obtain ⟨w, hw, hwc⟩ := hs.mapped c' uuid hold
      obtain ⟨v, hv, -, hvc⟩ := front_bind hbefore uuid w hw
      exact ⟨v, hv, hvc c' hwc⟩
  listed uuid v c' hv hc' := by
    rcases back_bind hunknown hbefore uuid v hv c' hc' with ⟨rfl, rfl⟩ | ⟨w, hw, hwc, hne⟩
    · exact Or.inl (AList.lookup_insert _)
    · rcases hs.listed uuid w c' hw hwc with hrow | hremoving
      · exact Or.inl ((lookup_bind_creds c' hne).trans hrow)
      · exact Or.inr hremoving
  single uuid uuid' v v' c' hv hv' hc' hc'' := by
    rcases back_bind hunknown hbefore uuid v hv c' hc' with ⟨rfl, rfl⟩ | ⟨w, hw, hwc, hne⟩
    · rcases back_bind hunknown hbefore uuid' v' hv' c' hc'' with ⟨-, rfl⟩ | ⟨w', -, -, hne'⟩
      · rfl
      · exact absurd rfl hne'
    · rcases back_bind hunknown hbefore uuid' v' hv' c' hc'' with ⟨rfl, -⟩ | ⟨w', hw', hwc', -⟩
      · exact absurd rfl hne
      · exact hs.single uuid uuid' w w' c' hw hw' hwc hwc'
  removing c' hc' := by
    have hne : c' ≠ c := by
      rintro rfl
      exact hunknown.notRemoving hc'
    exact (lookup_bind_creds c' hne).trans (hs.removing c' hc')
  revoked c' hc' := by
    have hold : .revoked c' ∈ s.log := by
      rcases List.mem_append.mp hc' with hold | hnew
      · exact hold
      · cases List.mem_singleton.mp hnew
    have hne : c' ≠ c := by
      rintro rfl
      exact hunknown.notRevoked hold
    obtain ⟨hrow, hlists⟩ := hs.revoked c' hold
    refine ⟨(lookup_bind_creds c' hne).trans hrow, ?_⟩
    intro uuid v hv hc''
    rcases back_bind hunknown hbefore uuid v hv c' hc'' with ⟨hsame, -⟩ | ⟨w, hw, hwc, -⟩
    · exact hne hsame
    · exact hlists uuid w hw hwc
  enrolled uuid c' hc' := by
    rcases List.mem_append.mp hc' with hold | hnew
    · rcases hs.enrolled uuid c' hold with hrevoked | ⟨w, hw, hwc⟩
      · exact Or.inl (List.mem_append_left _ hrevoked)
      · obtain ⟨v, hv, -, hvc⟩ := front_bind hbefore uuid w hw
        exact Or.inr ⟨v, hv, hvc c' hwc⟩
    · obtain ⟨rfl, rfl⟩ := CredentialFact.enrolled.inj (List.mem_singleton.mp hnew)
      exact Or.inr ⟨user, AList.lookup_insert _, mem_bind hbefore⟩

theorem kept_bind {old : Option PasskeyUser} (hs : s.Kept)
    (hmeets : Meets (.bind old user c) s) (hmade : WellMade (.bind old user c)) :
    (s.perform (.bind old user c)).Kept ∧ Grows s (s.perform (.bind old user c)) := by
  obtain ⟨hcurrent, hfresh⟩ := hmeets
  have hunknown := unknown_of_fresh hs hfresh
  have hbefore := before_bind hcurrent hmade
  refine ⟨kept_bind_rows hs hunknown hbefore old, List.prefix_append _ _, ?_, ?_⟩
  · intro uuid w hw
    obtain ⟨v, hv, hvdid, -⟩ := front_bind hbefore uuid w hw
    exact ⟨v, hv, hvdid⟩
  · intro c' hc'
    have hne : c' ≠ c := by
      rintro rfl
      rcases hc'.2 with hremoving | hrevoked
      · exact hunknown.notRemoving hremoving
      · exact hunknown.notRevoked hrevoked
    refine ⟨(lookup_bind_creds c' hne).trans hc'.1, ?_⟩
    rcases hc'.2 with hremoving | hrevoked
    · exact Or.inl hremoving
    · exact Or.inr (List.mem_append_left _ hrevoked)

end

end CredentialStore

end Auth

end DidHosting
