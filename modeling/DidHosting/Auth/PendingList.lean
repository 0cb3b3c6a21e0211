import DidHosting.Auth.PendingChallenges

/-!
# The list behind the tracker

The tracker's four structures describe one list of challenges: the entries are its members,
the queues of the DIDs its parts, the sessions those of its members that are bound, and the
expiry queue the list itself with released ids in between.  Every operation acts on the
structures as it acts on the list.
-/

namespace DidHosting

namespace Auth

open Deadlines

/-! ## Challenges -/

/-- A challenge that was issued. -/
structure Challenge where
  id : ℕ
  did : String
  expiresAt : ℕ
  session : Option String
deriving DecidableEq, Repr

namespace Challenge

/-- Its place in the queues. -/
def slot (c : Challenge) : Slot :=
  (c.expiresAt, c.id)

def entry (c : Challenge) : Entry :=
  ⟨c.did, c.session⟩

/-- Its time has not passed. -/
def isLive (now : ℕ) (c : Challenge) : Bool :=
  decide (now < c.expiresAt)

/-- The session the challenge of the reservation was issued under. -/
def bound (reservation : ℕ) (sessionId : String) (c : Challenge) : Challenge :=
  if c.id = reservation then { c with session := some sessionId } else c

@[simp] theorem bound_id (reservation : ℕ) (sessionId : String) (c : Challenge) :
    (c.bound reservation sessionId).id = c.id := by
  unfold bound
  split_ifs <;> rfl

@[simp] theorem bound_did (reservation : ℕ) (sessionId : String) (c : Challenge) :
    (c.bound reservation sessionId).did = c.did := by
  unfold bound
  split_ifs <;> rfl

@[simp] theorem bound_expiresAt (reservation : ℕ) (sessionId : String) (c : Challenge) :
    (c.bound reservation sessionId).expiresAt = c.expiresAt := by
  unfold bound
  split_ifs <;> rfl

@[simp] theorem bound_slot (reservation : ℕ) (sessionId : String) (c : Challenge) :
    (c.bound reservation sessionId).slot = c.slot := by
  unfold slot
  rw [bound_id, bound_expiresAt]

theorem bound_of_ne {reservation : ℕ} {sessionId : String} {c : Challenge}
    (h : c.id ≠ reservation) : c.bound reservation sessionId = c :=
  if_neg h

theorem bound_of_eq {reservation : ℕ} {sessionId : String} {c : Challenge}
    (h : c.id = reservation) :
    c.bound reservation sessionId = { c with session := some sessionId } :=
  if_pos h

end Challenge

/-- The queue of the challenges of one DID; there is none without a challenge. -/
def queueOf (l : List Challenge) : Option (List Slot) :=
  if l.isEmpty then none else some (l.map Challenge.slot)

/-- The structures, but for the sessions, describe the list. -/
structure Describes (s : Inner) (l : List Challenge) : Prop where
  ids : (l.map (·.id)).Nodup
  order : InOrder Challenge.expiresAt l
  fresh : ∀ c ∈ l, c.id < s.nextId
  entries : ∀ id entry, s.entries.lookup id = some entry ↔ ∃ c ∈ l, c.id = id ∧ c.entry = entry
  perDid : ∀ did, s.perDid.lookup did = queueOf (l.filter (·.did == did))
  expiry : s.expiry.filter (fun slot => (s.entries.lookup slot.2).isSome) = l.map Challenge.slot
  expiryOrder : InOrder Prod.fst s.expiry
  expiryFresh : ∀ slot ∈ s.expiry, slot.2 < s.nextId

/-- The sessions are those of the list. -/
def SessionsOf (s : Inner) (l : List Challenge) : Prop :=
  ∀ sessionId id, s.bySession.lookup sessionId = some id ↔
    ∃ c ∈ l, c.session = some sessionId ∧ c.id = id

theorem empty_describes : Describes Inner.empty [] := by
  refine ⟨List.nodup_nil, List.Pairwise.nil, ?_, ?_, fun _ => rfl, rfl, List.Pairwise.nil, ?_⟩
  · exact fun _ hc => nomatch hc
  · intro id entry
    constructor
    · exact fun hcontra => nomatch hcontra
    · rintro ⟨c, hc, -⟩
      cases hc
  · exact fun _ hslot => nomatch hslot

/-! ## Reading the structures -/

section Reading

variable {s : Inner} {l : List Challenge}

theorem Describes.isSome_lookup (h : Describes s l) {id : ℕ} :
    (s.entries.lookup id).isSome = true ↔ id ∈ l.map (·.id) := by
  rw [Option.isSome_iff_exists, List.mem_map]
  constructor
  · rintro ⟨entry, hentry⟩
    obtain ⟨c, hc, hid, -⟩ := (h.entries id entry).mp hentry
    exact ⟨c, hc, hid⟩
  · rintro ⟨c, hc, hid⟩
    exact ⟨c.entry, (h.entries id c.entry).mpr ⟨c, hc, hid, rfl⟩⟩

theorem Describes.notMem_of_lookup (h : Describes s l) {id : ℕ}
    (hnone : s.entries.lookup id = none) : id ∉ l.map (·.id) := by
  rw [← h.isSome_lookup, hnone]
  exact Bool.false_ne_true

theorem Describes.eq_of_id (h : Describes s l) {c c' : Challenge} (hc : c ∈ l) (hc' : c' ∈ l)
    (hid : c.id = c'.id) : c = c' :=
  List.inj_on_of_nodup_map h.ids hc hc' hid

theorem Describes.entries_length (h : Describes s l) : s.entries.keys.length = l.length := by
  have hperm : s.entries.keys.Perm (l.map (·.id)) := by
    refine (List.perm_ext_iff_of_nodup s.entries.keys_nodup h.ids).mpr ?_
    intro id
    rw [← h.isSome_lookup, AList.lookup_isSome, AList.mem_keys]
  rw [hperm.length_eq, List.length_map]

theorem queueOf_getD (l : List Challenge) : (queueOf l).getD [] = l.map Challenge.slot := by
  unfold queueOf
  cases l with
  | nil => rfl
  | cons c rest => rfl

theorem Describes.perDid_length (h : Describes s l) (did : String) :
    ((s.perDid.lookup did).getD []).length = (l.filter (·.did == did)).length := by
  rw [h.perDid, queueOf_getD, List.length_map]

end Reading

/-! ## Removing -/

section Removing

variable {s : Inner} {l : List Challenge} {id now : ℕ}

theorem queueOf_filter (l : List Challenge) (id : ℕ) :
    queueOf (l.filter (·.id != id)) =
      (queueOf l).bind fun q =>
        let q := q.filter (·.2 != id)
        if q.isEmpty then none else some q := by
  have hmap : (l.map Challenge.slot).filter (·.2 != id) =
      (l.filter (·.id != id)).map Challenge.slot :=
    List.filter_map
  unfold queueOf
  cases l with
  | nil => rfl
  | cons c rest =>
      change _ = (if ((c :: rest).map Challenge.slot |>.filter (·.2 != id)).isEmpty then none
        else some (((c :: rest).map Challenge.slot).filter (·.2 != id)))
      rw [hmap, List.isEmpty_map]

theorem lookup_removeFromDid (did did' : String) (perDid : Table String (List Slot)) :
    (Inner.removeFromDid did id perDid).lookup did' =
      if did' = did then (perDid.lookup did).bind fun q =>
        let q := q.filter (·.2 != id)
        if q.isEmpty then none else some q
      else perDid.lookup did' := by
  unfold Inner.removeFromDid
  cases hq : perDid.lookup did with
  | none =>
      by_cases hdid : did' = did
      · rw [if_pos hdid, hdid, hq]
        rfl
      · rw [if_neg hdid]
  | some q =>
      dsimp only [Option.bind_some]
      by_cases hempty : (q.filter (·.2 != id)).isEmpty = true
      · rw [if_pos hempty, if_pos hempty, Table.lookup_erase_ite]
      · rw [if_neg hempty, if_neg hempty, Table.lookup_insert_ite]

theorem filter_id_eq_self (h : id ∉ l.map (·.id)) : l.filter (·.id != id) = l := by
  rw [List.filter_eq_self]
  intro c hc
  have hne : c.id ≠ id := fun hid => h (List.mem_map.mpr ⟨c, hc, hid⟩)
  simpa using hne

theorem Describes.remove (h : Describes s l) (id : ℕ) :
    Describes (s.remove id).2 (l.filter (·.id != id)) := by
  unfold Inner.remove
  cases hentry : s.entries.lookup id with
  | none =>
      rw [filter_id_eq_self (h.notMem_of_lookup hentry)]
      exact h
  | some entry =>
      obtain ⟨c, hc, hid, rfl⟩ := (h.entries id entry).mp hentry
      refine ⟨?_, h.order.filter _, ?_, ?_, ?_, ?_, h.expiryOrder, h.expiryFresh⟩
      · exact h.ids.sublist (List.filter_sublist.map _)
      · exact fun x hx => h.fresh x (List.mem_of_mem_filter hx)
      · intro id' entry'
        dsimp only
        rw [Table.lookup_erase_ite]
        split_ifs with heq
        · constructor
          · exact fun hcontra => nomatch hcontra
          · rintro ⟨x, hx, hxid, -⟩
            have hne := (List.mem_filter.mp hx).2
            simp [hxid, heq] at hne
        · rw [h.entries]
          constructor
          · rintro ⟨x, hx, hxid, hxentry⟩
            refine ⟨x, List.mem_filter.mpr ⟨hx, ?_⟩, hxid, hxentry⟩
            simpa [hxid] using heq
          · rintro ⟨x, hx, hx'⟩
            exact ⟨x, List.mem_of_mem_filter hx, hx'⟩
      · intro did
        dsimp only
        rw [lookup_removeFromDid, List.filter_filter]
        split_ifs with hdid
        · subst hdid
          rw [h.perDid, ← queueOf_filter, List.filter_filter]
          congr 2
          funext x
          exact Bool.and_comm _ _
        · rw [h.perDid]
          congr 1
          refine List.filter_congr ?_
          intro x hx
          by_cases hxdid : x.did = did
          · have hne : x.id ≠ id := by
              intro hxid
              have hsame := h.eq_of_id hx hc (hxid.trans hid.symm)
              exact hdid (hxdid.symm.trans (congrArg Challenge.did hsame))
            simp [hne]
          · simp [hxdid]
      · dsimp only
        have hsplit : ∀ slot : Slot, ((s.entries.erase id).lookup slot.2).isSome =
            ((s.entries.lookup slot.2).isSome && slot.2 != id) := by
          intro slot
          rw [Table.lookup_erase_ite]
          by_cases hslot : slot.2 = id
          · simp [hslot]
          · simp [hslot]
        simp only [hsplit]
        rw [← List.filter_filter, List.filter_comm, h.expiry]
        exact List.filter_map

theorem SessionsOf.remove (hd : Describes s l) (h : SessionsOf s l) (id : ℕ) :
    SessionsOf (s.remove id).2 (l.filter (·.id != id)) := by
  unfold Inner.remove
  cases hentry : s.entries.lookup id with
  | none =>
      rw [filter_id_eq_self (hd.notMem_of_lookup hentry)]
      exact h
  | some entry =>
      obtain ⟨c, hc, hid, rfl⟩ := (hd.entries id entry).mp hentry
      intro sessionId id'
      have hlookup : (c.entry.sessionId.elim s.bySession s.bySession.erase).lookup sessionId =
          if c.session = some sessionId then none else s.bySession.lookup sessionId := by
        change (c.session.elim s.bySession s.bySession.erase).lookup sessionId = _
        cases hsession : c.session with
        | none => rfl
        | some sid =>
            change (s.bySession.erase sid).lookup sessionId = _
            rw [Table.lookup_erase_ite]
            simp [eq_comm]
      dsimp only
      rw [hlookup]
      split_ifs with hsession
      · constructor
        · exact fun hcontra => nomatch hcontra
        · rintro ⟨x, hx, hxsession, -⟩
          obtain ⟨hxmem, hne⟩ := List.mem_filter.mp hx
          have hx' := (h sessionId x.id).mpr ⟨x, hxmem, hxsession, rfl⟩
          have hc' := (h sessionId c.id).mpr ⟨c, hc, hsession, rfl⟩
          have hsame : x.id = c.id := Option.some.inj (hx'.symm.trans hc')
          simp [hsame, hid] at hne
      · rw [h]
        constructor
        · rintro ⟨x, hx, hxsession, hxid⟩
          refine ⟨x, List.mem_filter.mpr ⟨hx, ?_⟩, hxsession, hxid⟩
          have hne : x.id ≠ id := by
            intro heq
            have hsame := hd.eq_of_id hx hc (heq.trans hid.symm)
            exact hsession (hsame ▸ hxsession)
          simpa using hne
        · rintro ⟨x, hx, hx'⟩
          exact ⟨x, List.mem_of_mem_filter hx, hx'⟩

end Removing

/-! ## Pruning -/

section Pruning

variable {s : Inner} {l : List Challenge} {now : ℕ}

theorem remove_expiry (s : Inner) (id : ℕ) (q : List Slot) :
    ({ s with expiry := q } : Inner).remove id =
      ((s.remove id).1, { (s.remove id).2 with expiry := q }) := by
  unfold Inner.remove
  dsimp only
  cases s.entries.lookup id with
  | none => rfl
  | some entry => rfl

/-- An id in front of the queue that has no entry. -/
theorem Describes.drop_released {slot : Slot} {rest : List Slot}
    (h : Describes { s with expiry := slot :: rest } l)
    (hnone : (s.entries.lookup slot.2).isSome = false) :
    Describes { s with expiry := rest } l := by
  refine ⟨h.ids, h.order, h.fresh, h.entries, h.perDid, ?_, h.expiryOrder.tail, ?_⟩
  · have hexpiry := h.expiry
    dsimp only at hexpiry
    rw [List.filter_cons_of_neg (by simp [hnone])] at hexpiry
    exact hexpiry
  · exact fun x hx => h.expiryFresh x (List.mem_cons_of_mem slot hx)

/-- An id with an entry in front of the queue is the first challenge. -/
theorem Describes.front {slot : Slot} {rest : List Slot}
    (h : Describes { s with expiry := slot :: rest } l)
    (hsome : (s.entries.lookup slot.2).isSome = true) :
    ∃ c l', l = c :: l' ∧ c.slot = slot := by
  have hexpiry := h.expiry
  dsimp only at hexpiry
  rw [List.filter_cons_of_pos (by exact hsome)] at hexpiry
  cases l with
  | nil => cases hexpiry
  | cons c l' => exact ⟨c, l', rfl, (List.cons.inj hexpiry).1.symm⟩

/-- The entry in front goes with its place in the queue. -/
theorem Describes.drop_front {slot : Slot} {rest : List Slot}
    (h : Describes { s with expiry := slot :: rest } l) :
    Describes { (s.remove slot.2).2 with expiry := rest } (l.filter (·.id != slot.2)) := by
  have hremoved := h.remove slot.2
  rw [remove_expiry] at hremoved
  refine hremoved.drop_released ?_
  rw [Bool.eq_false_iff]
  intro hcontra
  have hmem := hremoved.isSome_lookup.mp hcontra
  obtain ⟨c, hc, hid⟩ := List.mem_map.mp hmem
  have hne := (List.mem_filter.mp hc).2
  simp [hid] at hne

/-- The loop leaves what is live, and with it whatever removals keep. -/
theorem pruneFrom_keeps {P : Inner → List Challenge → Prop}
    (hexpiry : ∀ s l q, P s l → P { s with expiry := q } l)
    (hremove : ∀ s l id, Describes s l → P s l → P (s.remove id).2 (l.filter (·.id != id)))
    (q : List Slot) (h : Describes { s with expiry := q } l) (hP : P s l) :
    Describes (Inner.pruneFrom now q s) (l.filter (·.isLive now)) ∧
      P (Inner.pruneFrom now q s) (l.filter (·.isLive now)) := by
  induction q generalizing s l with
  | nil =>
      have hnil : l = [] := by
        have hfront := h.expiry
        cases l with
        | nil => rfl
        | cons c l' => cases hfront
      subst hnil
      exact ⟨h, hexpiry s [] [] hP⟩
  | cons slot rest ih =>
      obtain ⟨expiresAt, id⟩ := slot
      unfold Inner.pruneFrom
      by_cases hsome : (s.entries.lookup id).isSome = true
      · rw [if_pos hsome]
        obtain ⟨c, l', rfl, hslot⟩ := h.front hsome
        obtain ⟨hat, hid⟩ := Prod.mk.inj hslot
        by_cases hlive : now < expiresAt
        · rw [if_pos hlive]
          have hall : (c :: l').filter (·.isLive now) = c :: l' :=
            h.order.filter_eq_self (by rw [hat]; exact hlive)
          rw [hall]
          exact ⟨h, hexpiry _ _ _ hP⟩
        · rw [if_neg hlive]
          have hPrem : P (s.remove id).2 ((c :: l').filter (·.id != id)) := by
            have hfull := hremove _ _ id h (hexpiry s (c :: l') _ hP)
            rw [remove_expiry] at hfull
            have hback := hexpiry _ _ (s.remove id).2.expiry hfull
            exact hback
          obtain ⟨hdesc, hkept⟩ := ih h.drop_front hPrem
          have hsame : ((c :: l').filter (·.id != id)).filter (·.isLive now) =
              (c :: l').filter (·.isLive now) := by
            rw [List.filter_filter]
            refine List.filter_congr ?_
            intro x hx
            by_cases hxid : x.id = id
            · have hxc := h.eq_of_id hx List.mem_cons_self (hxid.trans hid.symm)
              have hdue : x.isLive now = false := by
                unfold Challenge.isLive
                rw [hxc, hat]
                exact decide_eq_false hlive
              rw [hdue, Bool.false_and]
            · simp [hxid]
          rw [hsame] at hdesc hkept
          exact ⟨hdesc, hkept⟩
      · rw [if_neg hsome]
        exact ih (h.drop_released (Bool.eq_false_iff.mpr hsome)) hP

/-- After a prune the structures describe what is live. -/
theorem Describes.prune (h : Describes s l) (now : ℕ) :
    Describes (s.prune now) (l.filter (·.isLive now)) :=
  (pruneFrom_keeps (P := fun _ _ => True) (fun _ _ _ _ => trivial)
    (fun _ _ _ _ _ => trivial) s.expiry h trivial).1

theorem SessionsOf.prune (hd : Describes s l) (h : SessionsOf s l) (now : ℕ) :
    SessionsOf (s.prune now) (l.filter (·.isLive now)) :=
  (pruneFrom_keeps (fun _ _ _ hP => hP) (fun _ _ id hd hP => hP.remove hd id) s.expiry hd h).2

theorem remove_nextId (s : Inner) (id : ℕ) : (s.remove id).2.nextId = s.nextId := by
  unfold Inner.remove
  cases s.entries.lookup id with
  | none => rfl
  | some entry => rfl

theorem pruneFrom_nextId (now : ℕ) (q : List Slot) (s : Inner) :
    (Inner.pruneFrom now q s).nextId = s.nextId := by
  induction q generalizing s with
  | nil => rfl
  | cons slot rest ih =>
      unfold Inner.pruneFrom
      split_ifs
      · rfl
      · rw [ih, remove_nextId]
      · exact ih s

@[simp] theorem prune_nextId (s : Inner) (now : ℕ) : (s.prune now).nextId = s.nextId :=
  pruneFrom_nextId now s.expiry s

theorem pruneFrom_front {slot : Slot} (now : ℕ) (q : List Slot) (s : Inner)
    (h : (Inner.pruneFrom now q s).expiry.head? = some slot) :
    ((Inner.pruneFrom now q s).entries.lookup slot.2).isSome = true := by
  induction q generalizing s with
  | nil => cases h
  | cons first rest ih =>
      unfold Inner.pruneFrom at h ⊢
      split_ifs at h ⊢ with hsome hlive
      · cases h
        exact hsome
      · exact ih _ h
      · exact ih _ h

/-- After a prune the front of the expiry queue is the first challenge. -/
theorem Describes.prune_head (h : Describes s l) (now : ℕ) :
    (s.prune now).expiry.head? = ((l.filter (·.isLive now)).map Challenge.slot).head? := by
  have hprune := h.prune now
  rw [← hprune.expiry]
  cases hq : (s.prune now).expiry with
  | nil => rfl
  | cons slot rest =>
      have hfront : ((s.prune now).entries.lookup slot.2).isSome = true := by
        refine pruneFrom_front now s.expiry s ?_
        change (s.prune now).expiry.head? = some slot
        rw [hq]
        rfl
      rw [List.filter_cons_of_pos (by exact hfront)]
      rfl

end Pruning

/-! ## Issuing and binding -/

section Issuing

variable {s : Inner} {l : List Challenge}

/-- A new challenge takes its place. -/
theorem Describes.insert (h : Describes s l) (did : String) (expiresAt : ℕ)
    (session : Option String) :
    Describes (s.insert did expiresAt session).2
      (put Challenge.expiresAt ⟨s.nextId, did, expiresAt, session⟩ l) := by
  have hnew : ∀ c ∈ l, c.id ≠ s.nextId := fun c hc => Nat.ne_of_lt (h.fresh c hc)
  have hslots : (put Challenge.expiresAt ⟨s.nextId, did, expiresAt, session⟩ l).map
      Challenge.slot = insertSorted (l.map Challenge.slot) expiresAt s.nextId :=
    map_put fun _ => rfl
  refine ⟨?_, h.order.put, ?_, ?_, ?_, ?_, h.expiryOrder.put, ?_⟩
  · rw [(put_perm.map _).nodup_iff, List.map_cons, List.nodup_cons]
    refine ⟨?_, h.ids⟩
    rintro hmem
    obtain ⟨c, hc, hid⟩ := List.mem_map.mp hmem
    exact hnew c hc hid
  · intro c hc
    change c.id < s.nextId + 1
    obtain rfl | hc := mem_put.mp hc
    · exact Nat.lt_succ_self _
    · exact Nat.lt_succ_of_lt (h.fresh c hc)
  · intro id entry
    change (s.entries.insert s.nextId ⟨did, session⟩).lookup id = some entry ↔ _
    rw [Table.lookup_insert_ite]
    split_ifs with hid
    · constructor
      · intro heq
        cases heq
        exact ⟨_, mem_put.mpr (Or.inl rfl), hid.symm, rfl⟩
      · rintro ⟨c, hc, hcid, hentry⟩
        obtain rfl | hc := mem_put.mp hc
        · exact congrArg some hentry
        · exact absurd (hcid.trans hid) (hnew c hc)
    · rw [h.entries]
      constructor
      · rintro ⟨c, hc, hc'⟩
        exact ⟨c, mem_put.mpr (Or.inr hc), hc'⟩
      · rintro ⟨c, hc, hcid, hentry⟩
        obtain rfl | hc := mem_put.mp hc
        · exact absurd hcid.symm hid
        · exact ⟨c, hc, hcid, hentry⟩
  · intro did'
    change (s.perDid.insert did
      (insertSorted ((s.perDid.lookup did).getD []) expiresAt s.nextId)).lookup did' = _
    rw [Table.lookup_insert_ite, filter_put h.order]
    split_ifs with hdid hdid' hdid'
    · have hqueue : (put Challenge.expiresAt ⟨s.nextId, did, expiresAt, session⟩
          (l.filter (·.did == did'))).map Challenge.slot =
          insertSorted ((l.filter (·.did == did')).map Challenge.slot) expiresAt s.nextId :=
        map_put fun _ => rfl
      have hnonempty : (put Challenge.expiresAt ⟨s.nextId, did, expiresAt, session⟩
          (l.filter (·.did == did'))).isEmpty = false := by
        rw [put_perm.isEmpty_eq]
        rfl
      unfold queueOf
      rw [hnonempty, if_neg Bool.false_ne_true, hqueue, h.perDid, queueOf_getD, hdid]
    · exact absurd (by simp [hdid]) hdid'
    · exact absurd (by simpa using hdid' : did = did').symm hdid
    · exact h.perDid did'
  · change (insertSorted s.expiry expiresAt s.nextId).filter (fun slot =>
      ((s.entries.insert s.nextId ⟨did, session⟩).lookup slot.2).isSome) = _
    have hself : ((s.entries.insert s.nextId ⟨did, session⟩).lookup s.nextId).isSome = true := by
      rw [Table.lookup_insert_ite, if_pos rfl]
      rfl
    have hold : s.expiry.filter (fun slot =>
        ((s.entries.insert s.nextId ⟨did, session⟩).lookup slot.2).isSome) =
        l.map Challenge.slot := by
      rw [← h.expiry]
      refine List.filter_congr ?_
      intro slot hslot
      rw [Table.lookup_insert_ite, if_neg (Nat.ne_of_lt (h.expiryFresh slot hslot))]
    unfold insertSorted
    rw [filter_put h.expiryOrder, if_pos hself, hold, hslots]
    rfl
  · intro slot hslot
    change slot.2 < s.nextId + 1
    obtain rfl | hslot := mem_put.mp hslot
    · exact Nat.lt_succ_self _
    · exact Nat.lt_succ_of_lt (h.expiryFresh slot hslot)

/-- A new challenge, under a new session or none. -/
theorem SessionsOf.insert (h : SessionsOf s l) (did : String) (expiresAt : ℕ)
    (session : Option String)
    (hfresh : ∀ c ∈ l, ∀ sessionId, session = some sessionId → c.session ≠ some sessionId) :
    SessionsOf (s.insert did expiresAt session).2
      (put Challenge.expiresAt ⟨s.nextId, did, expiresAt, session⟩ l) := by
  intro sessionId id
  have hlookup : ((s.insert did expiresAt session).2.bySession).lookup sessionId =
      if session = some sessionId then some s.nextId else s.bySession.lookup sessionId := by
    change (session.elim s.bySession fun sid => s.bySession.insert sid s.nextId).lookup
      sessionId = _
    cases session with
    | none => rfl
    | some sid =>
        change (s.bySession.insert sid s.nextId).lookup sessionId = _
        rw [Table.lookup_insert_ite]
        simp [eq_comm]
  rw [hlookup]
  split_ifs with hsession
  · constructor
    · intro hid
      exact ⟨_, mem_put.mpr (Or.inl rfl), hsession, Option.some.inj hid⟩
    · rintro ⟨c, hc, hcsession, hcid⟩
      obtain rfl | hc := mem_put.mp hc
      · exact congrArg some hcid
      · exact absurd hcsession (hfresh c hc sessionId hsession)
  · rw [h]
    constructor
    · rintro ⟨c, hc, hc'⟩
      exact ⟨c, mem_put.mpr (Or.inr hc), hc'⟩
    · rintro ⟨c, hc, hcsession, hcid⟩
      obtain rfl | hc := mem_put.mp hc
      · exact absurd hcsession hsession
      · exact ⟨c, hc, hcsession, hcid⟩

variable {reservation : ℕ} {sessionId : String}

theorem map_bound_of_notMem (h : reservation ∉ l.map (·.id)) :
    l.map (Challenge.bound reservation sessionId) = l := by
  have hall : ∀ c ∈ l, Challenge.bound reservation sessionId c = c := by
    intro c hc
    exact Challenge.bound_of_ne fun hid => h (List.mem_map.mpr ⟨c, hc, hid⟩)
  calc l.map (Challenge.bound reservation sessionId) = l.map id := List.map_congr_left hall
    _ = l := List.map_id l

theorem map_bound_slot (l : List Challenge) :
    (l.map (Challenge.bound reservation sessionId)).map Challenge.slot =
      l.map Challenge.slot := by
  rw [List.map_map]
  exact List.map_congr_left fun c _ => Challenge.bound_slot _ _ c

theorem queueOf_map_bound (l : List Challenge) :
    queueOf (l.map (Challenge.bound reservation sessionId)) = queueOf l := by
  unfold queueOf
  rw [map_bound_slot, List.isEmpty_map]

theorem filter_map_bound {p : Challenge → Bool}
    (hp : ∀ c, p (Challenge.bound reservation sessionId c) = p c) :
    (l.map (Challenge.bound reservation sessionId)).filter p =
      (l.filter p).map (Challenge.bound reservation sessionId) := by
  rw [List.filter_map]
  congr 1
  exact List.filter_congr fun c _ => hp c

theorem Describes.bind (h : Describes s l) (reservation : ℕ) (sessionId : String) :
    Describes (bindSession s reservation sessionId)
      (l.map (Challenge.bound reservation sessionId)) := by
  unfold bindSession
  cases hentry : s.entries.lookup reservation with
  | none =>
      rw [map_bound_of_notMem (h.notMem_of_lookup hentry)]
      exact h
  | some entry =>
      obtain ⟨c, hc, hid, rfl⟩ := (h.entries reservation entry).mp hentry
      have hids : (l.map (Challenge.bound reservation sessionId)).map (·.id) =
          l.map (·.id) := by
        rw [List.map_map]
        exact List.map_congr_left fun c _ => Challenge.bound_id _ _ c
      refine ⟨?_, ?_, ?_, ?_, ?_, ?_, h.expiryOrder, h.expiryFresh⟩
      · rw [hids]
        exact h.ids
      · refine List.pairwise_map.mpr (h.order.imp ?_)
        intro a b hab
        rw [Challenge.bound_expiresAt, Challenge.bound_expiresAt]
        exact hab
      · intro x hx
        obtain ⟨c', hc', rfl⟩ := List.mem_map.mp hx
        rw [Challenge.bound_id]
        exact h.fresh c' hc'
      · intro id entry
        dsimp only
        rw [Table.lookup_insert_ite]
        split_ifs with heq
        · constructor
          · intro hnew
            cases hnew
            refine ⟨_, List.mem_map_of_mem hc, ?_, ?_⟩
            · rw [Challenge.bound_id, hid, heq]
            · rw [Challenge.bound_of_eq hid]
              rfl
          · rintro ⟨x, hx, hxid, rfl⟩
            obtain ⟨c', hc', rfl⟩ := List.mem_map.mp hx
            rw [Challenge.bound_id] at hxid
            have hsame := h.eq_of_id hc' hc (hxid.trans (heq.trans hid.symm))
            rw [Challenge.bound_of_eq (hxid.trans heq), hsame]
            rfl
        · rw [h.entries]
          constructor
          · rintro ⟨x, hx, hxid, hxentry⟩
            refine ⟨_, List.mem_map_of_mem hx, (Challenge.bound_id _ _ x).trans hxid, ?_⟩
            rw [Challenge.bound_of_ne (by rw [hxid]; exact heq)]
            exact hxentry
          · rintro ⟨x, hx, hxid, hxentry⟩
            obtain ⟨c', hc', rfl⟩ := List.mem_map.mp hx
            rw [Challenge.bound_id] at hxid
            rw [Challenge.bound_of_ne (by rw [hxid]; exact heq)] at hxentry
            exact ⟨c', hc', hxid, hxentry⟩
      · intro did
        rw [filter_map_bound fun c => by rw [Challenge.bound_did], queueOf_map_bound]
        exact h.perDid did
      · rw [map_bound_slot, ← h.expiry]
        dsimp only
        refine List.filter_congr ?_
        intro slot hslot
        rw [Table.lookup_insert_ite]
        split_ifs with heq
        · rw [heq, hentry]
          rfl
        · rfl

/-- Binding a challenge that is not bound, to a new session. -/
theorem SessionsOf.bind (hd : Describes s l) (h : SessionsOf s l)
    (hunbound : ∀ c ∈ l, c.id = reservation → c.session = none)
    (hfresh : ∀ c ∈ l, c.session ≠ some sessionId) :
    SessionsOf (bindSession s reservation sessionId)
      (l.map (Challenge.bound reservation sessionId)) := by
  unfold bindSession
  cases hentry : s.entries.lookup reservation with
  | none =>
      rw [map_bound_of_notMem (hd.notMem_of_lookup hentry)]
      exact h
  | some entry =>
      obtain ⟨c, hc, hid, rfl⟩ := (hd.entries reservation entry).mp hentry
      intro sessionId' id
      dsimp only
      rw [Table.lookup_insert_ite]
      split_ifs with heq
      · constructor
        · intro hid'
          cases hid'
          refine ⟨_, List.mem_map_of_mem hc, ?_, (Challenge.bound_id _ _ c).trans hid⟩
          rw [Challenge.bound_of_eq hid, heq]
        · rintro ⟨x, hx, hxsession, hxid⟩
          obtain ⟨c', hc', rfl⟩ := List.mem_map.mp hx
          rw [Challenge.bound_id] at hxid
          by_cases hcid : c'.id = reservation
          · rw [← hxid, hcid]
          · rw [Challenge.bound_of_ne hcid, heq] at hxsession
            exact absurd hxsession (hfresh c' hc')
      · rw [h]
        constructor
        · rintro ⟨x, hx, hxsession, hxid⟩
          refine ⟨_, List.mem_map_of_mem hx, ?_, (Challenge.bound_id _ _ x).trans hxid⟩
          rw [Challenge.bound_of_ne]
          · exact hxsession
          · intro hcontra
            rw [hunbound x hx hcontra] at hxsession
            cases hxsession
        · rintro ⟨x, hx, hxsession, hxid⟩
          obtain ⟨c', hc', rfl⟩ := List.mem_map.mp hx
          rw [Challenge.bound_id] at hxid
          by_cases hcid : c'.id = reservation
          · rw [Challenge.bound_of_eq hcid] at hxsession
            exact absurd (Option.some.inj hxsession).symm heq
          · rw [Challenge.bound_of_ne hcid] at hxsession
            exact ⟨c', hc', hxsession, hxid⟩

end Issuing

end Auth

end DidHosting
