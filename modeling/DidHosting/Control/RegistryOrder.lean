import DidHosting.Control.Registry

/-!
# Updates of the registry in order

A handler of the registry stores the row it made of the one it read, whatever was stored in
between, so a store that is not up to date takes the fields of others back.  A registration
stores twice: the new row, and then the services its document advertises, which may land
after those of a later registration.

Where every store is up to date and registrations refresh in the order in which they were
stored, the row is that of an order of the operations.  A registration whose refresh comes
late is put after the refreshes it overwrites; everything else in between neither reads nor
writes the advertised services.
-/

namespace DidHosting

namespace Registry

/-! ## Cycles beside a refresh -/

section

variable {d : String}

/-- The update keeps the DID of the row, and does not care about its advertised services. -/
def Beside (d : String) (f : Option ServiceInstance → Option ServiceInstance) : Prop :=
  ∀ i, i.did = some d → ∃ j, f (some i) = some j ∧ j.did = some d ∧
    ∀ services now, f (some (i.advertising services now)) = some (j.advertising services now)

theorem beside_id : Beside d fun row => row :=
  fun i hi => ⟨i, rfl, hi, fun _ _ => rfl⟩

theorem Beside.then {f g : Option ServiceInstance → Option ServiceInstance}
    (hf : Beside d f) (hg : Beside d g) : Beside d fun row => g (f row) := by
  intro i hi
  obtain ⟨j, hj, hjd, hadv⟩ := hf i hi
  obtain ⟨k, hk, hkd, hadv'⟩ := hg j hjd
  refine ⟨k, ?_, hkd, ?_⟩
  · change g (f (some i)) = some k
    rw [hj, hk]
  · intro services now
    change g (f (some (i.advertising services now))) = _
    rw [hadv, hadv']

/-- A change of other fields of the row. -/
theorem beside_map {change : ServiceInstance → ServiceInstance}
    (hmeta : ∀ i, (change i).metadata = i.metadata)
    (hadv : ∀ i services now,
      change (i.advertising services now) = (change i).advertising services now) :
    Beside d (Cycle.run fun row => row.map change) := by
  intro i hi
  refine ⟨change i, rfl, ?_, ?_⟩
  · unfold ServiceInstance.did
    rw [hmeta]
    exact hi
  · intro services now
    rw [← hadv]
    rfl

theorem registered_did (R : Registrar) (body : Json) (previous : Option ServiceInstance) :
    (registered R d body previous).did = some d :=
  rfl

theorem beside_registered (R : Registrar) (body : Json) :
    Beside d (Cycle.run fun previous => some (registered R d body previous)) :=
  fun _ _ => ⟨_, rfl, registered_did R body _, fun _ _ => rfl⟩

theorem refresh_unresolved {resolver : Resolver} {now : ℕ} {i : ServiceInstance}
    (hi : i.did = some d) (h : (resolver.bind fun resolve => resolve d) = none) :
    (refreshAdvertisedServices resolver now).run (some i) = some i := by
  apply Cycle.run_of_none
  cases resolver with
  | none => rfl
  | some resolve =>
      have hd : resolve d = none := h
      simp [refreshAdvertisedServices, hi, hd]

theorem refresh_resolved {resolver : Resolver} {now : ℕ} {i : ServiceInstance}
    {services : List String} (hi : i.did = some d)
    (h : (resolver.bind fun resolve => resolve d) = some services) :
    (refreshAdvertisedServices resolver now).run (some i) =
      some (i.advertising services now) := by
  apply Cycle.run_of_some
  cases resolver with
  | none => cases h
  | some resolve =>
      have hd : resolve d = some services := h
      simp [refreshAdvertisedServices, hi, hd]

/-- A refresh leaves a row that differs in its advertised services at most. -/
theorem refresh_run (resolver : Resolver) (now : ℕ) (row : Option ServiceInstance) :
    (refreshAdvertisedServices resolver now).run row = row ∨
    ∃ i services, row = some i ∧
      (refreshAdvertisedServices resolver now).run row = some (i.advertising services now) := by
  cases row with
  | none =>
      refine Or.inl (Cycle.run_of_none ?_)
      cases resolver <;> rfl
  | some i =>
      cases hd : i.did with
      | none =>
          refine Or.inl (Cycle.run_of_none ?_)
          cases resolver <;> simp [refreshAdvertisedServices, hd]
      | some d =>
          cases h : resolver.bind fun resolve => resolve d with
          | none => exact Or.inl (refresh_unresolved hd h)
          | some services => exact Or.inr ⟨i, services, rfl, refresh_resolved hd h⟩

end

/-! ## Operations -/

namespace RegistryTask

/-- The operation is a registration. -/
def isRegistration : RegistryTask → Bool
  | serverRegister _ _ => true
  | _ => false

/-- The operation is a refresh alone. -/
def isRefresh : RegistryTask → Bool
  | refresh _ _ => true
  | _ => false

/-- The services a registration of the DID finds in its document. -/
def found (d : String) : RegistryTask → Option (List String)
  | serverRegister R _ => R.resolver.bind fun resolve => resolve d
  | _ => none

/-- A registration stores its row and then refreshes, or is refused. -/
theorem cycles_serverRegister (d : String) (R : Registrar) (body : Json) :
    (serverRegister R body).cycles d = [] ∨
    (serverRegister R body).cycles d =
      [fun previous => some (registered R d body previous),
        refreshAdvertisedServices R.resolver R.refreshedAt] := by
  cases hanswer : doServerRegister R d body with
  | error e =>
      apply Or.inl
      simp only [cycles, hanswer]
  | ok answer =>
      obtain ⟨_, _, hafter⟩ := bind_eq_ok hanswer
      obtain ⟨_, _, hafter⟩ := bind_eq_ok hafter
      cases hafter
      apply Or.inr
      simp only [cycles, hanswer]

/-- Everything but a registration and a refresh makes one update beside a refresh. -/
theorem cycles_update {t : RegistryTask} (hregistration : t.isRegistration = false)
    (hrefresh : t.isRefresh = false) (d : String) :
    t.cycles d = [] ∨ ∃ c, t.cycles d = [c] ∧ Beside d c.run := by
  cases t with
  | serverRegister R body => cases hregistration
  | refresh resolver now => cases hrefresh
  | recordAck now =>
      exact Or.inr ⟨_, rfl, beside_map (fun _ => rfl) fun _ _ _ => rfl⟩
  | recordReconcile now =>
      exact Or.inr ⟨_, rfl, beside_map (fun _ => rfl) fun _ _ _ => rfl⟩
  | healthPong role now =>
      by_cases hrole : role = some .service
      · rw [RegistryTask.cycles, doHealthPong, if_pos hrole]
        exact Or.inr ⟨_, rfl, beside_map (fun _ => rfl) fun _ _ _ => rfl⟩
      · exact Or.inl (if_neg hrole)
  | domainAck role typeUri body =>
      change doDomainAck role typeUri body = [] ∨ ∃ c, doDomainAck role typeUri body = [c] ∧ _
      unfold doDomainAck
      cases (body.get "domain").bind Json.asStr with
      | none => exact Or.inl rfl
      | some domain =>
          by_cases hrole : role = some .service
          · refine Or.inr ⟨_, if_pos hrole, ?_⟩
            intro i hi
            cases hserved : mirrorDomain
                (typeUri == msgReplicaDomainAssignAck &&
                  ((body.get "status").bind Json.asStr).getD "unknown" == "applied")
                domain i.servedDomains with
            | none =>
                refine ⟨i, Cycle.run_of_none (by simp [hserved]), hi, ?_⟩
                intro services now
                exact Cycle.run_of_none (by simp [ServiceInstance.advertising, hserved])
            | some served =>
                refine ⟨{ i with servedDomains := served },
                  Cycle.run_of_some (by simp [hserved]), hi, ?_⟩
                intro services now
                exact Cycle.run_of_some (by simp [ServiceInstance.advertising, hserved])
          · exact Or.inl (if_neg hrole)

/-- Only a registration makes a second cycle, which is its refresh. -/
theorem cycles_second {t : RegistryTask} {d : String} {done rest : List (Cycle ServiceInstance)}
    {c : Cycle ServiceInstance} (hcycles : done ++ c :: rest = t.cycles d) (hdone : done ≠ []) :
    ∃ R body, t = serverRegister R body ∧
      done = [fun previous => some (registered R d body previous)] ∧
      c = refreshAdvertisedServices R.resolver R.refreshedAt ∧ rest = [] := by
  have hlength : 2 ≤ (t.cycles d).length := by
    have hpos := List.length_pos_iff.mpr hdone
    rw [← hcycles, List.length_append, List.length_cons]
    omega
  cases hregistration : t.isRegistration with
  | false =>
      cases hrefresh : t.isRefresh with
      | true =>
          cases t with
          | refresh resolver now => exact absurd hlength (by simp [cycles])
          | _ => cases hrefresh
      | false =>
          obtain hnone | ⟨c', hone, -⟩ := cycles_update hregistration hrefresh d
          · rw [hnone] at hlength
            cases hlength
          · rw [hone] at hlength
            exact absurd hlength (by simp)
  | true =>
      cases t with
      | serverRegister R body =>
          obtain hnone | hboth := cycles_serverRegister d R body
          · rw [hnone] at hlength
            cases hlength
          · rw [hboth] at hcycles
            cases done with
            | nil => exact absurd rfl hdone
            | cons a done =>
                obtain ⟨rfl, hsecond⟩ := List.cons.inj hcycles
                cases done with
                | nil =>
                    obtain ⟨rfl, rfl⟩ := List.cons.inj hsecond
                    exact ⟨R, body, rfl, rfl, rfl, rfl⟩
                | cons b done =>
                    exact absurd (List.cons.inj hsecond).2 (by simp)
      | _ => cases hregistration

end RegistryTask

/-! ## What is behind an operation -/

section

variable {d : String}

/-- The update keeps a row of the DID. -/
def Keeps (d : String) (f : Option ServiceInstance → Option ServiceInstance) : Prop :=
  ∀ i, i.did = some d → ∃ j, f (some i) = some j ∧ j.did = some d

theorem Beside.keeps {f : Option ServiceInstance → Option ServiceInstance} (h : Beside d f) :
    Keeps d f := by
  intro i hi
  obtain ⟨j, hj, hjd, -⟩ := h i hi
  exact ⟨j, hj, hjd⟩

theorem keeps_refresh (resolver : Resolver) (now : ℕ) :
    Keeps d (refreshAdvertisedServices resolver now).run := by
  intro i hi
  cases h : resolver.bind fun resolve => resolve d with
  | none => exact ⟨i, refresh_unresolved hi h, hi⟩
  | some services => exact ⟨_, refresh_resolved hi h, hi⟩

theorem keeps_cycle {t : RegistryTask} {c : Cycle ServiceInstance} (hc : c ∈ t.cycles d) :
    Keeps d c.run := by
  cases hregistration : t.isRegistration with
  | true =>
      cases t with
      | serverRegister R body =>
          obtain hnone | hboth := RegistryTask.cycles_serverRegister d R body
          · rw [hnone] at hc
            cases hc
          · rw [hboth] at hc
            simp only [List.mem_cons, List.not_mem_nil, or_false] at hc
            obtain rfl | rfl := hc
            · exact (beside_registered R body).keeps
            · exact keeps_refresh R.resolver R.refreshedAt
      | _ => cases hregistration
  | false =>
      cases hrefresh : t.isRefresh with
      | true =>
          cases t with
          | refresh resolver now =>
              rw [RegistryTask.cycles, List.mem_singleton] at hc
              rw [hc]
              exact keeps_refresh resolver now
          | _ => cases hrefresh
      | false =>
          obtain hnone | ⟨c', hone, hbeside⟩ :=
            RegistryTask.cycles_update hregistration hrefresh d
          · rw [hnone] at hc
            cases hc
          · rw [hone, List.mem_singleton] at hc
            rw [hc]
            exact hbeside.keeps

theorem keeps_runAll {cs : List (Cycle ServiceInstance)} (h : ∀ c ∈ cs, Keeps d c.run) :
    Keeps d (Cycle.runAll cs) := by
  induction cs with
  | nil => exact fun i hi => ⟨i, rfl, hi⟩
  | cons c cs ih =>
      intro i hi
      obtain ⟨j, hj, hjd⟩ := h c List.mem_cons_self i hi
      rw [Cycle.runAll_cons, hj]
      exact ih (fun c' hc' => h c' (List.mem_cons_of_mem c hc')) j hjd

/-- What an operation has behind it keeps beside a refresh, unless it has recorded services
of its own. -/
theorem beside_done {t : RegistryTask} {done todo : List (Cycle ServiceInstance)}
    (hsplit : done ++ todo = t.cycles d) (hrefresh : t.isRefresh = false)
    (hfound : (t.found d).isSome = true → todo ≠ []) : Beside d (Cycle.runAll done) := by
  cases hregistration : t.isRegistration with
  | false =>
      obtain hnone | ⟨c, hone, hbeside⟩ := RegistryTask.cycles_update hregistration hrefresh d
      · rw [hnone] at hsplit
        rw [(List.append_eq_nil_iff.mp hsplit).1]
        exact beside_id
      · rw [hone] at hsplit
        obtain ⟨rfl, -⟩ | ⟨rfl, -⟩ := List.append_eq_singleton_iff.mp hsplit
        · exact beside_id
        · exact hbeside
  | true =>
      cases t with
      | serverRegister R body =>
          obtain hnone | hboth := RegistryTask.cycles_serverRegister d R body
          · rw [hnone] at hsplit
            rw [(List.append_eq_nil_iff.mp hsplit).1]
            exact beside_id
          · rw [hboth] at hsplit
            cases done with
            | nil => exact beside_id
            | cons a done =>
                obtain ⟨rfl, hsecond⟩ := List.cons.inj hsplit
                obtain ⟨rfl, -⟩ | ⟨rfl, htodo⟩ := List.append_eq_singleton_iff.mp hsecond
                · exact beside_registered R body
                · have hunresolved : (R.resolver.bind fun resolve => resolve d) = none := by
                    rw [← Option.not_isSome_iff_eq_none]
                    exact fun h => hfound h htodo
                  refine (beside_registered R body).then ?_
                  intro i hi
                  exact ⟨i, refresh_unresolved hi hunresolved, hi,
                    fun _ _ => refresh_unresolved hi hunresolved⟩
      | _ => cases hregistration

/-- A refresh alone changes the advertised services at most. -/
theorem refresh_done {t : RegistryTask} {done todo : List (Cycle ServiceInstance)}
    (hsplit : done ++ todo = t.cycles d) (hrefresh : t.isRefresh = true)
    (row : Option ServiceInstance) :
    Cycle.runAll done row = row ∨
    ∃ i services now, row = some i ∧
      Cycle.runAll done row = some (i.advertising services now) := by
  cases t with
  | refresh resolver now =>
      obtain ⟨rfl, -⟩ | ⟨rfl, -⟩ := List.append_eq_singleton_iff.mp hsplit
      · exact Or.inl rfl
      · obtain hrow | ⟨i, services, hi, hrow⟩ := refresh_run resolver now row
        · exact Or.inl hrow
        · exact Or.inr ⟨i, services, now, hi, hrow⟩
  | _ => cases hrefresh

end

/-! ## Orders of the operations -/

section

variable {ι : Type} {tasks : ι → RegistryTask} {d : String}
  {done todo : ι → List (Cycle ServiceInstance)}

theorem keeps_replay (hsplit : ∀ k, done k ++ todo k = (tasks k).cycles d) (order : List ι) :
    Keeps d (Desk.replay done order) := by
  induction order with
  | nil => exact fun i hi => ⟨i, rfl, hi⟩
  | cons k order ih =>
      intro i hi
      have hcycles : ∀ c ∈ done k, Keeps d c.run := by
        intro c hc
        refine keeps_cycle (t := tasks k) ?_
        rw [← hsplit k]
        exact List.mem_append_left _ hc
      obtain ⟨j, hj, hjd⟩ := keeps_runAll hcycles i hi
      rw [Desk.replay_cons, hj]
      exact ih j hjd

/-- Refreshes alone change the advertised services at most. -/
theorem replay_refreshes (hsplit : ∀ k, done k ++ todo k = (tasks k).cycles d)
    {order : List ι} (hrefresh : ∀ k ∈ order, (tasks k).isRefresh = true)
    (row : Option ServiceInstance) :
    Desk.replay done order row = row ∨
    ∃ i services now, row = some i ∧
      Desk.replay done order row = some (i.advertising services now) := by
  induction order generalizing row with
  | nil => exact Or.inl rfl
  | cons k order ih =>
      have hrest := fun l hl => hrefresh l (List.mem_cons_of_mem k hl)
      rw [Desk.replay_cons]
      obtain hrow | ⟨i, services, now, rfl, hrow⟩ :=
        refresh_done (hsplit k) (hrefresh k List.mem_cons_self) row
      · rw [hrow]
        exact ih hrest row
      · rw [hrow]
        obtain hsame | ⟨j, services', now', hj, hlater⟩ :=
          ih hrest (some (i.advertising services now))
        · exact Or.inr ⟨i, services, now, rfl, hsame⟩
        · cases hj
          exact Or.inr ⟨i, services', now', rfl, hlater⟩

/-- Recorded services overwrite the refreshes of an order, and commute with the rest. -/
theorem replay_advertising (hsplit : ∀ k, done k ++ todo k = (tasks k).cycles d)
    {order : List ι}
    (hbeside : ∀ k ∈ order, (tasks k).isRefresh = false → Beside d (Cycle.runAll (done k)))
    {i : ServiceInstance} (hi : i.did = some d) (services : List String) (now : ℕ) :
    ∃ j, Desk.replay done order (some i) = some j ∧
      Desk.replay done (order.filter fun k => !(tasks k).isRefresh)
        (some (i.advertising services now)) = some (j.advertising services now) := by
  induction order generalizing i with
  | nil => exact ⟨i, rfl, rfl⟩
  | cons k order ih =>
      have hrest := fun l hl => hbeside l (List.mem_cons_of_mem k hl)
      cases hrefresh : (tasks k).isRefresh with
      | false =>
          obtain ⟨j, hj, hjd, hadv⟩ := hbeside k List.mem_cons_self hrefresh i hi
          rw [List.filter_cons_of_pos (by simp [hrefresh]), Desk.replay_cons, Desk.replay_cons,
            hj, hadv]
          exact ih hrest hjd
      | true =>
          rw [List.filter_cons_of_neg (by simp [hrefresh]), Desk.replay_cons]
          obtain hrow | ⟨i', services', now', hi', hrow⟩ :=
            refresh_done (hsplit k) hrefresh (some i)
          · rw [hrow]
            exact ih hrest hi
          · cases hi'
            rw [hrow]
            exact ih hrest (i := i.advertising services' now') hi

/-- The refresh of a registration that finds services comes while the refreshes of the
registrations stored after it are still to come, where these find theirs. -/
def InTurn (tasks : ι → RegistryTask) (d : String) (m : Desk ι ServiceInstance) (i : ι) : Prop :=
  m.Begun i → m.todo i ≠ [] → ((tasks i).found d).isSome = true →
    ∀ j, [i, j].Sublist m.started → ((tasks j).found d).isSome = true → m.todo j ≠ []

theorem RegistryTask.isRegistration_of_found {t : RegistryTask}
    (h : (t.found d).isSome = true) : t.isRegistration = true := by
  cases t with
  | serverRegister R body => rfl
  | _ => cases h

theorem RegistryTask.not_registration_of_refresh {t : RegistryTask}
    (h : t.isRefresh = true) : t.isRegistration = false := by
  cases t with
  | refresh resolver now => rfl
  | _ => cases h

theorem filter_refreshes (order : List ι) :
    (order.filter fun k => (tasks k).isRefresh).filter (fun k => (tasks k).isRegistration) =
      [] := by
  rw [List.filter_eq_nil_iff]
  intro k hk
  rw [RegistryTask.not_registration_of_refresh (List.mem_filter.mp hk).2]
  exact Bool.false_ne_true

theorem filter_others (order : List ι) :
    (order.filter fun k => !(tasks k).isRefresh).filter (fun k => (tasks k).isRegistration) =
      order.filter fun k => (tasks k).isRegistration := by
  rw [List.filter_filter]
  refine List.filter_congr ?_
  intro k _
  cases hrefresh : (tasks k).isRefresh with
  | false => simp
  | true => simp [RegistryTask.not_registration_of_refresh hrefresh]

variable [DecidableEq ι] {m : Desk ι ServiceInstance} {row₀ : Option ServiceInstance}
  {order : List ι} {i : ι} {c : Cycle ServiceInstance} {rest : List (Cycle ServiceInstance)}

/-- Where a late refresh is put: its registration goes behind the refreshes alone that it
overwrites. -/
theorem exists_order (h : m.Ordered (fun k => (tasks k).cycles d) row₀ order)
    (hsame : order.filter (fun k => (tasks k).isRegistration) =
      m.started.filter fun k => (tasks k).isRegistration)
    (htodo : m.todo i = c :: rest) (hold : m.Begun i) (hturn : InTurn tasks d m i) :
    ∃ order' : List ι, order'.Perm order ∧
      order'.filter (fun k => (tasks k).isRegistration) =
        order.filter (fun k => (tasks k).isRegistration) ∧
      c.run m.row = Desk.replay (m.finish i c rest (c.run m.row)).done order' row₀ := by
  have hcycles : m.done i ++ c :: rest = (tasks i).cycles d := by
    rw [← htodo]
    exact h.split i
  obtain ⟨R, body, htask, hdone, rfl, -⟩ := RegistryTask.cycles_second hcycles hold
  obtain ⟨front, back, rfl⟩ := List.append_of_mem ((h.begun i).mpr hold)
  obtain ⟨hifront, hiback⟩ : i ∉ front ∧ i ∉ back := by
    have hnodup := h.nodup
    rw [List.nodup_append, List.nodup_cons] at hnodup
    exact ⟨fun hi => hnodup.2.2 i hi i List.mem_cons_self rfl, hnodup.2.1.1⟩
  have hrow : m.row = Desk.replay m.done back
      (some (registered R d body (Desk.replay m.done front row₀))) := by
    rw [h.row, Desk.replay_append, Desk.replay_cons, hdone]
    rfl
  obtain ⟨j, hj, hjd⟩ := keeps_replay h.split back _ (registered_did R body _)
  have hlast : m.row = some j := hrow.trans hj
  cases hfound : R.resolver.bind fun resolve => resolve d with
  | none =>
      refine ⟨front ++ i :: back, List.Perm.refl _, rfl, ?_⟩
      rw [Desk.replay_append, Desk.replay_finish hifront, Desk.replay_cons,
        Desk.replay_finish hiback, Desk.finish_done_self, Cycle.runAll_concat, hdone]
      change _ = Desk.replay m.done back ((refreshAdvertisedServices _ _).run
        (some (registered R d body (Desk.replay m.done front row₀))))
      rw [refresh_unresolved (registered_did R body _) hfound, hlast,
        refresh_unresolved hjd hfound, hj]
  | some services =>
      have hisome : ((tasks i).found d).isSome = true := by
        rw [htask]
        simp [RegistryTask.found, hfound]
      have hbeside : ∀ k ∈ back, (tasks k).isRefresh = false →
          Beside d (Cycle.runAll (m.done k)) := by
        intro k hk hrefresh
        refine beside_done (h.split k) hrefresh ?_
        intro hksome
        refine hturn hold (by simp [htodo]) hisome k ?_ hksome
        have hpair : [i, k].Sublist (i :: back) :=
          (List.singleton_sublist.mpr hk).cons_cons i
        have hkept := (hpair.trans (List.sublist_append_right front (i :: back))).filter
          fun k => (tasks k).isRegistration
        simp only [List.filter_cons, List.filter_nil, if_true,
          RegistryTask.isRegistration_of_found hisome,
          RegistryTask.isRegistration_of_found hksome] at hkept
        rw [hsame] at hkept
        exact hkept.trans List.filter_sublist
      refine ⟨front ++ (back.filter (fun k => (tasks k).isRefresh) ++
        i :: back.filter fun k => !(tasks k).isRefresh), ?_, ?_, ?_⟩
      · refine List.Perm.append_left front ?_
        refine List.perm_middle.trans (List.Perm.cons i ?_)
        exact List.filter_append_perm _ back
      · rw [List.filter_append, List.filter_append, List.filter_append,
          filter_refreshes, List.nil_append, List.filter_cons, List.filter_cons,
          filter_others]
      · have hifilter : ∀ p : ι → Bool, i ∉ back.filter p := by
          intro p hi
          exact hiback (List.mem_filter.mp hi).1
        have hrefresh : ∀ k ∈ back.filter (fun k => (tasks k).isRefresh),
            (tasks k).isRefresh = true := by
          intro k hk
          exact (List.mem_filter.mp hk).2
        obtain ⟨j', hj', hadv⟩ := replay_advertising h.split hbeside
          (registered_did R body (Desk.replay m.done front row₀)) services R.refreshedAt
        have hjj : j' = j := Option.some.inj (hj'.symm.trans hj)
        have hfresh : (registered R d body (Desk.replay m.done
              (back.filter fun k => (tasks k).isRefresh)
              (Desk.replay m.done front row₀))).advertising services R.refreshedAt =
            (registered R d body (Desk.replay m.done front row₀)).advertising services
              R.refreshedAt := by
          obtain hsame' | ⟨x, services', now', hx, hx'⟩ :=
            replay_refreshes h.split hrefresh (Desk.replay m.done front row₀)
          · rw [hsame']
          · rw [hx', hx]
            rfl
        rw [Desk.replay_append, Desk.replay_append, Desk.replay_cons,
          Desk.replay_finish hifront, Desk.replay_finish (hifilter _),
          Desk.replay_finish (hifilter _), Desk.finish_done_self, Cycle.runAll_concat, hdone]
        change _ = Desk.replay m.done _ ((refreshAdvertisedServices _ _).run
          (some (registered R d body (Desk.replay m.done _ _))))
        rw [refresh_resolved (registered_did R body _) hfound, hfresh, hlast,
          refresh_resolved hjd hfound, hadv, hjj]

end

end Registry

end DidHosting
