import DidHosting.Control.RegistryOrder

/-!
# Updates of a server's row are kept

The steps of the registry's handlers on the row of one server, in any order.  The row is
found by a rewriting of the DID that does not tell `:` from `_`.
-/

namespace DidHosting

namespace Registry

open Text

/-! ## Rows of different servers -/

/-- What becomes of a character of a DID in an instance id. -/
def idChar (x : Char) : Char :=
  if x = ':' then '_' else x

/-- The DIDs differ in `:` against `_` at most. -/
def SeparatorsAside (a b : String) : Prop :=
  List.Forall₂ (fun x y => x = y ∨ (x = ':' ∧ y = '_') ∨ (x = '_' ∧ y = ':'))
    a.toList b.toList

theorem toList_instanceId (did : String) :
    (instanceId did).toList = did.toList.map idChar := by
  unfold instanceId replaceChar
  rw [String.toList_ofList]
  induction did.toList with
  | nil => rfl
  | cons x rest ih =>
      rw [List.flatMap_cons, List.map_cons, ih]
      unfold idChar
      split_ifs <;> rfl

theorem idChar_eq_iff (x y : Char) :
    idChar x = idChar y ↔ x = y ∨ (x = ':' ∧ y = '_') ∨ (x = '_' ∧ y = ':') := by
  unfold idChar
  split_ifs with hx hy hy
  · simp [hx, hy]
  · constructor
    · exact fun h => Or.inr (Or.inl ⟨hx, h.symm⟩)
    · rintro (rfl | ⟨-, rfl⟩ | ⟨-, h⟩)
      · exact absurd hx hy
      · rfl
      · exact absurd h hy
  · constructor
    · exact fun h => Or.inr (Or.inr ⟨h, hy⟩)
    · rintro (rfl | ⟨h, -⟩ | ⟨rfl, -⟩)
      · exact absurd hy hx
      · exact absurd h hx
      · rfl
  · constructor
    · exact Or.inl
    · rintro (h | ⟨h, -⟩ | ⟨-, h⟩)
      · exact h
      · exact absurd h hx
      · exact absurd h hy

/-- Two DIDs have one row exactly if they differ in `:` against `_` at most. -/
theorem instanceKey_eq_iff (a b : String) :
    instanceKey (instanceId a) = instanceKey (instanceId b) ↔ SeparatorsAside a b := by
  have hkey : instanceKey (instanceId a) = instanceKey (instanceId b) ↔
      (instanceId a).toList = (instanceId b).toList := by
    change "instance:" ++ instanceId a = "instance:" ++ instanceId b ↔ _
    rw [← String.toList_inj, String.toList_append, String.toList_append,
      List.append_cancel_left_eq]
  have hforall : List.Forall₂ (· = ·) (a.toList.map idChar) (b.toList.map idChar) ↔
      a.toList.map idChar = b.toList.map idChar := by
    rw [List.forall₂_eq_eq_eq]
  rw [hkey, toList_instanceId, toList_instanceId, ← hforall, List.forall₂_map_left_iff,
    List.forall₂_map_right_iff]
  simp only [idChar_eq_iff]
  exact Iff.rfl

/-! ## Runs -/

section

variable {ι : Type} [DecidableEq ι] {tasks : ι → RegistryTask} {d : String}
  {row₀ : Option ServiceInstance}

/-- The row of a server before its operations have taken a step. -/
def serverRow (tasks : ι → RegistryTask) (d : String) (row₀ : Option ServiceInstance) :
    Desk ι ServiceInstance :=
  Desk.start row₀ fun k => (tasks k).cycles d

/-- The operations have an order that leaves the row, and in which registrations are as
they were stored. -/
def InOrder (tasks : ι → RegistryTask) (d : String) (row₀ : Option ServiceInstance)
    (m : Desk ι ServiceInstance) : Prop :=
  ∃ order : List ι, m.Ordered (fun k => (tasks k).cycles d) row₀ order ∧
    order.filter (fun k => (tasks k).isRegistration) =
      m.started.filter fun k => (tasks k).isRegistration

theorem InOrder.step {m : Desk ι ServiceInstance} (h : InOrder tasks d row₀ m) {i : ι}
    (hdate : m.UpToDate i) (hturn : InTurn tasks d m i) :
    InOrder tasks d row₀ (m.step i) := by
  obtain ⟨order, hordered, hsame⟩ := h
  obtain ⟨made, hstep⟩ | ⟨c, rest, htodo, hstep⟩ := Desk.step_cases hdate
  · rw [hstep]
    exact ⟨order, hordered.made made, hsame⟩
  · rw [hstep]
    by_cases hold : m.Begun i
    · obtain ⟨order', hperm, hsame', hrow⟩ := exists_order hordered hsame htodo hold hturn
      refine ⟨order', hordered.later htodo hold hperm hrow, ?_⟩
      rw [hsame', hsame]
      exact congrArg _ (if_neg hold).symm
    · refine ⟨order ++ [i], hordered.first htodo hold, ?_⟩
      rw [List.filter_append, hsame, ← List.filter_append]
      exact congrArg _ (if_pos (not_not.mp hold)).symm

theorem run_inOrder {events : List ι}
    (hmeets : Run.Meets Desk.step (fun m i => m.UpToDate i ∧ InTurn tasks d m i)
      (serverRow tasks d row₀) events) :
    InOrder tasks d row₀ (Run.exec Desk.step (serverRow tasks d row₀) events) :=
  Run.exec_invariant (fun _ _ hmeets h => h.step hmeets.1 hmeets.2)
    ⟨[], Desk.ordered_start, rfl⟩ hmeets

/-- If every store is up to date and registrations refresh in their order, the row of a
server is at the end that of some order of the completed operations, one after the other.
Another server has another row, unless the DIDs differ in `:` against `_` only. -/
theorem registry_updates_kept (tasks : ι → RegistryTask) (d : String)
    (row₀ : Option ServiceInstance) (events : List ι)
    (hmeets : Run.Meets Desk.step (fun m i => m.UpToDate i ∧ InTurn tasks d m i)
      (serverRow tasks d row₀) events)
    (hsettled : (Run.exec Desk.step (serverRow tasks d row₀) events).Settled) :
    (∃ order : List ι, order.Nodup ∧
      (∀ i, i ∈ order ↔ (Run.exec Desk.step (serverRow tasks d row₀) events).Completed i) ∧
      (Run.exec Desk.step (serverRow tasks d row₀) events).row =
        Desk.replay (fun k => (tasks k).cycles d) order row₀) ∧
    ∀ d', d' ≠ d →
      (instanceKey (instanceId d') ≠ instanceKey (instanceId d) ↔ ¬ SeparatorsAside d' d) := by
  obtain ⟨order, hordered, -⟩ := run_inOrder hmeets
  refine ⟨⟨order, hordered.nodup, ?_, hordered.settled hsettled⟩, ?_⟩
  · intro i
    rw [hordered.begun]
    exact ⟨fun hbegun => ⟨hbegun, hsettled i hbegun⟩, And.left⟩
  · intro d' _
    exact not_congr (instanceKey_eq_iff d' d)

end

/-! ## Sample runs -/

namespace Sample

/-- What a registration is told: the server may register, and its document resolves. -/
def registrar : Registrar where
  role := some .service
  validateUrl _ := .ok ()
  isDomain _ := true
  resolver := some fun _ => some ["WebVHHosting"]
  registeredAt := 10
  refreshedAt := 11

/-- The body of a registration. -/
def body : Json :=
  .obj [("public_url", .str "https://a.example")]

/-- The acknowledgement of an assigned domain. -/
def ack : Json :=
  .obj [("domain", .str "b.example"), ("status", .str "applied")]

/-- A registered server. -/
def row : ServiceInstance :=
  registered registrar "did:web:a" body none

/-- A registration, and an acknowledgement recorded before it refreshes. -/
def registering : Bool → RegistryTask
  | true => .serverRegister registrar body
  | false => .recordAck 12

/-- An acknowledgement that is recorded, and one whose domain is mirrored. -/
def acknowledging : Bool → RegistryTask
  | true => .domainAck (some .service) msgReplicaDomainAssignAck ack
  | false => .recordAck 12

end Sample

/-- The cycles of a registration and an acknowledgement come one after the other. -/
theorem registry_updates_kept_registering :
    (∃ order : List Bool, order.Nodup ∧
      (∀ i, i ∈ order ↔ (Run.exec Desk.step (serverRow Sample.registering "did:web:a" none)
        [true, true, false, false, true, true]).Completed i) ∧
      (Run.exec Desk.step (serverRow Sample.registering "did:web:a" none)
        [true, true, false, false, true, true]).row =
        Desk.replay (fun k => (Sample.registering k).cycles "did:web:a") order none) ∧
    ∀ d', d' ≠ "did:web:a" →
      (instanceKey (instanceId d') ≠ instanceKey (instanceId "did:web:a") ↔
        ¬ SeparatorsAside d' "did:web:a") := by
  refine registry_updates_kept Sample.registering "did:web:a" none
    [true, true, false, false, true, true] ?_ ?_
  · have hturn : ∀ m : Desk Bool ServiceInstance, ∀ i,
        (m.started.count true ≤ 1) → InTurn Sample.registering "did:web:a" m i := by
      intro m i hcount _ _ hi j hj hj'
      cases i with
      | false => cases hi
      | true =>
          cases j with
          | false => cases hj'
          | true =>
              have := hj.count_le true
              simp at this
              omega
    have hapart : Run.Meets Desk.step Desk.Apart (serverRow Sample.registering "did:web:a" none)
        [true, true, false, false, true, true] := by
      decide +kernel
    refine (Desk.upToDate_of_apart hapart).and ⟨?_, ?_, ?_, ?_, ?_, ?_, trivial⟩
    all_goals exact hturn _ _ (by decide)
  · intro i _
    cases i <;> rfl

/-- The domains a server is recorded to serve. -/
def served (row : Option ServiceInstance) : Option (List String) :=
  row.map (·.servedDomains)

/-- The acknowledgement that is recorded stores the row it read before the domain was
mirrored.  No order of the two operations leaves that row.  And two servers whose DIDs
differ in `:` against `_` have one row. -/
theorem registry_update_lost :
    (Run.exec Desk.step (serverRow Sample.acknowledging "did:web:a" (some Sample.row))
        [false, true, true, false]).Settled ∧
    (¬ ∃ order : List Bool, order.Nodup ∧
      (∀ i, i ∈ order ↔
        (Run.exec Desk.step (serverRow Sample.acknowledging "did:web:a" (some Sample.row))
          [false, true, true, false]).Completed i) ∧
      (Run.exec Desk.step (serverRow Sample.acknowledging "did:web:a" (some Sample.row))
          [false, true, true, false]).row =
        Desk.replay (fun k => (Sample.acknowledging k).cycles "did:web:a") order
          (some Sample.row)) ∧
    instanceKey (instanceId "did:web:a:b") = instanceKey (instanceId "did:web:a_b") := by
  refine ⟨?_, ?_, ?_⟩
  · intro i _
    cases i <;> rfl
  · rintro ⟨order, hnodup, hmem, hrow⟩
    have hboth : ∀ i, i ∈ order := by
      intro i
      refine (hmem i).mpr ⟨?_, ?_⟩
      · cases i <;> exact List.cons_ne_nil _ _
      · cases i <;> rfl
    have hperm : order.Perm [false, true] := by
      refine (List.perm_ext_iff_of_nodup hnodup (by decide)).mpr ?_
      intro i
      exact ⟨fun _ => by cases i <;> decide, fun _ => hboth i⟩
    obtain ⟨i, j, rfl⟩ := List.length_eq_two.mp hperm.length_eq
    have hserved := congrArg served hrow
    have hlost : served (Run.exec Desk.step
        (serverRow Sample.acknowledging "did:web:a" (some Sample.row))
        [false, true, true, false]).row = some [] := by decide +kernel
    have hfirst : served (Desk.replay (fun k => (Sample.acknowledging k).cycles "did:web:a")
        [true, false] (some Sample.row)) = some ["b.example"] := by decide +kernel
    have hlast : served (Desk.replay (fun k => (Sample.acknowledging k).cycles "did:web:a")
        [false, true] (some Sample.row)) = some ["b.example"] := by decide +kernel
    rw [hlost] at hserved
    cases i with
    | false =>
        cases j with
        | false => simp at hnodup
        | true =>
            rw [hlast] at hserved
            simp at hserved
    | true =>
        cases j with
        | false =>
            rw [hfirst] at hserved
            simp at hserved
        | true => simp at hnodup
  · decide +kernel

end Registry

end DidHosting
