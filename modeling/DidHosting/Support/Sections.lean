import DidHosting.Support.Stages

/-!
# Sections under locks

A handler that reads a store, thinks and writes relies at the write on what it has read.
A `Conduct` says which lock an access is made under and what it finds in the store.
`Atomic.Careful` is the condition on a handler: it holds the lock of each access, and what
an access finds follows from the access before it.  In a pool of such handlers the lock of
an access is held by one handler at a time, so what an access finds can be disturbed by
accesses under other locks only.
-/

namespace DidHosting

/-- The lock that an access needs, and what it finds in the store. -/
structure Conduct (σ ω κ : Type) where
  needs : ω → Option κ
  finds : ω → σ → Prop

namespace Atomic

variable {σ ω η κ ε α β : Type} [Access σ ω] [DecidableEq κ] (C : Conduct σ ω κ) (I : σ → Prop)

/-- From the store `s` on, with the locks `held`, the handler is careful; it ends with the
locks `outer`.  While it waits, for an input or a lock, anything may happen to the store. -/
def Careful (outer : List κ) (Q : α → σ → Prop) :
    List κ → Atomic σ ω η κ ε α → σ → Prop
  | held, ret a, s => held = outer ∧ Q a s
  | held, fail _, _ => held = outer
  | _, halt, _ => True
  | held, input k, _ => ∀ x t, Careful outer Q held (k x) t
  | held, access o k, s => (∀ key, C.needs o = some key → key ∈ held) ∧ C.finds o s ∧
      ∀ t, I t → C.finds o t → Careful outer Q held (k t) (Access.perform o t)
  | held, lock key next, _ => key ∉ held ∧ ∀ t, Careful outer Q (key :: held) next t
  | held, unlock key next, _ => key ∈ held ∧ ∀ t, Careful outer Q (held.erase key) next t

variable {C I} {outer held : List κ} {Q : α → σ → Prop} {s : σ}

/-- What others do is not noticed, unless the next access no longer finds what it did. -/
theorem Careful.other {p : Atomic σ ω η κ ε α} {t : σ} (h : p.Careful C I outer Q held s)
    (hQ : ∀ a, Q a s → Q a t) (hfinds : ∀ o, p.atHand = some o → C.finds o s → C.finds o t) :
    p.Careful C I outer Q held t := by
  cases p with
  | ret a => exact ⟨h.1, hQ a h.2⟩
  | access o k => exact ⟨h.1, hfinds o rfl h.2.1, h.2.2⟩
  | _ => exact h

end Atomic

namespace Pool

variable {ι σ ω η κ ε α : Type} [DecidableEq ι] [Access σ ω] [DecidableEq κ]

/-- All handlers are careful, and the locks they hold are theirs. -/
def Careful (C : ι → Conduct σ ω κ) (I : σ → Prop) (m : Pool ι σ ω η κ ε α) : Prop :=
  ∃ held : ι → List κ,
    (∀ i, (m.handler i).Careful (C i) I [] (fun _ _ => True) (held i) m.store) ∧
      ∀ i, (held i).Nodup ∧ ∀ key ∈ held i, m.locks key = some i

variable {C : ι → Conduct σ ω κ} {I : σ → Prop} {m : Pool ι σ ω η κ ε α}

omit [DecidableEq ι] in
theorem Careful.start {s : σ} {handlers : ι → Atomic σ ω η κ ε α}
    (h : ∀ i, (handlers i).Careful (C i) I [] (fun _ _ => True) [] s) :
    Careful C I (start s handlers) :=
  ⟨fun _ => [], h, fun _ => ⟨List.nodup_nil, fun _ hkey => absurd hkey List.not_mem_nil⟩⟩

omit [DecidableEq ι] in
theorem Careful.finds (h : m.Careful C I) {i : ι} {o : ω} (hi : (m.handler i).atHand = some o) :
    (C i).finds o m.store := by
  obtain ⟨held, hcareful, -⟩ := h
  obtain ⟨k, hk⟩ := Atomic.eq_access_of_atHand hi
  have hp := hcareful i
  rw [hk] at hp
  exact hp.2.1

omit [DecidableEq ι] in
/-- Two handlers at accesses under one lock are one. -/
theorem Careful.exclusive (h : m.Careful C I) {i j : ι} {o o' : ω} {key : κ}
    (hi : (m.handler i).atHand = some o) (hj : (m.handler j).atHand = some o')
    (hkey : (C i).needs o = some key) (hkey' : (C j).needs o' = some key) : j = i := by
  obtain ⟨held, hcareful, hlocks⟩ := h
  obtain ⟨k, hk⟩ := Atomic.eq_access_of_atHand hi
  obtain ⟨k', hk'⟩ := Atomic.eq_access_of_atHand hj
  have hp := hcareful i
  have hp' := hcareful j
  rw [hk] at hp
  rw [hk'] at hp'
  have hmine := (hlocks i).2 key (hp.1 key hkey)
  rw [(hlocks j).2 key (hp'.1 key hkey')] at hmine
  exact Option.some.inj hmine

omit [Access σ ω] [DecidableEq κ] in
/-- A handler that goes on gives up its locks at its end only. -/
theorem locks_resume {i : ι} {p : Atomic σ ω η κ ε α} {key : κ} {j : ι}
    (hlock : m.locks key = some j) (hj : j ≠ i ∨ p.isDone = false) :
    (m.resume i p).locks key = some j := by
  change (if p.isDone && m.locks key = some i then none else m.locks key) = some j
  rw [if_neg, hlock]
  intro hdone
  obtain ⟨hend, hi⟩ := Bool.and_eq_true_iff.mp hdone
  rw [hlock] at hi
  rcases hj with hne | hgoes
  · exact hne (Option.some.inj (of_decide_eq_true hi))
  · rw [hgoes] at hend
    contradiction

/-- Handler `i` goes on with the locks `mine`, on a store where the others still find what
they rely on. -/
theorem Careful.resume {held : ι → List κ} (s : σ) (locks : κ → Option ι)
    (hcareful : ∀ i, (m.handler i).Careful (C i) I [] (fun _ _ => True) (held i) m.store)
    {i : ι} {p : Atomic σ ω η κ ε α} {mine : List κ}
    (hp : p.Careful (C i) I [] (fun _ _ => True) mine s)
    (hnodup : mine.Nodup) (hmine : ∀ key ∈ mine, locks key = some i)
    (hothers : ∀ j, j ≠ i → (held j).Nodup ∧ ∀ key ∈ held j, locks key = some j)
    (hfinds : ∀ j, j ≠ i → ∀ o, (m.handler j).atHand = some o →
      (C j).finds o m.store → (C j).finds o s) :
    Careful C I ({ m with store := s, locks := locks }.resume i p) := by
  -- at its end the handler has no locks
  have hends : p.Careful (C i) I [] (fun _ _ => True) (if p.isDone then [] else mine) s := by
    cases p with
    | ret a => exact ⟨rfl, trivial⟩
    | fail e => exact rfl
    | halt => trivial
    | input k => exact hp
    | access o k => exact hp
    | lock key next => exact hp
    | unlock key next => exact hp
  refine ⟨Function.update held i (if p.isDone then [] else mine), ?_, ?_⟩
  · intro j
    rw [handler_resume]
    by_cases hj : j = i
    · subst hj
      rw [if_pos rfl, Function.update_self]
      exact hends
    · rw [if_neg hj, Function.update_of_ne hj]
      exact (hcareful j).other (fun _ _ => trivial) (hfinds j hj)
  · intro j
    by_cases hj : j = i
    · subst hj
      rw [Function.update_self]
      cases hdone : p.isDone with
      | true =>
          rw [if_pos rfl]
          exact ⟨List.nodup_nil, fun _ hkey => absurd hkey List.not_mem_nil⟩
      | false =>
          rw [if_neg Bool.false_ne_true]
          exact ⟨hnodup, fun key hkey =>
            locks_resume (m := { m with store := s, locks := locks }) (hmine key hkey)
              (Or.inr hdone)⟩
    · rw [Function.update_of_ne hj]
      exact ⟨(hothers j hj).1, fun key hkey =>
        locks_resume (m := { m with store := s, locks := locks }) ((hothers j hj).2 key hkey)
          (Or.inl hj)⟩

/-- The access `o` of handler `i` leaves to those at accesses under other locks what they
find. -/
def Apart (C : ι → Conduct σ ω κ) (m : Pool ι σ ω η κ ε α) (i : ι) (o : ω) : Prop :=
  ∀ j o', j ≠ i → (m.handler j).atHand = some o' →
    (∀ key, (C i).needs o = some key → (C j).needs o' ≠ some key) →
    (C j).finds o' m.store → (C j).finds o' (Access.perform o m.store)

/-- The rule for one event: what the others find must not be disturbed by an access under
another lock. -/
theorem Careful.step (h : m.Careful C I) (hinv : I m.store) {event : PoolEvent ι η}
    (hapart : ∀ i o, m.performed event = some (i, o) → (C i).finds o m.store → m.Apart C i o) :
    (m.step event).Careful C I := by
  obtain ⟨held, hcareful, hlocks⟩ := id h
  have hquiet : ∀ i, ∀ j, j ≠ i → ∀ o, (m.handler j).atHand = some o →
      (C j).finds o m.store → (C j).finds o m.store := fun _ _ _ _ _ hfound => hfound
  cases event with
  | drop i =>
      change Careful C I (m.drop i)
      unfold Pool.drop
      by_cases hdone : (m.handler i).isDone = true
      · rw [if_pos hdone]
        exact h
      · rw [if_neg hdone]
        exact Careful.resume m.store m.locks hcareful trivial
          List.nodup_nil (fun _ hkey => absurd hkey List.not_mem_nil) (fun j _ => hlocks j)
          (hquiet i)
  | run i x =>
      have hi := hcareful i
      change Careful C I (m.run i x)
      unfold Pool.run
      cases hp : m.handler i with
      | ret a => exact h
      | fail e => exact h
      | halt => exact h
      | input k =>
          rw [hp] at hi
          exact Careful.resume m.store m.locks hcareful (hi x m.store)
            (hlocks i).1 (hlocks i).2 (fun j _ => hlocks j) (hquiet i)
      | access o k =>
          have hhand : (m.handler i).atHand = some o := by
            rw [hp]
            rfl
          have hperformed : m.performed (.run i x) = some (i, o) := by
            rw [performed, hhand]
            rfl
          rw [hp] at hi
          refine Careful.resume (Access.perform o m.store) m.locks hcareful
            (hi.2.2 m.store hinv hi.2.1) (hlocks i).1 (hlocks i).2 (fun j _ => hlocks j) ?_
          intro j hj o' ho' hfound
          refine hapart i o hperformed hi.2.1 j o' hj ho' ?_ hfound
          intro key hkey hkey'
          exact hj (h.exclusive hhand ho' hkey hkey')
      | lock key next =>
          rw [hp] at hi
          by_cases hfree : m.locks key = none
          · simp only [if_pos hfree]
            have hother : ∀ j, ∀ key' ∈ held j,
                Function.update m.locks key (some i) key' = some j := by
              intro j key' hkey'
              have hheld := (hlocks j).2 key' hkey'
              rw [Function.update_of_ne, hheld]
              rintro rfl
              rw [hfree] at hheld
              contradiction
            refine Careful.resume m.store _ hcareful (hi.2 m.store)
              (List.nodup_cons.mpr ⟨hi.1, (hlocks i).1⟩) ?_
              (fun j _ => ⟨(hlocks j).1, hother j⟩) (hquiet i)
            intro key' hkey'
            rcases List.mem_cons.mp hkey' with rfl | hmem
            · exact Function.update_self _ _ _
            · exact hother i key' hmem
          · simp only [if_neg hfree]
            exact h
      | unlock key next =>
          rw [hp] at hi
          have hmine := (hlocks i).2 key hi.1
          have hother : ∀ j key', key' ≠ key → m.locks key' = some j →
              Function.update m.locks key none key' = some j := by
            intro j key' hne hlock
            rw [Function.update_of_ne hne, hlock]
          refine Careful.resume m.store _ hcareful (hi.2 m.store)
            ((hlocks i).1.erase key) ?_ (fun j hj => ⟨(hlocks j).1, ?_⟩) (hquiet i)
          · intro key' hkey'
            obtain ⟨hne, hmem⟩ := ((hlocks i).1.mem_erase_iff).mp hkey'
            exact hother i key' hne ((hlocks i).2 key' hmem)
          · intro key' hkey'
            have hlock := (hlocks j).2 key' hkey'
            refine hother j key' ?_ hlock
            rintro rfl
            rw [hmine] at hlock
            exact hj (Option.some.inj hlock).symm

end Pool

end DidHosting
