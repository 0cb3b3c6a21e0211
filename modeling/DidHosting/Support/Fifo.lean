import Mathlib.Data.List.Sort
import Mathlib.Tactic.Common

/-!
# Queues served from the front

A queue keeps the rows that wait, the keys in the order they were pushed, and the
keys that were sent, oldest first.  A key may be sent again while its row is at
the front.  Rows may leave the queue anywhere; only the front row is sent or
rewritten, and only a rewritten row can be busy.
-/

namespace DidHosting

/-- The keys pushed, the rows that wait and the keys sent. -/
structure Fifo (κ ν : Type) where
  pushed : List κ
  waiting : List (κ × ν)
  sent : List κ

namespace Fifo

variable {κ ν : Type} [DecidableEq κ]

/-- The queue is served in the order it was filled. -/
structure Ordered (busy : ν → Prop) (q : Fifo κ ν) : Prop where
  nodup : q.pushed.Nodup
  waiting : (q.waiting.map Prod.fst).Sublist q.pushed
  sent_mem : ∀ k ∈ q.sent, k ∈ q.pushed
  sent : q.sent.Pairwise fun a b => q.pushed.idxOf a ≤ q.pushed.idxOf b
  ahead : ∀ a ∈ q.sent, ∀ row ∈ q.waiting, q.pushed.idxOf a ≤ q.pushed.idxOf row.1
  idle : ∀ row ∈ q.waiting.tail, ¬ busy row.2

variable {busy : ν → Prop} {pushed sent : List κ} {waiting rest : List (κ × ν)} {k : κ} {v : ν}

theorem ordered_empty : Ordered busy (⟨[], [], []⟩ : Fifo κ ν) where
  nodup := List.nodup_nil
  waiting := List.Sublist.refl _
  sent_mem := fun _ h => absurd h List.not_mem_nil
  sent := List.Pairwise.nil
  ahead := fun _ h => absurd h List.not_mem_nil
  idle := fun _ h => absurd h List.not_mem_nil

/-- A key of a longer history has the place it had. -/
theorem idxOf_append_singleton {a : κ} (h : a ∈ pushed) (k : κ) :
    (pushed ++ [k]).idxOf a = pushed.idxOf a :=
  List.idxOf_append_of_mem h

/-- The history is ordered by its own places. -/
theorem pairwise_idxOf (h : pushed.Nodup) :
    pushed.Pairwise fun a b => pushed.idxOf a ≤ pushed.idxOf b := by
  rw [List.pairwise_iff_getElem]
  intro i j hi hj hij
  rw [h.idxOf_getElem i hi, h.idxOf_getElem j hj]
  exact hij.le

theorem Ordered.pass (h : Ordered busy ⟨pushed, waiting, sent⟩) (hk : k ∉ pushed) :
    Ordered busy ⟨pushed ++ [k], waiting, sent⟩ where
  nodup := List.nodup_append.mpr ⟨h.nodup, List.nodup_singleton k, by
    intro a ha b hb
    rw [List.mem_singleton.mp hb]
    exact fun heq => hk (heq ▸ ha)⟩
  waiting := h.waiting.trans (List.sublist_append_left ..)
  sent_mem := fun a ha => List.mem_append_left _ (h.sent_mem a ha)
  sent := by
    refine List.Pairwise.imp_of_mem ?_ h.sent
    intro a b ha hb hab
    rw [idxOf_append_singleton (h.sent_mem a ha), idxOf_append_singleton (h.sent_mem b hb)]
    exact hab
  ahead := by
    intro a ha row hrow
    have hmem : row.1 ∈ pushed := h.waiting.subset (List.mem_map_of_mem hrow)
    rw [idxOf_append_singleton (h.sent_mem a ha), idxOf_append_singleton hmem]
    exact h.ahead a ha row hrow
  idle := h.idle

theorem Ordered.push (h : Ordered busy ⟨pushed, waiting, sent⟩) (hk : k ∉ pushed)
    (hv : ¬ busy v) : Ordered busy ⟨pushed ++ [k], waiting ++ [(k, v)], sent⟩ := by
  have hpass := h.pass hk
  refine ⟨hpass.nodup, ?_, hpass.sent_mem, hpass.sent, ?_, ?_⟩
  · rw [List.map_append]
    exact h.waiting.append (List.Sublist.refl _)
  · intro a ha row hrow
    rcases List.mem_append.mp hrow with hold | hnew
    · exact hpass.ahead a ha row hold
    · have hlt : pushed.idxOf a < pushed.length := List.idxOf_lt_length_of_mem (h.sent_mem a ha)
      have hlast : (pushed ++ [k]).idxOf k = pushed.length := by
        rw [List.idxOf_append_of_notMem hk, List.idxOf_cons_self, Nat.add_zero]
      rw [List.mem_singleton.mp hnew, idxOf_append_singleton (h.sent_mem a ha), hlast]
      exact hlt.le
  · intro row hrow
    cases waiting with
    | nil => exact absurd hrow List.not_mem_nil
    | cons first waiting =>
        rcases List.mem_append.mp hrow with hold | hnew
        · exact h.idle row hold
        · rw [List.mem_singleton.mp hnew]
          exact hv

theorem Ordered.shrink (h : Ordered busy ⟨pushed, waiting, sent⟩)
    (hrest : rest.Sublist waiting) : Ordered busy ⟨pushed, rest, sent⟩ where
  nodup := h.nodup
  waiting := (hrest.map Prod.fst).trans h.waiting
  sent_mem := h.sent_mem
  sent := h.sent
  ahead := fun a ha row hrow => h.ahead a ha row (hrest.subset hrow)
  idle := fun row hrow => h.idle row (hrest.tail.subset hrow)

/-- A new value for the front row. -/
theorem Ordered.rewrite (h : Ordered busy ⟨pushed, (k, v) :: rest, sent⟩) (v' : ν) :
    Ordered busy ⟨pushed, (k, v') :: rest, sent⟩ where
  nodup := h.nodup
  waiting := h.waiting
  sent_mem := h.sent_mem
  sent := h.sent
  ahead := by
    intro a ha row hrow
    rcases List.mem_cons.mp hrow with hfirst | hrest
    · rw [hfirst]
      exact h.ahead a ha (k, v) List.mem_cons_self
    · exact h.ahead a ha row (List.mem_cons_of_mem _ hrest)
  idle := h.idle

theorem Ordered.send (h : Ordered busy ⟨pushed, (k, v) :: rest, sent⟩) :
    Ordered busy ⟨pushed, (k, v) :: rest, sent ++ [k]⟩ where
  nodup := h.nodup
  waiting := h.waiting
  sent_mem := by
    intro a ha
    rcases List.mem_append.mp ha with hold | hnew
    · exact h.sent_mem a hold
    · rw [List.mem_singleton.mp hnew]
      exact h.waiting.subset List.mem_cons_self
  sent := by
    refine List.pairwise_append.mpr ⟨h.sent, List.pairwise_singleton _ _, ?_⟩
    intro a ha b hb
    rw [List.mem_singleton.mp hb]
    exact h.ahead a ha (k, v) List.mem_cons_self
  ahead := by
    intro a ha row hrow
    rcases List.mem_append.mp ha with hold | hnew
    · exact h.ahead a hold row hrow
    · rw [List.mem_singleton.mp hnew]
      rcases List.mem_cons.mp hrow with hfirst | hrest
      · rw [hfirst]
      · -- the keys behind the front come after it in the history
        have horder := (pairwise_idxOf h.nodup).sublist h.waiting
        exact (List.pairwise_cons.mp horder).1 row.1 (List.mem_map_of_mem hrest)
  idle := h.idle

end Fifo

end DidHosting
