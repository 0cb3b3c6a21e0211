import Mathlib.Data.List.Sort

/-!
# Queues in order of deadlines

A queue whose members have a deadline, kept with the earliest in front: what goes in stands
behind everything that is due no later.  Of such a queue the part in front is what is due,
and selecting members commutes with putting one in.
-/

namespace DidHosting

namespace Deadlines

variable {α β κ : Type} [LinearOrder κ] (due : α → κ)

/-- The earliest deadlines come first. -/
def InOrder (q : List α) : Prop :=
  q.Pairwise fun a b => due a ≤ due b

/-- Put `a` behind everything that is due no later. -/
def put (a : α) (q : List α) : List α :=
  q.orderedInsert (fun a b => due a < due b) a

variable {due} {a b : α} {q : List α}

theorem put_cons_of_le (h : due b ≤ due a) : put due a (b :: q) = b :: put due a q :=
  List.orderedInsert_of_not_le _ q (not_lt.mpr h)

theorem put_of_lt (h : ∀ b ∈ q, due a < due b) : put due a q = a :: q := by
  cases q with
  | nil => rfl
  | cons b q => exact List.orderedInsert_cons_of_le _ q (h b List.mem_cons_self)

/-- What is due last stands behind. -/
theorem put_of_le (h : ∀ b ∈ q, due b ≤ due a) : put due a q = q ++ [a] := by
  induction q with
  | nil => rfl
  | cons b q ih =>
      rw [put_cons_of_le (h b List.mem_cons_self), ih fun x hx => h x (List.mem_cons_of_mem b hx)]
      rfl

theorem put_perm : (put due a q).Perm (a :: q) :=
  List.perm_orderedInsert _ a q

theorem mem_put : b ∈ put due a q ↔ b = a ∨ b ∈ q :=
  List.mem_orderedInsert _

theorem InOrder.tail (h : InOrder due (b :: q)) : InOrder due q :=
  List.Pairwise.of_cons h

theorem InOrder.filter (h : InOrder due q) (p : α → Bool) : InOrder due (q.filter p) :=
  List.Pairwise.filter p h

theorem InOrder.put (h : InOrder due q) : InOrder due (put due a q) := by
  induction q with
  | nil => exact List.pairwise_singleton _ a
  | cons b q ih =>
      obtain ⟨hb, hq⟩ := List.pairwise_cons.mp h
      by_cases hle : due b ≤ due a
      · rw [put_cons_of_le hle]
        refine List.pairwise_cons.mpr ⟨?_, ih hq⟩
        intro x hx
        obtain rfl | hx := mem_put.mp hx
        · exact hle
        · exact hb x hx
      · have hlt : due a < due b := not_le.mp hle
        have hall : ∀ x ∈ b :: q, due a < due x := by
          intro x hx
          obtain rfl | hx := List.mem_cons.mp hx
          · exact hlt
          · exact lt_of_lt_of_le hlt (hb x hx)
        rw [put_of_lt hall]
        exact List.pairwise_cons.mpr ⟨fun x hx => le_of_lt (hall x hx), h⟩

/-- Selecting members commutes with putting one in. -/
theorem filter_put (h : InOrder due q) (p : α → Bool) :
    (put due a q).filter p = if p a then put due a (q.filter p) else q.filter p := by
  induction q with
  | nil =>
      change [a].filter p = if p a then [a] else []
      by_cases hp : p a = true
      · simp [hp]
      · simp [hp]
  | cons b q ih =>
      obtain ⟨hb, hq⟩ := List.pairwise_cons.mp h
      by_cases hle : due b ≤ due a
      · rw [put_cons_of_le hle]
        by_cases hpb : p b = true
        · rw [List.filter_cons_of_pos hpb, List.filter_cons_of_pos hpb, ih hq,
            put_cons_of_le hle]
          split_ifs <;> rfl
        · rw [List.filter_cons_of_neg hpb, List.filter_cons_of_neg hpb, ih hq]
      · have hlt : due a < due b := not_le.mp hle
        have hall : ∀ x ∈ b :: q, due a < due x := by
          intro x hx
          obtain rfl | hx := List.mem_cons.mp hx
          · exact hlt
          · exact lt_of_lt_of_le hlt (hb x hx)
        have hfiltered : ∀ x ∈ (b :: q).filter p, due a < due x :=
          fun x hx => hall x (List.mem_of_mem_filter hx)
        rw [put_of_lt hall, put_of_lt hfiltered, List.filter_cons]

/-- The queue may be seen through a map that keeps the deadlines. -/
theorem map_put {due' : β → κ} {f : α → β} (hf : ∀ a, due' (f a) = due a) :
    (put due a q).map f = put due' (f a) (q.map f) := by
  refine List.map_orderedInsert _ _ f q a ?_ ?_
  · intro b _
    rw [hf, hf]
  · intro b _
    rw [hf, hf]

/-- If what stands in front is not due, nothing is. -/
theorem InOrder.filter_eq_self {now : κ} (h : InOrder due (a :: q)) (ha : now < due a) :
    (a :: q).filter (fun x => decide (now < due x)) = a :: q := by
  rw [List.filter_eq_self]
  intro x hx
  obtain rfl | hx := List.mem_cons.mp hx
  · exact decide_eq_true ha
  · exact decide_eq_true (lt_of_lt_of_le ha (List.rel_of_pairwise_cons h hx))

end Deadlines

end DidHosting
