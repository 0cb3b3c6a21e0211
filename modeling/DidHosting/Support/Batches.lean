import Mathlib.Algebra.GroupWithZero.Nat
import Mathlib.Algebra.BigOperators.Group.List.Basic
import Mathlib.Tactic.Common

/-!
# Batches with two limits

Items arrive one after the other and are collected; before an item would break one of
the two limits, what was collected is sent as a batch.  An item that breaks the limit on
the size by itself makes a batch of its own.
-/

namespace DidHosting

/-- The batches that were sent, and what has been collected since. -/
structure Batcher (α : Type) where
  sent : List (List α)
  pending : List α
  bytes : ℕ

namespace Batcher

variable {α : Type} (size : α → ℕ) (maxCount maxBytes : ℕ)

/-- Nothing was sent or collected. -/
def empty : Batcher α := ⟨[], [], 0⟩

/-- The next item would break a limit. -/
def isFull (b : Batcher α) (x : α) : Bool :=
  !b.pending.isEmpty &&
    (decide (maxCount ≤ b.pending.length) || decide (maxBytes < b.bytes + size x))

/-- What was collected is sent. -/
def flush (b : Batcher α) : Batcher α :=
  ⟨b.sent ++ [b.pending], [], 0⟩

def collect (b : Batcher α) (x : α) : Batcher α :=
  { b with pending := b.pending ++ [x], bytes := b.bytes + size x }

def push (b : Batcher α) (x : α) : Batcher α :=
  if isFull size maxCount maxBytes b x then collect size b.flush x else collect size b x

/-- The batches, with the last one. -/
def finish (b : Batcher α) : List (List α) :=
  if b.pending.isEmpty then b.sent else b.flush.sent

/-- The batch keeps the limits, or is a single item. -/
def Bounded (batch : List α) : Prop :=
  batch.length ≤ maxCount ∧ ((batch.map size).sum ≤ maxBytes ∨ batch.length = 1)

/-- What was sent and collected of the items `xs`. -/
structure Inv (xs : List α) (b : Batcher α) : Prop where
  items : b.sent.flatten ++ b.pending = xs
  bytes : b.bytes = (b.pending.map size).sum
  sent : ∀ batch ∈ b.sent, batch ≠ [] ∧ Bounded size maxCount maxBytes batch
  pending : Bounded size maxCount maxBytes b.pending

variable {size maxCount maxBytes} {xs : List α} {b : Batcher α}

theorem inv_empty : Inv size maxCount maxBytes [] (empty : Batcher α) where
  items := rfl
  bytes := rfl
  sent := nofun
  pending := ⟨Nat.zero_le _, Or.inl (Nat.zero_le _)⟩

theorem Inv.flush (h : Inv size maxCount maxBytes xs b) (hne : b.pending ≠ []) :
    Inv size maxCount maxBytes xs b.flush where
  items := by
    rw [← h.items]
    simp [Batcher.flush]
  bytes := rfl
  sent := by
    intro batch hbatch
    rcases List.mem_append.mp hbatch with hold | hnew
    · exact h.sent batch hold
    · rw [List.mem_singleton.mp hnew]
      exact ⟨hne, h.pending⟩
  pending := ⟨Nat.zero_le _, Or.inl (Nat.zero_le _)⟩

/-- An item is collected when it fits, or when nothing was collected before. -/
theorem Inv.collect {x : α} (h : Inv size maxCount maxBytes xs b)
    (hfits : b.pending = [] ∧ 0 < maxCount ∨
      b.pending.length < maxCount ∧ b.bytes + size x ≤ maxBytes) :
    Inv size maxCount maxBytes (xs ++ [x]) (b.collect size x) where
  items := by
    rw [← h.items]
    simp [Batcher.collect]
  bytes := by
    simp [Batcher.collect, h.bytes]
  sent := h.sent
  pending := by
    rcases hfits with ⟨hempty, hpos⟩ | ⟨hcount, hbytes⟩
    · have hone : (b.collect size x).pending = [x] := by simp [Batcher.collect, hempty]
      rw [hone]
      exact ⟨hpos, Or.inr rfl⟩
    · rw [h.bytes] at hbytes
      refine ⟨?_, Or.inl ?_⟩
      · change (b.pending ++ [x]).length ≤ maxCount
        rw [List.length_append]
        exact hcount
      · simpa [Batcher.collect] using hbytes

theorem Inv.push {x : α} (hpos : 0 < maxCount) (h : Inv size maxCount maxBytes xs b) :
    Inv size maxCount maxBytes (xs ++ [x]) (push size maxCount maxBytes b x) := by
  unfold Batcher.push
  cases hfull : isFull size maxCount maxBytes b x with
  | true =>
      have hne : b.pending ≠ [] := by
        intro hempty
        simp [isFull, hempty] at hfull
      rw [if_pos rfl]
      exact (h.flush hne).collect (Or.inl ⟨rfl, hpos⟩)
  | false =>
      rw [if_neg (by decide)]
      refine h.collect ?_
      by_cases hempty : b.pending = []
      · exact Or.inl ⟨hempty, hpos⟩
      · right
        simpa [isFull, hempty] using hfull

theorem Inv.foldl (hpos : 0 < maxCount) (more : List α) (h : Inv size maxCount maxBytes xs b) :
    Inv size maxCount maxBytes (xs ++ more) (more.foldl (Batcher.push size maxCount maxBytes) b) := by
  induction more generalizing xs b with
  | nil =>
      rw [List.append_nil]
      exact h
  | cons x more ih =>
      have hstep := ih (h.push (x := x) hpos)
      rwa [List.append_assoc, List.singleton_append] at hstep

/-- All items are sent, in order, in batches that keep the limits. -/
theorem Inv.finish (h : Inv size maxCount maxBytes xs b) :
    b.finish.flatten = xs ∧
      ∀ batch ∈ b.finish, batch ≠ [] ∧ Bounded size maxCount maxBytes batch := by
  unfold Batcher.finish
  by_cases hempty : b.pending = []
  · have hitems := h.items
    rw [hempty, List.append_nil] at hitems
    rw [hempty, List.isEmpty_nil, if_pos rfl]
    exact ⟨hitems, h.sent⟩
  · have hflush := h.flush hempty
    have hitems := hflush.items
    rw [if_neg (by simpa using hempty)]
    refine ⟨?_, hflush.sent⟩
    rw [← hitems]
    exact (List.append_nil _).symm

end Batcher

end DidHosting
