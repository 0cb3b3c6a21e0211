import DidHosting.Identity.Generation

/-!
# The generations found in the store

`load_generations` returns the live rows, with the current one in front.  Each row is under
the id of its generation, and no live row has an id above that of the current generation;
so the generation in front is the current one, or else the newest, and the others are older.
-/

namespace DidHosting

namespace Identity

/-! ## The swap -/

theorem swapToFront_perm (p : IdentityGeneration → Bool) (l : List IdentityGeneration) :
    (swapToFront p l).Perm l := by
  cases l with
  | nil => exact List.Perm.refl _
  | cons g rest =>
      rw [swapToFront]
      by_cases hg : p g = true
      · rw [if_pos hg]
      · rw [if_neg hg]
        cases hfind : rest.find? p with
        | none => exact List.Perm.refl _
        | some first =>
            obtain ⟨hfirst, front, back, rfl, hfront⟩ := List.find?_eq_some_iff_append.mp hfind
            have hidx : (front ++ first :: back).findIdx p = front.length := by
              have hnone : front.findIdx p = front.length :=
                List.findIdx_eq_length_of_false fun x hx => by simpa using hfront x hx
              rw [List.findIdx_append, hnone, if_neg (Nat.lt_irrefl _), List.findIdx_cons, hfirst]
              simp
            change (first :: (front ++ first :: back).set _ g).Perm _
            rw [hidx, List.set_append_right _ _ (Nat.le_refl _), Nat.sub_self, List.set_cons_zero]
            calc (first :: (front ++ g :: back)).Perm (first :: g :: (front ++ back)) :=
                  List.Perm.cons first List.perm_middle
              _ |>.Perm (g :: first :: (front ++ back)) := List.Perm.swap g first _
              _ |>.Perm (g :: (front ++ first :: back)) := List.Perm.cons g List.perm_middle.symm

theorem head_swapToFront {p : IdentityGeneration → Bool} {l : List IdentityGeneration}
    (h : ∃ x ∈ l, p x = true) : ∃ first rest, swapToFront p l = first :: rest ∧ p first = true := by
  cases l with
  | nil =>
      obtain ⟨x, hx, -⟩ := h
      cases hx
  | cons g rest =>
      rw [swapToFront]
      by_cases hg : p g = true
      · rw [if_pos hg]
        exact ⟨g, rest, rfl, hg⟩
      · rw [if_neg hg]
        cases hfind : rest.find? p with
        | none =>
            obtain ⟨x, hx, hpx⟩ := h
            obtain rfl | hx := List.mem_cons.mp hx
            · exact absurd hpx hg
            · exact absurd hpx (List.find?_eq_none.mp hfind x hx)
        | some first => exact ⟨first, _, rfl, List.find?_some hfind⟩

theorem swapToFront_of_none {p : IdentityGeneration → Bool} {l : List IdentityGeneration}
    (h : ∀ x ∈ l, p x = false) : swapToFront p l = l := by
  cases l with
  | nil => rfl
  | cons g rest =>
      rw [swapToFront]
      have hfind : rest.find? p = none := by
        rw [List.find?_eq_none]
        intro x hx
        rw [h x (List.mem_cons_of_mem g hx)]
        exact Bool.false_ne_true
      rw [if_neg (by rw [h g List.mem_cons_self]; exact Bool.false_ne_true), hfind]

/-! ## Rows -/

section

variable {records : Table ℕ IdentityGeneration} {currentId : Option ℕ} {now : ℕ}

instance : Std.Total NotOlder where
  total a b := Nat.le_total b.id a.id

instance : IsTrans IdentityGeneration NotOlder where
  trans _ _ _ hab hbc := Nat.le_trans hbc hab

/-- The live rows, newest first. -/
def newestFirst (records : Table ℕ IdentityGeneration) (now : ℕ) : List IdentityGeneration :=
  (((Table.rows records).map Prod.snd).filter (·.isLive now)).insertionSort NotOlder

theorem loadGenerations_perm :
    (loadGenerations currentId records now).Perm
      (((Table.rows records).map Prod.snd).filter (·.isLive now)) := by
  have hsort : (newestFirst records now).Perm
      (((Table.rows records).map Prod.snd).filter (·.isLive now)) :=
    List.perm_insertionSort _ _
  unfold loadGenerations
  cases currentId with
  | none => exact hsort
  | some id => exact (swapToFront_perm _ _).trans hsort

/-- The live rows are loaded, and nothing else. -/
theorem mem_loadGenerations {g : IdentityGeneration} :
    g ∈ loadGenerations currentId records now ↔
      (∃ id, records.lookup id = some g) ∧ g.isLive now = true := by
  rw [loadGenerations_perm.mem_iff, List.mem_filter, List.mem_map]
  constructor
  · rintro ⟨⟨⟨id, r⟩, hrow, rfl⟩, hlive⟩
    exact ⟨⟨id, Table.mem_rows.mp hrow⟩, hlive⟩
  · rintro ⟨⟨id, hlookup⟩, hlive⟩
    exact ⟨⟨(id, g), Table.mem_rows.mpr hlookup, rfl⟩, hlive⟩

/-- Each row is under the id of its generation, and no live one has an id above that of the
current generation. -/
structure RowsKept (records : Table ℕ IdentityGeneration) (currentId : Option ℕ) (now : ℕ) :
    Prop where
  keyed : ∀ id r, records.lookup id = some r → r.id = id
  bounded : ∀ c, currentId = some c →
    ∀ id r, records.lookup id = some r → r.isLive now = true → id ≤ c

theorem RowsKept.ids_nodup (h : RowsKept records currentId now) :
    ((loadGenerations currentId records now).map (·.id)).Nodup := by
  rw [(loadGenerations_perm.map _).nodup_iff]
  have hkeys : ((Table.rows records).map Prod.snd).map (·.id) =
      (Table.rows records).map (·.1) := by
    rw [List.map_map]
    refine List.map_congr_left ?_
    rintro ⟨id, r⟩ hrow
    exact h.keyed id r (Table.mem_rows.mp hrow)
  have hall : (((Table.rows records).map Prod.snd).map (·.id)).Nodup := by
    rw [hkeys]
    exact Table.keys_rows_nodup records
  exact hall.sublist (List.Sublist.map _ List.filter_sublist)

/-- The current generation is in front, where it has a live row. -/
theorem RowsKept.head_of_current (h : RowsKept records currentId now) {c : ℕ}
    {r : IdentityGeneration} (hc : currentId = some c) (hr : records.lookup c = some r)
    (hlive : r.isLive now = true) :
    ∃ rest, loadGenerations currentId records now = r :: rest := by
  have hid : r.id = c := h.keyed c r hr
  have hmem : r ∈ loadGenerations currentId records now :=
    mem_loadGenerations.mpr ⟨⟨c, hr⟩, hlive⟩
  have hfound : ∃ x ∈ newestFirst records now, (x.id == c) = true := by
    refine ⟨r, ?_, by simp [hid]⟩
    rw [loadGenerations_perm.mem_iff] at hmem
    exact (List.perm_insertionSort _ _).mem_iff.mpr hmem
  obtain ⟨first, rest, hlist, hfirst⟩ := head_swapToFront hfound
  have hload : loadGenerations currentId records now = first :: rest := by
    rw [hc]
    exact hlist
  refine ⟨rest, ?_⟩
  have hfirstmem : first ∈ loadGenerations currentId records now := by
    rw [hload]
    exact List.mem_cons_self
  obtain ⟨⟨id, hlookup⟩, -⟩ := mem_loadGenerations.mp hfirstmem
  have hsame : id = c := (h.keyed id first hlookup).symm.trans (by simpa using hfirst)
  rw [hsame, hr] at hlookup
  cases hlookup
  exact hload

/-- What stands behind the generation in front is older. -/
theorem RowsKept.tail_lt (h : RowsKept records currentId now) {first : IdentityGeneration}
    {rest : List IdentityGeneration}
    (hload : loadGenerations currentId records now = first :: rest) :
    ∀ g ∈ rest, g.id < first.id := by
  intro g hg
  have hnodup := h.ids_nodup
  rw [hload, List.map_cons, List.nodup_cons] at hnodup
  have hne : g.id ≠ first.id := fun hid =>
    hnodup.1 (hid ▸ List.mem_map_of_mem hg)
  suffices hle : g.id ≤ first.id by omega
  have hgmem : g ∈ loadGenerations currentId records now := by
    rw [hload]
    exact List.mem_cons_of_mem first hg
  have hsorted : (newestFirst records now).Pairwise NotOlder :=
    List.pairwise_insertionSort _ _
  have hnewest : loadGenerations currentId records now = newestFirst records now →
      g.id ≤ first.id := by
    intro heq
    rw [← heq, hload, List.pairwise_cons] at hsorted
    exact hsorted.1 g hg
  cases hcurrent : currentId with
  | none =>
      apply hnewest
      rw [hcurrent]
      rfl
  | some c =>
      by_cases hfound : ∃ x ∈ newestFirst records now, (x.id == c) = true
      · obtain ⟨first', rest', hlist, hfirst⟩ := head_swapToFront hfound
        have hload' : loadGenerations currentId records now = first' :: rest' := by
          rw [hcurrent]
          exact hlist
        rw [hload] at hload'
        cases hload'
        obtain ⟨⟨id, hlookup⟩, hlive⟩ := mem_loadGenerations.mp hgmem
        have hle := h.bounded c hcurrent id g hlookup hlive
        have hid := h.keyed id g hlookup
        have hfc : first.id = c := by simpa using hfirst
        omega
      · apply hnewest
        rw [hcurrent]
        refine swapToFront_of_none ?_
        intro x hx
        by_contra hx'
        exact hfound ⟨x, hx, by simpa using hx'⟩

end

end Identity

end DidHosting
