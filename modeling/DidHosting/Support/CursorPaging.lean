import Mathlib.Data.Finset.Card
import Mathlib.Order.Defs.LinearOrder
import Mathlib.Data.List.Pairwise
import Mathlib.Tactic.Common

/-!
# Reading a changing list behind a cursor

Every request is answered from a list of its own, ordered by a key.  A page starts behind the
key of the last item of the page before, and it names the key of its last item as the next
cursor when there is more.  Whatever happens to the list between two requests, no key is
answered twice, and a walk that comes to its end has answered every key that was in the list
at each of its requests.
-/

namespace DidHosting

namespace CursorPaging

variable {α κ γ ε : Type} [LinearOrder κ]

/-! ## One page -/

section Page

variable (key : α → κ)

/-- The items behind the cursor. -/
def behind (cursor : Option κ) (items : List α) : List α :=
  match cursor with
  | some last => items.dropWhile fun x => key x ≤ last
  | none => items

/-- The page behind the cursor, and the next cursor. -/
def page (size : ℕ) (cursor : Option κ) (items : List α) : List α × Option κ :=
  let window := (behind key cursor items).take (size + 1)
  (window.take size,
    if size < window.length then (window.take size).getLast?.map key else none)

/-- The key is behind the cursor. -/
def Behind (cursor : Option κ) (k : κ) : Prop :=
  ∀ last ∈ cursor, last < k

variable {key}

theorem mem_behind {cursor : Option κ} {items : List α}
    (hsorted : items.Pairwise fun a b => key a < key b) {x : α} :
    x ∈ behind key cursor items ↔ x ∈ items ∧ Behind cursor (key x) := by
  cases cursor with
  | none => simp [behind, Behind]
  | some last =>
      simp only [behind, Behind, Option.mem_def, Option.some.injEq, forall_eq']
      induction items with
      | nil => simp
      | cons y ys ih =>
          rw [List.pairwise_cons] at hsorted
          by_cases hy : key y ≤ last
          · rw [List.dropWhile_cons_of_pos (by simpa using hy), ih hsorted.2]
            constructor
            · rintro ⟨hmem, hlast⟩
              exact ⟨List.mem_cons_of_mem _ hmem, hlast⟩
            · rintro ⟨hmem, hlast⟩
              rcases List.mem_cons.mp hmem with rfl | hmem
              · exact absurd hlast hy.not_gt
              · exact ⟨hmem, hlast⟩
          · rw [List.dropWhile_cons_of_neg (by simpa using hy)]
            have hall : ∀ x ∈ y :: ys, last < key x := by
              intro x hx
              rcases List.mem_cons.mp hx with rfl | hx
              · exact not_le.mp hy
              · exact (not_le.mp hy).trans (hsorted.1 x hx)
            exact ⟨fun hx => ⟨hx, hall x hx⟩, And.left⟩

theorem behind_sublist (cursor : Option κ) (items : List α) :
    (behind key cursor items).Sublist items := by
  cases cursor with
  | none => exact List.Sublist.refl _
  | some last => exact List.dropWhile_sublist _

theorem page_sublist (size : ℕ) (cursor : Option κ) (items : List α) :
    (page key size cursor items).1.Sublist (behind key cursor items) :=
  (List.take_sublist _ _).trans (List.take_sublist _ _)

/-- What a page answers: it is in order and behind the cursor, and an item behind the cursor
is on it or behind the next cursor, which is the key of an item of the page. -/
theorem page_spec {size : ℕ} (hsize : 0 < size) (cursor : Option κ) {items : List α}
    (hsorted : items.Pairwise fun a b => key a < key b) :
    (page key size cursor items).1.Pairwise (fun a b => key a < key b) ∧
      (∀ x ∈ (page key size cursor items).1, x ∈ items ∧ Behind cursor (key x)) ∧
      (∀ next ∈ (page key size cursor items).2,
        (∃ x ∈ (page key size cursor items).1, key x = next) ∧
          ∀ x ∈ (page key size cursor items).1, key x ≤ next) ∧
      ∀ x ∈ items, Behind cursor (key x) → x ∉ (page key size cursor items).1 →
        ∃ next ∈ (page key size cursor items).2, next < key x := by
  have hrest : (behind key cursor items).Pairwise fun a b => key a < key b :=
    hsorted.sublist (behind_sublist cursor items)
  have hpage : (page key size cursor items).1 = (behind key cursor items).take size := by
    simp [page, List.take_take]
  have hnext : (page key size cursor items).2 =
      if size < (behind key cursor items).length then
        ((behind key cursor items).take size).getLast?.map key else none := by
    simp [page, List.take_take]
  have hsplit := List.take_append_drop size (behind key cursor items)
  have hordered := hrest
  rw [← hsplit, List.pairwise_append] at hordered
  obtain ⟨hfront, -, hcross⟩ := hordered
  refine ⟨hpage ▸ hfront, ?_, ?_, ?_⟩
  · intro x hx
    exact (mem_behind hsorted).mp ((page_sublist size cursor items).subset hx)
  · intro next hmem
    rw [hpage]
    rw [hnext] at hmem
    split at hmem
    · obtain ⟨x, hx, rfl⟩ := Option.map_eq_some_iff.mp (Option.mem_def.mp hmem)
      refine ⟨⟨x, List.mem_of_getLast? hx, rfl⟩, ?_⟩
      intro y hy
      obtain ⟨front, hfrontx⟩ : ∃ front, (behind key cursor items).take size = front ++ [x] :=
        ⟨_, (List.dropLast_append_getLast? x hx).symm⟩
      rw [hfrontx] at hfront hy
      rcases List.mem_append.mp hy with hy | hy
      · exact ((List.pairwise_append.mp hfront).2.2 y hy x List.mem_cons_self).le
      · rw [List.mem_singleton.mp hy]
    · contradiction
  · intro x hx hbehind hnot
    rw [hpage] at hnot
    have hmem := (mem_behind hsorted).mpr ⟨hx, hbehind⟩
    rw [← hsplit] at hmem
    have hdrop : x ∈ (behind key cursor items).drop size :=
      (List.mem_append.mp hmem).resolve_left hnot
    have hlong : size < (behind key cursor items).length := by
      have hpos := List.length_pos_of_mem hdrop
      rw [List.length_drop] at hpos
      omega
    have hne : (behind key cursor items).take size ≠ [] := by
      rw [← List.length_pos_iff, List.length_take]
      omega
    refine ⟨key (((behind key cursor items).take size).getLast hne), ?_, ?_⟩
    · rw [hnext, if_pos hlong, List.getLast?_eq_some_getLast hne]
      rfl
    · exact hcross _ (List.getLast_mem hne) x hdrop

/-- A page with more behind it than it has room for names a next cursor. -/
theorem page_goes_on {size : ℕ} (hsize : 0 < size) {cursor : Option κ} {items : List α}
    (hmore : size < (behind key cursor items).length) :
    (page key size cursor items).2 ≠ none := by
  have hne : (behind key cursor items).take size ≠ [] := by
    rw [← List.length_pos_iff, List.length_take]
    omega
  simp [page, List.take_take, hmore, List.getLast?_eq_some_getLast hne]

theorem page_map {β : Type} (f : β → α) (size : ℕ) (cursor : Option κ) (items : List β) :
    page key size cursor (items.map f) =
      ((page (fun x => key (f x)) size cursor items).1.map f,
        (page (fun x => key (f x)) size cursor items).2) := by
  have hbehind : behind key cursor (items.map f) =
      (behind (fun x => key (f x)) cursor items).map f := by
    cases cursor with
    | none => rfl
    | some last => exact List.dropWhile_map
  unfold page
  rw [hbehind]
  simp only [← List.map_take, List.length_map, List.getLast?_map, Option.map_map]
  rfl

end Page

/-! ## Walks -/

/-- How a walk ends. -/
inductive Ending (ε : Type) where
  | complete
  | refused (e : ε)
  | cut
deriving DecidableEq, Repr

/-- Follow the cursors from request `i` on: the pages that were answered, and how the walk
ended.  It is cut when the requests are used up. -/
def walk (serve : ℕ → Option γ → Except ε (List α × Option γ)) :
    ℕ → ℕ → Option γ → List (List α) × Ending ε
  | 0, _, _ => ([], .cut)
  | fuel + 1, i, cursor =>
      match serve i cursor with
      | .error e => ([], .refused e)
      | .ok (items, none) => ([items], .complete)
      | .ok (items, some next) =>
          (items :: (walk serve fuel (i + 1) (some next)).1,
            (walk serve fuel (i + 1) (some next)).2)

/-- A request is answered with the page of its list, or is refused.  Cursors are encoded. -/
def Serves (key : α → κ) (size : ℕ) (encode : κ → γ) (lists : ℕ → List α)
    (serve : ℕ → Option γ → Except ε (List α × Option γ)) : Prop :=
  ∀ i cursor answer, serve i (cursor.map encode) = .ok answer →
    answer = ((page key size cursor (lists i)).1,
      (page key size cursor (lists i)).2.map encode)

section Walk

variable {key : α → κ} {size : ℕ} {encode : κ → γ} {lists : ℕ → List α}
  {serve : ℕ → Option γ → Except ε (List α × Option γ)}

theorem walk_succ (hserves : Serves key size encode lists serve) (fuel i : ℕ)
    (cursor : Option κ) :
    (∃ e, walk serve (fuel + 1) i (cursor.map encode) = ([], .refused e)) ∨
      ((page key size cursor (lists i)).2 = none ∧
        walk serve (fuel + 1) i (cursor.map encode) =
          ([(page key size cursor (lists i)).1], .complete)) ∨
      ∃ next, (page key size cursor (lists i)).2 = some next ∧
        walk serve (fuel + 1) i (cursor.map encode) =
          ((page key size cursor (lists i)).1 ::
              (walk serve fuel (i + 1) ((some next).map encode)).1,
            (walk serve fuel (i + 1) ((some next).map encode)).2) := by
  cases hanswer : serve i (cursor.map encode) with
  | error e =>
      refine .inl ⟨e, ?_⟩
      simp only [walk, hanswer]
  | ok answer =>
      obtain rfl := hserves i cursor answer hanswer
      cases hnext : (page key size cursor (lists i)).2 with
      | none =>
          refine .inr (.inl ⟨rfl, ?_⟩)
          simp only [walk, hanswer, hnext, Option.map_none]
      | some next =>
          refine .inr (.inr ⟨next, rfl, ?_⟩)
          simp only [walk, hanswer, hnext, Option.map_some]

theorem walk_refused (fuel i : ℕ) (cursor : Option κ) (e : ε)
    (hserves : Serves key size encode lists serve)
    (h : (walk serve fuel i (cursor.map encode)).2 = .refused e) :
    ∃ n cursor', serve n (Option.map encode cursor') = .error e := by
  induction fuel generalizing i cursor with
  | zero => cases h
  | succ fuel ih =>
      cases hanswer : serve i (cursor.map encode) with
      | error e' =>
          simp only [walk, hanswer] at h
          cases h
          exact ⟨i, cursor, hanswer⟩
      | ok answer =>
          obtain rfl := hserves i cursor answer hanswer
          cases hnext : (page key size cursor (lists i)).2 with
          | none =>
              simp only [walk, hanswer, hnext, Option.map_none] at h
              cases h
          | some next =>
              simp only [walk, hanswer, hnext, Option.map_some] at h
              exact ih (i + 1) (some next) h

/-- A walk is cut however many requests it has when every page goes on. -/
theorem walk_cut (hsize : 0 < size) (hserves : Serves key size encode lists serve)
    (hsorted : ∀ i, (lists i).Pairwise fun a b => key a < key b)
    (hanswers : ∀ i cursor, ∃ answer, serve i (Option.map encode cursor) = .ok answer)
    (hmore : ∀ i cursor, (∀ last ∈ cursor, ∃ j < i, ∃ x ∈ lists j, key x = last) →
      (page key size cursor (lists i)).2 ≠ none)
    (fuel i : ℕ) (cursor : Option κ)
    (hcursor : ∀ last ∈ cursor, ∃ j < i, ∃ x ∈ lists j, key x = last) :
    (walk serve fuel i (cursor.map encode)).2 = .cut := by
  induction fuel generalizing i cursor with
  | zero => rfl
  | succ fuel ih =>
      obtain ⟨answer, hanswer⟩ := hanswers i cursor
      obtain rfl := hserves i cursor answer hanswer
      obtain ⟨-, hmem, hnext, -⟩ := page_spec hsize cursor (hsorted i)
      cases hcase : (page key size cursor (lists i)).2 with
      | none => exact absurd hcase (hmore i cursor hcursor)
      | some next =>
          simp only [walk, hanswer, hcase, Option.map_some]
          refine ih (i + 1) (some next) ?_
          rintro last ⟨⟩
          obtain ⟨⟨x, hx, hkey⟩, -⟩ := hnext next hcase
          exact ⟨i, Nat.lt_succ_self i, x, (hmem x hx).1, hkey⟩

variable (hsize : 0 < size) (hserves : Serves key size encode lists serve)
  (hsorted : ∀ i, (lists i).Pairwise fun a b => key a < key b)

include hsize hserves hsorted

theorem walk_pairwise (fuel i : ℕ) (cursor : Option κ) :
    (walk serve fuel i (cursor.map encode)).1.flatten.Pairwise (fun a b => key a < key b) ∧
      ∀ x ∈ (walk serve fuel i (cursor.map encode)).1.flatten, Behind cursor (key x) := by
  induction fuel generalizing i cursor with
  | zero => simp [walk]
  | succ fuel ih =>
      obtain ⟨hpage, hmem, hnext, -⟩ := page_spec hsize cursor (hsorted i)
      rcases walk_succ hserves fuel i cursor with ⟨e, hwalk⟩ | ⟨-, hwalk⟩ | ⟨next, hcursor, hwalk⟩
      · rw [hwalk]
        simp
      · rw [hwalk]
        simp only [List.flatten_cons, List.flatten_nil, List.append_nil]
        exact ⟨hpage, fun x hx => (hmem x hx).2⟩
      · obtain ⟨hrest, hbehind⟩ := ih (i + 1) (some next)
        obtain ⟨⟨last, hlast, rfl⟩, hle⟩ := hnext next hcursor
        rw [hwalk]
        simp only [List.flatten_cons, List.pairwise_append, List.mem_append]
        refine ⟨⟨hpage, hrest, ?_⟩, ?_⟩
        · intro x hx y hy
          exact (hle x hx).trans_lt (hbehind y hy _ rfl)
        · rintro x (hx | hx)
          · exact (hmem x hx).2
          · intro before hbefore
            exact ((hmem last hlast).2 before hbefore).trans (hbehind x hx _ rfl)

/-- Every page is part of the list of its request. -/
theorem walk_mem (fuel i : ℕ) (cursor : Option κ) (n : ℕ) (items : List α)
    (h : (walk serve fuel i (cursor.map encode)).1[n]? = some items) :
    ∀ x ∈ items, x ∈ lists (i + n) := by
  induction fuel generalizing i cursor n with
  | zero => simp [walk] at h
  | succ fuel ih =>
      obtain ⟨-, hmem, -, -⟩ := page_spec hsize cursor (hsorted i)
      rcases walk_succ hserves fuel i cursor with ⟨e, hwalk⟩ | ⟨-, hwalk⟩ | ⟨next, -, hwalk⟩
      · rw [hwalk] at h
        simp at h
      · rw [hwalk] at h
        cases n with
        | zero =>
            cases h
            exact fun x hx => (hmem x hx).1
        | succ n => simp at h
      · rw [hwalk] at h
        cases n with
        | zero =>
            cases h
            exact fun x hx => (hmem x hx).1
        | succ n =>
            have hrest := ih (i + 1) (some next) n h
            rwa [Nat.add_assoc, Nat.add_comm 1 n] at hrest

/-- A walk that comes to its end has answered every key that was in the list at each of its
requests. -/
theorem walk_complete (fuel i : ℕ) (cursor : Option κ)
    (hcomplete : (walk serve fuel i (cursor.map encode)).2 = .complete) (k : κ)
    (hbehind : Behind cursor k)
    (hk : ∀ n < (walk serve fuel i (cursor.map encode)).1.length,
      ∃ x ∈ lists (i + n), key x = k) :
    ∃ x ∈ (walk serve fuel i (cursor.map encode)).1.flatten, key x = k := by
  induction fuel generalizing i cursor with
  | zero => simp [walk] at hcomplete
  | succ fuel ih =>
      obtain ⟨-, -, -, hall⟩ := page_spec hsize cursor (hsorted i)
      rcases walk_succ hserves fuel i cursor with ⟨e, hwalk⟩ | ⟨hend, hwalk⟩ | ⟨next, hcursor, hwalk⟩
      · rw [hwalk] at hcomplete
        contradiction
      · rw [hwalk] at hk ⊢
        obtain ⟨x, hx, rfl⟩ := hk 0 (by simp)
        refine ⟨x, ?_, rfl⟩
        by_contra hnot
        obtain ⟨next, hnext, -⟩ := hall x hx hbehind (by simpa using hnot)
        rw [hend] at hnext
        contradiction
      · rw [hwalk] at hk hcomplete ⊢
        obtain ⟨x, hx, hxk⟩ := hk 0 (by simp)
        by_cases hpage : x ∈ (page key size cursor (lists i)).1
        · exact ⟨x, List.mem_append_left _ hpage, hxk⟩
        · obtain ⟨next', hnext, hlt⟩ := hall x hx (hxk ▸ hbehind) hpage
          rw [hcursor] at hnext
          obtain rfl : next = next' := Option.mem_some_iff.mp hnext
          have hlater : Behind (some next) k := by
            rintro last ⟨⟩
            exact hxk ▸ hlt
          obtain ⟨y, hy, hyk⟩ := ih (i + 1) (some next) hcomplete hlater (by
            intro n hn
            rw [Nat.add_assoc, Nat.add_comm 1 n]
            exact hk (n + 1) (by simpa using hn))
          exact ⟨y, List.mem_append_right _ hy, hyk⟩

/-- A walk over lists with finitely many keys is not cut: each request but the last goes on
behind one more of the keys. -/
theorem walk_not_cut (keys : Finset κ) (fuel i : ℕ) (cursor : Option κ)
    (hkeys : ∀ n, ∀ x ∈ lists (i + n), key x ∈ keys)
    (hfuel : (keys.filter fun k => ∀ last ∈ cursor, last < k).card < fuel) :
    (walk serve fuel i (cursor.map encode)).2 ≠ .cut := by
  induction fuel generalizing i cursor with
  | zero => exact absurd hfuel (Nat.not_lt_zero _)
  | succ fuel ih =>
      obtain ⟨-, hmem, hnext, -⟩ := page_spec hsize cursor (hsorted i)
      rcases walk_succ hserves fuel i cursor with ⟨e, hwalk⟩ | ⟨-, hwalk⟩ | ⟨next, hcursor, hwalk⟩
      · rw [hwalk]
        nofun
      · rw [hwalk]
        nofun
      · obtain ⟨⟨x, hx, rfl⟩, -⟩ := hnext next hcursor
        obtain ⟨hlist, hbehind⟩ := hmem x hx
        have hless : (keys.filter fun k => ∀ last ∈ some (key x), last < k).card <
            (keys.filter fun k => ∀ last ∈ cursor, last < k).card := by
          apply Finset.card_lt_card
          rw [Finset.ssubset_iff_of_subset]
          · refine ⟨key x, ?_, ?_⟩
            · exact Finset.mem_filter.mpr ⟨hkeys 0 x hlist, hbehind⟩
            · intro hin
              exact lt_irrefl _ ((Finset.mem_filter.mp hin).2 _ rfl)
          · intro k hk
            obtain ⟨hin, hlast⟩ := Finset.mem_filter.mp hk
            exact Finset.mem_filter.mpr ⟨hin, fun last hl =>
              (hbehind last hl).trans (hlast _ rfl)⟩
        rw [hwalk]
        refine ih (i + 1) (some (key x)) ?_ (by omega)
        intro n
        rw [Nat.add_assoc, Nat.add_comm 1 n]
        exact hkeys (n + 1)

end Walk

end CursorPaging

end DidHosting
