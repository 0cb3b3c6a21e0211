import Mathlib.Data.List.Infix
import Mathlib.Tactic.Common

/-!
# Hash-linked logs

Every event of a linked log names the digest of the event before it.  Where a
digest belongs to one event only, an event therefore fixes everything before
it: two linked logs that carry the same event at one place agree up to that
place.  Whether one log extends another can be read off a single event, the
last one both of them have.
-/

namespace DidHosting.HashChain

variable {α δ : Type*} (digest : α → δ) (prior : α → Option δ)

/-- Each event names the digest of the one before it; the first one names
`before`. -/
def Linked (before : Option δ) : List α → Prop
  | [] => True
  | e :: rest => prior e = before ∧ Linked (some (digest e)) rest

/-- Among the events of `S`, a digest belongs to one event. -/
def CollisionFree (S : Set α) : Prop :=
  ∀ e ∈ S, ∀ e' ∈ S, digest e = digest e' → e = e'

/-- Two logs carry events of the same digest at the last place both of them
have. -/
def Agree (xs ys : List α) : Prop :=
  (xs[min xs.length ys.length - 1]?).map digest =
    (ys[min xs.length ys.length - 1]?).map digest

instance [DecidableEq δ] (xs ys : List α) : Decidable (Agree digest xs ys) :=
  inferInstanceAs (Decidable (_ = _))

variable {digest prior} {before : Option δ} {S : Set α} {xs ys : List α}

/-- The event after an event names its digest. -/
theorem Linked.prior_succ (h : Linked digest prior before xs) {n : ℕ} {e : α}
    (he : xs[n + 1]? = some e) : ∃ d, xs[n]? = some d ∧ prior e = some (digest d) := by
  induction xs generalizing before n with
  | nil => simp at he
  | cons x rest ih =>
      rw [List.getElem?_cons_succ] at he
      cases n with
      | zero =>
          cases rest with
          | nil => simp at he
          | cons y more =>
              rw [List.getElem?_cons_zero] at he
              cases he
              exact ⟨x, rfl, h.2.1⟩
      | succ n =>
          obtain ⟨d, hd, hprior⟩ := ih h.2 he
          exact ⟨d, by rw [List.getElem?_cons_succ, hd], hprior⟩

/-- An event fixes every event before it. -/
theorem Linked.agree_below (hS : CollisionFree digest S)
    (hx : Linked digest prior before xs) (hy : Linked digest prior before ys)
    (hxs : ∀ e ∈ xs, e ∈ S) (hys : ∀ e ∈ ys, e ∈ S) {n : ℕ} {e : α}
    (hxe : xs[n]? = some e) (hye : ys[n]? = some e) :
    ∀ k ≤ n, xs[k]? = ys[k]? := by
  induction n generalizing e with
  | zero =>
      intro k hk
      rw [Nat.le_zero.mp hk, hxe, hye]
  | succ n ih =>
      intro k hk
      obtain ⟨d, hxd, hpx⟩ := hx.prior_succ hxe
      obtain ⟨d', hyd, hpy⟩ := hy.prior_succ hye
      have hdigest : digest d = digest d' := Option.some.inj (hpx.symm.trans hpy)
      have hsame : d = d' :=
        hS d (hxs d (List.mem_of_getElem? hxd)) d' (hys d' (List.mem_of_getElem? hyd)) hdigest
      subst hsame
      rcases Nat.lt_or_ge n k with hlt | hle
      · have hkn : k = n + 1 := by omega
        rw [hkn, hxe, hye]
      · exact ih hxd hyd k hle

/-- A log extends a shorter one exactly if they agree at the last event of the
shorter one. -/
theorem Linked.isPrefix_iff (hS : CollisionFree digest S)
    (hx : Linked digest prior before xs) (hy : Linked digest prior before ys)
    (hxs : ∀ e ∈ xs, e ∈ S) (hys : ∀ e ∈ ys, e ∈ S)
    (hne : xs ≠ []) (hlength : xs.length ≤ ys.length) :
    xs.map digest <+: ys.map digest ↔ Agree digest xs ys := by
  have hmin : min xs.length ys.length = xs.length := Nat.min_eq_left hlength
  have hpos : 0 < xs.length := List.length_pos_of_ne_nil hne
  have hlast : xs.length - 1 < xs.length := by omega
  unfold Agree
  rw [hmin]
  constructor
  · intro hextends
    have hget := List.prefix_iff_getElem?.mp hextends (xs.length - 1)
      (by rw [List.length_map]; exact hlast)
    rw [← List.getElem?_map, ← List.getElem?_map, hget, List.getElem?_eq_getElem]
  · intro hagree
    obtain ⟨e, he⟩ : ∃ e, xs[xs.length - 1]? = some e :=
      ⟨_, List.getElem?_eq_getElem hlast⟩
    obtain ⟨e', he'⟩ : ∃ e', ys[xs.length - 1]? = some e' :=
      ⟨_, List.getElem?_eq_getElem (by omega)⟩
    rw [he, he', Option.map_some, Option.map_some, Option.some.injEq] at hagree
    have hsame : e = e' :=
      hS e (hxs e (List.mem_of_getElem? he)) e' (hys e' (List.mem_of_getElem? he')) hagree
    subst hsame
    have hbelow := hx.agree_below hS hy hxs hys he he'
    have hextends : xs <+: ys := by
      rw [List.prefix_iff_getElem?]
      intro k hk
      rw [← hbelow k (by omega), List.getElem?_eq_getElem hk]
    exact hextends.map digest

end DidHosting.HashChain
