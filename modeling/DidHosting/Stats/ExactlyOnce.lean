import DidHosting.Stats.Sync

/-!
# Stats are counted once

A message stays at the front of its link while it is handed on again, and the control plane
handles one message of a server at a time.  So the last accepted number of a server is that
of the message at the front, once it was handled, and a repeated message is stale.
-/

namespace DidHosting

namespace Stats

namespace StatsRun

variable {r r' : StatsRun} {server : String} {m : SyncMessage} {h : SyncHandler} {i now : ℕ}

theorem isStale_congr {last last' : Table String ℕ}
    (hsame : last'.lookup server = last.lookup server) (seq : ℕ) :
    isStale last' server seq = isStale last server seq := by
  unfold isStale
  rw [hsame]

theorem isStale_of_lookup {last : Table String ℕ} {seq : ℕ} (hpos : 0 < seq)
    (hlast : last.lookup server = some seq) : isStale last server seq = true := by
  unfold isStale
  rw [hlast]
  simp [hpos]

theorem isStale_eq_false {last : Table String ℕ} {seq : ℕ}
    (h : seq = 0 ∨ ∀ n ∈ last.lookup server, n < seq) : isStale last server seq = false := by
  unfold isStale
  obtain rfl | habove := h
  · rfl
  · cases hlast : last.lookup server with
    | none => exact Bool.and_false _
    | some n => simp [habove n hlast]

/-! ## Invariant -/

/-- Where the handling of a message stands: nothing of it is recorded before its number is
accepted; a repeated message is stale. -/
def PhaseOk (r : StatsRun) (h : SyncHandler) : Prop :=
  match h.phase with
  | .comparing =>
      r.recordedOf h.message = [] ∧ isStale r.lastSeq h.message.serverDid h.message.seq = false ∨
        r.recordedOf h.message = kept h.message ∧ 0 < h.message.seq ∧
          r.lastSeq.lookup h.message.serverDid = some h.message.seq
  | .accepting => r.recordedOf h.message = []
  | .validating =>
      r.recordedOf h.message = [] ∧
        r.lastSeq.lookup h.message.serverDid = some h.message.seq
  | .recording rest =>
      r.recordedOf h.message ++ rest.filter (fun d => decide (d.mnemonic ≠ "")) =
          kept h.message ∧
        r.lastSeq.lookup h.message.serverDid = some h.message.seq

/-- What the threads and the recordings satisfy. -/
structure ThreadInv (r : StatsRun) : Prop where
  counters : r.collector =
    r.recorded.foldl (fun c x => c.recordDeltas x.delta x.now) StatsCollector.new
  delivered : ∀ i h, r.thread i = some h → h.message ∈ r.delivered
  small : ∀ i h, r.thread i = some h → h.message.didDeltas.length ≤ maxDeltasPerSync
  phase : ∀ i h, r.thread i = some h → r.PhaseOk h
  alone : ∀ i j h h', r.thread i = some h → r.thread j = some h' →
    h.message.serverDid = h'.message.serverDid → i = j
  settled : ∀ m ∈ r.delivered, (∀ i h, r.thread i = some h → h.message ≠ m) →
    r.recordedOf m = kept m
  untouched : ∀ m, m ∉ r.delivered → r.recordedOf m = []
  refusals : r.RefusalsHarmless

/-- What the links satisfy: only the message at the front of a link has been handed on. -/
structure LinkInv (r : StatsRun) : Prop where
  numbered : ∀ m ∈ r.sent, m.sendNo < r.sent.length
  delivered : ∀ m ∈ r.delivered, m ∈ r.sent
  on_link : ∀ server, ∀ m ∈ (r.edge server).link, m ∈ r.sent ∧ m.serverDid = server
  nodup : ∀ server, (r.edge server).link.Nodup
  behind : ∀ server, ∀ m ∈ (r.edge server).link.tail, m ∉ r.delivered
  front : ∀ i h m rest, r.thread i = some h →
    (r.edge h.message.serverDid).link = m :: rest → m = h.message ∨ m ∉ r.delivered
  latest : ∀ server m rest, (r.edge server).link = m :: rest → m ∈ r.delivered →
    (∀ i h, r.thread i = some h → h.message ≠ m) → r.lastSeq.lookup server = some m.seq

/-- The invariant of orderly runs. -/
structure Inv (r : StatsRun) : Prop where
  threads : r.ThreadInv
  links : r.LinkInv

theorem inv_initial : initial.Inv where
  threads :=
    { counters := rfl
      delivered := fun _ _ hnone => nomatch hnone
      small := fun _ _ hnone => nomatch hnone
      phase := fun _ _ hnone => nomatch hnone
      alone := fun _ _ _ _ hnone => nomatch hnone
      settled := fun _ hm => absurd hm List.not_mem_nil
      untouched := fun _ _ => rfl
      refusals := fun _ hx => absurd hx List.not_mem_nil }
  links :=
    { numbered := fun _ hm => absurd hm List.not_mem_nil
      delivered := fun _ hm => absurd hm List.not_mem_nil
      on_link := fun _ _ hm => absurd hm List.not_mem_nil
      nodup := fun _ => List.nodup_nil
      behind := fun _ _ hm => absurd hm List.not_mem_nil
      front := fun _ _ _ _ hnone => nomatch hnone
      latest := fun _ _ _ hnil => nomatch hnil }

/-! ## Edges and links -/

theorem ThreadInv.setEdge (hr : r.ThreadInv) (server : String) (e : StatsEdge) :
    (r.setEdge server e).ThreadInv :=
  ⟨hr.counters, hr.delivered, hr.small, hr.phase, hr.alone, hr.settled, hr.untouched,
    hr.refusals⟩

theorem link_setEdge (r : StatsRun) (server other : String) (e : StatsEdge) :
    ((r.setEdge server e).edge other).link =
      if other = server then e.link else (r.edge other).link := by
  unfold setEdge
  dsimp only
  rw [Function.update_apply]
  split <;> rfl

theorem LinkInv.setEdge (hr : r.LinkInv) {e : StatsEdge}
    (hlink : e.link = (r.edge server).link ∨ e.link = (r.edge server).link.tail) :
    (r.setEdge server e).LinkInv := by
  have hmem : ∀ other, ∀ m ∈ ((r.setEdge server e).edge other).link,
      m ∈ (r.edge other).link := by
    intro other m hm
    rw [link_setEdge] at hm
    split at hm
    · rename_i hother
      rw [hother]
      obtain heq | heq := hlink
      · exact heq ▸ hm
      · exact List.mem_of_mem_tail (heq ▸ hm)
    · exact hm
  have hfront : ∀ other m rest, ((r.setEdge server e).edge other).link = m :: rest →
      (∃ rest', (r.edge other).link = m :: rest') ∨ m ∉ r.delivered := by
    intro other m rest hcons
    rw [link_setEdge] at hcons
    split at hcons
    · rename_i hother
      rw [hother]
      obtain heq | heq := hlink
      · exact Or.inl ⟨rest, heq ▸ hcons⟩
      · right
        apply hr.behind server m
        rw [← heq, hcons]
        exact List.mem_cons_self
    · exact Or.inl ⟨rest, hcons⟩
  refine ⟨hr.numbered, hr.delivered, fun other m hm => hr.on_link other m (hmem other m hm),
    fun other => ?_, fun other m hm => ?_, fun i h m rest hi hcons => ?_,
    fun other m rest hcons hm hfree => ?_⟩
  · rw [link_setEdge]
    split
    · obtain heq | heq := hlink
      · exact heq ▸ hr.nodup server
      · exact heq ▸ (hr.nodup server).tail
    · exact hr.nodup other
  · rw [link_setEdge] at hm
    split at hm
    · obtain heq | heq := hlink
      · exact hr.behind server m (heq ▸ hm)
      · exact hr.behind server m (List.mem_of_mem_tail (heq ▸ hm))
    · exact hr.behind other m hm
  · obtain ⟨rest', hcons'⟩ | hnew := hfront _ m rest hcons
    · exact hr.front i h m rest' hi hcons'
    · exact Or.inr hnew
  · obtain ⟨rest', hcons'⟩ | hnew := hfront other m rest hcons
    · exact hr.latest other m rest' hcons' hm hfree
    · exact absurd hm hnew

/-- A sync sends nothing, or one message under the next number. -/
theorem sync_cases (e : StatsEdge) (serverDid : String) (sendNo : ℕ) :
    (e.sync serverDid sendNo).2 = none ∧ (e.sync serverDid sendNo).1.link = e.link ∨
      ∃ message, (e.sync serverDid sendNo).2 = some message ∧ message.sendNo = sendNo ∧
        message.serverDid = serverDid ∧
        (e.sync serverDid sendNo).1.link = e.link ++ [message] := by
  unfold StatsEdge.sync
  cases e.collector.drainForSync with
  | mk deltas collector =>
      cases deltas with
      | nil => exact Or.inl ⟨rfl, rfl⟩
      | cons d ds => exact Or.inr ⟨_, rfl, rfl, rfl, rfl⟩

theorem LinkInv.sent (hr : r.LinkInv) {e : StatsEdge} (hno : m.sendNo = r.sent.length)
    (hdid : m.serverDid = server) (hlink : e.link = (r.edge server).link ++ [m]) :
    LinkInv { r.setEdge server e with sent := m :: r.sent } := by
  have hfresh : m ∉ r.delivered := by
    intro hm
    have hlt := hr.numbered m (hr.delivered m hm)
    rw [hno] at hlt
    exact Nat.lt_irrefl _ hlt
  have hlinks : ∀ other, ((r.setEdge server e).edge other).link =
      if other = server then (r.edge server).link ++ [m] else (r.edge other).link := by
    intro other
    rw [link_setEdge, hlink]
  have hfront : ∀ other x rest, ((r.setEdge server e).edge other).link = x :: rest →
      (∃ rest', (r.edge other).link = x :: rest') ∨ x ∉ r.delivered := by
    intro other x rest hcons
    rw [hlinks] at hcons
    split at hcons
    · rename_i hother
      rw [hother]
      cases hold : (r.edge server).link with
      | nil =>
          rw [hold, List.nil_append] at hcons
          obtain ⟨rfl, -⟩ := List.cons.inj hcons
          exact Or.inr hfresh
      | cons y ys =>
          rw [hold, List.cons_append] at hcons
          obtain ⟨rfl, -⟩ := List.cons.inj hcons
          exact Or.inl ⟨ys, rfl⟩
    · exact Or.inl ⟨rest, hcons⟩
  refine ⟨fun x hx => ?_, fun x hx => List.mem_cons_of_mem _ (hr.delivered x hx),
    fun other x hx => ?_, fun other => ?_, fun other x hx => ?_, fun i h x rest hi hcons => ?_,
    fun other x rest hcons hx hfree => ?_⟩
  · rw [List.length_cons]
    obtain rfl | hx := List.mem_cons.mp hx
    · rw [hno]
      exact Nat.lt_succ_self _
    · exact Nat.lt_succ_of_lt (hr.numbered x hx)
  · change x ∈ ((r.setEdge server e).edge other).link at hx
    rw [hlinks] at hx
    split at hx
    · rename_i hother
      obtain hold | hnew := List.mem_append.mp hx
      · obtain ⟨hsent, hserver⟩ := hr.on_link server x hold
        exact ⟨List.mem_cons_of_mem _ hsent, hserver.trans hother.symm⟩
      · rw [List.mem_singleton.mp hnew]
        exact ⟨List.mem_cons_self, hdid.trans hother.symm⟩
    · obtain ⟨hsent, hserver⟩ := hr.on_link other x hx
      exact ⟨List.mem_cons_of_mem _ hsent, hserver⟩
  · change ((r.setEdge server e).edge other).link.Nodup
    rw [hlinks]
    split
    · refine List.nodup_append.mpr ⟨hr.nodup server, List.nodup_singleton m, ?_⟩
      rintro x hx y hy rfl
      have hlt := hr.numbered x (hr.on_link server x hx).1
      rw [List.mem_singleton.mp hy, hno] at hlt
      exact Nat.lt_irrefl _ hlt
    · exact hr.nodup other
  · change x ∈ ((r.setEdge server e).edge other).link.tail at hx
    rw [hlinks] at hx
    split at hx
    · cases hold : (r.edge server).link with
      | nil =>
          rw [hold] at hx
          cases hx
      | cons y ys =>
          rw [hold, List.cons_append, List.tail_cons] at hx
          obtain hold' | hnew := List.mem_append.mp hx
          · apply hr.behind server x
            rw [hold, List.tail_cons]
            exact hold'
          · rw [List.mem_singleton.mp hnew]
            exact hfresh
    · exact hr.behind other x hx
  · obtain ⟨rest', hcons'⟩ | hnew := hfront _ x rest hcons
    · exact hr.front i h x rest' hi hcons'
    · exact Or.inr hnew
  · obtain ⟨rest', hcons'⟩ | hnew := hfront other x rest hcons
    · exact hr.latest other x rest' hcons' hx hfree
    · exact absurd hx hnew

theorem step_sync (r : StatsRun) (server : String) :
    r.step (.sync server) =
      { r.setEdge server ((r.edge server).sync server r.sent.length).1 with
        sent := ((r.edge server).sync server r.sent.length).2.toList ++ r.sent } :=
  rfl

theorem Inv.sync (hr : r.Inv) (server : String) : (r.step (.sync server)).Inv := by
  obtain ⟨hnone, hlink⟩ | ⟨message, hsome, hno, hdid, hlink⟩ :=
    sync_cases (r.edge server) server r.sent.length
  · have hstep : r.step (.sync server) =
        r.setEdge server ((r.edge server).sync server r.sent.length).1 := by
      rw [step_sync, hnone]
      rfl
    rw [hstep]
    exact ⟨hr.threads.setEdge server _, hr.links.setEdge (Or.inl hlink)⟩
  · have hstep : r.step (.sync server) =
        { r.setEdge server ((r.edge server).sync server r.sent.length).1 with
          sent := message :: r.sent } := by
      rw [step_sync, hsome]
      rfl
    rw [hstep]
    have hthreads := hr.threads.setEdge server ((r.edge server).sync server r.sent.length).1
    exact ⟨⟨hthreads.counters, hthreads.delivered, hthreads.small, hthreads.phase,
      hthreads.alone, hthreads.settled, hthreads.untouched, hthreads.refusals⟩,
      hr.links.sent hno hdid hlink⟩

/-! ## Handing a message on -/

theorem Inv.refused (hr : r.Inv) (signer : String) :
    Inv { r with
      refusals := ⟨signer, r.lastSeq.lookup signer, r.lastSeq.lookup signer⟩ ::
        r.refusals } where
  threads :=
    ⟨hr.threads.counters, hr.threads.delivered, hr.threads.small, hr.threads.phase,
      hr.threads.alone, hr.threads.settled, hr.threads.untouched,
      List.forall_mem_cons.mpr ⟨rfl, hr.threads.refusals⟩⟩
  links :=
    ⟨hr.links.numbered, hr.links.delivered, hr.links.on_link, hr.links.nodup, hr.links.behind,
      hr.links.front, hr.links.latest⟩

theorem Inv.handed (hr : r.Inv) {rest : List SyncMessage} (hfree : r.thread i = none)
    (hlink : (r.edge m.serverDid).link = m :: rest) (hok : r.Acceptable m) :
    Inv { r with
      thread := Function.update r.thread i
        (some ⟨m, r.lastSeq.lookup m.serverDid, .comparing⟩)
      delivered := m :: r.delivered } := by
  have hidle : ∀ j h, r.thread j = some h → h.message.serverDid ≠ m.serverDid :=
    fun j h hj hsame => hok.alone ⟨j, h, hj, hsame⟩
  have hother : ∀ j h, r.thread j = some h → h.message ≠ m :=
    fun j h hj heq => hidle j h hj (congrArg SyncMessage.serverDid heq)
  have hthread : ∀ j h, Function.update r.thread i
      (some ⟨m, r.lastSeq.lookup m.serverDid, .comparing⟩) j = some h →
      j = i ∧ h = ⟨m, r.lastSeq.lookup m.serverDid, .comparing⟩ ∨ r.thread j = some h := by
    intro j h hj
    rw [Function.update_apply] at hj
    split at hj
    · rename_i hji
      cases hj
      exact Or.inl ⟨hji, rfl⟩
    · exact Or.inr hj
  have hkeeps : ∀ j h, r.thread j = some h → Function.update r.thread i
      (some ⟨m, r.lastSeq.lookup m.serverDid, .comparing⟩) j = some h := by
    intro j h hj
    rw [Function.update_of_ne, hj]
    rintro rfl
    rw [hfree] at hj
    cases hj
  refine ⟨⟨hr.threads.counters, fun j h hj => ?_, fun j h hj => ?_, fun j h hj => ?_,
    fun j k h h' hj hk hsame => ?_, fun x hx hdone => ?_, fun x hx => ?_, hr.threads.refusals⟩,
    ⟨hr.links.numbered, ?_, hr.links.on_link, hr.links.nodup, fun server x hx => ?_,
      fun j h x rest' hj hcons => ?_, fun server x rest' hcons hx hdone => ?_⟩⟩
  · obtain ⟨-, rfl⟩ | hold := hthread j h hj
    · exact List.mem_cons_self
    · exact List.mem_cons_of_mem _ (hr.threads.delivered j h hold)
  · obtain ⟨-, rfl⟩ | hold := hthread j h hj
    · exact hok.small
    · exact hr.threads.small j h hold
  · obtain ⟨-, rfl⟩ | hold := hthread j h hj
    · by_cases hm : m ∈ r.delivered
      · exact Or.inr ⟨hr.threads.settled m hm hother, hok.repeated hm,
          hr.links.latest m.serverDid m rest hlink hm hother⟩
      · exact Or.inl ⟨hr.threads.untouched m hm, isStale_eq_false (hok.first hm)⟩
    · exact hr.threads.phase j h hold
  · obtain ⟨rfl, rfl⟩ | hold := hthread j h hj
    · obtain ⟨rfl, -⟩ | hold' := hthread k h' hk
      · rfl
      · exact absurd hsame.symm (hidle k h' hold')
    · obtain ⟨-, rfl⟩ | hold' := hthread k h' hk
      · exact absurd hsame (hidle j h hold)
      · exact hr.threads.alone j k h h' hold hold' hsame
  · obtain rfl | hx := List.mem_cons.mp hx
    · exact absurd rfl (hdone i _ (Function.update_self ..))
    · exact hr.threads.settled x hx fun j h hj => hdone j h (hkeeps j h hj)
  · exact hr.threads.untouched x fun hold => hx (List.mem_cons_of_mem _ hold)
  · intro x hx
    obtain rfl | hx := List.mem_cons.mp hx
    · refine (hr.links.on_link x.serverDid x ?_).1
      rw [hlink]
      exact List.mem_cons_self
    · exact hr.links.delivered x hx
  · rw [List.mem_cons, not_or]
    refine ⟨?_, hr.links.behind server x hx⟩
    rintro rfl
    have hserver := (hr.links.on_link server x (List.mem_of_mem_tail hx)).2
    rw [← hserver, hlink, List.tail_cons] at hx
    have hnodup := hr.links.nodup x.serverDid
    rw [hlink] at hnodup
    exact (List.nodup_cons.mp hnodup).1 hx
  · obtain ⟨-, rfl⟩ | hold := hthread j h hj
    · rw [hlink] at hcons
      exact Or.inl (List.cons.inj hcons).1.symm
    · obtain rfl | hnew := hr.links.front j h x rest' hold hcons
      · exact Or.inl rfl
      · right
        rw [List.mem_cons, not_or]
        refine ⟨?_, hnew⟩
        rintro rfl
        have hmem : x ∈ (r.edge h.message.serverDid).link := by
          rw [hcons]
          exact List.mem_cons_self
        exact hidle j h hold (hr.links.on_link _ x hmem).2.symm
  · obtain rfl | hx := List.mem_cons.mp hx
    · exact absurd rfl (hdone i _ (Function.update_self ..))
    · exact hr.links.latest server x rest' hcons hx fun j h hj => hdone j h (hkeeps j h hj)

/-! ## Handling a message -/

theorem PhaseOk.congr (hok : r.PhaseOk h)
    (hlast : r'.lastSeq.lookup h.message.serverDid = r.lastSeq.lookup h.message.serverDid)
    (hrecorded : r'.recordedOf h.message = r.recordedOf h.message) : r'.PhaseOk h := by
  unfold PhaseOk at hok ⊢
  rw [hrecorded, hlast]
  cases hphase : h.phase with
  | comparing =>
      rw [hphase] at hok
      dsimp only at hok ⊢
      rw [isStale_congr hlast]
      exact hok
  | accepting =>
      rw [hphase] at hok
      exact hok
  | validating =>
      rw [hphase] at hok
      exact hok
  | recording rest =>
      rw [hphase] at hok
      exact hok

/-- A thread goes on with its message, and may have accepted its number or recorded one of
its deltas. -/
theorem Inv.advance (hr : r.Inv) (hi : r.thread i = some h) {phase : SyncPhase}
    {lastSeq : Table String ℕ} {collector : StatsCollector} {recorded : List Recording}
    (hcounters : collector =
      recorded.foldl (fun c x => c.recordDeltas x.delta x.now) StatsCollector.new)
    (hlast : ∀ server, server ≠ h.message.serverDid →
      lastSeq.lookup server = r.lastSeq.lookup server)
    (hrecorded : ∀ x, x ≠ h.message →
      (recorded.filter fun y => decide (y.message = x)).map Recording.delta = r.recordedOf x)
    (hphase : PhaseOk { r with lastSeq := lastSeq, recorded := recorded }
      { h with phase := phase }) :
    Inv { r with
      thread := Function.update r.thread i (some { h with phase := phase })
      lastSeq := lastSeq
      collector := collector
      recorded := recorded } := by
  have hthread : ∀ j h', Function.update r.thread i (some { h with phase := phase }) j =
      some h' → j = i ∧ h' = { h with phase := phase } ∨ j ≠ i ∧ r.thread j = some h' := by
    intro j h' hj
    rw [Function.update_apply] at hj
    split at hj
    · rename_i hji
      cases hj
      exact Or.inl ⟨hji, rfl⟩
    · rename_i hji
      exact Or.inr ⟨hji, hj⟩
  have hself : Function.update r.thread i (some { h with phase := phase }) i =
      some { h with phase := phase } := Function.update_self ..
  have hothers : ∀ j h', j ≠ i → r.thread j = some h' →
      h'.message.serverDid ≠ h.message.serverDid :=
    fun j h' hne hj hsame => hne (hr.threads.alone j i h' h hj hi hsame)
  have hbefore : ∀ x : SyncMessage, (∀ j h', Function.update r.thread i
      (some { h with phase := phase }) j = some h' → h'.message ≠ x) →
      x ≠ h.message ∧ ∀ j h', r.thread j = some h' → h'.message ≠ x := by
    intro x hdone
    have hx : h.message ≠ x := hdone i { h with phase := phase } hself
    refine ⟨hx.symm, fun j h' hj => ?_⟩
    by_cases hji : j = i
    · rw [hji, hi] at hj
      cases hj
      exact hx
    · exact hdone j h' (by rw [Function.update_of_ne hji]; exact hj)
  refine ⟨⟨hcounters, fun j h' hj => ?_, fun j h' hj => ?_, fun j h' hj => ?_,
    fun j k h' h'' hj hk hsame => ?_, fun x hx hdone => ?_, fun x hx => ?_,
    hr.threads.refusals⟩,
    ⟨hr.links.numbered, hr.links.delivered, hr.links.on_link, hr.links.nodup, hr.links.behind,
      fun j h' x rest hj hcons => ?_, fun server x rest hcons hx hdone => ?_⟩⟩
  · obtain ⟨-, rfl⟩ | ⟨-, hold⟩ := hthread j h' hj
    · exact hr.threads.delivered i h hi
    · exact hr.threads.delivered j h' hold
  · obtain ⟨-, rfl⟩ | ⟨-, hold⟩ := hthread j h' hj
    · exact hr.threads.small i h hi
    · exact hr.threads.small j h' hold
  · obtain ⟨-, rfl⟩ | ⟨hne, hold⟩ := hthread j h' hj
    · exact hphase
    · have hserver := hothers j h' hne hold
      exact (hr.threads.phase j h' hold).congr (hlast _ hserver)
        (hrecorded _ fun heq => hserver (congrArg SyncMessage.serverDid heq))
  · obtain ⟨rfl, rfl⟩ | ⟨hne, hold⟩ := hthread j h' hj
    · obtain ⟨rfl, -⟩ | ⟨hne', hold'⟩ := hthread k h'' hk
      · rfl
      · exact absurd hsame.symm (hothers k h'' hne' hold')
    · obtain ⟨-, rfl⟩ | ⟨-, hold'⟩ := hthread k h'' hk
      · exact absurd hsame (hothers j h' hne hold)
      · exact hr.threads.alone j k h' h'' hold hold' hsame
  · obtain ⟨hne, hfree⟩ := hbefore x hdone
    exact (hrecorded x hne).trans (hr.threads.settled x hx hfree)
  · have hne : x ≠ h.message := fun heq => hx (heq ▸ hr.threads.delivered i h hi)
    exact (hrecorded x hne).trans (hr.threads.untouched x hx)
  · obtain ⟨-, rfl⟩ | ⟨-, hold⟩ := hthread j h' hj
    · exact hr.links.front i h x rest hi hcons
    · exact hr.links.front j h' x rest hold hcons
  · obtain ⟨hne, hfree⟩ := hbefore x hdone
    have hserver : server ≠ h.message.serverDid := by
      rintro rfl
      obtain heq | hnew := hr.links.front i h x rest hi hcons
      · exact hne heq
      · exact hnew hx
    rw [hlast server hserver]
    exact hr.links.latest server x rest hcons hx hfree

theorem Inv.finish (hr : r.Inv) (hi : r.thread i = some h)
    (hrecorded : r.recordedOf h.message = kept h.message)
    (hlast : r.lastSeq.lookup h.message.serverDid = some h.message.seq) :
    (r.setThread i none).Inv := by
  have hthread : ∀ j h', (r.setThread i none).thread j = some h' → r.thread j = some h' := by
    intro j h' hj
    change Function.update r.thread i none j = some h' at hj
    rw [Function.update_apply] at hj
    split at hj
    · cases hj
    · exact hj
  have hbefore : ∀ x : SyncMessage, x ≠ h.message →
      (∀ j h', (r.setThread i none).thread j = some h' → h'.message ≠ x) →
      ∀ j h', r.thread j = some h' → h'.message ≠ x := by
    intro x hne hdone j h' hj
    by_cases hji : j = i
    · rw [hji, hi] at hj
      cases hj
      exact hne.symm
    · refine hdone j h' ?_
      change Function.update r.thread i none j = some h'
      rw [Function.update_of_ne hji]
      exact hj
  refine ⟨⟨hr.threads.counters, fun j h' hj => hr.threads.delivered j h' (hthread j h' hj),
    fun j h' hj => hr.threads.small j h' (hthread j h' hj),
    fun j h' hj => hr.threads.phase j h' (hthread j h' hj),
    fun j k h' h'' hj hk => hr.threads.alone j k h' h'' (hthread j h' hj) (hthread k h'' hk),
    fun x hx hdone => ?_, hr.threads.untouched, hr.threads.refusals⟩,
    ⟨hr.links.numbered, hr.links.delivered, hr.links.on_link, hr.links.nodup, hr.links.behind,
      fun j h' x rest hj => hr.links.front j h' x rest (hthread j h' hj),
      fun server x rest hcons hx hdone => ?_⟩⟩
  · by_cases hne : x = h.message
    · rw [hne]
      exact hrecorded
    · exact hr.threads.settled x hx (hbefore x hne hdone)
  · by_cases hne : x = h.message
    · have hmem : x ∈ (r.edge server).link := by
        change (r.edge server).link = x :: rest at hcons
        rw [hcons]
        exact List.mem_cons_self
      rw [← (hr.links.on_link server x hmem).2, hne]
      exact hlast
    · exact hr.links.latest server x rest hcons hx (hbefore x hne hdone)

theorem Inv.handle (hr : r.Inv) (hi : r.thread i = some h) : (r.handle i now h).Inv := by
  have hok := hr.threads.phase i h hi
  have hsame : ∀ x, x ≠ h.message →
      (r.recorded.filter fun y => decide (y.message = x)).map Recording.delta =
        r.recordedOf x := fun _ _ => rfl
  unfold PhaseOk at hok
  unfold StatsRun.handle
  cases hphase : h.phase with
  | comparing =>
      rw [hphase] at hok
      dsimp only at hok ⊢
      split
      · rename_i hstale
        obtain ⟨-, hfresh⟩ | ⟨hkept, -, hlast⟩ := hok
        · rw [hstale] at hfresh
          cases hfresh
        · exact hr.finish hi hkept hlast
      · rename_i hfresh
        obtain ⟨hnone, -⟩ | ⟨-, hpos, hlast⟩ := hok
        · exact hr.advance hi hr.threads.counters (fun _ _ => rfl) hsame hnone
        · exact absurd (isStale_of_lookup hpos hlast) hfresh
  | accepting =>
      rw [hphase] at hok
      refine hr.advance hi hr.threads.counters (fun server hserver => ?_) hsame ⟨hok, ?_⟩
      · exact AList.lookup_insert_ne hserver
      · exact AList.lookup_insert _
  | validating =>
      rw [hphase] at hok
      dsimp only
      rw [if_neg (Nat.not_lt.mpr (hr.threads.small i h hi))]
      refine hr.advance hi hr.threads.counters (fun _ _ => rfl) hsame ⟨?_, hok.2⟩
      exact (congrArg (· ++ _) hok.1).trans (List.nil_append _)
  | recording rest =>
      rw [hphase] at hok
      obtain ⟨hkept, hlast⟩ := hok
      cases rest with
      | nil =>
          rw [List.filter_nil, List.append_nil] at hkept
          exact hr.finish hi hkept hlast
      | cons d rest =>
          dsimp only
          by_cases hd : d.mnemonic = ""
          · rw [if_pos hd]
            rw [List.filter_cons_of_neg (by simp [hd])] at hkept
            exact hr.advance hi hr.threads.counters (fun _ _ => rfl) hsame ⟨hkept, hlast⟩
          · rw [if_neg hd]
            rw [List.filter_cons_of_pos (by simp [hd])] at hkept
            refine hr.advance hi ?_ (fun _ _ => rfl) (fun x hx => ?_) ⟨?_, hlast⟩
            · rw [List.foldl_append, ← hr.threads.counters]
              rfl
            · rw [List.filter_append, List.map_append,
                List.filter_cons_of_neg (by simpa using hx.symm), List.filter_nil, List.map_nil,
                List.append_nil]
              rfl
            · change ((r.recorded ++ [(⟨h.message, d, now⟩ : Recording)]).filter fun y : Recording =>
                decide (y.message = h.message)).map Recording.delta ++ _ = _
              rw [List.filter_append, List.map_append, List.append_assoc,
                List.filter_cons_of_pos (by simp), List.filter_nil, List.map_singleton]
              exact hkept

/-! ## Runs -/

theorem step_deliver (r : StatsRun) (server : String) (service : Bool) (i : ℕ) :
    r.step (.deliver server service i) =
      match r.thread i, (r.edge server).link with
      | none, message :: _ => r.deliver server service i message
      | _, _ => r :=
  rfl

theorem step_handle (r : StatsRun) (i now : ℕ) :
    r.step (.handle i now) =
      match r.thread i with
      | some h => r.handle i now h
      | none => r :=
  rfl

theorem Inv.step (hr : r.Inv) {e : StatsEvent} (hok : Orderly r e) : (r.step e).Inv := by
  cases e with
  | resolve server mnemonic time =>
      exact ⟨hr.threads.setEdge server _, hr.links.setEdge (Or.inl rfl)⟩
  | update server mnemonic time =>
      exact ⟨hr.threads.setEdge server _, hr.links.setEdge (Or.inl rfl)⟩
  | sync server => exact hr.sync server
  | restart server => exact ⟨hr.threads.setEdge server _, hr.links.setEdge (Or.inl rfl)⟩
  | lose server => exact ⟨hr.threads.setEdge server _, hr.links.setEdge (Or.inr rfl)⟩
  | deliver server service i =>
      rw [step_deliver]
      cases hfree : r.thread i with
      | some h => exact hr
      | none =>
          cases hlink : (r.edge server).link with
          | nil => exact hr
          | cons m rest =>
              have hserver : m.serverDid = server := by
                refine (hr.links.on_link server m ?_).2
                rw [hlink]
                exact List.mem_cons_self
              dsimp only
              unfold deliver
              cases service with
              | false => exact hr.refused server
              | true =>
                  have hgate : ¬(!true || decide (m.serverDid ≠ server)) = true := by
                    simp [hserver]
                  dsimp only
                  rw [if_neg hgate, ← hserver]
                  exact hr.handed hfree (by rw [hserver]; exact hlink) (hok m rest hlink)
  | handle i time =>
      rw [step_handle]
      cases hi : r.thread i with
      | none => exact hr
      | some h => exact hr.handle hi

/-- Recording after recording, the entry of a DID adds up. -/
theorem entry_foldl (recorded : List Recording) (c : StatsCollector) (mnemonic : String) :
    ((recorded.foldl (fun c x => c.recordDeltas x.delta x.now) c).entry mnemonic).resolves =
        (c.entry mnemonic).resolves +
          (recorded.map (addedTo mnemonic DidStatsDelta.resolveDelta)).sum ∧
      ((recorded.foldl (fun c x => c.recordDeltas x.delta x.now) c).entry mnemonic).updates =
        (c.entry mnemonic).updates +
          (recorded.map (addedTo mnemonic DidStatsDelta.updateDelta)).sum := by
  induction recorded generalizing c with
  | nil => exact ⟨rfl, rfl⟩
  | cons x rest ih =>
      obtain ⟨hresolves, hupdates⟩ := ih (c.recordDeltas x.delta x.now)
      obtain ⟨hfirst, hfirst'⟩ :=
        StatsCollector.entry_recordDeltas x.delta x.now c mnemonic
      rw [List.foldl_cons, List.map_cons, List.map_cons, List.sum_cons, List.sum_cons,
        hresolves, hupdates, hfirst, hfirst', Nat.add_assoc, Nat.add_assoc]
      exact ⟨rfl, rfl⟩

theorem Inv.countedOnce (hr : r.Inv) : r.CountedOnce where
  counters := hr.threads.counters
  resolves := by
    intro mnemonic
    rw [hr.threads.counters, (entry_foldl r.recorded StatsCollector.new mnemonic).1]
    exact Nat.zero_add _
  updates := by
    intro mnemonic
    rw [hr.threads.counters, (entry_foldl r.recorded StatsCollector.new mnemonic).2]
    exact Nat.zero_add _
  under_way := by
    intro m
    by_cases hm : m ∈ r.delivered
    · by_cases hdone : ∀ i h, r.thread i = some h → h.message ≠ m
      · exact hr.threads.settled m hm hdone ▸ List.prefix_rfl
      · push Not at hdone
        obtain ⟨i, h, hi, rfl⟩ := hdone
        have hok := hr.threads.phase i h hi
        unfold PhaseOk at hok
        cases hphase : h.phase with
        | comparing =>
            rw [hphase] at hok
            obtain ⟨hnone, -⟩ | ⟨hkept, -⟩ := hok
            · rw [hnone]
              exact List.nil_prefix
            · exact hkept ▸ List.prefix_rfl
        | accepting =>
            rw [hphase] at hok
            exact hok ▸ List.nil_prefix
        | validating =>
            rw [hphase] at hok
            exact hok.1 ▸ List.nil_prefix
        | recording rest =>
            rw [hphase] at hok
            exact ⟨_, hok.1⟩
    · rw [hr.threads.untouched m hm]
      exact List.nil_prefix
  once := hr.threads.settled
  no_other := hr.threads.untouched

/-- The accepted number of a server is changed by the handling of its own messages only. -/
theorem lastSeq_step (r : StatsRun) (e : StatsEvent) (server : String)
    (hother : ∀ i time, e = .handle i time → ∀ h, r.thread i = some h →
      h.message.serverDid ≠ server) :
    (r.step e).lastSeq.lookup server = r.lastSeq.lookup server := by
  cases e with
  | resolve other mnemonic time => rfl
  | update other mnemonic time => rfl
  | sync other => rw [step_sync]; rfl
  | restart other => rfl
  | lose other => rfl
  | deliver other service i =>
      rw [step_deliver]
      cases r.thread i with
      | some h => rfl
      | none =>
          cases (r.edge other).link with
          | nil => rfl
          | cons m rest =>
              dsimp only
              unfold deliver
              dsimp only
              split <;> rfl
  | handle i time =>
      rw [step_handle]
      cases hi : r.thread i with
      | none => rfl
      | some h =>
          have hserver := hother i time rfl h hi
          dsimp only
          unfold StatsRun.handle
          cases h.phase with
          | comparing =>
              dsimp only
              split <;> rfl
          | accepting => exact AList.lookup_insert_ne hserver.symm
          | validating =>
              dsimp only
              split <;> rfl
          | recording rest =>
              cases rest with
              | nil => rfl
              | cons d rest =>
                  dsimp only
                  split <;> rfl

/-- In every orderly run the deltas of a payload that is handed on are added once, a refused
payload leaves the accepted number of its server, and no server changes the number that
another one's messages are compared with. -/
theorem stats_counted_once (events : List StatsEvent)
    (horderly : Run.Meets step Orderly initial events) :
    (Run.exec step initial events).CountedOnce ∧
      (Run.exec step initial events).RefusalsHarmless ∧
      ∀ e server, (∀ i time, e = .handle i time →
          ∀ h, (Run.exec step initial events).thread i = some h → h.message.serverDid ≠ server) →
        ((Run.exec step initial events).step e).lastSeq.lookup server =
          (Run.exec step initial events).lastSeq.lookup server := by
  have hinv : (Run.exec step initial events).Inv :=
    Run.exec_invariant (fun _ _ hok hr => hr.step hok) inv_initial horderly
  exact ⟨hinv.countedOnce, hinv.threads.refusals, lastSeq_step _⟩

end StatsRun

/-! ## Two edges -/

namespace StatsSample

open StatsRun

/-- The edge counts a resolution and sends it. -/
def sending : List StatsEvent :=
  [.resolve "did:a" "alice" 5, .sync "did:a"]

/-- The message is handed on and handled. -/
def handling : List StatsEvent :=
  [.deliver "did:a" true 0, .handle 0 6, .handle 0 6, .handle 0 6, .handle 0 6, .handle 0 6]

def message : SyncMessage :=
  ⟨0, "did:a", 0, [⟨"alice", 1, 0, some 5, none⟩]⟩

/-- The next message is handed on beside one of another edge, and then again. -/
def repeated : List StatsEvent :=
  [.lose "did:a", .resolve "did:a" "alice" 7, .sync "did:a", .update "did:b" "bob" 7,
    .sync "did:b", .deliver "did:a" true 0, .deliver "did:b" true 1, .handle 1 8, .handle 0 8,
    .handle 1 8, .handle 0 8, .handle 0 8, .handle 1 8, .handle 0 8, .handle 1 8, .handle 0 8,
    .handle 1 8, .deliver "did:a" true 0, .handle 0 9]

/-- The edge starts again and sends its first message. -/
def restarted : List StatsEvent :=
  [.lose "did:a", .restart "did:a", .resolve "did:a" "alice" 9, .sync "did:a"]

/-- The message of the server that is next may be handed on to one of two threads. -/
def Ready (r : StatsRun) (server : String) : Prop :=
  ∀ m ∈ (r.edge server).link.head?,
    (∀ h ∈ r.thread 0, h.message.serverDid ≠ m.serverDid) ∧
      (∀ h ∈ r.thread 1, h.message.serverDid ≠ m.serverDid) ∧
      m.didDeltas.length ≤ maxDeltasPerSync ∧ (m ∈ r.delivered → 0 < m.seq) ∧
      (m ∉ r.delivered → m.seq = 0 ∨ ∀ last ∈ r.lastSeq.lookup m.serverDid, last < m.seq)

instance (r : StatsRun) (server : String) : Decidable (Ready r server) := by
  unfold Ready
  infer_instance

theorem orderly_of_ready {r : StatsRun} {server : String} {i : ℕ} (h : Ready r server)
    (hidle : ∀ i, r.thread (i + 2) = none) : Orderly r (.deliver server true i) := by
  intro m rest hlink
  obtain ⟨hzero, hone, hsmall, hrepeated, hfirst⟩ := h m (by rw [hlink]; rfl)
  refine ⟨?_, hsmall, hrepeated, hfirst⟩
  rintro ⟨j, handler, hj, hserver⟩
  match j with
  | 0 => exact hzero handler hj hserver
  | 1 => exact hone handler hj hserver
  | j + 2 => exact nomatch (hidle j).symm.trans hj

end StatsSample

open StatsSample StatsRun in
/-- The messages of two edges, one of them repeated and one sent after a restart. -/
theorem stats_counted_once_resolved :
    let r := Run.exec step initial (sending ++ handling ++ repeated ++ restarted ++ handling)
    r.CountedOnce ∧ r.RefusalsHarmless ∧ r.delivered.length = 5 ∧ r.recorded.length = 4 := by
  have horderly : Run.Meets step Orderly initial
      (sending ++ handling ++ repeated ++ restarted ++ handling) := by
    refine ⟨trivial, trivial, orderly_of_ready ?_ fun _ => rfl, trivial, trivial, trivial, trivial,
      trivial, trivial, trivial, trivial, trivial, trivial, orderly_of_ready ?_ fun _ => rfl,
      orderly_of_ready ?_ fun _ => rfl, trivial, trivial, trivial, trivial, trivial, trivial,
      trivial, trivial, trivial, trivial, orderly_of_ready ?_ fun _ => rfl, trivial, trivial,
      trivial, trivial, trivial, orderly_of_ready ?_ fun _ => rfl, trivial, trivial, trivial,
      trivial, trivial, trivial⟩
    all_goals decide +kernel
  obtain ⟨hcounted, hharmless, -⟩ := stats_counted_once _ horderly
  exact ⟨hcounted, hharmless, by decide +kernel⟩

open StatsSample StatsRun in
/-- The first message after a start is handed on twice, and its resolution counted twice. -/
theorem restart_counted_twice :
    let r := Run.exec step initial (sending ++ handling ++ handling)
    r.collector.totalResolves = 2 ∧ ¬r.CountedOnce := by
  refine ⟨by decide +kernel, fun h => ?_⟩
  have htwice : ¬(Run.exec step initial (sending ++ handling ++ handling)).recordedOf message <+:
      kept message := by
    decide +kernel
  exact htwice (h.under_way message)

end Stats

end DidHosting
