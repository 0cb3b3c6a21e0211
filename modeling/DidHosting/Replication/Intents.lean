import DidHosting.Replication.Directives

/-!
# Settling domain intents

The control plane keeps, for each server and domain, the latest domain operation it has
sent, so that a server which missed it is told again.  An acknowledged unassign or purge
is settled: its row is removed.  The acknowledgement is matched with the row by the kind
of the operation, and the row is removed in a second access.

The model gives every operation an issue number, which neither the row nor the
acknowledgement carries in the source.
-/

namespace DidHosting

open Text

/-! ## The rows -/

/-- The DID of a server.  `|` cannot occur in a DID. -/
structure ServerDid where
  text : String
  no_bar : '|' ∉ text.toList
deriving DecidableEq

def domainIntentPrefix (server : ServerDid) : String :=
  "domain-intent:" ++ server.text ++ String.singleton '|'

def domainIntentKey (server : ServerDid) (domain : String) : String :=
  domainIntentPrefix server ++ domain

/-- Different pairs have different rows. -/
theorem domainIntentKey_inj {s s' : ServerDid} {d d' : String}
    (h : domainIntentKey s d = domainIntentKey s' d') : s = s' ∧ d = d' := by
  have hfree : ∀ s : ServerDid, '|' ∉ ("domain-intent:" ++ s.text).toList := by
    intro s hmem
    rw [String.toList_append, List.mem_append] at hmem
    rcases hmem with hname | hdid
    · revert hname
      decide
    · exact s.no_bar hdid
  have hbefore : ∀ (s : ServerDid) (d : String),
      before '|' (domainIntentKey s d) = "domain-intent:" ++ s.text :=
    fun s d => before_append (hfree s)
  have hserver : "domain-intent:" ++ s.text = "domain-intent:" ++ s'.text := by
    rw [← hbefore s d, h, hbefore]
  have htext : s.text = s'.text := by
    have hlists := congrArg String.toList hserver
    rw [String.toList_append, String.toList_append] at hlists
    exact String.toList_inj.mp (List.append_cancel_left hlists)
  cases s
  cases s'
  cases htext
  refine ⟨rfl, ?_⟩
  have hlists := congrArg String.toList h
  unfold domainIntentKey at hlists
  rw [String.toList_append, String.toList_append] at hlists
  exact String.toList_inj.mp (List.append_cancel_left hlists)

/-- The intent is of the acknowledged kind, and not an assign. -/
def settles (op : DomainOp) (stored : Option DomainIntent) : Bool :=
  op ≠ .assign && stored.any (·.op = op)

/-! ## Operations and acknowledgements in any order -/

/-- A server's acknowledgement of a directive. -/
structure DirectiveAck where
  server : ServerDid
  row : DirectiveRow
deriving DecidableEq

/-- The row of the registry an acknowledgement is about. -/
def DirectiveAck.key (a : DirectiveAck) : String :=
  domainIntentKey a.server a.row.domain

/-- The rows, the latest operation recorded for each pair, the acknowledgements that
have arrived, and those that `settle_domain_intent` is about to remove a row for. -/
structure IntentRun where
  issued : ℕ
  stored : Table String DomainIntent
  latest : Table (ServerDid × String) DomainIntent
  acked : List DirectiveAck
  settling : List DirectiveAck

/-- A domain operation, and the two accesses of `settle_domain_intent`. -/
inductive IntentEvent where
  | record (server : ServerDid) (domain : String) (op : DomainOp)
  | ack (a : DirectiveAck)
  | remove (a : DirectiveAck)

namespace IntentRun

/-- `record_domain_intent`. -/
def record (r : IntentRun) (server : ServerDid) (domain : String) (op : DomainOp) :
    IntentRun :=
  { r with
    issued := r.issued + 1
    stored := r.stored.insert (domainIntentKey server domain) ⟨op, r.issued + 1⟩
    latest := r.latest.insert (server, domain) ⟨op, r.issued + 1⟩ }

def step (r : IntentRun) : IntentEvent → IntentRun
  | .record server domain op => r.record server domain op
  | .ack a =>
      { r with
        acked := a :: r.acked
        settling :=
          if settles a.row.op (r.stored.lookup a.key) then a :: r.settling else r.settling }
  | .remove a =>
      if a ∈ r.settling then
        { r with stored := r.stored.erase a.key, settling := r.settling.erase a }
      else r

theorem step_remove (r : IntentRun) (a : DirectiveAck) :
    r.step (.remove a) =
      if a ∈ r.settling then
        { r with stored := r.stored.erase a.key, settling := r.settling.erase a }
      else r := rfl

/-- No operation has been recorded yet. -/
def initial : IntentRun := ⟨0, ∅, ∅, [], []⟩

/-- The condition on a step: a directive that is not the latest of its pair is acknowledged
while the pair has no row or the latest operation is of another kind, and nothing is
recorded for a pair whose row is about to be removed. -/
def Calm (r : IntentRun) : IntentEvent → Prop
  | .record server domain _ =>
      ∀ a ∈ r.settling, ¬ (a.server = server ∧ a.row.domain = domain)
  | .ack a =>
      (r.stored.lookup a.key).isSome → ∀ intent ∈ r.latest.lookup (a.server, a.row.domain),
        a.row.issue ≠ intent.issue → intent.op ≠ a.row.op
  | .remove _ => True

instance (r : IntentRun) : ∀ e, Decidable (r.Calm e)
  | .record server domain _ =>
      inferInstanceAs (Decidable (∀ a ∈ r.settling, ¬ (a.server = server ∧ a.row.domain = domain)))
  | .ack a =>
      inferInstanceAs (Decidable (_ → ∀ intent ∈ r.latest.lookup (a.server, a.row.domain),
        a.row.issue ≠ intent.issue → intent.op ≠ a.row.op))
  | .remove _ => inferInstanceAs (Decidable True)

/-- What holds in a calm run. -/
structure Inv (r : IntentRun) : Prop where
  current : ∀ server domain intent,
    r.stored.lookup (domainIntentKey server domain) = some intent →
      r.latest.lookup (server, domain) = some intent
  kept : ∀ server domain intent, r.latest.lookup (server, domain) = some intent →
    intent.op = .assign ∨ ⟨server, domain, intent.op, intent.issue⟩ ∉ r.acked →
      r.stored.lookup (domainIntentKey server domain) = some intent
  settling : ∀ a ∈ r.settling, a ∈ r.acked ∧ a.row.op ≠ .assign ∧
    r.latest.lookup (a.server, a.row.domain) = some ⟨a.row.op, a.row.issue⟩

theorem inv_initial : Inv initial where
  current := fun _ _ _ h => nomatch h
  kept := fun _ _ _ h => nomatch h
  settling := fun _ h => absurd h List.not_mem_nil

section Step

variable {r : IntentRun} (h : Inv r)

include h

theorem Inv.record {server : ServerDid} {domain : String} {op : DomainOp}
    (hcalm : r.Calm (.record server domain op)) : Inv (r.record server domain op) := by
  -- the two tables change at the same pair
  have hsame : ∀ server' domain' intent,
      (r.record server domain op).latest.lookup (server', domain') = some intent →
        (server' = server ∧ domain' = domain ∧
          (r.record server domain op).stored.lookup (domainIntentKey server' domain') =
            some intent) ∨
        (r.latest.lookup (server', domain') = some intent ∧
          (r.record server domain op).stored.lookup (domainIntentKey server' domain') =
            r.stored.lookup (domainIntentKey server' domain')) := by
    intro server' domain' intent hlatest
    unfold IntentRun.record at hlatest ⊢
    simp only [Table.lookup_insert_ite] at hlatest ⊢
    by_cases hpair : (server', domain') = (server, domain)
    · rw [if_pos hpair] at hlatest
      cases hpair
      exact Or.inl ⟨rfl, rfl, by rw [if_pos rfl, hlatest]⟩
    · rw [if_neg hpair] at hlatest
      refine Or.inr ⟨hlatest, if_neg fun hkey => hpair ?_⟩
      obtain ⟨rfl, rfl⟩ := domainIntentKey_inj hkey
      rfl
  refine ⟨?_, ?_, ?_⟩
  · intro server' domain' intent hstored
    unfold IntentRun.record at hstored ⊢
    simp only [Table.lookup_insert_ite] at hstored ⊢
    by_cases hpair : (server', domain') = (server, domain)
    · cases hpair
      rw [if_pos rfl] at hstored ⊢
      exact hstored
    · rw [if_neg hpair]
      refine h.current server' domain' intent ?_
      rwa [if_neg fun hkey => hpair ?_] at hstored
      obtain ⟨rfl, rfl⟩ := domainIntentKey_inj hkey
      rfl
  · intro server' domain' intent hlatest hopen
    rcases hsame server' domain' intent hlatest with ⟨-, -, hstored⟩ | ⟨hold, hstored⟩
    · exact hstored
    · rw [hstored]
      exact h.kept server' domain' intent hold hopen
  · intro a ha
    obtain ⟨hacked, hop, hlatest⟩ := h.settling a ha
    refine ⟨hacked, hop, ?_⟩
    have hpair : ¬ (a.server, a.row.domain) = (server, domain) :=
      fun heq => hcalm a ha (Prod.mk.inj heq)
    unfold IntentRun.record
    rw [Table.lookup_insert_ite, if_neg hpair]
    exact hlatest

theorem Inv.ack {a : DirectiveAck} (hcalm : r.Calm (.ack a)) : Inv (r.step (.ack a)) := by
  refine ⟨h.current, ?_, ?_⟩
  · intro server domain intent hlatest hopen
    refine h.kept server domain intent hlatest (hopen.imp_right fun hnot hmem => ?_)
    exact hnot (List.mem_cons_of_mem _ hmem)
  · intro b hb
    change b ∈ if settles a.row.op (r.stored.lookup a.key) then a :: r.settling
      else r.settling at hb
    have hold : ∀ b ∈ r.settling, b ∈ a :: r.acked ∧ b.row.op ≠ .assign ∧
        r.latest.lookup (b.server, b.row.domain) = some ⟨b.row.op, b.row.issue⟩ :=
      fun b hb => ⟨List.mem_cons_of_mem _ (h.settling b hb).1, (h.settling b hb).2⟩
    split at hb
    · rename_i hsettles
      rcases List.mem_cons.mp hb with rfl | hb
      · unfold settles at hsettles
        rw [Bool.and_eq_true, decide_eq_true_eq, Option.any_eq_true] at hsettles
        obtain ⟨hop, intent, hstored, hkind⟩ := hsettles
        rw [decide_eq_true_eq] at hkind
        have hlatest := h.current b.server b.row.domain intent hstored
        have hissue : b.row.issue = intent.issue := by
          by_contra hne
          exact hcalm (by rw [hstored]; rfl) intent hlatest hne hkind
        refine ⟨List.mem_cons_self, hop, ?_⟩
        change r.latest.lookup (b.server, b.row.domain) = _
        rw [hlatest, ← hkind, hissue]
      · exact hold b hb
    · exact hold b hb

theorem Inv.remove (a : DirectiveAck) : Inv (r.step (.remove a)) := by
  rw [step_remove]
  split
  · rename_i ha
    obtain ⟨hacked, hop, hlatest⟩ := h.settling a ha
    refine ⟨?_, ?_, ?_⟩
    · intro server domain intent hstored
      simp only [Table.lookup_erase_ite] at hstored
      split at hstored
      · contradiction
      · exact h.current server domain intent hstored
    · intro server domain intent hlatest' hopen
      simp only [Table.lookup_erase_ite]
      rw [if_neg]
      · exact h.kept server domain intent hlatest' hopen
      · intro hkey
        obtain ⟨rfl, rfl⟩ := domainIntentKey_inj hkey
        change r.latest.lookup (a.server, a.row.domain) = some intent at hlatest'
        rw [hlatest] at hlatest'
        cases hlatest'
        rcases hopen with hassign | hunacked
        · exact hop hassign
        · exact hunacked hacked
    · intro b hb
      exact h.settling b (List.mem_of_mem_erase hb)
  · exact h

theorem Inv.step (e : IntentEvent) (hcalm : r.Calm e) : Inv (r.step e) := by
  cases e with
  | record server domain op => exact h.record hcalm
  | ack a => exact h.ack hcalm
  | remove a => exact h.remove a

/-- A row that disappears was acknowledged, and is the latest of its pair. -/
theorem Inv.removed {e : IntentEvent} {server : ServerDid} {domain : String}
    {intent : DomainIntent}
    (hstored : r.stored.lookup (domainIntentKey server domain) = some intent)
    (hgone : (r.step e).stored.lookup (domainIntentKey server domain) = none) :
    e = .remove ⟨server, domain, intent.op, intent.issue⟩ ∧
      ⟨server, domain, intent.op, intent.issue⟩ ∈ r.acked ∧
      r.latest.lookup (server, domain) = some intent := by
  have hlatest := h.current server domain intent hstored
  cases e with
  | record server' domain' op =>
      simp only [IntentRun.step, IntentRun.record, Table.lookup_insert_ite] at hgone
      split at hgone
      · contradiction
      · rw [hstored] at hgone
        contradiction
  | ack a =>
      change r.stored.lookup (domainIntentKey server domain) = none at hgone
      rw [hstored] at hgone
      contradiction
  | remove a =>
      rw [step_remove] at hgone
      split at hgone
      · rename_i ha
        simp only [Table.lookup_erase_ite] at hgone
        split at hgone
        · rename_i hkey
          obtain ⟨rfl, rfl⟩ := domainIntentKey_inj hkey
          obtain ⟨hacked, -, hlatest'⟩ := h.settling a ha
          rw [hlatest] at hlatest'
          cases hlatest'
          exact ⟨rfl, hacked, hlatest⟩
        · rw [hstored] at hgone
          contradiction
      · rw [hstored] at hgone
        contradiction

end Step

end IntentRun

/-- In every calm run a row is removed only for the acknowledgement of the directive
that carries the latest operation, and the latest operation of a pair is stored as long
as that directive is not acknowledged. -/
theorem intents_settle_on_own_ack (events : List IntentEvent)
    (hcalm : Run.Meets IntentRun.step IntentRun.Calm .initial events) :
    let r := Run.exec IntentRun.step .initial events
    (∀ server domain intent, r.latest.lookup (server, domain) = some intent →
      ⟨server, domain, intent.op, intent.issue⟩ ∉ r.acked →
        r.stored.lookup (domainIntentKey server domain) = some intent) ∧
      ∀ e server domain intent,
        r.stored.lookup (domainIntentKey server domain) = some intent →
        (r.step e).stored.lookup (domainIntentKey server domain) = none →
          e = .remove ⟨server, domain, intent.op, intent.issue⟩ ∧
            ⟨server, domain, intent.op, intent.issue⟩ ∈ r.acked ∧
            r.latest.lookup (server, domain) = some intent := by
  intro r
  have hinv : IntentRun.Inv (Run.exec IntentRun.step .initial events) :=
    Run.exec_invariant (fun _ e hcalm h => h.step e hcalm) IntentRun.inv_initial hcalm
  refine ⟨?_, ?_⟩
  · intro server domain intent hlatest hunacked
    exact hinv.kept server domain intent hlatest (Or.inr hunacked)
  · intro e server domain intent hstored hgone
    exact hinv.removed hstored hgone

/-! ## Runs of one pair -/

namespace IntentSample

def server : ServerDid := ⟨"did:web:h.io", by decide⟩

/-- The acknowledgement of the operation with a number. -/
def ackOf (op : DomainOp) (issue : ℕ) : DirectiveAck := ⟨server, ⟨"h.io", op, issue⟩⟩

/-- The domain is taken away, given back and taken away again. -/
def flapping : List IntentEvent :=
  [.record server "h.io" .unassign, .record server "h.io" .assign,
    .record server "h.io" .unassign]

end IntentSample

open IntentSample in
/-- The first unassign is acknowledged while the assign is the latest operation. -/
theorem intents_settle_on_own_ack_flapping :
    (Run.exec IntentRun.step .initial
      [.record server "h.io" .unassign, .record server "h.io" .assign, .ack (ackOf .unassign 1),
        .record server "h.io" .unassign]).stored.lookup (domainIntentKey server "h.io") =
      some ⟨.unassign, 3⟩ := by
  exact (intents_settle_on_own_ack
    [.record server "h.io" .unassign, .record server "h.io" .assign, .ack (ackOf .unassign 1),
      .record server "h.io" .unassign] (by decide)).1 server "h.io" ⟨.unassign, 3⟩ (by decide)
    (by decide)

open IntentSample in
/-- The late acknowledgement of the first unassign removes the row of the second. -/
theorem late_ack_settles_newer :
    let r := Run.exec IntentRun.step .initial
      (flapping ++ [.ack (ackOf .unassign 1), .remove (ackOf .unassign 1)])
    r.latest.lookup (server, "h.io") = some ⟨.unassign, 3⟩ ∧
      ackOf .unassign 3 ∉ r.acked ∧ r.stored.lookup (domainIntentKey server "h.io") = none := by
  decide

end DidHosting
