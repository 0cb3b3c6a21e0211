import DidHosting.Common.KeyEvents
import DidHosting.Control.Operable
import DidHosting.Edge.WebsHistory

/-!
# The streams of a did:webs slot

A did:webs slot of the control plane holds one key event stream at a time, and
every publication of the slot is judged against it.  As long as no publication
forks the stream, and nothing but a publication replaces it, each stream the
slot has held is extended by each later one.
-/

namespace DidHosting

open Text

/-- The slot holds a did:webs stream. -/
def HoldsStream (s : ControlStore) (m stream : String) : Prop :=
  ∃ r, s.record m = some r ∧ r.method = .webs ∧ s.log m = some stream

theorem HoldsStream.unique {s : ControlStore} {m stream stream' : String}
    (h : HoldsStream s m stream) (h' : HoldsStream s m stream') : stream = stream' := by
  obtain ⟨_, _, _, hlog⟩ := h
  obtain ⟨_, _, _, hlog'⟩ := h'
  exact Option.some.inj (hlog.symm.trans hlog')

/-- The request does not fork the stream slot `m` holds; it neither removes nor
rolls back the slot, and does not hand it to another method. -/
def Op.ContinuesStream (L : Libs) (log : String → String → List KeriEvent)
    (m held : String) : Op → Prop
  | .register _ _ path didLog _ _ =>
      path = m → detectMethod L didLog = some .webs ∧ Unforked log (slotAid m) held didLog
  | .publish _ _ mnemonic didLog _ => mnemonic = m → Unforked log (slotAid m) held didLog
  | .agentName _ _ mnemonic _ didLog _ _ =>
      mnemonic = m → Unforked log (slotAid m) held didLog
  | .create _ _ path _ _ _ => path ≠ some m
  | .delete _ mnemonic _ => mnemonic ≠ m
  | .rollback _ _ mnemonic _ => mnemonic ≠ m
  | _ => True

/-- The event leaves the history of slot `m` to grow. -/
def Event.ContinuesStream (L : Libs) (log : String → String → List KeriEvent) (m : String)
    (s : ControlStore) : Event → Prop
  | .serve op => ∀ held, HoldsStream s m held → op.ContinuesStream L log m held
  | .administer _ _ => True

/-- The streams of the slot are readable for the slot's AID. -/
def StreamsReadable (L : Libs) (m : String) (s : ControlStore) : Prop :=
  ∀ stream, HoldsStream s m stream → Readable L stream (slotAid m) ∧ stream ≠ ""

section

variable {A : AppState} {log : String → String → List KeriEvent} {s : ControlStore}
  {m : String}

/-- An accepted did:webs publication continues the stored stream and
verifies. -/
theorem verifyPublication_webs_spec {L : Libs} {domain content : String}
    {existing existingWitness : Option String} {p : Publication}
    (h : verifyPublication L domain m content existing existingWitness = .ok p)
    (hm : p.method = .webs) :
    checkContinuation L (websDidId domain m) existing content = .ok () ∧
      ∃ derived, verifyArtifacts L (websDidId domain m) content = .ok derived := by
  have hdet := verifyPublication_method h
  unfold verifyPublication at h
  rw [hdet, hm] at h
  simp only [verifyWebs] at h
  split at h
  · contradiction
  · obtain ⟨⟨⟩, hcontinues, h⟩ := bind_eq_ok h
    obtain ⟨derived, hderived, h⟩ := bind_eq_ok h
    exact ⟨hcontinues, derived, hderived⟩

theorem ne_empty_of_detectMethod {L : Libs} {content : String}
    (h : detectMethod L content = some .webs) : content ≠ "" := by
  rintro rfl
  have hinvalid : (websValidate L "").isOk = false := rfl
  unfold detectMethod at h
  simp only [hinvalid, Bool.and_false, Bool.false_eq_true, if_false] at h
  split at h
  · cases h
  · split at h <;> cases h

/-- What is known of a stream that a publication stores at slot `m`. -/
theorem published_stream (hK : Keri A.libs log) (hread : StreamsReadable A.libs m s)
    {domain content : String} {witness : Option String} {p : Publication}
    (h : verifyPublication A.libs domain m content (s.log m) witness = .ok p)
    (hm : p.method = .webs) :
    (Readable A.libs content (slotAid m) ∧ content ≠ "") ∧
      ∀ held, HoldsStream s m held → Unforked log (slotAid m) held content →
        digests log held (slotAid m) <+: digests log content (slotAid m) := by
  obtain ⟨hcontinues, derived, hderived⟩ := verifyPublication_webs_spec h hm
  obtain ⟨parsed, hparse, hreadable⟩ := readable_of_verifyArtifacts hK hderived
  have haid : parsed.aid = slotAid m :=
    (hK.aid_label _ parsed hparse).1.trans (lastLabel_websDidId domain m)
  have hnonempty : content ≠ "" :=
    ne_empty_of_detectMethod (hm ▸ verifyPublication_method h)
  rw [← haid]
  refine ⟨⟨hreadable, hnonempty⟩, ?_⟩
  intro held hheld hunforked
  obtain ⟨hheldReadable, hheldNonempty⟩ := hread held hheld
  obtain ⟨_, _, _, hlog⟩ := hheld
  rw [hlog] at hcontinues
  have hcontinuation : verifyContinuation A.libs (websDidId domain m) held content = .ok () := by
    unfold checkContinuation at hcontinues
    rw [Option.filter_some, if_pos (by simpa using hheldNonempty)] at hcontinues
    exact hcontinues
  rw [← haid] at hheldReadable
  exact (continuation_extends_iff hK hparse hheldReadable hcontinuation).mpr hunforked

/-- From one store to the next, the slot's stream is extended, and whatever
stream the slot then holds is readable. -/
structure StreamStep (L : Libs) (log : String → String → List KeriEvent) (m : String)
    (s t : ControlStore) : Prop where
  readable : StreamsReadable L m t
  extended : ∀ held, HoldsStream s m held → ∃ stream, HoldsStream t m stream ∧
    digests log held (slotAid m) <+: digests log stream (slotAid m)

theorem StreamStep.kept {L : Libs} {t : ControlStore} (hread : StreamsReadable L m s)
    (h : ∀ stream, HoldsStream t m stream ↔ HoldsStream s m stream) :
    StreamStep L log m s t where
  readable stream hstream := hread stream ((h stream).mp hstream)
  extended held hheld := ⟨held, (h held).mpr hheld, List.prefix_refl _⟩

theorem StreamStep.published (hK : Keri A.libs log) (hread : StreamsReadable A.libs m s)
    {t : ControlStore} {domain content : String} {witness : Option String} {p : Publication}
    {r : DidRecord}
    (hverify : verifyPublication A.libs domain m content (s.log m) witness = .ok p)
    (hrecord : t.record m = some r) (hmethod : r.method = p.method)
    (hcontent : t.log m = some content)
    (hunforked : ∀ held, HoldsStream s m held →
      p.method = .webs ∧ Unforked log (slotAid m) held content) :
    StreamStep A.libs log m s t := by
  constructor
  · rintro stream ⟨r', hrecord', hwebs, hlog⟩
    rw [hrecord] at hrecord'
    cases hrecord'
    rw [hcontent] at hlog
    cases hlog
    exact (published_stream hK hread hverify (hmethod ▸ hwebs)).1
  · intro held hheld
    obtain ⟨hwebs, hfork⟩ := hunforked held hheld
    exact ⟨content, ⟨r, hrecord, hmethod.trans hwebs, hcontent⟩,
      (published_stream hK hread hverify hwebs).2 held hheld hfork⟩

/-- A slot that holds no stream before and none after. -/
theorem StreamStep.without {L : Libs} {t : ControlStore}
    (hbefore : ∀ held, ¬ HoldsStream s m held) (hafter : ∀ stream, ¬ HoldsStream t m stream) :
    StreamStep L log m s t where
  readable stream hstream := absurd hstream (hafter stream)
  extended held hheld := absurd hheld (hbefore held)

/-- A republication keeps the method of the slot. -/
theorem Republishes.stream_step (hK : Keri A.libs log) (hread : StreamsReadable A.libs m s)
    {auth : AuthClaims} {didLog : String} {record r : DidRecord} {p : Publication}
    {t : ControlStore} (h : Republishes A {s} auth m didLog record p)
    (hrecord : t.record m = some r) (hmethod : r.method = record.method)
    (hcontent : t.log m = some didLog)
    (hunforked : ∀ held, HoldsStream s m held → Unforked log (slotAid m) held didLog) :
    StreamStep A.libs log m s t := by
  apply StreamStep.published hK hread h.verified_at hrecord (hmethod.trans h.same_method.symm)
    hcontent
  intro held hheld
  obtain ⟨r', hrecord', hwebs, -⟩ := id hheld
  have hread' : s.record m = some record := by
    obtain ⟨u, hu, hrecord⟩ := h.record_read
    rwa [Set.mem_singleton_iff.mp hu] at hrecord
  rw [hread'] at hrecord'
  cases hrecord'
  exact ⟨h.same_method.trans hwebs, hunforked held hheld⟩

/-- A change of the slot by a request that leaves its history to grow. -/
theorem SlotChange.stream_step (hK : Keri A.libs log) (hread : StreamsReadable A.libs m s)
    {op : Op} {record : Option DidRecord} {content : Option String} {t : ControlStore}
    (h : SlotChange A s op m record content) (hrecord : t.record m = record)
    (hcontent : t.log m = content)
    (hok : ∀ held, HoldsStream s m held → op.ContinuesStream A.libs log m held) :
    StreamStep A.libs log m s t := by
  cases h with
  | @created auth now path force domain draws m hexisting =>
      apply StreamStep.without
      · intro held hheld
        obtain ⟨r, hr, -⟩ := id hheld
        exact hok held hheld (hexisting r hr).1
      · rintro stream ⟨r, hr, hwebs, -⟩
        rw [hrecord] at hr
        cases hr
        cases hwebs
  | @registered auth now path didLog force domain existing ownerChanged p didId base names
      changes hpre hreg =>
      apply StreamStep.published hK hread hreg.verified_at hrecord rfl hcontent
      intro held hheld
      obtain ⟨hdetect, hunforked⟩ := hok held hheld rfl
      have hmethod := verifyPublication_method hreg.verified_at
      rw [hdetect] at hmethod
      exact ⟨(Option.some.inj hmethod).symm, hunforked⟩
  | published hrep hnames =>
      exact hrep.stream_step hK hread hrecord rfl hcontent fun held hheld => hok held hheld rfl
  | named hrep hclaim heffect =>
      exact hrep.stream_step hK hread hrecord rfl hcontent fun held hheld => hok held hheld rfl
  | deleted hr hauth =>
      apply StreamStep.without
      · intro held hheld
        exact hok held hheld rfl
      · rintro stream ⟨r, hr', -⟩
        rw [hrecord] at hr'
        cases hr'
  | @rolledBack auth now m targetVersion r c keep hr hauth hc hkeep hlt =>
      apply StreamStep.without
      · intro held hheld
        exact hok held hheld rfl
      · rintro stream ⟨r', hr', hwebs, -⟩
        rw [hrecord] at hr'
        cases hr'
        exact hok c ⟨r, hr, hwebs, hc⟩ rfl
  | @touched op m r r' hr hsame =>
      apply StreamStep.kept hread
      intro stream
      unfold HoldsStream
      rw [hrecord, hcontent, hr]
      simp only [Option.some.injEq, exists_eq_left', hsame.method]

theorem Event.stream_step (hK : Keri A.libs log) {e : Event}
    (hok : e.ContinuesStream A.libs log m s) (hread : StreamsReadable A.libs m s) :
    StreamStep A.libs log m s (e.step A s) := by
  cases e with
  | administer acl domains => exact StreamStep.kept hread fun stream => Iff.rfl
  | serve op =>
      have hslot : SameSlot s ((op.prog A).run s).2 m →
          ∀ stream, HoldsStream ((op.prog A).run s).2 m stream ↔ HoldsStream s m stream := by
        intro ⟨hrecord, hlog⟩ stream
        unfold HoldsStream
        rw [hrecord, hlog]
      rcases step_slot (A := A) (s := s) op with hkept | ⟨m', hothers, hchange⟩
      · exact StreamStep.kept hread (hslot (hkept m))
      · by_cases hm : m = m'
        · subst hm
          exact hchange.stream_step hK hread rfl rfl hok
        · exact StreamStep.kept hread (hslot (hothers m hm))

theorem stream_run (hK : Keri A.libs log) {events : List Event}
    (hok : Run.Meets (Event.step A) (Event.ContinuesStream A.libs log m) s events)
    (hread : StreamsReadable A.libs m s) :
    StreamStep A.libs log m s (Run.exec (Event.step A) s events) := by
  induction events generalizing s with
  | nil => exact StreamStep.kept hread fun stream => Iff.rfl
  | cons e events ih =>
      have hone := Event.stream_step hK hok.1 hread
      have hrest := ih hok.2 hone.readable
      refine ⟨hrest.readable, ?_⟩
      intro held hheld
      obtain ⟨next, hnext, hpre⟩ := hone.extended held hheld
      obtain ⟨stream, hstream, hpre'⟩ := hrest.extended next hnext
      exact ⟨stream, hstream, hpre.trans hpre'⟩

theorem streamsReadable_initial (L : Libs) (acl : Table String AclEntry)
    (domains : Table String DomainEntry) (m : String) :
    StreamsReadable L m (ControlStore.initial acl domains) := by
  rintro stream ⟨r, hr, -⟩
  cases hr

end

/-! ## A stream that forks -/

namespace Reference

/-- The event after the events of a text: every character is one event, and the
digest of an event is the text that ends in it. -/
def eventAt (text : List Char) : KeriEvent :=
  ⟨String.ofList text, if text.dropLast = [] then none else some (String.ofList text.dropLast)⟩

/-- The events of `rest` after the text `seen`. -/
def eventsFrom (seen : List Char) : List Char → List KeriEvent
  | [] => []
  | c :: rest => eventAt (seen ++ [c]) :: eventsFrom (seen ++ [c]) rest

/-- The last word of a stream. -/
def body (stream : String) : List Char :=
  (stream.toList.reverse.takeWhile (· != ' ')).reverse

/-- The events of a stream, the characters of its last word. -/
def keriLog (stream _aid : String) : List KeriEvent :=
  eventsFrom [] (body stream)

/-- The reference libraries with these key event logs. -/
def keriLibs : Libs :=
  { websLibs with
    didWebsParse := fun did =>
      if startsWith "did:webs:" did then .ok ⟨[], lastLabel did⟩
      else .error "not a did:webs identifier"
    kelsKeyState := fun stream pre =>
      if (body stream).isEmpty then .error "no events"
      else .ok ⟨pre, (body stream).length - 1⟩
    resolveFromArtifacts := fun _ stream =>
      if (body stream).isEmpty then .error "no events"
      else .ok (print (document websDid [])) }

theorem length_eventsFrom (seen rest : List Char) :
    (eventsFrom seen rest).length = rest.length := by
  induction rest generalizing seen with
  | nil => rfl
  | cons c rest ih => rw [eventsFrom, List.length_cons, List.length_cons, ih]

theorem linked_eventsFrom (seen rest : List Char) :
    HashChain.Linked KeriEvent.said KeriEvent.prior
      (if seen = [] then none else some (String.ofList seen)) (eventsFrom seen rest) := by
  induction rest generalizing seen with
  | nil => trivial
  | cons c rest ih =>
      constructor
      · simp only [eventAt, List.dropLast_concat]
      · have hne : seen ++ [c] ≠ [] := by simp
        have hnext := ih (seen ++ [c])
        rw [if_neg hne] at hnext
        exact hnext

theorem exists_eventAt {seen rest : List Char} {e : KeriEvent} (h : e ∈ eventsFrom seen rest) :
    ∃ text, e = eventAt text := by
  induction rest generalizing seen with
  | nil => cases h
  | cons c rest ih =>
      rcases List.mem_cons.mp h with rfl | hrest
      · exact ⟨_, rfl⟩
      · exact ih hrest

theorem didWebsParse_keri (did : String) :
    keriLibs.didWebsParse did = if startsWith "did:webs:" did then .ok ⟨[], lastLabel did⟩
      else .error "not a did:webs identifier" :=
  rfl

theorem kelsKeyState_keri (stream pre : String) :
    keriLibs.kelsKeyState stream pre = if (body stream).isEmpty then .error "no events"
      else .ok ⟨pre, (body stream).length - 1⟩ :=
  rfl

theorem resolve_keri (parsed : DidWebs) (stream : String) :
    keriLibs.resolveFromArtifacts parsed stream =
      if (body stream).isEmpty then .error "no events"
      else .ok (print (document websDid [])) :=
  rfl

theorem fromStr_keri (text : String) : keriLibs.fromStr text = parse text :=
  rfl

theorem keri_keriLibs : Keri keriLibs keriLog where
  linked stream aid := linked_eventsFrom [] (body stream)
  said_injective := by
    rintro e ⟨stream, aid, he⟩ e' ⟨stream', aid', he'⟩ hsaid
    obtain ⟨text, rfl⟩ := exists_eventAt he
    obtain ⟨text', rfl⟩ := exists_eventAt he'
    have htext : text = text' := by
      have hlist := congrArg String.toList hsaid
      simpa [eventAt] using hlist
    rw [htext]
  key_state stream aid state h := by
    rw [kelsKeyState_keri] at h
    split at h
    · cases h
    · rename_i hne
      cases h
      have hpos : 0 < (body stream).length := by
        rw [List.isEmpty_iff] at hne
        exact List.length_pos_of_ne_nil hne
      simp only [keriLog, length_eventsFrom]
      omega
  resolved parsed stream document h := by
    rw [resolve_keri] at h
    split at h
    · cases h
    · rename_i hne
      refine ⟨rfl, ⟨parsed.aid, (body stream).length - 1⟩, ?_⟩
      rw [kelsKeyState_keri, if_neg hne]
  aid_label did parsed h := by
    rw [didWebsParse_keri] at h
    split at h
    · rename_i hscheme
      cases h
      exact ⟨rfl, hscheme⟩
    · cases h

/-- A control plane on these libraries. -/
def keriControl : AppState :=
  ⟨keriLibs, ⟨some "https://h.io", none, true⟩⟩

/-- The registration of a stream at the AID. -/
def registerStream (stream : String) : Event :=
  .serve (.register admin 1 aid stream false (some "h.io"))

/-- The slot holds the stream for the administrator, under no agent name. -/
def HoldsPlain (s : ControlStore) (stream : String) : Prop :=
  Unrestricted admin s ∧ s.log aid = some stream ∧
    ∃ r, s.record aid = some r ∧ r.owner = admin.did ∧ r.method = .webs ∧ r.agentNames = []

theorem HoldsPlain.holds {s : ControlStore} {stream : String} (h : HoldsPlain s stream) :
    HoldsStream s aid stream := by
  obtain ⟨-, hlog, r, hr, -, hwebs, -⟩ := h
  exact ⟨r, hr, hwebs, hlog⟩

/-- A stream is accepted if it continues the stored one and its artifacts
resolve. -/
theorem verifyPublication_nextWebs {L : Libs} {domain mnemonic content derived : String}
    {existing witness : Option String} {parsed : DidWebs} {document : Json}
    (hdet : detectMethod L content = some .webs) (hdomain : domain ≠ "")
    (hcontinues : checkContinuation L (websDidId domain mnemonic) existing content = .ok ())
    (hparse : L.didWebsParse (websDidId domain mnemonic) = .ok parsed)
    (hresolve : L.resolveFromArtifacts parsed content = .ok derived)
    (hdoc : L.fromStr derived = .ok document) :
    verifyPublication L domain mnemonic content existing witness =
      .ok ⟨.webs, some (websDidId domain mnemonic), some document, content⟩ := by
  have hartifacts : verifyArtifacts L (websDidId domain mnemonic) content = .ok derived := by
    simp only [verifyArtifacts, hparse, hresolve]
  unfold verifyPublication
  rw [hdet]
  simp only [verifyWebs, if_neg hdomain, hcontinues, hartifacts, bind, Except.bind, hdoc]

/-- The publication of a stream at the AID. -/
def streamPublication (stream : String) : Publication :=
  ⟨.webs, some websDid, some (document websDid []), stream⟩

theorem agentNames_streamPublication (L : Libs) (stream host : String) :
    (streamPublication stream).agentNames L host = [] :=
  agentNames_nil L websDid host

theorem didWebsParse_websDid : keriLibs.didWebsParse websDid = .ok ⟨[], lastLabel websDid⟩ := by
  have hscheme : startsWith "did:webs:" websDid = true := by decide +kernel
  rw [didWebsParse_keri, if_pos hscheme]

theorem verifyPublication_stream {stream : String} {existing witness : Option String}
    (hdet : detectMethod keriLibs stream = some .webs) (hne : (body stream).isEmpty = false)
    (hcontinues : checkContinuation keriLibs websDid existing stream = .ok ()) :
    verifyPublication keriLibs "h.io" aid stream existing witness =
      .ok (streamPublication stream) := by
  have hresolve : keriLibs.resolveFromArtifacts ⟨[], lastLabel websDid⟩ stream =
      .ok (print (document websDid [])) := by
    rw [resolve_keri, hne, if_neg Bool.false_ne_true]
  have hdoc : keriLibs.fromStr (print (document websDid [])) = .ok (document websDid []) := by
    rw [fromStr_keri]
    exact wellFormed_websDocument.parse_print
  exact verifyPublication_nextWebs hdet (by decide) hcontinues didWebsParse_websDid hresolve hdoc

theorem registerPrecheck_stream {stream : String}
    (hdet : detectMethod keriLibs stream = some .webs) :
    registerPrecheck keriControl admin aid stream = .ok () := by
  have hroot : ¬ (decide (aid = rootDidMnemonic) && decide (admin.role ≠ .admin)) := by
    simp [admin]
  have hdet' : detectMethod keriControl.libs stream = some .webs := hdet
  unfold registerPrecheck
  rw [if_neg hroot, if_pos hdet']
  exact validateWebsMnemonic_aid

theorem step_registerStream {s : ControlStore} {stream : String}
    (hs : Unrestricted admin s)
    (hrecord : ∀ r, s.record aid = some r → r.owner = admin.did ∧ r.agentNames = [])
    (hdet : detectMethod keriLibs stream = some .webs) (hne : (body stream).isEmpty = false)
    (hcontinues : checkContinuation keriLibs websDid (s.log aid) stream = .ok ()) :
    HoldsPlain ((registerStream stream).step keriControl s) stream := by
  have hpub : verifyPublication keriControl.libs ((some "h.io").getD "") aid stream
      (s.log aid) (s.witness aid) = .ok (streamPublication stream) :=
    verifyPublication_stream hdet hne hcontinues
  have hbinding : registerBinding keriControl (streamPublication stream) websDid aid
      "https://h.io" = .ok () := by
    unfold registerBinding
    exact if_pos rfl
  have howner : registerOwnership admin false (s.record aid) = .ok false := by
    cases hr : s.record aid with
    | none => rfl
    | some r => exact if_pos (hrecord r hr).1
  have hnone : existingNames (s.record aid) = [] := by
    cases hr : s.record aid with
    | none => rfl
    | some r => exact (hrecord r hr).2
  have hnames : (reconcileAgentNames (existingNames (s.record aid)) aid
      ((streamPublication stream).agentNames keriControl.libs
        (didHostOrEmpty keriControl.libs websDid))
      (didHostOrEmpty keriControl.libs websDid) 1).Yields {s}
      (reconciledNames [] [] 1, ⟨[], []⟩) := by
    rw [agentNames_streamPublication, hnone]
    exact reconcileAgentNames_yields [] 1 (by simp)
  obtain ⟨response, hplan⟩ := registerPlan_yields hs hpub rfl rfl hbinding howner hnames
  have hstep : (registerStream stream).step keriControl s = _ :=
    step_register (registerPrecheck_stream hdet) hplan
  obtain ⟨hdids, hlog, -⟩ := commit_registerBatch s.ks admin aid stream
    (didHostOrEmpty keriControl.libs websDid) (s.record aid) false
    (registerRecord keriControl admin aid stream (streamPublication stream) websDid
      (s.record aid) false (reconciledNames [] [] 1) 1) ⟨[], []⟩
  obtain ⟨-, hr, hc⟩ := write_slot hdids hlog
  rw [hstep]
  exact ⟨hs.commit _, hc, _, hr, rfl, rfl, rfl⟩

/-- Three streams of the AID: the second forks the first, the third extends
it. -/
def streamA : String := "icp ENro7uf0ePmiK3jdTo2YCdXLqW7z7xoP6qhhBou6gBLe -a"

def streamB : String := "icp ENro7uf0ePmiK3jdTo2YCdXLqW7z7xoP6qhhBou6gBLe -b"

def streamC : String := "icp ENro7uf0ePmiK3jdTo2YCdXLqW7z7xoP6qhhBou6gBLe -a-c"

/-- What the libraries make of the streams, evaluated. -/
theorem streams_evaluated :
    (detectMethod keriLibs streamA = some .webs ∧ detectMethod keriLibs streamB = some .webs ∧
      detectMethod keriLibs streamC = some .webs) ∧
    ((body streamA).isEmpty = false ∧ (body streamB).isEmpty = false) ∧
    checkContinuation keriLibs websDid (some streamA) streamB = .ok () ∧
    HashChain.Agree KeriEvent.said (eventsFrom [] (body streamA)) (eventsFrom [] (body streamC)) ∧
    ¬ digests keriLog streamA (slotAid aid) <+: digests keriLog streamB (slotAid aid) := by
  decide +kernel

/-- The store after the first stream is registered. -/
def afterA : ControlStore :=
  Run.exec (Event.step keriControl) fresh [registerStream streamA]

theorem holds_streamA : HoldsPlain afterA streamA := by
  have hstep : HoldsPlain ((registerStream streamA).step keriControl fresh) streamA :=
    step_registerStream unrestricted_fresh (by rintro r ⟨⟩) streams_evaluated.1.1
      streams_evaluated.2.1.1 rfl
  rw [afterA, Run.exec_cons, Run.exec_nil]
  exact hstep

theorem exec_after_streamA {stream : String}
    (hdet : detectMethod keriLibs stream = some .webs) (hne : (body stream).isEmpty = false)
    (hcontinues : checkContinuation keriLibs websDid (some streamA) stream = .ok ()) :
    HoldsPlain (Run.exec (Event.step keriControl) afterA [registerStream stream]) stream := by
  obtain ⟨hadmin, hlog, r, hr, howner, -, hnames⟩ := holds_streamA
  rw [← hlog] at hcontinues
  have hrecord : ∀ r', afterA.record aid = some r' →
      r'.owner = admin.did ∧ r'.agentNames = [] := by
    intro r' hr'
    rw [hr] at hr'
    cases hr'
    exact ⟨howner, hnames⟩
  have hstep := step_registerStream hadmin hrecord hdet hne hcontinues
  rw [Run.exec_cons, Run.exec_nil]
  exact hstep

end Reference

/-! ## The guarantee -/

/-- The key events of a did:webs identifier are append-only in every run whose
updates do not fork the log they are judged against.  On the control plane each
stream a slot has held is extended by the one it holds later; on an edge each
stream committed for an identifier is extended by each later one. -/
theorem webs_history_append_only (A : AppState) (E : EdgeState)
    (log edgeLog : String → String → List KeriEvent)
    (hK : Keri A.libs log) (hKE : Keri E.libs edgeLog) :
    (∀ (acl : Table String AclEntry) (domains : Table String DomainEntry) (m : String)
      (events more : List Event),
      Run.Meets (Event.step A) (Event.ContinuesStream A.libs log m)
        (ControlStore.initial acl domains) (events ++ more) →
      let s := Run.exec (Event.step A) (ControlStore.initial acl domains) events
      let t := Run.exec (Event.step A) s more
      ∀ earlier, HoldsStream s m earlier → ∃ later, HoldsStream t m later ∧
        digests log earlier (slotAid m) <+: digests log later (slotAid m)) ∧
    (∀ (assignments : Table String AssignmentEntry) (pendingPurges : Table String PendingPurge)
      (domains : Table String DomainEntry) (defaultDomain : Option String) (ops : List EdgeOp)
      (did : String) (parsed : DidWebs),
      let r := EdgeRun.initial assignments pendingPurges domains defaultDomain
      Run.Meets (EdgeRun.step E) (EdgeRun.OpUnforked E edgeLog) r ops →
      E.libs.didWebsParse did = .ok parsed →
      (streamsOf E.libs did (Run.exec (EdgeRun.step E) r ops).committed).Pairwise
        fun earlier later =>
          digests edgeLog earlier parsed.aid <+: digests edgeLog later parsed.aid) := by
  constructor
  · intro acl domains m events more hmeets s t earlier hearlier
    obtain ⟨hevents, hmore⟩ := hmeets.of_append
    have hread := (stream_run hK hevents (streamsReadable_initial A.libs acl domains m)).readable
    exact (stream_run hK hmore hread).extended earlier hearlier
  · intro assignments pendingPurges domains defaultDomain ops did parsed r hmeets hparse
    exact ((StreamInv.initial assignments pendingPurges domains defaultDomain).run hKE
      hmeets).chain did parsed hparse

namespace Reference

/-- The updates of an edge with the first and the third stream. -/
def streamUpdates : List EdgeOp :=
  [.syncUpdate 1 ⟨aid, websDid, streamA, none, 1, false⟩,
    .syncUpdate 2 ⟨aid, websDid, streamC, none, 2, false⟩]

theorem unforked_streamUpdates : Run.Meets (EdgeRun.step ⟨keriLibs, some "https://h.io"⟩)
    (EdgeRun.OpUnforked ⟨keriLibs, some "https://h.io"⟩ keriLog) (EdgeRun.initial ∅ ∅ ∅ none)
    streamUpdates := by
  refine ⟨fun _ _ _ hheld => (nomatch hheld), fun parsed held _ hheld => ?_, trivial⟩
  have hone : held = streamA := by
    rcases EdgeRun.entry_verified ⟨keriLibs, some "https://h.io"⟩ (EdgeRun.initial ∅ ∅ ∅ none)
      (1, ⟨aid, websDid, streamA, none, 1, false⟩) with h | ⟨⟨identity, happlied, -⟩, -⟩
    · rw [EdgeRun.step, h] at hheld
      cases hheld
    · rw [EdgeRun.step, happlied.highWater] at hheld
      split at hheld
      · exact (Option.some.inj hheld).symm
      · cases hheld
  rw [hone]
  exact fun _ => streams_evaluated.2.2.2.1

end Reference

open Reference in
/-- The guarantee for a slot whose stream is extended, and for an edge that is
sent both streams. -/
theorem webs_history_append_only_extended :
    (∃ later, HoldsStream
        (Run.exec (Event.step keriControl) afterA [registerStream streamC]) aid later ∧
      digests keriLog streamA (slotAid aid) <+: digests keriLog later (slotAid aid)) ∧
    (streamsOf keriLibs websDid (Run.exec (EdgeRun.step ⟨keriLibs, some "https://h.io"⟩)
      (EdgeRun.initial ∅ ∅ ∅ none) streamUpdates).committed).Pairwise
        fun earlier later =>
          digests keriLog earlier (lastLabel websDid) <+:
            digests keriLog later (lastLabel websDid) := by
  have hboth := webs_history_append_only keriControl ⟨keriLibs, some "https://h.io"⟩ keriLog
    keriLog keri_keriLibs keri_keriLibs
  constructor
  · have hfirst : Event.ContinuesStream keriLibs keriLog aid fresh (registerStream streamA) := by
      rintro held ⟨r, hr, -⟩
      cases hr
    have hsecond : Event.ContinuesStream keriLibs keriLog aid afterA
        (registerStream streamC) := by
      intro held hheld
      rw [hheld.unique holds_streamA.holds]
      intro _
      exact ⟨streams_evaluated.1.2.2, fun _ => streams_evaluated.2.2.2.1⟩
    have hmeets : Run.Meets (Event.step keriControl) (Event.ContinuesStream keriLibs keriLog aid)
        fresh ([registerStream streamA] ++ [registerStream streamC]) :=
      Run.Meets.append ⟨hfirst, trivial⟩ ⟨hsecond, trivial⟩
    exact hboth.1 ∅ ∅ aid [registerStream streamA] [registerStream streamC] hmeets streamA
      holds_streamA.holds
  · exact hboth.2 ∅ ∅ ∅ none _ websDid ⟨[], lastLabel websDid⟩ unforked_streamUpdates
      didWebsParse_websDid

open Reference in
/-- A stream of the same length that forks the hosted one replaces it. -/
theorem webs_history_forks :
    Keri keriLibs keriLog ∧
      ¬ ∀ (events more : List Event) (earlier later : String),
        HoldsStream (Run.exec (Event.step keriControl) fresh events) aid earlier →
        HoldsStream (Run.exec (Event.step keriControl)
          (Run.exec (Event.step keriControl) fresh events) more) aid later →
        digests keriLog earlier (slotAid aid) <+: digests keriLog later (slotAid aid) := by
  refine ⟨keri_keriLibs, fun hclaim => ?_⟩
  obtain ⟨⟨-, hdet, -⟩, ⟨-, hne⟩, hcontinues, -, hnot⟩ := streams_evaluated
  exact hnot (hclaim [registerStream streamA] [registerStream streamB] streamA streamB
    holds_streamA.holds (exec_after_streamA hdet hne hcontinues).holds)

end DidHosting
