import DidHosting.Oob.SignIn

/-!
# One guess at the match number

A `prove` or `respond` whose checks fail is to end its request.  It does so with a
compare-and-set on the version it read before the checks, which another change of the
request can outrun; the number handed to the starter is such a change, and leaves the
request open.
-/

namespace DidHosting

namespace Oob

section

variable {L : OobLibs} {cfg : OobConfig} {fuel : ℕ → ℕ} {calls : ℕ → OobCall}

/-- In a run whose declines find their request as it was read, or at its end, a refusal by
the checks of `prove` or `respond` is the end of the request: nothing happens to it any
more. -/
theorem one_guess (events : List (PoolEvent ℕ OobEnv))
    (hnew : Run.Meets Pool.step (fun m event => newId m event = true)
      (service L cfg fuel calls) events)
    (hdeclines : Run.Meets Pool.step (fun m event => declinesOpen m event = true)
      (service L cfg fuel calls) events) :
    ∀ front back i e id, events = front ++ back →
      ((service L cfg fuel calls).exec front).handler i = .fail e → e.declines = some id →
      ((service L cfg fuel calls).exec front).store.ended id = true ∧
      ((service L cfg fuel calls).exec events).store.ended id = true ∧
      ∀ f ∈ ((service L cfg fuel calls).exec events).store.log, f.written.requestId = id →
        f ∈ ((service L cfg fuel calls).exec front).store.log := by
  intro front back i e id hevents hi hid
  have hmeets : Run.Meets Pool.step (fun m event => m.Meets (oobProtocol L cfg True) event)
      (service L cfg fuel calls) (front ++ back) := by
    rw [← hevents]
    refine (hnew.and hdeclines).mono ?_
    intro m event h
    exact meets_of_newId h.1 fun _ => h.2
  obtain ⟨hsafe, -, hgrows⟩ := service_exec hmeets
  rw [← hevents] at hgrows
  have hclosed : ((service L cfg fuel calls).exec front).store.Closed id :=
    hsafe.refused hi id hid trivial
  refine ⟨OobStore.ended_iff.mpr hclosed.2,
    OobStore.ended_iff.mpr (hgrows.closed id hclosed).2, ?_⟩
  intro f hf hfid
  exact hgrows.still id hclosed f hf hfid

end

namespace Sample

/-- A wrong guess, and then the right number. -/
def guess : List (PoolEvent ℕ OobEnv) :=
  whole 0 ++ whole 1 ++ whole 3 ++ whole 2

/-- A wrong guess that is checked while the number is handed to the starter. -/
def overtaken : List (PoolEvent ℕ OobEnv) :=
  whole 0 ++ whole 1 ++ List.replicate 5 (.run 2 env) ++ whole 3 ++ whole 2

end Sample

/-- The request a handler was refused for by its checks. -/
def declinedBy : OobM OobAnswer → Option (OobErrorCode × String)
  | .fail e => e.declines.map fun id => (e.error.code, id)
  | _ => none

theorem declinedBy_eq_some {p : OobM OobAnswer} {code : OobErrorCode} {id : String}
    (h : declinedBy p = some (code, id)) :
    ∃ e, p = .fail e ∧ e.error.code = code ∧ e.declines = some id := by
  cases p with
  | fail e =>
      obtain ⟨id', hid, hpair⟩ := Option.map_eq_some_iff.mp h
      obtain ⟨hcode, rfl⟩ := Prod.mk.inj hpair
      exact ⟨e, rfl, hcode, hid⟩
  | _ => cases h

/-- After a wrong guess the right number comes too late. -/
theorem one_guess_wrong :
    ∃ e, ((service Sample.oobLibs Sample.oobConfig Sample.fuel Sample.calls).exec
        Sample.guess).handler 2 = .fail e ∧ e.error.code = .numberMismatch ∧
      ((service Sample.oobLibs Sample.oobConfig Sample.fuel Sample.calls).exec
        (Sample.guess ++ Sample.whole 4)).store.ended Sample.requestId = true := by
  have ⟨hnew, hdeclines, hrefused⟩ :
      Run.Meets Pool.step (fun m event => newId m event = true)
        (service Sample.oobLibs Sample.oobConfig Sample.fuel Sample.calls)
        (Sample.guess ++ Sample.whole 4) ∧
      Run.Meets Pool.step (fun m event => declinesOpen m event = true)
        (service Sample.oobLibs Sample.oobConfig Sample.fuel Sample.calls)
        (Sample.guess ++ Sample.whole 4) ∧
      declinedBy (((service Sample.oobLibs Sample.oobConfig Sample.fuel Sample.calls).exec
        Sample.guess).handler 2) = some (.numberMismatch, Sample.requestId) := by
    decide +kernel
  obtain ⟨e, hhandler, hcode, hid⟩ := declinedBy_eq_some hrefused
  obtain ⟨-, hended, -⟩ := one_guess (Sample.guess ++ Sample.whole 4) hnew hdeclines
    Sample.guess (Sample.whole 4) 2 e Sample.requestId rfl hhandler hid
  exact ⟨e, hhandler, hcode, hended⟩

/-- A wrong guess that was outrun leaves the request open, and the next guess succeeds. -/
theorem second_guess :
    (Run.Meets Pool.step (fun m event => newId m event = true)
      (service Sample.oobLibs Sample.oobConfig Sample.fuel Sample.calls)
      (Sample.overtaken ++ Sample.whole 4)) ∧
    (∃ e, ((service Sample.oobLibs Sample.oobConfig Sample.fuel Sample.calls).exec
        Sample.overtaken).handler 2 = .fail e ∧ e.error.code = .numberMismatch ∧
      e.declines = some Sample.requestId) ∧
    (((service Sample.oobLibs Sample.oobConfig Sample.fuel Sample.calls).exec
        Sample.overtaken).store.records.lookup Sample.requestId).map (·.state) =
      some .claimed ∧
    (((service Sample.oobLibs Sample.oobConfig Sample.fuel Sample.calls).exec
        (Sample.overtaken ++ Sample.whole 4)).store.records.lookup Sample.requestId).map
      (·.state) = some .identified := by
  have ⟨hnew, hrefused, hclaimed, hidentified⟩ :
      Run.Meets Pool.step (fun m event => newId m event = true)
        (service Sample.oobLibs Sample.oobConfig Sample.fuel Sample.calls)
        (Sample.overtaken ++ Sample.whole 4) ∧
      declinedBy (((service Sample.oobLibs Sample.oobConfig Sample.fuel Sample.calls).exec
        Sample.overtaken).handler 2) = some (.numberMismatch, Sample.requestId) ∧
      (((service Sample.oobLibs Sample.oobConfig Sample.fuel Sample.calls).exec
        Sample.overtaken).store.records.lookup Sample.requestId).map (·.state) =
          some .claimed ∧
      (((service Sample.oobLibs Sample.oobConfig Sample.fuel Sample.calls).exec
        (Sample.overtaken ++ Sample.whole 4)).store.records.lookup Sample.requestId).map
          (·.state) = some .identified := by
    decide +kernel
  exact ⟨hnew, declinedBy_eq_some hrefused, hclaimed, hidentified⟩

end Oob

end DidHosting
