import DidHosting.Control.Linear
import DidHosting.Control.VersionCount
import DidHosting.Common.Servable

/-!
# What a rollback leaves

A rollback truncates the log and derives the record again, but for the agent names, which
it leaves, and it drops the witness file.  It leaves the slot that its first entries make
up exactly if the names are still right and no entry that is served needs a proof of the
file.
-/

namespace DidHosting

open Text

/-! ## The slot after a rollback -/

section Effect

variable {A : AppState} {auth : AuthClaims} {now : ℕ} {mnemonic content : String} {keep : ℕ}
  {record : DidRecord} {s t : ControlStore}

end Effect

/-! ## Rolling back twice -/

section Twice

variable {mnemonic content : String} {record : DidRecord} {s : ControlStore}

end Twice

/-! ## The record -/

section Served

variable {L : ServeLibs} {content : String} {witness : Option String}
  {states : List (LogEntryState L.toLibs)} {k : ℕ}

end Served

/-! ## Rollback as truncation -/

section

variable {L : ServeLibs} {now : ℕ} {mnemonic : String} {keep : ℕ} {s : ControlStore}
  {record : DidRecord} {content : String} {states : List (LogEntryState L.toLibs)}

end

section Samples

open Reference ServableSample

end Samples

end DidHosting
