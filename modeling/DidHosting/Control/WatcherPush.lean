import DidHosting.Common.Reference
import DidHosting.Control.Resync
import DidHosting.Support.Run

/-!
# Pushing to watchers

An update of a slot is queued for the configured watchers that the log names, and the
named watchers are recorded in place of those of the update before.  A delete is queued
for the recorded watchers: for those the last update went to, and not for one that an
earlier version of the log named.
-/

namespace DidHosting

open Text

/-! ## Named watchers -/

section Named

variable (L : Libs)

/-- The URLs in a value of the `watchers` parameter. -/
def watcherUrls (watchers : Json) : List String :=
  match watchers.asArray with
  | none => []
  | some items => (items.filterMap Json.asStr).map (trimEndMatches '/')

variable {L}

end Named

/-! ## Notifications -/

/-- A notification: a slot changed, with the store and the active servers as they are
then, or was deleted. -/
inductive PushEvent where
  | changed (mnemonic : String) (s : ControlStore) (servers : List String)
  | deleted (mnemonic : String) (servers : List String)

section Notify

variable (L : Libs) (fits : DidSyncUpdate → Bool) (peers : List WatcherPeer)

variable {L fits peers}

end Notify

namespace WatcherSample

open Reference

/-- An entry that sets the parameter. -/
def naming (urls : List String) : Json :=
  .obj [("parameters", .obj [("watchers", .arr (urls.map .str))])]

/-- The store while the slot's log is `log`. -/
def store (log : String) : ControlStore where
  ks := { DidsKs.empty with
    dids := (∅ : Table String DidRecord).insert "al" (ResyncSample.record (some didAl))
    contentLog := (∅ : Table String String).insert "al" log }
  acl := ∅
  domains := ∅

/-- Two publishes of the slot: the first names one watcher, the second the other. -/
def publishes : List PushEvent :=
  [.changed "al" (store (logOf [naming ["https://w1/"]])) [],
    .changed "al" (store (logOf [naming ["https://w1/"], naming ["https://w2"]])) []]

end WatcherSample

end DidHosting
