import Mathlib.Tactic.Common

/-!
# JSON values and errors

The values `serde_json::Value` ranges over with the readers the services use,
and the error type their operations return.  Parsing and printing belong to
`serde_json` and are parameters (see `Common.Libs`).
-/

namespace DidHosting

/-! ## Values -/

/-- The three number shapes of `serde_json::Number`. -/
inductive JsonNumber where
  | posInt (n : ℕ)
  | negInt (n : ℕ)
  | float (text : String)
deriving DecidableEq, Repr

/-- `serde_json::Value`.  Object keys are unique, as the parser leaves them. -/
inductive Json where
  | null
  | bool (b : Bool)
  | num (n : JsonNumber)
  | str (s : String)
  | arr (items : List Json)
  | obj (members : List (String × Json))
deriving Repr

namespace Json

/-- `Value::get` with a string key. -/
def get (key : String) : Json → Option Json
  | obj members => (members.find? fun m => m.1 == key).map Prod.snd
  | _ => none

def asStr : Json → Option String
  | str s => some s
  | _ => none

def asBool : Json → Option Bool
  | bool b => some b
  | _ => none

def asU64 : Json → Option ℕ
  | num (.posInt n) => some n
  | _ => none

def asArray : Json → Option (List Json)
  | arr items => some items
  | _ => none

/-- Insert or replace a member of an object. -/
def setMember (key : String) (value : Json) :
    List (String × Json) → List (String × Json)
  | [] => [(key, value)]
  | (k, v) :: rest =>
      if k = key then (key, value) :: rest
      else (k, v) :: setMember key value rest

theorem get_setMember_self (key : String) (value : Json) (members : List (String × Json)) :
    (obj (setMember key value members)).get key = some value := by
  change ((setMember key value members).find? fun m => m.1 == key).map Prod.snd = some value
  induction members with
  | nil => simp [setMember]
  | cons m rest ih =>
      obtain ⟨k, v⟩ := m
      by_cases hk : k = key
      · simp [setMember, hk]
      · simp only [setMember, if_neg hk]
        rw [List.find?_cons_of_neg (by simpa using hk)]
        exact ih

theorem get_setMember_ne {key other : String} (hne : other ≠ key) (value : Json)
    (members : List (String × Json)) :
    (obj (setMember key value members)).get other = (obj members).get other := by
  refine congrArg (Option.map Prod.snd) ?_
  induction members with
  | nil => simp [setMember, hne.symm]
  | cons m rest ih =>
      obtain ⟨k, v⟩ := m
      by_cases hk : k = key
      · subst hk
        rw [setMember, if_pos rfl, List.find?_cons_of_neg (by simpa using hne.symm),
          List.find?_cons_of_neg (by simpa using hne.symm)]
      · rw [setMember, if_neg hk, List.find?_cons, List.find?_cons, ih]

end Json

/-! ## Errors -/

/-- `AgentNameError`, as far as the operations raise it. -/
inductive AgentNameError where
  | reserved
  | taken
  | notFound
  | alsoKnownAsMismatch
deriving DecidableEq, Repr

inductive ValidationKind where
  | invalidLog
  | invalidPath
  | invalidWitness
  | other
deriving DecidableEq, Repr

/-- `AppError`, as far as the operations raise it. -/
inductive AppError where
  | internal (msg : String)
  | notFound (msg : String)
  | conflict (msg : String)
  | forbidden (msg : String)
  | validation (msg : String)
  | quotaExceeded (msg : String)
  | agentName (e : AgentNameError)
deriving DecidableEq, Repr

namespace AppError

/-- The tag `AppError::validation` puts in front of a message. -/
def tag : ValidationKind → String
  | .invalidLog => "[log]"
  | .invalidPath => "[path]"
  | .invalidWitness => "[witness]"
  | .other => ""

/-- `AppError::validation`: a validation error that carries its kind as a tag
in front of the message. -/
def validationOf (kind : ValidationKind) (msg : String) : AppError :=
  .validation (if tag kind = "" then msg else s!"{tag kind} {msg}")

/-- The `Display` text of an `AppError`. -/
def toText : AppError → String
  | .internal msg => s!"internal error: {msg}"
  | .notFound msg => s!"not found: {msg}"
  | .conflict msg => s!"conflict: {msg}"
  | .forbidden msg => s!"forbidden: {msg}"
  | .validation msg => s!"validation error: {msg}"
  | .quotaExceeded msg => s!"quota exceeded: {msg}"
  | .agentName .reserved => "agent name error: agent name is reserved"
  | .agentName .taken => "agent name error: agent name is already taken"
  | .agentName .notFound => "agent name error: agent name not found"
  | .agentName .alsoKnownAsMismatch =>
      "agent name error: submitted document's alsoKnownAs does not match the requested name"

end AppError

theorem bind_eq_ok {ε α β : Type} {x : Except ε α} {f : α → Except ε β} {b : β}
    (h : (x >>= f) = .ok b) : ∃ a, x = .ok a ∧ f a = .ok b := by
  cases x with
  | error e => cases h
  | ok a => exact ⟨a, rfl, h⟩

/-- A step that fails has failed itself, or what follows it has. -/
theorem bind_eq_error {ε α β : Type} {x : Except ε α} {f : α → Except ε β} {e : ε}
    (h : (x >>= f) = .error e) : x = .error e ∨ ∃ a, x = .ok a ∧ f a = .error e := by
  cases x with
  | error e' =>
      cases h
      exact Or.inl rfl
  | ok a => exact Or.inr ⟨a, rfl, h⟩

theorem mapError_eq_ok {ε δ α : Type} {f : ε → δ} {x : Except ε α} {a : α}
    (h : x.mapError f = .ok a) : x = .ok a := by
  cases x with
  | error e => cases h
  | ok b =>
      cases h
      rfl

inductive MethodError where
  | malformed (text : String)
  | methodMismatch (expected found : String)
  | validation (text : String)
deriving DecidableEq, Repr

/-- The `Display` text of a `MethodError`. -/
def MethodError.toText : MethodError → String
  | .malformed text => s!"malformed DID identifier: {text}"
  | .methodMismatch expected found =>
      s!"DID method mismatch: expected {expected}, found {found}"
  | .validation text => s!"validation failed: {text}"

end DidHosting
