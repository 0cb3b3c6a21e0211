import Mathlib.Data.Vector.Defs
import DidHosting.Support.Text

/-!
# The address a request is limited by

Behind proxies, the address of a client is read from the `X-Forwarded-For` list, to which
each proxy appends the address it was reached from.  The client can send a list of its own,
which then stands in front.  The walk over the list starts at the end and stops at the first
address that is no trusted proxy; entries that are no addresses are passed over.
-/

namespace DidHosting

open Text

/-! ## Addresses -/

inductive IpAddr where
  | v4 (octets : List.Vector UInt8 4)
  | v6 (segments : List.Vector UInt16 8)
deriving DecidableEq

namespace IpAddr

/-- The value of a digit, in the given radix. -/
def digitValue (radix : ℕ) (c : Char) : Option ℕ :=
  let n :=
    if '0' ≤ c ∧ c ≤ '9' then c.toNat - '0'.toNat
    else if 'a' ≤ c ∧ c ≤ 'f' then c.toNat - 'a'.toNat + 10
    else if 'A' ≤ c ∧ c ≤ 'F' then c.toNat - 'A'.toNat + 10
    else radix
  if n < radix then some n else none

/-- `read_number`: all digits that follow, at least one and at most `maxDigits`, for a
number below `bound`, and what stands behind them. -/
def readNumber (radix maxDigits bound : ℕ) (allowZeroPrefix : Bool) (cs : List Char) :
    Option (ℕ × List Char) :=
  let digits := cs.takeWhile fun c => (digitValue radix c).isSome
  let n := digits.foldl (fun n c => n * radix + (digitValue radix c).getD 0) 0
  if digits = [] ∨ maxDigits < digits.length ∨ bound ≤ n then none
  else if !allowZeroPrefix && digits.head? = some '0' && 1 < digits.length then none
  else some (n, cs.drop digits.length)

/-- `read_given_char`, before every part but the first. -/
def readSeparator (separator : Char) (index : ℕ) (cs : List Char) : Option (List Char) :=
  if index = 0 then some cs
  else
    match cs with
    | c :: rest => if c = separator then some rest else none
    | [] => none

/-- The octets of `read_ipv4_addr`, from the one numbered `index` on. -/
def readOctets : (count index : ℕ) → List Char → Option (List UInt8 × List Char)
  | 0, _, cs => some ([], cs)
  | count + 1, index, cs => do
      let cs ← readSeparator '.' index cs
      let (n, cs) ← readNumber 10 3 256 false cs
      let (rest, cs) ← readOctets count (index + 1) cs
      return (UInt8.ofNat n :: rest, cs)

/-- The two groups of an embedded IPv4 address. -/
def embedded : List UInt8 → List UInt16
  | [a, b, c, d] => [a.toUInt16 * 256 + b.toUInt16, c.toUInt16 * 256 + d.toUInt16]
  | _ => []

/-- `read_groups`: at most `limit` groups, of which the group numbered `index` is next, and
whether they end in an IPv4 address. -/
def readGroups : (limit index : ℕ) → List Char → List UInt16 × Bool × List Char
  | 0, _, cs => ([], false, cs)
  | limit + 1, index, cs =>
      let ipv4 :=
        if limit = 0 then none
        else (readSeparator ':' index cs).bind fun cs => readOctets 4 0 cs
      match ipv4 with
      | some (octets, cs) => (embedded octets, true, cs)
      | none =>
          match (readSeparator ':' index cs).bind fun cs => readNumber 16 4 65536 true cs with
          | none => ([], false, cs)
          | some (n, cs) =>
              let (rest, ipv4, cs) := readGroups limit (index + 1) cs
              (UInt16.ofNat n :: rest, ipv4, cs)

def readIpv6 (cs : List Char) : Option (List UInt16 × List Char) :=
  let (front, ipv4, cs) := readGroups 8 0 cs
  if front.length = 8 then some (front, cs)
  else if ipv4 then none
  else
    match cs with
    | ':' :: ':' :: cs =>
        -- the colons stand for at least one group
        let (back, _, cs) := readGroups (7 - front.length) 0 cs
        some (front ++ List.replicate (8 - front.length - back.length) 0 ++ back, cs)
    | _ => none

/-- The address made of the octets. -/
def ofOctets (octets : List UInt8) : Option IpAddr :=
  if h : octets.length = 4 then some (.v4 ⟨octets, h⟩) else none

/-- The address made of the groups. -/
def ofGroups (groups : List UInt16) : Option IpAddr :=
  if h : groups.length = 8 then some (.v6 ⟨groups, h⟩) else none

/-- `str::parse::<IpAddr>`: the whole text is an address. -/
def parse (s : String) : Option IpAddr :=
  match readOctets 4 0 s.toList with
  | some (octets, rest) => if rest = [] then ofOctets octets else none
  | none =>
      match readIpv6 s.toList with
      | some (groups, rest) => if rest = [] then ofGroups groups else none
      | none => none

end IpAddr

/-! ## The resolution -/

/-- The addresses of the trusted proxies that parse. -/
def trustedAddresses (trustedProxies : List String) : List IpAddr :=
  trustedProxies.filterMap IpAddr.parse

/-- The entries of a header that parse, from left to right. -/
def forwardedAddresses (xff : String) : List IpAddr :=
  (split ',' xff).filterMap fun s => IpAddr.parse (trim s)

/-- `resolve_client_ip`, of the shared crate. -/
def resolveClientIp (peer : IpAddr) (xff : Option String) (trustedProxies : List String) :
    IpAddr :=
  if trustedProxies.isEmpty then peer
  else
    let trusted := trustedAddresses trustedProxies
    if !trusted.contains peer then peer
    else
      match xff with
      | none => peer
      | some xff =>
          let parsed := forwardedAddresses xff
          match parsed with
          | [] => peer
          | leftmost :: _ =>
              match parsed.reverse.find? fun candidate => !trusted.contains candidate with
              | some candidate => candidate
              | none => leftmost

namespace Control

/-- `resolve_client_ip`, of the control plane. -/
def resolveClientIp (peer : IpAddr) (xff : Option String) (trustedProxies : List String) :
    IpAddr :=
  if trustedProxies.isEmpty then peer
  else
    let trusted := trustedAddresses trustedProxies
    if !trusted.contains peer then peer
    else
      match xff with
      | none => peer
      | some xff =>
          let parsed := forwardedAddresses xff
          match parsed with
          | [] => peer
          | leftmost :: _ =>
              match parsed.reverse.find? fun candidate => !trusted.contains candidate with
              | some candidate => candidate
              | none => leftmost

end Control

/-! ## Header lists -/

/-- A list of entries as a header. -/
def forwarded (entries : List String) : String :=
  String.ofList ([','].intercalate (entries.map String.toList))

/-- The entries of a header are those of the parts it was put together from. -/
theorem split_forwarded {entries : List String} (hne : entries ≠ []) :
    split ',' (forwarded entries) = entries.flatMap (split ',') := by
  unfold forwarded split
  rw [String.toList_ofList]
  induction entries with
  | nil => exact absurd rfl hne
  | cons entry entries ih =>
      cases entries with
      | nil => simp
      | cons next entries =>
          have hstep : [','].intercalate ((entry :: next :: entries).map String.toList) =
              entry.toList ++ ',' :: [','].intercalate ((next :: entries).map String.toList) := by
            simp [List.intercalate]
          rw [hstep, splitFrom_append, List.map_append, ih (List.cons_ne_nil _ _)]
          rfl

theorem forwardedAddresses_forwarded {entries : List String} (hne : entries ≠ []) :
    forwardedAddresses (forwarded entries) =
      entries.flatMap fun entry => forwardedAddresses entry := by
  unfold forwardedAddresses
  rw [split_forwarded hne, List.filterMap_flatMap]

/-- The addresses of a list that was appended to are those of the two parts. -/
theorem forwardedAddresses_append (client : List String) {proxies : List String}
    (hne : proxies ≠ []) :
    forwardedAddresses (forwarded (client ++ proxies)) =
      (client.flatMap fun entry => forwardedAddresses entry) ++
        forwardedAddresses (forwarded proxies) := by
  rw [forwardedAddresses_forwarded (List.append_ne_nil_of_right_ne_nil _ hne),
    forwardedAddresses_forwarded hne, List.flatMap_append]

/-- The walk stops in the part behind if that has an untrusted address. -/
theorem find?_reverse_append {α : Type} (stop : α → Bool) (front : List α) {back : List α}
    (h : ∃ a ∈ back, stop a = true) :
    (front ++ back).reverse.find? stop = back.reverse.find? stop := by
  obtain ⟨a, ha, hstop⟩ := h
  have hsome : (back.reverse.find? stop).isSome = true := by
    rw [List.find?_isSome]
    exact ⟨a, List.mem_reverse.mpr ha, hstop⟩
  rw [List.reverse_append, List.find?_append, Option.or_of_isSome hsome]

/-- The addresses that the walk does not stop at. -/
def untrusted (trustedProxies : List String) (candidate : IpAddr) : Bool :=
  !(trustedAddresses trustedProxies).contains candidate

theorem resolveClientIp_of_walk {trustedProxies : List String} {peer found : IpAddr}
    {xff : String}
    (hwalk : (forwardedAddresses xff).reverse.find? (untrusted trustedProxies) = some found) :
    resolveClientIp peer (some xff) trustedProxies =
      if trustedProxies.isEmpty then peer
      else if untrusted trustedProxies peer then peer else found := by
  have hwalk' : ((forwardedAddresses xff).reverse.find? fun candidate =>
      !(trustedAddresses trustedProxies).contains candidate) = some found := hwalk
  unfold resolveClientIp untrusted
  cases hparsed : forwardedAddresses xff with
  | nil =>
      rw [hparsed] at hwalk
      contradiction
  | cons leftmost rest =>
      rw [hparsed] at hwalk'
      simp only [hparsed, hwalk']

/-- What the walk finds does not depend on what stands in front of an untrusted address. -/
theorem resolveClientIp_append {trustedProxies proxies : List String} {address : IpAddr}
    (hmem : address ∈ forwardedAddresses (forwarded proxies))
    (huntrusted : address ∉ trustedAddresses trustedProxies) (peer : IpAddr)
    (client : List String) :
    resolveClientIp peer (some (forwarded (client ++ proxies))) trustedProxies =
      resolveClientIp peer (some (forwarded proxies)) trustedProxies := by
  have hne : proxies ≠ [] := by
    rintro rfl
    have hempty : forwardedAddresses (forwarded []) = [] := by decide +kernel
    rw [hempty] at hmem
    exact List.not_mem_nil hmem
  have hstop : ∃ a ∈ forwardedAddresses (forwarded proxies),
      untrusted trustedProxies a = true :=
    ⟨address, hmem, by simpa [untrusted] using huntrusted⟩
  have hwalk := find?_reverse_append (untrusted trustedProxies)
    (client.flatMap fun entry => forwardedAddresses entry) hstop
  rw [← forwardedAddresses_append client hne] at hwalk
  obtain ⟨a, ha, hnot⟩ := hstop
  have hsome : ((forwardedAddresses (forwarded proxies)).reverse.find?
      (untrusted trustedProxies)).isSome = true := by
    rw [List.find?_isSome]
    exact ⟨a, List.mem_reverse.mpr ha, hnot⟩
  obtain ⟨found, hfind⟩ := Option.isSome_iff_exists.mp hsome
  exact (resolveClientIp_of_walk (hwalk.trans hfind)).trans (resolveClientIp_of_walk hfind).symm

/-- If the part that the proxies appended has the address of something that is no trusted
proxy, the resolved address is the same whatever the client sent.  The two copies of the
function agree on every input. -/
theorem client_ip_fixed {trustedProxies proxies : List String} {address : IpAddr}
    (hmem : address ∈ forwardedAddresses (forwarded proxies))
    (huntrusted : address ∉ trustedAddresses trustedProxies) :
    (∀ (peer : IpAddr) (client client' : List String),
      resolveClientIp peer (some (forwarded (client ++ proxies))) trustedProxies =
        resolveClientIp peer (some (forwarded (client' ++ proxies))) trustedProxies) ∧
      ∀ (peer : IpAddr) (xff : Option String) (trustedProxies : List String),
        Control.resolveClientIp peer xff trustedProxies =
          resolveClientIp peer xff trustedProxies := by
  constructor
  · intro peer client client'
    rw [resolveClientIp_append hmem huntrusted, resolveClientIp_append hmem huntrusted]
  · intro peer xff trustedProxies
    rfl

def proxyAddress : IpAddr :=
  .v4 ⟨[10, 0, 0, 1], rfl⟩

/-- The address that the proxy was reached from. -/
def reachedFrom : IpAddr :=
  .v4 ⟨[203, 0, 113, 9], rfl⟩

/-- The proxy appends the address it was reached from: two clients' lists give one address. -/
theorem client_ip_fixed_proxy :
    resolveClientIp proxyAddress
        (some (forwarded (["198.51.100.1"] ++ ["203.0.113.9", "10.0.0.1"]))) ["10.0.0.1"] =
      resolveClientIp proxyAddress
        (some (forwarded (["198.51.100.2"] ++ ["203.0.113.9", "10.0.0.1"]))) ["10.0.0.1"] :=
  (@client_ip_fixed ["10.0.0.1"] ["203.0.113.9", "10.0.0.1"] reachedFrom (by decide +kernel)
    (by decide +kernel)).1 proxyAddress ["198.51.100.1"] ["198.51.100.2"]

/-- A proxy appends the address with a port, which is no bare address: the walk passes over
it into the client's part, and two clients' lists give two addresses. -/
theorem port_entry_skipped :
    resolveClientIp proxyAddress (some (forwarded (["198.51.100.1"] ++ ["203.0.113.9:4711"])))
        ["10.0.0.1"] ≠
      resolveClientIp proxyAddress (some (forwarded (["198.51.100.2"] ++ ["203.0.113.9:4711"])))
        ["10.0.0.1"] := by
  decide +kernel

end DidHosting
