import Mathlib.Data.List.AList

/-!
# The data of `package xds`

The values the manager stores, fans out and puts on the wire: `Resource` and the resource map
`ResourceMap` (Go's `map[string]Resource`, an `AList`), the change notification `Update`, the
Go `[]string` of a subscription (`StrSlice`, which keeps `nil` apart from an empty slice as
`cmp.Diff` does), `randomString`, and the fields of `DiscoveryRequest` and `DiscoveryResponse`
that the manager reads or sets.
-/

namespace Ekglue.Xds

/-! ### Resources -/

/-- An xDS resource, like `envoy_api_v2.Cluster`. `name` is what `resourceName` reads through
`GetName` (or `GetClusterName`), `validateError` is the error `Validate()` returns (`none` for
`nil`), and `body` stands for the rest of the message. -/
structure Resource where
  name : String
  validateError : Option String
  body : String
  deriving DecidableEq, Repr

/-- `resourceName`: the name a resource is stored under. -/
def resourceName (r : Resource) : String := r.name

/-- The error `Add` and `Replace` return for a resource that fails `Validate`:
`fmt.Errorf("%q: %w", n, err)` names the resource and wraps its error. -/
structure ValidationError where
  name : String
  cause : String
  deriving DecidableEq, Repr

/-- `map[string]Resource`. Go ranges over a map in no fixed order; the model ranges over the
entries in list order, which is one of the orders Go may pick. -/
abbrev ResourceMap := AList fun _ : String => Resource

/-- `update`: the set of names one mutation changed. Its `ctx` only parents a tracing span and
is left out. -/
structure Update where
  resources : List String
  deriving DecidableEq, Repr

/-! ### Subscriptions -/

/-- A Go `[]string`; `none` is the `nil` slice. `len` and `range` do not tell `nil` from an
empty slice, `cmp.Diff` does. -/
abbrev StrSlice := Option (List String)

/-- The elements `range` visits. -/
def elems (s : StrSlice) : List String := s.getD []

/-- `cmp.Diff(x, y) == ""` for two `[]string`: both `nil`, or both non-`nil` with the same
elements in the same order. -/
def cmpEqual : StrSlice → StrSlice → Bool
  | none, none => true
  | some xs, some ys => xs == ys
  | _, _ => false

@[simp] theorem elems_none : elems none = [] := rfl

@[simp] theorem elems_some (xs : List String) : elems (some xs) = xs := rfl

@[simp] theorem cmpEqual_iff {x y : StrSlice} : cmpEqual x y = true ↔ x = y := by
  cases x <;> cases y <;> simp [cmpEqual]

@[simp] theorem cmpEqual_eq_false_iff {x y : StrSlice} : cmpEqual x y = false ↔ x ≠ y := by
  rw [← Bool.not_eq_true, cmpEqual_iff]

/-! ### Nonces -/

/-- What `rand.Read(hash[0:8])` did: the bytes it wrote over the leading `'x'`s of `hash`, and
whether it returned an error. -/
structure RandRead where
  written : List UInt8
  err : Bool
  deriving DecidableEq, Repr

/-- `randomString`: eight lowercase letters when the read filled the buffer without error,
otherwise the buffer as the read left it (`"xxxxxxxx"` when it wrote nothing). Each byte
becomes the character with its code, which keeps byte strings apart as Go's `string` does. -/
def randomString (r : RandRead) : String :=
  let hash := (r.written ++ List.replicate 8 'x'.toUInt8).take 8
  let hash := if 8 ≤ r.written.length ∧ r.err = false then
    hash.map (· % 26 + 'a'.toUInt8) else hash
  String.mk (hash.map fun b => Char.ofNat b.toNat)

/-! ### Wire messages -/

/-- The fields of `envoy_api_v2.DiscoveryRequest` that `Stream` reads. `nodeId` is
`GetNode().GetId()` (`""` for a request without a node) and `errorDetail` the message of
`GetErrorDetail()` (`none` for `nil`). -/
structure DiscoveryRequest where
  nodeId : String
  resourceNames : StrSlice
  typeUrl : String
  responseNonce : String
  errorDetail : Option String
  versionInfo : String
  deriving DecidableEq, Repr

/-- The fields of `envoy_api_v2.DiscoveryResponse` that `BuildDiscoveryResponse` sets; a
resource stands for its `Any` encoding. -/
structure DiscoveryResponse where
  versionInfo : String
  typeUrl : String
  resources : List Resource
  nonce : String
  deriving DecidableEq, Repr

/-- `Acknowledgment`: the event `OnAck` receives. -/
structure Acknowledgment where
  node : String
  version : String
  ack : Bool
  deriving DecidableEq, Repr

/-- `tx`: an in-flight push. `start` is `time.Now()` in nanoseconds and `span` numbers the
tracing span `sendUpdate` started for it. -/
structure Tx where
  start : Nat
  span : Nat
  nonce : String
  version : String
  deriving DecidableEq, Repr

/-- `map[string]*tx`, the in-flight transactions of one stream keyed by nonce. -/
abbrev TxMap := AList fun _ : String => Tx

end Ekglue.Xds
