import Mathlib.Data.String.Basic
import Ekglue.Xds.Types

/-!
# `Manager`: the resource store

The fields of `Manager` that its methods read and write, and the parts of `Add`, `Replace`,
`Delete`, `snapshot`, `ListKeys`, `List` and `BuildDiscoveryResponse` that run under the
manager's lock. Of `notify`, `Manager.notify` is what runs before the first send: the sends to
the sessions are steps of the interleaving model in `Ekglue.Xds.System`.
-/

namespace Ekglue.Xds

/-- The fields of `Manager` that its methods use; `Name` and `Logger` only label logs and
metrics. -/
structure Manager where
  /-- `VersionPrefix`, put before the version number. -/
  versionPrefix : String
  /-- `Type`, the type URL of the managed resources. -/
  type : String
  /-- Whether `OnAck` is set. -/
  onAck : Bool
  /-- `version`, bumped by every `notify` that has names to send. -/
  version : Nat
  /-- `resources`, the store. -/
  resources : ResourceMap
  /-- `sessions`: the registered session channels, by the id of their stream. -/
  sessions : List Nat

/-- `NewManager`, for a resource type whose message is named `messageName`. -/
def newManager (versionPrefix messageName : String) : Manager where
  versionPrefix := versionPrefix
  type := "type.googleapis.com/" ++ messageName
  onAck := false
  version := 0
  resources := ∅
  sessions := []

/-- `versionString`: `fmt.Sprintf("%s%d", m.VersionPrefix, m.version)`. -/
def Manager.versionString (m : Manager) : String := m.versionPrefix ++ toString m.version

/-! ### Snapshots -/

/-- `snapshotAll`: every stored resource with its name beside it, and the version string. -/
def Manager.snapshotAll (m : Manager) : List Resource × List String × String :=
  (m.resources.entries.map (·.2), m.resources.keys, m.versionString)

/-- The loop of `snapshot` over `want`: the stored resources among the wanted names, in
`want`'s order, with their names; a name that is not stored is skipped. -/
def snapshotWant (rs : ResourceMap) : List String → List Resource × List String
  | [] => ([], [])
  | name :: want =>
    match rs.lookup name with
    | none => snapshotWant rs want
    | some r => Prod.map (r :: ·) (name :: ·) (snapshotWant rs want)

/-- `snapshot`: everything for an empty `want`, else the wanted resources that are stored. -/
def Manager.snapshot (m : Manager) (want : List String) : List Resource × List String × String :=
  if want.length = 0 then m.snapshotAll
  else ((snapshotWant m.resources want).1, (snapshotWant m.resources want).2, m.versionString)

/-- `BuildDiscoveryResponse` when it succeeds: the response for `subscribed`, with the nonce
`nonce-<version>-<randomString()>`, and the names of its resources. -/
def Manager.buildDiscoveryResponse (m : Manager) (subscribed : List String) (rnd : RandRead) :
    DiscoveryResponse × List String :=
  let snap := m.snapshot subscribed
  ({ versionInfo := snap.2.2
     typeUrl := m.type
     resources := snap.1
     nonce := "nonce-" ++ snap.2.2 ++ "-" ++ randomString rnd }, snap.2.1)

/-- `ListKeys`: the names read back from the stored resources, sorted. -/
def Manager.listKeys (m : Manager) : List String :=
  (m.resources.entries.map fun e => resourceName e.2).mergeSort fun a b => decide (a ≤ b)

/-- `List`: the stored resources sorted by `resourceName`. -/
def Manager.list (m : Manager) : List Resource :=
  (m.resources.entries.map (·.2)).mergeSort fun a b => decide (resourceName a ≤ resourceName b)

/-! ### Mutations -/

/-- The start of `notify`: with no names it returns at once; otherwise it bumps the version
and builds the update that it then sends to every session. -/
def Manager.notify (m : Manager) (resources : List String) : Manager × Option Update :=
  if resources.length < 1 then (m, none)
  else ({ m with version := m.version + 1 }, some ⟨resources⟩)

/-- What a mutation leaves when it returns or reaches `notify`'s sends: the manager, the update
to fan out (`none` when `notify` is not reached or returns at once), and the error returned. -/
structure Outcome where
  m : Manager
  update : Option Update
  err : Option ValidationError

/-- The write loop of `Add`: it stores each resource under its name and appends the name to
`changed`, and stops at the first resource that fails `Validate`, with that error. -/
def addLoop : ResourceMap → List String → List Resource →
    ResourceMap × List String × Option ValidationError
  | rs, changed, [] => (rs, changed, none)
  | rs, changed, r :: more =>
    match r.validateError with
    | some e => (rs, changed, some ⟨resourceName r, e⟩)
    | none => addLoop (rs.insert (resourceName r) r) (changed ++ [resourceName r]) more

/-- `Add` under the lock: on a validation error it returns what it stored so far and skips
`notify`; otherwise `notify` gets every name written. -/
def Manager.add (m : Manager) (rs : List Resource) : Outcome :=
  let loop := addLoop m.resources [] rs
  match loop.2.2 with
  | some e => ⟨{ m with resources := loop.1 }, none, some e⟩
  | none =>
    let n := ({ m with resources := loop.1 } : Manager).notify loop.2.1
    ⟨n.1, n.2, none⟩

/-- The validation loop of `Replace`, run before the lock: the first resource's error. -/
def validateAll : List Resource → Option ValidationError
  | [] => none
  | r :: rs =>
    match r.validateError with
    | some e => some ⟨resourceName r, e⟩
    | none => validateAll rs

/-- The write loop of `Replace`: each resource goes into the new map and its name into
`changed`, and the name is deleted from `old` when it is there. -/
def replaceLoop : ResourceMap → ResourceMap → List String → List Resource →
    ResourceMap × ResourceMap × List String
  | old, new, changed, [] => (old, new, changed)
  | old, new, changed, r :: rs =>
    replaceLoop (if resourceName r ∈ old then old.erase (resourceName r) else old)
      (new.insert (resourceName r) r) (changed ++ [resourceName r]) rs

/-- `Replace`: a validation error returns before the lock is taken; otherwise the map is
rebuilt from `rs`, and `notify` gets the names written followed by the old names left over. -/
def Manager.replace (m : Manager) (rs : List Resource) : Outcome :=
  match validateAll rs with
  | some e => ⟨m, none, some e⟩
  | none =>
    let loop := replaceLoop m.resources ∅ [] rs
    let n := ({ m with resources := loop.2.1 } : Manager).notify (loop.2.2 ++ loop.1.keys)
    ⟨n.1, n.2, none⟩

/-- `Delete`: a stored name is erased and `notify` gets it alone; an absent one changes
nothing. -/
def Manager.delete (m : Manager) (n : String) : Outcome :=
  if n ∈ m.resources then
    let r := ({ m with resources := m.resources.erase n } : Manager).notify [n]
    ⟨r.1, r.2, none⟩
  else ⟨m, none, none⟩

/-- A call a producer makes on the manager. -/
inductive Op
  | add (rs : List Resource)
  | replace (rs : List Resource)
  | delete (n : String)

/-- The locked part of a call. -/
def Manager.apply (m : Manager) : Op → Outcome
  | .add rs => m.add rs
  | .replace rs => m.replace rs
  | .delete n => m.delete n

/-! ### Small lemmas -/

@[simp] theorem Manager.notify_nil (m : Manager) : m.notify [] = (m, none) := rfl

@[simp] theorem Manager.notify_resources (m : Manager) (l : List String) :
    (m.notify l).1.resources = m.resources := by
  unfold Manager.notify; split <;> rfl

@[simp] theorem Manager.notify_sessions (m : Manager) (l : List String) :
    (m.notify l).1.sessions = m.sessions := by
  unfold Manager.notify; split <;> rfl

@[simp] theorem Manager.notify_type (m : Manager) (l : List String) :
    (m.notify l).1.type = m.type := by
  unfold Manager.notify; split <;> rfl

@[simp] theorem Manager.notify_onAck (m : Manager) (l : List String) :
    (m.notify l).1.onAck = m.onAck := by
  unfold Manager.notify; split <;> rfl

@[simp] theorem Manager.notify_versionPrefix (m : Manager) (l : List String) :
    (m.notify l).1.versionPrefix = m.versionPrefix := by
  unfold Manager.notify; split <;> rfl

theorem Manager.notify_version (m : Manager) (l : List String) :
    (m.notify l).1.version = m.version + if l = [] then 0 else 1 := by
  cases l <;> simp [Manager.notify]

@[simp] theorem Manager.delete_err (m : Manager) (n : String) : (m.delete n).err = none := by
  unfold Manager.delete; split_ifs <;> rfl

@[simp] theorem Manager.apply_sessions (m : Manager) (op : Op) :
    (m.apply op).m.sessions = m.sessions := by
  cases op <;> simp only [Manager.apply, Manager.add, Manager.replace, Manager.delete] <;>
    split <;> simp

@[simp] theorem Manager.apply_type (m : Manager) (op : Op) : (m.apply op).m.type = m.type := by
  cases op <;> simp only [Manager.apply, Manager.add, Manager.replace, Manager.delete] <;>
    split <;> simp

@[simp] theorem Manager.apply_onAck (m : Manager) (op : Op) :
    (m.apply op).m.onAck = m.onAck := by
  cases op <;> simp only [Manager.apply, Manager.add, Manager.replace, Manager.delete] <;>
    split <;> simp

@[simp] theorem Manager.apply_versionPrefix (m : Manager) (op : Op) :
    (m.apply op).m.versionPrefix = m.versionPrefix := by
  cases op <;> simp only [Manager.apply, Manager.add, Manager.replace, Manager.delete] <;>
    split <;> simp

end Ekglue.Xds
