import Ekglue.Xds.Manager

/-!
# Correctness of the mutations of `Manager`

`addLoop` and `replaceLoop` compute `insertAll`, the map after writing a batch in order
(`addLoop_eq`, `replaceLoop_new`), and the names they hand to `notify` are exactly the names a
call touches (`mem_published_iff`); every name whose entry a successful call changes is among
them (`mem_published_of_lookup_ne`). Run after one another, successful calls agree with the
reference fold `refStep`, on the map and on the version counter (`runOps_eq_foldl_refStep`).

`Add` validates inside its write loop, so a batch that fails after a valid prefix leaves the
prefix stored with the version unchanged (`add_of_validateAll_eq_some`); `Replace` validates
first and leaves the manager as it was (`replace_of_validateAll_eq_some`). Either call returns
its batch's first validation error and nothing else, whatever `notify` does (`Manager.add_err`,
`Manager.replace_err`).
-/

namespace Ekglue.Xds

/-! ### Writing a batch -/

/-- The map after writing `rs` in order, a later resource overwriting an earlier one of the same
name. -/
def insertAll (s : ResourceMap) (rs : List Resource) : ResourceMap :=
  rs.foldl (fun acc r => acc.insert (resourceName r) r) s

/-- A resource whose `Validate` returns `nil`. -/
def isValid (r : Resource) : Bool := r.validateError.isNone

@[simp] theorem insertAll_nil (s : ResourceMap) : insertAll s [] = s := rfl

@[simp] theorem insertAll_cons (s : ResourceMap) (r : Resource) (rs : List Resource) :
    insertAll s (r :: rs) = insertAll (s.insert (resourceName r) r) rs := rfl

theorem lookup_insertAll_of_not_mem {s : ResourceMap} {rs : List Resource} {n : String}
    (h : n ∉ rs.map resourceName) : (insertAll s rs).lookup n = s.lookup n := by
  induction rs generalizing s with
  | nil => rfl
  | cons r rs ih =>
    simp only [List.map_cons, List.mem_cons, not_or] at h
    rw [insertAll_cons, ih h.2, AList.lookup_insert_ne h.1]

/-- `validateAll` finds an error exactly when some resource is invalid. -/
theorem validateAll_eq_none_iff {rs : List Resource} :
    validateAll rs = none ↔ ∀ r ∈ rs, isValid r := by
  induction rs with
  | nil => simp [validateAll]
  | cons r rs ih => cases h : r.validateError <;> simp [validateAll, h, ih, isValid]

theorem takeWhile_isValid_of_validateAll {rs : List Resource} (h : validateAll rs = none) :
    rs.takeWhile isValid = rs :=
  List.takeWhile_eq_self_iff.mpr fun r hr => validateAll_eq_none_iff.mp h r hr

/-! ### `Add` -/

/-- **The write loop of `Add`.** It writes the longest valid prefix, hands its names on, and
returns the error of the first invalid resource. -/
theorem addLoop_eq (s : ResourceMap) (c : List String) (rs : List Resource) :
    addLoop s c rs = (insertAll s (rs.takeWhile isValid),
      c ++ (rs.takeWhile isValid).map resourceName, validateAll rs) := by
  induction rs generalizing s c with
  | nil => simp [addLoop, validateAll]
  | cons r rs ih => cases h : r.validateError <;> simp [addLoop, validateAll, h, ih, isValid]

theorem add_of_validateAll_eq_none {m : Manager} {rs : List Resource}
    (h : validateAll rs = none) :
    m.add rs = ⟨(({ m with resources := insertAll m.resources rs } : Manager).notify
      (rs.map resourceName)).1, (({ m with resources := insertAll m.resources rs } :
      Manager).notify (rs.map resourceName)).2, none⟩ := by
  simp [Manager.add, addLoop_eq, h, takeWhile_isValid_of_validateAll h]

/-- An `Add` that fails keeps what its loop stored before the invalid resource, and does not
reach `notify`. -/
theorem add_of_validateAll_eq_some {m : Manager} {rs : List Resource} {e : ValidationError}
    (h : validateAll rs = some e) :
    m.add rs = ⟨{ m with resources := insertAll m.resources (rs.takeWhile isValid) }, none,
      some e⟩ := by
  simp [Manager.add, addLoop_eq, h]

/-! ### `Replace` and `Delete` -/

theorem erase_of_not_mem {s : ResourceMap} {n : String} (h : n ∉ s) : s.erase n = s :=
  AList.ext (List.kerase_of_not_mem_keys h)

/-- Deleting a name only when it is present is deleting it. -/
@[simp] theorem ite_mem_erase (s : ResourceMap) (n : String) :
    (if n ∈ s then s.erase n else s) = s.erase n := by
  split_ifs with h
  · rfl
  · exact (erase_of_not_mem h).symm

theorem replaceLoop_new (old new : ResourceMap) (c : List String) (rs : List Resource) :
    (replaceLoop old new c rs).2.1 = insertAll new rs := by
  induction rs generalizing old new c with
  | nil => rfl
  | cons r rs ih => exact ih ..

theorem replaceLoop_changed (old new : ResourceMap) (c : List String) (rs : List Resource) :
    (replaceLoop old new c rs).2.2 = c ++ rs.map resourceName := by
  induction rs generalizing old new c with
  | nil => simp [replaceLoop]
  | cons r rs ih => exact (ih ..).trans (by simp)

/-- **The invariant of `Replace`'s loop on `old`.** What is left of the old map is exactly its
names that the batch did not write. -/
theorem mem_replaceLoop_old {old new : ResourceMap} {c : List String} {rs : List Resource}
    {n : String} : n ∈ (replaceLoop old new c rs).1 ↔ n ∈ old ∧ n ∉ rs.map resourceName := by
  induction rs generalizing old new c with
  | nil => simp [replaceLoop]
  | cons r rs ih =>
    simp only [replaceLoop, ite_mem_erase, ih, AList.mem_erase, List.map_cons, List.mem_cons,
      not_or]
    tauto

theorem replaceLoop_old_of_nil (old new : ResourceMap) (c : List String) :
    (replaceLoop old new c []).1 = old := rfl

theorem replace_of_validateAll_eq_some {m : Manager} {rs : List Resource} {e : ValidationError}
    (h : validateAll rs = some e) : m.replace rs = ⟨m, none, some e⟩ := by
  simp [Manager.replace, h]

theorem replace_of_validateAll_eq_none {m : Manager} {rs : List Resource}
    (h : validateAll rs = none) :
    m.replace rs = ⟨(({ m with resources := insertAll ∅ rs } : Manager).notify
      (rs.map resourceName ++ (replaceLoop m.resources ∅ [] rs).1.keys)).1,
      (({ m with resources := insertAll ∅ rs } : Manager).notify
      (rs.map resourceName ++ (replaceLoop m.resources ∅ [] rs).1.keys)).2, none⟩ := by
  simp [Manager.replace, h, replaceLoop_new, replaceLoop_changed]

/-- **What `Add` returns.** Its error is the batch's first validation error, whatever happens in
`notify`. -/
theorem Manager.add_err (m : Manager) (rs : List Resource) : (m.add rs).err = validateAll rs := by
  cases h : validateAll rs
  · simp [add_of_validateAll_eq_none h]
  · simp [add_of_validateAll_eq_some h]

/-- **What `Replace` returns.** Its error is the batch's first validation error, whatever happens
in `notify`. -/
theorem Manager.replace_err (m : Manager) (rs : List Resource) :
    (m.replace rs).err = validateAll rs := by
  cases h : validateAll rs
  · simp [replace_of_validateAll_eq_none h]
  · simp [replace_of_validateAll_eq_some h]

/-! ### What `notify` is handed -/

/-- The names a call hands to `notify`; nothing when it fails or does not call it. -/
def Outcome.published (o : Outcome) : List String :=
  match o.update with
  | some u => u.resources
  | none => []

theorem published_notify (m : Manager) (l : List String) (e : Option ValidationError) :
    (Outcome.mk (m.notify l).1 (m.notify l).2 e).published = l := by
  cases l <;> simp [Outcome.published, Manager.notify]

/-- The names a call touches, as the reference model counts them: every name of the batch for
`Add`, the old names together with the batch's for `Replace`, the name itself for a `Delete` that
finds it. -/
def touched (m : Manager) : Op → String → Prop
  | .add rs, n => n ∈ rs.map resourceName
  | .replace rs, n => n ∈ m.resources ∨ n ∈ rs.map resourceName
  | .delete k, n => n = k ∧ k ∈ m.resources

/-- **The published names.** A call that returns no error hands `notify` exactly the names it
touches. -/
theorem mem_published_iff {m : Manager} {op : Op} (h : (m.apply op).err = none) (n : String) :
    n ∈ (m.apply op).published ↔ touched m op n := by
  cases op with
  | add rs =>
    cases hv : validateAll rs with
    | some e => simp [Manager.apply, add_of_validateAll_eq_some hv] at h
    | none => simp [Manager.apply, add_of_validateAll_eq_none hv, published_notify, touched]
  | replace rs =>
    cases hv : validateAll rs with
    | some e => simp [Manager.apply, replace_of_validateAll_eq_some hv] at h
    | none =>
      simp only [Manager.apply, replace_of_validateAll_eq_none hv, published_notify,
        List.mem_append, ← AList.mem_keys, mem_replaceLoop_old, touched]
      tauto
  | delete k =>
    by_cases hk : k ∈ m.resources
    · simp [Manager.apply, Manager.delete, hk, published_notify, touched]
    · simp [Manager.apply, Manager.delete, hk, Outcome.published, touched]

/-- A call that returns no error changes the entry of no name it does not publish. -/
theorem mem_published_of_lookup_ne {m : Manager} {op : Op} (h : (m.apply op).err = none)
    {n : String} (hn : (m.apply op).m.resources.lookup n ≠ m.resources.lookup n) :
    n ∈ (m.apply op).published := by
  rw [mem_published_iff h]
  by_contra ht
  apply hn
  cases op with
  | add rs =>
    cases hv : validateAll rs with
    | some e => simp [Manager.apply, add_of_validateAll_eq_some hv] at h
    | none =>
      simp only [Manager.apply, add_of_validateAll_eq_none hv, Manager.notify_resources]
      exact lookup_insertAll_of_not_mem ht
  | replace rs =>
    cases hv : validateAll rs with
    | some e => simp [Manager.apply, replace_of_validateAll_eq_some hv] at h
    | none =>
      simp only [touched, not_or] at ht
      simp only [Manager.apply, replace_of_validateAll_eq_none hv, Manager.notify_resources,
        lookup_insertAll_of_not_mem ht.2, AList.lookup_empty]
      exact (AList.lookup_eq_none.mpr ht.1).symm
  | delete k =>
    simp only [touched, not_and] at ht
    by_cases hk : k ∈ m.resources
    · simp only [Manager.apply, Manager.delete, hk, if_true, Manager.notify_resources]
      exact AList.lookup_erase_ne fun e => ht e hk
    · simp [Manager.apply, Manager.delete, hk]

/-- **The update `notify` publishes.** For a call that returns no error, its names are exactly
the names the call touches, and they include every name whose entry the call changed. -/
theorem published_eq_touched {m : Manager} {op : Op} (h : (m.apply op).err = none) :
    (∀ n, n ∈ (m.apply op).published ↔ touched m op n) ∧
    ∀ n, (m.apply op).m.resources.lookup n ≠ m.resources.lookup n →
      n ∈ (m.apply op).published :=
  ⟨mem_published_iff h, fun _ => mem_published_of_lookup_ne h⟩

theorem published_eq_touched_replace :
    (((newManager "v" "envoy.api.v2.Cluster").add [⟨"a", none, "1"⟩]).m.apply
        (.replace [⟨"b", none, "2"⟩])).err = none ∧
    ((∀ n, n ∈ (((newManager "v" "envoy.api.v2.Cluster").add [⟨"a", none, "1"⟩]).m.apply
        (.replace [⟨"b", none, "2"⟩])).published ↔
      touched ((newManager "v" "envoy.api.v2.Cluster").add [⟨"a", none, "1"⟩]).m
        (.replace [⟨"b", none, "2"⟩]) n) ∧
    ∀ n, (((newManager "v" "envoy.api.v2.Cluster").add [⟨"a", none, "1"⟩]).m.apply
        (.replace [⟨"b", none, "2"⟩])).m.resources.lookup n ≠
        ((newManager "v" "envoy.api.v2.Cluster").add [⟨"a", none, "1"⟩]).m.resources.lookup n →
      n ∈ (((newManager "v" "envoy.api.v2.Cluster").add [⟨"a", none, "1"⟩]).m.apply
        (.replace [⟨"b", none, "2"⟩])).published) :=
  ⟨rfl, published_eq_touched rfl⟩

/-- The version counter never goes down, whether the call fails or not. -/
theorem version_le_apply (m : Manager) (op : Op) : m.version ≤ (m.apply op).m.version := by
  cases op with
  | add rs =>
    cases hv : validateAll rs with
    | some e => simp [Manager.apply, add_of_validateAll_eq_some hv]
    | none => simp [Manager.apply, add_of_validateAll_eq_none hv, Manager.notify_version]
  | replace rs =>
    cases hv : validateAll rs with
    | some e => simp [Manager.apply, replace_of_validateAll_eq_some hv]
    | none => simp [Manager.apply, replace_of_validateAll_eq_none hv, Manager.notify_version]
  | delete k =>
    by_cases hk : k ∈ m.resources
    · simp [Manager.apply, Manager.delete, hk, Manager.notify_version]
    · simp [Manager.apply, Manager.delete, hk]

/-! ### Failing calls -/

/-- **`Add` keeps a partial batch.** On an empty store, `Add` of a valid resource followed by an
invalid one returns the error of the second and leaves the first stored. -/
theorem add_stores_prefix_of_invalid :
    ((newManager "v" "envoy.api.v2.Cluster").add
        [⟨"a", none, "1"⟩, ⟨"b", some "invalid", "2"⟩]).err = some ⟨"b", "invalid"⟩ ∧
      (newManager "v" "envoy.api.v2.Cluster").resources.lookup "a" = none ∧
      ((newManager "v" "envoy.api.v2.Cluster").add
        [⟨"a", none, "1"⟩, ⟨"b", some "invalid", "2"⟩]).m.resources.lookup "a" =
        some ⟨"a", none, "1"⟩ := by
  decide

/-- The same call keeps the version, so a wildcard response built before it and one built after
it carry the same `version_info` and different resources. -/
theorem add_of_invalid_same_version_other_response :
    ((newManager "v" "envoy.api.v2.Cluster").add
        [⟨"a", none, "1"⟩, ⟨"b", some "invalid", "2"⟩]).m.version =
      (newManager "v" "envoy.api.v2.Cluster").version ∧
    (((newManager "v" "envoy.api.v2.Cluster").add
        [⟨"a", none, "1"⟩, ⟨"b", some "invalid", "2"⟩]).m.buildDiscoveryResponse []
        ⟨[], true⟩).1.versionInfo =
      ((newManager "v" "envoy.api.v2.Cluster").buildDiscoveryResponse [] ⟨[], true⟩).1.versionInfo ∧
    (((newManager "v" "envoy.api.v2.Cluster").add
        [⟨"a", none, "1"⟩, ⟨"b", some "invalid", "2"⟩]).m.buildDiscoveryResponse []
        ⟨[], true⟩).1.resources ≠
      ((newManager "v" "envoy.api.v2.Cluster").buildDiscoveryResponse [] ⟨[], true⟩).1.resources := by
  decide

/-! ### Runs of calls -/

/-- Runs the calls one after another; `none` as soon as one returns an error. -/
def runOps (m : Manager) : List Op → Option Manager
  | [] => some m
  | op :: ops => if (m.apply op).err = none then runOps (m.apply op).m ops else none

/-- One call as the reference model folds it over the map and the version counter: `Add`
overwrites by name in list order, `Replace` builds the map from its batch alone, `Delete` erases,
and the counter counts the calls that touch at least one name. -/
def refStep (st : ResourceMap × Nat) : Op → ResourceMap × Nat
  | .add rs => (insertAll st.1 rs, st.2 + if rs = [] then 0 else 1)
  | .replace rs => (insertAll ∅ rs, st.2 + if rs = [] ∧ st.1.keys = [] then 0 else 1)
  | .delete n => (st.1.erase n, st.2 + if n ∈ st.1 then 1 else 0)

/-- The names `Replace` publishes are none exactly when the batch and the old map are empty. -/
theorem replace_changed_eq_nil_iff (old : ResourceMap) (rs : List Resource) :
    rs.map resourceName ++ (replaceLoop old ∅ [] rs).1.keys = [] ↔ rs = [] ∧ old.keys = [] := by
  cases rs with
  | nil => simp [replaceLoop_old_of_nil]
  | cons r rs => simp

/-- A call that returns no error is one step of the reference fold. -/
theorem apply_eq_refStep {m : Manager} {op : Op} (h : (m.apply op).err = none) :
    ((m.apply op).m.resources, (m.apply op).m.version) = refStep (m.resources, m.version) op := by
  cases op with
  | add rs =>
    cases hv : validateAll rs with
    | some e => simp [Manager.apply, add_of_validateAll_eq_some hv] at h
    | none => simp [Manager.apply, add_of_validateAll_eq_none hv, Manager.notify_version, refStep]
  | replace rs =>
    cases hv : validateAll rs with
    | some e => simp [Manager.apply, replace_of_validateAll_eq_some hv] at h
    | none =>
      simp only [Manager.apply, replace_of_validateAll_eq_none hv, Manager.notify_resources,
        Manager.notify_version, replace_changed_eq_nil_iff, refStep]
  | delete k =>
    by_cases hk : k ∈ m.resources
    · simp [Manager.apply, Manager.delete, hk, Manager.notify_version, refStep]
    · simp [Manager.apply, Manager.delete, hk, refStep, erase_of_not_mem hk]

/-- **Successful calls fold.** After any sequence of calls that each return without error, the
map and the version counter are the reference fold of the calls from the initial ones. -/
theorem runOps_eq_foldl_refStep {m m' : Manager} {ops : List Op} (h : runOps m ops = some m') :
    (m'.resources, m'.version) = ops.foldl refStep (m.resources, m.version) := by
  induction ops generalizing m with
  | nil => cases h; rfl
  | cons op ops ih =>
    simp only [runOps] at h
    split_ifs at h with hok
    rw [List.foldl_cons, ← apply_eq_refStep hok]
    exact ih h

theorem runOps_add_replace_delete :
    runOps (newManager "v" "envoy.api.v2.Cluster")
        [.add [⟨"a", none, "1"⟩, ⟨"a", none, "2"⟩], .replace [⟨"b", none, "3"⟩], .delete "b"] =
      some { newManager "v" "envoy.api.v2.Cluster" with version := 3 } ∧
    ((∅ : ResourceMap), 3) =
      [Op.add [⟨"a", none, "1"⟩, ⟨"a", none, "2"⟩], .replace [⟨"b", none, "3"⟩],
        .delete "b"].foldl refStep (∅, 0) :=
  ⟨rfl, @runOps_eq_foldl_refStep (newManager "v" "envoy.api.v2.Cluster")
    { newManager "v" "envoy.api.v2.Cluster" with version := 3 } _ rfl⟩

end Ekglue.Xds
