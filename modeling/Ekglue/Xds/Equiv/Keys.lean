import Mathlib.Data.List.Sort
import Ekglue.Xds.Equiv.Store

/-!
# The store is keyed by name

`ListKeys` and `List` read the names back from the stored resources, not from the keys, so they
are right only on a map that stores every resource under its own name (`KeyInv`).

* `KeyInv.apply`: every call keeps it: `Add`'s loop, also when it stops at an invalid resource,
  `Replace`'s rebuilt map, and `Delete`'s erasure.
* `KeyInv.lists`: on such a map `ListKeys` is the keys in strictly ascending order, and `List` is
  the stored resources, one per key, with `resourceName` of each beside it in `ListKeys`.
* `listKeys_list_of_applyAll`: both hold after any sequence of calls, succeeding or failing.
-/

namespace Ekglue.Xds

/-- Every entry of the map is stored under the name of its resource. -/
def KeyInv (rs : ResourceMap) : Prop := ∀ k r, rs.lookup k = some r → resourceName r = k

/-- The manager after a sequence of calls, each one's result kept whether it fails or not. -/
def applyAll (m : Manager) (ops : List Op) : Manager := ops.foldl (fun m op => (m.apply op).m) m

/-- What `ListKeys` and `List` return on a keyed map. -/
structure Listing (m : Manager) : Prop where
  /-- `ListKeys` is the keys... -/
  keys_perm : m.listKeys.Perm m.resources.keys
  /-- ...in strictly ascending order. -/
  keys_sorted : m.listKeys.Sorted (· < ·)
  /-- `List` is the stored resources... -/
  list_perm : m.list.Perm (m.resources.entries.map (·.2))
  /-- ...each stored under its name... -/
  lookup_list : ∀ r ∈ m.list, m.resources.lookup (resourceName r) = some r
  /-- ...and named as `ListKeys` says, index by index. -/
  names_list : m.list.map resourceName = m.listKeys

/-! ### The write paths keep the invariant -/

namespace KeyInv

theorem empty : KeyInv ∅ := fun k r h => by simp at h

theorem insert {rs : ResourceMap} (h : KeyInv rs) (r : Resource) :
    KeyInv (rs.insert (resourceName r) r) := by
  intro k r' hk
  by_cases hkr : k = resourceName r
  · subst hkr
    rw [AList.lookup_insert, Option.some_inj] at hk
    rw [hk]
  · exact h k r' (by rwa [AList.lookup_insert_ne hkr] at hk)

theorem insertAll {rs : ResourceMap} (h : KeyInv rs) (l : List Resource) :
    KeyInv (Xds.insertAll rs l) := by
  induction l generalizing rs with
  | nil => exact h
  | cons r l ih => exact ih (h.insert r)

theorem erase {rs : ResourceMap} (h : KeyInv rs) (n : String) : KeyInv (rs.erase n) := by
  intro k r hk
  by_cases hkn : k = n
  · subst hkn
    rw [AList.lookup_erase] at hk
    cases hk
  · exact h k r (by rwa [AList.lookup_erase_ne hkn] at hk)

/-- **Every call keeps the store keyed**, whether it succeeds or fails. -/
theorem apply {m : Manager} (h : KeyInv m.resources) (op : Op) :
    KeyInv (m.apply op).m.resources := by
  cases op with
  | add rs =>
    cases he : validateAll rs
    · simpa [Manager.apply, add_of_validateAll_eq_none he] using h.insertAll rs
    · simpa [Manager.apply, add_of_validateAll_eq_some he] using h.insertAll _
  | replace rs =>
    cases he : validateAll rs
    · simpa [Manager.apply, replace_of_validateAll_eq_none he] using empty.insertAll rs
    · simpa [Manager.apply, replace_of_validateAll_eq_some he]
  | delete n =>
    simp only [Manager.apply, Manager.delete]
    split_ifs
    · simpa using h.erase n
    · exact h

theorem applyAll {m : Manager} (h : KeyInv m.resources) (ops : List Op) :
    KeyInv (Xds.applyAll m ops).resources := by
  induction ops generalizing m with
  | nil => exact h
  | cons op ops ih => exact ih (h.apply op)

/-! ### Reading the names back -/

/-- Core's merge sort by a decided comparison of names sorts by name. -/
theorem sorted_mergeSort_name {α : Type} (f : α → String) (l : List α) :
    (l.mergeSort fun a b => decide (f a ≤ f b)).Pairwise fun a b => f a ≤ f b :=
  (@List.sorted_mergeSort _ (fun a b => decide (f a ≤ f b))
    (fun _ _ _ hab hbc => decide_eq_true (le_trans (of_decide_eq_true hab) (of_decide_eq_true hbc)))
    (fun a b => Bool.or_eq_true_iff.2 ((le_total (f a) (f b)).imp decide_eq_true decide_eq_true))
    l).imp of_decide_eq_true

/-- On a keyed map the names read back from the values are the keys. -/
theorem map_resourceName {rs : ResourceMap} (h : KeyInv rs) :
    rs.entries.map (fun e => resourceName e.2) = rs.keys :=
  List.map_congr_left fun e he => h e.1 e.2 (AList.mem_lookup_iff.2 he)

/-- **`ListKeys` and `List` on a keyed map.** -/
theorem lists {m : Manager} (h : KeyInv m.resources) : Listing m := by
  have keys_perm : m.listKeys.Perm m.resources.keys := by
    unfold Manager.listKeys
    rw [h.map_resourceName]
    exact List.mergeSort_perm _ _
  have keys_le : m.listKeys.Sorted (· ≤ ·) := sorted_mergeSort_name id _
  have list_perm : m.list.Perm (m.resources.entries.map (·.2)) := List.mergeSort_perm _ _
  have names_le : (m.list.map resourceName).Sorted (· ≤ ·) :=
    List.pairwise_map.2 (sorted_mergeSort_name resourceName _)
  have names_perm : (m.list.map resourceName).Perm m.listKeys := by
    have := list_perm.map resourceName
    rw [List.map_map] at this
    exact this.trans (h.map_resourceName ▸ keys_perm.symm)
  refine ⟨keys_perm, keys_le.lt_of_le (keys_perm.nodup_iff.2 m.resources.keys_nodup), list_perm,
    fun r hr => ?_, List.eq_of_perm_of_sorted names_perm names_le keys_le⟩
  obtain ⟨e, he, rfl⟩ := List.mem_map.1 (list_perm.subset hr)
  rw [h e.1 e.2 (AList.mem_lookup_iff.2 he)]
  exact AList.mem_lookup_iff.2 he

end KeyInv

/-- **The store stays keyed, and `ListKeys` and `List` agree with it.** After any sequence of
`Add`, `Replace` and `Delete` calls on a new manager, succeeding or failing, every resource is
stored under its name, and `ListKeys` and `List` return what `Listing` says. -/
theorem listKeys_list_of_applyAll (versionPrefix messageName : String) (ops : List Op) :
    KeyInv (applyAll (newManager versionPrefix messageName) ops).resources ∧
      Listing (applyAll (newManager versionPrefix messageName) ops) :=
  have h := KeyInv.empty.applyAll (m := newManager versionPrefix messageName) ops
  ⟨h, h.lists⟩

end Ekglue.Xds
