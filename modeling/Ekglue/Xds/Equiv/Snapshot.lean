import Ekglue.Xds.Manager

/-!
# What a snapshot holds

`snapshot want` returns resources and their names side by side, each resource the store's entry
for the name beside it, with the manager's version string (`snapshot_aligned`). For a non-empty
`want` the names are the wanted ones that are stored, in `want`'s order with repetitions kept; for
an empty one they are the store's keys. Paired back up, names and resources look up every name
that `want` covers as the store does (`lookup_zip_snapshot`), and so does the response
`BuildDiscoveryResponse` builds (`lookup_buildDiscoveryResponse`).
-/

namespace Ekglue.Xds

/-- `want` covers `n`: it is empty, a wildcard, or names `n`. -/
def covers (want : List String) (n : String) : Prop := want = [] ∨ n ∈ want

instance (want : List String) (n : String) : Decidable (covers want n) :=
  inferInstanceAs (Decidable (want = [] ∨ n ∈ want))

/-! ### Names and resources side by side -/

theorem snapshotWant_names (rs : ResourceMap) (want : List String) :
    (snapshotWant rs want).2 = want.filter fun n => decide (n ∈ rs) := by
  induction want with
  | nil => rfl
  | cons n want ih =>
    cases h : rs.lookup n with
    | none => simp [snapshotWant, h, ih, List.filter_cons, AList.lookup_eq_none.1 h]
    | some r =>
      have hn : n ∈ rs := AList.lookup_isSome.1 (by simp [h])
      simp [snapshotWant, h, ih, List.filter_cons, hn]

theorem forall₂_snapshotWant (rs : ResourceMap) (want : List String) :
    List.Forall₂ (fun n r => rs.lookup n = some r) (snapshotWant rs want).2
      (snapshotWant rs want).1 := by
  induction want with
  | nil => exact .nil
  | cons n want ih =>
    cases h : rs.lookup n with
    | none => simpa [snapshotWant, h] using ih
    | some r =>
      simp only [snapshotWant, h, Prod.map_fst, Prod.map_snd]
      exact .cons h ih

theorem forall₂_snapshotAll (m : Manager) :
    List.Forall₂ (fun n r => m.resources.lookup n = some r) m.snapshotAll.2.1
      m.snapshotAll.1 := by
  unfold Manager.snapshotAll AList.keys List.keys
  rw [List.forall₂_map_left_iff, List.forall₂_map_right_iff]
  exact List.forall₂_same.2 fun e he => AList.mem_lookup_iff.2 he

/-- **What `snapshot` returns.** The version is the manager's version string; the `i`-th resource
is the store's entry for the `i`-th name; for a non-empty `want` the names are the wanted ones
that are stored, in `want`'s order with repetitions kept, and for an empty one they are the
store's keys. -/
theorem snapshot_aligned (m : Manager) (want : List String) :
    (m.snapshot want).2.2 = m.versionString ∧
      (m.snapshot want).2.1.length = (m.snapshot want).1.length ∧
      (∀ i (h₁ : i < (m.snapshot want).2.1.length) (h₂ : i < (m.snapshot want).1.length),
        m.resources.lookup ((m.snapshot want).2.1.get ⟨i, h₁⟩) =
          some ((m.snapshot want).1.get ⟨i, h₂⟩)) ∧
      (want ≠ [] → (m.snapshot want).2.1 = want.filter fun n => decide (n ∈ m.resources)) ∧
      (want = [] → (m.snapshot want).2.1.Perm m.resources.keys) := by
  have hal : List.Forall₂ (fun n r => m.resources.lookup n = some r) (m.snapshot want).2.1
      (m.snapshot want).1 := by
    unfold Manager.snapshot
    split_ifs
    · exact forall₂_snapshotAll m
    · exact forall₂_snapshotWant _ _
  refine ⟨?_, (List.forall₂_iff_get.1 hal).1, (List.forall₂_iff_get.1 hal).2, fun hw => ?_,
    fun hw => ?_⟩
  · unfold Manager.snapshot
    split_ifs <;> rfl
  · simp [Manager.snapshot, hw, snapshotWant_names]
  · subst hw
    rfl

/-! ### Looking up a snapshot -/

theorem lookup_cons_pair {α : Type} (k a : String) (b : α) (l : List (String × α)) :
    ((k, b) :: l).lookup a = if a = k then some b else l.lookup a := by
  rw [List.lookup_cons]
  by_cases h : a = k
  · simp [h]
  · simp [h, beq_false_of_ne h]

/-- The entries of a map, split into names and values and paired back, look up as the map. -/
theorem lookup_zip_fst_snd (l : List (Σ _ : String, Resource)) (n : String) :
    ((l.map Sigma.fst).zip (l.map (·.2))).lookup n = l.dlookup n := by
  induction l with
  | nil => rfl
  | cons e l ih =>
    obtain ⟨k, r⟩ := e
    by_cases h : n = k
    · subst h; simp [lookup_cons_pair, List.dlookup_cons_eq]
    · simp [lookup_cons_pair, h, ih, List.dlookup_cons_ne l (⟨k, r⟩ : Σ _ : String, Resource) h]

theorem lookup_zip_snapshotWant (rs : ResourceMap) (want : List String) (n : String) :
    ((snapshotWant rs want).2.zip (snapshotWant rs want).1).lookup n =
      if n ∈ want then rs.lookup n else none := by
  induction want with
  | nil => simp [snapshotWant]
  | cons w want ih =>
    by_cases hn : n = w
    · subst hn
      cases hw : rs.lookup n <;> simp [snapshotWant, hw, ih, lookup_cons_pair]
    · cases hw : rs.lookup w <;> simp [snapshotWant, hw, ih, lookup_cons_pair, hn]

/-- **A snapshot is the store on what it covers.** -/
theorem lookup_zip_snapshot (m : Manager) {want : List String} {n : String}
    (h : covers want n) : ((m.snapshot want).2.1.zip (m.snapshot want).1).lookup n =
      m.resources.lookup n := by
  unfold Manager.snapshot
  split_ifs with hw
  · exact lookup_zip_fst_snd m.resources.entries n
  · have hn : n ∈ want := h.resolve_left (List.length_eq_zero.not.mp hw)
    simp [lookup_zip_snapshotWant, hn]

theorem lookup_buildDiscoveryResponse (m : Manager) {want : List String} (rnd : RandRead)
    {n : String} (h : covers want n) :
    ((m.buildDiscoveryResponse want rnd).2.zip
      (m.buildDiscoveryResponse want rnd).1.resources).lookup n = m.resources.lookup n :=
  lookup_zip_snapshot m h

end Ekglue.Xds
