import Ekglue.Xds.Equiv.Versions
import Ekglue.Xds.Equiv.Snapshot

/-!
# What a push holds

`BuildDiscoveryResponse` puts in a response only stored resources under the names the
subscription covers: `snapshot` skips a wanted name that is not stored, and an empty subscription
takes the whole store. Every write stores a resource under its own name (`KeyInv`), so each
resource of a response built from a fresh manager is one the subscription covers
(`covers_buildDiscoveryResponse`). A stream builds under the subscription it holds, and takes no
request while it waits to push, so the response it waits to push fits that subscription
(`PushCovered`).

* `pending_push_subscribed`: along every run from a fresh manager, each resource of the response
  a stream waits to push is named by the stream's subscription, or the subscription is empty.
-/

namespace Ekglue.Xds

/-! ### One response -/

/-- A resource of the loop of `snapshot` is stored under a wanted name. -/
theorem mem_snapshotWant {rs : ResourceMap} {want : List String} {r : Resource}
    (h : r ∈ (snapshotWant rs want).1) : ∃ n ∈ want, rs.lookup n = some r := by
  induction want with
  | nil => cases h
  | cons n want ih =>
    simp only [snapshotWant] at h
    split at h
    · obtain ⟨n', hn', hl⟩ := ih h
      exact ⟨n', List.mem_cons_of_mem _ hn', hl⟩
    · rename_i r' hr'
      rcases List.mem_cons.1 h with rfl | h
      · exact ⟨n, List.mem_cons_self _ _, hr'⟩
      · obtain ⟨n', hn', hl⟩ := ih h
        exact ⟨n', List.mem_cons_of_mem _ hn', hl⟩

/-- **A built response holds only resources its subscription covers**, from a store that keeps
every resource under its own name. -/
theorem covers_buildDiscoveryResponse {m : Manager} (hk : KeyInv m.resources) (want : List String)
    (rnd : RandRead) :
    ∀ r ∈ (m.buildDiscoveryResponse want rnd).1.resources, covers want (resourceName r) := by
  intro r hr
  simp only [Manager.buildDiscoveryResponse, Manager.snapshot] at hr
  split_ifs at hr with hw
  · exact .inl (List.length_eq_zero.1 hw)
  · obtain ⟨n, hn, hl⟩ := mem_snapshotWant hr
    exact .inr (hk n r hl ▸ hn)

/-! ### Along a run -/

variable {s s' : Sys} {a : Act}

/-- The store keeps every resource under its own name, and each resource of the response a stream
waits to push is covered by the stream's subscription. -/
def PushCovered (s : Sys) : Prop :=
  KeyInv s.m.resources ∧ ∀ d res t, (s.drivers d).pc = .pushing res t →
    ∀ r ∈ res.resources, covers (elems (s.drivers d).resources) (resourceName r)

theorem PushCovered.init (versionPrefix messageName : String) :
    PushCovered (Sys.init (newManager versionPrefix messageName)) :=
  ⟨KeyInv.empty, fun _ _ _ he => by simp [Sys.init, Driver.init] at he⟩

/-- Every step keeps the invariant: a call keeps the store keyed, and a build takes the
subscription the stream keeps while it waits to push. -/
theorem PushCovered.step (h : PushCovered s) (hs : step s a = some s') : PushCovered s' := by
  obtain ⟨hk, hp⟩ := h
  refine ⟨by rw [step_m hs]; exact hk.applyAll _, fun d res t he => ?_⟩
  cases ha : a.actor with
  | inl p =>
    rw [(step_frame_producer ha hs).1] at he ⊢
    exact hp d res t he
  | inr d' =>
    by_cases hd : d = d'
    · subst hd
      obtain ⟨hr, hx | ⟨rnd, rfl⟩⟩ := (step_own_sent ha hs).2 res t he <;> rw [hr]
      · exact hp d res t hx
      · exact covers_buildDiscoveryResponse hk _ rnd
    · rw [((step_frame_driver ha hs).2.2.2.2 d hd).1] at he ⊢
      exact hp d res t he

theorem PushCovered.of_run (h : PushCovered s) {as : List Act} (hr : run s as = some s') :
    PushCovered s' := by
  induction as generalizing s with
  | nil => cases hr; exact h
  | cons a as ih =>
    simp only [run, Option.bind_eq_some] at hr
    obtain ⟨s₁, h₁, h₂⟩ := hr
    exact ih (h.step h₁) h₂

/-- **A stream pushes only what its subscription covers.** Along every run from a fresh manager,
whatever the producers write meanwhile, each resource of the response a stream waits to push is
named by the stream's subscription, or the subscription is empty (or not latched yet). -/
theorem pending_push_subscribed {versionPrefix messageName : String} {as : List Act}
    (h : run (Sys.init (newManager versionPrefix messageName)) as = some s) (d : Nat)
    {res : DiscoveryResponse} {t : Tx} (hp : (s.drivers d).pc = .pushing res t) :
    ∀ r ∈ res.resources, covers (elems (s.drivers d).resources) (resourceName r) :=
  ((PushCovered.init versionPrefix messageName).of_run h).2 d res t hp

/-- With `a` and `b` stored, a stream subscribed to `a` builds a response holding `a` alone. -/
theorem pending_push_subscribed_to_a :
    ∃ s res t, run (Sys.init (newManager "v" "envoy.api.v2.Cluster"))
        [.register 0, .call 0 (.add [⟨"a", none, "1"⟩, ⟨"b", none, "1"⟩]), .trySend 0,
         .trySend 0, .waitSend 0,
         .request 0 ⟨"n", some ["a"], "type.googleapis.com/envoy.api.v2.Cluster", "", none, ""⟩,
         .build 0 true ⟨[], true⟩ 0] = some s ∧
      (s.drivers 0).pc = .pushing res t ∧ res.resources.map resourceName = ["a"] ∧
      ∀ r ∈ res.resources, covers (elems (s.drivers 0).resources) (resourceName r) := by
  let as : List Act := [.register 0, .call 0 (.add [⟨"a", none, "1"⟩, ⟨"b", none, "1"⟩]),
    .trySend 0, .trySend 0, .waitSend 0,
    .request 0 ⟨"n", some ["a"], "type.googleapis.com/envoy.api.v2.Cluster", "", none, ""⟩,
    .build 0 true ⟨[], true⟩ 0]
  have hr : ((run (Sys.init (newManager "v" "envoy.api.v2.Cluster")) as).map fun s =>
      match (s.drivers 0).pc with
      | .pushing res _ => decide (res.resources.map resourceName = ["a"])
      | _ => false) = some true := by decide
  cases h : run (Sys.init (newManager "v" "envoy.api.v2.Cluster")) as with
  | none => simp [h] at hr
  | some s =>
    simp only [h, Option.map_some', Option.some.injEq] at hr
    split at hr
    · rename_i res t hp
      exact ⟨s, res, t, rfl, hp, of_decide_eq_true hr, pending_push_subscribed h 0 hp⟩
    · cases hr

end Ekglue.Xds
