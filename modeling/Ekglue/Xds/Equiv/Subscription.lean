import Ekglue.Xds.System

/-!
# The subscription a stream latches

`Stream` takes its node id and its subscription from the first request while `node` is still
`""`. Once the node id is not empty the stream keeps both along every run, and a request ends it
with `FailedPrecondition` exactly when its names are not the subscription as a Go slice: the same
names in the same order, and `nil` only against `nil` (`Driver.onRequest_failedPrecondition_iff`).

* `run_keeps_subscription`: along every run, a stream whose node id is not empty keeps its node
  id and its subscription.

Three runs show what this leaves open: before its first request the subscription is `nil`, which
the notification branch reads as a wildcard, so a stream pushes the store before any request
(`push_before_first_request`); a client with an empty node id changes its subscription with every
request (`relatch_of_empty_node`); and the subscribed names in another order end the stream
(`reordered_names_fail`).
-/

namespace Ekglue.Xds

/-! ### One request -/

theorem Driver.latch_of_node {d : Driver} (h : d.node ≠ "") (req : DiscoveryRequest) :
    d.latch req = d := by
  simp [Driver.latch, h]

@[simp] theorem Driver.onRequest_requests (d : Driver) (type : String) (onAck : Bool)
    (req : DiscoveryRequest) : (d.onRequest type onAck req).requests = d.requests + 1 := by
  rcases Driver.onRequest_eq d type onAck req with
    ⟨-, h⟩ | ⟨-, -, h⟩ | ⟨-, -, t, -, h⟩ | ⟨-, -, -, h⟩ <;> simp [h, Driver.handleTx]

/-- A latched driver keeps its node and its subscription through a request. -/
theorem Driver.onRequest_subscription {d : Driver} (h : d.node ≠ "") (type : String)
    (onAck : Bool) (req : DiscoveryRequest) :
    (d.onRequest type onAck req).node = d.node ∧
      (d.onRequest type onAck req).resources = d.resources := by
  rcases Driver.onRequest_eq d type onAck req with
    ⟨-, he⟩ | ⟨-, -, he⟩ | ⟨-, -, t, -, he⟩ | ⟨-, -, -, he⟩ <;>
    simp [he, Driver.latch_of_node h, Driver.handleTx]

/-- **The subscription check.** A latched driver ends the stream with `FailedPrecondition` on
exactly the requests whose names are not its subscription as a slice. -/
theorem Driver.onRequest_failedPrecondition_iff {d : Driver} (h : d.node ≠ "") (hpc : d.pc = .idle)
    (type : String) (onAck : Bool) (req : DiscoveryRequest) :
    (d.onRequest type onAck req).pc = .exiting .failedPrecondition ↔
      d.resources ≠ req.resourceNames := by
  have hl := Driver.latch_of_node h req
  rcases Driver.onRequest_eq d type onAck req with
    ⟨hc, he⟩ | ⟨hc, -, he⟩ | ⟨hc, -, t, -, he⟩ | ⟨hc, -, -, he⟩ <;>
    simp_all [Driver.handleTx]

/-! ### Along a run -/

/-- A driver's own step keeps a latched node and subscription. -/
theorem Driver.Step.keeps_subscription {x y : Driver} (hs : Driver.Step x y) (h : x.node ≠ "") :
    y.node = x.node ∧ y.resources = x.resources := by
  cases hs
  case tick now =>
    obtain ⟨f, t, he⟩ := Driver.onTick_eq x now
    simp [he]
  case request type onAck req => exact Driver.onRequest_subscription h type onAck req
  case receive u => rcases Driver.onUpdate_eq x u with he | he <;> simp [he]
  all_goals simp [Driver.startTx, Driver.pushed, Driver.timedOut, Driver.finishAll]

/-- **Once latched, the subscription stays.** Along every run, a stream whose node id is not
empty keeps its node id and its subscription. -/
theorem run_keeps_subscription {s s' : Sys} {as : List Act} (h : run s as = some s') {d : Nat}
    (hn : (s.drivers d).node ≠ "") :
    (s'.drivers d).node = (s.drivers d).node ∧
      (s'.drivers d).resources = (s.drivers d).resources :=
  run_keeps_driver (P := fun y => y.node = (s.drivers d).node ∧
      y.resources = (s.drivers d).resources)
    (fun hs ⟨h₁, h₂⟩ => by
      obtain ⟨k₁, k₂⟩ := hs.keeps_subscription (h₁ ▸ hn)
      exact ⟨k₁.trans h₁, k₂.trans h₂⟩) h d ⟨rfl, rfl⟩

/-- A latched stream that has pushed once and is then asked for other names ends with
`FailedPrecondition`, its node id and its subscription as they were. -/
theorem run_keeps_subscription_on_change :
    ∃ s s', Reach (fun _ => true) s ∧ (s.drivers 0).node = "n" ∧
      (s.drivers 0).resources = some ["a"] ∧
      run s [.request 0 ⟨"n", some ["b"], "type.googleapis.com/envoy.api.v2.Cluster", "", none, ""⟩,
        .cleanup 0] = some s' ∧ (s'.drivers 0).pc = .done .failedPrecondition ∧
      (s'.drivers 0).node = (s.drivers 0).node ∧
      (s'.drivers 0).resources = (s.drivers 0).resources := by
  obtain ⟨s, hs, h⟩ := Reach.exists_of_run (fun _ => true) (newManager "v" "envoy.api.v2.Cluster")
    [.register 0,
     .request 0 ⟨"n", some ["a"], "type.googleapis.com/envoy.api.v2.Cluster", "", none, ""⟩,
     .build 0 true ⟨[], true⟩ 0, .push 0]
    (fun s => decide ((s.drivers 0).node = "n" ∧ (s.drivers 0).resources = some ["a"] ∧
      (run s [.request 0 ⟨"n", some ["b"], "type.googleapis.com/envoy.api.v2.Cluster", "", none,
        ""⟩, .cleanup 0]).map (fun s' => (s'.drivers 0).pc) = some (.done .failedPrecondition)))
    (by decide) (by decide)
  obtain ⟨hn, hr, hrun⟩ := of_decide_eq_true h
  obtain ⟨s', hs', hpc⟩ := Option.map_eq_some'.1 hrun
  exact ⟨s, s', hs, hn, hr, hs', hpc, run_keeps_subscription hs' (by simp [hn])⟩

/-! ### Three runs -/

/-- **A push before the first request.** A notification that reaches a stream before its first
request makes it push the store to a client that has subscribed to nothing yet. -/
theorem push_before_first_request :
    ∃ s, Reach (fun _ => true) s ∧ (s.drivers 0).requests = 0 ∧
      ∃ res ∈ (s.drivers 0).sent, ∃ r ∈ res.resources, resourceName r = "a" := by
  obtain ⟨s, hs, h⟩ := Reach.exists_of_run (fun _ => true) (newManager "v" "envoy.api.v2.Cluster")
    [.register 0, .call 0 (.add [⟨"a", none, "1"⟩]), .trySend 0, .trySend 0, .waitSend 0,
     .receive 0, .build 0 true ⟨[], true⟩ 0, .push 0]
    (fun s => decide ((s.drivers 0).requests = 0 ∧
      ∃ res ∈ (s.drivers 0).sent, ∃ r ∈ res.resources, resourceName r = "a"))
    (by decide) (by decide)
  exact ⟨s, hs, of_decide_eq_true h⟩

/-- **A client with an empty node id resubscribes at will.** After a first request for `["a"]`,
a request for `["b"]` from the same node is taken as a new first request: the subscription becomes
`["b"]`, the stream stays in its loop, and it pushes a second response. -/
theorem relatch_of_empty_node :
    ∃ s s', Reach (fun _ => true) s ∧ (s.drivers 0).requests = 1 ∧
      (s.drivers 0).resources = some ["a"] ∧ (s.drivers 0).sent.length = 1 ∧
      run s [.request 0 ⟨"", some ["b"], "type.googleapis.com/envoy.api.v2.Cluster", "", none, ""⟩,
        .build 0 true ⟨[], true⟩ 1, .push 0] = some s' ∧
      (s'.drivers 0).resources = some ["b"] ∧ (s'.drivers 0).pc = .idle ∧
      (s'.drivers 0).sent.length = 2 := by
  obtain ⟨s, hs, h⟩ := Reach.exists_of_run (fun _ => true) (newManager "v" "envoy.api.v2.Cluster")
    [.register 0,
     .request 0 ⟨"", some ["a"], "type.googleapis.com/envoy.api.v2.Cluster", "", none, ""⟩,
     .build 0 true ⟨[], true⟩ 0, .push 0]
    (fun s => decide ((s.drivers 0).requests = 1 ∧ (s.drivers 0).resources = some ["a"] ∧
      (s.drivers 0).sent.length = 1 ∧
      (run s [.request 0 ⟨"", some ["b"], "type.googleapis.com/envoy.api.v2.Cluster", "", none, ""⟩,
        .build 0 true ⟨[], true⟩ 1, .push 0]).map (fun s' =>
          ((s'.drivers 0).resources, (s'.drivers 0).pc, (s'.drivers 0).sent.length)) =
        some (some ["b"], .idle, 2)))
    (by decide) (by decide)
  obtain ⟨h₁, h₂, h₃, h₄⟩ := of_decide_eq_true h
  simp only [Option.map_eq_some', Prod.mk.injEq] at h₄
  obtain ⟨s', hr, h₅, h₆, h₇⟩ := h₄
  exact ⟨s, s', hs, h₁, h₂, h₃, hr, h₅, h₆, h₇⟩

/-- **The same names in another order end the stream.** -/
theorem reordered_names_fail :
    ∃ s s', Reach (fun _ => true) s ∧ (s.drivers 0).resources = some ["a", "b"] ∧
      s.m.type = "type.googleapis.com/envoy.api.v2.Cluster" ∧
      step s (.request 0
        ⟨"n", some ["b", "a"], "type.googleapis.com/envoy.api.v2.Cluster", "", none, ""⟩) =
        some s' ∧
      (s'.drivers 0).pc = .exiting .failedPrecondition := by
  obtain ⟨s, hs, h⟩ := Reach.exists_of_run (fun _ => true) (newManager "v" "envoy.api.v2.Cluster")
    [.register 0,
     .request 0 ⟨"n", some ["a", "b"], "type.googleapis.com/envoy.api.v2.Cluster", "", none, ""⟩,
     .build 0 true ⟨[], true⟩ 0, .push 0]
    (fun s => decide ((s.drivers 0).resources = some ["a", "b"] ∧
      s.m.type = "type.googleapis.com/envoy.api.v2.Cluster" ∧ (s.drivers 0).node = "n" ∧
      (s.drivers 0).pc = .idle))
    (by decide) (by decide)
  obtain ⟨h₁, h₂, hn, hpc⟩ := of_decide_eq_true h
  let req : DiscoveryRequest :=
    ⟨"n", some ["b", "a"], "type.googleapis.com/envoy.api.v2.Cluster", "", none, ""⟩
  refine ⟨s, s.setDriver 0 ((s.drivers 0).onRequest s.m.type s.m.onAck req), hs, h₁, h₂,
    by simp [step, Sys.fromIdle, hpc, req], ?_⟩
  /- The names, as a slice, are not the subscription. -/
  simpa using (Driver.onRequest_failedPrecondition_iff (by simp [hn]) hpc _ _ req).2
    (by simp [h₁, req])

end Ekglue.Xds
