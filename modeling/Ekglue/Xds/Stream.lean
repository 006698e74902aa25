import Ekglue.Xds.Manager

/-!
# `Stream`: one client's driver

The local state of `Manager.Stream` (its `node`, the subscribed `resources`, the in-flight
transactions `txs`, and where it is in its loop) and what each branch of its `select` does to
it. The branches that need the manager's lock or a channel are put together with the rest of
the system in `Ekglue.Xds.System`.

Beside the code's own variables a driver records what it has done: the responses it enqueued on
`resCh`, the events it passed to `OnAck`, the spans it finished, how many spans it started and
requests it received, and the snapshot it built last since it latched its subscription.
-/

namespace Ekglue.Xds

/-- The errors `Stream` returns. -/
inductive StreamError
  /-- `errors.New("server draining")`. -/
  | draining
  /-- `ctx.Err()` of the stream's context. -/
  | ctxErr
  /-- `errors.New("request channel closed")`. -/
  | requestChannelClosed
  /-- `status.Error(codes.FailedPrecondition, ...)`. -/
  | failedPrecondition
  /-- `status.Error(codes.InvalidArgument, ...)`. -/
  | invalidArgument
  deriving DecidableEq, Repr

/-- The texts of the errors with a fixed text. -/
def StreamError.message : StreamError → Option String
  | .draining => some "server draining"
  | .ctxErr => none
  | .requestChannelClosed => some "request channel closed"
  | .failedPrecondition => some "resource subscriptions changed unexpectedly"
  | .invalidArgument => some "wrong resource type requested"

/-- Where a driver is. -/
inductive Pc
  /-- Before `rCh` is registered with the manager. -/
  | start
  /-- Waiting in the loop's `select`. -/
  | idle
  /-- In `sendUpdate`, about to call `BuildDiscoveryResponse`. -/
  | building
  /-- In `sendUpdate`'s `select` between `resCh <- res` and the five-second timer. -/
  | pushing (res : DiscoveryResponse) (t : Tx)
  /-- `Stream` returns `err`; its deferred cleanup has not run yet. -/
  | exiting (err : StreamError)
  /-- The deferred cleanup has run. -/
  | done (err : StreamError)
  deriving DecidableEq, Repr

/-- The state of one driver. -/
structure Driver where
  pc : Pc
  /-- `node`, latched from the first request. -/
  node : String
  /-- `resources`, the subscription. -/
  resources : StrSlice
  /-- `txs`, the in-flight transactions by nonce. -/
  txs : TxMap
  /-- The responses enqueued on `resCh`, oldest first. -/
  sent : List DiscoveryResponse
  /-- The events passed to `OnAck`, oldest first. -/
  acks : List Acknowledgment
  /-- The spans finished, in order. -/
  finished : List Nat
  /-- The spans started so far, which numbers the next one. -/
  spans : Nat
  /-- The requests received so far. -/
  requests : Nat
  /-- The names and resources of the snapshot built last since the subscription was latched. -/
  snap : Option (List (String × Resource))

/-- A driver before `Stream` registers its session. -/
def Driver.init : Driver :=
  ⟨.start, "", none, ∅, [], [], [], 0, 0, none⟩

/-- `time.Minute` in nanoseconds. -/
def minute : Nat := 60000000000

/-! ### The branches of the loop -/

/-- `handleTx`: pass the acknowledgement to `OnAck` when it is set (a NACK when
`error_detail` is set), finish the transaction's span, and drop it. -/
def Driver.handleTx (d : Driver) (onAck : Bool) (t : Tx) (req : DiscoveryRequest) : Driver :=
  { d with
    acks := if onAck then d.acks ++ [⟨d.node, req.versionInfo, req.errorDetail.isNone⟩]
      else d.acks
    finished := d.finished ++ [t.span]
    txs := d.txs.erase t.nonce }

/-- The first lines of the request branch: while `node` is `""` the request latches the node
and the subscription. -/
def Driver.latch (d : Driver) (req : DiscoveryRequest) : Driver :=
  if d.node = "" then { d with node := req.nodeId, resources := req.resourceNames, snap := none }
  else d

/-- The request branch for a received request: latch, check the subscription and the type URL,
then treat a known nonce as an acknowledgement and anything else as a request for an update. -/
def Driver.onRequest (d : Driver) (type : String) (onAck : Bool) (req : DiscoveryRequest) :
    Driver :=
  let d := ({ d with requests := d.requests + 1 } : Driver).latch req
  if !cmpEqual d.resources req.resourceNames then { d with pc := .exiting .failedPrecondition }
  else if req.typeUrl ≠ type then { d with pc := .exiting .invalidArgument }
  else match d.txs.lookup req.responseNonce with
    | some t => d.handleTx onAck t req
    | none => { d with pc := .building }

/-- The notification branch: `sendUpdate` when the subscription is empty or names one of the
changed resources. -/
def Driver.onUpdate (d : Driver) (u : Update) : Driver :=
  if (elems d.resources).length = 0 ∨ (elems d.resources).any (· ∈ u.resources) then
    { d with pc := .building }
  else d

/-- One turn of the cleanup loop at time `now`: a transaction older than a minute has its span
finished and is dropped. -/
def Driver.dropIfStale (now : Nat) (d : Driver) (e : Σ _ : String, Tx) : Driver :=
  if now - e.2.start > minute then
    { d with finished := d.finished ++ [e.2.span], txs := d.txs.erase e.1 }
  else d

/-- The cleanup branch at time `now`, ranging over the transactions. -/
def Driver.onTick (d : Driver) (now : Nat) : Driver :=
  d.txs.entries.foldl (Driver.dropIfStale now) d

/-- `sendUpdate` once `BuildDiscoveryResponse` returned `res` and `names` at time `now`: start
a span and a transaction, and wait to push. -/
def Driver.startTx (d : Driver) (res : DiscoveryResponse) (names : List String) (now : Nat) :
    Driver :=
  { d with
    pc := .pushing res ⟨now, d.spans, res.nonce, res.versionInfo⟩
    spans := d.spans + 1
    snap := some (names.zip res.resources) }

/-- `resCh <- res` went through: the transaction is recorded under the response's nonce. -/
def Driver.pushed (d : Driver) (res : DiscoveryResponse) (t : Tx) : Driver :=
  { d with pc := .idle, sent := d.sent ++ [res], txs := d.txs.insert res.nonce t }

/-- The timer fired first: the span is finished and nothing is recorded. -/
def Driver.timedOut (d : Driver) (t : Tx) : Driver :=
  { d with pc := .idle, finished := d.finished ++ [t.span] }

/-- The last loop of the deferred cleanup: finish the span of every transaction left. -/
def Driver.finishAll (d : Driver) : Driver :=
  { d with finished := d.finished ++ d.txs.entries.map (·.2.span) }

/-! ### What each branch changes -/

theorem Driver.latch_eq (d : Driver) (req : DiscoveryRequest) :
    d.latch req = d ∨ d.node = "" ∧
      d.latch req =
        { d with node := req.nodeId, resources := req.resourceNames, snap := none } := by
  unfold Driver.latch; split_ifs with h <;> simp [h]

@[simp] theorem Driver.latch_pc (d : Driver) (req : DiscoveryRequest) :
    (d.latch req).pc = d.pc := by
  unfold Driver.latch; split <;> rfl

@[simp] theorem Driver.latch_sent (d : Driver) (req : DiscoveryRequest) :
    (d.latch req).sent = d.sent := by
  unfold Driver.latch; split <;> rfl

@[simp] theorem Driver.latch_txs (d : Driver) (req : DiscoveryRequest) :
    (d.latch req).txs = d.txs := by
  unfold Driver.latch; split <;> rfl

@[simp] theorem Driver.latch_acks (d : Driver) (req : DiscoveryRequest) :
    (d.latch req).acks = d.acks := by
  unfold Driver.latch; split <;> rfl

@[simp] theorem Driver.latch_finished (d : Driver) (req : DiscoveryRequest) :
    (d.latch req).finished = d.finished := by
  unfold Driver.latch; split <;> rfl

theorem Driver.latch_requests (d : Driver) (n : Nat) (req : DiscoveryRequest) :
    ({ d with requests := n } : Driver).latch req = { d.latch req with requests := n } := by
  by_cases h : d.node = "" <;> simp [Driver.latch, h]

/-- **What a request does.** Once latched, it fails the subscription check, fails the type check,
acknowledges a live nonce through `handleTx`, or asks for an update. -/
theorem Driver.onRequest_eq (d : Driver) (type : String) (onAck : Bool) (req : DiscoveryRequest) :
    (cmpEqual (d.latch req).resources req.resourceNames = false ∧
      d.onRequest type onAck req =
        { d.latch req with requests := d.requests + 1, pc := .exiting .failedPrecondition }) ∨
    (cmpEqual (d.latch req).resources req.resourceNames ∧ req.typeUrl ≠ type ∧
      d.onRequest type onAck req =
        { d.latch req with requests := d.requests + 1, pc := .exiting .invalidArgument }) ∨
    (cmpEqual (d.latch req).resources req.resourceNames ∧ req.typeUrl = type ∧
      ∃ t, d.txs.lookup req.responseNonce = some t ∧ d.onRequest type onAck req =
        ({ d.latch req with requests := d.requests + 1 } : Driver).handleTx onAck t req) ∨
    (cmpEqual (d.latch req).resources req.resourceNames ∧ req.typeUrl = type ∧
      d.txs.lookup req.responseNonce = none ∧
      d.onRequest type onAck req = { d.latch req with requests := d.requests + 1, pc := .building }) := by
  simp only [Driver.onRequest, Driver.latch_requests]
  by_cases h₁ : cmpEqual (d.latch req).resources req.resourceNames
  · by_cases h₂ : req.typeUrl = type
    · cases ht : d.txs.lookup req.responseNonce with
      | none => exact .inr (.inr (.inr ⟨h₁, h₂, rfl, by simp [h₁, h₂, ht]⟩))
      | some t => exact .inr (.inr (.inl ⟨h₁, h₂, t, rfl, by simp [h₁, h₂, ht]⟩))
    · exact .inr (.inl ⟨h₁, h₂, by simp [h₁, h₂]⟩)
  · exact .inl ⟨Bool.eq_false_iff.2 h₁, by simp [h₁]⟩

/-- A request leaves the driver failing the subscription check, failing the type check, back in
the loop after an acknowledgement, or on its way to `sendUpdate`. -/
theorem Driver.onRequest_pc (d : Driver) (type : String) (onAck : Bool) (req : DiscoveryRequest) :
    (∃ e, (d.onRequest type onAck req).pc = .exiting e) ∨
      (d.onRequest type onAck req).pc = d.pc ∨ (d.onRequest type onAck req).pc = .building := by
  rcases Driver.onRequest_eq d type onAck req with
    ⟨-, h⟩ | ⟨-, -, h⟩ | ⟨-, -, t, -, h⟩ | ⟨-, -, -, h⟩ <;> simp [h, Driver.handleTx]

/-- A request either latches afresh, dropping the snapshot, or keeps the subscription and the
snapshot. -/
theorem Driver.onRequest_snap (d : Driver) (type : String) (onAck : Bool) (req : DiscoveryRequest) :
    (d.onRequest type onAck req).snap = none ∨ (d.onRequest type onAck req).snap = d.snap ∧
      (d.onRequest type onAck req).resources = d.resources := by
  rcases Driver.onRequest_eq d type onAck req with
    ⟨-, h⟩ | ⟨-, -, h⟩ | ⟨-, -, t, -, h⟩ | ⟨-, -, -, h⟩ <;>
    rcases Driver.latch_eq d req with hl | ⟨-, hl⟩ <;> simp [h, hl, Driver.handleTx]

theorem Driver.onUpdate_eq (d : Driver) (u : Update) :
    d.onUpdate u = d ∨ d.onUpdate u = { d with pc := .building } := by
  unfold Driver.onUpdate; split_ifs <;> simp

/-- A notification that does not send names nothing the subscription covers: the subscription is
not empty and misses every changed name. -/
theorem Driver.not_mem_of_onUpdate (d : Driver) (u : Update)
    (h : (d.onUpdate u).pc ≠ .building) :
    elems d.resources ≠ [] ∧ ∀ n ∈ elems d.resources, n ∉ u.resources := by
  unfold Driver.onUpdate at h
  split_ifs at h with hc
  · exact absurd rfl h
  · simp only [not_or, List.length_eq_zero, List.any_eq_true, decide_eq_true_eq, not_exists,
      not_and] at hc
    exact hc

/-- The cleanup loop only drops transactions and finishes spans. -/
theorem Driver.foldl_dropIfStale (now : Nat) (l : List (Σ _ : String, Tx)) (d : Driver) :
    ∃ f t, l.foldl (Driver.dropIfStale now) d = { d with finished := f, txs := t } := by
  induction l generalizing d with
  | nil => exact ⟨d.finished, d.txs, rfl⟩
  | cons e l ih =>
    obtain ⟨f, t, h⟩ := ih (Driver.dropIfStale now d e)
    rw [List.foldl_cons, h]
    unfold Driver.dropIfStale
    split_ifs <;> exact ⟨f, t, rfl⟩

theorem Driver.onTick_eq (d : Driver) (now : Nat) :
    ∃ f t, d.onTick now = { d with finished := f, txs := t } :=
  Driver.foldl_dropIfStale now _ d

end Ekglue.Xds
