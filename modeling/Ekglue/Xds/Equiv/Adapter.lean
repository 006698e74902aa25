import Ekglue.Xds.Equiv.Pumps
import Ekglue.Xds.Equiv.Transactions

/-!
# What `StreamGRPC` forwards

`resCh` is unbuffered, so a push of `Stream` meets the send pump's receive: the response leaves
`Stream`'s log of enqueued responses and enters `stream.Send` in the same step. `Grpc.writes` logs
the responses whose `stream.Send` has returned along a run; `Forwarded` says that these, followed
by the one being written, are the responses `Stream` enqueued. `StreamGRPC` takes its error from
`errCh` only after `Stream` has returned, and a returned `Stream` takes no step. The other way,
the receive pump holds at most one request, and the send on `reqCh` hands it to `Stream`
(`Received`). `StreamGRPC` returns the error `Stream` returned (`grpc_returns_stream_error`).

* `grpc_writes_sent`: along every run of a call, the responses written to the client, followed by
  the one being written, are exactly the responses `Stream` enqueued, in order.
* `grpc_requests_handed`: along every run of a call, the requests read from the client are exactly
  those handed to `Stream`, in order, followed by the one the receive pump holds.
* `grpc_call_ends`: in every reachable state of a call in which `Stream` has returned, the steps of
  `StreamGRPC` and of the send pump alone make `StreamGRPC` return `Stream`'s error and the send
  pump exit.
-/

namespace Ekglue.Xds

variable {g g' : Grpc} {a : GrpcAct}

/-- The response the send pump is writing with `stream.Send`. -/
def SendPc.inFlight : SendPc → List DiscoveryResponse
  | .writing res => [res]
  | _ => []

/-- The response whose write an action finishes: `stream.Send(res)` returns. -/
def Grpc.written? (g : Grpc) : GrpcAct → List DiscoveryResponse
  | .written => g.send.inFlight
  | _ => []

/-- What a run does, step by step: `f g a` for each action `a` that goes through from `g`, in
order. -/
def Grpc.log {α : Type} (f : Grpc → GrpcAct → List α) (g : Grpc) : List GrpcAct → List α
  | [] => []
  | a :: as =>
    match g.step a with
    | some g' => f g a ++ g'.log f as
    | none => []

/-- The responses written to the client along a run, in order. -/
def Grpc.writes (g : Grpc) (as : List GrpcAct) : List DiscoveryResponse := g.log Grpc.written? as

/-- A relation between a state and a log that every step keeps, extending the log by what the step
does, holds along every run. -/
theorem Grpc.log_run {α : Type} {f : Grpc → GrpcAct → List α} {I : Grpc → List α → Prop}
    (hI : ∀ {g g' a L}, I g L → g.step a = some g' → I g' (L ++ f g a)) {L : List α}
    (h0 : I g L) {as : List GrpcAct} (h : g.run as = some g') : I g' (L ++ g.log f as) := by
  induction as generalizing g L with
  | nil => cases h; simpa [Grpc.log] using h0
  | cons a as ih =>
    simp only [Grpc.run, Option.bind_eq_some] at h
    obtain ⟨g₁, h₁, h₂⟩ := h
    simpa [Grpc.log, h₁] using ih (hI h0 h₁) h₂

/-! ### Forwarding -/

/-- The responses written so far, `log`, followed by the one being written, are the responses
`Stream` enqueued on `resCh`. -/
def Forwarded (g : Grpc) (log : List DiscoveryResponse) : Prop :=
  g.drv.sent = log ++ g.send.inFlight

/-- A step that keeps `Stream`'s log and the send pump's write keeps the invariant. -/
theorem Forwarded.keep {log : List DiscoveryResponse} (hf : Forwarded g log)
    (hd : g'.drv.sent = g.drv.sent) (hs : g'.send = g.send) : Forwarded g' log := by
  unfold Forwarded at *
  rw [hd, hs, hf]

theorem Grpc.fromIdle_eq {d : Driver} (h : g.fromIdle d = some g') :
    g.drv.pc = .idle ∧ g' = { g with drv := d } := by
  unfold Grpc.fromIdle at h
  split_ifs at h with h₁
  exact ⟨h₁, (Option.some.inj h).symm⟩

/-- **One step forwards.** A push hands the response to the send pump as `Stream` records it, and
the end of `stream.Send` moves it to the written log. -/
theorem Forwarded.step {log : List DiscoveryResponse} (hf : Forwarded g log)
    (h : g.step a = some g') : Forwarded g' (log ++ g.written? a) := by
  cases a <;> simp only [Grpc.step, Grpc.written?, List.append_nil] at h ⊢
  case push =>
    split at h <;> cases h
    rename_i res t _ hsend
    simp only [Forwarded, Driver.pushed] at hf ⊢
    simp [hf, hsend, SendPc.inFlight]
  case written =>
    split at h <;> cases h
    rename_i res hsend
    simpa [Forwarded, SendPc.inFlight, hsend] using hf
  case sendExit =>
    split_ifs at h with hc
    cases h
    simpa [Forwarded, SendPc.inFlight, hc.1] using hf
  case request =>
    split at h
    · obtain ⟨-, rfl⟩ := Grpc.fromIdle_eq h
      exact hf.keep (by simp) rfl
    · cases h
  case requestsClosed =>
    split_ifs at h
    obtain ⟨-, rfl⟩ := Grpc.fromIdle_eq h
    exact hf.keep rfl rfl
  case drain | streamDone | tick | receive =>
    obtain ⟨-, rfl⟩ := Grpc.fromIdle_eq h
    exact hf.keep (by simp) rfl
  case recvMsg | recvErr | register =>
    split_ifs at h
    cases h
    exact hf.keep rfl rfl
  case build =>
    split_ifs at h <;> (cases h; exact hf.keep rfl rfl)
  all_goals
    split at h
    · cases h
      exact hf.keep rfl rfl
    · cases h

/-- **`StreamGRPC` forwards what `Stream` enqueues.** Along every run of a call, the responses the
send pump has written to the client, followed by the one it is writing, are exactly the responses
`Stream` enqueued on `resCh`, in order: none is lost, duplicated or reordered, and once the send
pump is back at `resCh` or has returned, every enqueued response has been written. -/
theorem grpc_writes_sent (m : Manager) {as : List GrpcAct} (h : (Grpc.init m).run as = some g) :
    g.drv.sent = (Grpc.init m).writes as ++ g.send.inFlight := by
  simpa using Grpc.log_run (fun hf h => Forwarded.step hf h) (show Forwarded (Grpc.init m) [] by
    simp [Forwarded, Grpc.init, Driver.init, SendPc.inFlight]) h

/-- A call whose stream pushes twice, with the client still reading the second response: one
response written, one in flight, and both enqueued by `Stream` in that order. -/
theorem grpc_writes_sent_one_in_flight :
    ∃ as g, (Grpc.init (newManager "v" "envoy.api.v2.Cluster")).run as = some g ∧
      ((Grpc.init (newManager "v" "envoy.api.v2.Cluster")).writes as).length = 1 ∧
      g.send.inFlight.length = 1 ∧
      g.drv.sent = (Grpc.init (newManager "v" "envoy.api.v2.Cluster")).writes as ++
        g.send.inFlight := by
  let as : List GrpcAct :=
    [.register, .recvMsg ⟨"n", none, "type.googleapis.com/envoy.api.v2.Cluster", "", none, ""⟩,
     .request, .build true ⟨[], true⟩ 0, .push, .written,
     .recvMsg ⟨"n", none, "type.googleapis.com/envoy.api.v2.Cluster", "", none, "v0"⟩,
     .request, .build true ⟨[], true⟩ 1, .push]
  have hw : ((Grpc.init (newManager "v" "envoy.api.v2.Cluster")).writes as).length = 1 := by
    decide
  have hf : ((Grpc.init (newManager "v" "envoy.api.v2.Cluster")).run as).map
      (fun g => decide (g.send.inFlight.length = 1)) = some true := by decide
  cases hr : (Grpc.init (newManager "v" "envoy.api.v2.Cluster")).run as with
  | none => simp [hr] at hf
  | some g =>
    simp only [hr, Option.map_some', Option.some.injEq, decide_eq_true_eq] at hf
    exact ⟨as, g, hr, hw, hf, grpc_writes_sent _ hr⟩

/-! ### Requests -/

/-- The request the receive pump holds for `reqCh`. -/
def RecvPc.held : RecvPc → List DiscoveryRequest
  | .sending req => [req]
  | _ => []

/-- The request an action reads from the client: `stream.Recv()` returns it. -/
def Grpc.read? (_ : Grpc) : GrpcAct → List DiscoveryRequest
  | .recvMsg req => [req]
  | _ => []

/-- The request an action hands to `Stream`: `reqCh <- req` meets `case req, ok := <-reqCh`. -/
def Grpc.handed? (g : Grpc) : GrpcAct → List DiscoveryRequest
  | .request => g.recv.held
  | _ => []

/-- The requests read from the client so far are those handed to `Stream`, followed by the one
the receive pump holds. -/
def Received (g : Grpc) (read handed : List DiscoveryRequest) : Prop :=
  read = handed ++ g.recv.held

/-- **One step passes requests on.** `stream.Recv()` gives the pump a request to hold, and the
send on `reqCh` hands it to `Stream`. -/
theorem Received.step {read handed : List DiscoveryRequest} (hr : Received g read handed)
    (h : g.step a = some g') : Received g' (read ++ g.read? a) (handed ++ g.handed? a) := by
  unfold Received at *
  cases a <;> simp only [Grpc.step, Grpc.read?, Grpc.handed?, List.append_nil] at h ⊢
  case recvMsg | recvErr =>
    split_ifs at h with hc
    cases h
    simp [hr, hc, RecvPc.held]
  case request =>
    split at h
    · rename_i req hc
      obtain ⟨-, rfl⟩ := Grpc.fromIdle_eq h
      simp [hr, hc, RecvPc.held]
    · cases h
  case requestsClosed =>
    split_ifs at h
    obtain ⟨-, rfl⟩ := Grpc.fromIdle_eq h
    exact hr
  case drain | streamDone | tick | receive =>
    obtain ⟨-, rfl⟩ := Grpc.fromIdle_eq h
    exact hr
  case register | sendExit =>
    split_ifs at h
    cases h
    exact hr
  case build =>
    split_ifs at h <;> (cases h; exact hr)
  all_goals
    split at h
    · cases h
      exact hr
    · cases h

theorem Received.run {read handed : List DiscoveryRequest} (hr : Received g read handed)
    {as : List GrpcAct} (h : g.run as = some g') :
    Received g' (read ++ g.log Grpc.read? as) (handed ++ g.log Grpc.handed? as) := by
  induction as generalizing g read handed with
  | nil => cases h; simpa [Grpc.log] using hr
  | cons a as ih =>
    simp only [Grpc.run, Option.bind_eq_some] at h
    obtain ⟨g₁, h₁, h₂⟩ := h
    simpa [Grpc.log, h₁] using ih (hr.step h₁) h₂

/-- What an action does to `StreamGRPC`: nothing, `report` takes the error of a returned `Stream`,
or `close` returns the error taken. -/
theorem Grpc.step_main_eq (h : g.step a = some g') :
    g'.main = g.main ∨
      (∃ e, g.main = .waiting ∧ g.drv.pc = .done e ∧ g'.main = .closing e ∧ g'.drv = g.drv) ∨
      ∃ e, g.main = .closing e ∧ g'.main = .returned e ∧ g'.drv = g.drv := by
  cases a <;> simp only [Grpc.step, Grpc.fromIdle] at h
  case report =>
    split at h <;> cases h
    rename_i e hpc hm
    exact .inr (.inl ⟨e, hm, hpc, rfl, rfl⟩)
  case close =>
    split at h <;> cases h
    rename_i e hm
    exact .inr (.inr ⟨e, hm, rfl, rfl⟩)
  all_goals (try split at h) <;> (try split_ifs at h) <;> cases h <;> exact .inl rfl

/-- Once `StreamGRPC` has the error from `errCh`, `Stream` has returned that error. -/
def ReturnsInv (g : Grpc) : Prop :=
  ∀ e, (g.main = .closing e ∨ g.main = .returned e) → g.drv.pc = .done e

theorem ReturnsInv.step (hr : ReturnsInv g) (h : g.step a = some g') : ReturnsInv g' := by
  intro e he
  rcases Grpc.step_main_eq h with hm | ⟨e', -, hd, hm, hdrv⟩ | ⟨e', hc, hm, hdrv⟩ <;>
    rw [hm] at he
  · have hd := hr e he
    rw [(Grpc.step_of_done hd h).1, hd]
  · rcases he with he | he <;> cases he
    rw [hdrv, hd]
  · rcases he with he | he <;> cases he
    rw [hdrv, hr e (.inl hc)]

theorem ReturnsInv.of_reach (hg : GrpcReach g) : ReturnsInv g := by
  induction hg with
  | init m => intro e he; rcases he with he | he <;> cases he
  | step a _ hs ih => exact ih.step hs

/-- **`StreamGRPC` returns `Stream`'s error.** In every reachable state of a call, once
`StreamGRPC` has taken an error from `errCh`, and in particular once it has returned it, `Stream`
has returned that same error. -/
theorem grpc_returns_stream_error (hg : GrpcReach g) (e : StreamError)
    (h : g.main = .closing e ∨ g.main = .returned e) : g.drv.pc = .done e :=
  ReturnsInv.of_reach hg e h

/-- **`StreamGRPC` and the send pump always end after `Stream`.** In every reachable state of a
call in which `Stream` has returned `e`, the steps of `StreamGRPC` and of the send pump alone
(taking the error, closing `resCh`, the end of the write under way, the pump's return) bring
`StreamGRPC` to return `e` and the send pump to exit: of the goroutines, only the receive pump can
be left behind (`recv_pump_leaks`). -/
theorem grpc_call_ends (hg : GrpcReach g) {e : StreamError} (hd : g.drv.pc = .done e) :
    ∃ as g', (∀ a ∈ as, a = .report ∨ a = .close ∨ a = .written ∨ a = .sendExit) ∧
      g.run as = some g' ∧ g'.main = .returned e ∧ g'.send = .exited := by
  obtain ⟨as, g', e', hact, hr, hdrv, hm, hs⟩ :=
    Grpc.finish_of_done (ClosedOnReturn.of_reach hg) hd
  /- `StreamGRPC` returns the error of `Stream`, which its own steps left as it was. -/
  have he : Pc.done e = Pc.done e' := by
    rw [← hd, ← hdrv, grpc_returns_stream_error (hg.of_run hr) e' (.inr hm)]
  cases he
  exact ⟨as, g', hact, hr, hm, hs⟩

/-- The server drains a stream whose push is still being written: `StreamGRPC` returns
`draining` once the write ends, and the send pump exits. -/
theorem grpc_call_ends_mid_write :
    ∃ g, GrpcReach g ∧ g.drv.pc = .done .draining ∧ g.send ≠ .recv ∧ g.send ≠ .exited ∧
      ∃ as g', (∀ a ∈ as, a = .report ∨ a = .close ∨ a = .written ∨ a = .sendExit) ∧
        g.run as = some g' ∧ g'.main = .returned .draining ∧ g'.send = .exited := by
  obtain ⟨g, hg, h⟩ := GrpcReach.exists_of_run (newManager "v" "envoy.api.v2.Cluster")
    [.register, .recvMsg ⟨"n", none, "type.googleapis.com/envoy.api.v2.Cluster", "", none, ""⟩,
     .request, .build true ⟨[], true⟩ 0, .push, .drain, .cleanup]
    (fun g => decide (g.drv.pc = .done .draining ∧ g.send ≠ .recv ∧ g.send ≠ .exited))
    (by decide)
  obtain ⟨hd, hr, hx⟩ := of_decide_eq_true h
  exact ⟨g, hg, hd, hr, hx, grpc_call_ends hg hd⟩

end Ekglue.Xds
