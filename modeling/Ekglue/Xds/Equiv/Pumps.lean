import Ekglue.Xds.StreamGrpc

/-!
# The goroutines of `StreamGRPC` once `Stream` has returned

Only `Stream` receives on `reqCh`, and once it has returned it takes no action
(`Grpc.step_of_done`).

* `RecvStuck.of_run`: a receive pump that holds a request then stays blocked on `reqCh <- req`
  along every run.
* `Grpc.finish_of_done`: the other goroutines do end, by their own steps: `StreamGRPC` takes the
  error, closes `resCh` and returns, and the send pump returns.
* `recv_pump_leaks`: a request that arrives while the server drains the stream reaches that state,
  with the receive pump the only goroutine left.
-/

namespace Ekglue.Xds

variable {g g' : Grpc} {a : GrpcAct}

/-! ### A returned `Stream` -/

/-- **A returned `Stream` takes no action**, and the receive pump moves only out of
`stream.Recv()`. -/
theorem Grpc.step_of_done {e : StreamError} (hd : g.drv.pc = .done e) (h : g.step a = some g') :
    g'.drv = g.drv ∧ (g'.recv = g.recv ∨ g.recv = .recv) := by
  cases a <;> simp [Grpc.step, Grpc.fromIdle, hd] at h
  case recvMsg | recvErr =>
    obtain ⟨hr, rfl⟩ := h
    exact ⟨rfl, .inr hr⟩
  case sendExit =>
    obtain ⟨-, rfl⟩ := h
    exact ⟨rfl, .inl rfl⟩
  all_goals split at h <;> cases h
  all_goals exact ⟨rfl, .inl rfl⟩

/-- The receive pump holds `req` for `reqCh`, and `Stream` has returned with `e`. -/
structure RecvStuck (g : Grpc) (req : DiscoveryRequest) (e : StreamError) : Prop where
  sending : g.recv = .sending req
  done : g.drv.pc = .done e

theorem RecvStuck.step {req : DiscoveryRequest} {e : StreamError} (hs : RecvStuck g req e)
    (h : g.step a = some g') : RecvStuck g' req e := by
  obtain ⟨hdrv, hrecv⟩ := Grpc.step_of_done hs.done h
  refine ⟨?_, hdrv ▸ hs.done⟩
  rcases hrecv with hrecv | hrecv
  · exact hrecv.trans hs.sending
  · cases hs.sending.symm.trans hrecv

/-- **The receive pump is left blocked.** Once it holds a request after `Stream` has returned,
it holds it along every run. -/
theorem RecvStuck.of_run {req : DiscoveryRequest} {e : StreamError} (hs : RecvStuck g req e)
    {as : List GrpcAct} (h : g.run as = some g') : RecvStuck g' req e := by
  induction as generalizing g with
  | nil => cases h; exact hs
  | cons a as ih =>
    simp only [Grpc.run, Option.bind_eq_some] at h
    obtain ⟨g₁, h₁, h₂⟩ := h
    exact ih (hs.step h₁) h₂

/-! ### The other goroutines end -/

/-- What an action does to `StreamGRPC` and to `resCh`: nothing, but `report` takes the error
and `close` closes `resCh` and returns. -/
theorem Grpc.step_main (h : g.step a = some g') :
    (g'.main = g.main ∧ g'.resClosed = g.resClosed) ∨
      (∃ e, g'.main = .closing e ∧ g'.resClosed = g.resClosed) ∨
      g'.resClosed = true := by
  cases a <;> simp only [Grpc.step, Grpc.fromIdle] at h
  case report =>
    split at h <;> cases h
    exact .inr (.inl ⟨_, rfl, rfl⟩)
  case close =>
    split at h <;> cases h
    exact .inr (.inr rfl)
  all_goals (try split at h) <;> (try split_ifs at h) <;> cases h <;> exact .inl ⟨rfl, rfl⟩

/-- `resCh` is closed once `StreamGRPC` has returned. -/
def ClosedOnReturn (g : Grpc) : Prop := ∀ e, g.main = .returned e → g.resClosed = true

theorem ClosedOnReturn.step (hc : ClosedOnReturn g) (h : g.step a = some g') :
    ClosedOnReturn g' := by
  intro e he
  rcases Grpc.step_main h with ⟨hm, hr⟩ | ⟨e', hm, -⟩ | hr
  · exact hr.trans (hc e (hm ▸ he))
  · cases hm.symm.trans he
  · exact hr

theorem ClosedOnReturn.of_reach (h : GrpcReach g) : ClosedOnReturn g := by
  induction h with
  | init m => intro e he; cases he
  | step a _ hs ih => exact ih.step hs

theorem Grpc.run_append (g : Grpc) (as bs : List GrpcAct) :
    g.run (as ++ bs) = (g.run as).bind (·.run bs) := by
  induction as generalizing g with
  | nil => rfl
  | cons a as ih => cases h : g.step a <;> simp [Grpc.run, h, ih]

/-- **`StreamGRPC` and the send pump end.** Once `Stream` has returned, their own steps alone
(taking the error, closing `resCh`, the end of the write under way, the pump's return) bring
`StreamGRPC` to return and the send pump to exit, leaving `Stream` as it was. -/
theorem Grpc.finish_of_done (hc : ClosedOnReturn g) {e : StreamError} (hd : g.drv.pc = .done e) :
    ∃ as g' e', (∀ a ∈ as, a = .report ∨ a = .close ∨ a = .written ∨ a = .sendExit) ∧
      g.run as = some g' ∧ g'.drv = g.drv ∧ g'.main = .returned e' ∧ g'.send = .exited := by
  have main : ∃ as g₁ e', (∀ a ∈ as, a = .report ∨ a = .close) ∧ g.run as = some g₁ ∧
      g₁.drv = g.drv ∧ g₁.main = .returned e' ∧ g₁.resClosed = true := by
    cases hm : g.main with
    | waiting =>
      exact ⟨[.report, .close], { g with main := .returned e, resClosed := true }, e, by simp,
        by simp [Grpc.run, Grpc.step, hd, hm], rfl, rfl, rfl⟩
    | closing e' =>
      exact ⟨[.close], { g with main := .returned e', resClosed := true }, e', by simp,
        by simp [Grpc.run, Grpc.step, hm], rfl, rfl, rfl⟩
    | returned e' => exact ⟨[], g, e', by simp, rfl, rfl, hm, hc e' hm⟩
  obtain ⟨as, g₁, e', hact, h₁, hdrv, hm, hr⟩ := main
  have hmain : ∀ a ∈ as, a = .report ∨ a = .close ∨ a = .written ∨ a = .sendExit :=
    fun a ha => (hact a ha).imp_right .inl
  cases hsend : g₁.send with
  | recv =>
    refine ⟨as ++ [.sendExit], { g₁ with send := .exited }, e', ?_, ?_, hdrv, hm, rfl⟩
    · simpa [or_imp, forall_and] using hmain
    · simp [Grpc.run_append, h₁, Grpc.run, Grpc.step, hsend, hr]
  | writing res =>
    refine ⟨as ++ [.written, .sendExit], { g₁ with send := .exited }, e', ?_, ?_, hdrv, hm, rfl⟩
    · simpa [or_imp, forall_and] using hmain
    · simp [Grpc.run_append, h₁, Grpc.run, Grpc.step, hsend, hr]
  | exited => exact ⟨as, g₁, e', hmain, h₁, hdrv, hm, hsend⟩

/-! ### A request as the server drains -/

/-- **A request that arrives as the stream drains leaks the receive pump.** The pump reads a
request from the client while `Stream` takes the server's drain; `Stream` returns,
`StreamGRPC` returns and the send pump exits. The pump is then blocked on `reqCh <- req`, and
stays blocked along every run: nothing is left that receives on `reqCh`. -/
theorem recv_pump_leaks :
    ∃ g req, GrpcReach g ∧ g.recv = .sending req ∧ g.drv.pc = .done .draining ∧
      g.main = .returned .draining ∧ g.send = .exited ∧
      ∀ as g', g.run as = some g' → g'.recv = .sending req := by
  obtain ⟨g, hg, h⟩ := GrpcReach.exists_of_run (newManager "v" "envoy.api.v2.Cluster")
    [.register, .recvMsg ⟨"n", none, "type.googleapis.com/envoy.api.v2.Cluster", "", none, ""⟩,
     .drain, .cleanup, .report, .close, .sendExit]
    (fun g => decide (g.recv =
        .sending ⟨"n", none, "type.googleapis.com/envoy.api.v2.Cluster", "", none, ""⟩ ∧
      g.drv.pc = .done .draining ∧ g.main = .returned .draining ∧ g.send = .exited))
    (by decide)
  obtain ⟨hr, hd, hm, hs⟩ := of_decide_eq_true h
  exact ⟨g, _, hg, hr, hd, hm, hs, fun as g' h' => (RecvStuck.of_run ⟨hr, hd⟩ h').sending⟩

end Ekglue.Xds
