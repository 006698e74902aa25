import Ekglue.Xds.Stream

/-!
# `StreamGRPC`: the adapter and its goroutines

`StreamGRPC` makes three unbuffered channels and starts three goroutines. The receive pump copies
`stream.Recv()` into `reqCh`, and closes `reqCh` and returns on the first error. The send pump
copies `resCh` into `stream.Send` and returns once `resCh` is closed. The third runs `Stream` and
sends its error on `errCh`. `StreamGRPC` itself waits on `errCh`, closes `resCh` and `errCh`, and
returns that error.

A state `Grpc` is one call: where each goroutine is, which channels are closed, and `Stream`'s state
as the loop model `Driver` has it. `Grpc.step` takes one atomic action; a send on an unbuffered
channel is one action that moves both of its ends. The client and the rest of the server are the
environment: `stream.Recv()` may return any request or fail at any time, and a change
notification, the cleanup tick, the end of the context or the server's drain may reach `Stream`'s
`select` at any time. The manager's lock, which `Ekglue.Xds.System` models, is taken to be free.
-/

namespace Ekglue.Xds

/-- Where the receive pump is. -/
inductive RecvPc
  /-- In `stream.Recv()`. -/
  | recv
  /-- Blocked on `reqCh <- req`. -/
  | sending (req : DiscoveryRequest)
  /-- It closed `reqCh` and returned. -/
  | exited
  deriving DecidableEq, Repr

/-- Where the send pump is. -/
inductive SendPc
  /-- At `res, ok := <-resCh`. -/
  | recv
  /-- In `stream.Send(res)`. -/
  | writing (res : DiscoveryResponse)
  /-- It found `resCh` closed and returned. -/
  | exited
  deriving DecidableEq, Repr

/-- Where `StreamGRPC` itself is. -/
inductive MainPc
  /-- At `err := <-errCh`. -/
  | waiting
  /-- It has `Stream`'s error and closes `resCh` and `errCh`. -/
  | closing (err : StreamError)
  /-- It returned `err`. -/
  | returned (err : StreamError)
  deriving DecidableEq, Repr

/-- One call of `StreamGRPC` on a manager. -/
structure Grpc where
  m : Manager
  recv : RecvPc
  send : SendPc
  /-- The goroutine running `Stream`; it has sent its error on `errCh` once `main` is past
  `waiting`. -/
  drv : Driver
  main : MainPc
  /-- Whether `reqCh` is closed. -/
  reqClosed : Bool
  /-- Whether `resCh` is closed. -/
  resClosed : Bool

/-- The call as the three goroutines start. -/
def Grpc.init (m : Manager) : Grpc := ⟨m, .recv, .recv, Driver.init, .waiting, false, false⟩

/-- One atomic action of a goroutine of `StreamGRPC`, or of two at a send on an unbuffered
channel. -/
inductive GrpcAct
  /-- `stream.Recv()` returns a request. -/
  | recvMsg (req : DiscoveryRequest)
  /-- `stream.Recv()` fails: `close(reqCh)`, and the pump returns. -/
  | recvErr
  /-- `Stream` registers its session. -/
  | register
  /-- `reqCh <- req` meets `case req, ok := <-reqCh`. -/
  | request
  /-- `case req, ok := <-reqCh` on the closed channel. -/
  | requestsClosed
  /-- `case <-server.Draining()`. -/
  | drain
  /-- `case <-ctx.Done()`. -/
  | streamDone
  /-- `case <-cleanupTicker.C` at time `now`. -/
  | tick (now : Nat)
  /-- `case u := <-rCh`. -/
  | receive (u : Update)
  /-- `BuildDiscoveryResponse`, failing when `ok` is false. -/
  | build (ok : Bool) (rnd : RandRead) (now : Nat)
  /-- `resCh <- res` meets the send pump's `<-resCh`. -/
  | push
  /-- `case <-timer.C` in `sendUpdate`. -/
  | timeout
  /-- `Stream`'s deferred cleanup. -/
  | cleanup
  /-- `stream.Send(res)` returns. -/
  | written
  /-- The send pump's `<-resCh` on the closed channel. -/
  | sendExit
  /-- `errCh <- m.Stream(...)` meets `err := <-errCh`. -/
  | report
  /-- `close(resCh)`, `close(errCh)`, `return err`. -/
  | close

/-- A branch of `Stream`'s loop, taken from its `select`. -/
def Grpc.fromIdle (g : Grpc) (d : Driver) : Option Grpc :=
  if g.drv.pc = .idle then some { g with drv := d } else none

/-- One atomic action; `none` when it is not enabled. -/
def Grpc.step (g : Grpc) : GrpcAct → Option Grpc
  | .recvMsg req => if g.recv = .recv then some { g with recv := .sending req } else none
  | .recvErr =>
    if g.recv = .recv then some { g with recv := .exited, reqClosed := true } else none
  | .register =>
    if g.drv.pc = .start then some { g with drv := { g.drv with pc := .idle } } else none
  | .request =>
    match g.recv with
    | .sending req =>
      ({ g with recv := .recv } : Grpc).fromIdle (g.drv.onRequest g.m.type g.m.onAck req)
    | _ => none
  | .requestsClosed =>
    if g.reqClosed then g.fromIdle { g.drv with pc := .exiting .requestChannelClosed } else none
  | .drain => g.fromIdle { g.drv with pc := .exiting .draining }
  | .streamDone => g.fromIdle { g.drv with pc := .exiting .ctxErr }
  | .tick now => g.fromIdle (g.drv.onTick now)
  | .receive u => g.fromIdle (g.drv.onUpdate u)
  | .build ok rnd now =>
    if g.drv.pc = .building then
      if ok then
        let r := g.m.buildDiscoveryResponse (elems g.drv.resources) rnd
        some { g with drv := g.drv.startTx r.1 r.2 now }
      else some { g with drv := { g.drv with pc := .idle } }
    else none
  | .push =>
    match g.drv.pc, g.send with
    | .pushing res t, .recv => some { g with drv := g.drv.pushed res t, send := .writing res }
    | _, _ => none
  | .timeout =>
    match g.drv.pc with
    | .pushing _ t => some { g with drv := g.drv.timedOut t }
    | _ => none
  | .cleanup =>
    match g.drv.pc with
    | .exiting e => some { g with drv := { g.drv.finishAll with pc := .done e } }
    | _ => none
  | .written =>
    match g.send with
    | .writing _ => some { g with send := .recv }
    | _ => none
  | .sendExit => if g.send = .recv ∧ g.resClosed then some { g with send := .exited } else none
  | .report =>
    match g.drv.pc, g.main with
    | .done e, .waiting => some { g with main := .closing e }
    | _, _ => none
  | .close =>
    match g.main with
    | .closing e => some { g with main := .returned e, resClosed := true }
    | _ => none

/-- The states of a call reachable from its start. -/
inductive GrpcReach : Grpc → Prop
  | init (m : Manager) : GrpcReach (Grpc.init m)
  | step {g g' : Grpc} (a : GrpcAct) : GrpcReach g → g.step a = some g' → GrpcReach g'

/-- Runs the actions in order; `none` as soon as one is not enabled. -/
def Grpc.run (g : Grpc) : List GrpcAct → Option Grpc
  | [] => some g
  | a :: as => (g.step a).bind (·.run as)

theorem GrpcReach.of_run {g g' : Grpc} {as : List GrpcAct} (hg : GrpcReach g)
    (h : g.run as = some g') : GrpcReach g' := by
  induction as generalizing g with
  | nil => cases h; exact hg
  | cons a as ih =>
    simp only [Grpc.run, Option.bind_eq_some] at h
    obtain ⟨g₁, h₁, h₂⟩ := h
    exact ih (hg.step a h₁) h₂

/-- A run from the start that ends in a state satisfying `p` gives a reachable such state; `p` is
checked by evaluation. -/
theorem GrpcReach.exists_of_run (m : Manager) (as : List GrpcAct) (p : Grpc → Bool)
    (h : ((Grpc.init m).run as).map p = some true) : ∃ g, GrpcReach g ∧ p g = true := by
  cases hr : (Grpc.init m).run as with
  | none => simp [hr] at h
  | some g => exact ⟨g, (GrpcReach.init m).of_run hr, by simpa [hr] using h⟩

end Ekglue.Xds
