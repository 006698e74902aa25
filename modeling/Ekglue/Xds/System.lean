import Ekglue.Xds.Stream

/-!
# The manager, its producers and its streams, interleaved

A state `Sys` holds the manager, the owner of its lock, the session channels, and the
producers and drivers that share them; `step` takes one atomic action. An action is atomic when
what it does between two synchronisation points only touches memory that the lock or a channel
protects: a producer's call runs its locked part as one step and then keeps the lock for
`notify`'s sends, one send per step; a driver's register, `BuildDiscoveryResponse` and deferred
cleanup are one step each under a free lock; every other driver step is one branch of its
`select` or of `sendUpdate`'s.

The environment picks what the code cannot: which branch of a `select` fires, the requests,
the clock, the random bytes, and whether `BuildDiscoveryResponse` fails. `Reach ok` is the set
of states reachable through actions that `ok` allows.
-/

namespace Ekglue.Xds

/-- A session channel, `make(session, 1)`: its buffered update and whether it is closed. -/
structure Chan where
  slot : Option Update
  closed : Bool
  deriving DecidableEq, Repr

/-- Where a producer is in a call. -/
inductive ProducerPc
  /-- Not in a call. -/
  | idle
  /-- In `notify`'s first loop: `todo` are still to try, `blocked` were found full. -/
  | trying (u : Update) (todo blocked : List Nat)
  /-- In `notify`'s second loop, waiting on `blocked` in turn. -/
  | waiting (u : Update) (blocked : List Nat)
  deriving DecidableEq, Repr

/-- A producer: where it is, and whether the context of its call is done. -/
structure Producer where
  pc : ProducerPc
  ctxDone : Bool
  deriving DecidableEq, Repr

/-- The whole system. Sessions, channels and drivers share their ids. -/
structure Sys where
  m : Manager
  /-- The producer holding the manager's lock across `notify`'s sends. -/
  lock : Option Nat
  chans : Nat → Chan
  producers : Nat → Producer
  drivers : Nat → Driver

/-- No stream connected and no call under way. -/
def Sys.init (m : Manager) : Sys where
  m := { m with sessions := [] }
  lock := none
  chans := fun _ => ⟨none, false⟩
  producers := fun _ => ⟨.idle, false⟩
  drivers := fun _ => Driver.init

/-- The actions of producer `p` and of the driver of stream `d`. -/
inductive Act
  /-- Producer `p` calls `op`. -/
  | call (p : Nat) (op : Op)
  /-- A turn of `notify`'s first loop. -/
  | trySend (p : Nat)
  /-- A turn of `notify`'s second loop. -/
  | waitSend (p : Nat)
  /-- `case <-ctx.Done()` in `notify`'s second loop. -/
  | abandon (p : Nat)
  /-- The context of `p`'s call ends. -/
  | cancel (p : Nat)
  /-- `Stream` registers its session. -/
  | register (d : Nat)
  /-- `case <-server.Draining()`. -/
  | drain (d : Nat)
  /-- `case <-ctx.Done()` of the stream. -/
  | streamDone (d : Nat)
  /-- `case <-cleanupTicker.C` at time `now`. -/
  | tick (d : Nat) (now : Nat)
  /-- A request arrives on `reqCh`. -/
  | request (d : Nat) (req : DiscoveryRequest)
  /-- `reqCh` is closed. -/
  | requestsClosed (d : Nat)
  /-- `case u := <-rCh`. -/
  | receive (d : Nat)
  /-- `BuildDiscoveryResponse` under the lock at time `now`; `ok` is whether it succeeds. -/
  | build (d : Nat) (ok : Bool) (rnd : RandRead) (now : Nat)
  /-- `case resCh <- res`. -/
  | push (d : Nat)
  /-- `case <-timer.C`. -/
  | timeout (d : Nat)
  /-- The deferred cleanup of `Stream`, under the lock. -/
  | cleanup (d : Nat)

/-! ### Producers -/

/-- Whether a call takes the lock: `Replace` validates before it does. -/
def Op.takesLock : Op → Bool
  | .replace rs => (validateAll rs).isNone
  | _ => true

/-- Sets producer `p`. -/
def Sys.setProducer (s : Sys) (p : Nat) (pr : Producer) : Sys :=
  { s with producers := Function.update s.producers p pr }

/-- Sets the channel of session `c`. -/
def Sys.setChan (s : Sys) (c : Nat) (ch : Chan) : Sys :=
  { s with chans := Function.update s.chans c ch }

/-- Where a call's locked part leaves the system: with an update the caller keeps the lock and
starts `notify`'s first loop over the registered sessions; otherwise it returns and unlocks. -/
def Sys.runLocked (s : Sys) (p : Nat) (o : Outcome) : Sys :=
  match o.update with
  | some u => { s with m := o.m, lock := some p }.setProducer p ⟨.trying u o.m.sessions [], false⟩
  | none => { s with m := o.m }.setProducer p ⟨.idle, false⟩

/-- An idle producer calls `op`. A call that takes the lock waits for it to be free. -/
def Sys.call (s : Sys) (p : Nat) (op : Op) : Option Sys :=
  if (s.producers p).pc ≠ .idle then none
  else if !op.takesLock then some s
  else if s.lock ≠ none then none
  else some (s.runLocked p (s.m.apply op))

/-- A turn of `notify`'s first loop: a send to the next session that does not block, a full
slot putting the session on the blocked list; then the second loop. A send on a closed channel
is not taken. -/
def Sys.trySend (s : Sys) (p : Nat) : Option Sys :=
  match (s.producers p).pc with
  | .trying u (c :: todo) blocked =>
    if (s.chans c).closed then none
    else match (s.chans c).slot with
      | none => some ((s.setChan c ⟨some u, false⟩).setProducer p
          { s.producers p with pc := .trying u todo blocked })
      | some _ => some (s.setProducer p { s.producers p with pc := .trying u todo (blocked ++ [c]) })
  | .trying u [] blocked => some (s.setProducer p { s.producers p with pc := .waiting u blocked })
  | _ => none

/-- A turn of `notify`'s second loop: the send to the next blocked session goes through once its
slot is empty. With none left, `notify` returns and the call unlocks. -/
def Sys.waitSend (s : Sys) (p : Nat) : Option Sys :=
  match (s.producers p).pc with
  | .waiting u (c :: blocked) =>
    if (s.chans c).closed ∨ (s.chans c).slot.isSome then none
    else some ((s.setChan c ⟨some u, false⟩).setProducer p
      { s.producers p with pc := .waiting u blocked })
  | .waiting _ [] => some ({ s with lock := none }.setProducer p { s.producers p with pc := .idle })
  | _ => none

/-- `case <-ctx.Done()` in the second loop: `notify` gives up on the sessions left, and the call
returns and unlocks. -/
def Sys.abandon (s : Sys) (p : Nat) : Option Sys :=
  match (s.producers p).pc with
  | .waiting _ (_ :: _) =>
    if (s.producers p).ctxDone then
      some ({ s with lock := none }.setProducer p { s.producers p with pc := .idle })
    else none
  | _ => none

/-! ### Drivers -/

/-- Sets driver `d`. -/
def Sys.setDriver (s : Sys) (d : Nat) (dr : Driver) : Sys :=
  { s with drivers := Function.update s.drivers d dr }

/-- A branch of the loop's `select`, taken from `idle`. -/
def Sys.fromIdle (s : Sys) (d : Nat) (dr : Driver) : Option Sys :=
  if (s.drivers d).pc = .idle then some (s.setDriver d dr) else none

/-- `Stream` makes `rCh` and registers it under the lock. -/
def Sys.register (s : Sys) (d : Nat) : Option Sys :=
  if (s.drivers d).pc = .start ∧ s.lock = none then
    some ((({ s with m := { s.m with sessions := s.m.sessions.insert d } } : Sys).setChan d
      ⟨none, false⟩).setDriver d { s.drivers d with pc := .idle })
  else none

/-- `case u := <-rCh`. -/
def Sys.receive (s : Sys) (d : Nat) : Option Sys :=
  match (s.chans d).slot with
  | some u =>
    if (s.drivers d).pc = .idle then
      some ((s.setChan d { s.chans d with slot := none }).setDriver d ((s.drivers d).onUpdate u))
    else none
  | none => none

/-- `BuildDiscoveryResponse` under the lock; on success `sendUpdate` starts its transaction, on
failure it returns. -/
def Sys.build (s : Sys) (d : Nat) (ok : Bool) (rnd : RandRead) (now : Nat) : Option Sys :=
  if (s.drivers d).pc = .building ∧ s.lock = none then
    if ok then
      let r := s.m.buildDiscoveryResponse (elems (s.drivers d).resources) rnd
      some (s.setDriver d ((s.drivers d).startTx r.1 r.2 now))
    else some (s.setDriver d { s.drivers d with pc := .idle })
  else none

/-- The two branches of `sendUpdate`'s `select`. -/
def Sys.pushOrTimeout (s : Sys) (d : Nat) (pushed : Bool) : Option Sys :=
  match (s.drivers d).pc with
  | .pushing res t =>
    some (s.setDriver d (if pushed then (s.drivers d).pushed res t else (s.drivers d).timedOut t))
  | _ => none

/-- The deferred cleanup: unregister and close `rCh` under the lock, then finish every span. -/
def Sys.cleanup (s : Sys) (d : Nat) : Option Sys :=
  match (s.drivers d).pc with
  | .exiting e =>
    if s.lock = none then
      some ((({ s with m := { s.m with sessions := s.m.sessions.erase d } } : Sys).setChan d
        { s.chans d with closed := true }).setDriver d { (s.drivers d).finishAll with pc := .done e })
    else none
  | _ => none

/-! ### Steps and runs -/

/-- One atomic action. -/
def step (s : Sys) : Act → Option Sys
  | .call p op => s.call p op
  | .trySend p => s.trySend p
  | .waitSend p => s.waitSend p
  | .abandon p => s.abandon p
  | .cancel p => some (s.setProducer p { s.producers p with ctxDone := true })
  | .register d => s.register d
  | .drain d => s.fromIdle d { s.drivers d with pc := .exiting .draining }
  | .streamDone d => s.fromIdle d { s.drivers d with pc := .exiting .ctxErr }
  | .tick d now => s.fromIdle d ((s.drivers d).onTick now)
  | .request d req => s.fromIdle d ((s.drivers d).onRequest s.m.type s.m.onAck req)
  | .requestsClosed d => s.fromIdle d { s.drivers d with pc := .exiting .requestChannelClosed }
  | .receive d => s.receive d
  | .build d ok rnd now => s.build d ok rnd now
  | .push d => s.pushOrTimeout d true
  | .timeout d => s.pushOrTimeout d false
  | .cleanup d => s.cleanup d

/-- The states reachable from a manager with no stream and no call under way, through actions
that `ok` allows. -/
inductive Reach (ok : Act → Bool) : Sys → Prop
  | init (m : Manager) : Reach ok (Sys.init m)
  | step {s s' : Sys} (a : Act) : Reach ok s → ok a = true → step s a = some s' → Reach ok s'

/-- Runs the actions in order; `none` as soon as one is not enabled. -/
def run (s : Sys) : List Act → Option Sys
  | [] => some s
  | a :: as => (step s a).bind (run · as)

theorem Reach.of_run {ok : Act → Bool} {s s' : Sys} {as : List Act} (hs : Reach ok s)
    (hok : ∀ a ∈ as, ok a = true) (h : run s as = some s') : Reach ok s' := by
  induction as generalizing s with
  | nil => cases h; exact hs
  | cons a as ih =>
    simp only [run, Option.bind_eq_some] at h
    obtain ⟨s₁, h₁, h₂⟩ := h
    exact ih (hs.step a (hok a (List.mem_cons_self ..)) h₁)
      (fun b hb => hok b (List.mem_cons_of_mem _ hb)) h₂

/-- A run from `Sys.init m` ending where `p` holds shows a reachable state where it holds. -/
theorem Reach.exists_of_run (ok : Act → Bool) (m : Manager) (as : List Act) (p : Sys → Bool)
    (hok : as.all ok = true) (h : ((run (Sys.init m) as).map p) = some true) :
    ∃ s, Reach ok s ∧ p s = true := by
  cases hr : run (Sys.init m) as with
  | none => simp [hr] at h
  | some s =>
    exact ⟨s, (Reach.init m).of_run (by simpa using hok) hr, by simpa [hr] using h⟩

/-! ### Frame lemmas -/

@[simp] theorem Sys.setProducer_m (s : Sys) (p : Nat) (pr : Producer) :
    (s.setProducer p pr).m = s.m := rfl
@[simp] theorem Sys.setProducer_lock (s : Sys) (p : Nat) (pr : Producer) :
    (s.setProducer p pr).lock = s.lock := rfl
@[simp] theorem Sys.setProducer_chans (s : Sys) (p : Nat) (pr : Producer) :
    (s.setProducer p pr).chans = s.chans := rfl
@[simp] theorem Sys.setProducer_drivers (s : Sys) (p : Nat) (pr : Producer) :
    (s.setProducer p pr).drivers = s.drivers := rfl
@[simp] theorem Sys.setProducer_producers (s : Sys) (p : Nat) (pr : Producer) :
    (s.setProducer p pr).producers = Function.update s.producers p pr := rfl

@[simp] theorem Sys.setChan_m (s : Sys) (c : Nat) (ch : Chan) : (s.setChan c ch).m = s.m := rfl
@[simp] theorem Sys.setChan_lock (s : Sys) (c : Nat) (ch : Chan) :
    (s.setChan c ch).lock = s.lock := rfl
@[simp] theorem Sys.setChan_chans (s : Sys) (c : Nat) (ch : Chan) :
    (s.setChan c ch).chans = Function.update s.chans c ch := rfl
@[simp] theorem Sys.setChan_drivers (s : Sys) (c : Nat) (ch : Chan) :
    (s.setChan c ch).drivers = s.drivers := rfl
@[simp] theorem Sys.setChan_producers (s : Sys) (c : Nat) (ch : Chan) :
    (s.setChan c ch).producers = s.producers := rfl

@[simp] theorem Sys.setDriver_m (s : Sys) (d : Nat) (dr : Driver) :
    (s.setDriver d dr).m = s.m := rfl
@[simp] theorem Sys.setDriver_lock (s : Sys) (d : Nat) (dr : Driver) :
    (s.setDriver d dr).lock = s.lock := rfl
@[simp] theorem Sys.setDriver_chans (s : Sys) (d : Nat) (dr : Driver) :
    (s.setDriver d dr).chans = s.chans := rfl
@[simp] theorem Sys.setDriver_drivers (s : Sys) (d : Nat) (dr : Driver) :
    (s.setDriver d dr).drivers = Function.update s.drivers d dr := rfl
@[simp] theorem Sys.setDriver_producers (s : Sys) (d : Nat) (dr : Driver) :
    (s.setDriver d dr).producers = s.producers := rfl

@[simp] theorem Sys.runLocked_m (s : Sys) (p : Nat) (o : Outcome) : (s.runLocked p o).m = o.m := by
  unfold Sys.runLocked; split <;> rfl
@[simp] theorem Sys.runLocked_chans (s : Sys) (p : Nat) (o : Outcome) :
    (s.runLocked p o).chans = s.chans := by
  unfold Sys.runLocked; split <;> rfl
@[simp] theorem Sys.runLocked_drivers (s : Sys) (p : Nat) (o : Outcome) :
    (s.runLocked p o).drivers = s.drivers := by
  unfold Sys.runLocked; split <;> rfl

/-- Filling the slot of an open channel leaves every channel as open or closed as it was. -/
theorem Chan.closed_update_some {chans : Nat → Chan} {c : Nat} (hc : (chans c).closed = false)
    (u : Update) (c' : Nat) :
    (Function.update chans c ⟨some u, false⟩ c').closed = (chans c').closed := by
  by_cases h : c' = c
  · subst h; simp [hc]
  · simp [Function.update_noteq h]

/-! ### What each action can do -/

section Inversion

variable {s s' : Sys}

theorem Sys.call_eq {p : Nat} {op : Op} (h : s.call p op = some s') :
    (s.producers p).pc = .idle ∧ (op.takesLock = false ∧ s' = s ∨
      op.takesLock = true ∧ s.lock = none ∧ s' = s.runLocked p (s.m.apply op)) := by
  unfold Sys.call at h
  split_ifs at h with h₁ h₂ h₃ <;> simp_all

theorem Sys.trySend_eq {p : Nat} (h : s.trySend p = some s') :
    (∃ u c todo blocked, (s.producers p).pc = .trying u (c :: todo) blocked ∧
      (s.chans c).closed = false ∧
      ((s.chans c).slot = none ∧ s' = (s.setChan c ⟨some u, false⟩).setProducer p
          { s.producers p with pc := .trying u todo blocked } ∨
        (s.chans c).slot.isSome ∧
          s' = s.setProducer p { s.producers p with pc := .trying u todo (blocked ++ [c]) })) ∨
    ∃ u blocked, (s.producers p).pc = .trying u [] blocked ∧
      s' = s.setProducer p { s.producers p with pc := .waiting u blocked } := by
  unfold Sys.trySend at h
  split at h
  · rename_i u c todo blocked hpc
    split_ifs at h with hc
    split at h
    · rename_i hslot
      exact .inl ⟨u, c, todo, blocked, hpc, by simpa using hc,
        .inl ⟨hslot, (Option.some.inj h).symm⟩⟩
    · rename_i v hslot
      exact .inl ⟨u, c, todo, blocked, hpc, by simpa using hc,
        .inr ⟨by simp [hslot], (Option.some.inj h).symm⟩⟩
  · rename_i u blocked hpc
    exact .inr ⟨u, blocked, hpc, (Option.some.inj h).symm⟩
  · cases h

theorem Sys.waitSend_eq {p : Nat} (h : s.waitSend p = some s') :
    (∃ u c blocked, (s.producers p).pc = .waiting u (c :: blocked) ∧
      (s.chans c).closed = false ∧ (s.chans c).slot = none ∧
      s' = (s.setChan c ⟨some u, false⟩).setProducer p
        { s.producers p with pc := .waiting u blocked }) ∨
    ∃ u, (s.producers p).pc = .waiting u [] ∧
      s' = { s with lock := none }.setProducer p { s.producers p with pc := .idle } := by
  unfold Sys.waitSend at h
  split at h
  · rename_i u c blocked hpc
    split_ifs at h with hc
    simp only [not_or, Bool.not_eq_true, Option.not_isSome, Option.isNone_iff_eq_none] at hc
    exact .inl ⟨u, c, blocked, hpc, hc.1, hc.2, (Option.some.inj h).symm⟩
  · rename_i u hpc
    exact .inr ⟨u, hpc, (Option.some.inj h).symm⟩
  · cases h

theorem Sys.abandon_eq {p : Nat} (h : s.abandon p = some s') :
    ∃ u c blocked, (s.producers p).pc = .waiting u (c :: blocked) ∧
      (s.producers p).ctxDone = true ∧
      s' = { s with lock := none }.setProducer p { s.producers p with pc := .idle } := by
  unfold Sys.abandon at h
  split at h
  · rename_i u c blocked hpc
    split_ifs at h with hc
    exact ⟨u, c, blocked, hpc, hc, (Option.some.inj h).symm⟩
  · cases h

theorem Sys.register_eq {d : Nat} (h : s.register d = some s') :
    (s.drivers d).pc = .start ∧ s.lock = none ∧
      s' = (({ s with m := { s.m with sessions := s.m.sessions.insert d } } : Sys).setChan d
        ⟨none, false⟩).setDriver d { s.drivers d with pc := .idle } := by
  unfold Sys.register at h
  split_ifs at h with h₁
  simp_all

theorem Sys.fromIdle_eq {d : Nat} {dr : Driver} (h : s.fromIdle d dr = some s') :
    (s.drivers d).pc = .idle ∧ s' = s.setDriver d dr := by
  unfold Sys.fromIdle at h
  split_ifs at h with h₁
  simp_all

theorem Sys.receive_eq {d : Nat} (h : s.receive d = some s') :
    ∃ u, (s.chans d).slot = some u ∧ (s.drivers d).pc = .idle ∧
      s' = (s.setChan d { s.chans d with slot := none }).setDriver d
        ((s.drivers d).onUpdate u) := by
  unfold Sys.receive at h
  split at h
  · rename_i u hslot
    split_ifs at h with hpc
    exact ⟨u, hslot, hpc, (Option.some.inj h).symm⟩
  · cases h

theorem Sys.build_eq {d : Nat} {ok : Bool} {rnd : RandRead} {now : Nat}
    (h : s.build d ok rnd now = some s') :
    (s.drivers d).pc = .building ∧ s.lock = none ∧
      (ok = true ∧ s' = s.setDriver d ((s.drivers d).startTx
        (s.m.buildDiscoveryResponse (elems (s.drivers d).resources) rnd).1
        (s.m.buildDiscoveryResponse (elems (s.drivers d).resources) rnd).2 now) ∨
      ok = false ∧ s' = s.setDriver d { s.drivers d with pc := .idle }) := by
  unfold Sys.build at h
  split_ifs at h with h₁ h₂ <;> simp_all

theorem Sys.pushOrTimeout_eq {d : Nat} {pushed : Bool} (h : s.pushOrTimeout d pushed = some s') :
    ∃ res t, (s.drivers d).pc = .pushing res t ∧ s' = s.setDriver d
      (if pushed then (s.drivers d).pushed res t else (s.drivers d).timedOut t) := by
  unfold Sys.pushOrTimeout at h
  split at h
  · rename_i res t hpc
    exact ⟨res, t, hpc, (Option.some.inj h).symm⟩
  · cases h

theorem Sys.cleanup_eq {d : Nat} (h : s.cleanup d = some s') :
    ∃ e, (s.drivers d).pc = .exiting e ∧ s.lock = none ∧
      s' = (({ s with m := { s.m with sessions := s.m.sessions.erase d } } : Sys).setChan d
        { s.chans d with closed := true }).setDriver d
        { (s.drivers d).finishAll with pc := .done e } := by
  unfold Sys.cleanup at h
  split at h
  · rename_i e hpc
    split_ifs at h with hl
    exact ⟨e, hpc, hl, (Option.some.inj h).symm⟩
  · cases h

/-- Whose action it is: `.inl p` for producer `p`, `.inr d` for the driver of stream `d`. -/
def Act.actor : Act → Nat ⊕ Nat
  | .call p _ | .trySend p | .waitSend p | .abandon p | .cancel p => .inl p
  | .register d | .drain d | .streamDone d | .tick d _ | .request d _ | .requestsClosed d
  | .receive d | .build d _ _ _ | .push d | .timeout d | .cleanup d => .inr d

/-- **Frame of a producer's step.** The drivers, the registered sessions, the manager's
configuration and the other producers are left alone. -/
theorem step_frame_producer {a : Act} {p : Nat} (ha : a.actor = .inl p)
    (h : step s a = some s') :
    s'.drivers = s.drivers ∧ s'.m.sessions = s.m.sessions ∧ s'.m.type = s.m.type ∧
      s'.m.onAck = s.m.onAck ∧ (∀ c, (s'.chans c).closed = (s.chans c).closed) ∧
      ∀ q, q ≠ p → s'.producers q = s.producers q := by
  cases a <;> simp only [Act.actor, Sum.inl.injEq, reduceCtorEq] at ha <;> subst ha <;>
    simp only [step] at h
  case call op =>
    obtain ⟨-, ⟨-, rfl⟩ | ⟨-, -, rfl⟩⟩ := Sys.call_eq h
    · simp
    · unfold Sys.runLocked; split <;> simp +contextual [Function.update_noteq]
  case trySend =>
    obtain ⟨u, c, todo, blocked, -, hc, ⟨-, rfl⟩ | ⟨-, rfl⟩⟩ | ⟨u, blocked, -, rfl⟩ :=
      Sys.trySend_eq h
    all_goals simp +contextual [Function.update_noteq, Chan.closed_update_some, *]
  case waitSend =>
    obtain ⟨u, c, blocked, -, hc, -, rfl⟩ | ⟨u, -, rfl⟩ := Sys.waitSend_eq h
    all_goals simp +contextual [Sys.setProducer, Function.update_noteq, Chan.closed_update_some, *]
  case abandon =>
    obtain ⟨u, c, blocked, -, -, rfl⟩ := Sys.abandon_eq h
    simp +contextual [Sys.setProducer, Function.update_noteq]
  case cancel => cases h; simp +contextual [Function.update_noteq]

/-- **Frame of a driver's step.** The producers, the lock, the store, the version and every
other stream are left alone; only the registered sessions may change. -/
theorem step_frame_driver {a : Act} {d : Nat} (ha : a.actor = .inr d) (h : step s a = some s') :
    s'.producers = s.producers ∧ s'.lock = s.lock ∧ s'.m.resources = s.m.resources ∧
      s'.m.version = s.m.version ∧
      ∀ d', d' ≠ d → s'.drivers d' = s.drivers d' ∧ s'.chans d' = s.chans d' := by
  cases a <;> simp only [Act.actor, Sum.inr.injEq, reduceCtorEq] at ha <;> subst ha <;>
    simp only [step] at h
  case register =>
    obtain ⟨-, -, rfl⟩ := Sys.register_eq h
    simp +contextual [Function.update_noteq]
  case receive =>
    obtain ⟨u, -, -, rfl⟩ := Sys.receive_eq h
    simp +contextual [Function.update_noteq]
  case build =>
    obtain ⟨-, -, ⟨-, rfl⟩ | ⟨-, rfl⟩⟩ := Sys.build_eq h <;>
      simp +contextual [Function.update_noteq]
  case push | timeout =>
    obtain ⟨res, t, -, rfl⟩ := Sys.pushOrTimeout_eq h
    simp +contextual [Function.update_noteq]
  case cleanup =>
    obtain ⟨e, -, -, rfl⟩ := Sys.cleanup_eq h
    simp +contextual [Function.update_noteq]
  all_goals
    obtain ⟨-, rfl⟩ := Sys.fromIdle_eq h
    simp +contextual [Function.update_noteq]

end Inversion

/-! ### A driver's own steps -/

/-- What one of its own steps does to a driver, whatever the rest of the system holds. -/
inductive Driver.Step : Driver → Driver → Prop
  /-- Registration, a failed build, or a return from the loop: only `pc` moves. -/
  | move (d : Driver) (pc : Pc) (h : ∀ res t, pc ≠ .pushing res t) :
      Driver.Step d { d with pc := pc }
  | tick (d : Driver) (now : Nat) : Driver.Step d (d.onTick now)
  | request (d : Driver) (type : String) (onAck : Bool) (req : DiscoveryRequest) :
      Driver.Step d (d.onRequest type onAck req)
  | receive (d : Driver) (u : Update) : Driver.Step d (d.onUpdate u)
  | build (d : Driver) (res : DiscoveryResponse) (names : List String) (now : Nat) :
      Driver.Step d (d.startTx res names now)
  | push (d : Driver) (res : DiscoveryResponse) (t : Tx) (h : d.pc = .pushing res t) :
      Driver.Step d (d.pushed res t)
  | timeout (d : Driver) (res : DiscoveryResponse) (t : Tx) (h : d.pc = .pushing res t) :
      Driver.Step d (d.timedOut t)
  | cleanup (d : Driver) (e : StreamError) : Driver.Step d { d.finishAll with pc := .done e }

section OwnStep

variable {s s' : Sys} {a : Act} {d : Nat}

/-- A driver's action moves its driver by one of `Driver.Step`'s. -/
theorem step_driver_step (ha : a.actor = .inr d) (h : step s a = some s') :
    Driver.Step (s.drivers d) (s'.drivers d) := by
  have notPush : ∀ e : StreamError, ∀ res t, Pc.exiting e ≠ .pushing res t := fun _ _ _ h => by
    cases h
  cases a <;> simp only [Act.actor, Sum.inr.injEq, reduceCtorEq] at ha <;> subst ha <;>
    simp only [step] at h
  case register =>
    obtain ⟨-, -, rfl⟩ := Sys.register_eq h
    simpa using Driver.Step.move _ .idle fun _ _ h => by cases h
  case receive =>
    obtain ⟨u, -, -, rfl⟩ := Sys.receive_eq h
    simpa using Driver.Step.receive _ u
  case build =>
    obtain ⟨-, -, ⟨-, rfl⟩ | ⟨-, rfl⟩⟩ := Sys.build_eq h
    · simpa using Driver.Step.build _ _ _ _
    · simpa using Driver.Step.move _ .idle fun _ _ h => by cases h
  case push =>
    obtain ⟨res, t, hpc, rfl⟩ := Sys.pushOrTimeout_eq h
    simpa using Driver.Step.push _ res t hpc
  case timeout =>
    obtain ⟨res, t, hpc, rfl⟩ := Sys.pushOrTimeout_eq h
    simpa using Driver.Step.timeout _ res t hpc
  case cleanup =>
    obtain ⟨e, -, -, rfl⟩ := Sys.cleanup_eq h
    simpa using Driver.Step.cleanup _ e
  case tick now =>
    obtain ⟨-, rfl⟩ := Sys.fromIdle_eq h
    simpa using Driver.Step.tick _ now
  case request req =>
    obtain ⟨-, rfl⟩ := Sys.fromIdle_eq h
    simpa using Driver.Step.request _ _ _ req
  all_goals
    obtain ⟨-, rfl⟩ := Sys.fromIdle_eq h
    simpa using Driver.Step.move _ _ (notPush _)

variable {P : Driver → Prop}

/-- A property that every driver's own steps keep is kept by every step of the system. -/
theorem step_keeps_driver (hP : ∀ {x y}, Driver.Step x y → P x → P y) (h : step s a = some s')
    (d : Nat) (hd : P (s.drivers d)) : P (s'.drivers d) := by
  cases ha : a.actor with
  | inl p => rwa [(step_frame_producer ha h).1]
  | inr d' =>
    by_cases hd' : d = d'
    · subst hd'; exact hP (step_driver_step ha h) hd
    · rwa [((step_frame_driver ha h).2.2.2.2 d hd').1]

/-- It holds of every driver of every reachable state when it holds of `Driver.init`. -/
theorem Reach.driver (hP : ∀ {x y}, Driver.Step x y → P x → P y) (h0 : P Driver.init)
    {ok : Act → Bool} (hs : Reach ok s) (d : Nat) : P (s.drivers d) := by
  induction hs with
  | init m => exact h0
  | step a _ _ h ih => exact step_keeps_driver hP h d ih

/-- And once it holds of a driver, it holds along every run. -/
theorem run_keeps_driver (hP : ∀ {x y}, Driver.Step x y → P x → P y) {as : List Act}
    (h : run s as = some s') (d : Nat) (hd : P (s.drivers d)) : P (s'.drivers d) := by
  induction as generalizing s with
  | nil => cases h; exact hd
  | cons a as ih =>
    simp only [run, Option.bind_eq_some] at h
    obtain ⟨s₁, h₁, h₂⟩ := h
    exact ih h₂ (step_keeps_driver hP h₁ d hd)

end OwnStep

end Ekglue.Xds
