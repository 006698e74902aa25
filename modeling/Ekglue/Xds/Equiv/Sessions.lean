import Ekglue.Xds.System

/-!
# The lock and the registered sessions

Two invariants of every reachable state, whatever actions lead there. `LockInv`: a producer
past the locked part of its call holds the manager's lock, so at most one producer is in
`notify` and a free lock means every producer is idle. `SessionInv`: `m.sessions` lists each
stream between its registration and its cleanup exactly once, and the channel of every listed
session is open.

Two more follow from these. `TargetInv`: every session a producer in `notify` still has to send to
is listed, since cleanup needs the lock that `notify` holds. `ClosedInv`: a closed channel belongs
to a stream that has returned. Together (`sessions_open_of_reach`): `notify` only ever sends on
open channels, and no driver receives from its channel once it is closed.
-/

namespace Ekglue.Xds

variable {s s' : Sys} {a : Act}

/-! ### The lock -/

/-- A producer past the locked part of its call holds the lock. -/
def LockInv (s : Sys) : Prop := ∀ p, (s.producers p).pc ≠ .idle → s.lock = some p

theorem LockInv.init (m : Manager) : LockInv (Sys.init m) := fun _ h => absurd rfl h

/-- With the lock free, every producer is idle. -/
theorem LockInv.idle_of_unlocked (hl : LockInv s) (h : s.lock = none) (p : Nat) :
    (s.producers p).pc = .idle := by
  by_contra hp
  simpa [h] using hl p hp

/-- While `p` holds the lock in a call, every other producer is idle. -/
theorem LockInv.idle_of_ne (hl : LockInv s) {p q : Nat} (hp : (s.producers p).pc ≠ .idle)
    (hq : q ≠ p) : (s.producers q).pc = .idle := by
  by_contra h
  exact hq (Option.some.inj ((hl q h).symm.trans (hl p hp)))

/-- A producer that returns from its call and unlocks keeps the invariant. -/
theorem LockInv.release (hl : LockInv s) {p : Nat} (hp : (s.producers p).pc ≠ .idle)
    (pr : Producer) (hpr : pr.pc = .idle) : LockInv ({ s with lock := none }.setProducer p pr) := by
  intro q hq
  by_cases hqp : q = p
  · subst hqp; simp [hpr] at hq
  · simp [Function.update_noteq hqp] at hq
    exact absurd (hl.idle_of_ne hp hqp) hq

/-- A producer that moves on inside `notify` keeps the invariant. -/
theorem LockInv.move (hl : LockInv s) {p : Nat} (hp : (s.producers p).pc ≠ .idle) (s₀ : Sys)
    (hlock : s₀.lock = s.lock) (hprod : s₀.producers = s.producers) (pr : Producer) :
    LockInv (s₀.setProducer p pr) := by
  intro q hq
  rw [Sys.setProducer_lock, hlock]
  by_cases hqp : q = p
  · subst hqp; exact hl q hp
  · simp [Function.update_noteq hqp, hprod] at hq
    exact hl q hq

theorem LockInv.runLocked (hl : LockInv s) (hfree : s.lock = none) (p : Nat) (o : Outcome) :
    LockInv (s.runLocked p o) := by
  intro q hq
  unfold Sys.runLocked at hq ⊢
  by_cases hqp : q = p
  · subst hqp; split at hq <;> simp_all
  · split at hq <;> simp [Function.update_noteq hqp, hl.idle_of_unlocked hfree q] at hq

theorem LockInv.step (hl : LockInv s) (h : step s a = some s') : LockInv s' := by
  cases ha : a.actor with
  | inr d =>
    obtain ⟨hp, hlk, -⟩ := step_frame_driver ha h
    intro p
    rw [hp, hlk]
    exact hl p
  | inl p =>
    cases a <;> simp only [Act.actor, Sum.inl.injEq, reduceCtorEq] at ha <;> subst ha <;>
      simp only [step] at h
    case call op =>
      obtain ⟨-, ⟨-, rfl⟩ | ⟨-, hfree, rfl⟩⟩ := Sys.call_eq h
      · exact hl
      · exact hl.runLocked hfree _ _
    case trySend =>
      obtain ⟨u, c, todo, blocked, hpc, -, ⟨-, rfl⟩ | ⟨-, rfl⟩⟩ | ⟨u, blocked, hpc, rfl⟩ :=
        Sys.trySend_eq h <;> exact hl.move (by simp [hpc]) _ rfl rfl _
    case waitSend =>
      obtain ⟨u, c, blocked, hpc, -, -, rfl⟩ | ⟨u, hpc, rfl⟩ := Sys.waitSend_eq h
      · exact hl.move (by simp [hpc]) _ rfl rfl _
      · exact hl.release (by simp [hpc]) _ rfl
    case abandon =>
      obtain ⟨u, c, blocked, hpc, -, rfl⟩ := Sys.abandon_eq h
      exact hl.release (by simp [hpc]) _ rfl
    case cancel =>
      cases h
      intro q hq
      apply hl q
      simp only [Sys.setProducer_producers, Function.update_apply] at hq
      split_ifs at hq with hqp
      · subst hqp; exact hq
      · exact hq

theorem LockInv.of_reach {ok : Act → Bool} (h : Reach ok s) : LockInv s := by
  induction h with
  | init m => exact LockInv.init m
  | step a _ _ hs ih => exact ih.step hs

/-! ### The registered sessions -/

/-- Whether a stream's session is registered: from its registration to its cleanup. -/
def Pc.registered : Pc → Bool
  | .start | .done _ => false
  | _ => true

/-- `m.sessions` lists each registered stream once, and their channels are open. -/
structure SessionInv (s : Sys) : Prop where
  /-- No session is listed twice. -/
  nodup : s.m.sessions.Nodup
  /-- The listed sessions are the registered ones. -/
  mem_iff : ∀ d, d ∈ s.m.sessions ↔ (s.drivers d).pc.registered
  /-- A listed session's channel is open. -/
  isOpen : ∀ d, d ∈ s.m.sessions → (s.chans d).closed = false

theorem SessionInv.init (m : Manager) : SessionInv (Sys.init m) where
  nodup := List.nodup_nil
  mem_iff := by simp [Sys.init, Driver.init, Pc.registered]
  isOpen := by simp [Sys.init]

theorem SessionInv.congr (hi : SessionInv s) (hm : s'.m.sessions = s.m.sessions)
    (hd : s'.drivers = s.drivers) (hc : ∀ c, (s'.chans c).closed = (s.chans c).closed) :
    SessionInv s' where
  nodup := hm ▸ hi.nodup
  mem_iff d := by rw [hm, hd]; exact hi.mem_iff d
  isOpen d h := by rw [hc]; exact hi.isOpen d (hm ▸ h)

theorem SessionInv.setDriver (hi : SessionInv s) {d : Nat} {dr : Driver}
    (h : dr.pc.registered = (s.drivers d).pc.registered) : SessionInv (s.setDriver d dr) where
  nodup := hi.nodup
  mem_iff d' := by
    rw [Sys.setDriver_m, hi.mem_iff, Sys.setDriver_drivers, Function.update_apply]
    split_ifs with hd
    · rw [hd, h]
    · rfl
  isOpen := hi.isOpen

theorem SessionInv.setChan (hi : SessionInv s) {c : Nat} (ch : Chan)
    (h : ch.closed = (s.chans c).closed) : SessionInv (s.setChan c ch) :=
  hi.congr rfl rfl fun c' => by
    simp only [Sys.setChan_chans, Function.update_apply]
    split_ifs with hc
    · rw [hc, h]
    · rfl

theorem SessionInv.step (hi : SessionInv s) (h : step s a = some s') : SessionInv s' := by
  cases ha : a.actor with
  | inl p =>
    obtain ⟨hd, hm, -, -, hc, -⟩ := step_frame_producer ha h
    exact hi.congr hm hd hc
  | inr d =>
    cases a <;> simp only [Act.actor, Sum.inr.injEq, reduceCtorEq] at ha <;> subst ha <;>
      simp only [step] at h
    case register d =>
      obtain ⟨-, -, rfl⟩ := Sys.register_eq h
      refine ⟨hi.nodup.insert, fun d' => ?_, fun d' hd' => ?_⟩
      · by_cases hd : d' = d
        · subst hd; simp [Pc.registered]
        · simp [List.mem_insert_iff, hd, Function.update_noteq, hi.mem_iff]
      · by_cases hd : d' = d
        · subst hd; simp
        · simp only [Sys.setDriver_m, Sys.setChan_m, List.mem_insert_iff, hd, false_or] at hd'
          simp [Function.update_noteq hd, hi.isOpen d' hd']
    case cleanup d =>
      obtain ⟨e, hpc, -, rfl⟩ := Sys.cleanup_eq h
      refine ⟨hi.nodup.erase d, fun d' => ?_, fun d' hd' => ?_⟩
      · by_cases hd : d' = d
        · subst hd; simp [hi.nodup.mem_erase_iff, Pc.registered]
        · simp [hi.nodup.mem_erase_iff, hd, Function.update_noteq, hi.mem_iff]
      · simp only [Sys.setDriver_m, Sys.setChan_m, hi.nodup.mem_erase_iff] at hd'
        simp [Function.update_noteq hd'.1, hi.isOpen d' hd'.2]
    case receive d =>
      obtain ⟨u, -, hpc, rfl⟩ := Sys.receive_eq h
      refine (hi.setChan { s.chans d with slot := none } rfl).setDriver ?_
      rcases Driver.onUpdate_eq (s.drivers d) u with h' | h' <;> simp [h', hpc, Pc.registered]
    case build d _ _ _ =>
      obtain ⟨hpc, -, ⟨-, rfl⟩ | ⟨-, rfl⟩⟩ := Sys.build_eq h <;>
        exact hi.setDriver (by simp [hpc, Driver.startTx, Pc.registered])
    case push d | timeout d =>
      obtain ⟨res, t, hpc, rfl⟩ := Sys.pushOrTimeout_eq h
      exact hi.setDriver (by simp [hpc, Driver.pushed, Driver.timedOut, Pc.registered])
    case tick d now =>
      obtain ⟨hpc, rfl⟩ := Sys.fromIdle_eq h
      obtain ⟨f, t, h'⟩ := Driver.onTick_eq (s.drivers d) now
      exact hi.setDriver (by simp [h'])
    case request d req =>
      obtain ⟨hpc, rfl⟩ := Sys.fromIdle_eq h
      refine hi.setDriver ?_
      rcases Driver.onRequest_pc (s.drivers d) s.m.type s.m.onAck req with ⟨e, h'⟩ | h' | h' <;>
        simp [h', hpc, Pc.registered]
    all_goals
      obtain ⟨hpc, rfl⟩ := Sys.fromIdle_eq h
      exact hi.setDriver (by simp [hpc, Pc.registered])

theorem SessionInv.of_reach {ok : Act → Bool} (h : Reach ok s) : SessionInv s := by
  induction h with
  | init m => exact SessionInv.init m
  | step a _ _ hs ih => exact ih.step hs

/-! ### Where `notify` sends -/

/-- The sessions a producer in `notify` still has to send to: the rest of the first loop, then
the blocked ones. -/
def ProducerPc.targets : ProducerPc → List Nat
  | .idle => []
  | .trying _ todo blocked => todo ++ blocked
  | .waiting _ blocked => blocked

/-- Every session `notify` still has to send to is registered. -/
def TargetInv (s : Sys) : Prop := ∀ p, ∀ c ∈ (s.producers p).pc.targets, c ∈ s.m.sessions

theorem TargetInv.init (m : Manager) : TargetInv (Sys.init m) := fun _ _ h => by
  simp [Sys.init, ProducerPc.targets] at h

/-- A producer's own step leaves it to send to sessions it had to send to before, or, when
`notify` starts, to the registered ones. -/
theorem targets_step_own {p : Nat} (ha : a.actor = .inl p) (h : step s a = some s') :
    ∀ c ∈ (s'.producers p).pc.targets, c ∈ (s.producers p).pc.targets ∨ c ∈ s.m.sessions := by
  intro c hc
  cases a <;> simp only [Act.actor, Sum.inl.injEq, reduceCtorEq] at ha <;> subst ha <;>
    simp only [step] at h
  case call op =>
    obtain ⟨-, ⟨-, rfl⟩ | ⟨-, -, rfl⟩⟩ := Sys.call_eq h
    · exact .inl hc
    · unfold Sys.runLocked at hc
      split at hc <;> simp [ProducerPc.targets] at hc
      exact .inr hc
  case trySend =>
    obtain ⟨u, c', todo, blocked, hpc, -, ⟨-, rfl⟩ | ⟨-, rfl⟩⟩ | ⟨u, blocked, hpc, rfl⟩ :=
      Sys.trySend_eq h <;> simp [hpc, ProducerPc.targets] at hc ⊢ <;> tauto
  case waitSend =>
    obtain ⟨u, c', blocked, hpc, -, -, rfl⟩ | ⟨u, hpc, rfl⟩ := Sys.waitSend_eq h <;>
      simp [hpc, ProducerPc.targets] at hc ⊢
    tauto
  case abandon =>
    obtain ⟨u, c', blocked, -, -, rfl⟩ := Sys.abandon_eq h
    simp [ProducerPc.targets] at hc
  case cancel =>
    cases h
    exact .inl (by simpa using hc)

/-- While the lock is held, no driver registers or unregisters. -/
theorem step_sessions_of_locked {d : Nat} (ha : a.actor = .inr d) (h : step s a = some s')
    (hlk : s.lock ≠ none) : s'.m.sessions = s.m.sessions := by
  cases a <;> simp only [Act.actor, Sum.inr.injEq, reduceCtorEq] at ha <;> subst ha <;>
    simp only [step] at h
  case register => exact absurd (Sys.register_eq h).2.1 hlk
  case cleanup =>
    obtain ⟨e, -, hfree, -⟩ := Sys.cleanup_eq h
    exact absurd hfree hlk
  case receive =>
    obtain ⟨u, -, -, rfl⟩ := Sys.receive_eq h
    simp
  case build =>
    obtain ⟨-, -, ⟨-, rfl⟩ | ⟨-, rfl⟩⟩ := Sys.build_eq h <;> simp
  case push | timeout =>
    obtain ⟨res, t, -, rfl⟩ := Sys.pushOrTimeout_eq h
    simp
  all_goals
    obtain ⟨-, rfl⟩ := Sys.fromIdle_eq h
    simp

theorem TargetInv.step (ht : TargetInv s) (hl : LockInv s) (h : step s a = some s') :
    TargetInv s' := by
  cases ha : a.actor with
  | inl p =>
    obtain ⟨-, hm, -, -, -, hpr⟩ := step_frame_producer ha h
    intro q c hc
    rw [hm]
    by_cases hq : q = p
    · subst hq
      exact (targets_step_own ha h c hc).elim (ht q c) id
    · exact ht q c (hpr q hq ▸ hc)
  | inr d =>
    obtain ⟨hp, -⟩ := step_frame_driver ha h
    intro q c hc
    rw [hp] at hc
    cases hlk : s.lock with
    | none => simp [hl.idle_of_unlocked hlk q, ProducerPc.targets] at hc
    | some _ => exact (step_sessions_of_locked ha h (by simp [hlk])) ▸ ht q c hc

theorem TargetInv.of_reach {ok : Act → Bool} (h : Reach ok s) : TargetInv s := by
  induction h with
  | init m => exact TargetInv.init m
  | step a hr _ hs ih => exact ih.step (LockInv.of_reach hr) hs

/-! ### Closed channels -/

/-- A closed channel belongs to a stream that has returned. -/
def ClosedInv (s : Sys) : Prop := ∀ d, (s.chans d).closed = true → ∃ e, (s.drivers d).pc = .done e

theorem ClosedInv.init (m : Manager) : ClosedInv (Sys.init m) := fun _ h => by
  simp [Sys.init] at h

/-- Only the cleanup closes a stream's channel, and it ends the stream; a returned stream does not
move. -/
theorem closed_step_own {d : Nat} (hc : ClosedInv s) (ha : a.actor = .inr d)
    (h : step s a = some s') (h' : (s'.chans d).closed = true) :
    ∃ e, (s'.drivers d).pc = .done e := by
  cases a <;> simp only [Act.actor, Sum.inr.injEq, reduceCtorEq] at ha <;> subst ha <;>
    simp only [step] at h
  case register =>
    obtain ⟨-, -, rfl⟩ := Sys.register_eq h
    simp at h'
  case cleanup =>
    obtain ⟨e, -, -, rfl⟩ := Sys.cleanup_eq h
    exact ⟨e, by simp⟩
  case receive =>
    obtain ⟨u, -, hpc, rfl⟩ := Sys.receive_eq h
    obtain ⟨e, he⟩ := hc _ (by simpa using h')
    simp [he] at hpc
  case build =>
    obtain ⟨hpc, -, ⟨-, rfl⟩ | ⟨-, rfl⟩⟩ := Sys.build_eq h <;>
    · obtain ⟨e, he⟩ := hc _ (by simpa using h')
      simp [he] at hpc
  case push | timeout =>
    obtain ⟨res, t, hpc, rfl⟩ := Sys.pushOrTimeout_eq h
    obtain ⟨e, he⟩ := hc _ (by simpa using h')
    simp [he] at hpc
  all_goals
    obtain ⟨hpc, rfl⟩ := Sys.fromIdle_eq h
    obtain ⟨e, he⟩ := hc _ (by simpa using h')
    simp [he] at hpc

theorem ClosedInv.step (hc : ClosedInv s) (h : step s a = some s') : ClosedInv s' := by
  cases ha : a.actor with
  | inl p =>
    obtain ⟨hd, -, -, -, hch, -⟩ := step_frame_producer ha h
    intro d' h'
    rw [hd]
    exact hc d' ((hch d').symm.trans h')
  | inr d =>
    obtain ⟨-, -, -, -, hfr⟩ := step_frame_driver ha h
    intro d' h'
    by_cases hd : d' = d
    · subst hd
      exact closed_step_own hc ha h h'
    · obtain ⟨hdr, hch⟩ := hfr d' hd
      rw [hdr]
      exact hc d' (hch ▸ h')

theorem ClosedInv.of_reach {ok : Act → Bool} (h : Reach ok s) : ClosedInv s := by
  induction h with
  | init m => exact ClosedInv.init m
  | step a _ _ hs ih => exact ih.step hs

/-- **`notify` sends only on open channels, and a closed channel has no receiver.** In every state
that any interleaving of calls and streams reaches, every listed session's channel is open, every
session a producer in `notify` still has to send to is listed and open, and a closed channel
belongs to a stream that has returned, whose driver cannot receive from it. -/
theorem sessions_open_of_reach {ok : Act → Bool} (h : Reach ok s) :
    (∀ d ∈ s.m.sessions, (s.chans d).closed = false) ∧
      (∀ p, ∀ c ∈ (s.producers p).pc.targets, c ∈ s.m.sessions ∧ (s.chans c).closed = false) ∧
      ∀ d, (s.chans d).closed = true →
        (∃ e, (s.drivers d).pc = .done e) ∧ step s (.receive d) = none := by
  have hi := SessionInv.of_reach h
  refine ⟨hi.isOpen, fun p c hc => ?_, fun d hd => ?_⟩
  · have hm := TargetInv.of_reach h p c hc
    exact ⟨hm, hi.isOpen c hm⟩
  · obtain ⟨e, he⟩ := ClosedInv.of_reach h d hd
    refine ⟨⟨e, he⟩, ?_⟩
    cases hr : step s (.receive d) with
    | none => rfl
    | some s' =>
      obtain ⟨u, -, hpc, -⟩ := Sys.receive_eq hr
      simp [hpc] at he

/-- After a stream has returned and a call has started `notify`, the closed channel is not among
the ones `notify` sends to. -/
theorem sessions_open_after_cleanup :
    ∃ s, Reach (fun _ => true) s ∧ (s.chans 1).closed = true ∧
      (s.producers 0).pc.targets = [0] ∧ (s.chans 0).closed = false ∧
      step s (.receive 1) = none := by
  obtain ⟨s, hs, h⟩ := Reach.exists_of_run (fun _ => true) (newManager "v" "envoy.api.v2.Cluster")
    [.register 0, .register 1, .drain 1, .cleanup 1, .call 0 (.add [⟨"a", none, "1"⟩])]
    (fun s => decide ((s.chans 1).closed = true ∧ (s.producers 0).pc.targets = [0]))
    (by decide) (by decide)
  obtain ⟨h₁, h₂⟩ := of_decide_eq_true h
  obtain ⟨-, ht, hcl⟩ := sessions_open_of_reach hs
  exact ⟨s, hs, h₁, h₂, (ht 0 0 (by simp [h₂])).2, (hcl 1 h₁).2⟩

end Ekglue.Xds
