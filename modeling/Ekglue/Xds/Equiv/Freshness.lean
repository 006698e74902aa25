import Ekglue.Xds.Equiv.Sessions
import Ekglue.Xds.Equiv.Snapshot
import Ekglue.Xds.Equiv.Store

/-!
# No change to a subscribed resource is left without a rebuild

For every name `n` a live stream `d` subscribes to, either the snapshot `d` built last since it
latched its subscription agrees with the store on `n` (`Fresh`), or a rebuild is on its way
(`Pending`): an update naming `n` sits in `d`'s slot, or a producer in `notify` still owes `d`
one, or `d` is about to call `BuildDiscoveryResponse`. `FreshInv` holds in every state reachable
through `Act.keepsFresh` (`FreshInv.of_reach`), so once no producer is in `notify`, `d`'s slot is
empty and `d` waits in its loop, the snapshot agrees with the store on every subscribed name
(`snapshot_fresh_of_quiet`).

`Act.keepsFresh` asks that every `BuildDiscoveryResponse` succeed, and rules out two more things.
A `notify` that gives up on a blocked session when its context ends loses the rebuild it owed, by
design: the slot may hold an older update for other names, which the stream drops
(`stale_snapshot_of_abandon`). An `Add` that fails after storing part of its batch changes the
store without calling `notify`.
-/

namespace Ekglue.Xds

variable {s s' : Sys} {a : Act}

/-! ### The invariant -/

/-- Whether a driver is in its loop. -/
def Pc.live : Pc → Bool
  | .idle | .building | .pushing _ _ => true
  | _ => false

/-- A producer in `notify` still owes stream `d` an update naming `n`. -/
def ProducerPc.owes : ProducerPc → Nat → String → Prop
  | .idle, _, _ => False
  | .trying u todo blocked, d, n => (d ∈ todo ∨ d ∈ blocked) ∧ n ∈ u.resources
  | .waiting u blocked, d, n => d ∈ blocked ∧ n ∈ u.resources

/-- A channel holds an update naming `n`. -/
def Chan.holds (ch : Chan) (n : String) : Prop := ∃ u, ch.slot = some u ∧ n ∈ u.resources

/-- A rebuild for `n` is on its way to stream `d`. -/
def Pending (s : Sys) (d : Nat) (n : String) : Prop :=
  (s.chans d).holds n ∨ (∃ p, (s.producers p).pc.owes d n) ∨ (s.drivers d).pc = .building

/-- The snapshot stream `d` built last since it latched agrees with the store on `n`. -/
def Fresh (s : Sys) (d : Nat) (n : String) : Prop :=
  ∀ snap, (s.drivers d).snap = some snap → snap.lookup n = s.m.resources.lookup n

/-- The invariant at stream `d`: no snapshot before registration, and every name a live `d`
subscribes to is fresh or has a rebuild on its way. -/
def FreshAt (s : Sys) (d : Nat) : Prop :=
  ((s.drivers d).pc = .start → (s.drivers d).snap = none) ∧
  ∀ n, (s.drivers d).pc.live → covers (elems (s.drivers d).resources) n →
    Fresh s d n ∨ Pending s d n

/-- `FreshAt` at every stream. -/
def FreshInv (s : Sys) : Prop := ∀ d, FreshAt s d

/-- The actions under which every change reaches a rebuild: `BuildDiscoveryResponse` succeeds, no
`notify` gives up on a blocked session, and no `Add` fails after storing part of its batch. -/
def Act.keepsFresh : Act → Bool
  | .build _ ok _ _ => ok
  | .abandon _ => false
  | .call _ (.add rs) => (validateAll rs).isNone || (rs.takeWhile isValid).isEmpty
  | _ => true

theorem FreshInv.init (m : Manager) : FreshInv (Sys.init m) :=
  fun _ => ⟨fun _ => rfl, fun _ h => by simp [Sys.init, Driver.init, Pc.live] at h⟩

/-! ### Moving the pending rebuild -/

theorem Pending.setProducer {p d : Nat} {n : String} {pr : Producer}
    (h : (s.producers p).pc.owes d n → pr.pc.owes d n) (hp : Pending s d n) :
    Pending (s.setProducer p pr) d n := by
  rcases hp with hc | ⟨q, hq⟩ | hb
  · exact .inl hc
  · refine .inr (.inl ⟨q, ?_⟩)
    by_cases hqp : q = p
    · subst hqp; simpa using h hq
    · simpa [Function.update_noteq hqp] using hq
  · exact .inr (.inr hb)

/-- A producer that fills session `c`'s empty slot hands over what it owed `c`. -/
theorem Pending.fill {p c d : Nat} {n : String} {u : Update} {pr : Producer}
    (hslot : (s.chans c).slot = none)
    (h : (s.producers p).pc.owes d n → pr.pc.owes d n ∨ d = c ∧ n ∈ u.resources)
    (hp : Pending s d n) : Pending ((s.setChan c ⟨some u, false⟩).setProducer p pr) d n := by
  by_cases hdc : d = c
  · subst hdc
    rcases hp with ⟨v, hv, -⟩ | ⟨q, hq⟩ | hb
    · simp [hslot] at hv
    · by_cases hqp : q = p
      · subst hqp
        rcases h hq with h' | ⟨-, hn⟩
        · exact .inr (.inl ⟨q, by simpa using h'⟩)
        · exact .inl ⟨u, by simp, hn⟩
      · exact .inr (.inl ⟨q, by simpa [Function.update_noteq hqp] using hq⟩)
    · exact .inr (.inr hb)
  · have hp' : Pending (s.setChan c ⟨some u, false⟩) d n := by
      simpa [Pending, Function.update_noteq hdc] using hp
    refine hp'.setProducer fun hq => ?_
    simpa [hdc] using h hq

/-! ### Steps that keep a stream's snapshot -/

theorem FreshAt.of_pending {d : Nat} (hf : FreshAt s d) (hd : s'.drivers d = s.drivers d)
    (hm : s'.m.resources = s.m.resources) (hp : ∀ n, Pending s d n → Pending s' d n) :
    FreshAt s' d := by
  refine ⟨fun h => hd ▸ hf.1 (hd ▸ h), fun n hl hn => ?_⟩
  rw [hd] at hl hn
  rcases hf.2 n hl hn with hf' | hp'
  · exact .inl fun snap h => by rw [hm]; exact hf' snap (hd ▸ h)
  · exact .inr (hp n hp')

theorem FreshAt.of_building {d : Nat} {dr : Driver} (hb : dr.pc = .building) :
    FreshAt (s.setDriver d dr) d :=
  ⟨fun h => by simp [hb] at h, fun _ _ _ => .inr (.inr (.inr (by simp [hb])))⟩

theorem FreshAt.of_not_live {d : Nat} {dr : Driver} (hs : dr.pc ≠ .start)
    (hl : dr.pc.live = false) : FreshAt (s.setDriver d dr) d :=
  ⟨fun h => absurd (by simpa using h) hs, fun _ h => by simp [hl] at h⟩

theorem FreshAt.of_fresh {d : Nat} {dr : Driver} (hs : dr.pc ≠ .start)
    (hf : ∀ n, covers (elems dr.resources) n → ∀ snap, dr.snap = some snap →
      snap.lookup n = s.m.resources.lookup n) : FreshAt (s.setDriver d dr) d :=
  ⟨fun h => absurd (by simpa using h) hs, fun n _ hn => .inl fun snap h =>
    hf n (by simpa using hn) snap (by simpa using h)⟩

/-- A driver step that keeps the snapshot and the subscription, and leaves `building` only for
`building`, keeps the invariant at its stream. -/
theorem FreshAt.keep {d : Nat} {dr : Driver} (hf : FreshAt s d) (hs : dr.pc ≠ .start)
    (hsnap : dr.snap = (s.drivers d).snap) (hres : dr.resources = (s.drivers d).resources)
    (hlive : dr.pc.live → (s.drivers d).pc.live)
    (hb : (s.drivers d).pc = .building → dr.pc = .building) :
    FreshAt (s.setDriver d dr) d := by
  refine ⟨fun h => absurd (by simpa using h) hs, fun n hl hn => ?_⟩
  simp only [Sys.setDriver_drivers, Function.update_same] at hl hn
  rw [hres] at hn
  rcases hf.2 n (hlive hl) hn with hf' | hc | ho | hb'
  · exact .inl fun snap h => hf' snap (by simpa [hsnap] using h)
  · exact .inr (.inl hc)
  · exact .inr (.inr (.inl ho))
  · exact .inr (.inr (.inr (by simpa using hb hb')))

/-! ### Driver steps -/

/-- **A stream's own step** keeps the invariant at that stream. -/
theorem FreshAt.step_own {d : Nat} (hf : FreshAt s d) (ha : a.actor = .inr d)
    (hok : a.keepsFresh = true) (h : step s a = some s') : FreshAt s' d := by
  cases a <;> simp only [Act.actor, Sum.inr.injEq, reduceCtorEq] at ha <;> subst ha <;>
    simp only [step] at h
  case register d =>
    obtain ⟨hpc, -, rfl⟩ := Sys.register_eq h
    exact FreshAt.of_fresh (by simp) fun n _ snap h => by simp [hf.1 hpc] at h
  case drain d | streamDone d | requestsClosed d =>
    obtain ⟨-, rfl⟩ := Sys.fromIdle_eq h
    exact FreshAt.of_not_live (by simp) (by simp [Pc.live])
  case tick d now =>
    obtain ⟨hpc, rfl⟩ := Sys.fromIdle_eq h
    obtain ⟨f, t, h'⟩ := Driver.onTick_eq (s.drivers d) now
    rw [h']
    exact hf.keep (by simp [hpc]) rfl rfl id (by simp [hpc])
  case request d req =>
    obtain ⟨hpc, rfl⟩ := Sys.fromIdle_eq h
    rcases Driver.onRequest_pc (s.drivers d) s.m.type s.m.onAck req with ⟨e, h'⟩ | h' | h'
    · exact FreshAt.of_not_live (by simp [h']) (by simp [h', Pc.live])
    · rcases Driver.onRequest_snap (s.drivers d) s.m.type s.m.onAck req with hs | ⟨hs, hr⟩
      · exact FreshAt.of_fresh (by simp [h', hpc]) fun n _ snap h => by simp [hs] at h
      · exact hf.keep (by simp [h', hpc]) hs hr (by simp [h']) (by simp [h'])
    · exact FreshAt.of_building h'
  case receive d =>
    obtain ⟨u, hslot, hpc, rfl⟩ := Sys.receive_eq h
    by_cases hb : ((s.drivers d).onUpdate u).pc = .building
    · exact FreshAt.of_building hb
    obtain ⟨hne, hnm⟩ := Driver.not_mem_of_onUpdate _ _ hb
    rw [(Driver.onUpdate_eq _ _).resolve_right fun e => hb (by rw [e])]
    have h₀ : FreshAt (s.setChan d { s.chans d with slot := none }) d := by
      refine ⟨hf.1, fun n hl hn => ?_⟩
      rcases hf.2 n hl hn with hf' | ⟨v, hv, hnv⟩ | ho | hb'
      · exact .inl hf'
      · rw [hslot, Option.some.injEq] at hv
        subst hv
        exact absurd hnv (hnm n (hn.resolve_left hne))
      · exact .inr (.inr (.inl ho))
      · exact .inr (.inr (.inr hb'))
    exact h₀.keep (by simp [hpc]) rfl rfl id id
  case build d ok rnd now =>
    obtain ⟨hpc, -, ⟨-, rfl⟩ | ⟨rfl, -⟩⟩ := Sys.build_eq h
    · refine FreshAt.of_fresh (by simp [Driver.startTx]) fun n hn snap h => ?_
      simp only [Driver.startTx, Option.some.injEq] at hn h
      subst h
      exact lookup_buildDiscoveryResponse _ _ hn
    · simp [Act.keepsFresh] at hok
  case push d | timeout d =>
    obtain ⟨res, t, hpc, rfl⟩ := Sys.pushOrTimeout_eq h
    exact hf.keep (by simp [Driver.pushed, Driver.timedOut]) rfl rfl (by simp [hpc, Pc.live])
      (by simp [hpc])
  case cleanup d =>
    obtain ⟨e, -, -, rfl⟩ := Sys.cleanup_eq h
    exact FreshAt.of_not_live (by simp) (by simp [Pc.live])

/-- Another stream's step leaves the invariant at `d` alone. -/
theorem FreshAt.step_other {d d' : Nat} (hf : FreshAt s d) (ha : a.actor = .inr d')
    (hne : d ≠ d') (h : step s a = some s') : FreshAt s' d := by
  obtain ⟨hp, -, hm, -, hd⟩ := step_frame_driver ha h
  obtain ⟨hdd, hcd⟩ := hd d hne
  exact hf.of_pending hdd hm fun n hpd => by simpa [Pending, hp, hdd, hcd] using hpd

/-! ### Producer steps -/

/-- The names whose entry a call that `Act.keepsFresh` allows changes are in its update. -/
theorem lookup_apply_or_update {m : Manager} {p : Nat} {op : Op}
    (hok : (Act.call p op).keepsFresh = true) (htl : op.takesLock = true) (n : String) :
    (m.apply op).m.resources.lookup n = m.resources.lookup n ∨
      ∃ u, (m.apply op).update = some u ∧ n ∈ u.resources := by
  have of_ok : (m.apply op).err = none → (m.apply op).m.resources.lookup n =
      m.resources.lookup n ∨ ∃ u, (m.apply op).update = some u ∧ n ∈ u.resources := fun herr => by
    by_cases heq : (m.apply op).m.resources.lookup n = m.resources.lookup n
    · exact .inl heq
    · have hn := mem_published_of_lookup_ne herr heq
      unfold Outcome.published at hn
      split at hn
      · exact .inr ⟨_, ‹_›, hn⟩
      · cases hn
  cases op with
  | add rs =>
    cases hv : validateAll rs with
    | none => exact of_ok (by simp [Manager.apply, add_of_validateAll_eq_none hv])
    | some e =>
      have ht : rs.takeWhile isValid = [] := by
        simpa [Act.keepsFresh, hv, List.isEmpty_iff] using hok
      exact .inl (by simp [Manager.apply, add_of_validateAll_eq_some hv, ht])
  | replace rs =>
    have hv : validateAll rs = none := by simpa [Op.takesLock] using htl
    exact of_ok (by simp [Manager.apply, replace_of_validateAll_eq_none hv])
  | delete k =>
    exact of_ok (Manager.delete_err m k)

theorem FreshAt.runLocked {d p : Nat} {op : Op} (hl : LockInv s) (hss : SessionInv s)
    (hfree : s.lock = none) (hf : FreshAt s d)
    (hop : ∀ n, (s.m.apply op).m.resources.lookup n = s.m.resources.lookup n ∨
      ∃ u, (s.m.apply op).update = some u ∧ n ∈ u.resources) :
    FreshAt (s.runLocked p (s.m.apply op)) d := by
  refine ⟨fun h => by simpa using hf.1 (by simpa using h), fun n hlv hn => ?_⟩
  simp only [Sys.runLocked_drivers] at hlv hn
  rcases hop n with heq | ⟨u, hu, hnu⟩
  · rcases hf.2 n hlv hn with hf' | hc | ⟨q, hq⟩ | hb
    · exact .inl fun snap h => by
        rw [Sys.runLocked_m, heq]; exact hf' snap (by simpa using h)
    · exact .inr (.inl (by simpa using hc))
    · simp [hl.idle_of_unlocked hfree q, ProducerPc.owes] at hq
    · exact .inr (.inr (.inr (by simpa using hb)))
  · have hmem : d ∈ (s.m.apply op).m.sessions := by
      rw [Manager.apply_sessions, hss.mem_iff]
      revert hlv; cases (s.drivers d).pc <;> simp [Pc.live, Pc.registered]
    refine .inr (.inr (.inl ⟨p, ?_⟩))
    simp only [Sys.runLocked, hu, Sys.setProducer_producers, Function.update_same,
      ProducerPc.owes, List.not_mem_nil, or_false]
    exact ⟨hmem, hnu⟩

theorem FreshInv.step_producer {p : Nat} (hl : LockInv s) (hss : SessionInv s) (hf : FreshInv s)
    (ha : a.actor = .inl p) (hok : a.keepsFresh = true) (h : step s a = some s') : FreshInv s' := by
  cases a <;> simp only [Act.actor, Sum.inl.injEq, reduceCtorEq] at ha <;> subst ha <;>
    simp only [step] at h
  case call p op =>
    obtain ⟨-, ⟨-, rfl⟩ | ⟨htl, hfree, rfl⟩⟩ := Sys.call_eq h
    · exact hf
    · exact fun d => (hf d).runLocked hl hss hfree (lookup_apply_or_update hok htl)
  case trySend p =>
    obtain ⟨u, c, todo, blocked, hpc, -, ⟨hslot, rfl⟩ | ⟨-, rfl⟩⟩ | ⟨u, blocked, hpc, rfl⟩ :=
      Sys.trySend_eq h
    · refine fun d => (hf d).of_pending rfl rfl fun n hp => hp.fill hslot fun ho => ?_
      simp only [hpc, ProducerPc.owes, List.mem_cons] at ho ⊢
      obtain ⟨(rfl | hd) | hd, hn⟩ := ho
      exacts [.inr ⟨rfl, hn⟩, .inl ⟨.inl hd, hn⟩, .inl ⟨.inr hd, hn⟩]
    · refine fun d => (hf d).of_pending rfl rfl fun n hp => hp.setProducer fun ho => ?_
      simp only [hpc, ProducerPc.owes, List.mem_cons, List.mem_append, List.mem_singleton] at ho ⊢
      obtain ⟨(rfl | hd) | hd, hn⟩ := ho
      exacts [⟨.inr (.inr (.inl rfl)), hn⟩, ⟨.inl hd, hn⟩, ⟨.inr (.inl hd), hn⟩]
    · refine fun d => (hf d).of_pending rfl rfl fun n hp => hp.setProducer fun ho => ?_
      simpa [hpc, ProducerPc.owes] using ho
  case waitSend p =>
    obtain ⟨u, c, blocked, hpc, -, hslot, rfl⟩ | ⟨u, hpc, rfl⟩ := Sys.waitSend_eq h
    · refine fun d => (hf d).of_pending rfl rfl fun n hp => hp.fill hslot fun ho => ?_
      simp only [hpc, ProducerPc.owes, List.mem_cons] at ho ⊢
      obtain ⟨rfl | hd, hn⟩ := ho
      exacts [.inr ⟨rfl, hn⟩, .inl ⟨hd, hn⟩]
    · refine fun d => (hf d).of_pending rfl rfl fun n hp =>
        Pending.setProducer (s := { s with lock := none }) (fun ho => ?_) hp
      simp [hpc, ProducerPc.owes] at ho
  case abandon => simp [Act.keepsFresh] at hok
  case cancel p =>
    cases h
    exact fun d => (hf d).of_pending rfl rfl fun n hp => hp.setProducer id

theorem FreshInv.step (hl : LockInv s) (hss : SessionInv s) (hf : FreshInv s)
    (hok : a.keepsFresh = true) (h : step s a = some s') : FreshInv s' := by
  cases ha : a.actor with
  | inl p => exact hf.step_producer hl hss ha hok h
  | inr d' =>
    intro d
    by_cases hd : d = d'
    · subst hd; exact (hf d).step_own ha hok h
    · exact (hf d).step_other ha hd h

theorem FreshInv.of_reach (h : Reach Act.keepsFresh s) : FreshInv s := by
  induction h with
  | init m => exact FreshInv.init m
  | step a hr hok hs ih => exact ih.step (LockInv.of_reach hr) (SessionInv.of_reach hr) hok hs

/-! ### Quiet streams -/

/-- **A quiet stream is fresh.** In a state reached through `Act.keepsFresh`, once no producer is
in `notify`, stream `d`'s slot is empty and `d` waits in its loop, the snapshot `d` built last
since it latched agrees with the store on every name its subscription covers. -/
theorem snapshot_fresh_of_quiet (hs : Reach Act.keepsFresh s) {d : Nat}
    (hp : ∀ p, (s.producers p).pc = .idle) (hslot : (s.chans d).slot = none)
    (hidle : (s.drivers d).pc = .idle) {snap : List (String × Resource)}
    (hsnap : (s.drivers d).snap = some snap) {n : String}
    (hn : covers (elems (s.drivers d).resources) n) :
    snap.lookup n = s.m.resources.lookup n := by
  rcases (FreshInv.of_reach hs d).2 n (by simp [hidle, Pc.live]) hn with
    hf | ⟨u, hu, -⟩ | ⟨q, hq⟩ | hb
  · exact hf snap hsnap
  · simp [hslot] at hu
  · simp [hp q, ProducerPc.owes] at hq
  · simp [hidle] at hb

/-- Whether stream `0` is quiet with a snapshot, and `"a"` is covered: the lock is free, the slot
empty, the driver in its loop. -/
def quietOnA (s : Sys) : Bool :=
  s.lock == none && (s.chans 0).slot == none && (s.drivers 0).pc == .idle &&
    (s.drivers 0).snap.isSome && decide (covers (elems (s.drivers 0).resources) "a")

theorem quiet_of_quietOnA {ok : Act → Bool} (hs : Reach ok s) (h : quietOnA s = true) :
    (∀ p, (s.producers p).pc = .idle) ∧ (s.chans 0).slot = none ∧ (s.drivers 0).pc = .idle ∧
      (∃ snap, (s.drivers 0).snap = some snap) ∧ covers (elems (s.drivers 0).resources) "a" := by
  simp only [quietOnA, Bool.and_eq_true, beq_iff_eq, decide_eq_true_eq, Option.isSome_iff_exists]
    at h
  obtain ⟨⟨⟨⟨hl, hslot⟩, hidle⟩, hsnap⟩, hn⟩ := h
  exact ⟨(LockInv.of_reach hs).idle_of_unlocked hl, hslot, hidle, hsnap, hn⟩

/-- A stream subscribed to `"a"` that rebuilt after an `Add` of `"a"`. -/
theorem snapshot_fresh_of_quiet_after_add :
    ∃ s, Reach Act.keepsFresh s ∧ (∀ p, (s.producers p).pc = .idle) ∧ (s.chans 0).slot = none ∧
      (s.drivers 0).pc = .idle ∧ ∃ snap, (s.drivers 0).snap = some snap ∧
        covers (elems (s.drivers 0).resources) "a" ∧ snap.lookup "a" = s.m.resources.lookup "a" := by
  obtain ⟨s, hs, h⟩ := Reach.exists_of_run Act.keepsFresh (newManager "v" "envoy.api.v2.Cluster")
    [.register 0,
     .request 0 ⟨"n", some ["a"], "type.googleapis.com/envoy.api.v2.Cluster", "", none, ""⟩,
     .build 0 true ⟨[], true⟩ 0, .push 0,
     .call 0 (.add [⟨"a", none, "1"⟩]), .trySend 0, .trySend 0, .waitSend 0,
     .receive 0, .build 0 true ⟨[], true⟩ 1, .push 0] quietOnA (by decide) (by decide)
  obtain ⟨hp, hslot, hidle, ⟨snap, hsnap⟩, hn⟩ := quiet_of_quietOnA hs h
  exact ⟨s, hs, hp, hslot, hidle, snap, hsnap, hn,
    snapshot_fresh_of_quiet hs hp hslot hidle hsnap hn⟩

/-- The actions under which every `BuildDiscoveryResponse` succeeds. -/
def Act.buildsOk : Act → Bool
  | .build _ ok _ _ => ok
  | _ => true

/-- **A `notify` that gives up leaves a stale snapshot.** Stream `0` subscribes to `"a"`; an
`Add` of `"b"` fills its slot; an `Add` of `"a"` finds the slot full and gives up when its
context ends; the stream then takes the update for `"b"` and drops it. Everything is quiet, and
the snapshot still lacks `"a"`. -/
theorem stale_snapshot_of_abandon :
    ∃ s, Reach Act.buildsOk s ∧ (∀ p, (s.producers p).pc = .idle) ∧ (s.chans 0).slot = none ∧
      (s.drivers 0).pc = .idle ∧ ∃ snap, (s.drivers 0).snap = some snap ∧
        covers (elems (s.drivers 0).resources) "a" ∧ snap.lookup "a" ≠ s.m.resources.lookup "a" := by
  obtain ⟨s, hs, h⟩ := Reach.exists_of_run Act.buildsOk (newManager "v" "envoy.api.v2.Cluster")
    [.register 0,
     .request 0 ⟨"n", some ["a"], "type.googleapis.com/envoy.api.v2.Cluster", "", none, ""⟩,
     .build 0 true ⟨[], true⟩ 0, .push 0,
     .call 0 (.add [⟨"b", none, "1"⟩]), .trySend 0, .trySend 0, .waitSend 0,
     .call 0 (.add [⟨"a", none, "2"⟩]), .trySend 0, .trySend 0, .cancel 0, .abandon 0,
     .receive 0]
    (fun s => quietOnA s && (s.drivers 0).snap.any fun snap =>
      snap.lookup "a" != s.m.resources.lookup "a") (by decide) (by decide)
  rw [Bool.and_eq_true] at h
  obtain ⟨hp, hslot, hidle, ⟨snap, hsnap⟩, hn⟩ := quiet_of_quietOnA hs h.1
  have hne := h.2
  rw [hsnap] at hne
  exact ⟨s, hs, hp, hslot, hidle, snap, hsnap, hn, by simpa using hne⟩

end Ekglue.Xds
