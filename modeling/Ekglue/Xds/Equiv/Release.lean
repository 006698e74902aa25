import Ekglue.Xds.Equiv.Sessions

/-!
# The lock holder can always return

The lock names a producer in a call (`HolderInv`), and at most one producer is in `notify` at a
time (`notify_exclusive`). That producer needs no other task to return: `notify`'s first loop
never blocks, since a full slot puts the session on the blocked list and every session still to
try has an open channel; its second loop gives up on the sessions left as soon as the call's
context is done. With the lock free, a stream needs no other task either to return: it leaves
`sendUpdate` by the timer or a failed build, takes the server's drain, and runs its deferred
cleanup. So a producer blocked on a full slot that only a stream waiting for the lock could empty
holds everything up exactly as long as the context of its call.

* `holder_blocked_only_on_full_slot`: in every reachable state, the producer holding the lock can
  take a turn of `notify` unless it waits in the second loop on a session whose slot is full.
* `lock_released_by_holder`: from every reachable state, the producer holding the manager's lock
  returns from its call and unlocks by its own steps once its context ends.
* `stream_can_return`: from every reachable state in which the lock holder's context has ended,
  every stream can return, by its own steps and those of that producer, with no `cancel`.
-/

namespace Ekglue.Xds

variable {s s' : Sys} {a : Act} {p : Nat}

theorem run_append (s : Sys) (as bs : List Act) :
    run s (as ++ bs) = (run s as).bind (run · bs) := by
  induction as generalizing s with
  | nil => rfl
  | cons a as ih => cases h : step s a <;> simp [run, h, ih]

/-! ### The lock names a producer in a call -/

/-- The producer named by the lock is in a call. -/
def HolderInv (s : Sys) : Prop := ∀ p, s.lock = some p → (s.producers p).pc ≠ .idle

/-- Setting producer `q`, who stays in a call if it holds the lock, keeps the invariant. -/
theorem HolderInv.setProducer (h : HolderInv s) (s₀ : Sys) (hlock : s₀.lock = s.lock)
    (hprod : s₀.producers = s.producers) {q : Nat} (pr : Producer)
    (hpr : s.lock = some q → pr.pc ≠ .idle) : HolderInv (s₀.setProducer q pr) := by
  intro p hp
  rw [Sys.setProducer_lock, hlock] at hp
  by_cases hpq : p = q
  · subst hpq; simpa using hpr hp
  · simpa [Function.update_noteq hpq, hprod] using h p hp

theorem HolderInv.step (h : HolderInv s) (hs : step s a = some s') : HolderInv s' := by
  cases ha : a.actor with
  | inr d =>
    obtain ⟨hp, hlk, -⟩ := step_frame_driver ha hs
    intro p
    rw [hp, hlk]
    exact h p
  | inl q =>
    cases a <;> simp only [Act.actor, Sum.inl.injEq, reduceCtorEq] at ha <;> subst ha <;>
      simp only [step] at hs
    case call op =>
      obtain ⟨-, ⟨-, rfl⟩ | ⟨-, hfree, rfl⟩⟩ := Sys.call_eq hs
      · exact h
      · intro p hp
        cases hu : (s.m.apply op).update with
        | none => simp [Sys.runLocked, hu, hfree] at hp
        | some u =>
          simp only [Sys.runLocked, hu, Sys.setProducer_lock, Option.some.injEq] at hp ⊢
          subst hp
          simp
    case trySend =>
      obtain ⟨u, c, todo, blocked, -, -, ⟨-, rfl⟩ | ⟨-, rfl⟩⟩ | ⟨u, blocked, -, rfl⟩ :=
        Sys.trySend_eq hs <;> exact h.setProducer _ rfl rfl _ fun _ => by simp
    case waitSend =>
      obtain ⟨u, c, blocked, -, -, -, rfl⟩ | ⟨u, -, rfl⟩ := Sys.waitSend_eq hs
      · exact h.setProducer _ rfl rfl _ fun _ => by simp
      · intro p hp; simp at hp
    case abandon =>
      obtain ⟨u, c, blocked, -, -, rfl⟩ := Sys.abandon_eq hs
      intro p hp; simp at hp
    case cancel =>
      cases hs
      exact h.setProducer _ rfl rfl _ fun hq => by simpa using h _ hq

theorem HolderInv.of_reach {ok : Act → Bool} (h : Reach ok s) : HolderInv s := by
  induction h with
  | init m => intro p hp; cases hp
  | step a _ _ hs ih => exact ih.step hs

/-- **One producer in `notify` at a time.** In every reachable state, the manager's lock is
held by a producer exactly when that producer is past the locked part of its call, so no two
producers are in `notify` at once, and with the lock free every producer is idle. -/
theorem notify_exclusive {ok : Act → Bool} (hs : Reach ok s) :
    (∀ p, s.lock = some p ↔ (s.producers p).pc ≠ .idle) ∧
      ∀ p q, (s.producers p).pc ≠ .idle → (s.producers q).pc ≠ .idle → p = q := by
  have hl := LockInv.of_reach hs
  refine ⟨fun p => ⟨HolderInv.of_reach hs p, hl p⟩, fun p q hp hq => ?_⟩
  exact Option.some.inj ((hl p hp).symm.trans (hl q hq))

/-- **`notify` blocks only on a full slot.** In every reachable state, the producer holding the
manager's lock can take a turn of `notify`, unless it is in the second loop waiting on a session
whose slot is still full: the first loop never blocks and sends only on open channels. -/
theorem holder_blocked_only_on_full_slot {ok : Act → Bool} (hs : Reach ok s)
    (hlk : s.lock = some p) :
    (step s (.trySend p)).isSome ∨ (step s (.waitSend p)).isSome ∨
      ∃ u c blocked, (s.producers p).pc = .waiting u (c :: blocked) ∧ (s.chans c).slot.isSome := by
  have hopen : ∀ c ∈ (s.producers p).pc.targets, (s.chans c).closed = false := fun c hc =>
    (SessionInv.of_reach hs).isOpen c (TargetInv.of_reach hs p c hc)
  cases h : (s.producers p).pc with
  | idle => exact absurd h (HolderInv.of_reach hs p hlk)
  | trying u todo blocked =>
    cases todo with
    | nil => exact .inl (by simp [step, Sys.trySend, h])
    | cons c todo =>
      have hc := hopen c (by simp [h, ProducerPc.targets])
      cases hslot : (s.chans c).slot <;> exact .inl (by simp [step, Sys.trySend, h, hc, hslot])
  | waiting u blocked =>
    cases blocked with
    | nil => exact .inr (.inl (by simp [step, Sys.waitSend, h]))
    | cons c blocked =>
      cases hslot : (s.chans c).slot with
      | some _ => exact .inr (.inr ⟨u, c, blocked, rfl, by simp [hslot]⟩)
      | none =>
        have hc := hopen c (by simp [h, ProducerPc.targets])
        exact .inr (.inl (by simp [step, Sys.waitSend, h, hc, hslot]))

/-- The producer of a second `Add` on a full slot: blocked on that slot, and only there. -/
theorem holder_blocked_in_deadlock :
    ∃ s, Reach (fun _ => true) s ∧ s.lock = some 0 ∧ step s (.trySend 0) = none ∧
      step s (.waitSend 0) = none ∧
      ∃ u c blocked, (s.producers 0).pc = .waiting u (c :: blocked) ∧ (s.chans c).slot.isSome := by
  obtain ⟨s, hs, h⟩ := Reach.exists_of_run (fun _ => true) (newManager "v" "envoy.api.v2.Cluster")
    [.register 0,
     .request 0 ⟨"n", some ["a"], "type.googleapis.com/envoy.api.v2.Cluster", "", none, ""⟩,
     .call 0 (.add [⟨"a", none, "1"⟩]), .trySend 0, .trySend 0, .waitSend 0,
     .call 0 (.add [⟨"a", none, "2"⟩]), .trySend 0, .trySend 0]
    (fun s => decide (s.lock = some 0 ∧ (step s (.trySend 0)).isNone ∧
      (step s (.waitSend 0)).isNone)) (by decide) (by decide)
  obtain ⟨hl, ht, hw⟩ := of_decide_eq_true h
  rcases holder_blocked_only_on_full_slot hs hl with ht' | hw' | hfull
  · simp [Option.isNone_iff_eq_none.1 ht] at ht'
  · simp [Option.isNone_iff_eq_none.1 hw] at hw'
  · exact ⟨s, hs, hl, Option.isNone_iff_eq_none.1 ht, Option.isNone_iff_eq_none.1 hw, hfull⟩

/-! ### The holder's own steps -/

/-- `notify`'s first loop runs to its end by `p`'s own turns over sessions with open channels:
a full slot puts the session on the blocked list. -/
theorem run_trySends {u : Update} (todo : List Nat) {blocked : List Nat}
    (hpc : (s.producers p).pc = .trying u todo blocked)
    (hopen : ∀ c ∈ todo, (s.chans c).closed = false) :
    ∃ s' blocked', run s (List.replicate (todo.length + 1) (.trySend p)) = some s' ∧
      s'.producers p = { s.producers p with pc := .waiting u blocked' } ∧ s'.lock = s.lock := by
  induction todo generalizing s blocked with
  | nil =>
    exact ⟨s.setProducer p { s.producers p with pc := .waiting u blocked }, blocked,
      by simp [run, step, Sys.trySend, hpc], by simp, rfl⟩
  | cons c todo ih =>
    have hc := hopen c (List.mem_cons_self _ _)
    /- One turn sends to `c` or puts it on the blocked list, and closes no channel. -/
    obtain ⟨s₁, b₁, hs₁, hp₁, hl₁, hch⟩ : ∃ s₁ b₁, step s (.trySend p) = some s₁ ∧
        s₁.producers p = { s.producers p with pc := .trying u todo b₁ } ∧ s₁.lock = s.lock ∧
        ∀ c', (s₁.chans c').closed = (s.chans c').closed := by
      cases hslot : (s.chans c).slot with
      | none =>
        refine ⟨(s.setChan c ⟨some u, false⟩).setProducer p
          { s.producers p with pc := .trying u todo blocked }, blocked,
          by simp [step, Sys.trySend, hpc, hc, hslot], by simp, rfl, fun c' => ?_⟩
        by_cases hc' : c' = c
        · subst hc'; simp [hc]
        · simp [Function.update_noteq hc']
      | some _ =>
        exact ⟨s.setProducer p { s.producers p with pc := .trying u todo (blocked ++ [c]) },
          blocked ++ [c], by simp [step, Sys.trySend, hpc, hc, hslot], by simp, rfl, fun _ => rfl⟩
    obtain ⟨s', b', hr, hp', hl'⟩ :=
      ih (by rw [hp₁]) fun c' hc' => (hch c').trans (hopen c' (List.mem_cons_of_mem _ hc'))
    exact ⟨s', b', by simp only [List.length_cons, List.replicate_succ, run, hs₁]; exact hr,
      by simp [hp', hp₁], hl'.trans hl₁⟩

/-- `notify`'s second loop returns and the call unlocks in one turn: with no blocked session left,
or on the context's end. -/
theorem step_leave {u : Update} {blocked : List Nat}
    (hpc : (s.producers p).pc = .waiting u blocked) (hdone : (s.producers p).ctxDone = true) :
    ∃ a s', a.actor = .inl p ∧ (∀ q, a ≠ .cancel q) ∧ step s a = some s' ∧ s'.lock = none ∧
      (s'.producers p).pc = .idle := by
  cases blocked with
  | nil =>
    exact ⟨.waitSend p, { s with lock := none }.setProducer p { s.producers p with pc := .idle },
      rfl, by simp, by simp [step, Sys.waitSend, hpc], rfl, by simp⟩
  | cons c blocked =>
    exact ⟨.abandon p, { s with lock := none }.setProducer p { s.producers p with pc := .idle },
      rfl, by simp, by simp [step, Sys.abandon, hpc, hdone], rfl, by simp⟩

/-- A producer in a call whose context has ended returns and unlocks by its own steps, none of them
a `cancel`: the rest of `notify`'s first loop over sessions with open channels, then one turn of
the second. -/
theorem run_release_of_done (hpc : (s.producers p).pc ≠ .idle)
    (hopen : ∀ c ∈ (s.producers p).pc.targets, (s.chans c).closed = false)
    (hdone : (s.producers p).ctxDone = true) :
    ∃ as s', (∀ a ∈ as, a.actor = .inl p ∧ ∀ q, a ≠ .cancel q) ∧ run s as = some s' ∧
      s'.lock = s.lock ∧ ∃ a s'', a.actor = .inl p ∧ (∀ q, a ≠ .cancel q) ∧
        step s' a = some s'' ∧ s''.lock = none ∧ (s''.producers p).pc = .idle := by
  obtain ⟨u, blocked, s₂, as, hact, hr, hp₂, hd₂, hl₂⟩ : ∃ u blocked s₂ as,
      (∀ a ∈ as, a.actor = .inl p ∧ ∀ q, a ≠ .cancel q) ∧ run s as = some s₂ ∧
        (s₂.producers p).pc = .waiting u blocked ∧ (s₂.producers p).ctxDone = true ∧
        s₂.lock = s.lock := by
    cases h : (s.producers p).pc with
    | idle => exact absurd h hpc
    | trying u todo blocked =>
      obtain ⟨s₂, b, hr, hp, hl⟩ := run_trySends todo h
        fun c hc => hopen c (by simp [ProducerPc.targets, h, hc])
      exact ⟨u, b, s₂, _, by simp [Act.actor], hr, by simp [hp], by simp [hp, hdone], hl⟩
    | waiting u blocked => exact ⟨u, blocked, s, [], by simp, rfl, h, hdone, rfl⟩
  exact ⟨as, s₂, hact, hr, hl₂, step_leave hp₂ hd₂⟩

/-- The producer holding the lock returns and unlocks by its own steps: the end of its context,
the rest of `notify`'s first loop, then one turn of the second. -/
theorem run_release (hh : HolderInv s) (ht : TargetInv s) (hi : SessionInv s)
    (hlk : s.lock = some p) :
    ∃ as s', (∀ a ∈ as, a.actor = .inl p) ∧ run s as = some s' ∧ s'.lock = none ∧
      (s'.producers p).pc = .idle := by
  let s₁ := s.setProducer p { s.producers p with ctxDone := true }
  obtain ⟨as, s₂, hact, hr, -, a, s', ha, -, h', hl', hp'⟩ :=
    run_release_of_done (s := s₁) (p := p)
    (by simpa [s₁] using hh p hlk) (fun c hc => hi.isOpen c (ht p c (by simpa [s₁] using hc)))
    (by simp [s₁])
  refine ⟨.cancel p :: as ++ [a], s', ?_, ?_, hl', hp'⟩
  · simpa [Act.actor, or_imp, forall_and] using ⟨fun a ha => (hact a ha).1, ha⟩
  · show (step s (.cancel p)).bind (run · (as ++ [a])) = some s'
    rw [show step s (.cancel p) = some s₁ from rfl, Option.some_bind, run_append, hr,
      Option.some_bind]
    simp [run, h']

/-- **The lock holder can always return.** In every reachable state, the producer holding the
manager's lock returns from its call and unlocks by its own steps once its context ends, whatever
the other producers and the streams are doing. -/
theorem lock_released_by_holder {ok : Act → Bool} (hs : Reach ok s) (hlk : s.lock = some p) :
    ∃ as s', (∀ a ∈ as, a.actor = .inl p) ∧ run s as = some s' ∧ s'.lock = none ∧
      (s'.producers p).pc = .idle :=
  run_release (HolderInv.of_reach hs) (TargetInv.of_reach hs) (SessionInv.of_reach hs) hlk

/-- A producer waiting on a full slot that only a driver waiting for the lock can empty still
returns and unlocks by its own steps. -/
theorem lock_released_in_deadlock :
    ∃ s, Reach (fun _ => true) s ∧ s.lock = some 0 ∧
      ∃ as s', (∀ a ∈ as, a.actor = .inl 0) ∧ run s as = some s' ∧ s'.lock = none ∧
        (s'.producers 0).pc = .idle := by
  obtain ⟨s, hs, h⟩ := Reach.exists_of_run (fun _ => true) (newManager "v" "envoy.api.v2.Cluster")
    [.register 0,
     .request 0 ⟨"n", some ["a"], "type.googleapis.com/envoy.api.v2.Cluster", "", none, ""⟩,
     .call 0 (.add [⟨"a", none, "1"⟩]), .trySend 0, .trySend 0, .waitSend 0,
     .call 0 (.add [⟨"a", none, "2"⟩]), .trySend 0, .trySend 0]
    (fun s => decide (s.lock = some 0)) (by decide) (by decide)
  have hl : s.lock = some 0 := of_decide_eq_true h
  exact ⟨s, hs, hl, lock_released_by_holder hs hl⟩

/-! ### A stream returns -/

/-- With the lock free, stream `d` returns by its own steps: out of `sendUpdate` by the timer or a
failed build, then the server's drain and the deferred cleanup. -/
theorem run_stream_return (hfree : s.lock = none) (d : Nat) :
    ∃ as e, (∀ a ∈ as, a.actor = .inr d) ∧
      (run s as).map (fun s' => (s'.drivers d).pc) = some (.done e) := by
  have drain : ∀ x : Sys, x.lock = none → (x.drivers d).pc = .idle →
      (run x [.drain d, .cleanup d]).map (fun s' => (s'.drivers d).pc) = some (.done .draining) :=
    fun x hx hpc => by simp [run, step, Sys.fromIdle, Sys.cleanup, hx, hpc]
  cases hpc : (s.drivers d).pc with
  | start =>
    refine ⟨[.register d, .drain d, .cleanup d], .draining, by simp [Act.actor], ?_⟩
    simpa [run, step, Sys.register, hpc, hfree] using
      drain (((({ s with m := { s.m with sessions := s.m.sessions.insert d } } : Sys).setChan d
        ⟨none, false⟩).setDriver d { s.drivers d with pc := .idle })) hfree (by simp)
  | idle => exact ⟨_, _, by simp [Act.actor], drain s hfree hpc⟩
  | building =>
    refine ⟨[.build d false ⟨[], true⟩ 0, .drain d, .cleanup d], .draining,
      by simp [Act.actor], ?_⟩
    simpa [run, step, Sys.build, hpc, hfree] using
      drain (s.setDriver d { s.drivers d with pc := .idle }) hfree (by simp)
  | pushing res t =>
    refine ⟨[.timeout d, .drain d, .cleanup d], .draining, by simp [Act.actor], ?_⟩
    simpa [run, step, Sys.pushOrTimeout, hpc] using
      drain (s.setDriver d ((s.drivers d).timedOut t)) hfree (by simp [Driver.timedOut])
  | exiting e =>
    exact ⟨[.cleanup d], e, by simp [Act.actor], by simp [run, step, Sys.cleanup, hpc, hfree]⟩
  | done e => exact ⟨[], e, by simp, by simp [run, hpc]⟩

/-- **Every stream can return once the lock holder's context has ended.** From every reachable
state in which the producer holding the manager's lock, if any, has had its call's context end,
every stream can return from `Stream` by its own steps and those of that producer, none of them a
`cancel`; no other task has to move. Without the end of that context the stream may stay blocked
for good (`deadlock_of_second_add`). -/
theorem stream_can_return {ok : Act → Bool} (hs : Reach ok s) (d : Nat)
    (hctx : ∀ p, s.lock = some p → (s.producers p).ctxDone = true) :
    ∃ as s' e, (∀ a ∈ as, (a.actor = .inr d ∨ ∃ p, s.lock = some p ∧ a.actor = .inl p) ∧
        ∀ q, a ≠ .cancel q) ∧ run s as = some s' ∧ (s'.drivers d).pc = .done e := by
  obtain ⟨as₁, s₁, hact₁, hr₁, hfree⟩ : ∃ as₁ s₁, (∀ a ∈ as₁, (∃ p, s.lock = some p ∧
      a.actor = .inl p) ∧ ∀ q, a ≠ .cancel q) ∧ run s as₁ = some s₁ ∧ s₁.lock = none := by
    cases hlk : s.lock with
    | none => exact ⟨[], s, by simp, rfl, hlk⟩
    | some p =>
      have hi := SessionInv.of_reach hs
      obtain ⟨as, s₂, hact, hr, hl₂, a, s', ha, hna, h', hl', -⟩ := run_release_of_done
        (HolderInv.of_reach hs p hlk) (fun c hc => hi.isOpen c (TargetInv.of_reach hs p c hc))
        (hctx p hlk)
      refine ⟨as ++ [a], s', ?_, by rw [run_append, hr, Option.some_bind]; simp [run, h'], hl'⟩
      simp only [List.mem_append, List.mem_singleton]
      rintro b (hb | rfl)
      · exact ⟨⟨p, rfl, (hact b hb).1⟩, (hact b hb).2⟩
      · exact ⟨⟨p, rfl, ha⟩, hna⟩
  obtain ⟨as₂, e, hact₂, hr₂⟩ := run_stream_return hfree d
  obtain ⟨s', hr', hd⟩ := Option.map_eq_some'.1 hr₂
  refine ⟨as₁ ++ as₂, s', e, ?_, by rw [run_append, hr₁, Option.some_bind, hr'], hd⟩
  simp only [List.mem_append]
  rintro a (ha | ha)
  · exact ⟨.inr (hact₁ a ha).1, (hact₁ a ha).2⟩
  · exact ⟨.inl (hact₂ a ha), fun q he => by simpa [he, Act.actor] using hact₂ a ha⟩

/-- In the deadlock of a second `Add` on a full slot, once the producer's context has ended, the
stream waiting to build can return. -/
theorem stream_can_return_in_deadlock :
    ∃ s, Reach (fun _ => true) s ∧ s.lock = some 0 ∧ (s.producers 0).ctxDone = true ∧
      (s.drivers 0).pc = .building ∧
      ∃ as s' e, (∀ a ∈ as, (a.actor = .inr 0 ∨ ∃ p, s.lock = some p ∧ a.actor = .inl p) ∧
          ∀ q, a ≠ .cancel q) ∧ run s as = some s' ∧ (s'.drivers 0).pc = .done e := by
  obtain ⟨s, hs, h⟩ := Reach.exists_of_run (fun _ => true) (newManager "v" "envoy.api.v2.Cluster")
    [.register 0,
     .request 0 ⟨"n", some ["a"], "type.googleapis.com/envoy.api.v2.Cluster", "", none, ""⟩,
     .call 0 (.add [⟨"a", none, "1"⟩]), .trySend 0, .trySend 0, .waitSend 0,
     .call 0 (.add [⟨"a", none, "2"⟩]), .trySend 0, .trySend 0, .cancel 0]
    (fun s => decide (s.lock = some 0 ∧ (s.producers 0).ctxDone = true ∧
      (s.drivers 0).pc = .building)) (by decide) (by decide)
  obtain ⟨hl, hd, hb⟩ := of_decide_eq_true h
  exact ⟨s, hs, hl, hd, hb, stream_can_return hs 0 fun p hp =>
    Option.some_inj.1 (hl.symm.trans hp) ▸ hd⟩

end Ekglue.Xds
