import Ekglue.Xds.Equiv.Sessions
import Ekglue.Xds.Equiv.Store

/-!
# The lock held across a blocked send

`notify` keeps the manager's lock while it waits on a full slot, and a driver needs the same lock
to build a response and to clean up. `Deadlocked s p d` is the state where producer `p` waits in
`notify`'s second loop on stream `d`'s full slot with a live context while `d`'s driver waits
for the lock. Only the end of `p`'s context leaves it: every other step keeps it
(`Deadlocked.step`), so does every run without that step (`Deadlocked.of_run`), and nothing that
needs the lock is enabled there (`step_eq_none_of_locked`). Two `Add` calls reach it with no
context cancelled (`deadlock_of_second_add`).

When the context does end there, `notify` gives up and returns `ctx.Err()`, but `Add` and
`Replace` drop that error: a call of a valid batch returns `nil` after it
(`notify_err_dropped`).
-/

namespace Ekglue.Xds

/-- The session a producer waits on in `notify`'s second loop. -/
def ProducerPc.waitsOn : ProducerPc → Option Nat
  | .waiting _ (c :: _) => some c
  | _ => none

/-- Whether a driver waits for the lock: in `BuildDiscoveryResponse` or in the deferred cleanup. -/
def Pc.needsLock : Pc → Bool
  | .building | .exiting _ => true
  | _ => false

/-- Whether an action has to take the lock: a call that locks, a registration, a build, a
cleanup. -/
def Act.needsFreeLock : Act → Bool
  | .call _ op => op.takesLock
  | .register _ | .build .. | .cleanup _ => true
  | _ => false

/-- Producer `p` holds the lock, waiting on stream `d`'s full slot with a live context, while
`d`'s driver waits for the lock. -/
structure Deadlocked (s : Sys) (p d : Nat) : Prop where
  /-- `p` holds the lock. -/
  locked : s.lock = some p
  /-- `p` waits on `d` in `notify`'s second loop. -/
  waits : (s.producers p).pc.waitsOn = some d
  /-- `d`'s slot is full. -/
  full : (s.chans d).slot.isSome
  /-- `p`'s context is live. -/
  live : (s.producers p).ctxDone = false
  /-- `d`'s driver waits for the lock. -/
  needsLock : (s.drivers d).pc.needsLock

instance (s : Sys) (p d : Nat) : Decidable (Deadlocked s p d) :=
  decidable_of_iff (s.lock = some p ∧ (s.producers p).pc.waitsOn = some d ∧
      (s.chans d).slot.isSome ∧ (s.producers p).ctxDone = false ∧ (s.drivers d).pc.needsLock)
    ⟨fun ⟨h₁, h₂, h₃, h₄, h₅⟩ => ⟨h₁, h₂, h₃, h₄, h₅⟩,
      fun ⟨h₁, h₂, h₃, h₄, h₅⟩ => ⟨h₁, h₂, h₃, h₄, h₅⟩⟩

variable {s s' : Sys} {p d : Nat} {a : Act}

/-- **Nothing that needs the lock moves while it is held.** -/
theorem step_eq_none_of_locked (hlk : s.lock ≠ none) (ha : a.needsFreeLock) : step s a = none := by
  cases a <;> simp only [Act.needsFreeLock, reduceCtorEq] at ha
  case call p op =>
    simp only [step, Sys.call, ha, hlk]
    split_ifs <;> simp_all
  case register => simp [step, Sys.register, hlk]
  case build => simp [step, Sys.build, hlk]
  case cleanup =>
    simp only [step, Sys.cleanup]
    split <;> simp [hlk]

/-- Stream `d`'s driver cannot move: it waits for the lock. -/
theorem Deadlocked.driver_blocked (hd : Deadlocked s p d) (ha : a.actor = .inr d) (s' : Sys) :
    step s a ≠ some s' := by
  intro h
  have hn := hd.needsLock
  have hlk := hd.locked
  cases a <;> simp only [Act.actor, Sum.inr.injEq, reduceCtorEq] at ha <;> subst ha <;>
    simp only [step] at h
  case register => simp [(Sys.register_eq h).2.1] at hlk
  case receive =>
    obtain ⟨u, -, hpc, -⟩ := Sys.receive_eq h
    simp [hpc, Pc.needsLock] at hn
  case build => simp [(Sys.build_eq h).2.1] at hlk
  case push | timeout =>
    obtain ⟨res, t, hpc, -⟩ := Sys.pushOrTimeout_eq h
    simp [hpc, Pc.needsLock] at hn
  case cleanup =>
    obtain ⟨e, -, hfree, -⟩ := Sys.cleanup_eq h
    simp [hfree] at hlk
  all_goals simp [(Sys.fromIdle_eq h).1, Pc.needsLock] at hn

/-- Producer `p` cannot move but by the end of its context: its send waits on the full slot. -/
theorem Deadlocked.producer_blocked (hd : Deadlocked s p d) (ha : a.actor = .inl p)
    (hc : a ≠ .cancel p) (s' : Sys) : step s a ≠ some s' := by
  intro h
  have hw := hd.waits
  cases a <;> simp only [Act.actor, Sum.inl.injEq, reduceCtorEq] at ha <;> subst ha <;>
    simp only [step] at h
  case call => simp [(Sys.call_eq h).1, ProducerPc.waitsOn] at hw
  case trySend =>
    obtain ⟨u, c, todo, blocked, hpc, -⟩ | ⟨u, blocked, hpc, -⟩ := Sys.trySend_eq h <;>
      simp [hpc, ProducerPc.waitsOn] at hw
  case waitSend =>
    obtain ⟨u, c, blocked, hpc, -, hslot, -⟩ | ⟨u, hpc, -⟩ := Sys.waitSend_eq h
    · simp only [hpc, ProducerPc.waitsOn, Option.some.injEq] at hw
      subst hw
      simpa [hslot] using hd.full
    · simp [hpc, ProducerPc.waitsOn] at hw
  case abandon =>
    obtain ⟨u, c, blocked, -, hdone, -⟩ := Sys.abandon_eq h
    simp [hd.live] at hdone
  case cancel => exact hc rfl

/-- Another producer's step leaves the lock and the channels alone: while `p` holds the lock it
is idle, and an idle producer either waits for the lock or returns at once. -/
theorem step_other_producer (hl : LockInv s) (hlk : s.lock = some p) {q : Nat} (hq : q ≠ p)
    (ha : a.actor = .inl q) (h : step s a = some s') : s'.lock = s.lock ∧ s'.chans = s.chans := by
  have busy : (s.producers q).pc ≠ .idle → False := fun hb =>
    hq (Option.some.inj ((hl q hb).symm.trans hlk))
  cases a <;> simp only [Act.actor, Sum.inl.injEq, reduceCtorEq] at ha <;> subst ha <;>
    simp only [step] at h
  case call =>
    obtain ⟨-, ⟨-, rfl⟩ | ⟨-, hfree, -⟩⟩ := Sys.call_eq h
    · exact ⟨rfl, rfl⟩
    · simp [hfree] at hlk
  case trySend =>
    obtain ⟨u, c, todo, blocked, hpc, -⟩ | ⟨u, blocked, hpc, -⟩ := Sys.trySend_eq h <;>
      exact (busy (by simp [hpc])).elim
  case waitSend =>
    obtain ⟨u, c, blocked, hpc, -⟩ | ⟨u, hpc, -⟩ := Sys.waitSend_eq h <;>
      exact (busy (by simp [hpc])).elim
  case abandon =>
    obtain ⟨u, c, blocked, hpc, -⟩ := Sys.abandon_eq h
    exact (busy (by simp [hpc])).elim
  case cancel => cases h; exact ⟨rfl, rfl⟩

/-- **Neither side can move.** Every step but the end of `p`'s context keeps the deadlock. -/
theorem Deadlocked.step (hd : Deadlocked s p d) (hl : LockInv s) (hc : a ≠ .cancel p)
    (h : step s a = some s') : Deadlocked s' p d := by
  cases ha : a.actor with
  | inr d' =>
    obtain ⟨hp, hlk, -, -, hfr⟩ := step_frame_driver ha h
    by_cases hd' : d = d'
    · subst hd'; exact absurd h (hd.driver_blocked ha s')
    · obtain ⟨hdr, hch⟩ := hfr d hd'
      exact ⟨hlk ▸ hd.locked, hp ▸ hd.waits, hch ▸ hd.full, hp ▸ hd.live, hdr ▸ hd.needsLock⟩
  | inl q =>
    by_cases hq : q = p
    · subst hq; exact absurd h (hd.producer_blocked ha hc s')
    · obtain ⟨hdr, -, -, -, -, hpr⟩ := step_frame_producer ha h
      obtain ⟨hlk, hch⟩ := step_other_producer hl hd.locked hq ha h
      have hp := hpr p (Ne.symm hq)
      exact ⟨hlk ▸ hd.locked, hp ▸ hd.waits, hch ▸ hd.full, hp ▸ hd.live, hdr ▸ hd.needsLock⟩

/-- Every run without the end of `p`'s context stays in the deadlock. -/
theorem Deadlocked.of_run (hd : Deadlocked s p d) (hl : LockInv s) {as : List Act}
    (hc : ∀ a ∈ as, a ≠ .cancel p) (h : run s as = some s') : Deadlocked s' p d := by
  induction as generalizing s with
  | nil => cases h; exact hd
  | cons a as ih =>
    simp only [run, Option.bind_eq_some] at h
    obtain ⟨s₁, h₁, h₂⟩ := h
    exact ih (hd.step hl (hc a (.head _)) h₁) (hl.step h₁) (fun b hb => hc b (.tail _ hb)) h₂

/-- Whether an action ends a producer's context. -/
def Act.cancels : Act → Bool
  | .cancel _ => true
  | _ => false

/-- **The deadlock is reachable with no context cancelled.** The driver takes a request while its
slot is empty and goes to build; a first `Add` fills the slot; a second `Add` takes the lock and
waits on the full slot. From there, whatever runs without cancelling the producer's context, both
stay where they are and nothing that needs the lock can move. -/
theorem deadlock_of_second_add :
    ∃ s, Reach (fun a => !a.cancels) s ∧ Deadlocked s 0 0 ∧
      ∀ as s', (∀ a ∈ as, a ≠ .cancel 0) → run s as = some s' →
        Deadlocked s' 0 0 ∧ ∀ a, a.needsFreeLock → step s' a = none := by
  obtain ⟨s, hs, h⟩ := Reach.exists_of_run (fun a => !a.cancels)
    (newManager "v" "envoy.api.v2.Cluster")
    [.register 0,
     .request 0 ⟨"n", some ["a"], "type.googleapis.com/envoy.api.v2.Cluster", "", none, ""⟩,
     .call 0 (.add [⟨"a", none, "1"⟩]), .trySend 0, .trySend 0, .waitSend 0,
     .call 0 (.add [⟨"a", none, "2"⟩]), .trySend 0, .trySend 0]
    (fun s => decide (Deadlocked s 0 0)) (by decide) (by decide)
  have hd : Deadlocked s 0 0 := of_decide_eq_true h
  refine ⟨s, hs, hd, fun as s' hc hr => ?_⟩
  have hd' := hd.of_run (LockInv.of_reach hs) hc hr
  exact ⟨hd', fun a ha => step_eq_none_of_locked (by simp [hd'.locked]) ha⟩

/-- **A cancelled `notify` is not reported.** For every manager a valid batch makes `Add` and
`Replace` return no error. And in a reachable state where stream `0`'s slot is full and its driver
waits to build, such a call takes the lock, finds the slot full in `notify`'s first loop and waits
on it in the second; its context ends, `notify` returns `ctx.Err()` (`abandon`), and the call
returns and unlocks with that error dropped. -/
theorem notify_err_dropped :
    (∀ (m : Manager) (rs : List Resource), validateAll rs = none →
      (m.add rs).err = none ∧ (m.replace rs).err = none) ∧
    ∃ s, Reach (fun _ => true) s ∧
      ∀ op ∈ [Op.add [⟨"a", none, "2"⟩], .replace [⟨"a", none, "2"⟩]],
        (run s [.call 0 op, .trySend 0, .trySend 0, .cancel 0, .abandon 0]).map
          (fun s' => ((s'.producers 0).pc, s'.lock)) = some (.idle, none) := by
  refine ⟨fun m rs h => ⟨(m.add_err rs).trans h, (m.replace_err rs).trans h⟩, ?_⟩
  obtain ⟨s, hs, h⟩ := Reach.exists_of_run (fun _ => true) (newManager "v" "envoy.api.v2.Cluster")
    [.register 0,
     .request 0 ⟨"n", some ["a"], "type.googleapis.com/envoy.api.v2.Cluster", "", none, ""⟩,
     .call 0 (.add [⟨"a", none, "1"⟩]), .trySend 0, .trySend 0, .waitSend 0]
    (fun s => decide (∀ op ∈ [Op.add [⟨"a", none, "2"⟩], .replace [⟨"a", none, "2"⟩]],
        (run s [.call 0 op, .trySend 0, .trySend 0, .cancel 0, .abandon 0]).map
          (fun s' => ((s'.producers 0).pc, s'.lock)) = some (.idle, none)))
    (by decide) (by decide)
  exact ⟨s, hs, of_decide_eq_true h⟩

end Ekglue.Xds
