import Ekglue.Xds.Equiv.Subscription

/-!
# In-flight transactions

`txs` holds a transaction for each response the stream enqueued on `resCh` and has not yet seen
acknowledged. Every driver of every reachable state keeps `TxsInv`: each transaction is keyed by
its own nonce, each key is the nonce of a response enqueued on `resCh` (a push that timed out
records nothing), and the transaction waiting to be pushed carries its response's nonce. The
transaction under a key changes only through a request that acknowledges it, a cleanup tick that
finds it stale, or a push whose response reuses the key as its nonce (`txs_change`). A request
that passes the subscription and type checks with a live nonce calls `OnAck` once when it is set,
finishes that transaction's span, and drops exactly that entry (`ack_of_live_nonce`); one that
fails either check ends the stream before its nonce is looked at
(`Driver.onRequest_of_failed_check`). `txs_of_reach` puts these together; with the wrong type URL
even a live nonce gets no `OnAck` (`live_nonce_wrong_type`).

Nonces are not unique among the live transactions: with `crypto/rand` failing, a response built
again at the same version gets the nonce of the one still live, its push overwrites that
transaction, and the overwritten span is never finished (`live_nonce_reused`).
-/

namespace Ekglue.Xds

/-! ### The cleanup loop -/

/-- The cleanup loop over `l` drops the keys that `l` holds with a stale transaction. -/
theorem Driver.lookup_foldl_dropIfStale (now : Nat) (k : String) (l : List (Σ _ : String, Tx))
    (d : Driver) : (l.foldl (Driver.dropIfStale now) d).txs.lookup k =
      if l.any (fun e => e.1 == k && decide (now - e.2.start > minute)) then none
      else d.txs.lookup k := by
  induction l generalizing d with
  | nil => simp
  | cons e l ih =>
    rw [List.foldl_cons, ih, List.any_cons]
    obtain ⟨k', t⟩ := e
    unfold Driver.dropIfStale
    by_cases hs : now - t.start > minute
    · rw [if_pos hs, decide_eq_true hs, Bool.and_true]
      by_cases hk : k' = k
      · subst hk; simp [AList.lookup_erase]
      · rw [beq_false_of_ne hk, Bool.false_or, AList.lookup_erase_ne (Ne.symm hk)]
    · rw [if_neg hs, decide_eq_false hs, Bool.and_false, Bool.false_or]

/-- **The cleanup tick drops exactly the stale transactions.** -/
theorem Driver.lookup_onTick (d : Driver) (now : Nat) (k : String) :
    (d.onTick now).txs.lookup k = (d.txs.lookup k).filter fun t => now - t.start ≤ minute := by
  unfold Driver.onTick
  rw [Driver.lookup_foldl_dropIfStale]
  cases h : d.txs.lookup k with
  | none => simp
  | some t =>
    have hany : d.txs.entries.any (fun e => e.1 == k && decide (now - e.2.start > minute)) =
        decide (now - t.start > minute) := by
      refine Bool.eq_iff_iff.2 ⟨fun ha => ?_, fun hs => ?_⟩
      · obtain ⟨⟨k', t'⟩, hm, he⟩ := List.any_eq_true.1 ha
        simp only [Bool.and_eq_true, beq_iff_eq, decide_eq_true_eq] at he
        obtain ⟨rfl, hst⟩ := he
        rw [← AList.mem_lookup_iff, h, Option.mem_def, Option.some.injEq] at hm
        simpa [hm] using hst
      · exact List.any_eq_true.2 ⟨⟨k, t⟩, AList.mem_lookup_iff.1 h, by simpa using hs⟩
    rw [hany, Option.filter_some]
    by_cases hs : now - t.start > minute
    · rw [decide_eq_true hs, decide_eq_false (Nat.not_le.2 hs)]; rfl
    · rw [decide_eq_false hs, decide_eq_true (Nat.le_of_not_lt hs)]; rfl

@[simp] theorem Driver.onTick_sent (d : Driver) (now : Nat) : (d.onTick now).sent = d.sent := by
  obtain ⟨f, t, h⟩ := Driver.onTick_eq d now
  rw [h]

@[simp] theorem Driver.onUpdate_sent (d : Driver) (u : Update) : (d.onUpdate u).sent = d.sent := by
  rcases Driver.onUpdate_eq d u with h | h <;> rw [h]

/-! ### One request -/

@[simp] theorem Driver.onRequest_sent (d : Driver) (type : String) (onAck : Bool)
    (req : DiscoveryRequest) : (d.onRequest type onAck req).sent = d.sent := by
  rcases Driver.onRequest_eq d type onAck req with
    ⟨-, h⟩ | ⟨-, -, h⟩ | ⟨-, -, t, -, h⟩ | ⟨-, -, -, h⟩ <;> simp [h, Driver.handleTx]

/-- A request touches `txs` only to drop the transaction its nonce names. -/
theorem Driver.onRequest_txs (d : Driver) (type : String) (onAck : Bool)
    (req : DiscoveryRequest) : (d.onRequest type onAck req).txs = d.txs ∨
      ∃ t, d.txs.lookup req.responseNonce = some t ∧
        (d.onRequest type onAck req).txs = d.txs.erase t.nonce := by
  rcases Driver.onRequest_eq d type onAck req with
    ⟨-, h⟩ | ⟨-, -, h⟩ | ⟨-, -, t, ht, h⟩ | ⟨-, -, -, h⟩
  · exact .inl (by simp [h])
  · exact .inl (by simp [h])
  · exact .inr ⟨t, ht, by simp [h, Driver.handleTx]⟩
  · exact .inl (by simp [h])

/-- **An acknowledgement.** A request that passes the subscription and type checks and names a
live nonce is handed to `handleTx` with that nonce's transaction. -/
theorem Driver.onRequest_of_live {d : Driver} {type : String} {onAck : Bool}
    {req : DiscoveryRequest} {t : Tx} (hsub : cmpEqual (d.latch req).resources req.resourceNames)
    (htype : req.typeUrl = type) (ht : d.txs.lookup req.responseNonce = some t) :
    d.onRequest type onAck req =
      ({ d.latch req with requests := d.requests + 1 } : Driver).handleTx onAck t req := by
  rcases Driver.onRequest_eq d type onAck req with
    ⟨h, -⟩ | ⟨-, h, -⟩ | ⟨-, -, t', ht', h⟩ | ⟨-, -, h, -⟩
  · simp [hsub] at h
  · exact absurd htype h
  · rw [h, Option.some.inj (ht'.symm.trans ht)]
  · simp [ht] at h

/-- A request that fails the subscription or the type check ends the stream, before its nonce is
looked at: no `OnAck`, and `txs` as it was. -/
theorem Driver.onRequest_of_failed_check {d : Driver} {type : String} {onAck : Bool}
    {req : DiscoveryRequest}
    (h : cmpEqual (d.latch req).resources req.resourceNames = false ∨ req.typeUrl ≠ type) :
    (∃ e, (d.onRequest type onAck req).pc = .exiting e) ∧
      (d.onRequest type onAck req).acks = d.acks ∧ (d.onRequest type onAck req).txs = d.txs := by
  rcases Driver.onRequest_eq d type onAck req with
    ⟨-, he⟩ | ⟨-, -, he⟩ | ⟨hc, ht, -⟩ | ⟨hc, ht, -⟩
  · simp [he]
  · simp [he]
  all_goals simp [hc, ht] at h

/-! ### The invariant -/

/-- The transactions a driver keeps. -/
structure TxsInv (d : Driver) : Prop where
  /-- Every transaction is keyed by its own nonce. -/
  keyed : ∀ k t, d.txs.lookup k = some t → t.nonce = k
  /-- Every key is the nonce of a response enqueued on `resCh`. -/
  sent : ∀ k ∈ d.txs, ∃ res ∈ d.sent, res.nonce = k
  /-- The transaction waiting to be pushed carries its response's nonce. -/
  pushing : ∀ res t, d.pc = .pushing res t → t.nonce = res.nonce

theorem TxsInv.init : TxsInv Driver.init where
  keyed := by simp [Driver.init]
  sent := by simp [Driver.init]
  pushing := by simp [Driver.init]

/-- A driver with some of another's transactions, the same log, and no new push to make keeps
the invariant. -/
theorem TxsInv.mono {x y : Driver} (h : TxsInv x)
    (hl : ∀ k t, y.txs.lookup k = some t → x.txs.lookup k = some t) (hs : y.sent = x.sent)
    (hp : ∀ res t, y.pc = .pushing res t → x.pc = .pushing res t) : TxsInv y where
  keyed k t hk := h.keyed k t (hl k t hk)
  sent k hk := by
    obtain ⟨t, ht⟩ := Option.isSome_iff_exists.1 (AList.lookup_isSome.2 hk)
    rw [hs]
    exact h.sent k (AList.lookup_isSome.1 (by simp [hl k t ht]))
  pushing res t he := h.pushing res t (hp res t he)

/-- Each of a driver's own steps keeps the invariant. -/
theorem Driver.Step.txsInv {x y : Driver} (hs : Driver.Step x y) (h : TxsInv x) : TxsInv y := by
  cases hs
  case move pc hpc => exact h.mono (fun _ _ => id) rfl fun res t he => absurd he (hpc res t)
  case tick now =>
    obtain ⟨f, t, he⟩ := Driver.onTick_eq x now
    refine h.mono (fun k t' hk => ?_) (by simp [he]) (by simp [he])
    rw [Driver.lookup_onTick, Option.filter_eq_some] at hk
    exact hk.1
  case request type onAck req =>
    refine h.mono (fun k t' hk => ?_) (by simp) fun res t' he => ?_
    · rcases Driver.onRequest_txs x type onAck req with hx | ⟨t, -, hx⟩
      · rwa [hx] at hk
      · rw [hx] at hk
        by_cases hkt : k = t.nonce
        · subst hkt; simp [AList.lookup_erase] at hk
        · rwa [AList.lookup_erase_ne hkt] at hk
    · rcases Driver.onRequest_pc x type onAck req with ⟨e, hx⟩ | hx | hx <;> rw [hx] at he <;>
        first | cases he | exact he
  case receive u =>
    rcases Driver.onUpdate_eq x u with he | he <;> rw [he]
    · exact h
    · exact h.mono (fun _ _ => id) rfl fun _ _ hp => by cases hp
  case build res names now =>
    exact ⟨h.keyed, h.sent, fun res' t' he => by
      simp only [Driver.startTx, Pc.pushing.injEq] at he
      obtain ⟨rfl, rfl⟩ := he
      rfl⟩
  case push res t hpc =>
    refine ⟨fun k t' hk => ?_, fun k hk => ?_, fun _ _ he => by cases he⟩
    · by_cases hkn : k = res.nonce
      · subst hkn
        simp only [Driver.pushed, AList.lookup_insert, Option.some.injEq] at hk
        exact hk ▸ h.pushing res t hpc
      · exact h.keyed k t' (by simpa [Driver.pushed, AList.lookup_insert_ne hkn] using hk)
    · simp only [Driver.pushed, AList.mem_insert] at hk
      rcases hk with rfl | hk
      · exact ⟨res, by simp [Driver.pushed], rfl⟩
      · obtain ⟨r, hr, hn⟩ := h.sent k hk
        exact ⟨r, by simp [Driver.pushed, hr], hn⟩
  case timeout res t hpc =>
    exact h.mono (fun _ _ => id) rfl fun _ _ hp => by cases hp
  case cleanup e =>
    exact h.mono (fun _ _ => id) rfl fun _ _ hp => by cases hp

/-! ### Along a run -/

variable {s s' : Sys} {a : Act} {d : Nat}

/-- A driver's own step changes the transaction under a key only as the acknowledgement of a
request naming it, at a cleanup tick that finds it stale, or by a push whose response has that key
as its nonce and puts its own transaction there. -/
theorem txs_change_own (hi : TxsInv (s.drivers d)) (ha : a.actor = .inr d)
    (h : step s a = some s') {k : String} {t : Tx} (hk : (s.drivers d).txs.lookup k = some t)
    (hk' : (s'.drivers d).txs.lookup k ≠ some t) :
    (∃ req, a = .request d req ∧ req.responseNonce = k) ∨
      (∃ now, a = .tick d now ∧ minute < now - t.start) ∨
      a = .push d ∧ ∃ res t', (s.drivers d).pc = .pushing res t' ∧ res.nonce = k ∧
        (s'.drivers d).txs.lookup k = some t' := by
  cases a <;> simp only [Act.actor, Sum.inr.injEq, reduceCtorEq] at ha <;> subst ha <;>
    simp only [step] at h
  case request d req =>
    obtain ⟨-, rfl⟩ := Sys.fromIdle_eq h
    simp only [Sys.setDriver_drivers, Function.update_same] at hk'
    rcases Driver.onRequest_txs (s.drivers d) s.m.type s.m.onAck req with hx | ⟨t₀, ht₀, hx⟩
    · exact absurd (hx ▸ hk) hk'
    · by_cases hkt : k = t₀.nonce
      · exact .inl ⟨req, rfl, (hi.keyed _ _ ht₀).symm.trans hkt.symm⟩
      · rw [hx, AList.lookup_erase_ne hkt] at hk'
        exact absurd hk hk'
  case tick d now =>
    obtain ⟨-, rfl⟩ := Sys.fromIdle_eq h
    simp only [Sys.setDriver_drivers, Function.update_same, Driver.lookup_onTick, hk] at hk'
    refine .inr (.inl ⟨now, rfl, Nat.lt_of_not_le fun hle => hk' ?_⟩)
    exact if_pos (decide_eq_true hle)
  case push d =>
    obtain ⟨res, t', hpc, rfl⟩ := Sys.pushOrTimeout_eq h
    by_cases hkn : k = res.nonce
    · subst hkn
      exact .inr (.inr ⟨rfl, res, t', hpc, rfl, by simp [Driver.pushed]⟩)
    · simp [Driver.pushed, AList.lookup_insert_ne hkn, hk] at hk'
  case register =>
    obtain ⟨-, -, rfl⟩ := Sys.register_eq h
    simp [hk] at hk'
  case receive d =>
    obtain ⟨u, -, -, rfl⟩ := Sys.receive_eq h
    rcases Driver.onUpdate_eq (s.drivers d) u with he | he <;> simp [he, hk] at hk'
  case build =>
    obtain ⟨-, -, ⟨-, rfl⟩ | ⟨-, rfl⟩⟩ := Sys.build_eq h <;> simp [Driver.startTx, hk] at hk'
  case timeout =>
    obtain ⟨res, t, -, rfl⟩ := Sys.pushOrTimeout_eq h
    simp [Driver.timedOut, hk] at hk'
  case cleanup =>
    obtain ⟨e, -, -, rfl⟩ := Sys.cleanup_eq h
    simp [Driver.finishAll, hk] at hk'
  all_goals
    obtain ⟨-, rfl⟩ := Sys.fromIdle_eq h
    simp [hk] at hk'

/-- **A transaction leaves `txs` only through an acknowledgement, the cleanup, or a push under its
nonce.** -/
theorem txs_change (hi : TxsInv (s.drivers d)) (h : step s a = some s') {k : String} {t : Tx}
    (hk : (s.drivers d).txs.lookup k = some t) (hk' : (s'.drivers d).txs.lookup k ≠ some t) :
    (∃ req, a = .request d req ∧ req.responseNonce = k) ∨
      (∃ now, a = .tick d now ∧ minute < now - t.start) ∨
      a = .push d ∧ ∃ res t', (s.drivers d).pc = .pushing res t' ∧ res.nonce = k ∧
        (s'.drivers d).txs.lookup k = some t' := by
  cases ha : a.actor with
  | inl p => exact absurd hk (by rwa [(step_frame_producer ha h).1] at hk')
  | inr d' =>
    by_cases hd : d = d'
    · subst hd; exact txs_change_own hi ha h hk hk'
    · exact absurd hk (by rwa [((step_frame_driver ha h).2.2.2.2 d hd).1] at hk')

/-- **An acknowledgement of a live nonce.** A request that passes the subscription and type
checks with a live nonce calls `OnAck` once when it is set, finishes that transaction's span, and
drops that transaction and no other. -/
theorem ack_of_live_nonce (hi : TxsInv (s.drivers d)) {req : DiscoveryRequest} {t : Tx}
    (h : step s (.request d req) = some s')
    (hsub : cmpEqual ((s.drivers d).latch req).resources req.resourceNames)
    (htype : req.typeUrl = s.m.type) (ht : (s.drivers d).txs.lookup req.responseNonce = some t) :
    (s'.drivers d).acks = (s.drivers d).acks ++
        (if s.m.onAck then [⟨((s.drivers d).latch req).node, req.versionInfo,
          req.errorDetail.isNone⟩] else []) ∧
      (s'.drivers d).finished = (s.drivers d).finished ++ [t.span] ∧
      (s'.drivers d).txs.lookup req.responseNonce = none ∧
      ∀ k, k ≠ req.responseNonce → (s'.drivers d).txs.lookup k = (s.drivers d).txs.lookup k := by
  obtain ⟨-, rfl⟩ := Sys.fromIdle_eq h
  simp only [Sys.setDriver_drivers, Function.update_same, Driver.onRequest_of_live hsub htype ht,
    Driver.handleTx, Driver.latch_txs, Driver.latch_acks, Driver.latch_finished, hi.keyed _ _ ht]
  exact ⟨by cases s.m.onAck <;> simp, trivial, AList.lookup_erase _ _,
    fun k hk => AList.lookup_erase_ne hk⟩

/-- **The transactions of every reachable stream.** Every driver keeps `TxsInv`; the transaction
under a key changes only through a request acknowledging it, a cleanup tick finding it stale, or a
push whose response reuses the key as its nonce and puts its own transaction there; a request
that passes the subscription and type checks with a live nonce calls `OnAck` once when it is set,
finishes that transaction's span, and drops that entry and no other; and a request that fails
either check ends the stream without calling `OnAck` and leaves `txs` as it was. -/
theorem txs_of_reach {ok : Act → Bool} (hs : Reach ok s) (d : Nat) :
    TxsInv (s.drivers d) ∧
    (∀ a s' k t, step s a = some s' → (s.drivers d).txs.lookup k = some t →
      (s'.drivers d).txs.lookup k ≠ some t →
      (∃ req, a = .request d req ∧ req.responseNonce = k) ∨
        (∃ now, a = .tick d now ∧ minute < now - t.start) ∨
        a = .push d ∧ ∃ res t', (s.drivers d).pc = .pushing res t' ∧ res.nonce = k ∧
          (s'.drivers d).txs.lookup k = some t') ∧
    (∀ req t s', step s (.request d req) = some s' →
      cmpEqual ((s.drivers d).latch req).resources req.resourceNames → req.typeUrl = s.m.type →
      (s.drivers d).txs.lookup req.responseNonce = some t →
      (s'.drivers d).acks = (s.drivers d).acks ++
          (if s.m.onAck then [⟨((s.drivers d).latch req).node, req.versionInfo,
            req.errorDetail.isNone⟩] else []) ∧
        (s'.drivers d).finished = (s.drivers d).finished ++ [t.span] ∧
        (s'.drivers d).txs.lookup req.responseNonce = none ∧
        ∀ k, k ≠ req.responseNonce →
          (s'.drivers d).txs.lookup k = (s.drivers d).txs.lookup k) ∧
    ∀ req s', step s (.request d req) = some s' →
      (cmpEqual ((s.drivers d).latch req).resources req.resourceNames = false ∨
        req.typeUrl ≠ s.m.type) →
      (∃ e, (s'.drivers d).pc = .exiting e) ∧ (s'.drivers d).acks = (s.drivers d).acks ∧
        (s'.drivers d).txs = (s.drivers d).txs := by
  have hi : TxsInv (s.drivers d) := Reach.driver (fun hs h => hs.txsInv h) TxsInv.init hs d
  refine ⟨hi, fun a s' k t h => txs_change hi h,
    fun req t s' h hsub htype ht => ack_of_live_nonce hi h hsub htype ht, fun req s' h hf => ?_⟩
  obtain ⟨-, rfl⟩ := Sys.fromIdle_eq h
  simpa using Driver.onRequest_of_failed_check hf

/-- A client acknowledges the first push of a clusters stream whose manager has `OnAck` set:
`OnAck` gets one event and the transaction is gone. -/
theorem txs_of_reach_on_ack :
    ∃ s s', Reach (fun _ => true) s ∧
      step s (.request 0 ⟨"n", none, "type.googleapis.com/envoy.api.v2.Cluster",
        "nonce-v0-xxxxxxxx", none, "v0"⟩) = some s' ∧
      (s'.drivers 0).acks = [⟨"n", "v0", true⟩] ∧
      (s'.drivers 0).txs.lookup "nonce-v0-xxxxxxxx" = none := by
  obtain ⟨s, hs, h⟩ := Reach.exists_of_run (fun _ => true)
    { newManager "v" "envoy.api.v2.Cluster" with onAck := true }
    [.register 0,
     .request 0 ⟨"n", none, "type.googleapis.com/envoy.api.v2.Cluster", "", none, ""⟩,
     .build 0 true ⟨[], true⟩ 0, .push 0]
    (fun s => decide ((s.drivers 0).txs.lookup "nonce-v0-xxxxxxxx" =
        some ⟨0, 0, "nonce-v0-xxxxxxxx", "v0"⟩ ∧
      cmpEqual (s.drivers 0).resources none ∧ (s.drivers 0).node = "n" ∧
      s.m.type = "type.googleapis.com/envoy.api.v2.Cluster" ∧ s.m.onAck = true ∧
      (s.drivers 0).acks = [] ∧
      (step s (.request 0 ⟨"n", none, "type.googleapis.com/envoy.api.v2.Cluster",
        "nonce-v0-xxxxxxxx", none, "v0"⟩)).isSome))
    (by decide) (by decide)
  obtain ⟨ht, hsub, hnode, htype, hon, hacks, hstep⟩ := of_decide_eq_true h
  obtain ⟨s', hs'⟩ := Option.isSome_iff_exists.1 hstep
  obtain ⟨ha, -, hn, -⟩ := (txs_of_reach hs 0).2.2.1 _ _ s' hs'
    (by simpa [Driver.latch_of_node, hnode] using hsub) htype.symm ht
  refine ⟨s, s', hs, hs', ?_, hn⟩
  simp [ha, hacks, hon, Driver.latch_of_node, hnode]

/-- **A live nonce with the wrong type URL.** The stream ends with `InvalidArgument` before the
nonce is looked at: `OnAck`, though set, gets nothing, and the transaction stays. -/
theorem live_nonce_wrong_type :
    ∃ s s', Reach (fun _ => true) s ∧ s.m.onAck = true ∧
      (s.drivers 0).txs.lookup "nonce-v0-xxxxxxxx" ≠ none ∧
      step s (.request 0 ⟨"n", none, "type.googleapis.com/envoy.api.v2.Listener",
        "nonce-v0-xxxxxxxx", none, "v0"⟩) = some s' ∧
      (s'.drivers 0).pc = .exiting .invalidArgument ∧
      (s'.drivers 0).acks = (s.drivers 0).acks ∧
      (s'.drivers 0).txs.lookup "nonce-v0-xxxxxxxx" ≠ none := by
  obtain ⟨s, hs, h⟩ := Reach.exists_of_run (fun _ => true)
    { newManager "v" "envoy.api.v2.Cluster" with onAck := true }
    [.register 0,
     .request 0 ⟨"n", none, "type.googleapis.com/envoy.api.v2.Cluster", "", none, ""⟩,
     .build 0 true ⟨[], true⟩ 0, .push 0]
    (fun s => decide (s.m.onAck = true ∧ (s.drivers 0).txs.lookup "nonce-v0-xxxxxxxx" ≠ none ∧
      (step s (.request 0 ⟨"n", none, "type.googleapis.com/envoy.api.v2.Listener",
        "nonce-v0-xxxxxxxx", none, "v0"⟩)).map (fun s' => ((s'.drivers 0).pc,
          (s'.drivers 0).acks, (s'.drivers 0).txs.lookup "nonce-v0-xxxxxxxx")) =
        some (.exiting .invalidArgument, (s.drivers 0).acks,
          (s.drivers 0).txs.lookup "nonce-v0-xxxxxxxx")))
    (by decide) (by decide)
  obtain ⟨hon, hlive, hstep⟩ := of_decide_eq_true h
  simp only [Option.map_eq_some', Prod.mk.injEq] at hstep
  obtain ⟨s', hs', hpc, hacks, htxs⟩ := hstep
  exact ⟨s, s', hs, hon, hlive, hs', hpc, hacks, htxs ▸ hlive⟩

/-! ### A repeated nonce -/

/-- **A live nonce is handed out again, and its span is lost.** With every read of `crypto/rand`
failing, `randomString` is `"xxxxxxxx"`. After the first push, a request with an unknown nonce
makes the stream build again at the same version, and the transaction it starts has the nonce of
the one still live in `txs`. Its push overwrites that transaction; when the stream then drains
and returns, it has started two spans and never finished span `0`. -/
theorem live_nonce_reused :
    ∃ s s', Reach (fun _ => true) s ∧
      (∃ res t, (s.drivers 0).pc = .pushing res t ∧
        (s.drivers 0).txs.lookup res.nonce = some ⟨0, 0, res.nonce, "v0"⟩) ∧
      run s [.push 0, .drain 0, .cleanup 0] = some s' ∧
      (s'.drivers 0).pc = .done .draining ∧ (s'.drivers 0).spans = 2 ∧
      0 ∉ (s'.drivers 0).finished := by
  obtain ⟨s, hs, h⟩ := Reach.exists_of_run (fun _ => true) (newManager "v" "envoy.api.v2.Cluster")
    [.register 0,
     .request 0 ⟨"n", none, "type.googleapis.com/envoy.api.v2.Cluster", "", none, ""⟩,
     .build 0 true ⟨[], true⟩ 0, .push 0,
     .request 0 ⟨"n", none, "type.googleapis.com/envoy.api.v2.Cluster", "bogus", none, ""⟩,
     .build 0 true ⟨[], true⟩ 1]
    (fun s => decide ((s.drivers 0).pc =
        .pushing ⟨"v0", "type.googleapis.com/envoy.api.v2.Cluster", [], "nonce-v0-xxxxxxxx"⟩
          ⟨1, 1, "nonce-v0-xxxxxxxx", "v0"⟩ ∧
      (s.drivers 0).txs.lookup "nonce-v0-xxxxxxxx" = some ⟨0, 0, "nonce-v0-xxxxxxxx", "v0"⟩ ∧
      (run s [.push 0, .drain 0, .cleanup 0]).map (fun s' =>
        ((s'.drivers 0).pc, (s'.drivers 0).spans, decide (0 ∈ (s'.drivers 0).finished))) =
        some (.done .draining, 2, false)))
    (by decide) (by decide)
  obtain ⟨hpc, hlive, hrun⟩ := of_decide_eq_true h
  simp only [Option.map_eq_some', Prod.mk.injEq, decide_eq_false_iff_not] at hrun
  obtain ⟨s', hr, hdone, hspans, hfin⟩ := hrun
  exact ⟨s, s', hs, ⟨_, _, hpc, hlive⟩, hr, hdone, hspans, hfin⟩

end Ekglue.Xds
