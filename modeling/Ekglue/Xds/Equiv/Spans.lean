import Ekglue.Xds.Equiv.Transactions

/-!
# What a stream counts: acknowledgements and spans

A transaction enters `txs` only when a push goes through, and leaves it when it is acknowledged,
found stale or overwritten. So the events passed to `OnAck` and the live transactions together
never outnumber the pushes (`AckInv`). Each transaction carries the span its `sendUpdate` started;
a span is finished when its transaction is acknowledged, found stale or timed out, or at the
stream's cleanup, and each of those takes it out of the spans still open (`SpanInv`). Only a
push under the nonce of a live transaction drops a span unfinished: as long as the pushes carry
distinct nonces, every span started is finished or still open (`Accounted`).

* `acks_le_pushes`: on every stream of every reachable state, the events passed to `OnAck` and
  the live transactions together never outnumber the pushed responses.
* `cleanup_tick_drops_stale`: the cleanup tick drops exactly the transactions more than a minute
  old, finishes exactly their spans, and changes nothing else.
* `spans_finished_once`: on every stream of every reachable state, no span has been finished
  twice, and only spans that were started have been finished.
* `spans_finished_on_return`: on a stream whose pushes carried distinct nonces, once the deferred
  cleanup has run, the spans finished are exactly the spans started, each once.
-/

namespace Ekglue.Xds

/-! ### Acknowledgements -/

/-- The acknowledgements and the live transactions of a stream never outnumber its pushes. -/
def AckInv (d : Driver) : Prop := d.acks.length + d.txs.keys.length ≤ d.sent.length

theorem AckInv.init : AckInv Driver.init := by
  simp [AckInv, Driver.init, AList.keys]

/-- The cleanup tick only drops transactions. -/
theorem Driver.onTick_keys_length (d : Driver) (now : Nat) :
    (d.onTick now).txs.keys.length ≤ d.txs.keys.length := by
  unfold Driver.onTick
  generalize d.txs.entries = l
  induction l generalizing d with
  | nil => exact le_rfl
  | cons e l ih =>
    refine (ih _).trans ?_
    unfold Driver.dropIfStale
    split_ifs
    · simpa only [AList.keys_erase] using List.length_erase_le _ _
    · exact le_rfl

/-- Each of a driver's own steps keeps the count: a push adds at most one live transaction, an
acknowledgement drops the one it names. -/
theorem Driver.Step.ackInv {x y : Driver} (hs : Driver.Step x y) (hi : TxsInv x)
    (h : AckInv x) : AckInv y := by
  unfold AckInv at h ⊢
  cases hs
  case move => exact h
  case tick now =>
    obtain ⟨f, t, he⟩ := Driver.onTick_eq x now
    have hk := Driver.onTick_keys_length x now
    rw [he] at hk ⊢
    exact (Nat.add_le_add_left hk _).trans h
  case request type onAck req =>
    rcases Driver.onRequest_eq x type onAck req with
      ⟨-, he⟩ | ⟨-, -, he⟩ | ⟨-, -, t, ht, he⟩ | ⟨-, -, -, he⟩ <;> rw [he]
    · simpa using h
    · simpa using h
    · have hmem : t.nonce ∈ x.txs.keys := by
        rw [hi.keyed _ _ ht, ← AList.mem_keys, ← AList.lookup_isSome, ht]; rfl
      have hpos := List.length_pos_of_mem hmem
      simp only [Driver.handleTx, Driver.latch_acks, Driver.latch_txs, Driver.latch_sent,
        AList.keys_erase, List.length_erase_of_mem hmem]
      split_ifs <;> simp <;> omega
    · simpa using h
  case receive u => rcases Driver.onUpdate_eq x u with he | he <;> rw [he] <;> exact h
  case build => exact h
  case push res t hpc =>
    simp only [Driver.pushed, AList.keys_insert, List.length_cons, List.length_append,
      List.length_singleton]
    have := List.length_erase_le res.nonce x.txs.keys
    omega
  case timeout => exact h
  case cleanup => exact h

/-- **`OnAck` events never outnumber the pushes.** On every stream of every reachable state, the
events passed to `OnAck` and the transactions still live together never outnumber the responses
the stream has pushed: a transaction is recorded only by a push, and an acknowledgement that
reaches `OnAck` drops the live transaction it names. -/
theorem acks_le_pushes {ok : Act → Bool} {s : Sys} (hs : Reach ok s) (d : Nat) :
    (s.drivers d).acks.length + (s.drivers d).txs.keys.length ≤ (s.drivers d).sent.length :=
  (Reach.driver (P := fun x => TxsInv x ∧ AckInv x)
    (fun hs h => ⟨hs.txsInv h.1, hs.ackInv h.1 h.2⟩) ⟨TxsInv.init, AckInv.init⟩ hs d).2

/-- A client that acknowledges the first push twice: `OnAck` is called once, and the second
acknowledgement, naming no live transaction, asks for the configuration again. -/
theorem acks_le_pushes_double_ack :
    ∃ s, Reach (fun _ => true) s ∧ (s.drivers 0).acks.length = 1 ∧
      (s.drivers 0).sent.length = 2 ∧
      (s.drivers 0).acks.length + (s.drivers 0).txs.keys.length ≤ (s.drivers 0).sent.length := by
  obtain ⟨s, hs, h⟩ := Reach.exists_of_run (fun _ => true)
    { newManager "v" "envoy.api.v2.Cluster" with onAck := true }
    [.register 0,
     .request 0 ⟨"n", none, "type.googleapis.com/envoy.api.v2.Cluster", "", none, ""⟩,
     .build 0 true ⟨[], true⟩ 0, .push 0,
     .request 0 ⟨"n", none, "type.googleapis.com/envoy.api.v2.Cluster", "nonce-v0-xxxxxxxx",
       none, "v0"⟩,
     .request 0 ⟨"n", none, "type.googleapis.com/envoy.api.v2.Cluster", "nonce-v0-xxxxxxxx",
       none, "v0"⟩,
     .build 0 true ⟨[], true⟩ 1, .push 0]
    (fun s => decide ((s.drivers 0).acks.length = 1 ∧ (s.drivers 0).sent.length = 2))
    (by decide) (by decide)
  obtain ⟨h₁, h₂⟩ := of_decide_eq_true h
  exact ⟨s, hs, h₁, h₂, acks_le_pushes hs 0⟩

/-! ### Spans -/

/-- Whether the deferred cleanup has run. -/
def Pc.isDone : Pc → Bool
  | .done _ => true
  | _ => false

/-- **A returned stream takes no action.** -/
theorem step_own_not_done {s s' : Sys} {a : Act} {d : Nat} (ha : a.actor = .inr d)
    (h : step s a = some s') : (s.drivers d).pc.isDone = false := by
  cases a <;> simp only [Act.actor, Sum.inr.injEq, reduceCtorEq] at ha <;> subst ha <;>
    simp only [step] at h
  case register => simp [(Sys.register_eq h).1, Pc.isDone]
  case receive =>
    obtain ⟨u, -, hpc, -⟩ := Sys.receive_eq h
    simp [hpc, Pc.isDone]
  case build => simp [(Sys.build_eq h).1, Pc.isDone]
  case push | timeout =>
    obtain ⟨res, t, hpc, -⟩ := Sys.pushOrTimeout_eq h
    simp [hpc, Pc.isDone]
  case cleanup =>
    obtain ⟨e, hpc, -⟩ := Sys.cleanup_eq h
    simp [hpc, Pc.isDone]
  all_goals simp [(Sys.fromIdle_eq h).1, Pc.isDone]

/-- A property that every driver's own steps keep while its stream runs holds of every driver of
every reachable state when it holds of `Driver.init`. -/
theorem Reach.driver_running {P : Driver → Prop}
    (hP : ∀ {x y}, Driver.Step x y → x.pc.isDone = false → P x → P y) (h0 : P Driver.init)
    {ok : Act → Bool} {s : Sys} (hs : Reach ok s) (d : Nat) : P (s.drivers d) := by
  induction hs with
  | init m => exact h0
  | step a _ _ h ih =>
    cases ha : a.actor with
    | inl p => rwa [(step_frame_producer ha h).1]
    | inr d' =>
      by_cases hd : d = d'
      · subst hd
        exact hP (step_driver_step ha h) (step_own_not_done ha h) ih
      · rwa [((step_frame_driver ha h).2.2.2.2 d hd).1]

/-- A driver's own step keeps its log of pushes, or appends to it. -/
theorem Driver.Step.sent_isPrefix {x y : Driver} (hs : Driver.Step x y) : x.sent <+: y.sent := by
  cases hs
  case push res t _ => exact List.prefix_append _ _
  all_goals simp [Driver.startTx, Driver.timedOut, Driver.finishAll]

@[simp] theorem Driver.latch_spans (d : Driver) (req : DiscoveryRequest) :
    (d.latch req).spans = d.spans := by
  unfold Driver.latch; split <;> rfl

/-- The cleanup loop finishes the spans of the stale transactions it ranges over, in order. -/
theorem Driver.finished_foldl_dropIfStale (now : Nat) (l : List (Σ _ : String, Tx))
    (d : Driver) : (l.foldl (Driver.dropIfStale now) d).finished =
      d.finished ++ (l.filter fun e => now - e.2.start > minute).map (·.2.span) := by
  induction l generalizing d with
  | nil => simp
  | cons e l ih =>
    rw [List.foldl_cons, ih]
    unfold Driver.dropIfStale
    split_ifs with hs <;> simp [hs]

/-- **The cleanup tick drops exactly the stale transactions and finishes exactly their spans.**
At time `now`, the loop over `txs` drops every transaction more than a minute old and keeps every
other, whatever it deletes as it ranges over the map; it finishes the spans of the dropped ones, in
the order it visits them, and changes nothing else of the stream. -/
theorem cleanup_tick_drops_stale (d : Driver) (now : Nat) :
    (∀ k, (d.onTick now).txs.lookup k = (d.txs.lookup k).filter fun t => now - t.start ≤ minute) ∧
    (d.onTick now).finished =
      d.finished ++ (d.txs.entries.filter fun e => now - e.2.start > minute).map (·.2.span) ∧
    ∃ f t, d.onTick now = { d with finished := f, txs := t } :=
  ⟨Driver.lookup_onTick d now, Driver.finished_foldl_dropIfStale now _ d, Driver.onTick_eq d now⟩

/-- Where a stream's spans are: none finished twice, each finished one started; while the stream
runs, each live transaction holds a started span of its own that is not finished, and the
transaction waiting to be pushed holds yet another. -/
structure SpanInv (d : Driver) : Prop where
  nodup : d.finished.Nodup
  finished_lt : ∀ n ∈ d.finished, n < d.spans
  live : d.pc.isDone = false → ∀ k t, d.txs.lookup k = some t →
    t.span < d.spans ∧ t.span ∉ d.finished
  live_inj : d.pc.isDone = false → ∀ k k' t t', d.txs.lookup k = some t →
    d.txs.lookup k' = some t' → t.span = t'.span → k = k'
  pending : ∀ res t, d.pc = .pushing res t →
    t.span < d.spans ∧ t.span ∉ d.finished ∧ ∀ k t', d.txs.lookup k = some t' → t'.span ≠ t.span

theorem SpanInv.init : SpanInv Driver.init where
  nodup := List.nodup_nil
  finished_lt := by simp [Driver.init]
  live := by simp [Driver.init]
  live_inj := by simp [Driver.init]
  pending := by simp [Driver.init]

section Finish

variable {x : Driver} (h : SpanInv x) (hd : x.pc.isDone = false) {l : List (Σ _ : String, Tx)}
include h hd

/-- Finishing the spans of some live transactions finishes none twice. -/
theorem SpanInv.nodup_finish (hl : l.Sublist x.txs.entries) :
    (x.finished ++ l.map (·.2.span)).Nodup := by
  have hmem : ∀ e ∈ l, x.txs.lookup e.1 = some e.2 := fun e he =>
    AList.mem_lookup_iff.2 (hl.subset he)
  refine List.nodup_append.2 ⟨h.nodup, ?_, ?_⟩
  · refine (x.txs.nodupKeys.nodup.sublist hl).map_on fun e he e' he' hs => ?_
    exact x.txs.nodupKeys.eq_of_fst_eq (hl.subset he) (hl.subset he')
      (h.live_inj hd _ _ _ _ (hmem e he) (hmem e' he') hs)
  · intro n hn hn'
    obtain ⟨e, he, rfl⟩ := List.mem_map.1 hn'
    exact (h.live hd _ _ (hmem e he)).2 hn

/-- ... and finishes only started spans. -/
theorem SpanInv.lt_finish (hl : l ⊆ x.txs.entries) :
    ∀ n ∈ x.finished ++ l.map (·.2.span), n < x.spans := by
  simp only [List.mem_append, List.mem_map]
  rintro n (hn | ⟨e, he, rfl⟩)
  · exact h.finished_lt n hn
  · exact (h.live hd _ _ (AList.mem_lookup_iff.2 (hl he))).1

/-- A step that finishes the spans of the live transactions it drops, and starts nothing, keeps
the invariant. -/
theorem SpanInv.drop {y : Driver} (hl : l.Sublist x.txs.entries)
    (hf : y.finished = x.finished ++ l.map (·.2.span)) (hn : y.spans = x.spans)
    (hk : ∀ k t, y.txs.lookup k = some t → x.txs.lookup k = some t ∧ ⟨k, t⟩ ∉ l)
    (hp : ∀ res t, y.pc = .pushing res t → x.pc = .pushing res t) : SpanInv y := by
  /- A span of `l` is a live span other than any span still live. -/
  have hother : ∀ k t, y.txs.lookup k = some t → t.span ∉ l.map (·.2.span) := by
    intro k t hy hm
    obtain ⟨e, he, hs⟩ := List.mem_map.1 hm
    obtain ⟨hk, hkl⟩ := hk k t hy
    have he' : x.txs.lookup e.1 = some e.2 := AList.mem_lookup_iff.2 (hl.subset he)
    obtain rfl := h.live_inj hd _ _ _ _ hk he' hs.symm
    obtain rfl : t = e.2 := Option.some_inj.1 (hk.symm.trans he')
    exact hkl he
  refine ⟨hf ▸ h.nodup_finish hd hl, hf ▸ hn ▸ h.lt_finish hd hl.subset, fun _ k t hy => ?_,
    fun _ k k' t t' hy hy' => h.live_inj hd k k' t t' (hk k t hy).1 (hk k' t' hy').1,
    fun res t he => ?_⟩
  · obtain ⟨hlt, hnf⟩ := h.live hd k t (hk k t hy).1
    rw [hf, hn, List.mem_append, not_or]
    exact ⟨hlt, hnf, hother k t hy⟩
  · obtain ⟨hlt, hnf, hne⟩ := h.pending res t (hp res t he)
    rw [hf, hn, List.mem_append, not_or]
    refine ⟨hlt, ⟨hnf, fun hm => ?_⟩, fun k t' hk' => hne k t' (hk k t' hk').1⟩
    obtain ⟨e, he, hs⟩ := List.mem_map.1 hm
    exact hne e.1 e.2 (AList.mem_lookup_iff.2 (hl.subset he)) hs

end Finish

/-- Each of a driver's own steps, while its stream runs, keeps the invariant: a build starts a
fresh span, a push makes it live, and an acknowledgement, a stale transaction, a timeout or the
cleanup finishes a span that is no longer live. -/
theorem Driver.Step.spanInv {x y : Driver} (hs : Driver.Step x y) (hi : TxsInv x)
    (hd : x.pc.isDone = false) (h : SpanInv x) : SpanInv y := by
  have keep : ∀ {y : Driver}, y.finished = x.finished → y.spans = x.spans → y.txs = x.txs →
      (∀ res t, y.pc = .pushing res t → x.pc = .pushing res t) → SpanInv y :=
    fun hf hn ht hp => h.drop hd (List.nil_sublist _) (by simpa using hf) hn
      (fun k t hk => ⟨ht ▸ hk, List.not_mem_nil _⟩) hp
  cases hs
  case move pc hpc => exact keep rfl rfl rfl fun res t he => absurd he (hpc res t)
  case tick now =>
    obtain ⟨f, t, he⟩ := Driver.onTick_eq x now
    refine h.drop hd (List.filter_sublist _) (Driver.finished_foldl_dropIfStale _ _ _)
      (by rw [he]) (fun k t' hk => ?_) (by rw [he]; exact fun _ _ => id)
    rw [Driver.lookup_onTick, Option.filter_eq_some] at hk
    obtain ⟨hk, hfresh⟩ := hk
    refine ⟨hk, fun hm => ?_⟩
    have hstale := (List.mem_filter.1 hm).2
    simp only [decide_eq_true_eq] at hfresh hstale
    omega
  case request type onAck req =>
    rcases Driver.onRequest_eq x type onAck req with
      ⟨-, he⟩ | ⟨-, -, he⟩ | ⟨-, -, t, ht, he⟩ | ⟨-, -, -, he⟩ <;> rw [he]
    case inr.inr.inl =>
      /- An acknowledgement finishes the span of the transaction it drops. -/
      refine h.drop hd (List.singleton_sublist.2 (AList.mem_lookup_iff.1 (hi.keyed _ _ ht ▸ ht)))
        (by simp [Driver.handleTx]) (by simp [Driver.handleTx]) (fun k t' hk => ?_)
        (by simp [Driver.handleTx])
      simp only [Driver.handleTx, Driver.latch_txs] at hk
      by_cases hkn : k = t.nonce
      · subst hkn; simp [AList.lookup_erase] at hk
      · rw [AList.lookup_erase_ne hkn] at hk
        exact ⟨hk, by simp [hkn]⟩
    all_goals exact keep (by simp) (by simp) (by simp) fun _ _ hp => by cases hp
  case receive u =>
    rcases Driver.onUpdate_eq x u with he | he <;> rw [he]
    · exact h
    · exact keep rfl rfl rfl fun _ _ hp => by cases hp
  case build res names now =>
    refine ⟨h.nodup, fun n hn => Nat.lt_succ_of_lt (h.finished_lt n hn),
      fun _ k t hk => ?_, fun _ => h.live_inj hd, fun res' t' he => ?_⟩
    · obtain ⟨hlt, hnf⟩ := h.live hd k t hk
      exact ⟨Nat.lt_succ_of_lt hlt, hnf⟩
    · simp only [Driver.startTx, Pc.pushing.injEq] at he
      obtain ⟨rfl, rfl⟩ := he
      refine ⟨Nat.lt_succ_self _, fun hm => (h.finished_lt _ hm).false, fun k t hk hs => ?_⟩
      exact (h.live hd k t hk).1.ne hs
  case push res t hpc =>
    obtain ⟨hlt, hnf, hne⟩ := h.pending res t hpc
    have hlook : ∀ k t', (x.pushed res t).txs.lookup k = some t' →
        k = res.nonce ∧ t' = t ∨ k ≠ res.nonce ∧ x.txs.lookup k = some t' := fun k t' hk => by
      by_cases hkn : k = res.nonce
      · subst hkn
        simp only [Driver.pushed, AList.lookup_insert, Option.some.injEq] at hk
        exact .inl ⟨rfl, hk.symm⟩
      · simp only [Driver.pushed, AList.lookup_insert_ne hkn] at hk
        exact .inr ⟨hkn, hk⟩
    refine ⟨h.nodup, h.finished_lt, fun _ k t' hk => ?_, fun _ k k' t₁ t₂ hk hk' hs => ?_,
      fun _ _ he => by cases he⟩
    · rcases hlook k t' hk with ⟨-, rfl⟩ | ⟨-, hk⟩
      · exact ⟨hlt, hnf⟩
      · exact h.live hd k t' hk
    · rcases hlook k t₁ hk with ⟨hk₁, ht₁⟩ | ⟨-, hk⟩ <;>
        rcases hlook k' t₂ hk' with ⟨hk₂, ht₂⟩ | ⟨-, hk'⟩
      · exact hk₁.trans hk₂.symm
      · exact absurd (ht₁ ▸ hs).symm (hne _ _ hk')
      · exact absurd (ht₂ ▸ hs) (hne _ _ hk)
      · exact h.live_inj hd k k' t₁ t₂ hk hk' hs
  case timeout res t hpc =>
    obtain ⟨hlt, hnf, hne⟩ := h.pending res t hpc
    refine ⟨List.nodup_append.2 ⟨h.nodup, List.nodup_singleton _, ?_⟩, ?_, fun _ k t' hk => ?_,
      fun _ => h.live_inj hd, fun _ _ he => by cases he⟩
    · intro n hn hn'
      rw [List.mem_singleton] at hn'
      exact hnf (hn' ▸ hn)
    · simpa [Driver.timedOut, or_imp, forall_and] using ⟨h.finished_lt, hlt⟩
    · obtain ⟨hlt', hnf'⟩ := h.live hd k t' hk
      simpa [Driver.timedOut] using ⟨hlt', hnf', hne k t' hk⟩
  case cleanup e =>
    exact ⟨h.nodup_finish hd (List.Sublist.refl _), h.lt_finish hd (List.Subset.refl _),
      (fun hd' => by cases hd'), (fun hd' => by cases hd'), fun _ _ he => by cases he⟩

/-- Both invariants hold on every stream of every reachable state. -/
theorem SpanInv.of_reach {ok : Act → Bool} {s : Sys} (hs : Reach ok s) (d : Nat) :
    TxsInv (s.drivers d) ∧ SpanInv (s.drivers d) :=
  Reach.driver_running (P := fun x => TxsInv x ∧ SpanInv x)
    (fun hs hd h => ⟨hs.txsInv h.1, hs.spanInv h.1 hd h.2⟩) ⟨TxsInv.init, SpanInv.init⟩ hs d

/-- **No span is finished twice.** On every stream of every reachable state, the spans finished
so far are distinct and each was started: a transaction's span is finished when it is
acknowledged, found stale, timed out or left at the cleanup, and each of those takes it out of
the spans still open. -/
theorem spans_finished_once {ok : Act → Bool} {s : Sys} (hs : Reach ok s) (d : Nat) :
    (s.drivers d).finished.Nodup ∧ ∀ n ∈ (s.drivers d).finished, n < (s.drivers d).spans := by
  have h := (SpanInv.of_reach hs d).2
  exact ⟨h.nodup, h.finished_lt⟩

/-- A stream whose first push is acknowledged, whose second times out and whose third is live at
the server's drain finishes the three spans once each. -/
theorem spans_finished_once_three_ways :
    ∃ s, Reach (fun _ => true) s ∧ (s.drivers 0).finished = [0, 1, 2] ∧
      (s.drivers 0).spans = 3 ∧ (s.drivers 0).finished.Nodup ∧
      ∀ n ∈ (s.drivers 0).finished, n < (s.drivers 0).spans := by
  obtain ⟨s, hs, h⟩ := Reach.exists_of_run (fun _ => true) (newManager "v" "envoy.api.v2.Cluster")
    [.register 0,
     .request 0 ⟨"n", none, "type.googleapis.com/envoy.api.v2.Cluster", "", none, ""⟩,
     .build 0 true ⟨[], true⟩ 0, .push 0,
     .request 0 ⟨"n", none, "type.googleapis.com/envoy.api.v2.Cluster", "nonce-v0-xxxxxxxx",
       none, "v0"⟩,
     .request 0 ⟨"n", none, "type.googleapis.com/envoy.api.v2.Cluster", "", none, "v0"⟩,
     .build 0 true ⟨[], true⟩ 1, .timeout 0,
     .request 0 ⟨"n", none, "type.googleapis.com/envoy.api.v2.Cluster", "", none, "v0"⟩,
     .build 0 true ⟨[], true⟩ 2, .push 0, .drain 0, .cleanup 0]
    (fun s => decide ((s.drivers 0).finished = [0, 1, 2] ∧ (s.drivers 0).spans = 3))
    (by decide) (by decide)
  obtain ⟨h₁, h₂⟩ := of_decide_eq_true h
  exact ⟨s, hs, h₁, h₂, spans_finished_once hs 0⟩

/-! ### Every span finished by the return -/

/-- Span `k` is still open at `d`: a live transaction holds it, or the one waiting to be
pushed. -/
def Driver.holds (d : Driver) (k : Nat) : Prop :=
  (∃ n t, d.txs.lookup n = some t ∧ t.span = k) ∨ ∃ res t, d.pc = .pushing res t ∧ t.span = k

/-- Every span started is finished, or, while the stream runs, still open. -/
def Accounted (d : Driver) : Prop :=
  ∀ k < d.spans, k ∈ d.finished ∨ d.pc.isDone = false ∧ d.holds k

theorem Accounted.init : Accounted Driver.init := fun k hk => absurd hk (Nat.not_lt_zero k)

section Accounted

variable {x : Driver} (h : Accounted x)
include h

/-- A step that starts no span, finishes every span it stops holding and keeps the stream
running keeps every span accounted. -/
theorem Accounted.keep {y : Driver} (hn : y.spans = x.spans) (hf : x.finished ⊆ y.finished)
    (hd : y.pc.isDone = false) (hh : ∀ k, x.holds k → k ∈ y.finished ∨ y.holds k) :
    Accounted y := by
  intro k hk
  rcases h k (hn ▸ hk) with hk | ⟨-, hk⟩
  · exact .inl (hf hk)
  · exact (hh k hk).imp_right fun hk => ⟨hd, hk⟩

/-- ... in particular a step that moves only `pc`, from where no push is under way. -/
theorem Accounted.same {y : Driver} (hx : ∀ res t, x.pc ≠ .pushing res t)
    (hn : y.spans = x.spans) (hf : y.finished = x.finished) (ht : y.txs = x.txs)
    (hd : y.pc.isDone = false) : Accounted y :=
  h.keep hn (hf ▸ List.Subset.refl _) hd fun _ hk => .inr <| .inl <| by
    rcases hk with ⟨n, t, hl, hs⟩ | ⟨res, t, he, -⟩
    · exact ⟨n, t, ht ▸ hl, hs⟩
    · exact absurd he (hx res t)

/-- The build starts span `x.spans`, which the push under way holds. -/
theorem Accounted.startTx (hx : x.pc = .building) (res : DiscoveryResponse) (names : List String)
    (now : Nat) : Accounted (x.startTx res names now) := by
  intro k hk
  rcases Nat.lt_succ_iff_lt_or_eq.1 hk with hk | rfl
  · rcases h k hk with hk | ⟨-, ⟨n, t, hl, hs⟩ | ⟨res, t, he, -⟩⟩
    · exact .inl hk
    · exact .inr ⟨rfl, .inl ⟨n, t, hl, hs⟩⟩
    · cases hx ▸ he
  · exact .inr ⟨rfl, .inr ⟨res, _, rfl, rfl⟩⟩

/-- A push under a nonce no live transaction has makes its span live. -/
theorem Accounted.pushed {res : DiscoveryResponse} {t : Tx} (hx : x.pc = .pushing res t)
    (hfresh : res.nonce ∉ x.txs) : Accounted (x.pushed res t) := by
  refine h.keep rfl (List.Subset.refl _) rfl fun k hk => .inr (.inl ?_)
  rcases hk with ⟨n, t', hl, hs⟩ | ⟨res', t', he, hs⟩
  · have hne : n ≠ res.nonce := fun he => hfresh (he ▸ AList.lookup_isSome.1 (by simp [hl]))
    exact ⟨n, t', by simp only [Driver.pushed, AList.lookup_insert_ne hne, hl], hs⟩
  · obtain ⟨rfl, rfl⟩ := Pc.pushing.inj (hx.symm.trans he)
    exact ⟨res.nonce, t, by simp [Driver.pushed], hs⟩

/-- A timeout finishes the span of the push under way. -/
theorem Accounted.timedOut {res : DiscoveryResponse} {t : Tx} (hx : x.pc = .pushing res t) :
    Accounted (x.timedOut t) := by
  refine h.keep rfl (List.subset_append_left _ _) rfl fun k hk => ?_
  rcases hk with ⟨n, t', hl, hs⟩ | ⟨res', t', he, hs⟩
  · exact .inr (.inl ⟨n, t', hl, hs⟩)
  · obtain ⟨rfl, rfl⟩ := Pc.pushing.inj (hx.symm.trans he)
    exact .inl (by simp [Driver.timedOut, hs])

/-- The cleanup tick finishes the spans of the transactions it drops and keeps the others
live. -/
theorem Accounted.onTick (hx : x.pc = .idle) (now : Nat) : Accounted (x.onTick now) := by
  obtain ⟨f, t, he⟩ := Driver.onTick_eq x now
  refine h.keep (by rw [he]) (by simp [Driver.onTick, Driver.finished_foldl_dropIfStale])
    (by rw [he]; simp [hx, Pc.isDone]) fun k hk => ?_
  rcases hk with ⟨n, t', hl, rfl⟩ | ⟨res, t', he', -⟩
  · by_cases hs : now - t'.start ≤ minute
    · refine .inr (.inl ⟨n, t', ?_, rfl⟩)
      rw [Driver.lookup_onTick, hl]
      exact if_pos (decide_eq_true hs)
    · refine .inl ?_
      rw [Driver.onTick, Driver.finished_foldl_dropIfStale]
      exact List.mem_append_right _ (List.mem_map.2 ⟨⟨n, t'⟩, List.mem_filter.2
        ⟨AList.mem_lookup_iff.1 hl, decide_eq_true (Nat.lt_of_not_le hs)⟩, rfl⟩)
  · cases hx ▸ he'

/-- An acknowledgement finishes the span of the transaction it drops. -/
theorem Accounted.handleTx (hi : TxsInv x) (hx : x.pc = .idle) {t : Tx} {req : DiscoveryRequest}
    (ht : x.txs.lookup req.responseNonce = some t) {y : Driver} (hy : y.spans = x.spans)
    (hf : y.finished = x.finished) (hty : y.txs = x.txs) (hpc : y.pc = .idle) (onAck : Bool) :
    Accounted (y.handleTx onAck t req) := by
  have hkey := hi.keyed _ _ ht
  refine h.keep (by simp [Driver.handleTx, hy]) (by simp [Driver.handleTx, hf])
    (by simp [Driver.handleTx, hpc, Pc.isDone]) fun k hk => ?_
  rcases hk with ⟨n, t', hl, rfl⟩ | ⟨res, t', he', -⟩
  · by_cases hn : n = t.nonce
    · rw [hn, hkey, ht, Option.some_inj] at hl
      exact .inl (by simp [Driver.handleTx, hl])
    · exact .inr (.inl ⟨n, t', by simp [Driver.handleTx, hty, AList.lookup_erase_ne hn, hl], rfl⟩)
  · cases hx ▸ he'

/-- The deferred cleanup finishes the span of every live transaction. -/
theorem Accounted.cleanup {e' : StreamError} (hx : x.pc = .exiting e') (e : StreamError) :
    Accounted { x.finishAll with pc := .done e } := by
  intro k hk
  refine .inl ?_
  rcases h k hk with hk | ⟨-, ⟨n, t, hl, rfl⟩ | ⟨res, t, he, -⟩⟩
  · simp [Driver.finishAll, hk]
  · simp only [Driver.finishAll, List.mem_append, List.mem_map]
    exact .inr ⟨⟨n, t⟩, AList.mem_lookup_iff.1 hl, rfl⟩
  · cases hx ▸ he

end Accounted

variable {s s' : Sys} {a : Act} {d : Nat}

/-- Stream `d`'s own step keeps every span accounted, unless it pushes under a nonce it pushed
before. -/
theorem Accounted.step_own (h : Accounted (s.drivers d)) (hi : TxsInv (s.drivers d))
    (ha : a.actor = .inr d) (hs : step s a = some s')
    (hn : ((s'.drivers d).sent.map (·.nonce)).Nodup) : Accounted (s'.drivers d) := by
  have idle : ∀ {pc : Pc}, pc = .idle → ∀ res t, pc ≠ .pushing res t := fun h _ _ he => by
    cases h.symm.trans he
  cases a <;> simp only [Act.actor, Sum.inr.injEq, reduceCtorEq] at ha <;> subst ha <;>
    simp only [step] at hs
  case register d =>
    obtain ⟨hpc, -, rfl⟩ := Sys.register_eq hs
    rw [Sys.setDriver_drivers, Function.update_same]
    exact h.same (fun _ _ he => by cases hpc ▸ he) rfl rfl rfl rfl
  case build d _ _ _ =>
    obtain ⟨hpc, -, ⟨-, rfl⟩ | ⟨-, rfl⟩⟩ := Sys.build_eq hs <;>
      rw [Sys.setDriver_drivers, Function.update_same]
    · exact h.startTx hpc _ _ _
    · exact h.same (fun _ _ he => by cases hpc ▸ he) rfl rfl rfl rfl
  case push d =>
    obtain ⟨res, t, hpc, rfl⟩ := Sys.pushOrTimeout_eq hs
    simp only [Sys.setDriver_drivers, Function.update_same, if_true, Driver.pushed,
      List.map_append, List.map_singleton] at hn ⊢
    refine h.pushed hpc fun hm => ?_
    obtain ⟨r, hr, hrn⟩ := hi.sent _ hm
    exact (List.nodup_append.1 hn).2.2 (List.mem_map.2 ⟨r, hr, hrn⟩) (List.mem_singleton_self _)
  case timeout d =>
    obtain ⟨res, t, hpc, rfl⟩ := Sys.pushOrTimeout_eq hs
    rw [Sys.setDriver_drivers, Function.update_same]
    exact h.timedOut hpc
  case cleanup d =>
    obtain ⟨e, hpc, -, rfl⟩ := Sys.cleanup_eq hs
    rw [Sys.setDriver_drivers, Function.update_same]
    exact h.cleanup hpc e
  case receive d =>
    obtain ⟨u, -, hpc, rfl⟩ := Sys.receive_eq hs
    rw [Sys.setDriver_drivers, Function.update_same]
    rcases Driver.onUpdate_eq (s.drivers d) u with he | he <;> rw [he]
    · exact h
    · exact h.same (idle hpc) rfl rfl rfl rfl
  case tick d now =>
    obtain ⟨hpc, rfl⟩ := Sys.fromIdle_eq hs
    rw [Sys.setDriver_drivers, Function.update_same]
    exact h.onTick hpc now
  case request d req =>
    obtain ⟨hpc, rfl⟩ := Sys.fromIdle_eq hs
    rw [Sys.setDriver_drivers, Function.update_same]
    rcases Driver.onRequest_eq (s.drivers d) s.m.type s.m.onAck req with
      ⟨-, he⟩ | ⟨-, -, he⟩ | ⟨-, -, t, ht, he⟩ | ⟨-, -, -, he⟩ <;> rw [he]
    /- The acknowledgement; the other branches leave the spans and the transactions. -/
    pick_goal 3
    · exact h.handleTx hi hpc ht (by simp) (by simp) (by simp) (by simp [hpc]) _
    all_goals exact h.same (idle hpc) (by simp) (by simp) (by simp) rfl
  all_goals
    obtain ⟨hpc, rfl⟩ := Sys.fromIdle_eq hs
    rw [Sys.setDriver_drivers, Function.update_same]
    exact h.same (idle hpc) rfl rfl rfl rfl

/-- Every span is accounted on every stream of every reachable state whose pushes carry distinct
nonces. -/
theorem Accounted.of_reach {ok : Act → Bool} (hs : Reach ok s) (d : Nat)
    (hn : ((s.drivers d).sent.map (·.nonce)).Nodup) : Accounted (s.drivers d) := by
  induction hs with
  | init m => exact Accounted.init
  | step a hr _ h ih =>
    cases ha : a.actor with
    | inl p =>
      rw [(step_frame_producer ha h).1] at hn ⊢
      exact ih hn
    | inr d' =>
      by_cases hd : d = d'
      · subst hd
        have hp := (step_driver_step ha h).sent_isPrefix
        exact (ih ((hp.sublist.map _).nodup hn)).step_own (SpanInv.of_reach hr d).1 ha h hn
      · rw [((step_frame_driver ha h).2.2.2.2 d hd).1] at hn ⊢
        exact ih hn

/-- **Every span is finished once by the return, when no two pushes share a nonce.** On every
stream of every reachable state whose pushes carry distinct nonces, once the deferred cleanup has
run, the spans finished are exactly the spans started, each once: a build's span is finished by
the timeout, or, once pushed, by the acknowledgement, the cleanup tick or the cleanup. -/
theorem spans_finished_on_return {ok : Act → Bool} (hs : Reach ok s) (d : Nat)
    (hn : ((s.drivers d).sent.map (·.nonce)).Nodup) {e : StreamError}
    (he : (s.drivers d).pc = .done e) :
    (s.drivers d).finished.Perm (List.range (s.drivers d).spans) := by
  have hi := (SpanInv.of_reach hs d).2
  refine (List.perm_ext_iff_of_nodup hi.nodup (List.nodup_range _)).2 fun k =>
    ⟨fun hk => List.mem_range.2 (hi.finished_lt k hk), fun hk => ?_⟩
  rcases Accounted.of_reach hs d hn k (List.mem_range.1 hk) with hk | ⟨hd, -⟩
  · exact hk
  · simp [he, Pc.isDone] at hd

/-- Pushes at versions `0` and `1`, the first acknowledged and the second live at the server's
drain: both spans are finished, once each. -/
theorem spans_finished_on_return_after_drain :
    ∃ s, Reach (fun _ => true) s ∧ ((s.drivers 0).sent.map (·.nonce)).Nodup ∧
      (s.drivers 0).pc = .done .draining ∧ (s.drivers 0).finished = [0, 1] ∧
      (s.drivers 0).finished.Perm (List.range (s.drivers 0).spans) := by
  obtain ⟨s, hs, h⟩ := Reach.exists_of_run (fun _ => true) (newManager "v" "envoy.api.v2.Cluster")
    [.register 0,
     .request 0 ⟨"n", none, "type.googleapis.com/envoy.api.v2.Cluster", "", none, ""⟩,
     .build 0 true ⟨[], true⟩ 0, .push 0, .call 0 (.add [⟨"a", none, "1"⟩]), .trySend 0,
     .trySend 0, .waitSend 0, .receive 0, .build 0 true ⟨[], true⟩ 1, .push 0,
     .request 0 ⟨"n", none, "type.googleapis.com/envoy.api.v2.Cluster", "nonce-v0-xxxxxxxx",
       none, "v0"⟩,
     .drain 0, .cleanup 0]
    (fun s => decide (((s.drivers 0).sent.map DiscoveryResponse.nonce).Nodup ∧
      (s.drivers 0).pc = .done .draining ∧ (s.drivers 0).finished = [0, 1]))
    (by decide) (by decide)
  obtain ⟨hn, he, hf⟩ := of_decide_eq_true h
  exact ⟨s, hs, hn, he, hf, spans_finished_on_return hs 0 hn he⟩

end Ekglue.Xds
