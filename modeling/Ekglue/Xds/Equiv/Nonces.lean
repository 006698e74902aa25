import Ekglue.Xds.Equiv.Versions
import Ekglue.Xds.Equiv.Adapter

/-!
# Nonces

`randomString` always returns eight characters: the read's bytes, or the `'x'`s it left, cut to
eight. With a full read and no error each byte `b` becomes `b % 26 + 'a'`, which stays below 256,
so the eight characters are lowercase letters (`randomString_letters`). A nonce is
`nonce-<version>-<randomString()>`, and since the random part has a fixed length the version can be
read back from it: responses with the same nonce were built at the same version.

* `pushed_nonces_name_versions`: on every stream of every reachable state, every pushed response's
  nonce is `nonce-`, its version, `-` and eight characters, and two pushed responses with the same
  nonce carry the same version.
-/

namespace Ekglue.Xds

/-! ### `randomString` -/

theorem randomString_length (r : RandRead) : (randomString r).length = 8 := by
  unfold randomString
  split_ifs <;> simp

/-- `hash[i]%26 + 'a'` does not wrap around. -/
theorem UInt8.toNat_letter (b : UInt8) : (b % 26 + 'a'.toUInt8).toNat = b.toNat % 26 + 97 := by
  have h : (b % 26 + 'a'.toUInt8).toNat = ((b % 26).toNat + 97) % 256 := BitVec.toNat_add _ _
  rw [h, UInt8.toNat_mod, show (26 : UInt8).toNat = 26 from rfl]
  omega

theorem Char.isLower_ofNat {n : Nat} (h₁ : 97 ≤ n) (h₂ : n ≤ 122) : (Char.ofNat n).isLower := by
  have hn : (Char.ofNat n).toNat = n := by
    unfold Char.ofNat
    rw [dif_pos (Or.inl (by omega))]
    rfl
  simp only [Char.isLower, Char.toNat, UInt32.toNat, Bool.and_eq_true, decide_eq_true_eq,
    ge_iff_le, UInt32.le_def, BitVec.le_def] at hn ⊢
  rw [hn]
  exact ⟨h₁, h₂⟩

/-- **A full read gives eight lowercase letters.** When `rand.Read` fills the eight bytes without
error, `randomString` returns eight characters, each a lowercase letter: `b % 26 + 'a'` stays
within the byte. -/
theorem randomString_letters (r : RandRead) (h : 8 ≤ r.written.length) (he : r.err = false) :
    (randomString r).length = 8 ∧ ∀ c ∈ (randomString r).data, c.isLower := by
  refine ⟨randomString_length r, fun c hc => ?_⟩
  simp only [randomString, h, he, and_self, if_true, List.mem_map] at hc
  obtain ⟨_, ⟨b, -, rfl⟩, rfl⟩ := hc
  rw [UInt8.toNat_letter]
  exact Char.isLower_ofNat (by omega) (by omega)

/-! ### The version in a nonce -/

/-- The nonce of a built response: its version between `nonce-` and `-`, then `randomString`. -/
theorem Manager.buildDiscoveryResponse_nonce (m : Manager) (want : List String)
    (rnd : RandRead) : (m.buildDiscoveryResponse want rnd).1.nonce =
      "nonce-" ++ (m.buildDiscoveryResponse want rnd).1.versionInfo ++ "-" ++ randomString rnd :=
  rfl

/-- A nonce of the form `nonce-<version>-<eight characters>`. -/
def NonceNamesVersion (res : DiscoveryResponse) : Prop :=
  ∃ h : String, h.length = 8 ∧ res.nonce = "nonce-" ++ res.versionInfo ++ "-" ++ h

/-- The random part has a fixed length, so the version is read back from the nonce. -/
theorem version_eq_of_nonce_eq {res res' : DiscoveryResponse} (h : NonceNamesVersion res)
    (h' : NonceNamesVersion res') (he : res.nonce = res'.nonce) :
    res.versionInfo = res'.versionInfo := by
  obtain ⟨x, hx, hn⟩ := h
  obtain ⟨x', hx', hn'⟩ := h'
  have hd := congrArg String.data (hn.symm.trans (he.trans hn'))
  simp only [String.data_append, List.append_assoc] at hd
  have hlen : x.data.length = x'.data.length := by
    rw [← String.length_mk x.data, ← String.length_mk x'.data]
    exact hx.trans hx'.symm
  obtain ⟨hv, -⟩ := List.append_inj' (List.append_cancel_left hd) (by simpa using hlen)
  exact String.ext hv

/-! ### Along a run -/

variable {s : Sys}

/-- The responses stream `d` has pushed, and the one it waits to push, satisfy `P`. -/
def SentInv (P : DiscoveryResponse → Prop) (s : Sys) (d : Nat) : Prop :=
  (∀ res ∈ (s.drivers d).sent, P res) ∧ ∀ res t, (s.drivers d).pc = .pushing res t → P res

section SentInv

variable {P : DiscoveryResponse → Prop}

/-- **A property of every response the manager builds holds of every response a stream pushes.**
-/
theorem SentInv.of_reach (hP : ∀ (m : Manager) want rnd, P (m.buildDiscoveryResponse want rnd).1)
    {ok : Act → Bool} (hs : Reach ok s) (d : Nat) : SentInv P s d := by
  induction hs with
  | init m => exact ⟨by simp [Sys.init, Driver.init], by simp [Sys.init, Driver.init]⟩
  | step a _ _ h ih =>
    obtain ⟨hsent, hpush⟩ := ih
    cases ha : a.actor with
    | inl p =>
      rw [SentInv, (step_frame_producer ha h).1]
      exact ⟨hsent, hpush⟩
    | inr d' =>
      by_cases hd : d = d'
      · subst hd
        obtain ⟨hs', hp'⟩ := step_own_sent ha h
        refine ⟨fun res hr => ?_, fun res t he => ?_⟩
        · rcases hs' with hs' | ⟨res', t, ht, hs', -⟩ <;> rw [hs'] at hr
          · exact hsent res hr
          · rcases List.mem_append.1 hr with hr | hr
            · exact hsent res hr
            · exact List.mem_singleton.1 hr ▸ hpush res' t ht
        · rcases (hp' res t he).2 with he | ⟨rnd, rfl⟩
          · exact hpush res t he
          · exact hP _ _ rnd
      · rw [SentInv, ((step_frame_driver ha h).2.2.2.2 d hd).1]
        exact ⟨hsent, hpush⟩

end SentInv

/-- **A nonce names one version.** On every stream of every reachable state, every pushed
response's nonce is `nonce-`, its version, `-` and eight characters, so two pushed responses with
the same nonce carry the same version: an acknowledgement's nonce never matches a push of another
version. -/
theorem pushed_nonces_name_versions {ok : Act → Bool} (hs : Reach ok s) (d : Nat) :
    (∀ res ∈ (s.drivers d).sent, ∃ h : String, h.length = 8 ∧
      res.nonce = "nonce-" ++ res.versionInfo ++ "-" ++ h) ∧
    ∀ res ∈ (s.drivers d).sent, ∀ res' ∈ (s.drivers d).sent, res.nonce = res'.nonce →
      res.versionInfo = res'.versionInfo := by
  obtain ⟨hn, -⟩ := SentInv.of_reach (P := NonceNamesVersion)
    (fun m want rnd => ⟨_, randomString_length rnd, m.buildDiscoveryResponse_nonce want rnd⟩) hs d
  exact ⟨hn, fun res hr res' hr' => version_eq_of_nonce_eq (hn res hr) (hn res' hr')⟩

/-- Two pushes at versions `0` and `1` with a failing read: the nonces differ in the version
only. -/
theorem pushed_nonces_name_versions_after_add :
    ∃ s, Reach (fun _ => true) s ∧ (s.drivers 0).sent.map (·.nonce) =
        ["nonce-v0-xxxxxxxx", "nonce-v1-xxxxxxxx"] ∧
      ∀ res ∈ (s.drivers 0).sent, ∀ res' ∈ (s.drivers 0).sent, res.nonce = res'.nonce →
        res.versionInfo = res'.versionInfo := by
  obtain ⟨s, hs, h⟩ := Reach.exists_of_run (fun _ => true) (newManager "v" "envoy.api.v2.Cluster")
    [.register 0,
     .request 0 ⟨"n", none, "type.googleapis.com/envoy.api.v2.Cluster", "", none, ""⟩,
     .build 0 true ⟨[], true⟩ 0, .push 0, .call 0 (.add [⟨"a", none, "1"⟩]), .trySend 0,
     .trySend 0, .waitSend 0, .receive 0, .build 0 true ⟨[], true⟩ 1, .push 0]
    (fun s => decide ((s.drivers 0).sent.map (·.nonce) =
      ["nonce-v0-xxxxxxxx", "nonce-v1-xxxxxxxx"]))
    (by decide) (by decide)
  exact ⟨s, hs, of_decide_eq_true h, (pushed_nonces_name_versions hs 0).2⟩

end Ekglue.Xds
