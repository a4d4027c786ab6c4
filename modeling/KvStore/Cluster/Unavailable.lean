import KvStore.Cluster.PlainHttp
import KvStore.Cluster.Reachable
import KvStore.Cluster.Register

/-!
# Keys whose backends are gone

When all backends with the last value of a key are DOWN, the ring has others for the key, and these
answer what they have: nothing, or an older value.

* `short_of_run`: the values that are stored fit into memory.
* `lost_unavailable_iff`: such a key is answered with a 503 exactly if none of the other backends
  that are asked for it runs.
* `lost_not_found`: a run after which it is answered with a 404.
-/

namespace KvStore.Cluster
open KvStore.Lib KvStore.Ring KvStore.Http KvStore.Server KvStore.Session KvStore.Recovery

/-- The bodies of the requests that are read fit into memory. -/
def HttpLib.Bounded (lib : HttpLib) : Prop :=
  ∀ payload req, .ok req ∈ lib.read payload → req.body.length < 2 ^ 63

/-- A key that a client can read. -/
def IsReadable (key : Str) : Prop := isWord key = true ∧ key ≠ "allkeys".toList

/-- The values that clients can read fit into memory. -/
def Short (servers : Fleet) : Prop :=
  ∀ addr key, IsReadable key → ∀ value, servers.entry addr key = some value →
    value.length < 2 ^ 63

/-- The value fits into memory if it is fetched for a key that clients can read. -/
def ShortFetched (key value : Str) : Prop := IsReadable (clientPath key) → value.length < 2 ^ 63

/-- It only depends on the entries. -/
lemma Short.of_entry {servers servers' : Fleet} (h : Short servers)
    (he : servers'.entry = servers.entry) : Short servers' := by
  intro addr key hkey value hv
  rw [he] at hv
  exact h addr key hkey value hv

/-- A request with a short body keeps all values short. -/
lemma Short.dispatch {servers : Fleet} (h : Short servers) (addr : Addr) {req : Request}
    (hbody : req.body.length < 2 ^ 63) :
    Short (Function.update servers addr ((servers addr).dispatch req none).2) := by
  intro a key hkey value hv
  rw [entry_update] at hv
  split_ifs at hv
  · rcases find_dispatch _ req hv with hold | hle
    · exact h addr key hkey value hold
    · exact lt_of_le_of_lt hle hbody
  · exact h a key hkey value hv

/-- The calls of the health checker keep coherence and short values. -/
lemma keeps_short (crashed : Addr → Bool) :
    Keeps (fleetClient crashed) (fun servers => servers.Coherent ∧ Short servers) ShortFetched where
  get addr path servers h := by
    refine ⟨h.1.call crashed addr _, ?_⟩
    cases hc : crashed addr with
    | true =>
      rw [call_crashed hc]
      exact h.2
    | false =>
      rw [call_up hc]
      exact h.2.dispatch addr (Nat.two_pow_pos 63)
  fetched addr key servers h hkey := by
    cases hc : crashed addr with
    | true =>
      rw [call_crashed hc]
      exact Nat.two_pow_pos 63
    | false =>
      rw [(call_get hc h.1 key).1, KvServer.shown, if_neg hkey.2, if_pos hkey.1]
      cases hf : (servers addr).table.find (clientPath key) with
      | none => exact Nat.two_pow_pos 63
      | some value => exact h.2 addr _ hkey value hf
  sync addr key value servers h hvalue := by
    refine ⟨h.1.call crashed addr _, ?_⟩
    cases hc : crashed addr with
    | true =>
      rw [call_crashed hc]
      exact h.2
    | false =>
      intro a k hk v hv
      rw [call_sync hc] at hv
      split_ifs at hv with hsync
      · obtain ⟨-, -, rfl⟩ := hsync
        exact Option.some.inj hv ▸ hvalue hk
      · exact h.2 a k hk v hv

/-- Coherence and short values are kept. -/
lemma kept_short {lib : HttpLib} (hlib : lib.Bounded) :
    Kept lib fun servers => servers.Coherent ∧ Short servers where
  dispatch servers addr payload req h hread :=
    ⟨(kept_coherent lib).dispatch servers addr payload req h.1 hread,
      h.2.dispatch addr (hlib payload req hread)⟩
  restart servers addr h :=
    ⟨(kept_coherent lib).restart servers addr h.1, h.2.of_entry (entry_update_of_table rfl)⟩
  calls := ⟨ShortFetched, keeps_short⟩

section
variable [StdHash]

/-- The last write of the key that was acknowledged. -/
def lastAcknowledged (log : List Exchange) (key : Str) : Option Exchange :=
  log.find? fun e =>
    isWriteRequest e.request ∧ e.request.getKey = key ∧ Acknowledges e.sent.flatten

/-- The last acknowledged write of the key is a PUT, all backends that applied it are DOWN, and
    another one is UP. -/
def ClusterState.Lost (s : ClusterState) (key : Str) : Prop :=
  (∃ e ∈ lastAcknowledged s.log key, e.request.method = "PUT".toList
      ∧ ∀ b ∈ e.applied, s.router.statusOf b.port = some .down)
    ∧ s.router.getOnlineBackends ≠ []

instance (s : ClusterState) (key : Str) : Decidable (s.Lost key) :=
  inferInstanceAs (Decidable (_ ∧ _))

/-- None of the backends that the key is read from runs. -/
def ClusterState.NoReaderRuns (s : ClusterState) (key : Str) : Prop :=
  ∀ candidates, s.router.getReadBackendsForKey key 2 = .ok candidates →
    ∀ c ∈ candidates, s.crashed c.addr = true

instance (s : ClusterState) (key : Str) : Decidable (s.NoReaderRuns key) :=
  match h : s.router.getReadBackendsForKey key 2 with
  | .error _ => isTrue fun _ hc => nomatch h.symm.trans hc
  | .ok candidates =>
    decidable_of_iff (∀ c ∈ candidates, s.crashed c.addr = true)
      ⟨fun hall _ hc => Except.ok.inj (h.symm.trans hc) ▸ hall, fun hall => hall candidates h⟩

omit [StdHash] in
/-- The answer of a backend is not a 503. -/
lemma IsAnswer.ne_unavailable {lib : HttpLib} {key : Str} {entry : Option Str} {bytes : Str}
    (h : IsAnswer lib (.get key) entry bytes) : bytes ≠ serviceUnavailable := by
  rintro rfl
  have hstatus : (parseHTTPResponse serviceUnavailable).response.statusCode = 503 := by decide
  have hanswer := h.response.status_eq
  rw [hstatus] at hanswer
  cases entry <;> cases hanswer

variable {d : Deployment} {lib : HttpLib} {s : ClusterState}

/-- The values that clients can read fit into memory in every state of a run. -/
lemma short_of_run (hlib : lib.Bounded) {ok : ClusterState → ClusterAction → Prop} {capacity : ℕ}
    {ls : List ClusterAction}
    (hrun : Run (ClusterState.step lib) ok (.start d capacity) ls s) : Short s.servers :=
  ((kept_short hlib).run ⟨fun _ => coherent_new capacity, fun _ _ _ _ hv => nomatch hv⟩ hrun).2.2

/-- In every state of every run, a key whose last acknowledged write is a PUT that only backends have
    applied that are DOWN now, while another one is UP, is answered with a 503 exactly if none of the
    backends that it is now read from runs. -/
theorem lost_unavailable_iff (hlib : lib.Faithful) (hbounded : lib.Bounded) {capacity : ℕ}
    {ls : List ClusterAction}
    (hrun : Run (ClusterState.step lib) (Legal d) (.start d capacity) ls s) {key : Str}
    (hlost : s.Lost key) {incoming : List Str} {request : HttpRequest}
    (hcarries : Carries incoming request) (hop : IsOp lib request (.get key)) :
    (s.serve lib incoming).session.sent = [serviceUnavailable] ↔ s.NoReaderRuns key := by
  have hsound : s.Sound d := sound_of_run hrun
  have hempty : s.router.hashRing.empty = false :=
    Deployment.empty_of_online hsound.router hlost.2
  cases hsound.serve_get hlib hcarries hop with
  | throws hcand hsent =>
    obtain ⟨he, -⟩ := targetsForKey_eq_error.1 hcand
    cases hempty.symm.trans he
  | unavailable hcand hall hsent =>
    refine iff_of_true hsent fun candidates hcand' => ?_
    rwa [← Except.ok.inj (hcand.symm.trans hcand')]
  | @answered candidates c hcand hc hruns hanswer =>
    have hkey : IsReadable key := ⟨hop.wellFormed.word, hop.wellFormed.ne_allKeys⟩
    obtain ⟨bytes, hsent, hresponse⟩ :=
      hanswer fun value => short_of_run hbounded hrun c.addr key hkey value
    refine iff_of_false (fun h => ?_) (fun h => ?_)
    · rw [hsent] at h
      exact hresponse.ne_unavailable (List.singleton_inj.1 h)
    · cases hruns.symm.trans (h candidates hcand c hc)

end

/-- The plain library reads no longer bodies than the balancer does. -/
lemma plainLib_bounded : plainLib.Bounded := by
  intro payload req hread
  simp only [plainLib] at hread
  split_ifs at hread with hc
  · rw [Except.ok.inj (List.mem_singleton.1 hread)]
    exact length_body_lt hc
  · cases List.mem_singleton.1 hread

section
attribute [local instance] djb2

/-- The key `a` is put, both of its backends crash, and the next read finds out. -/
def putThenLost : List ClusterAction :=
  [.op putAX, .crash (localAddr 9003), .crash (localAddr 9001), .op getA]

/-- The state after that. -/
def afterLost : ClusterState := stateAfter putThenLost

/-- The actions of that run. -/
lemma mem_putThenLost {a : ClusterAction} (h : a ∈ putThenLost) :
    a = .op putAX ∨ a = .crash (localAddr 9003) ∨ a = .crash (localAddr 9001) ∨ a = .op getA := by
  simpa only [putThenLost, List.mem_cons, List.not_mem_nil, or_false] using h

/-- These steps can happen. -/
lemma run_afterLost : Run (ClusterState.step plainLib) (Legal threeBackends)
    (.start threeBackends 10) putThenLost afterLost := by
  refine (run_stateAfter (fun _ _ => True) (by decide +kernel)).of_forall fun s a ha _ => ?_
  rcases mem_putThenLost ha with rfl | rfl | rfl | rfl
  · exact ⟨_, carries_putAX⟩
  · exact ⟨⟨"127.0.0.1".toList, 9003, .up⟩, by decide, rfl⟩
  · exact ⟨⟨"127.0.0.1".toList, 9001, .up⟩, by decide, rfl⟩
  · exact ⟨_, carries_getA⟩

/-- The same when the third backend crashes as well. -/
def allCrashed : ClusterState :=
  { afterLost with crashed := Function.update afterLost.crashed (localAddr 9002) true }

/-- When nobody runs, a lost key is answered with a 503. -/
theorem lost_unavailable_iff_crashed : allCrashed.Lost ['a']
    ∧ (allCrashed.serve plainLib [clientRequest getA]).session.sent = [serviceUnavailable] := by
  have hrun : Run (ClusterState.step plainLib) (Legal threeBackends) (.start threeBackends 10)
      (putThenLost ++ [.crash (localAddr 9002)]) allCrashed :=
    run_afterLost.append
      (.cons ⟨⟨"127.0.0.1".toList, 9002, .up⟩, by decide, rfl⟩ rfl .nil)
  have hstate : allCrashed.Lost ['a'] ∧ allCrashed.NoReaderRuns ['a'] := by decide +kernel
  obtain ⟨hlost, hnone⟩ := hstate
  exact ⟨hlost, (lost_unavailable_iff plainLib_faithful plainLib_bounded hrun hlost carries_getA
    isOp_getA).2 hnone⟩

/-- A lost key is not always answered with a 503: the one backend that is left has never had it. -/
theorem lost_not_found :
    Run (ClusterState.step plainLib) (Legal threeBackends) (.start threeBackends 10) putThenLost
        afterLost
      ∧ afterLost.Lost ['a']
      ∧ (parseHTTPResponse (afterLost.serve plainLib
          [clientRequest getA]).session.sent.flatten).response.statusCode = 404 :=
  ⟨run_afterLost, by decide +kernel⟩

end

end KvStore.Cluster
