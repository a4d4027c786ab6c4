import KvStore.Cluster.PlainHttp
import KvStore.Cluster.Reachable
import KvStore.Cluster.Register

/-!
# Creating a key that exists

A create goes to all candidates of its key, and the client hears of a success if there is one. While
an owner is DOWN its place is taken by a successor that need not have the key: there the create
succeeds.

* `create_refused_iff`: a create of a key that can be read is refused exactly if all of its
  candidates that run have the key.
* `create_accepted`: a run in which one of them has not.
-/

namespace KvStore.Cluster
open KvStore.Lib KvStore.Ring KvStore.Http KvStore.Server KvStore.Session
open KvStore.Recovery (localAddr)

section
variable [StdHash]

/-- What a client gets on a connection is a refusal, and no table changes. -/
def ClusterState.Refuses (lib : HttpLib) (s : ClusterState) (incoming : List Str) : Prop :=
  (∃ bytes, (s.serve lib incoming).session.sent = [bytes]
      ∧ IsResponse bytes 409 "Error: Key already exists".toList)
    ∧ ∀ addr, ((s.serve lib incoming).session.world addr).table = (s.servers addr).table

/-- Every backend that gets the writes of the key and runs has the key. -/
def ClusterState.HeldByWriters (s : ClusterState) (key : Str) : Prop :=
  ∀ candidates, s.router.getWriteBackendsForKey key 2 = .ok candidates →
    ∀ c ∈ candidates, s.crashed c.addr = false → s.servers.entry c.addr key ≠ none

instance (s : ClusterState) (key : Str) : Decidable (s.HeldByWriters key) :=
  match h : s.router.getWriteBackendsForKey key 2 with
  | .error _ => isTrue fun _ hc => nomatch h.symm.trans hc
  | .ok writers =>
    decidable_of_iff (∀ c ∈ writers, s.crashed c.addr = false → s.servers.entry c.addr key ≠ none)
      ⟨fun hall _ hc => Except.ok.inj (h.symm.trans hc) ▸ hall, fun hall => hall writers h⟩

variable {d : Deployment} {lib : HttpLib} {s : ClusterState} {key value : Str}
  {readIncoming createIncoming : List Str} {readRequest createRequest : HttpRequest}

/-- A backend that is read from is written to. -/
lemma mem_writers {r : Router} {readers : List Backend} {c : Backend}
    (hr : r.getReadBackendsForKey key 2 = .ok readers) (hc : c ∈ readers) :
    ∃ writers, r.getWriteBackendsForKey key 2 = .ok writers ∧ c ∈ writers := by
  obtain ⟨hempty, rfl⟩ := targetsForKey_ok hr
  refine ⟨(r.hashRing.getNodes key 2).filterMap (r.lookup servesWrites), ?_, ?_⟩
  · rw [Router.getWriteBackendsForKey, Router.targetsForKey, hempty]
    rfl
  · obtain ⟨node, hnode, hl⟩ := List.mem_filterMap.1 hc
    obtain ⟨hfind, hserves⟩ := Option.filter_eq_some_iff.1 hl
    refine List.mem_filterMap.2 ⟨node, hnode, Option.filter_eq_some_iff.2 ⟨hfind, ?_⟩⟩
    rw [servesReads_iff.1 hserves]
    rfl

/-- A key that can be read is held by a backend that runs and gets its writes. -/
lemma ClusterState.Sound.exists_holder (h : s.Sound d) (hlib : lib.Faithful)
    (hcarries : Carries readIncoming readRequest) (hop : IsOp lib readRequest (.get key))
    (hok : AnsweredOk (s.serve lib readIncoming).session.sent) :
    ∃ writers, s.router.getWriteBackendsForKey key 2 = .ok writers
      ∧ ∃ c ∈ writers, s.crashed c.addr = false ∧ s.servers.entry c.addr key ≠ none := by
  cases h.serve_get hlib hcarries hop with
  | throws hcand hsent =>
    rw [hsent] at hok
    exact absurd hok (by decide)
  | unavailable hcand hall hsent =>
    rw [hsent] at hok
    exact absurd hok (by decide)
  | @answered readers c hcand hc hruns hanswer =>
    obtain ⟨writers, hw, hcw⟩ := mem_writers hcand hc
    refine ⟨writers, hw, c, hcw, hruns, fun hnone => ?_⟩
    -- a backend without the key answers 404
    obtain ⟨bytes, hsent, hresponse⟩ := hanswer (by rw [hnone]; nofun)
    rw [hnone] at hresponse
    rw [hsent, AnsweredOk, List.flatten_singleton] at hok
    cases hok.2.symm.trans hresponse.response.status_eq

/-- In every state of every run, a create of a key that is read successfully is refused, and changes
    no table, exactly if all backends that get the writes of the key and run have it. -/
theorem create_refused_iff (hlib : lib.Faithful) {capacity : ℕ} {ls : List ClusterAction}
    (hrun : Run (ClusterState.step lib) (Legal d) (.start d capacity) ls s)
    (hread : Carries readIncoming readRequest) (hget : IsOp lib readRequest (.get key))
    (hwrite : Carries createIncoming createRequest)
    (hcreate : IsOp lib createRequest (.create key value))
    (hok : AnsweredOk (s.serve lib readIncoming).session.sent) :
    s.Refuses lib createIncoming ↔ s.HeldByWriters key := by
  have hsound : s.Sound d := sound_of_run hrun
  obtain ⟨writers, hcand, c, hc, hruns, -⟩ := hsound.exists_holder hlib hread hget hok
  have hnd : (writers.map Backend.addr).Nodup :=
    nodup_map_addr (hsound.router.nodup_targets d.ports hcand)
  obtain ⟨servers', bytes, hh, happlied, c', hc', hruns', hanswer⟩ :=
    handleRequest_write hlib hsound.coherent hcreate rfl hcand hnd ⟨c, hc, hruns⟩ []
  obtain ⟨hsession, -⟩ := serve_carries lib s hwrite
  rw [hh] at hsession
  unfold ClusterState.Refuses
  rw [hsession]
  constructor
  · rintro ⟨-, htables⟩ candidates hcand' b hb hb' hnone
    obtain rfl := Except.ok.inj (hcand.symm.trans hcand')
    -- this backend has the key afterwards
    have hentry := happlied.entry b.addr key
    rw [if_pos ⟨⟨b, hb, rfl⟩, hb', rfl⟩] at hentry
    have hsame : servers'.entry b.addr key = s.servers.entry b.addr key :=
      congrArg (OrdMap.find · key) (htables b.addr)
    have hnone' : s.servers.entry b.addr (KeyOp.create key value).key = none := hnone
    rw [hsame, hnone, hnone'] at hentry
    cases hentry
  · intro hheld
    have hheld := hheld writers hcand
    refine ⟨⟨bytes, rfl, ?_⟩, fun addr => OrdMap.ext_find fun k => ?_⟩
    · obtain ⟨old, hold⟩ := Option.ne_none_iff_exists'.1 (hheld c' hc' hruns')
      have hold' : s.servers.entry c'.addr (KeyOp.create key value).key = some old := hold
      rw [hold'] at hanswer
      exact hanswer.response
    · refine (happlied.entry addr k).trans ?_
      split_ifs with hk
      · obtain ⟨⟨b, hb, rfl⟩, hb', rfl⟩ := hk
        obtain ⟨old, hold⟩ := Option.ne_none_iff_exists'.1 (hheld b hb hb')
        have hold' : s.servers.entry b.addr (KeyOp.create k value).key = some old := hold
        rw [hold']
        exact hold'.symm
      · rfl

end

/-- The key `a` is created with another value. -/
def createAY : KeyOp := .create ['a'] ['y']

/-- Its request arrives in one piece, -/
lemma carries_createAY : Carries [clientRequest createAY] (requestOf createAY) :=
  ⟨by decide +kernel, by decide +kernel, rfl, by decide +kernel⟩

/-- and is what it should be. -/
lemma isOp_createAY : IsOp plainLib (requestOf createAY) createAY := by
  refine isOp_requestOf ⟨by decide, by decide, by decide, ?_, ?_⟩ (by decide +kernel)
    (by decide +kernel)
  · rintro value ⟨⟩
    decide
  · rintro key value ⟨⟩
    decide

section
attribute [local instance] djb2

/-- A key that was put is not created again. -/
theorem create_refused_iff_put :
    Run (ClusterState.step plainLib) (Legal threeBackends) (.start threeBackends 10) [.op putAX]
        (stateAfter [.op putAX])
      ∧ (stateAfter [.op putAX]).Refuses plainLib [clientRequest createAY] := by
  have hrun : Run (ClusterState.step plainLib) (Legal threeBackends) (.start threeBackends 10)
      [.op putAX] (stateAfter [.op putAX]) := by
    refine (run_stateAfter (fun _ _ => True) (by decide +kernel)).of_forall fun s a ha _ => ?_
    obtain rfl := List.mem_singleton.1 ha
    exact ⟨_, carries_putAX⟩
  have hput :
      AnsweredOk ((stateAfter [.op putAX]).serve plainLib [clientRequest getA]).session.sent
        ∧ (stateAfter [.op putAX]).HeldByWriters ['a'] := by
    decide +kernel
  obtain ⟨hread, hheld⟩ := hput
  exact ⟨hrun, (create_refused_iff plainLib_faithful hrun carries_getA isOp_getA carries_createAY
    isOp_createAY hread).2 hheld⟩

/-- The key `a` is put, its first owner crashes, and the next read finds out. -/
def putThenDown : List ClusterAction := [.op putAX, .crash (localAddr 9003), .op getA]

/-- A create of a key that exists is not always refused: while an owner is DOWN, the successor that
    has never had the key accepts it, and the client gets its 201. -/
theorem create_accepted :
    Run (ClusterState.step plainLib)
        (fun s a => Legal threeBackends s a
          ∧ ∀ s', s.step plainLib a = some s' → s'.OneFault threeBackends)
        (.start threeBackends 10) putThenDown (stateAfter putThenDown)
      ∧ AnsweredOk ((stateAfter putThenDown).serve plainLib [clientRequest getA]).session.sent
      ∧ (parseHTTPResponse ((stateAfter putThenDown).serve plainLib
          [clientRequest createAY]).session.sent.flatten).response.statusCode = 201
      ∧ (stateAfter putThenDown).servers.entry (localAddr 9002) ['a'] = none
      ∧ Fleet.entry ((stateAfter putThenDown).serve plainLib
          [clientRequest createAY]).session.world (localAddr 9002) ['a'] = some ['y'] := by
  refine ⟨(run_stateAfter LeavesOneFault (by decide +kernel)).of_forall fun s a ha hone =>
    ⟨?_, hone⟩, by decide +kernel⟩
  simp only [putThenDown, List.mem_cons, List.not_mem_nil, or_false] at ha
  rcases ha with rfl | rfl | rfl
  · exact ⟨_, carries_putAX⟩
  · exact ⟨⟨"127.0.0.1".toList, 9003, .up⟩, by decide, rfl⟩
  · exact ⟨_, carries_getA⟩

end

end KvStore.Cluster
