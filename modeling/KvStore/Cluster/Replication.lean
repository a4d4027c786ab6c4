import KvStore.Http.Request
import KvStore.Lib.Run
import KvStore.Ring.Agreement
import KvStore.Server.Fleet

/-!
# Concurrent writers

Proxy sessions that handle PUT and DELETE requests while all backends are UP. A session routes a
request and then forwards it to the candidates one after the other; the sessions take turns in any
order. There is no lock for a key, so the two replicas can see two writes in different orders.

* `WriterState.Inv.step`: as long as second forwards do not undo the order of the first replica, a
  key whose replicas differ has a second forward pending that brings the first replica's entry.
* `replicas_agree`: so the replicas agree once all sessions have finished.
* `replicas_disagree`: two sessions that write one key.
-/

namespace KvStore.Cluster
open KvStore.Lib KvStore.Ring KvStore.Server

/-- A session: the requests still to be handled, and the forwards of the current one that are left,
    in order. -/
structure Writer where
  queue : List Write
  pending : List (Write × Backend) := []
deriving DecidableEq

/-- The servers by address, and the sessions. -/
structure WriterState (ι : Type*) where
  servers : Fleet
  sessions : ι → Writer

/-- The steps of a session: route the next request, or forward the current one. -/
inductive WriterAction (ι : Type*) where
  | route (i : ι)
  | forward (i : ι)
deriving DecidableEq

variable {ι : Type*}

/-- The key a write is routed by. -/
def routingKey (w : Write) : Str :=
  Http.HttpRequest.getKey { path := w.target, body := w.request.body }

/-- All sessions have their requests ahead of them. -/
def WriterState.start (servers : Fleet) (queues : ι → List Write) : WriterState ι :=
  ⟨servers, fun i => ⟨queues i, []⟩⟩

/-- All sessions have finished all their requests. -/
def WriterState.Finished (s : WriterState ι) : Prop := ∀ i, s.sessions i = ⟨[], []⟩

section
variable [StdHash] [DecidableEq ι]

/-- One step of a session. -/
def WriterState.step (r : Router) (s : WriterState ι) : WriterAction ι → Option (WriterState ι)
  | .route i =>
    match s.sessions i with
    | ⟨w :: queue, []⟩ =>
      match r.getWriteBackendsForKey (routingKey w) 2 with
      | .ok candidates =>
        some { s with
          sessions := Function.update s.sessions i ⟨queue, candidates.map fun b => (w, b)⟩ }
      | .error _ => none
    | _ => none
  | .forward i =>
    match s.sessions i with
    | ⟨queue, (w, b) :: pending⟩ =>
      some
        { servers := s.servers.write b.addr w
          sessions := Function.update s.sessions i ⟨queue, pending⟩ }
    | _ => none

/-- The nodes of a key hold the same entry for it. -/
def ReplicasAgree (r : Router) (servers : Fleet) (key : Str) : Prop :=
  ∀ b ∈ r.hashRing.getNodes key 2, ∀ c ∈ r.hashRing.getNodes key 2,
    servers.entry b.addr key = servers.entry c.addr key

/-- The steps that do no harm. A write is routed to the nodes of the key it is about. And a second
    forward finds on the first replica what its write left there, or another session is about to
    bring what it finds instead. -/
def InOrder (r : Router) (s : WriterState ι) : WriterAction ι → Prop
  | .route i => ∀ w queue key, s.sessions i = ⟨w :: queue, []⟩ → w.key = some key →
      r.hashRing.getNodes (routingKey w) 2 = r.hashRing.getNodes key 2
  | .forward i => ∀ w b key first, (s.sessions i).pending = [(w, b)] → w.key = some key →
      r.hashRing.getNodes key 2 = [first, b] →
      s.servers.entry first.addr key = w.effect
        ∨ ∃ j ≠ i, ∃ w', (s.sessions j).pending = [(w', b)] ∧ w'.key = some key
            ∧ w'.effect = s.servers.entry first.addr key

/-- What the sessions have pending, and what this means for keys whose replicas differ. -/
structure WriterState.Inv (r : Router) (s : WriterState ι) : Prop where
  pending : ∀ i w b key, (w, b) ∈ (s.sessions i).pending → w.key = some key →
    (s.sessions i).pending <:+ (r.hashRing.getNodes key 2).map fun b => (w, b)
  agree : ∀ key first second, r.hashRing.getNodes key 2 = [first, second] →
    s.servers.entry first.addr key = s.servers.entry second.addr key
      ∨ ∃ i w, (s.sessions i).pending = [(w, second)] ∧ w.key = some key
          ∧ w.effect = s.servers.entry first.addr key

variable {r : Router} {s s' : WriterState ι} {a : WriterAction ι}

/-- What a step does. -/
lemma step_cases (h : s.step r a = some s') :
    (∃ i w queue candidates, a = .route i ∧ s.sessions i = ⟨w :: queue, []⟩
      ∧ r.getWriteBackendsForKey (routingKey w) 2 = .ok candidates
      ∧ s' = { s with
          sessions := Function.update s.sessions i ⟨queue, candidates.map fun b => (w, b)⟩ })
    ∨ ∃ i queue w b pending, a = .forward i ∧ s.sessions i = ⟨queue, (w, b) :: pending⟩
      ∧ s' =
        { servers := s.servers.write b.addr w
          sessions := Function.update s.sessions i ⟨queue, pending⟩ } := by
  cases a with
  | route i =>
    simp only [WriterState.step] at h
    split at h
    · rename_i w queue hi
      split at h
      · rename_i candidates hc
        exact .inl ⟨i, w, queue, candidates, rfl, hi, hc, (Option.some.inj h).symm⟩
      · cases h
    · cases h
  | forward i =>
    simp only [WriterState.step] at h
    split at h
    · rename_i queue w b pending hi
      exact .inr ⟨i, queue, w, b, pending, rfl, hi, (Option.some.inj h).symm⟩
    · cases h

/-- Routing a request keeps the invariant. -/
lemma WriterState.Inv.route (hinv : s.Inv r) (hup : r.AllUp) {i : ι} {w : Write}
    {queue : List Write} {candidates : List Backend} (hi : s.sessions i = ⟨w :: queue, []⟩)
    (hc : r.getWriteBackendsForKey (routingKey w) 2 = .ok candidates)
    (hok : InOrder r s (.route i)) :
    WriterState.Inv r { s with
      sessions := Function.update s.sessions i ⟨queue, candidates.map fun b => (w, b)⟩ } := by
  constructor
  · intro j w' b key hmem hkey
    by_cases hj : j = i
    · subst hj
      simp only [Function.update_self] at hmem ⊢
      obtain ⟨b', -, he⟩ := List.mem_map.1 hmem
      obtain ⟨rfl, rfl⟩ := Prod.mk.inj he
      rw [hup.targetsForKey rfl hc, hok w queue key hi hkey]
    · simp only [Function.update_of_ne hj] at hmem ⊢
      exact hinv.pending j w' b key hmem hkey
  · intro key first second hnodes
    rcases hinv.agree key first second hnodes with heq | ⟨j, w', hj, hw'⟩
    · exact .inl heq
    · have hji : j ≠ i := by
        rintro rfl
        rw [hi] at hj
        cases hj
      exact .inr ⟨j, w', by simpa [hji] using hj, hw'⟩

/-- Forwarding a write keeps the invariant. -/
lemma WriterState.Inv.forward (hinv : s.Inv r) {i : ι} {queue : List Write} {w : Write}
    {b : Backend} {pending : List (Write × Backend)}
    (hi : s.sessions i = ⟨queue, (w, b) :: pending⟩) (hok : InOrder r s (.forward i)) :
    WriterState.Inv r
      { servers := s.servers.write b.addr w
        sessions := Function.update s.sessions i ⟨queue, pending⟩ } := by
  have hpi : (s.sessions i).pending = (w, b) :: pending := by rw [hi]
  constructor
  · intro j w' b' key hmem hkey
    by_cases hj : j = i
    · subst hj
      simp only [Function.update_self] at hmem ⊢
      have hsuffix := hinv.pending j w' b' key (hpi ▸ List.mem_cons_of_mem _ hmem) hkey
      rw [hpi] at hsuffix
      exact (List.suffix_cons _ _).trans hsuffix
    · simp only [Function.update_of_ne hj] at hmem ⊢
      exact hinv.pending j w' b' key hmem hkey
  · intro key first second hnodes
    have hne : first.addr ≠ second.addr := by
      have hnd := nodup_getNodes r.hashRing key 2
      rw [hnodes] at hnd
      simpa using hnd
    simp only [entry_write]
    by_cases hkey : w.key = some key
    · have hsuffix := hinv.pending i w b key (hpi ▸ List.mem_cons_self) hkey
      rw [hpi, hnodes] at hsuffix
      -- what is pending is both forwards or only the second one
      rcases List.suffix_cons_iff.1 hsuffix with hboth | hrest
      · obtain ⟨hb, rfl⟩ := List.cons.inj hboth
        obtain rfl := (Prod.mk.inj hb).2
        refine .inr ⟨i, w, by simp, hkey, ?_⟩
        simp [hkey]
      · rcases List.suffix_cons_iff.1 hrest with hsecond | hnil
        · obtain ⟨hb, rfl⟩ := List.cons.inj hsecond
          obtain rfl := (Prod.mk.inj hb).2
          rw [if_neg fun h => hne h.1, if_pos ⟨rfl, hkey⟩]
          rcases hok w b key first hpi hkey hnodes with heq | ⟨j, hji, w', hj, hw'⟩
          · exact .inl heq
          · exact .inr ⟨j, w', by simpa [hji] using hj, hw'⟩
        · simp at hnil
    · rw [if_neg fun h => hkey h.2, if_neg fun h => hkey h.2]
      rcases hinv.agree key first second hnodes with heq | ⟨j, w', hj, hk', he'⟩
      · exact .inl heq
      · have hji : j ≠ i := by
          rintro rfl
          rw [hpi] at hj
          obtain ⟨hw, -⟩ := List.cons.inj hj
          obtain rfl := (Prod.mk.inj hw).1
          exact hkey hk'
        exact .inr ⟨j, w', by simpa [hji] using hj, hk', he'⟩

/-- Every step that is in order keeps the invariant. -/
lemma WriterState.Inv.step (hup : r.AllUp) (hinv : s.Inv r) (hok : InOrder r s a)
    (h : s.step r a = some s') : s'.Inv r := by
  rcases step_cases h with ⟨i, w, queue, candidates, rfl, hi, hc, rfl⟩
    | ⟨i, queue, w, b, pending, rfl, hi, rfl⟩
  · exact hinv.route hup hi hc hok
  · exact hinv.forward hi hok

/-- When all backends are UP, every run of the sessions that is in order and in which all requests
    have been finished leaves the replicas of every key in agreement. -/
theorem replicas_agree (hup : r.AllUp) {servers : Fleet}
    (hinit : ∀ key, ReplicasAgree r servers key) {queues : ι → List Write}
    {ls : List (WriterAction ι)}
    (hrun : Run (WriterState.step r) (InOrder r) (.start servers queues) ls s)
    (hfinished : s.Finished) (key : Str) : ReplicasAgree r s.servers key := by
  have hstart : WriterState.Inv r (.start servers queues) := by
    refine ⟨fun i w b key hmem => absurd hmem List.not_mem_nil, fun key first second hnodes => ?_⟩
    refine .inl (hinit key first ?_ second ?_) <;> simp [hnodes]
  have hinv : s.Inv r := hrun.invariant (fun hinv hok h => hinv.step hup hok h) hstart
  have hlen := length_getNodes_le r.hashRing key 2
  unfold ReplicasAgree
  match hnodes : r.hashRing.getNodes key 2, hlen with
  | [], _ => nofun
  | [first], _ =>
    intro b hb c hc
    rw [List.mem_singleton.1 hb, List.mem_singleton.1 hc]
  | [first, second], _ =>
    rcases hinv.agree key first second hnodes with heq | ⟨i, w, hi, -⟩
    · intro b hb c hc
      rcases List.mem_pair.1 hb with rfl | rfl <;> rcases List.mem_pair.1 hc with rfl | rfl
      · rfl
      · exact heq
      · exact heq.symm
      · rfl
    · rw [hfinished i] at hi
      cases hi

end

section
attribute [local instance] djb2

/-- A client puts the key `a` to `x`, another one puts it to `y`. -/
def twoWriters (i : Bool) : List Write :=
  [.put (keyPath ['a']) (if i then ['x'] else ['y'])]

/-- Empty servers, and these two requests. -/
def twoWritersStart : WriterState Bool := .start (fun _ => .new 10) twoWriters

/-- The second session is behind the first one at both replicas. -/
def following : List (WriterAction Bool) :=
  [.route true, .route false, .forward true, .forward false, .forward true, .forward false]

/-- The state this run ends in. -/
def followed : WriterState Bool :=
  (exec (WriterState.step (initialRouter 1)) twoWritersStart following).getD twoWritersStart

/-- The second session is ahead of the first one at the second replica. -/
def overtaking : List (WriterAction Bool) :=
  [.route true, .route false, .forward true, .forward false, .forward false, .forward true]

/-- The backends of the key `a`. -/
lemma getNodes_a : (initialRouter 1).hashRing.getNodes ['a'] 2
    = [⟨"127.0.0.1".toList, 9003, .up⟩, ⟨"127.0.0.1".toList, 9001, .up⟩] := by
  decide +kernel

/-- No backend of the initial router is marked. -/
lemma initialRouter_allUp : (initialRouter 1).AllUp :=
  have hnew : Router.new initialBackends 1 = .ok (initialRouter 1) := rfl
  new_allUp hnew (by decide) (by decide)

/-- The replicas agree when no session overtakes the other. -/
theorem replicas_agree_following :
    Run (WriterState.step (initialRouter 1)) (InOrder (initialRouter 1)) twoWritersStart following
        followed
      ∧ followed.Finished ∧ ReplicasAgree (initialRouter 1) followed.servers ['a'] := by
  have hrun : Run (WriterState.step (initialRouter 1)) (InOrder (initialRouter 1)) twoWritersStart
      following followed := by
    refine .cons ?_ rfl (.cons ?_ rfl (.cons ?_ rfl (.cons ?_ rfl (.cons ?_ rfl
      (.cons ?_ rfl .nil)))))
    · rintro w queue key ⟨⟩ ⟨⟩
      rfl
    · rintro w queue key ⟨⟩ ⟨⟩
      rfl
    · rintro w b key first ⟨⟩
    · rintro w b key first ⟨⟩
    · -- the first replica holds the value of the other session, which is still to bring it
      rintro w b key first ⟨⟩ ⟨⟩ hnodes
      cases getNodes_a.symm.trans hnodes
      exact .inr ⟨false, by decide, .put (keyPath ['a']) ['y'], rfl, rfl, by decide +kernel⟩
    · rintro w b key first ⟨⟩ ⟨⟩ hnodes
      cases getNodes_a.symm.trans hnodes
      exact .inl (by decide +kernel)
  have hfinished : followed.Finished := by
    rintro (_ | _) <;> rfl
  have hinit : ∀ key, ReplicasAgree (initialRouter 1) twoWritersStart.servers key :=
    fun key b _ c _ => rfl
  exact ⟨hrun, hfinished, replicas_agree initialRouter_allUp hinit hrun hfinished ['a']⟩

/-- The replicas do not always agree once all sessions have finished. -/
theorem replicas_disagree :
    ∃ s : WriterState Bool, (initialRouter 1).AllUp
      ∧ (∀ key, ReplicasAgree (initialRouter 1) twoWritersStart.servers key)
      ∧ Run (WriterState.step (initialRouter 1)) anyStep twoWritersStart overtaking s
      ∧ s.Finished ∧ ¬ ReplicasAgree (initialRouter 1) s.servers ['a'] := by
  refine ⟨_, initialRouter_allUp, fun key b _ c _ => rfl, .of_exec rfl, ?_, ?_⟩
  · rintro (_ | _) <;> rfl
  · intro h
    have hxy := h ⟨"127.0.0.1".toList, 9003, .up⟩ (getNodes_a ▸ List.mem_cons_self)
      ⟨"127.0.0.1".toList, 9001, .up⟩ (getNodes_a ▸ List.mem_cons_of_mem _ List.mem_cons_self)
    revert hxy
    decide +kernel

end

end KvStore.Cluster
