import KvStore.Ring.HashRing

/-!
# The router

`Router.cpp`: the hash ring together with the status map `backends_`, keyed by port. Each of the
three mark operations assigns the status and then updates the ring; the two steps have definitions
of their own (`setStatus`, `ringAdd`, `ringRemove`) because other threads can run between them.
`Router.Reachable` are the routers that the constructor and any sequence of mark operations produce.
-/

namespace KvStore.Ring
open KvStore.Lib

/-- The router: the ring and the status map. -/
structure Router where
  hashRing : HashRing
  backends : OrdMap ℤ Backend

/-- The text of the `runtime_error` the lookups throw on an empty ring. -/
def noBackendError : Str := "No available backend servers in HashRing!".toList

/-- The status a port has in the map. -/
def Router.statusOf (r : Router) (port : ℤ) : Option BackendStatus :=
  (r.backends.find port).map Backend.status

/-- The entry `node` is looked up as, if its status is one of those accepted. -/
def Router.lookup (r : Router) (accept : BackendStatus → Bool) (node : Backend) : Option Backend :=
  (r.backends.find node.port).filter fun b => accept b.status

/-- Reads are served by backends that are UP. -/
def servesReads : BackendStatus → Bool
  | .up => true
  | _ => false

/-- Writes are served by backends that are UP or RECOVERING. -/
def servesWrites : BackendStatus → Bool
  | .up => true
  | .recovering => true
  | .down => false

/-- Only a backend that is UP serves reads. -/
lemma servesReads_iff {status : BackendStatus} : servesReads status = true ↔ status = .up := by
  cases status <;> decide

/-- The first step of the mark operations: assign the status of a known port. -/
def Router.setStatus (r : Router) (port : ℤ) (status : BackendStatus) : Router :=
  match r.backends.find port with
  | none => r
  | some b => { r with backends := r.backends.insert port (b.withStatus status) }

section
variable [StdHash]

/-- The constructor. -/
def Router.new (backends : List Backend) (vnodesPerBackend : ℕ) : Except Str Router :=
  if backends.isEmpty then .error "Router requires at least one backend node!".toList
  else
    .ok (backends.foldl
      (fun r b =>
        { hashRing := r.hashRing.addNode b, backends := r.backends.insert b.port b })
      ⟨⟨vnodesPerBackend, .empty⟩, .empty⟩)

/-- `removeBackend`. -/
def Router.removeBackend (r : Router) (backend : Backend) : Router :=
  { hashRing := r.hashRing.removeNode backend, backends := r.backends.erase backend.port }

/-- The lookup the read and the write path share: the nodes of the key, as the status map has them. -/
def Router.targetsForKey (r : Router) (accept : BackendStatus → Bool) (key : Str)
    (replicationFactor : ℕ) : Except Str (List Backend) :=
  if r.hashRing.empty then .error noBackendError
  else .ok ((r.hashRing.getNodes key replicationFactor).filterMap (r.lookup accept))

/-- `getReadBackendsForKey`. -/
def Router.getReadBackendsForKey (r : Router) : Str → ℕ → Except Str (List Backend) :=
  r.targetsForKey servesReads

/-- `getWriteBackendsForKey`. -/
def Router.getWriteBackendsForKey (r : Router) : Str → ℕ → Except Str (List Backend) :=
  r.targetsForKey servesWrites

/-- `getBackendsForKey`. -/
def Router.getBackendsForKey (r : Router) (key : Str) (replicationFactor : ℕ) :
    Except Str (List Backend) :=
  if r.hashRing.empty then .error noBackendError
  else .ok (r.hashRing.getNodes key replicationFactor)

/-- The second step of marking a backend RECOVERING or UP: put it on the ring as the map has it. -/
def Router.ringAdd (r : Router) (port : ℤ) : Router :=
  match r.backends.find port with
  | none => r
  | some b => { r with hashRing := r.hashRing.addNode b }

/-- The second step of marking a backend DOWN: take it off the ring. -/
def Router.ringRemove (r : Router) (port : ℤ) : Router :=
  match r.backends.find port with
  | none => r
  | some b => { r with hashRing := r.hashRing.removeNode b }

/-- `markBackendRecovering`. -/
def Router.markBackendRecovering (r : Router) (port : ℤ) : Router :=
  (r.setStatus port .recovering).ringAdd port

/-- `markBackendUp`. -/
def Router.markBackendUp (r : Router) (port : ℤ) : Router :=
  (r.setStatus port .up).ringAdd port

/-- `markBackendDown`. -/
def Router.markBackendDown (r : Router) (port : ℤ) : Router :=
  (r.setStatus port .down).ringRemove port

end

/-- `getOnlineBackends`. -/
def Router.getOnlineBackends (r : Router) : List Backend :=
  (r.backends.entries.map Prod.snd).filter (fun b => b.status = .up)

/-- `getAllBackends`. The source iterates over an unordered map: any order may come out. -/
def Router.getAllBackends (r : Router) : List Backend := r.backends.entries.map Prod.snd

/-- All backends are those that the map has under some port. -/
lemma mem_getAllBackends {r : Router} {b : Backend} :
    b ∈ r.getAllBackends ↔ ∃ port, r.backends.find port = some b := by
  simp only [Router.getAllBackends, List.mem_map, ← OrdMap.mem_entries]
  constructor
  · rintro ⟨⟨port, b⟩, he, rfl⟩
    exact ⟨port, he⟩
  · rintro ⟨port, he⟩
    exact ⟨(port, b), he, rfl⟩

section
variable {r : Router} (h : ∀ {port b}, r.backends.find port = some b → b.port = port)
include h

/-- Where every backend has its own port, it is found there. -/
lemma find_of_mem_getAllBackends {b : Backend} (hb : b ∈ r.getAllBackends) :
    r.backends.find b.port = some b := by
  obtain ⟨port, hfind⟩ := mem_getAllBackends.1 hb
  rwa [h hfind]

/-- And no two of them have the same one. -/
lemma nodup_port_getAllBackends : (r.getAllBackends.map Backend.port).Nodup := by
  have hports : r.getAllBackends.map Backend.port = r.backends.keys := by
    rw [Router.getAllBackends, List.map_map, OrdMap.keys]
    exact List.map_congr_left fun e he => h (OrdMap.mem_entries.1 he)
  rw [hports]
  exact OrdMap.nodup_keys _

end

/-- The map after the first step of a mark operation. -/
lemma find_setStatus (r : Router) (port p : ℤ) (status : BackendStatus) :
    (r.setStatus port status).backends.find p
      = if port = p then (r.backends.find p).map (·.withStatus status) else r.backends.find p := by
  unfold Router.setStatus
  cases h : r.backends.find port with
  | none =>
    by_cases hp : port = p
    · subst hp
      simp [h]
    · simp [hp]
  | some b =>
    simp only [OrdMap.find_insert]
    by_cases hp : port = p
    · subst hp
      simp [h]
    · simp [hp]

/-- The first step does not change the ring. -/
@[simp] lemma hashRing_setStatus (r : Router) (port : ℤ) (status : BackendStatus) :
    (r.setStatus port status).hashRing = r.hashRing := by
  unfold Router.setStatus
  split <;> rfl

/-- The status of a port after the first step of a mark operation. -/
lemma statusOf_setStatus (r : Router) (port p : ℤ) (status : BackendStatus) :
    (r.setStatus port status).statusOf p
      = if port = p then (r.statusOf p).map fun _ => status else r.statusOf p := by
  unfold Router.statusOf
  rw [find_setStatus]
  split_ifs with h
  · simp [Option.map_map, Function.comp_def]
  · rfl

section
variable [StdHash]

/-- Adding to the ring does not change the backends, -/
@[simp] lemma backends_ringAdd (r : Router) (port : ℤ) : (r.ringAdd port).backends = r.backends := by
  unfold Router.ringAdd
  split <;> rfl

/-- nor does removing from it. -/
@[simp] lemma backends_ringRemove (r : Router) (port : ℤ) :
    (r.ringRemove port).backends = r.backends := by
  unfold Router.ringRemove
  split <;> rfl

/-- The map after any of the mark operations. -/
lemma find_markBackendUp (r : Router) (port p : ℤ) :
    (r.markBackendUp port).backends.find p
      = if port = p then (r.backends.find p).map (·.withStatus .up) else r.backends.find p := by
  rw [Router.markBackendUp, backends_ringAdd, find_setStatus]

/-- The backends after one of them has been marked RECOVERING. -/
lemma find_markBackendRecovering (r : Router) (port p : ℤ) :
    (r.markBackendRecovering port).backends.find p
      = if port = p then (r.backends.find p).map (·.withStatus .recovering)
        else r.backends.find p := by
  rw [Router.markBackendRecovering, backends_ringAdd, find_setStatus]

/-- The lookups throw exactly on an empty ring. -/
lemma targetsForKey_eq_error {r : Router} {accept : BackendStatus → Bool} {key : Str} {n : ℕ}
    {what : Str} : r.targetsForKey accept key n = .error what
      ↔ r.hashRing.empty = true ∧ what = noBackendError := by
  unfold Router.targetsForKey
  split_ifs with he
  · constructor
    · intro h
      exact ⟨he, (Except.error.inj h).symm⟩
    · rintro ⟨-, rfl⟩
      rfl
  · constructor
    · nofun
    · rintro ⟨h, -⟩
      exact absurd h he

/-- What the lookups return. -/
lemma targetsForKey_ok {r : Router} {accept : BackendStatus → Bool} {key : Str} {n : ℕ}
    {targets : List Backend} (h : r.targetsForKey accept key n = .ok targets) :
    r.hashRing.empty = false ∧
      targets = (r.hashRing.getNodes key n).filterMap (r.lookup accept) := by
  unfold Router.targetsForKey at h
  split_ifs at h with he
  exact ⟨by simpa using he, (Except.ok.inj h).symm⟩

/-- What `getBackendsForKey` returns. -/
lemma getBackendsForKey_ok {r : Router} {key : Str} {n : ℕ} {replicas : List Backend} :
    r.getBackendsForKey key n = .ok replicas
      ↔ r.hashRing.empty = false ∧ r.hashRing.getNodes key n = replicas := by
  unfold Router.getBackendsForKey
  cases he : r.hashRing.empty with
  | false => simp
  | true => simp

/-- A target is the status map's entry for its port. -/
lemma mem_targetsForKey {r : Router} {accept : BackendStatus → Bool} {key : Str} {n : ℕ}
    {targets : List Backend} (h : r.targetsForKey accept key n = .ok targets) {b : Backend}
    (hb : b ∈ targets) :
    ∃ node ∈ r.hashRing.getNodes key n,
      r.backends.find node.port = some b ∧ accept b.status = true := by
  obtain ⟨-, rfl⟩ := targetsForKey_ok h
  obtain ⟨node, hnode, hl⟩ := List.mem_filterMap.1 hb
  exact ⟨node, hnode, Option.filter_eq_some_iff.1 hl⟩

/-- The mark operations of a run. -/
inductive Mark where
  | down
  | recovering
  | up
deriving DecidableEq, Repr

/-- The status a mark operation assigns. -/
def Mark.status : Mark → BackendStatus
  | .down => .down
  | .recovering => .recovering
  | .up => .up

/-- The ring update that ends a mark operation. -/
def Mark.ringStep : Mark → Router → ℤ → Router
  | .down, r, port => r.ringRemove port
  | .recovering, r, port => r.ringAdd port
  | .up, r, port => r.ringAdd port

/-- A whole mark operation. -/
def Mark.apply (m : Mark) (r : Router) (port : ℤ) : Router :=
  m.ringStep (r.setStatus port m.status) port

/-- The mark operations by their names in the source: `markBackendDown`, -/
lemma Mark.apply_down (r : Router) (port : ℤ) : Mark.down.apply r port = r.markBackendDown port := rfl

/-- `markBackendUp`, -/
lemma Mark.apply_up (r : Router) (port : ℤ) : Mark.up.apply r port = r.markBackendUp port := rfl

/-- and `markBackendRecovering`. -/
lemma Mark.apply_recovering (r : Router) (port : ℤ) :
    Mark.recovering.apply r port = r.markBackendRecovering port := rfl

/-- The statuses after a mark operation. -/
lemma statusOf_apply (m : Mark) (r : Router) (port p : ℤ) : (m.apply r port).statusOf p
    = if port = p then (r.statusOf p).map fun _ => m.status else r.statusOf p := by
  have hring : (m.apply r port).backends = (r.setStatus port m.status).backends := by
    cases m with
    | down => exact backends_ringRemove _ _
    | recovering => exact backends_ringAdd _ _
    | up => exact backends_ringAdd _ _
  rw [Router.statusOf, hring, ← Router.statusOf, statusOf_setStatus]

/-- The routers that the constructor and mark operations on any ports produce. -/
inductive Router.Reachable (backends : List Backend) (vnodes : ℕ) : Router → Prop where
  | new {r} :
    Router.new backends vnodes = .ok r →
    Router.Reachable backends vnodes r
  | mark {r} (m : Mark) (port : ℤ) :
    Router.Reachable backends vnodes r →
    Router.Reachable backends vnodes (m.apply r port)

end

end KvStore.Ring
