import KvStore.Cluster.Network
import KvStore.Health.Undisturbed
import KvStore.Lib.Run
import KvStore.Session.Acknowledge

/-!
# The whole system

The balancer and its servers, one step after the other: a client connection that carries one request,
handled by `forwardTraffic` from beginning to end, the crash of a server, whose table survives, its
restart with an empty cache, and a full cycle of the health checker. An exception that leaves a session
or the health checker ends the process. Between two requests a session keeps nothing but its buffer,
so a later request on the same connection is handled like one on a connection of its own. `log` is
what the clients got, the latest first.
-/

namespace KvStore.Cluster
open KvStore.Lib KvStore.Ring KvStore.Http KvStore.Server KvStore.Session KvStore.Recovery
  KvStore.Health

/-- A server after a restart. -/
def restarted (s : KvServer) : KvServer := { s with cache := .new s.cache.capacity }

/-- A request that has been handled: what the client got for it, and the backends that reported
    success if it was a write. -/
structure Exchange where
  request : HttpRequest
  sent : List Str
  applied : List Backend

/-- The router, the servers, those that have crashed, and the requests that have been handled. -/
structure ClusterState where
  router : Router
  servers : Fleet
  crashed : Addr → Bool
  log : List Exchange

/-- The steps of the system. -/
inductive ClusterAction where
  | connection (incoming : List Str)
  | crash (addr : Addr)
  | restart (addr : Addr)
  | cycle (active : Router → List Backend) (backends : List Backend)

variable [StdHash]

/-- A session on a connection. -/
def ClusterState.serve (lib : HttpLib) (s : ClusterState) (incoming : List Str) :
    Loop (ProxySession Fleet) :=
  forwardTraffic (handleRequest (fleetNetwork lib s.crashed)) incoming (.idle s.router s.servers [])

/-- The backends that report success when the request is a write. -/
def ClusterState.appliers (lib : HttpLib) (s : ClusterState) (request : HttpRequest) :
    List Backend :=
  match isWriteRequest request, s.router.getWriteBackendsForKey request.getKey 2 with
  | true, .ok candidates =>
    ((attempts (fleetNetwork lib s.crashed) (requestPayload request) candidates s.servers).1.filter
      fun e => e.2.Applied).map Prod.fst
  | _, _ => []

/-- One step. There is none after an exception. -/
def ClusterState.step (lib : HttpLib) (s : ClusterState) : ClusterAction → Option ClusterState
  | .connection incoming =>
    let request := (parseHTTPRequest incoming.flatten).request
    let served := s.serve lib incoming
    match served.phase with
    | .stopped (.exception _) => none
    | _ =>
      some { s with
        router := served.session.router
        servers := served.session.world
        log := ⟨request, served.session.sent, s.appliers lib request⟩ :: s.log }
  | .crash addr => some { s with crashed := Function.update s.crashed addr true }
  | .restart addr =>
    some { s with
      crashed := Function.update s.crashed addr false
      servers := Function.update s.servers addr (restarted (s.servers addr)) }
  | .cycle active backends =>
    match healthCycle (fleetClient s.crashed) active backends (s.router, s.servers) with
    | .ok (router, servers) => some { s with router := router, servers := servers }
    | .error _ => none

/-- A deployment with empty servers. -/
def ClusterState.start (d : Deployment) (capacity : ℕ) : ClusterState :=
  ⟨d.router, fun _ => .new capacity, fun _ => false, []⟩

/-- What can happen: a client sends one request, a backend crashes or restarts, and the health
    checker sees the backends in some order. -/
def Legal (d : Deployment) (s : ClusterState) : ClusterAction → Prop
  | .connection incoming => ∃ request, Carries incoming request
  | .crash addr => ∃ b ∈ d.backends, b.addr = addr
  | .restart addr => ∃ b ∈ d.backends, b.addr = addr
  | .cycle active backends =>
    backends.Perm s.router.getAllBackends ∧ ∀ r, (active r).Perm r.getOnlineBackends

/-- The backend has crashed or is not UP. -/
def ClusterState.Faulty (s : ClusterState) (b : Backend) : Prop :=
  s.crashed b.addr = true ∨ s.router.statusOf b.port ≠ some .up

instance (s : ClusterState) (b : Backend) : Decidable (s.Faulty b) :=
  inferInstanceAs (Decidable (_ ∨ _))

/-- At most one backend has crashed or is not UP. -/
def ClusterState.OneFault (d : Deployment) (s : ClusterState) : Prop :=
  ∀ b ∈ d.backends, ∀ c ∈ d.backends, s.Faulty b → s.Faulty c → b = c

instance (d : Deployment) (s : ClusterState) : Decidable (s.OneFault d) :=
  inferInstanceAs (Decidable (∀ b ∈ d.backends, ∀ c ∈ d.backends, s.Faulty b → s.Faulty c → b = c))

variable {lib : HttpLib} {s : ClusterState} {incoming : List Str} {request : HttpRequest}

/-- A session that handles one request. -/
lemma serve_carries (lib : HttpLib) (s : ClusterState) (h : Carries incoming request) :
    (s.serve lib incoming).session
        = (handleRequest (fleetNetwork lib s.crashed) request (.idle s.router s.servers [])).2
      ∧ (s.serve lib incoming).phase = .stopped
          (handleRequest (fleetNetwork lib s.crashed) request (.idle s.router s.servers [])).1.stop :=
  forwardTraffic_carries _ h _

/-- The state after a connection is that of its session. -/
lemma eq_of_step_connection {s' : ClusterState} (h : s.step lib (.connection incoming) = some s') :
    s' = { s with
      router := (s.serve lib incoming).session.router
      servers := (s.serve lib incoming).session.world
      log := ⟨(parseHTTPRequest incoming.flatten).request, (s.serve lib incoming).session.sent,
        s.appliers lib (parseHTTPRequest incoming.flatten).request⟩ :: s.log } := by
  simp only [ClusterState.step] at h
  split at h
  · cases h
  · exact (Option.some.inj h).symm

/-- The state after a connection, when it is known how its request is handled. -/
lemma step_connection (h : Carries incoming request) {flow : Flow} {r : Router} {servers : Fleet}
    {sent : List Str}
    (hh : handleRequest (fleetNetwork lib s.crashed) request (.idle s.router s.servers [])
      = (flow, .idle r servers sent)) (hflow : ∀ what, flow ≠ .throw what) :
    s.step lib (.connection incoming)
      = some { s with
          router := r
          servers := servers
          log := ⟨request, sent, s.appliers lib request⟩ :: s.log } := by
  obtain ⟨hsession, hphase⟩ := serve_carries lib s h
  simp only [ClusterState.step, hsession, hphase, hh, h.request_eq]
  cases flow with
  | next | ret => rfl
  | throw what => exact absurd rfl (hflow what)

/-- There is no state after an exception. -/
lemma step_connection_throws (h : Carries incoming request) {what : Str}
    {session : ProxySession Fleet}
    (hh : handleRequest (fleetNetwork lib s.crashed) request (.idle s.router s.servers [])
      = (.throw what, session)) : s.step lib (.connection incoming) = none := by
  obtain ⟨-, hphase⟩ := serve_carries lib s h
  simp only [ClusterState.step, hphase, hh, Flow.stop]

omit [StdHash] in
/-- A server that has been restarted has an empty cache. -/
lemma coherent_restarted {s : KvServer} : (restarted s).Coherent :=
  ⟨LRUCache.valid_new _, nofun⟩

end KvStore.Cluster
