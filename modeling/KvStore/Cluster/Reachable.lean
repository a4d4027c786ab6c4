import KvStore.Cluster.System

/-!
# Reachable states

What holds in every state of a run, whatever requests arrive, whichever backends crash and restart
and whenever the health checker visits them: the router has only been marked since it was
constructed, and no cache differs from its table. `Kept` are the properties of the servers that
requests, restarts and the calls of the health checker keep.

* `Kept.step`: then every step keeps them.
* `sound_of_run`: so the states of a run are `Sound`.
* `ClusterState.Sound.serve_get`: what a GET gets in such a state.
-/

namespace KvStore.Cluster
open KvStore.Lib KvStore.Ring KvStore.Http KvStore.Server KvStore.Session KvStore.Recovery
  KvStore.Health

/-- What requests, restarts and the calls of the health checker keep. -/
structure Kept (lib : HttpLib) (P : Fleet → Prop) : Prop where
  dispatch : ∀ servers addr payload req, P servers → .ok req ∈ lib.read payload →
    P (Function.update servers addr ((servers addr).dispatch req none).2)
  restart : ∀ servers addr, P servers →
    P (Function.update servers addr (restarted (servers addr)))
  calls : ∃ Fetched, ∀ crashed, Keeps (fleetClient crashed) P Fetched

/-- Coherence is kept. -/
lemma kept_coherent (lib : HttpLib) : Kept lib Fleet.Coherent where
  dispatch _ addr _ req h _ := h.update addr (coherent_dispatch (h addr) req)
  restart _ addr h := h.update addr coherent_restarted
  calls := ⟨fun _ _ => True, fun crashed => ⟨fun addr _ _ h => h.call crashed addr _,
    fun _ _ _ _ => trivial, fun addr _ _ _ h _ => h.call crashed addr _⟩⟩

/-- What the requests of a payload keep one by one, a server that runs them all keeps. -/
lemma Kept.talk {lib : HttpLib} {P : Fleet → Prop} (h : Kept lib P) {crashed : Addr → Bool}
    (addr : Addr) (payload : Str) {servers : Fleet} (hp : P servers) :
    P ((fleetNetwork lib crashed).talk addr payload servers).2 := by
  have hall (found : List (Except (List Str) Request)) (hfound : found ⊆ lib.read payload)
      (s : KvServer) (hs : P (Function.update servers addr s)) :
      P (Function.update servers addr (outputs lib.answer s found).2) := by
    induction found generalizing s with
    | nil => exact hs
    | cons e found ih =>
      obtain ⟨he, hrest⟩ := List.cons_subset.1 hfound
      refine ih hrest _ ?_
      cases e with
      | error bytes => exact hs
      | ok req =>
        have hdispatch := h.dispatch _ addr payload req hs he
        rwa [Function.update_self, Function.update_idem] at hdispatch
  refine hall _ (List.Subset.refl _) (servers addr) ?_
  rwa [Function.update_eq_self]

section
variable [StdHash]

/-- The router is one that the constructor and mark operations produce, and no cache differs from its
    table. -/
structure ClusterState.Sound (d : Deployment) (s : ClusterState) : Prop where
  router : Router.Reachable d.backends d.vnodes s.router
  coherent : s.servers.Coherent

variable {d : Deployment} {lib : HttpLib} {s s' : ClusterState} {P : Fleet → Prop}

/-- Every step keeps what its parts keep. -/
lemma Kept.step (h : Kept lib P) {a : ClusterAction}
    (hs : Router.Reachable d.backends d.vnodes s.router ∧ P s.servers)
    (hstep : s.step lib a = some s') :
    Router.Reachable d.backends d.vnodes s'.router ∧ P s'.servers := by
  obtain ⟨hr, hp⟩ := hs
  cases a with
  | connection incoming =>
    have hsession : (s.serve lib incoming).session.backendSocket = none
        ∧ Router.Reachable d.backends d.vnodes (s.serve lib incoming).session.router
        ∧ P (s.serve lib incoming).session.world := by
      refine forwardTraffic_invariant
        (I := fun s : ProxySession Fleet => s.backendSocket = none
          ∧ Router.Reachable d.backends d.vnodes s.router ∧ P s.world) ?_ incoming ⟨rfl, hr, hp⟩
      rintro request s ⟨hsocket, hr, hp⟩
      obtain ⟨hsocket', hr'⟩ := handleRequest_reachable _ request hsocket hr
      refine ⟨hsocket', hr', handleRequest_keeps (fun _ _ hp => hp) ?_ request hsocket hp⟩
      exact fun addr payload servers hp => h.talk addr payload hp
    obtain rfl := eq_of_step_connection hstep
    exact hsession.2
  | crash addr =>
    obtain rfl := Option.some.inj hstep
    exact ⟨hr, hp⟩
  | restart addr =>
    obtain rfl := Option.some.inj hstep
    exact ⟨hr, h.restart s.servers addr hp⟩
  | cycle active backends =>
    obtain ⟨Fetched, hcalls⟩ := h.calls
    simp only [ClusterState.step] at hstep
    cases hc : healthCycle (fleetClient s.crashed) active backends (s.router, s.servers) with
    | error what =>
      rw [hc] at hstep
      cases hstep
    | ok result =>
      rw [hc] at hstep
      obtain rfl := Option.some.inj hstep
      exact healthCycle_keeps (hcalls s.crashed) ⟨hr, hp⟩ hc

/-- What is kept holds in every state of a run, if it holds at its beginning. -/
lemma Kept.run (h : Kept lib P) {ok : ClusterState → ClusterAction → Prop} {capacity : ℕ}
    {ls : List ClusterAction} (hstart : P fun _ => .new capacity)
    (hrun : Run (ClusterState.step lib) ok (.start d capacity) ls s) :
    Router.Reachable d.backends d.vnodes s.router ∧ P s.servers :=
  hrun.invariant (I := fun s => Router.Reachable d.backends d.vnodes s.router ∧ P s.servers)
    (fun hs _ hstep => h.step hs hstep) ⟨.new d.built, hstart⟩

/-- The states of a run are sound. -/
theorem sound_of_run {ok : ClusterState → ClusterAction → Prop} {capacity : ℕ}
    {ls : List ClusterAction}
    (hrun : Run (ClusterState.step lib) ok (.start d capacity) ls s) : s.Sound d := by
  obtain ⟨hr, hcoh⟩ := (kept_coherent lib).run (fun _ => coherent_new capacity) hrun
  exact ⟨hr, hcoh⟩

omit [StdHash] in
/-- The first candidate that runs. -/
lemma exists_first_running {crashed : Addr → Bool} {candidates : List Backend}
    (h : ∃ c ∈ candidates, crashed c.addr = false) :
    ∃ pre c post, candidates = pre ++ c :: post ∧ (∀ b ∈ pre, crashed b.addr = true)
      ∧ crashed c.addr = false := by
  induction candidates with
  | nil => simp at h
  | cons b candidates ih =>
    cases hb : crashed b.addr with
    | false => exact ⟨[], b, candidates, rfl, nofun, hb⟩
    | true =>
      obtain ⟨c, hc, hcr⟩ := h
      have hmem : c ∈ candidates := by
        rcases List.mem_cons.1 hc with rfl | hc
        · cases hb.symm.trans hcr
        · exact hc
      obtain ⟨pre, c', post, rfl, hpre, hc'⟩ := ih ⟨c, hmem, hcr⟩
      exact ⟨b :: pre, c', post, rfl, List.forall_mem_cons.2 ⟨hb, hpre⟩, hc'⟩

/-- What a client gets for a GET: nothing if routing throws, a 503 if no candidate runs, and
    otherwise the answer of the first one that does. -/
inductive ReadOutcome (lib : HttpLib) (s : ClusterState) (key : Str) (sent : List Str) : Prop where
  | throws {what} :
    s.router.getReadBackendsForKey key 2 = .error what →
    sent = [] →
    ReadOutcome lib s key sent
  | unavailable {candidates} :
    s.router.getReadBackendsForKey key 2 = .ok candidates →
    (∀ c ∈ candidates, s.crashed c.addr = true) →
    sent = [serviceUnavailable] →
    ReadOutcome lib s key sent
  | answered {candidates c} :
    s.router.getReadBackendsForKey key 2 = .ok candidates →
    c ∈ candidates →
    s.crashed c.addr = false →
    ((∀ value, s.servers.entry c.addr key = some value → value.length < 2 ^ 63) →
      ∃ bytes, sent = [bytes] ∧ IsAnswer lib (.get key) (s.servers.entry c.addr key) bytes) →
    ReadOutcome lib s key sent

variable {incoming : List Str} {request : HttpRequest} {key : Str}

/-- A GET has one of these outcomes. -/
lemma ClusterState.Sound.serve_get (h : s.Sound d) (hlib : lib.Faithful)
    (hcarries : Carries incoming request) (hop : IsOp lib request (.get key)) :
    ReadOutcome lib s key (s.serve lib incoming).session.sent := by
  obtain ⟨hsession, -⟩ := serve_carries lib s hcarries
  rw [hsession]
  cases hcand : s.router.getReadBackendsForKey key 2 with
  | error what =>
    refine .throws hcand ?_
    have hwr : isWriteRequest request = false := hop.isWriteRequest
    have hroute : (ProxySession.idle s.router s.servers []).candidates request = .error what := by
      rw [ProxySession.candidates, hwr, hop.getKey]
      exact hcand
    unfold handleRequest
    rw [hroute]
    rfl
  | ok candidates =>
    by_cases hall : ∀ c ∈ candidates, s.crashed c.addr = true
    · refine .unavailable hcand hall ?_
      rw [handleRequest_unavailable hop hcand hall]
      rfl
    · have hrunning : ∃ c ∈ candidates, s.crashed c.addr = false := by
        push Not at hall
        exact hall.imp fun c hc => ⟨hc.1, (Bool.not_eq_true _).mp hc.2⟩
      obtain ⟨pre, c, post, rfl, hpre, hc⟩ := exists_first_running hrunning
      refine .answered hcand (List.mem_append_right _ List.mem_cons_self) hc fun hlen => ?_
      obtain ⟨servers', bytes, hh, -, -, hanswer⟩ :=
        handleRequest_get hlib h.coherent hop hcand hpre hc hlen []
      rw [hh]
      exact ⟨bytes, rfl, hanswer⟩

end

end KvStore.Cluster
