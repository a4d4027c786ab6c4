import KvStore.Cluster.Unavailable
import KvStore.Health.Convergence
import KvStore.Health.Frame

/-!
# Runs in which clients ask for operations

Whichever backends crash and restart and whenever the health checker visits them: every backend is UP
or DOWN between two steps, the keys of the servers are words, and a request is answered by one of its
candidates that run, refused because none does, or ends in an exception on an empty ring.

* `Operating.connection`: what becomes of a request.
* `Operating.cycle`: what a cycle does to the router.
* `Operating.step`, `Operating.run`: what holds in every state of such a run.
-/

namespace KvStore.Cluster
open KvStore.Lib KvStore.Ring KvStore.Http KvStore.Server KvStore.Session KvStore.Recovery
  KvStore.Health

/-- The client got a 503. -/
def Exchange.isRefused (e : Exchange) : Bool := e.sent = [serviceUnavailable]

section
variable [StdHash]

/-- The routers after some backends have been marked DOWN. -/
def markedDown (r : Router) (backends : List Backend) : Router :=
  backends.foldl (fun r b => r.markBackendDown b.port) r

/-- Clients ask for operations only. -/
def Operates (lib : HttpLib) (d : Deployment) (s : ClusterState) (a : ClusterAction) : Prop :=
  Legal d s a ∧ ∀ incoming, a = .connection incoming →
    ∃ request op, Carries incoming request ∧ IsOp lib request op

/-- What holds between two steps: the router is settled and has only been marked, no cache differs
    from its table, the values fit into memory, the keys are words, and nobody but backends has
    crashed. -/
structure Operating (d : Deployment) (s : ClusterState) : Prop where
  settled : ∃ dir, Settled d.backends d.vnodes dir s.router
  kept : Router.Reachable d.backends d.vnodes s.router ∧ s.servers.Coherent ∧ Short s.servers
  words : s.servers.WordKeys
  crashed : ∀ addr, s.crashed addr = true → addr ∈ d.backends.map Backend.addr

variable {d : Deployment} {lib : HttpLib} {s s' : ClusterState} {b : Backend}
  {request : HttpRequest} {op : KeyOp} {candidates : List Backend}

omit [StdHash] in
/-- The answer of a backend is not a 503. -/
lemma IsAnswer.bytes_ne {lib : HttpLib} {op : KeyOp} {entry : Option Str} {bytes : Str}
    (h : IsAnswer lib op entry bytes) : bytes ≠ serviceUnavailable := by
  rintro rfl
  have hstatus : (parseHTTPResponse serviceUnavailable).response.statusCode = 503 := by decide
  have hcode := answer_status op entry
  rw [← h.response.status_eq, hstatus] at hcode
  exact absurd hcode (by decide)

omit [StdHash] in
/-- All candidates refuse the connection. -/
lemma attempts_crashed {lib : HttpLib} {crashed : Addr → Bool} {candidates : List Backend}
    (hall : ∀ c ∈ candidates, crashed c.addr = true) (payload : Str) (servers : Fleet) :
    attempts (fleetNetwork lib crashed) payload candidates servers
      = (candidates.map fun c => (c, .refused), servers) := by
  induction candidates with
  | nil => rfl
  | cons c candidates ih =>
    obtain ⟨hc, hall⟩ := List.forall_mem_cons.1 hall
    simp only [attempts, reply_crashed hc, ih hall, List.map_cons]

/-- A settled router stays settled when backends are marked DOWN. -/
lemma exists_settled_markedDown {dir : Directory} {r : Router}
    (h : Settled d.backends d.vnodes dir r) (l : List Backend) :
    ∃ dir', Settled d.backends d.vnodes dir' (markedDown r l) := by
  induction l generalizing r dir with
  | nil => exact ⟨dir, h⟩
  | cons c l ih => exact ih (h.markDown d.collisionFree.apart c.port)

/-- A request is answered with a 503 if none of its candidates runs, and they are all marked DOWN. -/
lemma handleRequest_refused (hop : IsOp lib request op)
    (hcand : ∀ accept : BackendStatus → Bool, accept .up = true →
      s.router.targetsForKey accept op.key 2 = .ok candidates)
    (hne : candidates ≠ []) (hall : ∀ c ∈ candidates, s.crashed c.addr = true) :
    ∃ flow, (∀ what, flow ≠ .throw what)
      ∧ handleRequest (fleetNetwork lib s.crashed) request (.idle s.router s.servers [])
        = (flow, .idle (markedDown s.router candidates) s.servers [serviceUnavailable]) := by
  cases hw : op.isWrite with
  | false =>
    obtain ⟨key, rfl⟩ : ∃ key, op = .get key := by
      cases op with
      | get key => exact ⟨key, rfl⟩
      | put key value | create key value | delete key => cases hw
    exact ⟨.ret, fun _ h => (by cases h),
      handleRequest_unavailable hop (hcand servesReads rfl) hall []⟩
  | true =>
    have hwr : isWriteRequest request = true := hop.isWriteRequest.trans hw
    have hroute : (ProxySession.idle s.router s.servers []).candidates request = .ok candidates := by
      rw [ProxySession.candidates, if_pos hwr, hop.getKey]
      exact hcand servesWrites rfl
    have hhandled : handleRequest (fleetNetwork lib s.crashed) request
          (.idle s.router s.servers [])
        = handleWrite (fleetNetwork lib s.crashed) request candidates
          (.idle s.router s.servers []) := by
      unfold handleRequest
      rw [hroute]
      cases candidates with
      | nil => exact absurd rfl hne
      | cons b l => exact if_pos hwr
    refine ⟨.next, fun _ h => (by cases h), ?_⟩
    rw [hhandled, handleWrite_eq _ request candidates (s := .idle s.router s.servers []) rfl]
    simp only [ProxySession.idle, attempts_crashed hall, List.any_map, List.foldl_map]
    have hno : candidates.any ((·.2.isAnswer) ∘ fun c : Backend => (c, Reply.refused)) = false :=
      List.any_eq_false.2 fun _ _ => Bool.false_ne_true
    rw [hno, if_neg Bool.false_ne_true]
    rfl

/-- A request is answered by a candidate that runs, and only candidates that have crashed are marked
    DOWN. -/
lemma handleRequest_answered (hlib : lib.Faithful) (hcoh : s.servers.Coherent)
    (hshort : Short s.servers) (hop : IsOp lib request op)
    (hcand : ∀ accept : BackendStatus → Bool, accept .up = true →
      s.router.targetsForKey accept op.key 2 = .ok candidates)
    (hnd : (candidates.map Backend.addr).Nodup) (hup : ∃ c ∈ candidates, s.crashed c.addr = false) :
    ∃ down servers' bytes c,
      handleRequest (fleetNetwork lib s.crashed) request (.idle s.router s.servers [])
        = (.next, .idle (markedDown s.router down) servers' [bytes])
      ∧ (∀ b ∈ down, b ∈ candidates ∧ s.crashed b.addr = true)
      ∧ c ∈ candidates ∧ s.crashed c.addr = false
      ∧ IsAnswer lib op (s.servers.entry c.addr op.key) bytes
      ∧ ∀ a k, k ≠ op.key → servers'.entry a k = s.servers.entry a k := by
  cases hw : op.isWrite with
  | true =>
    obtain ⟨servers', bytes, hh, happlied, c, hc, hruns, hanswer⟩ :=
      handleRequest_write hlib hcoh hop hw (hcand servesWrites rfl) hnd hup []
    refine ⟨candidates.filter fun c => s.crashed c.addr, servers', bytes, c, ?_, ?_, hc, hruns,
      hanswer, ?_⟩
    · rw [hh, markedDown, List.foldl_filter]
      rfl
    · exact fun b hb => List.mem_filter.1 hb
    · intro a k hk
      rw [happlied.entry, if_neg fun h => hk h.2.2]
  | false =>
    obtain ⟨key, rfl⟩ : ∃ key, op = .get key := by
      cases op with
      | get key => exact ⟨key, rfl⟩
      | put key value | create key value | delete key => cases hw
    obtain ⟨pre, c, post, rfl, hpre, hc⟩ := exists_first_running hup
    have hkey : IsReadable key := ⟨hop.wellFormed.word, hop.wellFormed.ne_allKeys⟩
    obtain ⟨servers', bytes, hh, -, hentry, hanswer⟩ :=
      handleRequest_get hlib hcoh hop (hcand servesReads rfl) hpre hc
        (fun value => hshort c.addr key hkey value) []
    exact ⟨pre, servers', bytes, c, hh, fun b hb => ⟨List.mem_append_left _ hb, hpre b hb⟩,
      List.mem_append_right _ List.mem_cons_self, hc, hanswer, fun a k _ => by rw [hentry]⟩

section
variable {incoming : List Str}

/-- What the client gets for a request, and the candidates that are marked DOWN for it. -/
inductive Outcome (lib : HttpLib) (s : ClusterState) (op : KeyOp) :
    List Str → List Backend → Prop where
  | refused :
    (∀ c ∈ s.router.hashRing.getNodes op.key 2, s.crashed c.addr = true) →
    Outcome lib s op [serviceUnavailable] (s.router.hashRing.getNodes op.key 2)
  | answered {down bytes c} :
    (∀ b ∈ down, b ∈ s.router.hashRing.getNodes op.key 2 ∧ s.crashed b.addr = true) →
    c ∈ s.router.hashRing.getNodes op.key 2 →
    s.crashed c.addr = false →
    IsAnswer lib op (s.servers.entry c.addr op.key) bytes →
    Outcome lib s op [bytes] down

/-- On an empty ring the request ends in an exception. -/
lemma step_connection_empty (hcarries : Carries incoming request)
    (hempty : s.router.hashRing.empty = true) : s.step lib (.connection incoming) = none := by
  have hthrows : handleRequest (fleetNetwork lib s.crashed) request (.idle s.router s.servers [])
      = (.throw noBackendError, .idle s.router s.servers []) := by
    have hroute : (ProxySession.idle s.router s.servers []).candidates request
        = .error noBackendError := by
      unfold ProxySession.candidates
      split_ifs <;> exact targetsForKey_eq_error.2 ⟨hempty, rfl⟩
    unfold handleRequest
    rw [hroute]
  exact step_connection_throws hcarries hthrows

/-- On another ring it has one of these outcomes. -/
lemma Operating.connection (hlib : lib.Faithful) (h : Operating d s)
    (hcarries : Carries incoming request) (hop : IsOp lib request op)
    (hempty : s.router.hashRing.empty = false) :
    ∃ down servers' e,
      s.step lib (.connection incoming)
        = some { s with
            router := markedDown s.router down
            servers := servers'
            log := e :: s.log }
      ∧ e.request = request ∧ Outcome lib s op e.sent down
      ∧ ∀ a k, k ≠ op.key → servers'.entry a k = s.servers.entry a k := by
  obtain ⟨dir, hsettled⟩ := h.settled
  have hcand : ∀ accept : BackendStatus → Bool, accept .up = true →
      s.router.targetsForKey accept op.key 2 = .ok (s.router.hashRing.getNodes op.key 2) :=
    fun accept haccept => hsettled.targetsForKey d.up hempty op.key 2 haccept
  by_cases hall : ∀ c ∈ s.router.hashRing.getNodes op.key 2, s.crashed c.addr = true
  · obtain ⟨flow, hflow, hh⟩ :=
      handleRequest_refused hop hcand (getNodes_ne_nil hempty op.key two_ne_zero) hall
    exact ⟨_, _, _, step_connection hcarries hh hflow, rfl, .refused hall, fun _ _ _ => rfl⟩
  · have hup : ∃ c ∈ s.router.hashRing.getNodes op.key 2, s.crashed c.addr = false := by
      push Not at hall
      exact hall.imp fun c hc => ⟨hc.1, (Bool.not_eq_true _).mp hc.2⟩
    obtain ⟨down, servers', bytes, c, hh, hdown, hc, hruns, hanswer, hframe⟩ :=
      handleRequest_answered hlib h.kept.2.1 h.kept.2.2 hop hcand (nodup_getNodes _ _ _) hup
    exact ⟨down, _, _, step_connection hcarries hh nofun, rfl, .answered hdown hc hruns hanswer,
      hframe⟩

end

/-- The results of the pings of a cycle. -/
lemma mem_pings {crashed : Addr → Bool} {active : Router → List Backend} {order : List Backend}
    {s : Router × Fleet} {p : Backend × Bool}
    (hp : p ∈ pings (fleetClient crashed) active order s) : p.2 = !crashed p.1.addr := by
  have hping (b : Backend) (servers : Fleet) :
      (pingBackend (fleetClient crashed) b servers).1 = !crashed b.addr := by
    cases hc : crashed b.addr with
    | true => rw [pingBackend_crashed hc]; rfl
    | false => rw [pingBackend_up hc]; rfl
  induction order generalizing s with
  | nil => cases hp
  | cons b order ih =>
    rcases List.mem_cons.1 hp with rfl | hp
    · exact hping b s.2
    · cases hc : checkBackend (fleetClient crashed) active s b with
      | error what =>
        rw [hc] at hp
        cases hp
      | ok s₁ =>
        rw [hc] at hp
        exact ih hp

/-- A cycle throws nothing, and afterwards every backend that has crashed is DOWN. -/
lemma Operating.cycle (lib : HttpLib) (h : Operating d s)
    {active : Router → List Backend} {backends : List Backend}
    (hperm : backends.Perm s.router.getAllBackends) :
    ∃ r servers, s.step lib (.cycle active backends)
        = some { s with router := r, servers := servers }
      ∧ (∃ dir, Settled d.backends d.vnodes dir r)
      ∧ ∀ b ∈ d.backends, r.statusOf b.port = some (statusAfter !s.crashed b.addr) := by
  obtain ⟨dir, hsettled⟩ := h.settled
  have hnd : (backends.map Backend.port).Nodup :=
    (hperm.map _).nodup_iff.2 (nodup_port_getAllBackends hsettled.port_eq)
  have horder : ∀ b ∈ backends, dir b.port = some b ∧ b.status ≠ .recovering := by
    intro b hb
    have hdir := hsettled.mem_getAllBackends.1 (hperm.mem_iff.1 hb)
    obtain ⟨-, -, -, hs⟩ := hsettled.exists_of_dir hdir
    exact ⟨hdir, hs⟩
  obtain ⟨⟨r, servers⟩, hrun, hpinged, hfollows⟩ :=
    healthCycle_follows (fleetClient s.crashed) active d.collisionFree.apart d.vnodes_pos hnd horder
      (s := (s.router, s.servers)) hsettled.follows
  obtain ⟨hsettled', hreflects⟩ :=
    hsettled.marksOf d.ports d.up (by rw [hpinged]; exact hperm) hfollows
  refine ⟨r, servers, by simp only [ClusterState.step, hrun], ⟨_, hsettled'⟩, fun b hb => ?_⟩
  have hmem := hreflects.pinged.mem_iff.2 (List.mem_map_of_mem hb)
  obtain ⟨p, hp, haddr⟩ := List.mem_map.1 hmem
  have hport : p.1.port = b.port := congrArg Prod.snd haddr
  rw [← hport, hreflects.status p hp, mem_pings hp, haddr]

omit [StdHash] in
/-- The servers that have crashed are those that no call reaches. -/
lemma fleetClient_eq (crashed : Addr → Bool) : fleetClient crashed
    = flakyClient fun addr _ => if crashed addr then .unreached else .answered := by
  refine congrArg HttpClient.mk (funext fun addr => funext fun req => funext fun servers => ?_)
  cases hc : crashed addr <;> simp [hc]

/-- A cycle stores under words only, because what it stores is stored elsewhere. -/
lemma healthCycle_words {crashed : Addr → Bool} {active : Router → List Backend}
    {backends : List Backend} {s s' : Router × Fleet} (hcoh : s.2.Coherent) (hwords : s.2.WordKeys)
    (h : healthCycle (fleetClient crashed) active backends s = .ok s') : s'.2.WordKeys := by
  have hping (b : Backend) (servers : Fleet) :
      (pingBackend (fleetClient crashed) b servers).2 = servers := by
    cases hc : crashed b.addr with
    | true => rw [pingBackend_crashed hc]
    | false => rw [pingBackend_up hc]
  refine (foldlM_invariant (I := fun s : Router × Fleet => s.2.Coherent ∧ s.2.WordKeys) ?_ h
    ⟨hcoh, hwords⟩).2
  intro s b s' hs hcheck
  unfold checkBackend at hcheck
  dsimp only at hcheck
  rw [hping] at hcheck
  split_ifs at hcheck
  · have hkeys (a : Addr) (_ : a ≠ b.addr) (k : Str) := hs.2 a k
    obtain ⟨servers', hends, -, hcoh', hentry⟩ :=
      ends_stores (fun addr _ => if crashed addr then .unreached else .answered)
        (s.1.markBackendRecovering b.port) hs.1 hkeys (active (s.1.markBackendRecovering b.port))
    rw [← fleetClient_eq] at hends
    rcases hends with hrecover | ⟨what, hthrows, -⟩
    · rw [hrecover] at hcheck
      obtain rfl := Except.ok.inj hcheck
      refine ⟨hcoh', fun a k hk => ?_⟩
      dsimp only at hk
      rw [hentry] at hk
      split_ifs at hk
      · -- what is stored is the value of another backend
        cases hstored : stores (fun addr _ => if crashed addr then .unreached else .answered)
            (s.1.markBackendRecovering b.port) (active (s.1.markBackendRecovering b.port)) b s.2
            k with
        | none =>
          rw [hstored] at hk
          exact hs.2 a k hk
        | some value =>
          obtain ⟨-, -, -, -, y, -, -, hy⟩ := stores_spec _ hstored
          exact hs.2 y.addr k fun hnone => nomatch hy.symm.trans hnone
      · exact hs.2 a k hk
    · rw [hthrows] at hcheck
      cases hcheck
  · obtain rfl := Except.ok.inj hcheck
    exact hs
  · obtain rfl := Except.ok.inj hcheck
    exact hs
  · obtain rfl := Except.ok.inj hcheck
    exact hs

/-- Every step keeps it, and none throws but those of requests on an empty ring. -/
lemma Operating.step (hlib : lib.Faithful) (hbounded : lib.Bounded) (h : Operating d s)
    {a : ClusterAction} (hok : Operates lib d s a)
    (hring : ∀ incoming, a = .connection incoming → s.router.hashRing.empty = false) :
    ∃ s', s.step lib a = some s' ∧ Operating d s' := by
  obtain ⟨hlegal, hops⟩ := hok
  have hkept {s' : ClusterState} (hstep : s.step lib a = some s') :=
    (kept_short hbounded).step h.kept hstep
  cases a with
  | connection incoming =>
    obtain ⟨request, op, hcarries, hop⟩ := hops incoming rfl
    obtain ⟨dir, hsettled⟩ := h.settled
    obtain ⟨down, servers', e, hstep, -, -, hframe⟩ := h.connection hlib hcarries hop (hring _ rfl)
    refine ⟨_, hstep, exists_settled_markedDown hsettled down, hkept hstep, fun a k hk => ?_,
      h.crashed⟩
    by_cases hkey : k = op.key
    · rw [hkey]
      exact ⟨hop.wellFormed.word, hop.wellFormed.ne_allKeys⟩
    · exact h.words a k fun hnone => hk ((hframe a k hkey).trans hnone)
  | crash addr =>
    refine ⟨_, rfl, h.settled, h.kept, h.words, fun a ha => ?_⟩
    obtain ⟨b, hb, rfl⟩ := hlegal
    by_cases he : a = b.addr
    · rw [he]
      exact List.mem_map_of_mem hb
    · exact h.crashed a ((Function.update_of_ne he _ _).symm.trans ha)
  | restart addr =>
    have hentry : Fleet.entry (Function.update s.servers addr (restarted (s.servers addr)))
        = s.servers.entry := entry_update_of_table rfl
    refine ⟨_, rfl, h.settled, hkept rfl, fun a k hk => h.words a k ?_, fun a ha => ?_⟩
    · dsimp only at hk
      rwa [hentry] at hk
    · dsimp only at ha
      rw [Function.update_apply] at ha
      split_ifs at ha
      exact h.crashed a ha
  | cycle active backends =>
    obtain ⟨r, servers, hstep, hsettled, -⟩ := h.cycle lib hlegal.1
    refine ⟨_, hstep, hsettled, hkept hstep, ?_, h.crashed⟩
    simp only [ClusterState.step] at hstep
    split at hstep
    · rename_i hcycle
      obtain rfl := congrArg ClusterState.servers (Option.some.inj hstep)
      exact healthCycle_words h.kept.2.1 h.words hcycle
    · cases hstep

/-- So does every run. -/
lemma Operating.run (hlib : lib.Faithful) (hbounded : lib.Bounded) {ls : List ClusterAction}
    (hrun : Run (ClusterState.step lib) (Operates lib d) s ls s') (h : Operating d s) :
    Operating d s' := by
  refine hrun.invariant (fun {s a s'} h hok hstep => ?_) h
  have hring : ∀ incoming, a = .connection incoming → s.router.hashRing.empty = false := by
    rintro incoming rfl
    obtain ⟨request, op, hcarries, -⟩ := hok.2 incoming rfl
    refine (Bool.not_eq_true _).mp fun hempty => ?_
    cases (step_connection_empty hcarries hempty).symm.trans hstep
  obtain ⟨t, ht, h'⟩ := h.step hlib hbounded hok hring
  rwa [← Option.some.inj (ht.symm.trans hstep)]

/-- In the beginning all backends run, and nobody has a key. -/
lemma operating_start (d : Deployment) (capacity : ℕ) : Operating d (.start d capacity) := by
  refine ⟨⟨_, d.follows, fun b hb => ⟨.up, nofun, ?_⟩⟩, ⟨.new d.built, fun _ =>
    coherent_new capacity, fun _ _ _ _ hv => nomatch hv⟩, fun a k hk => absurd rfl hk,
    fun _ h => nomatch h⟩
  rw [(Directory.new_eq_some d.ports).2 ⟨hb, rfl⟩]
  exact congrArg some (Backend.ext_addr rfl (d.up b hb))

end

end KvStore.Cluster
