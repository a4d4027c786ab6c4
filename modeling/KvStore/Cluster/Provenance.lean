import KvStore.Cluster.Balancer
import KvStore.Cluster.SingleMap
import KvStore.Server.Provenance

/-!
# No value out of thin air

Sessions, recoveries, crashes, lost messages and failing databases in any order: what a server has
for a key was there at the beginning or was sent by a client with that key, and a key disappears
only if a client deletes it. The key `allkeys` is an exception: the server answers it with the list
of its keys, and a recovery takes the list for a value.

What a client sends are all requests that `httplib` finds in what is forwarded for it. A server may
get to them after the session has gone on.

* `BalancerState.Sourced.step`: every step keeps the values sourced.
* `no_thin_air`: so do all of them.
* `kept_until_deleted`: nor is a key lost.
-/

namespace KvStore.Cluster
open KvStore.Lib KvStore.Ring KvStore.Http KvStore.Server KvStore.Session KvStore.Recovery
  KvStore.Health

/-- A server gets a request: it or its answer can be lost, and the database can fail. -/
inductive Handled (servers : Fleet) (addr : Addr) (req : Request) :
    Option Response → Fleet → Prop where
  | lost :
    Handled servers addr req none servers
  | unanswered fault :
    Handled servers addr req none
      (Function.update servers addr ((servers addr).dispatch req fault).2)
  | answered fault :
    Handled servers addr req (some ((servers addr).dispatch req fault).1)
      (Function.update servers addr ((servers addr).dispatch req fault).2)

/-- A server gets what has been found in its bytes, one request after the other. -/
inductive HandledAll (addr : Addr) :
    Fleet → List (Except (List Str) Request) → Fleet → Prop where
  | nil {servers} :
    HandledAll addr servers [] servers
  | unread {servers servers' bytes found} :
    HandledAll addr servers found servers' →
    HandledAll addr servers (.error bytes :: found) servers'
  | request {servers servers₁ servers' req res found} :
    Handled servers addr req res servers₁ →
    HandledAll addr servers₁ found servers' →
    HandledAll addr servers (.ok req :: found) servers'

/-- A client that talks to the servers. -/
def Honest (client : HttpClient Fleet) : Prop :=
  ∀ addr req servers, Handled servers addr req (client.call addr req servers).1
    (client.call addr req servers).2

/-- A network that leads to the servers: some may refuse, and what comes back can be anything. -/
structure HonestNetwork (lib : HttpLib) (net : Network Fleet) : Prop where
  connect : ∀ addr servers, (net.connect addr servers).2 = servers
  talk : ∀ addr payload servers,
    HandledAll addr servers (lib.read payload) (net.talk addr payload servers).2

/-- Some servers have been restarted. -/
def Restarted (servers servers' : Fleet) : Prop :=
  ∀ addr, servers' addr = servers addr ∨ servers' addr = restarted (servers addr)

/-- The servers find this request in what is forwarded to them for a client. -/
def Forwards {ι : Type*} (lib : HttpLib) (requests : ι → List HttpRequest) (req : Request) : Prop :=
  ∃ i, ∃ request ∈ requests i, Except.ok req ∈ lib.read (forwardedAs request)

/-- A server gets such a request after the session that forwarded it has gone on. -/
def RunsLate {ι : Type*} (lib : HttpLib) (requests : ι → List HttpRequest)
    (servers servers' : Fleet) : Prop :=
  ∃ req, Forwards lib requests req ∧ ∃ addr res, Handled servers addr req res servers'

/-- What can happen. -/
def HonestAction {ι : Type*} (lib : HttpLib) (requests : ι → List HttpRequest)
    (s : BalancerState ι Fleet) : BalancerAction ι Fleet → Prop
  | .session a => HonestNetwork lib a.network
  | .checker _ client => Honest client
  | .outside servers =>
    Restarted s.sessions.world servers ∨ RunsLate lib requests s.sessions.world servers

/-- A client sends a request that makes a call of the servers. -/
def Sends {ι : Type*} (lib : HttpLib) (requests : ι → List HttpRequest) (call : Call) : Prop :=
  ∃ req, Forwards lib requests req ∧ req.call = some call

/-- The value was stored under the key at the beginning, or is sent with it. -/
def Written {ι : Type*} (lib : HttpLib) (servers : Fleet) (requests : ι → List HttpRequest)
    (key value : Str) : Prop :=
  (∃ addr, servers.entry addr key = some value)
    ∨ ∃ call, Sends lib requests call ∧ call.stores = some (key, value)

/-- The same, or the key is the one that the server takes for the list of its keys. -/
def Allowed {ι : Type*} (lib : HttpLib) (servers : Fleet) (requests : ι → List HttpRequest)
    (key value : Str) : Prop :=
  key = "allkeys".toList ∨ Written lib servers requests key value

/-- The current request is one of these, and it is forwarded as it should be. -/
def SessionPhase.Carries (requests : List HttpRequest) : SessionPhase → Prop
  | .writing request _ _ _ => request ∈ requests ∧ isWriteRequest request = true
  | .reading request _ => request ∈ requests ∧ isWriteRequest request = false
  | .marking _ next => SessionPhase.Carries requests next
  | _ => True

/-- The value that is about to be pushed is allowed for the key it arrives with. -/
def FetchedAs (P : Str → Str → Prop) : CyclePhase → Prop
  | .recovering _ (.pushing key value _) _ => P (clientPath key) value
  | _ => True

/-- The sessions handle the requests of their clients. -/
structure Serves {ι : Type*} (requests : ι → List HttpRequest) (s : BalancerState ι Fleet) :
    Prop where
  queue : ∀ i, ∀ request ∈ (s.sessions.sessions i).queue, request ∈ requests i
  phase : ∀ i, SessionPhase.Carries (requests i) (s.sessions.sessions i).phase

/-- Everything that the servers have is allowed, and so is what a recovery brings. -/
structure BalancerState.Sourced {ι : Type*} (P : Str → Str → Prop) (s : BalancerState ι Fleet) :
    Prop where
  servers : ∀ addr, (s.sessions.world addr).Sourced P
  checker : FetchedAs P s.checker

section
variable {P : Str → Str → Prop} {servers servers' : Fleet} {addr : Addr} {req : Request}
  {res : Option Response}

/-- A request that stores what is allowed. -/
lemma Handled.sourced (h : Handled servers addr req res servers')
    (hs : ∀ addr, (servers addr).Sourced P)
    (hreq : ∀ key value, req.call.bind Call.stores = some (key, value) → P key value) (a : Addr) :
    (servers' a).Sourced P := by
  have hupdate (fault : Option DbFault) : KvServer.Sourced P
      (Function.update servers addr ((servers addr).dispatch req fault).2 a) := by
    by_cases ha : a = addr
    · subst ha
      rw [Function.update_self]
      exact (hs a).dispatch hreq fault
    · rw [Function.update_of_ne ha]
      exact hs a
  cases h with
  | lost => exact hs a
  | unanswered fault => exact hupdate fault
  | answered fault => exact hupdate fault

/-- What every request keeps, all of them keep. -/
lemma HandledAll.invariant {I : Fleet → Prop} {found : List (Except (List Str) Request)}
    (h : HandledAll addr servers found servers')
    (hstep : ∀ req, Except.ok req ∈ found → ∀ servers servers' res,
      Handled servers addr req res servers' → I servers → I servers') (hI : I servers) :
    I servers' := by
  induction h with
  | nil => exact hI
  | unread _ ih => exact ih (fun req hreq => hstep req (List.mem_cons_of_mem _ hreq)) hI
  | request hhandled _ ih =>
    exact ih (fun req hreq => hstep req (List.mem_cons_of_mem _ hreq))
      (hstep _ List.mem_cons_self _ _ _ hhandled hI)

/-- What is fetched under a key is allowed for the key that the request arrives with. -/
lemma Handled.fetched {key : Str} (h : Handled servers addr (clientGet (keyPath key)) res servers')
    (hs : ∀ addr, (servers addr).Sourced P) (hlist : ∀ value, P "allkeys".toList value)
    (hne : okBody res ≠ []) : P (clientPath key) (okBody res) := by
  cases h with
  | lost => exact absurd rfl hne
  | unanswered fault => exact absurd rfl hne
  | answered fault =>
    by_cases hkey : clientPath key = "allkeys".toList
    · rw [hkey]
      exact hlist _
    · have hpath : (clientGet (keyPath key)).path = keyRoot ++ clientPath key :=
        clientPath_append (List.all_eq_true.1 (by decide)) key
      have hget := (hs addr).dispatch_get rfl hpath hkey fault
      simp only [okBody] at hne ⊢
      split_ifs at hne ⊢ with hstatus
      · exact hget hstatus
      · exact absurd rfl hne

/-- A request that deletes another key, or none. -/
lemma Handled.kept {key : Str} (h : Handled servers addr req res servers')
    (hreq : req.call ≠ some (.delete key)) {a : Addr} (hsome : servers.entry a key ≠ none) :
    servers'.entry a key ≠ none := by
  have hupdate (fault : Option DbFault) : Fleet.entry
      (Function.update servers addr ((servers addr).dispatch req fault).2) a key ≠ none := by
    rw [entry_update]
    split_ifs with ha
    · subst ha
      exact fun hnone => hreq (dispatch_erases hsome hnone)
    · exact hsome
  cases h with
  | lost => exact hsome
  | unanswered fault => exact hupdate fault
  | answered fault => exact hupdate fault

end

/-- What a step does to the servers: nothing, or one of them gets requests of a client or a request
    of the health checker. -/
inductive WorldStep {ι : Type*} (lib : HttpLib) (requests : ι → List HttpRequest)
    (checker : CyclePhase) (servers servers' : Fleet) : Prop where
  | restarted :
    Restarted servers servers' →
    WorldStep lib requests checker servers servers'
  | clients {addr found} :
    (∀ req, Except.ok req ∈ found → Forwards lib requests req) →
    HandledAll addr servers found servers' →
    WorldStep lib requests checker servers servers'
  | fetch {path addr res} :
    Handled servers addr (clientGet path) res servers' →
    WorldStep lib requests checker servers servers'
  | push {backend key value keys rest res} :
    checker = .recovering backend (.pushing key value keys) rest →
    Handled servers backend.addr (clientPost (syncRoot ++ key) value) res servers' →
    WorldStep lib requests checker servers servers'

section
variable {ι : Type*} {lib : HttpLib} {requests : ι → List HttpRequest} {checker : CyclePhase}
  {servers servers' : Fleet}

/-- Nothing happens to the servers. -/
lemma WorldStep.refl : WorldStep lib requests checker servers servers :=
  .restarted fun _ => .inl rfl

/-- An exchange of a session. -/
lemma worldStep_of_reply {net : Network Fleet} (hnet : HonestNetwork lib net) {i : ι}
    {request : HttpRequest} (hrequest : request ∈ requests i) {b : Backend} {rep : Reply}
    (hr : reply net (forwardedAs request) b servers = (rep, servers')) :
    WorldStep lib requests checker servers servers' := by
  have hconnect := hnet.connect b.addr servers
  unfold reply at hr
  split at hr
  · rename_i w hc
    obtain ⟨-, rfl⟩ := Prod.mk.inj hr
    rw [hc] at hconnect
    obtain rfl : w = servers := hconnect
    exact .refl
  · rename_i w hc
    obtain ⟨-, rfl⟩ := Prod.mk.inj hr
    rw [hc] at hconnect
    obtain rfl : w = servers := hconnect
    exact .clients (fun req hreq => ⟨i, request, hrequest, hreq⟩) (hnet.talk b.addr _ w)

/-- A step of the health checker. -/
lemma worldStep_of_move {client : HttpClient Fleet} (hclient : Honest client)
    (move : CheckerMove) :
    WorldStep lib requests checker servers (move.action client checker servers).2 := by
  cases move with
  | wake | decide | begin | promote | sleep => exact .refl
  | ping =>
    simp only [CheckerMove.action]
    split
    · exact .fetch (hclient _ _ _)
    · exact .refl
  | recover =>
    simp only [CheckerMove.action]
    split
    · rename_i backend phase rest
      split
      · rename_i addr req hreq
        cases phase with
        | listing nodes keyspace =>
          cases nodes with
          | nil => cases hreq
          | cons node nodes =>
            obtain ⟨rfl, rfl⟩ := Prod.mk.inj (Option.some.inj hreq)
            exact .fetch (hclient _ _ _)
        | fetching key replicas keys =>
          cases replicas with
          | nil => cases hreq
          | cons replica replicas =>
            obtain ⟨rfl, rfl⟩ := Prod.mk.inj (Option.some.inj hreq)
            exact .fetch (hclient _ _ _)
        | pushing key value keys =>
          obtain ⟨rfl, rfl⟩ := Prod.mk.inj (Option.some.inj hreq)
          exact .push rfl (hclient _ _ _)
        | starting | copying | finished | thrown => cases hreq
      · exact .refl
    · exact .refl

variable [StdHash] [DecidableEq ι] {s s' : BalancerState ι Fleet} {a : BalancerAction ι Fleet}

/-- A step of the balancer. -/
lemma BalancerState.step_world (hserves : Serves requests s) (hok : HonestAction lib requests s a)
    (h : s.step a = some s') :
    WorldStep lib requests s.checker s.sessions.world s'.sessions.world := by
  cases BalancerState.step_cases h with
  | @session a c r w hstep =>
    have hphase := hserves.phase a.session
    have hnet : HonestNetwork lib a.network := hok
    cases hstep with
    | @wrote request _ _ _ _ _ _ hc hr =>
      rw [hc] at hphase
      obtain ⟨hrequest, hwrite⟩ := hphase
      have hpayload : forwardedAs request = requestPayload request := if_pos hwrite
      exact worldStep_of_reply hnet hrequest (hpayload ▸ hr)
    | @read request _ _ _ _ hc hr | @failed request _ _ _ _ hc hr _ =>
      rw [hc] at hphase
      obtain ⟨hrequest, hread⟩ := hphase
      have hpayload : forwardedAs request = request.rawRequest := if_neg (by simp [hread])
      exact worldStep_of_reply hnet hrequest (hpayload ▸ hr)
    | routed | written | unread | marked | answered => exact .refl
  | checker hstep => exact worldStep_of_move hok _
  | outside =>
    rcases hok with hrestarted | ⟨req, hforwards, addr, res, hhandled⟩
    · exact .restarted hrestarted
    · refine .clients (fun req' hreq' => ?_) (.request hhandled .nil)
      obtain rfl := Except.ok.inj (List.mem_singleton.1 hreq')
      exact hforwards

omit [DecidableEq ι] in
/-- A request is routed to the loop that its method asks for. -/
lemma carries_route {r : Router} {requests : List HttpRequest} {request : HttpRequest}
    (hrequest : request ∈ requests) :
    SessionPhase.Carries requests (Router.route r request) := by
  unfold Router.route
  cases hw : isWriteRequest request with
  | true =>
    cases r.getWriteBackendsForKey request.getKey 2 with
    | error what => trivial
    | ok candidates =>
      cases candidates with
      | nil => trivial
      | cons b candidates => exact ⟨hrequest, hw⟩
  | false =>
    cases r.getReadBackendsForKey request.getKey 2 with
    | error what => trivial
    | ok candidates =>
      cases candidates with
      | nil => trivial
      | cons b candidates => exact ⟨hrequest, hw⟩

/-- The sessions go on with the requests of their clients. -/
lemma Serves.step (hserves : Serves requests s) (h : s.step a = some s') :
    Serves requests s' := by
  cases BalancerState.step_cases h with
  | @session a c r w hstep =>
    obtain ⟨hqueue, hphase⟩ := hserves
    have hc : (∀ request ∈ c.queue, request ∈ requests a.session)
        ∧ SessionPhase.Carries (requests a.session) c.phase := by
      have hq := hqueue a.session
      have hp := hphase a.session
      cases hstep with
      | @routed request queue hwait hcons =>
        rw [hcons] at hq
        exact ⟨fun request hr => hq request (List.mem_cons_of_mem _ hr),
          carries_route (hq request List.mem_cons_self)⟩
      | wrote hc hr =>
        rw [hc] at hp
        refine ⟨hq, ?_⟩
        dsimp only
        split_ifs <;> exact hp
      | failed hc | marked hc =>
        rw [hc] at hp
        exact ⟨hq, hp⟩
      | written | read | unread => exact ⟨hq, trivial⟩
      | @answered request flow bytes hc =>
        refine ⟨hq, ?_⟩
        cases flow <;> trivial
    refine ⟨fun i => ?_, fun i => ?_⟩ <;> dsimp only <;> by_cases hi : i = a.session
    · subst hi
      rw [Function.update_self]
      exact hc.1
    · rw [Function.update_of_ne hi]
      exact hqueue i
    · subst hi
      rw [Function.update_self]
      exact hc.2
    · rw [Function.update_of_ne hi]
      exact hphase i
  | checker | outside => exact ⟨hserves.queue, hserves.phase⟩

omit [DecidableEq ι] in
/-- The value that a recovery goes on with has been fetched. -/
lemma fetchedAs_next {P : Str → Str → Prop} {r : Router} {backend : Backend}
    {phase : Recovery.Phase} {rest : List Backend} {res : Option Response}
    (hfetched : ∀ key replica replicas keys, phase = .fetching key (replica :: replicas) keys →
      okBody res ≠ [] → P (clientPath key) (okBody res)) :
    FetchedAs P (.recovering backend (phase.next r backend res) rest) := by
  cases phase with
  | listing nodes keyspace => cases nodes <;> trivial
  | copying keys =>
    cases keys with
    | nil => trivial
    | cons key keys =>
      simp only [Recovery.Phase.next]
      cases r.getBackendsForKey key 2 with
      | error what => trivial
      | ok replicas =>
        dsimp only
        split_ifs <;> trivial
  | fetching key replicas keys =>
    cases replicas with
    | nil => trivial
    | cons replica replicas =>
      simp only [Recovery.Phase.next]
      split_ifs with hne
      · exact hfetched key replica replicas keys rfl hne
      · trivial
  | starting | pushing | finished | thrown => trivial

omit [DecidableEq ι] in
/-- The same for all steps of the health checker. -/
lemma FetchedAs.move {P : Str → Str → Prop} (hlist : ∀ value, P "allkeys".toList value)
    {client : HttpClient Fleet} (hclient : Honest client) {servers : Fleet}
    (hs : ∀ addr, (servers addr).Sourced P) {r r' : Router} {checker checker' : CyclePhase}
    {move : CheckerMove} (hbefore : FetchedAs P checker)
    (hstep : CheckerStep r checker (move.action client checker servers).1 r' checker') :
    FetchedAs P checker' := by
  generalize haction : (move.action client checker servers).1 = action at hstep
  cases hstep with
  | @recover backend phase rest res hp =>
    refine fetchedAs_next fun key replica replicas keys hphase hne => ?_
    obtain rfl := hphase
    cases move with
    | recover =>
      obtain rfl := CheckerAction.recover.inj haction
      exact (hclient replica.addr _ servers).fetched hs hlist hne
    | wake | ping | decide | begin | promote | sleep => cases haction
  | wake | ping | returned | died | unchanged | begin | promote | sleep => trivial
  | sessionMarksDown => exact hbefore

/-- Every step keeps the values sourced. -/
lemma BalancerState.Sourced.step {P : Str → Str → Prop}
    (hlist : ∀ value, P "allkeys".toList value)
    (hsent : ∀ call, Sends lib requests call → ∀ key value, call.stores = some (key, value) →
      P key value)
    (hsourced : s.Sourced P) (hserves : Serves requests s) (hok : HonestAction lib requests s a)
    (h : s.step a = some s') : s'.Sourced P := by
  refine ⟨?_, ?_⟩
  · cases BalancerState.step_world hserves hok h with
    | restarted hr =>
      intro addr
      rcases hr addr with he | he
      · rw [he]
        exact hsourced.servers addr
      · rw [he]
        exact ⟨LRUCache.valid_new _, (hsourced.servers addr).stored, nofun⟩
    | clients hforwards hhandled =>
      refine hhandled.invariant (I := fun servers => ∀ addr, (servers addr).Sourced P)
        (fun req hreq _ _ _ hreq' hs => hreq'.sourced hs fun key value hstores => ?_)
        hsourced.servers
      obtain ⟨call, hcall, hstores⟩ := Option.bind_eq_some_iff.1 hstores
      exact hsent call ⟨req, hforwards req hreq, hcall⟩ key value hstores
    | fetch hhandled =>
      refine hhandled.sourced hsourced.servers fun key value hstores => ?_
      rw [stores_get rfl] at hstores
      cases hstores
    | @push backend key value keys rest res hc hhandled =>
      refine hhandled.sourced hsourced.servers fun k v hstores => ?_
      have hpath : (clientPost (syncRoot ++ key) value).path = syncRoot ++ clientPath key :=
        clientPath_append (List.all_eq_true.1 (by decide)) key
      obtain ⟨rfl, rfl⟩ := stores_sync rfl hpath rfl hstores
      have hfetched := hsourced.checker
      rw [hc] at hfetched
      exact hfetched
  · cases BalancerState.step_cases h with
    | session | outside => exact hsourced.checker
    | checker hstep => exact FetchedAs.move hlist hok hsourced.servers hsourced.checker hstep

/-- In every run of the balancer, with any number of sessions, recoveries, crashes, restarts, lost
    messages and failing databases, what a server has for a key was there at the beginning or was
    sent by a client with that key. The same holds of what it shows of a key. -/
theorem no_thin_air {r : Router} {servers : Fleet} (hcoh : servers.Coherent)
    {actions : List (BalancerAction ι Fleet)}
    (h : Run BalancerState.step (HonestAction lib requests) (.start r servers requests) actions s)
    {key : Str} (hkey : key ≠ "allkeys".toList) (addr : Addr) :
    (∀ value, s.sessions.world.entry addr key = some value → Written lib servers requests key value)
      ∧ ∀ req fault, req.method = "GET".toList → req.path = keyPath key →
        ((s.sessions.world addr).dispatch req fault).1.status = 200 →
        Written lib servers requests key ((s.sessions.world addr).dispatch req fault).1.body := by
  have hstart : BalancerState.Sourced (Allowed lib servers requests)
      (.start r servers requests) :=
    ⟨fun a => ⟨(hcoh a).valid, fun k value hv => .inr (.inl ⟨a, hv⟩),
      fun n hn => .inr (.inl ⟨a, (hcoh a).current n hn⟩)⟩, trivial⟩
  have hserves : Serves requests (BalancerState.start r servers requests) :=
    ⟨fun _ _ hr => hr, fun _ => trivial⟩
  obtain ⟨hsourced, -⟩ : s.Sourced (Allowed lib servers requests) ∧ Serves requests s :=
    h.invariant (I := fun s => s.Sourced (Allowed lib servers requests) ∧ Serves requests s)
      (fun hs hok hstep => ⟨hs.1.step (fun _ => .inl rfl)
        (fun call hcall k value hv => .inr (.inr ⟨call, hcall, hv⟩)) hs.2 hok hstep,
        hs.2.step hstep⟩) ⟨hstart, hserves⟩
  refine ⟨fun value hv => ((hsourced.servers addr).stored key value hv).resolve_left hkey,
    fun req fault hm hp hstatus => ?_⟩
  exact ((hsourced.servers addr).dispatch_get hm hp hkey fault hstatus).resolve_left hkey

/-- Nor is a key lost that no client deletes: a server that has it keeps it, whatever happens. -/
theorem kept_until_deleted {r : Router} {servers : Fleet} {key : Str}
    (hkept : ¬ Sends lib requests (.delete key)) {actions later : List (BalancerAction ι Fleet)}
    (h : Run BalancerState.step (HonestAction lib requests) (.start r servers requests) actions s)
    (h' : Run BalancerState.step (HonestAction lib requests) s later s') {addr : Addr}
    (hsome : s.sessions.world.entry addr key ≠ none) :
    s'.sessions.world.entry addr key ≠ none := by
  have hserves : Serves requests (BalancerState.start r servers requests) :=
    ⟨fun _ _ hr => hr, fun _ => trivial⟩
  have hnow := h.invariant (fun hs _ hstep => hs.step hstep) hserves
  refine (h'.invariant (I := fun s => Serves requests s ∧ s.sessions.world.entry addr key ≠ none)
    (fun hs hok hstep => ⟨hs.1.step hstep, ?_⟩) ⟨hnow, hsome⟩).2
  cases BalancerState.step_world hs.1 hok hstep with
  | restarted hr =>
    rcases hr addr with he | he
    · rw [Fleet.entry, he]
      exact hs.2
    · rw [Fleet.entry, he]
      exact hs.2
  | clients hforwards hhandled =>
    exact hhandled.invariant (I := fun servers => servers.entry addr key ≠ none)
      (fun req hreq _ _ _ hreq' hsome =>
        hreq'.kept (fun hcall => hkept ⟨req, hforwards req hreq, hcall⟩) hsome) hs.2
  | fetch hhandled =>
    refine hhandled.kept (fun hcall => ?_) hs.2
    cases method_of_delete hcall
  | push hc hhandled =>
    refine hhandled.kept (fun hcall => ?_) hs.2
    cases method_of_delete hcall

end

/-- What a server makes of all that it finds. -/
lemma handledAll_outputs {lib : HttpLib} (addr : Addr) (found : List (Except (List Str) Request))
    (servers : Fleet) :
    HandledAll addr servers found
      (Function.update servers addr (outputs lib.answer (servers addr) found).2) := by
  induction found generalizing servers with
  | nil => simpa only [outputs, Function.update_eq_self] using HandledAll.nil
  | cons item found ih =>
    cases item with
    | error bytes => exact .unread (ih servers)
    | ok req =>
      refine .request (.unanswered none) ?_
      have hrest := ih (Function.update servers addr ((servers addr).dispatch req none).2)
      rwa [Function.update_self, Function.update_idem] at hrest

/-- The network of the other modules is such a network. -/
lemma honestNetwork_fleetNetwork (lib : HttpLib) (crashed : Addr → Bool) :
    HonestNetwork lib (fleetNetwork lib crashed) := by
  refine ⟨fun _ _ => rfl, fun addr payload servers => ?_⟩
  exact handledAll_outputs addr (lib.read payload) servers

/-- And their client is such a client. -/
lemma honest_fleetClient (crashed : Addr → Bool) : Honest (fleetClient crashed) := by
  intro addr req servers
  cases hc : crashed addr with
  | true =>
    rw [call_crashed hc]
    exact .lost
  | false =>
    rw [call_up hc]
    exact .answered none

section
attribute [local instance] djb2

/-- A client has put the key `a`. -/
def putSteps : List (BalancerAction Unit Fleet) :=
  List.replicate 5 (.session ⟨(), soundNetwork plainLib⟩)

/-- The health checker wakes up and sees the first backend. -/
def pingSteps : List (BalancerAction Unit Fleet) :=
  [.wake initialBackends, .ping].map fun move => .checker move (fleetClient noneCrashed)

/-- What that client sends. -/
def putRequests (_ : Unit) : List HttpRequest := [requestOf putAX]

/-- The balancer with that client. -/
def putStart : BalancerState Unit Fleet := .start (initialRouter 1) (fun _ => .new 10) putRequests

/-- The two parts of the run. -/
lemma run_putSteps :
    ∃ s s', Run BalancerState.step (HonestAction plainLib putRequests) putStart putSteps s
      ∧ s.sessions.world.entry (localAddr 9003) ['a'] = some ['x']
      ∧ Run BalancerState.step (HonestAction plainLib putRequests) s pingSteps s' := by
  have hisSome : ((exec BalancerState.step putStart putSteps).filter fun s =>
      s.sessions.world.entry (localAddr 9003) ['a'] = some ['x']
        ∧ (exec BalancerState.step s pingSteps).isSome).isSome = true := by
    decide +kernel
  obtain ⟨s, hs⟩ := Option.isSome_iff_exists.1 hisSome
  obtain ⟨hexec, hs⟩ := Option.filter_eq_some_iff.1 hs
  obtain ⟨hentry, hrest⟩ := of_decide_eq_true hs
  obtain ⟨s', hexec'⟩ := Option.isSome_iff_exists.1 hrest
  refine ⟨s, s', (Run.of_exec hexec).of_forall fun _ a ha _ => ?_, hentry,
    (Run.of_exec hexec').of_forall fun _ a ha _ => ?_⟩
  · obtain rfl := List.eq_of_mem_replicate ha
    exact honestNetwork_fleetNetwork plainLib noneCrashed
  · rcases List.mem_pair.1 ha with rfl | rfl <;> exact honest_fleetClient noneCrashed

/-- What the server has for the key was sent by the client. -/
theorem no_thin_air_putAX :
    Written plainLib (fun _ => .new 10) putRequests ['a'] ['x'] := by
  obtain ⟨s, -, hrun, hentry, -⟩ := run_putSteps
  exact (no_thin_air (fun _ => coherent_new 10) hrun (by decide) (localAddr 9003)).1 ['x'] hentry

/-- And the server keeps it, as the client deletes nothing. -/
theorem kept_until_deleted_putAX :
    ∃ s, s.sessions.world.entry (localAddr 9003) ['a'] ≠ none
      ∧ ∃ s', Run BalancerState.step (HonestAction plainLib putRequests) s pingSteps s'
        ∧ s'.sessions.world.entry (localAddr 9003) ['a'] ≠ none := by
  obtain ⟨s, s', hrun, hentry, hrest⟩ := run_putSteps
  have hsome : s.sessions.world.entry (localAddr 9003) ['a'] ≠ none := by
    rw [hentry]
    exact Option.some_ne_none _
  have hkept : ¬ Sends plainLib putRequests (.delete ['a']) := by
    rintro ⟨req, ⟨_, request, hr, hread⟩, hcall⟩
    obtain rfl := List.mem_singleton.1 hr
    obtain ⟨req', hread', -, hasks⟩ := isOp_putAX.received
    rw [hread', List.mem_singleton] at hread
    obtain rfl := Except.ok.inj hread
    cases hasks.method.symm.trans (method_of_delete hcall)
  exact ⟨s, hsome, s', hrest, kept_until_deleted hkept hrun hrest hsome⟩

end

end KvStore.Cluster
