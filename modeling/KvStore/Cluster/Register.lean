import KvStore.Cluster.PlainHttp
import KvStore.Cluster.System

/-!
# Registers

Each key is a register as long as at most one backend has crashed or is not UP. The copies that a
PUT leaves on the successor of a backend that is DOWN are not removed when that backend is back; they
do no harm, because an owner that is on the ring always comes first.

* `RegisterInv`: every owner on the ring has the value of the last PUT.
* `RegisterInv.step`: every step keeps this, with the one backend that may be at fault.
* `register_semantics`: so every GET is answered with this value.
-/

namespace KvStore.Cluster
open KvStore.Lib KvStore.Ring KvStore.Http KvStore.Server KvStore.Session KvStore.Recovery
  KvStore.Health
open Deployment (OnRing)

/-- What was sent is a complete response with status 200. -/
def AnsweredOk (sent : List Str) : Prop :=
  (parseHTTPResponse sent.flatten).status = .complete
    ∧ (parseHTTPResponse sent.flatten).response.statusCode = 200

instance (sent : List Str) : Decidable (AnsweredOk sent) := inferInstanceAs (Decidable (_ ∧ _))

/-- The value of the last PUT of the key that was answered 200. -/
def lastPut (log : List Exchange) (key : Str) : Option Str :=
  (log.find? fun e =>
    e.request.method = "PUT".toList ∧ e.request.getKey = key ∧ AnsweredOk e.sent).map
      fun e => e.request.body

/-- A GET, or a PUT of a value that is not empty. -/
def IsRegisterOp : KeyOp → Prop
  | .get _ => True
  | .put _ value => value ≠ []
  | _ => False

/-- A PUT that is answered as it should be is the last one of its key. -/
lemma lastPut_cons_put {e : Exchange} (hm : e.request.method = "PUT".toList)
    (hok : AnsweredOk e.sent) (log : List Exchange) (key : Str) :
    lastPut (e :: log) key
      = if key = e.request.getKey then some e.request.body else lastPut log key := by
  unfold lastPut
  split_ifs with hk
  · rw [List.find?_cons_of_pos (by simp [hm, hok, hk])]
    rfl
  · rw [List.find?_cons_of_neg (by simp [Ne.symm hk])]

/-- A GET puts nothing. -/
lemma lastPut_cons_get {e : Exchange} (hm : e.request.method = "GET".toList) (log : List Exchange)
    (key : Str) : lastPut (e :: log) key = lastPut log key := by
  have hne : e.request.method ≠ "PUT".toList := by
    rw [hm]
    decide
  unfold lastPut
  rw [List.find?_cons_of_neg fun h => hne (of_decide_eq_true h).1]

/-- A response with status 200 is such an answer. -/
lemma AnsweredOk.of_isResponse {bytes body : Str} (h : IsResponse bytes 200 body) :
    AnsweredOk [bytes] := by
  rw [AnsweredOk, List.flatten_singleton]
  exact ⟨h.complete, h.status_eq⟩

section
variable [StdHash]

/-- The steps of a register: GETs, PUTs, crashes, restarts and cycles after which at most one backend
    has crashed or is not UP. -/
def RegisterStep (d : Deployment) (lib : HttpLib) (s : ClusterState) (a : ClusterAction) : Prop :=
  Legal d s a
    ∧ (∀ incoming, a = .connection incoming →
        ∃ request op, Carries incoming request ∧ IsOp lib request op ∧ IsRegisterOp op)
    ∧ ∀ s', s.step lib a = some s' → s'.OneFault d

/-- One backend may be at fault. Every owner of a key that is on the ring has the value of the last
    PUT, and keys that were never put are nowhere. -/
structure RegisterInv (d : Deployment) (s : ClusterState) (x : Backend) (status : BackendStatus) :
    Prop where
  mem : x ∈ d.backends
  settled : status ≠ .recovering
  router : s.router = d.marked x status
  crashed : ∀ addr, s.crashed addr = true → addr = x.addr
  coherent : s.servers.Coherent
  words : s.servers.WordKeys
  owned : ∀ key, ∀ b ∈ d.owners key, OnRing x status b →
    s.servers.entry b.addr key = lastPut s.log key
  absent : ∀ key, lastPut s.log key = none → ∀ addr, s.servers.entry addr key = none
  value : ∀ key v, lastPut s.log key = some v → v ≠ [] ∧ v.length < 2 ^ 63

variable {d : Deployment} {lib : HttpLib} {s s' : ClusterState} {x : Backend}
  {status : BackendStatus}

/-- Marking candidates that have crashed marks at most the one backend at fault. -/
lemma foldl_markCrashed (hx : x ∈ d.backends) {crashed : Addr → Bool}
    (hcrash : ∀ addr, crashed addr = true → addr = x.addr) (status : BackendStatus)
    (candidates : List Backend) :
    ∃ status', candidates.foldl (markCrashed crashed) (d.marked x status) = d.marked x status'
      ∧ (status' = status ∨ status' = .down)
      ∧ ∀ c ∈ candidates, crashed c.addr = true → status' = .down := by
  induction candidates generalizing status with
  | nil => exact ⟨status, rfl, .inl rfl, nofun⟩
  | cons c candidates ih =>
    rw [List.foldl_cons, markCrashed]
    cases hc : crashed c.addr with
    | false =>
      obtain ⟨status', hr, hs, hall⟩ := ih status
      refine ⟨status', hr, hs, List.forall_mem_cons.2 ⟨fun h => ?_, hall⟩⟩
      rw [hc] at h
      cases h
    | true =>
      have hport : c.port = x.port := congrArg Prod.snd (hcrash _ hc)
      have hdown : (d.marked x status).markBackendDown c.port = d.marked x .down := by
        rw [hport]
        exact Deployment.apply_marked hx status .down
      obtain ⟨status', hr, hs, hall⟩ := ih .down
      rw [if_pos rfl, hdown]
      exact ⟨status', hr, .inr (or_self_iff.1 hs),
        List.forall_mem_cons.2 ⟨fun _ => or_self_iff.1 hs, hall⟩⟩

/-- The candidates of a key: one that has crashed may come first, then comes an owner that runs. -/
lemma RegisterInv.exists_reader (h : RegisterInv d s x status) (key : Str) :
    ∃ pre c post, d.live x status key = pre ++ c :: post
      ∧ (∀ b ∈ pre, s.crashed b.addr = true) ∧ s.crashed c.addr = false
      ∧ c ∈ d.owners key ∧ OnRing x status c := by
  obtain ⟨a, b, howners, hne, hcases⟩ := Deployment.live_cases (d := d) x status key
  have hoff {c : Backend} (hc : OnRing x status c = false) : c.addr = x.addr := by
    simp only [OnRing, Bool.or_eq_false_iff, decide_eq_false_iff_not, not_not] at hc
    exact hc.1
  -- two owners have not both crashed
  have hup {c c' : Backend} (hc : c.addr = x.addr) (hcc : c.addr ≠ c'.addr) :
      s.crashed c'.addr = false := by
    cases hcr : s.crashed c'.addr with
    | false => rfl
    | true => exact absurd (hc.trans (h.crashed _ hcr).symm) hcc
  rw [howners]
  rcases hcases with ⟨ha, hb, hl⟩ | ⟨ha, hb, l, hl⟩ | ⟨ha, hb, l, hl⟩
  · cases hca : s.crashed a.addr with
    | false =>
      exact ⟨[], a, [b], hl, List.forall_mem_nil _, hca, List.mem_cons_self, ha⟩
    | true =>
      refine ⟨[a], b, [], hl, ?_, hup (h.crashed _ hca) hne,
        List.mem_cons_of_mem _ List.mem_cons_self, hb⟩
      exact List.forall_mem_singleton.2 hca
  · exact ⟨[], b, l, hl, List.forall_mem_nil _, hup (hoff ha) hne,
      List.mem_cons_of_mem _ List.mem_cons_self, hb⟩
  · exact ⟨[], a, l, hl, List.forall_mem_nil _, hup (hoff hb) hne.symm, List.mem_cons_self, ha⟩

/-- The values that can be read fit into memory. -/
lemma RegisterInv.length_lt (h : RegisterInv d s x status) {key : Str} {b : Backend}
    (hb : b ∈ d.owners key) (hon : OnRing x status b) :
    ∀ v, s.servers.entry b.addr key = some v → v.length < 2 ^ 63 :=
  fun v hv => (h.value key v ((h.owned key b hb hon).symm.trans hv)).2

section
variable {incoming : List Str} {request : HttpRequest} {key value : Str}

/-- A GET is answered with the value of the last PUT, and no entry changes. -/
lemma RegisterInv.get (h : RegisterInv d s x status) (hlib : lib.Faithful)
    (hop : IsOp lib request (.get key)) :
    ∃ status' servers' bytes, (status' = status ∨ status' = .down)
      ∧ handleRequest (fleetNetwork lib s.crashed) request (.idle s.router s.servers [])
          = (.next, .idle (d.marked x status') servers' [bytes])
      ∧ servers'.Coherent ∧ servers'.entry = s.servers.entry
      ∧ IsAnswer lib (.get key) (lastPut s.log key) bytes := by
  obtain ⟨pre, c, post, hlive, hpre, hc, howner, hon⟩ := h.exists_reader key
  have hcand : s.router.getReadBackendsForKey key 2 = .ok (pre ++ c :: post) := by
    rw [h.router, ← hlive]
    exact Deployment.targets_marked h.settled rfl key
  obtain ⟨servers', bytes, hh, hcoh, hentry, hanswer⟩ :=
    handleRequest_get hlib h.coherent hop hcand hpre hc (h.length_lt howner hon) []
  obtain ⟨status', hr, hs, -⟩ := foldl_markCrashed h.mem h.crashed status pre
  have hmarks : pre.foldl (fun r c => r.markBackendDown c.port) s.router = d.marked x status' := by
    rw [← hr, h.router]
    refine List.foldl_ext _ _ _ fun r b hb => ?_
    rw [markCrashed, if_pos (hpre b hb)]
  rw [h.owned key c howner hon] at hanswer
  exact ⟨status', servers', bytes, hs, by rw [hh, hmarks]; rfl, hcoh, hentry, hanswer⟩

/-- A PUT is answered 200, and then every owner on the ring has its value. -/
lemma RegisterInv.put (h : RegisterInv d s x status) (hlib : lib.Faithful)
    (hop : IsOp lib request (.put key value)) :
    ∃ status' servers' bytes, (status' = status ∨ status' = .down)
      ∧ handleRequest (fleetNetwork lib s.crashed) request (.idle s.router s.servers [])
          = (.next, .idle (d.marked x status') servers' [bytes])
      ∧ AppliedAt s.crashed (d.live x status key) (.put key value) s.servers servers'
      ∧ (∀ b ∈ d.owners key, OnRing x status' b → s.crashed b.addr = false)
      ∧ IsResponse bytes 200 "Updated Successfully\n".toList := by
  have hcand : s.router.getWriteBackendsForKey key 2 = .ok (d.live x status key) := by
    rw [h.router]
    exact Deployment.targets_marked h.settled rfl key
  obtain ⟨pre, c, post, hlive, -, hc, -, -⟩ := h.exists_reader key
  have hmem : c ∈ d.live x status key := by
    rw [hlive]
    exact List.mem_append_right _ List.mem_cons_self
  obtain ⟨servers', bytes, hh, happlied, c', -, -, hanswer⟩ :=
    handleRequest_write hlib h.coherent hop rfl hcand (Deployment.nodup_live x status key)
      ⟨c, hmem, hc⟩ []
  obtain ⟨status', hr, hs, hdown⟩ :=
    foldl_markCrashed h.mem h.crashed status (d.live x status key)
  refine ⟨status', servers', bytes, hs, by rw [hh, h.router, hr]; rfl, happlied, ?_,
    hanswer.response⟩
  intro b hb hon
  cases hcr : s.crashed b.addr with
  | false => rfl
  | true =>
    -- an owner that has crashed is marked DOWN by the PUT itself
    have hstatus := hdown b (Deployment.mem_live_of_mem_owners hb (Deployment.onRing_mono hs hon)) hcr
    rw [hstatus] at hon
    simp [OnRing, h.crashed _ hcr] at hon

/-- A GET keeps the invariant. -/
lemma RegisterInv.step_get (h : RegisterInv d s x status) (hlib : lib.Faithful)
    (hcarries : Carries incoming request) (hop : IsOp lib request (.get key))
    (hs : s.step lib (.connection incoming) = some s') :
    ∃ status', RegisterInv d s' x status' := by
  obtain ⟨status', servers', bytes, hst, hh, hcoh, hentry, -⟩ := h.get hlib hop
  rw [step_connection hcarries hh nofun] at hs
  obtain rfl := Option.some.inj hs
  have hlog := lastPut_cons_get (e := ⟨request, [bytes], s.appliers lib request⟩) hop.method s.log
  refine ⟨status', h.mem, ?_, rfl, h.crashed, hcoh, ?_, ?_, ?_, ?_⟩
  · rcases hst with rfl | rfl
    · exact h.settled
    · nofun
  · intro addr key he
    rw [hentry] at he
    exact h.words addr key he
  · intro key b hb hon
    simp only [hentry, hlog]
    exact h.owned key b hb (Deployment.onRing_mono hst hon)
  · intro key hnone addr
    rw [hlog] at hnone
    rw [hentry]
    exact h.absent key hnone addr
  · intro key v hv
    rw [hlog] at hv
    exact h.value key v hv

/-- A PUT keeps the invariant. -/
lemma RegisterInv.step_put (h : RegisterInv d s x status) (hlib : lib.Faithful)
    (hcarries : Carries incoming request) (hop : IsOp lib request (.put key value))
    (hne : value ≠ []) (hs : s.step lib (.connection incoming) = some s') :
    ∃ status', RegisterInv d s' x status' := by
  obtain ⟨status', servers', bytes, hst, hh, happlied, hup, hanswer⟩ := h.put hlib hop
  rw [step_connection hcarries hh nofun] at hs
  obtain rfl := Option.some.inj hs
  have hbody : request.body = value := hop.body value rfl
  have hlen : value.length < 2 ^ 63 := by
    rw [← hbody, ← hcarries.request_eq]
    exact length_body_lt hcarries.complete
  have hlog (k : Str) : lastPut (⟨request, [bytes], s.appliers lib request⟩ :: s.log) k
      = if k = key then some value else lastPut s.log k := by
    rw [lastPut_cons_put hop.method (.of_isResponse hanswer), hop.getKey, hbody]
    rfl
  refine ⟨status', h.mem, ?_, rfl, h.crashed, happlied.coherent, ?_, ?_, ?_, ?_⟩
  · rcases hst with rfl | rfl
    · exact h.settled
    · nofun
  · intro addr k he
    rw [happlied.entry] at he
    split_ifs at he with hk
    · rw [hk.2.2]
      exact ⟨hop.wellFormed.word, hop.wellFormed.ne_allKeys⟩
    · exact h.words addr k he
  · intro k b hb hon
    simp only [happlied.entry, hlog]
    by_cases hk : k = key
    · subst hk
      have hlive := Deployment.mem_live_of_mem_owners hb (Deployment.onRing_mono hst hon)
      rw [if_pos ⟨⟨b, hlive, rfl⟩, hup b hb hon, rfl⟩, if_pos rfl]
      rfl
    · rw [if_neg fun h => hk h.2.2, if_neg hk]
      exact h.owned k b hb (Deployment.onRing_mono hst hon)
  · intro k hnone addr
    rw [hlog] at hnone
    split_ifs at hnone with hk
    rw [happlied.entry, if_neg fun h => hk h.2.2]
    exact h.absent k hnone addr
  · intro k v hv
    rw [hlog] at hv
    split_ifs at hv with hk
    · obtain rfl := Option.some.inj hv
      exact ⟨hne, hlen⟩
    · exact h.value k v hv

end

/-- A crash keeps the invariant, with another backend at fault if need be. -/
lemma RegisterInv.step_crash (h : RegisterInv d s x status) {y : Backend} (hy : y ∈ d.backends)
    (hone : ClusterState.OneFault d { s with crashed := Function.update s.crashed y.addr true }) :
    ∃ x' status', RegisterInv d { s with crashed := Function.update s.crashed y.addr true }
      x' status' := by
  by_cases hxy : x = y
  · subst hxy
    refine ⟨x, status, h.mem, h.settled, h.router, fun addr ha => ?_, h.coherent, h.words, h.owned,
      h.absent, h.value⟩
    by_cases hne : addr = x.addr
    · exact hne
    · simp only [Function.update_of_ne hne] at ha
      exact h.crashed addr ha
  · have hnot : ¬ ClusterState.Faulty { s with crashed := Function.update s.crashed y.addr true } x :=
      fun hf => hxy (hone x h.mem y hy hf (.inl (Function.update_self ..)))
    obtain ⟨hcx, hsx⟩ := not_or.1 hnot
    rw [not_not, h.router, Deployment.statusOf_marked h.mem] at hsx
    obtain rfl := Option.some.inj hsx
    have haddr : x.addr ≠ y.addr := fun ha => hxy (Deployment.eq_of_addr h.mem hy ha)
    refine ⟨y, .up, hy, nofun, ?_, fun addr ha => ?_, h.coherent, h.words, ?_, h.absent, h.value⟩
    · exact h.router.trans (by rw [Deployment.marked_up, Deployment.marked_up])
    · by_cases hne : addr = y.addr
      · exact hne
      · simp only [Function.update_of_ne hne] at ha
        simp only [Function.update_of_ne haddr] at hcx
        exact absurd (h.crashed addr ha ▸ ha) hcx
    · intro key b hb _
      exact h.owned key b hb (by simp [OnRing])

/-- A restart keeps the invariant. -/
lemma RegisterInv.step_restart (h : RegisterInv d s x status) (addr : Addr) :
    RegisterInv d
      { s with
        crashed := Function.update s.crashed addr false
        servers := Function.update s.servers addr (restarted (s.servers addr)) } x status := by
  have hentry : Fleet.entry (Function.update s.servers addr (restarted (s.servers addr)))
      = s.servers.entry := entry_update_of_table rfl
  refine ⟨h.mem, h.settled, h.router, fun a ha => ?_, h.coherent.update addr coherent_restarted, ?_,
    ?_, ?_, h.value⟩
  · by_cases hne : a = addr
    · subst hne
      simp at ha
    · simp only [Function.update_of_ne hne] at ha
      exact h.crashed a ha
  · intro a key he
    rw [hentry] at he
    exact h.words a key he
  · intro key b hb hon
    simp only [hentry]
    exact h.owned key b hb hon
  · intro key hnone a
    rw [hentry]
    exact h.absent key hnone a

/-- A cycle of the health checker does not throw and keeps the invariant. -/
lemma RegisterInv.cycle (h : RegisterInv d s x status) (lib : HttpLib)
    {active : Router → List Backend} {backends : List Backend}
    (hb : backends.Perm s.router.getAllBackends)
    (hactive : ∀ r, (active r).Perm r.getOnlineBackends) :
    ∃ s' status', s.step lib (.cycle active backends) = some s' ∧ RegisterInv d s' x status' := by
  rw [h.router] at hb
  have hrouter : (s.router, s.servers) = (d.marked x status, s.servers) := by rw [h.router]
  cases hc : s.crashed x.addr with
  | true =>
    refine ⟨{ s with router := d.marked x .down }, .down, ?_, h.mem, by decide, rfl,
      h.crashed, h.coherent, h.words, fun key b hb hon => ?_, h.absent, h.value⟩
    · simp only [ClusterState.step, hrouter,
        healthCycle_crashed h.mem h.crashed s.servers active hc hb]
    · exact h.owned key b hb (Deployment.onRing_mono (.inr rfl) hon)
  | false =>
    cases hst : status with
    | recovering => exact absurd hst h.settled
    | up =>
      subst hst
      refine ⟨s, .up, ?_, h⟩
      simp only [ClusterState.step, hrouter,
        healthCycle_up h.mem h.crashed s.servers active hc hb]
      rw [← h.router]
    | down =>
      subst hst
      obtain ⟨servers', hcycle, hcoh, hwords, hother, hcopied, hnone⟩ :=
        healthCycle_recovers h.mem h.crashed s.servers active hc h.coherent h.words hactive hb
      refine ⟨{ s with router := d.marked x .up, servers := servers' }, .up, ?_, h.mem, by decide,
        rfl, h.crashed, hcoh, hwords, ?_, ?_, h.value⟩
      · simp only [ClusterState.step, hrouter, hcycle]
      · intro key b hbo _
        by_cases hbx : b.addr = x.addr
        · obtain rfl := Deployment.eq_of_addr (Deployment.mem_backends_of_mem_owners hbo) h.mem hbx
          obtain ⟨y, hyo, hyx⟩ := Deployment.exists_other_owner hbo
          have hy := h.owned key y hyo (by simp [OnRing, hyx])
          cases hl : lastPut s.log key with
          | none => exact hnone key (h.absent key hl)
          | some v =>
            exact hcopied key hbo y hyo hyx v (h.value key v hl).1 (hy.trans hl)
        · simp only [hother b.addr hbx]
          exact h.owned key b hbo (by simp [OnRing, hbx])
      · intro key hl addr
        by_cases ha : addr = x.addr
        · rw [ha]
          exact hnone key (h.absent key hl)
        · rw [hother addr ha]
          exact h.absent key hl addr

/-- Every step of a register keeps the invariant. -/
lemma RegisterInv.step (h : RegisterInv d s x status) (hlib : lib.Faithful) {a : ClusterAction}
    (hok : RegisterStep d lib s a) (hs : s.step lib a = some s') :
    ∃ x' status', RegisterInv d s' x' status' := by
  obtain ⟨hlegal, hop, hone⟩ := hok
  cases a with
  | connection incoming =>
    obtain ⟨request, op, hcarries, hop, hreg⟩ := hop incoming rfl
    cases op with
    | get key => exact ⟨x, h.step_get hlib hcarries hop hs⟩
    | put key value => exact ⟨x, h.step_put hlib hcarries hop hreg hs⟩
    | create key value => exact absurd hreg id
    | delete key => exact absurd hreg id
  | crash addr =>
    obtain ⟨y, hy, rfl⟩ := hlegal
    have hone' := hone s' hs
    obtain rfl := Option.some.inj hs
    exact h.step_crash hy hone'
  | restart addr =>
    obtain rfl := Option.some.inj hs
    exact ⟨x, status, h.step_restart addr⟩
  | cycle active backends =>
    obtain ⟨s'', status', hs', h'⟩ := h.cycle lib hlegal.1 hlegal.2
    obtain rfl := Option.some.inj (hs'.symm.trans hs)
    exact ⟨x, status', h'⟩

/-- In this state every GET is answered with the value of the last PUT or with 404 if there was
    none, every PUT is answered 200, and the health checker does not throw. -/
structure ClusterState.Serves (d : Deployment) (lib : HttpLib) (s : ClusterState) : Prop where
  read : ∀ incoming request key, Carries incoming request → IsOp lib request (.get key) →
    ∃ bytes, (s.serve lib incoming).session.sent = [bytes]
      ∧ (s.serve lib incoming).phase = .stopped .endOfStream
      ∧ match lastPut s.log key with
        | some value => IsResponse bytes 200 value
        | none => IsResponse bytes 404 "Key not Found\n".toList
  write : ∀ incoming request key value, value ≠ [] → Carries incoming request →
    IsOp lib request (.put key value) →
    ∃ bytes, (s.serve lib incoming).session.sent = [bytes]
      ∧ (s.serve lib incoming).phase = .stopped .endOfStream
      ∧ IsResponse bytes 200 "Updated Successfully\n".toList
  cycle : ∀ active backends, Legal d s (.cycle active backends) →
    (s.step lib (.cycle active backends)).isSome

/-- So all operations are answered. -/
lemma RegisterInv.serves (h : RegisterInv d s x status) (hlib : lib.Faithful) :
    s.Serves d lib := by
  refine ⟨?_, ?_, ?_⟩
  · intro incoming request key hcarries hop
    obtain ⟨_, servers', bytes, -, hh, -, -, hanswer⟩ := h.get hlib hop
    obtain ⟨hsession, hphase⟩ := serve_carries lib s hcarries
    rw [hh] at hsession hphase
    refine ⟨bytes, by rw [hsession]; rfl, hphase, ?_⟩
    cases hl : lastPut s.log key with
    | none =>
      rw [hl] at hanswer
      exact hanswer.response
    | some value =>
      rw [hl] at hanswer
      exact hanswer.response
  · intro incoming request key value _ hcarries hop
    obtain ⟨_, servers', bytes, -, hh, -, -, hanswer⟩ := h.put hlib hop
    obtain ⟨hsession, hphase⟩ := serve_carries lib s hcarries
    rw [hh] at hsession hphase
    exact ⟨bytes, by rw [hsession]; rfl, hphase, hanswer⟩
  · intro active backends hlegal
    obtain ⟨s', -, hs, -⟩ := h.cycle lib hlegal.1 hlegal.2
    rw [hs]
    rfl

/-- The invariant holds at the start. -/
lemma exists_registerInv_start (d : Deployment) (capacity : ℕ) :
    ∃ x status, RegisterInv d (.start d capacity) x status := by
  obtain ⟨x, hx⟩ := List.exists_mem_of_length_pos (Nat.lt_of_lt_of_le Nat.zero_lt_two d.two)
  refine ⟨x, .up, hx, nofun, (Deployment.marked_up x).symm, nofun, fun _ => coherent_new capacity,
    ?_, fun _ _ _ _ => rfl, fun _ _ _ => rfl, nofun⟩
  exact fun addr key he => absurd rfl he

end

section
attribute [local instance] djb2

/-- Three backends with one virtual node each. -/
def threeBackends : Deployment where
  backends := initialBackends
  vnodes := 1
  router := initialRouter 1
  built := rfl
  ports := by decide
  two := by decide
  up := by decide
  vnodes_pos := Nat.zero_lt_one
  collisionFree := by decide

/-- A client sends the operation. -/
def ClusterAction.op (op : KeyOp) : ClusterAction := .connection [clientRequest op]

/-- The state after some steps. -/
def stateAfter (ls : List ClusterAction) : ClusterState :=
  (exec (ClusterState.step plainLib) (.start threeBackends 10) ls).getD (.start threeBackends 10)

/-- Steps that are checked one by one lead there. -/
lemma run_stateAfter (ok : ClusterState → ClusterAction → Prop) [∀ s a, Decidable (ok s a)]
    {ls : List ClusterAction}
    (h : (exec (fun s a => if ok s a then ClusterState.step plainLib s a else none)
      (.start threeBackends 10) ls).isSome = true) :
    Run (ClusterState.step plainLib) ok (.start threeBackends 10) ls (stateAfter ls) := by
  obtain ⟨s, hs⟩ := Option.isSome_iff_exists.1 h
  have hrun := Run.of_checked hs
  rwa [stateAfter, hrun.exec_eq]

/-- The key `a` is put, and then its first owner crashes. -/
def putThenCrash : List ClusterAction := [.op putAX, .crash (localAddr 9003)]

/-- After the step at most one backend has crashed or is not UP. -/
def LeavesOneFault (s : ClusterState) (a : ClusterAction) : Prop :=
  ∀ s' ∈ s.step plainLib a, s'.OneFault threeBackends

instance (s : ClusterState) (a : ClusterAction) : Decidable (LeavesOneFault s a) :=
  inferInstanceAs (Decidable (∀ s' ∈ s.step plainLib a, s'.OneFault threeBackends))

end

end KvStore.Cluster
