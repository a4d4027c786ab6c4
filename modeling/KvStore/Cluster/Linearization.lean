import KvStore.Cluster.SingleMap
import KvStore.Lib.Linearizable
import KvStore.Session.Concurrent

/-!
# Linearizability

Any number of concurrent sessions while no backend fails. A write goes to the first backend of its
key before the others, and all reads go there; so each operation takes effect when that backend
handles it. A backend handles one request after the other here.

A client can be told more than was found: when two creates or deletes of a key meet, its second
backend can report a success that the first one did not have, and a success is what a session relays.

* `Follows.step`: one map can follow every step of the sessions.
* `sessions_linearizable`: so what the clients see is linearizable.
-/

namespace KvStore.Cluster
open KvStore.Lib KvStore.Ring KvStore.Http KvStore.Server KvStore.Session

/-- The operation a request asks for. -/
def requestOp (request : HttpRequest) : KeyOp :=
  if request.method = "POST".toList then
    .create request.getKey ((request.body.dropWhile (· ≠ ' ')).drop 1)
  else if request.method = "PUT".toList then .put request.getKey request.body
  else if request.method = "DELETE".toList then .delete request.getKey
  else .get request.getKey

/-- What a client may be told about an operation that found this entry: what one map answers, or
    that it was successful if it is a write. -/
def MayAnswer (op : KeyOp) (found : Option Str) (answer : ℤ × Str) : Prop :=
  answer = op.answer found
    ∨ op.isWrite ∧ (answer.1 = 200 ∨ answer.1 = 201) ∧ ∃ entry, answer = op.answer entry

/-- One map, whose answers are sent as responses. -/
def mapObject : AtomicObject SingleMap KeyOp Str (Option Str) where
  step m op := (m op.key, (m.step op).2)
  answers op found bytes := ∃ answer, MayAnswer op found answer ∧ IsResponse bytes answer.1 answer.2

/-- What is seen when a session goes on: it begins with a request, or answers one. -/
def visible {ι : Type*} (s : Sessions ι Fleet) (a : SessionAction ι Fleet) :
    List (CallEvent ι KeyOp Str) :=
  match (s.sessions a.session).phase, (s.sessions a.session).queue with
  | .waiting, request :: _ => [.call a.session (requestOp request)]
  | .answering _ _ bytes, _ => [.ret a.session bytes]
  | _, _ => []

section
variable {lib : HttpLib} {request : HttpRequest} {op : KeyOp}

/-- The operation can be read off its request. -/
lemma IsOp.requestOp_eq (h : IsOp lib request op) : requestOp request = op := by
  have hkey := h.getKey
  have hmethod := h.method
  unfold requestOp
  cases op with
  | create key value =>
    have hbody : request.body = key ++ ' ' :: value := h.body _ rfl
    have hword : isWord key = true := h.wellFormed.word
    rw [hmethod, hkey, hbody, dropWhile_key (not_mem_of_isWord hword rfl)]
    rfl
  | get key =>
    rw [hmethod, hkey]
    rfl
  | put key value =>
    rw [hmethod, hkey, h.body value rfl]
    rfl
  | delete key =>
    rw [hmethod, hkey]
    rfl

/-- A response that is answered has the status of its bytes. -/
lemma statusCode_of_answered {σ : Type*} {net : Network σ} {payload : Str} {b : Backend} {w : σ}
    {response : HttpResponse} (h : (reply net payload b w).1 = .answered response) {status : ℤ}
    {body : Str} (hraw : IsResponse response.rawResponse status body) :
    response.statusCode = status := by
  obtain ⟨buffer, hcomplete, rfl⟩ := exists_buffer_of_answered h
  rw [← statusCode_rawResponse hcomplete hraw.complete]
  exact hraw.status_eq

/-- A response is not empty. -/
lemma IsResponse.ne_nil {bytes body : Str} {status : ℤ} (h : IsResponse bytes status body) :
    bytes ≠ [] := by
  rintro rfl
  cases h.complete

/-- What is kept after an answer to a write, if it is the first one. -/
lemma answers_keep_first {response : HttpResponse} {found : Option Str}
    (h : IsAnswer lib op found response.rawResponse) :
    mapObject.answers op found (Reply.keep [] (.answered response)) :=
  ⟨op.answer found, .inl rfl, h.response⟩

/-- What is kept after another answer to a write. -/
lemma answers_keep (hw : op.isWrite = true) {response : HttpResponse} {found entry : Option Str}
    {bytes : Str} (hbytes : mapObject.answers op found bytes)
    (h : IsAnswer lib op entry response.rawResponse)
    (hstatus : response.statusCode = (op.answer entry).1) :
    mapObject.answers op found (Reply.keep bytes (.answered response)) := by
  obtain ⟨answer, hmay, hresponse⟩ := hbytes
  have hne : bytes.isEmpty = false := by simpa using hresponse.ne_nil
  simp only [Reply.keep, hne, Bool.false_eq_true, false_or, hstatus]
  split_ifs with hok
  · exact ⟨op.answer entry, .inr ⟨hw, hok, entry, rfl⟩, h.response⟩
  · exact ⟨answer, hmay, hresponse⟩

/-- A backend that handles an operation, and what is changed by it. -/
lemma reply_sound (hlib : lib.Faithful) {servers : Fleet} (hcoh : servers.Coherent)
    (hop : IsOp lib request op) {b : Backend}
    (hlen : (op.answer (servers.entry b.addr op.key)).2.length < 2 ^ 63) {rep : Reply}
    {servers' : Fleet}
    (hr : reply (soundNetwork lib) (forwardedAs request) b servers = (rep, servers')) :
    ∃ response, rep = .answered response
      ∧ response.statusCode = (op.answer (servers.entry b.addr op.key)).1
      ∧ IsAnswer lib op (servers.entry b.addr op.key) response.rawResponse ∧ servers'.Coherent
      ∧ ∀ a k, servers'.entry a k = if a = b.addr ∧ k = op.key then
          op.after (servers.entry b.addr op.key) else servers.entry a k := by
  obtain ⟨response, servers'', hreply, hanswer, hcoh', hentry⟩ :=
    reply_op hlib hcoh (show noneCrashed b.addr = false from rfl) hop hlen
  obtain ⟨rfl, rfl⟩ := Prod.mk.inj (hr.symm.trans hreply)
  refine ⟨response, rfl, ?_, hanswer, hcoh', hentry⟩
  exact statusCode_of_answered (by rw [hr]) hanswer.response

end

section
variable {ι : Type*} [StdHash]

/-- Where a session is, and what its client's operation has done so far. -/
inductive PhaseFollows (lib : HttpLib) (r : Router) :
    SessionPhase → Progress KeyOp (Option Str) → Prop where
  | waiting :
    PhaseFollows lib r .waiting .idle
  | begun {request op candidates} :
    IsOp lib request op →
    request.body.length < 2 ^ 63 →
    op.isWrite = true →
    r.hashRing.getNodes op.key 2 = candidates →
    PhaseFollows lib r (.writing request candidates false []) (.called op)
  | wrote {request op candidates found bytes} :
    IsOp lib request op →
    op.isWrite = true →
    -- the first backend of the key is done
    (∀ b rest, r.hashRing.getNodes op.key 2 = b :: rest → ∀ c ∈ candidates, c.addr ≠ b.addr) →
    mapObject.answers op found bytes →
    PhaseFollows lib r (.writing request candidates true bytes) (.applied op found)
  | reading {request key candidates} :
    IsOp lib request (.get key) →
    r.hashRing.getNodes key 2 = candidates →
    PhaseFollows lib r (.reading request candidates) (.called (.get key))
  | answering {request op found bytes} :
    mapObject.answers op found bytes →
    PhaseFollows lib r (.answering request .next bytes) (.applied op found)

/-- The first backend of every key has what the map has. -/
structure FirstHolds (r : Router) (servers : Fleet) (m : SingleMap) : Prop where
  coherent : servers.Coherent
  entry : ∀ key b rest, r.hashRing.getNodes key 2 = b :: rest → servers.entry b.addr key = m key
  short : ∀ key value, m key = some value → value.length < 2 ^ 63

/-- The first backends follow the map, and every session is as far as its client's operation. -/
structure Follows (lib : HttpLib) (r : Router) (s : Sessions ι Fleet) (m : SingleMap)
    (p : ι → Progress KeyOp (Option Str)) : Prop where
  router : s.router = r
  world : FirstHolds r s.world m
  queue : ∀ i, ∀ request ∈ (s.sessions i).queue,
    ∃ op, IsOp lib request op ∧ request.body.length < 2 ^ 63
  phase : ∀ i, PhaseFollows lib r (s.sessions i).phase (p i)

variable {lib : HttpLib} {r : Router} {s s' : Sessions ι Fleet} {m : SingleMap}
  {p : ι → Progress KeyOp (Option Str)}

/-- A request is routed to all backends of its key. -/
lemma phaseFollows_route (hup : r.AllUp) (he : r.hashRing.empty = false) {request : HttpRequest}
    {op : KeyOp} (hop : IsOp lib request op) (hlen : request.body.length < 2 ^ 63) :
    PhaseFollows lib r (Router.route r request) (.called op) := by
  obtain ⟨b, rest, hnodes⟩ :=
    List.exists_cons_of_ne_nil (getNodes_ne_nil he op.key (n := 2) nofun)
  have hwr := hop.isWriteRequest
  unfold Router.route
  rw [hop.getKey, hwr]
  cases hw : op.isWrite with
  | true =>
    have hcand : r.getWriteBackendsForKey op.key 2 = .ok (b :: rest) :=
      hnodes ▸ hup.targetsForKey_eq he rfl op.key 2
    simp only [if_true, hcand]
    exact .begun hop hlen hw hnodes
  | false =>
    have hcand : r.getReadBackendsForKey op.key 2 = .ok (b :: rest) :=
      hnodes ▸ hup.targetsForKey_eq he rfl op.key 2
    simp only [Bool.false_eq_true, if_false, hcand]
    cases op with
    | get key => exact .reading hop hnodes
    | create | put | delete => cases hw

/-- Once the first backend of its key has done an operation, it has what the map has. -/
lemma FirstHolds.apply {servers servers' : Fleet} (h : FirstHolds r servers m)
    {request : HttpRequest} {op : KeyOp} (hop : IsOp lib request op)
    (hlen : request.body.length < 2 ^ 63) {b : Backend} {rest : List Backend}
    (hnodes : r.hashRing.getNodes op.key 2 = b :: rest) (hcoh : servers'.Coherent)
    (hentry : ∀ a k, servers'.entry a k = if a = b.addr ∧ k = op.key then
      op.after (servers.entry b.addr op.key) else servers.entry a k) :
    FirstHolds r servers' (m.step op).2 := by
  have hfound := h.entry op.key b rest hnodes
  refine ⟨hcoh, fun key c rest' hc => ?_, fun key value hv => ?_⟩
  · rw [hentry]
    by_cases hk : key = op.key
    · subst hk
      obtain ⟨rfl, -⟩ := List.cons.inj (hnodes.symm.trans hc)
      rw [if_pos ⟨rfl, rfl⟩, hfound]
      simp only [SingleMap.step, Function.update_self]
    · rw [if_neg fun hc => hk hc.2]
      simp only [SingleMap.step, Function.update_of_ne hk]
      exact h.entry key c rest' hc
  · by_cases hk : key = op.key
    · subst hk
      simp only [SingleMap.step, Function.update_self] at hv
      rcases after_eq_some hv with hv | hv
      · obtain ⟨body, hbody, hle⟩ := exists_body hv
        rw [← hop.body body hbody] at hle
        exact lt_of_le_of_lt hle hlen
      · exact h.short _ _ hv
    · simp only [SingleMap.step, Function.update_of_ne hk] at hv
      exact h.short _ _ hv

/-- What another backend of its key does with an operation changes nothing for the map. -/
lemma FirstHolds.ignore {servers servers' : Fleet} (h : FirstHolds r servers m) {op : KeyOp}
    {b : Backend} {entry : Option Str}
    (hb : ∀ c rest, r.hashRing.getNodes op.key 2 = c :: rest → b.addr ≠ c.addr)
    (hcoh : servers'.Coherent)
    (hentry : ∀ a k, servers'.entry a k = if a = b.addr ∧ k = op.key then entry
      else servers.entry a k) : FirstHolds r servers' m := by
  refine ⟨hcoh, fun key c rest hc => ?_, h.short⟩
  rw [hentry, if_neg ?_]
  · exact h.entry key c rest hc
  · rintro ⟨ha, rfl⟩
    exact hb c rest hc ha.symm

/-- What a read of a key that the map has is answered. -/
lemma FirstHolds.length_lt {servers : Fleet} (h : FirstHolds r servers m) {key : Str} {b : Backend}
    {rest : List Backend} (hnodes : r.hashRing.getNodes key 2 = b :: rest) :
    ((KeyOp.get key).answer (servers.entry b.addr key)).2.length < 2 ^ 63 := by
  rw [h.entry key b rest hnodes]
  cases hv : m key with
  | none => simp [KeyOp.answer]
  | some value => exact h.short key value hv

/-- The other backends of a key have other addresses than its first one. -/
lemma addr_ne_of_mem {key : Str} {b c : Backend} {rest : List Backend}
    (hnodes : r.hashRing.getNodes key 2 = b :: rest) (hc : c ∈ rest) : c.addr ≠ b.addr := by
  have hnd := nodup_getNodes r.hashRing key 2
  rw [hnodes, List.map_cons, List.nodup_cons] at hnd
  exact fun heq => hnd.1 (heq ▸ List.mem_map_of_mem hc)

/-- A session has gone on, and the others are where they were. -/
lemma Follows.update [DecidableEq ι] (h : Follows lib r s m p) {i : ι} {c : ClientSession}
    {w : Fleet} {m' : SingleMap} {q : Progress KeyOp (Option Str)} {aborted : Option Str}
    (hw : FirstHolds r w m') (hqueue : ∀ request ∈ c.queue, request ∈ (s.sessions i).queue)
    (hphase : PhaseFollows lib r c.phase q) :
    Follows lib r ⟨s.router, w, Function.update s.sessions i c, aborted⟩ m'
      (Function.update p i q) := by
  refine ⟨h.router, hw, fun j => ?_, fun j => ?_⟩
  · by_cases hj : j = i
    · subst hj
      simp only [Function.update_self]
      exact fun request hr => h.queue j request (hqueue request hr)
    · simp only [Function.update_of_ne hj]
      exact h.queue j
  · by_cases hj : j = i
    · subst hj
      simp only [Function.update_self]
      exact hphase
    · simp only [Function.update_of_ne hj]
      exact h.phase j

/-- A session has gone on, and nothing has been done for its client. -/
lemma Follows.keep [DecidableEq ι] (h : Follows lib r s m p) {i : ι} {c : ClientSession}
    {aborted : Option Str} (hqueue : c.queue = (s.sessions i).queue)
    (hphase : PhaseFollows lib r c.phase (p i)) :
    Follows lib r ⟨s.router, s.world, Function.update s.sessions i c, aborted⟩ m p := by
  have hall : Follows lib r ⟨s.router, s.world, Function.update s.sessions i c, aborted⟩ m _ :=
    h.update h.world (fun _ hr => hqueue ▸ hr) hphase
  rwa [Function.update_eq_self] at hall

/-- The map can follow a write to one of the backends. -/
lemma Follows.wrote [DecidableEq ι] (h : Follows lib r s m p) (hlib : lib.Faithful) {i : ι}
    {request : HttpRequest} {b : Backend} {candidates : List Backend} {success : Bool}
    {bytes : Str} (hphase : (s.sessions i).phase = .writing request (b :: candidates) success bytes)
    {rep : Reply} {servers : Fleet}
    (hr : reply (soundNetwork lib) (requestPayload request) b s.world = (rep, servers)) :
    rep.isAnswer = true ∧ rep.isRefusal = false ∧ ∃ m' q, mapObject.Steps m p [] m'
        (Function.update p i q)
      ∧ FirstHolds r servers m'
      ∧ PhaseFollows lib r (.writing request candidates true (rep.keep bytes)) q := by
  have hp := h.phase i
  rw [hphase] at hp
  generalize hpi : p i = progress at hp
  cases hp with
  | begun hop hlen hw hnodes =>
    rename_i op
    have hpayload : forwardedAs request = requestPayload request :=
      if_pos (hop.isWriteRequest.trans hw)
    rw [← hpayload] at hr
    obtain ⟨response, rfl, -, hanswer, hcoh, hentry⟩ :=
      reply_sound hlib h.world.coherent hop (length_answer hw _) hr
    rw [h.world.entry op.key b candidates hnodes] at hanswer
    refine ⟨rfl, rfl, _, _, .apply i op hpi .nil, h.world.apply hop hlen hnodes hcoh hentry, ?_⟩
    refine .wrote hop hw (fun c rest hc d hd => ?_) (answers_keep_first hanswer)
    obtain ⟨rfl, -⟩ := List.cons.inj (hnodes.symm.trans hc)
    exact addr_ne_of_mem hnodes hd
  | wrote hop hw hfirst hbytes =>
    rename_i op found
    have hpayload : forwardedAs request = requestPayload request :=
      if_pos (hop.isWriteRequest.trans hw)
    rw [← hpayload] at hr
    obtain ⟨response, rfl, hstatus, hanswer, hcoh, hentry⟩ :=
      reply_sound hlib h.world.coherent hop (length_answer hw _) hr
    have hsame : Function.update p i (.applied op found) = p :=
      Function.update_eq_iff.2 ⟨hpi.symm, fun _ _ => rfl⟩
    refine ⟨rfl, rfl, m, .applied op found, by rw [hsame]; exact .nil,
      h.world.ignore ?_ hcoh hentry, ?_⟩
    · exact fun c rest hc => hfirst c rest hc b List.mem_cons_self
    · exact .wrote hop hw (fun c rest hc d hd => hfirst c rest hc d (List.mem_cons_of_mem _ hd))
        (answers_keep hw hbytes hanswer hstatus)

/-- The map can follow a read from the first backend. -/
lemma Follows.read [DecidableEq ι] (h : Follows lib r s m p) (hlib : lib.Faithful) {i : ι}
    {request : HttpRequest} {b : Backend} {candidates : List Backend}
    (hphase : (s.sessions i).phase = .reading request (b :: candidates)) {rep : Reply}
    {servers : Fleet} (hr : reply (soundNetwork lib) request.rawRequest b s.world = (rep, servers)) :
    ∃ q response, rep = .answered response ∧ mapObject.Steps m p [] m (Function.update p i q)
      ∧ FirstHolds r servers m
      ∧ PhaseFollows lib r (.answering request .next response.rawResponse) q := by
  have hp := h.phase i
  rw [hphase] at hp
  generalize hpi : p i = progress at hp
  cases hp with
  | reading hop hnodes =>
    rename_i key
    have hpayload : forwardedAs request = request.rawRequest :=
      if_neg (by rw [hop.isWriteRequest]; nofun)
    rw [← hpayload] at hr
    have hfound : s.world.entry b.addr (KeyOp.get key).key = m key :=
      h.world.entry key b candidates hnodes
    obtain ⟨response, rfl, -, hanswer, hcoh, hentry⟩ :=
      reply_sound hlib h.world.coherent hop (h.world.length_lt hnodes) hr
    have hsame : (m.step (.get key)).2 = m := Function.update_eq_self _ _
    have hsteps : mapObject.Steps m p [] (m.step (.get key)).2 _ := .apply i (.get key) hpi .nil
    rw [hsame] at hsteps
    have hworld : FirstHolds r servers m := by
      refine ⟨hcoh, fun k c rest hc => ?_, h.world.short⟩
      have hkept : servers.entry c.addr k = s.world.entry c.addr k := by
        rw [hentry]
        split_ifs with hc'
        · exact hc'.1 ▸ hc'.2 ▸ rfl
        · rfl
      rw [hkept]
      exact h.world.entry k c rest hc
    rw [hfound] at hanswer
    exact ⟨_, response, rfl, hsteps, hworld, .answering ⟨_, .inl rfl, hanswer.response⟩⟩

/-- The map can follow every step of the sessions. -/
lemma Follows.step [DecidableEq ι] (h : Follows lib r s m p) (hlib : lib.Faithful) (hup : r.AllUp)
    (he : r.hashRing.empty = false) {a : SessionAction ι Fleet}
    (hnet : a.network = soundNetwork lib) (hs : s.step a = some s') :
    ∃ m' p', mapObject.Steps m p (visible s a) m' p' ∧ Follows lib r s' m' p' := by
  obtain ⟨i, net⟩ := a
  obtain rfl : net = soundNetwork lib := hnet
  obtain rfl := h.router
  obtain ⟨-, c, r', w', hstep, rfl⟩ := Sessions.step_cases hs
  dsimp only at hstep ⊢
  have hp := h.phase i
  cases hstep with
  | routed hphase hqueue =>
    rename_i request queue
    obtain ⟨op, hop, hlen⟩ := h.queue i request (hqueue ▸ List.mem_cons_self)
    rw [hphase] at hp
    generalize hpi : p i = progress at hp
    cases hp with
    | waiting =>
      refine ⟨m, _, ?_, h.update h.world (fun request hr => hqueue ▸ List.mem_cons_of_mem _ hr)
        (phaseFollows_route hup he hop hlen)⟩
      simp only [visible, hphase, hqueue, hop.requestOp_eq]
      exact .call i op hpi .nil
  | wrote hphase hr =>
    rename_i request backend candidates success bytes rep
    obtain ⟨hanswer, hrefusal, m', q, hsteps, hworld, hnext⟩ := h.wrote hlib hphase hr
    refine ⟨m', Function.update p i q, ?_, h.update hworld (fun _ hr => hr) ?_⟩
    · simp only [visible, hphase]
      exact hsteps
    · simp only [hanswer, hrefusal, Bool.or_true, Bool.false_eq_true, if_false]
      exact hnext
  | written hphase =>
    rename_i request success bytes
    refine ⟨m, p, ?_, h.keep rfl ?_⟩
    · simp only [visible, hphase]
      exact .nil
    · rw [hphase] at hp
      generalize p i = progress at hp
      cases hp with
      | begun hop hlen hw hnodes => exact absurd hnodes (getNodes_ne_nil he _ nofun)
      | wrote hop hw hfirst hbytes => exact .answering hbytes
  | read hphase hr =>
    rename_i request backend candidates response
    obtain ⟨q, response, hrep, hsteps, hworld, hnext⟩ := h.read hlib hphase hr
    obtain rfl := Reply.answered.inj hrep
    refine ⟨m, Function.update p i q, ?_, h.update hworld (fun _ hr => hr) hnext⟩
    simp only [visible, hphase]
    exact hsteps
  | failed hphase hr hrep =>
    obtain ⟨q, response, rfl, -⟩ := h.read hlib hphase hr
    cases hrep
  | unread hphase =>
    rw [hphase] at hp
    generalize p i = progress at hp
    cases hp with
    | reading hop hnodes => exact absurd hnodes (getNodes_ne_nil he _ nofun)
  | marked hphase =>
    rw [hphase] at hp
    cases hp
  | answered hphase =>
    rename_i request flow bytes
    rw [hphase] at hp
    generalize hpi : p i = progress at hp
    cases hp with
    | answering hbytes =>
      refine ⟨m, Function.update p i .idle, ?_, h.update h.world (fun _ hr => hr) .waiting⟩
      simp only [visible, hphase]
      exact .ret i _ _ bytes hpi hbytes .nil

/-- While no backend fails, what the clients of concurrent sessions see is linearizable: each
    operation takes effect at one moment between its request and its answer. A read is answered what
    the map has then, and a write what the map answers or that it was successful. -/
theorem sessions_linearizable [DecidableEq ι] (hlib : lib.Faithful) {backends : List Backend}
    {vnodes : ℕ} (hnew : Router.new backends vnodes = .ok r)
    (hports : (backends.map Backend.port).Nodup) (hup : ∀ b ∈ backends, b.status = .up)
    (hv : 0 < vnodes) (capacity : ℕ) {requests : ι → List HttpRequest}
    (hops : ∀ i, ∀ request ∈ requests i,
      ∃ op, IsOp lib request op ∧ request.body.length < 2 ^ 63)
    {actions : List (SessionAction ι Fleet)}
    (h : Run Sessions.step (fun _ a => a.network = soundNetwork lib)
      (Sessions.start r (fun _ => .new capacity) requests) actions s) :
    Linearizable mapObject (fun _ => none)
      (observed Sessions.step visible (Sessions.start r (fun _ => .new capacity) requests)
        actions) := by
  have hallUp : r.AllUp := new_allUp hnew hports hup
  have hstart : Follows lib r (Sessions.start r (fun _ => .new capacity) requests)
      (fun _ => none) fun _ => .idle :=
    ⟨rfl, ⟨fun _ => coherent_new capacity, fun _ _ _ _ => rfl, nofun⟩, hops, fun _ => .waiting⟩
  exact Linearizable.of_run (Follows lib r)
    (fun hfollows hnet hs => hfollows.step hlib hallUp (new_empty hnew hv) hnet hs) h hstart

end

section
attribute [local instance] djb2

/-- One client puts the key `a`, and another one gets it. -/
def putAndGet : Sessions Bool Fleet :=
  .start (initialRouter 1) (fun _ => .new 10)
    fun i => if i then [requestOf putAX] else [requestOf getA]

/-- The client that gets asks between the two backends of the other one. -/
def turns : List (SessionAction Bool Fleet) :=
  [true, false, true, false, false, true, true, true].map (⟨·, soundNetwork plainLib⟩)

/-- Both clients are answered. -/
theorem sessions_linearizable_putAX :
    (observed Sessions.step visible putAndGet turns).length = 4
      ∧ Linearizable mapObject (fun _ => none)
        (observed Sessions.step visible putAndGet turns) := by
  have hops (i : Bool) : ∀ request ∈ if i = true then [requestOf putAX] else [requestOf getA],
      ∃ op, IsOp plainLib request op ∧ request.body.length < 2 ^ 63 := by
    rcases i with _ | _ <;> intro request hr <;> obtain rfl := List.mem_singleton.1 hr
    · exact ⟨getA, isOp_getA, by decide +kernel⟩
    · exact ⟨putAX, isOp_putAX, by decide +kernel⟩
  have hisSome : (exec Sessions.step putAndGet turns).isSome = true := by decide +kernel
  obtain ⟨s, hs⟩ := Option.isSome_iff_exists.1 hisSome
  have hrun : Run Sessions.step (fun _ a => a.network = soundNetwork plainLib) putAndGet turns s :=
    (Run.of_exec hs).of_forall fun _ a ha _ => by
      obtain ⟨i, -, rfl⟩ := List.mem_map.1 ha
      rfl
  have hnew : Router.new initialBackends 1 = .ok (initialRouter 1) := rfl
  exact ⟨by decide +kernel, sessions_linearizable plainLib_faithful hnew (by decide) (by decide)
    Nat.zero_lt_one 10 hops hrun⟩

end

end KvStore.Cluster
