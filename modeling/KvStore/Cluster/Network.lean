import KvStore.Lib.Run
import KvStore.Server.Operations
import KvStore.Session.Forward

/-!
# The network of the servers

What a proxy session meets behind its connections: servers that run, with `httplib` between the bytes
and the handlers, and servers that have crashed. `HttpLib` stands for the library, which runs all the
requests that it finds on a connection; what is relied on is that it writes the handlers' responses
as framed messages (`HttpLib.Faithful`), and that it reads a client's request as the balancer does,
with nothing left over (`IsOp.received`).

* `attempts_op`: a write reaches all candidates that run, and each does what one map does.
* `handleRequest_write`, `handleRequest_get`, `handleRequest_unavailable`: what the client gets.
-/

namespace KvStore.Cluster
open KvStore.Lib KvStore.Ring KvStore.Http KvStore.Server KvStore.Session

/-- What `httplib` finds in the bytes that a server receives on a connection, one entry for each
    request or for what it answers on its own instead, and the pieces in which the response to a
    request is sent. -/
structure HttpLib where
  read : Str → List (Except (List Str) Request)
  write : Request → Response → List Str

/-- What a server sends for a request that has been found, and the server after it. -/
def HttpLib.answer (lib : HttpLib) (s : KvServer) :
    Except (List Str) Request → List Str × KvServer
  | .ok req =>
    let handled := s.dispatch req none
    (lib.write req handled.1, handled.2)
  | .error bytes => (bytes, s)

/-- The network in front of the servers. -/
def fleetNetwork (lib : HttpLib) (crashed : Addr → Bool) : Network Fleet where
  connect addr servers := (!crashed addr, servers)
  talk addr payload servers :=
    let answered := outputs lib.answer (servers addr) (lib.read payload)
    (answered.1.flatten, Function.update servers addr answered.2)

/-- The bytes are one response with this status and this body. -/
structure IsResponse (raw : Str) (status : ℤ) (body : Str) : Prop where
  complete : (parseHTTPResponse raw).status = .complete
  status_eq : (parseHTTPResponse raw).response.statusCode = status
  body_eq : (parseHTTPResponse raw).response.body = body
  all : (parseHTTPResponse raw).consumed = raw.length

/-- The methods of the operations. `httplib` answers a HEAD without a body. -/
def isKeyMethod (method : Str) : Bool :=
  method = "GET".toList || method = "POST".toList || method = "PUT".toList
    || method = "DELETE".toList

/-- A request for the whole answer, its body included, and nothing before it. -/
def IsOrdinary (req : Request) : Prop :=
  isKeyMethod req.method = true ∧ req.hasHeader "Range".toList = false
    ∧ req.hasHeader "Expect".toList = false

instance (req : Request) : Decidable (IsOrdinary req) := inferInstanceAs (Decidable (_ ∧ _))

/-- The response is sent as a framed message with its status and its body. -/
def HttpLib.Sends (lib : HttpLib) (req : Request) (res : Response) : Prop :=
  (∀ bytes ∈ lib.write req res, bytes ≠ [])
    ∧ ∃ headerEnd, FramedAt (lib.write req res).flatten headerEnd
      ∧ (readHeaderPart ((lib.write req res).flatten.take headerEnd)).statusCode = res.status
      ∧ (lib.write req res).flatten.drop (headerEnd + 4) = res.body

/-- The responses of the handlers are sent as they should be, if their bodies fit into memory. -/
def HttpLib.Faithful (lib : HttpLib) : Prop :=
  ∀ req, IsOrdinary req → ∀ status ∈ [(200 : ℤ), 201, 404, 409], ∀ body : Str,
    body.length < 2 ^ 63 → lib.Sends req (closing.reply status body)

/-- A request for an operation on a key, for the balancer and for `httplib`, which gets a PUT marked
    as a replicated one and finds no other request behind it. -/
structure IsOp (lib : HttpLib) (request : HttpRequest) (op : KeyOp) : Prop where
  wellFormed : op.WellFormed
  method : request.method = op.method
  path : request.path = op.path
  body : ∀ body, op.body = some body → request.body = body
  received : ∃ req, lib.read (forwardedAs request) = [.ok req] ∧ IsOrdinary req ∧ Asks req op

/-- The library has sent these bytes for a response. -/
def HttpLib.Wrote (lib : HttpLib) (status : ℤ) (body raw : Str) : Prop :=
  body.length < 2 ^ 63
    ∧ ∃ req, IsOrdinary req ∧ raw = (lib.write req (closing.reply status body)).flatten

/-- The bytes are the answer to an operation that finds this entry, as the library sends it. -/
structure IsAnswer (lib : HttpLib) (op : KeyOp) (entry : Option Str) (raw : Str) : Prop where
  response : IsResponse raw (op.answer entry).1 (op.answer entry).2
  wrote : lib.Wrote (op.answer entry).1 (op.answer entry).2 raw

/-- All candidates that run have done the operation, and nobody else. -/
structure AppliedAt (crashed : Addr → Bool) (candidates : List Backend) (op : KeyOp)
    (servers servers' : Fleet) : Prop where
  coherent : servers'.Coherent
  entry : ∀ a k, servers'.entry a k
    = if (∃ c ∈ candidates, c.addr = a) ∧ crashed a = false ∧ k = op.key then
        op.after (servers.entry a op.key)
      else servers.entry a k

variable {lib : HttpLib} {crashed : Addr → Bool} {servers : Fleet} {b : Backend}
  {request : HttpRequest} {op : KeyOp}

/-- The statuses of the answers. -/
lemma answer_status (op : KeyOp) (entry : Option Str) :
    (op.answer entry).1 ∈ [(200 : ℤ), 201, 404, 409] := by
  cases op <;> cases entry <;> simp [KeyOp.answer]

/-- Only the answer to a GET can be long. -/
lemma length_answer (hw : op.isWrite = true) (entry : Option Str) :
    (op.answer entry).2.length < 2 ^ 63 := by
  cases op with
  | get key => cases hw
  | put key value => simp [KeyOp.answer]
  | create key value => cases entry <;> simp [KeyOp.answer]
  | delete key => cases entry <;> simp [KeyOp.answer]

/-- The balancer takes the request for a write if the operation is one. -/
lemma IsOp.isWriteRequest (h : IsOp lib request op) :
    isWriteRequest request = op.isWrite := by
  unfold Session.isWriteRequest
  rw [h.method]
  cases op <;> rfl

/-- The balancer finds the key of the operation. -/
lemma IsOp.getKey (h : IsOp lib request op) : request.getKey = op.key := by
  have hpath := h.path
  have hword := h.wellFormed.word
  have hne := h.wellFormed.ne_create
  cases op with
  | create key value =>
    have hbody : request.body = key ++ ' ' :: value := h.body _ rfl
    rw [getKey_create hpath (by simp [hbody]), hbody]
    exact takeWhile_key (not_mem_of_isWord hword rfl) value
  | get key => exact getKey_eq hpath hword (.inl hne)
  | put key value => exact getKey_eq hpath hword (.inl hne)
  | delete key => exact getKey_eq hpath hword (.inl hne)

/-- A crashed server refuses the connection. -/
lemma reply_crashed (hc : crashed b.addr = true) (payload : Str) :
    reply (fleetNetwork lib crashed) payload b servers = (.refused, servers) := by
  simp [reply, fleetNetwork, hc]

/-- A server that finds a single request sends the response to it. -/
lemma talk_single {payload : Str} {req : Request} (hread : lib.read payload = [.ok req])
    (addr : Addr) : (fleetNetwork lib crashed).talk addr payload servers
      = (lib.write req ((servers addr).dispatch req none).1,
          Function.update servers addr ((servers addr).dispatch req none).2) := by
  simp only [fleetNetwork, hread, outputs, HttpLib.answer, List.flatten_singleton]

/-- What the library sends is a response with its status and its body. -/
lemma HttpLib.Sends.isResponse {req : Request} {status : ℤ} {body : Str}
    (h : lib.Sends req (closing.reply status body)) :
    IsResponse (lib.write req (closing.reply status body)).flatten status body := by
  obtain ⟨-, headerEnd, hframed, hcode, hbody⟩ := h
  have hparse := hframed.parse_eq
  exact ⟨by rw [hparse], by rw [hparse]; exact hcode, by rw [hparse]; exact hbody, by rw [hparse]⟩

/-- A server that runs answers what its handler says. -/
lemma reply_up (hlib : lib.Faithful) (hc : crashed b.addr = false) {payload : Str} {req : Request}
    (hread : lib.read payload = [.ok req]) (hreq : IsOrdinary req) {status : ℤ} {body : Str}
    (hres : ((servers b.addr).dispatch req none).1 = closing.reply status body)
    (hstatus : status ∈ [(200 : ℤ), 201, 404, 409]) (hlen : body.length < 2 ^ 63) :
    ∃ response, reply (fleetNetwork lib crashed) payload b servers = (.answered response,
        Function.update servers b.addr ((servers b.addr).dispatch req none).2)
      ∧ IsResponse response.rawResponse status body
      ∧ lib.Wrote status body response.rawResponse := by
  have hsends := hlib req hreq status hstatus body hlen
  have hresponse := hsends.isResponse
  obtain ⟨hne, headerEnd, hframed, -, -⟩ := hsends
  have hconnect : (fleetNetwork lib crashed).connect b.addr servers = (true, servers) := by
    simp only [fleetNetwork, hc, Bool.not_false]
  refine ⟨framedResponse (lib.write req (closing.reply status body)).flatten headerEnd, ?_,
    hresponse, hlen, req, hreq, rfl⟩
  simp only [reply, hconnect, talk_single hread, hres,
    readBackendResponse_framed hframed hne (List.nil_append _), if_true]

/-- The reply of a server that runs to an operation. -/
lemma reply_op (hlib : lib.Faithful) (hcoh : servers.Coherent) (hc : crashed b.addr = false)
    (hop : IsOp lib request op)
    (hlen : (op.answer (servers.entry b.addr op.key)).2.length < 2 ^ 63) :
    ∃ response servers', reply (fleetNetwork lib crashed) (forwardedAs request) b servers
        = (.answered response, servers')
      ∧ IsAnswer lib op (servers.entry b.addr op.key) response.rawResponse
      ∧ servers'.Coherent
      ∧ ∀ a k, servers'.entry a k = if a = b.addr ∧ k = op.key then
          op.after (servers.entry b.addr op.key) else servers.entry a k := by
  obtain ⟨req, hread, hordinary, hasks⟩ := hop.received
  obtain ⟨hanswer, htable⟩ := dispatch_asks (hcoh b.addr) hop.wellFormed hasks
  obtain ⟨response, hreply, hresponse, hwrote⟩ := reply_up hlib hc hread hordinary hanswer
    (answer_status op _) hlen
  refine ⟨response, _, hreply, ⟨hresponse, hwrote⟩, ?_, fun a k => ?_⟩
  · exact hcoh.update b.addr (coherent_dispatch (hcoh b.addr) req)
  · rw [entry_update, htable]
    by_cases ha : a = b.addr
    · subst ha
      simp only [if_true, true_and, Fleet.entry]
    · rw [if_neg ha, if_neg fun h => ha h.1]

/-- A write reaches all candidates that run, and each does what one map does. -/
lemma attempts_op (hlib : lib.Faithful) (hop : IsOp lib request op) (hw : op.isWrite = true)
    {candidates : List Backend} (hnd : (candidates.map Backend.addr).Nodup)
    (hcoh : servers.Coherent) :
    let tried := attempts (fleetNetwork lib crashed) (forwardedAs request) candidates servers
    (∀ e ∈ tried.1, crashed e.1.addr = true ∧ e.2 = .refused
        ∨ crashed e.1.addr = false ∧ ∃ response, e.2 = .answered response
          ∧ IsAnswer lib op (servers.entry e.1.addr op.key) response.rawResponse)
      ∧ AppliedAt crashed candidates op servers tried.2 := by
  induction candidates generalizing servers with
  | nil => exact ⟨List.forall_mem_nil _, hcoh, fun a k => by simp [attempts]⟩
  | cons b candidates ih =>
    obtain ⟨hnot, hnd⟩ := List.nodup_cons.1 hnd
    -- the other candidates have other addresses
    have hother : ∀ c ∈ candidates, c.addr ≠ b.addr :=
      fun c hc he => hnot (List.mem_map.2 ⟨c, hc, he⟩)
    simp only [attempts]
    cases hc : crashed b.addr with
    | true =>
      obtain ⟨hall, hcoh', hentry⟩ := ih hnd hcoh
      rw [reply_crashed hc]
      refine ⟨List.forall_mem_cons.2 ⟨.inl ⟨hc, rfl⟩, hall⟩, hcoh', fun a k => ?_⟩
      rw [hentry]
      by_cases ha : b.addr = a
      · subst ha
        simp [hc]
      · simp [ha]
    | false =>
      obtain ⟨response, servers', hreply, hresponse, hcoh', hentry⟩ :=
        reply_op hlib hcoh hc hop (length_answer hw _)
      have hsame : ∀ c ∈ candidates, servers'.entry c.addr op.key = servers.entry c.addr op.key :=
        fun c hmem => by rw [hentry, if_neg fun h => hother c hmem h.1]
      obtain ⟨hall, hcoh'', hentry'⟩ :=
        ih hnd hcoh'
      rw [hreply]
      refine ⟨List.forall_mem_cons.2 ⟨.inr ⟨hc, response, rfl, hresponse⟩, ?_⟩, hcoh'', ?_⟩
      · intro e he
        rcases hall e he with hrefused | ⟨hup, response', hr, hanswer⟩
        · exact .inl hrefused
        · rw [hsame e.1 (exists_reply_of_mem_attempts he).1] at hanswer
          exact .inr ⟨hup, response', hr, hanswer⟩
      · intro a k
        rw [hentry', hentry, hentry]
        by_cases ha : a = b.addr
        · subst ha
          have hnone : ¬ ∃ c ∈ candidates, c.addr = b.addr := by
            rintro ⟨c, hmem, he⟩
            exact hother c hmem he
          simp [hnone, hc]
        · simp [ha, Ne.symm ha]

/-- A GET passes the candidates that have crashed. -/
lemma firstAnswer_crashed {pre : List Backend} (hc : ∀ b ∈ pre, crashed b.addr = true)
    (payload : Str) (candidates : List Backend) :
    firstAnswer (fleetNetwork lib crashed) payload (pre ++ candidates) servers
      = ((firstAnswer (fleetNetwork lib crashed) payload candidates servers).1,
          pre ++ (firstAnswer (fleetNetwork lib crashed) payload candidates servers).2.1,
          (firstAnswer (fleetNetwork lib crashed) payload candidates servers).2.2) := by
  induction pre with
  | nil => rfl
  | cons b pre ih =>
    obtain ⟨hb, hpre⟩ := List.forall_mem_cons.1 hc
    simp only [List.cons_append, firstAnswer, reply_crashed hb, ih hpre]

section
variable [StdHash]

/-- A candidate that has crashed is marked DOWN. -/
def markCrashed (crashed : Addr → Bool) (r : Router) (b : Backend) : Router :=
  if crashed b.addr then r.markBackendDown b.port else r

/-- A write is answered by one of the candidates that run, if there is one. -/
lemma handleRequest_write (hlib : lib.Faithful) (hcoh : servers.Coherent)
    (hop : IsOp lib request op) (hw : op.isWrite = true) {r : Router} {candidates : List Backend}
    (hcand : r.getWriteBackendsForKey op.key 2 = .ok candidates)
    (hnd : (candidates.map Backend.addr).Nodup) (hup : ∃ c ∈ candidates, crashed c.addr = false)
    (sent : List Str) :
    ∃ servers' bytes, handleRequest (fleetNetwork lib crashed) request (.idle r servers sent)
        = (.next, .idle (candidates.foldl (markCrashed crashed) r) servers' (sent ++ [bytes]))
      ∧ AppliedAt crashed candidates op servers servers'
      ∧ ∃ c ∈ candidates, crashed c.addr = false
          ∧ IsAnswer lib op (servers.entry c.addr op.key) bytes := by
  have hwr : isWriteRequest request = true := hop.isWriteRequest.trans hw
  have hpayload : forwardedAs request = requestPayload request := if_pos hwr
  obtain ⟨hall, happlied⟩ := attempts_op hlib hop hw hnd hcoh
  rw [hpayload] at hall happlied
  have hmap := map_fst_attempts (fleetNetwork lib crashed) (requestPayload request) candidates servers
  have hroute : (ProxySession.idle r servers sent).candidates request = .ok candidates := by
    rw [ProxySession.candidates, if_pos hwr, hop.getKey]
    exact hcand
  obtain ⟨c, hc, hcup⟩ := hup
  have hhandled : handleRequest (fleetNetwork lib crashed) request (.idle r servers sent)
      = handleWrite (fleetNetwork lib crashed) request candidates (.idle r servers sent) := by
    unfold handleRequest
    rw [hroute]
    cases candidates with
    | nil => cases hc
    | cons b l => exact if_pos hwr
  obtain ⟨tried, htried⟩ : ∃ tried, attempts (fleetNetwork lib crashed) (requestPayload request)
      candidates servers = tried := ⟨_, rfl⟩
  rw [htried] at hall happlied hmap
  -- a candidate that runs answers, so that an answer is kept
  obtain ⟨e, he, rfl⟩ : ∃ e ∈ tried.1, e.1 = c := List.mem_map.1 (hmap ▸ hc)
  have hany : tried.1.any (·.2.isAnswer) = true := by
    rcases hall e he with ⟨hcr, -⟩ | ⟨-, response, hr, -⟩
    · rw [hcup] at hcr
      cases hcr
    · exact List.any_eq_true.2 ⟨e, he, by rw [hr]; rfl⟩
  have hrouter : tried.1.foldl markRefused r = candidates.foldl (markCrashed crashed) r := by
    rw [← hmap, List.foldl_map]
    refine List.foldl_ext _ _ _ fun r e he => ?_
    rcases hall e he with ⟨hcr, href⟩ | ⟨hcr, response, hr, -⟩
    · rw [markRefused, markCrashed, href, hcr]
      rfl
    · rw [markRefused, markCrashed, hr, hcr]
      rfl
  rw [hhandled, handleWrite_of_answer (s := .idle r servers sent) rfl htried hany]
  refine ⟨tried.2, _, by rw [← hrouter]; rfl, happlied, ?_⟩
  rcases foldl_keep_cases tried.1 [] with ⟨-, hne | hno⟩ | ⟨e', he', response, hr, hkeep⟩
  · exact absurd rfl hne
  · obtain ⟨e', he', hans⟩ := List.any_eq_true.1 hany
    rw [hno e' he'] at hans
    cases hans
  · rcases hall e' he' with ⟨-, href⟩ | ⟨hcr, response', hr', hanswer⟩
    · rw [href] at hr
      cases hr
    · obtain rfl := Reply.answered.inj (hr'.symm.trans hr)
      exact ⟨e'.1, hmap ▸ List.mem_map_of_mem he', hcr, by rw [hkeep]; exact hanswer⟩

variable {r : Router} {key : Str}

/-- How a GET is handled. -/
lemma handleRequest_read (hop : IsOp lib request (.get key)) {candidates : List Backend}
    (hcand : r.getReadBackendsForKey key 2 = .ok candidates) (hne : candidates ≠ [])
    (sent : List Str) :
    handleRequest (fleetNetwork lib crashed) request (.idle r servers sent)
      = handleRead (fleetNetwork lib crashed) request candidates (.idle r servers sent) := by
  have hwr : isWriteRequest request = false := hop.isWriteRequest
  have hroute : (ProxySession.idle r servers sent).candidates request = .ok candidates := by
    rw [ProxySession.candidates, hwr, hop.getKey]
    exact hcand
  unfold handleRequest
  rw [hroute]
  cases candidates with
  | nil => exact absurd rfl hne
  | cons b l => exact if_neg (by simp [hwr])

/-- A GET is answered by the first candidate that runs. -/
lemma handleRequest_get (hlib : lib.Faithful) (hcoh : servers.Coherent)
    (hop : IsOp lib request (.get key)) {pre post : List Backend}
    (hcand : r.getReadBackendsForKey key 2 = .ok (pre ++ b :: post))
    (hpre : ∀ c ∈ pre, crashed c.addr = true) (hc : crashed b.addr = false)
    (hlen : ∀ value, servers.entry b.addr key = some value → value.length < 2 ^ 63)
    (sent : List Str) :
    ∃ servers' bytes, handleRequest (fleetNetwork lib crashed) request (.idle r servers sent)
        = (.next, .idle (pre.foldl (fun r c => r.markBackendDown c.port) r) servers'
            (sent ++ [bytes]))
      ∧ servers'.Coherent ∧ servers'.entry = servers.entry
      ∧ IsAnswer lib (.get key) (servers.entry b.addr key) bytes := by
  have hpayload : forwardedAs request = request.rawRequest :=
    if_neg (by rw [hop.isWriteRequest]; nofun)
  have hshort : ((KeyOp.get key).answer (servers.entry b.addr key)).2.length < 2 ^ 63 := by
    cases he : servers.entry b.addr key with
    | none => simp [KeyOp.answer]
    | some value => exact hlen value he
  obtain ⟨response, servers', hreply, hanswer, hcoh', hentry⟩ := reply_op hlib hcoh hc hop hshort
  rw [hpayload] at hreply
  have hfound : firstAnswer (fleetNetwork lib crashed) request.rawRequest (pre ++ b :: post) servers
      = (some response, pre, servers') := by
    simp only [firstAnswer_crashed hpre, firstAnswer, hreply, List.append_nil]
  rw [handleRequest_read hop hcand (by simp),
    handleRead_eq _ _ _ (s := .idle r servers sent) rfl]
  simp only [ProxySession.idle, hfound]
  refine ⟨servers', response.rawResponse, rfl, hcoh', ?_, hanswer⟩
  funext a k
  rw [hentry]
  split_ifs with h
  · rw [h.1, h.2]
    rfl
  · rfl

/-- A GET is answered with a 503 if no candidate runs. -/
lemma handleRequest_unavailable (hop : IsOp lib request (.get key)) {candidates : List Backend}
    (hcand : r.getReadBackendsForKey key 2 = .ok candidates)
    (hall : ∀ c ∈ candidates, crashed c.addr = true) (sent : List Str) :
    handleRequest (fleetNetwork lib crashed) request (.idle r servers sent)
      = (.ret, .idle (candidates.foldl (fun r c => r.markBackendDown c.port) r) servers
          (sent ++ [serviceUnavailable])) := by
  cases candidates with
  | nil =>
    have hwr : isWriteRequest request = false := hop.isWriteRequest
    have hroute : (ProxySession.idle r servers sent).candidates request = .ok [] := by
      rw [ProxySession.candidates, hwr, hop.getKey]
      exact hcand
    unfold handleRequest
    rw [hroute]
    rfl
  | cons b l =>
    have hfound : firstAnswer (fleetNetwork lib crashed) request.rawRequest (b :: l) servers
        = (none, b :: l, servers) := by
      simpa [firstAnswer] using
        @firstAnswer_crashed lib crashed servers (b :: l) hall request.rawRequest []
    rw [handleRequest_read hop hcand (by simp),
      handleRead_eq _ _ _ (s := .idle r servers sent) rfl]
    simp only [ProxySession.idle, hfound]
    rfl

end

end KvStore.Cluster
