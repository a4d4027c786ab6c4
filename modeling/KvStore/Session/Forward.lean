import KvStore.Http.Response
import KvStore.Ring.Agreement
import KvStore.Session.Stream

/-!
# Handling a request

What `ProxySession` does with one request: route it, try the candidates and answer the client. The
world outside is a `Network`: whether a connection is accepted and what comes back over it. The
write and the read path are the loops of the source; `reply` is what one candidate has to say, and
`attempts` what the write path gets to hear from all of them.

The source does not look at what `sendAll` returns, so that a send that fails only shows in what comes
back. It is assumed that no send raises SIGPIPE: the source passes no flag against it and does not
handle it, and a peer that closes the connection too early can end the process.

* `writeTo_eq`, `foldl_writeTo`: the write path in terms of the replies.
* `readFrom_eq`: the read path in terms of the replies.
* `handleRequest_spec`: what handling a request can do, and `handleRequest_reachable` and
  `handleRequest_keeps` what it cannot do to the router and the world.
* `readBackendResponse_framed`: a framed response is read in full, however it is cut.
-/

namespace KvStore.Session
open KvStore.Lib KvStore.Ring KvStore.Http

/-- The world outside of the balancer: whether `connect` succeeds, and what `recv` returns on the
    connection after some bytes have been sent, or as many of them as could be, until it is closed or
    fails. -/
structure Network (σ : Type*) where
  connect : Addr → σ → Bool × σ
  talk : Addr → Str → σ → List Str × σ

/-- A session: the router, the world, the backend it is connected to, and what has been sent to the
    client, one entry for each `sendAll`. -/
structure ProxySession (σ : Type*) where
  router : Router
  world : σ
  backendSocket : Option Addr := none
  sent : List Str := []

variable {σ : Type*}

/-- A session that is not connected to a backend. -/
def ProxySession.idle (r : Router) (world : σ) (sent : List Str) : ProxySession σ :=
  ⟨r, world, none, sent⟩

/-- The text of the 503 response. -/
def serviceUnavailable : Str :=
  "HTTP/1.1 503 Service Unavailable\r\nContent-Length: 21\r\n\r\n503 Service Unavailable".toList

/-- `connectToBackend`. A connection that is already open is used again. -/
def ProxySession.connectToBackend (net : Network σ) (backend : Backend) (s : ProxySession σ) :
    Bool × ProxySession σ :=
  if s.backendSocket.isSome then (true, s)
  else
    match net.connect backend.addr s.world with
    | (true, world) => (true, { s with world := world, backendSocket := some backend.addr })
    | (false, world) => (false, { s with world := world, backendSocket := none })

/-- `closeBackend`. -/
def ProxySession.closeBackend (s : ProxySession σ) : ProxySession σ :=
  { s with backendSocket := none }

/-- `sendAll` to the client. -/
def ProxySession.send (s : ProxySession σ) (bytes : Str) : ProxySession σ :=
  { s with sent := s.sent ++ [bytes] }

/-- `readBackendResponse`, on the results that `recv` is going to return. -/
def readBackendResponse (responseBuffer : Str) (incoming : List Str) : HttpResponseParseResult :=
  let parseResult := parseHTTPResponse responseBuffer
  if parseResult.status = .incomplete then
    match incoming with
    | [] =>
      { parseResult with
        status := .error, error := "Backend connection closed or error".toList }
    | bytes :: incoming =>
      if bytes.isEmpty then
        { parseResult with
          status := .error, error := "Backend connection closed or error".toList }
      else readBackendResponse (responseBuffer ++ bytes) incoming
  else parseResult

/-- `sendAll` to the backend, followed by `readBackendResponse`. -/
def ProxySession.exchange (net : Network σ) (payload : Str) (s : ProxySession σ) :
    HttpResponseParseResult × ProxySession σ :=
  match s.backendSocket with
  | none => (readBackendResponse [] [], s)
  | some addr =>
    let talked := net.talk addr payload s.world
    (readBackendResponse [] talked.1, { s with world := talked.2 })

/-- The methods that go the write path. -/
def isWriteRequest (request : HttpRequest) : Bool :=
  request.method = "POST".toList || request.method = "PUT".toList
    || request.method = "DELETE".toList

/-- The bytes a write is forwarded as: a PUT is marked as a replicated one. -/
def requestPayload (request : HttpRequest) : Str :=
  if request.method = "PUT".toList then
    match find crlf request.rawRequest with
    | some pos =>
      request.rawRequest.take (pos + 2) ++ "X-Internal-Replication: true\r\n".toList
        ++ request.rawRequest.drop (pos + 2)
    | none => request.rawRequest
  else request.rawRequest

/-- The state of the write path's loop. -/
structure WriteState (σ : Type*) where
  session : ProxySession σ
  atLeastOneSuccess : Bool := false
  primaryResponse : Str := []

section
variable [StdHash]

/-- `markBackendDown` on the session's router. -/
def ProxySession.markDown (s : ProxySession σ) (port : ℤ) : ProxySession σ :=
  { s with router := s.router.markBackendDown port }

/-- One round of the write path's loop. -/
def WriteState.writeTo (net : Network σ) (payload : Str) (w : WriteState σ) (backend : Backend) :
    WriteState σ :=
  match w.session.connectToBackend net backend with
  | (true, session) =>
    let exchanged := session.exchange net payload
    let respResult := exchanged.1
    if respResult.status = .complete then
      let currentStatus := respResult.response.statusCode
      { session := exchanged.2.closeBackend
        atLeastOneSuccess := true
        primaryResponse :=
          if w.primaryResponse.isEmpty ∨ currentStatus = 200 ∨ currentStatus = 201 then
            respResult.response.rawResponse
          else w.primaryResponse }
    else { w with session := exchanged.2.closeBackend }
  | (false, session) => { w with session := session.markDown backend.port }

/-- The write path. -/
def handleWrite (net : Network σ) (request : HttpRequest) (candidates : List Backend)
    (s : ProxySession σ) : Flow × ProxySession σ :=
  let w := candidates.foldl (WriteState.writeTo net (requestPayload request)) { session := s }
  (.next, w.session.send (if w.atLeastOneSuccess then w.primaryResponse else serviceUnavailable))

/-- The loop of the read path: whether a candidate has answered, and the session after it. -/
def readFrom (net : Network σ) (request : HttpRequest) :
    List Backend → ProxySession σ → Bool × ProxySession σ
  | [], s => (false, s)
  | backend :: candidates, s =>
    match s.connectToBackend net backend with
    | (true, s) =>
      let exchanged := s.exchange net request.rawRequest
      if exchanged.1.status = .complete then
        (true, (exchanged.2.send exchanged.1.response.rawResponse).closeBackend)
      else readFrom net request candidates (exchanged.2.closeBackend.markDown backend.port)
    | (false, s) => readFrom net request candidates (s.markDown backend.port)

/-- The read path. -/
def handleRead (net : Network σ) (request : HttpRequest) (candidates : List Backend)
    (s : ProxySession σ) : Flow × ProxySession σ :=
  let tried := readFrom net request candidates s
  if tried.1 then (.next, tried.2) else (.ret, tried.2.send serviceUnavailable)

/-- The candidates of a request. -/
def ProxySession.candidates (s : ProxySession σ) (request : HttpRequest) :
    Except Str (List Backend) :=
  if isWriteRequest request then s.router.getWriteBackendsForKey request.getKey 2
  else s.router.getReadBackendsForKey request.getKey 2

/-- What `forwardTraffic` does with a request. -/
def handleRequest (net : Network σ) (request : HttpRequest) (s : ProxySession σ) :
    Flow × ProxySession σ :=
  match s.candidates request with
  | .error what => (.throw what, s)
  | .ok [] => (.ret, s.send serviceUnavailable)
  | .ok (backend :: candidates) =>
    if isWriteRequest request then handleWrite net request (backend :: candidates) s
    else handleRead net request (backend :: candidates) s

end

/-- What a candidate has to say: it refuses the connection, closes it before a complete response, or
    answers. -/
inductive Reply where
  | refused
  | broken
  | answered (response : HttpResponse)

/-- The reply of a candidate to some bytes, and the world after it. -/
def reply (net : Network σ) (payload : Str) (backend : Backend) (world : σ) : Reply × σ :=
  match net.connect backend.addr world with
  | (false, world) => (.refused, world)
  | (true, world) =>
    let talked := net.talk backend.addr payload world
    let respResult := readBackendResponse [] talked.1
    (if respResult.status = .complete then .answered respResult.response else .broken, talked.2)

/-- The replies of all candidates, asked one after the other, and the world after them. -/
def attempts (net : Network σ) (payload : Str) : List Backend → σ → List (Backend × Reply) × σ
  | [], world => ([], world)
  | backend :: candidates, world =>
    let first := reply net payload backend world
    let others := attempts net payload candidates first.2
    ((backend, first.1) :: others.1, others.2)

/-- The reply is a complete response. -/
def Reply.isAnswer : Reply → Bool
  | .answered _ => true
  | _ => false

/-- The connection was refused. -/
def Reply.isRefusal : Reply → Bool
  | .refused => true
  | _ => false

/-- The response the write path keeps after a reply. -/
def Reply.keep (primaryResponse : Str) : Reply → Str
  | .answered response =>
    if primaryResponse.isEmpty ∨ response.statusCode = 200 ∨ response.statusCode = 201 then
      response.rawResponse
    else primaryResponse
  | _ => primaryResponse

/-- The first complete response of the candidates asked in order, those that failed before it, and
    the world after it. -/
def firstAnswer (net : Network σ) (payload : Str) :
    List Backend → σ → Option HttpResponse × List Backend × σ
  | [], world => (none, [], world)
  | backend :: candidates, world =>
    match reply net payload backend world with
    | (.answered response, world) => (some response, [], world)
    | (_, world) =>
      let others := firstAnswer net payload candidates world
      (others.1, backend :: others.2.1, others.2.2)

/-- Some candidate, asked in order, answers completely. -/
def Answers (net : Network σ) (payload : Str) (candidates : List Backend) (world : σ) : Prop :=
  ∃ e ∈ (attempts net payload candidates world).1, e.2.isAnswer

instance (net : Network σ) (payload : Str) (candidates : List Backend) (world : σ) :
    Decidable (Answers net payload candidates world) :=
  inferInstanceAs (Decidable (∃ e ∈ (attempts net payload candidates world).1, e.2.isAnswer))

/-- A complete response is what the parser makes of some part of the bytes received. -/
lemma exists_buffer_of_complete {responseBuffer : Str} {incoming : List Str}
    (h : (readBackendResponse responseBuffer incoming).status = .complete) :
    ∃ buffer, readBackendResponse responseBuffer incoming = parseHTTPResponse buffer := by
  induction incoming generalizing responseBuffer with
  | nil =>
    rw [readBackendResponse] at h ⊢
    split_ifs at h ⊢ with hs
    exact ⟨responseBuffer, rfl⟩
  | cons bytes incoming ih =>
    rw [readBackendResponse] at h ⊢
    split_ifs at h ⊢ with hs hb
    · exact ih h
    · exact ⟨responseBuffer, rfl⟩

/-- Bytes that arrive are appended to the buffer, unless this is a complete response already. -/
lemma readBackendResponse_cons {bytes : Str} (h : bytes ≠ []) (responseBuffer : Str)
    (incoming : List Str) : readBackendResponse responseBuffer (bytes :: incoming)
      = if (parseHTTPResponse responseBuffer).status = .incomplete then
          readBackendResponse (responseBuffer ++ bytes) incoming
        else parseHTTPResponse responseBuffer := by
  rw [readBackendResponse]
  simp only [List.isEmpty_iff, h, if_false]

/-- A framed message is read in full, however it is cut. -/
lemma readBackendResponse_framed {raw : Str} {headerEnd : ℕ} (h : FramedAt raw headerEnd)
    {responseBuffer : Str} {incoming : List Str} (hne : ∀ bytes ∈ incoming, bytes ≠ [])
    (hraw : responseBuffer ++ incoming.flatten = raw) :
    readBackendResponse responseBuffer incoming
      = { status := .complete
          response := framedResponse raw headerEnd
          consumed := raw.length } := by
  induction incoming generalizing responseBuffer with
  | nil =>
    rw [List.flatten_nil, List.append_nil] at hraw
    rw [readBackendResponse, hraw, h.parse_eq]
    exact if_neg nofun
  | cons bytes incoming ih =>
    have hbytes : bytes ≠ [] := hne bytes List.mem_cons_self
    have hincomplete : (parseHTTPResponse responseBuffer).status = .incomplete :=
      h.parse_incomplete (by simp [hbytes]) hraw
    rw [readBackendResponse_cons hbytes, if_pos hincomplete]
    refine ih (fun b hb => hne b (List.mem_cons_of_mem _ hb)) ?_
    rw [List.append_assoc, ← List.flatten_cons, hraw]

/-- An answer is a complete response. -/
lemma exists_buffer_of_answered {net : Network σ} {payload : Str} {b : Backend} {w : σ}
    {response : HttpResponse} (h : (reply net payload b w).1 = .answered response) :
    ∃ buffer, (parseHTTPResponse buffer).status = .complete
      ∧ (parseHTTPResponse buffer).response = response := by
  unfold reply at h
  split at h
  · cases h
  · simp only at h
    split_ifs at h with hc
    obtain ⟨buffer, hb⟩ := exists_buffer_of_complete hc
    rw [hb] at hc h
    exact ⟨buffer, hc, Reply.answered.inj h⟩

/-- Each candidate is asked once, in order. -/
lemma map_fst_attempts (net : Network σ) (payload : Str) (candidates : List Backend) (world : σ) :
    (attempts net payload candidates world).1.map Prod.fst = candidates := by
  induction candidates generalizing world with
  | nil => rfl
  | cons backend candidates ih => rw [attempts, List.map_cons, ih]

/-- What is heard from a candidate is its reply in some state of the world. -/
lemma exists_reply_of_mem_attempts {net : Network σ} {payload : Str} {candidates : List Backend}
    {world : σ} {e : Backend × Reply} (he : e ∈ (attempts net payload candidates world).1) :
    e.1 ∈ candidates ∧ ∃ w, (reply net payload e.1 w).1 = e.2 := by
  induction candidates generalizing world with
  | nil => cases he
  | cons backend candidates ih =>
    rcases List.mem_cons.1 he with rfl | he
    · exact ⟨List.mem_cons_self, world, rfl⟩
    · obtain ⟨hmem, hw⟩ := ih he
      exact ⟨List.mem_cons_of_mem _ hmem, hw⟩

/-- Stopping at the first answer finds one exactly if there is one. -/
lemma isSome_firstAnswer {net : Network σ} {payload : Str} {candidates : List Backend} {world : σ} :
    (firstAnswer net payload candidates world).1.isSome = true
      ↔ Answers net payload candidates world := by
  induction candidates generalizing world with
  | nil => simp [firstAnswer, Answers, attempts]
  | cons backend candidates ih =>
    rcases hr : reply net payload backend world with ⟨r, world'⟩
    cases r with
    | answered response => simp [firstAnswer, Answers, attempts, hr, Reply.isAnswer]
    | refused | broken =>
      have hcons : Answers net payload (backend :: candidates) world
          ↔ Answers net payload candidates world' := by
        simp [Answers, attempts, hr, Reply.isAnswer]
      rw [hcons, ← ih]
      simp only [firstAnswer, hr]

/-- The answer that is found comes from a candidate. -/
lemma exists_reply_of_firstAnswer {net : Network σ} {payload : Str} {candidates : List Backend}
    {world : σ} {response : HttpResponse}
    (h : (firstAnswer net payload candidates world).1 = some response) :
    ∃ b ∈ candidates, ∃ w, (reply net payload b w).1 = .answered response := by
  induction candidates generalizing world with
  | nil => cases h
  | cons backend candidates ih =>
    rcases hr : reply net payload backend world with ⟨r, world'⟩
    cases r with
    | answered response' =>
      simp only [firstAnswer, hr, Option.some.injEq] at h
      exact ⟨backend, List.mem_cons_self, world, by rw [hr, h]⟩
    | refused | broken =>
      simp only [firstAnswer, hr] at h
      obtain ⟨b, hb, hw⟩ := ih h
      exact ⟨b, List.mem_cons_of_mem _ hb, hw⟩

section
variable [StdHash]

/-- What the write path does to the router after a reply. -/
def markRefused (r : Router) (e : Backend × Reply) : Router :=
  if e.2.isRefusal then r.markBackendDown e.1.port else r

/-- One round of the write path in terms of the reply. -/
lemma writeTo_eq (net : Network σ) (payload : Str) {w : WriteState σ} (backend : Backend)
    (h : w.session.backendSocket = none) :
    w.writeTo net payload backend =
      { session :=
          { w.session with
            router := markRefused w.session.router
              (backend, (reply net payload backend w.session.world).1)
            world := (reply net payload backend w.session.world).2 }
        atLeastOneSuccess :=
          w.atLeastOneSuccess || (reply net payload backend w.session.world).1.isAnswer
        primaryResponse :=
          (reply net payload backend w.session.world).1.keep w.primaryResponse } := by
  obtain ⟨⟨router, world, socket, sent⟩, success, primary⟩ := w
  obtain rfl : socket = none := h
  simp only [WriteState.writeTo, ProxySession.connectToBackend, Option.isSome_none,
    Bool.false_eq_true, if_false, reply]
  rcases hconn : net.connect backend.addr world with ⟨ok, world'⟩
  cases ok with
  | false =>
    simp [ProxySession.markDown, markRefused, Reply.isRefusal, Reply.isAnswer, Reply.keep]
  | true =>
    by_cases hc :
        (readBackendResponse [] (net.talk backend.addr payload world').1).status = .complete <;>
      simp [ProxySession.exchange, hc, ProxySession.closeBackend, markRefused, Reply.isRefusal,
        Reply.isAnswer, Reply.keep]

/-- The write path's loop in terms of the replies. -/
lemma foldl_writeTo (net : Network σ) (payload : Str) (candidates : List Backend) {w : WriteState σ}
    (h : w.session.backendSocket = none) :
    candidates.foldl (WriteState.writeTo net payload) w =
      { session :=
          { w.session with
            router := (attempts net payload candidates w.session.world).1.foldl markRefused
              w.session.router
            world := (attempts net payload candidates w.session.world).2 }
        atLeastOneSuccess := w.atLeastOneSuccess
          || (attempts net payload candidates w.session.world).1.any (·.2.isAnswer)
        primaryResponse := (attempts net payload candidates w.session.world).1.foldl
          (fun primaryResponse e => e.2.keep primaryResponse) w.primaryResponse } := by
  induction candidates generalizing w with
  | nil => simp [attempts]
  | cons backend candidates ih =>
    rw [List.foldl_cons, writeTo_eq net payload backend h, ih (by exact h)]
    simp [attempts, Bool.or_assoc]

/-- The write path: every candidate is asked, the refusing ones are marked DOWN, and the client gets
    the response that was kept, or a 503 if there was none. -/
lemma handleWrite_eq (net : Network σ) (request : HttpRequest) (candidates : List Backend)
    {s : ProxySession σ} (h : s.backendSocket = none) :
    handleWrite net request candidates s =
      (.next,
        { s with
          router := (attempts net (requestPayload request) candidates s.world).1.foldl markRefused
            s.router
          world := (attempts net (requestPayload request) candidates s.world).2
          sent := s.sent ++
            [if (attempts net (requestPayload request) candidates s.world).1.any (·.2.isAnswer) then
              (attempts net (requestPayload request) candidates s.world).1.foldl
                (fun primaryResponse e => e.2.keep primaryResponse) []
            else serviceUnavailable] }) := by
  simp only [handleWrite, foldl_writeTo net _ candidates (w := ⟨s, false, []⟩) h, ProxySession.send,
    Bool.false_or]

/-- The write path when some candidate answers. -/
lemma handleWrite_of_answer {net : Network σ} {request : HttpRequest} {candidates : List Backend}
    {s : ProxySession σ} (h : s.backendSocket = none) {tried : List (Backend × Reply) × σ}
    (htried : attempts net (requestPayload request) candidates s.world = tried)
    (hany : tried.1.any (·.2.isAnswer) = true) :
    handleWrite net request candidates s =
      (.next,
        { s with
          router := tried.1.foldl markRefused s.router
          world := tried.2
          sent := s.sent ++
            [tried.1.foldl (fun primaryResponse e => e.2.keep primaryResponse) []] }) := by
  subst htried
  rw [handleWrite_eq net request candidates h, if_pos hany]

/-- One round of the read path's loop in terms of the reply. -/
lemma readFrom_cons (net : Network σ) (request : HttpRequest) (backend : Backend)
    (candidates : List Backend) {s : ProxySession σ} (h : s.backendSocket = none) :
    readFrom net request (backend :: candidates) s =
      match reply net request.rawRequest backend s.world with
      | (.answered response, world) =>
        (true, { s with world := world, sent := s.sent ++ [response.rawResponse] })
      | (_, world) =>
        readFrom net request candidates ({ s with world := world }.markDown backend.port) := by
  obtain ⟨router, world, socket, sent⟩ := s
  obtain rfl : socket = none := h
  simp only [readFrom, ProxySession.connectToBackend, Option.isSome_none, Bool.false_eq_true,
    if_false, reply]
  rcases hconn : net.connect backend.addr world with ⟨ok, world'⟩
  cases ok with
  | false => rfl
  | true =>
    by_cases hc :
        (readBackendResponse [] (net.talk backend.addr request.rawRequest world').1).status
          = .complete <;>
      simp [ProxySession.exchange, hc, ProxySession.closeBackend, ProxySession.send,
        ProxySession.markDown]

/-- The read path's loop: the candidates before the first answer are marked DOWN, and the answer is
    sent to the client. -/
lemma readFrom_eq (net : Network σ) (request : HttpRequest) (candidates : List Backend)
    {s : ProxySession σ} (h : s.backendSocket = none) :
    readFrom net request candidates s =
      let found := firstAnswer net request.rawRequest candidates s.world
      (found.1.isSome,
        { s with
          router := found.2.1.foldl (fun r b => r.markBackendDown b.port) s.router
          world := found.2.2
          sent := s.sent ++ found.1.toList.map HttpResponse.rawResponse }) := by
  induction candidates generalizing s with
  | nil => simp [readFrom, firstAnswer]
  | cons backend candidates ih =>
    rw [readFrom_cons net request backend candidates h, firstAnswer]
    rcases reply net request.rawRequest backend s.world with ⟨r, world⟩
    cases r with
    | answered response => rfl
    | refused | broken =>
      simp only
      rw [ih (by exact h)]
      rfl

/-- The read path. -/
lemma handleRead_eq (net : Network σ) (request : HttpRequest) (candidates : List Backend)
    {s : ProxySession σ} (h : s.backendSocket = none) :
    handleRead net request candidates s =
      let found := firstAnswer net request.rawRequest candidates s.world
      (if found.1.isSome then .next else .ret,
        { s with
          router := found.2.1.foldl (fun r b => r.markBackendDown b.port) s.router
          world := found.2.2
          sent := s.sent ++ [(found.1.map HttpResponse.rawResponse).getD serviceUnavailable] }) := by
  simp only [handleRead, readFrom_eq net request candidates h]
  cases hf : (firstAnswer net request.rawRequest candidates s.world).1 with
  | none => simp [ProxySession.send]
  | some response => simp

end

/-- What the write path has kept after some replies: what it had, if that is not empty or nobody
    answered, or one of the answers. -/
lemma foldl_keep_cases (l : List (Backend × Reply)) (p : Str) :
    l.foldl (fun p e => e.2.keep p) p = p ∧ (p ≠ [] ∨ ∀ e ∈ l, e.2.isAnswer = false)
      ∨ ∃ e ∈ l, ∃ response, e.2 = .answered response
          ∧ l.foldl (fun p e => e.2.keep p) p = response.rawResponse := by
  induction l generalizing p with
  | nil => exact .inl ⟨rfl, .inr nofun⟩
  | cons e l ih =>
    obtain ⟨b, r⟩ := e
    rw [List.foldl_cons]
    rcases ih (r.keep p) with ⟨heq, hor⟩ | ⟨e, he, response, her, heq⟩
    · rw [heq]
      cases r with
      | refused | broken =>
        refine .inl ⟨rfl, hor.imp_right fun h e he => ?_⟩
        rcases List.mem_cons.1 he with rfl | he
        · rfl
        · exact h e he
      | answered response =>
        by_cases hk : p.isEmpty ∨ response.statusCode = 200 ∨ response.statusCode = 201
        · exact .inr ⟨_, List.mem_cons_self, response, rfl, if_pos hk⟩
        · refine .inl ⟨if_neg hk, .inl ?_⟩
          rintro rfl
          exact hk (.inl rfl)
    · exact .inr ⟨e, List.mem_cons_of_mem _ he, response, her, heq⟩

/-- The bytes a request is forwarded as. -/
def forwardedAs (request : HttpRequest) : Str :=
  if isWriteRequest request then requestPayload request else request.rawRequest

/-- The bytes are a complete response that one of the candidates gave to the request. -/
def FromBackend (net : Network σ) (request : HttpRequest) (candidates : List Backend)
    (bytes : Str) : Prop :=
  ∃ b ∈ candidates, ∃ w response,
    (reply net (forwardedAs request) b w).1 = .answered response ∧ bytes = response.rawResponse

section
variable [StdHash]

/-- What handling a request can do: routing throws, no candidate answers and the client gets a 503,
    or it gets an answer. -/
inductive Handled (net : Network σ) (request : HttpRequest) (s : ProxySession σ) :
    Flow × ProxySession σ → Prop where
  | throws {what} :
    s.candidates request = .error what →
    Handled net request s (.throw what, s)
  | unavailable {candidates flow s'} :
    s.candidates request = .ok candidates →
    ¬ Answers net (forwardedAs request) candidates s.world →
    (∀ what, flow ≠ .throw what) →
    s'.backendSocket = none →
    s'.sent = s.sent ++ [serviceUnavailable] →
    Handled net request s (flow, s')
  | answered {candidates bytes s'} :
    s.candidates request = .ok candidates →
    Answers net (forwardedAs request) candidates s.world →
    FromBackend net request candidates bytes →
    s'.backendSocket = none →
    s'.sent = s.sent ++ [bytes] →
    Handled net request s (.next, s')

/-- Handling a request on an idle session does one of these things. -/
lemma handleRequest_spec (net : Network σ) (request : HttpRequest) {s : ProxySession σ}
    (h : s.backendSocket = none) : Handled net request s (handleRequest net request s) := by
  unfold handleRequest
  split
  · rename_i what hc
    exact .throws hc
  · rename_i hc
    exact .unavailable hc (by simp [Answers, attempts]) nofun h rfl
  · rename_i backend candidates hc
    split_ifs with hw
    · have hpay : forwardedAs request = requestPayload request := if_pos hw
      rw [handleWrite_eq net request _ h]
      by_cases hany : (attempts net (requestPayload request) (backend :: candidates) s.world).1.any
          (·.2.isAnswer) = true
      · have hans : Answers net (forwardedAs request) (backend :: candidates) s.world := by
          rw [hpay]
          exact List.any_eq_true.1 hany
        refine .answered hc hans ?_ h (by rw [if_pos hany])
        rcases foldl_keep_cases
            (attempts net (requestPayload request) (backend :: candidates) s.world).1 []
          with ⟨-, hne | hno⟩ | ⟨e, he, response, her, heq⟩
        · exact absurd rfl hne
        · obtain ⟨e, he, hea⟩ := List.any_eq_true.1 hany
          simp [hno e he] at hea
        · obtain ⟨hmem, w, hw⟩ := exists_reply_of_mem_attempts he
          exact ⟨e.1, hmem, w, response, by rw [hpay, hw, her], heq⟩
      · refine .unavailable hc ?_ nofun h (by rw [if_neg hany])
        rw [hpay]
        exact fun hans => hany (List.any_eq_true.2 hans)
    · have hpay : forwardedAs request = request.rawRequest := if_neg hw
      rw [handleRead_eq net request _ h]
      cases hf : (firstAnswer net request.rawRequest (backend :: candidates) s.world).1 with
      | none =>
        simp only [hf, Option.isSome_none, Bool.false_eq_true, if_false, Option.map_none,
          Option.getD_none]
        refine .unavailable hc ?_ nofun h rfl
        rw [hpay, ← isSome_firstAnswer, hf]
        nofun
      | some response =>
        simp only [hf, Option.isSome_some, if_true, Option.map_some, Option.getD_some]
        obtain ⟨b, hb, w, hw⟩ := exists_reply_of_firstAnswer hf
        refine .answered hc ?_ ?_ h rfl
        · rw [hpay, ← isSome_firstAnswer, hf]
          rfl
        · exact ⟨b, hb, w, response, by rw [hpay, hw], rfl⟩

end

/-- What connecting and talking to a backend keeps, its reply keeps. -/
lemma reply_keeps {net : Network σ} {P : σ → Prop}
    (hconnect : ∀ addr world, P world → P (net.connect addr world).2)
    (htalk : ∀ addr payload world, P world → P (net.talk addr payload world).2) (payload : Str)
    (backend : Backend) {world : σ} (h : P world) : P (reply net payload backend world).2 := by
  have hworld := hconnect backend.addr world h
  unfold reply
  rcases hc : net.connect backend.addr world with ⟨ok, world'⟩
  rw [hc] at hworld
  cases ok with
  | false => exact hworld
  | true => exact htalk backend.addr payload world' hworld

section
variable [StdHash]

/-- Handling a request marks backends DOWN, and nothing else happens to the router. -/
lemma handleRequest_reachable {backends : List Backend} {vnodes : ℕ} (net : Network σ)
    (request : HttpRequest) {s : ProxySession σ} (h : s.backendSocket = none)
    (hr : Router.Reachable backends vnodes s.router) :
    (handleRequest net request s).2.backendSocket = none
      ∧ Router.Reachable backends vnodes (handleRequest net request s).2.router := by
  have hdown (l : List Backend) {r : Router} (hr : Router.Reachable backends vnodes r) :
      Router.Reachable backends vnodes (l.foldl (fun r b => r.markBackendDown b.port) r) :=
    List.foldlRecOn l _ hr fun r hr b _ => .mark .down b.port hr
  have hrefused (l : List (Backend × Reply)) {r : Router} (hr : Router.Reachable backends vnodes r) :
      Router.Reachable backends vnodes (l.foldl markRefused r) := by
    refine List.foldlRecOn l _ hr fun r hr e _ => ?_
    unfold markRefused
    split_ifs
    · exact .mark .down e.1.port hr
    · exact hr
  unfold handleRequest
  split
  · exact ⟨h, hr⟩
  · exact ⟨h, hr⟩
  · split_ifs
    · rw [handleWrite_eq net request _ h]
      exact ⟨h, hrefused _ hr⟩
    · rw [handleRead_eq net request _ h]
      exact ⟨h, hdown _ hr⟩

/-- What connecting and talking to a backend keeps, handling a request keeps. -/
lemma handleRequest_keeps {net : Network σ} {P : σ → Prop}
    (hconnect : ∀ addr world, P world → P (net.connect addr world).2)
    (htalk : ∀ addr payload world, P world → P (net.talk addr payload world).2)
    (request : HttpRequest) {s : ProxySession σ} (h : s.backendSocket = none) (hw : P s.world) :
    P (handleRequest net request s).2.world := by
  have hattempts (payload : Str) (candidates : List Backend) {world : σ} (hw : P world) :
      P (attempts net payload candidates world).2 := by
    induction candidates generalizing world with
    | nil => exact hw
    | cons backend candidates ih => exact ih (reply_keeps hconnect htalk payload backend hw)
  have hfirst (payload : Str) (candidates : List Backend) {world : σ} (hw : P world) :
      P (firstAnswer net payload candidates world).2.2 := by
    induction candidates generalizing world with
    | nil => exact hw
    | cons backend candidates ih =>
      have hworld := reply_keeps hconnect htalk payload backend hw
      rcases hr : reply net payload backend world with ⟨r, world'⟩
      rw [hr] at hworld
      cases r with
      | answered response =>
        simp only [firstAnswer, hr]
        exact hworld
      | refused | broken =>
        simp only [firstAnswer, hr]
        exact ih hworld
  unfold handleRequest
  split
  · exact hw
  · exact hw
  · split_ifs
    · rw [handleWrite_eq net request _ h]
      exact hattempts _ _ hw
    · rw [handleRead_eq net request _ h]
      exact hfirst _ _ hw

end

end KvStore.Session
