import KvStore.Session.Forward
import Mathlib.Data.List.Forall2

/-!
# The backend connection of a session

`connectToBackend` takes any connection that is open for the one it is asked for. Here the functions
of a session are run with their `Event`s noted, to see what they do with `backendSocket_`. The
functions are those of the session with a note at each step, which `forwardTraffic_erase` shows;
where the candidates come from is a parameter, `route`.

* `writeTo_turn`, `readFrom_turns`: what the loops do with a candidate, its `Turn`.
* `connections_exclusive`: in every run each connection belongs to one candidate of one request, is
  opened to it and closed before the next one is tried, and what is said of a candidate was heard on
  its own connection.
-/

namespace KvStore.Session
open KvStore.Lib KvStore.Ring KvStore.Http

variable {σ : Type*}

/-- A connection to a backend: its number among those of the session, and the address it was opened
    to. -/
structure Connection where
  number : ℕ
  addr : Addr

/-- What a session does: `connectToBackend` is entered with some `backendSocket_` and takes the
    connection that is open, is refused or opens one; bytes go out and a response comes back on a
    connection; it is closed; bytes are sent to the client; a backend is marked DOWN. -/
inductive Event where
  | entered (backend : Backend) (backendSocket : Option Connection)
  | reused (connection : Connection)
  | refused (addr : Addr)
  | opened (connection : Connection)
  | sent (connection : Connection) (payload : Str)
  | received (connection : Connection) (respResult : HttpResponseParseResult)
  | closed (connection : Connection)
  | relayed (bytes : Str)
  | markedDown (port : ℤ)

/-- The connection that an event opens. -/
def Event.opens : Event → Option Connection
  | .opened connection => some connection
  | _ => none

/-- What a session has done for a request: the candidates that the router has named, none if it has
    thrown, and the events. -/
structure Round where
  request : HttpRequest
  candidates : List Backend
  events : List Event

/-- The connections opened for a request. -/
def Round.connections (round : Round) : List Connection := round.events.filterMap Event.opens

/-- A session with its events: those of the requests handled, and those of the request that is being
    handled. -/
structure Traced (σ : Type*) where
  router : Router
  world : σ
  backendSocket : Option Connection := none
  sent : List Str := []
  opened : ℕ := 0
  rounds : List Round := []
  events : List Event := []

/-- The session without its events. -/
def Traced.erase (t : Traced σ) : ProxySession σ :=
  ⟨t.router, t.world, t.backendSocket.map Connection.addr, t.sent⟩

/-- An event is noted. -/
def Traced.note (t : Traced σ) (e : Event) : Traced σ := { t with events := t.events ++ [e] }

/-- `connectToBackend`. -/
def Traced.connectToBackend (net : Network σ) (backend : Backend) (t : Traced σ) :
    Bool × Traced σ :=
  let entered := t.note (.entered backend t.backendSocket)
  match t.backendSocket with
  | some connection => (true, entered.note (.reused connection))
  | none =>
    match net.connect backend.addr t.world with
    | (true, world) =>
      let connection : Connection := ⟨t.opened, backend.addr⟩
      (true,
        { entered.note (.opened connection) with
          world := world, backendSocket := some connection, opened := t.opened + 1 })
    | (false, world) =>
      (false, { entered.note (.refused backend.addr) with world := world, backendSocket := none })

/-- `closeBackend`. -/
def Traced.closeBackend (t : Traced σ) : Traced σ :=
  match t.backendSocket with
  | some connection => { t.note (.closed connection) with backendSocket := none }
  | none => t

/-- `sendAll` to the client. -/
def Traced.send (t : Traced σ) (bytes : Str) : Traced σ :=
  { t.note (.relayed bytes) with sent := t.sent ++ [bytes] }

/-- `sendAll` to the backend, followed by `readBackendResponse`. -/
def Traced.exchange (net : Network σ) (payload : Str) (t : Traced σ) :
    HttpResponseParseResult × Traced σ :=
  match t.backendSocket with
  | none => (readBackendResponse [] [], t)
  | some connection =>
    let talked := net.talk connection.addr payload t.world
    let respResult := readBackendResponse [] talked.1
    (respResult,
      { (t.note (.sent connection payload)).note (.received connection respResult) with
        world := talked.2 })

/-- The state of the write path's loop. -/
structure TracedWrite (σ : Type*) where
  session : Traced σ
  atLeastOneSuccess : Bool := false
  primaryResponse : Str := []

/-- The state without the events. -/
def TracedWrite.erase (w : TracedWrite σ) : WriteState σ :=
  ⟨w.session.erase, w.atLeastOneSuccess, w.primaryResponse⟩

/-- The request has been handled. -/
def Traced.conclude (request : HttpRequest) (candidates : List Backend) (t : Traced σ) :
    Traced σ :=
  { t with rounds := t.rounds ++ [⟨request, candidates, t.events⟩], events := [] }

section
variable [StdHash]

/-- `markBackendDown`. -/
def Traced.markDown (t : Traced σ) (port : ℤ) : Traced σ :=
  { t.note (.markedDown port) with router := t.router.markBackendDown port }

/-- One round of the write path's loop. -/
def TracedWrite.writeTo (net : Network σ) (payload : Str) (w : TracedWrite σ)
    (backend : Backend) : TracedWrite σ :=
  match w.session.connectToBackend net backend with
  | (true, session) =>
    let exchanged := session.exchange net payload
    let respResult := exchanged.1
    if respResult.status = .complete then
      let currentStatus := respResult.response.statusCode
      { session := exchanged.2.closeBackend
        atLeastOneSuccess := true
        primaryResponse :=
          if w.primaryResponse.isEmpty ∨ currentStatus = 200 ∨ currentStatus = 201 then
            respResult.response.rawResponse
          else w.primaryResponse }
    else { w with session := exchanged.2.closeBackend }
  | (false, session) => { w with session := session.markDown backend.port }

/-- The write path. -/
def Traced.handleWrite (net : Network σ) (request : HttpRequest) (candidates : List Backend)
    (t : Traced σ) : Flow × Traced σ :=
  let w := candidates.foldl (TracedWrite.writeTo net (requestPayload request)) { session := t }
  (.next, w.session.send (if w.atLeastOneSuccess then w.primaryResponse else serviceUnavailable))

/-- The loop of the read path. -/
def Traced.readFrom (net : Network σ) (request : HttpRequest) :
    List Backend → Traced σ → Bool × Traced σ
  | [], t => (false, t)
  | backend :: candidates, t =>
    match t.connectToBackend net backend with
    | (true, t) =>
      let exchanged := t.exchange net request.rawRequest
      if exchanged.1.status = .complete then
        (true, (exchanged.2.send exchanged.1.response.rawResponse).closeBackend)
      else readFrom net request candidates (exchanged.2.closeBackend.markDown backend.port)
    | (false, t) => readFrom net request candidates (t.markDown backend.port)

/-- The read path. -/
def Traced.handleRead (net : Network σ) (request : HttpRequest) (candidates : List Backend)
    (t : Traced σ) : Flow × Traced σ :=
  let tried := t.readFrom net request candidates
  if tried.1 then (.next, tried.2) else (.ret, tried.2.send serviceUnavailable)

/-- What `forwardTraffic` does with a request, wherever its candidates come from. -/
def Traced.handleRequest (net : Network σ)
    (route : HttpRequest → ProxySession σ → Except Str (List Backend)) (request : HttpRequest)
    (t : Traced σ) : Flow × Traced σ :=
  match route request t.erase with
  | .error what => (.throw what, t.conclude request [])
  | .ok [] => (.ret, (t.send serviceUnavailable).conclude request [])
  | .ok (backend :: candidates) =>
    let handled :=
      if isWriteRequest request then t.handleWrite net request (backend :: candidates)
      else t.handleRead net request (backend :: candidates)
    (handled.1, handled.2.conclude request (backend :: candidates))

/-- `forwardTraffic` on a fresh connection, with the events noted. -/
def trace (net : Network σ) (route : HttpRequest → ProxySession σ → Except Str (List Backend))
    (incoming : List Str) (r : Router) (world : σ) : Traced σ :=
  (forwardTraffic (Traced.handleRequest net route) incoming { router := r, world := world }).session

end

/-- Noting the events changes nothing about `connectToBackend`. -/
lemma Traced.erase_connectToBackend (net : Network σ) (backend : Backend) (t : Traced σ) :
    t.erase.connectToBackend net backend
      = ((t.connectToBackend net backend).1, (t.connectToBackend net backend).2.erase) := by
  obtain ⟨router, world, socket, sent, opened, rounds, events⟩ := t
  cases socket with
  | some connection => rfl
  | none =>
    simp only [ProxySession.connectToBackend, Traced.connectToBackend, erase, Option.map_none,
      Option.isSome_none, Bool.false_eq_true, if_false]
    rcases net.connect backend.addr world with ⟨_ | _, world'⟩ <;> rfl

/-- Nor about `closeBackend`. -/
lemma Traced.erase_closeBackend (t : Traced σ) : t.closeBackend.erase = t.erase.closeBackend := by
  obtain ⟨router, world, socket, sent, opened, rounds, events⟩ := t
  cases socket <;> rfl

/-- Nor about what is said to a backend. -/
lemma Traced.erase_exchange (net : Network σ) (payload : Str) (t : Traced σ) :
    t.erase.exchange net payload = ((t.exchange net payload).1, (t.exchange net payload).2.erase) := by
  obtain ⟨router, world, socket, sent, opened, rounds, events⟩ := t
  cases socket <;> rfl

section
variable [StdHash]

/-- Nor about a round of the write path's loop. -/
lemma TracedWrite.erase_writeTo (net : Network σ) (payload : Str) (w : TracedWrite σ)
    (backend : Backend) :
    (w.writeTo net payload backend).erase = w.erase.writeTo net payload backend := by
  obtain ⟨session, atLeastOneSuccess, primaryResponse⟩ := w
  have hconnect := session.erase_connectToBackend net backend
  simp only [WriteState.writeTo, writeTo, erase, hconnect]
  rcases session.connectToBackend net backend with ⟨_ | _, session'⟩
  · rfl
  · simp only [session'.erase_exchange]
    by_cases hc : (session'.exchange net payload).1.status = .complete
    · simp only [if_pos hc, Traced.erase_closeBackend]
    · simp only [if_neg hc, Traced.erase_closeBackend]

/-- Nor about the write path. -/
lemma Traced.erase_handleWrite (net : Network σ) (request : HttpRequest)
    (candidates : List Backend) (t : Traced σ) :
    Session.handleWrite net request candidates t.erase
      = ((t.handleWrite net request candidates).1,
        (t.handleWrite net request candidates).2.erase) := by
  have hloop (w : TracedWrite σ) :
      candidates.foldl (WriteState.writeTo net (requestPayload request)) w.erase
        = (candidates.foldl (TracedWrite.writeTo net (requestPayload request)) w).erase := by
    induction candidates generalizing w with
    | nil => rfl
    | cons backend candidates ih => rw [List.foldl_cons, ← w.erase_writeTo, ih, List.foldl_cons]
  have hstart := hloop { session := t }
  simp only [Session.handleWrite, handleWrite]
  rw [show ({ session := t.erase } : WriteState σ)
    = TracedWrite.erase { session := t } from rfl, hstart]
  rfl

/-- Nor about the read path. -/
lemma Traced.erase_handleRead (net : Network σ) (request : HttpRequest)
    (candidates : List Backend) (t : Traced σ) :
    Session.handleRead net request candidates t.erase
      = ((t.handleRead net request candidates).1,
        (t.handleRead net request candidates).2.erase) := by
  have hloop : Session.readFrom net request candidates t.erase
      = ((t.readFrom net request candidates).1,
        (t.readFrom net request candidates).2.erase) := by
    induction candidates generalizing t with
    | nil => rfl
    | cons backend candidates ih =>
      have hconnect := t.erase_connectToBackend net backend
      rw [Session.readFrom, readFrom, hconnect]
      rcases t.connectToBackend net backend with ⟨_ | _, t'⟩
      · exact ih (t'.markDown backend.port)
      · simp only [t'.erase_exchange]
        split_ifs
        · simp only [Traced.erase_closeBackend]
          rfl
        · rw [← Traced.erase_closeBackend]
          exact ih ((t'.exchange net request.rawRequest).2.closeBackend.markDown backend.port)
  simp only [Session.handleRead, handleRead, hloop]
  split_ifs <;> rfl

/-- Nor about what `forwardTraffic` does with a request. -/
lemma Traced.erase_handleRequest (net : Network σ) (request : HttpRequest) (t : Traced σ) :
    Session.handleRequest net request t.erase
      = ((t.handleRequest net (fun request s => s.candidates request) request).1,
        (t.handleRequest net (fun request s => s.candidates request) request).2.erase) := by
  simp only [Session.handleRequest, handleRequest]
  rcases t.erase.candidates request with what | (_ | ⟨backend, candidates⟩)
  · rfl
  · rfl
  · simp only
    split_ifs
    · exact t.erase_handleWrite net request _
    · exact t.erase_handleRead net request _

/-- With its own router, the session with its events is the session. -/
theorem forwardTraffic_erase (net : Network σ) (incoming : List Str) (r : Router) (world : σ) :
    (trace net (fun request s => s.candidates request) incoming r world).erase
      = (forwardTraffic (handleRequest net) incoming (.idle r world [])).session := by
  have h := forwardTraffic_map Traced.erase
    (fun request t => Traced.erase_handleRequest net request t) incoming
    ({ router := r, world := world } : Traced σ)
  exact congrArg Loop.session h

end

/-- What a session does with a candidate: the candidate refuses the connection, or one is opened to
    it, the request goes out and a response comes back on this connection, and it is closed. A write
    leaves it at that; a read sends a complete response to the client, and else marks the candidate
    DOWN. -/
inductive Turn (request : HttpRequest) (backend : Backend) : List Event → Prop where
  | refused :
    Turn request backend
      [.entered backend none, .refused backend.addr, .markedDown backend.port]
  | written {number respResult} :
    isWriteRequest request = true →
    Turn request backend
      [.entered backend none, .opened ⟨number, backend.addr⟩,
        .sent ⟨number, backend.addr⟩ (forwardedAs request),
        .received ⟨number, backend.addr⟩ respResult, .closed ⟨number, backend.addr⟩]
  | read {number respResult} :
    isWriteRequest request = false →
    respResult.status = .complete →
    Turn request backend
      [.entered backend none, .opened ⟨number, backend.addr⟩,
        .sent ⟨number, backend.addr⟩ (forwardedAs request),
        .received ⟨number, backend.addr⟩ respResult, .relayed respResult.response.rawResponse,
        .closed ⟨number, backend.addr⟩]
  | broken {number respResult} :
    isWriteRequest request = false →
    respResult.status ≠ .complete →
    Turn request backend
      [.entered backend none, .opened ⟨number, backend.addr⟩,
        .sent ⟨number, backend.addr⟩ (forwardedAs request),
        .received ⟨number, backend.addr⟩ respResult, .closed ⟨number, backend.addr⟩,
        .markedDown backend.port]

/-- A turn enters `connectToBackend` without a connection. -/
lemma Turn.entered {request : HttpRequest} {backend b : Backend} {turn : List Event}
    {backendSocket : Option Connection} (h : Turn request backend turn)
    (hmem : .entered b backendSocket ∈ turn) : backendSocket = none := by
  cases h with
  | refused | written _ | read _ _ | broken _ _ => simpa using And.right (by simpa using hmem)

/-- And takes none that is open already. -/
lemma Turn.reused {request : HttpRequest} {backend : Backend} {turn : List Event}
    {connection : Connection} (h : Turn request backend turn) :
    .reused connection ∉ turn := by
  cases h with
  | refused | written _ | read _ _ | broken _ _ => simp

/-- The bytes are a complete response that was received. -/
def Received (events : List Event) (bytes : Str) : Prop :=
  ∃ connection respResult, .received connection respResult ∈ events
    ∧ respResult.status = .complete ∧ bytes = respResult.response.rawResponse

/-- What has been received stays received. -/
lemma Received.append {events : List Event} {bytes : Str} (h : Received events bytes)
    (es : List Event) : Received (events ++ es) bytes := by
  obtain ⟨connection, respResult, hmem, hrest⟩ := h
  exact ⟨connection, respResult, List.mem_append_left _ hmem, hrest⟩

/-- The candidates have one turn each, as far as they are tried, and then the client may be sent the
    503 or a response that was received. -/
def Turns (request : HttpRequest) (candidates : List Backend) (events : List Event) : Prop :=
  ∃ turns last, events = turns.flatten ++ last
    ∧ List.Forall₂ (Turn request) (candidates.take turns.length) turns
    ∧ (last = [] ∨ ∃ bytes, last = [.relayed bytes]
        ∧ (bytes = serviceUnavailable ∨ Received events bytes))

/-- Each connection of a request belongs to one candidate. -/
structure Round.Exclusive (round : Round) : Prop where
  /-- `backendSocket_` is `-1` at every entry to `connectToBackend`. -/
  entered : ∀ backend backendSocket, .entered backend backendSocket ∈ round.events →
    backendSocket = none
  /-- No connection is taken that is open already. -/
  reused : ∀ connection, .reused connection ∉ round.events
  /-- The candidates have one turn each. -/
  turns : Turns round.request round.candidates round.events

/-- What has been done from one state of a session to another, each without a connection. -/
structure Traced.Follows (t : Traced σ) (es : List Event) (t' : Traced σ) : Prop where
  events : t'.events = t.events ++ es
  rounds : t'.rounds = t.rounds
  backendSocket : t'.backendSocket = none
  opened : ∃ n, t'.opened = t.opened + n
    ∧ (es.filterMap Event.opens).map Connection.number = List.range' t.opened n

/-- One thing after the other. -/
lemma Traced.Follows.trans {t t' t'' : Traced σ} {es es' : List Event} (h : t.Follows es t')
    (h' : t'.Follows es' t'') : t.Follows (es ++ es') t'' := by
  obtain ⟨n, hn, hes⟩ := h.opened
  obtain ⟨n', hn', hes'⟩ := h'.opened
  refine ⟨?_, h'.rounds.trans h.rounds, h'.backendSocket, n + n', ?_, ?_⟩
  · rw [h'.events, h.events, List.append_assoc]
  · rw [hn', hn, Nat.add_assoc]
  · rw [List.filterMap_append, List.map_append, hes, hes', hn, List.range'_append_1]

/-- Nothing has been done. -/
lemma Traced.Follows.refl {t : Traced σ} (h : t.backendSocket = none) : t.Follows [] t :=
  ⟨(List.append_nil _).symm, rfl, h, 0, rfl, rfl⟩

/-- Sending something to the client opens nothing. -/
lemma Traced.follows_send {t : Traced σ} (h : t.backendSocket = none) (bytes : Str) :
    t.Follows [.relayed bytes] (t.send bytes) :=
  ⟨rfl, rfl, h, 0, rfl, rfl⟩

/-- What the write path keeps was received. -/
def TracedWrite.Kept (w : TracedWrite σ) : Prop :=
  w.primaryResponse = [] ∧ w.atLeastOneSuccess = false
    ∨ Received w.session.events w.primaryResponse

/-- Asking a candidate without a connection: it is refused, or one is opened and carries the bytes
    and the response. -/
lemma Traced.ask_cases (net : Network σ) (payload : Str) (backend : Backend) {t : Traced σ}
    (h : t.backendSocket = none) :
    (∃ world, t.connectToBackend net backend
      = (false,
        { t with
          world := world
          events := t.events ++ [.entered backend none, .refused backend.addr] }))
    ∨ ∃ t' respResult world, t.connectToBackend net backend = (true, t')
      ∧ t'.exchange net payload
        = (respResult,
          { t with
            world := world
            backendSocket := some ⟨t.opened, backend.addr⟩
            opened := t.opened + 1
            events := t.events ++ [.entered backend none, .opened ⟨t.opened, backend.addr⟩,
              .sent ⟨t.opened, backend.addr⟩ payload,
              .received ⟨t.opened, backend.addr⟩ respResult] }) := by
  obtain ⟨router, world, socket, sent, opened, rounds, events⟩ := t
  obtain rfl : socket = none := h
  simp only [connectToBackend, note]
  rcases net.connect backend.addr world with ⟨_ | _, world'⟩
  · exact .inl ⟨world', by simp⟩
  · refine .inr ⟨_, readBackendResponse [] (net.talk backend.addr payload world').1,
      (net.talk backend.addr payload world').2, rfl, ?_⟩
    simp [exchange, note]

section
variable [StdHash]

/-- A round of the write path's loop is a turn of the candidate, and what it keeps was received. -/
lemma TracedWrite.writeTo_turn (net : Network σ) {request : HttpRequest} {w : TracedWrite σ}
    (backend : Backend) (hwrite : isWriteRequest request = true)
    (h : w.session.backendSocket = none)
    (hkept : w.Kept) :
    ∃ turn, Turn request backend turn
      ∧ w.session.Follows turn (w.writeTo net (requestPayload request) backend).session
      ∧ (w.writeTo net (requestPayload request) backend).Kept := by
  have hpayload : forwardedAs request = requestPayload request := if_pos hwrite
  obtain ⟨t, atLeastOneSuccess, primaryResponse⟩ := w
  rcases t.ask_cases net (requestPayload request) backend h with
    ⟨world, hconn⟩ | ⟨t', respResult, world, hconn, hasked⟩
  · simp only [writeTo, hconn]
    refine ⟨_, .refused, ⟨?_, rfl, h, 0, rfl, rfl⟩, ?_⟩
    · simp [Traced.markDown, Traced.note]
    · refine hkept.imp_right fun hk => ?_
      simpa [Traced.markDown, Traced.note] using hk.append _
  · simp only [writeTo, hconn, hasked]
    refine ⟨_, @Turn.written request backend t.opened respResult hwrite, ?_, ?_⟩
    · rw [hpayload]
      split_ifs <;> exact ⟨by simp [Traced.closeBackend, Traced.note], rfl, rfl, 1, rfl, rfl⟩
    · by_cases hc : respResult.status = .complete
      · simp only [if_pos hc]
        by_cases hk : primaryResponse.isEmpty = true ∨ respResult.response.statusCode = 200
            ∨ respResult.response.statusCode = 201
        · simp only [if_pos hk]
          exact .inr ⟨⟨t.opened, backend.addr⟩, respResult,
            by simp [Traced.closeBackend, Traced.note], hc, rfl⟩
        · simp only [if_neg hk]
          have hne : primaryResponse ≠ [] := fun hnil => hk (.inl (by rw [hnil]; rfl))
          refine .inr ?_
          have hkeep := hkept.resolve_left fun hnil => hne hnil.1
          simpa [Traced.closeBackend, Traced.note] using hkeep.append _
      · simp only [if_neg hc]
        refine hkept.imp_right fun hk => ?_
        simpa [Traced.closeBackend, Traced.note] using hk.append _

/-- The write path's loop. -/
lemma TracedWrite.foldl_turns (net : Network σ) {request : HttpRequest} {w : TracedWrite σ}
    (candidates : List Backend) (hwrite : isWriteRequest request = true)
    (h : w.session.backendSocket = none) (hkept : w.Kept) :
    ∃ turns, List.Forall₂ (Turn request) candidates turns
      ∧ w.session.Follows turns.flatten
          (candidates.foldl (writeTo net (requestPayload request)) w).session
      ∧ (candidates.foldl (writeTo net (requestPayload request)) w).Kept := by
  induction candidates generalizing w with
  | nil => exact ⟨[], .nil, .refl h, hkept⟩
  | cons backend candidates ih =>
    obtain ⟨turn, hturn, hfollows, hkept⟩ := writeTo_turn net backend hwrite h hkept
    obtain ⟨turns, hturns, hfollows', hkept⟩ := ih hfollows.backendSocket hkept
    exact ⟨turn :: turns, .cons hturn hturns, hfollows.trans hfollows', hkept⟩

/-- The write path. -/
lemma Traced.handleWrite_turns (net : Network σ) {request : HttpRequest} {t : Traced σ}
    (candidates : List Backend) (hwrite : isWriteRequest request = true)
    (h : t.backendSocket = none) (hevents : t.events = []) :
    ∃ es, t.Follows es (t.handleWrite net request candidates).2 ∧ Turns request candidates es := by
  obtain ⟨turns, hturns, hfollows, hkept⟩ := TracedWrite.foldl_turns net
    (w := { session := t }) candidates hwrite h (.inl ⟨rfl, rfl⟩)
  simp only [handleWrite]
  generalize candidates.foldl (TracedWrite.writeTo net (requestPayload request))
    { session := t } = w at hfollows hkept
  refine ⟨_, hfollows.trans (follows_send hfollows.backendSocket _), turns, _, rfl, ?_,
    .inr ⟨_, rfl, ?_⟩⟩
  · rwa [← hturns.length_eq, List.take_length]
  · by_cases hsuccess : w.atLeastOneSuccess = true
    · rw [if_pos hsuccess]
      have hkept := hkept.resolve_left fun hnil => by simp [hnil.2] at hsuccess
      rw [hfollows.events, hevents, List.nil_append] at hkept
      exact .inr (hkept.append _)
    · exact .inl (if_neg hsuccess)

/-- The read path's loop. -/
lemma Traced.readFrom_turns (net : Network σ) {request : HttpRequest} {t : Traced σ}
    (candidates : List Backend) (hread : isWriteRequest request = false)
    (h : t.backendSocket = none) :
    ∃ turns, List.Forall₂ (Turn request) (candidates.take turns.length) turns
      ∧ t.Follows turns.flatten (t.readFrom net request candidates).2 := by
  have hpayload : forwardedAs request = request.rawRequest := if_neg (by simp [hread])
  induction candidates generalizing t with
  | nil => exact ⟨[], .nil, .refl h⟩
  | cons backend candidates ih =>
    -- a candidate that does not answer has its turn, and the loop goes on
    have hmore {turn : List Event} {t' : Traced σ} (hturn : Turn request backend turn)
        (hfollows : t.Follows turn t') :
        ∃ turns, List.Forall₂ (Turn request) ((backend :: candidates).take turns.length) turns
          ∧ t.Follows turns.flatten (t'.readFrom net request candidates).2 := by
      obtain ⟨turns, hturns, hfollows'⟩ := ih hfollows.backendSocket
      exact ⟨turn :: turns, .cons hturn hturns, hfollows.trans hfollows'⟩
    rcases t.ask_cases net request.rawRequest backend h with
      ⟨world, hconn⟩ | ⟨t', respResult, world, hconn, hasked⟩
    · simp only [readFrom, hconn]
      exact hmore .refused ⟨by simp [markDown, note], rfl, h, 0, rfl, rfl⟩
    · simp only [readFrom, hconn, hasked]
      by_cases hc : respResult.status = .complete
      · rw [if_pos hc]
        refine ⟨[_], .cons (@Turn.read request backend t.opened respResult hread hc) .nil, ?_⟩
        rw [hpayload]
        exact ⟨by simp [closeBackend, send, note], rfl, rfl, 1, rfl, rfl⟩
      · rw [if_neg hc]
        refine hmore (@Turn.broken request backend t.opened respResult hread hc) ?_
        rw [hpayload]
        exact ⟨by simp [closeBackend, markDown, note], rfl, rfl, 1, rfl, rfl⟩

/-- The read path. -/
lemma Traced.handleRead_turns (net : Network σ) {request : HttpRequest} {t : Traced σ}
    (candidates : List Backend) (hread : isWriteRequest request = false)
    (h : t.backendSocket = none) :
    ∃ es, t.Follows es (t.handleRead net request candidates).2 ∧ Turns request candidates es := by
  obtain ⟨turns, hturns, hfollows⟩ := readFrom_turns net candidates hread h
  unfold handleRead
  dsimp only
  split_ifs
  · exact ⟨_, hfollows, turns, [], (List.append_nil _).symm, hturns, .inl rfl⟩
  · exact ⟨_, hfollows.trans (follows_send hfollows.backendSocket _), turns, _, rfl, hturns,
      .inr ⟨_, rfl, .inl rfl⟩⟩

end

/-- An event in the turns of some candidates is in one of them, or is sent to the client. -/
lemma Turns.mem {request : HttpRequest} {candidates : List Backend} {events : List Event}
    (h : Turns request candidates events) {e : Event} (he : e ∈ events) :
    (∃ backend turn, Turn request backend turn ∧ e ∈ turn) ∨ ∃ bytes, e = .relayed bytes := by
  obtain ⟨turns, last, rfl, hturns, hlast⟩ := h
  have heach : (∀ turn ∈ turns, ∃ backend, Turn request backend turn) ∧ _ :=
    (List.forall₂_and_left _ _).1
      (hturns.flip.imp fun _ backend hturn => ⟨⟨backend, hturn⟩, hturn⟩)
  rcases List.mem_append.1 he with he | he
  · obtain ⟨turn, hmem, he⟩ := List.mem_flatten.1 he
    obtain ⟨backend, hturn⟩ := heach.1 turn hmem
    exact .inl ⟨backend, turn, hturn, he⟩
  · rcases hlast with rfl | ⟨bytes, rfl, -⟩
    · cases he
    · exact .inr ⟨bytes, List.mem_singleton.1 he⟩

/-- Turns keep the connections of their candidates apart. -/
lemma Turns.exclusive {request : HttpRequest} {candidates : List Backend} {events : List Event}
    (h : Turns request candidates events) : (Round.mk request candidates events).Exclusive := by
  refine ⟨fun backend backendSocket he => ?_, fun connection he => ?_, h⟩
  · rcases h.mem he with ⟨_, _, hturn, he⟩ | ⟨bytes, hbytes⟩
    · exact hturn.entered he
    · cases hbytes
  · rcases h.mem he with ⟨_, _, hturn, he⟩ | ⟨bytes, hbytes⟩
    · exact hturn.reused he
    · cases hbytes

/-- What holds between two requests: there is no connection, the connections of the requests before
    were exclusive, and they were numbered in the order in which they were opened. -/
structure Traced.Clean (t : Traced σ) : Prop where
  backendSocket : t.backendSocket = none
  events : t.events = []
  rounds : ∀ round ∈ t.rounds, round.Exclusive
  opened : (t.rounds.flatMap Round.connections).map Connection.number = List.range t.opened

/-- One more request. -/
lemma Traced.Clean.conclude {t t' : Traced σ} {request : HttpRequest} {candidates : List Backend}
    {es : List Event} (h : t.Clean) (hfollows : t.Follows es t')
    (hturns : Turns request candidates es) : (t'.conclude request candidates).Clean := by
  have hevents : t'.events = es := by rw [hfollows.events, h.events, List.nil_append]
  refine ⟨hfollows.backendSocket, rfl, fun round hround => ?_, ?_⟩
  · simp only [Traced.conclude, hfollows.rounds, hevents, List.mem_append,
      List.mem_singleton] at hround
    rcases hround with hround | rfl
    · exact h.rounds round hround
    · exact hturns.exclusive
  · obtain ⟨n, hopened, hnumbers⟩ := hfollows.opened
    simp only [Traced.conclude, hfollows.rounds, hevents, List.flatMap_append, List.flatMap_cons,
      List.flatMap_nil, List.append_nil, List.map_append, h.opened]
    rw [Round.connections, hnumbers, hopened, List.range_eq_range', List.range_eq_range',
      ← List.range'_append_1, Nat.zero_add]

section
variable [StdHash]

/-- Handling a request leaves no connection behind. -/
lemma Traced.Clean.handleRequest {net : Network σ}
    {route : HttpRequest → ProxySession σ → Except Str (List Backend)} (request : HttpRequest)
    {t : Traced σ} (h : t.Clean) : (t.handleRequest net route request).2.Clean := by
  unfold Traced.handleRequest
  rcases route request t.erase with what | (_ | ⟨backend, candidates⟩)
  · exact h.conclude (.refl h.backendSocket) ⟨[], [], rfl, .nil, .inl rfl⟩
  · exact h.conclude (follows_send h.backendSocket _)
      ⟨[], _, rfl, .nil, .inr ⟨_, rfl, .inl rfl⟩⟩
  · dsimp only
    split_ifs with hwrite
    · obtain ⟨es, hfollows, hturns⟩ :=
        handleWrite_turns net (backend :: candidates) hwrite h.backendSocket h.events
      exact h.conclude hfollows hturns
    · obtain ⟨es, hfollows, hturns⟩ :=
        handleRead_turns net (backend :: candidates) (by simpa using hwrite) h.backendSocket
      exact h.conclude hfollows hturns

/-- In every run of a session no connection is left open when it ends, however it ends; and whatever
    candidates its requests are given and whatever happens on the connections, the connections of
    each request are exclusive, and no two of them are the same. -/
theorem connections_exclusive (net : Network σ)
    (route : HttpRequest → ProxySession σ → Except Str (List Backend)) (incoming : List Str)
    (r : Router) (world : σ) :
    (forwardTraffic (handleRequest net) incoming (.idle r world [])).session.backendSocket = none
      ∧ (trace net route incoming r world).backendSocket = none
      ∧ (∀ round ∈ (trace net route incoming r world).rounds, round.Exclusive)
      ∧ ((trace net route incoming r world).rounds.flatMap Round.connections).Nodup := by
  have hclean (route : HttpRequest → ProxySession σ → Except Str (List Backend)) :
      (trace net route incoming r world).Clean :=
    forwardTraffic_invariant (fun request _ h => h.handleRequest request) incoming
      ⟨rfl, rfl, nofun, rfl⟩
  have hnodup : (((trace net route incoming r world).rounds.flatMap Round.connections).map
      Connection.number).Nodup := by
    rw [(hclean route).opened]
    exact List.nodup_range
  refine ⟨?_, (hclean route).backendSocket, (hclean route).rounds, hnodup.of_map _⟩
  rw [← forwardTraffic_erase]
  exact congrArg (Option.map Connection.addr) (hclean _).backendSocket

end

end KvStore.Session
