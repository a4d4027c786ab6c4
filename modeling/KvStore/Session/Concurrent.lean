import KvStore.Lib.Run
import KvStore.Session.Answers
import Mathlib.Logic.Relation

/-!
# Concurrent sessions

The balancer starts a thread with a `ProxySession` for every client, and all of them share the router.
A session does one thing after the other: it looks the candidates of a request up, has an exchange
with one of them, marks one DOWN, or answers its client; in between the other sessions run. An
exception that leaves a session ends the whole process.

* `forwardTraffic_reached`: a session that runs alone does what `forwardTraffic` does.
* `Sessions.step_cases`: what a step of the sessions is.
-/

namespace KvStore.Session
open KvStore.Lib KvStore.Ring KvStore.Http

/-- Where a session is: between two requests, in the loop over the candidates, about to mark one of
    them DOWN, about to answer, or at its end. -/
inductive SessionPhase where
  | waiting
  | writing (request : HttpRequest) (candidates : List Backend) (atLeastOneSuccess : Bool)
      (primaryResponse : Str)
  | reading (request : HttpRequest) (candidates : List Backend)
  | marking (port : ℤ) (next : SessionPhase)
  | answering (request : HttpRequest) (flow : Flow) (bytes : Str)
  | ended (flow : Flow)

/-- A session with a client: the requests that are still to be handled, and what the client has got
    for the others. -/
structure ClientSession where
  queue : List HttpRequest
  phase : SessionPhase := .waiting
  sent : List (HttpRequest × Str) := []

/-- All sessions, the router that they share, the world, and the exception that has ended the
    process, if there was one. -/
structure Sessions (ι σ : Type*) where
  router : Router
  world : σ
  sessions : ι → ClientSession
  aborted : Option Str := none

/-- A session goes on. The network can be another one each time. -/
structure SessionAction (ι σ : Type*) where
  session : ι
  network : Network σ

variable {ι σ : Type*}

/-- The phase after a request has been handled. -/
def Flow.phase : Flow → SessionPhase
  | .next => .waiting
  | flow => .ended flow

/-- The exception that leaves the session. -/
def SessionPhase.exception : SessionPhase → Option Str
  | .ended (.throw what) => some what
  | _ => none

section
variable [StdHash]

/-- The candidates of a request, and how it goes on with them. -/
def Router.route (r : Router) (request : HttpRequest) : SessionPhase :=
  let candidates :=
    if isWriteRequest request then r.getWriteBackendsForKey request.getKey 2
    else r.getReadBackendsForKey request.getKey 2
  match candidates with
  | .error what => .ended (.throw what)
  | .ok [] => .answering request .ret serviceUnavailable
  | .ok (backend :: candidates) =>
    if isWriteRequest request then .writing request (backend :: candidates) false []
    else .reading request (backend :: candidates)

/-- What a session does next, if there is anything. -/
def ClientSession.step (net : Network σ) (c : ClientSession) (r : Router) (w : σ) :
    Option (ClientSession × Router × σ) :=
  match c.phase with
  | .waiting =>
    match c.queue with
    | [] => none
    | request :: queue => some ({ c with queue := queue, phase := Router.route r request }, r, w)
  | .writing request [] atLeastOneSuccess primaryResponse =>
    let bytes := if atLeastOneSuccess then primaryResponse else serviceUnavailable
    some ({ c with phase := .answering request .next bytes }, r, w)
  | .writing request (backend :: candidates) atLeastOneSuccess primaryResponse =>
    let replied := reply net (requestPayload request) backend w
    let next :=
      .writing request candidates (atLeastOneSuccess || replied.1.isAnswer)
        (replied.1.keep primaryResponse)
    let phase := if replied.1.isRefusal then .marking backend.port next else next
    some ({ c with phase := phase }, r, replied.2)
  | .reading request [] =>
    some ({ c with phase := .answering request .ret serviceUnavailable }, r, w)
  | .reading request (backend :: candidates) =>
    match reply net request.rawRequest backend w with
    | (.answered response, w) =>
      some ({ c with phase := .answering request .next response.rawResponse }, r, w)
    | (_, w) =>
      some ({ c with phase := .marking backend.port (.reading request candidates) }, r, w)
  | .marking port next => some ({ c with phase := next }, r.markBackendDown port, w)
  | .answering request flow bytes =>
    some ({ c with phase := flow.phase, sent := c.sent ++ [(request, bytes)] }, r, w)
  | .ended _ => none

/-- One step of a session among the others. -/
def Sessions.step [DecidableEq ι] (s : Sessions ι σ) (a : SessionAction ι σ) :
    Option (Sessions ι σ) :=
  match s.aborted with
  | some _ => none
  | none =>
    match (s.sessions a.session).step a.network s.router s.world with
    | none => none
    | some (c, r, w) =>
      some ⟨r, w, Function.update s.sessions a.session c, c.phase.exception⟩

/-- All clients have connected, and nothing has been handled yet. -/
def Sessions.start (r : Router) (world : σ) (requests : ι → List HttpRequest) : Sessions ι σ :=
  ⟨r, world, fun i => ⟨requests i, .waiting, []⟩, none⟩

/-- What a session can do. -/
inductive ClientSession.Step (net : Network σ) (c : ClientSession) (r : Router) (w : σ) :
    ClientSession × Router × σ → Prop where
  | routed {request queue} :
    c.phase = .waiting →
    c.queue = request :: queue →
    Step net c r w ({ c with queue := queue, phase := Router.route r request }, r, w)
  | wrote {request backend candidates atLeastOneSuccess primaryResponse rep w'} :
    c.phase = .writing request (backend :: candidates) atLeastOneSuccess primaryResponse →
    reply net (requestPayload request) backend w = (rep, w') →
    Step net c r w
      ({ c with
          phase :=
            let next :=
              .writing request candidates (atLeastOneSuccess || rep.isAnswer)
                (rep.keep primaryResponse)
            if rep.isRefusal then .marking backend.port next else next }, r, w')
  | written {request atLeastOneSuccess primaryResponse} :
    c.phase = .writing request [] atLeastOneSuccess primaryResponse →
    Step net c r w
      ({ c with
          phase := .answering request .next
            (if atLeastOneSuccess then primaryResponse else serviceUnavailable) }, r, w)
  | read {request backend candidates response w'} :
    c.phase = .reading request (backend :: candidates) →
    reply net request.rawRequest backend w = (.answered response, w') →
    Step net c r w ({ c with phase := .answering request .next response.rawResponse }, r, w')
  | failed {request backend candidates rep w'} :
    c.phase = .reading request (backend :: candidates) →
    reply net request.rawRequest backend w = (rep, w') →
    rep.isAnswer = false →
    Step net c r w ({ c with phase := .marking backend.port (.reading request candidates) }, r, w')
  | unread {request} :
    c.phase = .reading request [] →
    Step net c r w ({ c with phase := .answering request .ret serviceUnavailable }, r, w)
  | marked {port next} :
    c.phase = .marking port next →
    Step net c r w ({ c with phase := next }, r.markBackendDown port, w)
  | answered {request flow bytes} :
    c.phase = .answering request flow bytes →
    Step net c r w
      ({ c with phase := flow.phase, sent := c.sent ++ [(request, bytes)] }, r, w)

/-- What a session gets to that nobody interferes with. -/
def Reaches (net : Network σ) :
    ClientSession × Router × σ → ClientSession × Router × σ → Prop :=
  Relation.ReflTransGen fun s s' => s.1.step net s.2.1 s.2.2 = some s'

variable {net : Network σ} {c : ClientSession} {r : Router} {w : σ} {request : HttpRequest}

/-- Every step of a session is one of these. -/
lemma ClientSession.step_spec {s : ClientSession × Router × σ} (h : c.step net r w = some s) :
    ClientSession.Step net c r w s := by
  unfold ClientSession.step at h
  split at h
  · rename_i hphase
    split at h
    · cases h
    · rename_i request queue hqueue
      obtain rfl := Option.some.inj h
      exact .routed hphase hqueue
  · rename_i request atLeastOneSuccess primaryResponse hphase
    obtain rfl := Option.some.inj h
    exact .written hphase
  · rename_i request backend candidates atLeastOneSuccess primaryResponse hphase
    obtain rfl := Option.some.inj h
    exact .wrote hphase rfl
  · rename_i request hphase
    obtain rfl := Option.some.inj h
    exact .unread hphase
  · rename_i request backend candidates hphase
    split at h
    · rename_i response w' hr
      obtain rfl := Option.some.inj h
      exact .read hphase hr
    · rename_i rep w' hne hr
      obtain rfl := Option.some.inj h
      refine .failed hphase hr ?_
      cases rep with
      | answered response => exact absurd rfl (hne response)
      | refused | broken => rfl
  · rename_i port next hphase
    obtain rfl := Option.some.inj h
    exact .marked hphase
  · rename_i request flow bytes hphase
    obtain rfl := Option.some.inj h
    exact .answered hphase
  · cases h

/-- A session makes a step, and goes on. -/
lemma reaches_step {s s' : ClientSession × Router × σ} (h : c.step net r w = some s)
    (h' : Reaches net s s') : Reaches net (c, r, w) s' := .head h h'

/-- A backend is marked DOWN, and the session goes on. -/
lemma reaches_marking {port : ℤ} {next : SessionPhase} {s' : ClientSession × Router × σ}
    (h : Reaches net ({ c with phase := next }, r.markBackendDown port, w) s') :
    Reaches net ({ c with phase := .marking port next }, r, w) s' := .head rfl h

/-- The write path's loop. -/
lemma writing_reached (candidates : List Backend) (atLeastOneSuccess : Bool)
    (primaryResponse : Str) (r : Router) (w : σ) :
    Reaches net
      ({ c with phase := .writing request candidates atLeastOneSuccess primaryResponse }, r, w)
      ({ c with
          phase := .writing request []
            (atLeastOneSuccess
              || (attempts net (requestPayload request) candidates w).1.any (·.2.isAnswer))
            ((attempts net (requestPayload request) candidates w).1.foldl
              (fun primaryResponse e => e.2.keep primaryResponse) primaryResponse) },
        (attempts net (requestPayload request) candidates w).1.foldl markRefused r,
        (attempts net (requestPayload request) candidates w).2) := by
  induction candidates generalizing atLeastOneSuccess primaryResponse r w with
  | nil =>
    rw [attempts, List.any_nil, Bool.or_false]
    exact .refl
  | cons backend candidates ih =>
    simp only [attempts, List.any_cons, List.foldl_cons, ← Bool.or_assoc]
    rcases hr : reply net (requestPayload request) backend w with ⟨rep, w'⟩
    have hrest := ih (atLeastOneSuccess || rep.isAnswer) (rep.keep primaryResponse)
      (markRefused r (backend, rep)) w'
    cases hrefused : rep.isRefusal with
    | true =>
      have hrouter : markRefused r (backend, rep) = r.markBackendDown backend.port :=
        if_pos hrefused
      rw [hrouter] at hrest ⊢
      -- the backend is marked DOWN before the next one is tried
      refine reaches_step ?_ (reaches_marking hrest)
      simp only [ClientSession.step, hr, hrefused, if_true]
    | false =>
      have hrouter : markRefused r (backend, rep) = r := if_neg (by simp [hrefused])
      rw [hrouter] at hrest ⊢
      refine reaches_step ?_ hrest
      simp only [ClientSession.step, hr, hrefused]
      rfl

/-- The read path's loop. -/
lemma reading_reached (candidates : List Backend) (r : Router) (w : σ) :
    Reaches net ({ c with phase := .reading request candidates }, r, w)
      ({ c with
          phase := .answering request
            (if (firstAnswer net request.rawRequest candidates w).1.isSome then .next else .ret)
            (((firstAnswer net request.rawRequest candidates w).1.map
              HttpResponse.rawResponse).getD serviceUnavailable) },
        (firstAnswer net request.rawRequest candidates w).2.1.foldl
          (fun r b => r.markBackendDown b.port) r,
        (firstAnswer net request.rawRequest candidates w).2.2) := by
  induction candidates generalizing r w with
  | nil => exact .single rfl
  | cons backend candidates ih =>
    rcases hr : reply net request.rawRequest backend w with ⟨rep, w'⟩
    cases rep with
    | answered response =>
      refine .single ?_
      simp only [ClientSession.step, firstAnswer, hr]
      rfl
    | refused | broken =>
      simp only [firstAnswer, hr]
      refine reaches_step ?_ (reaches_marking (ih (r.markBackendDown backend.port) w'))
      simp only [ClientSession.step, hr]

/-- A session that runs alone handles a request as `handleRequest` does. -/
lemma handleRequest_reached (net : Network σ) (request : HttpRequest) (queue : List HttpRequest)
    (sent : List (HttpRequest × Str)) (r : Router) (w : σ) :
    ∃ flow r' w' sent', handleRequest net request (.idle r w (sent.map Prod.snd))
        = (flow, .idle r' w' (sent'.map Prod.snd))
      ∧ Reaches net (⟨request :: queue, .waiting, sent⟩, r, w)
        (⟨queue, flow.phase, sent'⟩, r', w') := by
  have hroute : ClientSession.step net ⟨request :: queue, .waiting, sent⟩ r w
      = some (⟨queue, Router.route r request, sent⟩, r, w) := rfl
  -- what is answered is added to what was sent
  have hdone {handled : Flow × ProxySession σ} (flow : Flow) (r' : Router) (w' : σ) (bytes : Str)
      (hhandled : handled = (flow, .idle r' w' (sent.map Prod.snd ++ [bytes])))
      (h : Reaches net (⟨request :: queue, .waiting, sent⟩, r, w)
        (⟨queue, flow.phase, sent ++ [(request, bytes)]⟩, r', w')) :
      ∃ flow r' w' sent', handled = (flow, .idle r' w' (sent'.map Prod.snd))
        ∧ Reaches net (⟨request :: queue, .waiting, sent⟩, r, w)
          (⟨queue, flow.phase, sent'⟩, r', w') := by
    refine ⟨flow, r', w', _, ?_, h⟩
    rw [hhandled, List.map_append]
    rfl
  rw [handleRequest, ProxySession.candidates]
  simp only [ProxySession.idle]
  rw [Router.route] at hroute
  cases hcand : if isWriteRequest request then r.getWriteBackendsForKey request.getKey 2
    else r.getReadBackendsForKey request.getKey 2 with
  | error what =>
    rw [hcand] at hroute
    exact ⟨.throw what, r, w, sent, rfl, reaches_step hroute .refl⟩
  | ok candidates =>
    rw [hcand] at hroute
    cases candidates with
    | nil => exact hdone .ret r w _ rfl (reaches_step hroute (.single rfl))
    | cons backend candidates =>
      cases hw : isWriteRequest request with
      | true =>
        simp only [hw, if_true] at hroute ⊢
        rw [handleWrite_eq net request (backend :: candidates) rfl]
        refine hdone .next _ _ _ rfl (reaches_step hroute ?_)
        exact (writing_reached (c := ⟨queue, .waiting, sent⟩) (backend :: candidates) false [] r
          w).trans (.head rfl (.single rfl))
      | false =>
        simp only [hw] at hroute ⊢
        rw [if_neg Bool.false_ne_true, handleRead_eq net request (backend :: candidates) rfl]
        refine hdone _ _ _ _ rfl (reaches_step hroute ?_)
        exact (reading_reached (c := ⟨queue, .waiting, sent⟩) (backend :: candidates) r w).trans
          (.single rfl)

/-- The same for all its requests. -/
lemma handleAll_reached (net : Network σ) (requests : List HttpRequest)
    (sent : List (HttpRequest × Str)) (r : Router) (w : σ) :
    let handled := (handleAll (handleRequest net) requests (.idle r w (sent.map Prod.snd))).1
    ∃ c, handled.sent = c.sent.map Prod.snd
      ∧ Reaches net (⟨requests, .waiting, sent⟩, r, w) (c, handled.router, handled.world)
      ∧ c.step net handled.router handled.world = none := by
  induction requests generalizing sent r w with
  | nil => exact ⟨⟨[], .waiting, sent⟩, rfl, .refl, rfl⟩
  | cons request requests ih =>
    obtain ⟨flow, r', w', sent', hhandled, hreaches⟩ :=
      handleRequest_reached net request requests sent r w
    rw [handleAll, hhandled]
    cases flow with
    | next =>
      obtain ⟨c, hsent, hrest, hend⟩ := ih sent' r' w'
      exact ⟨c, hsent, hreaches.trans hrest, hend⟩
    | ret => exact ⟨⟨requests, .ended .ret, sent'⟩, rfl, hreaches, rfl⟩
    | throw what => exact ⟨⟨requests, .ended (.throw what), sent'⟩, rfl, hreaches, rfl⟩

/-- A session that runs alone does what `forwardTraffic` does, however the requests arrive: it sends
    the same answers, marks the same backends, leaves the same world, and ends. -/
theorem forwardTraffic_reached (net : Network σ) {incoming : List Str} (hne : [] ∉ incoming)
    {requests : List HttpRequest} (h : AreRequests incoming.flatten requests) (r : Router) (w : σ) :
    let session := (forwardTraffic (handleRequest net) incoming (.idle r w [])).session
    ∃ c, session.sent = c.sent.map Prod.snd
      ∧ Reaches net (⟨requests, .waiting, []⟩, r, w) (c, session.router, session.world)
      ∧ c.step net session.router session.world = none := by
  rw [(forwardTraffic_requests (handleRequest net) hne h (.idle r w [])).1]
  exact handleAll_reached net requests [] r w

section
variable [DecidableEq ι] {s s' : Sessions ι σ} {a : SessionAction ι σ}

/-- What a step of the sessions is: one of them makes a step, and the others stay where they are. -/
lemma Sessions.step_cases (h : s.step a = some s') :
    s.aborted = none ∧ ∃ c r w, ClientSession.Step a.network (s.sessions a.session) s.router s.world
        (c, r, w)
      ∧ s' = ⟨r, w, Function.update s.sessions a.session c, c.phase.exception⟩ := by
  unfold Sessions.step at h
  split at h
  · cases h
  · rename_i haborted
    split at h
    · cases h
    · rename_i c r w hstep
      exact ⟨haborted, c, r, w, ClientSession.step_spec hstep, (Option.some.inj h).symm⟩

end

end

section
attribute [local instance] djb2

/-- A request that arrives in two pieces. -/
def twoPieces : List Str := [getA.rawRequest.take 9, getA.rawRequest.drop 9]

/-- What `forwardTraffic` does with it while all backends are down. -/
def refusedSession : ProxySession Unit :=
  (forwardTraffic (handleRequest silent) twoPieces (.idle (initialRouter 1) () [])).session

/-- The session that runs alone gets there. -/
theorem forwardTraffic_reached_silent :
    refusedSession.sent = [serviceUnavailable]
      ∧ ∃ c, refusedSession.sent = c.sent.map Prod.snd
        ∧ Reaches silent (⟨[getA], .waiting, []⟩, initialRouter 1, ())
          (c, refusedSession.router, refusedSession.world)
        ∧ c.step silent refusedSession.router refusedSession.world = none := by
  have hrequests : AreRequests twoPieces.flatten [getA] := by
    have hrequest : (parseHTTPRequest getA.rawRequest).request = getA := by decide +kernel
    have hrest : getA.rawRequest.drop (parseHTTPRequest getA.rawRequest).consumed = [] := by
      decide +kernel
    have hcons : AreRequests getA.rawRequest [(parseHTTPRequest getA.rawRequest).request] :=
      .cons (by decide +kernel) (by rw [hrest]; exact .nil)
    rwa [hrequest] at hcons
  have hne : [] ∉ twoPieces := by decide
  have hsent : refusedSession.sent = [serviceUnavailable] := by decide +kernel
  exact ⟨hsent, forwardTraffic_reached silent hne hrequests (initialRouter 1) ()⟩

end

end KvStore.Session
