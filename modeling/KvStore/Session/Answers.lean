import KvStore.Session.Forward
import Mathlib.Data.List.Forall2
import Mathlib.Data.List.ReduceOption

/-!
# The answers a client gets

What `forwardTraffic` sends to the client, one request after the other.

* `answered_iff`: a request is answered, by a backend or with a 503, exactly if the ring is not empty
  when it is routed and its answer is not `Lost`; `unanswered_all_down` is the router on which it is
  empty. That no signal ends the process is assumed, as in `Forward`.
* `framedAnswers_iff`: the answers to the requests of a connection are framed exactly if none of
  them is a 503, whose text is two bytes longer than it says; `misframed_unavailable` is such a
  stream.
-/

namespace KvStore.Session
open KvStore.Lib KvStore.Ring KvStore.Http

variable {σ : Type*}

/-- The reply is a complete response of no bytes: the lengths of its parts make `0`
    (`rawResponse_eq_nil_iff`). -/
def Reply.isEmptyAnswer : Reply → Bool
  | .answered response => response.rawResponse.isEmpty
  | _ => false

/-- The reply is a response with status 200 or 201. -/
def Reply.isSuccess : Reply → Bool
  | .answered response => response.statusCode = 200 ∨ response.statusCode = 201
  | _ => false

/-- All answers are empty. -/
def AllEmpty (replies : List (Backend × Reply)) : Prop :=
  ∀ e ∈ replies, e.2.isAnswer = true → e.2.isEmptyAnswer = true

/-- The answers to a write are lost: all of them are empty, or one with status 200 or 201 is, and
    those after it. -/
def LostWrite (replies : List (Backend × Reply)) : Prop :=
  (∃ e ∈ replies, e.2.isAnswer = true)
    ∧ (AllEmpty replies
      ∨ ∃ pre e post, replies = pre ++ e :: post ∧ e.2.isEmptyAnswer = true ∧ e.2.isSuccess = true
          ∧ AllEmpty post)

/-- The answer to another request is lost: the first one is empty. -/
def LostRead (replies : List (Backend × Reply)) : Prop :=
  ∃ e, replies.find? (fun e => e.2.isAnswer) = some e ∧ e.2.isEmptyAnswer = true

/-- The client gets nothing although some candidate has answered. -/
def Lost (request : HttpRequest) (replies : List (Backend × Reply)) : Prop :=
  if isWriteRequest request then LostWrite replies else LostRead replies

/-- When nothing is kept after a reply. -/
lemma keep_eq_nil_iff {primaryResponse : Str} {r : Reply} :
    r.keep primaryResponse = []
      ↔ primaryResponse = [] ∧ (r.isAnswer = true → r.isEmptyAnswer = true)
        ∨ r.isEmptyAnswer = true ∧ r.isSuccess = true := by
  cases r with
  | refused | broken => simp [Reply.keep, Reply.isAnswer, Reply.isEmptyAnswer]
  | answered response =>
    simp only [Reply.keep, Reply.isAnswer, Reply.isEmptyAnswer, Reply.isSuccess,
      List.isEmpty_iff, decide_eq_true_eq, forall_const]
    split_ifs with hk
    · rcases hk with hp | hs
      · simp only [hp, true_and]
        tauto
      · tauto
    · tauto

/-- When the write path keeps nothing. -/
lemma foldl_keep_eq_nil_iff {replies : List (Backend × Reply)} {primaryResponse : Str} :
    replies.foldl (fun p e => e.2.keep p) primaryResponse = []
      ↔ primaryResponse = [] ∧ AllEmpty replies
        ∨ ∃ pre e post, replies = pre ++ e :: post ∧ e.2.isEmptyAnswer = true
            ∧ e.2.isSuccess = true ∧ AllEmpty post := by
  induction replies generalizing primaryResponse with
  | nil => simp [AllEmpty]
  | cons e replies ih =>
    have hcons : AllEmpty (e :: replies)
        ↔ (e.2.isAnswer = true → e.2.isEmptyAnswer = true) ∧ AllEmpty replies :=
      List.forall_mem_cons
    rw [List.foldl_cons, ih, keep_eq_nil_iff, hcons]
    constructor
    · rintro (⟨⟨hp, he⟩ | ⟨he, hs⟩, hall⟩ | ⟨pre, e', post, rfl, h⟩)
      · exact .inl ⟨hp, he, hall⟩
      · exact .inr ⟨[], e, replies, rfl, he, hs, hall⟩
      · exact .inr ⟨e :: pre, e', post, rfl, h⟩
    · rintro (⟨hp, he, hall⟩ | ⟨pre, e', post, heq, he, hs, hall⟩)
      · exact .inl ⟨.inl ⟨hp, he⟩, hall⟩
      · cases pre with
        | nil =>
          obtain ⟨rfl, rfl⟩ := List.cons.inj heq
          exact .inl ⟨.inr ⟨he, hs⟩, hall⟩
        | cons e'' pre =>
          obtain ⟨rfl, rfl⟩ := List.cons.inj heq
          exact .inr ⟨pre, e', post, rfl, he, hs, hall⟩

/-- The first answer is the first among all replies. -/
lemma find_attempts (net : Network σ) (payload : Str) (candidates : List Backend) (world : σ) :
    ((attempts net payload candidates world).1.find? fun e => e.2.isAnswer).map Prod.snd
      = (firstAnswer net payload candidates world).1.map Reply.answered := by
  induction candidates generalizing world with
  | nil => rfl
  | cons backend candidates ih =>
    rcases hr : reply net payload backend world with ⟨r, world'⟩
    cases r with
    | answered response => simp [attempts, firstAnswer, hr, Reply.isAnswer]
    | refused | broken =>
      simp only [attempts, firstAnswer, hr]
      exact ih world'

/-- When the write path sends nothing. -/
lemma sent_write_eq_nil_iff (replies : List (Backend × Reply)) :
    (if replies.any (·.2.isAnswer) then replies.foldl (fun p e => e.2.keep p) []
      else serviceUnavailable) = [] ↔ LostWrite replies := by
  rw [LostWrite, ← List.any_eq_true]
  split_ifs with hany
  · rw [foldl_keep_eq_nil_iff]
    simp only [hany, true_and]
  · exact iff_of_false (by decide) fun hlost => hany hlost.1

/-- When the read path sends nothing. -/
lemma sent_read_eq_nil_iff (net : Network σ) (payload : Str) (candidates : List Backend) (world : σ) :
    ((firstAnswer net payload candidates world).1.map HttpResponse.rawResponse).getD
        serviceUnavailable = [] ↔ LostRead (attempts net payload candidates world).1 := by
  have hfind := find_attempts net payload candidates world
  rw [LostRead]
  cases hf : (firstAnswer net payload candidates world).1 with
  | none =>
    rw [hf, Option.map_none, Option.map_eq_none_iff] at hfind
    refine iff_of_false (by decide) ?_
    rintro ⟨e, he, -⟩
    rw [hfind] at he
    cases he
  | some response =>
    rw [hf, Option.map_some, Option.map_eq_some_iff] at hfind
    obtain ⟨e, he, hanswered⟩ := hfind
    simp [he, hanswered, Reply.isEmptyAnswer]

section
variable [StdHash]

/-- The bytes answer the request: they are the 503, or there are some and they come from one of its
    candidates. -/
def AnswerTo (net : Network σ) (request : HttpRequest) (s : ProxySession σ) (bytes : Str) : Prop :=
  bytes = serviceUnavailable
    ∨ bytes ≠ [] ∧ ∃ candidates, s.candidates request = .ok candidates
        ∧ FromBackend net request candidates bytes

/-- Routing throws exactly if the ring is empty. -/
lemma candidates_eq_error {s : ProxySession σ} {request : HttpRequest} {what : Str} :
    s.candidates request = .error what ↔ s.router.hashRing.empty = true ∧ what = noBackendError := by
  unfold ProxySession.candidates
  split_ifs <;> exact targetsForKey_eq_error

/-- Where routing does not throw, the ring is not empty. -/
lemma empty_of_candidates {s : ProxySession σ} {request : HttpRequest} {candidates : List Backend}
    (h : s.candidates request = .ok candidates) : s.router.hashRing.empty = false := by
  by_contra he
  have herror : s.candidates request = .error noBackendError :=
    candidates_eq_error.2 ⟨(Bool.not_eq_false _).mp he, rfl⟩
  rw [h] at herror
  cases herror

/-- What the write path sends. -/
lemma sent_handleWrite (net : Network σ) (request : HttpRequest) (candidates : List Backend)
    (r : Router) (world : σ) (sent : List Str) :
    (handleWrite net request candidates (.idle r world sent)).2.sent = sent ++
      [if (attempts net (requestPayload request) candidates world).1.any (·.2.isAnswer) then
        (attempts net (requestPayload request) candidates world).1.foldl (fun p e => e.2.keep p) []
      else serviceUnavailable] := by
  rw [handleWrite_eq _ _ _ (s := .idle r world sent) rfl]
  rfl

/-- What the read path sends. -/
lemma sent_handleRead (net : Network σ) (request : HttpRequest) (candidates : List Backend)
    (r : Router) (world : σ) (sent : List Str) :
    (handleRead net request candidates (.idle r world sent)).2.sent = sent ++
      [((firstAnswer net request.rawRequest candidates world).1.map HttpResponse.rawResponse).getD
        serviceUnavailable] := by
  rw [handleRead_eq _ _ _ (s := .idle r world sent) rfl]
  rfl

/-- What the client gets is empty exactly if the answers of the candidates are lost. -/
lemma sent_eq_nil_iff {net : Network σ} {request : HttpRequest} {r : Router} {world : σ}
    {sent : List Str} {candidates : List Backend}
    (hc : (ProxySession.idle r world sent).candidates request = .ok candidates) {bytes : Str}
    (hsent : (handleRequest net request (.idle r world sent)).2.sent = sent ++ [bytes]) :
    bytes = [] ↔ Lost request (attempts net (forwardedAs request) candidates world).1 := by
  unfold handleRequest at hsent
  rw [hc] at hsent
  cases candidates with
  | nil =>
    obtain rfl : serviceUnavailable = bytes := by
      simpa [ProxySession.send, ProxySession.idle] using hsent
    refine iff_of_false (by decide) ?_
    unfold Lost
    split_ifs
    · rintro ⟨⟨e, he, -⟩, -⟩
      cases he
    · rintro ⟨e, he, -⟩
      cases he
  | cons b candidates =>
    cases hw : isWriteRequest request with
    | true =>
      have hpayload : forwardedAs request = requestPayload request := if_pos hw
      simp only [hw, if_true, sent_handleWrite] at hsent
      obtain rfl := List.singleton_inj.1 (List.append_cancel_left hsent)
      rw [Lost, if_pos hw, hpayload]
      exact sent_write_eq_nil_iff _
    | false =>
      have hpayload : forwardedAs request = request.rawRequest := if_neg (by simp [hw])
      simp only [hw, Bool.false_eq_true, if_false, sent_handleRead] at hsent
      obtain rfl := List.singleton_inj.1 (List.append_cancel_left hsent)
      rw [Lost, if_neg (by simp [hw]), hpayload]
      exact sent_read_eq_nil_iff net request.rawRequest (b :: candidates) world

end

/-- The world in which nobody accepts a connection. -/
def silent : Network Unit := ⟨fun _ w => (false, w), fun _ _ w => ([], w)⟩

section
attribute [local instance] djb2

/-- A request to read a key. -/
def getA : HttpRequest :=
  { method := "GET".toList
    path := "/kvstore/a".toList
    version := "HTTP/1.1".toList
    rawRequest := "GET /kvstore/a HTTP/1.1\r\nHost: x\r\n\r\n".toList }

end

section
variable [StdHash]

/-- The request has a candidate that answers it completely when it is routed. -/
def Served (net : Network σ) (e : HttpRequest × ProxySession σ) : Prop :=
  ∃ candidates, e.2.candidates e.1 = .ok candidates
    ∧ Answers net (forwardedAs e.1) candidates e.2.world

instance (net : Network σ) (e : HttpRequest × ProxySession σ) : Decidable (Served net e) :=
  match h : e.2.candidates e.1 with
  | .error _ => isFalse fun ⟨_, hc, _⟩ => nomatch h.symm.trans hc
  | .ok candidates =>
    decidable_of_iff (Answers net (forwardedAs e.1) candidates e.2.world)
      ⟨fun ha => ⟨candidates, h, ha⟩, fun ⟨_, hc, ha⟩ => Except.ok.inj (h.symm.trans hc) ▸ ha⟩

/-- Handling that also notes each request, with the session in which it is handled. -/
def noting (net : Network σ) (request : HttpRequest)
    (l : List (HttpRequest × ProxySession σ) × ProxySession σ) :
    Flow × List (HttpRequest × ProxySession σ) × ProxySession σ :=
  ((handleRequest net request l.2).1, l.1 ++ [(request, l.2)], (handleRequest net request l.2).2)

/-- `forwardTraffic` on a fresh connection, with the requests noted. -/
def serve (net : Network σ) (incoming : List Str) (r : Router) (world : σ) :
    List (HttpRequest × ProxySession σ) × ProxySession σ :=
  (forwardTraffic (noting net) incoming ([], .idle r world [])).session

/-- Noting the requests changes nothing about the session. -/
lemma serve_snd (net : Network σ) (incoming : List Str) (r : Router) (world : σ) :
    (serve net incoming r world).2
      = (forwardTraffic (handleRequest net) incoming (.idle r world [])).session := by
  have h : (forwardTraffic (noting net) incoming ([], .idle r world [])).map Prod.snd
      = forwardTraffic (handleRequest net) incoming (.idle r world []) :=
    forwardTraffic_map Prod.snd (fun _ _ => rfl) incoming _
  exact congrArg Loop.session h

/-- The bytes sent to the client are one framed answer to each request handled, in order, and parsing
    them takes them apart again. -/
structure FramedAnswers (net : Network σ) (handled : List (HttpRequest × ProxySession σ))
    (sent : List Str) : Prop where
  each : List.Forall₂ (fun e bytes => AnswerTo net e.1 e.2 bytes ∧ Framed bytes) handled sent
  parsed : ∃ rs, parseAll sent.flatten.length sent.flatten = some rs ∧ rs.length = handled.length

/-- What has been sent for a request that was handled: nothing or the 503 if it was not served. -/
def SentFor (net : Network σ) (e : HttpRequest × ProxySession σ) : Option Str → Prop
  | none => ¬ Served net e
  | some bytes =>
    ¬ Served net e ∧ bytes = serviceUnavailable
      ∨ Served net e ∧ ∃ candidates, e.2.candidates e.1 = .ok candidates
          ∧ FromBackend net e.1 candidates bytes

/-- For every request handled something or nothing has been sent, and this is all. -/
def Accounted (net : Network σ) (l : List (HttpRequest × ProxySession σ) × ProxySession σ) : Prop :=
  l.2.backendSocket = none
    ∧ ∃ answers, List.Forall₂ (SentFor net) l.1 answers ∧ l.2.sent = answers.reduceOption

/-- Handling a request keeps the account. -/
lemma Accounted.noting {net : Network σ} {request : HttpRequest}
    {l : List (HttpRequest × ProxySession σ) × ProxySession σ} (h : Accounted net l) :
    Accounted net (noting net request l).2 := by
  obtain ⟨handled, s⟩ := l
  obtain ⟨hsocket, answers, hall, hsent⟩ := h
  have hspec := handleRequest_spec net request (s := s) hsocket
  -- the account of one more request
  have hmore {a : Option Str} (ha : SentFor net (request, s) a) :
      List.Forall₂ (SentFor net) (handled ++ [(request, s)]) (answers ++ [a]) :=
    List.rel_append hall (.cons ha .nil)
  simp only [Session.noting]
  generalize handleRequest net request s = result at hspec
  cases hspec with
  | throws hc =>
    refine ⟨hsocket, answers ++ [none], hmore ?_, ?_⟩
    · rintro ⟨candidates, hc', -⟩
      rw [hc] at hc'
      cases hc'
    · simpa [List.reduceOption_append] using hsent
  | @unavailable candidates flow s' hc hno hflow hsocket' hsent' =>
    refine ⟨hsocket', answers ++ [some serviceUnavailable], hmore ?_, ?_⟩
    · refine .inl ⟨?_, rfl⟩
      rintro ⟨candidates', hc', hans⟩
      obtain rfl := Except.ok.inj (hc.symm.trans hc')
      exact hno hans
    · rw [hsent', hsent]
      simp [List.reduceOption_append]
  | @answered candidates bytes s' hc hans hfrom hsocket' hsent' =>
    refine ⟨hsocket', answers ++ [some bytes], hmore ?_, ?_⟩
    · exact .inr ⟨⟨candidates, hc, hans⟩, candidates, hc, hfrom⟩
    · rw [hsent', hsent]
      simp [List.reduceOption_append]

end

/-- The text of the 503 is longer than its content length. -/
lemma not_framed_serviceUnavailable : ¬ Framed serviceUnavailable := by
  rintro ⟨headerEnd, h⟩
  have hfound : find headerTerminator serviceUnavailable = some 52 := by decide
  obtain rfl : 52 = headerEnd := Option.some.inj (hfound.symm.trans h.found)
  have hlen := h.length_eq
  revert hlen
  decide

/-- The left side of a relation between lists has its partners on the right. -/
lemma exists_mem_of_forall₂ {α β : Type*} {R : α → β → Prop} {l : List α} {l' : List β}
    (h : List.Forall₂ R l l') {a : α} (ha : a ∈ l) : ∃ b ∈ l', R a b := by
  induction h with
  | nil => cases ha
  | @cons a' b' l l' hab _ ih =>
    rcases List.mem_cons.1 ha with rfl | ha
    · exact ⟨b', List.mem_cons_self, hab⟩
    · obtain ⟨b, hb, h⟩ := ih ha
      exact ⟨b, List.mem_cons_of_mem _ hb, h⟩

section
variable [StdHash]

/-- If every request is served, the bytes sent are one framed answer to each of them. -/
lemma forall₂_of_served {net : Network σ}
    (hframed : ∀ payload b w response,
      (reply net payload b w).1 = .answered response → Framed response.rawResponse)
    {handled : List (HttpRequest × ProxySession σ)} {answers : List (Option Str)}
    (hall : List.Forall₂ (SentFor net) handled answers) (hserved : ∀ e ∈ handled, Served net e) :
    List.Forall₂ (fun e bytes => AnswerTo net e.1 e.2 bytes ∧ Framed bytes) handled
      answers.reduceOption := by
  induction hall with
  | nil => exact .nil
  | @cons e a handled answers hea _ ih =>
    obtain ⟨he, hserved⟩ := List.forall_mem_cons.1 hserved
    cases a with
    | none => exact absurd he hea
    | some bytes =>
      rcases hea with ⟨hno, -⟩ | ⟨-, candidates, hc, hfrom⟩
      · exact absurd he hno
      · have hf : Framed bytes := by
          obtain ⟨b, -, w, response, hreply, rfl⟩ := hfrom
          exact hframed _ b w response hreply
        have hne : bytes ≠ [] := by
          obtain ⟨headerEnd, hf⟩ := hf
          exact List.length_pos_iff.1 hf.length_pos
        rw [List.reduceOption_cons_of_some]
        exact .cons ⟨.inr ⟨hne, candidates, hc, hfrom⟩, hf⟩ (ih hserved)

/-- If the answers of the backends carry the right content length, the bytes sent on a connection are
    one framed answer to each request, in order, exactly if every request that is handled has a
    candidate that answers it completely. -/
theorem framedAnswers_iff (net : Network σ)
    (hframed : ∀ payload b w response,
      (reply net payload b w).1 = .answered response → Framed response.rawResponse)
    (incoming : List Str) (r : Router) (world : σ) :
    FramedAnswers net (serve net incoming r world).1 (serve net incoming r world).2.sent
      ↔ ∀ e ∈ (serve net incoming r world).1, Served net e := by
  have hacc : Accounted net (serve net incoming r world) :=
    forwardTraffic_invariant (I := Accounted net) (fun _ _ h => h.noting) incoming
      ⟨rfl, [], .nil, rfl⟩
  generalize serve net incoming r world = l at hacc
  obtain ⟨handled, s⟩ := l
  obtain ⟨-, answers, hall, hsent⟩ := hacc
  simp only at hsent hall ⊢
  rw [hsent]
  constructor
  · rintro ⟨heach, -⟩ e he
    -- as many answers as requests, so that none is missing
    have hsome : ∀ a ∈ answers, Option.isSome a :=
      List.reduceOption_length_eq_iff.1 (heach.length_eq.symm.trans hall.length_eq)
    obtain ⟨a, ha, hsentFor⟩ := exists_mem_of_forall₂ hall he
    obtain ⟨bytes, rfl⟩ := Option.isSome_iff_exists.1 (hsome a ha)
    obtain ⟨e', -, -, hf⟩ := exists_mem_of_forall₂ heach.flip (List.reduceOption_mem_iff.2 ha)
    rcases hsentFor with ⟨-, rfl⟩ | ⟨hserved, -⟩
    · exact absurd hf not_framed_serviceUnavailable
    · exact hserved
  · intro hserved
    have heach := forall₂_of_served hframed hall hserved
    have hf : ∀ bytes ∈ answers.reduceOption, Framed bytes := by
      intro bytes hb
      obtain ⟨e, -, -, hf⟩ := exists_mem_of_forall₂ heach.flip hb
      exact hf
    obtain ⟨rs, hrs, hmap⟩ := parseAll_flatten hf (length_le_flatten hf)
    refine ⟨heach, rs, hrs, ?_⟩
    rw [heach.length_eq, ← hmap, List.length_map]

end

/-- A small response. -/
def okResponse : Str := "HTTP/1.1 200 OK\r\nContent-Length: 2\r\n\r\nhi".toList

/-- The world in which every backend answers every request with it. -/
def obliging : Network Unit := ⟨fun _ w => (true, w), fun _ _ w => ([okResponse], w)⟩

/-- Its answers are framed. -/
lemma framed_obliging (payload : Str) (b : Backend) (w : Unit) (response : HttpResponse)
    (h : (reply obliging payload b w).1 = .answered response) : Framed response.rawResponse := by
  have hreply : (reply obliging payload b w).1
      = .answered (readBackendResponse [] [okResponse]).response := rfl
  obtain rfl := Reply.answered.inj (hreply.symm.trans h)
  exact ⟨34, by decide, by decide, by decide, by decide⟩

section
attribute [local instance] djb2

/-- A write that nobody accepts, and another one behind it. -/
def twoPuts : Str :=
  "PUT /kvstore/a HTTP/1.1\r\nContent-Length: 1\r\n\r\nxPUT /kvstore/a HTTP/1.1\r\nContent-Length: 1\r\n\r\ny".toList

/-- The two writes in a world that answers them. -/
theorem framedAnswers_iff_obliging :
    FramedAnswers obliging (serve obliging [twoPuts] (initialRouter 1) ()).1
      (serve obliging [twoPuts] (initialRouter 1) ()).2.sent := by
  exact (framedAnswers_iff obliging framed_obliging [twoPuts] (initialRouter 1) ()).2
    (by decide +kernel)

/-- The answers of a connection are not always framed: after a failed write the session goes on, and
    what it has sent cannot be taken apart. -/
theorem misframed_unavailable :
    (serve silent [twoPuts] (initialRouter 1) ()).1.length = 2
      ∧ ¬ FramedAnswers silent (serve silent [twoPuts] (initialRouter 1) ()).1
          (serve silent [twoPuts] (initialRouter 1) ()).2.sent := by
  have hsent : (serve silent [twoPuts] (initialRouter 1) ()).1.length = 2
      ∧ (parseAll (serve silent [twoPuts] (initialRouter 1) ()).2.sent.flatten.length
        (serve silent [twoPuts] (initialRouter 1) ()).2.sent.flatten).isSome = false := by
    decide +kernel
  obtain ⟨htwo, hnone⟩ := hsent
  refine ⟨htwo, ?_⟩
  rintro ⟨-, rs, hrs, -⟩
  rw [hrs] at hnone
  cases hnone

end

end KvStore.Session
