import KvStore.Session.Answers

/-!
# Acknowledged writes

What a 200 or 201 to the client says about the replicas. The write path marks a backend DOWN when it
refuses the connection, but not when the connection breaks off or the write is rejected, and it
answers with the best status it has seen.

* `statusOf_foldl_markRefused`: the statuses after the write path.
* `foldl_keep_ok`: a 200 or 201 is kept once it has been seen.
* `acknowledged_iff`: when every live replica has applied an acknowledged write, exactly.
* `acknowledged_missed`: a replica that misses an acknowledged write and stays UP.
-/

namespace KvStore.Session
open KvStore.Lib KvStore.Ring KvStore.Http

variable {σ : Type*}

/-- The status of a response that reports success. -/
def IsSuccess (response : HttpResponse) : Prop :=
  response.statusCode = 200 ∨ response.statusCode = 201

instance (response : HttpResponse) : Decidable (IsSuccess response) :=
  inferInstanceAs (Decidable (response.statusCode = 200 ∨ response.statusCode = 201))

/-- The bytes are a complete 200 or 201 response. -/
def Acknowledges (bytes : Str) : Prop :=
  (parseHTTPResponse bytes).status = .complete ∧ IsSuccess (parseHTTPResponse bytes).response

instance (bytes : Str) : Decidable (Acknowledges bytes) :=
  inferInstanceAs (Decidable (_ ∧ _))

/-- The backend answered 200 or 201. -/
def Reply.Applied (r : Reply) : Prop := ∃ response, r = .answered response ∧ IsSuccess response

instance (r : Reply) : Decidable r.Applied :=
  match r with
  | .answered response => decidable_of_iff (IsSuccess response) ⟨fun h => ⟨response, rfl, h⟩,
      fun ⟨_, h, hs⟩ => Reply.answered.inj h ▸ hs⟩
  | .refused | .broken => isFalse nofun

/-- The backend answered 200 or 201, and so does the response when it is passed on. -/
def Reply.Reports (r : Reply) : Prop :=
  ∃ response, r = .answered response ∧ IsSuccess response ∧ Acknowledges response.rawResponse

/-- An answer that acknowledges when it is passed on reports success itself. -/
lemma isSuccess_of_acknowledges {net : Network σ} {payload : Str} {b : Backend} {w : σ}
    {response : HttpResponse} (h : (reply net payload b w).1 = .answered response)
    (hack : Acknowledges response.rawResponse) : IsSuccess response := by
  obtain ⟨buffer, hc, rfl⟩ := exists_buffer_of_answered h
  have hcode := statusCode_rawResponse hc hack.1
  exact hack.2.imp (fun h => hcode.symm.trans h) fun h => hcode.symm.trans h

/-- A response that acknowledges is not empty. -/
lemma Acknowledges.ne_nil {bytes : Str} (h : Acknowledges bytes) : bytes ≠ [] := by
  rintro rfl
  exact absurd h.1 (by decide)

/-- The 503 does not acknowledge. -/
lemma not_acknowledges_serviceUnavailable : ¬ Acknowledges serviceUnavailable := by decide

/-- What has been kept stays unless a later backend reports success. -/
lemma foldl_keep_of_ne_nil {l : List (Backend × Reply)} {p : Str} (hp : p ≠ [])
    (hl : ∀ e ∈ l, ¬ e.2.Applied) : l.foldl (fun p e => e.2.keep p) p = p := by
  induction l with
  | nil => rfl
  | cons e l ih =>
    obtain ⟨he, hl⟩ := List.forall_mem_cons.1 hl
    have hkeep : e.2.keep p = p := by
      cases h : e.2 with
      | refused | broken => rfl
      | answered response =>
        refine if_neg ?_
        rintro (hempty | hok)
        · exact hp (List.isEmpty_iff.1 hempty)
        · exact he ⟨response, h, hok⟩
    rw [List.foldl_cons, hkeep, ih hl]

/-- Once a backend has reported success, such a report is what is kept, unless one of them is
    empty. -/
lemma foldl_keep_ok {l : List (Backend × Reply)}
    (hne : ∀ e ∈ l, ∀ response, e.2 = .answered response → IsSuccess response →
      response.rawResponse ≠ []) (hok : ∃ e ∈ l, e.2.Applied) (p : Str) :
    ∃ e ∈ l, ∃ response, e.2 = .answered response ∧ IsSuccess response
      ∧ l.foldl (fun p e => e.2.keep p) p = response.rawResponse := by
  induction l generalizing p with
  | nil => simp at hok
  | cons e l ih =>
    obtain ⟨hne₁, hne⟩ := List.forall_mem_cons.1 hne
    rw [List.foldl_cons]
    by_cases hl : ∃ e ∈ l, e.2.Applied
    · obtain ⟨e', he', h⟩ := ih hne hl (e.2.keep p)
      exact ⟨e', List.mem_cons_of_mem _ he', h⟩
    · obtain ⟨e', he', response, hr, hs⟩ := hok
      rcases List.mem_cons.1 he' with rfl | he'
      · refine ⟨e', List.mem_cons_self, response, hr, hs, ?_⟩
        have hkeep : e'.2.keep p = response.rawResponse := by
          rw [hr]
          exact if_pos (.inr hs)
        rw [hkeep]
        exact foldl_keep_of_ne_nil (hne₁ response hr hs) fun e he ha => hl ⟨e, he, ha⟩
      · exact absurd ⟨e', he', response, hr, hs⟩ hl

section
variable [StdHash]

/-- The statuses after the write path: the ports that refused a connection are DOWN. -/
lemma statusOf_foldl_markRefused (l : List (Backend × Reply)) (r : Router) (port : ℤ) :
    (l.foldl markRefused r).statusOf port
      = if ∃ e ∈ l, e.2.isRefusal ∧ e.1.port = port then (r.statusOf port).map fun _ => .down
        else r.statusOf port := by
  induction l generalizing r with
  | nil => simp
  | cons e l ih =>
    have hmark : (markRefused r e).statusOf port
        = if e.2.isRefusal ∧ e.1.port = port then (r.statusOf port).map fun _ => .down
          else r.statusOf port := by
      unfold markRefused
      by_cases he : e.2.isRefusal = true
      · rw [if_pos he, Router.markBackendDown, ← Mark.ringStep, statusOf_ringStep,
          statusOf_setStatus]
        simp [he]
      · simp [he]
    rw [List.foldl_cons, ih, hmark]
    by_cases h1 : e.2.isRefusal = true ∧ e.1.port = port <;>
      by_cases h2 : ∃ e ∈ l, e.2.isRefusal = true ∧ e.1.port = port <;>
      simp [h1, h2, Option.map_map, Function.comp_def]

/-- The candidates of a write in a reachable router are its entries for their ports, and not DOWN. -/
lemma statusOf_candidate {backends : List Backend} {vnodes : ℕ} {r : Router}
    (hr : Router.Reachable backends vnodes r) {key : Str} {candidates : List Backend}
    (hc : r.getWriteBackendsForKey key 2 = .ok candidates) {b : Backend} (hb : b ∈ candidates) :
    ∃ status, r.statusOf b.port = some status ∧ status ≠ .down := by
  obtain ⟨hstatus, hserves⟩ := hr.statusOf_target hc hb
  refine ⟨b.status, hstatus, fun hdown => ?_⟩
  rw [hdown] at hserves
  cases hserves

/-- There are at most two candidates. -/
lemma length_candidates_le {r : Router} {key : Str} {candidates : List Backend}
    (hc : r.getWriteBackendsForKey key 2 = .ok candidates) : candidates.length ≤ 2 := by
  obtain ⟨-, rfl⟩ := targetsForKey_ok hc
  exact (List.length_filterMap_le _ _).trans (length_getNodes_le _ _ _)

end

/-- Of three members of a list with two places, the third is the first or the second. -/
lemma eq_of_length_le_two {α : Type*} {l : List α} (h : l.length ≤ 2) {a b c : α} (ha : a ∈ l)
    (hb : b ∈ l) (hc : c ∈ l) (hab : a ≠ b) (hcb : c ≠ b) : c = a := by
  match l, h with
  | [x], _ => simp_all
  | [x, y], _ =>
    simp only [List.mem_cons, List.not_mem_nil, or_false] at ha hb hc
    rcases ha with rfl | rfl <;> rcases hb with rfl | rfl <;> rcases hc with rfl | rfl <;>
      first | rfl | exact absurd rfl hab | exact absurd rfl hcb

/-- The backend has applied the write: it answered 200 or 201, or it was told to delete a key that it
    does not hold. -/
def HasApplied (request : HttpRequest) (holdsKey : Backend → Prop) (e : Backend × Reply) : Prop :=
  e.2.Applied ∨ request.method = "DELETE".toList ∧ ¬ holdsKey e.1

section
variable [StdHash]

/-- What the client gets for a write, and the router after it. -/
lemma write_result (net : Network σ) {request : HttpRequest} (hw : isWriteRequest request = true)
    {r : Router} (world : σ) (sent : List Str) {candidates : List Backend}
    (hc : r.getWriteBackendsForKey request.getKey 2 = .ok candidates) :
    let replies := (attempts net (requestPayload request) candidates world).1
    let result := (handleRequest net request (.idle r world sent)).2
    result.router = replies.foldl markRefused r
      ∧ result.sent = sent ++
        [if replies.any (·.2.isAnswer) then replies.foldl (fun p e => e.2.keep p) []
          else serviceUnavailable] := by
  have hcand : (ProxySession.idle r world sent).candidates request = .ok candidates := by
    rw [ProxySession.candidates, if_pos hw]
    exact hc
  unfold handleRequest
  rw [hcand]
  cases candidates with
  | nil => exact ⟨rfl, rfl⟩
  | cons backend candidates =>
    simp only [if_pos hw, handleWrite_eq net request _ (s := .idle r world sent) rfl]
    exact ⟨rfl, rfl⟩

/-- Every live candidate has applied an acknowledged write exactly if no candidate reported success,
    or each of them refused the connection or has applied the write. -/
theorem acknowledged_iff {backends : List Backend} {vnodes : ℕ} {r : Router}
    (hr : Router.Reachable backends vnodes r) (net : Network σ) {request : HttpRequest}
    (hw : isWriteRequest request = true) (world : σ) (sent : List Str)
    (holdsKey : Backend → Prop) {candidates : List Backend}
    (hc : r.getWriteBackendsForKey request.getKey 2 = .ok candidates) :
    let replies := (attempts net (requestPayload request) candidates world).1
    let result := (handleRequest net request (.idle r world sent)).2
    ((∃ bytes, result.sent = sent ++ [bytes] ∧ Acknowledges bytes) →
        ∀ e ∈ replies, result.router.statusOf e.1.port ≠ some .down →
          HasApplied request holdsKey e)
      ↔ (∀ e ∈ replies, ¬ e.2.Reports)
        ∨ ∀ e ∈ replies, (∃ e' ∈ replies, e'.2.isRefusal ∧ e'.1.port = e.1.port)
            ∨ HasApplied request holdsKey e := by
  intro replies result
  obtain ⟨hrouter, hsent⟩ : result.router = replies.foldl markRefused r ∧ _ :=
    write_result net hw world sent hc
  have hlen : replies.length ≤ 2 := by
    rw [← List.length_map Prod.fst, map_fst_attempts]
    exact length_candidates_le hc
  -- a candidate is DOWN afterwards exactly if its port has refused a connection
  have hdown {e} (he : e ∈ replies) : result.router.statusOf e.1.port = some .down
      ↔ ∃ e' ∈ replies, e'.2.isRefusal ∧ e'.1.port = e.1.port := by
    obtain ⟨hmem, -⟩ := exists_reply_of_mem_attempts he
    obtain ⟨status, hst, hne⟩ := statusOf_candidate hr hc hmem
    rw [hrouter, statusOf_foldl_markRefused, hst]
    split_ifs with h
    · exact iff_of_true rfl h
    · exact iff_of_false (by simpa using hne) h
  constructor
  · intro hprop
    by_contra hcond
    obtain ⟨hrep, hmiss⟩ := not_or.1 hcond
    simp only [not_forall, not_not, exists_prop] at hrep hmiss
    obtain ⟨e₁, he₁, hrep⟩ := hrep
    obtain ⟨e₂, he₂, hmiss⟩ := hmiss
    obtain ⟨hnoRefusal, hnot⟩ := not_or.1 hmiss
    -- the candidate that missed the write is not the one that reported success
    have happlied {e} (he : e ∈ replies) (ha : e.2.Applied) : e = e₁ := by
      obtain ⟨response, hr₁, hs₁, -⟩ := hrep
      refine eq_of_length_le_two hlen he₁ he₂ he ?_ ?_
      · rintro rfl
        exact hnot (.inl ⟨response, hr₁, hs₁⟩)
      · rintro rfl
        exact hnot (.inl ha)
    obtain ⟨response, hr₁, hs₁, hack⟩ := hrep
    have hraw {e} (he : e ∈ replies) {response'} (hr' : e.2 = .answered response')
        (hs' : IsSuccess response') : response' = response := by
      obtain rfl := happlied he ⟨response', hr', hs'⟩
      exact Reply.answered.inj (hr'.symm.trans hr₁)
    obtain ⟨e, he, response', hr', hs', hkeep⟩ := foldl_keep_ok (l := replies)
      (fun e he response' hr' hs' => hraw he hr' hs' ▸ hack.ne_nil)
      ⟨e₁, he₁, response, hr₁, hs₁⟩ []
    have hany : replies.any (·.2.isAnswer) = true :=
      List.any_eq_true.2 ⟨e₁, he₁, by rw [hr₁]; rfl⟩
    rw [if_pos hany, hkeep, hraw he hr' hs'] at hsent
    exact hnot (hprop ⟨_, hsent, hack⟩ e₂ he₂ fun hd => hnoRefusal ((hdown he₂).1 hd))
  · rintro (hno | hall) ⟨bytes, hbytes, hack⟩ e he hlive
    · exfalso
      have heq := List.append_cancel_left (hsent.symm.trans hbytes)
      rw [List.cons.injEq] at heq
      split_ifs at heq with hany
      · rcases foldl_keep_cases replies [] with ⟨-, hne | hnone⟩ | ⟨e', he', response, hr', hk⟩
        · exact hne rfl
        · obtain ⟨e', he', hans⟩ := List.any_eq_true.1 hany
          simp [hnone e' he'] at hans
        · rw [← heq.1, hk] at hack
          obtain ⟨-, w, hw'⟩ := exists_reply_of_mem_attempts he'
          exact hno e' he' ⟨response, hr', isSuccess_of_acknowledges (hw'.trans hr') hack, hack⟩
      · rw [← heq.1] at hack
        exact not_acknowledges_serviceUnavailable hack
    · rcases hall e he with href | happ
      · exact absurd ((hdown he).2 href) hlive
      · exact happ

end

/-- The world in which only the backend at one port answers, while the connections to the others
    break off. -/
def onlyAnswers (port : ℤ) : Network Unit :=
  ⟨fun _ w => (true, w), fun a _ w => (if a.2 = port then [okResponse] else [], w)⟩

/-- A request to write a key. -/
def putA : HttpRequest :=
  { method := "PUT".toList
    path := "/kvstore/a".toList
    version := "HTTP/1.1".toList
    body := "x".toList
    rawRequest := "PUT /kvstore/a HTTP/1.1\r\nContent-Length: 1\r\n\r\nx".toList }

section
attribute [local instance] djb2

/-- The candidates for the key of this request. -/
def candidatesA : List Backend :=
  ((initialRouter 1).getWriteBackendsForKey putA.getKey 2).toOption.getD []

/-- In a world where every backend answers, an acknowledged write is everywhere. -/
theorem acknowledged_iff_obliging :
    (initialRouter 1).getWriteBackendsForKey putA.getKey 2 = .ok candidatesA
      ∧ ∀ e ∈ (attempts obliging (requestPayload putA) candidatesA ()).1,
        (handleRequest obliging putA (.idle (initialRouter 1) () [])).2.router.statusOf e.1.port
          ≠ some .down → HasApplied putA (fun _ => False) e := by
  have hreach : Router.Reachable initialBackends 1 (initialRouter 1) := .new rfl
  have happlied : ∀ e ∈ (attempts obliging (requestPayload putA) candidatesA ()).1, e.2.Applied := by
    decide
  refine ⟨rfl, ?_⟩
  exact (acknowledged_iff hreach obliging rfl () [] (fun _ => False) rfl).2
    (.inr fun e he => .inr (.inl (happlied e he))) ⟨okResponse, rfl, by decide⟩

/-- Not every live replica has applied an acknowledged write: the one whose connection breaks off
    stays UP. -/
theorem acknowledged_missed :
    Router.Reachable initialBackends 1 (initialRouter 1)
      ∧ (initialRouter 1).getWriteBackendsForKey putA.getKey 2 = .ok candidatesA
      ∧ (let result := (handleRequest (onlyAnswers 9001) putA (.idle (initialRouter 1) () [])).2
        (∃ bytes, result.sent = [bytes] ∧ Acknowledges bytes)
          ∧ ∃ e ∈ (attempts (onlyAnswers 9001) (requestPayload putA) candidatesA ()).1,
              result.router.statusOf e.1.port ≠ some .down
                ∧ ∀ holdsKey, ¬ HasApplied putA holdsKey e) := by
  refine ⟨.new rfl, rfl, ⟨okResponse, rfl, by decide⟩,
    (⟨"127.0.0.1".toList, 9003, .up⟩, .broken), .head _, by decide, ?_⟩
  rintro holdsKey (h | ⟨h, -⟩)
  · exact absurd h (by decide)
  · exact absurd h (by decide)

end

end KvStore.Session
