import KvStore.Http.Fields
import KvStore.Session.Acknowledge

/-!
# Reads and the backends that answer them

A read asks its candidates in order until one of them has sent a complete response, and marks those
before it DOWN. Whether a response is complete is decided by the bytes alone: the parser does not
know that the response to a HEAD has no body, and without a `Content-Length` it takes what has
arrived so far for all of it.

* `arrivesWhole_iff`: the responses that are read in full.
* `relayed_iff`: exactly then does a backend stay in the ring, and the client gets the response.
* `not_relayed_head`: a HEAD takes healthy backends off the ring.
-/

namespace KvStore.Session
open KvStore.Lib KvStore.Ring KvStore.Http

variable {σ : Type*}

/-- What `recv` returns before the connection is closed. -/
def beforeClose (incoming : List Str) : List Str := incoming.takeWhile (· ≠ [])

/-- The candidates that the read path asks, with the world in which each of them is asked. -/
def asked (net : Network σ) (payload : Str) : List Backend → σ → List (Backend × σ)
  | [], _ => []
  | backend :: candidates, world =>
    (backend, world) ::
      if (reply net payload backend world).1.isAnswer then []
      else asked net payload candidates (reply net payload backend world).2

/-- The parser finds the end of the response where it is: its content length is right, or it has none
    and the end of its header section arrives with the last bytes. -/
def ArrivesWhole (pieces : List Str) : Prop :=
  Framed pieces.flatten
    ∨ pieces.flatten.length < sizes
      ∧ find headerTerminator pieces.dropLast.flatten = none
      ∧ ∃ headerEnd, find headerTerminator pieces.flatten = some headerEnd
          ∧ (scanHeaders (pieces.flatten.take headerEnd)).contentLengthFound = false

/-- Nothing is read after the connection has been closed. -/
lemma readBackendResponse_beforeClose (responseBuffer : Str) (incoming : List Str) :
    readBackendResponse responseBuffer (beforeClose incoming)
      = readBackendResponse responseBuffer incoming := by
  induction incoming generalizing responseBuffer with
  | nil => rfl
  | cons bytes incoming ih =>
    cases bytes with
    | nil =>
      have hclosed : beforeClose ([] :: incoming) = [] := rfl
      rw [hclosed, readBackendResponse, readBackendResponse]
      rfl
    | cons c bytes =>
      have hmore : beforeClose ((c :: bytes) :: incoming)
          = (c :: bytes) :: beforeClose incoming := rfl
      rw [hmore, readBackendResponse, readBackendResponse]
      simp only [List.isEmpty_cons, Bool.false_eq_true, if_false, ih]

/-- A response is read in full exactly if its bytes are a complete one and those before the last
    `recv` are not. -/
lemma readBackendResponse_whole (responseBuffer : Str) {pieces : List Str}
    (hne : ∀ bytes ∈ pieces, bytes ≠ []) :
    (readBackendResponse responseBuffer pieces).status = .complete
        ∧ (readBackendResponse responseBuffer pieces).response.rawResponse
          = responseBuffer ++ pieces.flatten
      ↔ ((parseHTTPResponse (responseBuffer ++ pieces.flatten)).status = .complete
          ∧ (parseHTTPResponse (responseBuffer ++ pieces.flatten)).response.rawResponse
            = responseBuffer ++ pieces.flatten)
        ∧ ∀ n < pieces.length,
            (parseHTTPResponse (responseBuffer ++ (pieces.take n).flatten)).status
              = .incomplete := by
  induction pieces generalizing responseBuffer with
  | nil =>
    simp only [List.flatten_nil, List.append_nil]
    rw [readBackendResponse]
    split_ifs with hs
    · refine iff_of_false (fun h => ?_) (fun h => ?_)
      · cases h.1
      · rw [hs] at h
        cases h.1.1
    · exact (and_iff_left fun n hn => absurd hn (Nat.not_lt_zero n)).symm
  | cons bytes pieces ih =>
    obtain ⟨hbytes, hrest⟩ := List.forall_mem_cons.1 hne
    rw [readBackendResponse_cons hbytes]
    split_ifs with hs
    · have hassoc (l : List Str) : responseBuffer ++ (bytes :: l).flatten
          = (responseBuffer ++ bytes) ++ l.flatten := by
        rw [List.flatten_cons, List.append_assoc]
      rw [hassoc, ih _ hrest]
      refine and_congr_right fun _ => ⟨fun h n hn => ?_, fun h n hn => ?_⟩
      · cases n with
        | zero => simpa using hs
        | succ n =>
          rw [List.take_succ_cons, hassoc]
          exact h n (Nat.lt_of_succ_lt_succ hn)
      · have := h (n + 1) (Nat.succ_lt_succ hn)
        rwa [List.take_succ_cons, hassoc] at this
    · -- what has arrived before these bytes is taken for the whole response
      refine iff_of_false ?_ fun h => hs (by simpa using h.2 0 (Nat.succ_pos _))
      rintro ⟨hc, hraw⟩
      obtain ⟨-, -, hpre, -⟩ := exists_header_of_complete hc
      have hle := hpre.length_le
      have hpos := List.length_pos_iff.2 hbytes
      rw [hraw, List.flatten_cons, List.length_append, List.length_append] at hle
      omega

/-- A text with a header section is a complete response if it is as long as the parser expects. -/
lemma parse_whole_iff {raw : Str} {headerEnd : ℕ} (hf : find headerTerminator raw = some headerEnd) :
    (parseHTTPResponse raw).status = .complete ∧ (parseHTTPResponse raw).response.rawResponse = raw
      ↔ (headerEnd + 4 + if (scanHeaders (raw.take headerEnd)).contentLengthFound then
            (scanHeaders (raw.take headerEnd)).contentLength
          else raw.length - (headerEnd + 4)) % sizes = raw.length := by
  simp only [parseHTTPResponse, hf]
  generalize (headerEnd + 4 + _) % sizes = total
  by_cases hlt : raw.length < total
  · rw [if_pos hlt]
    refine iff_of_false (fun h => ?_) (Nat.ne_of_gt hlt)
    cases h.1
  · rw [if_neg hlt]
    dsimp only
    rw [List.take_eq_self_iff, and_iff_right rfl]
    omega

/-- Without a content length every text with a header section is complete. -/
lemma complete_of_no_length {buffer : Str} {headerEnd : ℕ}
    (hf : find headerTerminator buffer = some headerEnd)
    (hno : (scanHeaders (buffer.take headerEnd)).contentLengthFound = false) :
    (parseHTTPResponse buffer).status = .complete := by
  have hlen := find_add_length_le hf
  have hle := Nat.mod_le (headerEnd + 4 + (buffer.length - (headerEnd + 4))) sizes
  have hterm : headerTerminator.length = 4 := rfl
  have hnot : ¬ buffer.length
      < (headerEnd + 4 + (buffer.length - (headerEnd + 4))) % sizes := by omega
  simp only [parseHTTPResponse, hf, hno, Bool.false_eq_true, if_false, if_neg hnot]

/-- What has been read and what is still to come. -/
lemma flatten_take_drop (pieces : List Str) (n : ℕ) :
    (pieces.take n).flatten ++ (pieces.drop n).flatten = pieces.flatten := by
  rw [← List.flatten_append, List.take_append_drop]

/-- Without a content length the response is read in full if its header section ends in the last
    piece. -/
lemma incomplete_iff_no_length {pieces : List Str} {headerEnd : ℕ}
    (hf : find headerTerminator pieces.flatten = some headerEnd)
    (hno : (scanHeaders (pieces.flatten.take headerEnd)).contentLengthFound = false) :
    (∀ n < pieces.length, (parseHTTPResponse (pieces.take n).flatten).status = .incomplete)
      ↔ find headerTerminator pieces.dropLast.flatten = none := by
  have hnone (n : ℕ) : (parseHTTPResponse (pieces.take n).flatten).status = .incomplete
      ↔ find headerTerminator (pieces.take n).flatten = none := by
    cases hn : find headerTerminator (pieces.take n).flatten with
    | none => exact iff_of_true (by rw [parseHTTPResponse, hn]) rfl
    | some i =>
      obtain rfl : i = headerEnd := by
        have := find_append hn (pieces.drop n).flatten
        rw [flatten_take_drop, hf] at this
        exact (Option.some.inj this).symm
      have hlen := find_add_length_le hn
      have htake : (pieces.take n).flatten.take i = pieces.flatten.take i := by
        rw [← flatten_take_drop pieces n, List.take_append_of_le_length (by omega)]
      refine iff_of_false (fun h => ?_) (Option.some_ne_none _)
      rw [complete_of_no_length hn (by rw [htake, hno])] at h
      cases h
  have hpieces : pieces ≠ [] := by
    rintro rfl
    cases hf
  have hpos := List.length_pos_iff.2 hpieces
  simp only [hnone]
  constructor
  · intro h
    rw [List.dropLast_eq_take]
    exact h _ (by omega)
  · intro h n hn
    have htake : pieces.take n = pieces.dropLast.take n := by
      rw [List.dropLast_eq_take, List.take_take, min_eq_left (Nat.le_sub_one_of_lt hn)]
    have hrest : (pieces.take n).flatten ++ (pieces.dropLast.drop n).flatten
        = pieces.dropLast.flatten := by
      rw [htake, flatten_take_drop]
    cases hn : find headerTerminator (pieces.take n).flatten with
    | none => rfl
    | some i =>
      have := find_append hn (pieces.dropLast.drop n).flatten
      rw [hrest, h] at this
      cases this

/-- The responses that are read in full. -/
lemma arrivesWhole_iff {pieces : List Str} (hne : ∀ bytes ∈ pieces, bytes ≠ []) :
    (readBackendResponse [] pieces).status = .complete
        ∧ (readBackendResponse [] pieces).response.rawResponse = pieces.flatten
      ↔ ArrivesWhole pieces := by
  have hwhole := readBackendResponse_whole [] hne
  simp only [List.nil_append] at hwhole
  rw [hwhole]
  have hsize : sizes = 18446744073709551616 := rfl
  cases hf : find headerTerminator pieces.flatten with
  | none =>
    refine iff_of_false ?_ ?_
    · rintro ⟨⟨hc, -⟩, -⟩
      obtain ⟨headerEnd, hfound, -⟩ := exists_header_of_complete hc
      cases hf.symm.trans hfound
    · rintro (⟨headerEnd, h⟩ | ⟨-, -, headerEnd, h, -⟩)
      · cases hf.symm.trans h.found
      · cases hf.symm.trans h
  | some headerEnd =>
    have hlen := find_add_length_le hf
    have hterm : headerTerminator.length = 4 := rfl
    have hsame {i : ℕ} (hi : find headerTerminator pieces.flatten = some i) : i = headerEnd :=
      (Option.some.inj (hf.symm.trans hi)).symm
    rw [parse_whole_iff hf]
    cases hs : (scanHeaders (pieces.flatten.take headerEnd)).contentLengthFound with
    | true =>
      rw [if_pos rfl]
      constructor
      · rintro ⟨htotal, -⟩
        have hcl := contentLength_lt (pieces.flatten.take headerEnd)
        rw [hsize] at htotal
        exact .inl ⟨headerEnd, hf, hs, by omega, by omega⟩
      · rintro (⟨i, h⟩ | ⟨-, -, i, hi, hno⟩)
        · obtain rfl := hsame h.found
          refine ⟨by rw [h.length_eq, Nat.mod_eq_of_lt h.length_lt], fun n hn => ?_⟩
          have hmore : (pieces.drop n).flatten ≠ [] := by
            rw [List.drop_eq_getElem_cons hn, List.flatten_cons]
            exact List.append_ne_nil_of_left_ne_nil (hne _ (List.getElem_mem hn)) _
          exact h.parse_incomplete hmore (flatten_take_drop pieces n)
        · rw [hsame hi, hs] at hno
          cases hno
    | false =>
      rw [incomplete_iff_no_length hf hs, if_neg nofun]
      constructor
      · rintro ⟨htotal, hlast⟩
        rw [hsize] at htotal
        exact .inr ⟨by omega, hlast, headerEnd, hf, hs⟩
      · rintro (⟨i, h⟩ | ⟨hlt, hlast, -⟩)
        · have hlength := h.hasLength
          rw [hsame h.found, hs] at hlength
          cases hlength
        · rw [hsize] at hlt ⊢
          exact ⟨by omega, hlast⟩

/-- The reply of a backend that accepts the connection. -/
lemma reply_connected {net : Network σ} {b : Backend} {w : σ}
    (hconn : (net.connect b.addr w).1 = true) (payload : Str) :
    let respResult := readBackendResponse [] (net.talk b.addr payload (net.connect b.addr w).2).1
    (reply net payload b w).1
      = if respResult.status = .complete then .answered respResult.response else .broken := by
  unfold reply
  rcases hcb : net.connect b.addr w with ⟨ok, w'⟩
  rw [hcb] at hconn
  obtain rfl : ok = true := hconn
  rfl

/-- A candidate that is asked answers and ends the search, or it is one of those that failed. -/
lemma of_mem_asked {net : Network σ} {payload : Str} {candidates : List Backend} {world w : σ}
    {b : Backend} (h : (b, w) ∈ asked net payload candidates world) :
    b ∈ candidates
      ∧ ((reply net payload b w).1.isAnswer = false
          ∧ b ∈ (firstAnswer net payload candidates world).2.1
        ∨ ∃ response post, (reply net payload b w).1 = .answered response
            ∧ (firstAnswer net payload candidates world).1 = some response
            ∧ candidates = (firstAnswer net payload candidates world).2.1 ++ b :: post) := by
  induction candidates generalizing world with
  | nil => cases h
  | cons backend candidates ih =>
    rw [asked] at h
    rcases hr : reply net payload backend world with ⟨r, world'⟩
    rw [hr] at h
    rcases List.mem_cons.1 h with he | h
    · obtain ⟨rfl, rfl⟩ := Prod.mk.inj he
      refine ⟨List.mem_cons_self, ?_⟩
      cases r with
      | answered response =>
        simp only [firstAnswer, hr]
        exact .inr ⟨response, candidates, rfl, rfl, rfl⟩
      | refused | broken =>
        simp only [firstAnswer, hr]
        exact .inl ⟨rfl, List.mem_cons_self⟩
    · cases r with
      | answered response => cases h
      | refused | broken =>
        simp only [firstAnswer, hr]
        obtain ⟨hmem, ⟨hno, hb⟩ | ⟨response, post, hans, hfound, hsplit⟩⟩ := ih h
        · exact ⟨List.mem_cons_of_mem _ hmem, .inl ⟨hno, List.mem_cons_of_mem _ hb⟩⟩
        · refine ⟨List.mem_cons_of_mem _ hmem, .inr ⟨response, post, hans, hfound, ?_⟩⟩
          rw [List.cons_append, ← hsplit]

section
variable [StdHash]

/-- The sessions in which the requests of a connection are handled are idle, and their routers are
    reachable. -/
lemma noted_reachable {backends : List Backend} {vnodes : ℕ} (net : Network σ)
    (incoming : List Str) {r : Router} (hr : Router.Reachable backends vnodes r) (world : σ)
    {e : HttpRequest × ProxySession σ} (he : e ∈ (serve net incoming r world).1) :
    e.2.backendSocket = none ∧ Router.Reachable backends vnodes e.2.router := by
  have hinv : (∀ e ∈ (serve net incoming r world).1,
        e.2.backendSocket = none ∧ Router.Reachable backends vnodes e.2.router)
      ∧ (serve net incoming r world).2.backendSocket = none
      ∧ Router.Reachable backends vnodes (serve net incoming r world).2.router := by
    refine forwardTraffic_invariant
      (I := fun l : List (HttpRequest × ProxySession σ) × ProxySession σ =>
        (∀ e ∈ l.1, e.2.backendSocket = none ∧ Router.Reachable backends vnodes e.2.router)
          ∧ l.2.backendSocket = none ∧ Router.Reachable backends vnodes l.2.router)
      ?_ incoming ⟨nofun, rfl, hr⟩
    rintro request ⟨handled, s⟩ ⟨hall, hsocket, hr⟩
    refine ⟨fun e he => ?_, handleRequest_reachable net request hsocket hr⟩
    rcases List.mem_append.1 he with he | he
    · exact hall e he
    · rw [List.mem_singleton.1 he]
      exact ⟨hsocket, hr⟩
  exact hinv.1 e he

/-- The statuses after some backends have been marked DOWN. -/
lemma statusOf_foldl_markBackendDown (l : List Backend) (r : Router) (port : ℤ) :
    (l.foldl (fun r b => r.markBackendDown b.port) r).statusOf port
      = if ∃ b ∈ l, b.port = port then (r.statusOf port).map fun _ => .down
        else r.statusOf port := by
  have hrefused : l.foldl (fun r b => r.markBackendDown b.port) r
      = (l.map fun b => (b, Reply.refused)).foldl markRefused r := by
    rw [List.foldl_map]
    rfl
  rw [hrefused, statusOf_foldl_markRefused]
  exact if_congr (by simp [Reply.isRefusal]) rfl rfl

/-- A read candidate that accepts the connection stays in the ring, and the client gets what it has
    sent, exactly if the parser finds the end of its response where it is. -/
theorem relayed_iff {backends : List Backend} {vnodes : ℕ} {r : Router}
    (hr : Router.Reachable backends vnodes r) (hports : (backends.map Backend.port).Nodup)
    (net : Network σ) (incoming : List Str) (world : σ) {e : HttpRequest × ProxySession σ}
    (he : e ∈ (serve net incoming r world).1) (hread : isWriteRequest e.1 = false)
    {candidates : List Backend} (hc : e.2.candidates e.1 = .ok candidates) {b : Backend} {w : σ}
    (hb : (b, w) ∈ asked net e.1.rawRequest candidates e.2.world)
    (hconn : (net.connect b.addr w).1 = true) :
    let pieces := beforeClose (net.talk b.addr e.1.rawRequest (net.connect b.addr w).2).1
    let result := (handleRequest net e.1 e.2).2
    result.router.statusOf b.port ≠ some .down ∧ result.sent = e.2.sent ++ [pieces.flatten]
      ↔ ArrivesWhole pieces := by
  intro pieces result
  obtain ⟨request, s⟩ := e
  obtain ⟨hsocket, hreach⟩ := noted_reachable net incoming hr world he
  dsimp only at hc hb hread hsocket hreach
  obtain ⟨hmem, hcases⟩ := of_mem_asked hb
  have hresult : result = (handleRead net request candidates s).2 := by
    show (handleRequest net request s).2 = _
    unfold handleRequest
    rw [hc]
    cases candidates with
    | nil => cases hmem
    | cons backend candidates => exact congrArg Prod.snd (if_neg (by simp [hread]))
  have hne : ∀ bytes ∈ pieces, bytes ≠ [] := fun bytes h => by simpa using List.mem_takeWhile_imp h
  rw [← arrivesWhole_iff hne, readBackendResponse_beforeClose, hresult,
    handleRead_eq net request candidates hsocket]
  -- the backend is UP when the request is routed
  have htargets : s.router.getReadBackendsForKey request.getKey 2 = .ok candidates := by
    rwa [ProxySession.candidates, hread] at hc
  have hup : s.router.statusOf b.port = some .up := by
    obtain ⟨hstatus, hserves⟩ := hreach.statusOf_target htargets hmem
    rw [hstatus, servesReads_iff.1 hserves]
  have hreply := reply_connected hconn request.rawRequest
  dsimp only
  rw [statusOf_foldl_markBackendDown, hup]
  rcases hcases with ⟨hno, hfailed⟩ | ⟨response, post, hans, hfound, hsplit⟩
  · -- it has not sent a complete response and is marked DOWN
    refine iff_of_false (fun h => ?_) (fun h => ?_)
    · exact h.1 (if_pos ⟨b, hfailed, rfl⟩)
    · rw [hreply, if_pos h.1] at hno
      cases hno
  · -- the candidates before it have other ports
    have hnd := hreach.nodup_targets hports htargets
    have hother : ¬ ∃ c ∈ (firstAnswer net request.rawRequest candidates s.world).2.1,
        c.port = b.port := by
      rintro ⟨c, hcmem, hport⟩
      rw [hsplit, List.map_append, List.map_cons] at hnd
      exact (List.nodup_append.1 hnd).2.2 _ (List.mem_map_of_mem hcmem) _ List.mem_cons_self hport
    rw [if_neg hother, hfound]
    rw [hreply] at hans
    split_ifs at hans with hcomplete
    obtain rfl := Reply.answered.inj hans
    have hne : some BackendStatus.up ≠ some .down := by decide
    rw [and_iff_right hcomplete, and_iff_right hne]
    exact ⟨fun h => List.singleton_inj.1 (List.append_cancel_left h), fun h => by rw [← h]; rfl⟩

end

/-- A request to read a key. -/
def getText : Str := "GET /kvstore/a HTTP/1.1\r\nHost: x\r\n\r\n".toList

/-- A request for the header section of the answer only. -/
def headText : Str := "HEAD /kvstore/a HTTP/1.1\r\nHost: x\r\n\r\n".toList

/-- What a server answers to it: the length of the body, but not the body. -/
def headResponse : Str := "HTTP/1.1 200 OK\r\nContent-Length: 2\r\n\r\n".toList

/-- The world in which every backend answers a HEAD. -/
def answersHead : Network Unit := ⟨fun _ w => (true, w), fun _ _ w => ([headResponse], w)⟩

section
attribute [local instance] djb2

/-- The candidates of a request, in a router with all backends. -/
def readCandidates (text : Str) : List Backend :=
  ((initialRouter 1).getReadBackendsForKey (parseHTTPRequest text).request.getKey 2).toOption.getD []

/-- A response of one piece is passed on, and its backend stays UP. -/
theorem relayed_iff_get :
    ∃ e ∈ (serve obliging [getText] (initialRouter 1) ()).1, ∃ b ∈ readCandidates getText,
      (handleRequest obliging e.1 e.2).2.router.statusOf b.port ≠ some .down
        ∧ (handleRequest obliging e.1 e.2).2.sent = e.2.sent ++ [okResponse] := by
  have hreach : Router.Reachable initialBackends 1 (initialRouter 1) := .new rfl
  have hwhole : ArrivesWhole [okResponse] :=
    .inl ⟨34, by decide, by decide, by decide, by decide⟩
  have hcarries : Carries [getText] (parseHTTPRequest getText).request :=
    ⟨by decide +kernel, by decide +kernel, rfl, by decide +kernel⟩
  have hnoted : ((parseHTTPRequest getText).request, .idle (initialRouter 1) () [])
      ∈ (serve obliging [getText] (initialRouter 1) ()).1 := by
    rw [serve, (forwardTraffic_carries (noting obliging) hcarries _).1]
    exact List.mem_singleton.2 rfl
  have hread : isWriteRequest (parseHTTPRequest getText).request = false := by decide +kernel
  have hcand : (ProxySession.idle (initialRouter 1) () []).candidates
      (parseHTTPRequest getText).request = .ok (readCandidates getText) := by
    decide +kernel
  have hasked : ((⟨"127.0.0.1".toList, 9003, .up⟩ : Backend), ())
      ∈ asked obliging (parseHTTPRequest getText).request.rawRequest (readCandidates getText) () := by
    decide +kernel
  refine ⟨_, hnoted, _, (of_mem_asked hasked).1, ?_⟩
  exact (relayed_iff hreach (by decide) obliging [getText] () hnoted hread hcand hasked rfl).2 hwhole

/-- A backend that answers completely is not always kept: after a HEAD both backends of the key are
    DOWN, and the client gets a 503. -/
theorem not_relayed_head :
    (readCandidates headText).length = 2
      ∧ (∀ b ∈ readCandidates headText,
        (serve answersHead [headText] (initialRouter 1) ()).2.router.statusOf b.port = some .down)
      ∧ (serve answersHead [headText] (initialRouter 1) ()).2.sent = [serviceUnavailable] := by
  refine ⟨?_, ?_, ?_⟩ <;> decide +kernel

end

end KvStore.Session
