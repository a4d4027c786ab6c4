import KvStore.Http.ContentLength
import KvStore.Session.Stream

/-!
# Pipelined requests

Requests that are printed one after the other are taken apart again, whatever bytes their bodies
consist of.

* `ClientRequest.parse_append`: a printed request is parsed back, whatever follows it.
* `pipelined_round_trip`: so is a list of them, and no proper prefix of one is complete.
* `forwardTraffic_pipelined`: a session handles each of them, in whatever pieces they arrive.
-/

namespace KvStore.Session
open KvStore.Lib KvStore.Http

/-- The line mentions no content length in a spelling that the parser searches for. -/
def NoMention (line : Str) : Prop := ¬ upperLength <:+: line ∧ ¬ lowerLength <:+: line

/-- The header line that announces a body. -/
def contentLengthLine (body : Str) : Str :=
  fieldLine ("Content-Length".toList, decimal body.length)

/-- The only mention of a content length is a header line with the length of the body, or there is
    none and the body is empty. -/
inductive AnnouncesBody (start body : Str) : List Str → Prop where
  | length {before after} :
    (∀ line ∈ start :: (before ++ after), NoMention line) →
    AnnouncesBody start body (before ++ contentLengthLine body :: after)
  | none {headers} :
    body = [] →
    (∀ line ∈ start :: headers, NoMention line) →
    AnnouncesBody start body headers

/-- The length of the body is read from the header section. -/
lemma AnnouncesBody.getContentLength {start body : Str} {headers : List Str}
    (h : AnnouncesBody start body headers) (hlt : body.length < 2 ^ 63) :
    Http.getContentLength (headerSection start headers) = body.length := by
  rw [getContentLength_headerSection]
  cases h with
  | @length before after hnone =>
    have hlines : start :: (before ++ contentLengthLine body :: after)
        = (start :: before) ++ (upperLength ++ ' ' :: decimal body.length) :: after := rfl
    have hbefore : ∀ line ∈ start :: before, ¬ upperLength <:+: line := fun line hl =>
      (hnone line (List.mem_cons.2 ((List.mem_cons.1 hl).imp_right (List.mem_append_left after)))).1
    rw [← digitsValue_decimal body.length] at hlt
    rw [lengthText, hlines, findSome?_textAfter hbefore, Option.some_or, Option.map_some,
      Option.getD_some, lengthAfter, fromChars_value (isDecimal_decimal _) hlt, Option.getD_some,
      digitsValue_decimal]
  | none hbody hnone =>
    rw [lengthText, findSome?_textAfter_eq_none fun line hl => (hnone line hl).1,
      findSome?_textAfter_eq_none fun line hl => (hnone line hl).2, hbody]
    rfl

/-- A request as a client means it. -/
structure ClientRequest where
  method : Str
  path : Str
  version : Str
  headers : List Str
  body : Str
  method_noBlank : ' ' ∉ method
  path_noBlank : ' ' ∉ path
  isLine_start : IsLine (requestLine method path version)
  headers_ne_nil : headers ≠ []
  isLine_headers : ∀ line ∈ headers, IsLine line
  announced : AnnouncesBody (requestLine method path version) body headers
  -- the body is a `std::string`
  body_lt : body.length < 2 ^ 63

namespace ClientRequest
variable (r : ClientRequest)

/-- The request line. -/
def start : Str := requestLine r.method r.path r.version

/-- The bytes of the request. -/
def print : Str := (r.start :: r.headers).flatMap (· ++ crlf) ++ (crlf ++ r.body)

/-- What the parser should make of it. -/
def parsed : HttpRequest :=
  { method := r.method, path := r.path, version := r.version, body := r.body, rawRequest := r.print }

/-- The header section comes first, then the body. -/
lemma print_eq : r.print = headerSection r.start r.headers ++ (headerTerminator ++ r.body) :=
  printed_headerSection r.start r.headers r.body

/-- The length of what is printed. -/
lemma length_print : r.print.length
    = (headerSection r.start r.headers).length + 4 + r.body.length := by
  have hterminator : headerTerminator.length = 4 := rfl
  rw [print_eq, List.length_append, List.length_append, hterminator, Nat.add_assoc]

/-- A printed request is parsed back, whatever follows it. -/
theorem parse_append (t : Str) :
    parseHTTPRequest (r.print ++ t) = makeComplete r.parsed r.print.length := by
  have hlines : ∀ line ∈ r.headers, line ≠ [] ∧ '\r' ∉ line := fun line hl =>
    ⟨(r.isLine_headers line hl).ne_nil, (r.isLine_headers line hl).noCR⟩
  have hfound := find_headerSection r.isLine_start.noCR hlines (r.body ++ t)
  have hline := readRequestLine_headerSection r.method_noBlank r.path_noBlank r.isLine_start.noCR
    r.headers_ne_nil
  have hparse := parseHTTPRequest_head hfound hline (r.announced.getContentLength r.body_lt)
  rw [if_neg (by rw [List.length_append]; omega), List.take_left] at hparse
  rw [parsed, length_print, print_eq, List.append_assoc, List.append_assoc]
  exact hparse

/-- A part of a printed request is not complete. -/
lemma parse_incomplete {p t : Str} (ht : t ≠ []) (h : p ++ t = r.print) :
    (parseHTTPRequest p).status = .incomplete := by
  by_contra hs
  -- then the whole request would be parsed with no more bytes than `p` has
  have hwhole := parseHTTPRequest_append hs t
  have hparse := r.parse_append []
  rw [List.append_nil] at hparse
  rw [h, hparse] at hwhole
  have hcomplete : (parseHTTPRequest p).status = .complete := by rw [← hwhole, makeComplete]
  have hconsumed : (parseHTTPRequest p).consumed = p.length + t.length := by
    rw [← hwhole, makeComplete, ← h, List.length_append]
  have hle := consumed_le hcomplete
  have hpos := List.length_pos_iff.2 ht
  omega

end ClientRequest

/-- Printed requests are taken apart again until nothing is left. -/
lemma areRequests_print (rs : List ClientRequest) :
    AreRequests (rs.map ClientRequest.print).flatten (rs.map ClientRequest.parsed) := by
  induction rs with
  | nil => exact .nil
  | cons r rs ih =>
    have hparse := r.parse_append (rs.map ClientRequest.print).flatten
    rw [List.map_cons, List.flatten_cons, List.map_cons]
    have hrequest : r.parsed
        = (parseHTTPRequest (r.print ++ (rs.map ClientRequest.print).flatten)).request := by
      rw [hparse, makeComplete]
    rw [hrequest]
    apply AreRequests.cons
    · rw [hparse, makeComplete]
    · rw [hparse, makeComplete, List.drop_left]
      exact ih

/-- A list of printed requests is taken apart again until nothing is left, and a proper prefix of one
    of them is not complete. -/
theorem pipelined_round_trip (rs : List ClientRequest) :
    AreRequests (rs.map ClientRequest.print).flatten (rs.map ClientRequest.parsed)
      ∧ ∀ r : ClientRequest, ∀ p t, t ≠ [] → p ++ t = r.print →
        (parseHTTPRequest p).status = .incomplete :=
  ⟨areRequests_print rs, fun r _ _ ht h => r.parse_incomplete ht h⟩

/-- A create whose value looks like another request. -/
def createLookalike : ClientRequest where
  method := "POST".toList
  path := "/kvstore/create".toList
  version := "HTTP/1.1".toList
  headers := [contentLengthLine "a GET / x".toList, "Host: x".toList]
  body := "a GET / x".toList
  method_noBlank := by decide
  path_noBlank := by decide
  isLine_start := ⟨by decide, by decide, by decide⟩
  headers_ne_nil := nofun
  isLine_headers := List.forall_mem_cons.2
    ⟨⟨by decide +kernel, by decide +kernel, by decide +kernel⟩,
      List.forall_mem_singleton.2 ⟨by decide, by decide, by decide⟩⟩
  announced := @AnnouncesBody.length _ _ [] ["Host: x".toList]
    (List.forall_mem_cons.2 ⟨⟨by decide +kernel, by decide +kernel⟩,
      List.forall_mem_singleton.2 ⟨by decide +kernel, by decide +kernel⟩⟩)
  body_lt := by decide

example : createLookalike.print
    = "POST /kvstore/create HTTP/1.1\r\nContent-Length: 9\r\nHost: x\r\n\r\na GET / x".toList := by
  decide +kernel

/-- A session handles each of them, in whatever pieces they arrive. -/
theorem forwardTraffic_pipelined {σ : Type*} (handle : HttpRequest → σ → Flow × σ)
    {incoming : List Str} (hne : [] ∉ incoming) {rs : List ClientRequest}
    (h : incoming.flatten = (rs.map ClientRequest.print).flatten) (s : σ) :
    (forwardTraffic handle incoming s).session
      = (handleAll handle (rs.map ClientRequest.parsed) s).1 :=
  (forwardTraffic_requests handle hne (h ▸ areRequests_print rs) s).1

end KvStore.Session
