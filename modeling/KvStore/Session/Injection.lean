import KvStore.Http.ContentLength
import KvStore.Session.Forward

/-!
# The injected header

A PUT is forwarded with one more header line after its request line. What the parser reads from it
does not change otherwise (`injection_preserves`): the insertion point is the end of the request line,
which the end of the header section cannot be, and the new line mentions no content length.
-/

namespace KvStore.Session
open KvStore.Lib KvStore.Http

/-- The header that marks a request as one of the balancer's. -/
def replicationLine : Str := "X-Internal-Replication: true".toList

/-- A header section with the injected header after its first line. -/
def withReplication (line rest : Str) : Str := line ++ (crlf ++ (replicationLine ++ (crlf ++ rest)))

/-- Where the first line ends does not depend on what follows it. -/
lemma find_crlf_of_find {a b : Str} (h : find crlf (a ++ (crlf ++ b)) = some a.length) (b' : Str) :
    find crlf (a ++ (crlf ++ b')) = some a.length := by
  have hline : (a ++ (crlf ++ b)).take (a.length + 2) = a ++ crlf := by
    rw [← List.append_assoc]
    exact List.take_left' (List.length_append ..)
  have hfound := find_take h (n := a.length + 2) le_rfl
  rw [hline] at hfound
  rw [← List.append_assoc]
  exact find_append hfound b'

/-- The first line is read alone. -/
lemma readRequestLine_congr {a b : Str} (h : find crlf (a ++ (crlf ++ b)) = some a.length) (b' : Str) :
    readRequestLine (a ++ (crlf ++ b')) = readRequestLine (a ++ (crlf ++ b)) := by
  simp only [readRequestLine, h, find_crlf_of_find h b', List.take_left]

/-- A request line that is read ends with a line end. -/
lemma exists_line_of_ok {head : Str} {request : HttpRequest} (h : readRequestLine head = .ok request) :
    ∃ line rest, head = line ++ (crlf ++ rest)
      ∧ find crlf (line ++ (crlf ++ rest)) = some line.length := by
  cases hfound : find crlf head with
  | none =>
    rw [readRequestLine, hfound] at h
    cases h
  | some lineEnd =>
    have hsplit := eq_of_find hfound
    have hlen := find_add_length_le hfound
    refine ⟨head.take lineEnd, head.drop (lineEnd + crlf.length), hsplit, ?_⟩
    rw [← hsplit, hfound, List.length_take_of_le (by omega)]

/-- The injected header does not change the content length. -/
lemma getContentLength_withReplication (line rest : Str) :
    getContentLength (withReplication line rest) = getContentLength (line ++ (crlf ++ rest)) := by
  have hsection : line ++ (crlf ++ rest) = headerSection line [rest] := by
    rw [headerSection_cons, headerSection_nil]
  have hsection' : withReplication line rest = headerSection line [replicationLine, rest] := by
    rw [headerSection_cons, headerSection_cons, headerSection_nil, withReplication]
  have hupper : textAfter upperLength replicationLine = none := by decide
  have hlower : textAfter lowerLength replicationLine = none := by decide
  rw [hsection, hsection', getContentLength_headerSection, getContentLength_headerSection]
  simp only [lengthText, List.findSome?_cons, hupper, hlower]

/-- The header section ends where it did, behind the injected header. -/
lemma find_withReplication {line rest t : Str}
    (hline : find crlf (line ++ (crlf ++ rest)) = some line.length)
    (hfound : find headerTerminator ((line ++ (crlf ++ rest)) ++ t)
      = some (line ++ (crlf ++ rest)).length) :
    find headerTerminator (withReplication line rest ++ t)
      = some (withReplication line rest).length := by
  have hcrlf : crlf.length = 2 := rfl
  have hassoc : (line ++ (crlf ++ rest)) ++ t = line ++ (crlf ++ (rest ++ t)) := by
    simp only [List.append_assoc]
  have hassoc' : withReplication line rest ++ t
      = line ++ (crlf ++ (replicationLine ++ (crlf ++ (rest ++ t)))) := by
    simp only [withReplication, List.append_assoc]
  rw [hassoc] at hfound
  -- the blank line does not begin at the end of the first line
  have hnot : ¬ crlf <+: rest ++ t := by
    intro hp
    obtain ⟨-, -, hfirst⟩ := find_eq_some.1 hfound
    have hterminator : headerTerminator = crlf ++ crlf := rfl
    refine hfirst line.length (by rw [List.length_append, List.length_append]; omega) ?_
    rw [List.drop_left, hterminator]
    exact (List.prefix_append_right_inj crlf).2 hp
  have hrest : find headerTerminator (rest ++ t) = some rest.length := by
    rw [find_terminator_line (find_crlf_of_find hline _) hnot] at hfound
    obtain ⟨i, hi, hsum⟩ := Option.map_eq_some_iff.1 hfound
    rw [List.length_append, List.length_append, hcrlf] at hsum
    obtain rfl : i = rest.length := by omega
    exact hi
  have hinjected : ¬ crlf <+: replicationLine ++ (crlf ++ (rest ++ t)) := fun hp => by
    cases (List.cons_prefix_cons.1 hp).1
  rw [hassoc', find_terminator_line (find_crlf_of_find hline _) hinjected,
    find_terminator_line (find_crlf (by decide) _) hnot, hrest]
  simp only [Option.map_some, withReplication, List.length_append, hcrlf, Option.some.injEq]
  omega

/-- The payload of a PUT: the request with the injected header. -/
lemma requestPayload_eq {request : HttpRequest} {line rest t : Str}
    (hput : request.method = "PUT".toList)
    (hraw : request.rawRequest = (line ++ (crlf ++ rest)) ++ t)
    (hline : find crlf (line ++ (crlf ++ rest)) = some line.length) :
    requestPayload request = withReplication line rest ++ t := by
  have hcrlf : crlf.length = 2 := rfl
  have hfound : find crlf request.rawRequest = some line.length := by
    rw [hraw]
    exact find_append hline t
  have htext : "X-Internal-Replication: true\r\n".toList = replicationLine ++ crlf := rfl
  have hassoc : request.rawRequest = line ++ (crlf ++ (rest ++ t)) := by
    rw [hraw]
    simp only [List.append_assoc]
  have htake : request.rawRequest.take (line.length + 2) = line ++ crlf := by
    rw [hassoc, List.take_length_add_append, ← hcrlf, List.take_left]
  have hdrop : request.rawRequest.drop (line.length + 2) = rest ++ t := by
    rw [hassoc, ← List.drop_drop, List.drop_left, ← hcrlf, List.drop_left]
  rw [requestPayload, if_pos hput, hfound]
  simp only [htake, hdrop, htext, withReplication, List.append_assoc]

/-- The payload of a PUT that was parsed: the header section with the injected header, which ends
    where it should, and what follows it. -/
lemma exists_withReplication {buffer : Str} {headerEnd bodyLength : ℕ} {request : HttpRequest}
    (hc : Complete buffer headerEnd request bodyLength)
    (hput : (parseHTTPRequest buffer).request.method = "PUT".toList) :
    let tail := headerTerminator ++ substr buffer (headerEnd + 4) bodyLength
    ∃ line rest, buffer.take headerEnd = line ++ (crlf ++ rest)
      ∧ find crlf (line ++ (crlf ++ rest)) = some line.length
      ∧ requestPayload (parseHTTPRequest buffer).request = withReplication line rest ++ tail
      ∧ find headerTerminator (withReplication line rest ++ tail)
        = some (withReplication line rest).length := by
  intro tail
  obtain ⟨line, rest, hhead, hline⟩ := exists_line_of_ok hc.line
  have hterminator : headerTerminator.length = 4 := rfl
  have henough := hc.enough
  have hlen : (line ++ (crlf ++ rest)).length = headerEnd := by
    rw [← hhead, List.length_take_of_le (by omega)]
  have hparts : buffer.take (headerEnd + 4 + bodyLength) = (line ++ (crlf ++ rest)) ++ tail := by
    rw [take_parts hc.found, hhead, List.append_assoc]
  have hraw : (parseHTTPRequest buffer).request.rawRequest = (line ++ (crlf ++ rest)) ++ tail := by
    rw [hc.parse_eq, ← hparts]
    rfl
  have hfound : find headerTerminator ((line ++ (crlf ++ rest)) ++ tail)
      = some (line ++ (crlf ++ rest)).length := by
    rw [← hparts, hlen]
    exact find_take hc.found (by omega)
  exact ⟨line, rest, hhead, hline, requestPayload_eq hput hraw hline,
    find_withReplication hline hfound⟩

/-- The payload of a PUT that was parsed is parsed as the same request, to its end. Its header section
    has the injected header after the request line and then what the request has there. -/
theorem injection_preserves {buffer : Str} (h : (parseHTTPRequest buffer).status = .complete)
    (hput : (parseHTTPRequest buffer).request.method = "PUT".toList) :
    let result := parseHTTPRequest buffer
    let payload := requestPayload result.request
    parseHTTPRequest payload
        = makeComplete { result.request with rawRequest := payload } payload.length
      ∧ payload.length = result.consumed + 30
      ∧ ∃ line rest,
        find crlf (line ++ (crlf ++ rest)) = some line.length
          ∧ find headerTerminator buffer = some (line ++ (crlf ++ rest)).length
          ∧ line ++ (crlf ++ rest) <+: buffer
          ∧ find headerTerminator payload = some (withReplication line rest).length
          ∧ withReplication line rest <+: payload := by
  intro result payload
  obtain ⟨headerEnd, request, bodyLength, hc⟩ := exists_complete h
  obtain ⟨line, rest, hhead, hline, hpayload, hfound⟩ := exists_withReplication hc hput
  have hterminator : headerTerminator.length = 4 := rfl
  have henough := hc.enough
  have hlen : (line ++ (crlf ++ rest)).length = headerEnd := by
    rw [← hhead, List.length_take_of_le (by omega)]
  have hresult : result = _ := hc.parse_eq
  generalize hbody : substr buffer (headerEnd + 4) bodyLength = body at hresult hpayload hfound
  have hbodyLength : body.length = bodyLength := by
    rw [← hbody, substr, List.length_take_of_le (by rw [List.length_drop]; omega)]
  have hpayload : payload = withReplication line rest ++ (headerTerminator ++ body) := hpayload
  have hrequest : readRequestLine (withReplication line rest) = .ok request := by
    rw [withReplication, readRequestLine_congr hline, ← hhead, hc.line]
  have hlength : getContentLength (withReplication line rest) = bodyLength := by
    rw [getContentLength_withReplication, ← hhead, hc.length_eq]
  have hpayloadLength : payload.length = (withReplication line rest).length + 4 + bodyLength := by
    rw [hpayload, List.length_append, List.length_append, hterminator, hbodyLength, Nat.add_assoc]
  refine ⟨?_, ?_, line, rest, hline, by rw [hc.found, hlen], ?_, by rw [hpayload, hfound], ?_⟩
  · have hparse := parseHTTPRequest_head hfound hrequest hlength
    rw [if_neg (by omega), ← hbodyLength, List.take_length, hbodyLength, ← hpayload,
      ← hpayloadLength] at hparse
    rw [hparse, hresult]
    rfl
  · have hcrlf : crlf.length = 2 := rfl
    have hinjected : replicationLine.length = 28 := rfl
    have hconsumed : result.consumed = headerEnd + 4 + bodyLength := by
      rw [hresult]
      rfl
    rw [hpayloadLength, hconsumed, ← hlen]
    simp only [withReplication, List.length_append, hcrlf, hinjected]
    omega
  · rw [← hhead]
    exact List.take_prefix _ _
  · rw [hpayload]
    exact List.prefix_append _ _

/-- A client's update of the key `a`. -/
def updateText : Str := "PUT /kvstore/a HTTP/1.1\r\nContent-Length: 1\r\n\r\nx".toList

/-- An update before and after it has been marked. -/
theorem injection_preserves_updateText :
    let result := parseHTTPRequest updateText
    let payload := requestPayload result.request
    parseHTTPRequest payload
        = makeComplete { result.request with rawRequest := payload } payload.length
      ∧ payload.length = result.consumed + 30
      ∧ ∃ line rest,
        find crlf (line ++ (crlf ++ rest)) = some line.length
          ∧ find headerTerminator updateText = some (line ++ (crlf ++ rest)).length
          ∧ line ++ (crlf ++ rest) <+: updateText
          ∧ find headerTerminator payload = some (withReplication line rest).length
          ∧ withReplication line rest <+: payload :=
  injection_preserves (by decide +kernel) (by decide +kernel)

end KvStore.Session
