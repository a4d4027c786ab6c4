import KvStore.Lib.Scan

/-!
# Parsing requests

`parseHTTPRequest` of `HttpHelper.cpp` and `HttpRequest::getKey` of `HttpParser.h`. Sizes are
natural numbers: a `std::string` holds fewer than `2 ^ 63` bytes and a `long long` is below `2 ^ 63`,
so the sum of the header length and the content length does not wrap (`totalRequiredLength_lt`).

* `consumed_pos`, `consumed_le`, `rawRequest_eq`: a complete request takes at least one and at most
  all bytes of the buffer, and `rawRequest` are these bytes.
* `parseHTTPRequest_append`: bytes that arrive later do not change a result that is complete or an
  error.
-/

namespace KvStore.Http
open KvStore.Lib

/-- The outcome of parsing a buffer. -/
inductive HttpParseStatus where
  | complete
  | incomplete
  | error
deriving DecidableEq, Repr

/-- A client request. The parser leaves the header map of the source empty, so it is left out. -/
structure HttpRequest where
  method : Str := []
  path : Str := []
  version : Str := []
  body : Str := []
  rawRequest : Str := []
deriving DecidableEq, Repr

/-- The result of `parseHTTPRequest`. -/
structure HttpParseResult where
  status : HttpParseStatus
  request : HttpRequest := {}
  error : Str := []
  consumed : ℕ := 0
deriving DecidableEq, Repr

/-- A line end of HTTP. -/
def crlf : Str := "\r\n".toList

/-- The end of a header section. -/
def headerTerminator : Str := "\r\n\r\n".toList

/-- `getContentLength`: the number after the first `Content-Length:` of the headers, or else the
    first `content-length:`, and 0 when there is none or it cannot be read. -/
def getContentLength (headers : Str) : ℤ :=
  match (find "Content-Length:".toList headers).or (find "content-length:".toList headers) with
  | none => 0
  | some idx => (fromChars ((headers.drop (idx + 15)).dropWhile isBlank)).getD 0

/-- `makeComplete`. -/
def makeComplete (request : HttpRequest) (consumed : ℕ) : HttpParseResult :=
  { status := .complete, request := request, consumed := consumed }

/-- `makeIncomplete`. -/
def makeIncomplete : HttpParseResult := { status := .incomplete }

/-- `makeError`. -/
def makeError (error : Str) : HttpParseResult := { status := .error, error := error }

/-- The part of `parseHTTPRequest` that reads the request line of a header section. -/
def readRequestLine (headerSection : Str) : Except Str HttpRequest :=
  match find crlf headerSection with
  | none => .error "Malformed HTTP Request Line".toList
  | some lineEnd =>
    let requestLine := headerSection.take lineEnd
    match find " ".toList requestLine with
    | none => .error "Invalid request lineStructure".toList
    | some space1 =>
      match findFrom " ".toList requestLine (space1 + 1) with
      | none => .error "Invalid request lineStructure".toList
      | some space2 =>
        .ok
          { method := requestLine.take space1
            path := substr requestLine (space1 + 1) (space2 - space1 - 1)
            version := requestLine.drop (space2 + 1) }

/-- `parseHTTPRequest`. -/
def parseHTTPRequest (buffer : Str) : HttpParseResult :=
  match find headerTerminator buffer with
  | none => makeIncomplete
  | some headerEnd =>
    let headerLength := headerEnd + 4
    let headerSection := buffer.take headerEnd
    match readRequestLine headerSection with
    | .error e => makeError e
    | .ok request =>
      let expectedContentLength := getContentLength headerSection
      if expectedContentLength < 0 then makeError "Invalid Content-Length header".toList
      else
        let totalRequiredLength := headerLength + expectedContentLength.toNat
        if buffer.length < totalRequiredLength then makeIncomplete
        else
          makeComplete
            { request with
              rawRequest := buffer.take totalRequiredLength
              body := substr buffer headerLength expectedContentLength.toNat }
            totalRequiredLength

/-- `HttpRequest::getKey`. -/
def HttpRequest.getKey (r : HttpRequest) : Str :=
  if r.path = "/kvstore/create".toList ∧ r.body ≠ [] then
    match find " ".toList r.body with
    | some spacePos => r.body.take spacePos
    | none => r.body
  else
    -- the part after the last slash, if there is one and it is not empty
    let last := afterLast '/' r.path
    if '/' ∈ r.path ∧ last ≠ [] then last else r.path

/-- What `from_chars` reads is a `long long`. -/
lemma fromChars_lt {s : Str} {v : ℤ} (h : fromChars s = some v) : v < 2 ^ 63 := by
  unfold fromChars at h
  simp only at h
  split_ifs at h with h1 h2 h3
  all_goals
    obtain rfl := Option.some.inj h
    omega

/-- The content length is a `long long`. -/
lemma getContentLength_lt (headers : Str) : getContentLength headers < 2 ^ 63 := by
  unfold getContentLength
  split
  · omega
  · rename_i idx _
    cases h : fromChars ((headers.drop (idx + 15)).dropWhile isBlank) with
    | none => simp
    | some v => simpa using fromChars_lt h

/-- What a complete parse says about the buffer: the header section ends at `headerEnd`, its request
    line reads as `request`, and the body of the announced length is there. -/
structure Complete (buffer : Str) (headerEnd : ℕ) (request : HttpRequest) (bodyLength : ℕ) :
    Prop where
  found : find headerTerminator buffer = some headerEnd
  line : readRequestLine (buffer.take headerEnd) = .ok request
  length_eq : getContentLength (buffer.take headerEnd) = bodyLength
  enough : headerEnd + 4 + bodyLength ≤ buffer.length

/-- The result of a complete parse. -/
lemma Complete.parse_eq {buffer request headerEnd bodyLength}
    (h : Complete buffer headerEnd request bodyLength) :
    parseHTTPRequest buffer = makeComplete
      { request with
        rawRequest := buffer.take (headerEnd + 4 + bodyLength)
        body := substr buffer (headerEnd + 4) bodyLength }
      (headerEnd + 4 + bodyLength) := by
  have hpos : ¬ ((bodyLength : ℤ) < 0) := by omega
  have hlen : ¬ buffer.length < headerEnd + 4 + bodyLength := Nat.not_lt.2 h.enough
  simp only [parseHTTPRequest, h.found, h.line, h.length_eq, if_neg hpos, Int.toNat_natCast,
    if_neg hlen]

/-- A parse that is complete is so for these reasons. -/
lemma exists_complete {buffer : Str} (h : (parseHTTPRequest buffer).status = .complete) :
    ∃ headerEnd request bodyLength, Complete buffer headerEnd request bodyLength := by
  unfold parseHTTPRequest at h
  split at h
  · simp [makeIncomplete] at h
  · rename_i headerEnd hfound
    simp only at h
    split at h
    · simp [makeError] at h
    · rename_i request hline
      split_ifs at h with h1 h2
      · simp [makeError] at h
      · simp [makeIncomplete] at h
      · exact ⟨headerEnd, request, (getContentLength (buffer.take headerEnd)).toNat, hfound, hline,
          (Int.toNat_of_nonneg (Int.not_lt.1 h1)).symm, Nat.not_lt.1 h2⟩

/-- The bytes a complete parse looked at do not change when more bytes arrive. -/
lemma Complete.append {buffer request headerEnd bodyLength}
    (h : Complete buffer headerEnd request bodyLength) (t : Str) :
    Complete (buffer ++ t) headerEnd request bodyLength := by
  have hlen := find_add_length_le h.found
  have htake : (buffer ++ t).take headerEnd = buffer.take headerEnd :=
    List.take_append_of_le_length (by omega)
  refine ⟨find_append h.found t, ?_, ?_, ?_⟩
  · rw [htake, h.line]
  · rw [htake, h.length_eq]
  · have := h.enough
    rw [List.length_append]
    omega

/-- A `std::string` is short enough for the sum of the lengths to stay below `2 ^ 64`. -/
lemma totalRequiredLength_lt {buffer : Str} (hbuf : buffer.length < 2 ^ 63) {headerEnd : ℕ}
    (h : find headerTerminator buffer = some headerEnd) :
    headerEnd + 4 + (getContentLength (buffer.take headerEnd)).toNat < 2 ^ 64 := by
  have h1 := find_add_length_le h
  have h2 := getContentLength_lt (buffer.take headerEnd)
  have h3 : headerTerminator.length = 4 := rfl
  omega

/-- A complete request takes some bytes off the buffer. -/
lemma consumed_pos {buffer : Str} (h : (parseHTTPRequest buffer).status = .complete) :
    0 < (parseHTTPRequest buffer).consumed := by
  obtain ⟨headerEnd, request, bodyLength, hc⟩ := exists_complete h
  rw [hc.parse_eq, makeComplete]
  exact Nat.lt_of_lt_of_le (Nat.succ_pos (headerEnd + 3)) (Nat.le_add_right _ _)

/-- A complete request takes no more bytes than there are. -/
lemma consumed_le {buffer : Str} (h : (parseHTTPRequest buffer).status = .complete) :
    (parseHTTPRequest buffer).consumed ≤ buffer.length := by
  obtain ⟨headerEnd, request, bodyLength, hc⟩ := exists_complete h
  rw [hc.parse_eq]
  exact hc.enough

/-- `rawRequest` is what is taken off the buffer. -/
lemma rawRequest_eq {buffer : Str} (h : (parseHTTPRequest buffer).status = .complete) :
    (parseHTTPRequest buffer).request.rawRequest
      = buffer.take (parseHTTPRequest buffer).consumed := by
  obtain ⟨headerEnd, request, bodyLength, hc⟩ := exists_complete h
  rw [hc.parse_eq]
  rfl

/-- A body is as long as its content length says. -/
lemma length_body_lt {buffer : Str} (h : (parseHTTPRequest buffer).status = .complete) :
    (parseHTTPRequest buffer).request.body.length < 2 ^ 63 := by
  obtain ⟨headerEnd, request, bodyLength, hc⟩ := exists_complete h
  have hlt := getContentLength_lt (buffer.take headerEnd)
  rw [hc.length_eq] at hlt
  have hle : (substr buffer (headerEnd + 4) bodyLength).length ≤ bodyLength :=
    List.length_take_le _ _
  rw [hc.parse_eq, makeComplete]
  simp only
  omega

/-- A malformed header section stays malformed. -/
lemma parse_error_append {buffer : Str} (h : (parseHTTPRequest buffer).status = .error) (t : Str) :
    parseHTTPRequest (buffer ++ t) = parseHTTPRequest buffer := by
  cases hfound : find headerTerminator buffer with
  | none => simp [parseHTTPRequest, hfound, makeIncomplete] at h
  | some headerEnd =>
    have hlen := find_add_length_le hfound
    have htake : (buffer ++ t).take headerEnd = buffer.take headerEnd :=
      List.take_append_of_le_length (by omega)
    simp only [parseHTTPRequest, hfound, find_append hfound, htake] at h ⊢
    cases hline : readRequestLine (buffer.take headerEnd) with
    | error e => simp only
    | ok request =>
      simp only [hline] at h ⊢
      split_ifs at h with h1 h2
      · rw [if_pos h1, if_pos h1]
      · simp [makeIncomplete] at h
      · simp [makeComplete] at h

/-- Bytes that arrive later do not change a result that is not `incomplete`. -/
theorem parseHTTPRequest_append {buffer : Str}
    (h : (parseHTTPRequest buffer).status ≠ .incomplete) (t : Str) :
    parseHTTPRequest (buffer ++ t) = parseHTTPRequest buffer := by
  cases hs : (parseHTTPRequest buffer).status with
  | incomplete => exact absurd hs h
  | error => exact parse_error_append hs t
  | complete =>
    obtain ⟨headerEnd, request, bodyLength, hc⟩ := exists_complete hs
    rw [(hc.append t).parse_eq, hc.parse_eq, List.take_append_of_le_length hc.enough]
    have hbody : substr (buffer ++ t) (headerEnd + 4) bodyLength
        = substr buffer (headerEnd + 4) bodyLength := by
      have := hc.enough
      rw [substr, substr, List.drop_append_of_le_length (by omega),
        List.take_append_of_le_length (by rw [List.length_drop]; omega)]
    rw [hbody]

end KvStore.Http
