import KvStore.Http.Fields
import KvStore.Session.Forward

/-!
# How a response is cut into pieces

`readBackendResponse` parses the buffer again after every `recv`, so its result is the parse of the
first prefix of the stream that is complete and at which a piece ends.

* `readBackendResponse_eq`: if all complete prefixes parse alike, the result is that of the whole
  stream.
* `chunking_iff`: the streams whose result does not depend on how they are cut.
* `chunking_matters`: a response without a content length can lose its body.
-/

namespace KvStore.Session
open KvStore.Lib KvStore.Http

/-- The stream as `recv` with a buffer of 4096 bytes can return it. -/
def RecvChunks (stream : Str) (pieces : List Str) : Prop :=
  pieces.flatten = stream ∧ ∀ bytes ∈ pieces, bytes ≠ [] ∧ bytes.length ≤ 4096

/-- The same status and, if it is complete, the same response. -/
def SameResult (r r' : HttpResponseParseResult) : Prop :=
  r.status = r'.status
    ∧ (r.status = .complete →
      r.response.rawResponse = r'.response.rawResponse
        ∧ r.response.body = r'.response.body
        ∧ r.response.statusCode = r'.response.statusCode)

/-- The header section says how long the body is, and the sum of the lengths does not wrap. -/
def SelfDelimiting (headerPart : Str) : Prop :=
  acceptedLength (headerFields headerPart) ≠ none
    ∧ headerPart.length + 4 + (lengthReads (headerFields headerPart)).getLast?.join.getD 0 < sizes

/-- What is returned when the connection is closed after the stream, unless the stream is a complete
    response. -/
def closedResult (stream : Str) : HttpResponseParseResult :=
  if (parseHTTPResponse stream).status = .incomplete then
    { parseHTTPResponse stream with
      status := .error, error := "Backend connection closed or error".toList }
  else parseHTTPResponse stream

/-- If every complete prefix of the stream is parsed as the whole stream is, the pieces do not
    matter. -/
lemma readBackendResponse_eq {stream responseBuffer : Str} {pieces : List Str}
    (hstable : ∀ p t, p ++ t = stream → (parseHTTPResponse p).status ≠ .incomplete →
      parseHTTPResponse p = parseHTTPResponse stream)
    (hne : ∀ bytes ∈ pieces, bytes ≠ []) (h : responseBuffer ++ pieces.flatten = stream) :
    readBackendResponse responseBuffer pieces = closedResult stream := by
  induction pieces generalizing responseBuffer with
  | nil =>
    rw [List.flatten_nil, List.append_nil] at h
    rw [readBackendResponse, closedResult, h]
  | cons bytes pieces ih =>
    obtain ⟨hbytes, hrest⟩ := List.forall_mem_cons.1 hne
    rw [readBackendResponse_cons hbytes]
    split_ifs with hs
    · exact ih hrest (by rw [List.append_assoc, ← List.flatten_cons, h])
    · have hwhole := hstable responseBuffer _ h hs
      rw [hwhole] at hs ⊢
      rw [closedResult, if_neg hs]

/-- A complete response is returned without another `recv`. -/
lemma readBackendResponse_of_complete {responseBuffer : Str}
    (h : (parseHTTPResponse responseBuffer).status = .complete) (pieces : List Str) :
    readBackendResponse responseBuffer pieces = parseHTTPResponse responseBuffer := by
  cases pieces <;> rw [readBackendResponse, h] <;> rfl

/-- Pieces before the end of the header section are only appended to the buffer. -/
lemma readBackendResponse_append {responseBuffer : Str} {pieces : List Str}
    (hne : ∀ bytes ∈ pieces, bytes ≠ [])
    (hnone : ∀ p t, t ≠ [] → p ++ t = responseBuffer ++ pieces.flatten →
      (parseHTTPResponse p).status = .incomplete) (pieces' : List Str) :
    readBackendResponse responseBuffer (pieces ++ pieces')
      = readBackendResponse (responseBuffer ++ pieces.flatten) pieces' := by
  induction pieces generalizing responseBuffer with
  | nil => rw [List.nil_append, List.flatten_nil, List.append_nil]
  | cons bytes pieces ih =>
    obtain ⟨hbytes, hrest⟩ := List.forall_mem_cons.1 hne
    have hs := hnone responseBuffer (bytes ++ pieces.flatten) (by simp [hbytes]) rfl
    rw [List.cons_append, readBackendResponse_cons hbytes, if_pos hs, ih hrest, List.flatten_cons,
      List.append_assoc]
    intro p t ht hp
    exact hnone p t ht (by rw [hp, List.flatten_cons, List.append_assoc])

/-- If the header section says how long the body is, bytes that arrive later do not change a
    complete result. -/
lemma parse_append_of_delimiting {p t : Str} {headerEnd : ℕ} (hbuf : (p ++ t).length < sizes)
    (hfound : find headerTerminator p = some headerEnd) (h : SelfDelimiting (p.take headerEnd))
    (hs : (parseHTTPResponse p).status ≠ .incomplete) :
    parseHTTPResponse (p ++ t) = parseHTTPResponse p := by
  have hterminator : headerTerminator.length = 4 := rfl
  have hlen := find_add_length_le hfound
  rw [List.length_append] at hbuf
  have htake : (p ++ t).take headerEnd = p.take headerEnd :=
    List.take_append_of_le_length (by omega)
  obtain ⟨n, hn⟩ := Option.ne_none_iff_exists'.1 h.1
  have hbody : bodyLength p headerEnd
      = (lengthReads (headerFields (p.take headerEnd))).getLast?.join.getD 0 := bodyLength_of_some hn
  have hbody' : bodyLength (p ++ t) headerEnd = bodyLength p headerEnd := by
    rw [hbody, bodyLength_of_some (by rw [htake]; exact hn), htake]
  have hwrap := h.2
  rw [← hbody, List.length_take_of_le (by omega)] at hwrap
  have hle : headerEnd + 4 + bodyLength p headerEnd ≤ p.length := by
    rw [parse_of_found hfound, Nat.mod_eq_of_lt hwrap] at hs
    split_ifs at hs with hlt
    · exact absurd rfl hs
    · exact Nat.not_lt.1 hlt
  rw [parse_of_le hfound (by omega) hle,
    parse_of_le (find_append hfound t) (by rw [List.length_append]; omega)
      (by rw [hbody', List.length_append]; omega),
    hbody', htake, List.take_append_of_le_length hle, substr, substr,
    List.drop_append_of_le_length (by omega),
    List.take_append_of_le_length (by rw [List.length_drop]; omega)]

/-- If it does not, all that has arrived after it is the body. -/
lemma parse_of_not_delimiting {p : Str} {headerEnd : ℕ} (hbuf : p.length < sizes)
    (hfound : find headerTerminator p = some headerEnd) (h : ¬ SelfDelimiting (p.take headerEnd)) :
    (parseHTTPResponse p).status = .complete
      ∧ (parseHTTPResponse p).response.body = p.drop (headerEnd + 4) := by
  have hterminator : headerTerminator.length = 4 := rfl
  have hlen := find_add_length_le hfound
  cases hn : acceptedLength (headerFields (p.take headerEnd)) with
  | none =>
    have hbody := bodyLength_of_none hn
    rw [parse_of_le hfound hbuf (by omega)]
    refine ⟨rfl, List.take_of_length_le ?_⟩
    rw [List.length_drop]
    omega
  | some n =>
    have hbody := bodyLength_of_some hn
    have hlt := getD_lengthReads_lt (headerFields (p.take headerEnd))
    have hwrap := not_and.1 h (by rw [hn]; exact Option.some_ne_none n)
    rw [← hbody, List.length_take_of_le (by omega)] at hwrap
    rw [← hbody] at hlt
    have hmod : (headerEnd + 4 + bodyLength p headerEnd) % sizes
        = headerEnd + 4 + bodyLength p headerEnd - sizes := by
      rw [Nat.mod_eq_sub_mod (not_lt.1 hwrap), Nat.mod_eq_of_lt (by omega)]
    rw [parse_of_found hfound, hmod, if_neg (by omega)]
    refine ⟨rfl, List.take_of_length_le ?_⟩
    rw [List.length_drop]
    omega

/-- The bytes one by one. -/
def singles (s : Str) : List Str := s.map fun c => [c]

/-- A cut with a piece of `k` bytes that begins with the last byte of the blank line. -/
def cutAt (stream : Str) (headerEnd k : ℕ) : List Str :=
  singles (stream.take (headerEnd + 3))
    ++ (stream.drop (headerEnd + 3)).take k :: singles (stream.drop (headerEnd + 3 + k))

/-- Single bytes make up the stream. -/
lemma flatten_singles (s : Str) : (singles s).flatten = s := by
  induction s with
  | nil => rfl
  | cons c s ih =>
    rw [singles, List.map_cons, List.flatten_cons, List.singleton_append]
    exact congrArg (c :: ·) ih

/-- `recv` can cut the stream there. -/
lemma recvChunks_cutAt {stream : Str} {headerEnd k : ℕ} (hk : 0 < k) (hk' : k ≤ 4096)
    (h : headerEnd + 3 < stream.length) : RecvChunks stream (cutAt stream headerEnd k) := by
  have hsingles (s : Str) : ∀ bytes ∈ singles s, bytes ≠ [] ∧ bytes.length ≤ 4096 := by
    intro bytes hb
    obtain ⟨c, -, rfl⟩ := List.mem_map.1 hb
    exact ⟨List.cons_ne_nil c [], Nat.le_of_ble_eq_true rfl⟩
  constructor
  · have hdrop : stream.drop (headerEnd + 3 + k) = (stream.drop (headerEnd + 3)).drop k :=
      List.drop_drop.symm
    rw [cutAt, List.flatten_append, List.flatten_cons, flatten_singles, flatten_singles, hdrop,
      List.take_append_drop, List.take_append_drop]
  · rw [cutAt, List.forall_mem_append, List.forall_mem_cons]
    refine ⟨hsingles _, ⟨?_, (List.length_take_le _ _).trans hk'⟩, hsingles _⟩
    rw [← List.length_pos_iff, List.length_take, List.length_drop]
    omega

/-- With this cut the parser first sees the blank line together with `k - 1` bytes of what follows. -/
lemma readBackendResponse_cutAt {stream : Str} {headerEnd k : ℕ}
    (hfound : find headerTerminator stream = some headerEnd) (hk : 0 < k)
    (hs : (parseHTTPResponse (stream.take (headerEnd + 3 + k))).status = .complete) :
    readBackendResponse [] (cutAt stream headerEnd k)
      = parseHTTPResponse (stream.take (headerEnd + 3 + k)) := by
  have hterminator : headerTerminator.length = 4 := rfl
  have hlen := find_add_length_le hfound
  -- without the whole blank line nothing is complete
  have hshort (p t : Str) (hp : p ++ t = stream.take (headerEnd + 3)) :
      (parseHTTPResponse p).status = .incomplete := by
    cases hp' : find headerTerminator p with
    | none => rw [parseHTTPResponse, hp']
    | some i =>
      have hfound' := find_append hp' (t ++ stream.drop (headerEnd + 3))
      rw [← List.append_assoc, hp, List.take_append_drop, hfound] at hfound'
      have hi := find_add_length_le hp'
      have hle := congrArg List.length hp
      rw [List.length_append, List.length_take] at hle
      have := Option.some.inj hfound'
      omega
  have hsingles : ∀ bytes ∈ singles (stream.take (headerEnd + 3)), bytes ≠ [] := by
    intro bytes hb
    obtain ⟨c, -, rfl⟩ := List.mem_map.1 hb
    exact List.cons_ne_nil c []
  have hpiece : (stream.drop (headerEnd + 3)).take k ≠ [] := by
    rw [← List.length_pos_iff, List.length_take, List.length_drop]
    omega
  rw [cutAt, readBackendResponse_append hsingles fun p t _ hp => hshort p t (by
    rw [hp, List.nil_append, flatten_singles])]
  rw [List.nil_append, flatten_singles, readBackendResponse,
    if_pos (hshort _ [] (List.append_nil _))]
  simp only [List.isEmpty_iff, hpiece, if_false]
  rw [← List.take_add, readBackendResponse_of_complete hs]

/-- The result depends on the stream alone exactly if the stream has no header section, or its header
    section says how long the body is (and the sum of the lengths does not wrap), or nothing follows
    the header section. -/
theorem chunking_iff {stream : Str} (hbuf : stream.length < sizes) :
    (∀ pieces pieces', RecvChunks stream pieces → RecvChunks stream pieces' →
        SameResult (readBackendResponse [] pieces) (readBackendResponse [] pieces'))
      ↔ ∀ headerEnd, find headerTerminator stream = some headerEnd →
          SelfDelimiting (stream.take headerEnd) ∨ stream.length = headerEnd + 4 := by
  have hterminator : headerTerminator.length = 4 := rfl
  constructor
  · intro h headerEnd hfound
    have hlen := find_add_length_le hfound
    by_contra hnot
    obtain ⟨hdelimiting, hlonger⟩ := not_or.1 hnot
    -- the prefixes that end with the blank line and with the byte after it
    have hparse (k : ℕ) (hk : 0 < k) (hk' : headerEnd + 3 + k ≤ stream.length) :
        (parseHTTPResponse (stream.take (headerEnd + 3 + k))).status = .complete
          ∧ (parseHTTPResponse (stream.take (headerEnd + 3 + k))).response.body.length = k - 1 := by
      have htake : (stream.take (headerEnd + 3 + k)).take headerEnd = stream.take headerEnd := by
        rw [List.take_take, Nat.min_eq_left (by omega)]
      obtain ⟨hs, hbody⟩ := parse_of_not_delimiting (p := stream.take (headerEnd + 3 + k))
        (by rw [List.length_take]; omega) (find_take hfound (by omega)) (htake ▸ hdelimiting)
      refine ⟨hs, ?_⟩
      rw [hbody, List.length_drop, List.length_take]
      omega
    obtain ⟨hs, hbody⟩ := hparse 1 Nat.one_pos (by omega)
    obtain ⟨hs', hbody'⟩ := hparse 2 Nat.two_pos (by omega)
    have hshort : headerEnd + 3 < stream.length := by omega
    obtain ⟨-, hsame⟩ := h _ _ (recvChunks_cutAt Nat.one_pos (by decide) hshort)
      (recvChunks_cutAt Nat.two_pos (by decide) hshort)
    rw [readBackendResponse_cutAt hfound Nat.one_pos hs,
      readBackendResponse_cutAt hfound Nat.two_pos hs'] at hsame
    have hlength := congrArg List.length (hsame hs).2.1
    rw [hbody, hbody'] at hlength
    omega
  · intro h pieces pieces' hp hp'
    have hstable (p t : Str) (hpt : p ++ t = stream)
        (hs : (parseHTTPResponse p).status ≠ .incomplete) :
        parseHTTPResponse p = parseHTTPResponse stream := by
      cases hfound : find headerTerminator p with
      | none => exact absurd (by rw [parseHTTPResponse, hfound]) hs
      | some headerEnd =>
        have hlen := find_add_length_le hfound
        have htake : stream.take headerEnd = p.take headerEnd := by
          rw [← hpt, List.take_append_of_le_length (by omega)]
        rcases h headerEnd (hpt ▸ find_append hfound t) with hdelimiting | hend
        · rw [htake] at hdelimiting
          rw [← hpt, parse_append_of_delimiting (hpt ▸ hbuf) hfound hdelimiting hs]
        · have hle := congrArg List.length hpt
          rw [List.length_append] at hle
          have ht : t = [] := List.length_eq_zero_iff.1 (by omega)
          rw [← hpt, ht, List.append_nil]
    rw [readBackendResponse_eq hstable (fun bytes hb => (hp.2 bytes hb).1) hp.1,
      readBackendResponse_eq hstable (fun bytes hb => (hp'.2 bytes hb).1) hp'.1]
    exact ⟨rfl, fun _ => ⟨rfl, rfl, rfl⟩⟩

/-- A response whose body is everything up to the end of the connection. -/
def untilClose : Str := "HTTP/1.1 200 OK\r\n\r\nhi".toList

/-- A response without a content length is not read the same however it is cut. -/
theorem chunking_iff_untilClose :
    untilClose.length < sizes
      ∧ ((∀ pieces pieces', RecvChunks untilClose pieces → RecvChunks untilClose pieces' →
          SameResult (readBackendResponse [] pieces) (readBackendResponse [] pieces'))
        ↔ ∀ headerEnd, find headerTerminator untilClose = some headerEnd →
            SelfDelimiting (untilClose.take headerEnd) ∨ untilClose.length = headerEnd + 4) :=
  ⟨by decide, chunking_iff (by decide)⟩

/-- The body is lost if the header section arrives alone. -/
theorem chunking_matters :
    RecvChunks untilClose [untilClose]
      ∧ RecvChunks untilClose [untilClose.take 19, untilClose.drop 19]
      ∧ ¬ SameResult (readBackendResponse [] [untilClose])
          (readBackendResponse [] [untilClose.take 19, untilClose.drop 19]) := by
  have hresults :
      (readBackendResponse [] [untilClose]).status = .complete
        ∧ (readBackendResponse [] [untilClose]).response.body = "hi".toList
        ∧ (readBackendResponse [] [untilClose.take 19, untilClose.drop 19]).response.body = [] := by
    decide +kernel
  obtain ⟨hs, hbody, hbody'⟩ := hresults
  refine ⟨⟨rfl, by decide⟩, ⟨rfl, by decide⟩, fun h => ?_⟩
  have hsame := (h.2 hs).2.1
  rw [hbody, hbody'] at hsame
  cases hsame

end KvStore.Session
