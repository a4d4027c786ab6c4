import KvStore.Http.Request
import KvStore.Lib.OrdMap
import Mathlib.Data.Char

/-!
# Parsing responses

`parseHTTPResponse` of `HttpHelper.cpp`. The content length is what `std::stoul` reads from the
header, so here the sum of the lengths can exceed `size_t` and is taken modulo `2 ^ 64`.

* `status_ne_error`: the parser never reports an error.
* `Framed`: a message whose body is exactly as long as its `Content-Length` says. It is parsed in
  full whatever follows it (`Framed.parse_append`), and no proper prefix of it is complete
  (`Framed.parse_incomplete`).
* `parseAll_flatten`: parsing again and again takes a concatenation of such messages apart.
-/

namespace KvStore.Http
open KvStore.Lib

/-- A backend's response. -/
structure HttpResponse where
  version : Str := []
  statusCode : ℤ := 0
  statusText : Str := []
  headers : OrdMap Str Str := .empty
  body : Str := []
  rawResponse : Str := []

/-- The result of `parseHTTPResponse`. -/
structure HttpResponseParseResult where
  status : HttpParseStatus
  response : HttpResponse := {}
  error : Str := []
  consumed : ℕ := 0

/-- The values of `size_t`. -/
abbrev sizes : ℕ := 2 ^ 64

/-- Drop a carriage return at the end of a line. -/
def dropCR (line : Str) : Str := if line.getLast? = some '\r' then line.dropLast else line

/-- Read the version, the status code and the status text of a status line. -/
def readStatusLine (line : Str) : HttpResponse :=
  let line := line.dropWhile isSpace
  let version := line.takeWhile (fun c => !isSpace c)
  let rest := line.dropWhile (fun c => !isSpace c)
  -- nothing is read from a stream that has reached its end
  if rest.isEmpty then { version := version }
  else
    match readInt rest with
    | (code, none) => { version := version, statusCode := code }
    | (code, some text) =>
      { version := version
        statusCode := code
        statusText := if text.head? = some ' ' then text.tail else text }

/-- What the loop over the header lines has found so far. -/
structure HeaderScan where
  contentLength : ℕ := 0
  contentLengthFound : Bool := false
  headers : OrdMap Str Str := .empty

/-- `::tolower` on every character. -/
def toLower (s : Str) : Str := s.map Char.toLower

/-- One header line that is not empty. -/
def HeaderScan.line (s : HeaderScan) (line : Str) : HeaderScan :=
  match find ":".toList line with
  | none => s
  | some colonPos =>
    let headerName := line.take colonPos
    let headerValue := (line.drop (colonPos + 1)).dropWhile isBlank
    let headers := s.headers.insert headerName headerValue
    if toLower headerName = "content-length".toList then
      match stoul headerValue with
      | some n => { contentLength := n, contentLengthFound := true, headers := headers }
      | none => { s with contentLength := 0, headers := headers }
    else { s with headers := headers }

/-- The loop over the header lines, which an empty line ends. -/
def HeaderScan.lines : HeaderScan → List Str → HeaderScan
  | s, [] => s
  | s, line :: lines => if (dropCR line).isEmpty then s else (s.line (dropCR line)).lines lines

/-- The headers of a header section: all lines but the first. -/
def scanHeaders (headerPart : Str) : HeaderScan := HeaderScan.lines {} (getlines headerPart).tail

/-- The fields of the response that come from the header section. -/
def readHeaderPart (headerPart : Str) : HttpResponse :=
  let response : HttpResponse :=
    match getlines headerPart with
    | [] => {}
    | line :: _ => readStatusLine (dropCR line)
  { response with headers := (scanHeaders headerPart).headers }

/-- `parseHTTPResponse`. -/
def parseHTTPResponse (buffer : Str) : HttpResponseParseResult :=
  match find headerTerminator buffer with
  | none => { status := .incomplete }
  | some headerEnd =>
    let headerPart := buffer.take headerEnd
    let response := readHeaderPart headerPart
    let scan := scanHeaders headerPart
    -- without a content length the rest of the buffer is the body
    let contentLength :=
      if scan.contentLengthFound then scan.contentLength else buffer.length - (headerEnd + 4)
    let totalExpectedLength := (headerEnd + 4 + contentLength) % sizes
    if buffer.length < totalExpectedLength then { status := .incomplete, response := response }
    else
      { status := .complete
        response :=
          { response with
            body := substr buffer (headerEnd + 4) contentLength
            rawResponse := buffer.take totalExpectedLength }
        consumed := totalExpectedLength }

/-- The parser never reports an error. -/
lemma status_ne_error (buffer : Str) : (parseHTTPResponse buffer).status ≠ .error := by
  unfold parseHTTPResponse
  split
  · nofun
  · simp only
    split_ifs <;> nofun

/-- The header section and the bytes of a complete response. -/
lemma exists_header_of_complete {buffer : Str}
    (h : (parseHTTPResponse buffer).status = .complete) :
    ∃ headerEnd, find headerTerminator buffer = some headerEnd
      ∧ (parseHTTPResponse buffer).response.rawResponse <+: buffer
      ∧ (parseHTTPResponse buffer).response.statusCode
          = (readHeaderPart (buffer.take headerEnd)).statusCode := by
  unfold parseHTTPResponse at h ⊢
  split at h
  · cases h
  · rename_i headerEnd hfound
    simp only at h ⊢
    generalize hcl : (if (scanHeaders (buffer.take headerEnd)).contentLengthFound = true then
      (scanHeaders (buffer.take headerEnd)).contentLength
      else buffer.length - (headerEnd + 4)) = contentLength at h ⊢
    split at h
    · cases h
    · rename_i hlt
      simp only [if_neg hlt]
      exact ⟨headerEnd, hfound, List.take_prefix _ _, rfl⟩

/-- A complete response keeps its status code when it is parsed from its own bytes. -/
lemma statusCode_rawResponse {buffer : Str} (h : (parseHTTPResponse buffer).status = .complete)
    (hraw : (parseHTTPResponse (parseHTTPResponse buffer).response.rawResponse).status
      = .complete) :
    (parseHTTPResponse (parseHTTPResponse buffer).response.rawResponse).response.statusCode
      = (parseHTTPResponse buffer).response.statusCode := by
  obtain ⟨headerEnd, hfound, ⟨t, ht⟩, hcode⟩ := exists_header_of_complete h
  obtain ⟨headerEnd', hfound', -, hcode'⟩ := exists_header_of_complete hraw
  generalize (parseHTTPResponse buffer).response.rawResponse = raw at ht hfound' hcode' ⊢
  obtain rfl : headerEnd = headerEnd' := by
    have := find_append hfound' t
    rw [ht, hfound] at this
    exact Option.some.inj this
  have hlen := find_add_length_le hfound'
  rw [hcode, hcode', ← ht, List.take_append_of_le_length (by omega)]

/-- A message with a header section of length `headerEnd` and a body that is exactly as long as its
    content length says. -/
structure FramedAt (raw : Str) (headerEnd : ℕ) : Prop where
  found : find headerTerminator raw = some headerEnd
  hasLength : (scanHeaders (raw.take headerEnd)).contentLengthFound = true
  length_eq : headerEnd + 4 + (scanHeaders (raw.take headerEnd)).contentLength = raw.length
  length_lt : raw.length < sizes

/-- A message whose body is exactly as long as its content length says. -/
def Framed (raw : Str) : Prop := ∃ headerEnd, FramedAt raw headerEnd

/-- The response a framed message is parsed as. -/
def framedResponse (raw : Str) (headerEnd : ℕ) : HttpResponse :=
  { readHeaderPart (raw.take headerEnd) with body := raw.drop (headerEnd + 4), rawResponse := raw }

/-- A framed message is parsed in full, whatever follows it. -/
lemma FramedAt.parse_append {raw : Str} {headerEnd : ℕ} (h : FramedAt raw headerEnd) (t : Str) :
    parseHTTPResponse (raw ++ t)
      = { status := .complete
          response := framedResponse raw headerEnd
          consumed := raw.length } := by
  have hlen := find_add_length_le h.found
  have htake : (raw ++ t).take headerEnd = raw.take headerEnd :=
    List.take_append_of_le_length (by omega)
  have hmod : (headerEnd + 4 + (scanHeaders (raw.take headerEnd)).contentLength) % sizes
      = raw.length := by
    rw [h.length_eq]
    exact Nat.mod_eq_of_lt h.length_lt
  have hnot : ¬ (raw ++ t).length < raw.length := by
    rw [List.length_append]
    omega
  have hbody : substr (raw ++ t) (headerEnd + 4) (scanHeaders (raw.take headerEnd)).contentLength
      = raw.drop (headerEnd + 4) := by
    have hl := h.length_eq
    rw [substr, List.drop_append_of_le_length (by omega)]
    exact List.take_left' (by rw [List.length_drop]; omega)
  simp only [parseHTTPResponse, find_append h.found, htake, h.hasLength, if_true, hmod, if_neg hnot,
    hbody, List.take_left, framedResponse]

/-- A framed message on its own. -/
lemma FramedAt.parse_eq {raw : Str} {headerEnd : ℕ} (h : FramedAt raw headerEnd) :
    parseHTTPResponse raw
      = { status := .complete
          response := framedResponse raw headerEnd
          consumed := raw.length } := by
  have := h.parse_append []
  rwa [List.append_nil] at this

/-- No proper prefix of a framed message is complete. -/
lemma FramedAt.parse_incomplete {raw : Str} {headerEnd : ℕ} (h : FramedAt raw headerEnd) {p t : Str}
    (ht : t ≠ []) (hraw : p ++ t = raw) : (parseHTTPResponse p).status = .incomplete := by
  cases hp : find headerTerminator p with
  | none => simp [parseHTTPResponse, hp]
  | some i =>
    obtain rfl : i = headerEnd := by
      have := find_append hp t
      rw [hraw, h.found] at this
      exact (Option.some.inj this).symm
    have hlen := find_add_length_le hp
    have htake : p.take i = raw.take i := by
      rw [← hraw, List.take_append_of_le_length (by omega)]
    have hmod : (i + 4 + (scanHeaders (raw.take i)).contentLength) % sizes = raw.length := by
      rw [h.length_eq]
      exact Nat.mod_eq_of_lt h.length_lt
    have hlt : p.length < raw.length := by
      rw [← hraw, List.length_append]
      have := List.length_pos_iff.2 ht
      omega
    simp only [parseHTTPResponse, hp, htake, h.hasLength, if_true, hmod, if_pos hlt]

/-- A framed message is not empty. -/
lemma FramedAt.length_pos {raw : Str} {headerEnd : ℕ} (h : FramedAt raw headerEnd) :
    0 < raw.length := by
  have := h.length_eq
  omega

/-- A list of framed messages is at most as long as their bytes. -/
lemma length_le_flatten {raws : List Str} (h : ∀ raw ∈ raws, Framed raw) :
    raws.length ≤ raws.flatten.length := by
  induction raws with
  | nil => exact le_rfl
  | cons raw raws ih =>
    obtain ⟨⟨headerEnd, hf⟩, htail⟩ := List.forall_mem_cons.1 h
    have hpos := hf.length_pos
    have hle := ih htail
    rw [List.length_cons, List.flatten_cons, List.length_append]
    omega

/-- Parse responses off the front of the buffer until nothing is left; `none` if something is left
    that is not a complete response. -/
def parseAll : ℕ → Str → Option (List HttpResponse)
  | _, [] => some []
  | 0, _ :: _ => none
  | fuel + 1, c :: buffer =>
    let result := parseHTTPResponse (c :: buffer)
    if result.status = .complete then
      (parseAll fuel ((c :: buffer).drop result.consumed)).map (result.response :: ·)
    else none

/-- Parsing again and again takes a concatenation of framed messages apart. -/
theorem parseAll_flatten {raws : List Str} (h : ∀ raw ∈ raws, Framed raw) {fuel : ℕ}
    (hfuel : raws.length ≤ fuel) :
    ∃ rs, parseAll fuel raws.flatten = some rs ∧ rs.map HttpResponse.rawResponse = raws := by
  induction raws generalizing fuel with
  | nil =>
    refine ⟨[], ?_, rfl⟩
    cases fuel <;> rfl
  | cons raw raws ih =>
    obtain ⟨⟨headerEnd, hf⟩, htail⟩ := List.forall_mem_cons.1 h
    cases fuel with
    | zero => simp at hfuel
    | succ fuel =>
      obtain ⟨rs, hrs, hmap⟩ := ih htail (by simpa using hfuel)
      refine ⟨framedResponse raw headerEnd :: rs, ?_, by simp [hmap, framedResponse]⟩
      have hparse := hf.parse_append raws.flatten
      rw [List.flatten_cons]
      cases hraw : raw ++ raws.flatten with
      | nil =>
        have hpos := hf.length_pos
        rw [(List.append_eq_nil_iff.1 hraw).1] at hpos
        simp at hpos
      | cons c buffer =>
        rw [hraw] at hparse
        simp only [parseAll, hparse, if_true]
        rw [← hraw, List.drop_left, hrs]
        rfl

end KvStore.Http
