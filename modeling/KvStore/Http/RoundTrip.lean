import KvStore.Http.ContentLength

/-!
# Printing and parsing responses

A printed response is parsed back, whatever follows it, and no part of it is taken for the whole
(`response_round_trip`).
-/

namespace KvStore.Http
open KvStore.Lib

/-- A response as a backend means it. One of its fields is the content length. -/
structure PrintedResponse extends LengthBlock where
  version : Str
  code : ℕ
  reason : Str
  body : Str
  version_ne_nil : version ≠ []
  version_noSpace : ∀ c ∈ version, isSpace c = false
  code_ge : 100 ≤ code
  code_le : code ≤ 999
  reason_line : '\r' ∉ reason ∧ '\n' ∉ reason
  nodup_names : (toLengthBlock.fields.map Prod.fst).Nodup
  values_noBlank : ∀ field ∈ toLengthBlock.fields, ∀ c ∈ field.2.head?, isBlank c = false
  value_eq : value = decimal body.length
  -- the printed response is a `std::string`
  length_lt :
    (headerSection (version ++ ' ' :: (decimal code ++ ' ' :: reason)) toLengthBlock.lines).length + 4
      + body.length < sizes

/-- Reading a status line. -/
lemma readStatusLine_eq {version : Str} (hne : version ≠ []) (hspace : ∀ c ∈ version, isSpace c = false)
    {code : ℕ} (hcode : code < 2 ^ 31) (reason : Str) :
    readStatusLine (version ++ ' ' :: (decimal code ++ ' ' :: reason))
      = { version := version, statusCode := code, statusText := reason } := by
  have hstart : (version ++ ' ' :: (decimal code ++ ' ' :: reason)).dropWhile isSpace
      = version ++ ' ' :: (decimal code ++ ' ' :: reason) := by
    obtain ⟨c, v, rfl⟩ := List.exists_cons_of_ne_nil hne
    rw [List.cons_append, List.dropWhile_cons_of_neg (by simp [hspace c List.mem_cons_self])]
  have hin : ∀ c ∈ version, (!isSpace c) = true := fun c hc => by rw [hspace c hc]; rfl
  have hversion : (version ++ ' ' :: (decimal code ++ ' ' :: reason)).takeWhile (fun c => !isSpace c)
      = version := by
    rw [takeWhile_append_cons rfl, List.takeWhile_eq_self_iff]
    exact hin
  have hrest : (version ++ ' ' :: (decimal code ++ ' ' :: reason)).dropWhile (fun c => !isSpace c)
      = ' ' :: (decimal code ++ ' ' :: reason) := by
    rw [List.dropWhile_append_of_pos hin, List.dropWhile_cons_of_neg (by decide)]
  rw [← digitsValue_decimal code] at hcode
  have hread := readInt_of_isDecimal (isDecimal_decimal code) hcode reason
  rw [digitsValue_decimal] at hread
  simp only [readStatusLine, hstart, hversion, hrest, hread, List.isEmpty_cons, Bool.false_eq_true,
    if_false, List.head?_cons, if_true, List.tail_cons]

/-- Reading the first line and the fields of a header section. -/
lemma readHeaderPart_headerSection {start : Str} {lines : List Str}
    (h : ∀ line ∈ start :: lines, IsLine line) :
    readHeaderPart (headerSection start lines)
      = { readStatusLine start with
          headers := (scanHeaders (headerSection start lines)).headers } := by
  have hlines := map_dropCR_getlines h
  obtain ⟨first, rest, hfirst, hstart, -⟩ := List.map_eq_cons_iff.1 hlines
  rw [readHeaderPart, hfirst]
  simp only [hstart]

namespace PrintedResponse
variable (r : PrintedResponse)

/-- The status line. -/
def statusLine : Str := r.version ++ ' ' :: (decimal r.code ++ ' ' :: r.reason)

/-- The bytes of the response. -/
def print : Str := (r.statusLine :: r.lines).flatMap (· ++ crlf) ++ (crlf ++ r.body)

/-- The status line is a line. -/
lemma isLine_statusLine : IsLine r.statusLine := by
  have hversion {c : Char} (hc : isSpace c = true) : c ∉ r.version := by
    intro hm
    rw [r.version_noSpace c hm] at hc
    cases hc
  constructor
  · exact List.append_ne_nil_of_left_ne_nil r.version_ne_nil _
  · simp [statusLine, hversion (c := '\r') rfl, not_mem_decimal (c := '\r') rfl, r.reason_line.1]
  · simp [statusLine, hversion (c := '\n') rfl, not_mem_decimal (c := '\n') rfl, r.reason_line.2]

/-- The header section comes first, then the body. -/
lemma print_eq : r.print = headerSection r.statusLine r.lines ++ (headerTerminator ++ r.body) :=
  printed_headerSection r.statusLine r.lines r.body

/-- The length of what is printed. -/
lemma length_print :
    r.print.length = (headerSection r.statusLine r.lines).length + 4 + r.body.length := by
  have hterminator : headerTerminator.length = 4 := rfl
  rw [print_eq, List.length_append, List.length_append, hterminator, Nat.add_assoc]

/-- Reading the fields back. -/
lemma headerFields_print :
    headerFields (headerSection r.statusLine r.lines) = r.fields := by
  have hread : ∀ field ∈ r.fields, readField field = field := by
    intro field hf
    have hvalue : field.2.dropWhile isBlank = field.2 := by
      cases hv : field.2 with
      | nil => rfl
      | cons c v =>
        have hc := r.values_noBlank field hf c (by rw [hv]; rfl)
        rw [List.dropWhile_cons_of_neg (by simp [hc])]
    rw [readField, hvalue]
  have hsection : headerFields (headerSection r.statusLine (r.fields.map fieldLine))
      = r.fields.map readField := headerFields_headerSection r.isLine_statusLine r.isField
  rw [LengthBlock.lines, hsection, List.map_congr_left hread, List.map_id']

/-- The header section says how long the body is. -/
lemma framedAt : FramedAt r.print (headerSection r.statusLine r.lines).length := by
  have hfound := r.find_terminator r.isLine_statusLine r.body
  obtain ⟨hhas, hlength⟩ := r.scanHeaders r.isLine_statusLine
  have htake : r.print.take (headerSection r.statusLine r.lines).length
      = headerSection r.statusLine r.lines := by rw [print_eq, List.take_left]
  refine ⟨by rw [print_eq, hfound], by rw [htake, hhas], ?_, ?_⟩
  · rw [htake, hlength, LengthBlock.length, r.value_eq, digitsValue_decimal, length_print]
  · rw [length_print]
    exact r.length_lt

/-- What the parser makes of a printed response. -/
structure ParsedAs (result : HttpResponseParseResult) : Prop where
  status : result.status = .complete
  version : result.response.version = r.version
  statusCode : result.response.statusCode = r.code
  statusText : result.response.statusText = r.reason
  headers : ∀ name value, result.response.headers.find name = some value ↔ (name, value) ∈ r.fields
  body : result.response.body = r.body
  rawResponse : result.response.rawResponse = r.print
  consumed : result.consumed = r.print.length

/-- A printed response is parsed back, whatever follows it. -/
lemma parse_append (t : Str) : r.ParsedAs (parseHTTPResponse (r.print ++ t)) := by
  have hlines : ∀ line ∈ r.statusLine :: r.lines, IsLine line :=
    List.forall_mem_cons.2 ⟨r.isLine_statusLine, fun _ hl => r.isLine hl⟩
  have htake : r.print.take (headerSection r.statusLine r.lines).length
      = headerSection r.statusLine r.lines := by rw [print_eq, List.take_left]
  have hbody : r.print.drop ((headerSection r.statusLine r.lines).length + 4) = r.body := by
    have hterminator : headerTerminator.length = 4 := rfl
    rw [print_eq, ← List.drop_drop, List.drop_left, ← hterminator, List.drop_left]
  have hcode : r.code < 2 ^ 31 := r.code_le.trans_lt (by decide)
  have hresponse : framedResponse r.print (headerSection r.statusLine r.lines).length
      = { version := r.version
          statusCode := r.code
          statusText := r.reason
          headers := (scanHeaders (headerSection r.statusLine r.lines)).headers
          body := r.body
          rawResponse := r.print } := by
    rw [framedResponse, htake, hbody, readHeaderPart_headerSection hlines, statusLine,
      readStatusLine_eq r.version_ne_nil r.version_noSpace hcode]
  have hheaders : (scanHeaders (headerSection r.statusLine r.lines)).headers
      = r.fields.foldl (fun headers field => headers.insert field.1 field.2) .empty := by
    rw [(scanHeaders_reads _).headers, headerFields_print]
  rw [r.framedAt.parse_append t, hresponse]
  refine ⟨rfl, rfl, rfl, rfl, fun name value => ?_, rfl, rfl, rfl⟩
  show (scanHeaders (headerSection r.statusLine r.lines)).headers.find name = some value ↔ _
  rw [hheaders, OrdMap.find_foldl_insert r.nodup_names, OrdMap.find_empty]
  simp

end PrintedResponse

/-- A printed response is parsed back exactly, whatever follows it, and no proper prefix of it is
    complete. -/
theorem response_round_trip (r : PrintedResponse) :
    (∀ t, r.ParsedAs (parseHTTPResponse (r.print ++ t)))
      ∧ ∀ p t, t ≠ [] → p ++ t = r.print → (parseHTTPResponse p).status = .incomplete :=
  ⟨r.parse_append, fun _ _ ht h => r.framedAt.parse_incomplete ht h⟩

/-- The version that everybody uses is a word. -/
lemma http11_ne_nil : "HTTP/1.1".toList ≠ [] := by decide

/-- The version has no blank. -/
lemma http11_noSpace : ∀ c ∈ "HTTP/1.1".toList, isSpace c = false :=
  List.forall_iff_forall_mem.1 (by decide)

/-- A response with an empty value and a body that looks like a header section. -/
def lookalike : PrintedResponse where
  before := [("X-Note".toList, [])]
  name := "content-LENGTH".toList
  value := "8".toList
  after := []
  version := "HTTP/1.1".toList
  code := 200
  reason := "OK".toList
  body := "A: b\r\n\r\n".toList
  isField := List.forall_mem_cons.2 ⟨⟨by decide, by decide, by decide, by decide⟩,
    List.forall_mem_singleton.2 ⟨by decide, by decide, by decide, by decide⟩⟩
  isLength := by decide
  only := List.forall_mem_singleton.2 (by decide)
  isDecimal := ⟨by decide, List.all_eq_true.1 (by decide)⟩
  value_lt := by decide
  version_ne_nil := http11_ne_nil
  version_noSpace := http11_noSpace
  code_ge := by decide
  code_le := by decide
  reason_line := by decide
  nodup_names := by decide
  values_noBlank := List.forall_mem_cons.2
    ⟨nofun, List.forall_mem_singleton.2 fun c hc => by cases hc; rfl⟩
  value_eq := by decide
  length_lt := by decide

example : lookalike.print
    = "HTTP/1.1 200 OK\r\nX-Note: \r\ncontent-LENGTH: 8\r\n\r\nA: b\r\n\r\n".toList := by
  decide

end KvStore.Http
