import KvStore.Cluster.Network
import KvStore.Http.RoundTrip
import Mathlib.Data.Nat.Digits.Defs

/-!
# A plain HTTP library

What `httplib` does with the requests and responses of the servers when nothing goes wrong: the
header section is read line by line, and a response is sent as its header section and its body.

* `flatten_sendResponse`: a response is sent as a printed one.
* `plainLib_faithful`: so the responses arrive as they are sent.
* `isOp_requestOf`: what is left to check of a client's request.
-/

namespace KvStore.Cluster
open KvStore.Lib KvStore.Http KvStore.Server KvStore.Session

/-- The name and the value in a header line. -/
def readHeaderLine (line : Str) : Option (Str × Str) :=
  (find ":".toList line).map fun colonPos =>
    (line.take colonPos, (line.drop (colonPos + 1)).dropWhile isBlank)

/-- `status_message`. -/
def statusMessage : ℤ → Str
  | 200 => "OK".toList
  | 201 => "Created".toList
  | 404 => "Not Found".toList
  | 409 => "Conflict".toList
  | _ => "Internal Server Error".toList

/-- The status line. -/
def statusLine (status : ℤ) : Str :=
  "HTTP/1.1 ".toList ++ decimalInt status ++ ' ' :: statusMessage status

/-- The lines of a header section but the last. -/
def startLines (status : ℤ) : List Str :=
  [statusLine status, "Connection: close".toList, "Content-Type: text/plain".toList]

/-- The last line of a header section. -/
def lengthLine (length : ℕ) : Str := "Content-Length: ".toList ++ decimal length

/-- Lines with their line ends. -/
def printLines (lines : List Str) : Str := lines.flatMap fun line => line ++ crlf

/-- The header section of a response, and its body if it has one. -/
def sendResponse (res : Response) : List Str :=
  (printLines (startLines res.status) ++ (lengthLine res.body.length ++ crlf ++ crlf))
    :: if res.body = [] then [] else [res.body]

/-- A library that reads one request line by line and sends responses with their length. -/
def plainLib : HttpLib where
  read payload :=
    let result := parseHTTPRequest payload
    if result.status = .complete then
      let headerSection := payload.take ((find headerTerminator payload).getD 0)
      [.ok
        { method := result.request.method
          path := requestPath result.request.path
          headers := ((getlines headerSection).tail.map dropCR).filterMap readHeaderLine
          body := result.request.body }]
    else [.error ["HTTP/1.1 400 Bad Request\r\nContent-Length: 0\r\n\r\n".toList]]
  write _ res := sendResponse res

/-- A small number has few digits. -/
lemma length_decimal_le {n k : ℕ} (hk : 0 < k) (hn : n < 10 ^ k) : (decimal n).length ≤ k :=
  Nat.toDigits_length 10 n k hk hn

/-- What the status lines and the lines after them look like. -/
lemma startLines_text : ∀ code ∈ [200, 201, 404, 409],
    (headerSection (statusLine (code : ℕ)) (startLines (code : ℕ)).tail).length ≤ 100
      ∧ '\r' ∉ statusMessage (code : ℕ) ∧ '\n' ∉ statusMessage (code : ℕ) ∧ 100 ≤ code
      ∧ code ≤ 999 := by
  decide

/-- The fields of a response before the last one. -/
def startFields : List (Str × Str) :=
  [("Connection".toList, "close".toList), ("Content-Type".toList, "text/plain".toList)]

/-- They are read back. -/
lemma isField_startFields :
    ∀ field ∈ startFields, IsField field ∧ ∀ c ∈ field.2.head?, isBlank c = false :=
  List.forall_mem_cons.2
    ⟨⟨⟨by decide, by decide, by decide, by decide⟩, fun c hc => by cases hc; rfl⟩,
      List.forall_mem_singleton.2
        ⟨⟨by decide, by decide, by decide, by decide⟩, fun c hc => by cases hc; rfl⟩⟩

/-- The last field of a response. -/
def lengthField (length : ℕ) : Str × Str := ("Content-Length".toList, decimal length)

/-- It is read back, too. -/
lemma isField_lengthField (length : ℕ) :
    IsField (lengthField length) ∧ ∀ c ∈ (lengthField length).2.head?, isBlank c = false := by
  have hname : "Content-Length".toList ≠ [] ∧ ':' ∉ "Content-Length".toList
      ∧ '\r' ∉ "Content-Length".toList ∧ '\n' ∉ "Content-Length".toList := by
    decide
  obtain ⟨hne, hcolon, hline⟩ := hname
  obtain ⟨digit, digits, hdigits, -, hblank, -⟩ := (isDecimal_decimal length).exists_cons
  have hhead : (lengthField length).2.head? = some digit := congrArg List.head? hdigits
  refine ⟨⟨hne, hcolon, hline, not_mem_decimal rfl length, not_mem_decimal rfl length⟩, ?_⟩
  intro c hc
  rw [hhead, Option.mem_some_iff] at hc
  exact hc ▸ hblank

/-- The fields of a response are read back. -/
lemma isField_replyFields (length : ℕ) :
    ∀ field ∈ startFields ++ [lengthField length],
      IsField field ∧ ∀ c ∈ field.2.head?, isBlank c = false :=
  List.forall_mem_append.2
    ⟨isField_startFields, List.forall_mem_singleton.2 (isField_lengthField length)⟩

/-- The header section of a response is short. -/
lemma length_replySection_le {code : ℕ} (hcode : code ∈ [200, 201, 404, 409]) {length : ℕ}
    (hlen : length < 10 ^ 64) :
    (headerSection (statusLine code)
      ((startFields ++ [lengthField length]).map fieldLine)).length ≤ 200 := by
  have hsection : headerSection (statusLine code)
      ((startFields ++ [lengthField length]).map fieldLine)
      = headerSection (statusLine code) (startLines code).tail ++ (crlf ++ lengthLine length) := by
    rw [headerSection, List.map_append, List.flatMap_append, List.map_singleton,
      List.flatMap_singleton, ← List.append_assoc]
    rfl
  have hstart := (startLines_text code hcode).1
  have hdigits := length_decimal_le (by decide) hlen
  have hcrlf : crlf.length = 2 := rfl
  have hline : (lengthLine length).length = 16 + (decimal length).length := List.length_append
  have hsum := congrArg List.length hsection
  rw [List.length_append, List.length_append, hcrlf, hline] at hsum
  omega

/-- A response of a handler, as it is printed. -/
def printedReply {code : ℕ} (hcode : code ∈ [200, 201, 404, 409]) {body : Str}
    (hlen : body.length < 2 ^ 63) : PrintedResponse where
  before := startFields
  name := (lengthField body.length).1
  value := (lengthField body.length).2
  after := []
  version := "HTTP/1.1".toList
  code := code
  reason := statusMessage code
  body := body
  isField := fun field hf => (isField_replyFields body.length field hf).1
  isLength := (by decide : toLower "Content-Length".toList = "content-length".toList)
  only := List.forall_mem_cons.2 ⟨by decide, List.forall_mem_singleton.2 (by decide)⟩
  isDecimal := isDecimal_decimal body.length
  value_lt := (digitsValue_decimal body.length).trans_lt hlen
  version_ne_nil := http11_ne_nil
  version_noSpace := http11_noSpace
  code_ge := (startLines_text code hcode).2.2.2.1
  code_le := (startLines_text code hcode).2.2.2.2
  reason_line := ⟨(startLines_text code hcode).2.1, (startLines_text code hcode).2.2.1⟩
  nodup_names :=
    (by decide :
      ["Connection".toList, "Content-Type".toList, "Content-Length".toList].Nodup)
  values_noBlank := fun field hf => (isField_replyFields body.length field hf).2
  value_eq := rfl
  length_lt := by
    have hle := length_replySection_le hcode (hlen.trans (by norm_num))
    have hsizes : 200 + 4 + 2 ^ 63 < sizes := by decide
    refine lt_of_le_of_lt (Nat.add_le_add_right (Nat.add_le_add_right hle 4) body.length) ?_
    omega

/-- A response is sent as it is printed. -/
lemma flatten_sendResponse {code : ℕ} (hcode : code ∈ [200, 201, 404, 409]) {body : Str}
    (hlen : body.length < 2 ^ 63) :
    (sendResponse (closing.reply code body)).flatten = (printedReply hcode hlen).print := by
  have hbody : (if body = [] then [] else [body]).flatten = body := by
    split_ifs with hb
    · rw [hb]
      rfl
    · exact List.flatten_singleton
  have hsend : (sendResponse (closing.reply code body)).flatten
      = printLines (startLines code) ++ (lengthLine body.length ++ crlf ++ crlf)
        ++ (if body = [] then [] else [body]).flatten := rfl
  have hprint : (printedReply hcode hlen).print
      = (startLines code ++ [lengthLine body.length]).flatMap (· ++ crlf) ++ (crlf ++ body) := rfl
  rw [hsend, hbody, hprint, List.flatMap_append, List.flatMap_singleton]
  simp only [printLines, List.append_assoc]

/-- No piece of a response is empty. -/
lemma nil_not_mem_sendResponse (res : Response) : ∀ bytes ∈ sendResponse res, bytes ≠ [] := by
  have hstart : printLines (startLines res.status) ≠ [] := nofun
  rw [sendResponse]
  split_ifs with hb
  · exact List.forall_mem_singleton.2 (List.append_ne_nil_of_left_ne_nil hstart _)
  · exact List.forall_mem_cons.2 ⟨List.append_ne_nil_of_left_ne_nil hstart _,
      List.forall_mem_singleton.2 hb⟩

/-- The responses of the handlers arrive as they are sent. -/
theorem plainLib_faithful : plainLib.Faithful := by
  intro req _ status hs body hlen
  obtain ⟨code, hcode, rfl⟩ : ∃ code ∈ [200, 201, 404, 409], ((code : ℕ) : ℤ) = status :=
    List.mem_map.1 hs
  have hparsed := (printedReply hcode hlen).parse_append []
  have hframed := (printedReply hcode hlen).framedAt
  rw [List.append_nil, hframed.parse_eq, ← flatten_sendResponse hcode hlen] at hparsed
  rw [← flatten_sendResponse hcode hlen] at hframed
  have hstatus := hparsed.statusCode
  have hbody := hparsed.body
  generalize (headerSection (printedReply hcode hlen).statusLine
    (printedReply hcode hlen).lines).length = headerEnd at hframed hstatus hbody
  exact ⟨nil_not_mem_sendResponse _, headerEnd, hframed, hstatus, hbody⟩

/-- What a client sends for an operation. -/
def clientRequest (op : KeyOp) : Str :=
  op.method ++ ' ' :: op.path ++ " HTTP/1.1\r\nContent-Length: ".toList
    ++ decimal (op.body.getD []).length ++ headerTerminator ++ op.body.getD []

/-- The request that the balancer reads. -/
def requestOf (op : KeyOp) : HttpRequest := (parseHTTPRequest (clientRequest op)).request

/-- The server reads the operation that the client sends. -/
def isReceived (op : KeyOp) : Bool :=
  match plainLib.read (forwardedAs (requestOf op)) with
  | [.ok req] => IsOrdinary req ∧ Asks req op
  | _ => false

/-- What is to be checked of a request, so that it is one for an operation. -/
lemma isOp_requestOf {op : KeyOp} (hop : op.WellFormed)
    (hbalancer : (requestOf op).method = op.method ∧ (requestOf op).path = op.path
      ∧ ∀ body ∈ op.body, (requestOf op).body = body)
    (hserver : isReceived op = true) : IsOp plainLib (requestOf op) op := by
  obtain ⟨hmethod, hpath, hbody⟩ := hbalancer
  refine ⟨hop, hmethod, hpath, hbody, ?_⟩
  unfold isReceived at hserver
  split at hserver
  · rename_i req hread
    exact ⟨req, hread, of_decide_eq_true hserver⟩
  · cases hserver

/-- The key `a` is put to `x`. -/
def putAX : KeyOp := .put ['a'] ['x']

/-- The key `a` is read. -/
def getA : KeyOp := .get ['a']

/-- Its request arrives in one piece, -/
lemma carries_putAX : Carries [clientRequest putAX] (requestOf putAX) :=
  ⟨by decide +kernel, by decide +kernel, rfl, by decide +kernel⟩

/-- and is what it should be. -/
lemma isOp_putAX : IsOp plainLib (requestOf putAX) putAX :=
  isOp_requestOf ⟨by decide, by decide, by decide, by decide, nofun⟩ (by decide +kernel)
    (by decide +kernel)

/-- This one as well, -/
lemma carries_getA : Carries [clientRequest getA] (requestOf getA) :=
  ⟨by decide +kernel, by decide +kernel, rfl, by decide +kernel⟩

/-- and it is what it should be. -/
lemma isOp_getA : IsOp plainLib (requestOf getA) getA :=
  isOp_requestOf ⟨by decide, by decide, by decide, nofun, nofun⟩ (by decide +kernel)
    (by decide +kernel)

end KvStore.Cluster
