import KvStore.Http.Fields
import Mathlib.Data.List.DropRight

/-!
# The content length of a request

`getContentLength` does not read header fields: it reads the number after the first place in the
header section, request line included, where `Content-Length:` is written, or else
`content-length:`. `getContentLength_headerSection` says so in terms of the lines.

* `parsers_agree_iff`: when this is what `parseHTTPResponse` reads from the field.
* `malformed_rejected_iff`: which malformed lengths are rejected.
-/

namespace KvStore.Http
open KvStore.Lib

/-- The spelling that is searched for first. -/
def upperLength : Str := "Content-Length:".toList

/-- The spelling that is searched for if the first one does not occur. -/
def lowerLength : Str := "content-length:".toList

/-- What follows the first occurrence of a pattern. -/
def textAfter (pat s : Str) : Option Str := (find pat s).map fun i => s.drop (i + pat.length)

/-- What follows the first mention of a content length in the lines. -/
def lengthText (lines : List Str) : Option Str :=
  (lines.findSome? (textAfter upperLength)).or (lines.findSome? (textAfter lowerLength))

/-- The number at the beginning of a text, blanks aside, and 0 if there is none. -/
def lengthAfter (text : Str) : ℤ := (fromChars (text.dropWhile isBlank)).getD 0

/-- The two spellings are looked for one after the other. -/
lemma getContentLength_eq (headers : Str) :
    getContentLength headers
      = (((textAfter upperLength headers).or (textAfter lowerLength headers)).map
          lengthAfter).getD 0 := by
  have hposition : getContentLength headers
      = (((find upperLength headers).or (find lowerLength headers)).map fun i =>
          lengthAfter (headers.drop (i + 15))).getD 0 := by
    unfold getContentLength upperLength lowerLength
    cases (find "Content-Length:".toList headers).or (find "content-length:".toList headers) with
    | none => simp only [Option.map_none, Option.getD_none]
    | some i => simp only [Option.map_some, Option.getD_some, lengthAfter]
  have hupper : upperLength.length = 15 := rfl
  have hlower : lowerLength.length = 15 := rfl
  rw [hposition, textAfter, textAfter, hupper, hlower, Option.map_or, Option.map_or, Option.map_map,
    Option.map_map]
  simp only [Function.comp_def]

/-- The number ends at the end of its line. -/
lemma lengthAfter_append_crlf (text t : Str) : lengthAfter (text ++ (crlf ++ t)) = lengthAfter text := by
  have hcrlf : text ++ (crlf ++ t) = text ++ '\r' :: ('\n' :: t) := rfl
  rw [lengthAfter, hcrlf, dropWhile_append_cons rfl, fromChars_append_cons rfl (by decide),
    lengthAfter]

/-- A pattern without `c` is searched for before the first `c` and after it. -/
lemma textAfter_append_cons {c : Char} {pat : Str} (hc : c ∉ pat) (hne : pat ≠ []) (a b : Str) :
    textAfter pat (a ++ c :: b)
      = ((textAfter pat a).map (· ++ c :: b)).or (textAfter pat b) := by
  rw [textAfter, textAfter, textAfter, find_append_cons hc hne]
  cases ha : find pat a with
  | some i =>
    simp only [Option.some_or, Option.map_some]
    rw [List.drop_append_of_le_length (find_add_length_le ha)]
  | none =>
    cases find pat b with
    | none => rfl
    | some j =>
      have hdrop : (a ++ c :: b).drop (j + (a.length + 1) + pat.length) = b.drop (j + pat.length) := by
        rw [show j + (a.length + 1) + pat.length = a.length + (1 + (j + pat.length)) by omega,
          ← List.drop_drop, List.drop_left, ← List.drop_drop]
        rfl
      simp only [Option.map_some, Option.map_none, Option.none_or, hdrop]

/-- The number after the first mention in a header section stands after the first mention in one of
    its lines. -/
lemma map_textAfter_headerSection {pat : Str} (hcr : '\r' ∉ pat) (hlf : '\n' ∉ pat) (hne : pat ≠ [])
    (start : Str) (lines : List Str) :
    (textAfter pat (headerSection start lines)).map lengthAfter
      = ((start :: lines).findSome? (textAfter pat)).map lengthAfter := by
  induction lines generalizing start with
  | nil =>
    rw [headerSection_nil, List.findSome?_cons]
    cases textAfter pat start <;> rfl
  | cons line lines ih =>
    have hcrlf (s : Str) : start ++ (crlf ++ s) = start ++ '\r' :: ('\n' :: s) := rfl
    have hskip (s : Str) : textAfter pat ('\n' :: s) = textAfter pat s := by
      have h := textAfter_append_cons hlf hne [] s
      have hnil : textAfter pat [] = none := by simp [textAfter, find, hne]
      rwa [hnil] at h
    have hend (text s : Str) : lengthAfter (text ++ '\r' :: ('\n' :: s)) = lengthAfter text :=
      lengthAfter_append_crlf text s
    have hfirst : (start :: line :: lines).findSome? (textAfter pat)
        = (textAfter pat start).or ((line :: lines).findSome? (textAfter pat)) := by
      rw [List.findSome?_cons]
      cases textAfter pat start <;> rfl
    rw [headerSection_cons, hcrlf, textAfter_append_cons hcr hne, hskip, Option.map_or, ih, hfirst,
      Option.map_or, Option.map_map]
    simp only [Function.comp_def, hend]

/-- What `getContentLength` reads is the number after the first mention in the lines. -/
theorem getContentLength_headerSection (start : Str) (lines : List Str) :
    getContentLength (headerSection start lines)
      = ((lengthText (start :: lines)).map lengthAfter).getD 0 := by
  rw [getContentLength_eq, Option.map_or, lengthText, Option.map_or,
    map_textAfter_headerSection (by decide) (by decide) (by decide),
    map_textAfter_headerSection (by decide) (by decide) (by decide)]

/-- Without a mention nothing is read. -/
lemma findSome?_textAfter_eq_none {pat : Str} {lines : List Str}
    (h : ∀ line ∈ lines, ¬ pat <:+: line) : lines.findSome? (textAfter pat) = none :=
  List.findSome?_eq_none_iff.2 fun line hl => by
    rw [textAfter, find_eq_none.2 (h line hl), Option.map_none]

/-- What stands after the first mention. -/
lemma findSome?_textAfter {pat : Str} {before : List Str} (h : ∀ line ∈ before, ¬ pat <:+: line)
    (text : Str) (after : List Str) :
    (before ++ (pat ++ text) :: after).findSome? (textAfter pat) = some text := by
  have hnone : before.findSome? (textAfter pat) = none := findSome?_textAfter_eq_none h
  have hown : textAfter pat (pat ++ text) = some text := by
    have hstart : find pat (pat ++ text) = some 0 :=
      find_eq_some.2 ⟨List.prefix_append _ _, Nat.zero_le _, nofun⟩
    rw [textAfter, hstart, Option.map_some, Nat.zero_add, List.drop_left]
  rw [List.findSome?_append, hnone, Option.none_or, List.findSome?_cons, hown]

/-- Reading a printed number. -/
lemma fromChars_value {v : Str} (h : IsDecimal v) (hlt : digitsValue v < 2 ^ 63) :
    fromChars ((' ' :: v).dropWhile isBlank) = some (digitsValue v : ℤ) := by
  rw [List.dropWhile_cons_of_pos rfl, h.dropWhile_isBlank, fromChars_of_isDecimal h hlt]

section
variable {head : Str} {request : HttpRequest} {n : ℕ}

/-- The result of parsing a header section and what follows it. -/
lemma parseHTTPRequest_head {t : Str}
    (hfound : find headerTerminator (head ++ (headerTerminator ++ t)) = some head.length)
    (hline : readRequestLine head = .ok request) (hn : getContentLength head = n) :
    parseHTTPRequest (head ++ (headerTerminator ++ t))
      = if t.length < n then makeIncomplete
        else makeComplete
          { request with
            rawRequest := head ++ (headerTerminator ++ t.take n)
            body := t.take n }
          (head.length + 4 + n) := by
  have hterminator : headerTerminator.length = 4 := rfl
  have hlen : (head ++ (headerTerminator ++ t)).length = head.length + 4 + t.length := by
    rw [List.length_append, List.length_append, hterminator, Nat.add_assoc]
  have htake : (head ++ (headerTerminator ++ t)).take (head.length + 4 + n)
      = head ++ (headerTerminator ++ t.take n) := by
    rw [Nat.add_assoc, List.take_length_add_append, ← hterminator, List.take_length_add_append]
  have hbody : substr (head ++ (headerTerminator ++ t)) (head.length + 4) n = t.take n := by
    rw [substr, ← List.drop_drop, List.drop_left, ← hterminator, List.drop_left]
  have hpos : ¬ (n : ℤ) < 0 := by omega
  simp only [parseHTTPRequest, hfound, List.take_left, hline, hn, if_neg hpos, Int.toNat_natCast,
    htake, hbody]
  refine if_congr ?_ rfl rfl
  rw [hlen]
  omega

/-- Whatever follows the blank line, `n` bytes of it are taken for the body of a request. -/
def FramesRequest (head : Str) (n : ℕ) : Prop :=
  ∀ t,
    (t.length < n → (parseHTTPRequest (head ++ (headerTerminator ++ t))).status = .incomplete)
      ∧ (n ≤ t.length →
        (parseHTTPRequest (head ++ (headerTerminator ++ t))).status = .complete
          ∧ (parseHTTPRequest (head ++ (headerTerminator ++ t))).request.body = t.take n
          ∧ (parseHTTPRequest (head ++ (headerTerminator ++ t))).consumed = head.length + 4 + n)

/-- Whatever follows the blank line, `n` bytes of it are taken for the body of a response. -/
def FramesResponse (head : Str) (n : ℕ) : Prop :=
  ∀ t,
    (t.length < n → (parseHTTPResponse (head ++ (headerTerminator ++ t))).status = .incomplete)
      ∧ (n ≤ t.length →
        (parseHTTPResponse (head ++ (headerTerminator ++ t))).status = .complete
          ∧ (parseHTTPResponse (head ++ (headerTerminator ++ t))).response.body = t.take n
          ∧ (parseHTTPResponse (head ++ (headerTerminator ++ t))).consumed = head.length + 4 + n)

/-- A request is framed with the content length that is read. -/
lemma framesRequest_iff
    (hfound : ∀ t, find headerTerminator (head ++ (headerTerminator ++ t)) = some head.length)
    (hline : readRequestLine head = .ok request) :
    FramesRequest head n ↔ getContentLength head = n := by
  constructor
  · intro h
    cases hm : getContentLength head with
    | ofNat m =>
      -- enough bytes for both lengths
      have hlong : (List.replicate (max n m) 'x').length = max n m := List.length_replicate
      obtain ⟨-, -, hconsumed⟩ := (h (List.replicate (max n m) 'x')).2 (by omega)
      rw [parseHTTPRequest_head (hfound _) hline hm, if_neg (by omega)] at hconsumed
      have : head.length + 4 + m = head.length + 4 + n := hconsumed
      rw [Int.ofNat_eq_natCast]
      omega
    | negSucc m =>
      obtain ⟨hs, -⟩ := (h (List.replicate n 'x')).2 (List.length_replicate ▸ le_rfl)
      have hneg : Int.negSucc m < 0 := Int.negSucc_lt_zero m
      simp only [parseHTTPRequest, hfound, List.take_left, hline, hm, if_pos hneg] at hs
      cases hs
  · intro hn t
    rw [parseHTTPRequest_head (hfound t) hline hn]
    refine ⟨fun hlt => ?_, fun hle => ?_⟩
    · rw [if_pos hlt]
      rfl
    · rw [if_neg (Nat.not_lt.2 hle)]
      exact ⟨rfl, rfl, rfl⟩

/-- A response is framed with the content length that is found. -/
lemma framesResponse_of_found
    (hfound : ∀ t, find headerTerminator (head ++ (headerTerminator ++ t)) = some head.length)
    (hlength : (scanHeaders head).contentLengthFound = true) (hn : (scanHeaders head).contentLength = n)
    (hlt : head.length + 4 + n < sizes) : FramesResponse head n := by
  intro t
  have hterminator : headerTerminator.length = 4 := rfl
  have hlen : (head ++ (headerTerminator ++ t)).length = head.length + 4 + t.length := by
    rw [List.length_append, List.length_append, hterminator, Nat.add_assoc]
  have hbody : bodyLength (head ++ (headerTerminator ++ t)) head.length = n := by
    rw [bodyLength, List.take_left, hlength, if_pos rfl, hn]
  rw [parse_of_found (hfound t), hbody, Nat.mod_eq_of_lt hlt, hlen]
  refine ⟨fun hshort => ?_, fun hlong => ?_⟩
  · rw [if_pos (by omega)]
  · rw [if_neg (by omega)]
    refine ⟨rfl, ?_, rfl⟩
    rw [substr, ← List.drop_drop, List.drop_left, ← hterminator, List.drop_left]

end

/-- Header fields of which one is a content length, a decimal number. -/
structure LengthBlock where
  before : List (Str × Str)
  name : Str
  value : Str
  after : List (Str × Str)
  isField : ∀ field ∈ before ++ (name, value) :: after, IsField field
  isLength : IsLength (name, value)
  only : ∀ field ∈ before ++ after, ¬ IsLength field
  isDecimal : IsDecimal value
  value_lt : digitsValue value < 2 ^ 63

namespace LengthBlock
variable (b : LengthBlock)

/-- The fields of the block. -/
def fields : List (Str × Str) := b.before ++ (b.name, b.value) :: b.after

/-- The lines of the block. -/
def lines : List Str := b.fields.map fieldLine

/-- The content length of the block. -/
def length : ℕ := digitsValue b.value

/-- The field is the first mention of a content length, in one of the spellings that are searched
    for. -/
def IsFirstMention (start : Str) : Prop :=
  (b.name = "Content-Length".toList
      ∧ ∀ line ∈ start :: b.before.map fieldLine, ¬ upperLength <:+: line)
    ∨ (b.name = "content-length".toList ∧ (∀ line ∈ start :: b.lines, ¬ upperLength <:+: line)
      ∧ ∀ line ∈ start :: b.before.map fieldLine, ¬ lowerLength <:+: line)

/-- What stands after the first mention is the same number, or there is no number and the length
    is 0. -/
def ReadsTheSame (start : Str) : Prop :=
  (∃ text, lengthText (start :: b.lines) = some text
      ∧ (fromChars (text.dropWhile isBlank) = some (b.length : ℤ)
        ∨ fromChars (text.dropWhile isBlank) = none ∧ b.length = 0))
    ∨ lengthText (start :: b.lines) = none ∧ b.length = 0

/-- The block is printed in lines, -/
lemma isLine {line : Str} (h : line ∈ b.lines) : IsLine line := by
  obtain ⟨field, hf, rfl⟩ := List.mem_map.1 h
  exact (b.isField field hf).isLine

/-- one at least. -/
lemma lines_ne_nil : b.lines ≠ [] := by
  simp [lines, fields]

/-- The response parser finds the content length. -/
lemma scanHeaders {statusLine : Str} (hstart : IsLine statusLine) :
    (Http.scanHeaders (headerSection statusLine b.lines)).contentLengthFound = true
      ∧ (Http.scanHeaders (headerSection statusLine b.lines)).contentLength = b.length := by
  have hfields : headerFields (headerSection statusLine b.lines)
      = b.before.map readField ++ (b.name, b.value) :: b.after.map readField := by
    have hread : readField (b.name, b.value) = (b.name, b.value) := by
      rw [readField, b.isDecimal.dropWhile_isBlank]
    have hsection : headerFields (headerSection statusLine (b.fields.map fieldLine))
        = b.fields.map readField := headerFields_headerSection hstart b.isField
    rw [lines, hsection, fields, List.map_append, List.map_cons, hread]
  have honly : ∀ field ∈ b.before.map readField ++ b.after.map readField, ¬ IsLength field := by
    rw [← List.map_append, List.forall_mem_map]
    exact b.only
  have hlengths : lengthReads (headerFields (headerSection statusLine b.lines)) = [some b.length] := by
    rw [hfields, lengthReads_only b.isLength honly,
      stoul_of_isDecimal b.isDecimal (b.value_lt.trans (by decide)), length]
  have hreads := scanHeaders_reads (headerSection statusLine b.lines)
  constructor
  · rw [hreads.contentLengthFound, acceptedLength, hlengths]
    rfl
  · rw [hreads.contentLength, hlengths]
    rfl

/-- A field that is the first mention is read. -/
lemma readsTheSame_of_isFirstMention {start : Str} (h : b.IsFirstMention start) :
    b.ReadsTheSame start := by
  have hlines : start :: b.lines
      = (start :: b.before.map fieldLine) ++ fieldLine (b.name, b.value) :: b.after.map fieldLine := by
    rw [lines, fields, List.map_append, List.map_cons, List.cons_append]
  refine .inl ⟨' ' :: b.value, ?_, .inl (fromChars_value b.isDecimal b.value_lt)⟩
  rcases h with ⟨hname, hbefore⟩ | ⟨hname, hnone, hbefore⟩
  · have hown : fieldLine (b.name, b.value) = upperLength ++ ' ' :: b.value := by
      rw [fieldLine, hname]
      rfl
    rw [lengthText, hlines, hown, findSome?_textAfter hbefore, Option.some_or]
  · have hown : fieldLine (b.name, b.value) = lowerLength ++ ' ' :: b.value := by
      rw [fieldLine, hname]
      rfl
    rw [lengthText, findSome?_textAfter_eq_none hnone, Option.none_or, hlines, hown,
      findSome?_textAfter hbefore]

/-- What `getContentLength` reads is the content length. -/
lemma getContentLength_iff (start : Str) :
    getContentLength (headerSection start b.lines) = b.length ↔ b.ReadsTheSame start := by
  rw [getContentLength_headerSection, ReadsTheSame]
  cases lengthText (start :: b.lines) with
  | none =>
    simp only [Option.map_none, Option.getD_none, reduceCtorEq, false_and, exists_false, false_or,
      true_and]
    omega
  | some text =>
    simp only [Option.map_some, Option.getD_some, lengthAfter, Option.some.injEq, exists_eq_left',
      reduceCtorEq, false_and, or_false]
    cases fromChars (text.dropWhile isBlank) with
    | none =>
      simp only [Option.getD_none, reduceCtorEq, true_and, false_or]
      omega
    | some v => simp only [Option.getD_some, Option.some.injEq, reduceCtorEq, false_and, or_false]

/-- The end of the header section. -/
lemma find_terminator {start : Str} (hstart : IsLine start) (t : Str) :
    find headerTerminator (headerSection start b.lines ++ (headerTerminator ++ t))
      = some (headerSection start b.lines).length :=
  find_headerSection hstart.noCR (fun _ hl => ⟨(b.isLine hl).ne_nil, (b.isLine hl).noCR⟩) t

end LengthBlock

/-- Both parsers take the same number of bytes for the body, namely the content length, exactly if
    the field is the first mention of one in a spelling that is searched for, or the number that is
    read instead of it is the same. -/
theorem parsers_agree_iff (b : LengthBlock) {method path version statusLine : Str}
    (hmethod : ' ' ∉ method) (hpath : ' ' ∉ path) (hrequest : IsLine (requestLine method path version))
    (hstatus : IsLine statusLine) (hlen : (headerSection statusLine b.lines).length + 4 ≤ 2 ^ 63) :
    FramesRequest (headerSection (requestLine method path version) b.lines) b.length
        ∧ FramesResponse (headerSection statusLine b.lines) b.length
      ↔ b.IsFirstMention (requestLine method path version)
        ∨ b.ReadsTheSame (requestLine method path version) := by
  have hresponse : FramesResponse (headerSection statusLine b.lines) b.length := by
    obtain ⟨hfound, hlength⟩ := b.scanHeaders hstatus
    have hvalue : b.length < 2 ^ 63 := b.value_lt
    refine framesResponse_of_found (b.find_terminator hstatus) hfound hlength ?_
    show (headerSection statusLine b.lines).length + 4 + b.length < 2 ^ 64
    omega
  have hline := readRequestLine_headerSection hmethod hpath hrequest.noCR b.lines_ne_nil
  rw [and_iff_left hresponse, framesRequest_iff (b.find_terminator hrequest) hline,
    b.getContentLength_iff]
  constructor
  · exact .inr
  · rintro (h | h)
    · exact b.readsTheSame_of_isFirstMention h
    · exact h

/-- A content length in a third spelling. -/
def thirdSpelling : LengthBlock where
  before := []
  name := "Content-length".toList
  value := "5".toList
  after := []
  isField := List.forall_mem_singleton.2 ⟨by decide, by decide, by decide, by decide⟩
  isLength := by decide
  only := nofun
  isDecimal := ⟨by decide, List.all_eq_true.1 (by decide)⟩
  value_lt := by decide

/-- A request line to put before the block. -/
def postCreate : Str := requestLine "POST".toList "/kvstore/create".toList "HTTP/1.1".toList

/-- It is a line. -/
lemma isLine_postCreate : IsLine postCreate := ⟨by decide, by decide, by decide⟩

/-- A status line to put before the block. -/
def statusOk : Str := "HTTP/1.1 200 OK".toList

/-- A block in the spelling that only the response parser knows. -/
theorem parsers_agree_iff_thirdSpelling :
    FramesRequest (headerSection postCreate thirdSpelling.lines) thirdSpelling.length
        ∧ FramesResponse (headerSection statusOk thirdSpelling.lines) thirdSpelling.length
      ↔ thirdSpelling.IsFirstMention postCreate ∨ thirdSpelling.ReadsTheSame postCreate :=
  parsers_agree_iff thirdSpelling (by decide) (by decide) isLine_postCreate
    ⟨by decide, by decide, by decide⟩ (by decide)

/-- The request parser passes the content length over. -/
theorem parsers_disagree :
    ¬ (FramesRequest (headerSection postCreate thirdSpelling.lines) thirdSpelling.length
      ∧ FramesResponse (headerSection statusOk thirdSpelling.lines) thirdSpelling.length) := by
  intro h
  have hincomplete := (h.1 []).1 (by decide)
  have hcomplete : (parseHTTPRequest
      (headerSection postCreate thirdSpelling.lines ++ (headerTerminator ++ []))).status
        = .complete := by decide +kernel
  rw [hcomplete] at hincomplete
  cases hincomplete

/-- `Content-Length:` is written once in the header section, at the beginning of a header line, and
    `v` is the rest of that line. -/
structure OneLength (head v : Str) : Prop where
  line : ∃ a rest, head = a ++ (crlf ++ (upperLength ++ (v ++ rest)))
    ∧ (find crlf (v ++ rest) = some v.length ∨ find crlf v = none ∧ rest = [])
  once : ∀ i j, upperLength <+: head.drop i → upperLength <+: head.drop j → i = j

/-- A value without the blanks around it. -/
def strip (v : Str) : Str := (v.dropWhile isBlank).rdropWhile isBlank

/-- The only content length is not a decimal number that a `long long` can hold. -/
structure MalformedLength (head v : Str) : Prop extends OneLength head v where
  malformed : ¬ (IsDecimal (strip v) ∧ digitsValue (strip v) < 2 ^ 63)

/-- The value begins with a minus and a number from 1 to `2 ^ 63`, blanks before it aside. -/
def IsNegative (v : Str) : Prop :=
  (v.dropWhile isBlank).head? = some '-'
    ∧ 0 < digitsValue ((v.dropWhile isBlank).tail.takeWhile Char.isDigit)
    ∧ digitsValue ((v.dropWhile isBlank).tail.takeWhile Char.isDigit) ≤ 2 ^ 63

/-- When the number after the name is negative. -/
lemma lengthAfter_neg_iff (v : Str) : lengthAfter v < 0 ↔ IsNegative v := by
  rw [lengthAfter, IsNegative, fromChars]
  generalize v.dropWhile isBlank = s
  by_cases hminus : s.head? = some '-'
  · simp only [hminus, if_true, true_and]
    generalize s.tail.takeWhile Char.isDigit = digits
    by_cases hempty : digits = []
    · have hzero : digitsValue [] = 0 := rfl
      simp [hempty, hzero]
    · simp only [List.isEmpty_iff, hempty, if_false]
      split_ifs with hfits
      · rw [Option.getD_some]
        omega
      · rw [Option.getD_none]
        omega
  · simp only [hminus, if_false, false_and, iff_false, not_lt]
    generalize s.takeWhile Char.isDigit = digits
    split_ifs with hempty hfits
    · exact le_rfl
    · rw [Option.getD_some]
      omega
    · exact le_rfl

/-- The number that is read begins the rest of the line. -/
lemma OneLength.getContentLength_eq {head v : Str} (h : OneLength head v) :
    getContentLength head = lengthAfter v := by
  obtain ⟨⟨a, rest, hhead, hend⟩, honce⟩ := h
  have hcrlf : crlf.length = 2 := rfl
  have hdrop : head.drop (a.length + 2) = upperLength ++ (v ++ rest) := by
    rw [hhead, ← List.drop_drop, List.drop_left, ← hcrlf, List.drop_left]
  have hpre : upperLength <+: head.drop (a.length + 2) := hdrop ▸ List.prefix_append _ _
  have hfound : find upperLength head = some (a.length + 2) := by
    cases hf : find upperLength head with
    | none => exact absurd (hpre.isInfix.trans (List.drop_suffix _ _).isInfix) (find_eq_none.1 hf)
    | some i => rw [honce i (a.length + 2) (find_eq_some.1 hf).1 hpre]
  have htext : textAfter upperLength head = some (v ++ rest) := by
    rw [textAfter, hfound, Option.map_some, ← List.drop_drop, hdrop, List.drop_left]
  rw [Http.getContentLength_eq, htext, Option.some_or, Option.map_some, Option.getD_some]
  rcases hend with hend | ⟨-, rfl⟩
  · obtain ⟨⟨t, ht⟩, -⟩ := find_eq_some.1 hend
    rw [List.drop_left] at ht
    rw [← ht, lengthAfter_append_crlf]
  · rw [List.append_nil]

/-- A malformed content length is rejected exactly if it is negative and a `long long` can hold it. -/
theorem malformed_rejected_iff {buffer v : Str} {headerEnd : ℕ} {request : HttpRequest}
    (hfound : find headerTerminator buffer = some headerEnd)
    (hline : readRequestLine (buffer.take headerEnd) = .ok request)
    (h : MalformedLength (buffer.take headerEnd) v) :
    (parseHTTPRequest buffer).status = .error ↔ IsNegative v := by
  rw [← lengthAfter_neg_iff, ← h.getContentLength_eq]
  simp only [parseHTTPRequest, hfound, hline]
  split_ifs with hneg hshort
  · exact iff_of_true rfl hneg
  · exact iff_of_false (fun hs => by cases hs) hneg
  · exact iff_of_false (fun hs => by cases hs) hneg

/-- A request whose content length is not a number. -/
def lengthAbc : Str := "POST /kvstore/create HTTP/1.1\r\nContent-Length: abc\r\n\r\n".toList

/-- Its content length is malformed. -/
lemma malformedLength_abc : MalformedLength (lengthAbc.take 50) " abc".toList := by
  have honce (i : ℕ) (h : upperLength <+: (lengthAbc.take 50).drop i) : i = 31 := by
    have hshort : ∀ i < 51, upperLength.isPrefixOf ((lengthAbc.take 50).drop i) = true → i = 31 := by
      decide +kernel
    have hlen : (lengthAbc.take 50).length ≤ 50 := List.length_take_le _ _
    have hle := h.length_le
    rw [List.length_drop] at hle
    have hpat : upperLength.length = 15 := rfl
    exact hshort i (by omega) (List.isPrefixOf_iff_prefix.2 h)
  refine ⟨⟨⟨postCreate, [], rfl, .inr ⟨by decide, rfl⟩⟩, fun i j hi hj => ?_⟩, fun h => ?_⟩
  · rw [honce i hi, honce j hj]
  · have ha := h.1.digits 'a' (by decide)
    cases ha

/-- So it is rejected exactly if it is negative. -/
theorem malformed_rejected_iff_abc :
    (parseHTTPRequest lengthAbc).status = .error ↔ IsNegative " abc".toList :=
  malformed_rejected_iff (by decide +kernel) (by rfl) malformedLength_abc

/-- The content length is taken for 0. -/
theorem malformed_accepted :
    MalformedLength (lengthAbc.take 50) " abc".toList
      ∧ (parseHTTPRequest lengthAbc).status = .complete
      ∧ (parseHTTPRequest lengthAbc).request.body = [] := by
  refine ⟨malformedLength_abc, ?_⟩
  decide +kernel

end KvStore.Http
