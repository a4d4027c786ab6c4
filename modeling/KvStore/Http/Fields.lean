import KvStore.Http.Lines

/-!
# The header fields of a response

The loop of `parseHTTPResponse` over the header lines keeps the last content length, whether one
could be read, and the header map. `scanHeaders_reads` says so in terms of the list of the fields.

* `consistent_iff`: the responses that are taken off the buffer as they are, header section, blank
  line and a body of the length that was read.
* `not_consistent_minusOne`: with the length -1 not even the whole blank line is taken.
* `rawResponse_eq_nil_iff`: with some lengths nothing is.
-/

namespace KvStore.Http
open KvStore.Lib

/-- The name and the value in a header line. -/
def headerField (line : Str) : Option (Str × Str) :=
  (find ":".toList line).map fun colonPos =>
    (line.take colonPos, (line.drop (colonPos + 1)).dropWhile isBlank)

/-- The fields of a header section: the lines after the first one, up to an empty line. -/
def headerFields (headerPart : Str) : List (Str × Str) :=
  (((getlines headerPart).tail.map dropCR).takeWhile (· ≠ [])).filterMap headerField

/-- The field is a content length. -/
def IsLength (field : Str × Str) : Prop := toLower field.1 = "content-length".toList

instance (field : Str × Str) : Decidable (IsLength field) :=
  inferInstanceAs (Decidable (_ = _))

/-- What `std::stoul` reads from the content lengths among the fields, `none` where it throws. -/
def lengthReads (fields : List (Str × Str)) : List (Option ℕ) :=
  (fields.filter (IsLength ·)).map fun field => stoul field.2

/-- The content length that is accepted: the last one that can be read. -/
def acceptedLength (fields : List (Str × Str)) : Option ℕ :=
  ((lengthReads fields).filterMap id).getLast?

/-- What the loop has found when it has read the fields. -/
structure HeaderScan.Reads (s : HeaderScan) (fields : List (Str × Str)) : Prop where
  contentLength : s.contentLength = (lengthReads fields).getLast?.join.getD 0
  contentLengthFound : s.contentLengthFound = (acceptedLength fields).isSome
  headers : s.headers = fields.foldl (fun headers field => headers.insert field.1 field.2) .empty

/-- The lengths of some fields and more of them, -/
lemma lengthReads_append (fields fields' : List (Str × Str)) :
    lengthReads (fields ++ fields') = lengthReads fields ++ lengthReads fields' := by
  rw [lengthReads, List.filter_append, List.map_append]
  rfl

/-- and of a single field. -/
lemma lengthReads_singleton (field : Str × Str) :
    lengthReads [field] = if IsLength field then [stoul field.2] else [] := by
  by_cases h : IsLength field
  · simp [lengthReads, h]
  · simp [lengthReads, h]

/-- Only one of the fields is a content length. -/
lemma lengthReads_only {before after : List (Str × Str)} {field : Str × Str} (h : IsLength field)
    (honly : ∀ field ∈ before ++ after, ¬ IsLength field) :
    lengthReads (before ++ field :: after) = [stoul field.2] := by
  have hnone (fields : List (Str × Str)) (hf : ∀ field ∈ fields, ¬ IsLength field) :
      lengthReads fields = [] := by
    rw [lengthReads, List.filter_eq_nil_iff.2 fun field hm => by simpa using hf field hm,
      List.map_nil]
  rw [List.forall_mem_append] at honly
  rw [← List.singleton_append, lengthReads_append, lengthReads_append, lengthReads_singleton,
    if_pos h, hnone before honly.1, hnone after honly.2, List.nil_append, List.append_nil]

/-- A line without a colon is passed over. -/
lemma HeaderScan.line_of_none {line : Str} (h : headerField line = none) (s : HeaderScan) :
    s.line line = s := by
  rw [HeaderScan.line, Option.map_eq_none_iff.1 h]

/-- A line with a field. -/
lemma HeaderScan.line_of_some {line : Str} {field : Str × Str} (h : headerField line = some field)
    (s : HeaderScan) :
    s.line line
      = { contentLength := if IsLength field then (stoul field.2).getD 0 else s.contentLength
          contentLengthFound :=
            if IsLength field then (stoul field.2).isSome || s.contentLengthFound
            else s.contentLengthFound
          headers := s.headers.insert field.1 field.2 } := by
  obtain ⟨colonPos, hcolon, rfl⟩ := Option.map_eq_some_iff.1 h
  rw [HeaderScan.line, hcolon]
  by_cases hlength : IsLength (line.take colonPos, (line.drop (colonPos + 1)).dropWhile isBlank)
  · have hname : toLower (line.take colonPos) = "content-length".toList := hlength
    simp only [if_pos hlength, hname, if_true]
    cases stoul ((line.drop (colonPos + 1)).dropWhile isBlank) <;> rfl
  · have hname : ¬ toLower (line.take colonPos) = "content-length".toList := hlength
    simp only [if_neg hlength, hname, if_false]

/-- Reading one more line. -/
lemma HeaderScan.Reads.line {s : HeaderScan} {fields : List (Str × Str)} (h : s.Reads fields)
    (line : Str) : (s.line line).Reads (fields ++ (headerField line).toList) := by
  cases hfield : headerField line with
  | none => simpa [line_of_none hfield] using h
  | some field =>
    rw [line_of_some hfield, Option.toList_some]
    have hreads := lengthReads_singleton field
    split_ifs at hreads ⊢ with hlength
    · cases hvalue : stoul field.2 with
      | none =>
        rw [hvalue] at hreads
        constructor
        · simp [lengthReads_append, hreads]
        · simp [acceptedLength, lengthReads_append, hreads, h.contentLengthFound]
        · simp [h.headers]
      | some n =>
        rw [hvalue] at hreads
        constructor
        · simp [lengthReads_append, hreads]
        · simp [acceptedLength, lengthReads_append, hreads]
        · simp [h.headers]
    · constructor
      · simp [lengthReads_append, hreads, h.contentLength]
      · simp [acceptedLength, lengthReads_append, hreads, h.contentLengthFound]
      · simp [h.headers]

/-- Reading more lines, up to an empty one. -/
lemma HeaderScan.Reads.lines {s : HeaderScan} {fields : List (Str × Str)} (h : s.Reads fields)
    (lines : List Str) :
    (s.lines lines).Reads
      (fields ++ ((lines.map dropCR).takeWhile (· ≠ [])).filterMap headerField) := by
  induction lines generalizing s fields with
  | nil => simpa [HeaderScan.lines] using h
  | cons line lines ih =>
    rw [HeaderScan.lines, List.map_cons]
    split_ifs with hempty
    · rw [List.takeWhile_cons_of_neg (by simpa using hempty)]
      simpa using h
    · rw [List.takeWhile_cons_of_pos (by simpa using hempty)]
      have hrest := ih (h.line (dropCR line))
      rw [List.append_assoc] at hrest
      cases hfield : headerField (dropCR line) with
      | none => simpa [hfield] using hrest
      | some field => simpa [hfield] using hrest

/-- What the parser finds in the lines of a header section. -/
theorem scanHeaders_reads (headerPart : Str) :
    (scanHeaders headerPart).Reads (headerFields headerPart) := by
  have h0 : HeaderScan.Reads {} [] := ⟨rfl, rfl, rfl⟩
  simpa [scanHeaders, headerFields] using h0.lines (getlines headerPart).tail

/-- A field as it is printed. -/
def fieldLine (field : Str × Str) : Str := field.1 ++ ':' :: (' ' :: field.2)

/-- A field whose name and value are read back as they are printed, blanks before the value aside. -/
structure IsField (field : Str × Str) : Prop where
  ne_nil : field.1 ≠ []
  noColon : ':' ∉ field.1
  name_line : '\r' ∉ field.1 ∧ '\n' ∉ field.1
  value_line : '\r' ∉ field.2 ∧ '\n' ∉ field.2

/-- A field is printed as a line. -/
lemma IsField.isLine {field : Str × Str} (h : IsField field) : IsLine (fieldLine field) := by
  constructor
  · exact List.append_ne_nil_of_left_ne_nil h.ne_nil _
  · simp [fieldLine, h.name_line.1, h.value_line.1]
  · simp [fieldLine, h.name_line.2, h.value_line.2]

/-- A field as it is read: the blanks before the value are dropped. -/
def readField (field : Str × Str) : Str × Str := (field.1, field.2.dropWhile isBlank)

/-- Reading a printed field. -/
lemma headerField_fieldLine {field : Str × Str} (h : ':' ∉ field.1) :
    headerField (fieldLine field) = some (readField field) := by
  have hcolon : find ":".toList (fieldLine field) = some field.1.length := by
    have hpat : ":".toList = [':'] := rfl
    have hstart : find [':'] (':' :: (' ' :: field.2)) = some 0 := rfl
    rw [hpat, fieldLine, find_append_of_not_mem h, hstart, Option.map_some, Nat.zero_add]
  have hname : (fieldLine field).take field.1.length = field.1 := List.take_left
  have hvalue : (fieldLine field).drop (field.1.length + 1) = ' ' :: field.2 := by
    rw [fieldLine, ← List.drop_drop, List.drop_left]
    rfl
  rw [headerField, hcolon, Option.map_some, hname, hvalue, List.dropWhile_cons_of_pos rfl, readField]

/-- Reading the fields of a header section. -/
lemma headerFields_headerSection {start : Str} {fields : List (Str × Str)} (hstart : IsLine start)
    (h : ∀ field ∈ fields, IsField field) :
    headerFields (headerSection start (fields.map fieldLine)) = fields.map readField := by
  have hlines : ∀ line ∈ start :: fields.map fieldLine, IsLine line :=
    List.forall_mem_cons.2 ⟨hstart, List.forall_mem_map.2 fun field hf => (h field hf).isLine⟩
  have htail : (getlines (headerSection start (fields.map fieldLine))).tail.map dropCR
      = fields.map fieldLine := by
    rw [List.map_tail, map_dropCR_getlines hlines, List.tail_cons]
  have hall : (fields.map fieldLine).takeWhile (· ≠ []) = fields.map fieldLine := by
    rw [List.takeWhile_eq_self_iff]
    exact fun line hl => decide_eq_true (hlines line (List.mem_cons_of_mem _ hl)).ne_nil
  rw [headerFields, htail, hall, List.filterMap_map]
  exact List.filterMap_eq_map_iff_forall_eq_some.2 fun field hf =>
    headerField_fieldLine (h field hf).noColon

/-- The length of the body that the parser takes. -/
def bodyLength (buffer : Str) (headerEnd : ℕ) : ℕ :=
  if (scanHeaders (buffer.take headerEnd)).contentLengthFound then
    (scanHeaders (buffer.take headerEnd)).contentLength
  else buffer.length - (headerEnd + 4)

/-- The parser, where the end of the header section has been found. -/
lemma parse_of_found {buffer : Str} {headerEnd : ℕ}
    (h : find headerTerminator buffer = some headerEnd) :
    parseHTTPResponse buffer
      = if buffer.length < (headerEnd + 4 + bodyLength buffer headerEnd) % sizes then
          { status := .incomplete, response := readHeaderPart (buffer.take headerEnd) }
        else
          { status := .complete
            response :=
              { readHeaderPart (buffer.take headerEnd) with
                body := substr buffer (headerEnd + 4) (bodyLength buffer headerEnd)
                rawResponse := buffer.take ((headerEnd + 4 + bodyLength buffer headerEnd) % sizes) }
            consumed := (headerEnd + 4 + bodyLength buffer headerEnd) % sizes } := by
  rw [parseHTTPResponse, h]
  rfl

/-- A complete response has no bytes exactly if the lengths of its parts make `0`. -/
lemma rawResponse_eq_nil_iff {buffer : Str} {headerEnd : ℕ}
    (hfound : find headerTerminator buffer = some headerEnd)
    (h : (parseHTTPResponse buffer).status = .complete) :
    (parseHTTPResponse buffer).response.rawResponse = []
      ↔ sizes ∣ headerEnd + 4 + bodyLength buffer headerEnd := by
  have hne : buffer ≠ [] := by
    rintro rfl
    cases hfound
  rw [parse_of_found hfound] at h ⊢
  split_ifs at h ⊢ with hlt
  rw [Nat.dvd_iff_mod_eq_zero, List.take_eq_nil_iff, or_iff_left hne]

example :
    let result := parseHTTPResponse
      "HTTP/1.1 200 OK\r\nContent-Length: 18446744073709551559\r\n\r\n".toList
    result.status = .complete ∧ result.response.rawResponse = [] := by
  decide +kernel

/-- Without a content length that can be read the rest of the buffer is the body. -/
lemma bodyLength_of_none {buffer : Str} {headerEnd : ℕ}
    (h : acceptedLength (headerFields (buffer.take headerEnd)) = none) :
    bodyLength buffer headerEnd = buffer.length - (headerEnd + 4) := by
  have hfound := (scanHeaders_reads (buffer.take headerEnd)).contentLengthFound
  rw [h] at hfound
  rw [bodyLength, hfound]
  rfl

/-- The last content length is the accepted one, or it could not be read. -/
lemma getLast?_lengthReads {fields : List (Str × Str)} {n : ℕ} (h : acceptedLength fields = some n) :
    (lengthReads fields).getLast? = some (some n) ∨ (lengthReads fields).getLast? = some none := by
  cases hlast : (lengthReads fields).getLast? with
  | none =>
    rw [acceptedLength, List.getLast?_eq_none_iff.1 hlast] at h
    cases h
  | some last =>
    cases last with
    | none => exact .inr rfl
    | some m =>
      obtain ⟨reads, hreads⟩ := List.getLast?_eq_some_iff.1 hlast
      rw [acceptedLength, hreads, List.filterMap_append] at h
      simp only [List.filterMap_cons, id, List.filterMap_nil, List.getLast?_append_cons,
        List.getLast?_singleton] at h
      exact .inl (congrArg _ h)

/-- With a content length that can be read the body is as long as the last one says, 0 if that one
    cannot be read. -/
lemma bodyLength_of_some {buffer : Str} {headerEnd n : ℕ}
    (h : acceptedLength (headerFields (buffer.take headerEnd)) = some n) :
    bodyLength buffer headerEnd
      = (lengthReads (headerFields (buffer.take headerEnd))).getLast?.join.getD 0 := by
  have hreads := scanHeaders_reads (buffer.take headerEnd)
  have hfound := hreads.contentLengthFound
  rw [h] at hfound
  rw [bodyLength, hfound, hreads.contentLength]
  rfl

/-- A complete result takes its parts from the buffer: the header section, the blank line and a body
    of the content length that was accepted, if one was. -/
structure ConsistentAt (buffer : Str) (headerEnd : ℕ) : Prop where
  consumed_le : (parseHTTPResponse buffer).consumed ≤ buffer.length
  rawResponse_eq :
    (parseHTTPResponse buffer).response.rawResponse
      = buffer.take (parseHTTPResponse buffer).consumed
  parts :
    (parseHTTPResponse buffer).response.rawResponse
      = buffer.take headerEnd ++ headerTerminator ++ (parseHTTPResponse buffer).response.body
  length_body :
    ∀ n ∈ acceptedLength (headerFields (buffer.take headerEnd)),
      (parseHTTPResponse buffer).response.body.length = n

/-- If the result is complete, it is consistent. -/
def Consistent (buffer : Str) : Prop :=
  (parseHTTPResponse buffer).status = .complete →
    ∃ headerEnd, find headerTerminator buffer = some headerEnd ∧ ConsistentAt buffer headerEnd

/-- The accepted content length does not make the sum of the lengths wrap, and no later content
    length takes its place. -/
structure LengthFits (headerEnd : ℕ) (fields : List (Str × Str)) (n : ℕ) : Prop where
  noWrap : headerEnd + 4 + n < sizes
  noReset : (lengthReads fields).getLast? = some none → n = 0

/-- A content length that can be read is a value of `size_t`. -/
lemma lt_of_mem_lengthReads {fields : List (Str × Str)} {n : ℕ} (h : some n ∈ lengthReads fields) :
    n < sizes := by
  obtain ⟨field, -, hfield⟩ := List.mem_map.1 h
  exact stoul_lt hfield

/-- A value that is read is a value of `size_t`, and so is 0. -/
lemma getD_lengthReads_lt (fields : List (Str × Str)) :
    (lengthReads fields).getLast?.join.getD 0 < sizes := by
  cases h : (lengthReads fields).getLast?.join with
  | none => exact Nat.two_pow_pos 64
  | some n => exact lt_of_mem_lengthReads (List.mem_of_getLast? (Option.join_eq_some_iff.1 h))

/-- The content length that is found is a value of `size_t`. -/
lemma contentLength_lt (headerPart : Str) : (scanHeaders headerPart).contentLength < sizes := by
  rw [(scanHeaders_reads headerPart).contentLength]
  exact getD_lengthReads_lt _

section
variable {buffer : Str} {headerEnd : ℕ}

/-- Without a wrapping sum the parts of a complete result are those of the buffer. -/
lemma parse_of_le (hfound : find headerTerminator buffer = some headerEnd)
    (hbuf : buffer.length < sizes)
    (hle : headerEnd + 4 + bodyLength buffer headerEnd ≤ buffer.length) :
    parseHTTPResponse buffer
      = { status := .complete
          response :=
            { readHeaderPart (buffer.take headerEnd) with
              body := substr buffer (headerEnd + 4) (bodyLength buffer headerEnd)
              rawResponse := buffer.take (headerEnd + 4 + bodyLength buffer headerEnd) }
          consumed := headerEnd + 4 + bodyLength buffer headerEnd } := by
  rw [parse_of_found hfound, Nat.mod_eq_of_lt (hle.trans_lt hbuf), if_neg (Nat.not_lt.2 hle)]

/-- The bytes of a response are its header section, the blank line and its body. -/
lemma take_parts (hfound : find headerTerminator buffer = some headerEnd) (n : ℕ) :
    buffer.take (headerEnd + 4 + n)
      = buffer.take headerEnd ++ headerTerminator ++ substr buffer (headerEnd + 4) n := by
  have hterminator : headerTerminator.length = 4 := rfl
  have hhead : buffer.take (headerEnd + 4) = buffer.take headerEnd ++ headerTerminator := by
    obtain ⟨⟨t, ht⟩, -, -⟩ := find_eq_some.1 hfound
    rw [List.take_add, ← ht, ← hterminator, List.take_left]
  rw [List.take_add, hhead, substr]

/-- With a wrapping sum the result is complete, but a part of the header section is missing. -/
lemma not_consistent_of_wrap (hfound : find headerTerminator buffer = some headerEnd)
    (hbuf : buffer.length < sizes) (hn : bodyLength buffer headerEnd < sizes)
    (hwrap : sizes ≤ headerEnd + 4 + bodyLength buffer headerEnd) : ¬ Consistent buffer := by
  have hterminator : headerTerminator.length = 4 := rfl
  have hle := find_add_length_le hfound
  have hmod : (headerEnd + 4 + bodyLength buffer headerEnd) % sizes
      = headerEnd + 4 + bodyLength buffer headerEnd - sizes := by
    rw [Nat.mod_eq_sub_mod hwrap, Nat.mod_eq_of_lt (by omega)]
  have hparse := parse_of_found hfound
  rw [hmod, if_neg (by omega)] at hparse
  intro h
  obtain ⟨headerEnd', hfound', hat⟩ := h (by rw [hparse])
  obtain rfl := Option.some.inj (hfound.symm.trans hfound')
  have hparts := congrArg List.length hat.parts
  rw [hparse] at hparts
  simp only [List.length_append, List.length_take] at hparts
  omega

/-- A content length that fits is the length of the body. -/
lemma bodyLength_of_fits {n : ℕ}
    (hn : acceptedLength (headerFields (buffer.take headerEnd)) = some n)
    (hfit : LengthFits headerEnd (headerFields (buffer.take headerEnd)) n) :
    bodyLength buffer headerEnd = n := by
  rw [bodyLength_of_some hn]
  rcases getLast?_lengthReads hn with hlast | hlast
  · rw [hlast]
    rfl
  · rw [hlast, hfit.noReset hlast]
    rfl

end

/-- A complete response is consistent exactly if the content length that was accepted, if any, does
    not make the sum of the lengths wrap and is not replaced by a later one that cannot be read. -/
theorem consistent_iff {buffer : Str} (hbuf : buffer.length < sizes) :
    Consistent buffer ↔ ∀ headerEnd n, find headerTerminator buffer = some headerEnd →
      acceptedLength (headerFields (buffer.take headerEnd)) = some n →
        LengthFits headerEnd (headerFields (buffer.take headerEnd)) n := by
  constructor
  · intro hc headerEnd n hfound hn
    have hle := find_add_length_le hfound
    have hterminator : headerTerminator.length = 4 := rfl
    rcases getLast?_lengthReads hn with hlast | hlast
    · have hbody : bodyLength buffer headerEnd = n := by
        rw [bodyLength_of_some hn, hlast]
        rfl
      have hlt : n < sizes := lt_of_mem_lengthReads (List.mem_of_getLast? hlast)
      refine ⟨?_, fun h => by cases hlast.symm.trans h⟩
      by_contra hwrap
      rw [← hbody] at hlt hwrap
      exact not_consistent_of_wrap hfound hbuf hlt (not_lt.1 hwrap) hc
    · have hbody : bodyLength buffer headerEnd = 0 := by
        rw [bodyLength_of_some hn, hlast]
        rfl
      have hparse := parse_of_le hfound hbuf (by omega)
      obtain ⟨headerEnd', hfound', hat⟩ := hc (by rw [hparse])
      obtain rfl := Option.some.inj (hfound.symm.trans hfound')
      have hzero := hat.length_body n hn
      rw [hparse, hbody] at hzero
      obtain rfl : n = 0 := by simpa [substr] using hzero.symm
      exact ⟨by omega, fun _ => rfl⟩
  · intro hfits hcomplete
    cases hfound : find headerTerminator buffer with
    | none =>
      rw [parseHTTPResponse, hfound] at hcomplete
      cases hcomplete
    | some headerEnd =>
      have hle := find_add_length_le hfound
      have hterminator : headerTerminator.length = 4 := rfl
      have henough : headerEnd + 4 + bodyLength buffer headerEnd ≤ buffer.length := by
        cases hn : acceptedLength (headerFields (buffer.take headerEnd)) with
        | none =>
          rw [bodyLength_of_none hn]
          omega
        | some n =>
          have hfit := hfits headerEnd n hfound hn
          rw [parse_of_found hfound, bodyLength_of_fits hn hfit, Nat.mod_eq_of_lt hfit.noWrap]
            at hcomplete
          rw [bodyLength_of_fits hn hfit]
          split_ifs at hcomplete with hlt
          exact Nat.not_lt.1 hlt
      refine ⟨headerEnd, rfl, ?_⟩
      have hparse := parse_of_le hfound hbuf henough
      constructor
      · rw [hparse]
        exact henough
      · rw [hparse]
      · rw [hparse]
        exact take_parts hfound _
      · intro n hn
        rw [hparse, ← bodyLength_of_fits hn (hfits headerEnd n hfound hn)]
        simp only [substr, List.length_take, List.length_drop]
        omega

/-- The length -1 is read as the largest `size_t`. -/
def minusOne : Str := "HTTP/1.1 200 OK\r\nContent-Length: -1\r\n\r\n".toList

/-- A response whose length is `-1`. -/
theorem consistent_iff_minusOne :
    minusOne.length < sizes ∧ (Consistent minusOne ↔ ∀ headerEnd n,
      find headerTerminator minusOne = some headerEnd →
        acceptedLength (headerFields (minusOne.take headerEnd)) = some n →
          LengthFits headerEnd (headerFields (minusOne.take headerEnd)) n) :=
  ⟨by decide, consistent_iff (by decide)⟩

/-- A part of the blank line is missing from the response with the length -1. -/
theorem not_consistent_minusOne : ¬ Consistent minusOne := by
  have hcomplete : (parseHTTPResponse minusOne).status = .complete
      ∧ find headerTerminator (parseHTTPResponse minusOne).response.rawResponse = none := by
    decide +kernel
  intro h
  obtain ⟨headerEnd, -, hat⟩ := h hcomplete.1
  exact find_eq_none.1 hcomplete.2 ⟨_, _, hat.parts.symm⟩

end KvStore.Http
