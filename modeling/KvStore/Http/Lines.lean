import KvStore.Http.Response

/-!
# Header sections

A header section is a list of lines with line ends between them, and a blank line ends it.

* `find_terminator_line`, `find_headerSection`: the header section ends after its last line.
* `map_dropCR_getlines`, `readRequestLine_requestLine`: reading the lines of a header section and the
  first line of a request gives them back.
-/

namespace KvStore.Http
open KvStore.Lib

/-- A header section: its first line and the lines after it. -/
def headerSection (start : Str) (lines : List Str) : Str :=
  start ++ lines.flatMap (crlf ++ ·)

/-- A line that is not empty and ends where it is printed to end. -/
structure IsLine (line : Str) : Prop where
  ne_nil : line ≠ []
  noCR : '\r' ∉ line
  noLF : '\n' ∉ line

/-- A header section without fields is its first line. -/
@[simp] lemma headerSection_nil (start : Str) : headerSection start [] = start :=
  List.append_nil start

/-- The first line is followed by the others. -/
lemma headerSection_cons (start line : Str) (lines : List Str) :
    headerSection start (line :: lines) = start ++ (crlf ++ headerSection line lines) := by
  simp only [headerSection, List.flatMap_cons, List.append_assoc]

/-- Printing every line with its end and a blank line after them prints a header section and its
    terminator. -/
lemma printed_headerSection (start : Str) (lines : List Str) (t : Str) :
    (start :: lines).flatMap (· ++ crlf) ++ (crlf ++ t)
      = headerSection start lines ++ (headerTerminator ++ t) := by
  induction lines generalizing start with
  | nil =>
    have hterminator : headerTerminator = crlf ++ crlf := rfl
    simp [hterminator]
  | cons line lines ih =>
    rw [List.flatMap_cons, List.append_assoc, ih, headerSection_cons]
    simp only [List.append_assoc]

/-- A line end is found at the end of a line. -/
lemma find_crlf {line : Str} (hline : '\r' ∉ line) (t : Str) :
    find crlf (line ++ (crlf ++ t)) = some line.length := by
  have hskip : find crlf (line ++ (crlf ++ t)) = (find crlf (crlf ++ t)).map (· + line.length) :=
    find_append_of_not_mem hline ['\n'] _
  have hstart : find crlf (crlf ++ t) = some 0 := rfl
  rw [hskip, hstart, Option.map_some, Nat.zero_add]

/-- A line end that no other one follows does not end the header section. -/
lemma find_terminator_line {a b : Str} (ha : find crlf (a ++ (crlf ++ b)) = some a.length)
    (hb : ¬ crlf <+: b) :
    find headerTerminator (a ++ (crlf ++ b))
      = (find headerTerminator b).map (· + (a.length + 2)) := by
  have hlen : crlf.length = 2 := rfl
  have hterminator : headerTerminator = crlf ++ crlf := rfl
  obtain ⟨-, -, hfirst⟩ := find_eq_some.1 ha
  have hdrop : (a ++ (crlf ++ b)).drop (a.length + 2) = b := by
    rw [← List.drop_drop, List.drop_left, ← hlen, List.drop_left]
  have hnot (j : ℕ) (hj : j < a.length + 2) : ¬ headerTerminator <+: (a ++ (crlf ++ b)).drop j := by
    intro hp
    rcases Nat.lt_succ_iff_lt_or_eq.1 hj with hj | rfl
    · rcases Nat.lt_succ_iff_lt_or_eq.1 hj with hj | rfl
      · exact hfirst j hj ((List.prefix_append crlf crlf).trans hp)
      · rw [List.drop_left, hterminator, List.prefix_append_right_inj] at hp
        exact hb hp
    · -- the line feed of this line end
      have hnext : (a ++ (crlf ++ b)).drop (a.length + 1) = '\n' :: b := by
        rw [← List.drop_drop, List.drop_left]
        rfl
      rw [hnext] at hp
      cases (List.cons_prefix_cons.1 hp).1
  rw [find_eq_find_drop (by simp [hlen]) hnot, hdrop]

/-- The header section ends after its last line. -/
lemma find_headerSection {start : Str} {lines : List Str} (hstart : '\r' ∉ start)
    (hlines : ∀ line ∈ lines, line ≠ [] ∧ '\r' ∉ line) (t : Str) :
    find headerTerminator (headerSection start lines ++ (headerTerminator ++ t))
      = some (headerSection start lines).length := by
  induction lines generalizing start with
  | nil =>
    have hskip : find headerTerminator (start ++ (headerTerminator ++ t))
        = (find headerTerminator (headerTerminator ++ t)).map (· + start.length) :=
      find_append_of_not_mem hstart "\n\r\n".toList _
    have hend : find headerTerminator (headerTerminator ++ t) = some 0 := rfl
    rw [headerSection_nil, hskip, hend, Option.map_some, Nat.zero_add]
  | cons line lines ih =>
    obtain ⟨⟨hne, hline⟩, hrest⟩ := List.forall_mem_cons.1 hlines
    have hnext : ¬ crlf <+: headerSection line lines ++ (headerTerminator ++ t) := by
      obtain ⟨c, cs, rfl⟩ := List.exists_cons_of_ne_nil hne
      intro hp
      have hc : '\r' = c := (List.cons_prefix_cons.1 hp).1
      exact hline (hc ▸ List.mem_cons_self)
    have hlen : crlf.length = 2 := rfl
    rw [headerSection_cons, List.append_assoc, List.append_assoc,
      find_terminator_line (find_crlf hstart _) hnext, ih hline hrest]
    simp only [Option.map_some, List.length_append, hlen, Option.some.injEq]
    omega

/-- A line without a carriage return stays as it is. -/
lemma dropCR_of_not_mem {line : Str} (h : '\r' ∉ line) : dropCR line = line :=
  if_neg fun hl => h (List.mem_of_getLast? hl)

/-- One at the end is dropped. -/
@[simp] lemma dropCR_append_cr (line : Str) : dropCR (line ++ ['\r']) = line := by
  simp [dropCR]

/-- Reading the lines of a header section. -/
lemma map_dropCR_getlines {start : Str} {lines : List Str}
    (h : ∀ line ∈ start :: lines, IsLine line) :
    (getlines (headerSection start lines)).map dropCR = start :: lines := by
  induction lines generalizing start with
  | nil =>
    have hstart := h start List.mem_cons_self
    rw [headerSection_nil, getlines_last hstart.ne_nil hstart.noLF, List.map_singleton,
      dropCR_of_not_mem hstart.noCR]
  | cons line lines ih =>
    obtain ⟨hstart, hrest⟩ := List.forall_mem_cons.1 h
    have hprint : headerSection start (line :: lines)
        = (start ++ ['\r']) ++ "\n".toList ++ headerSection line lines := by
      simp [headerSection_cons, crlf]
    have hnot : '\n' ∉ start ++ ['\r'] := by simp [hstart.noLF]
    rw [hprint, getlines_append hnot, List.map_cons, dropCR_append_cr, ih hrest]

/-- The first line of a request. -/
def requestLine (method path version : Str) : Str := method ++ ' ' :: (path ++ ' ' :: version)

/-- Reading a request line back. -/
lemma readRequestLine_requestLine {method path version : Str} (hmethod : ' ' ∉ method)
    (hpath : ' ' ∉ path) (hcr : '\r' ∉ requestLine method path version) (t : Str) :
    readRequestLine (requestLine method path version ++ (crlf ++ t))
      = .ok { method := method, path := path, version := version } := by
  have hblank : " ".toList = [' '] := rfl
  have hfirst : find [' '] (requestLine method path version) = some method.length := by
    have hstart : find [' '] (' ' :: (path ++ ' ' :: version)) = some 0 := rfl
    rw [requestLine, find_append_of_not_mem hmethod, hstart, Option.map_some, Nat.zero_add]
  have hdrop : (requestLine method path version).drop (method.length + 1)
      = path ++ ' ' :: version := by
    rw [requestLine, ← List.drop_drop, List.drop_left]
    rfl
  have hsecond : findFrom [' '] (requestLine method path version) (method.length + 1)
      = some (path.length + (method.length + 1)) := by
    have hstart : find [' '] (' ' :: version) = some 0 := rfl
    rw [findFrom, hdrop, find_append_of_not_mem hpath, hstart, Option.map_some, Option.map_some,
      Nat.zero_add]
  have hpath' : substr (requestLine method path version) (method.length + 1)
      (path.length + (method.length + 1) - method.length - 1) = path := by
    rw [substr, hdrop, show path.length + (method.length + 1) - method.length - 1 = path.length by
      omega, List.take_left]
  have hversion : (requestLine method path version).drop (path.length + (method.length + 1) + 1)
      = version := by
    rw [show path.length + (method.length + 1) + 1 = method.length + 1 + (path.length + 1) by omega,
      ← List.drop_drop, hdrop, ← List.drop_drop, List.drop_left]
    rfl
  have hmethod' : (requestLine method path version).take method.length = method := List.take_left
  simp only [readRequestLine, find_crlf hcr, List.take_left, hblank, hfirst, hsecond, hpath',
    hversion, hmethod']

/-- Reading the request line of a header section. -/
lemma readRequestLine_headerSection {method path version : Str} (hmethod : ' ' ∉ method)
    (hpath : ' ' ∉ path) (hcr : '\r' ∉ requestLine method path version) {lines : List Str}
    (hne : lines ≠ []) :
    readRequestLine (headerSection (requestLine method path version) lines)
      = .ok { method := method, path := path, version := version } := by
  obtain ⟨line, lines, rfl⟩ := List.exists_cons_of_ne_nil hne
  rw [headerSection_cons, readRequestLine_requestLine hmethod hpath hcr]

end KvStore.Http
