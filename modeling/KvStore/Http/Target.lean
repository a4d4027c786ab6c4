import KvStore.Lib.Str

/-!
# Request targets

How `httplib.h` gets from the path a client asks for to the path a server matches its routes on:
the client encodes some characters (`encode_path`), the server drops fragment and query and decodes
the rest (`decode_path_component`).

Characters that are not special arrive as they are, whether they stand in a target
(`requestPath_append`) or a client encodes them (`clientPath_append`). An escape never takes up a
slash, so that the part after the last slash arrives as it is if there is no `%` in it
(`exists_decode_slash`).
-/

namespace KvStore.Http
open KvStore.Lib

/-- `is_hex`. -/
def isHex (c : Char) : Option ℕ :=
  if c.isDigit then some (c.toNat - '0'.toNat)
  else if 'A' ≤ c ∧ c ≤ 'F' then some (c.toNat - 'A'.toNat + 10)
  else if 'a' ≤ c ∧ c ≤ 'f' then some (c.toNat - 'a'.toNat + 10)
  else none

/-- `from_hex_to_i` at the beginning of a string. -/
def fromHexToI (s : Str) (cnt : ℕ) : Option ℕ :=
  if s.length < cnt then none
  else (s.take cnt).foldlM (fun val c => (isHex c).map fun v => val * 16 + v) 0

/-- `to_utf8`, for a code of at most four digits. -/
def toUtf8 (code : ℕ) : Str :=
  if code < 0x80 then [Char.ofNat code]
  else if code < 0x800 then
    [Char.ofNat (0xC0 + code / 64), Char.ofNat (0x80 + code % 64)]
  else if 0xD800 ≤ code ∧ code < 0xE000 then []
  else
    [Char.ofNat (0xE0 + code / 4096), Char.ofNat (0x80 + code / 64 % 64),
      Char.ofNat (0x80 + code % 64)]

/-- What a `%` stands for, by what follows it, and how many characters that takes. -/
def percentEscape : Str → Option (Str × ℕ)
  | [] => none
  | 'u' :: s => (fromHexToI s 4).map fun val => (toUtf8 val, 5)
  | s => (fromHexToI s 2).map fun val => ([Char.ofNat val], 2)

/-- The loop of `decode_path_component`, with the number of characters to be skipped. -/
def decodeSkipping : ℕ → Str → Str
  | _, [] => []
  | skip + 1, _ :: s => decodeSkipping skip s
  | 0, c :: s =>
    if c = '%' then
      match percentEscape s with
      | some (bytes, taken) => bytes ++ decodeSkipping taken s
      | none => c :: decodeSkipping 0 s
    else c :: decodeSkipping 0 s

/-- `decode_path_component`. -/
def decodePathComponent (component : Str) : Str := decodeSkipping 0 component

/-- A target without its fragment and its query. -/
def rawPath (target : Str) : Str := (target.takeWhile (· ≠ '#')).takeWhile (· ≠ '?')

/-- The query and the fragment of a target. -/
def targetSuffix (target : Str) : Str := target.dropWhile fun c => c ≠ '?' ∧ c ≠ '#'

/-- The path that `parse_request_line` finds in a target. -/
def requestPath (target : Str) : Str := decodePathComponent (rawPath target)

/-- A hexadecimal digit, as `%X` prints it. -/
def hexDigit (n : ℕ) : Char := Char.ofNat (if n < 10 then '0'.toNat + n else 'A'.toNat + (n - 10))

/-- The characters that `encode_path` encodes, besides the bytes from 0x80 on. -/
def needsEncoding (c : Char) : Bool :=
  c = ' ' || c = '+' || c = '\r' || c = '\n' || c = '\'' || c = ',' || c = ';'

/-- `encode_path`. It stops at a NUL. -/
def encodePath (s : Str) : Str :=
  (s.takeWhile (· ≠ '\x00')).flatMap fun c =>
    if needsEncoding c ∨ 0x80 ≤ c.toNat then
      ['%', hexDigit (c.toNat / 16 % 16), hexDigit (c.toNat % 16)]
    else [c]

/-- The path at which a request that a client makes for `path` arrives. The client keeps the query
    apart, and the server drops it. -/
def clientPath (path : Str) : Str := requestPath (encodePath (path.takeWhile (· ≠ '?')))

/-- A character that stands for itself in a target. -/
def isPlain (c : Char) : Bool :=
  !needsEncoding c && c.toNat < 0x80 && c ≠ '\x00' && c ≠ '#' && c ≠ '?' && c ≠ '%'

/-- A plain character is none that is not plain, -/
lemma ne_of_isPlain {c d : Char} (hc : isPlain c = true) (hd : isPlain d = false) : c ≠ d := by
  rintro rfl
  rw [hc] at hd
  cases hd

/-- and is not encoded. -/
lemma not_needsEncoding {c : Char} (hc : isPlain c = true) :
    ¬ (needsEncoding c = true ∨ 0x80 ≤ c.toNat) := by
  simp only [isPlain, Bool.and_eq_true, Bool.not_eq_true', decide_eq_true_eq] at hc
  rintro (h | h)
  · rw [hc.1.1.1.1.1] at h
    cases h
  · exact absurd hc.1.1.1.1.2 (Nat.not_lt.2 h)

section
variable {start : Str} (h : ∀ c ∈ start, isPlain c = true) (s : Str)
include h

/-- A special character does not end a plain string. -/
lemma takeWhile_append {d : Char} (hd : isPlain d = false) :
    (start ++ s).takeWhile (· ≠ d) = start ++ s.takeWhile (· ≠ d) :=
  List.takeWhile_append_of_pos fun c hc => decide_eq_true (ne_of_isPlain (h c hc) hd)

/-- Decoding leaves plain characters at the start as they are, -/
lemma decodePathComponent_append :
    decodePathComponent (start ++ s) = start ++ decodePathComponent s := by
  unfold decodePathComponent
  induction start with
  | nil => rfl
  | cons c start ih =>
    rw [List.cons_append, decodeSkipping,
      if_neg (ne_of_isPlain (h c List.mem_cons_self) (by decide)),
      ih fun d hd => h d (List.mem_cons_of_mem _ hd), List.cons_append]

/-- and so does reading a target, -/
lemma requestPath_append : requestPath (start ++ s) = start ++ requestPath s := by
  rw [requestPath, rawPath, takeWhile_append h s (by decide), takeWhile_append h _ (by decide),
    decodePathComponent_append h, requestPath, rawPath]

/-- encoding a path, -/
lemma encodePath_append : encodePath (start ++ s) = start ++ encodePath s := by
  rw [encodePath, takeWhile_append h s (by decide), List.flatMap_append, encodePath]
  congr 1
  exact (List.flatMap_congr fun c hc => if_neg (not_needsEncoding (h c hc))).trans
    (List.flatMap_singleton' start)

/-- and sending it. -/
lemma clientPath_append : clientPath (start ++ s) = start ++ clientPath s := by
  rw [clientPath, takeWhile_append h s (by decide), encodePath_append h, requestPath_append h,
    clientPath]

/-- So a plain target is its own path, -/
lemma requestPath_eq_self : requestPath start = start := by
  have happ := requestPath_append h []
  rwa [List.append_nil, show requestPath [] = [] from rfl, List.append_nil] at happ

/-- and arrives as it is. -/
lemma clientPath_eq_self : clientPath start = start := by
  have happ := clientPath_append h []
  rwa [List.append_nil, show clientPath [] = [] from rfl, List.append_nil] at happ

end

/-- A target is its path and what comes after it. -/
lemma rawPath_append_targetSuffix (target : Str) :
    rawPath target ++ targetSuffix target = target := by
  rw [rawPath, List.takeWhile_takeWhile, targetSuffix]
  simp only [decide_eq_true_eq]
  exact List.takeWhile_append_dropWhile

/-- Query and fragment begin with their mark. -/
lemma head_targetSuffix {target rest : Str} {c : Char} (h : targetSuffix target = c :: rest) :
    c = '?' ∨ c = '#' := by
  have hnot := List.head?_dropWhile_not (fun c => decide (c ≠ '?' ∧ c ≠ '#')) target
  rw [targetSuffix] at h
  rw [h] at hnot
  have hmark : ¬ (c ≠ '?' ∧ c ≠ '#') := of_decide_eq_false hnot
  by_cases hc : c = '?'
  · exact .inl hc
  · exact .inr (not_not.1 fun hf => hmark ⟨hc, hf⟩)

/-- Only hexadecimal digits are read. -/
lemma foldlM_isHex_eq_none {l : Str} {c : Char} (hc : c ∈ l) (hhex : isHex c = none) (v : ℕ) :
    l.foldlM (fun val c => (isHex c).map fun v => val * 16 + v) v = none := by
  induction l generalizing v with
  | nil => cases hc
  | cons d l ih =>
    rw [List.foldlM_cons]
    rcases List.mem_cons.1 hc with rfl | hc
    · rw [hhex]
      rfl
    · cases isHex d with
      | none => rfl
      | some w => exact ih hc _

/-- The digits of an escape end before a slash. -/
lemma le_of_fromHexToI {s t : Str} {n v : ℕ} (h : fromHexToI (s ++ '/' :: t) n = some v) :
    n ≤ s.length := by
  unfold fromHexToI at h
  split_ifs at h
  by_contra hn
  have hslash : '/' ∈ (s ++ '/' :: t).take n := by
    obtain ⟨k, rfl⟩ : ∃ k, n = s.length + (k + 1) := ⟨n - s.length - 1, by omega⟩
    rw [List.take_length_add_append, List.take_succ_cons]
    exact List.mem_append_right _ List.mem_cons_self
  rw [foldlM_isHex_eq_none hslash rfl] at h
  cases h

/-- An escape does not take up a slash. -/
lemma le_of_percentEscape {s t bytes : Str} {taken : ℕ}
    (h : percentEscape (s ++ '/' :: t) = some (bytes, taken)) : taken ≤ s.length := by
  unfold percentEscape at h
  split at h
  · cases h
  · rename_i s' heq
    cases s with
    | nil => cases heq
    | cons c s =>
      obtain ⟨rfl, rfl⟩ := List.cons.inj heq
      obtain ⟨v, hv, he⟩ := Option.map_eq_some_iff.1 h
      obtain ⟨-, rfl⟩ := Prod.mk.inj he
      exact Nat.succ_le_succ (le_of_fromHexToI hv)
  · obtain ⟨v, hv, he⟩ := Option.map_eq_some_iff.1 h
    obtain ⟨-, rfl⟩ := Prod.mk.inj he
    exact le_of_fromHexToI hv

/-- Nothing is decoded without a percent sign. -/
lemma decodeSkipping_eq_self {t : Str} (ht : '%' ∉ t) : decodeSkipping 0 t = t := by
  induction t with
  | nil => rfl
  | cons c t ih =>
    obtain ⟨hc, ht⟩ := not_or.1 (mt List.mem_cons.2 ht)
    rw [decodeSkipping, if_neg (Ne.symm hc), ih ht]

/-- Decoding keeps what comes after a slash, if there is no percent sign in it. -/
lemma exists_decodeSkipping_slash {s t : Str} (ht : '%' ∉ t) {skip : ℕ} (hs : skip ≤ s.length) :
    ∃ d, decodeSkipping skip (s ++ '/' :: t) = d ++ '/' :: t := by
  induction s generalizing skip with
  | nil =>
    obtain rfl := Nat.le_zero.1 hs
    refine ⟨[], ?_⟩
    rw [List.nil_append, decodeSkipping, if_neg (by decide), decodeSkipping_eq_self ht]
  | cons c s ih =>
    cases skip with
    | succ skip => exact ih (Nat.le_of_succ_le_succ hs)
    | zero =>
      rw [List.cons_append, decodeSkipping]
      split_ifs with hc
      · cases he : percentEscape (s ++ '/' :: t) with
        | none =>
          obtain ⟨d, hd⟩ := ih (Nat.zero_le _)
          exact ⟨c :: d, by simp only [hd, List.cons_append]⟩
        | some e =>
          obtain ⟨d, hd⟩ := ih (le_of_percentEscape he)
          exact ⟨e.1 ++ d, by simp only [hd, List.append_assoc]⟩
      · obtain ⟨d, hd⟩ := ih (Nat.zero_le _)
        exact ⟨c :: d, by rw [hd, List.cons_append]⟩

/-- What follows a slash and has no `%` is not changed, and the slash stays. -/
lemma exists_decode_slash {s t : Str} (ht : '%' ∉ t) :
    ∃ d, decodePathComponent (s ++ '/' :: t) = d ++ '/' :: t :=
  exists_decodeSkipping_slash ht (Nat.zero_le _)

end KvStore.Http
