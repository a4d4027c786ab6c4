import KvStore.Cluster.PlainHttp
import KvStore.Server.Routes

/-!
# The key of a request

The balancer looks for the key of a request in the raw target or in the body
(`HttpRequest::getKey`), the server in the decoded path without its query or, for a create, in the
body. `KeyInPlace` says for which requests this is the same, if `httplib` reads the same method and
target and, for a create, the same body in the bytes that are forwarded as the balancer
(`HttpLib.ReadsAlike`). It does not always: it passes over a second blank in the request line and
over a tab at the end of the target, and the balancer takes a header whose name only ends in
`Content-Length` for the content length.

* `getKey_iff`: for which requests the two find the same key.
* `getKey_differs`: a query makes the difference.
-/

namespace KvStore.Cluster
open KvStore.Lib KvStore.Http KvStore.Server KvStore.Session

/-- The server reads the balancer's request: the method, the target and, for a create, the body. -/
def IsSameRequest (request : HttpRequest) (req : Request) : Prop :=
  req.method = request.method ∧ req.path = requestPath request.path
    ∧ (req.method = "POST".toList → req.path = "/kvstore/create".toList → req.body = request.body)

instance (request : HttpRequest) (req : Request) : Decidable (IsSameRequest request req) :=
  inferInstanceAs (Decidable (_ ∧ _))

/-- The request that the server reads first in what is forwarded to it. -/
def HttpLib.received (lib : HttpLib) (request : HttpRequest) : Option Request :=
  (lib.read (forwardedAs request)).head?.bind Except.toOption

/-- If the server reads a request, it is the balancer's. -/
def HttpLib.ReadsAlike (lib : HttpLib) (request : HttpRequest) : Prop :=
  ∀ req ∈ lib.received request, IsSameRequest request req

instance (lib : HttpLib) (request : HttpRequest) : Decidable (lib.ReadsAlike request) :=
  inferInstanceAs (Decidable (∀ req ∈ lib.received request, _))

/-- The key that the server's handler works on. -/
def HttpLib.servedKey (lib : HttpLib) (request : HttpRequest) : Option Str :=
  (lib.received request).bind fun req => req.call.bind Call.key

/-- The end of a target: what follows the last slash, or all of it. -/
def lastPart (target : Str) : Str :=
  if afterLast '/' target = [] then target else afterLast '/' target

/-- The balancer's key of a request that it does not take for a create. -/
lemma getKey_lastPart {request : HttpRequest}
    (h : ¬ (request.path = "/kvstore/create".toList ∧ request.body ≠ [])) :
    request.getKey = lastPart request.path := by
  unfold HttpRequest.getKey lastPart
  rw [if_neg h]
  dsimp only
  by_cases hs : '/' ∈ request.path
  · simp only [hs, true_and, ne_eq, ite_not]
  · rw [if_neg fun hc => hs hc.1, afterLast_of_not_mem hs, ite_self]

/-- The two find the same key: a create that the balancer recognizes; a request whose body happens
    to begin with the end of its target, if the balancer takes the body of another request for that
    of a create or does not recognize one; and a target that names the key at its end, without a
    query, a fragment or an escape, unless the query or the fragment happens to end with a slash and
    the key. -/
def KeyInPlace (request : HttpRequest) : Prop :=
  if request.path = "/kvstore/create".toList ∧ request.body ≠ [] then
    request.method = "POST".toList ∨ request.body.takeWhile (· ≠ ' ') = "create".toList
  else if request.method = "POST".toList ∧ requestPath request.path = "/kvstore/create".toList then
    request.body.takeWhile (· ≠ ' ') = lastPart request.path
  else if '/' ∈ targetSuffix request.path then
    afterLast '/' (targetSuffix request.path) = afterLast '/' (requestPath request.path)
  else targetSuffix request.path = [] ∧ '%' ∉ afterLast '/' request.path

instance (request : HttpRequest) : Decidable (KeyInPlace request) := by
  unfold KeyInPlace
  infer_instance

/-- The end of a target whose decoded path ends with a word. -/
lemma lastPart_eq_iff {target start key : Str} (hk : isWord key = true)
    (hp : requestPath target = start ++ '/' :: key) :
    lastPart target = key ↔
      if '/' ∈ targetSuffix target then afterLast '/' (targetSuffix target) = key
      else targetSuffix target = [] ∧ '%' ∉ afterLast '/' target := by
  have hslash : '/' ∉ key := not_mem_of_isWord hk rfl
  have happ := rawPath_append_targetSuffix target
  -- a target that is a word itself has no slash in front of it
  have hlast : lastPart target = key ↔ afterLast '/' target = key := by
    unfold lastPart
    split_ifs with hl
    · constructor
      · rintro rfl
        rw [afterLast_of_not_mem hslash] at hl ⊢
      · intro he
        rw [hl] at he
        exact absurd he.symm (ne_nil_of_isWord hk)
    · exact Iff.rfl
  rw [hlast]
  split_ifs with hs
  · rw [← afterLast_append_of_mem hs (rawPath target), happ]
  · have hsplit : afterLast '/' target = afterLast '/' (rawPath target) ++ targetSuffix target := by
      rw [← afterLast_append_of_not_mem hs, happ]
    constructor
    · intro he
      have hsuffix : targetSuffix target = [] := by
        cases hc : targetSuffix target with
        | nil => rfl
        | cons c rest =>
          have hmem : c ∈ key := by
            rw [← he, hsplit, hc]
            exact List.mem_append_right _ List.mem_cons_self
          rcases head_targetSuffix hc with rfl | rfl
          · exact absurd hmem (not_mem_of_isWord hk rfl)
          · exact absurd hmem (not_mem_of_isWord hk rfl)
      refine ⟨hsuffix, ?_⟩
      rw [he]
      exact not_mem_of_isWord hk rfl
    · rintro ⟨hsuffix, hpercent⟩
      rw [hsuffix, List.append_nil] at happ
      rw [requestPath, happ] at hp
      have hmem : '/' ∈ target := by
        by_contra hno
        rw [afterLast_of_not_mem hno] at hpercent
        have hself : decodePathComponent target = target := decodeSkipping_eq_self hpercent
        rw [hself] at hp
        rw [hp] at hno
        exact hno (List.mem_append_right _ List.mem_cons_self)
      obtain ⟨r, hr⟩ := exists_append_afterLast hmem
      obtain ⟨d, hd⟩ := exists_decode_slash (s := r) hpercent
      rw [← hr, hp] at hd
      rw [← afterLast_append_cons (not_mem_afterLast '/' target) d, ← hd,
        afterLast_append_cons hslash]

/-- The two kinds of calls with a key. -/
lemma call_key_cases {req : Request} {key : Str} (h : req.call.bind Call.key = some key) :
    (req.method = "POST".toList ∧ req.path = "/kvstore/create".toList
        ∧ req.body.takeWhile (· ≠ ' ') = key)
      ∨ ¬ (req.method = "POST".toList ∧ req.path = "/kvstore/create".toList)
        ∧ isWord key = true ∧ ∃ start, req.path = start ++ '/' :: key := by
  have hroute {root start : Str} (hroot : root = start ++ ['/']) {f : Str → Call}
      (hkey : ∀ k, (f k).key = some k)
      (hf : ((wordAfter root req.path).map f).bind Call.key = some key) :
      isWord key = true ∧ ∃ start, req.path = start ++ '/' :: key := by
    obtain ⟨call, hcall, hk⟩ := Option.bind_eq_some_iff.1 hf
    obtain ⟨k, hw, rfl⟩ := Option.map_eq_some_iff.1 hcall
    obtain rfl := Option.some.inj ((hkey k).symm.trans hk)
    obtain ⟨hp, hword⟩ := wordAfter_eq_some hw
    refine ⟨hword, start, ?_⟩
    rw [hp, hroot, List.append_assoc]
    rfl
  have hkeyRoot : keyRoot = "/kvstore".toList ++ ['/'] := rfl
  have hsyncRoot : syncRoot = "/kvstore/sync".toList ++ ['/'] := rfl
  unfold Request.call at h
  split_ifs at h with h1 h2 h3 h4 h5 h6
  · exact .inl ⟨h1, h2, Option.some.inj h⟩
  · exact .inr ⟨fun hc => h2 hc.2, hroute hsyncRoot (fun _ => rfl) h⟩
  · exact .inr ⟨fun hc => h1 hc.1, hroute hkeyRoot (fun _ => rfl) h⟩
  · exact .inr ⟨fun hc => h1 hc.1, hroute hkeyRoot (fun _ => rfl) h⟩
  · cases h
  · exact .inr ⟨fun hc => h1 hc.1, hroute hkeyRoot (fun _ => rfl) h⟩
  · cases h

/-- The same in the balancer's terms. -/
lemma servedKey_cases {lib : HttpLib} {request : HttpRequest} (hread : lib.ReadsAlike request)
    {key : Str} (h : lib.servedKey request = some key) :
    (request.method = "POST".toList ∧ requestPath request.path = "/kvstore/create".toList
        ∧ request.body.takeWhile (· ≠ ' ') = key)
      ∨ ¬ (request.method = "POST".toList ∧ requestPath request.path = "/kvstore/create".toList)
        ∧ isWord key = true ∧ ∃ start, requestPath request.path = start ++ '/' :: key := by
  obtain ⟨req, hreq, hkey⟩ := Option.bind_eq_some_iff.1 h
  obtain ⟨hmethod, hpath, hbody⟩ := hread req hreq
  rw [← hmethod, ← hpath]
  rcases call_key_cases hkey with ⟨hm, hp, hk⟩ | hother
  · rw [hbody hm hp] at hk
    exact .inl ⟨hm, hp, hk⟩
  · exact .inr hother

/-- The balancer finds the key that the server's handler works on exactly for these requests, if the
    server reads what the balancer reads. -/
theorem getKey_iff {lib : HttpLib} {request : HttpRequest} (hread : lib.ReadsAlike request)
    {key : Str} (h : lib.servedKey request = some key) :
    request.getKey = key ↔ KeyInPlace request := by
  unfold KeyInPlace
  by_cases hcreate : request.path = "/kvstore/create".toList ∧ request.body ≠ []
  · have hself : requestPath request.path = "/kvstore/create".toList := by
      rw [hcreate.1]
      exact requestPath_eq_self (List.all_eq_true.1 (by decide))
    rw [if_pos hcreate, getKey_create hcreate.1 hcreate.2]
    rcases servedKey_cases hread h with ⟨hm, -, hk⟩ | ⟨hnot, hword, start, hp⟩
    · exact iff_of_true hk (.inl hm)
    · have hpost : request.method ≠ "POST".toList := fun hm => hnot ⟨hm, hself⟩
      have hkey : key = "create".toList := by
        have hslash : '/' ∉ key := not_mem_of_isWord hword rfl
        rw [← afterLast_append_cons hslash start, ← hp, hself]
        rfl
      rw [hkey, or_iff_right hpost]
  · rw [if_neg hcreate, getKey_lastPart hcreate]
    rcases servedKey_cases hread h with ⟨hm, hp, hk⟩ | ⟨hnot, hword, start, hp⟩
    · rw [if_pos ⟨hm, hp⟩, hk, eq_comm]
    · have hkey : afterLast '/' (requestPath request.path) = key := by
        rw [hp]
        exact afterLast_append_cons (not_mem_of_isWord hword rfl) start
      rw [if_neg hnot, hkey]
      exact lastPart_eq_iff hword hp

/-- A client's request of a key. -/
def plainText : Str := "GET /kvstore/a HTTP/1.1\r\nHost: x\r\n\r\n".toList

/-- The same with a query. -/
def queryText : Str := "GET /kvstore/a?x=1 HTTP/1.1\r\nHost: x\r\n\r\n".toList

/-- The key of a request without a query is found. -/
theorem getKey_iff_plain : (parseHTTPRequest plainText).request.getKey = ['a'] := by
  have hread : plainLib.ReadsAlike (parseHTTPRequest plainText).request := by
    decide +kernel
  have hserved : plainLib.servedKey (parseHTTPRequest plainText).request = some ['a'] := by
    decide +kernel
  have hplace : KeyInPlace (parseHTTPRequest plainText).request := by
    decide +kernel
  exact (getKey_iff hread hserved).2 hplace

/-- The balancer does not always find the key that the server's handler works on: it takes the query
    for a part of the key. -/
theorem getKey_differs :
    (parseHTTPRequest queryText).status = .complete
      ∧ plainLib.ReadsAlike (parseHTTPRequest queryText).request
      ∧ plainLib.servedKey (parseHTTPRequest queryText).request = some ['a']
      ∧ (parseHTTPRequest queryText).request.getKey = "a?x=1".toList := by
  refine ⟨?_, ?_, ?_, ?_⟩ <;> decide +kernel

end KvStore.Cluster
