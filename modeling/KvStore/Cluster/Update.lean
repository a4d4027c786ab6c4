import KvStore.Cluster.PlainHttp
import KvStore.Cluster.Reachable
import KvStore.Cluster.Register
import KvStore.Session.Injection

/-!
# Updating a key that does not exist

A server refuses an update of a key that it does not have, unless the request is marked as a
replicated one. The balancer marks every PUT, so that the update of a client creates the key.

* `IsUpdate.isReplication`: the injected header arrives.
* `update_not_refused`: so no update of a client is refused.
* `update_creates`: what happens instead.
* `update_accepted`: a run without the key.
-/

namespace KvStore.Cluster
open KvStore.Lib KvStore.Ring KvStore.Http KvStore.Server KvStore.Session
open KvStore.Recovery (localAddr)

/-- Letters, digits and hyphens: no encoding changes them. -/
def IsPlainText (s : Str) : Prop := ∀ c ∈ s, c.isAlphanum = true ∨ c = '-'

/-- A field on a line of its own, between the request line and the last line, is a header of the
    request that is read. -/
def HttpLib.ReadsFields (lib : HttpLib) : Prop :=
  ∀ before name value after body req, name ≠ [] → IsPlainText name → IsPlainText value →
    let head := before ++ (crlf ++ (fieldLine (name, value) ++ (crlf ++ after)))
    find headerTerminator (head ++ (headerTerminator ++ body)) = some head.length →
    lib.read (head ++ (headerTerminator ++ body)) = [.ok req] → (name, value) ∈ req.headers

/-- A client's PUT of a key, for the balancer and for `httplib`, which gets what the balancer sends.
    Whether the client marks it as a replicated one is left open. -/
structure IsUpdate (lib : HttpLib) (request : HttpRequest) (key value : Str) : Prop where
  word : isWord key = true
  ne_create : key ≠ "create".toList
  ne_allKeys : key ≠ "allkeys".toList
  method : request.method = "PUT".toList
  path : request.path = keyPath key
  body : request.body = value
  received : ∃ req, lib.read (requestPayload request) = [.ok req] ∧ IsOrdinary req
    ∧ req.method = "PUT".toList ∧ req.path = keyPath key ∧ req.body = value

/-- A plain text has letters, digits and dashes only. -/
lemma IsPlainText.not_mem {s : Str} (h : IsPlainText s) {c : Char} (hc : c.isAlphanum = false)
    (hne : c ≠ '-') : c ∉ s := by
  intro hm
  rcases h c hm with ha | he
  · cases hc.symm.trans ha
  · exact hne he

variable {lib : HttpLib} {incoming : List Str} {request : HttpRequest} {key value : Str}

/-- An update goes the write path. -/
lemma IsUpdate.forwardedAs_eq (h : IsUpdate lib request key value) :
    forwardedAs request = requestPayload request := by
  refine if_pos ?_
  unfold isWriteRequest
  rw [h.method]
  rfl

/-- The injected header arrives: the server takes the update for a replicated one. -/
lemma IsUpdate.isReplication (h : IsUpdate lib request key value) (hreads : lib.ReadsFields)
    (hcarries : Carries incoming request) {req : Request}
    (hread : lib.read (requestPayload request) = [.ok req]) : req.isReplication = true := by
  have hput : (parseHTTPRequest incoming.flatten).request.method = "PUT".toList := by
    rw [hcarries.request_eq]
    exact h.method
  obtain ⟨headerEnd, _, bodyLength, hc⟩ := exists_complete hcarries.complete
  obtain ⟨line, rest, -, -, hpayload, hfound⟩ := exists_withReplication hc hput
  rw [hcarries.request_eq] at hpayload
  rw [hpayload] at hread
  have hplain : IsPlainText "X-Internal-Replication".toList ∧ IsPlainText "true".toList :=
    ⟨List.forall_iff_forall_mem.1 (by decide), List.forall_iff_forall_mem.1 (by decide)⟩
  have hmem := hreads line _ _ rest _ req (by decide) hplain.1 hplain.2 hfound hread
  exact List.any_eq_true.2 ⟨_, hmem, decide_eq_true rfl⟩

/-- A server that gets the update stores the value, whatever it has. -/
lemma IsUpdate.dispatch (h : IsUpdate lib request key value) (hreads : lib.ReadsFields)
    (hcarries : Carries incoming request) :
    ∃ req, lib.read (forwardedAs request) = [.ok req] ∧ IsOrdinary req
      ∧ Asks req (.put key value)
      ∧ ∀ s : KvServer, s.dispatch req none
        = (closing.reply 200 "Updated Successfully\n".toList,
            ⟨s.table.insert key value, (s.cache.deleteKey key).2⟩) := by
  obtain ⟨req, hread, hordinary, hmethod, hpath, hbody⟩ := h.received
  have hmarked := h.isReplication hreads hcarries hread
  refine ⟨req, h.forwardedAs_eq ▸ hread, hordinary, ⟨hmethod, hpath, ?_, fun _ => hmarked⟩, ?_⟩
  · rintro body ⟨⟩
    exact hbody
  · intro s
    rw [dispatch_put s hmethod, hpath, wordAfter_keyPath h.word]
    simp only [handleUpdate_eq s hmarked, hbody]

/-- For a value without a NUL, it is the operation of a map that overwrites. -/
lemma IsUpdate.isOp (h : IsUpdate lib request key value) (hreads : lib.ReadsFields)
    (hcarries : Carries incoming request) (hnul : '\x00' ∉ value) :
    IsOp lib request (.put key value) := by
  obtain ⟨req, hread, hordinary, hasks, -⟩ := h.dispatch hreads hcarries
  refine ⟨⟨h.word, h.ne_create, h.ne_allKeys, ?_, nofun⟩, h.method, h.path, ?_,
    req, hread, hordinary, hasks⟩
  · rintro v ⟨⟩
    exact hnul
  · rintro body ⟨⟩
    exact h.body

section
variable [StdHash]

/-- The client hears that the key does not exist, and no table changes. -/
def ClusterState.RefusesUpdate (lib : HttpLib) (s : ClusterState) (incoming : List Str) : Prop :=
  (∃ bytes, (s.serve lib incoming).session.sent = [bytes]
      ∧ (parseHTTPResponse bytes).response.statusCode = 404)
    ∧ ∀ addr, ((s.serve lib incoming).session.world addr).table = (s.servers addr).table

variable {d : Deployment} {s : ClusterState}

/-- In no state, reachable or not, whichever backends have the key, run or are UP, a client's
    update is refused because its key does not exist. -/
theorem update_not_refused (hlib : lib.Faithful) (hreads : lib.ReadsFields)
    (hcarries : Carries incoming request) (hput : IsUpdate lib request key value) :
    ¬ s.RefusesUpdate lib incoming := by
  rintro ⟨⟨bytes, hsent, hstatus⟩, -⟩
  obtain ⟨hsession, -⟩ := serve_carries lib s hcarries
  rw [hsession] at hsent
  obtain ⟨req, hread, hordinary, -, hdispatch⟩ := hput.dispatch hreads hcarries
  have hspec := handleRequest_spec (fleetNetwork lib s.crashed) request
    (s := .idle s.router s.servers []) rfl
  generalize handleRequest (fleetNetwork lib s.crashed) request (.idle s.router s.servers [])
    = result at hspec hsent
  cases hspec with
  | throws hcand => cases hsent
  | unavailable hcand hno hflow hsocket hsent' =>
    obtain rfl : serviceUnavailable = bytes := List.singleton_inj.1 (hsent'.symm.trans hsent)
    revert hstatus
    decide
  | answered hcand hans hfrom hsocket hsent' =>
    obtain rfl := List.singleton_inj.1 (hsent'.symm.trans hsent)
    -- the answer is the one that a replicated update always gets
    obtain ⟨b, -, servers, response, hreply, rfl⟩ := hfrom
    cases hc : s.crashed b.addr with
    | true =>
      rw [reply_crashed hc] at hreply
      cases hreply
    | false =>
      obtain ⟨response', hreply', hresponse, -⟩ := reply_up hlib hc hread hordinary
        (congrArg Prod.fst (hdispatch (servers b.addr))) (by decide) (by decide)
      rw [hreply'] at hreply
      obtain rfl := Reply.answered.inj hreply
      rw [hresponse.status_eq] at hstatus
      cases hstatus

/-- In every state of every run in which a backend that gets the writes of the key runs, a client's
    update is answered with a success, and all such backends have the value afterwards. -/
theorem update_creates (hlib : lib.Faithful) (hreads : lib.ReadsFields) {capacity : ℕ}
    {ls : List ClusterAction}
    (hrun : Run (ClusterState.step lib) (Legal d) (.start d capacity) ls s)
    (hcarries : Carries incoming request) (hput : IsUpdate lib request key value)
    (hnul : '\x00' ∉ value) {candidates : List Backend}
    (hcand : s.router.getWriteBackendsForKey key 2 = .ok candidates)
    (hruns : ∃ c ∈ candidates, s.crashed c.addr = false) :
    (∃ bytes, (s.serve lib incoming).session.sent = [bytes]
        ∧ IsResponse bytes 200 "Updated Successfully\n".toList)
      ∧ ∀ c ∈ candidates, s.crashed c.addr = false →
        Fleet.entry (s.serve lib incoming).session.world c.addr key = some value := by
  have hsound : s.Sound d := sound_of_run hrun
  have hop := hput.isOp hreads hcarries hnul
  have hnd : (candidates.map Backend.addr).Nodup :=
    nodup_map_addr (hsound.router.nodup_targets d.ports hcand)
  obtain ⟨servers', bytes, hh, happlied, c, -, -, hanswer⟩ :=
    handleRequest_write hlib hsound.coherent hop rfl hcand hnd hruns []
  obtain ⟨hsession, -⟩ := serve_carries lib s hcarries
  rw [hh] at hsession
  rw [hsession]
  refine ⟨⟨bytes, rfl, hanswer.response⟩, fun b hb hup => ?_⟩
  exact (happlied.entry b.addr key).trans (if_pos ⟨⟨b, hb, rfl⟩, hup, rfl⟩)

end

/-- A plain text does not begin with a blank. -/
lemma IsPlainText.dropWhile_isBlank {s : Str} (h : IsPlainText s) : s.dropWhile isBlank = s := by
  cases s with
  | nil => rfl
  | cons c s =>
    have hc : isBlank c = false := by
      cases hb : isBlank c with
      | false => rfl
      | true =>
        simp only [isBlank, Bool.or_eq_true, decide_eq_true_eq] at hb
        rcases hb with rfl | rfl
        · exact absurd List.mem_cons_self (h.not_mem (c := ' ') rfl (by decide))
        · exact absurd List.mem_cons_self (h.not_mem (c := '\t') rfl (by decide))
    exact List.dropWhile_cons_of_neg (by simp [hc])

/-- The plain library reads all fields. -/
lemma plainLib_readsFields : plainLib.ReadsFields := by
  intro before name value after body req hne hname hvalue head hfound hread
  simp only [plainLib] at hread
  split_ifs at hread with hc
  swap
  · cases List.singleton_inj.1 hread
  rw [← Except.ok.inj (List.singleton_inj.1 hread)]
  simp only [hfound, Option.getD_some, List.take_left]
  have hline : '\n' ∉ fieldLine (name, value) ++ ['\r'] := by
    simp [fieldLine, hname.not_mem (c := '\n') rfl (by decide),
      hvalue.not_mem (c := '\n') rfl (by decide)]
  have hhead : head = (before ++ ['\r']) ++ '\n' ::
      (fieldLine (name, value) ++ ['\r'] ++ "\n".toList ++ after) := by
    simp [head, crlf]
  obtain ⟨l, ls, hlines⟩ := exists_getlines_append (before ++ ['\r'])
    (fieldLine (name, value) ++ ['\r'] ++ "\n".toList ++ after)
  rw [hhead, hlines, getlines_append hline, List.tail_cons]
  refine List.mem_filterMap.2 ⟨fieldLine (name, value), List.mem_map.2
    ⟨_, List.mem_append_right _ List.mem_cons_self, dropCR_append_cr _⟩, ?_⟩
  have hfield : headerField (fieldLine (name, value)) = some (readField (name, value)) :=
    headerField_fieldLine (hname.not_mem (c := ':') rfl (by decide))
  rw [readField, hvalue.dropWhile_isBlank] at hfield
  exact hfield

/-- The request that puts the key `a`. -/
lemma isUpdate_putAX : IsUpdate plainLib (requestOf putAX) ['a'] ['x'] := by
  obtain ⟨⟨hword, hcreate, hall, -, -⟩, hmethod, hpath, hbody, req, hread, hordinary, hasks⟩ :=
    isOp_putAX
  exact ⟨hword, hcreate, hall, hmethod, hpath, hbody _ rfl, req, hread, hordinary, hasks.method,
    hasks.path, hasks.body _ rfl⟩

section
attribute [local instance] djb2

/-- Three empty servers. -/
def emptyServers : ClusterState := .start threeBackends 10

/-- Nobody has the key, but its update is not refused. -/
theorem update_not_refused_empty : ¬ emptyServers.RefusesUpdate plainLib [clientRequest putAX] :=
  update_not_refused plainLib_faithful plainLib_readsFields carries_putAX isUpdate_putAX

/-- A client updates a key that nobody has, without marking the request, and the key is created on
    both of its backends. -/
theorem update_accepted :
    (∀ b ∈ threeBackends.backends, ¬ emptyServers.Faulty b)
      ∧ (∀ addr, emptyServers.servers.entry addr ['a'] = none)
      ∧ Carries [clientRequest putAX] (requestOf putAX)
      ∧ find "X-Internal-Replication".toList (clientRequest putAX) = none
      ∧ (parseHTTPResponse (emptyServers.serve plainLib
          [clientRequest putAX]).session.sent.flatten).response.statusCode = 200
      ∧ Fleet.entry (emptyServers.serve plainLib [clientRequest putAX]).session.world
          (localAddr 9003) ['a'] = some ['x']
      ∧ Fleet.entry (emptyServers.serve plainLib [clientRequest putAX]).session.world
          (localAddr 9001) ['a'] = some ['x'] :=
  ⟨by decide +kernel, fun _ => rfl, carries_putAX, by decide +kernel⟩

end

end KvStore.Cluster
