import KvStore.Cluster.PlainHttp
import KvStore.Lib.Run

/-!
# One map

What the whole system is for: as long as no backend fails, the balancer and its servers answer like
one map. The backends that hold a key are those that the ring has for it, and all of them hold what
the map does.

* `Holds.handleRequest`: one request does to the servers what its operation does to the map.
* `refines_single_map`: so do all requests of all connections.
-/

namespace KvStore.Cluster
open KvStore.Lib KvStore.Ring KvStore.Http KvStore.Server KvStore.Session

/-- One map from keys to values. -/
abbrev SingleMap := Str → Option Str

/-- What one map answers to an operation, and what it is afterwards. -/
def SingleMap.step (m : SingleMap) (op : KeyOp) : (ℤ × Str) × SingleMap :=
  (op.answer (m op.key), Function.update m op.key (op.after (m op.key)))

/-- Where a new value comes from. -/
lemma after_eq_some {op : KeyOp} {entry : Option Str} {value : Str}
    (h : op.after entry = some value) : op.value = some value ∨ entry = some value := by
  cases op with
  | create key v =>
    cases entry with
    | none => exact .inl h
    | some old => exact .inr h
  | get key => exact .inr h
  | put key v => exact .inl h
  | delete key => cases h

/-- A value is sent in the body. -/
lemma exists_body {op : KeyOp} {value : Str} (h : op.value = some value) :
    ∃ body, op.body = some body ∧ value.length ≤ body.length := by
  cases op with
  | create key v =>
    obtain rfl := Option.some.inj h
    refine ⟨_, rfl, ?_⟩
    rw [List.length_append, List.length_cons]
    omega
  | get key => cases h
  | put key v =>
    obtain rfl := Option.some.inj h
    exact ⟨_, rfl, le_rfl⟩
  | delete key => cases h

section
variable [StdHash]

/-- The backends that the ring has for a key hold what the map does, and no others hold anything. -/
structure Holds (r : Router) (servers : Fleet) (m : SingleMap) : Prop where
  coherent : servers.Coherent
  entry : ∀ a k, servers.entry a k
    = if ∃ b ∈ r.hashRing.getNodes k 2, b.addr = a then m k else none
  short : ∀ k value, m k = some value → value.length < 2 ^ 63

/-- The network while no backend fails. -/
abbrev soundNetwork (lib : HttpLib) : Network Fleet := fleetNetwork lib noneCrashed

section
variable {lib : HttpLib} {r : Router} {servers : Fleet} {m : SingleMap} {request : HttpRequest}
  {op : KeyOp}

/-- The owners of a key have what the map has. -/
lemma Holds.entry_of_mem (h : Holds r servers m) {b : Backend} {k : Str}
    (hb : b ∈ r.hashRing.getNodes k 2) : servers.entry b.addr k = m k := by
  rw [h.entry, if_pos ⟨b, hb, rfl⟩]

/-- Once all backends of its key have done an operation, they hold what the map does. -/
lemma Holds.applied (h : Holds r servers m) {servers' : Fleet} (hop : IsOp lib request op)
    (hlen : request.body.length < 2 ^ 63)
    (happlied : AppliedAt noneCrashed (r.hashRing.getNodes op.key 2) op servers servers') :
    Holds r servers' (m.step op).2 := by
  refine ⟨happlied.coherent, fun a k => ?_, fun k value hv => ?_⟩
  · rw [happlied.entry]
    by_cases hk : k = op.key
    · subst hk
      simp only [SingleMap.step, Function.update_self]
      split_ifs with hc hb hb
      · rw [h.entry, if_pos hb]
      · exact absurd hc.1 hb
      · exact absurd ⟨hb, rfl, trivial⟩ hc
      · rw [h.entry, if_neg hb]
    · simp only [SingleMap.step, Function.update_of_ne hk]
      rw [if_neg fun hc => hk hc.2.2, h.entry]
  · by_cases hk : k = op.key
    · subst hk
      simp only [SingleMap.step, Function.update_self] at hv
      rcases after_eq_some hv with hv | hv
      · obtain ⟨body, hbody, hle⟩ := exists_body hv
        rw [← hop.body body hbody] at hle
        exact lt_of_le_of_lt hle hlen
      · exact h.short _ _ hv
    · simp only [SingleMap.step, Function.update_of_ne hk] at hv
      exact h.short _ _ hv

/-- A request is answered like by one map, and does what its operation does to the map. -/
lemma Holds.handleRequest (h : Holds r servers m) (hlib : lib.Faithful) (hup : r.AllUp)
    (he : r.hashRing.empty = false) (hop : IsOp lib request op)
    (hlen : request.body.length < 2 ^ 63) (sent : List Str) :
    ∃ servers' bytes, handleRequest (soundNetwork lib) request (.idle r servers sent)
        = (.next, .idle r servers' (sent ++ [bytes]))
      ∧ Holds r servers' (m.step op).2
      ∧ IsAnswer lib op (m op.key) bytes := by
  have hne := getNodes_ne_nil he op.key (n := 2) nofun
  cases hw : op.isWrite with
  | true =>
    have hcand : r.getWriteBackendsForKey op.key 2 = .ok (r.hashRing.getNodes op.key 2) :=
      hup.targetsForKey_eq he rfl op.key 2
    obtain ⟨c, hc⟩ := List.exists_mem_of_ne_nil _ hne
    have hruns : noneCrashed c.addr = false := rfl
    obtain ⟨servers', bytes, hh, happlied, b, hb, -, hanswer⟩ :=
      handleRequest_write hlib h.coherent hop hw hcand (nodup_getNodes _ _ _) ⟨c, hc, hruns⟩ sent
    have hrouter : (r.hashRing.getNodes op.key 2).foldl (markCrashed noneCrashed) r = r :=
      List.foldl_fixed' (fun _ => rfl) _
    rw [hrouter] at hh
    rw [h.entry_of_mem hb] at hanswer
    exact ⟨servers', bytes, hh, h.applied hop hlen happlied, hanswer⟩
  | false =>
    cases op with
    | create key value => cases hw
    | put key value => cases hw
    | delete key => cases hw
    | get key =>
      have hcand : r.getReadBackendsForKey key 2 = .ok (r.hashRing.getNodes key 2) :=
        hup.targetsForKey_eq he rfl key 2
      obtain ⟨b, post, hnodes⟩ := List.exists_cons_of_ne_nil hne
      have hnodes : r.hashRing.getNodes key 2 = [] ++ b :: post := hnodes
      have hb := h.entry_of_mem (b := b) (k := key) (by rw [hnodes]; exact List.mem_cons_self)
      rw [hnodes] at hcand
      have hruns : noneCrashed b.addr = false := rfl
      obtain ⟨servers', bytes, hh, hcoh, hentry, hanswer⟩ :=
        handleRequest_get hlib h.coherent hop hcand nofun hruns
          (fun value hv => h.short key value (hb.symm.trans hv)) sent
      have hsame : (m.step (.get key)).2 = m := Function.update_eq_self _ _
      rw [hb] at hanswer
      rw [hsame]
      exact ⟨servers', bytes, hh, ⟨hcoh, by rw [hentry]; exact h.entry, h.short⟩, hanswer⟩

/-- The same for the requests of a connection. -/
lemma Holds.handleAll (h : Holds r servers m) (hlib : lib.Faithful) (hup : r.AllUp)
    (he : r.hashRing.empty = false) {requests : List HttpRequest} {ops : List KeyOp}
    (hops : List.Forall₂ (IsOp lib) requests ops)
    (hlen : ∀ request ∈ requests, request.body.length < 2 ^ 63) (sent : List Str) :
    ∃ servers' responses,
      handleAll (Session.handleRequest (soundNetwork lib)) requests (.idle r servers sent)
        = (.idle r servers' (sent ++ responses), .endOfStream)
      ∧ Holds r servers' (outputs SingleMap.step m ops).2
      ∧ List.Forall₂ (fun bytes answer => IsResponse bytes answer.1 answer.2) responses
        (outputs SingleMap.step m ops).1 := by
  induction hops generalizing servers m sent with
  | nil => exact ⟨servers, [], by rw [List.append_nil]; rfl, h, .nil⟩
  | cons hop _ ih =>
    obtain ⟨hlen, hrest⟩ := List.forall_mem_cons.1 hlen
    obtain ⟨servers₁, bytes, hh, h₁, hanswer⟩ := h.handleRequest hlib hup he hop hlen sent
    obtain ⟨servers₂, responses, hall, h₂, hanswers⟩ := ih h₁ hrest (sent ++ [bytes])
    refine ⟨servers₂, bytes :: responses, ?_, h₂, .cons hanswer.response hanswers⟩
    rw [Session.handleAll, hh]
    simpa using hall

end

/-- The connection carries requests for these operations. -/
def CarriesOps (lib : HttpLib) (incoming : List Str) (ops : List KeyOp) : Prop :=
  [] ∉ incoming ∧ ∃ requests, AreRequests incoming.flatten requests
    ∧ List.Forall₂ (IsOp lib) requests ops

/-- What a client gets on its connection, and the router and the servers afterwards. -/
def serveConnection (lib : HttpLib) (s : Router × Fleet) (incoming : List Str) :
    List Str × (Router × Fleet) :=
  let session := (forwardTraffic (handleRequest (soundNetwork lib)) incoming
    (.idle s.1 s.2 [])).session
  (session.sent, session.router, session.world)

/-- The same for a connection. -/
lemma Holds.serveConnection {lib : HttpLib} {s : Router × Fleet} {m : SingleMap}
    (h : Holds s.1 s.2 m) (hlib : lib.Faithful) (hup : s.1.AllUp) (he : s.1.hashRing.empty = false)
    {incoming : List Str} {ops : List KeyOp} (hcarry : CarriesOps lib incoming ops) :
    List.Forall₂ (fun bytes answer => IsResponse bytes answer.1 answer.2)
        (serveConnection lib s incoming).1 (outputs SingleMap.step m ops).1
      ∧ (serveConnection lib s incoming).2.1 = s.1
      ∧ Holds s.1 (serveConnection lib s incoming).2.2 (outputs SingleMap.step m ops).2 := by
  obtain ⟨hne, requests, hare, hops⟩ := hcarry
  obtain ⟨servers', responses, hall, hholds, hanswers⟩ :=
    h.handleAll hlib hup he hops hare.length_body_lt []
  obtain ⟨hsession, -⟩ := forwardTraffic_requests (Session.handleRequest (soundNetwork lib)) hne hare
    (.idle s.1 s.2 [])
  rw [hall] at hsession
  simp only [Cluster.serveConnection, hsession]
  exact ⟨hanswers, rfl, hholds⟩

/-- While no backend fails, every request on every connection is answered like by one map, the
    router stays the same, and exactly the backends that the ring has for a key hold it, with the
    value of the map. -/
theorem refines_single_map {lib : HttpLib} (hlib : lib.Faithful) {backends : List Backend}
    {vnodes : ℕ} {r : Router} (hnew : Router.new backends vnodes = .ok r)
    (hports : (backends.map Backend.port).Nodup) (hup : ∀ b ∈ backends, b.status = .up)
    (hv : 0 < vnodes) (capacity : ℕ) {connections : List (List Str)} {ops : List (List KeyOp)}
    (hcarry : List.Forall₂ (CarriesOps lib) connections ops) :
    let served := outputs (serveConnection lib) (r, fun _ => .new capacity) connections
    let single := outputs (outputs SingleMap.step) (fun _ => none) ops
    List.Forall₂ (List.Forall₂ fun bytes answer => IsResponse bytes answer.1 answer.2)
        served.1 single.1
      ∧ served.2.1 = r
      ∧ ∀ a k, served.2.2.entry a k
        = if ∃ b ∈ r.hashRing.getNodes k 2, b.addr = a then single.2 k else none := by
  intro served single
  have hstart : Holds r (fun _ => .new capacity) fun _ => none := by
    refine ⟨fun _ => coherent_new capacity, fun a k => ?_, nofun⟩
    split_ifs <;> rfl
  have hallUp : r.AllUp := new_allUp hnew hports hup
  have hsim (s : Router × Fleet) (m : SingleMap) (incoming : List Str) (ops : List KeyOp)
      (h : s.1 = r ∧ Holds s.1 s.2 m) (hcarry : CarriesOps lib incoming ops) :
      List.Forall₂ (fun bytes answer => IsResponse bytes answer.1 answer.2)
          (serveConnection lib s incoming).1 (outputs SingleMap.step m ops).1
        ∧ (serveConnection lib s incoming).2.1 = r
        ∧ Holds (serveConnection lib s incoming).2.1 (serveConnection lib s incoming).2.2
          (outputs SingleMap.step m ops).2 := by
    obtain ⟨rfl, h⟩ := h
    obtain ⟨hanswers, hsame, hholds⟩ := h.serveConnection hlib hallUp (new_empty hnew hv) hcarry
    exact ⟨hanswers, hsame, by rw [hsame]; exact hholds⟩
  obtain ⟨hanswers, hr, h⟩ := outputs_simulates _ hsim hcarry
    (show (r, _).1 = r ∧ Holds (r, fun _ => .new capacity).1 _ _ from ⟨rfl, hstart⟩)
  refine ⟨hanswers, hr, fun a k => ?_⟩
  rw [← hr]
  exact h.entry a k

end

section
attribute [local instance] djb2

/-- What is put on one connection is read on the next one. -/
theorem refines_single_map_putAX :
    let served := outputs (serveConnection plainLib) (initialRouter 1, fun _ => .new 10)
      [[clientRequest putAX], [clientRequest getA]]
    List.Forall₂ (List.Forall₂ fun bytes answer => IsResponse bytes answer.1 answer.2) served.1
      [[(200, "Updated Successfully\n".toList)], [(200, ['x'])]] := by
  have hnew : Router.new initialBackends 1 = .ok (initialRouter 1) := rfl
  have hcarry : List.Forall₂ (CarriesOps plainLib) [[clientRequest putAX], [clientRequest getA]]
      [[putAX], [getA]] :=
    .cons ⟨carries_putAX.no_empty, _, carries_putAX.areRequests, .cons isOp_putAX .nil⟩
      (.cons ⟨carries_getA.no_empty, _, carries_getA.areRequests, .cons isOp_getA .nil⟩ .nil)
  have hanswers : (outputs (outputs SingleMap.step) (fun _ => none) [[putAX], [getA]]).1
      = [[(200, "Updated Successfully\n".toList)], [(200, ['x'])]] := by
    decide +kernel
  intro served
  rw [← hanswers]
  exact (refines_single_map plainLib_faithful hnew (by decide) (by decide) Nat.zero_lt_one 10
    hcarry).1

end

end KvStore.Cluster
