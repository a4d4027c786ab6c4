import KvStore.Cluster.Operation
import KvStore.Session.ReadPath

/-!
# Availability

What the clients get while one backend keeps running and the others crash and restart. A request is
refused only if both of its candidates have crashed and the balancer has not noticed either; then it
notices both. So two crashes are needed for every request that is refused.

* `Available.step`: what every step keeps, and that none of them throws.
* `failover_bound`: the number of refused requests, over every run.
-/

namespace KvStore.Cluster
open KvStore.Lib KvStore.Ring KvStore.Http KvStore.Server KvStore.Session KvStore.Recovery
  KvStore.Health

/-- A backend crashes. -/
def ClusterAction.isCrash : ClusterAction → Bool
  | .crash _ => true
  | _ => false

section
variable [StdHash]

/-- The backends that have crashed and are still UP. -/
def ClusterState.unnoticed (d : Deployment) (s : ClusterState) : Finset Backend :=
  d.backends.toFinset.filter fun b =>
    s.crashed b.addr = true ∧ s.router.statusOf b.port = some .up

/-- Twice the requests that were refused, and the crashes that can still cost one. -/
def ClusterState.refusals (d : Deployment) (s : ClusterState) : ℕ :=
  2 * s.log.countP Exchange.isRefused + (s.unnoticed d).card

/-- The client got the answer of a backend that runs and that the ring has for the key, with the
    entry that this backend has. -/
def ClusterState.Answers (lib : HttpLib) (s : ClusterState) (e : Exchange) : Prop :=
  ∃ op bytes, IsOp lib e.request op ∧ e.sent = [bytes]
    ∧ ∃ c ∈ s.router.hashRing.getNodes op.key 2, s.crashed c.addr = false
      ∧ IsAnswer lib op (s.servers.entry c.addr op.key) bytes

/-- What happens while `x` runs: clients ask for operations, and `x` does not crash. -/
def Served (lib : HttpLib) (d : Deployment) (x : Backend) (s : ClusterState) (a : ClusterAction) :
    Prop :=
  Operates lib d s a ∧ a ≠ .crash x.addr

/-- What holds between two steps while `x` runs. -/
structure Available (d : Deployment) (x : Backend) (s : ClusterState) : Prop where
  operating : Operating d s
  running : s.crashed x.addr = false
  up : s.router.statusOf x.port = some .up

variable {d : Deployment} {lib : HttpLib} {s s' : ClusterState} {x b : Backend}
  {request : HttpRequest} {op : KeyOp} {incoming : List Str}

/-- A backend is unnoticed if it has crashed and is still UP. -/
lemma mem_unnoticed : b ∈ s.unnoticed d
    ↔ b ∈ d.backends ∧ s.crashed b.addr = true ∧ s.router.statusOf b.port = some .up := by
  simp [ClusterState.unnoticed]

/-- A set with all unnoticed backends bounds the potential. -/
lemma refusals_le {t : Finset Backend} (h : s.unnoticed d ⊆ t) :
    s.refusals d ≤ 2 * s.log.countP Exchange.isRefused + t.card :=
  Nat.add_le_add_left (Finset.card_le_card h) _

/-- The crashes that are noticed. -/
lemma unnoticed_markedDown (s : ClusterState) (down : List Backend) (servers : Fleet)
    (log : List Exchange) :
    ({ s with router := markedDown s.router down, servers := servers, log := log } :
        ClusterState).unnoticed d ⊆ s.unnoticed d \ down.toFinset := by
  intro b hb
  obtain ⟨hmem, hc, hs⟩ := mem_unnoticed.1 hb
  simp only [markedDown, statusOf_foldl_markBackendDown] at hs
  split_ifs at hs with hdown
  · obtain ⟨-, -, hne⟩ := Option.map_eq_some_iff.1 hs
    cases hne
  · refine Finset.mem_sdiff.2 ⟨mem_unnoticed.2 ⟨hmem, hc, hs⟩, fun h => hdown ⟨b, ?_, rfl⟩⟩
    exact List.mem_toFinset.1 h

/-- The backend that runs is on the ring. -/
lemma Available.mem_successors (h : Available d x s) (hx : x ∈ d.backends) (key : Str) :
    x ∈ s.router.hashRing.successors key := by
  obtain ⟨dir, hsettled⟩ := h.operating.settled
  exact hsettled.mem_successors d.ports d.vnodes_pos hx (d.up x hx) h.up key

/-- So the ring is not empty. -/
lemma Available.ring (h : Available d x s) (hx : x ∈ d.backends) :
    s.router.hashRing.empty = false := by
  obtain ⟨pos, hf⟩ := Ring.mem_successors (h.mem_successors hx [])
  exact empty_of_find hf

/-- Only backends that have crashed and are UP are marked DOWN for a request, and two of them if it is
    refused. -/
lemma Available.outcome (h : Available d x s) (hx : x ∈ d.backends) {sent : List Str}
    {down : List Backend} (ho : Outcome lib s op sent down) :
    (∀ b ∈ down, b ∈ s.unnoticed d)
      ∧ ((∃ bytes, sent = [bytes] ∧ ∃ c ∈ s.router.hashRing.getNodes op.key 2,
          s.crashed c.addr = false ∧ IsAnswer lib op (s.servers.entry c.addr op.key) bytes)
        ∨ sent = [serviceUnavailable] ∧ down.toFinset.card = 2) := by
  obtain ⟨dir, hsettled⟩ := h.operating.settled
  have hsucc := h.mem_successors hx op.key
  have hnodes {b : Backend} (hb : b ∈ s.router.hashRing.getNodes op.key 2)
      (hc : s.crashed b.addr = true) : b ∈ s.unnoticed d := by
    obtain ⟨hmem, -, hs⟩ := hsettled.of_mem_getNodes d.up hb
    exact mem_unnoticed.2 ⟨hmem, hc, hs⟩
  cases ho with
  | refused hall =>
    refine ⟨fun b hb => hnodes hb (hall b hb), .inr ⟨rfl, ?_⟩⟩
    -- `x` is not among the first two, so there are two of them
    have hnot : x ∉ s.router.hashRing.getNodes op.key 2 := fun hx => by
      cases h.running.symm.trans (hall x hx)
    have hlen : (s.router.hashRing.getNodes op.key 2).length = 2 := by
      rw [getNodes_eq] at hnot ⊢
      rw [List.length_take, min_eq_left]
      by_contra hlt
      rw [List.take_of_length_le (by omega)] at hnot
      exact hnot hsucc
    rw [List.toFinset_card_of_nodup
      (List.Nodup.of_map _ (nodup_getNodes s.router.hashRing op.key 2)), hlen]
  | answered hdown hc hruns hanswer =>
    exact ⟨fun b hb => hnodes (hdown b hb).1 (hdown b hb).2, .inl ⟨_, rfl, _, hc, hruns, hanswer⟩⟩

/-- A request is refused, or answered by a backend that runs. It takes at least as much from the
    crashes that can cost one as it adds to the refusals. -/
lemma Available.step_connection (hlib : lib.Faithful) (h : Available d x s)
    (hx : x ∈ d.backends) (hcarries : Carries incoming request) (hop : IsOp lib request op)
    (hstep : s.step lib (.connection incoming) = some s') (hoperating : Operating d s') :
    Available d x s' ∧ s'.refusals d ≤ s.refusals d
      ∧ ∃ e, s'.log = e :: s.log ∧ (e.isRefused = true ∨ s.Answers lib e) := by
  obtain ⟨down, servers', e, hs, rfl, ho, -⟩ :=
    h.operating.connection hlib hcarries hop (h.ring hx)
  obtain rfl := Option.some.inj (hs.symm.trans hstep)
  obtain ⟨hdown, hcases⟩ := h.outcome hx ho
  have hanswered : e.isRefused = true ∨ s.Answers lib e := by
    rcases hcases with ⟨bytes, hsent, hc⟩ | ⟨hsent, -⟩
    · exact .inr ⟨op, bytes, hop, hsent, hc⟩
    · exact .inl (decide_eq_true hsent)
  refine ⟨⟨hoperating, h.running, ?_⟩, ?_, e, rfl, hanswered⟩
  · simp only [markedDown, statusOf_foldl_markBackendDown]
    rw [if_neg, h.up]
    rintro ⟨b, hb, hp⟩
    obtain ⟨hmem, hc, -⟩ := mem_unnoticed.1 (hdown b hb)
    rw [Deployment.eq_of_port hmem hx hp, h.running] at hc
    cases hc
  · have hsub : down.toFinset ⊆ s.unnoticed d := fun b hb => hdown b (List.mem_toFinset.1 hb)
    have hle := Finset.card_le_card (unnoticed_markedDown (d := d) s down servers' (e :: s.log))
    rw [Finset.card_sdiff_of_subset hsub] at hle
    have hcard := Finset.card_le_card hsub
    simp only [ClusterState.refusals, List.countP_cons]
    rcases hcases with ⟨bytes, hsent, c, -, -, hanswer⟩ | ⟨hsent, htwo⟩
    · have hnot : e.isRefused = false := by
        refine decide_eq_false fun he => hanswer.bytes_ne ?_
        exact List.singleton_inj.1 (hsent.symm.trans he)
      rw [hnot, if_neg Bool.false_ne_true]
      omega
    · split_ifs <;> omega

/-- Every step is possible while `x` runs, and only a crash can add to what requests will be
    refused. -/
lemma Available.step (hlib : lib.Faithful) (hbounded : lib.Bounded) (hx : x ∈ d.backends)
    (h : Available d x s) {a : ClusterAction} (hok : Served lib d x s a) :
    ∃ s', s.step lib a = some s' ∧ Available d x s'
      ∧ s'.refusals d ≤ s.refusals d + (if a.isCrash then 1 else 0)
      ∧ (s'.log = s.log
        ∨ ∃ e, s'.log = e :: s.log ∧ (e.isRefused = true ∨ s.Answers lib e)) := by
  obtain ⟨⟨hlegal, hops⟩, hne⟩ := hok
  obtain ⟨s', hstep, hoperating⟩ :=
    h.operating.step hlib hbounded ⟨hlegal, hops⟩ fun _ _ => h.ring hx
  refine ⟨s', hstep, ?_⟩
  cases a with
  | connection incoming =>
    obtain ⟨request, op, hcarries, hop⟩ := hops incoming rfl
    obtain ⟨h', hle, hlog⟩ := h.step_connection hlib hx hcarries hop hstep hoperating
    exact ⟨h', hle, .inr hlog⟩
  | crash addr =>
    obtain rfl := Option.some.inj hstep
    refine ⟨⟨hoperating, ?_, h.up⟩, ?_, .inl rfl⟩
    · have hother : x.addr ≠ addr := fun he => hne (he ▸ rfl)
      exact (Function.update_of_ne hother _ _).trans h.running
    · obtain ⟨b, hb, rfl⟩ := hlegal
      refine (refusals_le (t := insert b (s.unnoticed d)) fun c hc => ?_).trans
        (Nat.add_le_add_left (Finset.card_insert_le b _) _)
      obtain ⟨hmem, hcrashed, hs⟩ := mem_unnoticed.1 hc
      by_cases he : c.addr = b.addr
      · exact Finset.mem_insert.2 (.inl (Deployment.eq_of_addr hmem hb he))
      · have hold : s.crashed c.addr = true := (Function.update_of_ne he _ _).symm.trans hcrashed
        exact Finset.mem_insert.2 (.inr (mem_unnoticed.2 ⟨hmem, hold, hs⟩))
  | restart addr =>
    obtain rfl := Option.some.inj hstep
    have hupdate {a : Addr} (ha : Function.update s.crashed addr false a = true) :
        s.crashed a = true := by
      rw [Function.update_apply] at ha
      split_ifs at ha
      exact ha
    refine ⟨⟨hoperating, ?_, h.up⟩, refusals_le fun c hc => ?_, .inl rfl⟩
    · refine (Bool.not_eq_true _).mp fun hx => ?_
      cases h.running.symm.trans (hupdate hx)
    · obtain ⟨hmem, hcrashed, hs⟩ := mem_unnoticed.1 hc
      exact mem_unnoticed.2 ⟨hmem, hupdate hcrashed, hs⟩
  | cycle active backends =>
    obtain ⟨r, servers, hcycle, -, hstatus⟩ := h.operating.cycle lib hlegal.1
    obtain rfl := Option.some.inj (hcycle.symm.trans hstep)
    refine ⟨⟨hoperating, h.running, ?_⟩, refusals_le fun c hc => ?_, .inl rfl⟩
    · rw [hstatus x hx, h.running]
      rfl
    · -- whoever has crashed is DOWN now
      obtain ⟨hmem, hcrashed, hs⟩ := mem_unnoticed.1 hc
      have hdown := hstatus c hmem
      rw [hcrashed, hs] at hdown
      cases hdown

/-- In the beginning every backend runs and is UP. -/
lemma available_start (hx : x ∈ d.backends) (capacity : ℕ) :
    Available d x (.start d capacity) := by
  refine ⟨operating_start d capacity, rfl, ?_⟩
  rw [Router.statusOf, show (ClusterState.start d capacity).router.backends.find x.port = some x
    from Deployment.find_backends.2 ⟨hx, rfl⟩]
  exact congrArg some (d.up x hx)

/-- While one backend keeps running, at most one request is refused for every two crashes, whatever
    the clients ask for, whichever of the other backends crash and restart and whenever the health
    checker visits them. Every other request was answered by a backend that ran when it was made, with
    what this backend had then, and nothing throws. -/
theorem failover_bound (hlib : lib.Faithful) (hbounded : lib.Bounded) (hx : x ∈ d.backends)
    {capacity : ℕ} {ls : List ClusterAction}
    (hrun : Run (ClusterState.step lib) (Served lib d x) (.start d capacity) ls s) :
    2 * s.log.countP Exchange.isRefused ≤ ls.countP ClusterAction.isCrash
      ∧ (∀ e ∈ s.log, e.isRefused = true
        ∨ ∃ earlier a later t t', ls = earlier ++ a :: later
          ∧ Run (ClusterState.step lib) (Served lib d x) (.start d capacity) earlier t
          ∧ t.step lib a = some t' ∧ t'.log = e :: t.log ∧ t.Answers lib e)
      ∧ ∀ a, Served lib d x s a → (s.step lib a).isSome := by
  have hstart : Available d x (.start d capacity) := available_start hx capacity
  have hstep {s s' : ClusterState} {a : ClusterAction} (h : Available d x s)
      (hok : Served lib d x s a) (hs : s.step lib a = some s') : Available d x s' := by
    obtain ⟨t, ht, h', -⟩ := h.step hlib hbounded hx hok
    rwa [← Option.some.inj (ht.symm.trans hs)]
  have hend : Available d x s := hrun.invariant hstep hstart
  have hpaid := (hrun.with_invariant hstep hstart).potential (m := fun s => s.refusals d)
    (p := fun _ => false) (q := ClusterAction.isCrash) fun {s a s'} hok hs => by
      obtain ⟨t, ht, -, hle, -⟩ := hok.2.step hlib hbounded hx hok.1
      rwa [← Option.some.inj (ht.symm.trans hs)]
  refine ⟨?_, fun e he => ?_, fun a hok => ?_⟩
  · have hnone : (ClusterState.start d capacity).unnoticed d = ∅ := by
      refine Finset.eq_empty_of_forall_notMem fun b hb => ?_
      obtain ⟨-, hcrashed, -⟩ := mem_unnoticed.1 hb
      cases hcrashed
    have hzero : (ClusterState.start d capacity).refusals d = 0 := by
      rw [ClusterState.refusals, hnone]
      rfl
    rw [hzero, List.countP_false] at hpaid
    simp only [ClusterState.refusals] at hpaid
    omega
  · -- the step that has added the exchange to the log
    obtain ⟨earlier, a, later, t, t', rfl, hearlier, hok, ht, hnot, hin⟩ :=
      hrun.exists_step (P := fun s => e ∈ s.log) List.not_mem_nil he
    obtain ⟨u, hu, -, -, hlog⟩ :=
      (hearlier.invariant hstep hstart).step hlib hbounded hx hok
    obtain rfl := Option.some.inj (hu.symm.trans ht)
    rcases hlog with hsame | ⟨e', hcons, hanswered⟩
    · exact absurd (hsame ▸ hin) hnot
    · obtain rfl : e = e' := by
        rw [hcons] at hin
        exact (List.mem_cons.1 hin).resolve_right hnot
      exact hanswered.imp_right fun h => ⟨earlier, a, later, t, u, rfl, hearlier, hu, hcons, h⟩
  · obtain ⟨t, ht, -⟩ := hend.step hlib hbounded hx hok
    rw [ht]
    rfl

end

section
attribute [local instance] djb2

/-- Two crashes can cost one request: both backends of a key have crashed, and nobody has noticed. -/
theorem failover_bound_lost :
    2 * afterLost.log.countP Exchange.isRefused ≤ putThenLost.countP ClusterAction.isCrash
      ∧ afterLost.log.countP Exchange.isRefused = 1
      ∧ putThenLost.countP ClusterAction.isCrash = 2 := by
  have hrun : Run (ClusterState.step plainLib)
      (Served plainLib threeBackends ⟨"127.0.0.1".toList, 9002, .up⟩) (.start threeBackends 10)
      putThenLost afterLost := by
    refine run_afterLost.of_forall fun s a ha hlegal => ?_
    rcases mem_putThenLost ha with rfl | rfl | rfl | rfl
    · refine ⟨⟨hlegal, ?_⟩, nofun⟩
      rintro incoming ⟨⟩
      exact ⟨_, _, carries_putAX, isOp_putAX⟩
    · exact ⟨⟨hlegal, nofun⟩, fun h => absurd (ClusterAction.crash.inj h) (by decide)⟩
    · exact ⟨⟨hlegal, nofun⟩, fun h => absurd (ClusterAction.crash.inj h) (by decide)⟩
    · refine ⟨⟨hlegal, ?_⟩, nofun⟩
      rintro incoming ⟨⟩
      exact ⟨_, _, carries_getA, isOp_getA⟩
  exact ⟨(failover_bound plainLib_faithful plainLib_bounded (by decide) hrun).1,
    by decide +kernel, by decide⟩

end

end KvStore.Cluster
