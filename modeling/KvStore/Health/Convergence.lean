import KvStore.Health.Cycle
import KvStore.Ring.History

/-!
# The cycles converge

Cycles of the health checker while no session changes the router. The answers to its calls are
arbitrary, and so are the orders in which `getAllBackends` and `getOnlineBackends` return the
backends; `pings` are the results of the pings of a cycle, in their order.

* `checkBackend_follows`: a backend is marked as its ping says, and nothing is thrown: whenever
  `recover` runs, the backend that it runs for is on the ring.
* `cycles_converge`: after every cycle the router is as the pings of that cycle say.
-/

namespace KvStore.Health
open KvStore.Lib KvStore.Ring KvStore.Server KvStore.Recovery

section
variable {σ : Type*} [StdHash]

/-- What a cycle gets from outside: the answers to its calls, what there is at its beginning, and the
    orders of two maps without order. -/
structure Cycle (σ : Type*) where
  client : HttpClient σ
  world : σ
  allOrder : List Backend → List Backend
  onlineOrder : List Backend → List Backend
  all_perm : ∀ backends, (allOrder backends).Perm backends
  online_perm : ∀ backends, (onlineOrder backends).Perm backends

/-- The backends that `recover` asks. -/
def Cycle.active (c : Cycle σ) (r : Router) : List Backend := c.onlineOrder r.getOnlineBackends

/-- One cycle. -/
def Cycle.run (c : Cycle σ) (r : Router) : Except Str (Router × σ) :=
  healthCycle c.client c.active (c.allOrder r.getAllBackends) (r, c.world)

/-- The router after some cycles. -/
def runCycles (r : Router) (cycles : List (Cycle σ)) : Except Str Router :=
  cycles.foldlM (fun r c => (c.run r).map Prod.fst) r

/-- The backends that a cycle pings, and the results. -/
def pings (client : HttpClient σ) (active : Router → List Backend) :
    List Backend → Router × σ → List (Backend × Bool)
  | [], _ => []
  | backend :: backends, s =>
    (backend, (pingBackend client backend s.2).1) ::
      match checkBackend client active s backend with
      | .ok s => pings client active backends s
      | .error _ => []

/-- The pings of a cycle. -/
def Cycle.pings (c : Cycle σ) (r : Router) : List (Backend × Bool) :=
  Health.pings c.client c.active (c.allOrder r.getAllBackends) (r, c.world)

/-- The status of a backend that answers, or does not. -/
def statusAfter (alive : Bool) : BackendStatus := if alive then .up else .down

/-- Every backend was pinged once, is UP if it answered and DOWN if it did not, and on the ring are
    exactly those that answered. -/
structure Reflects (backends : List Backend) (pings : List (Backend × Bool)) (r : Router) : Prop where
  pinged : (pings.map fun p => p.1.addr).Perm (backends.map Backend.addr)
  status : ∀ p ∈ pings, r.statusOf p.1.port = some (statusAfter p.2)
  ring : ∀ pos b, r.hashRing.ring.find pos = some b
    ↔ b ∈ backends ∧ (∃ p ∈ pings, p.1.addr = b.addr ∧ p.2 = true) ∧ r.hashRing.IsVnode b pos

/-- The mark operation that a ping leads to. -/
def markAfter (alive : Bool) : Mark := if alive then .up else .down

/-- What the pings of a cycle do to the directory. -/
def marksOf (pings : List (Backend × Bool)) (dir : Directory) : Directory :=
  pings.foldl (fun dir p => dir.call (.mark (markAfter p.2) p.1.port)) dir

section
variable {backends : List Backend} {vnodes : ℕ} {dir : Directory} {client : HttpClient σ}
  {active : Router → List Backend} {s : Router × σ} {b : Backend}

omit [StdHash] in
/-- Assigning the status that a backend has changes nothing. -/
lemma call_mark_eq_self {m : Mark} (hb : dir b.port = some b) (hm : b.status = m.status) :
    dir.call (.mark m b.port) = dir := by
  funext p
  by_cases hp : p = b.port
  · rw [hp, Directory.call_mark_self hb, hb]
    exact congrArg some (Backend.ext_addr rfl hm.symm)
  · exact Directory.call_mark_ne hp

/-- A backend of the snapshot is marked as its ping says, and nothing is thrown. -/
lemma checkBackend_follows (client : HttpClient σ) (active : Router → List Backend)
    (h : s.1.Follows backends vnodes dir) (hapart : Apart backends vnodes) (hv : 0 < vnodes)
    (hb : dir b.port = some b) (hs : b.status ≠ .recovering) :
    ∃ s', checkBackend client active s b = .ok s'
      ∧ s'.1.Follows backends vnodes
        (dir.call (.mark (markAfter (pingBackend client b s.2).1) b.port)) := by
  unfold checkBackend
  dsimp only
  cases (pingBackend client b s.2).1 with
  | true =>
    rw [if_pos rfl]
    split_ifs with hdown
    · -- the backend is back: it is on the ring before `recover` asks for the owners of a key
      have hrecovering := h.mark hapart .recovering b.port
      have hring : (s.1.markBackendRecovering b.port).hashRing.empty = false := by
        refine empty_of_find ((hrecovering.ring _ (b.withStatus .recovering)).2
          ⟨Directory.call_mark_self hb, nofun, 0, ?_, rfl⟩)
        rw [hrecovering.numVnodes]
        exact hv
      obtain ⟨w, hw⟩ := recover_returns hring client (active (s.1.markBackendRecovering b.port)) b
        (pingBackend client b s.2).2
      rw [hw]
      refine ⟨_, rfl, ?_⟩
      have hup := hrecovering.mark hapart .up b.port
      have hdir : (dir.call (.mark .recovering b.port)).call (.mark .up b.port)
          = dir.call (.mark .up b.port) := by
        funext p
        by_cases hp : p = b.port
        · rw [hp, Directory.call_mark_self (Directory.call_mark_self hb),
            Directory.call_mark_self hb, Backend.withStatus_withStatus]
        · rw [Directory.call_mark_ne hp, Directory.call_mark_ne hp, Directory.call_mark_ne hp]
      rw [hdir] at hup
      exact hup
    · refine ⟨_, rfl, ?_⟩
      have hup : b.status = .up := by
        cases hst : b.status with
        | up => rfl
        | recovering => exact absurd hst hs
        | down => exact absurd hst hdown
      rw [markAfter, if_pos rfl, call_mark_eq_self (m := .up) hb hup]
      exact h
  | false =>
    rw [if_neg nofun]
    split_ifs with hup
    · exact ⟨_, rfl, h.mark hapart .down b.port⟩
    · refine ⟨_, rfl, ?_⟩
      have hdown : b.status = .down := by
        cases hst : b.status with
        | up => exact absurd (.inl hst) hup
        | recovering => exact absurd hst hs
        | down => rfl
      rw [markAfter, if_neg nofun, call_mark_eq_self (m := .down) hb hdown]
      exact h

/-- A cycle marks the backends of the snapshot as their pings say. -/
lemma healthCycle_follows (client : HttpClient σ) (active : Router → List Backend)
    (hapart : Apart backends vnodes) (hv : 0 < vnodes) {order : List Backend}
    (hnd : (order.map Backend.port).Nodup)
    (horder : ∀ b ∈ order, dir b.port = some b ∧ b.status ≠ .recovering)
    (h : s.1.Follows backends vnodes dir) :
    ∃ s', healthCycle client active order s = .ok s'
      ∧ (pings client active order s).map Prod.fst = order
      ∧ s'.1.Follows backends vnodes (marksOf (pings client active order s) dir) := by
  induction order generalizing s dir with
  | nil => exact ⟨s, rfl, rfl, h⟩
  | cons b order ih =>
    obtain ⟨hb, hnd⟩ := List.nodup_cons.1 hnd
    obtain ⟨hdir, hs⟩ := horder b List.mem_cons_self
    obtain ⟨s₁, hcheck, h₁⟩ :=
      checkBackend_follows client active h hapart hv hdir hs
    have hrest : ∀ c ∈ order,
        dir.call (.mark (markAfter (pingBackend client b s.2).1) b.port) c.port = some c
          ∧ c.status ≠ .recovering := by
      intro c hc
      have hp : c.port ≠ b.port := fun hp => hb (hp ▸ List.mem_map_of_mem hc)
      rw [Directory.call_mark_ne hp]
      exact horder c (List.mem_cons_of_mem _ hc)
    obtain ⟨s', hcycle, hpinged, h'⟩ := ih hnd hrest h₁
    simp only [pings, hcheck]
    refine ⟨s', ?_, congrArg (b :: ·) hpinged, h'⟩
    rw [healthCycle, List.foldlM_cons, hcheck]
    exact hcycle

end

section
variable {dir : Directory} {pinged : List (Backend × Bool)}

omit [StdHash]

/-- A backend that is not pinged is not marked. -/
lemma marksOf_of_not_mem {port : ℤ} (h : port ∉ pinged.map fun p => p.1.port) :
    marksOf pinged dir port = dir port := by
  induction pinged generalizing dir with
  | nil => rfl
  | cons p pinged ih =>
    obtain ⟨hp, hrest⟩ := not_or.1 (mt List.mem_cons.2 h)
    exact (ih hrest).trans (Directory.call_mark_ne hp)

/-- The mark after a ping gives the status after it. -/
lemma status_markAfter (alive : Bool) : (markAfter alive).status = statusAfter alive := by
  cases alive <;> rfl

/-- A backend that was pinged has the status that its ping says. -/
lemma marksOf_of_mem (hnd : (pinged.map fun p => p.1.port).Nodup)
    (hdir : ∀ p ∈ pinged, dir p.1.port = some p.1) {p : Backend × Bool} (hp : p ∈ pinged) :
    marksOf pinged dir p.1.port = some (p.1.withStatus (statusAfter p.2)) := by
  induction pinged generalizing dir with
  | nil => cases hp
  | cons q pinged ih =>
    obtain ⟨hq, hnd⟩ := List.nodup_cons.1 hnd
    rcases List.mem_cons.1 hp with rfl | hp
    · refine (marksOf_of_not_mem hq).trans ?_
      dsimp only
      rw [Directory.call_mark_self (hdir p List.mem_cons_self), status_markAfter]
    · refine ih hnd (fun q' hq' => ?_) hp
      have hne : q'.1.port ≠ q.1.port := fun he => hq (List.mem_map.2 ⟨q', hq', he⟩)
      dsimp only
      rw [Directory.call_mark_ne hne]
      exact hdir q' (List.mem_cons_of_mem _ hq')

end

/-- The router follows a directory in which every backend is UP or DOWN. -/
structure Settled (backends : List Backend) (vnodes : ℕ) (dir : Directory) (r : Router) : Prop where
  follows : r.Follows backends vnodes dir
  settled : ∀ b ∈ backends, ∃ status, status ≠ .recovering ∧ dir b.port = some (b.withStatus status)

section
variable {backends : List Backend} {vnodes : ℕ} {dir : Directory} {r : Router} {b : Backend}

/-- Every entry has its own port. -/
lemma Settled.port_eq (h : Settled backends vnodes dir r) {port : ℤ}
    (hb : r.backends.find port = some b) : b.port = port := by
  rw [h.follows.find] at hb
  exact h.follows.port_eq hb

/-- The snapshot has the entries of the directory. -/
lemma Settled.mem_getAllBackends (h : Settled backends vnodes dir r) :
    b ∈ r.getAllBackends ↔ dir b.port = some b := by
  rw [← h.follows.find]
  constructor
  · exact find_of_mem_getAllBackends h.port_eq
  · exact fun hb => Ring.mem_getAllBackends.2 ⟨b.port, hb⟩

/-- Every entry of the directory is one of the backends with a status. -/
lemma Settled.exists_of_dir (h : Settled backends vnodes dir r) {port : ℤ} (hb : dir port = some b) :
    ∃ k ∈ backends, k.addr = b.addr ∧ b.status ≠ .recovering := by
  obtain ⟨k, hk, hkb⟩ := h.follows.known hb
  obtain ⟨status, hs, hdir⟩ := h.settled k hk
  have hport : k.port = port := (congrArg Prod.snd hkb).trans (h.follows.port_eq hb)
  rw [hport, hb] at hdir
  refine ⟨k, hk, hkb, ?_⟩
  rw [Option.some.inj hdir]
  exact hs

/-- The nodes of a settled router are UP. -/
lemma Settled.of_mem_getNodes (h : Settled backends vnodes dir r)
    (hup : ∀ b ∈ backends, b.status = .up) {key : Str} {n : ℕ}
    (hb : b ∈ r.hashRing.getNodes key n) :
    b ∈ backends ∧ b.status = .up ∧ r.statusOf b.port = some .up := by
  obtain ⟨hfind, hdown⟩ := h.follows.of_mem_getNodes hb
  obtain ⟨k, hk, hkb, hs⟩ := h.exists_of_dir ((h.follows.find b.port).symm.trans hfind)
  have hst : b.status = .up := by
    cases hst : b.status with
    | up => rfl
    | recovering => exact absurd hst hs
    | down => exact absurd hst hdown
  refine ⟨?_, hst, by rw [Router.statusOf, hfind]; exact congrArg some hst⟩
  rwa [← Backend.ext_addr hkb ((hup k hk).trans hst.symm)]

/-- So they are the candidates for reads and for writes. -/
lemma Settled.targetsForKey (h : Settled backends vnodes dir r)
    (hup : ∀ b ∈ backends, b.status = .up) (he : r.hashRing.empty = false) (key : Str) (n : ℕ)
    {accept : BackendStatus → Bool} (haccept : accept .up = true) :
    r.targetsForKey accept key n = .ok (r.hashRing.getNodes key n) := by
  rw [h.follows.targetsForKey he]
  refine congrArg Except.ok (List.filter_eq_self.2 fun b hb => ?_)
  obtain ⟨-, hst, -⟩ := h.of_mem_getNodes hup hb
  rw [hst, haccept]

/-- A settled router stays settled when a backend is marked DOWN. -/
lemma Settled.markDown (h : Settled backends vnodes dir r) (hapart : Apart backends vnodes)
    (port : ℤ) :
    Settled backends vnodes (dir.call (.mark .down port)) (r.markBackendDown port) := by
  refine ⟨h.follows.mark hapart .down port, fun b hb => ?_⟩
  obtain ⟨status, hs, hdir⟩ := h.settled b hb
  by_cases hp : b.port = port
  · refine ⟨.down, nofun, ?_⟩
    rw [hp] at hdir ⊢
    rw [Directory.call_mark_self hdir, Backend.withStatus_withStatus]
    rfl
  · exact ⟨status, hs, (Directory.call_mark_ne hp).trans hdir⟩

/-- A backend that is UP is in the directory. -/
lemma Settled.dir_eq (h : Settled backends vnodes dir r) (hb : b ∈ backends) (hup : b.status = .up)
    (hs : r.statusOf b.port = some .up) : dir b.port = some b := by
  obtain ⟨status, -, hdir⟩ := h.settled b hb
  rw [Router.statusOf, h.follows.find, hdir] at hs
  obtain rfl : status = .up := Option.some.inj hs
  rw [hdir]
  exact congrArg some (Backend.ext_addr rfl hup.symm)

/-- And the walk from every key meets it. -/
lemma Settled.mem_successors (h : Settled backends vnodes dir r)
    (hports : (backends.map Backend.port).Nodup) (hv : 0 < vnodes) (hb : b ∈ backends)
    (hup : b.status = .up) (hs : r.statusOf b.port = some .up) (key : Str) :
    b ∈ r.hashRing.successors key := by
  refine (h.follows.successors_perm hports hv key).mem_iff.2 ?_
  refine (Directory.mem_alive h.follows.port_eq h.follows.known).2 ⟨h.dir_eq hb hup hs, ?_⟩
  rw [hup]
  nofun

/-- The snapshot has every backend once. -/
lemma Settled.addr_perm (h : Settled backends vnodes dir r)
    (hports : (backends.map Backend.port).Nodup) :
    (r.getAllBackends.map Backend.addr).Perm (backends.map Backend.addr) := by
  refine (List.perm_ext_iff_of_nodup (nodup_map_addr (nodup_port_getAllBackends h.port_eq))
    (nodup_map_addr hports)).2 fun a => ?_
  simp only [List.mem_map]
  constructor
  · rintro ⟨b, hb, rfl⟩
    obtain ⟨k, hk, hkb, -⟩ := h.exists_of_dir (h.mem_getAllBackends.1 hb)
    exact ⟨k, hk, hkb⟩
  · rintro ⟨b, hb, rfl⟩
    obtain ⟨status, -, hdir⟩ := h.settled b hb
    exact ⟨b.withStatus status, h.mem_getAllBackends.2 hdir, rfl⟩

/-- A router that has been marked as the pings of a snapshot say is settled and reflects them. -/
lemma Settled.marksOf (h : Settled backends vnodes dir r)
    (hports : (backends.map Backend.port).Nodup) (hup : ∀ b ∈ backends, b.status = .up)
    {pinged : List (Backend × Bool)} (hpinged : (pinged.map Prod.fst).Perm r.getAllBackends)
    {r' : Router} (h' : r'.Follows backends vnodes (marksOf pinged dir)) :
    Settled backends vnodes (Health.marksOf pinged dir) r' ∧ Reflects backends pinged r' := by
  have hnd : (pinged.map fun p => p.1.port).Nodup := by
    have hmap := (hpinged.map Backend.port).nodup_iff.2 (nodup_port_getAllBackends h.port_eq)
    rwa [List.map_map] at hmap
  have haddr : (pinged.map fun p => p.1.addr).Perm (backends.map Backend.addr) := by
    have hmap := (hpinged.map Backend.addr).trans (h.addr_perm hports)
    rwa [List.map_map] at hmap
  have hdir : ∀ p ∈ pinged, Health.marksOf pinged dir p.1.port
      = some (p.1.withStatus (statusAfter p.2)) := by
    refine fun p hp => marksOf_of_mem hnd (fun q hq => ?_) hp
    exact h.mem_getAllBackends.1 (hpinged.mem_iff.1 (List.mem_map_of_mem hq))
  have hping {b : Backend} (hb : b ∈ backends) : ∃ p ∈ pinged, p.1.addr = b.addr :=
    List.mem_map.1 (haddr.mem_iff.2 (List.mem_map_of_mem hb))
  refine ⟨⟨h', fun b hb => ?_⟩, haddr, fun p hp => ?_, fun pos b => ?_⟩
  · obtain ⟨p, hp, ha⟩ := hping hb
    refine ⟨statusAfter p.2, ?_, ?_⟩
    · cases p.2 <;> decide
    · have hport : p.1.port = b.port := congrArg Prod.snd ha
      rw [← hport, hdir p hp]
      exact congrArg some (Backend.ext_addr ha rfl)
  · rw [Router.statusOf, h'.find, hdir p hp]
    rfl
  · rw [h'.ring, ← and_assoc, ← and_assoc]
    refine and_congr_left fun _ => ⟨?_, ?_⟩
    · rintro ⟨hb, hs⟩
      obtain ⟨k, hk, hkb⟩ := h'.known hb
      obtain ⟨p, hp, ha⟩ := hping hk
      have hport : p.1.port = b.port := congrArg Prod.snd (ha.trans hkb)
      rw [← hport, hdir p hp] at hb
      obtain rfl := Option.some.inj hb
      cases halive : p.2 with
      | true =>
        rw [halive] at hkb
        have hkp : p.1.withStatus .up = k := Backend.ext_addr hkb.symm (hup k hk).symm
        exact ⟨hkp ▸ hk, p, hp, rfl, halive⟩
      | false =>
        rw [halive] at hs
        exact absurd rfl hs
    · rintro ⟨hb, p, hp, ha, halive⟩
      have hport : p.1.port = b.port := congrArg Prod.snd ha
      have hpb : p.1.withStatus .up = b := Backend.ext_addr ha (hup b hb).symm
      rw [← hport, hdir p hp, halive]
      exact ⟨congrArg some hpb, ne_down_of_up hup b hb⟩

/-- A cycle settles the router as its pings say. -/
lemma Settled.run (h : Settled backends vnodes dir r) (hports : (backends.map Backend.port).Nodup)
    (hup : ∀ b ∈ backends, b.status = .up) (hapart : Apart backends vnodes) (hv : 0 < vnodes)
    (c : Cycle σ) : ∃ s, c.run r = .ok s ∧ (∃ dir, Settled backends vnodes dir s.1)
      ∧ Reflects backends (c.pings r) s.1 := by
  have horder := c.all_perm r.getAllBackends
  have hnd : ((c.allOrder r.getAllBackends).map Backend.port).Nodup :=
    (horder.map _).nodup_iff.2 (nodup_port_getAllBackends h.port_eq)
  have hdir : ∀ b ∈ c.allOrder r.getAllBackends, dir b.port = some b ∧ b.status ≠ .recovering := by
    intro b hb
    have hb := h.mem_getAllBackends.1 (horder.mem_iff.1 hb)
    obtain ⟨-, -, -, hs⟩ := h.exists_of_dir hb
    exact ⟨hb, hs⟩
  obtain ⟨s, hrun, hfst, hfollows⟩ :=
    healthCycle_follows c.client c.active hapart hv hnd hdir (s := (r, c.world)) h.follows
  obtain ⟨hsettled, hreflects⟩ := h.marksOf hports hup (by rw [hfst]; exact horder) hfollows
  exact ⟨s, hrun, ⟨_, hsettled⟩, hreflects⟩

/-- Cycles that no session disturbs, one after the other, throw nothing, and after each of them the
    router is as its pings say. -/
theorem cycles_converge (hnew : Router.new backends vnodes = .ok r)
    (hports : (backends.map Backend.port).Nodup) (hup : ∀ b ∈ backends, b.status = .up)
    (hv : 0 < vnodes) (hcf : CollisionFree backends vnodes) (cycles : List (Cycle σ))
    (last : Cycle σ) :
    ∃ r' s, runCycles r cycles = .ok r' ∧ last.run r' = .ok s
      ∧ Reflects backends (last.pings r') s.1 := by
  have hstart : Settled backends vnodes (.new backends) r := by
    refine ⟨new_follows hnew hports (ne_down_of_up hup) hcf.apart,
      fun b hb => ⟨.up, nofun, ?_⟩⟩
    rw [(Directory.new_eq_some hports).2 ⟨hb, rfl⟩]
    exact congrArg some (Backend.ext_addr rfl (hup b hb))
  have hcycles : ∀ (cycles : List (Cycle σ)) {r : Router} {dir : Directory},
      Settled backends vnodes dir r →
        ∃ r' dir', runCycles r cycles = .ok r' ∧ Settled backends vnodes dir' r' := by
    intro cycles
    induction cycles with
    | nil => exact fun h => ⟨_, _, rfl, h⟩
    | cons c cycles ih =>
      intro r dir h
      obtain ⟨s, hrun, ⟨dir', h'⟩, -⟩ := h.run hports hup hcf.apart hv c
      obtain ⟨r', dir'', hcycles, hend⟩ := ih h'
      refine ⟨r', dir'', ?_, hend⟩
      rw [runCycles, List.foldlM_cons, hrun]
      exact hcycles
  obtain ⟨r', dir, hr', h⟩ := hcycles cycles hstart
  obtain ⟨s, hrun, -, hreflects⟩ := h.run hports hup hcf.apart hv last
  exact ⟨r', s, hr', hrun, hreflects⟩

end

end

section
attribute [local instance] djb2

/-- A cycle all of whose calls end in the same way. -/
def steadyCycle (res : Option Response) : Cycle Unit :=
  { client := ⟨fun _ _ w => (res, w)⟩
    world := ()
    allOrder := id
    onlineOrder := id
    all_perm := List.Perm.refl
    online_perm := List.Perm.refl }

/-- All servers go away, which leaves the ring empty, and come back. -/
theorem cycles_converge_return : ∃ r s,
    runCycles (initialRouter 1) [steadyCycle none] = .ok r
      ∧ (steadyCycle (some (Response.reply {} 200 "OK".toList))).run r = .ok s
      ∧ Reflects initialBackends
        ((steadyCycle (some (Response.reply {} 200 "OK".toList))).pings r) s.1 :=
  cycles_converge (show Router.new initialBackends 1 = .ok (initialRouter 1) from rfl) (by decide)
    (by decide) Nat.zero_lt_one (by decide) [steadyCycle none] _

end

end KvStore.Health
