import KvStore.Ring.Agreement

/-!
# Histories of a router

What the calls after the construction of a router amount to: mark operations on any ports and
`removeBackend`, in any order. A `Directory` says which backend a port has, with its status, and
nothing else; `Router.Follows` says that the map and the ring of a router are those of a directory.

* `Router.Follows.call`: every call does to the router what it does to the directory.
* `Router.Follows.successors_perm`: a walk meets exactly the backends that are not DOWN.
* `router_follows`: so the candidates of a key are known, whatever the history.
-/

namespace KvStore.Ring
open KvStore.Lib

/-- A call that changes a router. -/
inductive RouterCall where
  | mark (m : Mark) (port : ℤ)
  | removeBackend (backend : Backend)

/-- The backend that each port has. -/
abbrev Directory := ℤ → Option Backend

namespace Directory

/-- The backends a router is constructed for. -/
def new (backends : List Backend) : Directory := fun port => backends.find? fun b => b.port = port

/-- A call assigns a status or removes a backend. -/
def call (dir : Directory) : RouterCall → Directory
  | .mark m port => fun p => if port = p then (dir p).map (·.withStatus m.status) else dir p
  | .removeBackend backend => fun p => if backend.port = p then none else dir p

/-- The backends that are not DOWN, with their statuses. -/
def alive (dir : Directory) (backends : List Backend) : List Backend :=
  (backends.map Backend.port).filterMap fun port => (dir port).filter fun b => b.status ≠ .down

variable {dir : Directory} {m : Mark} {port : ℤ}

/-- A mark operation gives its backend the status, -/
lemma call_mark_self {c : Backend} (hc : dir port = some c) :
    dir.call (.mark m port) port = some (c.withStatus m.status) := by
  simp only [call, if_true, hc, Option.map_some]

/-- and leaves the others as they are. -/
lemma call_mark_ne {p : ℤ} (hp : p ≠ port) : dir.call (.mark m port) p = dir p :=
  if_neg (Ne.symm hp)

/-- Nothing is assigned at a port without a backend. -/
lemma call_mark_of_none (hc : dir port = none) : dir.call (.mark m port) = dir := by
  funext p
  by_cases hp : p = port
  · simp only [call, hp, if_true, hc, Option.map_none]
  · exact call_mark_ne hp

/-- A mark operation changes no address. -/
lemma exists_of_call_mark {p : ℤ} {b : Backend} (hb : dir.call (.mark m port) p = some b) :
    ∃ c, dir p = some c ∧ b.addr = c.addr := by
  simp only [call] at hb
  split_ifs at hb
  · obtain ⟨c, hc, rfl⟩ := Option.map_eq_some_iff.1 hb
    exact ⟨c, hc, rfl⟩
  · exact ⟨b, hb, rfl⟩

end Directory

section
variable [StdHash]

/-- What a call does. -/
def Router.call (r : Router) : RouterCall → Router
  | .mark m port => m.apply r port
  | .removeBackend backend => r.removeBackend backend

/-- The map has the backends of the directory, and the ring those of them that are not DOWN, each at
    its virtual nodes. -/
structure Router.Follows (backends : List Backend) (vnodes : ℕ) (dir : Directory) (r : Router) :
    Prop where
  numVnodes : r.hashRing.numVnodes = vnodes
  find : ∀ port, r.backends.find port = dir port
  ring : ∀ pos b, r.hashRing.ring.find pos = some b
    ↔ dir b.port = some b ∧ b.status ≠ .down ∧ r.hashRing.IsVnode b pos
  port_eq : ∀ {port b}, dir port = some b → b.port = port
  known : ∀ {port b}, dir port = some b → Known backends b

section
variable {backends : List Backend} {vnodes : ℕ} {dir : Directory} {r : Router}

/-- Two backends of the directory with a virtual node at the same place are the same. -/
lemma Router.Follows.port_unique (h : r.Follows backends vnodes dir)
    (hapart : Apart backends vnodes) {b c : Backend} (hb : Known backends b)
    (hc : Known backends c) {pos : ℕ} (hbv : r.hashRing.IsVnode b pos)
    (hcv : r.hashRing.IsVnode c pos) : b.port = c.port := by
  obtain ⟨i, hi, rfl⟩ := hbv
  obtain ⟨j, hj, he⟩ := hcv
  rw [h.numVnodes] at hi hj
  exact congrArg Prod.snd (hapart.addr_eq hb hc hi hj he)

/-- After a mark operation a virtual node of the marked backend is nobody else's. -/
lemma Router.Follows.eq_of_call_mark (h : r.Follows backends vnodes dir)
    (hapart : Apart backends vnodes) {m : Mark} {port : ℤ} {b c : Backend} {pos : ℕ}
    (hc : dir port = some c) (hv : r.hashRing.IsVnode c pos)
    (hb : dir.call (.mark m port) b.port = some b) (hbv : r.hashRing.IsVnode b pos) :
    b = c.withStatus m.status := by
  by_cases hp : b.port = port
  · rw [hp, Directory.call_mark_self hc] at hb
    exact (Option.some.inj hb).symm
  · rw [Directory.call_mark_ne hp] at hb
    have hport : b.port = c.port := h.port_unique hapart (h.known hb) (h.known hc) hbv hv
    exact absurd (hport.trans (h.port_eq hc)) hp

/-- The marked backend is at its virtual nodes, with the status assigned, unless that is DOWN. -/
lemma Router.Follows.find_mark_of_isVnode (h : r.Follows backends vnodes dir)
    (hapart : Apart backends vnodes) (m : Mark) {port : ℤ} {c : Backend} {pos : ℕ}
    (hc : dir port = some c) (hv : r.hashRing.IsVnode c pos) (b : Backend) :
    (m.apply r port).hashRing.ring.find pos = some b
      ↔ dir.call (.mark m port) b.port = some b ∧ b.status ≠ .down ∧ r.hashRing.IsVnode b pos := by
  rw [find_apply ((h.find port).trans hc), if_pos hv]
  split_ifs with hm
  · refine iff_of_false nofun fun ⟨hb, hs, hbv⟩ => hs ?_
    rw [h.eq_of_call_mark hapart hc hv hb hbv, hm]
    rfl
  · constructor
    · intro hb
      obtain rfl := Option.some.inj hb
      refine ⟨?_, ?_, hv⟩
      · rw [Backend.withStatus_port, h.port_eq hc]
        exact Directory.call_mark_self hc
      · cases m with
        | down => exact absurd rfl hm
        | recovering => nofun
        | up => nofun
    · rintro ⟨hb, -, hbv⟩
      rw [h.eq_of_call_mark hapart hc hv hb hbv]

/-- Elsewhere the ring is as before, and the backend there has another port. -/
lemma Router.Follows.find_mark_of_not_isVnode (h : r.Follows backends vnodes dir) (m : Mark)
    {port : ℤ} {c : Backend} {pos : ℕ} (hc : dir port = some c) (hv : ¬ r.hashRing.IsVnode c pos)
    (b : Backend) :
    (m.apply r port).hashRing.ring.find pos = some b
      ↔ dir.call (.mark m port) b.port = some b ∧ b.status ≠ .down ∧ r.hashRing.IsVnode b pos := by
  rw [find_apply ((h.find port).trans hc), if_neg hv, h.ring]
  constructor
  · rintro ⟨hb, hs, hbv⟩
    have hp : b.port ≠ port := by
      intro hp
      rw [hp, hc] at hb
      obtain rfl := Option.some.inj hb
      exact hv hbv
    exact ⟨(Directory.call_mark_ne hp).trans hb, hs, hbv⟩
  · rintro ⟨hb, hs, hbv⟩
    have hp : b.port ≠ port := by
      intro hp
      rw [hp, Directory.call_mark_self hc] at hb
      obtain rfl := Option.some.inj hb
      exact hv hbv
    exact ⟨(Directory.call_mark_ne hp).symm.trans hb, hs, hbv⟩

/-- A mark operation assigns the status, on the ring as well. -/
lemma Router.Follows.mark (h : r.Follows backends vnodes dir) (hapart : Apart backends vnodes)
    (m : Mark) (port : ℤ) : (m.apply r port).Follows backends vnodes (dir.call (.mark m port)) := by
  have hfind (p : ℤ) : (m.apply r port).backends.find p = dir.call (.mark m port) p := by
    rw [Mark.apply, backends_ringStep, find_setStatus, h.find]
    rfl
  have hnum := numVnodes_apply m r port
  refine ⟨hnum.trans h.numVnodes, hfind, fun pos b => ?_, fun hb => ?_, fun hb => ?_⟩
  · have hvnode : (m.apply r port).hashRing.IsVnode b pos ↔ r.hashRing.IsVnode b pos := by
      rw [HashRing.IsVnode, hnum]
      exact Iff.rfl
    rw [hvnode]
    cases hc : dir port with
    | none =>
      -- the port is not known, and nothing happens
      rw [hashRing_apply_of_unknown ((h.find port).trans hc), Directory.call_mark_of_none hc]
      exact h.ring pos b
    | some c =>
      by_cases hv : r.hashRing.IsVnode c pos
      · exact h.find_mark_of_isVnode hapart m hc hv b
      · exact h.find_mark_of_not_isVnode m hc hv b
  · obtain ⟨c, hc, ha⟩ := Directory.exists_of_call_mark hb
    exact (congrArg Prod.snd ha).trans (h.port_eq hc)
  · obtain ⟨c, hc, ha⟩ := Directory.exists_of_call_mark hb
    obtain ⟨k, hk, hka⟩ := h.known hc
    exact ⟨k, hk, hka.trans ha.symm⟩

/-- `removeBackend` takes the backend out of the map and off the ring. -/
lemma Router.Follows.removeBackend (h : r.Follows backends vnodes dir)
    (hapart : Apart backends vnodes) {c : Backend} (hc : Known backends c)
    (haddr : ∀ b, dir c.port = some b → b.addr = c.addr) :
    (r.removeBackend c).Follows backends vnodes (dir.call (.removeBackend c)) := by
  have hcall (p : ℤ) : dir.call (.removeBackend c) p = if c.port = p then none else dir p := rfl
  refine ⟨h.numVnodes, fun p => ?_, fun pos b => ?_, fun hb => ?_, fun hb => ?_⟩
  · rw [Router.removeBackend, OrdMap.find_erase, h.find]
    rfl
  · have hring : (r.removeBackend c).hashRing = r.hashRing.removeNode c := rfl
    have hvnode : (r.hashRing.removeNode c).IsVnode b pos ↔ r.hashRing.IsVnode b pos := Iff.rfl
    rw [hring, hvnode, find_removeNode, hcall]
    split_ifs with hv hp hp
    · exact iff_of_false nofun nofun
    · -- a place of the removed backend is nobody else's
      refine iff_of_false nofun fun ⟨hb, _, hbv⟩ => ?_
      exact hp (h.port_unique hapart hc (h.known hb) hv hbv)
    · refine iff_of_false (fun hf => ?_) nofun
      obtain ⟨hb, -, hbv⟩ := (h.ring pos b).1 hf
      rw [← hp] at hb
      obtain ⟨i, hi, hpos⟩ := hbv
      exact hv ⟨i, hi, by rw [hpos, vnodeKey_congr (haddr b hb)]⟩
    · exact h.ring pos b
  · rw [hcall] at hb
    split_ifs at hb
    exact h.port_eq hb
  · rw [hcall] at hb
    split_ifs at hb
    exact h.known hb

/-- Every call does to the router what it does to the directory. -/
lemma Router.Follows.call (h : r.Follows backends vnodes dir) (hapart : Apart backends vnodes)
    (hports : (backends.map Backend.port).Nodup) {call : RouterCall}
    (hcall : ∀ b, call = .removeBackend b → Known backends b) :
    (r.call call).Follows backends vnodes (dir.call call) := by
  cases call with
  | mark m port => exact h.mark hapart m port
  | removeBackend c =>
    obtain ⟨k, hk, hkc⟩ := hcall c rfl
    refine h.removeBackend hapart ⟨k, hk, hkc⟩ fun b hb => ?_
    obtain ⟨k', hk', hkb⟩ := h.known hb
    have hport : k'.port = k.port := by
      rw [← Backend.addr_snd k', ← Backend.addr_snd k, hkb, hkc]
      exact h.port_eq hb
    rw [← hkb, ← hkc, List.inj_on_of_nodup_map hports hk' hk hport]

/-- Every history does to the router what it does to the directory. -/
lemma Router.Follows.calls {calls : List RouterCall} (hapart : Apart backends vnodes)
    (hports : (backends.map Backend.port).Nodup)
    (hcalls : ∀ b, .removeBackend b ∈ calls → Known backends b)
    (h : r.Follows backends vnodes dir) :
    (calls.foldl Router.call r).Follows backends vnodes (calls.foldl Directory.call dir) := by
  induction calls generalizing r dir with
  | nil => exact h
  | cons call calls ih =>
    apply ih
    · exact fun b hb => hcalls b (List.mem_cons_of_mem _ hb)
    · exact h.call hapart hports fun b hb => hcalls b (hb ▸ List.mem_cons_self)

omit [StdHash] in
/-- The directory of the constructor has the backends under their ports. -/
lemma Directory.new_eq_some (hports : (backends.map Backend.port).Nodup) {port : ℤ} {b : Backend} :
    Directory.new backends port = some b ↔ b ∈ backends ∧ b.port = port := by
  constructor
  · intro h
    exact ⟨List.mem_of_find?_eq_some h, by simpa using List.find?_some h⟩
  · rintro ⟨hb, hport⟩
    cases h : Directory.new backends port with
    | none =>
      have hnot := List.find?_eq_none.1 h b hb
      simp [hport] at hnot
    | some c =>
      have hcport : c.port = port := by simpa using List.find?_some h
      rw [List.inj_on_of_nodup_map hports (List.mem_of_find?_eq_some h) hb (hcport.trans hport.symm)]

/-- The constructor's map has every backend under its port. -/
lemma new_find_eq (h : Router.new backends vnodes = .ok r)
    (hports : (backends.map Backend.port).Nodup) (port : ℤ) :
    r.backends.find port = Directory.new backends port := by
  have hrev : (backends.reverse.map Backend.port).Nodup := by
    rw [List.map_reverse]
    exact List.nodup_reverse.2 hports
  apply Option.ext
  intro b
  rw [new_find h, Directory.new_eq_some hports, ← List.mem_reverse]
  exact Directory.new_eq_some hrev

/-- The constructor's ring has its backends at their virtual nodes only. -/
lemma new_ring (h : Router.new backends vnodes = .ok r) {pos : ℕ} {b : Backend}
    (hb : r.hashRing.ring.find pos = some b) : b ∈ backends ∧ r.hashRing.IsVnode b pos := by
  refine new_induction (P := fun r => ∀ pos b, r.hashRing.ring.find pos = some b →
    b ∈ backends ∧ r.hashRing.IsVnode b pos) h nofun ?_ pos b hb
  intro r a ha hall pos b hf
  have hvnode : (r.hashRing.addNode a).IsVnode b pos ↔ r.hashRing.IsVnode b pos := Iff.rfl
  rw [find_addNode] at hf
  rw [hvnode]
  split_ifs at hf with hv
  · obtain rfl := Option.some.inj hf
    exact ⟨ha, hv⟩
  · exact hall pos b hf

/-- The constructor's router follows the directory of its backends. -/
lemma new_follows (h : Router.new backends vnodes = .ok r)
    (hports : (backends.map Backend.port).Nodup) (hup : ∀ b ∈ backends, b.status ≠ .down)
    (hapart : Apart backends vnodes) : r.Follows backends vnodes (.new backends) := by
  have hnum := (new_configured h).numVnodes
  refine ⟨hnum, new_find_eq h hports, fun pos b => ?_, fun hb => ?_, fun hb => ?_⟩
  · rw [Directory.new_eq_some hports]
    constructor
    · intro hf
      obtain ⟨hb, hv⟩ := new_ring h hf
      exact ⟨⟨hb, rfl⟩, hup b hb, hv⟩
    · rintro ⟨⟨hb, -⟩, -, i, hi, rfl⟩
      have hbf : r.backends.find b.port = some b := by
        rw [new_find_eq h hports]
        exact (Directory.new_eq_some hports).2 ⟨hb, rfl⟩
      obtain ⟨-, c, hc, hca⟩ := new_holds h hapart hbf (hnum ▸ hi)
      rw [hc, List.inj_on_of_nodup_map hports (new_ring h hc).1 hb (congrArg Prod.snd hca)]
  · exact ((Directory.new_eq_some hports).1 hb).2
  · exact ⟨_, ((Directory.new_eq_some hports).1 hb).1, rfl⟩

/-- What is on the ring is in the map as it is, and not DOWN. -/
lemma Router.Follows.of_mem_getNodes (h : r.Follows backends vnodes dir) {key : Str} {n : ℕ}
    {b : Backend} (hb : b ∈ r.hashRing.getNodes key n) :
    r.backends.find b.port = some b ∧ b.status ≠ .down := by
  obtain ⟨pos, hf⟩ := mem_getNodes hb
  obtain ⟨hdir, hs, -⟩ := (h.ring pos b).1 hf
  exact ⟨(h.find b.port).trans hdir, hs⟩

/-- The candidates of a key are the nodes with an accepted status. -/
lemma Router.Follows.targetsForKey (h : r.Follows backends vnodes dir)
    (he : r.hashRing.empty = false) (accept : BackendStatus → Bool) (key : Str) (n : ℕ) :
    r.targetsForKey accept key n
      = .ok ((r.hashRing.getNodes key n).filter fun b => accept b.status) := by
  have hlookup : ∀ b ∈ r.hashRing.getNodes key n,
      r.lookup accept b = Option.guard (fun b => accept b.status) b := by
    intro b hb
    rw [Router.lookup, (h.of_mem_getNodes hb).1]
    rfl
  rw [Router.targetsForKey, he, List.filterMap_congr hlookup, List.filterMap_eq_filter]
  rfl

omit [StdHash] in
/-- Who is alive in a directory. -/
lemma Directory.mem_alive (hport : ∀ {port b}, dir port = some b → b.port = port)
    (hknown : ∀ {port b}, dir port = some b → Known backends b) {b : Backend} :
    b ∈ dir.alive backends ↔ dir b.port = some b ∧ b.status ≠ .down := by
  rw [Directory.alive, List.mem_filterMap]
  constructor
  · rintro ⟨port, -, hb⟩
    obtain ⟨hb, hs⟩ := Option.filter_eq_some_iff.1 hb
    rw [hport hb]
    exact ⟨hb, of_decide_eq_true hs⟩
  · rintro ⟨hb, hs⟩
    obtain ⟨c, hc, hca⟩ := hknown hb
    refine ⟨b.port, List.mem_map.2 ⟨c, hc, congrArg Prod.snd hca⟩, ?_⟩
    exact Option.filter_eq_some_iff.2 ⟨hb, decide_eq_true hs⟩

/-- The walk from any key meets the backends that are not DOWN. -/
lemma Router.Follows.successors_perm (h : r.Follows backends vnodes dir)
    (hports : (backends.map Backend.port).Nodup) (hv : 0 < vnodes) (key : Str) :
    (r.hashRing.successors key).Perm (dir.alive backends) := by
  have hnd : (dir.alive backends).Nodup := by
    refine List.Nodup.filterMap ?_ hports
    intro p p' b hp hp'
    have hp := (Option.filter_eq_some_iff.1 hp).1
    have hp' := (Option.filter_eq_some_iff.1 hp').1
    exact (h.port_eq hp).symm.trans (h.port_eq hp')
  refine (List.perm_ext_iff_of_nodup (nodup_successors _ key).of_map hnd).2 fun b => ?_
  rw [Directory.mem_alive h.port_eq h.known]
  constructor
  · intro hb
    obtain ⟨pos, hf⟩ := mem_successors hb
    obtain ⟨hdir, hs, -⟩ := (h.ring pos b).1 hf
    exact ⟨hdir, hs⟩
  · rintro ⟨hdir, hs⟩
    have hpos : r.hashRing.ring.find (hashString (vnodeKey b 0)) = some b :=
      (h.ring _ b).2 ⟨hdir, hs, 0, h.numVnodes.symm ▸ hv, rfl⟩
    obtain ⟨c, hc, hca⟩ := exists_mem_successors key hpos
    obtain ⟨pos, hf⟩ := mem_successors hc
    have hcdir := ((h.ring pos c).1 hf).1
    have hport : c.port = b.port := congrArg Prod.snd hca
    rw [hport, hdir] at hcdir
    rwa [Option.some.inj hcdir]

end

/-- After any history the ring has exactly the configured backends that are not DOWN, each at its
    virtual nodes and with its status, so that every key has as many candidates for writes as there
    are, and those of them that are UP for reads. -/
theorem router_follows {backends : List Backend} {vnodes : ℕ} {r : Router}
    (hnew : Router.new backends vnodes = .ok r) (hports : (backends.map Backend.port).Nodup)
    (hup : ∀ b ∈ backends, b.status = .up) (hv : 0 < vnodes) (hcf : CollisionFree backends vnodes)
    {calls : List RouterCall} (hcalls : ∀ b, .removeBackend b ∈ calls → Known backends b) :
    let r' := calls.foldl Router.call r
    let dir := calls.foldl Directory.call (.new backends)
    (∀ port, r'.backends.find port = dir port)
      ∧ (∀ pos b, r'.hashRing.ring.find pos = some b
          ↔ dir b.port = some b ∧ b.status ≠ .down ∧ ∃ i < vnodes, pos = hashString (vnodeKey b i))
      ∧ (r'.hashRing.empty = false → ∀ key n, ∃ writes,
          r'.getWriteBackendsForKey key n = .ok writes
            ∧ writes.length = min n (dir.alive backends).length
            ∧ (writes.map Backend.addr).Nodup
            ∧ r'.getReadBackendsForKey key n = .ok (writes.filter fun b => b.status = .up)) := by
  intro r' dir
  have h : r'.Follows backends vnodes dir :=
    (new_follows hnew hports (ne_down_of_up hup) hcf.apart).calls hcf.apart hports hcalls
  refine ⟨h.find, ?_, fun he key n =>
    ⟨r'.hashRing.getNodes key n, ?_, ?_, nodup_getNodes _ key n, ?_⟩⟩
  · intro pos b
    rw [h.ring, HashRing.IsVnode, h.numVnodes]
  · rw [Router.getWriteBackendsForKey, h.targetsForKey he, List.filter_eq_self.2]
    intro b hb
    cases hs : b.status with
    | up => rfl
    | recovering => rfl
    | down => exact absurd hs (h.of_mem_getNodes hb).2
  · rw [getNodes_eq, List.length_take, (h.successors_perm hports hv key).length_eq]
  · rw [Router.getReadBackendsForKey, h.targetsForKey he]
    congr 1
    refine List.filter_congr fun b _ => ?_
    cases b.status <;> rfl

end

section
attribute [local instance] djb2

/-- A backend becomes DOWN and recovers, a port that nobody has is marked UP, and a backend goes. -/
def someCalls : List RouterCall :=
  [.mark .down 9001, .mark .up 7, .mark .recovering 9001,
    .removeBackend ⟨"127.0.0.1".toList, 9002, .up⟩]

/-- The two backends that are left are candidates for writes, and one of them for reads. -/
theorem router_follows_calls :
    ∃ writes, (someCalls.foldl Router.call (initialRouter 1)).getWriteBackendsForKey ['a'] 2
        = .ok writes
      ∧ writes.length = 2 ∧ (writes.map Backend.addr).Nodup
      ∧ (someCalls.foldl Router.call (initialRouter 1)).getReadBackendsForKey ['a'] 2
        = .ok (writes.filter fun b => b.status = .up) := by
  have hcalls : ∀ b, .removeBackend b ∈ someCalls → Known initialBackends b := by
    intro b hb
    have hb : b = ⟨"127.0.0.1".toList, 9002, .up⟩ := by simpa [someCalls] using hb
    exact ⟨b, by rw [hb]; decide, rfl⟩
  have hnew : Router.new initialBackends 1 = .ok (initialRouter 1) := rfl
  obtain ⟨-, -, hrouted⟩ := router_follows hnew (by decide) (by decide) Nat.zero_lt_one
    (by decide) hcalls
  obtain ⟨writes, hw, hlen, hnd, hr⟩ := hrouted (by decide +kernel) ['a'] 2
  exact ⟨writes, hw, hlen.trans (by decide +kernel), hnd, hr⟩

end

end KvStore.Ring
