import KvStore.Ring.Router

/-!
# Statuses and the ring

When the status map and the ring tell the same story. `HashRing.Holds` says that one virtual node of
a backend is on the ring, `Router.AgreesAt` that the virtual nodes of a port are there exactly if
its status is not DOWN, and `Router.Configured` what never changes about a router.

* `holds_addNode`, `holds_removeNode`: the virtual nodes after a ring update, for backends that
  share no place.
* `agreesAt_ringStep`: a ring update in the direction of the status makes the two agree.
* `new_configured`, `new_agrees`, `Configured.mark`: the constructor and the mark operations.
-/

namespace KvStore.Ring
open KvStore.Lib

variable [StdHash]

/-- The `i`-th virtual node of a backend is on the ring. -/
def HashRing.Holds (r : HashRing) (b : Backend) (i : ℕ) : Prop :=
  ∃ c, r.ring.find (hashString (vnodeKey b i)) = some c ∧ c.addr = b.addr

instance (r : HashRing) (b : Backend) (i : ℕ) : Decidable (r.Holds b i) :=
  decidable_of_iff ((r.ring.find (hashString (vnodeKey b i))).any (·.addr = b.addr) = true)
    (by simp [HashRing.Holds, Option.any_eq_true])

/-- The labels of the virtual nodes of these backends do not collide. -/
def CollisionFree (backends : List Backend) (vnodes : ℕ) : Prop :=
  ∀ b ∈ backends, ∀ c ∈ backends, ∀ i < vnodes, ∀ j < vnodes,
    hashString (vnodeKey b i) = hashString (vnodeKey c j) → vnodeKey b i = vnodeKey c j

instance (backends : List Backend) (vnodes : ℕ) : Decidable (CollisionFree backends vnodes) :=
  inferInstanceAs (Decidable (∀ b ∈ backends, ∀ c ∈ backends, ∀ i < vnodes, ∀ j < vnodes,
    hashString (vnodeKey b i) = hashString (vnodeKey c j) → vnodeKey b i = vnodeKey c j))

/-- The address is that of one of these backends. -/
def Known (backends : List Backend) (b : Backend) : Prop := ∃ c ∈ backends, c.addr = b.addr

/-- No virtual nodes of two of these backends share a place. -/
def Apart (backends : List Backend) (vnodes : ℕ) : Prop :=
  ∀ b ∈ backends, ∀ c ∈ backends, ∀ i < vnodes, ∀ j < vnodes,
    hashString (vnodeKey b i) = hashString (vnodeKey c j) → b.addr = c.addr

instance (backends : List Backend) (vnodes : ℕ) : Decidable (Apart backends vnodes) :=
  inferInstanceAs (Decidable (∀ b ∈ backends, ∀ c ∈ backends, ∀ i < vnodes, ∀ j < vnodes,
    hashString (vnodeKey b i) = hashString (vnodeKey c j) → b.addr = c.addr))

/-- Labels that do not collide are apart. -/
lemma CollisionFree.apart {backends : List Backend} {vnodes : ℕ}
    (h : CollisionFree backends vnodes) : Apart backends vnodes :=
  fun b hb c hc i hi j hj he => (vnodeKey_inj (h b hb c hc i hi j hj he)).1

/-- Then two places that are the same belong to the same backend. -/
lemma Apart.addr_eq {backends : List Backend} {vnodes : ℕ}
    (hapart : Apart backends vnodes) {b c : Backend} (hb : Known backends b)
    (hc : Known backends c) {i j : ℕ} (hi : i < vnodes) (hj : j < vnodes)
    (h : hashString (vnodeKey b i) = hashString (vnodeKey c j)) : b.addr = c.addr := by
  obtain ⟨b', hb', hba⟩ := hb
  obtain ⟨c', hc', hca⟩ := hc
  rw [← vnodeKey_congr hba, ← vnodeKey_congr hca] at h
  rw [← hba, ← hca]
  exact hapart b' hb' c' hc' i hi j hj h

/-- After `add_node` the virtual nodes of the added backend are there, and those of another one are
    there if they were before. -/
lemma holds_addNode {backends : List Backend} {r : HashRing} {b c : Backend}
    (hapart : Apart backends r.numVnodes) (hb : Known backends b) (hc : Known backends c)
    {i : ℕ} (hi : i < r.numVnodes) :
    (r.addNode c).Holds b i ↔ b.addr = c.addr ∨ r.Holds b i := by
  unfold HashRing.Holds
  rw [find_addNode]
  split_ifs with h
  · obtain ⟨j, hj, he⟩ := h
    have ha : b.addr = c.addr := hapart.addr_eq hb hc hi hj he
    simp [ha]
  · have hne : b.addr ≠ c.addr := fun ha => h ⟨i, hi, by rw [vnodeKey_congr ha]⟩
    simp [hne]

/-- After `remove_node` the virtual nodes that are there are those of other backends. -/
lemma holds_removeNode {backends : List Backend} {r : HashRing} {b c : Backend}
    (hapart : Apart backends r.numVnodes) (hb : Known backends b) (hc : Known backends c)
    {i : ℕ} (hi : i < r.numVnodes) :
    (r.removeNode c).Holds b i ↔ b.addr ≠ c.addr ∧ r.Holds b i := by
  unfold HashRing.Holds
  rw [find_removeNode]
  split_ifs with h
  · obtain ⟨j, hj, he⟩ := h
    have ha : b.addr = c.addr := hapart.addr_eq hb hc hi hj he
    simp [ha]
  · have hne : b.addr ≠ c.addr := fun ha => h ⟨i, hi, by rw [vnodeKey_congr ha]⟩
    simp [hne]

/-- What the constructor settles for good: the number of virtual nodes and the backends. -/
structure Router.Configured (backends : List Backend) (vnodes : ℕ) (r : Router) : Prop where
  numVnodes : r.hashRing.numVnodes = vnodes
  port_eq : ∀ {port b}, r.backends.find port = some b → b.port = port
  known : ∀ {port b}, r.backends.find port = some b → Known backends b

/-- The virtual nodes of a port are on the ring exactly if its status is not DOWN. -/
def Router.AgreesAt (r : Router) (port : ℤ) : Prop :=
  ∀ b, r.backends.find port = some b →
    ∀ i < r.hashRing.numVnodes, r.hashRing.Holds b i ↔ b.status ≠ .down

/-- A step of the ring changes neither the number of virtual nodes, -/
@[simp] lemma numVnodes_ringStep (m : Mark) (r : Router) (port : ℤ) :
    (m.ringStep r port).hashRing.numVnodes = r.hashRing.numVnodes := by
  cases m <;> simp only [Mark.ringStep, Router.ringAdd, Router.ringRemove] <;> split <;> rfl

/-- nor the backends, -/
@[simp] lemma backends_ringStep (m : Mark) (r : Router) (port : ℤ) :
    (m.ringStep r port).backends = r.backends := by
  cases m <;> simp [Mark.ringStep]

/-- nor their statuses. -/
@[simp] lemma statusOf_ringStep (m : Mark) (r : Router) (port p : ℤ) :
    (m.ringStep r port).statusOf p = r.statusOf p := by
  simp [Router.statusOf]

/-- A mark operation on an unknown port does nothing to the ring. -/
lemma ringStep_of_unknown {r : Router} {port : ℤ} (h : r.backends.find port = none) (m : Mark) :
    m.ringStep r port = r := by
  cases m <;> simp [Mark.ringStep, Router.ringAdd, Router.ringRemove, h]

/-- The ring after the second step of a mark operation on a known port. -/
lemma hashRing_ringStep {r : Router} {port : ℤ} {c : Backend} (h : r.backends.find port = some c)
    (m : Mark) : (m.ringStep r port).hashRing
      = if m = .down then r.hashRing.removeNode c else r.hashRing.addNode c := by
  cases m <;> simp [Mark.ringStep, Router.ringAdd, Router.ringRemove, h]

/-- A mark operation does not change the number of virtual nodes. -/
@[simp] lemma numVnodes_apply (m : Mark) (r : Router) (port : ℤ) :
    (m.apply r port).hashRing.numVnodes = r.hashRing.numVnodes := by
  rw [Mark.apply, numVnodes_ringStep, hashRing_setStatus]

/-- The ring after a mark operation on an unknown port. -/
lemma hashRing_apply_of_unknown {r : Router} {port : ℤ} (h : r.backends.find port = none)
    (m : Mark) : (m.apply r port).hashRing = r.hashRing := by
  have hset : (r.setStatus port m.status).backends.find port = none := by
    rw [find_setStatus, if_pos rfl, h, Option.map_none]
  rw [Mark.apply, ringStep_of_unknown hset, hashRing_setStatus]

/-- The ring after a mark operation on a known port. -/
lemma find_apply {r : Router} {port : ℤ} {c : Backend} (h : r.backends.find port = some c)
    (m : Mark) (pos : ℕ) : (m.apply r port).hashRing.ring.find pos
      = if r.hashRing.IsVnode c pos then if m = .down then none else some (c.withStatus m.status)
        else r.hashRing.ring.find pos := by
  have hset : (r.setStatus port m.status).backends.find port = some (c.withStatus m.status) := by
    rw [find_setStatus, if_pos rfl, h, Option.map_some]
  have hvnode : r.hashRing.IsVnode (c.withStatus m.status) pos ↔ r.hashRing.IsVnode c pos := Iff.rfl
  rw [Mark.apply, hashRing_ringStep hset, hashRing_setStatus]
  by_cases hm : m = .down
  · rw [if_pos hm, if_pos hm, find_removeNode]
    exact if_congr hvnode rfl rfl
  · rw [if_neg hm, if_neg hm, find_addNode]
    exact if_congr hvnode rfl rfl

section
variable {backends : List Backend} {vnodes : ℕ} {r : Router}

omit [StdHash] in
/-- Assigning a status changes neither the backends nor their number of virtual nodes. -/
lemma Router.Configured.setStatus (h : r.Configured backends vnodes) (port : ℤ)
    (status : BackendStatus) : (r.setStatus port status).Configured backends vnodes := by
  have hfind {p b} (hb : (r.setStatus port status).backends.find p = some b) :
      ∃ b₀, r.backends.find p = some b₀ ∧ b.addr = b₀.addr := by
    rw [find_setStatus] at hb
    split_ifs at hb with hp
    · obtain ⟨b₀, hb₀, rfl⟩ := Option.map_eq_some_iff.1 hb
      exact ⟨b₀, hb₀, rfl⟩
    · exact ⟨b, hb, rfl⟩
  refine ⟨by simp [h.numVnodes], fun hb => ?_, fun hb => ?_⟩
  · obtain ⟨b₀, hb₀, ha⟩ := hfind hb
    exact (congrArg Prod.snd ha).trans (h.port_eq hb₀)
  · obtain ⟨b₀, hb₀, ha⟩ := hfind hb
    obtain ⟨c, hc, hca⟩ := h.known hb₀
    exact ⟨c, hc, hca.trans ha.symm⟩

/-- A ring update changes neither the backends nor their number of virtual nodes. -/
lemma Router.Configured.ringStep (h : r.Configured backends vnodes) (m : Mark) (port : ℤ) :
    (m.ringStep r port).Configured backends vnodes := by
  refine ⟨by simp [h.numVnodes], fun hb => ?_, fun hb => ?_⟩ <;> rw [backends_ringStep] at hb
  · exact h.port_eq hb
  · exact h.known hb

/-- A mark operation changes neither the backends nor their number of virtual nodes. -/
lemma Router.Configured.mark (h : r.Configured backends vnodes) (m : Mark) (port : ℤ) :
    (m.apply r port).Configured backends vnodes := (h.setStatus port m.status).ringStep m port

/-- Assigning the status of one port leaves the others in agreement. -/
lemma agreesAt_setStatus_ne {port p : ℤ} (hne : port ≠ p) (status : BackendStatus)
    (h : r.AgreesAt p) : (r.setStatus port status).AgreesAt p := by
  intro b hb
  rw [find_setStatus, if_neg hne] at hb
  rw [hashRing_setStatus]
  exact h b hb

/-- The virtual nodes of a known port after a ring update of another one. -/
lemma holds_ringStep_ne (hc : r.Configured backends vnodes) (hapart : Apart backends vnodes)
    {port p : ℤ} (hne : port ≠ p) (m : Mark) {b : Backend} (hb : r.backends.find p = some b)
    {i : ℕ} (hi : i < r.hashRing.numVnodes) :
    (m.ringStep r port).hashRing.Holds b i ↔ r.hashRing.Holds b i := by
  cases hport : r.backends.find port with
  | none => rw [ringStep_of_unknown hport]
  | some c =>
    have hapart' : Apart backends r.hashRing.numVnodes := hc.numVnodes.symm ▸ hapart
    have haddr : b.addr ≠ c.addr := by
      intro ha
      have := congrArg Prod.snd ha
      rw [Backend.addr_snd, Backend.addr_snd, hc.port_eq hb, hc.port_eq hport] at this
      exact hne this.symm
    rw [hashRing_ringStep hport]
    split_ifs
    · rw [holds_removeNode hapart' (hc.known hb) (hc.known hport) hi]
      simp [haddr]
    · rw [holds_addNode hapart' (hc.known hb) (hc.known hport) hi]
      simp [haddr]

/-- A ring update of one port leaves the others in agreement. -/
lemma agreesAt_ringStep_ne (hc : r.Configured backends vnodes)
    (hapart : Apart backends vnodes) {port p : ℤ} (hne : port ≠ p) (m : Mark)
    (h : r.AgreesAt p) : (m.ringStep r port).AgreesAt p := by
  intro b hb i hi
  rw [backends_ringStep] at hb
  rw [numVnodes_ringStep] at hi
  rw [holds_ringStep_ne hc hapart hne m hb hi]
  exact h b hb i hi

/-- The ring update of a mark operation goes the way the status of the port says. -/
def Mark.Fits (m : Mark) (r : Router) (port : ℤ) : Prop :=
  ∀ status ∈ r.statusOf port, m = .down ↔ status = .down

instance (m : Mark) (r : Router) (port : ℤ) : Decidable (m.Fits r port) :=
  decidable_of_iff ((r.statusOf port).all (fun s => decide (m = .down ↔ s = .down)) = true)
    (by cases h : r.statusOf port <;> simp [Mark.Fits, h])

/-- A ring update that goes the way the status says makes the two agree. -/
lemma agreesAt_ringStep (hc : r.Configured backends vnodes) (hapart : Apart backends vnodes)
    {port : ℤ} {m : Mark} (hfit : m.Fits r port) : (m.ringStep r port).AgreesAt port := by
  intro b hb i hi
  rw [backends_ringStep] at hb
  rw [numVnodes_ringStep] at hi
  have hapart' : Apart backends r.hashRing.numVnodes := hc.numVnodes.symm ▸ hapart
  have hstatus : m = .down ↔ b.status = .down := hfit b.status (by simp [Router.statusOf, hb])
  rw [hashRing_ringStep hb]
  split_ifs with hm
  · rw [holds_removeNode hapart' (hc.known hb) (hc.known hb) hi]
    simp [hstatus.1 hm]
  · rw [holds_addNode hapart' (hc.known hb) (hc.known hb) hi]
    simpa using fun hd => hm (hstatus.2 hd)

omit [StdHash] in
/-- A mark operation fits the status it has just assigned. -/
lemma fits_setStatus (m : Mark) (r : Router) (port : ℤ) :
    m.Fits (r.setStatus port m.status) port := by
  intro status hs
  rw [statusOf_setStatus, if_pos rfl] at hs
  obtain ⟨-, -, rfl⟩ := Option.map_eq_some_iff.1 hs
  cases m <;> simp [Mark.status]

end

/-- What holds of a router without backends and is kept by adding one holds of a new router. -/
lemma new_induction {P : Router → Prop} {backends : List Backend} {vnodes : ℕ} {r : Router}
    (h : Router.new backends vnodes = .ok r) (h0 : P ⟨⟨vnodes, .empty⟩, .empty⟩)
    (hadd : ∀ r, ∀ b ∈ backends, P r → P ⟨r.hashRing.addNode b, r.backends.insert b.port b⟩) :
    P r := by
  unfold Router.new at h
  split_ifs at h
  obtain rfl := Except.ok.inj h
  refine List.foldlRecOn backends _ h0 ?_
  intro r hr b hb
  exact hadd r b hb hr

/-- The constructor configures the router. -/
lemma new_configured {backends : List Backend} {vnodes : ℕ} {r : Router}
    (h : Router.new backends vnodes = .ok r) : r.Configured backends vnodes := by
  refine new_induction h ⟨rfl, nofun, nofun⟩ ?_
  intro r a ha hc
  refine ⟨hc.numVnodes, ?_, ?_⟩ <;> intro p b hb <;> rw [OrdMap.find_insert] at hb <;>
    split_ifs at hb with hp
  · rw [← Option.some.inj hb, hp]
  · exact hc.port_eq hb
  · exact ⟨a, ha, by rw [Option.some.inj hb]⟩
  · exact hc.known hb

/-- The constructor's map has the last backend with a port. -/
lemma new_find {backends : List Backend} {vnodes : ℕ} {r : Router}
    (h : Router.new backends vnodes = .ok r) (port : ℤ) :
    r.backends.find port = backends.reverse.find? fun b => b.port = port := by
  have hfold : ∀ r₀ : Router, (backends.foldl (fun r b =>
        ({ hashRing := r.hashRing.addNode b, backends := r.backends.insert b.port b } : Router))
        r₀).backends.find port
      = (backends.reverse.find? fun b => b.port = port).or (r₀.backends.find port) := by
    clear h
    induction backends with
    | nil => simp
    | cons b backends ih =>
      intro r₀
      rw [List.foldl_cons, ih, List.reverse_cons, List.find?_append, Option.or_assoc,
        OrdMap.find_insert]
      by_cases hb : b.port = port <;> simp [hb]
  unfold Router.new at h
  split_ifs at h
  obtain rfl := Except.ok.inj h
  rw [hfold, OrdMap.find_empty, Option.or_none]

/-- The constructor puts every backend on the ring. -/
lemma new_holds {backends : List Backend} {vnodes : ℕ} {r : Router}
    (h : Router.new backends vnodes = .ok r) (hapart : Apart backends vnodes) {port : ℤ}
    {b : Backend} (hb : r.backends.find port = some b) {i : ℕ} (hi : i < vnodes) :
    b ∈ backends ∧ r.hashRing.Holds b i := by
  suffices hall : r.hashRing.numVnodes = vnodes ∧ ∀ port b, r.backends.find port = some b →
      b ∈ backends ∧ ∀ i < vnodes, r.hashRing.Holds b i from
    ⟨(hall.2 port b hb).1, (hall.2 port b hb).2 i hi⟩
  refine new_induction (P := fun r => r.hashRing.numVnodes = vnodes ∧ ∀ port b,
    r.backends.find port = some b → b ∈ backends ∧ ∀ i < vnodes, r.hashRing.Holds b i)
    h ⟨rfl, nofun⟩ ?_
  rintro r a ha ⟨hn, hall⟩
  refine ⟨hn, fun p b hb => ?_⟩
  have hapart' : Apart backends r.hashRing.numVnodes := hn.symm ▸ hapart
  rw [OrdMap.find_insert] at hb
  split_ifs at hb with hp
  · obtain rfl := Option.some.inj hb
    refine ⟨ha, fun i hi => ?_⟩
    exact (holds_addNode hapart' ⟨a, ha, rfl⟩ ⟨a, ha, rfl⟩ (hn.symm ▸ hi)).2 (.inl rfl)
  · obtain ⟨hmem, hon⟩ := hall p b hb
    refine ⟨hmem, fun i hi => ?_⟩
    exact (holds_addNode hapart' ⟨b, hmem, rfl⟩ ⟨a, ha, rfl⟩ (hn.symm ▸ hi)).2 (.inr (hon i hi))

/-- If no backend starts out DOWN, the constructor's router agrees with itself. -/
lemma new_agrees {backends : List Backend} {vnodes : ℕ} {r : Router}
    (h : Router.new backends vnodes = .ok r) (hapart : Apart backends vnodes)
    (hup : ∀ b ∈ backends, b.status ≠ .down) (port : ℤ) : r.AgreesAt port := by
  intro b hb i hi
  rw [(new_configured h).numVnodes] at hi
  obtain ⟨hmem, hon⟩ := new_holds h hapart hb hi
  exact iff_of_true hon (hup b hmem)

/-- A reachable router knows the backends it was constructed with. -/
lemma Router.Reachable.configured {backends : List Backend} {vnodes : ℕ} {r : Router}
    (h : Router.Reachable backends vnodes r) : r.Configured backends vnodes := by
  induction h with
  | new h => exact new_configured h
  | mark m port _ ih => exact ih.mark m port

/-- The ring of a reachable router has no other backends than these. -/
lemma Router.Reachable.known {backends : List Backend} {vnodes : ℕ} {r : Router}
    (h : Router.Reachable backends vnodes r) {pos : ℕ} {b : Backend}
    (hb : r.hashRing.ring.find pos = some b) : Known backends b := by
  induction h with
  | new h =>
    refine new_induction (P := fun r => r.hashRing.ring.find pos = some b → Known backends b) h
      nofun ?_ hb
    intro r a ha ih hb
    rw [find_addNode] at hb
    split_ifs at hb with hv
    · exact ⟨a, ha, congrArg Backend.addr (Option.some.inj hb)⟩
    · exact ih hb
  | @mark r m port hr ih =>
    cases hf : r.backends.find port with
    | none =>
      rw [hashRing_apply_of_unknown hf] at hb
      exact ih hb
    | some c =>
      rw [find_apply hf] at hb
      split_ifs at hb
      · have hknown : Known backends c := hr.configured.known hf
        obtain rfl := Option.some.inj hb
        exact hknown
      · exact ih hb

/-- If no two backends share a port, then no two targets of a key do. -/
lemma Router.Reachable.nodup_targets {backends : List Backend} {vnodes : ℕ} {r : Router}
    (h : Router.Reachable backends vnodes r) (hports : (backends.map Backend.port).Nodup)
    {accept : BackendStatus → Bool} {key : Str} {n : ℕ} {targets : List Backend}
    (ht : r.targetsForKey accept key n = .ok targets) : (targets.map Backend.port).Nodup := by
  obtain ⟨-, rfl⟩ := targetsForKey_ok ht
  have hnodes := nodup_getNodes r.hashRing key n
  have hport {node b : Backend} (hl : r.lookup accept node = some b) : b.port = node.port :=
    h.configured.port_eq (Option.filter_eq_some_iff.1 hl).1
  rw [List.nodup_iff_pairwise_ne, List.pairwise_map] at hnodes ⊢
  rw [List.pairwise_filterMap]
  refine hnodes.imp_of_mem ?_
  intro node node' hn hn' hne b hb b' hb' he
  obtain ⟨pos, hpos⟩ := mem_getNodes hn
  obtain ⟨pos', hpos'⟩ := mem_getNodes hn'
  obtain ⟨c, hc, hca⟩ := h.known hpos
  obtain ⟨c', hc', hca'⟩ := h.known hpos'
  have hsame : c.port = c'.port := by
    calc c.port = node.port := congrArg Prod.snd hca
      _ = node'.port := by rw [← hport hb, he, hport hb']
      _ = c'.port := (congrArg Prod.snd hca').symm
  have hcc : c = c' := List.inj_on_of_nodup_map hports hc hc' hsame
  exact hne (by rw [← hca, hcc, hca'])

/-- A target is the map's entry for its port, with a status that is accepted. -/
lemma Router.Reachable.statusOf_target {backends : List Backend} {vnodes : ℕ} {r : Router}
    (h : Router.Reachable backends vnodes r) {accept : BackendStatus → Bool} {key : Str} {n : ℕ}
    {targets : List Backend} (ht : r.targetsForKey accept key n = .ok targets) {b : Backend}
    (hb : b ∈ targets) : r.statusOf b.port = some b.status ∧ accept b.status = true := by
  obtain ⟨node, -, hfind, haccept⟩ := mem_targetsForKey ht hb
  refine ⟨?_, haccept⟩
  rw [Router.statusOf, h.configured.port_eq hfind, hfind]
  rfl

/-- Every backend on the ring is the map's backend for its port, and UP. -/
def Router.AllUp (r : Router) : Prop :=
  ∀ {pos b}, r.hashRing.ring.find pos = some b →
    r.backends.find b.port = some b ∧ b.status = .up

/-- The constructor's router, with backends that are UP and have a port each. -/
lemma new_allUp {backends : List Backend} {vnodes : ℕ} {r : Router}
    (h : Router.new backends vnodes = .ok r) (hports : (backends.map Backend.port).Nodup)
    (hup : ∀ b ∈ backends, b.status = .up) : r.AllUp := by
  suffices hall : ∀ pos b, r.hashRing.ring.find pos = some b →
      b ∈ backends ∧ r.backends.find b.port = some b by
    intro pos b hf
    exact ⟨(hall pos b hf).2, hup b (hall pos b hf).1⟩
  refine new_induction (P := fun r => ∀ pos b, r.hashRing.ring.find pos = some b →
    b ∈ backends ∧ r.backends.find b.port = some b) h nofun ?_
  intro r a ha hall pos b hf
  rw [find_addNode] at hf
  rw [OrdMap.find_insert]
  split_ifs at hf with hv
  · obtain rfl := Option.some.inj hf
    exact ⟨ha, if_pos rfl⟩
  · obtain ⟨hb, hfind⟩ := hall pos b hf
    refine ⟨hb, ?_⟩
    split_ifs with hp
    · rw [List.inj_on_of_nodup_map hports ha hb hp]
    · exact hfind

/-- When all backends are UP, the candidates of a key are its nodes on the ring. -/
lemma Router.AllUp.targetsForKey {r : Router} (h : r.AllUp) {accept : BackendStatus → Bool}
    (ha : accept .up = true) {key : Str} {n : ℕ} {candidates : List Backend}
    (hc : r.targetsForKey accept key n = .ok candidates) :
    candidates = r.hashRing.getNodes key n := by
  obtain ⟨-, rfl⟩ := targetsForKey_ok hc
  have hlookup : ∀ b ∈ r.hashRing.getNodes key n, r.lookup accept b = some b := by
    intro b hb
    obtain ⟨pos, hf⟩ := mem_getNodes hb
    obtain ⟨hfind, hup⟩ := h hf
    rw [Router.lookup, hfind, Option.filter_some, hup, if_pos ha]
  rw [List.filterMap_congr hlookup, List.filterMap_some]

/-- While no backend is marked, the targets of a key are the nodes that the ring has for it. -/
lemma Router.AllUp.targetsForKey_eq {r : Router} (h : r.AllUp) (he : r.hashRing.empty = false)
    {accept : BackendStatus → Bool} (ha : accept .up = true) (key : Str) (n : ℕ) :
    r.targetsForKey accept key n = .ok (r.hashRing.getNodes key n) := by
  cases ht : r.targetsForKey accept key n with
  | error what =>
    rw [targetsForKey_eq_error, he] at ht
    cases ht.1
  | ok candidates => rw [h.targetsForKey ha ht]

/-- The constructor's ring is not empty. -/
lemma new_empty {backends : List Backend} {vnodes : ℕ} {r : Router}
    (h : Router.new backends vnodes = .ok r) (hv : 0 < vnodes) : r.hashRing.empty = false := by
  have hall : r.hashRing.numVnodes = vnodes
      ∧ ∀ port b, r.backends.find port = some b → r.hashRing.empty = false := by
    refine new_induction (P := fun r => r.hashRing.numVnodes = vnodes ∧ ∀ port b,
      r.backends.find port = some b → r.hashRing.empty = false) h ⟨rfl, nofun⟩ ?_
    rintro r a - ⟨hn, -⟩
    exact ⟨hn, fun _ _ _ => empty_addNode (hn ▸ hv) a⟩
  obtain ⟨b, hb⟩ : ∃ b, b ∈ backends := by
    cases backends with
    | nil => cases h
    | cons b backends => exact ⟨b, List.mem_cons_self⟩
  have hknown : r.backends.find b.port ≠ none := by
    rw [new_find h]
    intro hnone
    have hnot := List.find?_eq_none.1 hnone b (List.mem_reverse.2 hb)
    simp at hnot
  obtain ⟨c, hc⟩ := Option.ne_none_iff_exists'.1 hknown
  exact hall.2 _ c hc

/-- The backends `LoadBalancer::acceptClients` starts with. -/
def initialBackends : List Backend :=
  [⟨"127.0.0.1".toList, 9001, .up⟩, ⟨"127.0.0.1".toList, 9002, .up⟩, ⟨"127.0.0.1".toList, 9003, .up⟩]

/-- A router for these backends. -/
def initialRouter (vnodes : ℕ) : Router :=
  (Router.new initialBackends vnodes).toOption.getD ⟨⟨vnodes, .empty⟩, .empty⟩

end KvStore.Ring
