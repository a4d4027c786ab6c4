import KvStore.Lib.Distinct
import KvStore.Lib.OrdMap
import KvStore.Lib.Run
import KvStore.Ring.Backend
import Mathlib.Algebra.Group.Nat.Defs
import Mathlib.Data.Finset.Card

/-!
# The hash ring

`HashRing.cpp`. The ring maps 32-bit positions to backends; `std::hash` is any function
(`StdHash`). `getNodes` is the loop of the source, with the iterator kept as the list of entries
from its position on; `getNodesRound_ends` shows that the loop ends, and `getNodes_eq` says what it
computes: the first `replication_factor` distinct nodes of one walk around the ring (`successors`).
`find_addNode` and `find_removeNode` give the ring's entries after a node came or went.
-/

namespace KvStore.Ring
open KvStore.Lib

/-- `std::hash<std::string>`. -/
class StdHash where
  hash : Str → ℕ

/-- A hash function to run the program with. -/
@[reducible] def djb2 : StdHash := ⟨List.foldl (fun h c => h * 33 + c.toNat) 5381⟩

/-- The consistent-hash ring: its number of virtual nodes per backend and its entries. -/
structure HashRing where
  numVnodes : ℕ
  ring : OrdMap ℕ Backend

/-- The positions a ring of `uint32_t` has. -/
abbrev positions : ℕ := 2 ^ 32

section
variable [StdHash]

/-- `hash_string`: the hash cut down to 32 bits. -/
def hashString (key : Str) : ℕ := StdHash.hash key % positions

/-- `add_node`. -/
def HashRing.addNode (r : HashRing) (node : Backend) : HashRing :=
  { r with
    ring := (List.range r.numVnodes).foldl
      (fun ring i => ring.insert (hashString (vnodeKey node i)) node) r.ring }

/-- `remove_node`. -/
def HashRing.removeNode (r : HashRing) (node : Backend) : HashRing :=
  { r with
    ring := (List.range r.numVnodes).foldl
      (fun ring i => ring.erase (hashString (vnodeKey node i))) r.ring }

/-- `empty`. -/
def HashRing.empty (r : HashRing) : Bool := r.ring.isEmpty

/-- The number of entries of the set `unique_backends`. -/
def uniqueBackends (ring : OrdMap ℕ Backend) : ℕ :=
  ((ring.entries.map fun e => uniqueId e.2).toFinset).card

/-- The loop of `getNodes`. The iterator is the list of the entries from its position on. -/
def getNodesLoop (ring : OrdMap ℕ Backend) (replicationFactor unique : ℕ) :
    ℕ → List (ℕ × Backend) → List Str → List Backend → List Backend
  | 0, _, _, result => result
  | fuel + 1, it, seenNodes, result =>
    if result.length < replicationFactor ∧ seenNodes.length < unique then
      -- an iterator at the end is moved to the beginning
      match (if it.isEmpty then ring.entries else it) with
      | [] => result
      | (_, currentBackend) :: it =>
        if nodeId currentBackend ∈ seenNodes then
          getNodesLoop ring replicationFactor unique fuel it seenNodes result
        else
          getNodesLoop ring replicationFactor unique fuel it (nodeId currentBackend :: seenNodes)
            (result ++ [currentBackend])
    else result

/-- `getNodes`. One round over the ring is fuel enough (`getNodesLoop_fuel`). -/
def HashRing.getNodes (r : HashRing) (key : Str) (replicationFactor : ℕ) : List Backend :=
  if r.ring.isEmpty then []
  else
    getNodesLoop r.ring replicationFactor (uniqueBackends r.ring) r.ring.entries.length
      (r.ring.lowerBound (hashString key)) [] []

/-- The distinct nodes in the order of one walk around the ring from the key's position. -/
def HashRing.successors (r : HashRing) (key : Str) : List Backend :=
  distinctOn nodeId ((r.ring.walk (hashString key)).map Prod.snd)

end

/-- Naming the nodes of a list injectively by address counts their addresses. -/
lemma card_map_addr {f : Addr → Str} (hf : Function.Injective f) (l : List Backend) :
    ((l.map fun b => f b.addr).toFinset).card = ((l.map Backend.addr).toFinset).card := by
  have himage : (l.map fun b => f b.addr).toFinset = (l.map Backend.addr).toFinset.image f := by
    ext s
    simp
  rw [himage, Finset.card_image_of_injective _ hf]

/-- The two ways of naming nodes count the same number of nodes. -/
lemma uniqueBackends_eq (ring : OrdMap ℕ Backend) :
    uniqueBackends ring = ((ring.entries.map fun e => nodeId e.2).toFinset).card := by
  have hu : Function.Injective fun a : Addr => uniqueId ⟨a.1, a.2, .up⟩ :=
    fun a b h => uniqueId_inj.1 h
  have hn : Function.Injective fun a : Addr => nodeId ⟨a.1, a.2, .up⟩ :=
    fun a b h => nodeId_inj.1 h
  have h := (card_map_addr hu (ring.entries.map Prod.snd)).trans
    (card_map_addr hn (ring.entries.map Prod.snd)).symm
  rw [List.map_map, List.map_map] at h
  exact h

/-- Once as many nodes have been seen as there are on the ring, every node has been seen. -/
lemma mem_seen_of_unique_le {ring : OrdMap ℕ Backend} {seen : List Str} (hnd : seen.Nodup)
    (hsub : ∀ s ∈ seen, ∃ e ∈ ring.entries, nodeId e.2 = s)
    (hle : uniqueBackends ring ≤ seen.length) {e : ℕ × Backend} (he : e ∈ ring.entries) :
    nodeId e.2 ∈ seen := by
  have hss : seen.toFinset ⊆ (ring.entries.map fun e => nodeId e.2).toFinset := by
    intro s hs
    obtain ⟨e, he, rfl⟩ := hsub s (List.mem_toFinset.1 hs)
    exact List.mem_toFinset.2 (List.mem_map_of_mem he)
  have heq := Finset.eq_of_subset_of_card_le hss
    (by rw [← uniqueBackends_eq, List.toFinset_card_of_nodup hnd]; exact hle)
  rw [← List.mem_toFinset, heq, List.mem_toFinset]
  exact List.mem_map_of_mem he

/-- A walk begins at the lower bound and goes on at the beginning of the ring. -/
lemma walk_isPrefix (ring : OrdMap ℕ Backend) (k : ℕ) :
    ring.walk k <+: ring.lowerBound k ++ ring.entries :=
  (List.prefix_append_right_inj _).2 (List.takeWhile_prefix _)

/-- The entries after storing one backend under several positions. -/
lemma find_foldl_insert (f : ℕ → ℕ) (b : Backend) (l : List ℕ) (ring : OrdMap ℕ Backend) (pos : ℕ) :
    (l.foldl (fun ring i => ring.insert (f i) b) ring).find pos
      = if ∃ i ∈ l, pos = f i then some b else ring.find pos := by
  induction l generalizing ring with
  | nil => simp
  | cons a l ih =>
    rw [List.foldl_cons, ih, OrdMap.find_insert]
    by_cases h1 : ∃ i ∈ l, pos = f i
    · simp [h1]
    · by_cases h2 : f a = pos
      · simp [h2]
      · simp [h1, h2, Ne.symm h2]

/-- The entries after clearing several positions. -/
lemma find_foldl_erase (f : ℕ → ℕ) (l : List ℕ) (ring : OrdMap ℕ Backend) (pos : ℕ) :
    (l.foldl (fun ring i => ring.erase (f i)) ring).find pos
      = if ∃ i ∈ l, pos = f i then none else ring.find pos := by
  induction l generalizing ring with
  | nil => simp
  | cons a l ih =>
    rw [List.foldl_cons, ih, OrdMap.find_erase]
    by_cases h1 : ∃ i ∈ l, pos = f i
    · simp [h1]
    · by_cases h2 : f a = pos
      · simp [h2]
      · simp [h1, h2, Ne.symm h2]

/-- The variables of the loop of `getNodes`. -/
structure WalkState where
  it : List (ℕ × Backend)
  seenNodes : List Str := []
  result : List Backend := []

/-- One round of the loop of `getNodes`, `none` when its condition does not hold. -/
def getNodesRound (ring : OrdMap ℕ Backend) (replicationFactor unique : ℕ) (s : WalkState) :
    Option WalkState :=
  if s.result.length < replicationFactor ∧ s.seenNodes.length < unique then
    match (if s.it.isEmpty then ring.entries else s.it) with
    -- the loop is not entered on an empty ring
    | [] => none
    | (_, currentBackend) :: it =>
      if nodeId currentBackend ∈ s.seenNodes then some { s with it := it }
      else
        some
          { it := it
            seenNodes := nodeId currentBackend :: s.seenNodes
            result := s.result ++ [currentBackend] }
  else none

/-- A unit of fuel pays for one round. -/
lemma getNodesLoop_succ (ring : OrdMap ℕ Backend) (replicationFactor unique fuel : ℕ)
    (s : WalkState) :
    getNodesLoop ring replicationFactor unique (fuel + 1) s.it s.seenNodes s.result
      = ((getNodesRound ring replicationFactor unique s).map fun s =>
          getNodesLoop ring replicationFactor unique fuel s.it s.seenNodes s.result).getD
        s.result := by
  rw [getNodesLoop, getNodesRound]
  by_cases hcond : s.result.length < replicationFactor ∧ s.seenNodes.length < unique
  · rw [if_pos hcond, if_pos hcond]
    cases (if s.it.isEmpty then ring.entries else s.it) with
    | nil => rfl
    | cons e it =>
      simp only
      split_ifs <;> rfl
  · rw [if_neg hcond, if_neg hcond]
    rfl

/-- With as much fuel as it has rounds the loop returns what it ends with. -/
lemma getNodesLoop_of_ends {ring : OrdMap ℕ Backend} {replicationFactor unique n fuel : ℕ}
    {s s' : WalkState} (h : LoopEnds (getNodesRound ring replicationFactor unique) n s s')
    (hfuel : n ≤ fuel) :
    getNodesLoop ring replicationFactor unique fuel s.it s.seenNodes s.result = s'.result := by
  induction h generalizing fuel with
  | done hs =>
    cases fuel with
    | zero => rfl
    | succ fuel =>
      rw [getNodesLoop_succ, hs]
      rfl
  | round hs _ ih =>
    cases fuel with
    | zero => omega
    | succ fuel =>
      rw [getNodesLoop_succ, hs]
      exact ih (Nat.le_of_succ_le_succ hfuel)

/-- The walk `rest` is still ahead of the loop: it starts at the iterator and goes on at the beginning
    of the ring, and a node is either seen already or still ahead. -/
structure WalkState.Ahead (ring : OrdMap ℕ Backend) (rest : List (ℕ × Backend)) (s : WalkState) :
    Prop where
  start : rest <+: s.it ++ ring.entries
  ofRing : ∀ e ∈ rest, e ∈ ring.entries
  nodup : s.seenNodes.Nodup
  seen : ∀ id ∈ s.seenNodes, ∃ e ∈ ring.entries, nodeId e.2 = id
  all : ∀ e ∈ ring.entries, nodeId e.2 ∈ s.seenNodes ∨ ∃ e' ∈ rest, nodeId e'.2 = nodeId e.2

/-- The loop visits a backend and goes on at an iterator. -/
def WalkState.visit (s : WalkState) (b : Backend) (it : List (ℕ × Backend)) : WalkState :=
  if nodeId b ∈ s.seenNodes then { s with it := it }
  else { it := it, seenNodes := nodeId b :: s.seenNodes, result := s.result ++ [b] }

/-- What the loop has collected when the walk that is ahead is over: its first distinct nodes. -/
def WalkState.collects (s : WalkState) (replicationFactor : ℕ) (rest : List (ℕ × Backend)) :
    List Backend :=
  s.result ++ ((distinctOn nodeId (rest.map Prod.snd)).filter (nodeId · ∉ s.seenNodes)).take
    (replicationFactor - s.result.length)

section
variable {ring : OrdMap ℕ Backend} {replicationFactor unique : ℕ} {pos : ℕ} {b : Backend}
  {rest : List (ℕ × Backend)} {s : WalkState}

/-- A visit collects what it should. -/
lemma collects_visit (it : List (ℕ × Backend)) (hlen : s.result.length < replicationFactor) :
    (s.visit b it).collects replicationFactor rest
      = s.collects replicationFactor ((pos, b) :: rest) := by
  unfold WalkState.visit WalkState.collects
  rw [List.map_cons, distinctOn_scan]
  split_ifs with hseen
  · rfl
  · have hmore : replicationFactor - s.result.length
        = replicationFactor - (s.result ++ [b]).length + 1 := by
      rw [List.length_append, List.length_singleton]
      omega
    rw [hmore, List.take_succ_cons, List.append_assoc, List.singleton_append]

/-- Where the walk goes on after its first entry. -/
lemma WalkState.Ahead.exists_it (h : s.Ahead ring ((pos, b) :: rest)) :
    ∃ it, (if s.it.isEmpty then ring.entries else s.it) = (pos, b) :: it
      ∧ rest <+: it ++ ring.entries := by
  have hstart := h.start
  cases hs : s.it with
  | nil =>
    rw [hs] at hstart
    obtain ⟨t, ht⟩ := hstart
    rw [List.nil_append, List.cons_append] at ht
    exact ⟨rest ++ t, by simp [← ht], by rw [List.append_assoc]; exact List.prefix_append _ _⟩
  | cons a it =>
    rw [hs, List.cons_append, List.cons_prefix_cons] at hstart
    exact ⟨it, by simp [hstart.1], hstart.2⟩

/-- After a visit the rest of the walk is ahead. -/
lemma WalkState.Ahead.visit (h : s.Ahead ring ((pos, b) :: rest)) {it : List (ℕ × Backend)}
    (hit : rest <+: it ++ ring.entries) : (s.visit b it).Ahead ring rest := by
  have hmem := h.ofRing (pos, b) List.mem_cons_self
  have hring : ∀ e ∈ rest, e ∈ ring.entries := fun e he => h.ofRing e (List.mem_cons_of_mem _ he)
  unfold WalkState.visit
  split_ifs with hseen
  · refine ⟨hit, hring, h.nodup, h.seen, fun e he => ?_⟩
    rcases h.all e he with h | ⟨e', he', heq⟩
    · exact .inl h
    · rcases List.mem_cons.1 he' with rfl | he'
      · exact .inl (heq ▸ hseen)
      · exact .inr ⟨e', he', heq⟩
  · refine ⟨hit, hring, List.nodup_cons.2 ⟨hseen, h.nodup⟩,
      List.forall_mem_cons.2 ⟨⟨_, hmem, rfl⟩, h.seen⟩, fun e he => ?_⟩
    rcases h.all e he with h | ⟨e', he', heq⟩
    · exact .inl (List.mem_cons_of_mem _ h)
    · rcases List.mem_cons.1 he' with rfl | he'
      · exact .inl (heq ▸ List.mem_cons_self)
      · exact .inr ⟨e', he', heq⟩

/-- A round visits the first entry of the walk that is ahead. -/
lemma WalkState.Ahead.round (h : s.Ahead ring ((pos, b) :: rest))
    (hcond : s.result.length < replicationFactor ∧ s.seenNodes.length < unique) :
    ∃ it, getNodesRound ring replicationFactor unique s = some (s.visit b it)
      ∧ (s.visit b it).Ahead ring rest := by
  obtain ⟨it, hit, hrest⟩ := h.exists_it
  refine ⟨it, ?_, h.visit hrest⟩
  rw [getNodesRound, if_pos hcond, hit]
  exact (apply_ite some _ _ _).symm

/-- At the end of the walk all nodes have been seen. -/
lemma WalkState.Ahead.unique_le (h : s.Ahead ring []) :
    uniqueBackends ring ≤ s.seenNodes.length := by
  rw [uniqueBackends_eq, ← List.toFinset_card_of_nodup h.nodup]
  refine Finset.card_le_card fun id hid => ?_
  obtain ⟨e, he, rfl⟩ := List.mem_map.1 (List.mem_toFinset.1 hid)
  rcases h.all e he with h | ⟨e', he', _⟩
  · exact List.mem_toFinset.2 h
  · cases he'

/-- When all nodes have been seen, nothing of the walk is new. -/
lemma WalkState.Ahead.collects_of_le (h : s.Ahead ring rest)
    (hle : uniqueBackends ring ≤ s.seenNodes.length) :
    s.collects replicationFactor rest = s.result := by
  have hnone : (distinctOn nodeId (rest.map Prod.snd)).filter (nodeId · ∉ s.seenNodes) = [] := by
    refine List.filter_eq_nil_iff.2 fun c hc => ?_
    obtain ⟨e, he, rfl⟩ := List.mem_map.1 (mem_of_mem_distinctOn hc)
    simpa using mem_seen_of_unique_le h.nodup h.seen hle (h.ofRing e he)
  rw [WalkState.collects, hnone, List.take_nil, List.append_nil]

/-- The loop ends when the walk does, and has then collected the first distinct nodes of it. -/
lemma getNodesRound_ends (h : s.Ahead ring rest) (replicationFactor : ℕ) :
    ∃ n ≤ rest.length, ∃ s',
      LoopEnds (getNodesRound ring replicationFactor (uniqueBackends ring)) n s s'
        ∧ s'.result = s.collects replicationFactor rest := by
  induction rest generalizing s with
  | nil =>
    have hle := h.unique_le
    exact ⟨0, le_rfl, s, .done (if_neg fun hcond => absurd hcond.2 (not_lt.2 hle)),
      (h.collects_of_le hle).symm⟩
  | cons e rest ih =>
    obtain ⟨pos, b⟩ := e
    by_cases hcond : s.result.length < replicationFactor
        ∧ s.seenNodes.length < uniqueBackends ring
    · obtain ⟨it, hround, hahead⟩ := h.round hcond
      obtain ⟨n, hn, s', hends, hresult⟩ := ih hahead
      exact ⟨n + 1, Nat.succ_le_succ hn, s', .round hround hends,
        hresult.trans (collects_visit it hcond.1)⟩
    · refine ⟨0, Nat.zero_le _, s, .done (if_neg hcond), ?_⟩
      rcases not_and_or.1 hcond with hlen | hlen
      · rw [WalkState.collects, Nat.sub_eq_zero_of_le (not_lt.1 hlen), List.take_zero,
          List.append_nil]
      · exact (h.collects_of_le (not_lt.1 hlen)).symm

end

section
variable [StdHash]

/-- Once around the ring is enough for the loop. -/
lemma getNodesRound_ends_walk (r : HashRing) (key : Str) (replicationFactor : ℕ) :
    ∃ n ≤ r.ring.entries.length, ∃ s,
      LoopEnds (getNodesRound r.ring replicationFactor (uniqueBackends r.ring)) n
          { it := r.ring.lowerBound (hashString key) } s
        ∧ s.result = (r.successors key).take replicationFactor := by
  have hahead : WalkState.Ahead r.ring (r.ring.walk (hashString key))
      { it := r.ring.lowerBound (hashString key) } :=
    ⟨walk_isPrefix r.ring _, fun e he => OrdMap.mem_walk.1 he, .nil, by simp,
      fun e he => .inr ⟨e, OrdMap.mem_walk.2 he, rfl⟩⟩
  obtain ⟨n, hn, s, hends, hresult⟩ := getNodesRound_ends hahead replicationFactor
  rw [OrdMap.length_walk] at hn
  exact ⟨n, hn, s, hends, by simpa [WalkState.collects, HashRing.successors] using hresult⟩

/-- More fuel than one round does not change the result of the loop. -/
lemma getNodesLoop_fuel (r : HashRing) (key : Str) (replicationFactor extra : ℕ) :
    getNodesLoop r.ring replicationFactor (uniqueBackends r.ring) (r.ring.entries.length + extra)
        (r.ring.lowerBound (hashString key)) [] []
      = (r.successors key).take replicationFactor := by
  obtain ⟨n, hn, s, hends, hresult⟩ := getNodesRound_ends_walk r key replicationFactor
  have hloop := getNodesLoop_of_ends hends (Nat.le_add_right_of_le hn (k := extra))
  rw [← hresult, ← hloop]

/-- `getNodes` returns the first `replication_factor` distinct nodes of the walk. -/
theorem getNodes_eq (r : HashRing) (key : Str) (replicationFactor : ℕ) :
    r.getNodes key replicationFactor = (r.successors key).take replicationFactor := by
  unfold HashRing.getNodes
  split_ifs with h
  · have hnil : r.successors key = [] := by
      rw [HashRing.successors, distinctOn_eq_nil, List.map_eq_nil_iff,
        List.eq_nil_iff_forall_not_mem]
      rintro ⟨pos, b⟩ hm
      rw [OrdMap.mem_walk, OrdMap.mem_entries, OrdMap.isEmpty_iff.1 h] at hm
      cases hm
    rw [hnil, List.take_nil]
  · exact getNodesLoop_fuel r key replicationFactor 0

/-- The nodes of the walk are the backends on the ring. -/
lemma mem_successors {r : HashRing} {key : Str} {b : Backend} (h : b ∈ r.successors key) :
    ∃ pos, r.ring.find pos = some b := by
  obtain ⟨⟨pos, c⟩, hc, rfl⟩ := List.mem_map.1 (mem_of_mem_distinctOn h)
  exact ⟨pos, OrdMap.mem_entries.1 (OrdMap.mem_walk.1 hc)⟩

/-- Every backend on the ring is met by the walk. -/
lemma exists_mem_successors {r : HashRing} {pos : ℕ} {b : Backend} (key : Str)
    (h : r.ring.find pos = some b) : ∃ c ∈ r.successors key, c.addr = b.addr := by
  have hm : b ∈ (r.ring.walk (hashString key)).map Prod.snd :=
    List.mem_map.2 ⟨(pos, b), OrdMap.mem_walk.2 (OrdMap.mem_entries.2 h), rfl⟩
  obtain ⟨c, hc, hcb⟩ := exists_mem_distinctOn (f := nodeId) hm
  exact ⟨c, hc, nodeId_inj.1 hcb⟩

/-- The walk meets no address twice. -/
lemma nodup_successors (r : HashRing) (key : Str) : ((r.successors key).map Backend.addr).Nodup := by
  have h := nodup_map_distinctOn nodeId ((r.ring.walk (hashString key)).map Prod.snd)
  rw [List.nodup_iff_pairwise_ne, List.pairwise_map] at h ⊢
  exact h.imp fun hne heq => hne (nodeId_inj.2 heq)

/-- The result of `getNodes` comes from the ring. -/
lemma mem_getNodes {r : HashRing} {key : Str} {n : ℕ} {b : Backend} (h : b ∈ r.getNodes key n) :
    ∃ pos, r.ring.find pos = some b := by
  rw [getNodes_eq] at h
  exact mem_successors (List.mem_of_mem_take h)

/-- `getNodes` returns no address twice. -/
lemma nodup_getNodes (r : HashRing) (key : Str) (n : ℕ) :
    ((r.getNodes key n).map Backend.addr).Nodup := by
  rw [getNodes_eq, List.map_take]
  exact (nodup_successors r key).sublist (List.take_sublist _ _)

/-- `getNodes` finds at most as many nodes as asked for. -/
lemma length_getNodes_le (r : HashRing) (key : Str) (n : ℕ) : (r.getNodes key n).length ≤ n := by
  rw [getNodes_eq]
  exact List.length_take_le _ _

/-- The backends met when walking the ring clockwise from the first position that is not below the
    key's, past the end and around to it again. -/
def HashRing.clockwise (r : HashRing) (key : Str) : List Backend :=
  (r.ring.entries.filter (fun e => hashString key ≤ e.1)
    ++ r.ring.entries.filter (fun e => e.1 < hashString key)).map Prod.snd

/-- The physical backends on the ring. -/
def HashRing.addrs (r : HashRing) : Finset Addr := (r.ring.entries.map fun e => e.2.addr).toFinset

/-- The nodes of the walk, told apart by their addresses. -/
lemma successors_eq (r : HashRing) (key : Str) :
    r.successors key = distinctOn Backend.addr (r.clockwise key) := by
  rw [HashRing.successors, OrdMap.walk_eq_filter]
  exact distinctOn_congr (fun _ _ => nodeId_inj) _

/-- The walk meets every physical backend. -/
lemma length_successors (r : HashRing) (key : Str) : (r.successors key).length = r.addrs.card := by
  have haddrs : (((r.ring.walk (hashString key)).map Prod.snd).map Backend.addr).toFinset
      = r.addrs := by
    ext a
    simp only [HashRing.addrs, List.map_map, List.mem_toFinset, List.mem_map, OrdMap.mem_walk,
      Function.comp_apply]
  rw [successors_eq, length_distinctOn, HashRing.clockwise, ← OrdMap.walk_eq_filter, haddrs]

/-- The loop of `getNodes` ends after at most one round for each entry of the ring. `getNodes` then
    returns the first `replication_factor` distinct backends of the walk, or all of them if there
    are no more. -/
theorem getNodes_clockwise (r : HashRing) (key : Str) (replicationFactor : ℕ) :
    (∃ n ≤ r.ring.entries.length, ∃ s,
        LoopEnds (getNodesRound r.ring replicationFactor (uniqueBackends r.ring)) n
            { it := r.ring.lowerBound (hashString key) } s
          ∧ s.result = r.getNodes key replicationFactor)
      ∧ r.getNodes key replicationFactor
          = (distinctOn Backend.addr (r.clockwise key)).take replicationFactor
      ∧ (r.getNodes key replicationFactor).length = min replicationFactor r.addrs.card
      ∧ ((r.getNodes key replicationFactor).map Backend.addr).Nodup := by
  refine ⟨?_, ?_, ?_, nodup_getNodes r key replicationFactor⟩
  · obtain ⟨n, hn, s, hends, hresult⟩ := getNodesRound_ends_walk r key replicationFactor
    exact ⟨n, hn, s, hends, by rw [hresult, getNodes_eq]⟩
  · rw [getNodes_eq, successors_eq]
  · rw [getNodes_eq, List.length_take, length_successors]

/-- Which addresses are found depends on the addresses that are on the ring. -/
lemma map_addr_getNodes {r r' : HashRing}
    (h : ∀ pos, (r.ring.find pos).map Backend.addr = (r'.ring.find pos).map Backend.addr)
    (key : Str) (n : ℕ) :
    (r.getNodes key n).map Backend.addr = (r'.getNodes key n).map Backend.addr := by
  let node (a : Addr) : Backend := ⟨a.1, a.2, .up⟩
  have hname (b : Backend) : (nodeId ∘ node) b.addr = nodeId b := rfl
  have hkeep (b : Option Backend) : b.filter (fun _ => true) = b := by cases b <;> rfl
  have hwalk (r : HashRing) : (r.successors key).map Backend.addr
      = distinctOn (nodeId ∘ node)
          (((r.ring.filterMap (fun _ => true) Backend.addr).walk (hashString key)).map Prod.snd) := by
    rw [HashRing.successors, ← distinctOn_map _ hname,
      OrdMap.walk_filterMap, List.map_map, List.map_map, List.filter_true]
    rfl
  have hring : r.ring.filterMap (fun _ => true) Backend.addr
      = r'.ring.filterMap (fun _ => true) Backend.addr := by
    apply OrdMap.ext_find
    intro pos
    rw [OrdMap.find_filterMap, OrdMap.find_filterMap, hkeep, hkeep, h]
  rw [getNodes_eq, getNodes_eq, List.map_take, List.map_take, hwalk, hwalk, hring]

/-- On a ring that is not empty `getNodes` finds a node. -/
lemma getNodes_ne_nil {r : HashRing} (h : r.empty = false) (key : Str) {n : ℕ} (hn : n ≠ 0) :
    r.getNodes key n ≠ [] := by
  have hne : r.ring.entries ≠ [] := by
    intro he
    simp [HashRing.empty, OrdMap.isEmpty, he] at h
  obtain ⟨⟨pos, b⟩, he⟩ := List.exists_mem_of_ne_nil _ hne
  obtain ⟨c, hc, -⟩ := exists_mem_successors key (OrdMap.mem_entries.1 he)
  rw [getNodes_eq]
  intro hnil
  rcases List.take_eq_nil_iff.1 hnil with h0 | h0
  · exact hn h0
  · rw [h0] at hc
    cases hc

/-- A key at an occupied position is served by its occupant first. -/
lemma head?_getNodes {r : HashRing} {key : Str} {b : Backend}
    (h : r.ring.find (hashString key) = some b) {n : ℕ} (hn : n ≠ 0) :
    (r.getNodes key n).head? = some b := by
  have hwalk := OrdMap.head?_walk h
  obtain ⟨rest, hrest⟩ := List.head?_eq_some_iff.1 hwalk
  rw [getNodes_eq, List.head?_take, if_neg hn, HashRing.successors, hrest, List.map_cons,
    distinctOn_cons, List.head?_cons]

/-- The positions of the virtual nodes of a backend. -/
def HashRing.IsVnode (r : HashRing) (node : Backend) (pos : ℕ) : Prop :=
  ∃ i < r.numVnodes, pos = hashString (vnodeKey node i)

instance (r : HashRing) (node : Backend) (pos : ℕ) : Decidable (r.IsVnode node pos) :=
  inferInstanceAs (Decidable (∃ i < r.numVnodes, pos = hashString (vnodeKey node i)))

/-- The ring after `add_node`. -/
lemma find_addNode (r : HashRing) (node : Backend) (pos : ℕ) :
    (r.addNode node).ring.find pos = if r.IsVnode node pos then some node else r.ring.find pos := by
  rw [HashRing.addNode, find_foldl_insert]
  exact if_congr (by simp [HashRing.IsVnode]) rfl rfl

omit [StdHash] in
/-- A ring with a backend is not empty. -/
lemma empty_of_find {r : HashRing} {pos : ℕ} {b : Backend} (h : r.ring.find pos = some b) :
    r.empty = false := by
  cases he : r.empty with
  | false => rfl
  | true => cases h.symm.trans (OrdMap.isEmpty_iff.1 he pos)

/-- With a virtual node the ring is not empty. -/
lemma empty_addNode {r : HashRing} (h : 0 < r.numVnodes) (node : Backend) :
    (r.addNode node).empty = false := by
  apply empty_of_find
  rw [find_addNode, if_pos ⟨0, h, rfl⟩]

/-- The ring after `remove_node`. -/
lemma find_removeNode (r : HashRing) (node : Backend) (pos : ℕ) :
    (r.removeNode node).ring.find pos = if r.IsVnode node pos then none else r.ring.find pos := by
  rw [HashRing.removeNode, find_foldl_erase]
  exact if_congr (by simp [HashRing.IsVnode]) rfl rfl

/-- The number of virtual nodes stays the same when a node is added, -/
@[simp] lemma numVnodes_addNode (r : HashRing) (node : Backend) :
    (r.addNode node).numVnodes = r.numVnodes := rfl

/-- and when one is removed. -/
@[simp] lemma numVnodes_removeNode (r : HashRing) (node : Backend) :
    (r.removeNode node).numVnodes = r.numVnodes := rfl

end

end KvStore.Ring
