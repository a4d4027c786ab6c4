import KvStore.Health.Cycle
import KvStore.Ring.Deployment

/-!
# An undisturbed cycle

What `healthCycle` does in a deployment in which at most one backend has crashed or is DOWN: it marks
that backend DOWN, or recovers it and marks it UP, and leaves all the others alone.

* `healthCycle_marked`: only one backend matters.
* `healthCycle_crashed`, `healthCycle_up`, `healthCycle_recovers`: what happens to it.
-/

namespace KvStore.Health
open KvStore.Lib KvStore.Ring KvStore.Server KvStore.Recovery

section
variable {crashed : Addr → Bool} {servers : Fleet} {b : Backend}

/-- A backend that has crashed does not answer a ping. -/
lemma pingBackend_crashed (hc : crashed b.addr = true) :
    pingBackend (fleetClient crashed) b servers = (false, servers) := by
  rw [pingBackend, call_crashed hc]
  rfl

/-- One that runs does. -/
lemma pingBackend_up (hc : crashed b.addr = false) :
    pingBackend (fleetClient crashed) b servers = (true, servers) := by
  rw [pingBackend, call_health hc]
  rfl

variable [StdHash] (active : Router → List Backend) (r : Router)

/-- A backend that runs and is not DOWN is left alone. -/
lemma checkBackend_up (hc : crashed b.addr = false) (hs : b.status ≠ .down) :
    checkBackend (fleetClient crashed) active (r, servers) b = .ok (r, servers) := by
  simp only [checkBackend, pingBackend_up hc, if_true, if_neg hs]

/-- A backend that has crashed is marked DOWN, if it is not DOWN. -/
lemma checkBackend_crashed (hc : crashed b.addr = true) :
    checkBackend (fleetClient crashed) active (r, servers) b
      = .ok (if b.status = .down then r else r.markBackendDown b.port, servers) := by
  simp only [checkBackend, pingBackend_crashed hc, Bool.false_eq_true, if_false]
  cases b.status <;> rfl

/-- A backend that is DOWN and runs is recovered. -/
lemma checkBackend_down (hc : crashed b.addr = false) (hs : b.status = .down) {r' : Router}
    (hr : r.markBackendRecovering b.port = r') {servers' : Fleet}
    (hrecover : recover (fleetClient crashed) r' (active r') b servers = .ok servers') :
    checkBackend (fleetClient crashed) active (r, servers) b
      = .ok (r'.markBackendUp b.port, servers') := by
  simp only [checkBackend, pingBackend_up hc, if_true, if_pos hs, hr, hrecover]

/-- Backends that are left alone do not count. -/
lemma healthCycle_filter {p : Backend → Bool} {backends : List Backend}
    (h : ∀ b ∈ backends, p b = false → crashed b.addr = false ∧ b.status ≠ .down)
    (s : Router × Fleet) :
    healthCycle (fleetClient crashed) active backends s
      = healthCycle (fleetClient crashed) active (backends.filter p) s := by
  induction backends generalizing s with
  | nil => rfl
  | cons b backends ih =>
    obtain ⟨hb, hrest⟩ := List.forall_mem_cons.1 h
    cases hp : p b with
    | true =>
      rw [List.filter_cons_of_pos hp, healthCycle, healthCycle, List.foldlM_cons, List.foldlM_cons]
      exact bind_congr fun s' => ih hrest s'
    | false =>
      obtain ⟨hc, hs⟩ := hb hp
      rw [List.filter_cons_of_neg (by simp [hp]), healthCycle, List.foldlM_cons,
        checkBackend_up active s.1 hc hs]
      exact ih hrest s

end

section
variable [StdHash] {d : Deployment} {x : Backend} (hx : x ∈ d.backends) {crashed : Addr → Bool}
  (hcrash : ∀ addr, crashed addr = true → addr = x.addr) (servers : Fleet)
  (active : Router → List Backend) {backends : List Backend}
include hx hcrash

/-- Of all backends only the one that may have crashed or be DOWN matters. -/
lemma healthCycle_marked {status : BackendStatus}
    (hb : backends.Perm (d.marked x status).getAllBackends) (s : Router × Fleet) :
    healthCycle (fleetClient crashed) active backends s
      = checkBackend (fleetClient crashed) active s (x.withStatus status) := by
  have honly : backends.filter (fun b => b.addr = x.addr) = [x.withStatus status] := by
    rw [← List.perm_singleton, ← Deployment.filter_getAllBackends_marked hx status]
    exact hb.filter _
  rw [healthCycle_filter active (p := fun b => b.addr = x.addr), honly, healthCycle]
  · exact bind_pure _
  · intro b hmem hne
    obtain ⟨c, hc, rfl⟩ := Deployment.mem_getAllBackends_marked.1 (hb.mem_iff.1 hmem)
    rw [decide_eq_false_iff_not, addr_restatus] at hne
    rw [restatus_of_ne hne, d.up c hc]
    refine ⟨?_, nofun⟩
    cases hcc : crashed c.addr with
    | false => rfl
    | true => exact absurd (hcrash _ hcc) hne

/-- A backend that has crashed is DOWN after the cycle. -/
lemma healthCycle_crashed (hc : crashed x.addr = true) {status : BackendStatus}
    (hb : backends.Perm (d.marked x status).getAllBackends) :
    healthCycle (fleetClient crashed) active backends (d.marked x status, servers)
      = .ok (d.marked x .down, servers) := by
  have hrouter : (if status = .down then d.marked x status
      else (d.marked x status).markBackendDown x.port) = d.marked x .down := by
    split_ifs with hs
    · rw [hs]
    · exact Deployment.apply_marked hx status .down
  rw [healthCycle_marked hx hcrash active hb]
  refine (checkBackend_crashed active (d.marked x status) (b := x.withStatus status) hc).trans ?_
  exact congrArg (fun r => Except.ok (r, servers)) hrouter

/-- Nothing happens when all backends run and are UP. -/
lemma healthCycle_up (hc : crashed x.addr = false)
    (hb : backends.Perm (d.marked x .up).getAllBackends) :
    healthCycle (fleetClient crashed) active backends (d.marked x .up, servers)
      = .ok (d.marked x .up, servers) := by
  rw [healthCycle_marked hx hcrash active hb]
  exact checkBackend_up active _ hc nofun

/-- A backend that is DOWN and runs has the values of the other owners of its keys after the cycle,
    and is UP. -/
lemma healthCycle_recovers (hc : crashed x.addr = false) (hcoh : servers.Coherent)
    (hwords : servers.WordKeys) (hactive : ∀ r, (active r).Perm r.getOnlineBackends)
    (hb : backends.Perm (d.marked x .down).getAllBackends) :
    ∃ servers', healthCycle (fleetClient crashed) active backends (d.marked x .down, servers)
        = .ok (d.marked x .up, servers')
      ∧ servers'.Coherent ∧ servers'.WordKeys
      ∧ (∀ a ≠ x.addr, ∀ key, servers'.entry a key = servers.entry a key)
      ∧ (∀ key, x ∈ d.owners key → ∀ y ∈ d.owners key, y.addr ≠ x.addr → ∀ value ≠ [],
          servers.entry y.addr key = some value → servers'.entry x.addr key = some value)
      ∧ ∀ key, (∀ a, servers.entry a key = none) → servers'.entry x.addr key = none := by
  have hup : ∀ addr, crashed addr = false := by
    intro addr
    cases ha : crashed addr with
    | false => rfl
    | true => exact (hcrash addr ha ▸ ha).symm.trans hc
  have hrecovering : (d.marked x .down).markBackendRecovering x.port = d.marked x .recovering :=
    Deployment.apply_marked hx .down .recovering
  have hpromoted : (d.marked x .recovering).markBackendUp x.port = d.marked x .up :=
    Deployment.apply_marked hx .recovering .up
  obtain ⟨servers', hrecover, hcoh', hentry⟩ :=
    recover_entry hup (d.empty_marked x .recovering) hcoh hwords
      (active (d.marked x .recovering)) (x.withStatus .down)
  refine ⟨servers', ?_, hcoh', ?_, ?_, ?_, ?_⟩
  · rw [healthCycle_marked hx hcrash active hb, ← hpromoted]
    exact checkBackend_down active _ (b := x.withStatus .down) hc rfl hrecovering hrecover
  · intro a key he
    rw [hentry] at he
    split_ifs at he with hlisted
    · obtain ⟨-, node, -, -, hnode⟩ := hlisted
      exact hwords node.addr key hnode
    · exact hwords a key he
  · intro a ha key
    rw [hentry, if_neg fun h => ha h.1]
  · intro key hxo y hyo hne value hvalue hy
    have hyb := Deployment.mem_backends_of_mem_owners hyo
    have hport : y.port ≠ x.port := fun hp => hne (congrArg _ (Deployment.eq_of_port hyb hx hp))
    have honline : y ∈ active (d.marked x .recovering) :=
      (hactive _).mem_iff.2 (Deployment.mem_getOnlineBackends_marked hyb hne)
    have hxn := Deployment.mem_getNodes_recovering x hxo
    have hyn := Deployment.mem_getNodes_recovering x hyo
    rw [restatus_self] at hxn
    rw [restatus_of_ne hne] at hyn
    have hcopied := copiedValue_getNodes servers hxn
      (rfl : _ = (x.withStatus .down).port) hyn hport
    rw [hentry, if_pos ⟨rfl, y, honline, hport, by rw [hy]; nofun⟩, hcopied, hy,
      Option.filter_some, if_pos (decide_eq_true hvalue)]
    rfl
  · intro key hnone
    rw [hentry, if_neg, hnone]
    rintro ⟨-, node, -, -, hnode⟩
    exact hnode (hnone node.addr)

/-- For a key that it owns it takes the value of the other owner, and keeps its own if that has
    none. -/
lemma healthCycle_restores (hc : crashed x.addr = false) (hcoh : servers.Coherent)
    (hwords : servers.WordKeys) (hactive : ∀ r, (active r).Perm r.getOnlineBackends)
    (hb : backends.Perm (d.marked x .down).getAllBackends) {r : Router} {servers' : Fleet}
    (hcycle : healthCycle (fleetClient crashed) active backends (d.marked x .down, servers)
      = .ok (r, servers')) {key : Str} (hxo : x ∈ d.owners key) {y : Backend}
    (hyo : y ∈ d.owners key) (hne : y.addr ≠ x.addr) :
    servers'.entry x.addr key
      = ((servers.entry y.addr key).filter (· ≠ [])).or (servers.entry x.addr key) := by
  have hup : ∀ addr, crashed addr = false := by
    intro addr
    cases ha : crashed addr with
    | false => rfl
    | true => exact (hcrash addr ha ▸ ha).symm.trans hc
  obtain ⟨servers'', hrecover, -, hentry⟩ :=
    recover_entry hup (d.empty_marked x .recovering) hcoh hwords
      (active (d.marked x .recovering)) (x.withStatus .down)
  have hcheck := checkBackend_down active (d.marked x .down) (b := x.withStatus .down) hc rfl
    (Deployment.apply_marked hx .down .recovering) hrecover
  rw [healthCycle_marked hx hcrash active hb] at hcycle
  obtain rfl : servers'' = servers' :=
    congrArg Prod.snd (Except.ok.inj (hcheck.symm.trans hcycle))
  have hyb := Deployment.mem_backends_of_mem_owners hyo
  have hport : y.port ≠ x.port := fun hp => hne (congrArg _ (Deployment.eq_of_port hyb hx hp))
  have honline : y ∈ active (d.marked x .recovering) :=
    (hactive _).mem_iff.2 (Deployment.mem_getOnlineBackends_marked hyb hne)
  have hxn := Deployment.mem_getNodes_recovering x hxo
  have hyn := Deployment.mem_getNodes_recovering x hyo
  rw [restatus_self] at hxn
  rw [restatus_of_ne hne] at hyn
  have hcopied := copiedValue_getNodes servers hxn
    (rfl : _ = (x.withStatus .down).port) hyn hport
  rw [hentry, hcopied]
  split_ifs with hlisted
  · rfl
  · -- the key is not listed, so the other owner does not have it
    have hnone : servers.entry y.addr key = none := by
      by_contra hsome
      exact hlisted ⟨rfl, y, honline, hport, hsome⟩
    rw [hnone]
    rfl

end

end KvStore.Health
