import KvStore.Recovery.Recover
import Mathlib.Logic.Relation

/-!
# Recovery step by step

`recover` as a machine, for runs in which other threads act between its HTTP calls. A `Phase` says
where `recover` is; `Phase.request` is the call it makes next and `Phase.next` what it makes of the
answer. Left alone the machine does what `recover` does (`recover_leads`, `recover_throws`). `Ends`
says in which world `recover` ends, also when it throws.
-/

namespace KvStore.Recovery
open KvStore.Lib KvStore.Ring KvStore.Server

/-- Where `recover` is. -/
inductive Phase where
  | starting
  | listing (nodes : List Backend) (keyspace : OrdMap Str Unit)
  | copying (keys : List Str)
  | fetching (key : Str) (replicas : List Backend) (keys : List Str)
  | pushing (key value : Str) (keys : List Str)
  | finished
  | thrown (what : Str)

/-- The call that comes next, if there is one. -/
def Phase.request (recovered : Backend) : Phase → Option (Addr × Request)
  | .listing (node :: _) _ => some (node.addr, clientGet allKeysPath)
  | .fetching key (replica :: _) _ => some (replica.addr, clientGet (keyPath key))
  | .pushing key value _ => some (recovered.addr, clientPost (syncRoot ++ key) value)
  | _ => none

/-- The phase after `getOnlineBackends` has returned. -/
def Phase.begin (recovered : Backend) (activeBackends : List Backend) : Phase :=
  .listing (activeBackends.filter fun b => b.port ≠ recovered.port) .empty

/-- Where `recover` goes with the answer to its call. -/
def Phase.next [StdHash] (r : Router) (recovered : Backend) : Phase → Option Response → Phase
  | .starting, _ => .starting
  | .listing [] keyspace, _ => .copying keyspace.keys
  | .listing (_ :: nodes) keyspace, res => .listing nodes (insertKeys keyspace (listedKeys res))
  | .copying [], _ => .finished
  | .copying (key :: keys), _ =>
    match r.getBackendsForKey key 2 with
    | .error what => .thrown what
    | .ok replicas =>
      if replicas.any fun b => b.port = recovered.port then
        .fetching key (replicas.filter fun b => b.port ≠ recovered.port) keys
      else .copying keys
  | .fetching _ [] keys, _ => .copying keys
  | .fetching key (_ :: replicas) keys, res =>
    if okBody res ≠ [] then .pushing key (okBody res) keys else .fetching key replicas keys
  | .pushing _ _ keys, _ => .copying keys
  | .finished, _ => .finished
  | .thrown what, _ => .thrown what

variable {σ : Type*} [StdHash]

/-- One step of `recover`, with its call. -/
def stepRecover (client : HttpClient σ) (r : Router) (recovered : Backend) (p : Phase × σ) :
    Phase × σ :=
  match p.1.request recovered with
  | none => (p.1.next r recovered none, p.2)
  | some (addr, req) =>
    let res := client.call addr req p.2
    (p.1.next r recovered res.1, res.2)

/-- What `recover` gets to without anybody else acting. -/
def Leads (client : HttpClient σ) (r : Router) (recovered : Backend) :
    Phase × σ → Phase × σ → Prop :=
  Relation.ReflTransGen fun p q => q = stepRecover client r recovered p

variable {client : HttpClient σ} {r : Router} {recovered : Backend}

/-- One step, and what it leads to. -/
lemma leads_step {p q : Phase × σ}
    (h : Leads client r recovered (stepRecover client r recovered p) q) :
    Leads client r recovered p q := .head rfl h

/-- The keys are listed. -/
lemma collectKeys_leads (nodes : List Backend) (keyspace : OrdMap Str Unit) (w : σ) :
    Leads client r recovered
      (.listing (nodes.filter fun b => b.port ≠ recovered.port) keyspace, w)
      (.copying (collectKeys client recovered nodes keyspace w).1.keys,
        (collectKeys client recovered nodes keyspace w).2) := by
  induction nodes generalizing keyspace w with
  | nil => exact leads_step .refl
  | cons node nodes ih =>
    rw [collectKeys]
    by_cases hp : node.port = recovered.port
    · rw [List.filter_cons_of_neg (by simp [hp]), if_pos hp]
      exact ih keyspace w
    · rw [List.filter_cons_of_pos (by simp [hp]), if_neg hp]
      exact leads_step (ih _ _)

/-- A value is fetched. -/
lemma fetchSource_leads (key : Str) (keys : List Str) (replicas : List Backend) (w : σ) :
    Leads client r recovered
      (.fetching key (replicas.filter fun b => b.port ≠ recovered.port) keys, w)
      (if (fetchSource client recovered key replicas w).1 ≠ [] then
          .pushing key (fetchSource client recovered key replicas w).1 keys
        else .copying keys,
        (fetchSource client recovered key replicas w).2) := by
  induction replicas generalizing w with
  | nil => exact leads_step .refl
  | cons replica replicas ih =>
    rw [fetchSource]
    by_cases hp : replica.port = recovered.port
    · rw [List.filter_cons_of_neg (by simp [hp]), if_pos hp]
      exact ih w
    · rw [List.filter_cons_of_pos (by simp [hp]), if_neg hp]
      refine leads_step ?_
      simp only [stepRecover, Phase.request, Phase.next, fetchValueFromPeer]
      by_cases hv : okBody (client.call replica.addr (clientGet (keyPath key)) w).1 = []
      · simp only [hv, ne_eq, not_true_eq_false, if_false]
        exact ih _
      · simp only [hv, ne_eq, not_false_eq_true, if_true]
        exact .refl

/-- A key is copied. -/
lemma copyKey_leads {key : Str} {w w' : σ} (h : copyKey client r recovered w key = .ok w')
    (keys : List Str) :
    Leads client r recovered (.copying (key :: keys), w) (.copying keys, w') := by
  refine leads_step ?_
  simp only [stepRecover, Phase.request, Phase.next]
  simp only [copyKey] at h
  cases hr : r.getBackendsForKey key 2 with
  | error what =>
    rw [hr] at h
    cases h
  | ok replicas =>
    simp only [hr] at h ⊢
    split_ifs at h ⊢ with hown hv
    · obtain rfl := Except.ok.inj h
      refine (fetchSource_leads key keys replicas w).trans ?_
      rw [if_pos hv]
      exact leads_step .refl
    · obtain rfl := Except.ok.inj h
      refine (fetchSource_leads key keys replicas w).trans ?_
      rw [if_neg hv]
    · obtain rfl := Except.ok.inj h
      exact .refl

/-- Left alone, the steps of `recover` do what `recover` does. -/
theorem recover_leads {activeBackends : List Backend} {w w' : σ}
    (h : recover client r activeBackends recovered w = .ok w') :
    Leads client r recovered (.begin recovered activeBackends, w) (.finished, w') := by
  have hcopy : ∀ {keys : List Str} {w : σ}, keys.foldlM (copyKey client r recovered) w = .ok w' →
      Leads client r recovered (.copying keys, w) (.finished, w') := by
    intro keys
    induction keys with
    | nil =>
      intro w h
      obtain rfl := Except.ok.inj h
      exact leads_step .refl
    | cons key keys ih =>
      intro w h
      rw [List.foldlM_cons] at h
      cases hkey : copyKey client r recovered w key with
      | error what =>
        rw [hkey] at h
        cases h
      | ok w₁ =>
        rw [hkey] at h
        exact (copyKey_leads hkey keys).trans (ih h)
  refine (collectKeys_leads activeBackends .empty w).trans (hcopy ?_)
  rw [← recover_eq]
  exact h

/-- When `recover` throws, so does the machine. -/
theorem recover_throws {activeBackends : List Backend} {w : σ} {what : Str}
    (h : recover client r activeBackends recovered w = .error what) :
    ∃ w', Leads client r recovered (.begin recovered activeBackends, w) (.thrown what, w') := by
  have hcopy : ∀ {keys : List Str} {w : σ},
      keys.foldlM (copyKey client r recovered) w = .error what →
      ∃ w', Leads client r recovered (.copying keys, w) (.thrown what, w') := by
    intro keys
    induction keys with
    | nil =>
      intro w h
      cases h
    | cons key keys ih =>
      intro w h
      rw [List.foldlM_cons] at h
      cases hkey : copyKey client r recovered w key with
      | error what' =>
        rw [hkey] at h
        obtain rfl := Except.error.inj h
        refine ⟨w, leads_step ?_⟩
        simp only [stepRecover, Phase.request, Phase.next]
        simp only [copyKey] at hkey
        cases hr : r.getBackendsForKey key 2 with
        | error what' =>
          rw [hr] at hkey
          obtain rfl := Except.error.inj hkey
          exact .refl
        | ok replicas =>
          simp only [hr] at hkey
          split_ifs at hkey
      | ok w₁ =>
        rw [hkey] at h
        obtain ⟨w', hleads⟩ := ih h
        exact ⟨w', (copyKey_leads hkey keys).trans hleads⟩
  rw [recover_eq] at h
  obtain ⟨w', hleads⟩ := hcopy h
  exact ⟨w', (collectKeys_leads activeBackends .empty w).trans hleads⟩

/-- `recover` ends in this world: it returns it, or throws where its steps have led to it. -/
def Ends (client : HttpClient σ) (r : Router) (recovered : Backend) (activeBackends : List Backend)
    (w w' : σ) : Prop :=
  recover client r activeBackends recovered w = .ok w'
    ∨ ∃ what, recover client r activeBackends recovered w = .error what
      ∧ Leads client r recovered (.begin recovered activeBackends, w) (.thrown what, w')

/-- On an empty ring it lists the keys and throws if there are any. -/
lemma ends_of_empty (hring : r.hashRing.empty = true) (activeBackends : List Backend) (w : σ) :
    Ends client r recovered activeBackends w
      (collectKeys client recovered activeBackends .empty w).2 := by
  have hlisted : Leads client r recovered _ _ := collectKeys_leads activeBackends .empty w
  unfold Ends
  rw [recover_eq]
  generalize collectKeys client recovered activeBackends .empty w = collected at hlisted ⊢
  cases hkeys : collected.1.keys with
  | nil => exact .inl rfl
  | cons key keys =>
    have herror : r.getBackendsForKey key 2 = .error noBackendError := by
      simp [Router.getBackendsForKey, hring]
    have hcopy : copyKey client r recovered collected.2 key = .error noBackendError := by
      rw [copyKey, herror]
    refine .inr ⟨noBackendError, ?_, ?_⟩
    · rw [List.foldlM_cons, hcopy]
      rfl
    · rw [hkeys] at hlisted
      refine hlisted.trans (leads_step ?_)
      simp only [stepRecover, Phase.request, Phase.next, herror]
      exact .refl

end KvStore.Recovery
