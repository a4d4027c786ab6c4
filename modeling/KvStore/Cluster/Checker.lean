import KvStore.Cluster.Balancer
import KvStore.Cluster.SingleMap

/-!
# The health checker among the sessions

What the health checker has to reckon with are the mark operations of the sessions. Seen from there
the whole process is the machine of `Health.Cycle`, whatever the sessions, the backends and the
network do.

* `BalancerState.follows_step`: every step of the process is one of that machine, or nothing to it.
* `BalancerState.follows`: so every run of the process is a run of that machine.
* `balancer_promotes`: so a backend becomes UP only after a full recovery, unless a session takes it
  down during the recovery.
-/

namespace KvStore.Cluster
open KvStore.Lib KvStore.Ring KvStore.Http KvStore.Server KvStore.Session KvStore.Recovery
  KvStore.Health

section
variable {ι σ : Type*}

/-- What a step of the process is for the health checker. -/
def checkerActions (s : BalancerState ι σ) : BalancerAction ι σ → List CheckerAction
  | .session a =>
    match (s.sessions.sessions a.session).phase with
    | .marking port _ => [.sessionMarksDown port]
    | _ => []
  | .checker move client => [(move.action client s.checker s.sessions.world).1]
  | .outside _ => []

/-- The health checker and the router of the process. -/
def BalancerState.checkerState (s : BalancerState ι σ) (trace : List Event) : CheckerState :=
  ⟨s.sessions.router, s.checker, trace⟩

/-- No session marks the backend DOWN that is being recovered. -/
def Undisturbed (s : BalancerState ι σ) (a : BalancerAction ι σ) : Prop :=
  ∀ action ∈ checkerActions s a, Uninterrupted (s.checkerState []) action

instance (s : CheckerState) : (a : CheckerAction) → Decidable (Uninterrupted s a)
  | .sessionMarksDown port =>
    match h : s.checker with
    | .recovering backend _ _ =>
      if hp : backend.port = port then isFalse fun hno => hno _ _ _ h hp
      else isTrue fun backend' _ _ h' => by
        rw [h] at h'
        cases h'
        exact hp
    | .asleep | .visiting _ | .pinged _ _ _ => isTrue fun _ _ _ h' => by
        rw [h] at h'
        cases h'
  | .wake _ | .ping _ | .decide | .begin _ | .recover _ | .promote | .sleep => isTrue trivial

instance (s : BalancerState ι σ) (a : BalancerAction ι σ) : Decidable (Undisturbed s a) :=
  inferInstanceAs (Decidable (∀ action ∈ checkerActions s a, _))

/-- What has happened before makes no difference to that. -/
lemma Undisturbed.uninterrupted {s : BalancerState ι σ} {a : BalancerAction ι σ}
    (h : Undisturbed s a) (trace : List Event) :
    ∀ action ∈ checkerActions s a, Uninterrupted (s.checkerState trace) action := by
  intro action haction
  have hunint := h action haction
  cases action with
  | sessionMarksDown port => exact hunint
  | wake | ping | decide | begin | recover | promote | sleep => trivial

variable [StdHash]

/-- What has happened before makes no difference to a step. -/
lemma step_trace (r : Router) (checker : CyclePhase) (trace : List Event) (a : CheckerAction) :
    CheckerState.step ⟨r, checker, trace⟩ a
      = (CheckerState.step ⟨r, checker, []⟩ a).map fun c => { c with trace := c.trace ++ trace } := by
  cases a with
  | wake backends | ping alive | decide | begin activeBackends | recover res | promote | sleep =>
    simp only [CheckerState.step]
    split <;> try split_ifs
    all_goals simp [CheckerState.mark]
  | sessionMarksDown port => simp [CheckerState.step, CheckerState.mark]

variable [DecidableEq ι] {s s' : BalancerState ι σ} {a : BalancerAction ι σ}

/-- Every step of the process is one of the health checker and its sessions, or nothing to them. -/
lemma BalancerState.follows_step {ok : CheckerState → CheckerAction → Prop} {trace : List Event}
    (hok : ∀ action ∈ checkerActions s a, ok (s.checkerState trace) action)
    (h : s.step a = some s') :
    ∃ trace', Run CheckerState.step ok (s.checkerState trace) (checkerActions s a)
      (s'.checkerState trace') := by
  have hsame {s' : BalancerState ι σ} (hr : s'.sessions.router = s.sessions.router)
      (hc : s'.checker = s.checker) : ∃ trace', Run CheckerState.step ok
        (s.checkerState trace) [] (s'.checkerState trace') := by
    refine ⟨trace, ?_⟩
    rw [BalancerState.checkerState, BalancerState.checkerState, hr, hc]
    exact .nil
  have hone {action : CheckerAction} {c : CheckerState}
      (hallowed : ok (s.checkerState trace) action)
      (hstep : (s.checkerState []).step action = some c) :
      Run CheckerState.step ok (s.checkerState trace) [action]
        ⟨c.router, c.checker, c.trace ++ trace⟩ := by
    refine .cons hallowed ?_ .nil
    rw [BalancerState.checkerState, step_trace]
    exact congrArg _ hstep
  cases a with
  | session a =>
    obtain ⟨sessions, hs, rfl⟩ := Option.map_eq_some_iff.1 h
    obtain ⟨-, c, r, w, hstep, rfl⟩ := Sessions.step_cases hs
    cases hstep with
    | @marked port next hphase =>
      have haction : checkerActions s (.session a) = [.sessionMarksDown port] := by
        simp only [checkerActions, hphase]
      have hallowed := hok (.sessionMarksDown port) (haction ▸ List.mem_cons_self)
      rw [haction]
      exact ⟨_, hone hallowed rfl⟩
    | routed hphase | wrote hphase | written hphase | read hphase | failed hphase | unread hphase
      | answered hphase =>
      have haction : checkerActions s (.session a) = [] := by
        simp only [checkerActions, hphase]
      rw [haction]
      exact hsame rfl rfl
  | checker move client =>
    obtain ⟨c, hc, rfl⟩ := BalancerState.stepChecker_eq_some h
    exact ⟨_, hone (hok _ List.mem_cons_self) hc⟩
  | outside w =>
    obtain rfl := Option.some.inj h
    exact hsame rfl rfl

/-- Every run of the process is one of the health checker and its sessions. -/
lemma BalancerState.follows {allowed : BalancerState ι σ → BalancerAction ι σ → Prop}
    (ok : CheckerState → CheckerAction → Prop)
    (hok : ∀ s a trace, allowed s a → ∀ action ∈ checkerActions s a,
      ok (s.checkerState trace) action)
    {actions : List (BalancerAction ι σ)} (h : Run BalancerState.step allowed s actions s')
    (trace : List Event) :
    ∃ trace', Run CheckerState.step ok (s.checkerState trace)
      (observed BalancerState.step checkerActions s actions) (s'.checkerState trace') := by
  have hstep {s : BalancerState ι σ} {a : BalancerAction ι σ} {s' : BalancerState ι σ}
      {t : CheckerState} (ht : ∃ trace, t = s.checkerState trace) (hallowed : allowed s a)
      (hs : s.step a = some s') :
      ∃ t', Run CheckerState.step ok t (checkerActions s a) t'
        ∧ ∃ trace, t' = s'.checkerState trace := by
    obtain ⟨trace, rfl⟩ := ht
    obtain ⟨trace', hrun⟩ := BalancerState.follows_step (hok s a trace hallowed) hs
    exact ⟨_, hrun, trace', rfl⟩
  obtain ⟨_, hrun, trace', rfl⟩ :=
    h.simulates (fun s t => ∃ trace, t = s.checkerState trace) hstep ⟨trace, rfl⟩
  exact ⟨trace', hrun⟩

/-- In the whole process, with any number of sessions and whatever the backends and the network do,
    the health checker goes through a run of its own machine. If no session marks the backend DOWN
    that is being recovered, a backend becomes UP in it only after a recovery that has started and
    finished since the last time it became DOWN, and never straight from DOWN. -/
theorem balancer_promotes {r : Router} {world : σ} {requests : ι → List HttpRequest}
    {actions : List (BalancerAction ι σ)}
    (h : Run BalancerState.step anyStep (.start r world requests) actions s) :
    ∃ trace, Run CheckerState.step anyStep (.start r)
        (observed BalancerState.step checkerActions (.start r world requests) actions)
        ⟨s.sessions.router, s.checker, trace⟩
      ∧ (Run BalancerState.step Undisturbed (.start r world requests) actions s →
        PromotedAfterRecovery trace) := by
  obtain ⟨trace, hrun⟩ := BalancerState.follows anyStep (fun _ _ _ _ _ _ => trivial) h []
  refine ⟨trace, hrun, fun hundisturbed => ?_⟩
  obtain ⟨trace', hrun'⟩ :=
    BalancerState.follows Uninterrupted (fun _ _ trace hok => hok.uninterrupted trace)
      hundisturbed []
  -- both runs end in the same state
  obtain rfl : trace = trace' :=
    congrArg CheckerState.trace (Option.some.inj (hrun.exec_eq.symm.trans hrun'.exec_eq))
  have hstart : (BalancerState.start r world requests |>.checkerState []).Inv := by
    refine ⟨?_, by rintro _ _ _ ⟨⟩⟩
    intro later earlier port before heq
    cases later with
    | nil => cases heq
    | cons e later => cases heq
  exact (hrun'.invariant (fun hinv hok hs => hinv.step hok hs) hstart).promoted

end

section
attribute [local instance] djb2

/-- A client gets the key `a` while its first owner is down, and then the owner is back. -/
def returnSteps : List (BalancerAction Unit Fleet) :=
  List.replicate 5 (.session ⟨(), fleetNetwork plainLib fun addr => addr = localAddr 9003⟩)
    ++ .checker (.wake ((initialRouter 1).markBackendDown 9003).getAllBackends.reverse)
        (fleetClient noneCrashed)
      :: [.ping, .decide, .begin (initialBackends.filter fun b => b.port ≠ 9003), .recover, .recover,
          .recover, .recover, .promote].map fun move => .checker move (fleetClient noneCrashed)

/-- The balancer with that client. -/
def getStart : BalancerState Unit Fleet :=
  .start (initialRouter 1) (fun _ => .new 10) fun _ => [requestOf getA]

/-- The owner is marked DOWN by the session, recovered, and marked UP. -/
theorem balancer_promotes_returned :
    ∃ trace, Event.changed 9003 .recovering .up ∈ trace ∧ PromotedAfterRecovery trace := by
  have hisSome : (exec (fun s a => if Undisturbed s a then BalancerState.step s a else none)
      getStart returnSteps).isSome = true := by
    decide +kernel
  obtain ⟨s, hexec⟩ := Option.isSome_iff_exists.1 hisSome
  have hundisturbed := Run.of_checked hexec
  obtain ⟨trace, hrun, hpromoted⟩ :=
    balancer_promotes (hundisturbed.of_forall fun _ _ _ _ => trivial)
  refine ⟨trace, ?_, hpromoted hundisturbed⟩
  have hchanged : (exec CheckerState.step (.start (initialRouter 1))
      (observed BalancerState.step checkerActions getStart returnSteps)).any
        (fun c => Event.changed 9003 .recovering .up ∈ c.trace) = true := by
    decide +kernel
  have hexec' : exec CheckerState.step (.start (initialRouter 1))
      (observed BalancerState.step checkerActions getStart returnSteps) = _ := hrun.exec_eq
  rw [hexec'] at hchanged
  exact of_decide_eq_true hchanged

end

end KvStore.Cluster
