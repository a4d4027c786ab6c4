import KvStore.Cluster.System
import KvStore.Session.Concurrent

/-!
# The balancer with all its threads

The process of the load balancer: the sessions of its clients and the thread of the health checker,
which share the router and take turns in any order. Every lookup, every mark operation and every call
of a backend is a step, and so is what a backend does on its own. The network, and the client that
the health checker has, can behave in another way each time. An exception that leaves any thread
ends the process.

`CheckerMove.action` is what the health checker sees when it goes on; so its part of a step is one of
`CheckerState.step`.

* `BalancerState.step_cases`: what a step is.
* `BalancerState.reachable_of_run`: whatever happens, the router has only been marked.
-/

namespace KvStore.Cluster
open KvStore.Lib KvStore.Ring KvStore.Http KvStore.Server KvStore.Session KvStore.Recovery
  KvStore.Health

/-- A step of the health checker: what it sees of the backends when it wakes up or starts a recovery,
    in some order, or that it goes on. -/
inductive CheckerMove where
  | wake (backends : List Backend)
  | ping
  | decide
  | begin (activeBackends : List Backend)
  | recover
  | promote
  | sleep

section
variable {σ : Type*}

/-- The step, with the answer to the call that belongs to it, and the world after that. -/
def CheckerMove.action (client : HttpClient σ) (checker : CyclePhase) (w : σ) :
    CheckerMove → CheckerAction × σ
  | .wake backends => (.wake backends, w)
  | .ping =>
    match checker with
    | .visiting (backend :: _) =>
      let pinged := pingBackend client backend w
      (.ping pinged.1, pinged.2)
    | _ => (.ping false, w)
  | .decide => (.decide, w)
  | .begin activeBackends => (.begin activeBackends, w)
  | .recover =>
    match checker with
    | .recovering backend phase _ =>
      match phase.request backend with
      | some (addr, req) =>
        let called := client.call addr req w
        (.recover called.1, called.2)
      | none => (.recover none, w)
    | _ => (.recover none, w)
  | .promote => (.promote, w)
  | .sleep => (.sleep, w)

end

section
variable [StdHash]

/-- What a step of the health checker does to it and to the router. -/
inductive CheckerStep (r : Router) : CyclePhase → CheckerAction → Router → CyclePhase → Prop where
  | wake {backends} :
    backends.Perm r.getAllBackends →
    CheckerStep r .asleep (.wake backends) r (.visiting backends)
  | ping {backend alive rest} :
    CheckerStep r (.visiting (backend :: rest)) (.ping alive) r (.pinged backend alive rest)
  | returned {backend rest} :
    backend.status = .down →
    CheckerStep r (.pinged backend true rest) .decide (r.markBackendRecovering backend.port)
      (.recovering backend .starting rest)
  | died {backend rest} :
    backend.status ≠ .down →
    CheckerStep r (.pinged backend false rest) .decide (r.markBackendDown backend.port)
      (.visiting rest)
  | unchanged {backend alive rest} :
    CheckerStep r (.pinged backend alive rest) .decide r (.visiting rest)
  | begin {backend activeBackends rest} :
    activeBackends.Perm r.getOnlineBackends →
    CheckerStep r (.recovering backend .starting rest) (.begin activeBackends) r
      (.recovering backend (.begin backend activeBackends) rest)
  | recover {backend phase rest res} :
    inProgress phase = true →
    CheckerStep r (.recovering backend phase rest) (.recover res) r
      (.recovering backend (phase.next r backend res) rest)
  | promote {backend rest} :
    CheckerStep r (.recovering backend .finished rest) .promote (r.markBackendUp backend.port)
      (.visiting rest)
  | sleep :
    CheckerStep r (.visiting []) .sleep r .asleep
  | sessionMarksDown {checker port} :
    CheckerStep r checker (.sessionMarksDown port) (r.markBackendDown port) checker

/-- Every step of the health checker is one of these. -/
lemma checkerStep_of_step {s s' : CheckerState} {a : CheckerAction} (h : s.step a = some s') :
    CheckerStep s.router s.checker a s'.router s'.checker := by
  obtain ⟨r, checker, trace⟩ := s
  cases a with
  | wake backends =>
    simp only [CheckerState.step] at h
    split at h
    · split_ifs at h with hp
      obtain rfl := Option.some.inj h
      exact .wake hp
    · cases h
  | ping alive =>
    simp only [CheckerState.step] at h
    split at h
    · obtain rfl := Option.some.inj h
      exact .ping
    · cases h
  | decide =>
    simp only [CheckerState.step] at h
    split at h
    · rename_i backend alive rest
      split_ifs at h with halive hdown hup
      · obtain rfl := Option.some.inj h
        exact halive ▸ .returned hdown
      · obtain rfl := Option.some.inj h
        exact .unchanged
      · obtain rfl := Option.some.inj h
        have hdead : alive = false := by simpa using halive
        refine hdead ▸ .died ?_
        rintro hdown
        simp [hdown] at hup
      · obtain rfl := Option.some.inj h
        exact .unchanged
    · cases h
  | begin activeBackends =>
    simp only [CheckerState.step] at h
    split at h
    · split_ifs at h with hp
      obtain rfl := Option.some.inj h
      exact .begin hp
    · cases h
  | recover res =>
    simp only [CheckerState.step] at h
    split at h
    · split_ifs at h with hp
      obtain rfl := Option.some.inj h
      exact .recover hp
    · cases h
  | promote =>
    simp only [CheckerState.step] at h
    split at h
    · obtain rfl := Option.some.inj h
      exact .promote
    · cases h
  | sleep =>
    simp only [CheckerState.step] at h
    split at h
    · obtain rfl := Option.some.inj h
      exact .sleep
    · cases h
  | sessionMarksDown port =>
    obtain rfl := Option.some.inj h
    exact .sessionMarksDown

end

/-- The exception that leaves the health checker. -/
def exceptionOf : CyclePhase → Option Str
  | .recovering _ (.thrown what) _ => some what
  | _ => none

/-- The sessions, with the router and the world, and the health checker. -/
structure BalancerState (ι σ : Type*) where
  sessions : Sessions ι σ
  checker : CyclePhase

/-- Who goes on: a session, the health checker, or the world. -/
inductive BalancerAction (ι σ : Type*) where
  | session (a : SessionAction ι σ)
  | checker (move : CheckerMove) (client : HttpClient σ)
  | outside (w : σ)

section
variable {ι σ : Type*} [StdHash]

/-- A step of the health checker. -/
def BalancerState.stepChecker (s : BalancerState ι σ) (move : CheckerMove) (client : HttpClient σ) :
    Option (BalancerState ι σ) :=
  match s.sessions.aborted with
  | some _ => none
  | none =>
    let acted := move.action client s.checker s.sessions.world
    match CheckerState.step ⟨s.sessions.router, s.checker, []⟩ acted.1 with
    | none => none
    | some c =>
      some ⟨{ s.sessions with
        router := c.router, world := acted.2, aborted := exceptionOf c.checker }, c.checker⟩

/-- One step. -/
def BalancerState.step [DecidableEq ι] (s : BalancerState ι σ) :
    BalancerAction ι σ → Option (BalancerState ι σ)
  | .session a => (s.sessions.step a).map fun sessions => { s with sessions := sessions }
  | .checker move client => s.stepChecker move client
  | .outside w => some { s with sessions := { s.sessions with world := w } }

/-- The process has started, and the health checker sleeps. -/
def BalancerState.start (r : Router) (world : σ) (requests : ι → List HttpRequest) :
    BalancerState ι σ :=
  ⟨.start r world requests, .asleep⟩

/-- What a step can be. -/
inductive BalancerState.Step (s : BalancerState ι σ) [DecidableEq ι] :
    BalancerAction ι σ → BalancerState ι σ → Prop where
  | session {a c r w} :
    ClientSession.Step a.network (s.sessions.sessions a.session) s.sessions.router s.sessions.world
      (c, r, w) →
    Step s (.session a)
      ⟨⟨r, w, Function.update s.sessions.sessions a.session c, c.phase.exception⟩, s.checker⟩
  | checker {move client r checker} :
    CheckerStep s.sessions.router s.checker (move.action client s.checker s.sessions.world).1 r
      checker →
    Step s (.checker move client)
      ⟨{ s.sessions with
        router := r
        world := (move.action client s.checker s.sessions.world).2
        aborted := exceptionOf checker }, checker⟩
  | outside {w} :
    Step s (.outside w) { s with sessions := { s.sessions with world := w } }

variable {s s' : BalancerState ι σ}

/-- What a step of the health checker is. -/
lemma BalancerState.stepChecker_eq_some {move : CheckerMove} {client : HttpClient σ}
    (h : s.stepChecker move client = some s') :
    ∃ c, CheckerState.step ⟨s.sessions.router, s.checker, []⟩
        (move.action client s.checker s.sessions.world).1 = some c
      ∧ s' = ⟨{ s.sessions with
          router := c.router
          world := (move.action client s.checker s.sessions.world).2
          aborted := exceptionOf c.checker }, c.checker⟩ := by
  simp only [BalancerState.stepChecker] at h
  split at h
  · cases h
  · split at h
    · cases h
    · rename_i c hc
      exact ⟨c, hc, (Option.some.inj h).symm⟩

variable [DecidableEq ι] {a : BalancerAction ι σ}

/-- Every step is one of these. -/
lemma BalancerState.step_cases (h : s.step a = some s') : BalancerState.Step s a s' := by
  cases a with
  | session a =>
    obtain ⟨sessions, hs, rfl⟩ := Option.map_eq_some_iff.1 h
    obtain ⟨-, c, r, w, hstep, rfl⟩ := Sessions.step_cases hs
    exact .session hstep
  | checker move client =>
    obtain ⟨c, hc, rfl⟩ := BalancerState.stepChecker_eq_some h
    exact .checker (checkerStep_of_step hc)
  | outside w =>
    obtain rfl := Option.some.inj h
    exact .outside

/-- Whatever the threads and the backends do, the router has only been marked. -/
lemma BalancerState.step_reachable {backends : List Backend} {vnodes : ℕ}
    (hr : Router.Reachable backends vnodes s.sessions.router) (h : s.step a = some s') :
    Router.Reachable backends vnodes s'.sessions.router := by
  cases BalancerState.step_cases h with
  | session hstep =>
    cases hstep with
    | marked hphase => exact .mark .down _ hr
    | routed | wrote | written | read | failed | unread | answered => exact hr
  | checker hstep =>
    generalize (CheckerMove.action _ s.checker s.sessions.world _).1 = action at hstep
    generalize s.checker = before at hstep
    cases hstep with
    | returned => exact .mark .recovering _ hr
    | died | sessionMarksDown => exact .mark .down _ hr
    | promote => exact .mark .up _ hr
    | wake | ping | unchanged | begin | recover | sleep => exact hr
  | outside => exact hr

/-- In every run of the process the router is one that marking leads to from the constructed one. -/
theorem BalancerState.reachable_of_run {backends : List Backend} {vnodes : ℕ} {r : Router}
    (hr : Router.new backends vnodes = .ok r) {world : σ} {requests : ι → List HttpRequest}
    {actions : List (BalancerAction ι σ)}
    (h : Run BalancerState.step anyStep (.start r world requests) actions s) :
    Router.Reachable backends vnodes s.sessions.router :=
  h.invariant (I := fun s => Router.Reachable backends vnodes s.sessions.router)
    (fun hs _ hstep => BalancerState.step_reachable hs hstep) (.new hr)

end

end KvStore.Cluster
