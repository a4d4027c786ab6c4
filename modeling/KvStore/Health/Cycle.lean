import KvStore.Lib.Run
import KvStore.Ring.Agreement
import KvStore.Recovery.Steps

/-!
# The cycles of the health checker

`HealthChecker::run`: ping every backend of a snapshot, mark the dead ones DOWN, and recover those
that are back before they are marked UP. `healthCycle` is a cycle that nothing disturbs; in
`CheckerState.step` the health checker takes turns with sessions that mark backends DOWN, each mark
operation is one step, and the answers to its calls are arbitrary. `trace` is what has happened so
far, the latest first.

* `healthCycle_keeps`: what a cycle keeps.
* `CheckerState.Inv.step`: as long as no session marks the backend DOWN that is being recovered, a
  finished recovery comes after the last time this backend became DOWN.
* `promoted_after_recovery`: so only fully recovered backends become UP.
* `promoted_from_down`: a session that interferes with a recovery.
-/

namespace KvStore.Health
open KvStore.Lib KvStore.Ring KvStore.Server KvStore.Recovery

/-- `pingBackend`. -/
def pingBackend {σ : Type*} (client : HttpClient σ) (backend : Backend) (w : σ) : Bool × σ :=
  let res := client.call backend.addr (clientGet healthPath) w
  (res.1.any fun res => res.status = 200, res.2)

section
variable {σ : Type*} [StdHash]

/-- The body of the loop in `run`. `active` says in which order `getOnlineBackends` returns the
    backends. -/
def checkBackend (client : HttpClient σ) (active : Router → List Backend) (s : Router × σ)
    (backend : Backend) : Except Str (Router × σ) :=
  let pinged := pingBackend client backend s.2
  if pinged.1 then
    if backend.status = .down then
      let r := s.1.markBackendRecovering backend.port
      match recover client r (active r) backend pinged.2 with
      | .ok w => .ok (r.markBackendUp backend.port, w)
      | .error what => .error what
    else .ok (s.1, pinged.2)
  else if backend.status = .up ∨ backend.status = .recovering then
    .ok (s.1.markBackendDown backend.port, pinged.2)
  else .ok (s.1, pinged.2)

/-- One cycle of `run`, with what `getAllBackends` has returned: a map without order. -/
def healthCycle (client : HttpClient σ) (active : Router → List Backend) (backends : List Backend)
    (s : Router × σ) : Except Str (Router × σ) :=
  backends.foldlM (checkBackend client active) s

/-- What a cycle keeps, if its pings and its recoveries keep it: the router is marked, and nothing
    else happens to it. -/
lemma healthCycle_keeps {client : HttpClient σ} {P : σ → Prop} {Fetched : Str → Str → Prop}
    (h : Keeps client P Fetched) {configured : List Backend} {vnodes : ℕ}
    {active : Router → List Backend} {backends : List Backend} {s s' : Router × σ}
    (hs : Router.Reachable configured vnodes s.1 ∧ P s.2)
    (hc : healthCycle client active backends s = .ok s') :
    Router.Reachable configured vnodes s'.1 ∧ P s'.2 := by
  have hcheck {s s' : Router × σ} {b : Backend} (hs : Router.Reachable configured vnodes s.1 ∧ P s.2)
      (hc : checkBackend client active s b = .ok s') :
      Router.Reachable configured vnodes s'.1 ∧ P s'.2 := by
    obtain ⟨hr, hw⟩ := hs
    have hping : P (pingBackend client b s.2).2 := h.get b.addr healthPath s.2 hw
    unfold checkBackend at hc
    dsimp only at hc
    split_ifs at hc
    · cases hrec : recover client (s.1.markBackendRecovering b.port)
          (active (s.1.markBackendRecovering b.port)) b (pingBackend client b s.2).2 with
      | error what =>
        rw [hrec] at hc
        cases hc
      | ok w =>
        rw [hrec] at hc
        obtain rfl := Except.ok.inj hc
        exact ⟨.mark .up b.port (.mark .recovering b.port hr), h.recover hping hrec⟩
    · obtain rfl := Except.ok.inj hc
      exact ⟨hr, hping⟩
    · obtain rfl := Except.ok.inj hc
      exact ⟨.mark .down b.port hr, hping⟩
    · obtain rfl := Except.ok.inj hc
      exact ⟨hr, hping⟩
  exact foldlM_invariant (fun hs hb => hcheck hs hb) hc hs

end

/-- Something that happens: the status of a port changes, or a recovery starts or finishes. -/
inductive Event where
  | changed (port : ℤ) (before after : BackendStatus)
  | recoverStarted (port : ℤ)
  | recoverFinished (port : ℤ)
deriving DecidableEq, Repr

/-- Where the health checker is. -/
inductive CyclePhase where
  | asleep
  | visiting (rest : List Backend)
  | pinged (backend : Backend) (alive : Bool) (rest : List Backend)
  | recovering (backend : Backend) (phase : Phase) (rest : List Backend)

/-- The router, the health checker, and what has happened. -/
structure CheckerState where
  router : Router
  checker : CyclePhase
  trace : List Event

/-- The steps of the health checker, and `markBackendDown` by a session. -/
inductive CheckerAction where
  | wake (backends : List Backend)
  | ping (alive : Bool)
  | decide
  | begin (activeBackends : List Backend)
  | recover (res : Option Response)
  | promote
  | sleep
  | sessionMarksDown (port : ℤ)

/-- The events of a mark operation. -/
def markEvents (r : Router) (m : Mark) (port : ℤ) : List Event :=
  match r.statusOf port with
  | none => []
  | some before => if before = m.status then [] else [.changed port before m.status]

/-- The events of a step of `recover`. -/
def phaseEvents (port : ℤ) : Phase → List Event
  | .finished => [.recoverFinished port]
  | _ => []

/-- `recover` is between its beginning and its end. -/
def inProgress : Phase → Bool
  | .starting => false
  | .finished => false
  | .thrown _ => false
  | _ => true

section
variable [StdHash]

/-- A state after a mark operation. -/
def CheckerState.mark (s : CheckerState) (m : Mark) (port : ℤ) (checker : CyclePhase) :
    CheckerState :=
  ⟨m.apply s.router port, checker, markEvents s.router m port ++ s.trace⟩

/-- One step. -/
def CheckerState.step (s : CheckerState) : CheckerAction → Option CheckerState
  | .wake backends =>
    match s.checker with
    | .asleep =>
      if backends.Perm s.router.getAllBackends then some { s with checker := .visiting backends }
      else none
    | _ => none
  | .ping alive =>
    match s.checker with
    | .visiting (backend :: rest) => some { s with checker := .pinged backend alive rest }
    | _ => none
  | .decide =>
    match s.checker with
    | .pinged backend alive rest =>
      if alive then
        if backend.status = .down then
          some (s.mark .recovering backend.port (.recovering backend .starting rest))
        else some { s with checker := .visiting rest }
      else if backend.status = .up ∨ backend.status = .recovering then
        some (s.mark .down backend.port (.visiting rest))
      else some { s with checker := .visiting rest }
    | _ => none
  | .begin activeBackends =>
    match s.checker with
    | .recovering backend .starting rest =>
      if activeBackends.Perm s.router.getOnlineBackends then
        some { s with
          checker := .recovering backend (.begin backend activeBackends) rest
          trace := .recoverStarted backend.port :: s.trace }
      else none
    | _ => none
  | .recover res =>
    match s.checker with
    | .recovering backend phase rest =>
      if inProgress phase then
        let next := phase.next s.router backend res
        some { s with
          checker := .recovering backend next rest
          trace := phaseEvents backend.port next ++ s.trace }
      else none
    | _ => none
  | .promote =>
    match s.checker with
    | .recovering backend .finished rest => some (s.mark .up backend.port (.visiting rest))
    | _ => none
  | .sleep =>
    match s.checker with
    | .visiting [] => some { s with checker := .asleep }
    | _ => none
  | .sessionMarksDown port => some (s.mark .down port s.checker)

end

/-- The health checker sleeps, and nothing has happened. -/
def CheckerState.start (r : Router) : CheckerState := ⟨r, .asleep, []⟩

/-- The port has not become DOWN. -/
def NotDown (port : ℤ) (trace : List Event) : Prop := ∀ before, .changed port before .down ∉ trace

/-- A recovery of the port has started since the last time the port became DOWN. -/
def RecoverStarted (port : ℤ) (trace : List Event) : Prop :=
  ∃ later earlier, trace = later ++ .recoverStarted port :: earlier ∧ NotDown port later

/-- A recovery of the port has started and finished since the last time the port became DOWN. -/
def Recovered (port : ℤ) (trace : List Event) : Prop :=
  ∃ later earlier, trace = later ++ .recoverFinished port :: earlier ∧ NotDown port later
    ∧ RecoverStarted port earlier

/-- Whenever a backend became UP, it was not DOWN, and a recovery of it had started and finished
    since the last time it became DOWN. -/
def PromotedAfterRecovery (trace : List Event) : Prop :=
  ∀ later earlier port before, trace = later ++ .changed port before .up :: earlier →
    before ≠ .down ∧ Recovered port earlier

/-- The steps that do no harm: no session marks the backend DOWN that is being recovered. -/
def Uninterrupted (s : CheckerState) : CheckerAction → Prop
  | .sessionMarksDown port => ∀ backend phase rest, s.checker = .recovering backend phase rest →
      backend.port ≠ port
  | _ => True

/-- What has happened before the phase that `recover` is in. -/
def PhaseTrace (port : ℤ) (trace : List Event) : Phase → Prop
  | .starting => True
  | .finished => Recovered port trace
  | .thrown _ => True
  | _ => RecoverStarted port trace

/-- What holds between the steps. -/
structure CheckerState.Inv (s : CheckerState) : Prop where
  promoted : PromotedAfterRecovery s.trace
  recovering : ∀ backend phase rest, s.checker = .recovering backend phase rest →
    s.router.statusOf backend.port ≠ some .down ∧ PhaseTrace backend.port s.trace phase

section
variable {port : ℤ} {trace : List Event} {e : Event}

/-- That a backend has not become DOWN outlasts every other event, -/
lemma NotDown.cons (h : NotDown port trace) (he : ∀ before, e ≠ .changed port before .down) :
    NotDown port (e :: trace) := by
  intro before hm
  rcases List.mem_cons.1 hm with rfl | hm
  · exact he before rfl
  · exact h before hm

/-- and so does that its recovery has started, -/
lemma RecoverStarted.cons (h : RecoverStarted port trace)
    (he : ∀ before, e ≠ .changed port before .down) : RecoverStarted port (e :: trace) := by
  obtain ⟨later, earlier, rfl, hnd⟩ := h
  exact ⟨e :: later, earlier, rfl, hnd.cons he⟩

/-- that it has recovered, -/
lemma Recovered.cons (h : Recovered port trace) (he : ∀ before, e ≠ .changed port before .down) :
    Recovered port (e :: trace) := by
  obtain ⟨later, earlier, rfl, hnd, hstarted⟩ := h
  exact ⟨e :: later, earlier, rfl, hnd.cons he, hstarted⟩

/-- and what the trace has for the phase of the recovery. -/
lemma PhaseTrace.cons {phase : Phase} (h : PhaseTrace port trace phase)
    (he : ∀ before, e ≠ .changed port before .down) : PhaseTrace port (e :: trace) phase := by
  cases phase with
  | starting => trivial
  | finished => exact Recovered.cons h he
  | thrown what => trivial
  | listing nodes keyspace => exact RecoverStarted.cons h he
  | copying keys => exact RecoverStarted.cons h he
  | fetching key replicas keys => exact RecoverStarted.cons h he
  | pushing key value keys => exact RecoverStarted.cons h he

/-- An event keeps the property if it is no promotion, or one of a backend that has recovered. -/
lemma PromotedAfterRecovery.cons (h : PromotedAfterRecovery trace)
    (he : ∀ port before, e = .changed port before .up → before ≠ .down ∧ Recovered port trace) :
    PromotedAfterRecovery (e :: trace) := by
  intro later earlier port before heq
  cases later with
  | nil =>
    obtain ⟨rfl, rfl⟩ := List.cons.inj heq
    exact he port before rfl
  | cons e' later =>
    obtain ⟨-, rfl⟩ := List.cons.inj heq
    exact h later earlier port before rfl

end

/-- A mark operation adds the change of one status, or nothing. -/
lemma markEvents_cases (r : Router) (m : Mark) (port : ℤ) : markEvents r m port = []
    ∨ ∃ before, r.statusOf port = some before ∧ before ≠ m.status
        ∧ markEvents r m port = [.changed port before m.status] := by
  unfold markEvents
  cases h : r.statusOf port with
  | none => exact .inl rfl
  | some before =>
    by_cases hb : before = m.status
    · exact .inl (if_pos hb)
    · exact .inr ⟨before, rfl, hb, if_neg hb⟩

/-- A step of `recover` that has been begun. -/
lemma PhaseTrace.next {port : ℤ} {trace : List Event} {phase : Phase}
    (h : PhaseTrace port trace phase) (hp : inProgress phase = true) (next : Phase) :
    PhaseTrace port (phaseEvents port next ++ trace) next := by
  have hstarted : RecoverStarted port trace := by
    cases phase with
    | starting => cases hp
    | finished => cases hp
    | thrown what => cases hp
    | listing nodes keyspace => exact h
    | copying keys => exact h
    | fetching key replicas keys => exact h
    | pushing key value keys => exact h
  cases next with
  | starting => trivial
  | finished => exact ⟨[], trace, rfl, nofun, hstarted⟩
  | thrown what => trivial
  | listing nodes keyspace => exact hstarted
  | copying keys => exact hstarted
  | fetching key replicas keys => exact hstarted
  | pushing key value keys => exact hstarted

/-- A mark operation keeps the trace as it should be, if it does not mark UP. -/
lemma PromotedAfterRecovery.mark {trace : List Event} (h : PromotedAfterRecovery trace)
    (r : Router) (m : Mark) (hm : m ≠ .up) (port : ℤ) :
    PromotedAfterRecovery (markEvents r m port ++ trace) := by
  rcases markEvents_cases r m port with he | ⟨before, -, -, he⟩
  · rw [he]
    exact h
  · rw [he]
    refine h.cons fun p b heq => ?_
    cases m with
    | up => exact absurd rfl hm
    | down => cases heq
    | recovering => cases heq

/-- The health checker goes on outside of a recovery. -/
lemma CheckerState.Inv.visiting {s : CheckerState} (hinv : s.Inv) {rest : List Backend} :
    CheckerState.Inv { s with checker := .visiting rest } :=
  ⟨hinv.promoted, nofun⟩

section
variable [StdHash] {s s' : CheckerState}

/-- The backend that has been recovered is marked UP. -/
lemma CheckerState.Inv.promote (hinv : s.Inv) {backend : Backend} {rest : List Backend}
    (hc : s.checker = .recovering backend .finished rest) :
    (s.mark .up backend.port (.visiting rest)).Inv := by
  obtain ⟨hstatus, hrecovered⟩ := hinv.recovering backend .finished rest hc
  refine ⟨?_, nofun⟩
  simp only [CheckerState.mark]
  rcases markEvents_cases s.router .up backend.port with he | ⟨before, hb, -, he⟩
  · rw [he]
    exact hinv.promoted
  · rw [he]
    refine hinv.promoted.cons fun p b heq => ?_
    cases heq
    refine ⟨?_, hrecovered⟩
    rintro rfl
    exact hstatus hb

/-- A session marks a backend DOWN that is not being recovered. -/
lemma CheckerState.Inv.sessionMarksDown (hinv : s.Inv) {port : ℤ}
    (hok : Uninterrupted s (.sessionMarksDown port)) : (s.mark .down port s.checker).Inv := by
  refine ⟨hinv.promoted.mark s.router .down nofun port, fun backend phase rest hc => ?_⟩
  obtain ⟨hstatus, htrace⟩ := hinv.recovering backend phase rest hc
  have hne : port ≠ backend.port := (hok backend phase rest hc).symm
  simp only [CheckerState.mark, statusOf_apply, if_neg hne]
  refine ⟨hstatus, ?_⟩
  rcases markEvents_cases s.router .down port with he | ⟨before, -, -, he⟩
  · rw [he]
    exact htrace
  · rw [he]
    refine htrace.cons fun b heq => ?_
    cases heq
    exact hne rfl

/-- Every step that does no harm keeps the invariant. -/
lemma CheckerState.Inv.step (hinv : s.Inv) {a : CheckerAction} (hok : Uninterrupted s a)
    (h : s.step a = some s') : s'.Inv := by
  cases a with
  | wake backends =>
    simp only [CheckerState.step] at h
    split at h
    · split_ifs at h
      obtain rfl := Option.some.inj h
      exact hinv.visiting
    · cases h
  | ping alive =>
    simp only [CheckerState.step] at h
    split at h
    · obtain rfl := Option.some.inj h
      exact ⟨hinv.promoted, by rintro _ _ _ ⟨⟩⟩
    · cases h
  | decide =>
    simp only [CheckerState.step] at h
    split at h
    · rename_i backend alive rest hc
      split_ifs at h
      · obtain rfl := Option.some.inj h
        refine ⟨hinv.promoted.mark s.router .recovering (by decide) backend.port, ?_⟩
        rintro backend' phase rest' ⟨⟩
        refine ⟨?_, trivial⟩
        simp [CheckerState.mark, statusOf_apply, Mark.status]
      · obtain rfl := Option.some.inj h
        exact hinv.visiting
      · obtain rfl := Option.some.inj h
        exact ⟨hinv.promoted.mark s.router .down (by decide) backend.port, by rintro _ _ _ ⟨⟩⟩
      · obtain rfl := Option.some.inj h
        exact hinv.visiting
    · cases h
  | begin activeBackends =>
    simp only [CheckerState.step] at h
    split at h
    · rename_i backend rest hc
      split_ifs at h
      obtain rfl := Option.some.inj h
      refine ⟨hinv.promoted.cons (by rintro _ _ ⟨⟩), ?_⟩
      rintro backend' phase rest' ⟨⟩
      exact ⟨(hinv.recovering _ _ _ hc).1, [], s.trace, rfl, fun _ => List.not_mem_nil⟩
    · cases h
  | recover res =>
    simp only [CheckerState.step] at h
    split at h
    · rename_i backend phase rest hc
      split_ifs at h with hp
      obtain rfl := Option.some.inj h
      obtain ⟨hstatus, htrace⟩ := hinv.recovering _ _ _ hc
      refine ⟨?_, ?_⟩
      · cases phase.next s.router backend res with
        | finished => exact hinv.promoted.cons (by rintro _ _ ⟨⟩)
        | _ => exact hinv.promoted
      · rintro backend' phase' rest' ⟨⟩
        exact ⟨hstatus, htrace.next hp _⟩
    · cases h
  | promote =>
    simp only [CheckerState.step] at h
    split at h
    · rename_i backend rest hc
      obtain rfl := Option.some.inj h
      exact hinv.promote hc
    · cases h
  | sleep =>
    simp only [CheckerState.step] at h
    split at h
    · obtain rfl := Option.some.inj h
      exact ⟨hinv.promoted, by rintro _ _ _ ⟨⟩⟩
    · cases h
  | sessionMarksDown port =>
    obtain rfl := Option.some.inj h
    exact hinv.sessionMarksDown hok

/-- In every run of the health checker and the sessions in which no session marks the backend DOWN
    that is being recovered, a backend becomes UP only after a recovery that has started and
    finished since the last time it became DOWN, and never straight from DOWN. -/
theorem promoted_after_recovery {r : Router} {ls : List CheckerAction}
    (hrun : Run CheckerState.step Uninterrupted (.start r) ls s) : PromotedAfterRecovery s.trace := by
  have hstart : (CheckerState.start r).Inv := by
    refine ⟨?_, nofun⟩
    intro later earlier port before heq
    cases later with
    | nil => cases heq
    | cons e later => cases heq
  exact (hrun.invariant (fun hinv hok h => hinv.step hok h) hstart).promoted

end

section
attribute [local instance] djb2

/-- A session has noticed that 9001 is down; it is back and is being recovered. -/
def untilRecovery : List CheckerAction :=
  [.sessionMarksDown 9001,
    .wake ((initialRouter 1).markBackendDown 9001).getAllBackends, .ping true, .decide,
    .begin [⟨"127.0.0.1".toList, 9002, .up⟩, ⟨"127.0.0.1".toList, 9003, .up⟩]]

/-- The other backends have no keys, so the recovery ends, and 9001 is marked UP. -/
def untilPromotion : List CheckerAction :=
  [.recover none, .recover none, .recover none, .recover none, .promote]

/-- The state after an undisturbed recovery. -/
def promotedState : CheckerState :=
  (exec CheckerState.step (.start (initialRouter 1)) (untilRecovery ++ untilPromotion)).getD
    (.start (initialRouter 1))

/-- A recovery that no session disturbs. -/
theorem promoted_after_recovery_undisturbed :
    Event.changed 9001 .recovering .up ∈ promotedState.trace
      ∧ PromotedAfterRecovery promotedState.trace := by
  have hrun : Run CheckerState.step Uninterrupted (.start (initialRouter 1))
      (untilRecovery ++ untilPromotion) promotedState := by
    refine .cons nofun rfl (.cons trivial rfl (.cons trivial rfl (.cons trivial rfl
      (.cons trivial rfl (.cons trivial rfl (.cons trivial rfl (.cons trivial rfl
        (.cons trivial rfl (.cons trivial rfl .nil)))))))))
  exact ⟨by decide +kernel, promoted_after_recovery hrun⟩

/-- A backend can become UP straight from DOWN: a session loses its connection to the backend that is
    being recovered. -/
theorem promoted_from_down :
    ∃ s, Run CheckerState.step anyStep (.start (initialRouter 1))
        (untilRecovery ++ .sessionMarksDown 9001 :: untilPromotion) s
      ∧ Event.changed 9001 .down .up ∈ s.trace ∧ ¬ PromotedAfterRecovery s.trace := by
  refine ⟨_, .of_exec rfl, by decide +kernel, ?_⟩
  intro h
  exact (h [] _ 9001 .down rfl).1 rfl

end

end KvStore.Health
