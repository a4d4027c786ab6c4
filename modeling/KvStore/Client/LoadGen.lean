import KvStore.Lib.Run
import KvStore.Server.Operations
import Mathlib.Algebra.BigOperators.Fin
import Mathlib.Data.Int.Interval

/-!
# The load generator

`load_gen.cpp`: workers that send one request after the other until their time is over. They share
`global_key_counter`, which gives every number to one of them, and nothing else. A step is one access
to the counter, one reading of the clock or one answer, in any order of the workers. `numbers` and
`done` are kept beside the code's own variables, the latest first: what a worker has drawn, and what
it has asked and been answered. Counters and sums have no bound, where the code has `long long`: the
results are about runs with less than `2 ^ 63` requests and nanoseconds.

* `Worker.Step`: what a worker can do.
* `LoadState.Inv.step`: what every step keeps.
* `load_keys`: in every order of the steps each number is drawn once, and each worker sends the
  requests that its workload says.
* `load_reports`: what the sums at the end count.
-/

namespace KvStore.Client
open KvStore.Lib KvStore.Server

/-- `Workload`. -/
inductive Workload where
  | putAll
  | getAll
  | getPopular
  | getPut
deriving DecidableEq, Repr

/-- `Stats`. -/
structure Stats where
  totalRequests : ℕ := 0
  totalSuccess : ℕ := 0
  totalFail : ℕ := 0
  totalLatencyNs : ℕ := 0
deriving DecidableEq, Repr

/-- What `main` adds up: `total_req`, `total_ok` and their difference. -/
structure Report where
  totalReq : ℕ
  totalOk : ℕ
  totalFail : ℕ
deriving DecidableEq, Repr

/-- The sums at the end of `main`. -/
def report (stats : List Stats) : Report :=
  let totalReq := (stats.map Stats.totalRequests).sum
  let totalOk := (stats.map Stats.totalSuccess).sum
  ⟨totalReq, totalOk, totalReq - totalOk⟩

/-- The key with a number. -/
def numberedKey (keyNum : ℤ) : Str := "k_".toList ++ decimalInt keyNum

/-- The value that goes with it. -/
def numberedValue (keyNum : ℤ) : Str := "v_".toList ++ decimalInt keyNum

/-- The request that creates it. -/
def createOp (keyNum : ℤ) : KeyOp := .create (numberedKey keyNum) (numberedValue keyNum)

/-- `popular_keys`. -/
def popularKeys : List Str := (List.range 15).map fun i => "popular_".toList ++ decimal i

/-- `ok`: a refused create and a missing key count as successes. -/
def succeeded : KeyOp → Option ℤ → Bool
  | .create _ _, some status => status = 201 ∨ status = 409
  | .get _, some status => status = 200 ∨ status = 404
  | _, _ => false

/-- Where a worker is in its loop. -/
inductive WorkerPhase where
  | checking
  | choosing
  | loaded (positive : Bool)
  | requesting (op : KeyOp)
  | stopped
deriving DecidableEq, Repr

/-- The request that is on its way. -/
def WorkerPhase.op : WorkerPhase → Option KeyOp
  | .requesting op => some op
  | _ => none

/-- The requests that have been counted and not been answered. -/
def WorkerPhase.pending : WorkerPhase → ℕ
  | .checking => 0
  | .stopped => 0
  | _ => 1

/-- A worker. -/
structure Worker where
  counter : ℕ := 0
  stats : Stats := {}
  phase : WorkerPhase := .checking
  numbers : List ℤ := []
  done : List (KeyOp × Option ℤ) := []
deriving DecidableEq, Repr

/-- What a worker waits for: the clock, the shared counter, or the answer to its request. -/
inductive WorkerInput where
  | clock (inTime : Bool)
  | access
  | reply (status : Option ℤ) (latencyNs : ℕ)
deriving DecidableEq, Repr

/-- The requests of a worker. -/
def Worker.asked (w : Worker) : List KeyOp := w.phase.op.toList ++ w.done.map Prod.fst

/-- `global_key_counter++`, and the request for the number. -/
def Worker.draw (w : Worker) (keyNum : ℤ) (op : KeyOp) : Worker :=
  { w with phase := .requesting op, numbers := keyNum :: w.numbers }

/-- The branches of the loop, up to the next access to the counter. -/
def Worker.choose (type : Workload) (w : Worker) (globalKeyCounter : ℤ) : Worker × ℤ :=
  match type with
  | .putAll => (w.draw globalKeyCounter (createOp globalKeyCounter), globalKeyCounter + 1)
  | .getAll =>
    (w.draw globalKeyCounter (.get (numberedKey globalKeyCounter)), globalKeyCounter + 1)
  | .getPopular =>
    let idx := w.counter % popularKeys.length
    ({ w with phase := .requesting (.get (popularKeys.getD idx [])) }, globalKeyCounter)
  | .getPut =>
    if w.counter % 2 = 0 then
      (w.draw globalKeyCounter (createOp globalKeyCounter), globalKeyCounter + 1)
    else ({ w with phase := .loaded (0 < globalKeyCounter) }, globalKeyCounter)

/-- The end of the loop. -/
def Worker.finish (w : Worker) (op : KeyOp) (status : Option ℤ) (latencyNs : ℕ) : Worker :=
  let ok := succeeded op status
  { w with
    counter := w.counter + 1
    stats := { w.stats with
      totalSuccess := w.stats.totalSuccess + if ok then 1 else 0
      totalFail := w.stats.totalFail + if ok then 0 else 1
      totalLatencyNs := w.stats.totalLatencyNs + latencyNs }
    phase := .checking
    done := (op, status) :: w.done }

/-- One step of a worker. -/
def Worker.step (type : Workload) (w : Worker) (globalKeyCounter : ℤ) :
    WorkerInput → Option (Worker × ℤ)
  | .clock inTime =>
    match w.phase with
    | .checking =>
      let counted := { w.stats with totalRequests := w.stats.totalRequests + 1 }
      if inTime then some ({ w with stats := counted, phase := .choosing }, globalKeyCounter)
      else some ({ w with phase := .stopped }, globalKeyCounter)
    | _ => none
  | .access =>
    match w.phase with
    | .choosing => some (w.choose type globalKeyCounter)
    | .loaded positive =>
      -- the counter is read a second time
      let keyNum := if positive then globalKeyCounter - 1 else 0
      some ({ w with phase := .requesting (.get (numberedKey keyNum)) }, globalKeyCounter)
    | _ => none
  | .reply status latencyNs =>
    match w.phase with
    | .requesting op => some (w.finish op status latencyNs, globalKeyCounter)
    | _ => none

/-- The counter and the workers. -/
structure LoadState (ι : Type*) where
  globalKeyCounter : ℤ
  workers : ι → Worker

/-- A step of one of them. -/
structure LoadAction (ι : Type*) where
  worker : ι
  input : WorkerInput

variable {ι : Type*}

/-- The workers have been started. -/
def LoadState.start : LoadState ι := ⟨0, fun _ => {}⟩

/-- One step of a worker among the others. -/
def LoadState.step [DecidableEq ι] (type : Workload) (s : LoadState ι) (a : LoadAction ι) :
    Option (LoadState ι) :=
  ((s.workers a.worker).step type s.globalKeyCounter a.input).map fun e =>
    ⟨e.2, Function.update s.workers a.worker e.1⟩

/-- What a worker can do. -/
inductive Worker.Step (type : Workload) (w : Worker) (globalKeyCounter : ℤ) :
    WorkerInput → Worker × ℤ → Prop where
  | began :
    w.phase = .checking →
    Step type w globalKeyCounter (.clock true)
      ({ w with
          stats := { w.stats with totalRequests := w.stats.totalRequests + 1 }
          phase := .choosing }, globalKeyCounter)
  | stopped :
    w.phase = .checking →
    Step type w globalKeyCounter (.clock false) ({ w with phase := .stopped }, globalKeyCounter)
  | creates :
    w.phase = .choosing →
    type = .putAll ∨ type = .getPut ∧ w.counter % 2 = 0 →
    Step type w globalKeyCounter .access
      (w.draw globalKeyCounter (createOp globalKeyCounter), globalKeyCounter + 1)
  | gets :
    w.phase = .choosing →
    type = .getAll →
    Step type w globalKeyCounter .access
      (w.draw globalKeyCounter (.get (numberedKey globalKeyCounter)), globalKeyCounter + 1)
  | getsPopular :
    w.phase = .choosing →
    type = .getPopular →
    Step type w globalKeyCounter .access
      ({ w with
          phase := .requesting (.get (popularKeys.getD (w.counter % popularKeys.length) [])) },
        globalKeyCounter)
  | loads :
    w.phase = .choosing →
    type = .getPut →
    w.counter % 2 ≠ 0 →
    Step type w globalKeyCounter .access
      ({ w with phase := .loaded (0 < globalKeyCounter) }, globalKeyCounter)
  | getsLatest {positive} :
    w.phase = .loaded positive →
    Step type w globalKeyCounter .access
      ({ w with
          phase := .requesting
            (.get (numberedKey (if positive then globalKeyCounter - 1 else 0))) },
        globalKeyCounter)
  | finished {op status latencyNs} :
    w.phase = .requesting op →
    Step type w globalKeyCounter (.reply status latencyNs)
      (w.finish op status latencyNs, globalKeyCounter)

/-- Every step of a worker is one of these. -/
lemma Worker.step_cases {type : Workload} {w : Worker} {globalKeyCounter : ℤ} {input : WorkerInput}
    {e : Worker × ℤ} (h : w.step type globalKeyCounter input = some e) :
    Worker.Step type w globalKeyCounter input e := by
  cases input with
  | clock inTime =>
    simp only [Worker.step] at h
    split at h
    · rename_i hphase
      split_ifs at h with ht
      · obtain rfl := Option.some.inj h
        rw [ht]
        exact .began hphase
      · obtain rfl := Option.some.inj h
        rw [(Bool.not_eq_true _).mp ht]
        exact .stopped hphase
    · cases h
  | access =>
    simp only [Worker.step] at h
    split at h
    · rename_i hphase
      obtain rfl := Option.some.inj h
      unfold Worker.choose
      cases type with
      | putAll => exact .creates hphase (.inl rfl)
      | getAll => exact .gets hphase rfl
      | getPopular => exact .getsPopular hphase rfl
      | getPut =>
        dsimp only
        split_ifs with hc
        · exact .creates hphase (.inr ⟨rfl, hc⟩)
        · exact .loads hphase rfl hc
    · rename_i positive hphase
      obtain rfl := Option.some.inj h
      exact .getsLatest hphase
    · cases h
  | reply status latencyNs =>
    simp only [Worker.step] at h
    split at h
    · rename_i op hphase
      obtain rfl := Option.some.inj h
      exact .finished hphase
    · cases h

/-- The request that a workload makes of a number. -/
def numberedOp (type : Workload) (keyNum : ℤ) : KeyOp :=
  if type = .getAll then .get (numberedKey keyNum) else createOp keyNum

/-- The requests for which a number is drawn. -/
def takesNumber (type : Workload) (op : KeyOp) : Bool := type = .getAll || op.isWrite

/-- The numbers that are drawn for the first requests of a worker. -/
def numbersOf (type : Workload) (requests : ℕ) : ℕ :=
  match type with
  | .getPopular => 0
  | .getPut => (requests + 1) / 2
  | _ => requests

/-- The request that comes at a position. -/
def Scheduled (type : Workload) (globalKeyCounter : ℤ) (position : ℕ) (op : KeyOp) : Prop :=
  match type with
  | .getPopular => ∃ key, popularKeys[position % popularKeys.length]? = some key ∧ op = .get key
  | .getPut =>
    ∃ keyNum, 0 ≤ keyNum ∧ keyNum < globalKeyCounter
      ∧ op = if position % 2 = 0 then createOp keyNum else .get (numberedKey keyNum)
  | _ => ∃ keyNum, 0 ≤ keyNum ∧ keyNum < globalKeyCounter ∧ op = numberedOp type keyNum

/-- Every request is the one that comes at its position. -/
def Schedule (type : Workload) (globalKeyCounter : ℤ) : List KeyOp → Prop
  | [] => True
  | op :: earlier => Scheduled type globalKeyCounter earlier.length op
    ∧ Schedule type globalKeyCounter earlier

/-- What holds of a worker between two steps. -/
structure Worker.Inv (type : Workload) (globalKeyCounter : ℤ) (w : Worker) : Prop where
  counter : w.counter = w.done.length
  requests : w.stats.totalRequests = w.done.length + w.phase.pending
  success : w.stats.totalSuccess = w.done.countP fun e => succeeded e.1 e.2
  fail : w.stats.totalFail = w.done.countP fun e => !succeeded e.1 e.2
  numbers : ∀ n ∈ w.numbers, 0 ≤ n ∧ n < globalKeyCounter
  nodup : w.numbers.Nodup
  drawn : w.asked.filter (takesNumber type) = w.numbers.map (numberedOp type)
  schedule : Schedule type globalKeyCounter w.asked
  loaded : ∀ positive, w.phase = .loaded positive →
    type = .getPut ∧ w.counter % 2 ≠ 0 ∧ positive = true ∧ 0 < globalKeyCounter

/-- What holds of all of them. -/
structure LoadState.Inv (type : Workload) (s : LoadState ι) : Prop where
  nonneg : 0 ≤ s.globalKeyCounter
  workers : ∀ i, (s.workers i).Inv type s.globalKeyCounter
  drawn : ∀ n, 0 ≤ n → n < s.globalKeyCounter → ∃ i, n ∈ (s.workers i).numbers
  once : ∀ i j n, n ∈ (s.workers i).numbers → n ∈ (s.workers j).numbers → i = j

section
variable {type : Workload} {globalKeyCounter globalKeyCounter' : ℤ} {w w' : Worker}
  {input : WorkerInput} {op : KeyOp} {ops : List KeyOp}

/-- A request that is scheduled stays so while the counter goes up. -/
lemma Scheduled.mono {position : ℕ} (h : Scheduled type globalKeyCounter position op)
    (hle : globalKeyCounter ≤ globalKeyCounter') : Scheduled type globalKeyCounter' position op := by
  cases type with
  | getPopular => exact h
  | putAll | getAll | getPut =>
    obtain ⟨n, hn, hlt, he⟩ := h
    exact ⟨n, hn, lt_of_lt_of_le hlt hle, he⟩

/-- And so do all requests of a worker. -/
lemma Schedule.mono (h : Schedule type globalKeyCounter ops)
    (hle : globalKeyCounter ≤ globalKeyCounter') : Schedule type globalKeyCounter' ops := by
  induction ops with
  | nil => trivial
  | cons op ops ih => exact ⟨h.1.mono hle, ih h.2⟩

/-- The counter may go on. -/
lemma Worker.Inv.mono (h : w.Inv type globalKeyCounter) (hle : globalKeyCounter ≤ globalKeyCounter') :
    w.Inv type globalKeyCounter' where
  counter := h.counter
  requests := h.requests
  success := h.success
  fail := h.fail
  numbers n hn := ⟨(h.numbers n hn).1, lt_of_lt_of_le (h.numbers n hn).2 hle⟩
  nodup := h.nodup
  drawn := h.drawn
  schedule := h.schedule.mono hle
  loaded positive hp := by
    obtain ⟨htype, hodd, hpos, hlt⟩ := h.loaded positive hp
    exact ⟨htype, hodd, hpos, lt_of_lt_of_le hlt hle⟩

/-- Between two requests all requests of a worker have been answered or lost. -/
lemma asked_of_none (h : w.phase.op = none) : w.asked = w.done.map Prod.fst := by
  rw [Worker.asked, h]
  rfl

/-- A request for which no number is drawn. -/
lemma Worker.Inv.request (h : w.Inv type globalKeyCounter) (hop : w.phase.op = none)
    (hpending : w.phase.pending = 1) (hnone : takesNumber type op = false)
    (hs : Scheduled type globalKeyCounter w.counter op) :
    Worker.Inv type globalKeyCounter { w with phase := .requesting op } := by
  have hdrawn := h.drawn
  have hschedule := h.schedule
  rw [asked_of_none hop] at hdrawn hschedule
  refine { h with
    requests := h.requests.trans (by rw [hpending]; rfl)
    drawn := ?_
    schedule := ⟨?_, hschedule⟩
    loaded := nofun }
  · rw [← hdrawn]
    exact List.filter_cons_of_neg (by rw [hnone]; exact Bool.false_ne_true)
  · show Scheduled type globalKeyCounter (w.done.map Prod.fst).length op
    rwa [List.length_map, ← h.counter]

/-- A request for which a number is drawn. -/
lemma Worker.Inv.draw (h : w.Inv type globalKeyCounter) (hg : 0 ≤ globalKeyCounter)
    (hphase : w.phase = .choosing) (htakes : takesNumber type op = true)
    (hop : op = numberedOp type globalKeyCounter)
    (hs : Scheduled type (globalKeyCounter + 1) w.counter op) :
    Worker.Inv type (globalKeyCounter + 1) (w.draw globalKeyCounter op) := by
  have hdrawn := h.drawn
  have hmono : w.Inv type (globalKeyCounter + 1) := h.mono (by omega)
  have hschedule := hmono.schedule
  rw [asked_of_none (by rw [hphase]; rfl)] at hdrawn hschedule
  refine { hmono with
    requests := h.requests.trans (by rw [hphase]; rfl)
    numbers := List.forall_mem_cons.2 ⟨⟨hg, by omega⟩, hmono.numbers⟩
    nodup := List.nodup_cons.2 ⟨fun hn => (h.numbers _ hn).2.ne rfl, h.nodup⟩
    drawn := ?_
    schedule := ⟨?_, hschedule⟩
    loaded := nofun }
  · subst hop
    exact (List.filter_cons_of_pos htakes).trans (congrArg (numberedOp type globalKeyCounter :: ·)
      hdrawn)
  · show Scheduled type (globalKeyCounter + 1) (w.done.map Prod.fst).length op
    rwa [List.length_map, ← h.counter]

/-- An answer ends the round. -/
lemma Worker.Inv.finish (h : w.Inv type globalKeyCounter) (hphase : w.phase = .requesting op)
    (status : Option ℤ) (latencyNs : ℕ) :
    Worker.Inv type globalKeyCounter (w.finish op status latencyNs) := by
  have hasked : (w.finish op status latencyNs).asked = w.asked := by
    rw [Worker.asked, Worker.asked, hphase]
    rfl
  refine { h with
    counter := congrArg (· + 1) h.counter
    requests := h.requests.trans (by rw [hphase]; rfl)
    success := ?_
    fail := ?_
    drawn := hasked ▸ h.drawn
    schedule := hasked ▸ h.schedule
    loaded := nofun }
  · simp [Worker.finish, h.success, List.countP_cons]
  · cases hok : succeeded op status <;> simp [Worker.finish, h.fail, hok]

/-- A worker in an odd round has drawn a number before. -/
lemma Worker.Inv.pos (h : w.Inv .getPut globalKeyCounter) (hop : w.phase.op = none)
    (hodd : w.counter % 2 ≠ 0) : 0 < globalKeyCounter := by
  have hschedule := h.schedule
  rw [asked_of_none hop] at hschedule
  cases hdone : w.done with
  | nil =>
    rw [h.counter, hdone] at hodd
    exact absurd rfl hodd
  | cons e done =>
    rw [hdone] at hschedule
    obtain ⟨⟨n, hn, hlt, -⟩, -⟩ := hschedule
    omega

/-- What a step does to the counter and the numbers of the worker. -/
def Draws (globalKeyCounter : ℤ) (w : Worker) (e : Worker × ℤ) : Prop :=
  e.2 = globalKeyCounter ∧ e.1.numbers = w.numbers
    ∨ e.2 = globalKeyCounter + 1 ∧ e.1.numbers = globalKeyCounter :: w.numbers

/-- A step without a request. -/
lemma Worker.Inv.move (h : w.Inv type globalKeyCounter) {requests : ℕ} {phase : WorkerPhase}
    (hop : w.phase.op = none) (hop' : phase.op = none)
    (hrequests : requests = w.done.length + phase.pending)
    (hloaded : ∀ positive, phase = .loaded positive →
      type = .getPut ∧ w.counter % 2 ≠ 0 ∧ positive = true ∧ 0 < globalKeyCounter) :
    Worker.Inv type globalKeyCounter
      { w with stats := { w.stats with totalRequests := requests }, phase := phase } := by
  have hdrawn := h.drawn
  have hschedule := h.schedule
  rw [asked_of_none hop] at hdrawn hschedule
  refine { h with requests := hrequests, drawn := ?_, schedule := ?_, loaded := hloaded }
  · rwa [asked_of_none hop']
  · rwa [asked_of_none hop']

/-- Every step of a worker keeps what holds of it. -/
lemma Worker.Inv.step {e : Worker × ℤ} (h : w.Inv type globalKeyCounter) (hg : 0 ≤ globalKeyCounter)
    (hs : Worker.Step type w globalKeyCounter input e) :
    e.1.Inv type e.2 ∧ Draws globalKeyCounter w e := by
  cases hs with
  | began hphase =>
    refine ⟨h.move (by rw [hphase]; rfl) rfl ?_ nofun, .inl ⟨rfl, rfl⟩⟩
    rw [h.requests, hphase]
    rfl
  | stopped hphase =>
    refine ⟨h.move (by rw [hphase]; rfl) rfl ?_ nofun, .inl ⟨rfl, rfl⟩⟩
    rw [h.requests, hphase]
    rfl
  | creates hphase htype =>
    have hop : createOp globalKeyCounter = numberedOp type globalKeyCounter := by
      rcases htype with rfl | ⟨rfl, -⟩ <;> rfl
    have htakes : takesNumber type (createOp globalKeyCounter) = true := Bool.or_true _
    refine ⟨h.draw hg hphase htakes hop ?_, .inr ⟨rfl, rfl⟩⟩
    rcases htype with rfl | ⟨rfl, heven⟩
    · exact ⟨_, hg, by omega, rfl⟩
    · exact ⟨_, hg, by omega, (if_pos heven).symm⟩
  | gets hphase htype =>
    subst htype
    exact ⟨h.draw hg hphase rfl rfl ⟨_, hg, by omega, rfl⟩, .inr ⟨rfl, rfl⟩⟩
  | getsPopular hphase htype =>
    subst htype
    have hlt : w.counter % popularKeys.length < popularKeys.length := Nat.mod_lt _ (by decide)
    refine ⟨h.request (by rw [hphase]; rfl) (by rw [hphase]; rfl) rfl ⟨_, ?_, rfl⟩,
      .inl ⟨rfl, rfl⟩⟩
    rw [List.getD_eq_getElem?_getD, List.getElem?_eq_getElem hlt]
    rfl
  | loads hphase htype hodd =>
    subst htype
    have hop : w.phase.op = none := by rw [hphase]; rfl
    have hpos := h.pos hop hodd
    refine ⟨h.move hop rfl ?_ ?_, .inl ⟨rfl, rfl⟩⟩
    · rw [h.requests, hphase]
      rfl
    · rintro positive ⟨⟩
      exact ⟨rfl, hodd, decide_eq_true hpos, hpos⟩
  | getsLatest hphase =>
    obtain ⟨rfl, hodd, rfl, hpos⟩ := h.loaded _ hphase
    refine ⟨h.request (by rw [hphase]; rfl) (by rw [hphase]; rfl) rfl ?_, .inl ⟨rfl, rfl⟩⟩
    exact ⟨globalKeyCounter - 1, by omega, by omega, (if_neg hodd).symm⟩
  | finished hphase => exact ⟨h.finish hphase _ _, .inl ⟨rfl, rfl⟩⟩

end

section
variable [DecidableEq ι] {type : Workload} {s s' : LoadState ι} {a : LoadAction ι}

/-- Every step of a worker among the others keeps what holds of all of them. -/
lemma LoadState.Inv.step (h : s.Inv type) (hs : s.step type a = some s') : s'.Inv type := by
  obtain ⟨e, he, rfl⟩ := Option.map_eq_some_iff.1 hs
  obtain ⟨hinv, hdraws⟩ := (h.workers a.worker).step h.nonneg (Worker.step_cases he)
  have hle : s.globalKeyCounter ≤ e.2 := by
    rcases hdraws with ⟨he, -⟩ | ⟨he, -⟩ <;> omega
  have hnumbers (i : ι) (n : ℤ) : n ∈ (Function.update s.workers a.worker e.1 i).numbers
      ↔ n ∈ (s.workers i).numbers
        ∨ i = a.worker ∧ n = s.globalKeyCounter ∧ e.2 = s.globalKeyCounter + 1 := by
    by_cases hi : i = a.worker
    · subst hi
      rw [Function.update_self]
      rcases hdraws with ⟨he, hn⟩ | ⟨he, hn⟩
      · rw [hn]
        exact ⟨.inl, fun hm => hm.resolve_right fun hnew => by omega⟩
      · rw [hn, he, List.mem_cons]
        simp [or_comm]
    · simp [hi]
  refine ⟨le_trans h.nonneg hle, fun i => ?_, fun n hn hlt => ?_, fun i j n hi hj => ?_⟩
  · by_cases hi : i = a.worker
    · subst hi
      simp only [Function.update_self]
      exact hinv
    · simp only [Function.update_of_ne hi]
      exact (h.workers i).mono hle
  · by_cases hold : n < s.globalKeyCounter
    · obtain ⟨i, hi⟩ := h.drawn n hn hold
      exact ⟨i, (hnumbers i n).2 (.inl hi)⟩
    · -- only the worker whose step it was can have drawn a new number
      have hnew : e.2 = s.globalKeyCounter + 1 := by
        dsimp only at hlt
        rcases hdraws with ⟨he, -⟩ | ⟨he, -⟩ <;> omega
      dsimp only at hlt
      exact ⟨a.worker, (hnumbers a.worker n).2 (.inr ⟨rfl, by omega, hnew⟩)⟩
  · have hfresh (i : ι) : s.globalKeyCounter ∉ (s.workers i).numbers := fun hn =>
      ((h.workers i).numbers _ hn).2.ne rfl
    rcases (hnumbers i n).1 hi with hi | ⟨hi, hn, -⟩
    · rcases (hnumbers j n).1 hj with hj | ⟨-, hn, -⟩
      · exact h.once i j n hi hj
      · exact absurd (hn ▸ hi) (hfresh i)
    · rcases (hnumbers j n).1 hj with hj | ⟨hj, -, -⟩
      · exact absurd (hn ▸ hj) (hfresh j)
      · exact hi.trans hj.symm

/-- So it holds in every state of a run. -/
lemma inv_of_run {ls : List (LoadAction ι)}
    (hrun : Run (LoadState.step type) anyStep .start ls s) : s.Inv type := by
  have hstart : LoadState.Inv type (.start : LoadState ι) := by
    refine ⟨le_rfl, fun i => ⟨rfl, rfl, rfl, rfl, List.forall_mem_nil _, List.nodup_nil, rfl,
      trivial, nofun⟩, fun n hn hlt => absurd hlt (not_lt.2 hn), fun i j n hi => ?_⟩
    cases hi
  exact hrun.invariant (fun h _ hs => h.step hs) hstart

end

/-- A word and a number are a word. -/
lemma isWord_append_decimal {start : Str} (hstart : isWord start = true) (n : ℕ) :
    isWord (start ++ decimal n) = true := by
  obtain ⟨hne, hall⟩ := Bool.and_eq_true_iff.1 hstart
  refine Bool.and_eq_true_iff.2 ⟨?_, ?_⟩
  · cases start with
    | nil => cases hne
    | cons c start => rfl
  · rw [List.all_append, hall, Bool.true_and]
    refine List.all_eq_true.2 fun c hc => ?_
    have hdigit := isDigit_of_mem_decimal hc
    simp [isWordChar, Char.isAlphanum, hdigit]

/-- So the requests for numbers are well formed. -/
lemma wellFormed_numbered {n : ℤ} (hn : 0 ≤ n) :
    (createOp n).WellFormed ∧ (KeyOp.get (numberedKey n)).WellFormed := by
  obtain ⟨m, rfl⟩ := Int.eq_ofNat_of_zero_le hn
  have hkey : isWord (numberedKey m) = true := isWord_append_decimal rfl m
  have hvalue : isWord (numberedValue m) = true := isWord_append_decimal rfl m
  have hcreate : numberedKey m ≠ "create".toList := fun h => absurd (List.cons.inj h).1 (by decide)
  have hallkeys : numberedKey m ≠ "allkeys".toList := fun h => absurd (List.cons.inj h).1 (by decide)
  refine ⟨⟨hkey, hcreate, hallkeys, ?_, ?_⟩, ⟨hkey, hcreate, hallkeys, nofun, nofun⟩⟩
  · rintro value ⟨⟩
    exact not_mem_of_isWord hvalue rfl
  · rintro key value ⟨⟩
    exact not_mem_of_isWord hvalue rfl

/-- Every request of a workload is well formed: the balancer and the servers find its key. -/
lemma Scheduled.wellFormed {type : Workload} {globalKeyCounter : ℤ} {position : ℕ} {op : KeyOp}
    (h : Scheduled type globalKeyCounter position op) : op.WellFormed := by
  cases type with
  | putAll =>
    obtain ⟨n, hn, -, rfl⟩ := h
    exact (wellFormed_numbered hn).1
  | getAll =>
    obtain ⟨n, hn, -, rfl⟩ := h
    exact (wellFormed_numbered hn).2
  | getPopular =>
    obtain ⟨key, hkey, rfl⟩ := h
    obtain ⟨m, -, rfl⟩ := List.mem_map.1 (List.mem_of_getElem? hkey)
    refine ⟨isWord_append_decimal rfl m, ?_, ?_, nofun, nofun⟩
    · exact fun h => absurd (List.cons.inj h).1 (by decide)
    · exact fun h => absurd (List.cons.inj h).1 (by decide)
  | getPut =>
    obtain ⟨n, hn, -, rfl⟩ := h
    split_ifs
    · exact (wellFormed_numbered hn).1
    · exact (wellFormed_numbered hn).2

/-- Every request of a worker has its place in the schedule. -/
lemma Schedule.of_mem {type : Workload} {globalKeyCounter : ℤ} {ops : List KeyOp}
    (h : Schedule type globalKeyCounter ops) :
    ∀ op ∈ ops, ∃ position, Scheduled type globalKeyCounter position op := by
  induction ops with
  | nil => exact List.forall_mem_nil _
  | cons op ops ih => exact List.forall_mem_cons.2 ⟨⟨_, h.1⟩, ih h.2⟩

/-- Every answer is a success or a failure. -/
lemma length_done (done : List (KeyOp × Option ℤ)) : done.length
    = (done.countP fun e => succeeded e.1 e.2) + done.countP fun e => !succeeded e.1 e.2 := by
  simpa using List.length_eq_countP_add_countP fun e : KeyOp × Option ℤ => succeeded e.1 e.2

section
variable [DecidableEq ι] {type : Workload} {s : LoadState ι}

/-- In every order of the steps of any number of workers: the numbers that were drawn are those below
    the counter, each drawn once; every worker has sent the requests that its workload says, in that
    order, and one for each of its numbers; and its statistics count them. -/
theorem load_keys {ls : List (LoadAction ι)}
    (hrun : Run (LoadState.step type) anyStep .start ls s) :
    (∀ n, (∃ i, n ∈ (s.workers i).numbers) ↔ 0 ≤ n ∧ n < s.globalKeyCounter)
      ∧ (∀ i j n, n ∈ (s.workers i).numbers → n ∈ (s.workers j).numbers → i = j)
      ∧ ∀ i, (s.workers i).numbers.Nodup
        ∧ (s.workers i).asked.filter (takesNumber type)
          = (s.workers i).numbers.map (numberedOp type)
        ∧ Schedule type s.globalKeyCounter (s.workers i).asked
        ∧ (∀ op ∈ (s.workers i).asked, op.WellFormed)
        ∧ (s.workers i).stats.totalRequests = (s.workers i).stats.totalSuccess
          + (s.workers i).stats.totalFail + (s.workers i).phase.pending := by
  have h := inv_of_run hrun
  refine ⟨fun n => ⟨?_, fun hn => h.drawn n hn.1 hn.2⟩, h.once, fun i => ?_⟩
  · rintro ⟨i, hi⟩
    exact (h.workers i).numbers n hi
  · obtain ⟨-, hrequests, hsuccess, hfail, -, hnodup, hdrawn, hschedule, -⟩ := h.workers i
    refine ⟨hnodup, hdrawn, hschedule, fun op hop => ?_, ?_⟩
    · obtain ⟨position, hop⟩ := hschedule.of_mem op hop
      exact hop.wellFormed
    · rw [hrequests, hsuccess, hfail]
      congr 1
      exact length_done _

/-- Two threads that create a key each. The first one then reads the key of the other, which is not
    there: the request of the second one was lost. -/
def getPutSteps : List (LoadAction (Fin 2)) :=
  [⟨0, .clock true⟩, ⟨1, .clock true⟩, ⟨0, .access⟩, ⟨1, .access⟩, ⟨0, .reply (some 201) 5⟩,
    ⟨1, .reply none 9⟩, ⟨0, .clock true⟩, ⟨0, .access⟩, ⟨0, .access⟩, ⟨0, .reply (some 404) 7⟩,
    ⟨0, .clock false⟩, ⟨1, .clock false⟩]

/-- What two workers have asked and counted after these steps. -/
lemma run_getPutSteps : ∃ s, Run (LoadState.step .getPut) anyStep .start getPutSteps s
    ∧ (s.workers 0).asked = [.get (numberedKey 1), createOp 0]
    ∧ report (List.ofFn fun i => (s.workers i).stats) = ⟨3, 2, 1⟩
    ∧ ∀ i, (s.workers i).phase = .stopped := by
  have hisSome : ((exec (LoadState.step .getPut) .start getPutSteps).filter fun s =>
      (s.workers 0).asked = [.get (numberedKey 1), createOp 0]
        ∧ report (List.ofFn fun i => (s.workers i).stats) = ⟨3, 2, 1⟩
        ∧ ∀ i, (s.workers i).phase = .stopped).isSome = true := by
    decide +kernel
  obtain ⟨s, hs⟩ := Option.isSome_iff_exists.1 hisSome
  obtain ⟨hexec, hcond⟩ := Option.filter_eq_some_iff.1 hs
  exact ⟨s, Run.of_exec hexec, of_decide_eq_true hcond⟩

/-- The requests of a worker that has drawn one number and read one. -/
theorem load_keys_getPut : ∃ s, Run (LoadState.step .getPut) anyStep .start getPutSteps s
    ∧ (s.workers 0).asked = [.get (numberedKey 1), createOp 0]
    ∧ Schedule .getPut s.globalKeyCounter (s.workers 0).asked := by
  obtain ⟨s, hrun, hasked, -⟩ := run_getPutSteps
  obtain ⟨-, -, hworkers⟩ := load_keys hrun
  exact ⟨s, hrun, hasked, (hworkers 0).2.2.1⟩

end

/-- The schedule says how many numbers are drawn. -/
lemma Schedule.countP {type : Workload} {globalKeyCounter : ℤ} {ops : List KeyOp}
    (h : Schedule type globalKeyCounter ops) :
    ops.countP (takesNumber type) = numbersOf type ops.length := by
  induction ops with
  | nil => cases type <;> rfl
  | cons op ops ih =>
    obtain ⟨hop, hops⟩ := h
    rw [List.countP_cons, ih hops, List.length_cons]
    cases type with
    | getPopular =>
      obtain ⟨key, -, rfl⟩ := hop
      rfl
    | putAll | getAll =>
      obtain ⟨n, -, -, rfl⟩ := hop
      rfl
    | getPut =>
      obtain ⟨n, -, -, rfl⟩ := hop
      by_cases heven : ops.length % 2 = 0
      · rw [if_pos heven]
        show (ops.length + 1) / 2 + 1 = (ops.length + 1 + 1) / 2
        omega
      · rw [if_neg heven]
        show (ops.length + 1) / 2 + 0 = (ops.length + 1 + 1) / 2
        omega

/-- The workers have drawn as many numbers as the counter says. -/
lemma LoadState.Inv.sum_numbers [Fintype ι] {type : Workload} {s : LoadState ι} (h : s.Inv type) :
    (∑ i, (s.workers i).numbers.length : ℕ) = s.globalKeyCounter := by
  classical
  have hunion : Finset.univ.biUnion (fun i => (s.workers i).numbers.toFinset)
      = Finset.Ico 0 s.globalKeyCounter := by
    ext n
    simp only [Finset.mem_biUnion, Finset.mem_univ, true_and, List.mem_toFinset, Finset.mem_Ico]
    exact ⟨fun ⟨i, hi⟩ => (h.workers i).numbers n hi, fun hn => h.drawn n hn.1 hn.2⟩
  have hdisjoint : ((Finset.univ : Finset ι) : Set ι).PairwiseDisjoint
      fun i => (s.workers i).numbers.toFinset := by
    intro i _ j _ hij
    refine Finset.disjoint_left.2 fun n hi hj => hij ?_
    exact h.once i j n (List.mem_toFinset.1 hi) (List.mem_toFinset.1 hj)
  have hcard := Finset.card_biUnion hdisjoint
  rw [hunion, Int.card_Ico, sub_zero] at hcard
  simp only [List.toFinset_card_of_nodup (h.workers _).nodup] at hcard
  rw [← hcard]
  exact Int.toNat_of_nonneg h.nonneg

/-- When all threads have stopped, whatever they were answered: every request that is reported has
    been answered or has failed, and the failed ones are those that the threads counted; the counter
    is the number of requests of `put_all` and `get_all`, and that of the creates of `get_put`. -/
theorem load_reports {threads : ℕ} {type : Workload} {s : LoadState (Fin threads)}
    {ls : List (LoadAction (Fin threads))}
    (hrun : Run (LoadState.step type) anyStep .start ls s)
    (hstopped : ∀ i, (s.workers i).phase = .stopped) :
    report (List.ofFn fun i => (s.workers i).stats)
        = ⟨∑ i, (s.workers i).done.length,
          ∑ i, (s.workers i).done.countP fun e => succeeded e.1 e.2,
          ∑ i, (s.workers i).stats.totalFail⟩
      ∧ s.globalKeyCounter = (∑ i, numbersOf type (s.workers i).counter : ℕ) := by
  have h := inv_of_run hrun
  have hrequests (i : Fin threads) :
      (s.workers i).stats.totalRequests = (s.workers i).done.length := by
    rw [(h.workers i).requests, hstopped i]
    rfl
  have hnumbers (i : Fin threads) :
      numbersOf type (s.workers i).counter = (s.workers i).numbers.length := by
    have hdrawn := congrArg List.length (h.workers i).drawn
    have hschedule := (h.workers i).schedule
    rw [asked_of_none (by rw [hstopped i]; rfl)] at hdrawn hschedule
    rw [← List.countP_eq_length_filter, hschedule.countP, List.length_map, List.length_map] at hdrawn
    rw [(h.workers i).counter, hdrawn]
  refine ⟨?_, ?_⟩
  · have hfail : ∑ i, (s.workers i).done.length
        = (∑ i, (s.workers i).done.countP fun e => succeeded e.1 e.2)
          + ∑ i, (s.workers i).stats.totalFail := by
      rw [← Finset.sum_add_distrib]
      refine Finset.sum_congr rfl fun i _ => ?_
      rw [(h.workers i).fail]
      exact length_done _
    simp only [report, List.map_ofFn, List.sum_ofFn, Function.comp_def, hrequests,
      (h.workers _).success]
    rw [Report.mk.injEq]
    exact ⟨rfl, rfl, by omega⟩
  · rw [← h.sum_numbers]
    exact congrArg Nat.cast (Finset.sum_congr rfl fun i _ => (hnumbers i).symm)

/-- What these workers report. -/
theorem load_reports_getPut : ∃ s, Run (LoadState.step .getPut) anyStep .start getPutSteps s
    ∧ report (List.ofFn fun i => (s.workers i).stats) = ⟨3, 2, 1⟩
    ∧ s.globalKeyCounter = (∑ i, numbersOf .getPut (s.workers i).counter : ℕ) := by
  obtain ⟨s, hrun, -, hreport, hstopped⟩ := run_getPutSteps
  exact ⟨s, hrun, hreport, (load_reports hrun hstopped).2⟩

end KvStore.Client
