import KvStore.Client.LoadGen

/-!
# The load generator in front of one map

What `load_gen.cpp` measures when the store behaves like one map: every request takes effect at one
moment between its sending and its answer, whatever the other workers do meanwhile. `table` is what
the map has, `answers` the answer that a request has got and its worker has not.

* `MapState.Inv.step`: what every step keeps.
* `load_fills`: what the workers are answered, and what the map has in the end.
-/

namespace KvStore.Client
open KvStore.Lib KvStore.Server

/-- What `main` asks for before the workers start, if they read the popular keys. -/
def popularOps : List KeyOp :=
  popularKeys.flatMap fun key => [.create key ("v_".toList ++ key), .get key]

/-- One map, after some operations. -/
def applyOps (table : Str → Option Str) (ops : List KeyOp) : Str → Option Str :=
  ops.foldl (fun table op => Function.update table op.key (op.after (table op.key))) table

/-- The map when the workers start. -/
def startTable (type : Workload) (table : Str → Option Str) : Str → Option Str :=
  if type = .getPopular then applyOps table popularOps else table

/-- The workers, and the map that they ask. -/
structure MapState (ι : Type*) where
  load : LoadState ι
  table : Str → Option Str
  answers : ι → Option ℤ

/-- A request takes effect, or a worker goes on. -/
inductive MapAction (ι : Type*) where
  | serve (worker : ι)
  | work (a : LoadAction ι)

variable {ι : Type*}

/-- The workers start. -/
def MapState.start (type : Workload) (table : Str → Option Str) : MapState ι :=
  ⟨.start, startTable type table, fun _ => none⟩

/-- One step. A worker gets the answer that the map has given. -/
def MapState.step [DecidableEq ι] (type : Workload) (s : MapState ι) :
    MapAction ι → Option (MapState ι)
  | .serve i =>
    match (s.load.workers i).phase, s.answers i with
    | .requesting op, none =>
      some { s with
        table := Function.update s.table op.key (op.after (s.table op.key))
        answers := Function.update s.answers i (some (op.answer (s.table op.key)).1) }
    | _, _ => none
  | .work a =>
    match a.input with
    | .reply status _ =>
      if status.isSome ∧ status = s.answers a.worker then
        (s.load.step type a).map fun load =>
          { s with load := load, answers := Function.update s.answers a.worker none }
      else none
    | _ => (s.load.step type a).map fun load => { s with load := load }

/-- The answer to a request, if the map had this when the workers started. -/
def Right (table : Str → Option Str) : KeyOp → ℤ → Prop
  | .get key, status => (status = 200 ∨ status = 404) ∧ (table key ≠ none → status = 200)
  | op, status => status = if table op.key = none then 201 else 409

/-- The map has the key with this number from this worker. -/
def MapState.Served (s : MapState ι) (i : ι) (keyNum : ℤ) : Prop :=
  createOp keyNum ∈ (s.load.workers i).done.map Prod.fst
    ∨ (s.load.workers i).phase = .requesting (createOp keyNum) ∧ s.answers i ≠ none

/-- What holds between two steps. -/
structure MapState.Inv (type : Workload) (table : Str → Option Str) (s : MapState ι) : Prop where
  load : s.load.Inv type
  stored : ∀ key value, s.table key = some value ↔ table key = some value
    ∨ table key = none ∧ ∃ i n, s.Served i n ∧ key = numberedKey n ∧ value = numberedValue n
  answers : ∀ i status, s.answers i = some status →
    ∃ op, (s.load.workers i).phase = .requesting op ∧ Right table op status
  done : ∀ i, ∀ e ∈ (s.load.workers i).done, ∃ status, e.2 = some status ∧ Right table e.1 status

/-- Different numbers have different keys, -/
lemma numberedKey_inj {m n : ℤ} (h : numberedKey m = numberedKey n) : m = n :=
  decimalInt_inj (List.append_cancel_left h)

/-- and are created by different requests. -/
lemma createOp_inj {m n : ℤ} (h : createOp m = createOp n) : m = n :=
  numberedKey_inj (congrArg KeyOp.key h)

section
variable {type : Workload} {table : Str → Option Str} {globalKeyCounter : ℤ} {w : Worker} {n : ℤ}
  {op : KeyOp}

/-- A request is a create for a number or a GET. -/
lemma Scheduled.cases {position : ℕ} (h : Scheduled type globalKeyCounter position op) :
    (∃ n, op = createOp n) ∨ ∃ key, op = .get key := by
  cases type with
  | putAll =>
    obtain ⟨n, -, -, rfl⟩ := h
    exact .inl ⟨n, rfl⟩
  | getAll =>
    obtain ⟨n, -, -, rfl⟩ := h
    exact .inr ⟨_, rfl⟩
  | getPopular =>
    obtain ⟨key, -, rfl⟩ := h
    exact .inr ⟨key, rfl⟩
  | getPut =>
    obtain ⟨n, -, -, rfl⟩ := h
    split_ifs
    · exact .inl ⟨n, rfl⟩
    · exact .inr ⟨_, rfl⟩

/-- A create that was asked for is one of a number that the worker has drawn. -/
lemma Worker.Inv.mem_numbers (h : w.Inv type globalKeyCounter) (hn : createOp n ∈ w.asked) :
    n ∈ w.numbers := by
  have hmem : createOp n ∈ w.asked.filter (takesNumber type) :=
    List.mem_filter.2 ⟨hn, Bool.or_true _⟩
  rw [h.drawn] at hmem
  obtain ⟨m, hm, he⟩ := List.mem_map.1 hmem
  unfold numberedOp at he
  split_ifs at he
  · cases he
  · exact createOp_inj he ▸ hm

/-- The workloads that write ask for a create for each of their numbers, the others for none. -/
lemma Worker.Inv.createOp_mem (h : w.Inv type globalKeyCounter) :
    createOp n ∈ w.asked ↔ (type = .putAll ∨ type = .getPut) ∧ n ∈ w.numbers := by
  refine ⟨fun hn => ⟨?_, h.mem_numbers hn⟩, ?_⟩
  · obtain ⟨position, hscheduled⟩ := h.schedule.of_mem _ hn
    cases type with
    | putAll => exact .inl rfl
    | getPut => exact .inr rfl
    | getAll =>
      obtain ⟨m, -, -, he⟩ := hscheduled
      cases he
    | getPopular =>
      obtain ⟨key, -, he⟩ := hscheduled
      cases he
  · rintro ⟨htype, hn⟩
    have hop : numberedOp type n = createOp n := by
      rcases htype with rfl | rfl <;> rfl
    have hmem : numberedOp type n ∈ w.numbers.map (numberedOp type) := List.mem_map_of_mem hn
    rw [← h.drawn, hop] at hmem
    exact List.mem_of_mem_filter hmem

/-- It is not asked for twice. -/
lemma Worker.Inv.not_mem_done (h : w.Inv type globalKeyCounter)
    (hphase : w.phase = .requesting (createOp n)) : createOp n ∉ w.done.map Prod.fst := by
  intro hdone
  have htakes : takesNumber type (createOp n) = true := Bool.or_true _
  have hinj : Function.Injective (numberedOp type) := by
    intro m m' he
    unfold numberedOp at he
    split_ifs at he
    · exact numberedKey_inj (congrArg KeyOp.key he)
    · exact createOp_inj he
  have hasked : w.asked = createOp n :: w.done.map Prod.fst := by
    rw [Worker.asked, hphase]
    rfl
  have hnd := h.nodup.map hinj
  rw [← h.drawn, hasked, List.filter_cons_of_pos htakes] at hnd
  exact (List.nodup_cons.1 hnd).1 (List.mem_filter.2 ⟨hdone, htakes⟩)

/-- A worker that does not get an answer is not waiting for one. -/
lemma Worker.Step.quiet {input : WorkerInput} {e : Worker × ℤ}
    (hs : Worker.Step type w globalKeyCounter input e)
    (hinput : ∀ status latencyNs, input ≠ .reply status latencyNs) :
    w.phase.op = none ∧ e.1.done = w.done := by
  cases hs with
  | finished hphase => exact absurd rfl (hinput _ _)
  | began hphase | stopped hphase | creates hphase | gets hphase | getsPopular hphase
  | loads hphase | getsLatest hphase => exact ⟨by rw [hphase]; rfl, rfl⟩

end

section
variable {type : Workload} {table : Str → Option Str} {s s' : MapState ι} {i : ι}

/-- A create that is on its way has not taken effect. -/
lemma MapState.Inv.not_served (h : s.Inv type table) {n : ℤ}
    (hphase : (s.load.workers i).phase = .requesting (createOp n)) (hanswer : s.answers i = none)
    (j : ι) : ¬ s.Served j n := by
  have hi : n ∈ (s.load.workers i).numbers :=
    (h.load.workers i).mem_numbers (by rw [Worker.asked, hphase]; exact List.mem_cons_self)
  have hji (hj : n ∈ (s.load.workers j).numbers) : j = i := h.load.once j i n hj hi
  rintro (hdone | ⟨hp, hne⟩)
  · obtain rfl := hji ((h.load.workers j).mem_numbers (List.mem_append_right _ hdone))
    exact (h.load.workers j).not_mem_done hphase hdone
  · obtain rfl := hji ((h.load.workers j).mem_numbers (by
      rw [Worker.asked, hp]
      exact List.mem_cons_self))
    exact hne hanswer

variable [DecidableEq ι]

/-- A GET changes nothing, and is answered what the map has. -/
lemma MapState.Inv.serve_get (h : s.Inv type table) {key : Str}
    (hphase : (s.load.workers i).phase = .requesting (.get key)) :
    MapState.Inv type table { s with
      answers := Function.update s.answers i (some ((KeyOp.get key).answer (s.table key)).1) } := by
  have hserved (j : ι) (n : ℤ) : MapState.Served { s with
      answers := Function.update s.answers i (some ((KeyOp.get key).answer (s.table key)).1) } j n
      ↔ s.Served j n := by
    unfold MapState.Served
    by_cases hj : j = i
    · subst hj
      rw [hphase]
      simp [createOp]
    · simp [Function.update_of_ne hj]
  refine ⟨h.load, fun k v => ?_, fun j status hj => ?_, h.done⟩
  · simp only [hserved]
    exact h.stored k v
  · by_cases hji : j = i
    · subst hji
      dsimp only at hj
      rw [Function.update_self] at hj
      obtain rfl := Option.some.inj hj
      refine ⟨_, hphase, ?_, fun hne => ?_⟩
      · cases s.table key with
        | none => exact .inr rfl
        | some v => exact .inl rfl
      · obtain ⟨v, hv⟩ := Option.ne_none_iff_exists'.1 hne
        rw [(h.stored key v).2 (.inl hv)]
        rfl
    · dsimp only at hj
      rw [Function.update_of_ne hji] at hj
      exact h.answers j status hj

/-- A create takes effect once. -/
lemma MapState.Inv.serve_create (h : s.Inv type table) {n : ℤ}
    (hphase : (s.load.workers i).phase = .requesting (createOp n)) (hanswer : s.answers i = none) :
    MapState.Inv type table { s with
      table := Function.update s.table (numberedKey n)
        ((createOp n).after (s.table (numberedKey n)))
      answers := Function.update s.answers i
        (some ((createOp n).answer (s.table (numberedKey n))).1) } := by
  have hfirst : s.table (numberedKey n) = table (numberedKey n) := by
    refine Option.ext fun value => (h.stored _ value).trans (or_iff_left ?_)
    rintro ⟨-, j, m, hj, hm, -⟩
    exact h.not_served hphase hanswer j (numberedKey_inj hm ▸ hj)
  have hserved (j : ι) (m : ℤ) : MapState.Served { s with
      table := Function.update s.table (numberedKey n)
        ((createOp n).after (s.table (numberedKey n)))
      answers := Function.update s.answers i
        (some ((createOp n).answer (s.table (numberedKey n))).1) } j m
      ↔ s.Served j m ∨ j = i ∧ m = n := by
    unfold MapState.Served
    by_cases hj : j = i
    · subst hj
      rw [hphase, hanswer]
      have hop : createOp n = createOp m ↔ m = n :=
        ⟨fun he => (createOp_inj he).symm, fun he => he ▸ rfl⟩
      simp [hop]
    · simp [hj]
  refine ⟨h.load, fun key value => ?_, fun j status hj => ?_, h.done⟩
  · simp only [hserved]
    by_cases hkey : key = numberedKey n
    · subst hkey
      rw [Function.update_self, hfirst]
      cases hold : table (numberedKey n) with
      | none =>
        refine ⟨fun hvalue => .inr ⟨rfl, i, n, .inr ⟨rfl, rfl⟩, rfl, ?_⟩, ?_⟩
        · exact (Option.some.inj hvalue).symm
        · rintro (hnone | ⟨-, j, m, -, hm, rfl⟩)
          · cases hnone
          · exact congrArg (some ∘ numberedValue) (numberedKey_inj hm)
      | some old => exact (or_iff_left fun hnone => Option.some_ne_none _ hnone.1).symm
    · rw [Function.update_of_ne hkey, h.stored]
      refine or_congr_right (and_congr_right fun _ => exists_congr fun j => exists_congr fun m => ?_)
      refine and_congr_left fun hm => (or_iff_left ?_).symm
      rintro ⟨-, rfl⟩
      exact hkey hm.1
  · dsimp only at hj
    by_cases hji : j = i
    · subst hji
      rw [Function.update_self, hfirst] at hj
      obtain rfl := Option.some.inj hj
      refine ⟨_, hphase, ?_⟩
      show _ = if table (numberedKey n) = none then _ else _
      cases table (numberedKey n) <;> rfl
    · rw [Function.update_of_ne hji] at hj
      exact h.answers j status hj

/-- A step of a worker that gets no answer. -/
lemma MapState.Inv.work (h : s.Inv type table) {a : LoadAction ι} {load : LoadState ι}
    (hinput : ∀ status latencyNs, a.input ≠ .reply status latencyNs)
    (hs : s.load.step type a = some load) : MapState.Inv type table { s with load := load } := by
  have hload := h.load.step hs
  obtain ⟨e, he, rfl⟩ := Option.map_eq_some_iff.1 hs
  obtain ⟨hop, hdone⟩ := (Worker.step_cases he).quiet hinput
  have hnone : s.answers a.worker = none := by
    refine Option.eq_none_iff_forall_ne_some.2 fun status hstatus => ?_
    obtain ⟨op, hphase, -⟩ := h.answers a.worker status hstatus
    rw [hphase] at hop
    cases hop
  have hserved (j : ι) (n : ℤ) : MapState.Served { s with
      load := ⟨e.2, Function.update s.load.workers a.worker e.1⟩ } j n ↔ s.Served j n := by
    unfold MapState.Served
    by_cases hj : j = a.worker
    · subst hj
      simp [hnone, hdone]
    · simp [Function.update_of_ne hj]
  refine ⟨hload, fun key value => ?_, fun j status hj => ?_, fun j => ?_⟩
  · simp only [hserved]
    exact h.stored key value
  · have hji : j ≠ a.worker := by
      rintro rfl
      exact absurd (hnone.symm.trans hj) nofun
    simp only [Function.update_of_ne hji]
    exact h.answers j status hj
  · by_cases hji : j = a.worker
    · subst hji
      simp only [Function.update_self, hdone]
      exact h.done a.worker
    · simp only [Function.update_of_ne hji]
      exact h.done j

/-- A worker gets its answer. -/
lemma MapState.Inv.reply (h : s.Inv type table) {status : Option ℤ} {latencyNs : ℕ}
    {load : LoadState ι} (hsome : status.isSome) (hanswer : status = s.answers i)
    (hs : s.load.step type ⟨i, .reply status latencyNs⟩ = some load) :
    MapState.Inv type table { s with
      load := load
      answers := Function.update s.answers i none } := by
  have hload := h.load.step hs
  obtain ⟨e, he, rfl⟩ := Option.map_eq_some_iff.1 hs
  obtain ⟨st, rfl⟩ := Option.isSome_iff_exists.1 hsome
  obtain ⟨op, hphase, hright⟩ := h.answers i st hanswer.symm
  dsimp only at he
  obtain rfl : ((s.load.workers i).finish op (some st) latencyNs, s.load.globalKeyCounter) = e := by
    simpa [Worker.step, hphase] using he
  have hserved (j : ι) (n : ℤ) : MapState.Served ⟨⟨s.load.globalKeyCounter,
      Function.update s.load.workers i ((s.load.workers i).finish op (some st) latencyNs)⟩,
      s.table, Function.update s.answers i none⟩ j n ↔ s.Served j n := by
    unfold MapState.Served
    by_cases hj : j = i
    · subst hj
      dsimp only
      rw [Function.update_self, hphase, ← hanswer]
      have hdone : createOp n ∈ ((s.load.workers j).finish op (some st) latencyNs).done.map Prod.fst
          ↔ op = createOp n ∨ createOp n ∈ (s.load.workers j).done.map Prod.fst :=
        List.mem_cons.trans (or_congr_left eq_comm)
      rw [hdone]
      simp [Worker.finish, or_comm]
    · simp [Function.update_of_ne hj]
  refine ⟨hload, fun key value => ?_, fun j status hj => ?_, fun j => ?_⟩
  · simp only [hserved]
    exact h.stored key value
  · have hji : j ≠ i := by
      rintro rfl
      dsimp only at hj
      rw [Function.update_self] at hj
      cases hj
    simp only [Function.update_of_ne hji] at hj ⊢
    exact h.answers j status hj
  · by_cases hji : j = i
    · subst hji
      simp only [Function.update_self]
      exact List.forall_mem_cons.2 ⟨⟨st, rfl, hright⟩, h.done j⟩
    · simp only [Function.update_of_ne hji]
      exact h.done j

/-- Every step keeps what holds between two steps. -/
lemma MapState.Inv.step (h : s.Inv type table) {a : MapAction ι} (hs : s.step type a = some s') :
    s'.Inv type table := by
  cases a with
  | serve i =>
    simp only [MapState.step] at hs
    split at hs
    · rename_i op hphase hanswer
      obtain rfl := Option.some.inj hs
      have hscheduled := (h.load.workers i).schedule
      rw [Worker.asked, hphase] at hscheduled
      rcases hscheduled.1.cases with ⟨n, rfl⟩ | ⟨key, rfl⟩
      · exact h.serve_create hphase hanswer
      · have hsame : Function.update s.table key ((KeyOp.get key).after (s.table key)) = s.table :=
          Function.update_eq_self key s.table
        simp only [KeyOp.key, hsame]
        exact h.serve_get hphase
    · cases hs
  | work a =>
    obtain ⟨i, input⟩ := a
    cases input with
    | reply status latencyNs =>
      simp only [MapState.step] at hs
      split_ifs at hs with hc
      obtain ⟨load, hload, rfl⟩ := Option.map_eq_some_iff.1 hs
      exact h.reply hc.1 hc.2 hload
    | clock inTime | access =>
      obtain ⟨load, hload, rfl⟩ := Option.map_eq_some_iff.1 hs
      exact h.work (fun _ _ he => WorkerInput.noConfusion he) hload

end

/-- What has been created stays, if the operations are creates and GETs. -/
lemma applyOps_ne_none {ops : List KeyOp} {key : Str}
    (hops : ∀ op ∈ ops, (∃ k v, op = .create k v) ∨ ∃ k, op = .get k) {table : Str → Option Str}
    (h : table key ≠ none ∨ ∃ value, .create key value ∈ ops) : applyOps table ops key ≠ none := by
  induction ops generalizing table with
  | nil => exact h.resolve_right fun ⟨_, hv⟩ => nomatch hv
  | cons op ops ih =>
    have hops := List.forall_mem_cons.1 hops
    refine ih hops.2 ?_
    rcases hops.1 with ⟨k, v, rfl⟩ | ⟨k, rfl⟩
    · by_cases hk : key = k
      · subst hk
        refine .inl ?_
        show Function.update table key ((KeyOp.create key v).after (table key)) key ≠ none
        rw [Function.update_self]
        cases table key <;> exact Option.some_ne_none _
      · refine h.imp (fun ht => ?_) fun ⟨value, hv⟩ => ⟨value, ?_⟩
        · exact fun he => ht ((Function.update_of_ne hk _ table).symm.trans he)
        · exact (List.mem_cons.1 hv).resolve_left fun he => hk (congrArg KeyOp.key he)
    · have hsame : Function.update table k ((KeyOp.get k).after (table k)) = table :=
        Function.update_eq_self k table
      refine h.imp (fun ht => ?_) fun ⟨value, hv⟩ => ⟨value, ?_⟩
      · exact fun he => ht ((congrFun hsame key).symm.trans he)
      · exact (List.mem_cons.1 hv).resolve_left nofun

/-- So the map has the popular keys when the workers start. -/
lemma startTable_popular {table : Str → Option Str} {key : Str} (hkey : key ∈ popularKeys) :
    startTable .getPopular table key ≠ none := by
  rw [startTable, if_pos rfl]
  refine applyOps_ne_none (fun op hop => ?_)
    (.inr ⟨_, List.mem_flatMap.2 ⟨key, hkey, List.mem_cons_self⟩⟩)
  obtain ⟨k, -, hk⟩ := List.mem_flatMap.1 hop
  rcases List.mem_pair.1 hk with rfl | rfl
  · exact .inl ⟨_, _, rfl⟩
  · exact .inr ⟨_, rfl⟩

section
variable [DecidableEq ι] {type : Workload} {table : Str → Option Str} {s : MapState ι}

/-- What holds between two steps holds in every state of a run. -/
lemma mapInv_of_run {ls : List (MapAction ι)}
    (hrun : Run (MapState.step type) anyStep (.start type table) ls s) :
    s.Inv type (startTable type table) := by
  refine hrun.invariant (fun h _ hs => h.step hs) ⟨inv_of_run .nil, fun key value => ?_,
    fun i status h => (nomatch h), fun i e he => (nomatch he)⟩
  refine (or_iff_left ?_).symm
  rintro ⟨-, i, n, hn | ⟨-, hn⟩, -⟩
  · cases hn
  · exact hn rfl

/-- Whatever the map has had before, and in every order of the steps: no request fails; a create is
    answered 201 if its key was missing and 409 if it was there; every popular key is found. When
    all workers have stopped, the map has what it had and the numbers below the counter. -/
theorem load_fills {ls : List (MapAction ι)}
    (hrun : Run (MapState.step type) anyStep (.start type table) ls s) :
    (∀ i, (s.load.workers i).stats.totalFail = 0)
      ∧ (∀ i, ∀ e ∈ (s.load.workers i).done, ∃ status, e.2 = some status
        ∧ Right (startTable type table) e.1 status ∧ (type = .getPopular → status = 200))
      ∧ ((∀ i, (s.load.workers i).phase = .stopped) → ∀ key value, s.table key = some value
        ↔ startTable type table key = some value
          ∨ startTable type table key = none ∧ (type = .putAll ∨ type = .getPut)
            ∧ ∃ n, 0 ≤ n ∧ n < s.load.globalKeyCounter
              ∧ key = numberedKey n ∧ value = numberedValue n) := by
  have h := mapInv_of_run hrun
  have hasked (i : ι) {e : KeyOp × Option ℤ} (he : e ∈ (s.load.workers i).done) :
      ∃ position, Scheduled type s.load.globalKeyCounter position e.1 :=
    (h.load.workers i).schedule.of_mem _ (List.mem_append_right _ (List.mem_map_of_mem he))
  refine ⟨fun i => ?_, fun i e he => ?_, fun hstopped key value => ?_⟩
  · rw [(h.load.workers i).fail, List.countP_eq_zero]
    intro e he
    obtain ⟨position, hscheduled⟩ := hasked i he
    obtain ⟨status, hstatus, hright⟩ := h.done i e he
    obtain ⟨op, answer⟩ := e
    dsimp only at hstatus hright hscheduled ⊢
    subst hstatus
    rcases hscheduled.cases with ⟨n, rfl⟩ | ⟨key, rfl⟩
    · have hcases : status = 201 ∨ status = 409 := by
        obtain rfl : status = if _ = none then 201 else 409 := hright
        split_ifs
        · exact .inl rfl
        · exact .inr rfl
      simp [succeeded, createOp, hcases]
    · simp [succeeded, hright.1]
  · obtain ⟨status, hstatus, hright⟩ := h.done i e he
    refine ⟨status, hstatus, hright, ?_⟩
    rintro rfl
    obtain ⟨position, key, hkey, hop⟩ := hasked i he
    rw [hop] at hright
    exact hright.2 (startTable_popular (List.mem_of_getElem? hkey))
  · have hserved (i : ι) (n : ℤ) : s.Served i n
        ↔ (type = .putAll ∨ type = .getPut) ∧ n ∈ (s.load.workers i).numbers := by
      rw [← (h.load.workers i).createOp_mem, asked_of_none (by rw [hstopped i]; rfl)]
      exact or_iff_left fun hp => by rw [hstopped i] at hp; cases hp.1
    rw [h.stored]
    refine or_congr_right (and_congr_right fun _ => ⟨?_, ?_⟩)
    · rintro ⟨i, n, hn, hkey, hvalue⟩
      obtain ⟨htype, hn⟩ := (hserved i n).1 hn
      obtain ⟨h0, hlt⟩ := (h.load.workers i).numbers n hn
      exact ⟨htype, n, h0, hlt, hkey, hvalue⟩
    · rintro ⟨htype, n, h0, hlt, hkey, hvalue⟩
      obtain ⟨i, hi⟩ := h.load.drawn n h0 hlt
      exact ⟨i, n, (hserved i n).2 ⟨htype, hi⟩, hkey, hvalue⟩

/-- Two workers on an empty map: each creates a key, and the first one reads that of the other. -/
def fillSteps : List (MapAction Bool) :=
  [.work ⟨false, .clock true⟩, .work ⟨true, .clock true⟩, .work ⟨false, .access⟩,
    .work ⟨true, .access⟩, .serve true, .serve false, .work ⟨false, .reply (some 201) 5⟩,
    .work ⟨false, .clock true⟩, .work ⟨false, .access⟩, .work ⟨false, .access⟩, .serve false,
    .work ⟨false, .reply (some 200) 7⟩, .work ⟨false, .clock false⟩,
    .work ⟨true, .reply (some 201) 9⟩, .work ⟨true, .clock false⟩]

/-- A run that fills an empty map. -/
theorem load_fills_getPut :
    ∃ s, Run (MapState.step .getPut) anyStep (.start .getPut fun _ => none) fillSteps s
      ∧ (∀ i, (s.load.workers i).stats.totalFail = 0)
      ∧ s.table (numberedKey 1) = some (numberedValue 1) := by
  have hisSome : ((exec (MapState.step .getPut) (.start .getPut fun _ => none) fillSteps).filter
      fun s => s.load.globalKeyCounter = 2
        ∧ ∀ i, (s.load.workers i).phase = .stopped).isSome = true := by
    decide +kernel
  obtain ⟨s, hs⟩ := Option.isSome_iff_exists.1 hisSome
  obtain ⟨hexec, hcond⟩ := Option.filter_eq_some_iff.1 hs
  obtain ⟨hcounter, hstopped⟩ := of_decide_eq_true hcond
  obtain ⟨hfail, -, htable⟩ := load_fills (Run.of_exec hexec)
  refine ⟨s, Run.of_exec hexec, hfail, (htable hstopped _ _).2 (.inr ⟨rfl, .inr rfl, 1, ?_⟩)⟩
  exact ⟨by decide, by omega, rfl, rfl⟩

end

end KvStore.Client
