import KvStore.Recovery.Recover
import KvStore.Server.Routes

/-!
# The key list

What `fetchAllKeysFromNode` makes of the answer of `handle_all_keys`. The keys are sent as lines, so
a key must be a line of text to arrive. The routes see to that for the keys in a path, but the key
of a create is whatever comes before the first space of the body.

* `listingSurvives_iff`: the tables whose keys arrive.
* `listingSurvives_run_iff`: the runs all of whose tables are of that kind.
* `listingSurvives_fails`: a create of a key with a line end.
-/

namespace KvStore.Recovery
open KvStore.Lib KvStore.Server

/-- The decoded list has every key of the table once, and nothing else, in whichever order the
    database returns the rows. -/
def ListingSurvives (s : KvServer) : Prop :=
  ∀ rows : List Str, rows.Perm s.table.keys →
    (listedKeys (some (closing.reply 200 (keyList rows)))).Perm s.table.keys

/-- The key is a line of text. -/
def IsLine (key : Str) : Prop := key ≠ [] ∧ '\n' ∉ key

instance (key : Str) : Decidable (IsLine key) := inferInstanceAs (Decidable (_ ∧ _))

/-- What the statement does takes effect. -/
def takesEffect : Option DbFault → Bool
  | none => true
  | some (.statement _) => false
  | some (.commit _ applied) => applied

/-- A create that takes effect, of a key that is not a line. -/
def CreatesNoLine (step : Request × Option DbFault) : Prop :=
  step.1.method = "POST".toList ∧ step.1.path = "/kvstore/create".toList
    ∧ takesEffect step.2 = true ∧ ¬ IsLine (step.1.body.takeWhile (· ≠ ' '))

/-- The server after some requests. -/
def afterRequests (s : KvServer) (steps : List (Request × Option DbFault)) : KvServer :=
  steps.foldl (fun s step => (s.dispatch step.1 step.2).2) s

/-- The keys of a table arrive exactly if they are lines. -/
theorem listingSurvives_iff (s : KvServer) :
    ListingSurvives s ↔ ∀ key ∈ s.table.keys, IsLine key := by
  constructor
  · intro h key hkey
    have hmem := (h _ (List.Perm.refl _)).mem_iff.2 hkey
    rw [listedKeys_keyList, List.mem_filter, decide_eq_true_iff] at hmem
    exact ⟨hmem.2, not_mem_of_mem_getlines hmem.1⟩
  · intro h rows hrows
    have hline : ∀ key ∈ rows, IsLine key := fun key hkey => h key (hrows.mem_iff.1 hkey)
    rw [listedKeys_keyList, keyList, getlines_flatMap fun key hkey => (hline key hkey).2,
      List.filter_eq_self.2 fun key hkey => decide_eq_true (hline key hkey).1]
    exact hrows

section
variable {s : KvServer} {req : Request} {call : Call}

/-- The calls that the routes make: a create, or one whose key is a word. -/
lemma call_cases (h : req.call = some call) :
    (call = .create req ∧ req.method = "POST".toList ∧ req.path = "/kvstore/create".toList)
      ∨ ¬ (req.method = "POST".toList ∧ req.path = "/kvstore/create".toList)
        ∧ ∀ key, call.key = some key → isWord key = true := by
  have hroute {root : Str} {f : Str → Call} (hkey : ∀ k, (f k).key = some k)
      (hf : (wordAfter root req.path).map f = some call) :
      ∀ key, call.key = some key → isWord key = true := by
    obtain ⟨k, hw, rfl⟩ := Option.map_eq_some_iff.1 hf
    intro key hk
    obtain rfl := Option.some.inj ((hkey k).symm.trans hk)
    exact (wordAfter_eq_some hw).2
  unfold Request.call at h
  split_ifs at h with h1 h2 h3 h4 h5 h6
  · exact .inl ⟨(Option.some.inj h).symm, h1, h2⟩
  · exact .inr ⟨fun hc => h2 hc.2, hroute (fun _ => rfl) h⟩
  · exact .inr ⟨fun hc => h1 hc.1, hroute (fun _ => rfl) h⟩
  · exact .inr ⟨fun hc => h1 hc.1, hroute (fun _ => rfl) h⟩
  · refine .inr ⟨fun hc => h1 hc.1, fun key hk => ?_⟩
    rw [← Option.some.inj h] at hk
    cases hk
  · exact .inr ⟨fun hc => h1 hc.1, hroute (fun _ => rfl) h⟩

/-- A word is a line. -/
lemma isLine_of_isWord {key : Str} (h : isWord key = true) : IsLine key :=
  ⟨ne_nil_of_isWord h, not_mem_of_isWord h rfl⟩

/-- The table after a create. -/
lemma table_handleCreate (s : KvServer) (req : Request) (fault : Option DbFault) :
    (s.handleCreate req fault).2.table =
      if takesEffect fault = true ∧ s.table.find (req.body.takeWhile (· ≠ ' ')) = none then
        s.table.insert (req.body.takeWhile (· ≠ ' '))
          (((req.body.dropWhile (· ≠ ' ')).drop 1).takeWhile (· ≠ '\n'))
      else s.table := by
  unfold KvServer.handleCreate KvServer.afterFailedCommit
  dsimp only
  by_cases hf : s.table.find (req.body.takeWhile (· ≠ ' ')) = none
  · simp only [hf, ne_eq, not_true_eq_false, if_false, and_true]
    rcases fault with _ | what | ⟨what, _ | _⟩ <;> rfl
  · simp only [hf, ne_eq, not_false_eq_true, if_true, and_false, if_false]
    rcases fault with _ | what | ⟨what, applied⟩ <;> rfl

/-- After a create all keys are lines, if they were before and the create adds no other. -/
lemma lines_handleCreate (h : ∀ key ∈ s.table.keys, IsLine key) (req : Request)
    (fault : Option DbFault) : (∀ key ∈ (s.handleCreate req fault).2.table.keys, IsLine key)
      ↔ (takesEffect fault = true → IsLine (req.body.takeWhile (· ≠ ' '))) := by
  rw [table_handleCreate]
  split_ifs with hc
  · simp only [OrdMap.mem_keys_iff_ne_none, OrdMap.find_insert] at h ⊢
    constructor
    · intro hall _
      exact hall _ (by rw [if_pos rfl]; nofun)
    · intro hline key hkey
      split_ifs at hkey with he
      · exact he ▸ hline hc.1
      · exact h key hkey
  · refine iff_of_true h fun heffect => ?_
    refine h _ (OrdMap.mem_keys_iff_ne_none.2 fun hnone => hc ⟨heffect, hnone⟩)

/-- A request keeps all keys lines unless it creates another one. -/
lemma lines_dispatch_iff (h : ∀ key ∈ s.table.keys, IsLine key) (step : Request × Option DbFault) :
    (∀ key ∈ (s.dispatch step.1 step.2).2.table.keys, IsLine key) ↔ ¬ CreatesNoLine step := by
  obtain ⟨req, fault⟩ := step
  cases hcall : req.call with
  | none =>
    rw [dispatch_of_call_eq_none s hcall]
    refine iff_of_true h fun hc => ?_
    unfold Request.call at hcall
    rw [if_pos hc.1, if_pos hc.2.1] at hcall
    cases hcall
  | some call =>
    rw [dispatch_call s hcall]
    rcases call_cases hcall with ⟨rfl, hm, hp⟩ | ⟨hnot, hword⟩
    · rw [Call.handleWith, lines_handleCreate h]
      constructor
      · exact fun hline hc => hc.2.2.2 (hline hc.2.2.1)
      · intro hnot heffect
        by_contra hline
        exact hnot ⟨hm, hp, heffect, hline⟩
    · refine iff_of_true (fun key hkey => ?_) fun hc => hnot ⟨hc.1, hc.2.1⟩
      by_cases hk : call.key = some key
      · exact isLine_of_isWord (hword key hk)
      · rw [OrdMap.mem_keys_iff_ne_none, find_handleWith_ne s (call, fault) hk] at hkey
        exact h key (OrdMap.mem_keys_iff_ne_none.2 hkey)

end

/-- The keys arrive after every request of a run exactly if no request of the run creates a key that
    is not a line. -/
theorem listingSurvives_run_iff (capacity : ℕ) (steps : List (Request × Option DbFault)) :
    (∀ done, done <+: steps → ListingSurvives (afterRequests (.new capacity) done))
      ↔ ∀ step ∈ steps, ¬ CreatesNoLine step := by
  have happend (done : List (Request × Option DbFault)) (step : Request × Option DbFault) :
      afterRequests (.new capacity) (done ++ [step])
        = ((afterRequests (.new capacity) done).dispatch step.1 step.2).2 := by
    rw [afterRequests, List.foldl_append]
    rfl
  simp only [listingSurvives_iff]
  induction steps using List.reverseRecOn with
  | nil =>
    refine iff_of_true (fun done hp => ?_) nofun
    obtain rfl := List.prefix_nil.1 hp
    nofun
  | append_singleton steps step ih =>
    simp only [List.forall_mem_append, List.forall_mem_singleton, ← ih]
    constructor
    · intro hall
      have hdone : ∀ done, done <+: steps →
          ∀ key ∈ (afterRequests (.new capacity) done).table.keys, IsLine key :=
        fun done hp => hall done (hp.trans (List.prefix_append _ _))
      refine ⟨hdone, ?_⟩
      rw [← lines_dispatch_iff (hdone steps List.prefix_rfl), ← happend]
      exact hall _ List.prefix_rfl
    · rintro ⟨hdone, hstep⟩ done hp
      rcases List.prefix_concat_iff.1 hp with rfl | hp
      · rw [happend, lines_dispatch_iff (hdone steps List.prefix_rfl)]
        exact hstep
      · exact hdone done hp

/-- A client creates a key with a line end. -/
def createTwoLines : Request :=
  { method := "POST".toList, path := "/kvstore/create".toList, body := "a\nb x".toList }

/-- The keys do not always arrive: one key with a line end arrives as two. -/
theorem listingSurvives_fails : ¬ ∀ (capacity : ℕ) (steps : List (Request × Option DbFault)),
    ListingSurvives (afterRequests (.new capacity) steps) := by
  intro hall
  have hperm := hall 1000 [(createTwoLines, none)] _ (List.Perm.refl _)
  exact absurd hperm.length_eq (by decide +kernel)

end KvStore.Recovery
