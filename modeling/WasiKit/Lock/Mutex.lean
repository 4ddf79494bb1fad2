/-
# The lock refines a mutex

What the callers of `Lock` rely on is a one-token mutex: an agent takes the
token while nobody holds it, and only the holder gives it back. The holder of
the lock's token is the agent that owns it (`Lock.Agent.Owns`: from its
successful `compareExchange` to its `Atomics.add`). A step of an agent leaves
every other agent as it was, except that its `notify` wakes sleepers, who own
nothing (`Lock.agents_frame`). With the invariant before and after the step,
the holder then changes only by a take from a free lock or a give by the
holder, both by the agent that steps (`Lock.holder_step`). Reading each step
that changes the holder as that take or give (`Lock.mutexAct`) turns every run
of callers that keep the contract into a run of the mutex (`Lock.mutexTrace`,
`Lock.holder_run`); the owner is unique, and the cell is `1` exactly when
nobody holds the token (`Lock.refines_mutex`).

Key definitions: `Mutex.step`, `Mutex.system`, `Lock.State.holder`,
`Lock.mutexAct`, `Lock.mutexTrace`.
Key theorems: `Lock.agents_frame`, `Lock.holder_step`, `Lock.holder_run`,
`Lock.refines_mutex`.
-/
import WasiKit.Lock.Exclusion

namespace WasiKit

/-! ### The mutex -/

/-- What a mutex lets agent `i` do: take the token, or give it back. -/
inductive Mutex.Act (n : Nat) where
  | take (i : Fin n)
  | give (i : Fin n)
  deriving DecidableEq, Repr

namespace Mutex

variable {n : Nat}

/-- The agent of an action. -/
def Act.agent : Act n → Fin n
  | .take i | .give i => i

/-- The holder of the token, if any: a free token is taken; only the holder gives it back. -/
def step : Option (Fin n) → Act n → Option (Option (Fin n))
  | none, .take i => some (some i)
  | some j, .give i => if j = i then some none else none
  | _, _ => none

/-- The mutex, free at the start. -/
def system (n : Nat) : System (Option (Fin n)) (Act n) := ⟨none, step⟩

end Mutex

namespace Lock

variable {n : Nat}

instance : DecidablePred Agent.Owns := fun _ => inferInstanceAs (Decidable (_ ∨ _))

/-- The agent that takes an action. -/
def Act.agent : Act n → Fin n
  | .acquire i | .release i | .next i | .read i | .write i => i

/-- The agent that holds the cell's token, if any. -/
def State.holder (s : State n) : Option (Fin n) :=
  (List.finRange n).find? fun j => decide (s.agents j).Owns

/-! ### The holder -/

section Holder

variable {s : State n} {i : Fin n}

theorem holder_eq_none : s.holder = none ↔ ∀ j, ¬ (s.agents j).Owns := by
  simp [State.holder, List.find?_eq_none]

theorem owns_of_holder (h : s.holder = some i) : (s.agents i).Owns := by
  simpa using List.find?_some h

/-- With the token unique, the holder is the agent that owns it. -/
theorem holder_eq_some {c : BitVec 32} (hE : Exclusive c fun j => (s.agents j).Owns) :
    s.holder = some i ↔ (s.agents i).Owns := by
  refine ⟨owns_of_holder, fun hi => ?_⟩
  cases h : s.holder with
  | none => exact absurd hi (holder_eq_none.1 h i)
  | some j => rw [hE.unique (owns_of_holder h) hi]

theorem holder_congr {s' : State n} (h : ∀ j, (s'.agents j).Owns ↔ (s.agents j).Owns) :
    s'.holder = s.holder := by
  simp only [State.holder]
  congr 1
  funext j
  exact decide_eq_decide.2 (h j)

end Holder

/-! ### A step through the holder -/

variable (canBlock : Fin n → Bool) {s s' : State n} {a : Act n}

/-- **A step of one agent leaves the others as they were**, except that a `notify` wakes a
sleeper. -/
theorem agents_frame (hI : Inv s) (h : step canBlock s a = some s') {j : Fin n}
    (hj : j ≠ a.agent) :
    s'.agents j = s.agents j ∨
      ((s.agents j).pc = .asleep ∧ s'.agents j = { s.agents j with pc := .woken }) := by
  cases a with
  | acquire i | release i | read i | write i =>
    simp only [step, acquire, release, read, write] at h
    (try split at h) <;> (try split_ifs at h) <;> cases h <;> exact .inl (set_ne _ _ hj)
  | next i =>
    obtain ⟨⟨t, e⟩, ht, rfl⟩ := Option.map_eq_some'.1 h
    cases hpc : (s.agents i).pc with
    | idle => simp [next_idle canBlock hpc] at ht
    | asleep => simp [next_asleep canBlock hpc] at ht
    | load => cases (next_load canBlock hpc).symm.trans ht; exact .inl (set_ne _ _ hj)
    | woken => cases (next_woken canBlock hpc).symm.trans ht; exact .inl (set_ne _ _ hj)
    | add => cases (next_add canBlock hpc).symm.trans ht; exact .inl (set_ne _ _ hj)
    | reset => cases (next_reset canBlock hpc).symm.trans ht; exact .inl (set_ne _ _ hj)
    | cas v =>
      rw [next_cas canBlock hpc] at ht
      split_ifs at ht <;> cases ht <;> exact .inl (set_ne _ _ hj)
    | wait v =>
      rw [next_wait canBlock hpc] at ht
      split_ifs at ht <;> cases ht <;> exact .inl (set_ne _ _ hj)
    | notify =>
      cases (next_notify canBlock hpc).symm.trans ht
      show ((s.wake (s.waiters.take 1)).set i _).agents j = _ ∨ _
      rw [set_ne _ _ (show j ≠ i from hj), wake_agents]
      split
      · exact .inr ⟨hI.waiters j (List.mem_of_mem_take ‹_›), rfl⟩
      · exact .inl rfl

/-- **Through the holder, a step is a stutter, a take or a give by the agent that steps.** -/
theorem holder_step (hI : Inv s) (hA : Allowed s a) (h : step canBlock s a = some s') :
    s'.holder = s.holder ∨ Mutex.step s.holder (.take a.agent) = some s'.holder ∨
      Mutex.step s.holder (.give a.agent) = some s'.holder := by
  have hI' := inv_step canBlock hI hA h
  have hO : ∀ j, j ≠ a.agent → ((s'.agents j).Owns ↔ (s.agents j).Owns) := fun j hj => by
    rcases agents_frame canBlock hI h hj with he | ⟨hs, he⟩
    · rw [he]
    · rw [he]; simp [Agent.Owns, Agent.InCS, hs]
  have hsame : ((s'.agents a.agent).Owns ↔ (s.agents a.agent).Owns) → s'.holder = s.holder :=
    fun hi => holder_congr fun j => by
      by_cases hj : j = a.agent
      · subst hj; exact hi
      · exact hO j hj
  by_cases h1 : (s.agents a.agent).Owns <;> by_cases h2 : (s'.agents a.agent).Owns
  · exact .inl (hsame (iff_of_true h2 h1))
  · -- the holder's `Atomics.add`
    have hn : s'.holder = none := holder_eq_none.2 fun j hj => by
      by_cases hja : j = a.agent
      · exact h2 (hja ▸ hj)
      · exact hja (hI.exclusive.unique ((hO j hja).1 hj) h1)
    simp [Mutex.step, (holder_eq_some hI.exclusive).2 h1, hn]
  · -- a successful `compareExchange`
    have hn : s.holder = none := holder_eq_none.2 fun j hj => by
      by_cases hja : j = a.agent
      · exact h1 (hja ▸ hj)
      · exact hja (hI'.exclusive.unique ((hO j hja).2 hj) h2)
    simp [Mutex.step, (holder_eq_some hI'.exclusive).2 h2, hn]
  · exact .inl (hsame (iff_of_false h2 h1))

/-! ### Whole runs through the holder -/

/-- The mutex action of the step `a` from `s` to `s'`, read off the holders before and after:
none when the holder stays, else the stepping agent takes the token from a free lock or gives
it back. -/
def mutexAct (s : State n) (a : Act n) (s' : State n) : Option (Mutex.Act n) :=
  if s'.holder = s.holder then none
  else if s.holder = none then some (.take a.agent) else some (.give a.agent)

/-- The mutex actions of the run of `as` from `s`, one for each step that changes the holder. -/
def mutexTrace (s : State n) : List (Act n) → List (Mutex.Act n)
  | [] => []
  | a :: as => match (machine canBlock).step s a with
    | none => []
    | some s' => (mutexAct s a s').toList ++ mutexTrace s' as

/-- One step of callers that keep the contract is, through the holder, the mutex action it is
read as. -/
theorem mutexAct_run (hI : Inv s) (hA : Allowed s a) (h : step canBlock s a = some s') :
    (Mutex.system n).run s.holder (mutexAct s a s').toList = some s'.holder := by
  have hs := holder_step canBlock hI hA h
  unfold mutexAct
  split_ifs with he h0
  · simp [he]
  · rcases hs with hs | hs | hs
    · exact absurd hs he
    · exact (Option.bind_eq_some.2 ⟨_, hs, rfl⟩)
    · simp [h0, Mutex.step] at hs
  · rcases hs with hs | hs | hs
    · exact absurd hs he
    · obtain ⟨j, hj⟩ := Option.ne_none_iff_exists'.1 h0
      simp [hj, Mutex.step] at hs
    · exact (Option.bind_eq_some.2 ⟨_, hs, rfl⟩)

/-- Along a run of callers that keep the contract, the mutex trace is a run of the mutex from
the first holder to the last. -/
theorem holder_run {as : List (Act n)} (hI : Inv s) (h : (machine canBlock).run s as = some s') :
    (Mutex.system n).run s.holder (mutexTrace canBlock s as) = some s'.holder := by
  induction as generalizing s with
  | nil => cases h; rfl
  | cons a as ih =>
    obtain ⟨t, ht, hr⟩ := Option.bind_eq_some.1 h
    obtain ⟨hA, hst⟩ := machine_step canBlock ht
    simp only [mutexTrace, ht, System.run_append, mutexAct_run canBlock hI hA hst, Option.some_bind]
    exact ih (inv_step canBlock hI hA hst) hr

/-- **The lock is a mutex.** Along every run of callers that keep the contract, whichever agents
can suspend: at most one agent owns the token, the holder is that owner, and the cell is `1`
exactly when nobody holds it; and the mutex actions read off the run, one for each step that
changes the holder and made by the agent that steps, form a run of the one-token mutex from a
free token to the final holder, in which the token is taken only while free and given back
only by its holder. -/
theorem refines_mutex {as : List (Act n)} (h : (machine canBlock).run (State.init n) as = some s) :
    (∀ i j, (s.agents i).Owns → (s.agents j).Owns → i = j) ∧
      (∀ i, s.holder = some i ↔ (s.agents i).Owns) ∧
      s.cell = (if s.holder = none then 1 else 0) ∧
      (Mutex.system n).run none (mutexTrace canBlock (State.init n) as) = some s.holder := by
  have hI : Inv s := (inv_machine canBlock).run inv_init h
  have h0 : (State.init n).holder = none :=
    holder_eq_none.2 fun _ => by simp [State.init, Agent.Owns, Agent.InCS]
  refine ⟨fun i j => hI.exclusive.unique, fun i => holder_eq_some hI.exclusive, ?_,
    h0 ▸ holder_run canBlock inv_init h⟩
  rcases hI.exclusive with ⟨hc, hno⟩ | ⟨hc, i, hi, -⟩
  · simp [hc, holder_eq_none.2 hno]
  · simp [hc, (holder_eq_some hI.exclusive).2 hi]

/-- Agent `0` takes the lock and releases it, then agent `1` takes it: the run reads as the
mutex actions take, give and take, and agent `1` holds the token. -/
theorem mutex_handover :
    ∃ s, (machine (n := 2) fun _ => true).run (State.init 2) [.acquire 0, .next 0, .next 0,
        .release 0, .next 0, .next 0, .next 0, .acquire 1, .next 1, .next 1] = some s ∧
      s.holder = some 1 ∧
      mutexTrace (fun _ => true) (State.init 2) [.acquire 0, .next 0, .next 0, .release 0, .next 0,
        .next 0, .next 0, .acquire 1, .next 1, .next 1] = [.take 0, .give 0, .take 1] ∧
      (∀ i j, (s.agents i).Owns → (s.agents j).Owns → i = j) ∧
      (∀ i, s.holder = some i ↔ (s.agents i).Owns) ∧
      s.cell = (if s.holder = none then 1 else 0) ∧
      (Mutex.system 2).run none (mutexTrace (fun _ => true) (State.init 2) [.acquire 0, .next 0,
        .next 0, .release 0, .next 0, .next 0, .next 0, .acquire 1, .next 1, .next 1]) =
        some s.holder :=
  ⟨_, rfl, rfl, rfl, refines_mutex (fun _ => true) rfl⟩

end Lock

end WasiKit
