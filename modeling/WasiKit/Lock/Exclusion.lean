/-
# Mutual exclusion

An agent *owns* the cell's token from its successful `compareExchange` to
its `Atomics.add`. The invariant `Lock.Inv`: the cell holds `1` and nobody
owns the token, or `0` and exactly one agent does; an agent in `acquire`'s
loop has `lockCount = 0`; the waiter list has no repeats and holds only
sleeping agents; a callback's unwritten read is the counter, and its agent is
in the critical section; the counter is the sum of the finished increments.
Each step keeps it (one lemma per action), so every run of callers that keep
the contract does (`Lock.exclusion`).

Key definitions: `Lock.Agent.Owns`, `Lock.Exclusive`, `Lock.Inv`.
Key theorems: `Lock.inv_next`, `Lock.inv_machine`, `Lock.exclusion`.
-/
import WasiKit.Lock.Machine

namespace WasiKit
namespace Lock

variable {n : Nat}

/-- The agent holds the token it took from the cell: it is in its critical section, or
at the `Atomics.add` of its `release`. -/
def Agent.Owns (a : Agent) : Prop := a.InCS ∨ a.pc = .add

/-- The agent is in the loop of `acquire`. -/
def Pc.Looping : Pc → Prop
  | .load | .cas _ | .wait _ | .asleep | .woken => True
  | .idle | .add | .notify | .reset => False

/-- The cell counts the free tokens: `1` and no owner, or `0` and exactly one. -/
def Exclusive (cell : BitVec 32) (owns : Fin n → Prop) : Prop :=
  (cell = 1 ∧ ∀ j, ¬ owns j) ∨ (cell = 0 ∧ ∃ i, owns i ∧ ∀ j, owns j → j = i)

/-! ### The token -/

section Exclusive

variable {c : BitVec 32} {O O' : Fin n → Prop} {i j : Fin n}

theorem Exclusive.unique (h : Exclusive c O) (hi : O i) (hj : O j) : i = j := by
  rcases h with ⟨-, h⟩ | ⟨-, k, -, h⟩
  · exact absurd hi (h i)
  · rw [h i hi, h j hj]

theorem Exclusive.eq_zero (h : Exclusive c O) (hi : O i) : c = 0 := by
  rcases h with ⟨-, h⟩ | ⟨h, -⟩
  · exact absurd hi (h i)
  · exact h

theorem Exclusive.zero_or_one (h : Exclusive c O) : c = 0 ∨ c = 1 := by
  rcases h with ⟨h, -⟩ | ⟨h, -⟩ <;> simp [h]

theorem Exclusive.congr (h : Exclusive c O) (hO : ∀ j, O' j ↔ O j) : Exclusive c O' := by
  rwa [show O' = O from funext fun j => propext (hO j)]

/-- A successful `compareExchange` of a positive value takes the token. -/
theorem Exclusive.take (h : Exclusive c O) (hc : 0 < c.toInt) (hO : ∀ j, O' j ↔ j = i ∨ O j) :
    Exclusive (c - 1) O' := by
  rcases h with ⟨rfl, h⟩ | ⟨rfl, -⟩
  · exact .inr ⟨rfl, i, (hO i).2 (.inl rfl), fun j hj => ((hO j).1 hj).resolve_right (h j)⟩
  · exact absurd hc (by decide)

/-- The owner's `Atomics.add` gives the token back. -/
theorem Exclusive.give (h : Exclusive c O) (hi : O i) (hO : ∀ j, O' j ↔ j ≠ i ∧ O j) :
    Exclusive (c + 1) O' := by
  rw [h.eq_zero hi]
  exact .inl ⟨rfl, fun j hj => ((hO j).1 hj).1 (h.unique hi ((hO j).1 hj).2).symm⟩

end Exclusive

/-! ### The invariant -/

/-- What holds in every reachable state of the lock with callers that keep the contract. -/
structure Inv (s : State n) : Prop where
  exclusive : Exclusive s.cell fun j => (s.agents j).Owns
  looping : ∀ j, (s.agents j).pc.Looping → (s.agents j).lockCount = 0
  waiters : ∀ j ∈ s.waiters, (s.agents j).pc = .asleep
  nodup : s.waiters.Nodup
  reads : ∀ j v, (s.agents j).read = some v → (s.agents j).InCS ∧ v = s.data
  counter : s.data = ∑ j, (s.agents j).done

theorem inv_init : Inv (State.init n) where
  exclusive := .inl ⟨rfl, fun _ h => by simp [State.init, Agent.Owns, Agent.InCS] at h⟩
  looping _ h := by simp [State.init, Pc.Looping] at h
  waiters _ h := by simp [State.init] at h
  nodup := List.nodup_nil
  reads _ _ h := by simp [State.init] at h
  counter := by simp [State.init]

variable {s s' : State n} {i : Fin n} {a : Agent}

theorem Inv.not_waiting (hI : Inv s) (h : (s.agents i).pc ≠ .asleep) : i ∉ s.waiters :=
  fun hw => h (hI.waiters i hw)

theorem Inv.read_none (hI : Inv s) (h : ¬ (s.agents i).InCS) : (s.agents i).read = none :=
  Option.eq_none_iff_forall_not_mem.2 fun v hv => h (hI.reads i v hv).1

theorem sum_done_set (s : State n) (i : Fin n) (a : Agent) :
    ∑ j, ((s.set i a).agents j).done + (s.agents i).done = ∑ j, (s.agents j).done + a.done := by
  have h1 := Finset.sum_update_of_mem (Finset.mem_univ i) (fun j => (s.agents j).done) a.done
  have h2 := Finset.sum_eq_add_sum_diff_singleton (Finset.mem_univ i) (fun j => (s.agents j).done)
  simp only [State.set, Function.apply_update (fun _ (b : Agent) => b.done)]
  omega

theorem exclusive_set {c : BitVec 32} (h : Exclusive c fun j => (s.agents j).Owns)
    (hO : a.Owns ↔ (s.agents i).Owns) : Exclusive c fun j => ((s.set i a).agents j).Owns :=
  h.congr fun j => by rw [set_agents]; split <;> simp_all

/-- A step of agent `i` alone that keeps the waiter list and the counter. -/
theorem Inv.set {c : BitVec 32} (hI : Inv s) (hE : Exclusive c fun j => ((s.set i a).agents j).Owns)
    (hL : a.pc.Looping → a.lockCount = 0) (hW : i ∉ s.waiters)
    (hR : ∀ v, a.read = some v → a.InCS ∧ v = s.data) (hD : a.done = (s.agents i).done) :
    Inv { s.set i a with cell := c } where
  exclusive := hE
  looping j := by rw [set_agents]; split <;> simp_all [hI.looping j]
  waiters j hj := by
    rw [set_agents, if_neg (by rintro rfl; exact hW hj)]
    exact hI.waiters j hj
  nodup := hI.nodup
  reads j v := by
    rw [set_agents]
    split
    · subst j; exact hR v
    · exact hI.reads j v
  counter := by
    show s.data = ∑ j, ((s.set i a).agents j).done
    have := sum_done_set s i a
    have := hI.counter
    omega

/-- A step of agent `i` alone that keeps the cell, the waiter list and the counter, and
whether the agent is in its critical section and owns the token. -/
theorem Inv.move (hI : Inv s) (hO : a.Owns ↔ (s.agents i).Owns) (hC : a.InCS ↔ (s.agents i).InCS)
    (hL : a.pc.Looping → a.lockCount = 0) (hW : (s.agents i).pc ≠ .asleep)
    (hR : a.read = (s.agents i).read) (hD : a.done = (s.agents i).done) : Inv (s.set i a) :=
  hI.set (c := s.cell) (exclusive_set hI.exclusive hO) hL (hI.not_waiting hW)
    (fun v hv => by rw [hR] at hv; exact ⟨hC.2 (hI.reads i v hv).1, (hI.reads i v hv).2⟩) hD

/-- A step of agent `i` in the loop of `acquire`, to another place of it or out by an
exception: with its `lockCount` at zero it neither holds the token nor is in its critical
section, before or after. -/
theorem Inv.loop {q : Pc} (hI : Inv s) (hp : (s.agents i).pc.Looping)
    (hw : (s.agents i).pc ≠ .asleep) (hq : q ≠ .add) : Inv (s.set i { s.agents i with pc := q }) := by
  have h0 := hI.looping i hp
  have hpc : (s.agents i).pc ≠ .idle ∧ (s.agents i).pc ≠ .add := by
    revert hp; cases (s.agents i).pc <;> simp [Pc.Looping]
  exact hI.move (by simp [Agent.Owns, Agent.InCS, h0, hq, hpc]) (by simp [Agent.InCS, h0, hpc])
    (fun _ => h0) hw rfl rfl

/-! ### Each action keeps the invariant -/

theorem inv_acquire (hI : Inv s) (h : acquire s i = some s') : Inv s' := by
  simp only [acquire] at h
  split_ifs at h with hp hc <;> cases h <;> simp only [ne_eq, not_not] at hp
  · exact hI.move (by simp [Agent.Owns, Agent.InCS, hp, hc]) (by simp [Agent.InCS, hp, hc])
      (by simp [hp, Pc.Looping]) (by simp [hp]) rfl rfl
  · exact hI.move (by simp [Agent.Owns, Agent.InCS, hp, hc]) (by simp [Agent.InCS, hp, hc])
      (fun _ => by simpa using hc) (by simp [hp]) rfl rfl

/-- With the contract, `release` starts only from the critical section, and the outermost
only once the callback's read is written back. -/
theorem inv_release (hI : Inv s) (hA : Allowed s (.release i)) (h : release s i = some s') :
    Inv s' := by
  obtain ⟨hpos, hread⟩ := hA
  simp only [release] at h
  split_ifs at h with hp hc <;> cases h <;> simp only [ne_eq, not_not] at hp
  · exact hI.move (by simp [Agent.Owns, Agent.InCS, hp]; omega) (by simp [Agent.InCS, hp]; omega)
      (by simp [hp, Pc.Looping]) (by simp [hp]) rfl rfl
  · have h1 : (s.agents i).lockCount = 1 := by omega
    refine hI.set (c := s.cell) (exclusive_set hI.exclusive (by simp [Agent.Owns, Agent.InCS, hp, hpos]))
      (by simp [Pc.Looping]) (hI.not_waiting (by simp [hp])) (fun v hv => ?_) rfl
    simp [hread h1] at hv

theorem inv_read (hI : Inv s) (h : read s i = some s') : Inv s' := by
  simp only [read] at h
  split_ifs at h with hc
  cases h
  exact hI.set (c := s.cell) (exclusive_set hI.exclusive Iff.rfl) (hI.looping i)
    (hI.not_waiting (by simp [hc.1])) (by simpa using hc) rfl

theorem inv_write (hI : Inv s) (h : write s i = some s') : Inv s' := by
  simp only [write] at h
  split at h
  · rename_i v hv
    split_ifs at h with hc
    cases h
    have hE := exclusive_set (a := { s.agents i with read := none, done := (s.agents i).done + 1 })
      hI.exclusive Iff.rfl
    refine ⟨hE, fun j => ?_, fun j hj => ?_, hI.nodup, fun j w hw => ?_, ?_⟩
    · rw [set_agents]
      split
      · subst j; exact hI.looping _
      · exact hI.looping j
    · rw [set_agents, if_neg fun hji => by subst hji; simp [hI.waiters _ hj, Agent.InCS] at hc]
      exact hI.waiters j hj
    · rw [set_agents] at hw ⊢
      split at hw
      · simp at hw
      · rename_i hji
        exact absurd (hE.unique (Or.inl (by rw [set_agents, if_neg hji]; exact (hI.reads j w hw).1))
          (Or.inl (by simpa using hc))) hji
    · have hs := sum_done_set s i { s.agents i with read := none, done := (s.agents i).done + 1 }
      have := hI.counter
      have := (hI.reads i v hv).2
      dsimp only at hs ⊢
      omega
  · cases h

theorem wake_agents (s : State n) (ws : List (Fin n)) (j : Fin n) :
    (s.wake ws).agents j = if j ∈ ws then { s.agents j with pc := .woken } else s.agents j := rfl

/-- `Atomics.notify(cell, count)` wakes the first waiters, who then hold no token. -/
theorem Inv.notify (hI : Inv s) (count : Option Nat) :
    Inv { s.wake (Atomics.notify s.waiters count).1 with
      waiters := (Atomics.notify s.waiters count).2 } := by
  have happ := Atomics.notify_append s.waiters count
  have hnd := hI.nodup
  rw [← happ] at hnd
  have hw : ∀ j ∈ (Atomics.notify s.waiters count).1, (s.agents j).pc = .asleep := fun j hj =>
    hI.waiters j (happ ▸ List.mem_append_left _ hj)
  refine ⟨hI.exclusive.congr fun j => ?_, fun j => ?_, fun j hj => ?_,
    (List.nodup_append.1 hnd).2.1, fun j v => ?_, ?_⟩ <;> simp only [wake_agents]
  · split <;> simp_all [Agent.Owns, Agent.InCS]
  · split
    · exact fun _ => hI.looping j (by simp [hw j ‹_›, Pc.Looping])
    · exact hI.looping j
  · rw [if_neg fun h' => List.disjoint_of_nodup_append hnd h' hj]
    exact hI.waiters j (happ ▸ List.mem_append_right _ hj)
  · split
    · intro hv; have := (hI.reads j v hv).1.1; simp_all
    · exact hI.reads j v
  · rw [wake_data, hI.counter]
    exact Finset.sum_congr rfl fun j _ => by split <;> rfl

/-- A sleeper joins the end of the waiter list. -/
theorem Inv.enqueue (hI : Inv s) (hi : (s.agents i).pc = .asleep) (hn : i ∉ s.waiters) :
    Inv { s with waiters := s.waiters ++ [i] } :=
  { hI with
    waiters := fun j hj => (List.mem_append.1 hj).elim (hI.waiters j) fun h => by
      rw [List.mem_singleton.1 h]; exact hi
    nodup := List.nodup_append.2 ⟨hI.nodup, List.nodup_singleton i, fun _ h h' => by
      rw [List.mem_singleton.1 h'] at h; exact hn h⟩ }

variable (canBlock : Fin n → Bool)

/-- **Every atomic step of `acquire` and `release` keeps the invariant.** -/
theorem inv_next (hI : Inv s) {e : Option Error} (h : next canBlock s i = some (s', e)) :
    Inv s' := by
  have hrd : ¬ (s.agents i).InCS → (s.agents i).read = none := hI.read_none
  cases hpc : (s.agents i).pc with
  | idle => simp [next_idle canBlock hpc] at h
  | asleep => simp [next_asleep canBlock hpc] at h
  | load =>
    cases (next_load canBlock hpc).symm.trans h
    exact hI.loop (by simp [hpc, Pc.Looping]) (by simp [hpc]) (by simp)
  | cas v =>
    rw [next_cas canBlock hpc] at h
    split_ifs at h with hv <;> cases h
    · have hE : Exclusive (v - 1) fun j =>
          ((s.set i { s.agents i with pc := .idle, lockCount := 1 }).agents j).Owns :=
        (hv.2 ▸ hI.exclusive).take (i := i) hv.1 fun j => by
          rw [set_agents]; split <;> simp_all [Agent.Owns, Agent.InCS]
      exact hI.set hE (by simp [Pc.Looping]) (hI.not_waiting (by simp [hpc]))
        (fun w hw => by simp [hrd (by simp [Agent.InCS, hpc])] at hw) rfl
    · exact hI.loop (by simp [hpc, Pc.Looping]) (by simp [hpc]) (by simp)
  | wait v =>
    have hl : (s.agents i).pc.Looping := by simp [hpc, Pc.Looping]
    rw [next_wait canBlock hpc] at h
    split_ifs at h <;> cases h
    · exact hI.loop hl (by simp [hpc]) (by simp)
    · exact hI.loop hl (by simp [hpc]) (by simp)
    · exact (hI.loop hl (by simp [hpc]) (by simp)).enqueue (by simp) (hI.not_waiting (by simp [hpc]))
  | woken =>
    cases (next_woken canBlock hpc).symm.trans h
    exact hI.loop (by simp [hpc, Pc.Looping]) (by simp [hpc]) (by simp)
  | add =>
    cases (next_add canBlock hpc).symm.trans h
    refine hI.set (hI.exclusive.give (i := i) (.inr hpc) fun j => ?_) (by simp [Pc.Looping])
      (hI.not_waiting (by simp [hpc])) (fun w hw => ?_) rfl
    · rw [set_agents]; split <;> simp_all [Agent.Owns, Agent.InCS]
    · simp [hrd (by simp [Agent.InCS, hpc])] at hw
  | notify =>
    simp only [next, nextAt, hpc, Option.some.injEq, Prod.mk.injEq] at h
    obtain ⟨rfl, -⟩ := h
    have hn := hI.notify (some 1)
    have hi : i ∉ (Atomics.notify s.waiters (some 1)).1 := fun hw =>
      absurd (hI.waiters i (Atomics.notify_append s.waiters (some 1) ▸ List.mem_append_left _ hw))
        (by simp [hpc])
    have ha : (s.wake (Atomics.notify s.waiters (some 1)).1).agents i = s.agents i := by
      simp [wake_agents, hi]
    exact hn.move (i := i) (a := { s.agents i with pc := .reset })
      (by simp [ha, Agent.Owns, Agent.InCS, hpc]) (by simp [ha, Agent.InCS, hpc])
      (by simp [Pc.Looping]) (by simp [ha, hpc]) (by simp [ha]) (by simp [ha])
  | reset =>
    cases (next_reset canBlock hpc).symm.trans h
    exact hI.move (by simp [Agent.Owns, Agent.InCS, hpc]) (by simp [Agent.InCS, hpc])
      (by simp [Pc.Looping]) (by simp [hpc]) rfl rfl

theorem inv_step {a : Act n} (hI : Inv s) (hA : Allowed s a) (h : step canBlock s a = some s') :
    Inv s' := by
  cases a with
  | acquire i => exact inv_acquire hI h
  | release i => exact inv_release hI hA h
  | next i =>
    obtain ⟨⟨t, e⟩, ht, rfl⟩ := Option.map_eq_some'.1 h
    exact inv_next canBlock hI ht
  | read i => exact inv_read hI h
  | write i => exact inv_write hI h

theorem inv_machine : (machine canBlock).Invariant Inv where
  init := inv_init
  step hI h := (inv_step canBlock hI · ·) (machine_step canBlock h).1 (machine_step canBlock h).2

/-! ### Mutual exclusion -/

/-- **Mutual exclusion.** In every state that callers keeping the contract reach, whichever
agents can suspend: at most one agent is in its critical section; the cell holds `0` or `1`,
and `0` while an agent is in its critical section; a callback's unwritten read is the
counter's value, so read-modify-write sequences of different agents never interleave, and
the counter holds the number of increments made. A nested `acquire` or `release` only moves
the agent's own `lockCount`. -/
theorem exclusion {s : State n} (hs : (machine canBlock).Reachable s) :
    (∀ i j, (s.agents i).InCS → (s.agents j).InCS → i = j) ∧
      (s.cell = 0 ∨ s.cell = 1) ∧
      (∀ i, (s.agents i).InCS → s.cell = 0) ∧
      (∀ i v, (s.agents i).read = some v → (s.agents i).InCS ∧ v = s.data) ∧
      s.data = ∑ i, (s.agents i).done ∧
      (∀ i, (s.agents i).InCS →
        step canBlock s (.acquire i) =
          some (s.set i { s.agents i with lockCount := (s.agents i).lockCount + 1 }) ∧
        (1 < (s.agents i).lockCount → step canBlock s (.release i) =
          some (s.set i { s.agents i with lockCount := (s.agents i).lockCount - 1 }))) := by
  have hI := (inv_machine canBlock).reachable hs
  refine ⟨fun i j hi hj => hI.exclusive.unique (.inl hi) (.inl hj), hI.exclusive.zero_or_one,
    fun i hi => hI.exclusive.eq_zero (.inl hi), hI.reads, hI.counter, fun i hi => ?_⟩
  exact ⟨by simp [step, acquire, hi.1, hi.2], fun h => by simp [step, release, hi.1, h]⟩

/-- Two agents that can suspend, after agent `0`'s `acquire` has returned: the cell is `0`. -/
theorem exclusion_after_acquire :
    ∃ s, (machine (n := 2) fun _ => true).Reachable s ∧ (s.agents 0).InCS ∧ s.cell = 0 :=
  let hs : (machine (n := 2) fun _ => true).Reachable _ := ⟨[.acquire 0, .next 0, .next 0], rfl⟩
  ⟨_, hs, by decide, (exclusion _ hs).2.2.1 0 (by decide)⟩

end Lock
end WasiKit
