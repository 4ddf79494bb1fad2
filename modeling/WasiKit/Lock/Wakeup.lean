/-
# A lost wake-up

`acquire` calls `Atomics.wait(cell, value)` with the value it loaded, also
after its `compareExchange` failed. When the holder releases between that
failed exchange and the wait, the cell is back at `value`: the wait sleeps,
and the holder's `notify` has already found the waiter list empty. The
sleeper then waits on a free lock, and keeps sleeping until some other agent
calls `release` (`Lock.sleeps_until_release`), which that agent does only
after it has acquired the lock itself.

Key theorems: `Lock.sleeps_until_release`, `Lock.lost_wakeup`.
-/
import WasiKit.Lock.Exclusion

namespace WasiKit
namespace Lock

variable {n : Nat} (canBlock : Fin n → Bool) {s s' : State n} {i j : Fin n}

/-- The agent is in `release`, past its start. -/
def Pc.Releasing : Pc → Prop
  | .add | .notify | .reset => True
  | .idle | .load | .cas _ | .wait _ | .asleep | .woken => False

instance : DecidablePred Pc.Releasing
  | .add | .notify | .reset => isTrue trivial
  | .idle | .load | .cas _ | .wait _ | .asleep | .woken => isFalse id

/-- Out of `release`, an agent's step changes that agent only, and keeps it out of
`release`; a sleeping agent takes no step. -/
theorem next_quiet {e : Option Error} (hj : ¬ (s.agents j).pc.Releasing)
    (h : next canBlock s j = some (s', e)) :
    (s.agents j).pc ≠ .asleep ∧ ∃ a, s'.agents = Function.update s.agents j a ∧ ¬ a.pc.Releasing := by
  cases hpc : (s.agents j).pc <;> simp only [next, nextAt, hpc, Option.some.injEq, Prod.mk.injEq] at h <;>
    simp only [hpc, Pc.Releasing, not_true_eq_false] at hj
  case load | woken =>
    obtain ⟨rfl, -⟩ := h; exact ⟨by simp, _, rfl, by simp [Pc.Releasing]⟩
  case cas v =>
    split_ifs at h <;> obtain ⟨rfl, -⟩ := h <;> exact ⟨by simp, _, rfl, by simp [Pc.Releasing]⟩
  case wait v =>
    split_ifs at h <;> obtain ⟨rfl, -⟩ := h <;> exact ⟨by simp, _, rfl, by simp [Pc.Releasing]⟩
  all_goals cases h

/-- With nobody in `release`, a sleeper stays asleep through any step but a call of
`release`, and still nobody is in `release`. -/
theorem asleep_step {a : Act n} (hR : ∀ j, ¬ (s.agents j).pc.Releasing)
    (hi : (s.agents i).pc = .asleep) (ha : ∀ j, a ≠ .release j) (h : step canBlock s a = some s') :
    (s'.agents i).pc = .asleep ∧ ∀ j, ¬ (s'.agents j).pc.Releasing := by
  obtain ⟨j, hj, b, hs', hb⟩ : ∃ j, (s.agents j).pc ≠ .asleep ∧
      ∃ b, s'.agents = Function.update s.agents j b ∧ ¬ b.pc.Releasing := by
    cases a with
    | release j => exact absurd rfl (ha j)
    | next j =>
      obtain ⟨⟨t, e⟩, ht, rfl⟩ := Option.map_eq_some'.1 h
      exact ⟨j, next_quiet canBlock (hR j) ht⟩
    | acquire j =>
      simp only [step, acquire, ne_eq, ite_not] at h
      split_ifs at h with hp <;> cases h <;>
        exact ⟨j, by simp [hp], _, rfl, by simp [hp, Pc.Releasing]⟩
    | read j =>
      simp only [step, read] at h
      split_ifs at h with hc
      cases h
      exact ⟨j, by simp [hc.1], _, rfl, by simp [hc.1, Pc.Releasing]⟩
    | write j =>
      simp only [step, write] at h
      split at h
      · split_ifs at h with hc
        cases h
        exact ⟨j, by simp [hc.1], _, rfl, by simp [hc.1, Pc.Releasing]⟩
      · cases h
  have hij : i ≠ j := by rintro rfl; exact hj hi
  refine ⟨by rw [hs', Function.update_noteq hij, hi], fun k => ?_⟩
  rw [hs', Function.update_apply]
  split
  · exact hb
  · exact hR k

/-- **A sleeper wakes only after a `release`.** From a state where no agent is in `release`,
an agent asleep in `Atomics.wait` stays asleep along every run in which no agent calls
`release`. -/
theorem sleeps_until_release {as : List (Act n)} (hR : ∀ j, ¬ (s.agents j).pc.Releasing)
    (hi : (s.agents i).pc = .asleep) (ha : ∀ j, .release j ∉ as)
    (h : (code canBlock).run s as = some s') : (s'.agents i).pc = .asleep := by
  induction as generalizing s with
  | nil => cases h; exact hi
  | cons a as ih =>
    obtain ⟨t, ht, hr⟩ := Option.bind_eq_some.1 h
    have hnot : ∀ j, a ≠ .release j := fun j he => ha j (he ▸ List.mem_cons_self _ _)
    obtain ⟨hti, htR⟩ := asleep_step canBlock hR hi hnot ht
    exact ih htR hti (fun j hj => ha j (List.mem_cons_of_mem _ hj)) hr

/-- Where the lost wake-up below ends (agent `0` asleep on a free lock, agent `1` idle), agent
`1` takes the lock and keeps it: agent `0` sleeps on. -/
theorem sleeps_after_lost_wakeup :
    ∃ s', (code (n := 2) fun _ => true).run
        ⟨1, [0], 0, fun j => if j = 0 then ⟨.asleep, 0, none, 0⟩ else ⟨.idle, 0, none, 0⟩⟩
        [.acquire 1, .next 1, .next 1] = some s' ∧ (s'.agents 0).pc = .asleep :=
  ⟨_, rfl, @sleeps_until_release 2 (fun _ => true)
    ⟨1, [0], 0, fun j => if j = 0 then ⟨.asleep, 0, none, 0⟩ else ⟨.idle, 0, none, 0⟩⟩ _ 0
    [.acquire 1, .next 1, .next 1] (by decide) rfl (by decide) rfl⟩

/-- Two agents that can suspend: agent `0` loads `1`; agent `1` loads `1`, takes the lock,
and releases it while agent `0`'s `compareExchange` fails; agent `0` then waits for the
cell to leave `1` and sleeps, with the lock free and agent `1` idle. -/
theorem lost_wakeup :
    ∃ s, (machine (n := 2) fun _ => true).Reachable s ∧ (s.agents 0).pc = .asleep ∧ s.cell = 1 ∧
      (s.agents 1).pc = .idle ∧ (s.agents 1).lockCount = 0 :=
  ⟨_, ⟨[.acquire 0, .next 0, .acquire 1, .next 1, .next 1, .next 0, .release 1, .next 1, .next 1,
    .next 1, .next 0], rfl⟩, rfl, rfl, rfl, rfl⟩

end Lock
end WasiKit
