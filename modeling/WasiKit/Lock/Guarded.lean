/-
# Lock-guarded calls

The guarded operations bracket their code with `acquire` and `release` in two
shapes. `SharedObject.runLocked` and the `runLocked` of a `Synchronize`
wrapper call `acquire()` before their `try`, so a raising `acquire` skips the
`finally`. `Synchronize`'s `func` and its `Proxy` handlers call
`lock.acquire()` inside the `try`: their `finally` runs `lock.release()` also
when `acquire` raised, which is when `Atomics.wait` refuses to suspend the
agent.

Both shapes are written once over any monad with exceptions
(`lockedAfter`, `lockedWithin`) and run here on the lock machine with one
agent taking steps (`Alone`): a computation returns or raises, leaving a
state, or never ends. `runLocked` leaves every lock state as it found it
(`lockedAfter_balanced`); the `try`-inside shape releases a lock it never
got (`lockedWithin_releases_unheld`).

Key definitions: `withFinally`, `lockedAfter`, `lockedWithin`, `Lock.callAlone`.
Key theorems: `go_withFinally`, `Lock.lockedAfter_balanced`,
`Lock.lockedWithin_releases_unheld`.
-/
import WasiKit.Lock.Machine

namespace WasiKit

section Shapes

variable {M : Type → Type} [Monad M] [MonadExcept Error M] {α : Type}

/-- `try { body } finally { fin }`: `fin` runs whether `body` returns or raises; then
`body`'s result is returned or its exception rethrown, unless `fin` raised. -/
def withFinally (body : M α) (fin : M Unit) : M α := do
  let r ← tryCatch (Except.ok <$> body) fun e => pure (Except.error e)
  fin
  match r with
  | .ok a => pure a
  | .error e => throw e

/-- `acquire(); try { return body; } finally { release(); }`: `runLocked`. -/
def lockedAfter (acquire release : M Unit) (body : M α) : M α := do
  acquire
  withFinally body release

/-- `try { acquire(); return body; } finally { release(); }`: `func` and the locked branches
of the `Proxy` handlers. -/
def lockedWithin (acquire release : M Unit) (body : M α) : M α :=
  withFinally (do acquire; body) release

end Shapes

/-! ### One agent alone -/

/-- A computation of one agent while no other takes a step: it returns or raises and leaves
a state, or (`none`) never ends. -/
abbrev Alone (σ : Type) := ExceptT Error (StateT σ Option)

namespace Alone

variable {σ α β : Type}

/-- Run from a state. -/
def go (x : Alone σ α) (s : σ) : Option (Except Error α × σ) := x.run.run s

/-- Go on with `f` after a return; pass an exception on. -/
def cont (f : α → σ → Option (Except Error β × σ)) : Except Error α × σ → Option (Except Error β × σ)
  | (.ok a, t) => f a t
  | (.error e, t) => some (.error e, t)

@[simp] theorem go_pure (a : α) (s : σ) : go (pure a : Alone σ α) s = some (.ok a, s) := rfl

@[simp] theorem go_throw (e : Error) (s : σ) : go (throw e : Alone σ α) s = some (.error e, s) := rfl

@[simp] theorem go_modify (f : σ → σ) (s : σ) : go (modify f : Alone σ Unit) s = some (.ok (), f s) :=
  rfl

@[simp] theorem go_get (s : σ) : go (get : Alone σ σ) s = some (.ok s, s) := rfl

@[simp] theorem go_set (s t : σ) : go (set t : Alone σ Unit) s = some (.ok (), t) := rfl

@[simp] theorem go_mk (f : σ → Option (Except Error α × σ)) (s : σ) :
    go (ExceptT.mk f : Alone σ α) s = f s := rfl

@[simp] theorem cont_ok (f : α → σ → Option (Except Error β × σ)) (a : α) (t : σ) :
    cont f (.ok a, t) = f a t := rfl

@[simp] theorem cont_error (f : α → σ → Option (Except Error β × σ)) (e : Error) (t : σ) :
    cont f (.error e, t) = some (.error e, t) := rfl

theorem go_bind (x : Alone σ α) (f : α → Alone σ β) (s : σ) :
    go (x >>= f) s = (go x s).bind (cont fun a => go (f a)) := by
  simp only [go, ExceptT.run_bind, StateT.run_bind]
  congr; funext p; rcases p with ⟨r | r, t⟩ <;> rfl

theorem go_tryCatch (x : Alone σ α) (h : Error → Alone σ α) (s : σ) :
    go (tryCatch x h) s = (go x s).bind fun p => match p with
      | (.ok a, t) => some (.ok a, t)
      | (.error e, t) => go (h e) t := by
  simp only [go]
  rw [show tryCatch x h = ExceptT.tryCatch x h from rfl]
  simp only [ExceptT.tryCatch, ExceptT.run_mk, StateT.run_bind]
  congr; funext p; rcases p with ⟨r | r, t⟩ <;> rfl

theorem go_map (f : α → β) (x : Alone σ α) (s : σ) :
    go (f <$> x) s = (go x s).map fun p => (p.1.map f, p.2) := by
  simp only [go, ExceptT.run_map, StateT.run_map]
  rfl

end Alone

open Alone in
/-- **`try`/`finally`, run.** The body's outcome stands unless the `finally` raises. -/
theorem go_withFinally {σ α : Type} (body : Alone σ α) (fin : Alone σ Unit) (s : σ) :
    go (withFinally body fin) s = (go body s).bind fun p =>
      (go fin p.2).bind (cont fun _ u => some (p.1, u)) := by
  rcases hb : go body s with _ | ⟨r | r, t⟩ <;>
    simp only [withFinally, go_bind, go_tryCatch, go_map, hb, Option.bind, Option.map, Except.map,
      cont_ok, go_pure]
  all_goals rcases go fin t with _ | ⟨r' | r', u⟩ <;> rfl

/-! ### `acquire` and `release` alone -/

namespace Lock

open Alone

variable {n : Nat} (canBlock : Fin n → Bool)

/-- Agent `i` runs its current call to its end while no other agent takes a step, with the
exception the call raised, if any; `none` when the agent falls asleep, nobody being left to
wake it. Alone, a call takes at most three steps. -/
def finish (s : State n) (i : Fin n) : Nat → Option (State n × Option Error)
  | 0 => if (s.agents i).pc = .idle then some (s, none) else none
  | fuel + 1 =>
    if (s.agents i).pc = .idle then some (s, none)
    else (next canBlock s i).bind fun p => if p.2.isSome then some p else finish p.1 i fuel

/-- Agent `i`'s call `call` (of `acquire` or `release`) with no other agent taking a step. -/
def callAlone (i : Fin n) (call : Act n) : Alone (State n) Unit := ExceptT.mk fun s =>
  (step canBlock s call).bind fun s => (finish canBlock s i 3).map fun p =>
    (match p.2 with | some e => .error e | none => .ok (), p.1)

variable {s : State n} {i : Fin n}

theorem finish_idle (h : (s.agents i).pc = .idle) (fuel : Nat) :
    finish canBlock s i fuel = some (s, none) := by
  cases fuel <;> simp [finish, h]

theorem finish_succ (h : (s.agents i).pc ≠ .idle) (fuel : Nat) :
    finish canBlock s i (fuel + 1) =
      (next canBlock s i).bind fun p => if p.2.isSome then some p else finish canBlock p.1 i fuel := by
  simp [finish, h]

/-- `acquire()` alone: nested it counts; a positive cell is taken; else `Atomics.wait` raises
on an agent that cannot suspend, and sleeps for ever on one that can. -/
theorem callAlone_acquire (hi : (s.agents i).pc = .idle) :
    go (callAlone canBlock i (.acquire i)) s =
      if 0 < (s.agents i).lockCount then
        some (.ok (), s.set i { s.agents i with lockCount := (s.agents i).lockCount + 1 })
      else if 0 < s.cell.toInt then
        some (.ok (), { s.set i { s.agents i with lockCount := 1 } with cell := s.cell - 1 })
      else if canBlock i then none
      else some (.error .typeError, s) := by
  by_cases hc : 0 < (s.agents i).lockCount
  · simp [callAlone, step, acquire, hi, hc, finish_idle]
  by_cases hv : 0 < s.cell.toInt
  · simp [callAlone, step, acquire, hi, hc, hv, finish_succ, finish_idle, next, nextAt]
  have ha : ({ s.agents i with pc := .idle } : Agent) = s.agents i := by rw [← hi]
  by_cases hb : canBlock i <;>
    simp [callAlone, step, acquire, hi, hc, hv, hb, finish_succ, finish.eq_1, next, nextAt, ha]

/-- A nested `release()` alone counts down. -/
theorem callAlone_release_nested (hi : (s.agents i).pc = .idle) (hc : 1 < (s.agents i).lockCount) :
    go (callAlone canBlock i (.release i)) s =
      some (.ok (), s.set i { s.agents i with lockCount := (s.agents i).lockCount - 1 }) := by
  simp [callAlone, step, release, hi, hc, finish_idle]

/-- The outermost `release()` alone gives the cell one back and leaves the agent idle with
`lockCount = 0`. -/
theorem callAlone_release_outer (hi : (s.agents i).pc = .idle) (hc : (s.agents i).lockCount ≤ 1) :
    ∃ t, go (callAlone canBlock i (.release i)) s = some (.ok (), t) ∧ t.cell = s.cell + 1 ∧
      (t.agents i).pc = .idle ∧ (t.agents i).lockCount = 0 := by
  simp [callAlone, step, release, hi, Nat.not_lt.2 hc, finish_succ, finish_idle, next, nextAt,
    Atomics.notify]

/-- **`runLocked` is balanced.** Whatever the lock state, whether `acquire` returns or raises
and whether the callback returns or raises, `runLocked` of agent `i` alone leaves the cell and
the agent's `lockCount` as it found them (when `acquire` sleeps, it never ends). -/
theorem lockedAfter_balanced {α : Type} {s' : State n} {r x : Except Error α}
    (hi : (s.agents i).pc = .idle)
    (h : go (lockedAfter (callAlone canBlock i (.acquire i)) (callAlone canBlock i (.release i))
      (ExceptT.mk (pure r))) s = some (x, s')) :
    s'.cell = s.cell ∧ (s'.agents i).lockCount = (s.agents i).lockCount := by
  simp only [lockedAfter, go_bind, callAlone_acquire canBlock hi] at h
  split_ifs at h with hc hv hb
  · have hn := callAlone_release_nested canBlock (i := i)
      (s := s.set i { s.agents i with lockCount := (s.agents i).lockCount + 1 }) (by simpa using hi)
      (by rw [set_self]; exact Nat.succ_lt_succ hc)
    simp only [Option.bind, cont_ok, go_withFinally, go_mk, pure, StateT.pure, hn] at h
    cases h
    simp
  · obtain ⟨t, ht, htc, -, htl⟩ := callAlone_release_outer canBlock (i := i)
      (s := { s.set i { s.agents i with lockCount := 1 } with cell := s.cell - 1 }) (by simpa using hi)
      (by simp)
    simp only [Option.bind, cont_ok, go_withFinally, go_mk, pure, StateT.pure, ht, cont_ok] at h
    cases h
    simp only [set_cell] at htc
    simp [htc, htl, Nat.eq_zero_of_not_pos hc, BitVec.sub_add_cancel]
  · cases h
  · cases h
    exact ⟨rfl, rfl⟩

/-- One agent runs `runLocked` on a free lock. -/
theorem runLocked_free :
    ∃ s', go (lockedAfter (callAlone (n := 1) (fun _ => true) 0 (.acquire 0))
      (callAlone (fun _ => true) 0 (.release 0)) (ExceptT.mk (pure (.ok ())))) (State.init 1) =
        some (.ok (), s') ∧ s'.cell = (State.init 1).cell ∧
        (s'.agents 0).lockCount = ((State.init 1).agents 0).lockCount :=
  ⟨_, rfl, @lockedAfter_balanced 1 (fun _ => true) (State.init 1) 0 Unit _ (.ok ()) _ rfl rfl⟩

/-- Agent `0` holds the lock; agent `1`, which cannot suspend, goes through the `try`-inside
shape (a property read or write, or a method call, through a `Synchronize` wrapper): its
`acquire` raises `TypeError` out of `Atomics.wait`, and the `finally` releases the lock it
never got. The call raises, and the cell is `1` while agent `0` is still in its critical
section. -/
theorem lockedWithin_releases_unheld :
    ∃ s s', (machine (n := 2) fun i => decide (i = 0)).Reachable s ∧ (s.agents 0).InCS ∧
      s.cell = 0 ∧ (s.agents 1).lockCount = 0 ∧
      go (lockedWithin (callAlone (fun i => decide (i = 0)) 1 (.acquire 1))
        (callAlone (fun i => decide (i = 0)) 1 (.release 1)) (pure ())) s =
        some (.error .typeError, s') ∧
      s'.cell = 1 ∧ (s'.agents 0).InCS :=
  ⟨_, _, ⟨[.acquire 0, .next 0, .next 0], rfl⟩, by decide, rfl, rfl, rfl, rfl, by decide⟩

/-- After such a release, agent `1` takes the lock as well: with callers that release a lock
they do not hold, two agents are in their critical sections at once. -/
theorem unheld_release_breaks_exclusion :
    ∃ s, (code (n := 2) fun i => decide (i = 0)).Reachable s ∧ (s.agents 0).InCS ∧
      (s.agents 1).InCS :=
  ⟨_, ⟨[.acquire 0, .next 0, .next 0, .acquire 1, .next 1, .next 1, .next 1, .release 1, .next 1,
    .next 1, .next 1, .acquire 1, .next 1, .next 1], rfl⟩, by decide, by decide⟩

end Lock

end WasiKit
