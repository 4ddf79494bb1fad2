/-
# Agents over shared cells

`Lock` and `Signal` are objects of several agents over one 32-bit cell of the
shared buffer, driven by `Atomics.load`, `compareExchange`, `add`, `store`,
`wait` and `notify`. Each is modelled as a step function on the state of all
agents, one step per atomic operation or agent-local statement, and the
scheduler picks any interleaving. This module says once what a run and a
reachable state of such a system are, and that a property kept by every step
holds in every reachable state; and it models the waiter list behind
`Atomics.wait` / `Atomics.notify`, which wakes waiters in the order they
went to sleep.

Key definitions: `System`, `System.run`, `System.Reachable`, `Atomics.notify`.
Key theorems: `System.Invariant.reachable`, `System.run_append`.
-/
import WasiKit.Memory

namespace WasiKit

/-- A transition system: an initial state and a partial step per action (`none`: the
action is not enabled). -/
structure System (σ α : Type) where
  init : σ
  step : σ → α → Option σ

namespace System

variable {σ α : Type} (S : System σ α)

/-- The actions `as`, one after the other, from `s`. -/
def run (s : σ) (as : List α) : Option σ := as.foldlM S.step s

@[simp] theorem run_nil (s : σ) : S.run s [] = some s := rfl

theorem run_cons (s : σ) (a : α) (as : List α) :
    S.run s (a :: as) = (S.step s a).bind (S.run · as) := rfl

theorem run_append (s : σ) (as bs : List α) :
    S.run s (as ++ bs) = (S.run s as).bind (S.run · bs) := by
  induction as generalizing s with
  | nil => rfl
  | cons a as ih =>
    simp only [List.cons_append, run_cons, ih]
    cases S.step s a <;> rfl

/-- A state some run from the initial state ends in. -/
def Reachable (s : σ) : Prop := ∃ as, S.run S.init as = some s

theorem Reachable.init : S.Reachable S.init := ⟨[], rfl⟩

theorem Reachable.step {S : System σ α} {s s' : σ} {a : α} (h : S.Reachable s)
    (hs : S.step s a = some s') : S.Reachable s' := by
  obtain ⟨as, hr⟩ := h
  exact ⟨as ++ [a], by simp [run_append, hr, run_cons, hs]⟩

/-- A property of the initial state that every step keeps. -/
structure Invariant (P : σ → Prop) : Prop where
  init : P S.init
  step : ∀ {s s' : σ} {a : α}, P s → S.step s a = some s' → P s'

variable {S} {P : σ → Prop}

/-- A property that every step keeps holds at the end of a run from a state that has it. -/
theorem run_keeps (h : ∀ {s s' : σ} {a : α}, P s → S.step s a = some s' → P s') {s s' : σ}
    {as : List α} (hs : P s) (hr : S.run s as = some s') : P s' := by
  induction as generalizing s with
  | nil => cases hr; exact hs
  | cons a as ih =>
    rw [run_cons] at hr
    obtain ⟨t, ht, hr⟩ := Option.bind_eq_some.1 hr
    exact ih (h hs ht) hr

theorem Invariant.run (h : S.Invariant P) {s s' : σ} {as : List α} (hs : P s)
    (hr : S.run s as = some s') : P s' :=
  run_keeps h.step hs hr

/-- **An invariant holds in every reachable state.** -/
theorem Invariant.reachable (h : S.Invariant P) {s : σ} (hs : S.Reachable s) : P s :=
  let ⟨_, hr⟩ := hs
  h.run h.init hr

end System

/-- `Atomics.notify(cell, 0, count)` on the cell's waiter list: the first `count` waiters
(all of them for an `undefined` count) are woken, in the order they went to sleep; the
rest keep waiting. -/
def Atomics.notify {α : Type} (waiters : List α) : Option Nat → List α × List α
  | none => (waiters, [])
  | some count => (waiters.take count, waiters.drop count)

theorem Atomics.notify_append {α : Type} (waiters : List α) (count : Option Nat) :
    (Atomics.notify waiters count).1 ++ (Atomics.notify waiters count).2 = waiters := by
  cases count <;> simp [Atomics.notify]

end WasiKit
