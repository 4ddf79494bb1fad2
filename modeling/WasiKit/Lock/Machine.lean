/-
# `Lock` across agents

Every agent holds its own `Lock` object over one shared cell: its `lockCount`
is its own, the cell and the cell's waiter list are shared. `acquire` and
`release` are cut into their atomic steps: the loop of `acquire` loads the
cell, tries `compareExchange(cell, value, value - 1)` when the value is
positive, and otherwise calls `Atomics.wait(cell, value)`, which raises
`TypeError` on an agent that cannot suspend, returns at once when the cell no
longer holds `value`, and else sleeps until a `notify`; `release` is
`Atomics.add`, `Atomics.notify(cell, 1)` and the reset of `lockCount`. The
agent-local test `value > 0` and the store `lockCount = 1` go with the
`compareExchange` they guard, as no other agent can see them.

The callers are `runLocked` callbacks that increment a shared counter: they
read it and write what they read plus one, inside the critical section. A
ghost count of each agent's finished increments says what the counter should
hold. `Allowed` is the callers' side of the contract: `release` only with a
positive `lockCount`, the outermost one after the callback's increment.

Key definitions: `Lock.State`, `Lock.next`, `Lock.step`, `Lock.machine`, `Lock.code`.
-/
import WasiKit.Atomics

namespace WasiKit
namespace Lock

/-- Where an agent is: between calls (`idle`), in the loop of `acquire`, or in `release`. -/
inductive Pc where
  | idle
  /-- at `Atomics.load` -/
  | load
  /-- loaded `value`, at `value > 0 && compareExchange(cell, value, value - 1)` -/
  | cas (value : BitVec 32)
  /-- at `Atomics.wait(cell, value)` -/
  | wait (value : BitVec 32)
  /-- suspended in `Atomics.wait`, in the cell's waiter list -/
  | asleep
  /-- notified, about to return from `Atomics.wait` -/
  | woken
  /-- at `Atomics.add(cell, 1)` -/
  | add
  /-- at `Atomics.notify(cell, 1)` -/
  | notify
  /-- at `lockCount = 0` -/
  | reset
  deriving DecidableEq, Repr

/-- One agent: its place in a call, its `Lock`'s `lockCount`, and its callback's locals. -/
structure Agent where
  pc : Pc
  lockCount : Nat
  /-- what its callback read of the counter, not yet written back -/
  read : Option Nat
  /-- ghost: its callbacks' finished increments -/
  done : Nat
  deriving DecidableEq, Repr

/-- Inside the critical section: between the return of the outermost `acquire` and the
start of the matching `release`. -/
def Agent.InCS (a : Agent) : Prop := a.pc = .idle ∧ 0 < a.lockCount

instance : DecidablePred Agent.InCS := fun _ => inferInstanceAs (Decidable (_ ∧ _))

/-- All agents, the shared cell, its waiter list and the shared counter. -/
structure State (n : Nat) where
  cell : BitVec 32
  waiters : List (Fin n)
  data : Nat
  agents : Fin n → Agent

/-- After `new Lock(memory)` (or a load in `new` mode) has stored `1`, and each agent has
its `Lock` object with `lockCount = 0`. -/
def State.init (n : Nat) : State n := ⟨1, [], 0, fun _ => ⟨.idle, 0, none, 0⟩⟩

/-- What the scheduler lets an agent do: call `acquire` or `release`, take the next step
of the call it is in, or read or write the counter in its callback. -/
inductive Act (n : Nat) where
  | acquire (i : Fin n)
  | release (i : Fin n)
  | next (i : Fin n)
  | read (i : Fin n)
  | write (i : Fin n)
  deriving DecidableEq, Repr

variable {n : Nat}

/-- Agent `i` becomes `a`. -/
def State.set (s : State n) (i : Fin n) (a : Agent) : State n :=
  { s with agents := Function.update s.agents i a }

/-- The agents `woken` leave `Atomics.wait`'s sleep. -/
def State.wake (s : State n) (woken : List (Fin n)) : State n :=
  { s with agents := fun j => if j ∈ woken then { s.agents j with pc := .woken } else s.agents j }

section Frame

variable (s : State n) (i j : Fin n) (a : Agent) (ws : List (Fin n))

@[simp] theorem set_cell : (s.set i a).cell = s.cell := rfl
@[simp] theorem set_waiters : (s.set i a).waiters = s.waiters := rfl
@[simp] theorem set_data : (s.set i a).data = s.data := rfl
@[simp] theorem set_self : (s.set i a).agents i = a := Function.update_same _ _ _
theorem set_ne {i j : Fin n} (h : j ≠ i) : (s.set i a).agents j = s.agents j :=
  Function.update_noteq h _ _
@[simp] theorem wake_cell : (s.wake ws).cell = s.cell := rfl
@[simp] theorem wake_waiters : (s.wake ws).waiters = s.waiters := rfl
@[simp] theorem wake_data : (s.wake ws).data = s.data := rfl

@[simp] theorem set_set (b : Agent) : (s.set i a).set i b = s.set i b := by
  simp [State.set]

@[simp] theorem set_of_eq {a : Agent} (h : a = s.agents i) : s.set i a = s := by
  simp [State.set, h]

theorem set_agents : (s.set i a).agents j = if j = i then a else s.agents j := by
  by_cases h : j = i
  · subst h; simp
  · simp [h, set_ne _ _ h]

end Frame

/-- `acquire()`: a nested call counts and returns; else the loop starts. -/
def acquire (s : State n) (i : Fin n) : Option (State n) :=
  let a := s.agents i
  if a.pc ≠ .idle then none
  else if 0 < a.lockCount then some (s.set i { a with lockCount := a.lockCount + 1 })
  else some (s.set i { a with pc := .load })

/-- `release()`: a nested call counts down and returns; else the release starts. -/
def release (s : State n) (i : Fin n) : Option (State n) :=
  let a := s.agents i
  if a.pc ≠ .idle then none
  else if 1 < a.lockCount then some (s.set i { a with lockCount := a.lockCount - 1 })
  else some (s.set i { a with pc := .add })

variable (canBlock : Fin n → Bool)

/-- The next atomic step of agent `i`, whose record is `a`, at the place `pc` of its call, and
the exception it raises out of the call, if it does. -/
def nextAt (s : State n) (i : Fin n) (a : Agent) : Pc → Option (State n × Option Error)
  | .idle => none
  | .load => some (s.set i { a with pc := .cas s.cell }, none)
  | .cas value =>
    if 0 < value.toInt ∧ s.cell = value then
      some ({ s.set i { a with pc := .idle, lockCount := 1 } with cell := value - 1 }, none)
    else some (s.set i { a with pc := .wait value }, none)
  | .wait value =>
    if !canBlock i then some (s.set i { a with pc := .idle }, some .typeError)
    else if s.cell ≠ value then some (s.set i { a with pc := .load }, none)
    else some ({ s.set i { a with pc := .asleep } with waiters := s.waiters ++ [i] }, none)
  | .asleep => none
  | .woken => some (s.set i { a with pc := .load }, none)
  | .add => some ({ s.set i { a with pc := .notify } with cell := s.cell + 1 }, none)
  | .notify =>
    let (woken, rest) := Atomics.notify s.waiters (some 1)
    some ({ (s.wake woken).set i { a with pc := .reset } with waiters := rest }, none)
  | .reset => some (s.set i { a with pc := .idle, lockCount := 0 }, none)

/-- The next atomic step of the call agent `i` is in. -/
def next (s : State n) (i : Fin n) : Option (State n × Option Error) :=
  nextAt canBlock s i (s.agents i) (s.agents i).pc

section NextSteps

variable {s : State n} {i : Fin n} {v : BitVec 32}

theorem next_idle (h : (s.agents i).pc = .idle) : next canBlock s i = none := by simp [next, nextAt, h]

theorem next_asleep (h : (s.agents i).pc = .asleep) : next canBlock s i = none := by simp [next, nextAt, h]

theorem next_load (h : (s.agents i).pc = .load) :
    next canBlock s i = some (s.set i { s.agents i with pc := .cas s.cell }, none) := by
  simp [next, nextAt, h]

theorem next_cas (h : (s.agents i).pc = .cas v) :
    next canBlock s i =
      if 0 < v.toInt ∧ s.cell = v then
        some ({ s.set i { s.agents i with pc := .idle, lockCount := 1 } with cell := v - 1 }, none)
      else some (s.set i { s.agents i with pc := .wait v }, none) := by
  simp only [next, nextAt, h]

theorem next_wait (h : (s.agents i).pc = .wait v) :
    next canBlock s i =
      if !canBlock i then some (s.set i { s.agents i with pc := .idle }, some .typeError)
      else if s.cell ≠ v then some (s.set i { s.agents i with pc := .load }, none)
      else some ({ s.set i { s.agents i with pc := .asleep } with waiters := s.waiters ++ [i] }, none) := by
  simp only [next, nextAt, h]

theorem next_woken (h : (s.agents i).pc = .woken) :
    next canBlock s i = some (s.set i { s.agents i with pc := .load }, none) := by
  simp [next, nextAt, h]

theorem next_add (h : (s.agents i).pc = .add) :
    next canBlock s i = some ({ s.set i { s.agents i with pc := .notify } with cell := s.cell + 1 }, none) := by
  simp [next, nextAt, h]

theorem next_notify (h : (s.agents i).pc = .notify) :
    next canBlock s i = some ({ (s.wake (s.waiters.take 1)).set i { s.agents i with pc := .reset } with
      waiters := s.waiters.drop 1 }, none) := by
  simp [next, nextAt, h, Atomics.notify]

theorem next_reset (h : (s.agents i).pc = .reset) :
    next canBlock s i = some (s.set i { s.agents i with pc := .idle, lockCount := 0 }, none) := by
  simp [next, nextAt, h]

end NextSteps

/-- The callback reads the counter. -/
def read (s : State n) (i : Fin n) : Option (State n) :=
  let a := s.agents i
  if a.InCS then some (s.set i { a with read := some s.data }) else none

/-- The callback writes back what it read plus one. -/
def write (s : State n) (i : Fin n) : Option (State n) :=
  let a := s.agents i
  match a.read with
  | some v =>
    if a.InCS then some { s.set i { a with read := none, done := a.done + 1 } with data := v + 1 }
    else none
  | none => none

/-- One action of the scheduler. -/
def step (s : State n) : Act n → Option (State n)
  | .acquire i => acquire s i
  | .release i => release s i
  | .next i => (next canBlock s i).map Prod.fst
  | .read i => read s i
  | .write i => write s i

/-- The callers' contract: `release` only with a positive `lockCount`, and the outermost
`release` only after the callback has written back what it read. -/
def Allowed (s : State n) : Act n → Prop
  | .release i => 0 < (s.agents i).lockCount ∧
      ((s.agents i).lockCount = 1 → (s.agents i).read = none)
  | _ => True

instance (s : State n) : (a : Act n) → Decidable (Allowed s a)
  | .release _ => inferInstanceAs (Decidable (_ ∧ _))
  | .acquire _ | .next _ | .read _ | .write _ => inferInstanceAs (Decidable True)

/-- The lock with any callers. -/
def code : System (State n) (Act n) := ⟨.init n, step canBlock⟩

/-- The lock with callers that keep the contract. -/
def machine : System (State n) (Act n) :=
  ⟨.init n, fun s a => if Allowed s a then step canBlock s a else none⟩

theorem machine_step {s s' : State n} {a : Act n} (h : (machine canBlock).step s a = some s') :
    Allowed s a ∧ step canBlock s a = some s' := by
  simp only [machine] at h
  split at h
  · exact ⟨‹_›, h⟩
  · cases h

end Lock
end WasiKit
