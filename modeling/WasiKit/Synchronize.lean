/-
# `Synchronize`: the lock-wrapping `Proxy`

`Synchronize(lock, object)` returns a `Proxy` over the target whose `get`
and `set` handlers bracket the access with `lock.acquire()` and
`lock.release()` (in the `try`-inside shape, `lockedWithin`). The target is
modelled as its own properties, which writes change, and a fixed prototype
chain, nearest first; a property is a data value, writable or not, or an
accessor with an optional getter and setter. Functions are names; calling
one appends an event (function, receiver, arguments) to the log and returns
what `ret` says. The handlers take the lock as a parameter (`LockOps`): the
lock seen only through its calls, as the events `acquire` and `release` of the
log (`eventLock`), or agent `i`'s `Lock` running alone on the lock machine
(`agentLock`).

The handlers decide by `isPropertyOrGetter` and `isPropertyOrSetter`, which
look at the target's own properties and at its immediate prototype only. So
(`Synchronize.transparent`): a read of an own property or of an immediate
prototype's getter is the read of `target[p]` between `acquire` and
`release`, also when the value is a function, which is returned as it is; a
function found further up is returned as a wrapper whose call is the call of
`target[p]` on the target between `acquire` and `release`; a write to an own
property or through an immediate prototype's setter is `target[p] = value`
between them, and any other write is refused (`set` returns `false`), also
through a setter two prototypes up (`Synchronize.setter_beyond_prototype`).

With an agent's real `Lock`, the `try`-inside shape shows: on an agent that
cannot suspend, while another agent holds the lock, every locked branch of the
handlers raises `TypeError` out of `acquire()` and its `finally` gives the
cell a token the agent never took (`Synchronize.handlers_release_unheld`).

Key definitions: `Synchronize.LockOps`, `Synchronize.eventLock`,
`Synchronize.agentLock`, `Synchronize.proxyGet`, `Synchronize.proxySet`,
`Synchronize.func`, `Synchronize.getValue`, `Synchronize.assign`.
Key theorems: `Synchronize.transparent`, `Synchronize.setter_beyond_prototype`,
`Synchronize.handlers_release_unheld`.
-/
import WasiKit.Lock.Guarded

namespace WasiKit
namespace Synchronize

/-- A property key. -/
abbrev Key := String

/-- A value as the handlers see it: `undefined`, another primitive, a function of the
program (by name), or one of the functions the `get` handler makes: `func.bind(null, target,
p)` and `runLocked.bind(null, target)`. -/
inductive Value where
  | undefined
  | prim (n : Int)
  | fn (f : Nat)
  | func (p : Key)
  | runLocked
  deriving DecidableEq, Repr

/-- `typeof value === 'function'`. -/
def Value.isFunction : Value → Bool
  | .fn _ | .func _ | .runLocked => true
  | .undefined | .prim _ => false

/-- A property: a data value (and whether it is writable) or an accessor. -/
inductive Slot where
  | data (v : Value) (writable : Bool)
  | accessor (get set : Option Nat)
  deriving DecidableEq, Repr

/-- One object's own properties. -/
abbrev Layer := List (Key × Slot)

/-- The `this` of a call: the target, or the `Proxy`. -/
inductive Recv where
  | target
  | proxy
  deriving DecidableEq, Repr

/-- What the log records. -/
inductive Event where
  | acquire
  | release
  | call (f : Nat) (this : Recv) (args : List Value)
  deriving DecidableEq, Repr

/-- The target's own properties, the log, and the state `L` of the lock. -/
structure World (L : Type) where
  own : Layer
  log : List Event
  lock : L

variable {L : Type}

/-- The world with `e` appended to the log. -/
def World.logged (w : World L) (e : Event) : World L := { w with log := w.log ++ [e] }

open Alone

/-- The `lock` the wrapper closes over, as the handlers call it: `lock.acquire()` and
`lock.release()`. -/
structure LockOps (L : Type) where
  acquire : Alone (World L) Unit
  release : Alone (World L) Unit

/-- The lock seen only through its calls: `acquire` and `release` as events of the log. -/
def eventLock : LockOps L := ⟨modify (·.logged .acquire), modify (·.logged .release)⟩

/-- A computation on the lock's state, run on the world's. -/
def World.onLock {α : Type} (x : Alone L α) : Alone (World L) α :=
  ExceptT.mk fun w => (go x w.lock).map fun p => (p.1, { w with lock := p.2 })

/-- Agent `i`'s `Lock` over the shared cell: its `acquire()` and `release()` run alone on the
lock machine. -/
def agentLock {n : Nat} (canBlock : Fin n → Bool) (i : Fin n) : LockOps (Lock.State n) :=
  ⟨World.onLock (Lock.callAlone canBlock i (.acquire i)),
    World.onLock (Lock.callAlone canBlock i (.release i))⟩

variable (lock : LockOps L) (protos : List Layer) (ret : Nat → Value)

/-- A call of the program's function `f`. -/
def callFn (f : Nat) (this : Recv) (args : List Value) : Alone (World L) Value := do
  modify (·.logged (.call f this args))
  return ret f

/-- `[[Get]]` along the layers `ls`, with receiver `recv` for a getter. -/
def getAt (recv : Recv) (p : Key) : List Layer → Alone (World L) Value
  | [] => pure .undefined
  | l :: ls => match l.lookup p with
    | some (.data v _) => pure v
    | some (.accessor (some g) _) => callFn ret g recv []
    | some (.accessor none _) => pure .undefined
    | none => getAt recv p ls

/-- `Reflect.get(target, p, recv)`; with the target as receiver it is `target[p]`. -/
def getValue (p : Key) (recv : Recv) : Alone (World L) Value := do
  let w ← get
  getAt ret recv p (w.own :: protos)

/-- The property that decides a `[[Set]]`: the first of `ls` to have `p`. -/
def findSlot (p : Key) : List Layer → Option Slot
  | [] => none
  | l :: ls => (l.lookup p).orElse fun _ => findSlot p ls

/-- The target's own property `p` set to the writable data value `v`. -/
def Layer.put (l : Layer) (p : Key) (v : Value) : Layer :=
  (p, .data v true) :: l.filter (·.1 != p)

/-- `target[p] = value` in strict code: a writable data property (the target's own, or one
it inherits, which the target then gets as its own) or no property takes the value; a setter
is called on the target; otherwise `TypeError`. -/
def assign (p : Key) (value : Value) : Alone (World L) Unit := do
  let w ← get
  match findSlot p (w.own :: protos) with
  | none | some (.data _ true) => set { w with own := w.own.put p value }
  | some (.data _ false) | some (.accessor _ none) => throw .typeError
  | some (.accessor _ (some s)) => discard <| callFn ret s .target [value]

/-- `isPropertyOrGetter(target, p)`: an own property, or a getter of the immediate prototype
(of the target itself, when it has no prototype). -/
def isPropertyOrGetter (w : World L) (p : Key) : Bool :=
  (w.own.lookup p).isSome ||
    match (match protos.head? with | some proto => proto.lookup p | none => w.own.lookup p) with
    | some (.accessor (some _) _) => true
    | _ => false

/-- `isPropertyOrSetter(target, p)`. -/
def isPropertyOrSetter (w : World L) (p : Key) : Bool :=
  (w.own.lookup p).isSome ||
    match (match protos.head? with | some proto => proto.lookup p | none => w.own.lookup p) with
    | some (.accessor _ (some _)) => true
    | _ => false

/-- `func(target, p, ...args)`: `target[p](...args)` under the lock. -/
def func (p : Key) (args : List Value) : Alone (World L) Value :=
  lockedWithin lock.acquire lock.release do
    match ← getValue protos ret p .target with
    | .fn f => callFn ret f .target args
    | _ => throw .typeError

/-- The `get` handler. -/
def proxyGet (p : Key) : Alone (World L) Value := do
  if p = "runLocked" then return .runLocked
  let w ← get
  if isPropertyOrGetter protos w p then
    lockedWithin lock.acquire lock.release (getValue protos ret p .target)
  else
    let value ← getValue protos ret p .proxy
    if value.isFunction then return .func p
    else return .undefined

/-- The `set` handler. -/
def proxySet (p : Key) (value : Value) : Alone (World L) Bool := do
  let w ← get
  if isPropertyOrSetter protos w p then
    lockedWithin lock.acquire lock.release (assign protos ret p value)
    return true
  else return false

/-! ### The handlers against the target -/

variable {α : Type}

/-- Under the event lock, `try { acquire(); x } finally { release(); }` is `x` between the two
events. -/
theorem go_lockedWithin (x : Alone (World L) α) (w : World L) :
    go (lockedWithin eventLock.acquire eventLock.release x) w =
      (go x (w.logged .acquire)).map fun q => (q.1, q.2.logged .release) := by
  simp only [lockedWithin, go_withFinally, go_bind, eventLock, go_modify, Option.some_bind,
    cont_ok]
  rcases go x (w.logged .acquire) with _ | ⟨r, t⟩ <;> rfl

/-- **The wrapper is the target, under the lock, where it looks.** For every key but
`runLocked`: a read of an own property or of a getter of the immediate prototype is the read
of `target[p]` between `acquire` and `release`, whatever the value; otherwise, when
`Reflect.get(target, p, proxy)` is a function, the read returns the wrapper `func(target, p)`,
whose call is `target[p](...args)` on the target between `acquire` and `release`; a write to
an own property or through a setter of the immediate prototype is `target[p] = value` between
them, and returns `true` when that assignment returns (it raises `TypeError` for a read-only or
getter-only property); any other write returns `false` and changes nothing. -/
theorem transparent (p : Key) (hp : p ≠ "runLocked") (w : World L) :
    (isPropertyOrGetter protos w p = true →
      go (proxyGet eventLock protos ret p) w =
        (go (getValue protos ret p .target) (w.logged .acquire)).map
          fun q => (q.1, q.2.logged .release)) ∧
    (isPropertyOrGetter protos w p = false → ∀ v w', go (getValue protos ret p .proxy) w =
      some (.ok v, w') → v.isFunction = true →
        go (proxyGet eventLock protos ret p) w = some (.ok (.func p), w') ∧
        ∀ args (w₀ : World L), go (func eventLock protos ret p args) w₀ =
          (go (do
            match ← getValue protos ret p .target with
            | .fn f => callFn ret f .target args
            | _ => throw .typeError) (w₀.logged .acquire)).map fun q => (q.1, q.2.logged .release)) ∧
    (∀ v, isPropertyOrSetter protos w p = true →
      go (proxySet eventLock protos ret p v) w =
        (go (assign protos ret p v) (w.logged .acquire)).map
          fun q => (q.1.map fun _ => true, q.2.logged .release)) ∧
    (∀ v, isPropertyOrSetter protos w p = false →
      go (proxySet eventLock protos ret p v) w = some (.ok false, w)) := by
  refine ⟨fun h => ?_, fun h v w' hv hf => ⟨?_, fun args w₀ => go_lockedWithin _ _⟩, fun v h => ?_,
    fun v h => ?_⟩
  · simp only [proxyGet, hp, h, go_bind, go_get, go_pure, if_false, if_true, Option.some_bind,
      cont_ok, go_lockedWithin]
  · simp [proxyGet, hp, h, go_bind, hv, hf]
  · simp only [proxySet, h, go_bind, go_get, if_true, Option.some_bind, cont_ok, go_lockedWithin]
    rcases go (assign protos ret p v) (w.logged .acquire) with _ | ⟨_ | _, t⟩ <;> rfl
  · simp [proxySet, h, go_bind]

/-- An own data property `x` read through the wrapper: its value, between the lock's events. -/
theorem transparent_own_read :
    go (proxyGet eventLock [] (fun _ => .undefined) "x") (⟨[("x", .data (.prim 1) true)], [], ()⟩ : World Unit) =
      some (.ok (.prim 1), ⟨[("x", .data (.prim 1) true)], [.acquire, .release], ()⟩) := by
  rw [(transparent [] (fun _ => .undefined) "x" (by decide)
    (⟨[("x", .data (.prim 1) true)], [], ()⟩ : World Unit)).1 rfl]
  rfl

/-- A setter two prototypes up: `target.x = 1` calls it, while the wrapper's `set` handler
refuses the write. And an own function-valued property is read under the lock and returned
as it is, not wrapped: its call runs without the lock. -/
theorem setter_beyond_prototype :
    go (assign [[], [("x", .accessor none (some 0))]] (fun _ => .undefined) "x" (.prim 1))
        (⟨[], [], ()⟩ : World Unit) = some (.ok (), ⟨[], [.call 0 .target [.prim 1]], ()⟩) ∧
      go (proxySet eventLock [[], [("x", .accessor none (some 0))]] (fun _ => .undefined) "x" (.prim 1))
        (⟨[], [], ()⟩ : World Unit) = some (.ok false, ⟨[], [], ()⟩) ∧
      go (proxyGet eventLock [] (fun _ => .undefined) "f") (⟨[("f", .data (.fn 0) true)], [], ()⟩ : World Unit) =
        some (.ok (.fn 0), ⟨[("f", .data (.fn 0) true)], [.acquire, .release], ()⟩) :=
  ⟨rfl, rfl, rfl⟩

/-! ### The handlers over an agent's `Lock` -/

/-- When `acquire` raises, `try { acquire(); x } finally { release(); }` still runs `release`,
and raises what `acquire` raised. -/
theorem go_lockedWithin_of_raise {σ : Type} {acq rel : Alone σ Unit} {x : Alone σ α} {s s₁ s₂ : σ}
    {e : Error} (ha : go acq s = some (.error e, s₁)) (hr : go rel s₁ = some (.ok (), s₂)) :
    go (lockedWithin acq rel x) s = some (.error e, s₂) := by
  simp [lockedWithin, go_withFinally, go_bind, ha, hr]

section AgentLock

variable {n : Nat} {canBlock : Fin n → Bool} {i : Fin n} {s : Lock.State n}

/-- On an agent that cannot suspend, an outermost `acquire()` of a taken lock raises `TypeError`
out of `Atomics.wait` and changes nothing. -/
theorem agentLock_acquire (hi : (s.agents i).pc = .idle) (hc : (s.agents i).lockCount = 0)
    (hv : ¬ 0 < s.cell.toInt) (hb : canBlock i = false) (own : Layer) (log : List Event) :
    go (agentLock canBlock i).acquire ⟨own, log, s⟩ = some (.error .typeError, ⟨own, log, s⟩) := by
  simp [agentLock, World.onLock, Lock.callAlone_acquire canBlock hi, hc, hv, hb]

/-- **The wrapper's handlers release a lock they never got.** Let agent `i` be between calls with
`lockCount` `0` while the cell is not positive (another agent holds the lock), on an agent that
cannot suspend. Through a `Synchronize` wrapper over agent `i`'s `Lock`, for every target: a read
of an own property or of a getter of the immediate prototype, a write to an own property or
through a setter of the immediate prototype, and every call of the function wrapper `func` raise
`TypeError`, leave the target and the log as they were, and leave the lock in one state `t` in
which the cell holds one more than before and the agent's `lockCount` is `0`: the `finally` has
run `release()` for an `acquire()` that raised. -/
theorem handlers_release_unheld (hi : (s.agents i).pc = .idle) (hc : (s.agents i).lockCount = 0)
    (hv : ¬ 0 < s.cell.toInt) (hb : canBlock i = false) (own : Layer) (log : List Event) (p : Key) :
    ∃ t : Lock.State n, t.cell = s.cell + 1 ∧ (t.agents i).lockCount = 0 ∧
      (p ≠ "runLocked" → isPropertyOrGetter protos ⟨own, log, s⟩ p = true →
        go (proxyGet (agentLock canBlock i) protos ret p) ⟨own, log, s⟩ =
          some (.error .typeError, ⟨own, log, t⟩)) ∧
      (∀ v, isPropertyOrSetter protos ⟨own, log, s⟩ p = true →
        go (proxySet (agentLock canBlock i) protos ret p v) ⟨own, log, s⟩ =
          some (.error .typeError, ⟨own, log, t⟩)) ∧
      (∀ args, go (func (agentLock canBlock i) protos ret p args) ⟨own, log, s⟩ =
        some (.error .typeError, ⟨own, log, t⟩)) := by
  obtain ⟨t, ht, htc, -, htl⟩ := Lock.callAlone_release_outer canBlock hi (by omega)
  have hrel : go (agentLock canBlock i).release ⟨own, log, s⟩ = some (.ok (), ⟨own, log, t⟩) := by
    simp [agentLock, World.onLock, ht]
  have hlocked : ∀ {β : Type} (x : Alone (World (Lock.State n)) β),
      go (lockedWithin (agentLock canBlock i).acquire (agentLock canBlock i).release x)
        ⟨own, log, s⟩ = some (.error .typeError, ⟨own, log, t⟩) := fun _ =>
    go_lockedWithin_of_raise (agentLock_acquire hi hc hv hb own log) hrel
  refine ⟨t, htc, htl, fun hp h => ?_, fun v h => ?_, fun args => hlocked _⟩
  · simp only [proxyGet, hp, h, go_bind, go_get, go_pure, if_false, if_true, Option.some_bind,
      cont_ok, hlocked]
  · simp only [proxySet, h, go_bind, go_get, if_true, Option.some_bind, cont_ok, hlocked,
      cont_error]

/-- Agent `0` holds the lock; agent `1`, which cannot suspend, reads the own property `x` through
the wrapper: the read raises `TypeError` and the cell goes from `0` to `1` while agent `0` is
still in its critical section. -/
theorem handlers_release_unheld_while_held :
    ∃ s, (Lock.machine (n := 2) fun j => decide (j = 0)).run (Lock.State.init 2)
        [.acquire 0, .next 0, .next 0] = some s ∧ (s.agents 0).InCS ∧ s.cell = 0 ∧
      ∃ t : Lock.State 2, t.cell = s.cell + 1 ∧ (t.agents 1).lockCount = 0 ∧
        ("x" ≠ "runLocked" → isPropertyOrGetter [] ⟨[("x", .data (.prim 1) true)], [], s⟩ "x" = true →
          go (proxyGet (agentLock (fun j => decide (j = 0)) 1) [] (fun _ => .undefined) "x")
            ⟨[("x", .data (.prim 1) true)], [], s⟩ =
            some (.error .typeError, ⟨[("x", .data (.prim 1) true)], [], t⟩)) ∧
        (∀ v, isPropertyOrSetter [] ⟨[("x", .data (.prim 1) true)], [], s⟩ "x" = true →
          go (proxySet (agentLock (fun j => decide (j = 0)) 1) [] (fun _ => .undefined) "x" v)
            ⟨[("x", .data (.prim 1) true)], [], s⟩ =
            some (.error .typeError, ⟨[("x", .data (.prim 1) true)], [], t⟩)) ∧
        (∀ args, go (func (agentLock (fun j => decide (j = 0)) 1) [] (fun _ => .undefined) "x" args)
            ⟨[("x", .data (.prim 1) true)], [], s⟩ =
            some (.error .typeError, ⟨[("x", .data (.prim 1) true)], [], t⟩)) :=
  ⟨_, rfl, by decide, rfl,
    handlers_release_unheld [] (fun _ => .undefined) rfl rfl (by decide) rfl _ _ "x"⟩

end AgentLock

end Synchronize
end WasiKit
