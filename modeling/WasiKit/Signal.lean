/-
# `Signal` across agents

A `Signal` is a one-shot event over one shared cell, created in `new` mode
(the cell stores `0`) and attached by the other agents in `existing` mode.
Its calls, cut into their atomic steps: `wait` calls `Atomics.wait(cell, 0)`,
which raises `TypeError` on an agent that cannot suspend, returns
`not-equal` when the cell is not `0` (then `wait` loads the cell and raises
unless it holds `1`), and else sleeps until a `notify` (`ok`); `waitAsync`
calls `Atomics.waitAsync(cell, 0)`, which returns `not-equal` at once in the
same way or else a promise whose waiter joins the same waiter list, and the
`then` job settles the returned promise once the waiter is notified;
`isResolved` loads the cell; `resolve(count)` stores `1` and calls
`Atomics.notify(cell, count)`. There is no timeout, so no `timed-out`.

The ghosts `stored` and `notified` mark the first store of a `resolve` and
the first `notify` of a `resolve()` without a count. From the invariant
`Signal.Inv` (`inv_machine`): the cell is `0` until the store and `1` after;
only `wait` on an agent that cannot suspend raises; `wait` returns and
promises settle only after the store; `isResolved` answers whether it
happened; and after the notify nobody sleeps on the cell
(`Signal.one_shot`). From then on the calls are wait-free: an agent's own
step brings its call nearer its end and moves no one else, so whatever the
others do, each call ends within two of its agent's steps
(`Signal.resolved_wait_free`).

Key definitions: `Signal.State`, `Signal.next`, `Signal.machine`,
`Signal.Pc.stepsLeft`.
Key theorems: `Signal.inv_machine`, `Signal.one_shot`, `Signal.run_stepsLeft`,
`Signal.resolved_wait_free`.
-/
import WasiKit.Atomics

namespace WasiKit
namespace Signal

/-- Where an agent is in its call of a `Signal` method. -/
inductive Pc where
  | idle
  /-- `wait`: at `Atomics.wait(cell, 0, 0)` -/
  | wait
  /-- `wait`: suspended, in the waiter list -/
  | asleep
  /-- `wait`: notified, about to return `ok` -/
  | woken
  /-- `wait`: at `Atomics.load` after `not-equal` -/
  | waitLoad
  /-- `waitAsync`: at `Atomics.waitAsync(cell, 0, 0)` -/
  | waitAsync
  /-- `waitAsync`: at `Atomics.load` after a synchronous `not-equal` -/
  | asyncLoad
  /-- `isResolved`: at `Atomics.load` -/
  | isResolved
  /-- `resolve(count)`: at `Atomics.store(cell, 0, 1)` -/
  | store (count : Option Nat)
  /-- `resolve(count)`: at `Atomics.notify(cell, 0, count)` -/
  | notify (count : Option Nat)
  deriving DecidableEq, Repr

/-- An entry of the cell's waiter list: a suspended agent, or the promise of a `waitAsync`. -/
inductive Waiter (n : Nat) where
  | sync (i : Fin n)
  | async (promise : Nat)
  deriving DecidableEq, Repr

/-- What a call returns: nothing, a boolean, or a promise. -/
inductive Value where
  | none
  | bool (b : Bool)
  | promise (p : Nat)
  deriving DecidableEq, Repr

/-- How a call ends. -/
inductive Outcome where
  | returned (v : Value)
  | raised (e : Error)
  deriving DecidableEq, Repr

/-- All agents, the cell, its waiter list and the promises of `waitAsync`. -/
structure State (n : Nat) where
  cell : BitVec 32
  waiters : List (Waiter n)
  pc : Fin n → Pc
  /-- promises handed out so far (their names are `0`, `1`, ...) -/
  promises : Nat
  /-- promises whose waiter was notified: their `then` job is queued -/
  resolved : List Nat
  /-- promises the `then` job has settled -/
  settled : List Nat
  /-- ghost: a `resolve` has stored `1` -/
  stored : Bool
  /-- ghost: a `resolve()` without a count has notified -/
  notified : Bool

/-- After the `new` mode constructor stored `0`, every agent idle. -/
def State.init (n : Nat) : State n := ⟨0, [], fun _ => .idle, 0, [], [], false, false⟩

/-- What the scheduler lets an agent do: call a method, take the next step of its call, or
run the queued `then` job of a promise. -/
inductive Act (n : Nat) where
  | wait (i : Fin n)
  | waitAsync (i : Fin n)
  | isResolved (i : Fin n)
  | resolve (i : Fin n) (count : Option Nat)
  | next (i : Fin n)
  | settle (p : Nat)
  deriving DecidableEq, Repr

variable {n : Nat}

/-- Agent `i` moves to `p`. -/
def State.setPc (s : State n) (i : Fin n) (p : Pc) : State n :=
  { s with pc := Function.update s.pc i p }

/-- `Atomics.notify` wakes the waiters `woken`: a suspended agent becomes `woken`, a promise
gets its `then` job queued. -/
def State.wake (s : State n) (woken : List (Waiter n)) : State n :=
  { s with
    pc := fun j => if .sync j ∈ woken then .woken else s.pc j
    resolved := s.resolved ++ woken.filterMap fun | .async p => some p | .sync _ => none }

/-- A call starts. -/
def call (s : State n) (i : Fin n) (p : Pc) : Option (State n) :=
  if s.pc i = .idle then some (s.setPc i p) else none

variable (canBlock : Fin n → Bool)

/-- The next atomic step of agent `i` at the place `pc` of its call, and how the call ends
when this step ends it. -/
def nextAt (s : State n) (i : Fin n) : Pc → Option (State n × Option Outcome)
  | .idle | .asleep => none
  | .wait =>
    if !canBlock i then some (s.setPc i .idle, some (.raised .typeError))
    else if s.cell ≠ 0 then some (s.setPc i .waitLoad, none)
    else some ({ s.setPc i .asleep with waiters := s.waiters ++ [.sync i] }, none)
  | .woken => some (s.setPc i .idle, some (.returned .none))
  | .waitLoad =>
    let value := s.cell.toInt
    if s.cell ≠ 1 then
      some (s.setPc i .idle, some (.raised (.error s!"Unexpected signal value {value}")))
    else some (s.setPc i .idle, some (.returned .none))
  | .waitAsync =>
    if s.cell ≠ 0 then some (s.setPc i .asyncLoad, none)
    else some ({ s.setPc i .idle with
      waiters := s.waiters ++ [.async s.promises], promises := s.promises + 1 },
      some (.returned (.promise s.promises)))
  | .asyncLoad =>
    let value := s.cell.toInt
    if s.cell ≠ 1 then
      some (s.setPc i .idle, some (.raised (.error s!"Unexpected signal value {value}")))
    else some (s.setPc i .idle, some (.returned .none))
  | .isResolved => some (s.setPc i .idle, some (.returned (.bool (s.cell == 1))))
  | .store count => some ({ s.setPc i (.notify count) with cell := 1, stored := true }, none)
  | .notify count =>
    let (woken, rest) := Atomics.notify s.waiters count
    some ({ (s.wake woken).setPc i .idle with
      waiters := rest, notified := s.notified || count.isNone }, some (.returned .none))

/-- The next atomic step of the call agent `i` is in. -/
def next (s : State n) (i : Fin n) : Option (State n × Option Outcome) :=
  nextAt canBlock s i (s.pc i)

/-- The `then` job of a notified promise settles it (the result is `ok`, not `timed-out`). -/
def settle (s : State n) (p : Nat) : Option (State n) :=
  if p ∈ s.resolved then some { s with resolved := s.resolved.erase p, settled := s.settled ++ [p] }
  else none

/-- One action of the scheduler. -/
def step (s : State n) : Act n → Option (State n)
  | .wait i => call s i .wait
  | .waitAsync i => call s i .waitAsync
  | .isResolved i => call s i .isResolved
  | .resolve i count => call s i (.store count)
  | .next i => (next canBlock s i).map Prod.fst
  | .settle p => settle s p

/-- The signal's agents. -/
def machine : System (State n) (Act n) := ⟨.init n, step canBlock⟩

/-! ### The invariant -/

/-- The places an agent reaches only after a `resolve` has stored `1`. -/
def Pc.AfterStore : Pc → Prop
  | .woken | .waitLoad | .asyncLoad | .notify _ => True
  | .idle | .wait | .asleep | .waitAsync | .isResolved | .store _ => False

/-- What holds in every reachable state. -/
structure Inv (s : State n) : Prop where
  cell : s.cell = if s.stored then 1 else 0
  asleep : ∀ i, s.pc i = .asleep ↔ .sync i ∈ s.waiters
  nodup : s.waiters.Nodup
  fresh : ∀ p, .async p ∈ s.waiters → p < s.promises
  afterStore : ∀ i, (s.pc i).AfterStore → s.stored = true
  queued : ∀ p, p ∈ s.resolved ∨ p ∈ s.settled → s.stored = true
  notified : s.notified = true → s.stored = true ∧ s.waiters = []

theorem inv_init : Inv (State.init n) where
  cell := rfl
  asleep _ := by simp [State.init]
  nodup := List.nodup_nil
  fresh _ h := by simp [State.init] at h
  afterStore _ h := by simp [State.init, Pc.AfterStore] at h
  queued _ h := by simp [State.init] at h
  notified h := by simp [State.init] at h

variable {s : State n} {i : Fin n} {q : Pc}

@[simp] theorem setPc_self : (s.setPc i q).pc i = q := Function.update_same _ _ _
@[simp] theorem setPc_cell : (s.setPc i q).cell = s.cell := rfl
@[simp] theorem setPc_waiters : (s.setPc i q).waiters = s.waiters := rfl
@[simp] theorem setPc_promises : (s.setPc i q).promises = s.promises := rfl
@[simp] theorem setPc_resolved : (s.setPc i q).resolved = s.resolved := rfl
@[simp] theorem setPc_settled : (s.setPc i q).settled = s.settled := rfl
@[simp] theorem setPc_stored : (s.setPc i q).stored = s.stored := rfl
@[simp] theorem setPc_notified : (s.setPc i q).notified = s.notified := rfl

theorem setPc_apply (j : Fin n) : (s.setPc i q).pc j = if j = i then q else s.pc j :=
  Function.update_apply _ _ _ _

theorem Inv.stored_of_ne_zero (hI : Inv s) (h : s.cell ≠ 0) : s.stored = true := by
  by_contra hs
  exact h (by simpa [hs] using hI.cell)

variable (ws : List (Waiter n))

@[simp] theorem wake_cell : (s.wake ws).cell = s.cell := rfl
@[simp] theorem wake_waiters : (s.wake ws).waiters = s.waiters := rfl
@[simp] theorem wake_promises : (s.wake ws).promises = s.promises := rfl
@[simp] theorem wake_stored : (s.wake ws).stored = s.stored := rfl
@[simp] theorem wake_notified : (s.wake ws).notified = s.notified := rfl

theorem Inv.asleep_setPc (hI : Inv s) (hp : s.pc i ≠ .asleep) (hq : q ≠ .asleep) (j : Fin n) :
    (s.setPc i q).pc j = .asleep ↔ .sync j ∈ s.waiters := by
  rw [setPc_apply]
  split
  · subst j; exact ⟨fun h => absurd h hq, fun h => absurd ((hI.asleep i).2 h) hp⟩
  · exact hI.asleep j

/-- Agent `i` moves between two places out of the waiter list. -/
theorem Inv.setPc (hI : Inv s) (hp : s.pc i ≠ .asleep) (hq : q ≠ .asleep)
    (hs : q.AfterStore → s.stored = true) : Inv (s.setPc i q) :=
  { hI with
    asleep := hI.asleep_setPc hp hq
    afterStore := fun j => by
      rw [setPc_apply]
      split
      · exact hs
      · exact hI.afterStore j }

/-- The store of a `resolve`. -/
theorem Inv.store (hI : Inv s) (hi : s.pc i ≠ .asleep) (c : Option Nat) :
    Inv { s.setPc i (.notify c) with cell := 1, stored := true } :=
  { hI with
    cell := rfl
    asleep := hI.asleep_setPc hi (by simp)
    afterStore := fun _ _ => rfl
    queued := fun _ _ => rfl
    notified := fun h => ⟨rfl, (hI.notified h).2⟩ }

/-- The `notify` of a `resolve`, after its store: the first `count` waiters (all, without a
count) are woken; after a `notify` of all, the list stays empty. -/
theorem Inv.notify (hI : Inv s) {c : Option Nat} (hi : s.pc i = .notify c) :
    Inv { (s.wake (Atomics.notify s.waiters c).1).setPc i .idle with
      waiters := (Atomics.notify s.waiters c).2, notified := s.notified || c.isNone } := by
  have hst := hI.afterStore i (by simp [hi, Pc.AfterStore])
  have happ := Atomics.notify_append s.waiters c
  have hnd := hI.nodup
  rw [← happ] at hnd
  have hiw : Waiter.sync i ∉ s.waiters := fun h => by simp [(hI.asleep i).2 h] at hi
  have hrest : ∀ w ∈ (Atomics.notify s.waiters c).2, w ∈ s.waiters := fun w hw =>
    happ ▸ List.mem_append_right _ hw
  refine ⟨by simpa using hI.cell, fun j => ?_, (List.nodup_append.1 hnd).2.1,
    fun p hp => hI.fresh p (hrest _ hp), fun _ _ => by simpa using hst, fun _ _ => by simpa using hst,
    fun hN => ⟨by simpa using hst, ?_⟩⟩
  · simp only [setPc_apply, State.wake]
    split
    · subst j; exact ⟨fun h => by simp at h, fun h => absurd (hrest _ h) hiw⟩
    · split
      · exact ⟨fun h => by simp at h,
          fun h => absurd h (List.disjoint_of_nodup_append hnd ‹_›)⟩
      · rw [hI.asleep j, ← happ, List.mem_append]
        simp [*]
  · rcases c with _ | c
    · rfl
    · have hn : s.notified = true := by simpa using hN
      have := (hI.notified hn).2
      simp [Atomics.notify, this]

/-! ### Each action keeps the invariant -/

theorem inv_call (hI : Inv s) {p : Pc} {t : State n} (hp : ¬ p.AfterStore) (hq : p ≠ .asleep)
    (h : call s i p = some t) : Inv t := by
  simp only [call] at h
  split_ifs at h with hi
  cases h
  exact hI.setPc (by simp [hi]) hq fun h => absurd h hp

theorem inv_settle (hI : Inv s) {p : Nat} {t : State n} (h : settle s p = some t) : Inv t := by
  simp only [settle] at h
  split_ifs at h with hp
  cases h
  exact { hI with
    queued := fun q hq => hI.queued p (.inl hp) }

/-- A sleeper joins the waiter list, which only happens while the cell is `0`. -/
theorem Inv.sleep (hI : Inv s) (hi : s.pc i ≠ .asleep) (hc : s.cell = 0) :
    Inv { s.setPc i .asleep with waiters := s.waiters ++ [.sync i] } := by
  have hs : s.stored = false := by
    by_contra h; simp [hI.cell, h] at hc
  have hn : s.notified = false := by
    by_contra h; simp [(hI.notified (by simpa using h)).1] at hs
  refine ⟨hI.cell, fun j => ?_, ?_, fun p hp => hI.fresh p ?_, fun j hj => ?_, hI.queued,
    fun h => absurd h (by simp [hn])⟩
  · rw [setPc_apply]
    split
    · subst j; simp
    · simp [hI.asleep j, *]
  · exact List.nodup_append.2 ⟨hI.nodup, List.nodup_singleton _, fun w hw h' => by
      rw [List.mem_singleton.1 h'] at hw; exact hi ((hI.asleep i).2 hw)⟩
  · simpa using hp
  · rw [setPc_apply] at hj
    split at hj
    · simp [Pc.AfterStore] at hj
    · exact hI.afterStore j hj

/-- `waitAsync` hands out a promise whose waiter joins the list, while the cell is `0`. -/
theorem Inv.promise (hI : Inv s) (hi : s.pc i ≠ .asleep) (hc : s.cell = 0) :
    Inv { s.setPc i .idle with
      waiters := s.waiters ++ [.async s.promises], promises := s.promises + 1 } := by
  have hs : s.stored = false := by
    by_contra h; simp [hI.cell, h] at hc
  have hn : s.notified = false := by
    by_contra h; simp [(hI.notified (by simpa using h)).1] at hs
  have h1 := hI.setPc (q := .idle) hi (by simp) (fun h => by simp [Pc.AfterStore] at h)
  refine ⟨hI.cell, fun j => ?_, ?_, fun p hp => ?_, h1.afterStore, hI.queued,
    fun h => absurd h (by simp [hn])⟩
  · simpa using h1.asleep j
  · exact List.nodup_append.2 ⟨hI.nodup, List.nodup_singleton _, fun w hw h' => by
      rw [List.mem_singleton.1 h'] at hw; exact absurd (hI.fresh _ hw) (lt_irrefl _)⟩
  · rcases List.mem_append.1 hp with hp | hp
    · exact Nat.lt_succ_of_lt (hI.fresh p hp)
    · simp at hp ⊢; omega

theorem inv_next (hI : Inv s) {t : State n} {o : Option Outcome}
    (h : next canBlock s i = some (t, o)) : Inv t := by
  have idle : s.pc i ≠ .asleep → Inv (s.setPc i .idle) := fun hp =>
    hI.setPc hp (by simp) fun h => by simp [Pc.AfterStore] at h
  cases hpc : s.pc i <;> simp only [next, nextAt, hpc] at h
  case idle | asleep => cases h
  case wait =>
    split_ifs at h with hb hc <;> simp only [Option.some.injEq, Prod.mk.injEq] at h <;>
      obtain ⟨rfl, -⟩ := h
    · exact idle (by simp [hpc])
    · exact hI.setPc (by simp [hpc]) (by simp) fun _ => hI.stored_of_ne_zero hc
    · exact hI.sleep (by simp [hpc]) (by simpa using hc)
  case waitAsync =>
    split_ifs at h with hc <;> simp only [Option.some.injEq, Prod.mk.injEq] at h <;>
      obtain ⟨rfl, -⟩ := h
    · exact hI.setPc (by simp [hpc]) (by simp) fun _ => hI.stored_of_ne_zero hc
    · exact hI.promise (by simp [hpc]) (by simpa using hc)
  case woken | isResolved =>
    simp only [Option.some.injEq, Prod.mk.injEq] at h
    obtain ⟨rfl, -⟩ := h
    exact idle (by simp [hpc])
  case waitLoad | asyncLoad =>
    split_ifs at h <;> simp only [Option.some.injEq, Prod.mk.injEq] at h <;> obtain ⟨rfl, -⟩ := h <;>
      exact idle (by simp [hpc])
  case store c =>
    simp only [Option.some.injEq, Prod.mk.injEq] at h
    obtain ⟨rfl, -⟩ := h
    exact hI.store (by simp [hpc]) c
  case notify c =>
    simp only [Option.some.injEq, Prod.mk.injEq] at h
    obtain ⟨rfl, -⟩ := h
    exact hI.notify hpc

theorem inv_step {a : Act n} {t : State n} (hI : Inv s) (h : step canBlock s a = some t) : Inv t := by
  cases a with
  | wait i | waitAsync i | isResolved i =>
    exact inv_call hI (by simp [Pc.AfterStore]) (by simp) h
  | resolve i c => exact inv_call hI (by simp [Pc.AfterStore]) (by simp) h
  | next i =>
    obtain ⟨⟨t, o⟩, ht, rfl⟩ := Option.map_eq_some'.1 h
    exact inv_next canBlock hI ht
  | settle p => exact inv_settle hI h

theorem inv_machine : (machine canBlock).Invariant Inv where
  init := inv_init
  step := inv_step canBlock

/-! ### A one-shot event -/

/-- No step takes the cell anywhere but to `1`. -/
theorem step_cell {a : Act n} {t : State n} (h : step canBlock s a = some t) :
    t.cell = s.cell ∨ t.cell = 1 := by
  cases a with
  | wait i | waitAsync i | isResolved i | resolve i c =>
    simp only [step, call] at h; split_ifs at h; cases h; simp
  | settle p => simp only [step, settle] at h; split_ifs at h; cases h; simp
  | next i =>
    obtain ⟨⟨t, o⟩, ht, rfl⟩ := Option.map_eq_some'.1 h
    cases hpc : s.pc i <;> simp only [next, nextAt, hpc] at ht <;> (try split_ifs at ht) <;>
      simp only [Option.some.injEq, Prod.mk.injEq, reduceCtorEq] at ht <;>
      obtain ⟨rfl, -⟩ := ht <;> simp

/-- **`Signal` is a one-shot event.** In every reachable state, whichever agents can suspend:
the cell holds `0` before the first store of a `resolve` and `1` after, and no step takes it
from `1` back to `0`; the only call that raises is `wait` on an agent that cannot suspend;
`wait` returns, and `waitAsync` returns at once, only after the store, and promises settle only
after it; `isResolved` answers whether the store happened; and once a `resolve()` without a
count has notified, the waiter list stays empty and no agent sleeps on the cell. -/
theorem one_shot {s : State n} (hs : (machine canBlock).Reachable s) :
    s.cell = (if s.stored then 1 else 0) ∧
      (∀ a t, step canBlock s a = some t → s.cell = 1 → t.cell = 1) ∧
      (∀ i t e, next canBlock s i = some (t, some (.raised e)) → s.pc i = .wait ∧ canBlock i = false) ∧
      (∀ i t, next canBlock s i = some (t, some (.returned .none)) →
        s.pc i = .woken ∨ s.pc i = .waitLoad ∨ s.pc i = .asyncLoad → s.stored = true) ∧
      (∀ p t, step canBlock s (.settle p) = some t → s.stored = true) ∧
      (∀ i t v, s.pc i = .isResolved → next canBlock s i = some (t, some (.returned v)) →
        v = .bool s.stored) ∧
      (s.notified = true → s.waiters = [] ∧ ∀ i, s.pc i ≠ .asleep) := by
  have hI := (inv_machine canBlock).reachable hs
  refine ⟨hI.cell, fun a t h h1 => ?_, fun i t e h => ?_, fun i _ _ hp => ?_, fun p t h => ?_,
    fun i t v hp h => ?_, fun h => ⟨(hI.notified h).2, fun i hi => ?_⟩⟩
  · rcases step_cell canBlock h with h' | h' <;> simp [h', h1]
  · have h1 : (s.pc i).AfterStore → s.cell = 1 := fun ha => by simp [hI.cell, hI.afterStore i ha]
    cases hpc : s.pc i <;> simp only [next, nextAt, hpc] at h <;> (try split_ifs at h) <;>
      simp_all [Pc.AfterStore]
  · exact hI.afterStore i (by rcases hp with hp | hp | hp <;> simp [hp, Pc.AfterStore])
  · simp only [step, settle] at h
    split_ifs at h with hp
    exact hI.queued p (.inl hp)
  · simp only [next, nextAt, hp, Option.some.injEq, Prod.mk.injEq, Outcome.returned.injEq] at h
    rw [← h.2, hI.cell]
    cases s.stored <;> rfl
  · simpa [(hI.notified h).2] using (hI.asleep i).1 hi

/-- Agent `0` sleeps in `wait`; agent `1`'s `resolve()` stores and notifies: agent `0` no
longer sleeps. -/
theorem one_shot_wakes :
    ∃ s, (machine (n := 2) fun _ => true).Reachable s ∧ s.notified = true ∧ s.pc 0 ≠ .asleep :=
  let hs : (machine (n := 2) fun _ => true).Reachable _ :=
    ⟨[.wait 0, .next 0, .resolve 1 none, .next 1, .next 1], rfl⟩
  ⟨_, hs, rfl, ((one_shot _ hs).2.2.2.2.2.2 rfl).2 0⟩

/-- On an agent that cannot suspend, `wait` raises `TypeError`, also after `resolve()`. -/
theorem wait_raises :
    ∃ s t, (machine (n := 1) fun _ => false).Reachable s ∧ s.stored = true ∧
      next (fun _ => false) s 0 = some (t, some (.raised .typeError)) :=
  ⟨_, _, ⟨[.resolve 0 none, .next 0, .next 0, .wait 0], rfl⟩, rfl, rfl⟩

/-! ### Progress once resolved -/

/-- The agent whose call an action starts. -/
def Act.caller : Act n → Option (Fin n)
  | .wait i | .waitAsync i | .isResolved i | .resolve i _ => some i
  | .next _ | .settle _ => none

/-- How many more of its own steps a call at `p` takes while the cell is `1` and nobody sleeps:
`wait` and `waitAsync` find the cell set and load it, `resolve` stores and then notifies. No call
sleeps then, so the value at `asleep` is never used. -/
def Pc.stepsLeft : Pc → Nat
  | .idle => 0
  | .woken | .waitLoad | .asyncLoad | .isResolved | .notify _ => 1
  | .wait | .waitAsync | .store _ | .asleep => 2

theorem Inv.cell_of_notified (hI : Inv s) (hn : s.notified = true) : s.cell = 1 := by
  simp [hI.cell, (hI.notified hn).1]

theorem Inv.not_asleep (hI : Inv s) (hn : s.notified = true) (j : Fin n) : s.pc j ≠ .asleep :=
  fun h => by simpa [(hI.notified hn).2] using (hI.asleep j).1 h

/-- Once a `resolve()` without a count has notified, a step of agent `i` moves only `i`, nearer
the end of its call. -/
theorem next_of_notified (hI : Inv s) (hn : s.notified = true) {t : State n} {o : Option Outcome}
    (h : next canBlock s i = some (t, o)) :
    ∃ q, t.pc = Function.update s.pc i q ∧ q.stepsLeft < (s.pc i).stepsLeft ∧ t.notified = true := by
  have hc := hI.cell_of_notified hn
  have h0 : (s.cell ≠ 0) = True := eq_true (by rw [hc]; decide)
  have h1 : (s.cell ≠ 1) = False := eq_false (by simp [hc])
  cases hpc : s.pc i <;> simp only [next, nextAt, hpc, h0, h1, ↓reduceIte] at h
  case idle | asleep => cases h
  case notify c =>
    obtain ⟨rfl, -⟩ := Prod.mk.inj (Option.some.inj h)
    refine ⟨.idle, ?_, by simp [Pc.stepsLeft], by simp [hn]⟩
    have hw : (Atomics.notify s.waiters c).1 = [] := by
      cases c <;> simp [Atomics.notify, (hI.notified hn).2]
    funext j
    simp [State.setPc, State.wake, hw]
  all_goals
    (try split_ifs at h) <;> obtain ⟨rfl, -⟩ := Prod.mk.inj (Option.some.inj h) <;>
      exact ⟨_, rfl, by simp [Pc.stepsLeft], hn⟩

/-- Once resolved, no agent in a call is blocked. -/
theorem next_isSome_of_notified (hI : Inv s) (hn : s.notified = true) (hi : s.pc i ≠ .idle) :
    ∃ t o, next canBlock s i = some (t, o) := by
  have := hI.not_asleep hn i
  cases hpc : s.pc i <;> simp only [next, nextAt, hpc] <;> simp_all <;> split_ifs <;> simp

/-- One step, once resolved: agent `i`'s own step takes one off the steps its call has left, and
only a call it starts adds to them, at most two. -/
theorem step_stepsLeft (hI : Inv s) (hn : s.notified = true) {a : Act n} {t : State n}
    (h : step canBlock s a = some t) (i : Fin n) :
    t.notified = true ∧ (t.pc i).stepsLeft + [a].count (.next i) ≤
      (s.pc i).stepsLeft + 2 * ([a].filterMap Act.caller).count i := by
  cases a with
  | wait j | waitAsync j | isResolved j | resolve j c =>
    simp only [step, call] at h
    split_ifs at h with hj
    cases h
    refine ⟨hn, ?_⟩
    by_cases hij : i = j
    · subst hij; simp [hj, Pc.stepsLeft, Act.caller]
    · simp [setPc_apply, hij, Act.caller]
  | settle p =>
    simp only [step, settle] at h
    split_ifs at h
    cases h
    simp [hn, Act.caller]
  | next j =>
    obtain ⟨⟨t, o⟩, ht, rfl⟩ := Option.map_eq_some'.1 h
    obtain ⟨q, hpc, hlt, hn'⟩ := next_of_notified canBlock hI hn ht
    refine ⟨hn', ?_⟩
    by_cases hij : i = j
    · subst hij; simp [hpc, Act.caller]; omega
    · simp [hpc, hij, Act.caller, Ne.symm hij]

/-- Along a run from a resolved state, each agent's steps are paid for by the steps its call
had left and two for each call it starts. -/
theorem run_stepsLeft (hI : Inv s) (hn : s.notified = true) {as : List (Act n)} {t : State n}
    (h : (machine canBlock).run s as = some t) (i : Fin n) :
    as.count (.next i) + (t.pc i).stepsLeft ≤
      (s.pc i).stepsLeft + 2 * (as.filterMap Act.caller).count i := by
  induction as generalizing s with
  | nil => cases h; simp
  | cons a as ih =>
    obtain ⟨u, hu, hr⟩ := Option.bind_eq_some.1 h
    obtain ⟨hn', hstep⟩ := step_stepsLeft canBlock hI hn hu i
    have hrun := ih (inv_step canBlock hI hu) hn' hr
    rw [← List.singleton_append, List.count_append, List.filterMap_append, List.count_append]
    omega

/-- **Once resolved, `Signal`'s calls are wait-free.** From every reachable state in which a
`resolve()` without a count has notified, whichever agents can suspend and whatever the agents
do: no agent in a call is blocked, and along every run each agent takes no more steps than its
call in progress had left (`Pc.stepsLeft`, at most two) and two for each call it starts; so a call
in progress ends once its agent has taken the steps it had left. -/
theorem resolved_wait_free {s : State n} (hs : (machine canBlock).Reachable s)
    (hn : s.notified = true) :
    (∀ i, s.pc i ≠ .idle → ∃ t o, next canBlock s i = some (t, o)) ∧
      ∀ as t i, (machine canBlock).run s as = some t →
        as.count (.next i) + (t.pc i).stepsLeft ≤
          (s.pc i).stepsLeft + 2 * (as.filterMap Act.caller).count i := by
  have hI := (inv_machine canBlock).reachable hs
  exact ⟨fun i => next_isSome_of_notified canBlock hI hn, fun _ _ i h => run_stepsLeft canBlock hI hn h i⟩

/-- After agent `1`'s `resolve()` has woken agent `0`, every call ends within its steps. -/
theorem resolved_after_wakeup :
    ∃ s, (machine (n := 2) fun _ => true).Reachable s ∧ s.notified = true ∧
      (∀ i, s.pc i ≠ .idle → ∃ t o, next (fun _ => true) s i = some (t, o)) ∧
      ∀ as t i, (machine (n := 2) fun _ => true).run s as = some t →
        as.count (.next i) + (t.pc i).stepsLeft ≤
          (s.pc i).stepsLeft + 2 * (as.filterMap Act.caller).count i :=
  let hs : (machine (n := 2) fun _ => true).Reachable _ :=
    ⟨[.wait 0, .next 0, .resolve 1 none, .next 1, .next 1], rfl⟩
  ⟨_, hs, rfl, resolved_wait_free _ hs rfl⟩

end Signal
end WasiKit
