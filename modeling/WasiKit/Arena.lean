/-
# The arena over its lifetime

`MemoryImpl` hands out ranges: `alloc` through the module's allocator and a
zero-filling view that raises outside the buffer, `preAllocated` and
`readonly` after their bounds check, and `MemoryLocation.to`, which resolves
a location with `preAllocated`. The agents sharing the memory call these in
any order, with `free`, `copyWithin` and `memory.grow` in between. The arena
machine runs those calls on the buffer and keeps the ranges returned so far.

A WebAssembly memory never shrinks: no export of the module and no
`memory.grow` makes the buffer shorter (`Exports.Grows`). So every range
handed out stays inside the buffer (`Arena.Inv`), and at any later point
`MemoryLocation.to` resolves its location to a range of the same memory with
its `ptr` and `size`, while a location of another memory raises and hands out
nothing (`Arena.location_roundTrip`).

Key definitions: `Lengthens`, `Exports.Grows`, `Buffer.grow`, `Arena.step`,
`Arena.machine`, `Arena.Inv`.
Key theorems: `SharedMemory.alloc_lengthens`, `SharedMemory.alloc_eq_ok`,
`Arena.inv_machine`, `Arena.location_roundTrip`.
-/
import WasiKit.Atomics
import WasiKit.SharedMemory

namespace WasiKit

/-! ### Memory only grows -/

/-- A call that, whatever it ends in, leaves the buffer at least as long as it found it. -/
def Lengthens {α : Type} (x : EStateM Error Buffer α) : Prop :=
  ∀ b, b.byteLength ≤ (x b).state.byteLength

namespace Lengthens

variable {α β : Type}

theorem pure (a : α) : Lengthens (pure a : EStateM Error Buffer α) := fun _ => le_refl _

theorem throw (e : Error) : Lengthens (throw e : EStateM Error Buffer α) := fun _ => le_refl _

theorem bind {x : EStateM Error Buffer α} {f : α → EStateM Error Buffer β} (hx : Lengthens x)
    (hf : ∀ a, Lengthens (f a)) : Lengthens (x >>= f) := by
  intro b
  have h := hx b
  rw [show (x >>= f) b = EStateM.bind x f b from rfl, EStateM.bind]
  cases hb : x b with
  | ok a s => rw [hb] at h; exact h.trans (hf a s)
  | error e s => rw [hb] at h; exact h

end Lengthens

/-- WebAssembly has no instruction that shrinks a linear memory: the module's `aligned_alloc`
and `free`, whatever they end in, leave the buffer at least as long. -/
def Exports.Grows (e : Exports) : Prop :=
  (∀ align size, Lengthens (e.alignedAlloc align size)) ∧ ∀ ptr, Lengthens (e.free ptr)

/-- `memory.grow(pages)`: the buffer longer by `pages` pages of 64 KiB of zeros. -/
def Buffer.grow (b : Buffer) (pages : Nat) : Buffer :=
  ⟨b.byteLength + 65536 * pages, fun i => if i < b.byteLength then b.bytes i else 0⟩

namespace SharedMemory

variable {m : SharedMemory} {align : Alignment} {size : Nat}

/-- `alloc` never shortens the buffer: the allocator does not, and the zero fill writes in
place. -/
theorem alloc_lengthens (hm : m.exports.Grows) (align : Alignment) (size : Nat) :
    Lengthens (m.alloc align size) := by
  have hfill : ∀ r : MemoryRange, Lengthens r.fillZero := fun r b => by
    unfold MemoryRange.fillZero
    split <;> exact le_refl _
  refine Lengthens.bind (hm.1 _ _) fun ptr => ?_
  split <;> refine Lengthens.bind ?_ fun _ => (hfill _).bind fun _ => Lengthens.pure _
  · exact Lengthens.throw _
  · exact Lengthens.pure _

/-- A range `alloc` returns is of the memory and inside the buffer it leaves: the zero fill
raises outside it. -/
theorem alloc_eq_ok {b b' : Buffer} {r : MemoryRange} (h : m.alloc align size b = .ok r b') :
    r.memory = m ∧ r.ptr + r.size ≤ b'.byteLength := by
  cases h1 : m.exports.alignedAlloc align.toNat size b with
  | error e b1 => simp [alloc, bind, EStateM.bind, h1] at h
  | ok ptr b1 =>
    by_cases h0 : ptr = 0
    · simp only [alloc, bind, EStateM.bind, h1, h0] at h
      cases h
    by_cases hb : ptr + size ≤ b1.byteLength
    · rw [alloc_ok h1 h0 hb] at h
      cases h
      exact ⟨rfl, hb⟩
    · simp [alloc, bind, EStateM.bind, h1, h0, MemoryRange.fillZero, hb, pure, EStateM.pure] at h

end SharedMemory

/-! ### The arena machine -/

namespace Arena

/-- What the agents sharing a memory do with it: call one of `MemoryImpl`'s methods or
`MemoryLocation.to`, or grow the linear memory (`memory.grow`, from the module or the host). -/
inductive Act where
  | alloc (align : Alignment) (size : Nat)
  | free (range : MemoryRange)
  | preAllocated (ptr size : Nat)
  | readonly (ptr size : Nat)
  | copyWithin (dest : MemoryRange) (src : ReadonlyMemoryRange)
  /-- `MemoryLocation.to(m, location)` -/
  | locationTo (location : MemoryLocation)
  | grow (pages : Nat)

/-- The buffer, and the ranges the calls have returned so far, latest first. -/
structure State where
  buffer : Buffer
  ranges : List BaseMemoryRange

/-- A call that returns a range or raises, and changes no byte: a returned range joins the
list. -/
def State.keep (s : State) : Except Error BaseMemoryRange → State
  | .ok r => { s with ranges := r :: s.ranges }
  | .error _ => s

variable (m : SharedMemory)

/-- One call on the memory `m`, whatever it ends in. -/
def step (s : State) : Act → Option State
  | .alloc align size => some <| match m.alloc align size s.buffer with
    | .ok r b => ⟨b, r.toBaseMemoryRange :: s.ranges⟩
    | .error _ b => ⟨b, s.ranges⟩
  | .free range => some ⟨(m.free range s.buffer).state, s.ranges⟩
  | .preAllocated ptr size =>
    some (s.keep ((m.preAllocated ptr size s.buffer).map (·.toBaseMemoryRange)))
  | .readonly ptr size => some (s.keep ((m.readonly ptr size s.buffer).map (·.toBaseMemoryRange)))
  | .copyWithin dest src => some ⟨SharedMemory.copyWithin dest src s.buffer, s.ranges⟩
  | .locationTo location =>
    some (s.keep ((MemoryLocation.to m location s.buffer).map (·.toBaseMemoryRange)))
  | .grow pages => some ⟨s.buffer.grow pages, s.ranges⟩

/-- The memory `m` from the buffer `b`, before any range is handed out. -/
def machine (b : Buffer) : System State Act := ⟨⟨b, []⟩, step m⟩

/-- Every range handed out is of `m` and lies inside the buffer. -/
def Inv (s : State) : Prop := ∀ r ∈ s.ranges, r.memory = m ∧ r.ptr + r.size ≤ s.buffer.byteLength

variable {m} {s s' : State}

/-- A call that changes no range and does not shorten the buffer. -/
theorem Inv.lengthen {b : Buffer} (hI : Inv m s) (hb : s.buffer.byteLength ≤ b.byteLength) :
    Inv m ⟨b, s.ranges⟩ :=
  fun r hr => ⟨(hI r hr).1, (hI r hr).2.trans hb⟩

/-- A call that, when it returns, hands out a range of `m` inside the buffer. -/
theorem Inv.keep {α : Type} {f : α → BaseMemoryRange} {x : Except Error α} (hI : Inv m s)
    (hx : ∀ r, x = .ok r → (f r).memory = m ∧ (f r).ptr + (f r).size ≤ s.buffer.byteLength) :
    Inv m (s.keep (x.map f)) := by
  rcases x with _ | r
  · exact hI
  · intro q hq
    rcases List.mem_cons.1 hq with rfl | hq
    · exact hx r rfl
    · exact hI q hq

/-- **Every call keeps the handed-out ranges inside the buffer.** -/
theorem inv_step (hm : m.exports.Grows) {a : Act} (hI : Inv m s) (h : step m s a = some s') :
    Inv m s' := by
  cases a with
  | alloc align size =>
    cases h
    have hl := SharedMemory.alloc_lengthens hm align size s.buffer
    split
    · rename_i r b hab
      rw [hab] at hl
      exact (hI.lengthen hl).keep (x := .ok r) (f := (·.toBaseMemoryRange)) fun _ h => by
        cases h; exact SharedMemory.alloc_eq_ok hab
    · rename_i b hab
      rw [hab] at hl
      exact hI.lengthen hl
  | free range => cases h; exact hI.lengthen (hm.2 _ _)
  | preAllocated ptr size =>
    cases h
    exact hI.keep fun r hr => by
      obtain ⟨hb, rfl⟩ := SharedMemory.preAllocated_eq_ok.1 hr
      exact ⟨rfl, hb⟩
  | readonly ptr size =>
    cases h
    exact hI.keep fun r hr => by
      obtain ⟨hb, rfl⟩ := SharedMemory.readonly_eq_ok.1 hr
      exact ⟨rfl, hb⟩
  | copyWithin dest src => cases h; exact hI.lengthen (le_refl _)
  | locationTo location =>
    cases h
    exact hI.keep fun r hr => by
      obtain ⟨-, hb, rfl⟩ := MemoryLocation.to_eq_ok.1 hr
      exact ⟨rfl, hb⟩
  | grow pages => cases h; exact hI.lengthen (Nat.le_add_right _ _)

theorem inv_machine (hm : m.exports.Grows) (b : Buffer) : (machine m b).Invariant (Inv m) where
  init _ h := nomatch h
  step hI h := inv_step hm hI h

/-- No call takes a range back: `free` releases the memory, not the range object. -/
theorem ranges_step {a : Act} (h : step m s a = some s') {r : BaseMemoryRange} (hr : r ∈ s.ranges) :
    r ∈ s'.ranges := by
  have hk : ∀ x : Except Error BaseMemoryRange, r ∈ (s.keep x).ranges := fun x => by
    rcases x with _ | q
    · exact hr
    · exact List.mem_cons_of_mem _ hr
  cases a <;> cases h
  case alloc align size => split <;> simp [hr]
  all_goals first | exact hk _ | exact hr

/-- **`MemoryLocation` round-trips over the arena's lifetime.** Whatever the agents do with
the memory `m` from any buffer on, its exports only growing the memory: a range that `alloc`,
`preAllocated`, `readonly` or `MemoryLocation.to` has returned resolves through its location,
at every later point, to a range of `m` with its `ptr` and `size`; a location of another
memory raises `MemoryError` and hands out no range. -/
theorem location_roundTrip (hm : m.exports.Grows) {b : Buffer} (hs : (machine m b).Reachable s) :
    (∀ r ∈ s.ranges, ∀ as s', (machine m b).run s as = some s' →
      MemoryLocation.to m (MemoryLocation.from r) s'.buffer = .ok ⟨⟨m, r.ptr, r.size⟩, true⟩) ∧
    ∀ location : MemoryLocation, location.memoryId ≠ m.id →
      MemoryLocation.to m location s.buffer = .error (.memoryError "Memory location does not match") ∧
        step m s (.locationTo location) = some s := by
  refine ⟨fun r hr as s' h => ?_, fun location hl => ?_⟩
  · obtain ⟨hI, hr'⟩ := System.run_keeps (P := fun t => Inv m t ∧ r ∈ t.ranges)
      (fun hP ht => ⟨inv_step hm hP.1 ht, ranges_step ht hP.2⟩) ⟨(inv_machine hm b).reachable hs, hr⟩ h
    exact MemoryLocation.to_from (hI r hr').1 (hI r hr').2
  · have hto : MemoryLocation.to m location s.buffer =
        .error (.memoryError "Memory location does not match") := by
      simp [MemoryLocation.to, Ne.symm hl]
    exact ⟨hto, by simp [step, hto, Except.map, State.keep]⟩

/-- The allocator of `allocAt 8` returns `8`. A word range allocated in a 16-byte buffer, then
freed, with the memory grown by a page, still resolves through its location. -/
theorem location_after_free_and_grow :
    ∃ s', (machine (allocAt 8) (Buffer.zeros 16)).run ⟨(Buffer.zeros 16).fill 8 4, [⟨allocAt 8, 8, 4⟩]⟩
        [.free ⟨⟨allocAt 8, 8, 4⟩, false⟩, .grow 1] = some s' ∧
      MemoryLocation.to (allocAt 8) (MemoryLocation.from ⟨allocAt 8, 8, 4⟩) s'.buffer =
        .ok ⟨⟨allocAt 8, 8, 4⟩, true⟩ :=
  ⟨_, rfl, (location_roundTrip (m := allocAt 8) (b := Buffer.zeros 16)
    ⟨fun _ _ _ => le_refl _, fun _ _ => le_refl _⟩ ⟨[.alloc .word 4], rfl⟩).1 _
    (List.mem_singleton_self _) [.free ⟨⟨allocAt 8, 8, 4⟩, false⟩, .grow 1] _ rfl⟩

end Arena

end WasiKit
