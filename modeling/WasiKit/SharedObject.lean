/-
# `Lock`, `Signal` and `SharedObject` in memory

The constructors of the objects that live in shared memory, over the buffer:
`Lock` and `Signal` take an `Int32Array` of one element over their range and
store its initial value (`1`, unlocked; `0`, unresolved) when they allocate the
range themselves or load in `new` mode; `Lock.Type.load` and `Signal.Type.load`
assert a word alignment and construct over the sub-range of four bytes at the
offset, which must lie inside the range.

A `SharedObject` either allocates its record (`new` mode) or attaches to a
range of exactly the record's size (`existing` mode), then loads its view and
reads `_lock` from it. As every `SharedObject` record has the `ObjectType` field
`_lock`, the load throws (`Record.Type.load_objectType`): the constructor raises
`TypeError` in both modes, or the alignment error at an address that is not a
multiple of the record's alignment, after the `new` mode has allocated and
zeroed the range, so the lock cell is left `0` (`SharedObject.new_raises`).

Key definitions: `Lock.new`, `Lock.Type.load`, `Signal.new`, `SharedObject.new`.
Key theorems: `Lock.new_cell`, `Lock.Type.load_cell`, `SharedObject.new_raises`,
`sharedObject_new_lock_cell`.
-/
import WasiKit.Record.Load

namespace WasiKit

/-- A call that only reads the buffer, as a step on it. -/
def reading {α : Type} (x : Buffer → Except Error α) : EStateM Error Buffer α := fun b =>
  match x b with
  | .ok a => .ok a b
  | .error e => .error e b

theorem reading_ok {α : Type} {x : Buffer → Except Error α} {b : Buffer} {a : α} (h : x b = .ok a) :
    reading x b = .ok a b := by
  simp [reading, h]

/-- Modelled from the spec: `getInt32View(0, 1)` of the component model, an `Int32Array` of one
element at the range's address, which the host refuses (`RangeError`) off a multiple of four
or outside the buffer; the range's own size is not checked. It is the address of the cell. -/
def MemoryRange.int32Cell (r : MemoryRange) (b : Buffer) : Except Error Nat :=
  if r.ptr % 4 = 0 ∧ r.ptr + 4 ≤ b.byteLength then .ok r.ptr else .error .rangeError

/-- The argument of the `Lock` and `Signal` constructors: a memory to allocate the cell in,
or a range and perhaps a context. -/
inductive CellArg where
  | memory (m : SharedMemory)
  | range (r : MemoryRange) (context : Option Mode)

/-- A `Lock` object of one agent: its cell's range, and its `lockCount`. -/
structure Lock where
  memoryRange : MemoryRange
  lockCount : Nat

/-- The range of a new cell object, and whether its value is stored: `Lock.alloc` /
`Signal.alloc` (`memory.alloc(u32.alignment, u32.size)`) for a memory, the range itself
otherwise. -/
def CellArg.range? : CellArg → EStateM Error Buffer (MemoryRange × Bool)
  | .memory m => do
    let r ← m.alloc .word 4
    return (r, true)
  | .range r context => return (r, context = some .new)

/-- The part `Lock` and `Signal` share: the cell, and `Atomics.store` of `initial` in it when
the object allocated it or loads in `new` mode. -/
def cellNew (arg : CellArg) (initial : BitVec 32) : EStateM Error Buffer MemoryRange := do
  let (r, store) ← arg.range?
  let cell ← reading r.int32Cell
  if store then modify (·.setInt32 cell initial)
  return r

/-- The `Lock` constructor. -/
def Lock.new (arg : CellArg) : EStateM Error Buffer Lock := do
  let r ← cellNew arg 1
  return ⟨r, 0⟩

/-- A `Signal` object: its cell's range. -/
structure Signal where
  memoryRange : MemoryRange

/-- The `Signal` constructor. -/
def Signal.new (arg : CellArg) : EStateM Error Buffer Signal := do
  let r ← cellNew arg 0
  return ⟨r⟩

/-- `Lock.Type.load`. -/
def Lock.Type.load (memory : MemoryRange) (offset : Nat) (context : Mode) :
    EStateM Error Buffer Lock := do
  reading fun _ => memory.assertAlignment offset .word
  let r ← reading fun _ => memory.range offset 4
  Lock.new (.range r (some context))

/-- `Signal.Type.load`. -/
def Signal.Type.load (memory : MemoryRange) (offset : Nat) (context : Mode) :
    EStateM Error Buffer Signal := do
  reading fun _ => memory.assertAlignment offset .word
  let r ← reading fun _ => memory.range offset 4
  Signal.new (.range r (some context))

theorem cellNew_range {r : MemoryRange} {context : Option Mode} {initial : BitVec 32} {b : Buffer}
    (ha : 4 ∣ r.ptr) (hb : r.ptr + 4 ≤ b.byteLength) :
    cellNew (.range r context) initial b =
      .ok r (if context = some .new then b.setInt32 r.ptr initial else b) := by
  have : r.int32Cell b = .ok r.ptr := by
    simp [MemoryRange.int32Cell, Nat.mod_eq_zero_of_dvd ha, hb]
  by_cases hc : context = some .new <;>
    simp [cellNew, CellArg.range?, bind, EStateM.bind, pure, EStateM.pure, reading_ok this, hc,
      modify, modifyGet, MonadStateOf.modifyGet, EStateM.modifyGet]

/-- **`new Lock(memory)` leaves its cell unlocked**: with an allocator that returns a
non-null word-aligned address inside the buffer, the cell reads `1`. -/
theorem Lock.new_cell {m : SharedMemory} {b b' : Buffer} {ptr : Nat}
    (h : m.exports.alignedAlloc 4 4 b = .ok ptr b') (h0 : ptr ≠ 0) (ha : 4 ∣ ptr)
    (hb : ptr + 4 ≤ b'.byteLength) :
    ∃ l b'', Lock.new (.memory m) b = .ok l b'' ∧ l.memoryRange.ptr = ptr ∧ l.lockCount = 0 ∧
      b''.getInt32 ptr = 1 := by
  have hal : m.alloc .word 4 b = .ok ⟨⟨m, ptr, 4⟩, false⟩ (b'.fill ptr 4) :=
    SharedMemory.alloc_ok h h0 hb
  have hc : (⟨⟨m, ptr, 4⟩, false⟩ : MemoryRange).int32Cell (b'.fill ptr 4) = .ok ptr := by
    simp [MemoryRange.int32Cell, Nat.mod_eq_zero_of_dvd ha, hb, Buffer.fill]
  refine ⟨⟨⟨⟨m, ptr, 4⟩, false⟩, 0⟩, (b'.fill ptr 4).setInt32 ptr 1, ?_, rfl, rfl,
    Buffer.getInt32_setInt32 _ _ _⟩
  simp [Lock.new, cellNew, CellArg.range?, bind, EStateM.bind, hal, pure, EStateM.pure,
    reading_ok hc, modify, modifyGet, MonadStateOf.modifyGet, EStateM.modifyGet]

/-- `Lock.Type.load` at a word-aligned offset of a word-aligned range, the cell inside the range
and the buffer: in `new` mode the cell is stored `1`, in `existing` mode no byte changes. -/
theorem Lock.Type.load_cell {memory : MemoryRange} {offset : Nat} {context : Mode} {b : Buffer}
    (hp : 4 ∣ memory.ptr) (ho : 4 ∣ offset) (hr : offset + 4 ≤ memory.size)
    (hb : memory.ptr + offset + 4 ≤ b.byteLength) :
    Lock.Type.load memory offset context b =
      .ok ⟨⟨⟨memory.memory, memory.ptr + offset, 4⟩, false⟩, 0⟩
        (if context = .new then b.setInt32 (memory.ptr + offset) 1 else b) := by
  have h := @cellNew_range ⟨⟨memory.memory, memory.ptr + offset, 4⟩, false⟩ (some context) 1 b
    (Nat.dvd_add hp ho) hb
  simp only [Option.some.injEq] at h
  simp only [Lock.Type.load, Lock.new, bind, EStateM.bind, reading,
    BaseMemoryRange.assertAlignment_ok (a := .word) hp ho, MemoryRange.range, hr, if_true, h, pure,
    EStateM.pure]

/-! ### `SharedObject` -/

variable {V : Type}

/-- The argument of the `SharedObject` constructor. -/
inductive MemoryOrLocation where
  | memory (m : SharedMemory)
  | range (r : MemoryRange)

/-- `SharedObject.properties`: `_size` and `_id` (`u32`, a parameter here as the component
model is not among the sources) and `_lock`. -/
def SharedObject.properties (u32 : ValueType V) : List (String × PropertyType V) :=
  [("_size", .value u32), ("_id", .value u32), ("_lock", .lock)]

/-- What a `SharedObject` holds: its range, its view `access` and what reading `_lock` from
the view gave. -/
structure SharedObject (V : Type) where
  memoryRange : MemoryRange
  access : Record.View V
  lock : Option V

/-- The `SharedObject` constructor, for a record type `type`. -/
def SharedObject.new (type : Record.Type V) : MemoryOrLocation → EStateM Error Buffer (SharedObject V)
  | .range r => do
    let ptr := r.ptr
    let size := r.size
    let typeSize := type.size
    if r.size ≠ type.size then
      throw (.componentModelTrap
        s!"Allocated memory[{ptr},{size}] doesn't match the record size[{typeSize}].")
    attach r .existing
  | .memory m => do
    let r ← m.alloc type.alignment type.size
    attach r .new
where
  /-- Load the view over `r` and read `_lock` from it. -/
  attach (r : MemoryRange) (context : Mode) : EStateM Error Buffer (SharedObject V) := do
    let access ← reading fun _ => type.load r 0 context
    let lock ← reading fun b => match access.get "_lock" b with
      | none => .ok none
      | some x => x.map some
    return ⟨r, access, lock⟩

/-- The record type of a `SharedObject` with the further properties `P`. -/
def SharedObject.recordType (u32 : ValueType V) (P : List (String × PropertyType V)) :
    Except Error (Record.Type V) :=
  Record.Type.new [SharedObject.properties u32, P]

theorem SharedObject.lock_mem {u32 : ValueType V} {P : List (String × PropertyType V)}
    {T : Record.Type V} (hT : SharedObject.recordType u32 P = .ok T) :
    ∃ f ∈ T.fields, ¬ f.2.IsValue := by
  obtain ⟨hl, -⟩ := Record.Type.laid_of_new hT
  have : PropertyType.lock ∈ T.fields.map (·.2.type) := by
    rw [hl.types]
    simp [SharedObject.properties]
  obtain ⟨f, hf, he⟩ := List.mem_map.1 this
  exact ⟨f, hf, fun ⟨t, ht⟩ => by rw [he] at ht; cases ht⟩

/-- **No `SharedObject` can be constructed.** For every record `T` of
`SharedObject.properties` and further properties, the constructor raises: over a range of
`T.size` bytes, and in `new` mode with an allocator that returns a non-null address inside the
buffer, it raises `TypeError` when the address is a multiple of `T.alignment` and the alignment
error of `assertAlignment` when it is not. In `new` mode it raises after the range was
allocated and zeroed (so its lock cell reads `0`, and the range is never freed); over a range it
changes nothing. Over a range of any other size it raises `ComponentModelTrap` and changes
nothing. -/
theorem SharedObject.new_raises {u32 : ValueType V} {P : List (String × PropertyType V)}
    {T : Record.Type V} (hT : SharedObject.recordType u32 P = .ok T) :
    (∀ (m : SharedMemory) (b b' : Buffer) (ptr : Nat),
        m.exports.alignedAlloc T.alignment.toNat T.size b = .ok ptr b' → ptr ≠ 0 →
        ptr + T.size ≤ b'.byteLength →
        SharedObject.new T (.memory m) b =
          .error (if T.alignment.toNat ∣ ptr then .typeError else .alignmentError)
            (b'.fill ptr T.size)) ∧
      (∀ (r : MemoryRange) (b : Buffer), r.size = T.size →
        SharedObject.new T (.range r) b =
          .error (if T.alignment.toNat ∣ r.ptr then .typeError else .alignmentError) b) ∧
      (∀ (r : MemoryRange) (b : Buffer), r.size ≠ T.size →
        ∃ msg, SharedObject.new T (.range r) b = .error (.componentModelTrap msg) b) := by
  have hobj := SharedObject.lock_mem hT
  -- at offset `0` only the range's own alignment is checked, and then the `_lock` field throws
  have hload : ∀ (r : MemoryRange) (c : Mode),
      T.load r 0 c = .error (if T.alignment.toNat ∣ r.ptr then .typeError else .alignmentError) :=
    fun r c => by
      split_ifs with ha
      · exact Record.Type.load_objectType ha (dvd_zero _) hobj
      · exact Record.Type.load_misaligned fun h => ha h.1
  refine ⟨fun m b b' ptr h h0 hb => ?_, fun r b hs => ?_, fun r b hs => ?_⟩
  · simp only [SharedObject.new, bind, EStateM.bind, SharedMemory.alloc_ok h h0 hb,
      SharedObject.new.attach, reading, hload]
  · simp only [SharedObject.new, hs, ne_eq, not_true_eq_false, if_false, SharedObject.new.attach,
      bind, EStateM.bind, reading, hload, pure, EStateM.pure]
  · simp [SharedObject.new, hs, throw, throwThe, MonadExceptOf.throw, EStateM.throw, bind,
      EStateM.bind]

/-- The record of `SharedObject.properties` alone over twelve-byte ranges: at address `8` the
constructor raises `TypeError`, at address `2` the alignment error. -/
theorem new_raises_existing :
    ∃ T, SharedObject.recordType ValueType.u32 [] = .ok T ∧
      SharedObject.new T (.range ⟨⟨allocAt 8, 8, 12⟩, false⟩) (Buffer.zeros 32) =
        .error .typeError (Buffer.zeros 32) ∧
      SharedObject.new T (.range ⟨⟨allocAt 8, 2, 12⟩, false⟩) (Buffer.zeros 32) =
        .error .alignmentError (Buffer.zeros 32) :=
  ⟨_, rfl, (@SharedObject.new_raises Nat ValueType.u32 [] _ rfl).2.1 ⟨⟨allocAt 8, 8, 12⟩, false⟩ _ rfl,
    (@SharedObject.new_raises Nat ValueType.u32 [] _ rfl).2.1 ⟨⟨allocAt 8, 2, 12⟩, false⟩ _ rfl⟩

/-- The smallest `SharedObject`, of `_size`, `_id` and `_lock` only: in `new` mode its
constructor raises with the lock cell `0`; over a twelve-byte range it raises too. -/
theorem sharedObject_new_lock_cell :
    ∃ T, SharedObject.recordType ValueType.u32 [] = .ok T ∧ T.size = 12 ∧
      (∃ b', SharedObject.new T (.memory (allocAt 8)) (Buffer.zeros 32) = .error .typeError b' ∧
        b'.getInt32 (8 + 8) = 0) ∧
      SharedObject.new T (.range ⟨⟨allocAt 8, 8, 12⟩, false⟩) (Buffer.zeros 32) =
        .error .typeError (Buffer.zeros 32) :=
  ⟨_, rfl, rfl, ⟨_, rfl, by decide⟩, rfl⟩

end WasiKit
