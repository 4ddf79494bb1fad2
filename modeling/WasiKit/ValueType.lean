/-
# Value types: fields stored in place

A `ValueType` loads a value from a range and stores one into it, at an offset.
The component model's `u32` is not among the sources and is modelled from the
spec (four bytes, word-aligned). `ValueType.MemoryRange` and
`ValueType.ReadonlyMemoryRange` store a range as its `(ptr, size)` pair and
load it back with `preAllocated` or `readonly` of the container's memory; they
differ only in that, so both are `rangeType` applied to their own view.

Of a range only `ptr` and `size` are stored, not its memory: a range of the
container's own memory comes back as it was (`rangeType_roundTrip`), a range of
another memory comes back as the same numbers read in the container's memory.

Key definitions: `ValueType`, `ValueType.rangeType`, `ValueType.MemoryRange`,
`ValueType.ReadonlyMemoryRange`.
Key theorems: `ValueType.rangeType_roundTrip`, `ValueType.range_roundTrip`.
-/
import WasiKit.SharedMemory

namespace WasiKit

/-- `SharedObjectContext.Mode`: whether a load initialises the bytes or attaches to
bytes another agent initialised. Of the context the modelled code reads only this. -/
inductive Mode where
  | new
  | existing
  deriving DecidableEq, Repr

/-- A `ValueType` over the values `V` its fields hold: its size and alignment, and its
`load` and `store` at an offset of a range. -/
structure ValueType (V : Type) where
  size : Nat
  alignment : Alignment
  load : BaseMemoryRange → Nat → Mode → Buffer → Except Error V
  store : MemoryRange → Nat → V → Mode → EStateM Error Buffer Unit

namespace ValueType

/-- Modelled from the spec: the component model's `u32`, a little-endian word. -/
def u32 : ValueType Nat where
  size := 4
  alignment := .word
  load memory offset _ b := memory.getUint32 offset b
  store memory offset value _ := memory.setUint32 offset value

/-- The value types `$MemoryRange` and `$ReadonlyMemoryRange`: `ptr` and `size` as two
`u32` (`ptr.size + u32.size` bytes, word-aligned), loaded back through `view` of the
container's memory. -/
def rangeType {R : Type} (base : R → BaseMemoryRange)
    (view : SharedMemory → Nat → Nat → Buffer → Except Error R) : ValueType R where
  size := 4 + 4
  alignment := .word
  load memRange offset _ b := do
    let ptr ← memRange.getUint32 offset b
    let size ← memRange.getUint32 (offset + 4) b
    view memRange.memory ptr size b
  store memory offset value _ := do
    memory.setUint32 offset (base value).ptr
    memory.setUint32 (offset + 4) (base value).size

/-- `ValueType.MemoryRange`. -/
def MemoryRange : ValueType WasiKit.MemoryRange :=
  rangeType (·.toBaseMemoryRange) SharedMemory.preAllocated

/-- `ValueType.ReadonlyMemoryRange`. -/
def ReadonlyMemoryRange : ValueType WasiKit.ReadonlyMemoryRange :=
  rangeType (·.toBaseMemoryRange) SharedMemory.readonly

/-- The type writes only inside its slot: a store at `offset` of `r` changes no byte outside
`[r.ptr + offset, r.ptr + offset + size)`, whether it returns or raises. -/
def StoresWithin {V : Type} (t : ValueType V) : Prop :=
  ∀ r offset v mode, Frames (t.store r offset v mode) (r.ptr + offset) (r.ptr + offset + t.size)

/-- The type reads only its slot and the buffer's length. -/
def LoadsWithin {V : Type} (t : ValueType V) : Prop :=
  ∀ r offset mode (b b' : Buffer), b'.byteLength = b.byteLength →
    (∀ i, r.ptr + offset ≤ i → i < r.ptr + offset + t.size → b'.bytes i = b.bytes i) →
    t.load r offset mode b' = t.load r offset mode b

theorem u32_storesWithin : u32.StoresWithin := fun r offset v _ => r.setUint32_frames offset v

theorem u32_loadsWithin : u32.LoadsWithin := fun _ _ _ _ _ hl h => BaseMemoryRange.getUint32_congr hl h

section RangeType

variable {R : Type} {base : R → BaseMemoryRange} {view : SharedMemory → Nat → Nat → Buffer → Except Error R}

/-- The store of a range type: at a misaligned slot it raises the alignment error; at an
aligned one it raises only if the container is outside its buffer; either way raising changes
nothing, and otherwise it writes the two words. -/
theorem rangeType_store (c : WasiKit.MemoryRange) (o : Nat) (r : R) (mode : Mode) (b : Buffer)
    (ho : o + 8 ≤ c.size) :
    (rangeType base view).store c o r mode b =
      if 4 ∣ c.ptr ∧ 4 ∣ o then
        if c.ptr + c.size ≤ b.byteLength then
          .ok () ((b.setUint32 (c.ptr + o) (base r).ptr).setUint32 (c.ptr + (o + 4)) (base r).size)
        else .error .rangeError b
      else .error .alignmentError b := by
  by_cases hal : 4 ∣ c.ptr ∧ 4 ∣ o
  · obtain ⟨hp, ho4⟩ := hal
    have ho4' : 4 ∣ o + 4 := Nat.dvd_add ho4 (dvd_refl 4)
    by_cases hc : c.ptr + c.size ≤ b.byteLength
    · have h1 := MemoryRange.setUint32_ok (v := (base r).ptr) hp ho4 (b := b) ⟨hc, by omega⟩
      have h2 := MemoryRange.setUint32_ok (v := (base r).size) hp ho4'
        (b := b.setUint32 (c.ptr + o) (base r).ptr) ⟨by simpa using hc, by omega⟩
      simp [rangeType, bind, EStateM.bind, h1, h2, hc, hp, ho4]
    · simp [rangeType, bind, EStateM.bind, MemoryRange.setUint32, hc, hp, ho4,
        BaseMemoryRange.assertAlignment_ok (a := .word) hp ho4, BaseMemoryRange.InBounds]
  · simp [rangeType, bind, EStateM.bind, MemoryRange.setUint32, BaseMemoryRange.assertAlignment_eq,
      hal, Alignment.toNat]

/-- **The `(ptr, size)` encoding round-trips.** If the store returns, it wrote only the
eight bytes of the slot, and the load reads back `view` of the container's memory at
`r`'s `ptr` and `size`, as long as both fit a `u32`. -/
theorem rangeType_roundTrip (c : WasiKit.MemoryRange) (o : Nat) (r : R) (mode : Mode) (b : Buffer)
    (ho : o + 8 ≤ c.size) (hp : (base r).ptr < 2 ^ 32) (hs : (base r).size < 2 ^ 32) :
    (∃ e, (rangeType base view).store c o r mode b = .error e b) ∨
      ∃ b', (rangeType base view).store c o r mode b = .ok () b' ∧ b'.byteLength = b.byteLength ∧
        (∀ i, i < c.ptr + o ∨ c.ptr + o + 8 ≤ i → b'.bytes i = b.bytes i) ∧
        (rangeType base view).load c.toBaseMemoryRange o mode b' =
          view c.memory (base r).ptr (base r).size b' := by
  rw [rangeType_store c o r mode b ho]
  split_ifs with hal hc
  · obtain ⟨hcp, ho4⟩ := hal
    have ho4' : 4 ∣ o + 4 := Nat.dvd_add ho4 (dvd_refl 4)
    refine .inr ⟨_, rfl, rfl, fun i hi => ?_, ?_⟩
    · rw [Buffer.setUint32_bytes_of_not_mem (by omega), Buffer.setUint32_bytes_of_not_mem (by omega)]
    · have hptr : ((b.setUint32 (c.ptr + o) (base r).ptr).setUint32 (c.ptr + (o + 4)) (base r).size).getUint32
          (c.ptr + o) = (base r).ptr := by
        rw [Buffer.getUint32_congr fun i _ _ => Buffer.setUint32_bytes_of_not_mem (by omega),
          Buffer.getUint32_setUint32, Nat.mod_eq_of_lt hp]
      simp only [rangeType, bind, Except.bind]
      rw [BaseMemoryRange.getUint32_ok hcp ho4 ⟨by simpa using hc, by omega⟩,
        BaseMemoryRange.getUint32_ok hcp ho4' ⟨by simpa using hc, by omega⟩, hptr,
        Buffer.getUint32_setUint32, Nat.mod_eq_of_lt hs]
  · exact .inl ⟨_, rfl⟩
  · exact .inl ⟨_, rfl⟩

theorem rangeType_storesWithin : (rangeType base view).StoresWithin := fun r offset _ _ =>
  ((r.setUint32_frames offset _).mono le_rfl (by simp [rangeType])).bind fun _ =>
    (r.setUint32_frames (offset + 4) _).mono (by omega) (by simp [rangeType]; omega)

theorem rangeType_loadsWithin
    (hview : ∀ m ptr size (b b' : Buffer), b'.byteLength = b.byteLength → view m ptr size b' = view m ptr size b) :
    (rangeType base view).LoadsWithin := by
  intro r offset _ b b' hl h
  simp only [rangeType] at h ⊢
  rw [BaseMemoryRange.getUint32_congr hl fun i h1 h2 => h i h1 (by omega),
    BaseMemoryRange.getUint32_congr hl fun i h1 h2 => h i (by omega) (by omega)]
  simp only [hview _ _ _ _ _ hl]

end RangeType

theorem MemoryRange_storesWithin : MemoryRange.StoresWithin := rangeType_storesWithin

theorem ReadonlyMemoryRange_storesWithin : ReadonlyMemoryRange.StoresWithin := rangeType_storesWithin

theorem MemoryRange_loadsWithin : MemoryRange.LoadsWithin :=
  rangeType_loadsWithin fun _ _ _ _ _ hl => by simp only [SharedMemory.preAllocated, hl]

theorem ReadonlyMemoryRange_loadsWithin : ReadonlyMemoryRange.LoadsWithin :=
  rangeType_loadsWithin fun _ _ _ _ _ hl => by simp only [SharedMemory.readonly, hl]

/-- What is asked of a range type `t`: its store of `r` at `o` in `c` raises and changes
nothing, or it writes only the eight bytes of the slot and a load there returns a range
with `r`'s memory, `ptr` and `size`. -/
def StoreLoadsBack {R : Type} (t : ValueType R) (base : R → BaseMemoryRange)
    (c : WasiKit.MemoryRange) (o : Nat) (r : R) (mode : Mode) (b : Buffer) : Prop :=
  (∃ e, t.store c o r mode b = .error e b) ∨
    ∃ b', t.store c o r mode b = .ok () b' ∧
      (∀ i, i < c.ptr + o ∨ c.ptr + o + 8 ≤ i → b'.bytes i = b.bytes i) ∧
      ∃ r', t.load c.toBaseMemoryRange o mode b' = .ok r' ∧ (base r').memory = (base r).memory ∧
        (base r').ptr = (base r).ptr ∧ (base r').size = (base r).size

/-- A range of the container's own memory, inside its buffer and with `ptr` and `size`
that fit a `u32`, is loaded back as it was stored, by both range types. -/
theorem range_roundTrip (c : WasiKit.MemoryRange) (o : Nat) (r : WasiKit.MemoryRange)
    (q : WasiKit.ReadonlyMemoryRange) (mode : Mode) (b : Buffer) (ha : 4 ∣ c.ptr + o)
    (ho : o + 8 ≤ c.size) (hrm : r.memory = c.memory) (hr : r.ptr + r.size ≤ b.byteLength)
    (hrp : r.ptr < 2 ^ 32) (hrs : r.size < 2 ^ 32) (hqm : q.memory = c.memory)
    (hq : q.ptr + q.size ≤ b.byteLength) (hqp : q.ptr < 2 ^ 32) (hqs : q.size < 2 ^ 32) :
    StoreLoadsBack MemoryRange (·.toBaseMemoryRange) c o r mode b ∧
      StoreLoadsBack ReadonlyMemoryRange (·.toBaseMemoryRange) c o q mode b := by
  constructor
  · rcases @rangeType_roundTrip _ (·.toBaseMemoryRange) SharedMemory.preAllocated c o r mode b ho hrp hrs with
      h | ⟨b', hs, hl, hf, hload⟩
    · exact .inl h
    · refine .inr ⟨b', hs, hf, _, hload.trans (SharedMemory.preAllocated_eq_ok.2 ⟨by omega, rfl⟩), ?_⟩
      exact ⟨hrm.symm, rfl, rfl⟩
  · rcases @rangeType_roundTrip _ (·.toBaseMemoryRange) SharedMemory.readonly c o q mode b ho hqp hqs with
      h | ⟨b', hs, hl, hf, hload⟩
    · exact .inl h
    · refine .inr ⟨b', hs, hf, _, hload.trans (SharedMemory.readonly_eq_ok.2 ⟨by omega, rfl⟩), ?_⟩
      exact ⟨hqm.symm, rfl, rfl⟩

theorem range_roundTrip_own :
    (4 ∣ 0 + 0 ∧ 0 + 8 ≤ 8 ∧ arena 0 = arena 0 ∧ 4 + 4 ≤ 16 ∧ 4 < 2 ^ 32 ∧ 4 < 2 ^ 32) ∧
      StoreLoadsBack MemoryRange (·.toBaseMemoryRange) ⟨⟨arena 0, 0, 8⟩, false⟩ 0
        ⟨⟨arena 0, 4, 4⟩, true⟩ .new (Buffer.zeros 16) ∧
      StoreLoadsBack ReadonlyMemoryRange (·.toBaseMemoryRange) ⟨⟨arena 0, 0, 8⟩, false⟩ 0
        ⟨⟨arena 0, 4, 4⟩⟩ .new (Buffer.zeros 16) :=
  ⟨⟨by decide, by decide, rfl, by decide, by decide, by decide⟩,
    range_roundTrip ⟨⟨arena 0, 0, 8⟩, false⟩ 0 ⟨⟨arena 0, 4, 4⟩, true⟩ ⟨⟨arena 0, 4, 4⟩⟩ .new (Buffer.zeros 16)
      (by decide) (by decide) rfl (by decide) (by decide) (by decide) rfl (by decide) (by decide)
      (by decide)⟩

/-- A range of another memory is stored as its `(ptr, size)` alone: the load gives a
range of the container's memory. -/
theorem range_foreign_memory :
    ¬ StoreLoadsBack MemoryRange (·.toBaseMemoryRange) ⟨⟨arena 0, 0, 8⟩, false⟩ 0
      ⟨⟨arena 1, 4, 4⟩, true⟩ .new (Buffer.zeros 16) := by
  rintro (⟨e, he⟩ | ⟨b', hs, -, r', hl, hm, -⟩)
  · cases he
  · cases hs
    cases hl
    exact absurd (congrArg SharedMemory.handle hm) (by decide)

end ValueType

end WasiKit
