/-
# The arena: `MemoryImpl`

`MemoryImpl`'s methods over the buffer of its linear memory: `alloc` through
the module's `aligned_alloc`, `preAllocated` and `readonly` with their bounds
check, `free` and `copyWithin`; and `MemoryLocation.from` / `to`, which carry a
range from one agent to another by the memory's `id`. The `catch` blocks of
`alloc` and `free` only log and rethrow, so they are left out.

`copyWithin(dest, src)` hands `src.ptr + src.size` to the typed array's
`copyWithin` as the end and does not look at `dest.size`: it copies all of
`src` (cut at the buffer's end), overlapping ranges correctly, and when `src`
is the longer it writes past the end of `dest`
(`SharedMemory.copyWithin_moves`, `SharedMemory.copyWithin_past_dest`).

Key definitions: `SharedMemory.alloc`, `SharedMemory.preAllocated`,
`SharedMemory.copyWithin`, `MemoryLocation.to`.
Key theorems: `SharedMemory.alloc_ok`, `SharedMemory.preAllocated_eq_ok`,
`MemoryLocation.to_from`, `SharedMemory.copyWithin_moves`.
-/
import WasiKit.Memory

namespace WasiKit

/-- Modelled from the spec: `getUint8View(0)` of the component model, a `Uint8Array` over the
range (`RangeError` outside the buffer), and its `fill(0)`. -/
def MemoryRange.fillZero (r : MemoryRange) : EStateM Error Buffer Unit := fun b =>
  if r.ptr + r.size ≤ b.byteLength then .ok () (b.fill r.ptr r.size) else .error .rangeError b

/-- `TypedArray.prototype.copyWithin(target, start, end)` on the `Uint8Array` over the
whole buffer: the indices clamped to the length, then `count` bytes moved as if through
a temporary copy, so overlapping windows are copied right. -/
def Buffer.copyWithin (b : Buffer) (target start stop : Nat) : Buffer :=
  let len := b.byteLength
  let dst := min target len
  let src := min start len
  let count := min (min stop len - src) (len - dst)
  { b with bytes := fun i => if dst ≤ i ∧ i < dst + count then b.bytes (src + (i - dst)) else b.bytes i }

namespace SharedMemory

/-- `MemoryImpl.alloc`: `aligned_alloc`; a null address raises; the range is filled
with zeros before it is returned. -/
def alloc (m : SharedMemory) (align : Alignment) (size : Nat) : EStateM Error Buffer MemoryRange := do
  let ptr ← m.exports.alignedAlloc align.toNat size
  if ptr = 0 then throw (.error "Allocation failed")
  let result : MemoryRange := ⟨⟨m, ptr, size⟩, false⟩
  result.fillZero
  return result

/-- `MemoryImpl.preAllocated`: a range over memory known by convention; no allocation. -/
def preAllocated (m : SharedMemory) (ptr size : Nat) (b : Buffer) : Except Error MemoryRange :=
  let byteLength := b.byteLength
  if ptr + size > byteLength then
    .error (.memoryError
      s!"Memory access is out of bounds. Accessing [{ptr}, {size}], allocated[{0},{byteLength}]")
  else .ok ⟨⟨m, ptr, size⟩, true⟩

/-- `MemoryImpl.readonly`: the same check, a read-only range. -/
def readonly (m : SharedMemory) (ptr size : Nat) (b : Buffer) : Except Error ReadonlyMemoryRange :=
  let byteLength := b.byteLength
  if ptr + size > byteLength then
    .error (.memoryError
      s!"Memory access is out of bounds. Accessing [{ptr}, {size}], allocated[{0},{byteLength}]")
  else .ok ⟨⟨m, ptr, size⟩⟩

/-- `MemoryImpl.free`: the module's `free` of the range's address. -/
def free (m : SharedMemory) (range : MemoryRange) : EStateM Error Buffer Unit :=
  m.exports.free range.ptr

/-- `MemoryImpl.copyWithin`. -/
def copyWithin (dest : MemoryRange) (src : ReadonlyMemoryRange) (b : Buffer) : Buffer :=
  b.copyWithin dest.ptr src.ptr (src.ptr + src.size)

theorem preAllocated_eq_ok {m : SharedMemory} {ptr size : Nat} {b : Buffer} {r : MemoryRange} :
    m.preAllocated ptr size b = .ok r ↔ ptr + size ≤ b.byteLength ∧ r = ⟨⟨m, ptr, size⟩, true⟩ := by
  unfold preAllocated
  dsimp only
  split <;> simp_all [eq_comm]

theorem readonly_eq_ok {m : SharedMemory} {ptr size : Nat} {b : Buffer} {r : ReadonlyMemoryRange} :
    m.readonly ptr size b = .ok r ↔ ptr + size ≤ b.byteLength ∧ r = ⟨⟨m, ptr, size⟩⟩ := by
  unfold readonly
  dsimp only
  split <;> simp_all [eq_comm]

/-- An allocation returns the allocator's address, with the range's bytes zero and
every other byte as the allocator left it. -/
theorem alloc_ok {m : SharedMemory} {align : Alignment} {size ptr : Nat} {b b' : Buffer}
    (h : m.exports.alignedAlloc align.toNat size b = .ok ptr b') (h0 : ptr ≠ 0)
    (hb : ptr + size ≤ b'.byteLength) :
    m.alloc align size b = .ok ⟨⟨m, ptr, size⟩, false⟩ (b'.fill ptr size) := by
  simp [alloc, bind, EStateM.bind, h, h0, MemoryRange.fillZero, hb, pure, EStateM.pure]

end SharedMemory

/-- The coordinates of a range that another agent can resolve: `MemoryLocation`. -/
structure MemoryLocation where
  /-- `memory.id` -/
  memoryId : String
  ptr : Nat
  size : Nat
  deriving DecidableEq, Repr

/-- `MemoryLocation.from`. -/
def MemoryLocation.from (memRange : BaseMemoryRange) : MemoryLocation :=
  ⟨memRange.memory.id, memRange.ptr, memRange.size⟩

/-- `MemoryLocation.to`: a location of another memory raises; else `preAllocated`. -/
def MemoryLocation.to (memory : SharedMemory) (location : MemoryLocation) (b : Buffer) : Except Error MemoryRange :=
  if memory.id ≠ location.memoryId then .error (.memoryError "Memory location does not match")
  else memory.preAllocated location.ptr location.size b

namespace MemoryLocation

/-- `to` returns exactly the ranges of `memory` at the location, when it lies in the buffer. -/
theorem to_eq_ok {memory : SharedMemory} {location : MemoryLocation} {b : Buffer} {r : MemoryRange} :
    MemoryLocation.to memory location b = .ok r ↔ memory.id = location.memoryId ∧
      location.ptr + location.size ≤ b.byteLength ∧ r = ⟨⟨memory, location.ptr, location.size⟩, true⟩ := by
  unfold MemoryLocation.to
  split <;> simp_all [SharedMemory.preAllocated_eq_ok]

/-- A range of `memory` inside the buffer resolves, through its location, to a pre-allocated
range with its `ptr` and `size`. -/
theorem to_from {memory : SharedMemory} {r : BaseMemoryRange} {b : Buffer} (hr : r.memory = memory)
    (hb : r.ptr + r.size ≤ b.byteLength) :
    MemoryLocation.to memory (MemoryLocation.from r) b = .ok ⟨⟨memory, r.ptr, r.size⟩, true⟩ :=
  to_eq_ok.2 ⟨by rw [← hr]; rfl, hb, rfl⟩

end MemoryLocation

/-- An arena known by its wrapper's identity, whose allocator never allocates. -/
def arena (handle : Nat) : SharedMemory := ⟨handle, toString handle, ⟨fun _ _ => pure 0, fun _ => pure ()⟩⟩

/-- An arena whose allocator returns `ptr`. -/
def allocAt (ptr : Nat) : SharedMemory := ⟨0, "0", ⟨fun _ _ b => .ok ptr b, fun _ => pure ()⟩⟩

/-! ### `copyWithin` -/

namespace SharedMemory

/-- With both ranges inside the buffer, `copyWithin(dest, src)` moves the bytes of `src`, cut
at the buffer's end, to `dest.ptr`, each read before any is written. -/
theorem copyWithin_bytes {dest : MemoryRange} {src : ReadonlyMemoryRange} {b : Buffer}
    (hd : dest.ptr ≤ b.byteLength) (hs : src.ptr + src.size ≤ b.byteLength) (i : Nat) :
    (copyWithin dest src b).bytes i =
      if dest.ptr ≤ i ∧ i < dest.ptr + src.size ∧ i < b.byteLength then b.bytes (src.ptr + (i - dest.ptr))
      else b.bytes i := by
  simp only [copyWithin, Buffer.copyWithin, Nat.min_eq_left hd, Nat.min_eq_left hs,
    Nat.min_eq_left (Nat.le_trans (Nat.le_add_right _ _) hs)]
  split_ifs <;> first | rfl | omega

/-- **`copyWithin` copies `src.size` bytes whatever `dest.size` is.** For ranges inside the
buffer, overlapping or not: the length stays; each byte of `[dest.ptr, dest.ptr + src.size)`
inside the buffer becomes the byte `src` held at the same offset; no other byte changes. So
the first `min(dest.size, src.size)` bytes of `dest` are `src`'s, and when `src` is the
longer, the bytes after `dest` are overwritten as well. -/
theorem copyWithin_moves {dest : MemoryRange} {src : ReadonlyMemoryRange} {b : Buffer}
    (hd : dest.ptr + dest.size ≤ b.byteLength) (hs : src.ptr + src.size ≤ b.byteLength) :
    (copyWithin dest src b).byteLength = b.byteLength ∧
      (∀ k, k < src.size → dest.ptr + k < b.byteLength →
        (copyWithin dest src b).bytes (dest.ptr + k) = b.bytes (src.ptr + k)) ∧
      ∀ i, i < dest.ptr ∨ dest.ptr + src.size ≤ i → (copyWithin dest src b).bytes i = b.bytes i := by
  have hd' : dest.ptr ≤ b.byteLength := by omega
  refine ⟨rfl, fun k hk hl => ?_, fun i hi => ?_⟩ <;> rw [copyWithin_bytes hd' hs]
  · rw [if_pos (by omega), Nat.add_sub_cancel_left]
  · rw [if_neg (by omega)]

/- Overlapping ranges of the buffer `[0, 1, 2]`, `dest` its two bytes at `1` and `src` its two
bytes at `0`: the second byte of `dest` is the `1` that `src` held, not the `0` a forward
byte-by-byte copy would have put there. -/
example :
    (copyWithin ⟨⟨arena 0, 1, 2⟩, false⟩ ⟨⟨arena 0, 0, 2⟩⟩ ⟨3, fun i => UInt8.ofNat i⟩).bytes 2 = 1 :=
  rfl

/-- Two ranges of one memory inside the buffer `[0, 1, 2]`, `dest` its byte at `0` and `src`
its two bytes at `1`: `copyWithin(dest, src)` changes the byte after `dest`. -/
theorem copyWithin_past_dest :
    ∃ (dest : MemoryRange) (src : ReadonlyMemoryRange) (b : Buffer), dest.memory = src.memory ∧
      dest.ptr + dest.size ≤ b.byteLength ∧ src.ptr + src.size ≤ b.byteLength ∧
      (copyWithin dest src b).bytes (dest.ptr + dest.size) ≠
        b.bytes (dest.ptr + dest.size) :=
  ⟨⟨⟨arena 0, 0, 1⟩, false⟩, ⟨⟨arena 0, 1, 2⟩⟩, ⟨3, fun i => UInt8.ofNat i⟩, rfl, by decide,
    by decide, by decide⟩

end SharedMemory

end WasiKit
