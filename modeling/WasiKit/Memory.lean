/-
# One linear memory and the ranges over it

The byte buffer of a wasm32 linear memory, the little-endian cells
`sharedObject.ts` reads and writes in it, and the ranges of the component
model (`BaseMemoryRange`, `MemoryRange`, `ReadonlyMemoryRange`). The component
model (`@vscode/wasm-component-model`) is not among the sources: its
`Alignment`, its range accessors, `assertAlignment` and `range` are modelled
from the spec (§4.2: an accessor asserts that the access stays inside the range
and, for a multi-byte type, that it is aligned), each saying so in its
docstring. `assertAlignment` checks the range's own alignment (that of `ptr`)
and the offset's separately, and `range` refuses a sub-range that leaves the
range.

Every call on memory ends as an `EStateM.Result Error Buffer`: it returns or
raises, and either way leaves the buffer as it is then (a JS exception undoes
no write).

Key definitions: `Alignment.align`, `Buffer.write`, `Buffer.getUint32`,
`BaseMemoryRange.getUint32`, `MemoryRange.setUint32`.
Key theorems: `Alignment.align_least`, `Alignment.dvd_of_le`,
`Buffer.getUint32_setUint32`, `Buffer.write_bytes_of_lt`,
`MemoryRange.setUint32_ok`.
-/
import Mathlib.Algebra.BigOperators.Fin

/-- The state a call leaves, whether it returned or raised. -/
def EStateM.Result.state {ε σ α : Type} : EStateM.Result ε σ α → σ
  | .ok _ s => s
  | .error _ s => s

namespace WasiKit

/-- The exceptions the modelled code raises or lets through. -/
inductive Error where
  /-- `MemoryError` of the component model, with the text `sharedObject.ts` gives it. -/
  | memoryError (message : String)
  /-- `ComponentModelTrap` of the component model, with its text. -/
  | componentModelTrap (message : String)
  /-- A plain `Error`. -/
  | error (message : String)
  /-- The component model's `assertAlignment` failed (its text is not in the sources). -/
  | alignmentError
  /-- The component model's `MemoryError` for a sub-range outside its range (its text is not
  in the sources). -/
  | outOfBounds
  /-- The host's `RangeError`: a `DataView` or typed array outside its buffer. -/
  | rangeError
  /-- The host's `TypeError`. -/
  | typeError
  deriving DecidableEq, Repr

/-! ### Alignments -/

/-- Modelled from the spec: `Alignment` of the component model, the alignments
`{1, 2, 4, 8}` of its types. -/
inductive Alignment where
  | byte
  | halfWord
  | word
  | doubleWord
  deriving DecidableEq, Repr

namespace Alignment

/-- The alignment in bytes. -/
def toNat : Alignment → Nat
  | byte => 1
  | halfWord => 2
  | word => 4
  | doubleWord => 8

/-- `Math.max` of two alignments. -/
def max (a b : Alignment) : Alignment := if a.toNat ≤ b.toNat then b else a

/-- Modelled from the spec: `Alignment.align` ("round the running offset up to the
field's alignment"), the least multiple of `a` that is at least `n`. -/
def align (n : Nat) (a : Alignment) : Nat := (n + a.toNat - 1) / a.toNat * a.toNat

theorem toNat_pos (a : Alignment) : 0 < a.toNat := by cases a <;> decide

@[simp] theorem toNat_max (a b : Alignment) : (max a b).toNat = Max.max a.toNat b.toNat := by
  unfold max
  split <;> omega

/-- Alignments are powers of two: the smaller divides the larger. -/
theorem dvd_of_le {a b : Alignment} (h : a.toNat ≤ b.toNat) : a.toNat ∣ b.toNat := by
  cases a <;> cases b <;> simp_all [toNat] <;> decide

theorem dvd_align (n : Nat) (a : Alignment) : a.toNat ∣ align n a :=
  Nat.dvd_mul_left _ _

theorem le_align (n : Nat) (a : Alignment) : n ≤ align n a := by
  have := a.toNat_pos
  unfold align
  have := Nat.lt_div_mul_add (a := n + a.toNat - 1) this
  omega

/-- `align n a` is the least multiple of `a` that is at least `n`. -/
theorem align_least {n m : Nat} {a : Alignment} (hd : a.toNat ∣ m) (hle : n ≤ m) :
    align n a ≤ m := by
  obtain ⟨k, rfl⟩ := hd
  have := a.toNat_pos
  unfold align
  rw [Nat.mul_comm a.toNat k]
  exact Nat.mul_le_mul_right _ ((Nat.div_le_iff_le_mul_add_pred this).2 (by
    have := Nat.mul_le_mul_right a.toNat (Nat.le_refl k)
    omega))

@[simp] theorem align_byte (n : Nat) : align n byte = n := by simp [align, toNat]

end Alignment

/-! ### The buffer -/

/-- The `ArrayBuffer` of a linear memory: its length, and its bytes. -/
structure Buffer where
  byteLength : Nat
  bytes : Nat → UInt8

/-- The `w` little-endian bytes of `n`; bits above `8 * w` are dropped. -/
def toBytesLE : Nat → Nat → List UInt8
  | 0, _ => []
  | w + 1, n => UInt8.ofNat (n % 256) :: toBytesLE w (n / 256)

/-- The number the little-endian bytes spell. -/
def ofBytesLE : List UInt8 → Nat
  | [] => 0
  | b :: bs => b.toNat + 256 * ofBytesLE bs

@[simp] theorem length_toBytesLE (w n : Nat) : (toBytesLE w n).length = w := by
  induction w generalizing n with
  | zero => rfl
  | succ w ih => simp [toBytesLE, ih]

theorem ofBytesLE_toBytesLE (w n : Nat) : ofBytesLE (toBytesLE w n) = n % 256 ^ w := by
  induction w generalizing n with
  | zero => simp [toBytesLE, ofBytesLE, Nat.mod_one]
  | succ w ih =>
    have h : (UInt8.ofNat (n % 256)).toNat = n % 256 := by
      simp [UInt8.toNat, UInt8.ofNat, Fin.ofNat, Nat.mod_mod]
    rw [toBytesLE, ofBytesLE, ih, h, pow_succ', Nat.mod_mul]

namespace Buffer

/-- A buffer of `n` zero bytes. -/
def zeros (n : Nat) : Buffer := ⟨n, fun _ => 0⟩

/-- `n` bytes from `addr` on. -/
def read (b : Buffer) (addr n : Nat) : List UInt8 := (List.range n).map fun k => b.bytes (addr + k)

/-- The buffer with `bs` written from `addr` on; its length does not change. -/
def write (b : Buffer) (addr : Nat) (bs : List UInt8) : Buffer where
  byteLength := b.byteLength
  bytes i := if addr ≤ i ∧ i < addr + bs.length then bs.getD (i - addr) 0 else b.bytes i

/-- The little-endian 32-bit number at `addr` (`DataView.getUint32(.., true)`). -/
def getUint32 (b : Buffer) (addr : Nat) : Nat := ofBytesLE (b.read addr 4)

/-- `DataView.setUint32(.., v, true)`: the four bytes of `v % 2 ^ 32` at `addr`. -/
def setUint32 (b : Buffer) (addr v : Nat) : Buffer := b.write addr (toBytesLE 4 v)

/-- The 32-bit cell at `addr` as an `Int32Array` element. -/
def getInt32 (b : Buffer) (addr : Nat) : BitVec 32 := BitVec.ofNat 32 (b.getUint32 addr)

/-- `Atomics.store` into the `Int32Array` element at `addr`. -/
def setInt32 (b : Buffer) (addr : Nat) (x : BitVec 32) : Buffer := b.setUint32 addr x.toNat

@[simp] theorem write_byteLength (b : Buffer) (addr : Nat) (bs : List UInt8) :
    (b.write addr bs).byteLength = b.byteLength := rfl

theorem write_bytes_of_lt {b : Buffer} {addr i : Nat} {bs : List UInt8} (h : i < addr) :
    (b.write addr bs).bytes i = b.bytes i := by
  simp [write]
  omega

theorem write_bytes_of_ge {b : Buffer} {addr i : Nat} {bs : List UInt8}
    (h : addr + bs.length ≤ i) : (b.write addr bs).bytes i = b.bytes i := by
  simp [write]
  omega

/-- A write changes no byte outside `[addr, addr + bs.length)`. -/
theorem write_bytes_of_not_mem {b : Buffer} {addr i : Nat} {bs : List UInt8}
    (h : i < addr ∨ addr + bs.length ≤ i) : (b.write addr bs).bytes i = b.bytes i :=
  h.elim write_bytes_of_lt write_bytes_of_ge

theorem read_write_self (b : Buffer) (addr : Nat) (bs : List UInt8) :
    (b.write addr bs).read addr bs.length = bs := by
  apply List.ext_getElem (by simp [read])
  intro n h _
  simp_all [read, write]

@[simp] theorem setUint32_byteLength (b : Buffer) (addr v : Nat) :
    (b.setUint32 addr v).byteLength = b.byteLength := rfl

theorem getUint32_setUint32 (b : Buffer) (addr v : Nat) :
    (b.setUint32 addr v).getUint32 addr = v % 2 ^ 32 := by
  have h := read_write_self b addr (toBytesLE 4 v)
  simp only [length_toBytesLE] at h
  simp [getUint32, setUint32, h, ofBytesLE_toBytesLE]

/-- The cell read back is what was stored (a `BitVec 32` is below `2 ^ 32`). -/
theorem getInt32_setInt32 (b : Buffer) (addr : Nat) (x : BitVec 32) :
    (b.setInt32 addr x).getInt32 addr = x := by
  simp [getInt32, setInt32, getUint32_setUint32, Nat.mod_eq_of_lt x.isLt]

/-- Bytes outside `[addr, addr + 4)` do not change under `setUint32`. -/
theorem setUint32_bytes_of_not_mem {b : Buffer} {addr v i : Nat} (h : i < addr ∨ addr + 4 ≤ i) :
    (b.setUint32 addr v).bytes i = b.bytes i :=
  write_bytes_of_not_mem (by simpa using h)

/-- A read sees only the bytes it reads. -/
theorem read_congr {b b' : Buffer} {addr n : Nat} (h : ∀ k < n, b'.bytes (addr + k) = b.bytes (addr + k)) :
    b'.read addr n = b.read addr n := by
  simp only [read]
  exact List.map_congr_left fun k hk => h k (List.mem_range.1 hk)

theorem getUint32_congr {b b' : Buffer} {addr : Nat}
    (h : ∀ i, addr ≤ i → i < addr + 4 → b'.bytes i = b.bytes i) :
    b'.getUint32 addr = b.getUint32 addr := by
  unfold getUint32
  rw [read_congr fun k hk => h _ (by omega) (by omega)]

/-- Writing `size` zero bytes from `ptr` on: `getUint8View(0).fill(0)`. -/
def fill (b : Buffer) (ptr size : Nat) : Buffer := b.write ptr (List.replicate size 0)

theorem fill_bytes (b : Buffer) (ptr size i : Nat) :
    (b.fill ptr size).bytes i = if ptr ≤ i ∧ i < ptr + size then 0 else b.bytes i := by
  simp only [fill, write, List.length_replicate]
  split_ifs with h
  · have : i - ptr < size := by omega
    simp [List.getElem?_replicate, this]
  · rfl

end Buffer

/-! ### The arena and its ranges -/

/-- The allocator the module exports (`SharedMemory.Exports`). It runs in the linear
memory, so it may change the buffer, and a trap in it raises. `malloc` is not used by
the modelled code. -/
structure Exports where
  alignedAlloc : Nat → Nat → EStateM Error Buffer Nat
  free : Nat → EStateM Error Buffer Unit

/-- A `SharedMemory` (a `MemoryImpl`): the wrapper's identity as an object, its `id`
and the exports of its module. Its buffer is the state the calls pass along. -/
structure SharedMemory where
  handle : Nat
  id : String
  exports : Exports

/-- The window `[ptr, ptr + size)` of the memory a range views. -/
structure BaseMemoryRange where
  memory : SharedMemory
  ptr : Nat
  size : Nat

/-- A writable range; `preAllocated` makes it with `isPreallocated` set. -/
structure MemoryRange extends BaseMemoryRange where
  isPreallocated : Bool

/-- A range that is only read. -/
structure ReadonlyMemoryRange extends BaseMemoryRange

namespace BaseMemoryRange

/-- Modelled from the spec: `assertAlignment(offset, alignment)` of the component model. The
range's own alignment (that of `ptr`) and the offset are checked against `a` separately. -/
def assertAlignment (r : BaseMemoryRange) (offset : Nat) (a : Alignment) : Except Error Unit :=
  if r.ptr % a.toNat = 0 ∧ offset % a.toNat = 0 then .ok () else .error .alignmentError

/-- The range lies in the buffer and `[offset, offset + n)` in the range: what a
`DataView` over the range checks before it reads or writes `n` bytes at `offset`. -/
def InBounds (r : BaseMemoryRange) (b : Buffer) (offset n : Nat) : Prop :=
  r.ptr + r.size ≤ b.byteLength ∧ offset + n ≤ r.size

instance (r : BaseMemoryRange) (b : Buffer) (offset n : Nat) : Decidable (r.InBounds b offset n) :=
  inferInstanceAs (Decidable (_ ∧ _))

/-- Modelled from the spec: `getUint32(offset)` of the component model, aligned, inside the
range, little-endian. -/
def getUint32 (r : BaseMemoryRange) (offset : Nat) (b : Buffer) : Except Error Nat := do
  r.assertAlignment offset .word
  if r.InBounds b offset 4 then pure (b.getUint32 (r.ptr + offset)) else throw .rangeError

theorem assertAlignment_eq (r : BaseMemoryRange) (offset : Nat) (a : Alignment) :
    r.assertAlignment offset a =
      if a.toNat ∣ r.ptr ∧ a.toNat ∣ offset then .ok () else .error .alignmentError := by
  simp only [assertAlignment, Nat.dvd_iff_mod_eq_zero]

theorem assertAlignment_ok {r : BaseMemoryRange} {offset : Nat} {a : Alignment}
    (hp : a.toNat ∣ r.ptr) (ho : a.toNat ∣ offset) : r.assertAlignment offset a = .ok () := by
  simp [assertAlignment_eq, hp, ho]

theorem getUint32_ok {r : BaseMemoryRange} {offset : Nat} {b : Buffer}
    (hp : 4 ∣ r.ptr) (ho : 4 ∣ offset) (hb : r.InBounds b offset 4) :
    r.getUint32 offset b = .ok (b.getUint32 (r.ptr + offset)) := by
  simp [getUint32, assertAlignment_ok (a := .word) hp ho, hb, bind, Except.bind, pure, Except.pure]

theorem getUint32_congr {r : BaseMemoryRange} {offset : Nat} {b b' : Buffer}
    (hl : b'.byteLength = b.byteLength)
    (h : ∀ i, r.ptr + offset ≤ i → i < r.ptr + offset + 4 → b'.bytes i = b.bytes i) :
    r.getUint32 offset b' = r.getUint32 offset b := by
  simp only [getUint32, InBounds, hl, Buffer.getUint32_congr h]

end BaseMemoryRange

/-- A call that, whatever it ends in, changes no byte outside `[lo, hi)` and leaves the
length as it was. -/
def Frames {α : Type} (x : EStateM Error Buffer α) (lo hi : Nat) : Prop :=
  ∀ b, (x b).state.byteLength = b.byteLength ∧
    ∀ i, i < lo ∨ hi ≤ i → (x b).state.bytes i = b.bytes i

theorem Frames.bind {α β : Type} {x : EStateM Error Buffer α} {f : α → EStateM Error Buffer β}
    {lo hi : Nat} (hx : Frames x lo hi) (hf : ∀ a, Frames (f a) lo hi) : Frames (x >>= f) lo hi := by
  intro b
  have h := hx b
  rw [show (x >>= f) b = EStateM.bind x f b from rfl, EStateM.bind]
  cases hb : x b with
  | ok a s =>
    rw [hb] at h
    obtain ⟨hl, hi⟩ := hf a s
    exact ⟨hl.trans h.1, fun i hi' => (hi i hi').trans (h.2 i hi')⟩
  | error e s => rw [hb] at h; exact h

theorem Frames.mono {α : Type} {x : EStateM Error Buffer α} {lo hi lo' hi' : Nat}
    (h : Frames x lo hi) (hlo : lo' ≤ lo) (hhi : hi ≤ hi') : Frames x lo' hi' :=
  fun b => ⟨(h b).1, fun i hi => (h b).2 i (by omega)⟩

namespace MemoryRange

/-- Modelled from the spec: `setUint32(offset, value)` of the component model, aligned, inside
the range, little-endian, `value % 2 ^ 32`. -/
def setUint32 (r : MemoryRange) (offset v : Nat) : EStateM Error Buffer Unit := fun b =>
  match r.assertAlignment offset .word with
  | .error e => .error e b
  | .ok () => if r.InBounds b offset 4 then .ok () (b.setUint32 (r.ptr + offset) v) else .error .rangeError b

/-- Modelled from the spec: `range(offset, size)` of the component model, the sub-range at
`offset`, which must stay inside the range (`MemoryError` otherwise). -/
def range (r : MemoryRange) (offset size : Nat) : Except Error MemoryRange :=
  if offset + size ≤ r.size then .ok ⟨⟨r.memory, r.ptr + offset, size⟩, false⟩
  else .error .outOfBounds

theorem setUint32_ok {r : MemoryRange} {offset v : Nat} {b : Buffer}
    (hp : 4 ∣ r.ptr) (ho : 4 ∣ offset) (hb : r.InBounds b offset 4) :
    r.setUint32 offset v b = .ok () (b.setUint32 (r.ptr + offset) v) := by
  simp [setUint32, BaseMemoryRange.assertAlignment_ok (a := .word) hp ho, hb]

/-- Whatever it ends in, `setUint32` changes nothing outside its four bytes. -/
theorem setUint32_frames (r : MemoryRange) (offset v : Nat) :
    Frames (r.setUint32 offset v) (r.ptr + offset) (r.ptr + offset + 4) := by
  intro b
  unfold setUint32
  split
  · exact ⟨rfl, fun _ _ => rfl⟩
  · split
    · exact ⟨rfl, fun _ h => Buffer.setUint32_bytes_of_not_mem h⟩
    · exact ⟨rfl, fun _ _ => rfl⟩

end MemoryRange

end WasiKit
