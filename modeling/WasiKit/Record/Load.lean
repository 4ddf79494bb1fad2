/-
# The live view `Record.Type.load` returns

`load(memory, offset, context)` asserts that `offset` is aligned to the record
and then defines one accessor property per field on a fresh object. For a
`ValueType` field the getter is `type.load` and the setter `type.store`, at
`offset + fieldInfo.offset` of the range: the view holds no copy. For an
`ObjectType` field the code means to define a caching getter, but it defines it
on the inner `let result: any;`, which shadows the view and is still
`undefined`, so `Object.defineProperty` throws a `TypeError`: no record with a
`Lock`, `Signal` or nested record field can be loaded (`load_objectType`).

Writing one field of a view whose value types write only in their slots changes
no byte outside that field's slot, so every other field of every view over the
same bytes whose type reads only its slot reads as before (`View.set_frame`).
That last condition cannot be dropped: a type that writes in its slot but reads
the word before it sees the write to its neighbour
(`set_frame_needs_loadsWithin`). The field written reads back
what was assigned: a `u32` field's slot is aligned because the record's
alignment is at least the field's and its offset a multiple of it, so the
setter raises only when the range is outside the buffer, and otherwise the
getter returns the value modulo `2 ^ 32` (`View.get_set_u32`).

Key definitions: `Record.Type.load`, `Record.View.get`, `Record.View.set`,
`ValueType.StoresWithin`, `ValueType.LoadsWithin`.
Key theorems: `Record.Type.load_eq_ok`, `Record.Type.load_objectType`,
`Record.View.set_frame`, `Record.View.get_set_u32`.
-/
import WasiKit.Record.Layout

namespace WasiKit

variable {V : Type}

/-- The accessor `Record.Type.load` defines for a `ValueType` field. -/
structure Record.Accessor (V : Type) where
  type : ValueType V
  offset : Nat

/-- The object `Record.Type.load` returns: its accessor properties, and the range, offset
and context they close over. -/
structure Record.View (V : Type) where
  memory : MemoryRange
  offset : Nat
  context : Mode
  props : List (String × Record.Accessor V)

namespace Record.Type

/-- One turn of `load`'s loop. A `ValueType` field gets its accessor; for an `ObjectType`
field `Object.defineProperty` gets the inner `result`, still `undefined`, and throws. -/
def defineProperty (props : List (String × Record.Accessor V)) :
    String × FieldInfo V → Except Error (List (String × Record.Accessor V))
  | (name, ⟨.value t, offset⟩) => .ok (props ++ [(name, ⟨t, offset⟩)])
  | (_, ⟨.lock, _⟩) | (_, ⟨.signal, _⟩) | (_, ⟨.record _, _⟩) => .error .typeError

/-- `Record.Type.load`. -/
def load (T : Record.Type V) (memory : MemoryRange) (offset : Nat) (context : Mode) :
    Except Error (Record.View V) := do
  memory.assertAlignment offset T.alignment
  let props ← T.fields.foldlM defineProperty []
  return ⟨memory, offset, context, props⟩

end Record.Type

namespace Record.View

/-- Reading property `name`: the field's `load` at its slot, or `none` when the view has
no such property (the read gives `undefined`). -/
def get (v : Record.View V) (name : String) (b : Buffer) : Option (Except Error V) :=
  (v.props.lookup name).map fun p => p.type.load v.memory.toBaseMemoryRange (v.offset + p.offset) v.context b

/-- Assigning `value` to property `name`: the field's `store` at its slot, or `none` when
the view has no such property (the assignment adds a plain property to the view). -/
def set (v : Record.View V) (name : String) (value : V) : Option (EStateM Error Buffer Unit) :=
  (v.props.lookup name).map fun p => p.type.store v.memory (v.offset + p.offset) value v.context

end Record.View

/-- The accessor of a field, if it is a `ValueType` field. -/
def Record.accessorOf : String × FieldInfo V → Option (String × Record.Accessor V)
  | (name, ⟨.value t, offset⟩) => some (name, ⟨t, offset⟩)
  | _ => none

/-- A `ValueType` field. -/
def FieldInfo.IsValue (f : FieldInfo V) : Prop := ∃ t, f.type = .value t

namespace Record

theorem foldlM_defineProperty_of_value {fs : List (String × FieldInfo V)}
    (h : ∀ f ∈ fs, f.2.IsValue) (acc : List (String × Record.Accessor V)) :
    fs.foldlM Record.Type.defineProperty acc = .ok (acc ++ fs.filterMap accessorOf) := by
  induction fs generalizing acc with
  | nil => simp [pure, Except.pure]
  | cons f fs ih =>
    obtain ⟨name, ⟨type, offset⟩⟩ := f
    obtain ⟨t, rfl⟩ := h _ (List.mem_cons_self _ _)
    simp only [List.foldlM_cons, Record.Type.defineProperty, bind, Except.bind,
      ih (fun f hf => h f (List.mem_cons_of_mem _ hf)), List.filterMap_cons, accessorOf,
      List.append_assoc, List.singleton_append]

theorem foldlM_defineProperty_of_object {fs : List (String × FieldInfo V)}
    (h : ∃ f ∈ fs, ¬ f.2.IsValue) (acc : List (String × Record.Accessor V)) :
    fs.foldlM Record.Type.defineProperty acc = .error .typeError := by
  induction fs generalizing acc with
  | nil => simp at h
  | cons f fs ih =>
    obtain ⟨name, ⟨type, offset⟩⟩ := f
    by_cases hv : FieldInfo.IsValue ⟨type, offset⟩
    · obtain ⟨t, rfl⟩ := hv
      have h' : ∃ f ∈ fs, ¬ f.2.IsValue := by
        obtain ⟨g, hg, hn⟩ := h
        rcases List.mem_cons.1 hg with rfl | hg
        · exact absurd ⟨t, rfl⟩ hn
        · exact ⟨g, hg, hn⟩
      simp only [List.foldlM_cons, Record.Type.defineProperty, bind, Except.bind, ih h']
    · cases type with
      | value t => exact absurd ⟨t, rfl⟩ hv
      | lock | signal | record _ => rfl

end Record

namespace Record.Type

/-- **`load` returns exactly for aligned records of value fields**, and then its view has
one accessor per field, in order. -/
theorem load_eq_ok {T : Record.Type V} {memory : MemoryRange} {offset : Nat} {context : Mode}
    {view : Record.View V} :
    T.load memory offset context = .ok view ↔
      (T.alignment.toNat ∣ memory.ptr ∧ T.alignment.toNat ∣ offset) ∧
        (∀ f ∈ T.fields, f.2.IsValue) ∧
        view = ⟨memory, offset, context, T.fields.filterMap Record.accessorOf⟩ := by
  unfold load
  rw [BaseMemoryRange.assertAlignment_eq]
  by_cases ha : T.alignment.toNat ∣ memory.ptr ∧ T.alignment.toNat ∣ offset
  · rw [if_pos ha]
    by_cases hv : ∀ f ∈ T.fields, f.2.IsValue
    · rw [Record.foldlM_defineProperty_of_value hv]
      simp only [bind, Except.bind, pure, Except.pure, List.nil_append, Except.ok.injEq]
      exact ⟨fun h => ⟨ha, hv, h.symm⟩, fun h => h.2.2.symm⟩
    · have hv' : ∃ f ∈ T.fields, ¬ f.2.IsValue := by push_neg at hv; exact hv
      rw [Record.foldlM_defineProperty_of_object hv']
      exact ⟨(fun h => nomatch h), fun h => absurd h.2.1 hv⟩
  · simp [ha, bind, Except.bind]

/-- **A record with an `ObjectType` field cannot be loaded**: at an aligned offset, `load`
throws the `TypeError` of `Object.defineProperty(undefined, ...)`. -/
theorem load_objectType {T : Record.Type V} {memory : MemoryRange} {offset : Nat} {context : Mode}
    (hp : T.alignment.toNat ∣ memory.ptr) (ho : T.alignment.toNat ∣ offset)
    (h : ∃ f ∈ T.fields, ¬ f.2.IsValue) :
    T.load memory offset context = .error .typeError := by
  simp [load, BaseMemoryRange.assertAlignment_ok hp ho, Record.foldlM_defineProperty_of_object h,
    bind, Except.bind]

/-- At a misaligned offset, `load` raises the alignment error. -/
theorem load_misaligned {T : Record.Type V} {memory : MemoryRange} {offset : Nat} {context : Mode}
    (h : ¬ (T.alignment.toNat ∣ memory.ptr ∧ T.alignment.toNat ∣ offset)) :
    T.load memory offset context = .error .alignmentError := by
  simp [load, BaseMemoryRange.assertAlignment_eq, h, bind, Except.bind]

end Record.Type

/-- The code's slip on its smallest input: a record of one `Lock`, loaded at an aligned
address in `new` mode, throws. -/
theorem lockRecord_load_raises :
    ∃ T : Record.Type Nat, Record.Type.new [[("_lock", .lock)]] = .ok T ∧
      T.load ⟨⟨arena 0, 0, 4⟩, false⟩ 0 .new = .error .typeError :=
  ⟨_, rfl, rfl⟩

/-! ### Writing a field -/

theorem Record.lookup_accessorOf {fs : List (String × FieldInfo V)} (hn : (fs.map (·.1)).Nodup)
    {name : String} {t : ValueType V} {off : Nat} (hf : (name, ⟨.value t, off⟩) ∈ fs) :
    (fs.filterMap Record.accessorOf).lookup name = some ⟨t, off⟩ := by
  induction fs with
  | nil => cases hf
  | cons g fs ih =>
    simp only [List.map_cons, List.nodup_cons] at hn
    rcases List.mem_cons.1 hf with rfl | hmem
    · simp [Record.accessorOf]
    · obtain ⟨n, ⟨ty, o⟩⟩ := g
      have hne : name ≠ n := fun e => hn.1 (e ▸ List.mem_map.2 ⟨_, hmem, rfl⟩)
      have hb : (name == n) = false := by simpa using hne
      cases ty <;> simp [Record.accessorOf, List.lookup_cons, hb, ih hn.2 hmem]

/-- What assigning `value` to the field `name` (type `t`, offset `off`) of `view`, a view of
`T` at offset `o` of `r`, does to the buffer `b`: it changes no byte outside the field's
slot, and every other field whose type reads only its slot, in any view of `T` over the
same bytes, reads as before. -/
def Record.View.WriteIsLocal (T : Record.Type V) (r : MemoryRange) (o : Nat) (view : Record.View V)
    (name : String) (t : ValueType V) (off : Nat) (value : V) (b : Buffer) : Prop :=
  ∃ run, view.set name value = some run ∧
    (∀ i, i < r.ptr + o + off ∨ r.ptr + o + off + t.size ≤ i → (run b).state.bytes i = b.bytes i) ∧
    ∀ (r' : MemoryRange) (o' : Nat) (ctx' : Mode) (view' : Record.View V),
      T.load r' o' ctx' = .ok view' → r'.ptr + o' = r.ptr + o →
      ∀ name' t' off', name' ≠ name → (name', ⟨.value t', off'⟩) ∈ T.fields → t'.LoadsWithin →
        view'.get name' (run b).state = view'.get name' b

/-- **Writing one field leaves every other field intact.** In a view of a built record
whose value types write only in their slots, assigning to a value field is local. -/
theorem Record.View.set_frame {props : List (List (String × PropertyType V))} {T : Record.Type V}
    (hT : Record.Type.new props = .ok T) {r : MemoryRange} {o : Nat} {ctx : Mode}
    {view : Record.View V} (hv : T.load r o ctx = .ok view)
    (hw : ∀ f ∈ T.fields, ∀ t, f.2.type = .value t → t.StoresWithin)
    {name : String} {t : ValueType V} {off : Nat} (hf : (name, ⟨.value t, off⟩) ∈ T.fields)
    (value : V) (b : Buffer) : Record.View.WriteIsLocal T r o view name t off value b := by
  obtain ⟨hl, hn⟩ := Record.Type.laid_of_new hT
  obtain ⟨-, hp, -⟩ := hl.packed.bounds
  obtain ⟨-, -, rfl⟩ := Record.Type.load_eq_ok.1 hv
  have hrun := hw _ hf t rfl r (o + off) value ctx b
  refine ⟨_, by simp [Record.View.set, Record.lookup_accessorOf hn hf], fun i hi => hrun.2 i (by omega), ?_⟩
  intro r' o' ctx' view' hv' hbase name' t' off' hne hf' hload
  obtain ⟨-, -, rfl⟩ := Record.Type.load_eq_ok.1 hv'
  simp only [Record.View.get, Record.lookup_accessorOf hn hf', Option.map_some', Option.some.injEq]
  have hd := List.Pairwise.forall (R := fun f g => f.2.offset + f.2.type.size ≤ g.2.offset ∨
      g.2.offset + g.2.type.size ≤ f.2.offset) (fun _ _ h => h.symm) (hp.imp .inl) hf hf'
      (fun h => hne (congrArg Prod.fst h).symm)
  simp only [PropertyType.size] at hd
  exact hload _ _ _ _ _ hrun.1 fun i h1 h2 => hrun.2 i (by omega)

/-- Two words, `a` and `b`. -/
def wordPair : List (List (String × PropertyType Nat)) :=
  [[("a", .value ValueType.u32), ("b", .value ValueType.u32)]]

/-- The record `wordPair` builds. -/
def wordPairType : Record.Type Nat :=
  ⟨.word, 8, [("a", ⟨.value ValueType.u32, 0⟩), ("b", ⟨.value ValueType.u32, 4⟩)]⟩

/-- Its view at the start of an eight-byte range. -/
def wordPairView : Record.View Nat :=
  ⟨⟨⟨arena 0, 0, 8⟩, false⟩, 0, .new, [("a", ⟨ValueType.u32, 0⟩), ("b", ⟨ValueType.u32, 4⟩)]⟩

theorem wordPair_stores : ∀ f ∈ wordPairType.fields, ∀ t, f.2.type = .value t → t.StoresWithin := by
  simp only [wordPairType, List.mem_cons, List.mem_singleton, List.not_mem_nil, or_false]
  rintro f (rfl | rfl) t ⟨⟩ <;> exact ValueType.u32_storesWithin

theorem set_frame_wordPair :
    (Record.Type.new wordPair = .ok wordPairType ∧
      wordPairType.load ⟨⟨arena 0, 0, 8⟩, false⟩ 0 .new = .ok wordPairView ∧
      (∀ f ∈ wordPairType.fields, ∀ t, f.2.type = .value t → t.StoresWithin) ∧
      ("a", ⟨.value ValueType.u32, 0⟩) ∈ wordPairType.fields) ∧
    Record.View.WriteIsLocal wordPairType ⟨⟨arena 0, 0, 8⟩, false⟩ 0 wordPairView "a" ValueType.u32 0 7
      (Buffer.zeros 8) :=
  ⟨⟨rfl, rfl, wordPair_stores, List.mem_cons_self _ _⟩,
    @Record.View.set_frame Nat wordPair wordPairType rfl ⟨⟨arena 0, 0, 8⟩, false⟩ 0 .new wordPairView rfl
      wordPair_stores
      _ _ _ (List.mem_cons_self _ _) 7 _⟩

/-- A value type that stores its word in its slot but loads the word four bytes before it: it
writes only inside its slot, but does not read only its slot. -/
def peekBefore : ValueType Nat :=
  { ValueType.u32 with load := fun memory offset _ b => memory.getUint32 (offset - 4) b }

/-- Writing within the slot is not enough for the other fields to read as before: in a record
of two `peekBefore` words, assigning `7` to `a` changes what `b` reads from `0` to `7`. -/
theorem set_frame_needs_loadsWithin :
    peekBefore.StoresWithin ∧
      ∃ T view run, Record.Type.new [[("a", .value peekBefore), ("b", .value peekBefore)]] = .ok T ∧
        T.load ⟨⟨arena 0, 0, 8⟩, false⟩ 0 .new = .ok view ∧ view.set "a" 7 = some run ∧
        view.get "b" (Buffer.zeros 8) = some (.ok 0) ∧
        view.get "b" (run (Buffer.zeros 8)).state = some (.ok 7) :=
  ⟨fun r offset v _ => r.setUint32_frames offset v, _, _, _, rfl, rfl, rfl, rfl, rfl⟩

/-! ### Reading a field back -/

/-- **A `u32` field reads back what was assigned to it.** In a view of a built record at
offset `o` of a range `r` that holds the record, an assignment to a `u32` field raises
`RangeError` and changes nothing when the range is not inside the buffer; otherwise it returns,
and the field then reads as the value modulo `2 ^ 32`. -/
theorem Record.View.get_set_u32 {props : List (List (String × PropertyType Nat))}
    {T : Record.Type Nat} (hT : Record.Type.new props = .ok T) {r : MemoryRange} {o : Nat}
    {ctx : Mode} {view : Record.View Nat} (hv : T.load r o ctx = .ok view) (hr : o + T.size ≤ r.size)
    {name : String} {off : Nat} (hf : (name, ⟨.value ValueType.u32, off⟩) ∈ T.fields) (v : Nat)
    (b : Buffer) :
    ∃ run, view.set name v = some run ∧
      if r.ptr + r.size ≤ b.byteLength then
        ∃ b', run b = .ok () b' ∧ view.get name b' = some (.ok (v % 2 ^ 32))
      else run b = .error .rangeError b := by
  obtain ⟨hl, hn⟩ := Record.Type.laid_of_new hT
  obtain ⟨⟨hp, ho⟩, -, rfl⟩ := Record.Type.load_eq_ok.1 hv
  have hend : off + 4 ≤ T.size := ((hl.packed.bounds).1 _ hf).2
  -- the record's alignment is at least the word's, and the field's offset a multiple of it
  have h4 : 4 ∣ T.alignment.toNat := Alignment.dvd_of_le (hl.alignment_ge _ hf)
  have hp4 : 4 ∣ r.ptr := h4.trans hp
  have ho4 : 4 ∣ o + off := Nat.dvd_add (h4.trans ho) (hl.packed.dvd _ hf)
  refine ⟨r.setUint32 (o + off) v, by simp [Record.View.set, Record.lookup_accessorOf hn hf,
    ValueType.u32], ?_⟩
  split_ifs with hbuf
  · refine ⟨_, MemoryRange.setUint32_ok hp4 ho4 ⟨hbuf, by omega⟩, ?_⟩
    simp [Record.View.get, Record.lookup_accessorOf hn hf, ValueType.u32,
      BaseMemoryRange.getUint32_ok (b := b.setUint32 (r.ptr + (o + off)) v) hp4 ho4
        ⟨by simpa using hbuf, by omega⟩, Buffer.getUint32_setUint32]
  · simp [MemoryRange.setUint32, BaseMemoryRange.assertAlignment_ok (a := .word) hp4 ho4,
      BaseMemoryRange.InBounds, hbuf]

/-- Assigning `7` to the word `a` of a `wordPair` view over eight zero bytes: it reads `7`. -/
theorem get_set_wordPair :
    ∃ run, wordPairView.set "a" 7 = some run ∧
      if 0 + 8 ≤ (Buffer.zeros 8).byteLength then
        ∃ b', run (Buffer.zeros 8) = .ok () b' ∧ wordPairView.get "a" b' = some (.ok (7 % 2 ^ 32))
      else run (Buffer.zeros 8) = .error .rangeError (Buffer.zeros 8) :=
  @Record.View.get_set_u32 wordPair wordPairType rfl ⟨⟨arena 0, 0, 8⟩, false⟩ 0 .new wordPairView rfl
    (by decide) "a" 0 (List.mem_cons_self _ _) 7 (Buffer.zeros 8)

end WasiKit
