/-
# The layout `Record.Type` computes

`new Record.Type(...props)` walks the properties in declaration order: a name
seen before raises `ComponentModelTrap`; otherwise the running offset is
rounded up to the property's alignment, the field recorded there, and the
offset advanced by its size, while the record's alignment is the largest one
seen. A property is a `ValueType` or an `ObjectType`: `Lock.Type`,
`Signal.Type` or a nested `Record.Type`, which we give by the properties it was
built from, so that its size and alignment are what its own constructor
computed.

The layout is sound (`Record.Type.new_layout`): fields in declaration order,
each at the least multiple of its alignment past the previous one, disjoint,
inside `size`; the alignment is the largest field alignment; and at every base
that is a multiple of it every field, nested ones included, is aligned.

Key definitions: `PropertyType`, `Record.layout`, `Record.Type.new`,
`PropertyType.AlignedAt`.
Key theorems: `Record.Type.new_eq_ok`, `Record.layout_laid`,
`PropertyType.alignedAt_of_dvd`, `Record.Type.new_layout`.
-/
import WasiKit.ValueType

namespace WasiKit

/-- The type of a record property: a `ValueType`, or an `ObjectType` (`Lock.Type`,
`Signal.Type`, or a `Record.Type` given by the properties it was built from). -/
inductive PropertyType (V : Type) where
  | value (t : ValueType V)
  | lock
  | signal
  | record (props : List (String × PropertyType V))

/-- `Record.Type.FieldInfo`: a field's type and its offset in the record. -/
structure FieldInfo (V : Type) where
  type : PropertyType V
  offset : Nat

/-- A built `Record.Type`: its alignment, its size and its fields (the `fields` map, in
the order the names were inserted). -/
structure Record.Type (V : Type) where
  alignment : Alignment
  size : Nat
  fields : List (String × FieldInfo V)

variable {V : Type}

namespace Record.Type

/-- The state before the loop: `Alignment.byte`, size `0`, no fields. -/
def empty : Record.Type V := ⟨.byte, 0, []⟩

/-- One turn of the constructor's loop past the duplicate check, for a property of
alignment `a` and size `s`. -/
def push (acc : Record.Type V) (name : String) (type : PropertyType V) (a : Alignment) (s : Nat) :
    Record.Type V :=
  let offset := Alignment.align acc.size a
  ⟨acc.alignment.max a, offset + s, acc.fields ++ [(name, ⟨type, offset⟩)]⟩

/-- The names of the fields. -/
def names (T : Record.Type V) : List String := T.fields.map (·.1)

end Record.Type

mutual

/-- The alignment of a property type. -/
def PropertyType.alignment : PropertyType V → Alignment
  | .value t => t.alignment
  | .lock => .word
  | .signal => .word
  | .record props => (Record.layout props .empty).alignment

/-- The size of a property type. -/
def PropertyType.size : PropertyType V → Nat
  | .value t => t.size
  | .lock => 4
  | .signal => 4
  | .record props => (Record.layout props .empty).size

/-- The constructor's loop, without the duplicate check. -/
def Record.layout : List (String × PropertyType V) → Record.Type V → Record.Type V
  | [], acc => acc
  | (name, type) :: props, acc => Record.layout props (acc.push name type type.alignment type.size)

end

/-- The properties the constructor walks: none, the only list, or the lists concatenated. -/
def Record.properties (props : List (List (String × PropertyType V))) : List (String × PropertyType V) :=
  match props with
  | [] => []
  | [p] => p
  | _ => props.foldl (· ++ ·) []

namespace Record.Type

/-- One turn of the constructor's loop: a name already in `fieldsMap` raises. -/
def addProperty (acc : Record.Type V) : String × PropertyType V → Except Error (Record.Type V)
  | (name, type) =>
    if acc.fields.any (·.1 == name) then .error (.componentModelTrap s!"Duplicate property {name}")
    else .ok (acc.push name type type.alignment type.size)

/-- `new Record.Type(...props)`. -/
def new (props : List (List (String × PropertyType V))) : Except Error (Record.Type V) :=
  (properties props).foldlM addProperty empty

end Record.Type

namespace Record

@[simp] theorem layout_nil (acc : Record.Type V) : layout [] acc = acc := rfl

@[simp] theorem layout_cons (name : String) (type : PropertyType V) (props) (acc : Record.Type V) :
    layout ((name, type) :: props) acc = layout props (acc.push name type type.alignment type.size) :=
  rfl

theorem foldl_append_eq {α : Type} (l : List (List α)) (acc : List α) :
    l.foldl (· ++ ·) acc = acc ++ l.flatten := by
  induction l generalizing acc <;> simp [*]

theorem properties_eq (props : List (List (String × PropertyType V))) :
    properties props = props.flatten := by
  unfold properties
  split
  · rfl
  · simp
  · simp [foldl_append_eq]

theorem names_push (acc : Record.Type V) (name : String) (type : PropertyType V) (a s) :
    (acc.push name type a s).names = acc.names ++ [name] := by
  simp [Record.Type.push, Record.Type.names]

theorem layout_names (props : List (String × PropertyType V)) (acc : Record.Type V) :
    (layout props acc).names = acc.names ++ props.map (·.1) := by
  induction props generalizing acc with
  | nil => simp
  | cons p props ih =>
    obtain ⟨name, type⟩ := p
    simp [ih, names_push]

/-- `fieldsMap.has(name)`. -/
theorem any_name_iff (acc : Record.Type V) (name : String) :
    acc.fields.any (·.1 == name) = true ↔ name ∈ acc.names := by
  simp [Record.Type.names]

/-- Past a set of distinct names, the loop returns the layout exactly when the names
stay distinct. -/
theorem foldlM_eq_ok {props : List (String × PropertyType V)} {acc T : Record.Type V}
    (h : acc.names.Nodup) :
    props.foldlM Record.Type.addProperty acc = .ok T ↔
      (acc.names ++ props.map (·.1)).Nodup ∧ T = layout props acc := by
  induction props generalizing acc with
  | nil => simp [h, eq_comm, pure, Except.pure]
  | cons p props ih =>
    obtain ⟨name, type⟩ := p
    by_cases hn : name ∈ acc.names
    · have : ¬ (acc.names ++ name :: props.map (·.1)).Nodup := fun hd =>
        (List.nodup_append.1 hd).2.2 hn (List.mem_cons_self _ _)
      simp [Record.Type.addProperty, (any_name_iff acc name).2 hn, this, bind, Except.bind]
    · have hp : (acc.push name type type.alignment type.size).names.Nodup := by
        rw [names_push]
        exact List.nodup_append.2 ⟨h, List.nodup_singleton _, by simpa using hn⟩
      have hf : acc.fields.any (·.1 == name) = false :=
        Bool.eq_false_iff.2 fun h' => hn ((any_name_iff acc name).1 h')
      simp only [List.foldlM_cons, Record.Type.addProperty, hf, Bool.false_eq_true, ↓reduceIte,
        bind, Except.bind, ih hp, names_push, List.append_assoc, List.singleton_append,
        List.map_cons, layout_cons]

/-- The loop raises nothing but `ComponentModelTrap`. -/
theorem foldlM_eq_error {props : List (String × PropertyType V)} {acc : Record.Type V} {e : Error}
    (h : props.foldlM Record.Type.addProperty acc = .error e) : ∃ msg, e = .componentModelTrap msg := by
  induction props generalizing acc with
  | nil => cases h
  | cons p props ih =>
    obtain ⟨name, type⟩ := p
    by_cases hc : acc.fields.any (·.1 == name) = true
    · simp only [List.foldlM_cons, Record.Type.addProperty, hc, ↓reduceIte, bind, Except.bind] at h
      exact ⟨_, (Except.error.inj h).symm⟩
    · simp only [List.foldlM_cons, Record.Type.addProperty, hc, Bool.false_eq_true, ↓reduceIte,
        bind, Except.bind] at h
      exact ih h

/-! ### The layout invariant -/

/-- `fs` lies packed from `start` to `stop`: each field at the least multiple of its
alignment at or past the end of the field before it (`start` for the first), and `stop`
the end of the last. -/
def Packed : Nat → List (String × FieldInfo V) → Nat → Prop
  | start, [], stop => stop = start
  | start, (_, f) :: fs, stop =>
    IsLeast {m | f.type.alignment.toNat ∣ m ∧ start ≤ m} f.offset ∧
      Packed (f.offset + f.type.size) fs stop

theorem isLeast_align (n : Nat) (a : Alignment) :
    IsLeast {m | a.toNat ∣ m ∧ n ≤ m} (Alignment.align n a) :=
  ⟨⟨Alignment.dvd_align n a, Alignment.le_align n a⟩, fun _ hm => Alignment.align_least hm.1 hm.2⟩

theorem packed_append {start mid : Nat} {fs : List (String × FieldInfo V)} {name : String}
    {f : FieldInfo V} (h : Packed start fs mid)
    (hf : IsLeast {m | f.type.alignment.toNat ∣ m ∧ mid ≤ m} f.offset) :
    Packed start (fs ++ [(name, f)]) (f.offset + f.type.size) := by
  induction fs generalizing start with
  | nil => subst h; exact ⟨hf, rfl⟩
  | cons g fs ih => exact ⟨h.1, ih h.2⟩

/-- Packed fields lie between `start` and `stop`, each ending before the next begins. -/
theorem Packed.bounds {start stop : Nat} {fs : List (String × FieldInfo V)} (h : Packed start fs stop) :
    (∀ f ∈ fs, start ≤ f.2.offset ∧ f.2.offset + f.2.type.size ≤ stop) ∧
      fs.Pairwise (fun f g => f.2.offset + f.2.type.size ≤ g.2.offset) ∧ start ≤ stop := by
  induction fs generalizing start with
  | nil => simp [h.symm]
  | cons g fs ih =>
    obtain ⟨hb, hp, hs⟩ := ih h.2
    have hg := h.1.1.2
    refine ⟨fun f hf => ?_, List.pairwise_cons.2 ⟨fun f hf => (hb f hf).1, hp⟩, by omega⟩
    rcases List.mem_cons.1 hf with rfl | hf
    · exact ⟨hg, hs⟩
    · exact ⟨by have := (hb f hf).1; omega, (hb f hf).2⟩

theorem Packed.dvd {start stop : Nat} {fs : List (String × FieldInfo V)} (h : Packed start fs stop) :
    ∀ f ∈ fs, f.2.type.alignment.toNat ∣ f.2.offset := by
  induction fs generalizing start with
  | nil => simp
  | cons g fs ih =>
    intro f hf
    rcases List.mem_cons.1 hf with rfl | hf
    · exact h.1.1.1
    · exact ih h.2 f hf

end Record

/-- What the constructor's loop keeps of the properties `props` it has placed: their
names and types in order, packed from `0` to `size`, and the alignment the largest
of theirs (`byte` if there are none). -/
structure Record.Type.Laid (props : List (String × PropertyType V)) (T : Record.Type V) : Prop where
  names : T.names = props.map (·.1)
  types : T.fields.map (·.2.type) = props.map (·.2)
  packed : Record.Packed 0 T.fields T.size
  alignment_ge : ∀ f ∈ T.fields, f.2.type.alignment.toNat ≤ T.alignment.toNat
  alignment_attained : T.alignment = .byte ∨ ∃ f ∈ T.fields, f.2.type.alignment = T.alignment

theorem Record.Type.laid_empty : (Record.Type.empty : Record.Type V).Laid [] :=
  ⟨rfl, rfl, rfl, by simp [Record.Type.empty], .inl rfl⟩

/-- One turn of the loop keeps the invariant. -/
theorem Record.Type.Laid.push {done : List (String × PropertyType V)} {acc : Record.Type V}
    (h : acc.Laid done) (name : String) (t : PropertyType V) :
    (acc.push name t t.alignment t.size).Laid (done ++ [(name, t)]) where
  names := by rw [Record.names_push, h.names]; simp
  types := by simp [Record.Type.push, ← h.types]
  packed := Record.packed_append h.packed (Record.isLeast_align _ _)
  alignment_ge := by
    simp only [Record.Type.push, List.mem_append, List.mem_singleton, Alignment.toNat_max]
    rintro f (hf | rfl)
    · exact (h.alignment_ge f hf).trans (le_max_left _ _)
    · exact le_max_right _ _
  alignment_attained := by
    simp only [Record.Type.push, Alignment.max, List.mem_append, List.mem_singleton]
    split
    · exact .inr ⟨_, .inr rfl, rfl⟩
    · rcases h.alignment_attained with hb | ⟨f, hf, he⟩
      · exact .inl hb
      · exact .inr ⟨f, .inl hf, he⟩

theorem Record.Type.Laid.layout {done : List (String × PropertyType V)} {acc : Record.Type V}
    (h : acc.Laid done) (props : List (String × PropertyType V)) :
    (Record.layout props acc).Laid (done ++ props) := by
  induction props generalizing done acc with
  | nil => simpa using h
  | cons p props ih =>
    obtain ⟨name, t⟩ := p
    simpa using ih (h.push name t)

theorem Record.layout_laid (props : List (String × PropertyType V)) :
    (Record.layout props .empty).Laid props := by
  simpa using Record.Type.laid_empty.layout props

theorem Record.alignment_le_of_mem {props : List (String × PropertyType V)} {t : PropertyType V}
    (ht : t ∈ props.map (·.2)) : t.alignment.toNat ≤ (Record.layout props .empty).alignment.toNat := by
  rw [← (Record.layout_laid props).types, List.mem_map] at ht
  obtain ⟨f, hf, rfl⟩ := ht
  exact (Record.layout_laid props).alignment_ge f hf

/-! ### Alignment of nested fields -/

mutual

/-- A property of type `t` at the absolute address `addr` is aligned, and so is every
field of it, at the offsets its record's own layout gives them. -/
def PropertyType.AlignedAt : PropertyType V → Nat → Prop
  | .value t, addr => t.alignment.toNat ∣ addr
  | .lock, addr => 4 ∣ addr
  | .signal, addr => 4 ∣ addr
  | .record props, addr =>
    (Record.layout props .empty).alignment.toNat ∣ addr ∧ Record.FieldsAlignedAt props addr .empty

/-- The fields `props` of a record at `addr`, placed from the loop state `acc` on, are
aligned. -/
def Record.FieldsAlignedAt : List (String × PropertyType V) → Nat → Record.Type V → Prop
  | [], _, _ => True
  | (name, t) :: props, addr, acc =>
    t.AlignedAt (addr + Alignment.align acc.size t.alignment) ∧
      Record.FieldsAlignedAt props addr (acc.push name t t.alignment t.size)

end

theorem PropertyType.AlignedAt.dvd {t : PropertyType V} {addr : Nat} (h : t.AlignedAt addr) :
    t.alignment.toNat ∣ addr := by
  cases t <;> simp_all [AlignedAt, alignment, Alignment.toNat]

mutual

/-- **Nested fields are aligned.** A property placed at a multiple of its alignment has
every field, at every depth of nesting, at a multiple of that field's alignment. -/
theorem PropertyType.alignedAt_of_dvd :
    ∀ (t : PropertyType V) (addr : Nat), t.alignment.toNat ∣ addr → t.AlignedAt addr
  | .value _, _, h => h
  | .lock, _, h => h
  | .signal, _, h => h
  | .record props, addr, h => ⟨h, Record.fieldsAlignedAt_of_dvd props addr .empty fun _ ht =>
      (Alignment.dvd_of_le (Record.alignment_le_of_mem ht)).trans h⟩

theorem Record.fieldsAlignedAt_of_dvd :
    ∀ (props : List (String × PropertyType V)) (addr : Nat) (acc : Record.Type V),
      (∀ t ∈ props.map (·.2), t.alignment.toNat ∣ addr) → Record.FieldsAlignedAt props addr acc
  | [], _, _, _ => trivial
  | (_, t) :: props, addr, _, h =>
    ⟨PropertyType.alignedAt_of_dvd t _ (Nat.dvd_add (h t (List.mem_cons_self _ _))
        (Alignment.dvd_align _ _)),
      Record.fieldsAlignedAt_of_dvd props addr _ fun t' ht' => h t' (List.mem_cons_of_mem _ ht')⟩

end

/-! ### The constructor -/

/-- The constructor returns exactly when the names are distinct, and then the layout of the
concatenated lists. -/
theorem Record.Type.new_eq_ok {props : List (List (String × PropertyType V))} {T : Record.Type V} :
    Record.Type.new props = .ok T ↔
      (props.flatten.map (·.1)).Nodup ∧ T = Record.layout props.flatten .empty := by
  simpa [Record.Type.new, Record.properties_eq] using
    @Record.foldlM_eq_ok V props.flatten .empty T List.nodup_nil

/-- A built record keeps the loop's invariant, and its field names are distinct. -/
theorem Record.Type.laid_of_new {props : List (List (String × PropertyType V))} {T : Record.Type V}
    (hT : Record.Type.new props = .ok T) : T.Laid props.flatten ∧ (T.fields.map (·.1)).Nodup := by
  obtain ⟨hn, rfl⟩ := Record.Type.new_eq_ok.1 hT
  have hl := Record.layout_laid props.flatten
  exact ⟨hl, by rwa [← Record.Type.names, hl.names]⟩

/-- **`Record.Type` lays out every property list soundly.** The constructor raises exactly
when two properties share a name, and then raises `ComponentModelTrap`. Otherwise the
fields keep the names and types in declaration order, each at the least multiple of its
alignment at or past the end of the one before (`0` for the first), `size` the end of the
last; they are disjoint and inside `[0, size]`; the alignment is the largest field
alignment (`byte` when there is none); and at every base that is a multiple of it every
field, nested fields of nested records included, is aligned. -/
theorem Record.Type.new_layout (props : List (List (String × PropertyType V))) :
    ((∃ msg, Record.Type.new props = .error (.componentModelTrap msg)) ↔
        ¬ (props.flatten.map (·.1)).Nodup) ∧
      (∀ e, Record.Type.new props = .error e → ∃ msg, e = .componentModelTrap msg) ∧
      ∀ T, Record.Type.new props = .ok T →
        T.Laid props.flatten ∧
        T.fields.Pairwise (fun f g => f.2.offset + f.2.type.size ≤ g.2.offset) ∧
        (∀ f ∈ T.fields, f.2.offset + f.2.type.size ≤ T.size) ∧
        ∀ base, T.alignment.toNat ∣ base → ∀ f ∈ T.fields, f.2.type.AlignedAt (base + f.2.offset) := by
  have hok : ∀ T, Record.Type.new props = .ok T ↔
      (props.flatten.map (·.1)).Nodup ∧ T = Record.layout props.flatten .empty := by
    intro T
    simpa [Record.Type.new, Record.properties_eq] using
      @Record.foldlM_eq_ok V props.flatten .empty T List.nodup_nil
  refine ⟨⟨fun ⟨_, he⟩ hn => ?_, fun hn => ?_⟩, fun e he => Record.foldlM_eq_error he, ?_⟩
  · cases ((hok _).2 ⟨hn, rfl⟩).symm.trans he
  · cases h : Record.Type.new props with
    | ok T => exact absurd ((hok T).1 h).1 hn
    | error e =>
      obtain ⟨msg, rfl⟩ := Record.foldlM_eq_error h
      exact ⟨msg, rfl⟩
  · rintro T hT
    obtain ⟨-, rfl⟩ := (hok T).1 hT
    have hl := Record.layout_laid props.flatten
    obtain ⟨hb, hp, -⟩ := hl.packed.bounds
    refine ⟨hl, hp, fun f hf => (hb f hf).2, fun base hbase f hf => ?_⟩
    apply PropertyType.alignedAt_of_dvd
    exact Nat.dvd_add ((Alignment.dvd_of_le (hl.alignment_ge f hf)).trans hbase) (hl.packed.dvd f hf)

/-- A word and then a record of a `Signal` and a `Lock`: twelve bytes. -/
example : ((Record.Type.new [[("a", .value ValueType.u32)],
    [("b", .record [("c", .signal), ("d", .lock)])]]).toOption.map (·.size)) = some 12 := by decide

end WasiKit
