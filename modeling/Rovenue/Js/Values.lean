import Rovenue.Js.JsonText

/-! Values as a script holds them, what `JSON.stringify` keeps of them, and their canonical form:
absent and non-finite values read as null, the fields of every record in the order of their names. -/

namespace Rovenue.Js

inductive JsValue where
  | undefined
  | null
  | bool (b : Bool)
  | num (x : NumberLiteral)
  | nonFinite
  | str (s : String)
  -- a `Date`, by the text its `toJSON` gives
  | date (iso : String)
  | arr (elements : List JsValue)
  | obj (fields : List (String × JsValue))

def utf16 (s : String) : List ℕ :=
  s.toList.flatMap fun c =>
    if c.toNat < 0x10000 then [c.toNat]
    else [0xd800 + (c.toNat - 0x10000) / 0x400, 0xdc00 + (c.toNat - 0x10000) % 0x400]

def nameLE (m n : String) : Bool := decide (utf16 m ≤ utf16 n)

section Sorting
variable {α β : Type}

def sortFields (fields : List (String × α)) : List (String × α) :=
  fields.insertionSort fun f g => nameLE f.1 g.1

theorem sortFields_perm (fields : List (String × α)) : (sortFields fields).Perm fields :=
  List.perm_insertionSort _ fields

@[simp] theorem mem_sortFields {fields : List (String × α)} {f : String × α} :
    f ∈ sortFields fields ↔ f ∈ fields := (sortFields_perm fields).mem_iff

@[simp] theorem length_sortFields (fields : List (String × α)) :
    (sortFields fields).length = fields.length := (sortFields_perm fields).length_eq

theorem sortFields_map (g : α → β) (fields : List (String × α)) :
    sortFields (fields.map fun f => (f.1, g f.2)) = (sortFields fields).map fun f => (f.1, g f.2) := by
  have hmap := List.map_insertionSort (fun f g : String × α => nameLE f.1 g.1 = true)
    (fun f g : String × β => nameLE f.1 g.1 = true) (fun f => (f.1, g f.2)) fields
    fun _ _ _ _ => Iff.rfl
  exact hmap.symm

theorem sortFields_filter (fields : List (String × α)) (name : String) :
    (sortFields fields).filter (fun f => f.1 = name) = fields.filter fun f => f.1 = name := by
  have halike : (fields.filter fun f => f.1 = name).Pairwise fun f g => nameLE f.1 g.1 = true := by
    refine List.pairwise_iff_forall_sublist.2 fun {f g} hsub => ?_
    have hf : f.1 = name := by simpa using List.of_mem_filter (hsub.subset List.mem_cons_self)
    have hg : g.1 = name := by
      simpa using List.of_mem_filter (hsub.subset (List.mem_cons_of_mem f List.mem_cons_self))
    simp [nameLE, hf, hg]
  have hsub := (List.sublist_insertionSort halike List.filter_sublist).filter
    fun f => decide (f.1 = name)
  simp only [List.filter_filter, Bool.and_self] at hsub
  have hlength := ((sortFields_perm fields).filter fun f => decide (f.1 = name)).length_eq
  exact (hsub.eq_of_length hlength.symm).symm

theorem lookup_eq_filter (fields : List (String × α)) (name : String) :
    fields.lookup name = ((fields.filter fun f => f.1 = name).map Prod.snd).head? := by
  induction fields with
  | nil => rfl
  | cons f fields ih =>
    rw [List.lookup_cons, List.filter_cons]
    by_cases hname : f.1 = name
    · simp [hname]
    · have hbeq : (name == f.1) = false := by simpa using Ne.symm hname
      simp [hname, hbeq, ih]

@[simp] theorem lookup_sortFields (fields : List (String × α)) (name : String) :
    (sortFields fields).lookup name = fields.lookup name := by
  rw [lookup_eq_filter, sortFields_filter, ← lookup_eq_filter]

end Sorting

mutual

def Json.sorted : Json → Json
  | .arr es => .arr (Json.sortedElements es)
  | .obj fields => .obj (sortFields (Json.sortedFields fields))
  | v => v

def Json.sortedElements : List Json → List Json
  | [] => []
  | e :: es => e.sorted :: Json.sortedElements es

def Json.sortedFields : List (String × Json) → List (String × Json)
  | [] => []
  | (name, v) :: fields => (name, v.sorted) :: Json.sortedFields fields

end

mutual

/-- No record of the value names a field twice. -/
def Json.Distinct : Json → Prop
  | .arr es => Json.DistinctElements es
  | .obj fields => (fields.map Prod.fst).Nodup ∧ Json.DistinctFields fields
  | _ => True

def Json.DistinctElements : List Json → Prop
  | [] => True
  | e :: es => e.Distinct ∧ Json.DistinctElements es

def Json.DistinctFields : List (String × Json) → Prop
  | [] => True
  | (_, v) :: fields => v.Distinct ∧ Json.DistinctFields fields

end

theorem Json.sortedFields_eq (fields : List (String × Json)) :
    Json.sortedFields fields = fields.map fun f => (f.1, f.2.sorted) := by
  induction fields with
  | nil => rfl
  | cons f fields ih => rw [Json.sortedFields, ih, List.map_cons]

theorem Json.get_sorted (v : Json) (name : String) :
    v.sorted.get name = (v.get name).map Json.sorted := by
  cases v with
  | obj fields =>
    rw [Json.sorted, Json.get, Json.get, lookup_sortFields, Json.sortedFields_eq]
    induction fields with
    | nil => rfl
    | cons f fields ih =>
      rw [List.map_cons, List.lookup_cons, List.lookup_cons, ih]
      cases name == f.1 <;> rfl
  | _ => rfl

namespace JsValue

mutual

def toJson? : JsValue → Option Json
  -- `JSON.parse(JSON.stringify(value))`, with nothing where the text is `undefined`
  | .undefined => none
  | .null => some .null
  | .bool b => some (.bool b)
  | .num x => some (.num x)
  | .nonFinite => some .null
  | .str s => some (.str s)
  | .date iso => some (.str iso)
  | .arr es => some (.arr (elementsJson es))
  | .obj fields => some (.obj (fieldsJson fields))

def elementsJson : List JsValue → List Json
  | [] => []
  | e :: es => e.toJson?.getD .null :: elementsJson es

def fieldsJson : List (String × JsValue) → List (String × Json)
  | [] => []
  | (name, v) :: fields =>
    match v.toJson? with
    | none => fieldsJson fields
    | some j => (name, j) :: fieldsJson fields

end

def toJson (v : JsValue) : Json := v.toJson?.getD .null

mutual

def canonical : JsValue → Json
  -- The value that the canonical text writes. A `Date` has no property of its own.
  | .undefined => .null
  | .null => .null
  | .bool b => .bool b
  | .num x => .num x
  | .nonFinite => .null
  | .str s => .str s
  | .date _ => .obj []
  | .arr es => .arr (canonicalElements es)
  | .obj fields => .obj (sortFields (canonicalFields fields))

def canonicalElements : List JsValue → List Json
  | [] => []
  | e :: es => e.canonical :: canonicalElements es

def canonicalFields : List (String × JsValue) → List (String × Json)
  | [] => []
  | (name, v) :: fields => (name, v.canonical) :: canonicalFields fields

end

def isUndefined : JsValue → Bool
  | .undefined => true
  | _ => false

mutual

def isPlain : JsValue → Bool
  -- JSON keeps the value: no `Date` in it, and no field that is there without a value
  | .date _ => false
  | .arr es => plainElements es
  | .obj fields => plainFields fields
  | _ => true

def plainElements : List JsValue → Bool
  | [] => true
  | e :: es => e.isPlain && plainElements es

def plainFields : List (String × JsValue) → Bool
  | [] => true
  | (_, v) :: fields => !v.isUndefined && v.isPlain && plainFields fields

end

mutual

/-- No record names a field twice. -/
def Distinct : JsValue → Prop
  | .arr es => DistinctElements es
  | .obj fields => (fields.map Prod.fst).Nodup ∧ DistinctFields fields
  | _ => True

def DistinctElements : List JsValue → Prop
  | [] => True
  | e :: es => e.Distinct ∧ DistinctElements es

def DistinctFields : List (String × JsValue) → Prop
  | [] => True
  | (_, v) :: fields => v.Distinct ∧ DistinctFields fields

end

theorem canonicalFields_eq (fields : List (String × JsValue)) :
    canonicalFields fields = fields.map fun f => (f.1, f.2.canonical) := by
  induction fields with
  | nil => rfl
  | cons f fields ih => rw [canonicalFields, ih, List.map_cons]

theorem isUndefined_iff {v : JsValue} : v.isUndefined = true ↔ v = .undefined := by
  cases v <;> simp [isUndefined]

theorem plainFields_iff {fields : List (String × JsValue)} :
    plainFields fields = true ↔ ∀ f ∈ fields, f.2 ≠ .undefined ∧ f.2.isPlain = true := by
  induction fields with
  | nil => simp [plainFields]
  | cons f fields ih => simp [plainFields, ih, and_assoc, ← isUndefined_iff]

theorem toJson?_eq_none {v : JsValue} : v.toJson? = none ↔ v = .undefined := by
  cases v <;> simp [toJson?]

theorem fieldsJson_length_le (fields : List (String × JsValue)) :
    (fieldsJson fields).length ≤ fields.length := by
  induction fields with
  | nil => exact le_rfl
  | cons f fields ih =>
    obtain ⟨name, v⟩ := f
    rw [fieldsJson]
    split
    · exact ih.trans (Nat.le_succ _)
    · exact Nat.succ_le_succ ih

theorem ne_undefined_of_length {fields : List (String × JsValue)}
    (h : (fieldsJson fields).length = fields.length) : ∀ f ∈ fields, f.2 ≠ .undefined := by
  induction fields with
  | nil => simp
  | cons f fields ih =>
    obtain ⟨name, v⟩ := f
    rw [fieldsJson] at h
    cases hv : v.toJson? with
    | none =>
      have hle := fieldsJson_length_le fields
      simp only [hv, List.length_cons] at h
      omega
    | some j =>
      simp only [hv, List.length_cons, Nat.add_right_cancel_iff] at h
      have hne : v ≠ .undefined := by
        rintro rfl
        cases hv
      exact List.forall_mem_cons.2 ⟨hne, ih h⟩

theorem fieldsJson_eq {fields : List (String × JsValue)} (h : ∀ f ∈ fields, f.2 ≠ .undefined) :
    fieldsJson fields = fields.map fun f => (f.1, f.2.toJson) := by
  induction fields with
  | nil => rfl
  | cons f fields ih =>
    obtain ⟨name, v⟩ := f
    obtain ⟨hv, hfields⟩ := List.forall_mem_cons.1 h
    rw [fieldsJson, List.map_cons, ih hfields]
    cases hj : v.toJson? with
    | none => exact absurd (toJson?_eq_none.1 hj) hv
    | some j => simp [toJson, hj]

theorem sortFields_map_inj {f g : JsValue → Json} {fields : List (String × JsValue)}
    (h : sortFields (fields.map fun e => (e.1, f e.2)) =
      sortFields (fields.map fun e => (e.1, g e.2))) : ∀ e ∈ fields, f e.2 = g e.2 := by
  rw [sortFields_map, sortFields_map] at h
  intro e he
  have heq := List.map_inj_left.1 h e (mem_sortFields.2 he)
  exact (Prod.mk.inj heq).2

mutual

theorem canonical_eq_iff : (v : JsValue) → (v.canonical = v.toJson.sorted ↔ v.isPlain = true)
  | .undefined => by simp [canonical, toJson, toJson?, Json.sorted, isPlain]
  | .null => by simp [canonical, toJson, toJson?, Json.sorted, isPlain]
  | .bool b => by simp [canonical, toJson, toJson?, Json.sorted, isPlain]
  | .num x => by simp [canonical, toJson, toJson?, Json.sorted, isPlain]
  | .nonFinite => by simp [canonical, toJson, toJson?, Json.sorted, isPlain]
  | .str s => by simp [canonical, toJson, toJson?, Json.sorted, isPlain]
  | .date iso => by simp [canonical, toJson, toJson?, Json.sorted, isPlain]
  | .arr es => by
    simp only [canonical, toJson, toJson?, Option.getD_some, Json.sorted, isPlain, Json.arr.injEq]
    exact canonicalElements_eq_iff es
  | .obj fields => by
    simp only [canonical, toJson, toJson?, Option.getD_some, Json.sorted, isPlain, Json.obj.injEq]
    constructor
    · intro h
      have hlength : (fieldsJson fields).length = fields.length := by
        have hcount := congrArg List.length h
        simpa [canonicalFields_eq, Json.sortedFields_eq] using hcount.symm
      have hne := ne_undefined_of_length hlength
      rw [canonicalFields_eq, fieldsJson_eq hne, Json.sortedFields_eq, List.map_map] at h
      have hvalues := sortFields_map_inj (g := fun v => v.toJson.sorted) h
      exact plainFields_iff.2 fun f hf => ⟨hne f hf, plain_of_canonical fields hvalues f hf⟩
    · intro h
      have hplain := plainFields_iff.1 h
      rw [canonicalFields_eq, fieldsJson_eq fun f hf => (hplain f hf).1, Json.sortedFields_eq,
        List.map_map]
      congr 1
      refine List.map_congr_left fun f hf => congrArg (Prod.mk f.1) ?_
      exact canonical_of_plain fields (fun f hf => (hplain f hf).2) f hf

theorem canonicalElements_eq_iff : (es : List JsValue) →
    (canonicalElements es = Json.sortedElements (elementsJson es) ↔ plainElements es = true)
  | [] => by simp [canonicalElements, elementsJson, Json.sortedElements, plainElements]
  | e :: es => by
    simp only [canonicalElements, elementsJson, Json.sortedElements, plainElements,
      List.cons.injEq, Bool.and_eq_true]
    exact and_congr (canonical_eq_iff e) (canonicalElements_eq_iff es)

theorem plain_of_canonical : (fields : List (String × JsValue)) →
    (∀ f ∈ fields, f.2.canonical = f.2.toJson.sorted) → ∀ f ∈ fields, f.2.isPlain = true
  | [], _ => by simp
  | (name, v) :: fields, h => by
    obtain ⟨hv, hfields⟩ := List.forall_mem_cons.1 h
    exact List.forall_mem_cons.2 ⟨(canonical_eq_iff v).1 hv, plain_of_canonical fields hfields⟩

theorem canonical_of_plain : (fields : List (String × JsValue)) →
    (∀ f ∈ fields, f.2.isPlain = true) → ∀ f ∈ fields, f.2.canonical = f.2.toJson.sorted
  | [], _ => by simp
  | (name, v) :: fields, h => by
    obtain ⟨hv, hfields⟩ := List.forall_mem_cons.1 h
    exact List.forall_mem_cons.2 ⟨(canonical_eq_iff v).2 hv, canonical_of_plain fields hfields⟩

end

mutual

def ofJson : Json → JsValue
  | .null => .null
  | .bool b => .bool b
  | .num x => .num x
  | .str s => .str s
  | .arr es => .arr (ofElements es)
  | .obj fields => .obj (ofFields fields)

def ofElements : List Json → List JsValue
  | [] => []
  | e :: es => ofJson e :: ofElements es

def ofFields : List (String × Json) → List (String × JsValue)
  | [] => []
  | (name, v) :: fields => (name, ofJson v) :: ofFields fields

end

mutual

@[simp] theorem canonical_ofJson : (j : Json) → (ofJson j).canonical = j.sorted
  | .null => by simp [ofJson, canonical, Json.sorted]
  | .bool b => by simp [ofJson, canonical, Json.sorted]
  | .num x => by simp [ofJson, canonical, Json.sorted]
  | .str s => by simp [ofJson, canonical, Json.sorted]
  | .arr es => by rw [ofJson, canonical, Json.sorted, canonicalElements_ofElements es]
  | .obj fields => by rw [ofJson, canonical, Json.sorted, canonicalFields_ofFields fields]

theorem canonicalElements_ofElements : (es : List Json) →
    canonicalElements (ofElements es) = Json.sortedElements es
  | [] => by rw [ofElements, canonicalElements, Json.sortedElements]
  | e :: es => by
    rw [ofElements, canonicalElements, Json.sortedElements, canonical_ofJson e,
      canonicalElements_ofElements es]

theorem canonicalFields_ofFields : (fields : List (String × Json)) →
    canonicalFields (ofFields fields) = Json.sortedFields fields
  | [] => by rw [ofFields, canonicalFields, Json.sortedFields]
  | (name, v) :: fields => by
    rw [ofFields, canonicalFields, Json.sortedFields, canonical_ofJson v,
      canonicalFields_ofFields fields]

end

mutual

theorem distinct_toJson : (v : JsValue) → v.Distinct → v.toJson.Distinct
  | .undefined, _ => by simp [toJson, toJson?, Json.Distinct]
  | .null, _ => by simp [toJson, toJson?, Json.Distinct]
  | .bool b, _ => by simp [toJson, toJson?, Json.Distinct]
  | .num x, _ => by simp [toJson, toJson?, Json.Distinct]
  | .nonFinite, _ => by simp [toJson, toJson?, Json.Distinct]
  | .str s, _ => by simp [toJson, toJson?, Json.Distinct]
  | .date iso, _ => by simp [toJson, toJson?, Json.Distinct]
  | .arr es, h => by
    rw [Distinct] at h
    simp only [toJson, toJson?, Option.getD_some, Json.Distinct]
    exact distinct_elementsJson es h
  | .obj fields, h => by
    rw [Distinct] at h
    simp only [toJson, toJson?, Option.getD_some, Json.Distinct]
    exact ⟨h.1.sublist (names_fieldsJson fields), distinct_fieldsJson fields h.2⟩

theorem distinct_elementsJson : (es : List JsValue) → DistinctElements es →
    Json.DistinctElements (elementsJson es)
  | [], _ => by simp [elementsJson, Json.DistinctElements]
  | e :: es, h => by
    rw [DistinctElements] at h
    rw [elementsJson, Json.DistinctElements]
    exact ⟨distinct_toJson e h.1, distinct_elementsJson es h.2⟩

theorem distinct_fieldsJson : (fields : List (String × JsValue)) → DistinctFields fields →
    Json.DistinctFields (fieldsJson fields)
  | [], _ => by simp [fieldsJson, Json.DistinctFields]
  | (name, v) :: fields, h => by
    rw [DistinctFields] at h
    have hv := distinct_toJson v h.1
    have hfields := distinct_fieldsJson fields h.2
    rw [fieldsJson]
    rw [toJson] at hv
    cases hj : v.toJson? with
    | none => exact hfields
    | some j =>
      rw [hj, Option.getD_some] at hv
      exact ⟨hv, hfields⟩

theorem names_fieldsJson : (fields : List (String × JsValue)) →
    ((fieldsJson fields).map Prod.fst).Sublist (fields.map Prod.fst)
  | [] => List.Sublist.slnil
  | (name, v) :: fields => by
    rw [fieldsJson, List.map_cons]
    cases v.toJson? with
    | none => exact (names_fieldsJson fields).cons _
    | some j => exact (names_fieldsJson fields).cons_cons _

end
end JsValue
end Rovenue.Js
