import Rovenue.Js.Flatten

/-! The flattened record of a value decides the value, where no name in it reads as a path. -/

namespace Rovenue.Js
open Txn (Table)

theorem run_append_inj {p : Char → Bool} {xs xs' ys ys' : List Char}
    (hxs : ∀ c ∈ xs, p c = true) (hxs' : ∀ c ∈ xs', p c = true)
    (hys : ∀ c ∈ ys.head?, p c = false) (hys' : ∀ c ∈ ys'.head?, p c = false)
    (h : xs ++ ys = xs' ++ ys') : xs = xs' ∧ ys = ys' := by
  induction xs generalizing xs' with
  | nil =>
    cases xs' with
    | nil => exact ⟨rfl, h⟩
    | cons c xs' =>
      have hhead : c ∈ ys.head? := by
        rw [List.nil_append] at h
        rw [h]
        rfl
      have hc := hys c hhead
      rw [hxs' c List.mem_cons_self] at hc
      cases hc
  | cons c xs ih =>
    cases xs' with
    | nil =>
      have hhead : c ∈ ys'.head? := by
        rw [List.nil_append] at h
        rw [← h]
        rfl
      have hc := hys' c hhead
      rw [hxs c List.mem_cons_self] at hc
      cases hc
    | cons c' xs' =>
      rw [List.cons_append, List.cons_append, List.cons_eq_cons] at h
      obtain ⟨rfl, h⟩ := h
      obtain ⟨rfl, rfl⟩ := ih (fun d hd => hxs d (List.mem_cons_of_mem _ hd))
        (fun d hd => hxs' d (List.mem_cons_of_mem _ hd)) h
      exact ⟨rfl, rfl⟩

theorem toList_toString (n : ℕ) : (toString n).toList = Nat.toDigits 10 n := Nat.toList_repr

theorem isDigit_of_mem_toString {n : ℕ} {c : Char} (h : c ∈ (toString n).toList) : c.isDigit := by
  rw [toList_toString] at h
  exact Nat.isDigit_of_mem_toDigits (by decide) (by decide) h

theorem toString_ne_nil (n : ℕ) : (toString n).toList ≠ [] := by
  rw [toList_toString]
  exact Nat.toDigits_ne_nil

theorem toString_toList_inj {m n : ℕ} (h : (toString m).toList = (toString n).toList) : m = n :=
  Nat.repr_injective (String.toList_inj.1 h)

namespace NumberLiteral

def fractionPart (x : NumberLiteral) : List Char :=
  if x.fraction = [] then [] else '.' :: x.fraction.map fun d => Nat.digitChar d.val

def exponentPart (x : NumberLiteral) : List Char :=
  match x.exponent with
  | none => []
  | some e => 'e' :: (exponentText e).toList

theorem toList_toText (x : NumberLiteral) :
    x.toText.toList = (if x.negative then ['-'] else [])
      ++ ((toString x.whole).toList ++ (x.fractionPart ++ x.exponentPart)) := by
  have hsign : (if x.negative then "-" else "").toList = if x.negative then ['-'] else [] := by
    split <;> rfl
  have hfraction : (if x.fraction = [] then "" else
      "." ++ String.ofList (x.fraction.map fun d => Nat.digitChar d.val)).toList
        = x.fractionPart := by
    rw [fractionPart]
    split
    · rfl
    · simp
  have hexponent : (exponentSuffix x.exponent).toList = x.exponentPart := by
    rw [exponentPart]
    cases x.exponent with
    | none => rfl
    | some e => simp [exponentSuffix]
  rw [toText, String.toList_append, String.toList_append, String.toList_append, hsign, hfraction,
    hexponent, List.append_assoc, List.append_assoc]

theorem exponentText_injective {d e : ℤ} (h : exponentText d = exponentText e) : d = e := by
  have hchars := congrArg String.toList h
  simp only [exponentText, String.toList_append] at hchars
  have hd : ∀ z : ℤ, (if z < 0 then "-" else "+").toList = [if z < 0 then '-' else '+'] := by
    intro z
    split <;> rfl
  rw [hd, hd, List.singleton_append, List.singleton_append, List.cons_eq_cons] at hchars
  have habs := toString_toList_inj hchars.2
  have hsign := hchars.1
  split at hsign <;> split at hsign <;> first | omega | exact absurd hsign (by decide)

theorem digits_injective {ds es : List (Fin 10)}
    (h : (ds.map fun d => Nat.digitChar d.val) = es.map fun d => Nat.digitChar d.val) : ds = es := by
  have hinj : Function.Injective fun d : Fin 10 => Nat.digitChar d.val := by decide
  exact List.map_injective_iff.2 hinj h

theorem head_exponentPart (x : NumberLiteral) : ∀ c ∈ x.exponentPart.head?, c = 'e' := by
  rw [exponentPart]
  split
  · simp
  · simp

theorem exponentPart_injective {x y : NumberLiteral} (h : x.exponentPart = y.exponentPart) :
    x.exponent = y.exponent := by
  rw [exponentPart, exponentPart] at h
  match hx : x.exponent, hy : y.exponent with
  | none, none => rfl
  | none, some _ | some _, none => simp [hx, hy] at h
  | some d, some e =>
    rw [hx, hy, List.cons_eq_cons] at h
    rw [exponentText_injective (String.toList_inj.1 h.2)]

theorem tail_injective {x y : NumberLiteral}
    (h : x.fractionPart ++ x.exponentPart = y.fractionPart ++ y.exponentPart) :
    x.fraction = y.fraction ∧ x.exponent = y.exponent := by
  have hdot : ∀ {z : NumberLiteral} {cs : List Char}, z.exponentPart ≠ '.' :: cs := by
    intro z cs heq
    have hc := head_exponentPart z '.' (by rw [heq]; rfl)
    exact absurd hc (by decide)
  have hdigit : ∀ (ds : List (Fin 10)), ∀ c ∈ ds.map fun d => Nat.digitChar d.val,
      c.isDigit = true := by
    intro ds c hc
    obtain ⟨d, -, rfl⟩ := List.mem_map.1 hc
    have hall : ∀ d : Fin 10, (Nat.digitChar d.val).isDigit = true := by decide
    exact hall d
  have hend : ∀ z : NumberLiteral, ∀ c ∈ z.exponentPart.head?, c.isDigit = false := by
    intro z c hc
    rw [head_exponentPart z c hc]
    decide
  rw [fractionPart, fractionPart] at h
  by_cases hx : x.fraction = [] <;> by_cases hy : y.fraction = []
  · rw [if_pos hx, if_pos hy, List.nil_append, List.nil_append] at h
    exact ⟨hx.trans hy.symm, exponentPart_injective h⟩
  · rw [if_pos hx, if_neg hy] at h
    exact absurd h hdot
  · rw [if_neg hx, if_pos hy] at h
    exact absurd h.symm hdot
  · rw [if_neg hx, if_neg hy, List.cons_append, List.cons_append, List.cons_eq_cons] at h
    obtain ⟨hfraction, hexponent⟩ := run_append_inj (hdigit _) (hdigit _) (hend x) (hend y) h.2
    exact ⟨digits_injective hfraction, exponentPart_injective hexponent⟩

theorem toText_injective {x y : NumberLiteral} (h : x.toText = y.toText) : x = y := by
  have hchars := congrArg String.toList h
  rw [toList_toText, toList_toText] at hchars
  have hminus : ∀ {n : ℕ} {cs ds : List Char}, (toString n).toList ++ cs ≠ '-' :: ds := by
    intro n cs ds heq
    have hmem : '-' ∈ (toString n).toList := by
      cases hdigits : (toString n).toList with
      | nil => exact absurd hdigits (toString_ne_nil n)
      | cons c rest =>
        rw [hdigits, List.cons_append, List.cons_eq_cons] at heq
        rw [heq.1]
        exact List.mem_cons_self
    exact absurd (isDigit_of_mem_toString hmem) (by decide)
  have hsign : x.negative = y.negative := by
    cases hx : x.negative <;> cases hy : y.negative <;> simp only [hx, hy] at hchars <;> try rfl
    · exact absurd hchars hminus
    · exact absurd hchars.symm hminus
  rw [hsign] at hchars
  have hrest := List.append_cancel_left hchars
  have hend : ∀ z : NumberLiteral, ∀ c ∈ (z.fractionPart ++ z.exponentPart).head?,
      c.isDigit = false := by
    intro z c hc
    rw [fractionPart] at hc
    split at hc
    · rw [head_exponentPart z c hc]
      decide
    · obtain rfl : '.' = c := by simpa using hc
      decide
  obtain ⟨hwhole, htail⟩ := run_append_inj (fun _ => isDigit_of_mem_toString)
    (fun _ => isDigit_of_mem_toString) (hend x) (hend y) hrest
  obtain ⟨hfraction, hexponent⟩ := tail_injective htail
  have hwhole := toString_toList_inj hwhole
  cases x
  cases y
  simp_all

end NumberLiteral

def Json.isLeaf : Json → Bool
  | .arr (_ :: _) | .obj (_ :: _) => false
  | _ => true

inductive LeafKind where
  | null | bool | num | str | arr | obj
  deriving DecidableEq

def Json.kind : Json → LeafKind
  | .null => .null
  | .bool _ => .bool
  | .num _ => .num
  | .str _ => .str
  | .arr _ => .arr
  | .obj _ => .obj

def textKind (first : Option Char) : LeafKind :=
  if first = some 'n' then .null
  else if first = some 't' ∨ first = some 'f' then .bool
  else if first = some quotationMark then .str
  else if first = some '[' then .arr
  else if first = some '\x7b' then .obj
  else .num

theorem textKind_digit {c : Char} (h : c.isDigit) : textKind (some c) = .num := by
  have hne : ∀ d : Char, d.isDigit = false → some c ≠ some d := by
    rintro d hd heq
    rw [Option.some_inj.1 heq, hd] at h
    cases h
  rw [textKind, if_neg (hne 'n' (by decide)), if_neg, if_neg (hne quotationMark (by decide)),
    if_neg (hne '[' (by decide)), if_neg (hne '\x7b' (by decide))]
  rintro (heq | heq)
  · exact hne 't' (by decide) heq
  · exact hne 'f' (by decide) heq

theorem textKind_stringify (v : Json) : textKind (stringify v).toList.head? = v.kind := by
  cases v with
  | null => rfl
  | bool b => cases b <;> rfl
  | num x =>
    rw [stringify, NumberLiteral.toList_toText]
    cases x.negative with
    | true => rfl
    | false =>
      cases hdigits : (toString x.whole).toList with
      | nil => exact absurd hdigits (toString_ne_nil _)
      | cons c rest =>
        have hc : c.isDigit = true :=
          isDigit_of_mem_toString (by rw [hdigits]; exact List.mem_cons_self)
        exact textKind_digit hc
  | str s =>
    rw [stringify, quote, String.toList_ofList]
    rfl
  | arr es =>
    have htext : stringify (.arr es) = "[]" := rfl
    have hkind : textKind "[]".toList.head? = .arr := by decide
    rw [htext, hkind, Json.kind]
  | obj fs =>
    have htext : stringify (.obj fs) = "\x7b\x7d" := rfl
    have hkind : textKind "\x7b\x7d".toList.head? = .obj := by decide
    rw [htext, hkind, Json.kind]

theorem stringify_injective {v w : Json} (hv : v.isLeaf) (hw : w.isLeaf)
    (h : stringify v = stringify w) : v = w := by
  have hkind : v.kind = w.kind := by
    rw [← textKind_stringify, ← textKind_stringify, h]
  cases v with
  | null =>
    cases w with
    | null => rfl
    | _ => cases hkind
  | bool a =>
    cases w with
    | bool b => cases a <;> cases b <;> first | rfl | exact absurd h (by decide)
    | _ => cases hkind
  | num x =>
    cases w with
    | num y => rw [NumberLiteral.toText_injective h]
    | _ => cases hkind
  | str s =>
    cases w with
    | str t => rw [quote_injective h]
    | _ => cases hkind
  | arr es =>
    cases w with
    | arr fs =>
      cases es <;> cases fs <;> simp [Json.isLeaf] at hv hw ⊢
    | _ => cases hkind
  | obj es =>
    cases w with
    | obj fs =>
      cases es <;> cases fs <;> simp [Json.isLeaf] at hv hw ⊢
    | _ => cases hkind

inductive Segment where
  | field (name : String)
  | index (i : ℕ)
  deriving DecidableEq

def textAt : Json → List Segment → Option String
  | v, [] => if v.isLeaf then some (stringify v) else none
  | .arr es, .index i :: place => es[i]?.bind fun e => textAt e place
  | .obj fields, .field name :: place => (fields.lookup name).bind fun v => textAt v place
  | _, _ :: _ => none

def Segment.toChars : Segment → List Char
  | .field name => '.' :: name.toList
  | .index i => '[' :: (toString i).toList ++ [']']

def placeText (place : List Segment) : List Char := place.flatMap Segment.toChars

def PlainName (name : String) : Prop := name ≠ "" ∧ '.' ∉ name.toList ∧ '[' ∉ name.toList

instance (name : String) : Decidable (PlainName name) := inferInstanceAs (Decidable (_ ∧ _ ∧ _))

mutual

def Json.Plain : Json → Prop
  | .arr es => PlainElements es
  | .obj fields => PlainFields fields
  | _ => True

def PlainElements : List Json → Prop
  | [] => True
  | e :: es => e.Plain ∧ PlainElements es

def PlainFields : List (String × Json) → Prop
  | [] => True
  | (name, v) :: fields =>
    PlainName name ∧ name ∉ fields.map Prod.fst ∧ v.Plain ∧ PlainFields fields

end

def Segment.Plain : Segment → Prop
  | .field name => PlainName name
  | .index _ => True

theorem mem_of_lookup {fields : List (String × Json)} {name : String} {v : Json}
    (h : fields.lookup name = some v) : (name, v) ∈ fields := by
  obtain ⟨before, after, hsplit, -⟩ := List.lookup_eq_some_iff.1 h
  rw [hsplit]
  exact List.mem_append_right _ List.mem_cons_self

theorem PlainFields.lookup {fields : List (String × Json)} (h : PlainFields fields)
    {name : String} {v : Json} (hv : fields.lookup name = some v) : PlainName name ∧ v.Plain := by
  induction fields with
  | nil => cases hv
  | cons field fields ih =>
    obtain ⟨first, w⟩ := field
    obtain ⟨hname, -, hw, hrest⟩ := h
    rw [List.lookup_cons] at hv
    split at hv
    · rename_i heq
      obtain rfl := eq_of_beq heq
      exact ⟨hname, Option.some_inj.1 hv ▸ hw⟩
    · exact ih hrest hv

theorem PlainElements.getElem {es : List Json} (h : PlainElements es) {i : ℕ} {e : Json}
    (he : es[i]? = some e) : e.Plain := by
  induction es generalizing i with
  | nil => cases he
  | cons first es ih =>
    cases i with
    | zero => exact Option.some_inj.1 he ▸ h.1
    | succ i => exact ih h.2 he

theorem placeText_field (name : String) (place : List Segment) :
    placeText (.field name :: place) = '.' :: (name.toList ++ placeText place) := rfl

theorem placeText_index (i : ℕ) (place : List Segment) :
    placeText (.index i :: place) = '[' :: ((toString i).toList ++ (']' :: placeText place)) := by
  simp only [placeText, List.flatMap_cons, Segment.toChars, List.cons_append, List.append_assoc,
    List.nil_append]

theorem toList_joinPath {path : String} (h : path ≠ "") (name : String) (place : List Segment) :
    (joinPath path name).toList ++ placeText place
      = path.toList ++ placeText (.field name :: place) := by
  rw [joinPath, if_neg h, placeText_field]
  simp

theorem toList_indexPath (path : String) (i : ℕ) (place : List Segment) :
    (indexPath path i).toList ++ placeText place
      = path.toList ++ placeText (.index i :: place) := by
  rw [indexPath, placeText_index]
  simp

theorem joinPath_ne {path name : String} (h : name ≠ "") : joinPath path name ≠ "" := by
  intro heq
  have hchars := congrArg String.toList heq
  rw [joinPath] at hchars
  split at hchars
  · exact h (String.toList_inj.1 hchars)
  · simp at hchars

theorem indexPath_ne (path : String) (i : ℕ) : indexPath path i ≠ "" := by
  intro heq
  have hchars := congrArg String.toList heq
  simp [indexPath] at hchars

theorem textAt_nil {v : Json} {text : String} :
    textAt v [] = some text ↔ v.isLeaf ∧ stringify v = text := by
  rw [textAt]
  split <;> simp [*]

theorem textAt_arr {es : List Json} {place : List Segment} {text : String} (hes : es ≠ []) :
    textAt (.arr es) place = some text
      ↔ ∃ i rest, place = .index i :: rest ∧ (es[i]?.bind fun e => textAt e rest) = some text := by
  match place with
  | [] =>
    cases es with
    | nil => exact absurd rfl hes
    | cons e es => simp [textAt, Json.isLeaf]
  | .index i :: rest => simp [textAt]
  | .field name :: rest => simp [textAt]

theorem textAt_obj {fields : List (String × Json)} {place : List Segment} {text : String}
    (hfields : fields ≠ []) :
    textAt (.obj fields) place = some text
      ↔ ∃ name rest, place = .field name :: rest
        ∧ ((fields.lookup name).bind fun v => textAt v rest) = some text := by
  match place with
  | [] =>
    cases fields with
    | nil => exact absurd rfl hfields
    | cons e es => simp [textAt, Json.isLeaf]
  | .index i :: rest => simp [textAt]
  | .field name :: rest => simp [textAt]

theorem mem_flatten_leaf {path q text : String} {v : Json} (hv : v.isLeaf) :
    (q, text) ∈ flatten path v
      ↔ ∃ place, q.toList = path.toList ++ placeText place ∧ textAt v place = some text := by
  have hflat : flatten path v = [(path, stringify v)] := by
    match v with
    | .null | .bool _ | .num _ | .str _ | .arr [] | .obj [] => rw [flatten]
  have hempty : ∀ place, textAt v place = some text ↔ place = [] ∧ stringify v = text := by
    intro place
    match place with
    | [] => rw [textAt_nil, and_iff_right hv, and_iff_right rfl]
    | s :: rest =>
      match v, s with
      | .null, _ | .bool _, _ | .num _, _ | .str _, _ => simp [textAt]
      | .arr [], .index _ | .arr [], .field _ | .obj [], .index _ | .obj [], .field _ =>
        simp [textAt]
  rw [hflat, List.mem_singleton, Prod.mk.injEq]
  simp only [hempty]
  constructor
  · rintro ⟨rfl, rfl⟩
    exact ⟨[], by simp [placeText], rfl, rfl⟩
  · rintro ⟨place, hq, rfl, rfl⟩
    refine ⟨String.toList_inj.1 ?_, rfl⟩
    rw [hq, placeText, List.flatMap_nil, List.append_nil]

mutual

/-- What `flatten` writes: the text at each place, under the path of the place. -/
theorem mem_flatten {path : String} (hpath : path ≠ "") {v : Json} (hv : v.Plain) {q text : String} :
    (q, text) ∈ flatten path v
      ↔ ∃ place, q.toList = path.toList ++ placeText place ∧ textAt v place = some text := by
  match v with
  | .null | .bool _ | .num _ | .str _ | .arr [] | .obj [] => exact mem_flatten_leaf rfl
  | .arr (e :: es) =>
    have hflat : flatten path (.arr (e :: es)) = flattenElements path 0 (e :: es) := by
      rw [flatten, flattenElements]
    rw [hflat, mem_flattenElements path 0 hv]
    simp only [textAt_arr (List.cons_ne_nil e es), Nat.zero_add, toList_indexPath]
    constructor
    · rintro ⟨i, rest, hq, htext⟩
      exact ⟨_, hq, i, rest, rfl, htext⟩
    · rintro ⟨_, hq, i, rest, rfl, htext⟩
      exact ⟨i, rest, hq, htext⟩
  | .obj ((name, w) :: fields) =>
    have hflat : flatten path (.obj ((name, w) :: fields))
        = flattenFields path ((name, w) :: fields) := by
      rw [flatten, flattenFields]
    rw [hflat, mem_flattenFields path hv]
    simp only [textAt_obj (List.cons_ne_nil (name, w) fields), toList_joinPath hpath]
    constructor
    · rintro ⟨i, rest, hq, htext⟩
      exact ⟨_, hq, i, rest, rfl, htext⟩
    · rintro ⟨_, hq, i, rest, rfl, htext⟩
      exact ⟨i, rest, hq, htext⟩

theorem mem_flattenElements (path : String) (i : ℕ) {es : List Json} (hes : PlainElements es)
    {q text : String} :
    (q, text) ∈ flattenElements path i es
      ↔ ∃ j place, q.toList = (indexPath path (i + j)).toList ++ placeText place
        ∧ (es[j]?.bind fun e => textAt e place) = some text := by
  match es with
  | [] => simp [flattenElements]
  | e :: es =>
    rw [flattenElements, List.mem_append, mem_flatten (indexPath_ne path i) hes.1,
      mem_flattenElements path (i + 1) hes.2]
    constructor
    · rintro (⟨place, hq, htext⟩ | ⟨j, place, hq, htext⟩)
      · exact ⟨0, place, hq, htext⟩
      · refine ⟨j + 1, place, ?_, htext⟩
        rw [hq, Nat.add_right_comm, Nat.add_assoc]
    · rintro ⟨j, place, hq, htext⟩
      cases j with
      | zero => exact .inl ⟨place, hq, htext⟩
      | succ j =>
        refine .inr ⟨j, place, ?_, htext⟩
        rw [hq, Nat.add_right_comm, Nat.add_assoc]

theorem mem_flattenFields (path : String) {fields : List (String × Json)}
    (hfields : PlainFields fields) {q text : String} :
    (q, text) ∈ flattenFields path fields
      ↔ ∃ name place, q.toList = (joinPath path name).toList ++ placeText place
        ∧ ((fields.lookup name).bind fun v => textAt v place) = some text := by
  match fields with
  | [] => simp [flattenFields]
  | (first, w) :: fields =>
    obtain ⟨hfirst, hnew, hw, hrest⟩ := hfields
    rw [flattenFields, List.mem_append, mem_flatten (joinPath_ne hfirst.1) hw,
      mem_flattenFields path hrest]
    have hlookup : ∀ name, ((first, w) :: fields).lookup name
        = if name = first then some w else fields.lookup name := by
      intro name
      rw [List.lookup_cons]
      by_cases hname : name = first
      · simp [hname]
      · rw [beq_false_of_ne hname, if_neg hname]
    constructor
    · rintro (⟨place, hq, htext⟩ | ⟨name, place, hq, htext⟩)
      · refine ⟨first, place, hq, ?_⟩
        rw [hlookup, if_pos rfl]
        exact htext
      · refine ⟨name, place, hq, ?_⟩
        have hname : name ≠ first := by
          rintro rfl
          obtain ⟨v, hv, -⟩ := Option.bind_eq_some_iff.1 htext
          exact hnew (List.mem_map.2 ⟨_, mem_of_lookup hv, rfl⟩)
        rw [hlookup, if_neg hname]
        exact htext
    · rintro ⟨name, place, hq, htext⟩
      rw [hlookup] at htext
      by_cases hname : name = first
      · subst hname
        rw [if_pos rfl] at htext
        exact .inl ⟨place, hq, htext⟩
      · rw [if_neg hname] at htext
        exact .inr ⟨name, place, hq, htext⟩

end

theorem exists_textAt : ∀ v : Json, ∃ place text, textAt v place = some text
  | .null | .bool _ | .num _ | .str _ | .arr [] | .obj [] => ⟨[], _, rfl⟩
  | .arr (e :: es) => by
    obtain ⟨place, text, h⟩ := exists_textAt e
    exact ⟨.index 0 :: place, text, h⟩
  | .obj ((name, w) :: fields) => by
    obtain ⟨place, text, h⟩ := exists_textAt w
    refine ⟨.field name :: place, text, ?_⟩
    simpa [textAt, List.lookup_cons] using h

theorem PlainFields.lookup_of_mem {fields : List (String × Json)} (h : PlainFields fields)
    {name : String} {v : Json} (hv : (name, v) ∈ fields) : fields.lookup name = some v := by
  induction fields with
  | nil => exact absurd hv List.not_mem_nil
  | cons field fields ih =>
    obtain ⟨first, w⟩ := field
    obtain ⟨-, hnew, -, hrest⟩ := h
    rcases List.mem_cons.1 hv with heq | hmem
    · cases heq
      simp
    · have hne : name ≠ first := by
        rintro rfl
        exact hnew (List.mem_map.2 ⟨_, hmem, rfl⟩)
      rw [List.lookup_cons, beq_false_of_ne hne]
      exact ih hrest hmem

theorem lookup_eq_none_iff {fields : List (String × Json)} {name : String} :
    fields.lookup name = none ↔ name ∉ fields.map Prod.fst := by
  rw [List.lookup_eq_none_iff]
  constructor
  · rintro h hmem
    obtain ⟨entry, hentry, rfl⟩ := List.mem_map.1 hmem
    simpa using h entry hentry
  · intro h entry hentry
    simpa using fun heq : name = entry.1 => h (heq ▸ List.mem_map_of_mem hentry)

mutual

theorem textAt_of_same {v w : Json} (hv : v.Plain) (h : v.same w) :
    ∀ place, textAt v place = textAt w place := by
  intro place
  match v, w with
  | .null, .null => rfl
  | .bool _, .bool _ | .num _, .num _ | .str _, .str _ => rw [Json.same] at h; rw [h]
  | .arr as, .arr bs =>
    have hbind := textAt_of_sameElements hv h
    match place with
    | [] =>
      cases as <;> cases bs <;> first | rfl | exact False.elim h
    | .index i :: place => exact hbind i place
    | .field _ :: _ => rfl
  | .obj as, .obj bs =>
    obtain ⟨hfields, hnames⟩ := h
    have hbind := textAt_of_sameFields hv hfields
    match place with
    | [] =>
      match as, bs with
      | [], [] => rfl
      | _ :: _, _ :: _ => rfl
      | [], b :: _ => exact absurd (hnames b.1 List.mem_cons_self) List.not_mem_nil
      | (name, a) :: _, [] =>
        obtain ⟨⟨b, hb, -⟩, -⟩ := hfields
        cases hb
    | .field name :: place =>
      cases ha : as.lookup name with
      | some a =>
        obtain ⟨b, hb, hsame⟩ := hbind (name, a) (mem_of_lookup ha)
        simp only [textAt, ha, hb, Option.bind_some, hsame place]
      | none =>
        have hb : bs.lookup name = none := by
          rw [lookup_eq_none_iff] at ha ⊢
          exact fun hmem => ha (hnames name hmem)
        simp only [textAt, ha, hb]
    | .index _ :: _ => rfl

theorem textAt_of_sameElements {as bs : List Json} (hv : PlainElements as)
    (h : Json.sameElements as bs) (i : ℕ) (place : List Segment) :
    (as[i]?.bind fun a => textAt a place) = bs[i]?.bind fun b => textAt b place := by
  match as, bs with
  | [], [] => rfl
  | a :: as, b :: bs =>
    cases i with
    | zero => exact textAt_of_same hv.1 h.1 place
    | succ i => exact textAt_of_sameElements hv.2 h.2 i place
  | [], _ :: _ | _ :: _, [] => exact False.elim h

theorem textAt_of_sameFields {as bs : List (String × Json)} (hv : PlainFields as)
    (h : Json.sameFields as bs) :
    ∀ field ∈ as, ∃ b, bs.lookup field.1 = some b ∧ ∀ place, textAt field.2 place = textAt b place := by
  match as with
  | [] =>
    intro field hfield
    exact absurd hfield List.not_mem_nil
  | (name, a) :: as =>
    obtain ⟨⟨b, hb, hsame⟩, hrest⟩ := h
    obtain ⟨-, -, ha, has⟩ := hv
    intro field hfield
    rcases List.mem_cons.1 hfield with rfl | hfield
    · exact ⟨b, hb, textAt_of_same ha hsame⟩
    · exact textAt_of_sameFields has hrest field hfield

end

mutual

theorem same_of_textAt {v w : Json} (hv : v.Plain) (h : ∀ place, textAt v place = textAt w place) :
    v.same w := by
  match v with
  | .null | .bool _ | .num _ | .str _ | .arr [] | .obj [] => exact same_of_leaf rfl h
  | .arr (e :: es) =>
    obtain ⟨place, text, htext⟩ := exists_textAt e
    have hw : textAt w (.index 0 :: place) = some text := by
      rw [← h]
      exact htext
    match w with
    | .arr fs =>
      have helements : Json.sameElements (e :: es) fs :=
        sameElements_of_textAt hv fun i place => h (.index i :: place)
      exact helements
    | .null | .bool _ | .num _ | .str _ | .obj _ => simp [textAt] at hw
  | .obj ((name, a) :: as) =>
    obtain ⟨place, text, htext⟩ := exists_textAt a
    have hw : textAt w (.field name :: place) = some text := by
      rw [← h]
      simpa [textAt, List.lookup_cons] using htext
    match w with
    | .obj bs =>
      have hbind : ∀ (m : String) (p : List Segment),
          ((((name, a) :: as).lookup m).bind fun v => textAt v p)
            = (bs.lookup m).bind fun v => textAt v p := fun m p => h (.field m :: p)
      have hfields : Json.sameFields ((name, a) :: as) bs := by
        apply sameFields_of_textAt hv
        rintro ⟨m, c⟩ hc
        have hm := PlainFields.lookup_of_mem hv hc
        obtain ⟨p, t, ht⟩ := exists_textAt c
        have hsome := hbind m p
        rw [hm, Option.bind_some, ht] at hsome
        obtain ⟨b, hb, -⟩ := Option.bind_eq_some_iff.1 hsome.symm
        refine ⟨b, hb, fun p => ?_⟩
        have hp := hbind m p
        rwa [hm, hb, Option.bind_some, Option.bind_some] at hp
      refine ⟨hfields, ?_⟩
      intro m hm
      by_contra hnot
      rw [← lookup_eq_none_iff] at hnot
      have hsome : bs.lookup m ≠ none := fun hnone => lookup_eq_none_iff.1 hnone hm
      obtain ⟨b, hb⟩ := Option.ne_none_iff_exists'.1 hsome
      obtain ⟨p, t, ht⟩ := exists_textAt b
      have hp := hbind m p
      rw [hnot, hb, Option.bind_some, ht] at hp
      cases hp
    | .null | .bool _ | .num _ | .str _ | .arr _ => simp [textAt] at hw

theorem same_of_leaf {v w : Json} (hv : v.isLeaf) (h : ∀ place, textAt v place = textAt w place) :
    v.same w := by
  have hw := h []
  rw [textAt_nil.2 ⟨hv, rfl⟩] at hw
  obtain ⟨hleaf, htext⟩ := textAt_nil.1 hw.symm
  obtain rfl := stringify_injective hleaf hv htext
  match w with
  | .null => trivial
  | .bool _ | .num _ | .str _ => rw [Json.same]
  | .arr [] => trivial
  | .obj [] => exact ⟨trivial, fun _ hname => absurd hname List.not_mem_nil⟩

theorem sameElements_of_textAt {as bs : List Json} (hv : PlainElements as)
    (h : ∀ (i : ℕ) (place : List Segment),
      (as[i]?.bind fun a => textAt a place) = bs[i]?.bind fun b => textAt b place) :
    Json.sameElements as bs := by
  match as, bs with
  | [], [] => trivial
  | a :: as, b :: bs =>
    exact ⟨same_of_textAt hv.1 fun place => h 0 place,
      sameElements_of_textAt hv.2 fun i place => h (i + 1) place⟩
  | [], b :: _ =>
    obtain ⟨place, text, htext⟩ := exists_textAt b
    have hnone := (h 0 place).symm
    have hb : (some b).bind (fun b => textAt b place) = some text := htext
    cases hb.symm.trans hnone
  | a :: _, [] =>
    obtain ⟨place, text, htext⟩ := exists_textAt a
    have hnone := h 0 place
    have ha : (some a).bind (fun a => textAt a place) = some text := htext
    cases ha.symm.trans hnone

theorem sameFields_of_textAt {as bs : List (String × Json)} (hv : PlainFields as)
    (h : ∀ field ∈ as, ∃ b, bs.lookup field.1 = some b
      ∧ ∀ place, textAt field.2 place = textAt b place) : Json.sameFields as bs := by
  match as with
  | [] => trivial
  | (name, a) :: as =>
    obtain ⟨b, hb, hplaces⟩ := h _ List.mem_cons_self
    obtain ⟨-, -, ha, has⟩ := hv
    exact ⟨⟨b, hb, same_of_textAt ha hplaces⟩,
      sameFields_of_textAt has fun field hfield => h field (List.mem_cons_of_mem _ hfield)⟩

end

mutual

def leaves : Json → List (List Segment × Json)
  | .arr (e :: es) => (leaves e).map (fun l => (.index 0 :: l.1, l.2)) ++ leavesOfElements 1 es
  | .obj ((name, value) :: fields) =>
    (leaves value).map (fun l => (.field name :: l.1, l.2)) ++ leavesOfFields fields
  | .null => [([], .null)]
  | .bool b => [([], .bool b)]
  | .num x => [([], .num x)]
  | .str s => [([], .str s)]
  | .arr [] => [([], .arr [])]
  | .obj [] => [([], .obj [])]

def leavesOfElements (i : ℕ) : List Json → List (List Segment × Json)
  | [] => []
  | e :: es => (leaves e).map (fun l => (.index i :: l.1, l.2)) ++ leavesOfElements (i + 1) es

def leavesOfFields : List (String × Json) → List (List Segment × Json)
  | [] => []
  | (name, value) :: fields =>
    (leaves value).map (fun l => (.field name :: l.1, l.2)) ++ leavesOfFields fields

end

def written : String → List Segment → String
  | path, [] => path
  | path, .field name :: place => written (joinPath path name) place
  | path, .index i :: place => written (indexPath path i) place

mutual

theorem flatten_eq_leaves (path : String) (v : Json) :
    flatten path v = (leaves v).map fun l => (written path l.1, stringify l.2) := by
  match v with
  | .null | .bool _ | .num _ | .str _ | .arr [] | .obj [] => rfl
  | .arr (e :: es) =>
    rw [flatten, leaves, flatten_eq_leaves, flattenElements_eq_leaves, List.map_append,
      List.map_map]
    rfl
  | .obj ((name, value) :: fields) =>
    rw [flatten, leaves, flatten_eq_leaves, flattenFields_eq_leaves, List.map_append, List.map_map]
    rfl

theorem flattenElements_eq_leaves (path : String) (i : ℕ) (es : List Json) :
    flattenElements path i es =
      (leavesOfElements i es).map fun l => (written path l.1, stringify l.2) := by
  match es with
  | [] => rfl
  | e :: es =>
    rw [flattenElements, leavesOfElements, flatten_eq_leaves, flattenElements_eq_leaves,
      List.map_append, List.map_map]
    rfl

theorem flattenFields_eq_leaves (path : String) (fields : List (String × Json)) :
    flattenFields path fields =
      (leavesOfFields fields).map fun l => (written path l.1, stringify l.2) := by
  match fields with
  | [] => rfl
  | (name, value) :: fields =>
    rw [flattenFields, leavesOfFields, flatten_eq_leaves, flattenFields_eq_leaves, List.map_append,
      List.map_map]
    rfl

end

mutual

theorem isLeaf_of_mem_leaves {v : Json} : ∀ l ∈ leaves v, l.2.isLeaf = true := by
  match v with
  | .null | .bool _ | .num _ | .str _ | .arr [] | .obj [] =>
    intro l hl
    rw [leaves] at hl
    obtain rfl := List.mem_singleton.1 hl
    rfl
  | .arr (e :: es) =>
    intro l hl
    rw [leaves] at hl
    rcases List.mem_append.1 hl with hl | hl
    · obtain ⟨l', hl', rfl⟩ := List.mem_map.1 hl
      exact isLeaf_of_mem_leaves l' hl'
    · exact isLeaf_of_mem_leavesOfElements 1 l hl
  | .obj ((name, value) :: fields) =>
    intro l hl
    rw [leaves] at hl
    rcases List.mem_append.1 hl with hl | hl
    · obtain ⟨l', hl', rfl⟩ := List.mem_map.1 hl
      exact isLeaf_of_mem_leaves l' hl'
    · exact isLeaf_of_mem_leavesOfFields l hl

theorem isLeaf_of_mem_leavesOfElements (i : ℕ) {es : List Json} :
    ∀ l ∈ leavesOfElements i es, l.2.isLeaf = true := by
  match es with
  | [] =>
    intro l hl
    exact absurd hl List.not_mem_nil
  | e :: es =>
    intro l hl
    rw [leavesOfElements] at hl
    rcases List.mem_append.1 hl with hl | hl
    · obtain ⟨l', hl', rfl⟩ := List.mem_map.1 hl
      exact isLeaf_of_mem_leaves l' hl'
    · exact isLeaf_of_mem_leavesOfElements (i + 1) l hl

theorem isLeaf_of_mem_leavesOfFields {fields : List (String × Json)} :
    ∀ l ∈ leavesOfFields fields, l.2.isLeaf = true := by
  match fields with
  | [] =>
    intro l hl
    exact absurd hl List.not_mem_nil
  | (name, value) :: fields =>
    intro l hl
    rw [leavesOfFields] at hl
    rcases List.mem_append.1 hl with hl | hl
    · obtain ⟨l', hl', rfl⟩ := List.mem_map.1 hl
      exact isLeaf_of_mem_leaves l' hl'
    · exact isLeaf_of_mem_leavesOfFields l hl

end

section
variable {fields : List (String × Json)}

end

end Rovenue.Js
