import Rovenue.Js.Paths

/-! `JSON.stringify` of whole values. Two values with the same text are the same value. -/

namespace Rovenue.Js

mutual

def jsonText : Json → List Char
  | .null => (stringify .null).toList
  | .bool b => (stringify (.bool b)).toList
  | .num x => (stringify (.num x)).toList
  | .str s => (stringify (.str s)).toList
  | .arr [] => ['[', ']']
  | .arr (e :: es) => '[' :: (jsonText e ++ elementsText es)
  | .obj [] => ['\x7b', '\x7d']
  | .obj ((name, v) :: fields) =>
    '\x7b' :: ((quote name).toList ++ ':' :: (jsonText v ++ fieldsText fields))

def elementsText : List Json → List Char
  | [] => [']']
  | e :: es => ',' :: (jsonText e ++ elementsText es)

def fieldsText : List (String × Json) → List Char
  | [] => ['\x7d']
  | (name, v) :: fields => ',' :: ((quote name).toList ++ ':' :: (jsonText v ++ fieldsText fields))

end

theorem elementsText_eq (e : Json) (es : List Json) :
    jsonText e ++ elementsText es = [','].intercalate ((e :: es).map jsonText) ++ [']'] := by
  induction es generalizing e with
  | nil => simp [elementsText, List.intercalate]
  | cons e' es ih =>
    have hnext := ih e'
    rw [elementsText, hnext]
    simp [List.intercalate]

theorem jsonText_arr (es : List Json) :
    jsonText (.arr es) = '[' :: ([','].intercalate (es.map jsonText) ++ [']']) := by
  cases es with
  | nil => rfl
  | cons e es => rw [jsonText, elementsText_eq]

def memberText (f : String × Json) : List Char := (quote f.1).toList ++ ':' :: jsonText f.2

theorem fieldsText_eq (f : String × Json) (fields : List (String × Json)) :
    memberText f ++ fieldsText fields = [','].intercalate ((f :: fields).map memberText) ++ ['\x7d'] := by
  induction fields generalizing f with
  | nil => simp [fieldsText, List.intercalate]
  | cons f' fields ih =>
    have hnext := ih f'
    have htext : fieldsText (f' :: fields) = ',' :: (memberText f' ++ fieldsText fields) := by
      simp [fieldsText, memberText]
    rw [htext, hnext]
    simp [List.intercalate]

theorem jsonText_obj (fields : List (String × Json)) :
    jsonText (.obj fields) = '\x7b' :: ([','].intercalate (fields.map memberText) ++ ['\x7d']) := by
  cases fields with
  | nil => rfl
  | cons f fields =>
    have htext := fieldsText_eq f fields
    rw [← htext, jsonText, memberText]
    simp

def Delimited (rest : List Char) : Prop := ∀ c ∈ rest.head?, c = ',' ∨ c = ']' ∨ c = '\x7d'

theorem delimited_cons {c : Char} {rest : List Char} (h : c = ',' ∨ c = ']' ∨ c = '\x7d') :
    Delimited (c :: rest) := by
  intro d hd
  obtain rfl : c = d := by simpa using hd
  exact h

def isNumberChar (c : Char) : Bool := c.isDigit || c = '-' || c = '+' || c = '.' || c = 'e'

theorem isNumberChar_toText (x : NumberLiteral) : ∀ c ∈ x.toText.toList, isNumberChar c := by
  have hdigit : ∀ d : Fin 10, isNumberChar (Nat.digitChar d.val) = true := by decide
  have hnat : ∀ n : ℕ, ∀ c ∈ (toString n).toList, isNumberChar c = true := by
    intro n c hc
    simp [isNumberChar, isDigit_of_mem_toString hc]
  intro c hc
  rw [NumberLiteral.toList_toText] at hc
  simp only [List.mem_append] at hc
  obtain hsign | hwhole | hfraction | hexponent := hc
  · split at hsign
    · obtain rfl := List.mem_singleton.1 hsign
      decide
    · cases hsign
  · exact hnat _ c hwhole
  · rw [NumberLiteral.fractionPart] at hfraction
    split at hfraction
    · cases hfraction
    · obtain rfl | hmem := List.mem_cons.1 hfraction
      · decide
      · obtain ⟨d, -, rfl⟩ := List.mem_map.1 hmem
        exact hdigit d
  · rw [NumberLiteral.exponentPart] at hexponent
    split at hexponent
    · cases hexponent
    · obtain rfl | hmem := List.mem_cons.1 hexponent
      · decide
      · rw [NumberLiteral.exponentText, String.toList_append, List.mem_append] at hmem
        obtain hsign | habs := hmem
        · split at hsign
          · obtain rfl : c = '-' := by simpa using hsign
            decide
          · obtain rfl : c = '+' := by simpa using hsign
            decide
        · exact hnat _ c habs

theorem Delimited.not_number {rest : List Char} (h : Delimited rest) :
    ∀ c ∈ rest.head?, isNumberChar c = false := by
  intro c hc
  obtain rfl | rfl | rfl := h c hc <;> decide

theorem head_escapeChar (c : Char) : (escapeChar c).head? ≠ some quotationMark := by
  have hback : backslash ≠ quotationMark := by decide
  rw [escapeChar]
  split
  · simpa using hback
  · rename_i hquoted
    split
    · cases shortEscapes.lookup c.toNat <;> simpa using hback
    · intro heq
      exact hquoted (.inl (Option.some.inj heq))

theorem escaped_append_inj {cs ds r r' : List Char}
    (h : cs.flatMap escapeChar ++ quotationMark :: r = ds.flatMap escapeChar ++ quotationMark :: r') :
    cs = ds ∧ r = r' := by
  have hhead : ∀ (c : Char) (xs ys : List Char), escapeChar c ++ xs ≠ quotationMark :: ys := by
    intro c xs ys heq
    have hc := unescapeChar_escapeChar c xs
    cases hesc : escapeChar c with
    | nil =>
      rw [hesc, List.nil_append] at heq hc
      have hempty := congrArg List.length (congrArg escapeChar (rfl : c = c))
      rw [hesc] at hempty
      have hne : (escapeChar c) ≠ [] := by
        rw [escapeChar]
        split
        · simp
        · split
          · split <;> simp
          · simp
      exact hne hesc
    | cons d rest =>
      rw [hesc, List.cons_append, List.cons_eq_cons] at heq
      exact head_escapeChar c (by rw [hesc, heq.1]; rfl)
  induction cs generalizing ds with
  | nil =>
    cases ds with
    | nil => exact ⟨rfl, (List.cons.inj h).2⟩
    | cons d ds =>
      rw [List.flatMap_nil, List.nil_append, List.flatMap_cons, List.append_assoc] at h
      exact absurd h.symm (hhead d _ _)
  | cons c cs ih =>
    cases ds with
    | nil =>
      rw [List.flatMap_nil, List.nil_append, List.flatMap_cons, List.append_assoc] at h
      exact absurd h (hhead c _ _)
    | cons d ds =>
      rw [List.flatMap_cons, List.flatMap_cons, List.append_assoc, List.append_assoc] at h
      have hc := unescapeChar_escapeChar c (cs.flatMap escapeChar ++ quotationMark :: r)
      rw [h, unescapeChar_escapeChar, Option.some_inj, Prod.mk.injEq] at hc
      obtain ⟨rfl, hrest⟩ := hc
      obtain ⟨rfl, rfl⟩ := ih hrest.symm
      exact ⟨rfl, rfl⟩

theorem quote_append_inj {s t : String} {r r' : List Char}
    (h : (quote s).toList ++ r = (quote t).toList ++ r') : s = t ∧ r = r' := by
  simp only [quote, String.toList_ofList, List.cons_append, List.append_assoc, List.cons_eq_cons,
    true_and] at h
  obtain ⟨hchars, hrest⟩ := escaped_append_inj h
  exact ⟨String.toList_inj.1 hchars, hrest⟩

theorem toText_append_inj {x y : NumberLiteral} {r r' : List Char} (hr : Delimited r)
    (hr' : Delimited r') (h : x.toText.toList ++ r = y.toText.toList ++ r') : x = y ∧ r = r' := by
  obtain ⟨htext, hrest⟩ := run_append_inj (isNumberChar_toText x) (isNumberChar_toText y)
    hr.not_number hr'.not_number h
  exact ⟨NumberLiteral.toText_injective (String.toList_inj.1 htext), hrest⟩

theorem stringify_ne_nil (v : Json) : (stringify v).toList ≠ [] := by
  intro hempty
  have hkind := textKind_stringify v
  rw [hempty] at hkind
  have hnum : v.kind = .num := hkind.symm
  cases v with
  | num x =>
    rw [stringify, NumberLiteral.toList_toText] at hempty
    simp only [List.append_eq_nil_iff] at hempty
    exact toString_ne_nil _ hempty.2.1
  | _ => cases hnum

theorem textKind_jsonText (v : Json) (rest : List Char) :
    textKind (jsonText v ++ rest).head? = v.kind := by
  have hleaf : ∀ w : Json, textKind ((stringify w).toList ++ rest).head? = w.kind := by
    intro w
    rw [List.head?_append_of_ne_nil _ (stringify_ne_nil w), textKind_stringify]
  have harr : textKind (some '[') = .arr := by decide
  have hobj : textKind (some '\x7b') = .obj := by decide
  cases v with
  | arr es => cases es <;> exact harr
  | obj fields => cases fields <;> exact hobj
  | null => exact hleaf .null
  | bool b => exact hleaf (.bool b)
  | num x => exact hleaf (.num x)
  | str s => exact hleaf (.str s)

theorem kind_of_append {v w : Json} {r r' : List Char}
    (h : jsonText v ++ r = jsonText w ++ r') : v.kind = w.kind := by
  rw [← textKind_jsonText v r, ← textKind_jsonText w r', h]

def TextUnique (v : Json) : Prop :=
  ∀ w r r', Delimited r → Delimited r' → jsonText v ++ r = jsonText w ++ r' → v = w ∧ r = r'

theorem delimited_elementsText (es : List Json) (r : List Char) :
    Delimited (elementsText es ++ r) := by
  cases es <;> rw [elementsText, List.cons_append] <;> exact delimited_cons (by simp)

theorem delimited_fieldsText (fields : List (String × Json)) (r : List Char) :
    Delimited (fieldsText fields ++ r) := by
  cases fields <;> rw [fieldsText, List.cons_append] <;> exact delimited_cons (by simp)

theorem elementsText_append_inj {es fs : List Json} {r r' : List Char}
    (hes : ∀ e ∈ es, TextUnique e) (h : elementsText es ++ r = elementsText fs ++ r') :
    es = fs ∧ r = r' := by
  induction es generalizing fs with
  | nil =>
    cases fs with
    | nil => exact ⟨rfl, (List.cons.inj h).2⟩
    | cons f fs =>
      rw [elementsText, elementsText] at h
      exact absurd (List.cons.inj h).1 (by decide)
  | cons e es ih =>
    cases fs with
    | nil =>
      rw [elementsText, elementsText] at h
      exact absurd (List.cons.inj h).1 (by decide)
    | cons f fs =>
      simp only [elementsText, List.cons_append, List.append_assoc, List.cons_eq_cons,
        true_and] at h
      obtain ⟨rfl, hrest⟩ := hes e List.mem_cons_self f _ _ (delimited_elementsText _ _)
        (delimited_elementsText _ _) h
      obtain ⟨rfl, hr⟩ := ih (fun e he => hes e (List.mem_cons_of_mem _ he)) hrest
      exact ⟨rfl, hr⟩

theorem fieldText_append_inj {name name' : String} {v w : Json} {fs fs' : List (String × Json)}
    {r r' : List Char} (hv : TextUnique v)
    (h : (quote name).toList ++ ':' :: (jsonText v ++ (fieldsText fs ++ r)) =
      (quote name').toList ++ ':' :: (jsonText w ++ (fieldsText fs' ++ r'))) :
    name = name' ∧ v = w ∧ fieldsText fs ++ r = fieldsText fs' ++ r' := by
  obtain ⟨rfl, hvalue⟩ := quote_append_inj h
  obtain ⟨rfl, hrest⟩ := hv w _ _ (delimited_fieldsText _ _) (delimited_fieldsText _ _)
    (List.cons.inj hvalue).2
  exact ⟨rfl, rfl, hrest⟩

theorem fieldsText_append_inj {es fs : List (String × Json)} {r r' : List Char}
    (hes : ∀ e ∈ es, TextUnique e.2) (h : fieldsText es ++ r = fieldsText fs ++ r') :
    es = fs ∧ r = r' := by
  induction es generalizing fs with
  | nil =>
    cases fs with
    | nil => exact ⟨rfl, (List.cons.inj h).2⟩
    | cons f fs =>
      rw [fieldsText, fieldsText] at h
      exact absurd (List.cons.inj h).1 (by decide)
  | cons e es ih =>
    cases fs with
    | nil =>
      rw [fieldsText, fieldsText] at h
      exact absurd (List.cons.inj h).1 (by decide)
    | cons f fs =>
      obtain ⟨name, v⟩ := e
      obtain ⟨name', w⟩ := f
      simp only [fieldsText, List.cons_append, List.append_assoc, List.cons_eq_cons,
        true_and] at h
      obtain ⟨rfl, rfl, hrest⟩ := fieldText_append_inj (hes _ List.mem_cons_self) h
      obtain ⟨rfl, hr⟩ := ih (fun e he => hes e (List.mem_cons_of_mem _ he)) hrest
      exact ⟨rfl, hr⟩

theorem close_ne_jsonText {c : Char} (hc : c = ']' ∨ c = '\x7d') (v : Json) (xs ys : List Char) :
    c :: xs ≠ jsonText v ++ ys := by
  intro heq
  have hkind := textKind_jsonText v ys
  rw [← heq] at hkind
  have hnum : v.kind = .num := by
    obtain rfl | rfl := hc <;> exact hkind.symm
  cases v with
  | num x =>
    have hchar := isNumberChar_toText x
    rw [jsonText, stringify] at heq
    cases htext : x.toText.toList with
    | nil => exact stringify_ne_nil (.num x) htext
    | cons d ds =>
      rw [htext, List.cons_append, List.cons_eq_cons] at heq
      have hd := hchar d (by rw [htext]; exact List.mem_cons_self)
      rw [← heq.1] at hd
      obtain rfl | rfl := hc <;> exact absurd hd (by decide)
  | _ => cases hnum

theorem textUnique_bool (a : Bool) : TextUnique (.bool a) := by
  intro w r r' _ _ h
  have hkind := kind_of_append h
  cases w with
  | bool b =>
    have hab : a = b := by
      cases a <;> cases b
      · rfl
      · exact absurd (List.cons.inj h).1 (by decide)
      · exact absurd (List.cons.inj h).1 (by decide)
      · rfl
    subst hab
    exact ⟨rfl, List.append_cancel_left h⟩
  | _ => cases hkind

theorem textUnique_arr {es : List Json} (hes : ∀ e ∈ es, TextUnique e) :
    TextUnique (.arr es) := by
  intro w r r' _ _ h
  have hkind := kind_of_append h
  cases w with
  | arr fs =>
    match es, fs with
    | [], [] => exact ⟨rfl, List.append_cancel_left h⟩
    | [], f :: fs =>
      simp only [jsonText, List.cons_append, List.nil_append, List.append_assoc,
        List.cons_eq_cons, true_and] at h
      exact absurd h (close_ne_jsonText (.inl rfl) f _ _)
    | e :: es, [] =>
      simp only [jsonText, List.cons_append, List.nil_append, List.append_assoc,
        List.cons_eq_cons, true_and] at h
      exact absurd h.symm (close_ne_jsonText (.inl rfl) e _ _)
    | e :: es, f :: fs =>
      simp only [jsonText, List.cons_append, List.append_assoc, List.cons_eq_cons,
        true_and] at h
      obtain ⟨rfl, hrest⟩ := hes e List.mem_cons_self f _ _ (delimited_elementsText _ _)
        (delimited_elementsText _ _) h
      obtain ⟨rfl, hr⟩ :=
        elementsText_append_inj (fun e' he => hes e' (List.mem_cons_of_mem _ he)) hrest
      exact ⟨rfl, hr⟩
  | _ => cases hkind

theorem close_ne_quote (name : String) (xs ys : List Char) :
    '\x7d' :: xs ≠ (quote name).toList ++ ys := by
  intro heq
  rw [quote, String.toList_ofList] at heq
  exact absurd (List.cons.inj heq).1 (by decide)

theorem textUnique_obj {es : List (String × Json)} (hes : ∀ e ∈ es, TextUnique e.2) :
    TextUnique (.obj es) := by
  intro w r r' _ _ h
  have hkind := kind_of_append h
  cases w with
  | obj fs =>
    match es, fs with
    | [], [] => exact ⟨rfl, List.append_cancel_left h⟩
    | [], (name, w) :: fs =>
      simp only [jsonText, List.cons_append, List.nil_append, List.append_assoc,
        List.cons_eq_cons, true_and] at h
      exact absurd h (close_ne_quote name _ _)
    | (name, v) :: es, [] =>
      simp only [jsonText, List.cons_append, List.nil_append, List.append_assoc,
        List.cons_eq_cons, true_and] at h
      exact absurd h.symm (close_ne_quote name _ _)
    | (name, v) :: es, (name', w) :: fs =>
      simp only [jsonText, List.cons_append, List.append_assoc, List.cons_eq_cons,
        true_and] at h
      obtain ⟨rfl, rfl, hrest⟩ := fieldText_append_inj (hes _ List.mem_cons_self) h
      obtain ⟨rfl, hr⟩ :=
        fieldsText_append_inj (fun e' he => hes e' (List.mem_cons_of_mem _ he)) hrest
      exact ⟨rfl, hr⟩
  | _ => cases hkind

theorem textUnique : (v : Json) → TextUnique v
  | .null => by
    intro w r r' _ _ h
    have hkind := kind_of_append h
    cases w with
    | null => exact ⟨rfl, List.append_cancel_left h⟩
    | _ => cases hkind
  | .bool b => textUnique_bool b
  | .num x => by
    intro w r r' hr hr' h
    have hkind := kind_of_append h
    cases w with
    | num y =>
      obtain ⟨rfl, hrest⟩ := toText_append_inj hr hr' h
      exact ⟨rfl, hrest⟩
    | _ => cases hkind
  | .str s => by
    intro w r r' _ _ h
    have hkind := kind_of_append h
    cases w with
    | str t =>
      obtain ⟨rfl, hrest⟩ := quote_append_inj h
      exact ⟨rfl, hrest⟩
    | _ => cases hkind
  | .arr es => textUnique_arr fun e he => textUnique e
  | .obj fields => textUnique_obj fun f hf => textUnique f.2
termination_by v => sizeOf v
decreasing_by
  · have hlt := List.sizeOf_lt_of_mem he
    simp_wf
    omega
  · have hlt := List.sizeOf_lt_of_mem hf
    obtain ⟨name, value⟩ := f
    simp only [Prod.mk.sizeOf_spec] at hlt
    simp_wf
    omega

theorem jsonText_injective {v w : Json} (h : jsonText v = jsonText w) : v = w := by
  refine (textUnique v w [] [] ?_ ?_ (by rw [h])).1
  · intro c hc
    cases hc
  · intro c hc
    cases hc

end Rovenue.Js
