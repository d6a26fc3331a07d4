import Rovenue.Text.Scan

/-! The pseudonyms of a message. The addresses of the message are looked up, and then replaced one
after the other in the whole text, each wherever it occurs. -/

namespace Rovenue.Copilot
open Text

def isLocal (c : Char) : Bool := c.isAlphanum || c ∈ ['.', '_', '%', '+', '-']

def isDomain (c : Char) : Bool := c.isAlphanum || c ∈ ['.', '-']

def topLevel : Matcher Char := .one Char.isAlpha (.plus Char.isAlpha .done)

def emailRe : Matcher Char :=
  .plus isLocal (.one (· = '@') (.plus isDomain (.one (· = '.') topLevel)))

def toLowerCase (s : List Char) : List Char := s.map Char.toLower

def ignoringCase (address : List Char) : Matcher Char := fun s =>
  if toLowerCase (s.take address.length) = address then some (s.take address.length) else none

def dollarPattern (before matched after : List Char) (c : Char) : Option (List Char) :=
  -- what a `$` and the symbol after it stand for in the new text
  if c = '$' then some ['$']
  else if c = '&' then some matched
  else if c = Char.ofNat 0x60 then some before
  else if c = Char.ofNat 0x27 then some after
  else none

def getSubstitution (before matched after : List Char) : List Char → List Char
  -- the pattern has no groups, so a `$` before anything else stays
  | [] => []
  | [c] => [c]
  | c :: d :: s =>
    match if c = '$' then dollarPattern before matched after d else none with
    | some text => text ++ getSubstitution before matched after s
    | none => c :: getSubstitution before matched after (d :: s)

def substituteFrom (template before : List Char) : List (Segment Char) → List Char
  | [] => []
  | .miss c :: segs => c :: substituteFrom template (before ++ [c]) segs
  | .hit p :: segs =>
    getSubstitution before p (textOf segs) template ++ substituteFrom template (before ++ p) segs

def replace (text : List Char) (re : Matcher Char) (template : List Char) : List Char :=
  substituteFrom template [] (scan re text)

structure PseudonymizeInput where
  projectId : List Char
  input : List Char
  resolveByEmail : List Char → List Char → Option (List Char)

structure PseudonymizeResult where
  text : List Char
  mapping : List (List Char × List Char)

namespace PseudonymizeInput
variable (args : PseudonymizeInput)

def unique : List (List Char) :=
  ((scan emailRe args.input).filterMap fun
    | .hit p => some (toLowerCase p)
    | .miss _ => none).eraseDups

def resolve (address : List Char) : Option (List Char) :=
  (args.resolveByEmail args.projectId address).filter (· ≠ [])

def mapping : List (List Char × List Char) :=
  args.unique.filterMap fun address => (args.resolve address).map fun id => (address, id)

end PseudonymizeInput

def replaceAddress (text : List Char) (entry : List Char × List Char) : List Char :=
  replace text (ignoringCase entry.1) entry.2

def pseudonymizeMessage (args : PseudonymizeInput) : PseudonymizeResult where
  text := args.mapping.foldl replaceAddress args.input
  mapping := args.mapping

def withPseudonyms (pseudonym : List Char → Option (List Char)) (segs : List (Segment Char)) :
    List Char :=
  segs.flatMap fun
    | .hit p => (pseudonym (toLowerCase p)).getD p
    | .miss c => [c]

/-- Each match of the pattern is replaced by its own address's id, and nothing else is. -/
def ReplacesOwn (args : PseudonymizeInput) : Prop :=
  (pseudonymizeMessage args).text = withPseudonyms args.resolve (scan emailRe args.input)

end Rovenue.Copilot

/-! When each address gets its own pseudonym. One address is replaced at a time; the turn is clean
when the address stands nowhere else in the text as it is by then, and its id holds no `$` that
`replace` would expand. -/

namespace Rovenue.Copilot
open Text

variable {segs : List (Segment Char)} {done : List (List Char × List Char)} {address id : List Char}

def atTurn (done : List (List Char × List Char)) (address : List Char)
    (segs : List (Segment Char)) : List (Segment Char) :=
  segs.flatMap fun
    | .hit p =>
      if toLowerCase p = address then [.hit p]
      else ((done.lookup (toLowerCase p)).getD p).map .miss
    | .miss c => [.miss c]

structure CleanTurn (done : List (List Char × List Char)) (address id : List Char)
    (segs : List (Segment Char)) : Prop where
  alone : scan (ignoringCase address) (textOf (atTurn done address segs)) =
    atTurn done address segs
  literal : ∀ xs p ys, atTurn done address segs = xs ++ .hit p :: ys →
    getSubstitution (textOf xs) p (textOf ys) id = id

/-- The addresses, in the order of their turns, each after the ones before it. -/
def CleanTurns (args : PseudonymizeInput) : Prop :=
  ∀ done address id rest, args.mapping = done ++ (address, id) :: rest →
    CleanTurn done address id (scan emailRe args.input)

theorem textOf_map_miss (s : List Char) : textOf (s.map Segment.miss) = s := by
  induction s with
  | nil => rfl
  | cons c s ih =>
    rw [List.map_cons, textOf_cons, ih]
    rfl

theorem textOf_flatMap (f : Segment Char → List (Segment Char)) (segs : List (Segment Char)) :
    textOf (segs.flatMap f) = segs.flatMap fun x => textOf (f x) := List.flatMap_assoc

theorem textOf_atTurn (h : done.lookup address = none) :
    textOf (atTurn done address segs) = withPseudonyms (done.lookup ·) segs := by
  unfold atTurn withPseudonyms
  rw [textOf_flatMap]
  congr 1
  funext x
  cases x with
  | miss c => rfl
  | hit p =>
    show textOf (if toLowerCase p = address then _ else _) = (done.lookup (toLowerCase p)).getD p
    split_ifs with hown
    · rw [hown, h]
      exact List.append_nil p
    · exact textOf_map_miss _

theorem length_toLowerCase (s : List Char) : (toLowerCase s).length = s.length := List.length_map _

theorem ignoringCase_iff {p after : List Char} :
    ignoringCase address (p ++ after) = some p ↔ toLowerCase p = address := by
  unfold ignoringCase
  constructor
  · intro h
    split_ifs at h with htake
    obtain hp := Option.some.inj h
    rw [← hp]
    exact htake
  · intro h
    have hlength : address.length = p.length := by rw [← h, length_toLowerCase]
    rw [hlength, List.take_left, if_pos h]

theorem takes_ignoringCase : (ignoringCase address).Takes := by
  intro s t h
  unfold ignoringCase at h
  split_ifs at h
  obtain rfl := Option.some.inj h
  exact List.take_prefix _ _

theorem hit_mem_atTurn {p : List Char} (h : Segment.hit p ∈ atTurn done address segs) :
    toLowerCase p = address ∧ Segment.hit p ∈ segs := by
  obtain ⟨x, hx, hmem⟩ := List.mem_flatMap.mp h
  cases x with
  | miss c => simp at hmem
  | hit q =>
    simp only at hmem
    split_ifs at hmem with hown
    · obtain hq := List.mem_singleton.mp hmem
      cases hq
      exact ⟨hown, hx⟩
    · simp at hmem

def StandsAlone (done : List (List Char × List Char)) (address : List Char)
    (segs : List (Segment Char)) : Prop :=
  ∀ before p after, textOf (atTurn done address segs) = before ++ p ++ after →
    toLowerCase p = address →
      ∃ xs ys, atTurn done address segs = xs ++ .hit p :: ys ∧ textOf xs = before

theorem StandsAlone.scan_eq (h : StandsAlone done address segs)
    (hne : ∀ p, Segment.hit p ∈ segs → p ≠ []) :
    scan (ignoringCase address) (textOf (atTurn done address segs)) = atTurn done address segs := by
  apply scan_textOf takes_ignoringCase
  · intro before p after htext _ hmatch
    exact h before p after htext (ignoringCase_iff.mp hmatch)
  · intro xs p ys hsplit
    have hmem : Segment.hit p ∈ atTurn done address segs := by
      rw [hsplit]
      exact List.mem_append_right _ List.mem_cons_self
    obtain ⟨hown, hseg⟩ := hit_mem_atTurn hmem
    exact ⟨hne p hseg, ignoringCase_iff.mpr hown⟩

theorem substituteFrom_literal (before : List Char)
    (h : ∀ xs p ys, segs = xs ++ .hit p :: ys →
      getSubstitution (before ++ textOf xs) p (textOf ys) id = id) :
    substituteFrom id before segs = segs.flatMap fun
      | .hit _ => id
      | .miss c => [c] := by
  induction segs generalizing before with
  | nil => rfl
  | cons x segs ih =>
    have hrest := ih (before ++ x.text) fun xs p ys hsplit => by
      have hlong := h (x :: xs) p ys (by rw [hsplit, List.cons_append])
      rw [textOf_cons, ← List.append_assoc] at hlong
      exact hlong
    rw [List.flatMap_cons, ← hrest]
    cases x with
    | miss c => rfl
    | hit p =>
      have hhead := h [] p segs rfl
      rw [textOf_nil, List.append_nil] at hhead
      show getSubstitution before p (textOf segs) id ++ _ = _
      rw [hhead]
      rfl

theorem CleanTurn.replaceAddress_eq (h : CleanTurn done address id segs) (hnew : done.lookup address = none) :
    replaceAddress (withPseudonyms (done.lookup ·) segs) (address, id) =
      withPseudonyms ((done ++ [(address, id)]).lookup ·) segs := by
  have hwritten := substituteFrom_literal [] h.literal
  unfold replaceAddress replace
  rw [← textOf_atTurn hnew, h.alone, hwritten]
  unfold atTurn withPseudonyms
  rw [List.flatMap_assoc]
  congr 1
  funext x
  cases x with
  | miss c => rfl
  | hit p =>
    simp only
    by_cases hown : toLowerCase p = address
    · rw [if_pos hown, hown, List.lookup_append, hnew]
      simp
    · have hlast : [(address, id)].lookup (toLowerCase p) = none := by
        simp [List.lookup, beq_false_of_ne hown]
      rw [if_neg hown, List.lookup_append, hlast, Option.or_none]
      simp [List.flatMap_map]

theorem takes_emailRe : emailRe.Takes := by
  have htop : topLevel.Takes := Matcher.takes_one (Matcher.takes_plus Matcher.takes_done)
  exact Matcher.takes_plus (Matcher.takes_one (Matcher.takes_plus (Matcher.takes_one htop)))

theorem nodup_eraseDups (l : List (List Char)) : l.eraseDups.Nodup := by
  induction hn : l.length using Nat.strong_induction_on generalizing l with
  | _ n ih =>
    cases l with
    | nil => exact List.nodup_nil
    | cons a l =>
      have hlt : (l.filter fun b => !b == a).length < n := by
        rw [← hn, List.length_cons]
        exact Nat.lt_succ_of_le (List.length_filter_le _ l)
      rw [List.eraseDups_cons, List.nodup_cons]
      refine ⟨?_, ih _ hlt _ rfl⟩
      rw [List.mem_eraseDups]
      simp

variable {args : PseudonymizeInput}

theorem mapping_nodup : (args.mapping.map Prod.fst).Nodup := by
  have hkeys : ∀ l : List (List Char),
      (l.filterMap fun address => (args.resolve address).map fun id => (address, id)).map Prod.fst =
        l.filter fun address => (args.resolve address).isSome := by
    intro l
    induction l with
    | nil => rfl
    | cons a l ih =>
      rw [List.filterMap_cons, List.filter_cons]
      cases args.resolve a with
      | none => exact ih
      | some id =>
        rw [Option.map_some, List.map_cons, ih]
        rfl
  rw [PseudonymizeInput.mapping, hkeys]
  exact (nodup_eraseDups _).filter _

theorem lookup_before {rest : List (List Char × List Char)}
    (h : args.mapping = done ++ (address, id) :: rest) : done.lookup address = none := by
  have hnodup : (args.mapping.map Prod.fst).Nodup := mapping_nodup
  rw [h, List.map_append, List.map_cons] at hnodup
  rw [List.lookup_eq_none_iff]
  intro entry hentry
  have hne : entry.1 ≠ address := by
    intro heq
    have hdisjoint := (List.nodup_append.mp hnodup).2.2
    exact hdisjoint entry.1 (List.mem_map_of_mem hentry) address List.mem_cons_self heq
  exact bne_iff_ne.mpr (Ne.symm hne)

theorem lookup_filterMap (f : List Char → Option (List Char)) (l : List (List Char)) :
    (l.filterMap fun a => (f a).map fun id => (a, id)).lookup address =
      if address ∈ l then f address else none := by
  induction l with
  | nil => rfl
  | cons a l ih =>
    rw [List.filterMap_cons]
    by_cases ha : address = a
    · subst ha
      cases hf : f address with
      | none =>
        simp only [Option.map_none]
        rw [ih, hf]
        simp
      | some id => simp
    · have hmem : address ∈ a :: l ↔ address ∈ l := List.mem_cons.trans (or_iff_right ha)
      simp only [hmem]
      cases f a with
      | none => exact ih
      | some id =>
        simp only [Option.map_some]
        rw [List.lookup_cons, beq_false_of_ne ha]
        exact ih

theorem withPseudonyms_mapping :
    withPseudonyms (args.mapping.lookup ·) (scan emailRe args.input) =
      withPseudonyms args.resolve (scan emailRe args.input) := by
  unfold withPseudonyms
  rw [List.flatMap_def, List.flatMap_def]
  congr 1
  apply List.map_congr_left
  intro x hx
  cases x with
  | miss c => rfl
  | hit p =>
    have hunique : toLowerCase p ∈ args.unique := by
      unfold PseudonymizeInput.unique
      rw [List.mem_eraseDups, List.mem_filterMap]
      exact ⟨.hit p, hx, rfl⟩
    simp only
    rw [PseudonymizeInput.mapping, lookup_filterMap, if_pos hunique]

theorem foldl_replaceAddress (h : CleanTurns args) (rest : List (List Char × List Char)) :
    ∀ done, args.mapping = done ++ rest →
      rest.foldl replaceAddress (withPseudonyms (done.lookup ·) (scan emailRe args.input)) =
        withPseudonyms (args.mapping.lookup ·) (scan emailRe args.input) := by
  induction rest with
  | nil =>
    intro done hsplit
    rw [List.foldl_nil, hsplit, List.append_nil]
  | cons entry rest ih =>
    intro done hsplit
    obtain ⟨address, id⟩ := entry
    have hturn := (h done address id rest hsplit).replaceAddress_eq
      (lookup_before hsplit)
    rw [List.foldl_cons, hturn]
    apply ih
    rw [hsplit, List.append_assoc, List.singleton_append]

/-- When every turn is clean, each address is replaced by its own id and nothing else changes. -/
theorem replacesOwn_of_cleanTurns (args : PseudonymizeInput) (h : CleanTurns args) :
    ReplacesOwn args := by
  have hstart : withPseudonyms (([] : List (List Char × List Char)).lookup ·)
      (scan emailRe args.input) = args.input := by
    have htext : withPseudonyms (([] : List (List Char × List Char)).lookup ·)
        (scan emailRe args.input) = textOf (scan emailRe args.input) := by
      unfold withPseudonyms textOf
      congr 1
      funext x
      cases x <;> rfl
    rw [htext, textOf_scan takes_emailRe]
  have hturns := foldl_replaceAddress h args.mapping [] rfl
  rw [hstart, withPseudonyms_mapping] at hturns
  exact hturns

def oneAddress : PseudonymizeInput where
  projectId := "prj_1".toList
  input := "Bob@x.com".toList
  resolveByEmail _ address := if address = "bob@x.com".toList then some "s1".toList else none

theorem cleanTurns_oneAddress : CleanTurns oneAddress := by
  have hmapping : oneAddress.mapping = [("bob@x.com".toList, "s1".toList)] := by decide
  intro done address id rest hsplit
  rw [hmapping] at hsplit
  have hdone : done = [] := by
    cases done with
    | nil => rfl
    | cons entry done => simp at hsplit
  subst hdone
  rw [List.nil_append, List.cons.injEq, Prod.mk.injEq] at hsplit
  obtain ⟨⟨rfl, rfl⟩, -⟩ := hsplit
  have hturn : atTurn [] "bob@x.com".toList (scan emailRe oneAddress.input) =
      [.hit "Bob@x.com".toList] := by
    have hscan : scan emailRe oneAddress.input = [.hit "Bob@x.com".toList] := by rfl
    rw [hscan]
    rfl
  constructor
  · refine StandsAlone.scan_eq (fun before p after htext hown => ?_) fun p hp => hit_ne_nil hp
    rw [hturn] at htext ⊢
    have hlength : p.length = 9 := by
      rw [← length_toLowerCase, hown]
      rfl
    have hsum : before.length + p.length + after.length = 9 := by
      rw [← List.length_append, ← List.length_append, ← htext]
      rfl
    obtain rfl : before = [] := List.eq_nil_of_length_eq_zero (by omega)
    obtain rfl : after = [] := List.eq_nil_of_length_eq_zero (by omega)
    rw [List.nil_append, List.append_nil] at htext
    exact ⟨[], [], by rw [← htext]; rfl, rfl⟩
  · intro xs p ys hsplit
    rw [hturn] at hsplit
    cases xs with
    | nil =>
      rw [List.nil_append, List.cons.injEq, Segment.hit.injEq] at hsplit
      obtain ⟨rfl, rfl⟩ := hsplit
      rfl
    | cons x xs => simp at hsplit

theorem replacesOwn_oneAddress : ReplacesOwn oneAddress :=
  replacesOwn_of_cleanTurns oneAddress cleanTurns_oneAddress

def nestedAddresses : PseudonymizeInput where
  projectId := "prj_1".toList
  input := "bob@x.com bob@x.com.au".toList
  resolveByEmail _ address :=
    if address = "bob@x.com".toList then some "s1".toList
    else if address = "bob@x.com.au".toList then some "s2".toList
    else none

/-- The second address is replaced by the first one's id, and its end is left. -/
theorem nested_address_misnamed : ¬∀ args : PseudonymizeInput, ReplacesOwn args := by
  intro h
  have hnested : (pseudonymizeMessage nestedAddresses).text =
      withPseudonyms nestedAddresses.resolve (scan emailRe nestedAddresses.input) :=
    h nestedAddresses
  revert hnested
  decide

-- A turn that is not clean can still write the right text: here the second id continues the first.
example : ReplacesOwn { nestedAddresses with
    resolveByEmail := fun _ address =>
      if address = "bob@x.com".toList then some "s1".toList
      else if address = "bob@x.com.au".toList then some "s1.au".toList
      else none } := by
  unfold ReplacesOwn
  decide

end Rovenue.Copilot
