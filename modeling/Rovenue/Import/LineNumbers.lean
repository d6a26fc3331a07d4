import Rovenue.Import.Csv

/-! The parser's line counter against the lines of the file. The parser is run with the text it has
read beside its state, so that each row comes with the text ahead of its first character. -/

namespace Rovenue.Import

structure LocatedRow where
  event : CsvEvent
  -- the text ahead of the row's first character
  before : List Char
  -- the text read when the row was complete, its line feed not counted
  upTo : List Char
  deriving DecidableEq

structure Located where
  state : ParserState := {}
  read : List Char := []
  -- the text ahead of the row being assembled, once that has started
  ahead : List Char := []

def Located.taking (l : Located) (state : ParserState) (taken : List Char) : Located where
  state := state
  read := l.read ++ taken
  ahead := if l.state.rowStarted then l.ahead else l.read

def locatedPass (l : Located) (ch : Char) (next : Option Char) : Pass Located :=
  match consumePass l.state ch next with
  | .one state => .one (l.taking state [ch])
  | .two state => .two (l.taking state (ch :: next.toList))
  | .endOfLine => .endOfLine

def locatedFinish (l : Located) : Except String (List LocatedRow × Located) :=
  (finishRow l.state).map fun p => (p.1.map (⟨·, l.ahead, l.read⟩), l.taking p.2 ['\n'])

def locateRows (chunks : List (List Char)) : Except String (List LocatedRow) := do
  let (rows, _) ← emitThen (walkChunks locatedPass locatedFinish {} chunks) locatedFinish
  return rows

theorem located_erases : Erases Located.state LocatedRow.event consumePass finishRow locatedPass
    locatedFinish where
  pass_eq l ch next := by
    unfold locatedPass
    cases consumePass l.state ch next <;> rfl
  finish_eq l := by
    unfold locatedFinish
    rcases finishRow l.state with message | ⟨events, state⟩
    · rfl
    · simp only [Except.map, List.map_map, Function.comp_def, List.map_id']
      rfl

theorem parseCsvStream_eq (chunks : List (List Char)) :
    parseCsvStream chunks = (locateRows chunks).map fun rows => rows.map LocatedRow.event := by
  have hwalk := located_erases.walkChunks {} chunks
  change walkChunks consumePass finishRow {} chunks = _ at hwalk
  unfold parseCsvStream locateRows flush
  rw [hwalk, emitThen_map located_erases.finish_eq]
  rcases emitThen (walkChunks locatedPass locatedFinish {} chunks) locatedFinish with
    message | ⟨rows, l⟩ <;> rfl

theorem consumePass_one {s s' : ParserState} {ch : Char} {next : Option Char}
    (h : consumePass s ch next = .one s') : s'.lineNumber = s.lineNumber := by
  unfold consumePass at h
  split_ifs at h <;> cases h <;> rfl

theorem consumePass_two {s s' : ParserState} {ch : Char} {next : Option Char}
    (h : consumePass s ch next = .two s') :
    s'.lineNumber = s.lineNumber ∧ ch = '"' ∧ next = some '"' := by
  unfold consumePass at h
  split_ifs at h with hquotes hch hnext <;> cases h
  exact ⟨rfl, hch, hnext⟩

theorem finishRow_cases {s s' : ParserState} {events : List CsvEvent}
    (h : finishRow s = .ok (events, s')) :
    (s.rowStarted = false ∧ events = [] ∧ s' = s) ∨
      (s.rowStarted = true ∧ s'.rowStarted = false ∧ s'.lineNumber = s.lineNumber + 1 ∧
        ∃ event, events = [event] ∧ ∀ cells n, event = .row cells n → n = s.lineNumber) := by
  unfold finishRow at h
  cases hstarted : s.rowStarted with
  | false =>
    rw [hstarted] at h
    cases h
    exact Or.inl ⟨rfl, rfl, rfl⟩
  | true =>
    rw [hstarted] at h
    right
    cases hheader : s.header with
    | none =>
      simp only [hheader] at h
      cases h
      exact ⟨rfl, rfl, rfl, _, rfl, nofun⟩
    | some header =>
      simp only [hheader, Bool.not_true, Bool.false_eq_true, if_false] at h
      split_ifs at h
      cases h
      refine ⟨rfl, rfl, rfl, _, rfl, fun cells n heq => ?_⟩
      cases heq
      rfl

def Tight (rows : List LocatedRow) (text : List Char) : Prop :=
  ∀ line, line ++ ['\n'] <+: text → ∃ row ∈ rows, row.upTo = line

def Counted (rows : List LocatedRow) (text : List Char) : Prop :=
  rows.length ≤ text.count '\n' ∧ (rows.length = text.count '\n' ↔ Tight rows text)

section Counted
variable {rows : List LocatedRow} {text : List Char} {c : Char}

theorem counted_nil : Counted [] [] := by
  refine ⟨le_rfl, iff_of_true rfl fun line hline => ?_⟩
  have hlength := hline.length_le
  simp at hlength

theorem tight_concat (hc : c ≠ '\n') : Tight rows (text ++ [c]) ↔ Tight rows text := by
  have hinit : ∀ line, line ++ ['\n'] <+: text ++ [c] ↔ line ++ ['\n'] <+: text := by
    intro line
    rw [List.prefix_concat_iff, or_iff_right]
    intro heq
    exact hc (List.append_singleton_inj.mp heq).2.symm
  simp only [Tight, hinit]

theorem count_concat (hc : c ≠ '\n') : (text ++ [c]).count '\n' = text.count '\n' := by
  rw [List.count_append, List.count_singleton, if_neg (by simpa using hc), Nat.add_zero]

theorem count_concat_feed : (text ++ ['\n']).count '\n' = text.count '\n' + 1 := by
  rw [List.count_append, List.count_singleton_self]

theorem Counted.other (h : Counted rows text) (hc : c ≠ '\n') : Counted rows (text ++ [c]) := by
  unfold Counted
  rw [tight_concat hc, count_concat hc]
  exact h

theorem Counted.idle (h : Counted rows text) (hrows : ∀ row ∈ rows, row.upTo ≠ text) :
    Counted rows (text ++ ['\n']) := by
  have hle := h.1
  unfold Counted
  rw [count_concat_feed]
  refine ⟨by omega, iff_of_false (by omega) fun htight => ?_⟩
  obtain ⟨row, hrow, heq⟩ := htight text (List.prefix_refl _)
  exact hrows row hrow heq

theorem Counted.rowEnd {row : LocatedRow} (h : Counted rows text) (hrow : row.upTo = text) :
    Counted (rows ++ [row]) (text ++ ['\n']) := by
  obtain ⟨hle, hiff⟩ := h
  have htight : Tight (rows ++ [row]) (text ++ ['\n']) ↔ Tight rows text := by
    constructor
    · intro h line hline
      obtain ⟨r, hr, hupTo⟩ := h line (hline.trans (List.prefix_append _ _))
      rcases List.mem_append.mp hr with hr | hr
      · exact ⟨r, hr, hupTo⟩
      · -- the new row ends after the whole of `text`, `line` before
        rw [List.mem_singleton.mp hr, hrow] at hupTo
        have hlength := hline.length_le
        rw [hupTo, List.length_append, List.length_singleton] at hlength
        omega
    · intro h line hline
      rcases List.prefix_concat_iff.mp hline with heq | hline
      · refine ⟨row, List.mem_append_right _ (List.mem_singleton_self _), ?_⟩
        rw [hrow, (List.append_singleton_inj.mp heq).1]
      · obtain ⟨r, hr, hupTo⟩ := h line hline
        exact ⟨r, List.mem_append_left _ hr, hupTo⟩
  unfold Counted
  rw [htight, count_concat_feed, List.length_append, List.length_singleton, ← hiff]
  omega

end Counted

/-- The counter's value, the line feeds ahead and the place of row `i` of `rows`. -/
structure Placed (rows : List LocatedRow) (i : ℕ) (row : LocatedRow) : Prop where
  number : ∀ cells n, row.event = .row cells n → n = 1 + i
  counted : Counted (rows.take i) row.before
  before_upTo : row.before <+: row.upTo

/-- What holds of the rows emitted and the parser's state between two passes. -/
structure InStep (rows : List LocatedRow) (l : Located) : Prop where
  number : l.state.lineNumber = 1 + rows.length
  counted : Counted rows l.read
  started : l.state.rowStarted = true → Counted rows l.ahead ∧ l.ahead <+: l.read
  ended : ∀ row ∈ rows, row.upTo.length < l.read.length
  placed : ∀ i row, rows[i]? = some row → Placed rows i row

theorem inStep_start : InStep [] {} where
  number := rfl
  counted := counted_nil
  started := nofun
  ended := nofun
  placed i row h := by
    rw [List.getElem?_nil] at h
    cases h

section InStep
variable {rows : List LocatedRow} {l : Located} {s' : ParserState}

theorem InStep.taking (h : InStep rows l) {taken : List Char}
    (hnumber : s'.lineNumber = l.state.lineNumber) (hcounted : Counted rows (l.read ++ taken)) :
    InStep rows (l.taking s' taken) where
  number := hnumber.trans h.number
  counted := hcounted
  started _ := by
    change Counted rows (if l.state.rowStarted then l.ahead else l.read) ∧
      (if l.state.rowStarted then l.ahead else l.read) <+: l.read ++ taken
    split_ifs with hstarted
    · obtain ⟨hahead, hread⟩ := h.started hstarted
      exact ⟨hahead, hread.trans (List.prefix_append _ _)⟩
    · exact ⟨h.counted, List.prefix_append _ _⟩
  ended row hrow := by
    change row.upTo.length < (l.read ++ taken).length
    rw [List.length_append]
    exact (h.ended row hrow).trans_le (Nat.le_add_right _ _)
  placed := h.placed

theorem InStep.ne_read (h : InStep rows l) : ∀ row ∈ rows, row.upTo ≠ l.read := by
  intro row hrow heq
  have hlength := h.ended row hrow
  rw [heq] at hlength
  exact lt_irrefl _ hlength

theorem InStep.placed_concat (h : InStep rows l) (hstarted : l.state.rowStarted = true)
    {event : CsvEvent} (hevent : ∀ cells n, event = .row cells n → n = l.state.lineNumber) :
    ∀ i row, (rows ++ [⟨event, l.ahead, l.read⟩])[i]? = some row →
      Placed (rows ++ [⟨event, l.ahead, l.read⟩]) i row := by
  intro i row hi
  obtain ⟨hahead, hread⟩ := h.started hstarted
  have hlt : i < rows.length + 1 := by
    have := (List.getElem?_eq_some_iff.mp hi).1
    simpa using this
  rcases Nat.lt_succ_iff_lt_or_eq.mp hlt with hold | hnew
  · rw [List.getElem?_append_left hold] at hi
    obtain ⟨hnumber, hcounted, hbefore⟩ := h.placed i row hi
    refine ⟨hnumber, ?_, hbefore⟩
    rw [List.take_append_of_le_length hold.le]
    exact hcounted
  · subst hnew
    rw [List.getElem?_append_right le_rfl, Nat.sub_self] at hi
    obtain rfl := Option.some.inj hi
    refine ⟨fun cells n heq => (hevent cells n heq).trans h.number, ?_, hread⟩
    rw [List.take_append_of_le_length le_rfl, List.take_length]
    exact hahead

theorem inStep_pass_one {ch : Char} {next : Option Char} {l' : Located} (h : InStep rows l)
    (hpass : locatedPass l ch next = .one l') : InStep rows l' := by
  unfold locatedPass at hpass
  cases hstep : consumePass l.state ch next with
  | one s' =>
    rw [hstep] at hpass
    cases hpass
    apply h.taking (consumePass_one hstep)
    -- a line feed in quotes ends no row
    by_cases hch : ch = '\n'
    · rw [hch]
      exact h.counted.idle h.ne_read
    · exact h.counted.other hch
  | two s' => rw [hstep] at hpass; cases hpass
  | endOfLine => rw [hstep] at hpass; cases hpass

theorem inStep_pass_two {ch : Char} {next : Option Char} {l' : Located} (h : InStep rows l)
    (hpass : locatedPass l ch next = .two l') : InStep rows l' := by
  unfold locatedPass at hpass
  cases hstep : consumePass l.state ch next with
  | one s' => rw [hstep] at hpass; cases hpass
  | two s' =>
    rw [hstep] at hpass
    cases hpass
    obtain ⟨hnumber, rfl, rfl⟩ := consumePass_two hstep
    apply h.taking hnumber
    have hfirst := h.counted.other (show '"' ≠ '\n' by decide)
    have hboth := hfirst.other (show '"' ≠ '\n' by decide)
    rw [List.append_assoc] at hboth
    exact hboth
  | endOfLine => rw [hstep] at hpass; cases hpass

theorem locatedFinish_eq_ok {events : List LocatedRow} {l' : Located}
    (h : locatedFinish l = .ok (events, l')) : ∃ emitted s', finishRow l.state = .ok (emitted, s') ∧
      events = emitted.map (⟨·, l.ahead, l.read⟩) ∧ l' = l.taking s' ['\n'] := by
  unfold locatedFinish at h
  rcases hfinish : finishRow l.state with message | ⟨emitted, s'⟩
  · rw [hfinish] at h
    cases h
  · rw [hfinish] at h
    cases h
    exact ⟨emitted, s', rfl, rfl, rfl⟩

theorem inStep_finish {events : List LocatedRow} {l' : Located} (h : InStep rows l)
    (hfinish : locatedFinish l = .ok (events, l')) : InStep (rows ++ events) l' := by
  obtain ⟨emitted, s', hrow, rfl, rfl⟩ := locatedFinish_eq_ok hfinish
  rcases finishRow_cases hrow with ⟨-, rfl, rfl⟩ | ⟨hstarted, hnext, hnumber, event, rfl, hevent⟩
  · -- a blank line
    rw [List.map_nil, List.append_nil]
    exact h.taking rfl (h.counted.idle h.ne_read)
  · have hlength : (rows ++ [⟨event, l.ahead, l.read⟩] : List LocatedRow).length =
        rows.length + 1 := by rw [List.length_append, List.length_singleton]
    refine ⟨?_, h.counted.rowEnd rfl, fun hs => ?_, fun row hrow => ?_, ?_⟩
    · rw [List.map_singleton, hlength]
      change s'.lineNumber = 1 + (rows.length + 1)
      rw [hnumber, h.number, Nat.add_assoc]
    · change s'.rowStarted = true at hs
      rw [hnext] at hs
      cases hs
    · change row.upTo.length < (l.read ++ ['\n']).length
      rw [List.length_append, List.length_singleton]
      rcases List.mem_append.mp hrow with hrow | hrow
      · exact (h.ended row hrow).trans (Nat.lt_succ_self _)
      · rw [List.mem_singleton.mp hrow]
        exact Nat.lt_succ_self _
    · exact h.placed_concat hstarted hevent

theorem inStep_preserved : Preserves locatedPass locatedFinish InStep where
  one := inStep_pass_one
  two := inStep_pass_two
  endOfLine h _ hfinish := inStep_finish h hfinish

end InStep

theorem locateRows_placed {chunks : List (List Char)} {rows : List LocatedRow}
    (h : locateRows chunks = .ok rows) : ∀ i row, rows[i]? = some row → Placed rows i row := by
  unfold locateRows at h
  rcases hrun : emitThen (walkChunks locatedPass locatedFinish {} chunks) locatedFinish with
    message | ⟨all, l⟩
  · rw [hrun] at h
    cases h
  · rw [hrun] at h
    cases h
    obtain ⟨emitted, middle, last, hwalk, hlast, rfl⟩ := emitThen_eq_ok.mp hrun
    have hmiddle := inStep_preserved.walkChunks hwalk inStep_start
    rw [List.nil_append] at hmiddle
    exact (inStep_finish hmiddle hlast).placed

/-- Each row's number is one more than the line feeds ahead of its first character, and no two rows
have the same. -/
structure LinesPointIntoSource (rows : List LocatedRow) : Prop where
  exact_line : ∀ row ∈ rows, ∀ cells n, row.event = .row cells n → n = 1 + row.before.count '\n'
  increasing : rows.Pairwise fun a b =>
    ∀ cells m cells' n, a.event = .row cells m → b.event = .row cells' n → m < n

/-- Each line feed ahead of a data row is where an earlier row ends: none stands in a quoted cell
or ends a blank line. -/
def FeedsEndRows (rows : List LocatedRow) : Prop :=
  ∀ i row, rows[i]? = some row → (∃ cells n, row.event = .row cells n) →
    Tight (rows.take i) row.before

theorem Placed.exact_iff {rows : List LocatedRow} {i : ℕ} {row : LocatedRow}
    (h : Placed rows i row) (hi : i < rows.length) {cells : List (List Char)} {n : ℕ}
    (hevent : row.event = .row cells n) :
    n = 1 + row.before.count '\n' ↔ Tight (rows.take i) row.before := by
  have hcount := h.counted.2
  rw [List.length_take_of_le hi.le] at hcount
  rw [← hcount, h.number cells n hevent]
  omega

/-- The line numbers point into the file just when every line feed ahead of a data row ends a
row. -/
theorem lineNumbers_iff (chunks : List (List Char)) (rows : List LocatedRow)
    (h : locateRows chunks = .ok rows) :
    parseCsvStream chunks = .ok (rows.map LocatedRow.event) ∧
      (LinesPointIntoSource rows ↔ FeedsEndRows rows) := by
  have hplaced := locateRows_placed h
  refine ⟨by rw [parseCsvStream_eq, h]; rfl, ?_, ?_⟩
  · rintro ⟨hexact, -⟩ i row hi ⟨cells, n, hevent⟩
    obtain ⟨hlt, -⟩ := List.getElem?_eq_some_iff.mp hi
    exact ((hplaced i row hi).exact_iff hlt hevent).mp
      (hexact row (List.mem_of_getElem? hi) cells n hevent)
  · intro hfeeds
    constructor
    · intro row hrow cells n hevent
      obtain ⟨i, hi⟩ := List.mem_iff_getElem?.mp hrow
      obtain ⟨hlt, -⟩ := List.getElem?_eq_some_iff.mp hi
      exact ((hplaced i row hi).exact_iff hlt hevent).mpr (hfeeds i row hi ⟨cells, n, hevent⟩)
    · rw [List.pairwise_iff_getElem]
      intro i j hi hj hij cells m cells' n ha hb
      have hm := (hplaced i _ (List.getElem?_eq_getElem hi)).number cells m ha
      have hn := (hplaced j _ (List.getElem?_eq_getElem hj)).number cells' n hb
      omega

theorem lineNumbers_iff_twoRows :
    parseCsvStream ["a\nb\n".toList, "\nc".toList] =
        .ok [.header [['a']], .row [['b']] 2, .row [['c']] 3] ∧
      ¬LinesPointIntoSource [⟨.header [['a']], [], ['a']⟩,
        ⟨.row [['b']] 2, "a\n".toList, "a\nb".toList⟩,
        ⟨.row [['c']] 3, "a\nb\n\n".toList, "a\nb\n\nc".toList⟩] := by
  obtain ⟨hevents, hlines⟩ := lineNumbers_iff ["a\nb\n".toList, "\nc".toList]
    [⟨.header [['a']], [], ['a']⟩, ⟨.row [['b']] 2, "a\n".toList, "a\nb".toList⟩,
      ⟨.row [['c']] 3, "a\nb\n\n".toList, "a\nb\n\nc".toList⟩] (by decide)
  refine ⟨hevents, fun hexact => ?_⟩
  -- the blank line's feed ends no row
  obtain ⟨row, hrow, heq⟩ := hlines.mp hexact 2 _ rfl ⟨_, _, rfl⟩ "a\nb\n".toList (by decide)
  revert row
  decide

/-- After a blank line the row on line 3 is reported at line 2. -/
theorem blank_line_not_counted :
    ¬∀ chunks rows, locateRows chunks = .ok rows → LinesPointIntoSource rows := by
  intro h
  have hlines := h ["a\n\nb\n".toList]
    [⟨.header [['a']], [], ['a']⟩, ⟨.row [['b']] 2, "a\n\n".toList, "a\n\nb".toList⟩] (by decide)
  have hline := hlines.exact_line _ (List.mem_cons_of_mem _ List.mem_cons_self) _ _ rfl
  revert hline
  decide

end Rovenue.Import
