import Rovenue.Import.Csv

/-! The CSV export of a project's subscriptions, and what the import's parser reads of it. -/

namespace Rovenue.Export
open Import

inductive SubscriptionUiStatus where
  | active
  | trial
  | grace
  | canceling
  | churned

def SubscriptionUiStatus.name : SubscriptionUiStatus → List Char
  | .active => "active".toList
  | .trial => "trial".toList
  | .grace => "grace".toList
  | .canceling => "canceling".toList
  | .churned => "churned".toList

structure SubscriptionRow where
  id : List Char
  subscriberId : List Char
  productId : List Char
  productName : Option (List Char)
  productIdentifier : Option (List Char)
  status : SubscriptionUiStatus
  store : List Char
  priceAmount : Option (List Char)
  priceCurrency : Option (List Char)
  purchaseDate : List Char
  expiresDate : Option (List Char)
  autoRenew : Option Bool
  isTrial : Bool
  cancellationDate : Option (List Char)

def COLUMNS : List (List Char) :=
  ["id", "subscriber_id", "product", "status", "store", "price_amount", "price_currency",
    "purchase_date", "expires_date", "auto_renew", "is_trial", "cancellation_date"].map String.toList

def HARD_CAP : ℕ := 1000000

def isSpecial (c : Char) : Bool := c = '"' || c = ',' || c = '\n' || c = '\r'

def doubled (s : List Char) : List Char := s.flatMap fun c => if c = '"' then ['"', '"'] else [c]

def csvEscape (s : List Char) : List Char :=
  if s.any isSpecial then '"' :: (doubled s ++ ['"']) else s

def line (cells : List (List Char)) : List Char := [','].intercalate cells ++ ['\n']

def formatHeader : List Char := line COLUMNS

def boolText : Bool → List Char
  | true => "true".toList
  | false => "false".toList

def SubscriptionRow.cells (r : SubscriptionRow) : List (List Char) :=
  [r.id, r.subscriberId, (r.productName.or r.productIdentifier).getD r.productId, r.status.name, r.store,
    r.priceAmount.getD [], r.priceCurrency.getD [], r.purchaseDate, r.expiresDate.getD [],
    boolText (r.autoRenew.getD false), boolText r.isTrial, r.cancellationDate.getD []]

def formatRow (r : SubscriptionRow) : List Char := line (r.cells.map csvEscape)

def truncationNotice : List Char := "# truncated at 1000000 rows".toList

structure Exported where
  chunks : List (List Char)
  rowCount : ℕ
  truncated : Bool

def exportRows : List SubscriptionRow → ℕ → Exported
  -- the loop over one page, `rowCount` rows after the first
  | [], rowCount => ⟨[], rowCount, false⟩
  | row :: rows, rowCount =>
    if HARD_CAP ≤ rowCount + 1 then ⟨[formatRow row, truncationNotice ++ ['\n']], rowCount + 1, true⟩
    else
      let rest := exportRows rows (rowCount + 1)
      { rest with chunks := formatRow row :: rest.chunks }

def exportPages : List (List SubscriptionRow) → ℕ → Exported
  | [], rowCount => ⟨[], rowCount, false⟩
  | page :: pages, rowCount =>
    let first := exportRows page rowCount
    if first.truncated then first
    else
      let rest := exportPages pages first.rowCount
      { rest with chunks := first.chunks ++ rest.chunks }

def streamSubscriptionsCsv (pages : List (List SubscriptionRow)) : Exported :=
  -- the pages are what `listSubscriptions` answers, up to the one without a next cursor
  let rows := exportPages pages 0
  { rows with chunks := formatHeader :: rows.chunks }

/-- No boundary between chunks stands between two quotes. -/
def KeepsQuotes (chunks : List (List Char)) : Prop :=
  ∀ front back, chunks = front ++ back → front.flatten.getLast? = some '"' →
    back.flatten.head? ≠ some '"'

section Walks
variable {s : ParserState}

theorem emitThen_assoc {σ ε : Type} (first : Except String (List ε × σ))
    (f g : σ → Except String (List ε × σ)) :
    emitThen (emitThen first f) g = emitThen first fun s => emitThen (f s) g := by
  rcases first with message | ⟨before, s⟩
  · rfl
  · rcases hf : f s with message | ⟨middle, s'⟩
    · simp [emitThen, bind, Except.bind, hf]
    · rcases hg : g s' with message | ⟨later, s''⟩ <;>
        simp [emitThen, bind, Except.bind, pure, Except.pure, hf, hg]

theorem emitThen_ok {σ ε : Type} (before : List ε) (s : σ) (f : σ → Except String (List ε × σ)) :
    emitThen (.ok (before, s)) f = (f s).map fun p => (before ++ p.1, p.2) := by
  rcases hf : f s with message | ⟨later, s'⟩ <;>
    simp [emitThen, bind, Except.bind, pure, Except.pure, Except.map, hf]

theorem emitThen_nil {σ ε : Type} (s : σ) (f : σ → Except String (List ε × σ)) :
    emitThen (.ok ([], s)) f = f s := by
  rw [emitThen_ok]
  cases f s <;> rfl

theorem consumePass_next {ch : Char} {next : Option Char} (h : ¬(ch = '"' ∧ next = some '"')) :
    consumePass s ch next = consumePass s ch none := by
  by_cases hch : ch = '"'
  · have hnext : next ≠ some '"' := fun hnext => h ⟨hch, hnext⟩
    simp [consumePass, hnext]
  · simp [consumePass, hch]

theorem eq_quote_of_two {ch : Char} {next : Option Char} {t : ParserState}
    (h : consumePass s ch next = .two t) : next = some '"' := by
  by_contra hnext
  simp only [consumePass, hnext, if_false] at h
  split_ifs at h

theorem walk_append : ∀ (s : ParserState) (text rest : List Char),
    ¬(text.getLast? = some '"' ∧ rest.head? = some '"') →
      walk consumePass finishRow s (text ++ rest) =
        emitThen (walk consumePass finishRow s text) fun s => walk consumePass finishRow s rest
  | s, [], rest, _ => by
    rw [List.nil_append, walk, emitThen_nil]
  | s, [ch], rest, h => by
    have hlast : ¬(ch = '"' ∧ rest.head? = some '"') := by simpa using h
    have hpass := consumePass_next (s := s) hlast
    rw [List.singleton_append, walk, walk, hpass, List.head?_nil]
    cases hch : consumePass s ch none with
    | one t => simp only [walk, emitThen_nil]
    | two t => cases eq_quote_of_two hch
    | endOfLine =>
      simp only [walk]
      rw [emitThen_assoc]
      simp only [emitThen_nil]
  | s, ch :: c :: text, rest, h => by
    have htail : ¬((c :: text).getLast? = some '"' ∧ rest.head? = some '"') := by
      rwa [List.getLast?_cons_cons] at h
    rw [List.cons_append, List.cons_append, walk, walk, List.head?_cons, List.head?_cons]
    cases consumePass s ch (some c) with
    | one t => exact walk_append t (c :: text) rest htail
    | two t =>
      cases text with
      | nil =>
        simp only [List.nil_append, walk]
        rw [emitThen_nil]
      | cons d text =>
        rw [List.getLast?_cons_cons] at htail
        exact walk_append t (d :: text) rest htail
    | endOfLine =>
      simp only
      rw [emitThen_assoc]
      exact congrArg _ (funext fun t => walk_append t (c :: text) rest htail)

theorem KeepsQuotes.tail {chunk : List Char} {chunks : List (List Char)}
    (h : KeepsQuotes (chunk :: chunks)) : KeepsQuotes chunks := by
  intro front back heq hlast
  by_cases hfront : front.flatten = []
  · rw [hfront] at hlast
    cases hlast
  · refine h (chunk :: front) back (by rw [heq, List.cons_append]) ?_
    rw [List.flatten_cons, List.getLast?_append_of_ne_nil _ hfront]
    exact hlast

theorem walkChunks_eq (chunks : List (List Char)) : ∀ s, KeepsQuotes chunks →
    walkChunks consumePass finishRow s chunks = walk consumePass finishRow s chunks.flatten := by
  induction chunks with
  | nil =>
    intro s _
    rw [walkChunks, List.flatten_nil, walk]
  | cons chunk chunks ih =>
    intro s h
    have hcut : ¬(chunk.getLast? = some '"' ∧ chunks.flatten.head? = some '"') := by
      rintro ⟨hlast, hhead⟩
      exact h [chunk] chunks rfl (by simpa using hlast) hhead
    rw [walkChunks, List.flatten_cons, walk_append s chunk _ hcut]
    exact congrArg _ (funext fun t => ih t h.tail)

end Walks

section Lines
variable {s : ParserState} {cell rest : List Char}

def typed (s : ParserState) (cell : List Char) : ParserState :=
  { s with cell := s.cell ++ cell, rowStarted := s.rowStarted || !cell.isEmpty }

theorem walk_one {ch : Char} {t : ParserState} (h : consumePass s ch rest.head? = .one t) :
    walk consumePass finishRow s (ch :: rest) = walk consumePass finishRow t rest := by
  rw [walk, h]

theorem walk_two {ch c : Char} {t : ParserState} (h : consumePass s ch (some c) = .two t) :
    walk consumePass finishRow s (ch :: c :: rest) = walk consumePass finishRow t rest := by
  rw [walk, List.head?_cons, h]

theorem walk_endOfLine {ch : Char} (h : consumePass s ch rest.head? = .endOfLine) :
    walk consumePass finishRow s (ch :: rest) =
      emitThen (finishRow s) fun s => walk consumePass finishRow s rest := by
  rw [walk, h]

theorem walk_plain (hcell : ∀ c ∈ cell, isSpecial c = false) (hs : s.inQuotes = false) :
    walk consumePass finishRow s (cell ++ rest) =
      walk consumePass finishRow (typed s cell) rest := by
  induction cell generalizing s with
  | nil =>
    have htyped : typed s [] = s := by simp [typed]
    rw [htyped, List.nil_append]
  | cons c cell ih =>
    obtain ⟨hc, hrest⟩ := List.forall_mem_cons.1 hcell
    have hplain : c ≠ '"' ∧ c ≠ ',' ∧ c ≠ '\n' ∧ c ≠ '\r' := by
      simpa [isSpecial, and_assoc] using hc
    obtain ⟨hquote, hcomma, hfeed, hreturn⟩ := hplain
    have hpass : consumePass s c (cell ++ rest).head? =
        .one { s with cell := s.cell ++ [c], rowStarted := true } := by
      simp [consumePass, hs, hquote, hcomma, hfeed, hreturn]
    rw [List.cons_append, walk_one hpass,
      ih (s := { s with cell := s.cell ++ [c], rowStarted := true }) hrest hs]
    simp [typed]

theorem walk_doubled {sep : Char} (hsep : sep ≠ '"') (hs : s.inQuotes = true)
    (hstarted : s.rowStarted = true) :
    walk consumePass finishRow s (doubled cell ++ '"' :: sep :: rest) =
      walk consumePass finishRow { s with cell := s.cell ++ cell, inQuotes := false }
        (sep :: rest) := by
  induction cell generalizing s with
  | nil =>
    have hpass : consumePass s '"' (some sep) = .one { s with inQuotes := false } := by
      simp [consumePass, hs, hsep]
    rw [doubled, List.flatMap_nil, List.nil_append, walk_one hpass, List.append_nil]
  | cons c cell ih =>
    by_cases hc : c = '"'
    · subst hc
      have hpass : consumePass s '"' (some '"') = .two { s with cell := s.cell ++ ['"'] } := by
        simp [consumePass, hs]
      have htext : doubled ('"' :: cell) = '"' :: '"' :: doubled cell := by simp [doubled]
      rw [htext, List.cons_append, List.cons_append, walk_two hpass,
        ih (s := { s with cell := s.cell ++ ['"'] }) hs hstarted]
      simp
    · have hpass : consumePass s c (doubled cell ++ '"' :: sep :: rest).head? =
          .one { s with cell := s.cell ++ [c], rowStarted := true } := by
        simp [consumePass, hs, hc]
      have htext : doubled (c :: cell) = c :: doubled cell := by simp [doubled, hc]
      rw [htext, List.cons_append, walk_one hpass,
        ih (s := { s with cell := s.cell ++ [c], rowStarted := true }) hs rfl]
      simp [hstarted]

theorem walk_csvEscape {sep : Char} (hsep : sep ≠ '"') (hs : s.inQuotes = false)
    (hempty : s.cell = []) :
    walk consumePass finishRow s (csvEscape cell ++ sep :: rest) =
      walk consumePass finishRow (typed s cell) (sep :: rest) := by
  by_cases hspecial : cell.any isSpecial = true
  · have hpass : consumePass s '"' (doubled cell ++ '"' :: sep :: rest).head? =
        .one { s with inQuotes := true, rowStarted := true } := by
      simp [consumePass, hs, hempty]
    have hne : cell.isEmpty = false := by
      cases cell with
      | nil => cases hspecial
      | cons c cell => rfl
    rw [csvEscape, if_pos hspecial, List.cons_append, List.append_assoc, List.singleton_append,
      walk_one hpass, walk_doubled hsep rfl rfl]
    simp [typed, hempty, hne, hs]
  · rw [csvEscape, if_neg hspecial]
    refine walk_plain (fun c hc => ?_) hs
    by_contra hc'
    exact hspecial (List.any_eq_true.2 ⟨c, hc, by simpa using hc'⟩)

def completed (s : ParserState) (row : List (List Char)) :
    Except String (List CsvEvent × ParserState) :=
  let next := { s with cells := [], cell := [], rowStarted := false, lineNumber := s.lineNumber + 1 }
  s.header.elim (.ok ([.header row], { next with header := some row })) fun header =>
    if row.length ≠ header.length then
      .error (columnCountError s.lineNumber row.length header.length)
    else .ok ([.row row s.lineNumber], next)

theorem line_cons (a b : List Char) (l : List (List Char)) :
    line (a :: b :: l) = a ++ ',' :: line (b :: l) := by
  simp [line, List.intercalate]

theorem walk_line (cells : List (List Char)) : ∀ s : ParserState, cells ≠ [] → s.inQuotes = false →
    s.cell = [] → (s.rowStarted = true ∨ cells ≠ [[]]) →
      walk consumePass finishRow s (line (cells.map csvEscape) ++ rest) =
        emitThen (completed s (s.cells ++ cells)) fun s => walk consumePass finishRow s rest := by
  induction cells with
  | nil => exact fun s hne => absurd rfl hne
  | cons c cells ih =>
    intro s _ hs hempty hstarted
    cases cells with
    | nil =>
      have htext : line ([c].map csvEscape) ++ rest = csvEscape c ++ '\n' :: rest := by
        simp [line, List.intercalate]
      have hpass : consumePass (typed s c) '\n' rest.head? = .endOfLine := by
        simp [consumePass, typed, hs]
      have hbegun : (typed s c).rowStarted = true := by
        rw [typed]
        obtain hstarted | hne := hstarted
        · simp [hstarted]
        · have hc : c ≠ [] := fun hc => hne (by rw [hc])
          simp [hc]
      have hfinish : finishRow (typed s c) = completed s (s.cells ++ [c]) := by
        rw [finishRow, hbegun]
        rcases hheader : s.header with _ | header <;> simp [completed, typed, hempty, hheader]
      rw [htext, walk_csvEscape (by decide) hs hempty, walk_endOfLine hpass, hfinish]
    | cons d cells =>
      have hpass : ∀ next, consumePass (typed s c) ',' next =
          .one { s with cells := s.cells ++ [c], cell := [], rowStarted := true } := by
        intro next
        simp [consumePass, typed, hs, hempty]
      have hsame : completed { s with cells := s.cells ++ [c], cell := [], rowStarted := true }
          (s.cells ++ [c] ++ d :: cells) = completed s (s.cells ++ c :: d :: cells) := by
        rw [List.append_assoc, List.singleton_append]
        rfl
      rw [List.map_cons, List.map_cons, line_cons, List.append_assoc, List.cons_append,
        walk_csvEscape (by decide) hs hempty, walk_one (hpass _), ← List.map_cons,
        ih { s with cells := s.cells ++ [c], cell := [], rowStarted := true } (List.cons_ne_nil _ _) hs
          rfl (.inl rfl), hsame]

end Lines

def atLine (header : Option (List (List Char))) (lineNumber : ℕ) : ParserState :=
  { header := header, lineNumber := lineNumber }

def rowEvents (n : ℕ) (rows : List SubscriptionRow) : List CsvEvent :=
  (rows.zipIdx n).map fun r => .row r.1.cells r.2

theorem walk_formatHeader (rest : List Char) :
    walk consumePass finishRow {} (formatHeader ++ rest) =
      emitThen (.ok ([.header COLUMNS], atLine (some COLUMNS) 2)) fun s =>
        walk consumePass finishRow s rest := by
  have hplain : COLUMNS.map csvEscape = COLUMNS := by decide
  have hread : walk consumePass finishRow {} (line (COLUMNS.map csvEscape) ++ rest) =
      emitThen (completed {} ([] ++ COLUMNS)) fun s => walk consumePass finishRow s rest :=
    walk_line COLUMNS {} (by decide) rfl rfl (.inr (by decide))
  rw [hplain] at hread
  exact hread

theorem walk_formatRow (r : SubscriptionRow) (n : ℕ) (rest : List Char) :
    walk consumePass finishRow (atLine (some COLUMNS) n) (formatRow r ++ rest) =
      emitThen (.ok ([.row r.cells n], atLine (some COLUMNS) (n + 1))) fun s =>
        walk consumePass finishRow s rest :=
  walk_line r.cells (atLine (some COLUMNS) n) (List.cons_ne_nil _ _) rfl rfl
    (.inr fun h => by cases (List.cons.inj h).2)

theorem walk_rows (rows : List SubscriptionRow) (n : ℕ) (rest : List Char) :
    walk consumePass finishRow (atLine (some COLUMNS) n) ((rows.map formatRow).flatten ++ rest) =
      emitThen (.ok (rowEvents n rows, atLine (some COLUMNS) (n + rows.length))) fun s =>
        walk consumePass finishRow s rest := by
  induction rows generalizing n with
  | nil =>
    rw [List.map_nil, List.flatten_nil, List.nil_append]
    exact (emitThen_nil (atLine (some COLUMNS) n) fun s => walk consumePass finishRow s rest).symm
  | cons r rows ih =>
    have hlast : n + 1 + rows.length = n + (r :: rows).length := by
      rw [List.length_cons]
      omega
    rw [List.map_cons, List.flatten_cons, List.append_assoc, walk_formatRow, emitThen_ok, ih, hlast,
      emitThen_ok, emitThen_ok]
    cases walk consumePass finishRow (atLine (some COLUMNS) (n + (r :: rows).length)) rest <;> rfl

theorem exportRows_append (a b : List SubscriptionRow) (n : ℕ) :
    exportRows (a ++ b) n =
      if (exportRows a n).truncated then exportRows a n
      else { exportRows b (exportRows a n).rowCount with
        chunks := (exportRows a n).chunks ++ (exportRows b (exportRows a n).rowCount).chunks } := by
  induction a generalizing n with
  | nil => rfl
  | cons r a ih =>
    rw [List.cons_append, exportRows, exportRows]
    by_cases hcap : HARD_CAP ≤ n + 1
    · simp only [if_pos hcap, if_true]
    · simp only [if_neg hcap, ih]
      split_ifs <;> rfl

theorem exportPages_eq (pages : List (List SubscriptionRow)) (n : ℕ) :
    exportPages pages n = exportRows pages.flatten n := by
  induction pages generalizing n with
  | nil => rfl
  | cons page pages ih =>
    rw [exportPages, List.flatten_cons, exportRows_append]
    simp only [ih]

theorem exportRows_short (rows : List SubscriptionRow) (n : ℕ) (h : n + rows.length < HARD_CAP) :
    exportRows rows n = ⟨rows.map formatRow, n + rows.length, false⟩ := by
  induction rows generalizing n with
  | nil => rfl
  | cons r rows ih =>
    rw [List.length_cons] at h
    have hrest := ih (n + 1) (by omega)
    have hcap : ¬HARD_CAP ≤ n + 1 := by omega
    have hcount : n + 1 + rows.length = n + (r :: rows).length := by
      rw [List.length_cons]
      omega
    rw [exportRows, if_neg hcap, hrest, hcount]
    rfl

theorem exportRows_long (rows : List SubscriptionRow) (n : ℕ) (hn : n < HARD_CAP)
    (h : HARD_CAP ≤ n + rows.length) :
    exportRows rows n = ⟨(rows.take (HARD_CAP - n)).map formatRow ++ [truncationNotice ++ ['\n']],
      HARD_CAP, true⟩ := by
  induction rows generalizing n with
  | nil =>
    rw [List.length_nil, Nat.add_zero] at h
    exact absurd hn (not_lt.2 h)
  | cons r rows ih =>
    rw [List.length_cons] at h
    by_cases hcap : HARD_CAP ≤ n + 1
    · have hone : HARD_CAP - n = 1 := by omega
      have hlast : n + 1 = HARD_CAP := by omega
      rw [exportRows, if_pos hcap, hone, hlast, List.take_succ_cons, List.take_zero]
      rfl
    · have hmore : HARD_CAP - n = HARD_CAP - (n + 1) + 1 := by omega
      have hrest := ih (n + 1) (by omega) (by omega)
      rw [exportRows, if_neg hcap, hrest, hmore, List.take_succ_cons]
      rfl

theorem walk_notice (n : ℕ) :
    walk consumePass finishRow (atLine (some COLUMNS) n) (truncationNotice ++ ['\n']) =
      .error (columnCountError n 1 COLUMNS.length) := by
  have hplain : line ([truncationNotice].map csvEscape) ++ [] = truncationNotice ++ ['\n'] := by decide
  have hcount : [truncationNotice].length ≠ COLUMNS.length := by decide
  have hended : completed (atLine (some COLUMNS) n) [truncationNotice] =
      .error (columnCountError n 1 COLUMNS.length) := by
    have hheader : (atLine (some COLUMNS) n).header = some COLUMNS := rfl
    rw [completed, hheader, Option.elim_some, if_pos hcount]
    rfl
  rw [← hplain, walk_line [truncationNotice] (atLine (some COLUMNS) n) (by decide) rfl rfl
    (.inr (by decide))]
  have hcells : (atLine (some COLUMNS) n).cells = [] := rfl
  rw [hcells, List.nil_append, hended]
  rfl

theorem line_ends (cells : List (List Char)) : (line cells).getLast? = some '\n' := by
  rw [line, List.getLast?_append, List.getLast?_singleton]
  rfl

theorem keepsQuotes_of_lines {chunks : List (List Char)}
    (h : ∀ chunk ∈ chunks, chunk.getLast? = some '\n') : KeepsQuotes chunks := by
  intro front back heq hlast
  exfalso
  cases hfront : front.getLast? with
  | none =>
    rw [List.getLast?_eq_none_iff.1 hfront] at hlast
    cases hlast
  | some chunk =>
    obtain ⟨before, rfl⟩ := List.getLast?_eq_some_iff.1 hfront
    have hend : chunk.getLast? = some '\n' := h chunk (by rw [heq]; simp)
    rw [List.flatten_append, List.flatten_singleton, List.getLast?_append, hend] at hlast
    cases hlast

/-- Below the cap, every export is read back as the rows it was made of, numbered in order, and in
whatever chunks it arrives, unless one ends between the two quotes that stand for one. At the cap
the import refuses the file, with an error naming `HARD_CAP + 2`. -/
theorem export_parses_back (pages : List (List SubscriptionRow)) :
    let file := streamSubscriptionsCsv pages
    let rows := pages.flatten
    file.truncated = decide (HARD_CAP ≤ rows.length) ∧ file.rowCount = min rows.length HARD_CAP ∧
      KeepsQuotes file.chunks ∧
      ∀ chunks, chunks.flatten = file.chunks.flatten → KeepsQuotes chunks →
        parseCsvStream chunks =
          if HARD_CAP ≤ rows.length then .error (columnCountError (HARD_CAP + 2) 1 COLUMNS.length)
          else .ok (.header COLUMNS :: rowEvents 2 rows) := by
  intro file rows
  have hcap : 0 < HARD_CAP := by decide
  have hrows : exportPages pages 0 = exportRows rows 0 := exportPages_eq pages 0
  have hparse : ∀ chunks, KeepsQuotes chunks → parseCsvStream chunks =
      (emitThen (walk consumePass finishRow {} chunks.flatten) flush).map (·.1) := by
    intro chunks hchunks
    rw [parseCsvStream, walkChunks_eq chunks {} hchunks]
    rcases emitThen (walk consumePass finishRow {} chunks.flatten) flush with message | p <;> rfl
  by_cases hlong : HARD_CAP ≤ rows.length
  · have hfile : file = ⟨formatHeader :: ((rows.take HARD_CAP).map formatRow ++
        [truncationNotice ++ ['\n']]), HARD_CAP, true⟩ := by
      have hlast := exportRows_long rows 0 hcap (by omega)
      simp only [file, streamSubscriptionsCsv, hrows, hlast, Nat.sub_zero]
    rw [hfile]
    refine ⟨by simp [hlong], by simp [hlong], keepsQuotes_of_lines ?_, fun chunks hjoin hchunks => ?_⟩
    · simp only [List.mem_cons, List.mem_append, List.mem_map, List.not_mem_nil, or_false]
      rintro chunk (rfl | ⟨r, -, rfl⟩ | rfl)
      · exact line_ends _
      · exact line_ends _
      · decide
    · have hlength : 2 + (rows.take HARD_CAP).length = HARD_CAP + 2 := by
        rw [List.length_take_of_le hlong, Nat.add_comm]
      rw [hparse chunks hchunks, hjoin, if_pos hlong, List.flatten_cons, List.flatten_append,
        List.flatten_singleton, walk_formatHeader, emitThen_ok, walk_rows, emitThen_ok, hlength,
        walk_notice]
      rfl
  · have hfile : file = ⟨formatHeader :: rows.map formatRow, rows.length, false⟩ := by
      have hlast := exportRows_short rows 0 (by omega)
      simp only [file, streamSubscriptionsCsv, hrows, hlast, Nat.zero_add]
    rw [hfile]
    refine ⟨by simp [hlong], by simp only; omega, keepsQuotes_of_lines ?_,
      fun chunks hjoin hchunks => ?_⟩
    · simp only [List.mem_cons, List.mem_map]
      rintro chunk (rfl | ⟨r, -, rfl⟩)
      · exact line_ends _
      · exact line_ends _
    · have hread := walk_rows rows 2 []
      rw [List.append_nil, emitThen_ok] at hread
      rw [hparse chunks hchunks, hjoin, if_neg hlong, List.flatten_cons, walk_formatHeader,
        emitThen_ok, hread]
      have hend : flush (atLine (some COLUMNS) (2 + rows.length)) =
          .ok ([], atLine (some COLUMNS) (2 + rows.length)) := rfl
      simp only [walk, Except.map, List.append_nil, emitThen_ok, hend]
      rfl

def quotedRow : SubscriptionRow where
  id := "s1".toList
  subscriberId := "u1".toList
  productId := "p1".toList
  productName := some "Pro, \"yearly\"\n".toList
  productIdentifier := none
  status := .active
  store := "APP_STORE".toList
  priceAmount := none
  priceCurrency := none
  purchaseDate := "2026-01-01T00:00:00.000Z".toList
  expiresDate := none
  autoRenew := none
  isTrial := false
  cancellationDate := none

theorem export_parses_back_quoted :
    parseCsvStream (streamSubscriptionsCsv [[quotedRow], []]).chunks =
      .ok [.header COLUMNS, .row quotedRow.cells 2] := by
  obtain ⟨-, -, hquotes, hread⟩ := export_parses_back [[quotedRow], []]
  exact hread _ rfl hquotes

end Rovenue.Export
