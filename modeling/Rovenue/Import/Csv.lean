import Mathlib

/-! The streaming CSV parser of the data import: decoded text goes through a character machine
chunk by chunk, and a row is emitted as soon as it is complete. -/

namespace Rovenue.Import

inductive Pass (σ : Type) where
  | one (state : σ)
  | two (state : σ)
  | endOfLine

section Walk
variable {σ τ ε φ : Type}

def Pass.map (f : σ → τ) : Pass σ → Pass τ
  | .one state => .one (f state)
  | .two state => .two (f state)
  | .endOfLine => .endOfLine

def emitThen (first : Except String (List ε × σ)) (next : σ → Except String (List ε × σ)) :
    Except String (List ε × σ) := do
  let (before, state) ← first
  let (later, state) ← next state
  return (before ++ later, state)

variable (pass : σ → Char → Option Char → Pass σ) (finish : σ → Except String (List ε × σ))

def walk (state : σ) : List Char → Except String (List ε × σ)
  -- The loop over the characters of one chunk. A pass sees the character after its own only if that
  -- stands in the same chunk.
  | [] => .ok ([], state)
  | ch :: rest =>
    match pass state ch rest.head? with
    | .one state => walk state rest
    | .two state =>
      match rest with
      | [] => .ok ([], state)
      | _ :: after => walk state after
    | .endOfLine => emitThen (finish state) fun state => walk state rest

def walkChunks (state : σ) : List (List Char) → Except String (List ε × σ)
  | [] => .ok ([], state)
  | chunk :: chunks =>
    emitThen (walk pass finish state chunk) fun state => walkChunks state chunks

end Walk

inductive CsvEvent where
  | header (cells : List (List Char))
  | row (cells : List (List Char)) (lineNumber : ℕ)
  deriving DecidableEq

structure ParserState where
  -- cells completed so far in the row being assembled
  cells : List (List Char) := []
  cell : List Char := []
  inQuotes : Bool := false
  rowStarted : Bool := false
  lineNumber : ℕ := 1
  -- the header row once seen; rows are validated against its length
  header : Option (List (List Char)) := none
  deriving DecidableEq

def columnCountError (lineNumber count expected : ℕ) : String :=
  "Row at line " ++ toString lineNumber ++ " has column count " ++ toString count ++ ", expected " ++
    toString expected ++ " (matching the header)"

def finishRow (state : ParserState) : Except String (List CsvEvent × ParserState) :=
  if !state.rowStarted then .ok ([], state)
  else
    let row := state.cells ++ [state.cell]
    let cleared : ParserState :=
      { state with cells := [], cell := [], rowStarted := false, lineNumber := state.lineNumber + 1 }
    match state.header with
    | none => .ok ([.header row], { cleared with header := some row })
    | some header =>
      if row.length ≠ header.length then
        .error (columnCountError state.lineNumber row.length header.length)
      else .ok ([.row row state.lineNumber], cleared)

def consumePass (state : ParserState) (ch : Char) (next : Option Char) : Pass ParserState :=
  if state.inQuotes then
    if ch = '"' then
      if next = some '"' then .two { state with cell := state.cell ++ ['"'] }
      else .one { state with inQuotes := false }
    else .one { state with cell := state.cell ++ [ch], rowStarted := true }
  else if ch = '"' ∧ state.cell = [] then .one { state with inQuotes := true, rowStarted := true }
  else if ch = ',' then
    .one { state with cells := state.cells ++ [state.cell], cell := [], rowStarted := true }
  -- a bare \r and the one of \r\n are dropped alike; the line feed completes the line
  else if ch = '\r' then .one state
  else if ch = '\n' then .endOfLine
  else .one { state with cell := state.cell ++ [ch], rowStarted := true }

def consumeChunk : ParserState → List Char → Except String (List CsvEvent × ParserState) :=
  walk consumePass finishRow

def flush (state : ParserState) : Except String (List CsvEvent × ParserState) := finishRow state

def parseCsvStream (chunks : List (List Char)) : Except String (List CsvEvent) := do
  let (events, _) ← emitThen (walkChunks consumePass finishRow {} chunks) flush
  return events

section Rules
variable {σ τ ε φ : Type} {pass : σ → Char → Option Char → Pass σ}
  {finish : σ → Except String (List ε × σ)}

theorem emitThen_eq_ok {first : Except String (List ε × σ)}
    {next : σ → Except String (List ε × σ)} {events : List ε} {s' : σ} :
    emitThen first next = .ok (events, s') ↔ ∃ before s later, first = .ok (before, s) ∧
      next s = .ok (later, s') ∧ events = before ++ later := by
  rcases first with message | ⟨before, s⟩
  · exact ⟨nofun, nofun⟩
  · constructor
    · intro h
      rcases hnext : next s with message | ⟨later, s''⟩
      · simp [emitThen, bind, Except.bind, hnext] at h
      · simp only [emitThen, bind, Except.bind, hnext, pure, Except.pure] at h
        cases h
        exact ⟨before, s, later, rfl, hnext, rfl⟩
    · rintro ⟨b, t, l, hb, hl, rfl⟩
      cases hb
      simp only [emitThen, bind, Except.bind, hl, pure, Except.pure]

theorem emitThen_map {f : τ → σ} {g : φ → ε} {first : Except String (List φ × τ)}
    {next : τ → Except String (List φ × τ)} {next' : σ → Except String (List ε × σ)}
    (hnext : ∀ t, next' (f t) = (next t).map fun p => (p.1.map g, f p.2)) :
    emitThen (first.map fun p => (p.1.map g, f p.2)) next' =
      (emitThen first next).map fun p => (p.1.map g, f p.2) := by
  rcases first with message | ⟨before, t⟩
  · rfl
  · simp only [emitThen, bind, Except.bind, Except.map, hnext]
    rcases next t with message | ⟨later, t'⟩
    · rfl
    · simp only [pure, Except.pure, List.map_append]

/-- What every pass and every end of line preserve, of the events so far and the state, a walk
preserves. -/
structure Preserves (pass : σ → Char → Option Char → Pass σ)
    (finish : σ → Except String (List ε × σ)) (inv : List ε → σ → Prop) : Prop where
  one : ∀ {acc s ch next s'}, inv acc s → pass s ch next = .one s' → inv acc s'
  two : ∀ {acc s ch next s'}, inv acc s → pass s ch next = .two s' → inv acc s'
  endOfLine : ∀ {acc s ch next events s'}, inv acc s → pass s ch next = .endOfLine →
    finish s = .ok (events, s') → inv (acc ++ events) s'

namespace Preserves
variable {inv : List ε → σ → Prop} (h : Preserves pass finish inv)
include h

theorem walk : ∀ {s : σ} {text : List Char} {acc events : List ε} {s' : σ},
    Import.walk pass finish s text = .ok (events, s') → inv acc s → inv (acc ++ events) s'
  | s, [], acc, events, s', hwalk, hs => by
    cases hwalk
    rw [List.append_nil]
    exact hs
  | s, ch :: rest, acc, events, s', hwalk, hs => by
    rw [Import.walk] at hwalk
    cases hpass : pass s ch rest.head? with
    | one next =>
      rw [hpass] at hwalk
      exact walk hwalk (h.one hs hpass)
    | two next =>
      rw [hpass] at hwalk
      cases rest with
      | nil =>
        cases hwalk
        rw [List.append_nil]
        exact h.two hs hpass
      | cons c after => exact walk hwalk (h.two hs hpass)
    | endOfLine =>
      rw [hpass] at hwalk
      obtain ⟨before, middle, later, hfinish, hlater, rfl⟩ := emitThen_eq_ok.mp hwalk
      rw [← List.append_assoc]
      exact walk hlater (h.endOfLine hs hpass hfinish)

theorem walkChunks : ∀ {s : σ} {chunks : List (List Char)} {acc events : List ε} {s' : σ},
    Import.walkChunks pass finish s chunks = .ok (events, s') → inv acc s →
      inv (acc ++ events) s'
  | s, [], acc, events, s', hwalk, hs => by
    cases hwalk
    rw [List.append_nil]
    exact hs
  | s, chunk :: chunks, acc, events, s', hwalk, hs => by
    obtain ⟨before, middle, later, hfirst, hlater, rfl⟩ := emitThen_eq_ok.mp hwalk
    rw [← List.append_assoc]
    exact walkChunks hlater (h.walk hfirst hs)

end Preserves

/-- A machine read through `f`, its events through `g`. -/
structure Erases (f : τ → σ) (g : φ → ε) (pass : σ → Char → Option Char → Pass σ)
    (finish : σ → Except String (List ε × σ)) (pass' : τ → Char → Option Char → Pass τ)
    (finish' : τ → Except String (List φ × τ)) : Prop where
  pass_eq : ∀ t ch next, pass (f t) ch next = (pass' t ch next).map f
  finish_eq : ∀ t, finish (f t) = (finish' t).map fun p => (p.1.map g, f p.2)

namespace Erases
variable {f : τ → σ} {g : φ → ε} {pass' : τ → Char → Option Char → Pass τ}
  {finish' : τ → Except String (List φ × τ)} (h : Erases f g pass finish pass' finish')
include h

theorem walk : ∀ (t : τ) (text : List Char), Import.walk pass finish (f t) text =
    (Import.walk pass' finish' t text).map fun p => (p.1.map g, f p.2)
  | t, [] => rfl
  | t, ch :: rest => by
    rw [Import.walk, Import.walk, h.pass_eq]
    cases pass' t ch rest.head? with
    | one next => exact walk next rest
    | two next =>
      cases rest with
      | nil => rfl
      | cons c after => exact walk next after
    | endOfLine =>
      simp only [Pass.map, h.finish_eq]
      exact emitThen_map fun t => walk t rest

theorem walkChunks : ∀ (t : τ) (chunks : List (List Char)),
    Import.walkChunks pass finish (f t) chunks =
      (Import.walkChunks pass' finish' t chunks).map fun p => (p.1.map g, f p.2)
  | t, [] => rfl
  | t, chunk :: chunks => by
    rw [Import.walkChunks, Import.walkChunks, h.walk t chunk]
    exact emitThen_map fun t => walkChunks t chunks

end Erases
end Rules
end Rovenue.Import
