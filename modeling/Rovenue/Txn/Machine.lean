import Rovenue.Txn.Session

/-! Any number of clients on one store, interleaved statement by statement.
Reads are READ COMMITTED, a blocked statement waits, a crash rolls back. -/

namespace Txn

structure History (ι σ ω : Type) where
  db : σ
  log : List (ι × List ω)

structure Client (σ κ ω ν : Type) where
  prog : Prog σ κ ω ν Unit
  pending : List ω

structure World (ι σ κ ω ν : Type) where
  hist : History ι σ ω
  now : ℤ
  holder : κ → Option ι
  client : ι → Client σ κ ω ν

inductive Event (ι ν : Type) where
  | tick (n : ℕ)
  | run (i : ι)
  | draw (i : ι) (v : ν)
  | crash (i : ι)

structure Commit (ι σ ω : Type) where
  before : History ι σ ω
  client : ι
  writes : List ω

variable {ι σ κ ω ν : Type}

def History.commit [Database σ ω] (h : History ι σ ω) (i : ι) (ws : List ω) : History ι σ ω :=
  ⟨applyAll h.db ws, h.log ++ [(i, ws)]⟩

@[simp] theorem History.commit_db [Database σ ω] (h : History ι σ ω) (i : ι) (ws : List ω) :
    (h.commit i ws).db = applyAll h.db ws := rfl

@[simp] theorem History.commit_log [Database σ ω] (h : History ι σ ω) (i : ι) (ws : List ω) :
    (h.commit i ws).log = h.log ++ [(i, ws)] := rfl

def replay [Database σ ω] (s : σ) (log : List (ι × List ω)) : σ :=
  log.foldl (fun s c => applyAll s c.2) s

@[simp] theorem replay_nil [Database σ ω] (s : σ) : replay s ([] : List (ι × List ω)) = s := rfl

@[simp] theorem replay_snoc [Database σ ω] (s : σ) (log : List (ι × List ω)) (i : ι)
    (ws : List ω) : replay s (log ++ [(i, ws)]) = applyAll (replay s log) ws := by
  simp [replay]

namespace World

def init (s : σ) (t : ℤ) (progs : ι → Prog σ κ ω ν Unit) : World ι σ κ ω ν :=
  ⟨⟨s, []⟩, t, fun _ => none, fun i => ⟨progs i, []⟩⟩

def held (w : World ι σ κ ω ν) (i : ι) : Set κ := {k | w.holder k = some i}

@[simp] theorem held_init (s : σ) (t : ℤ) (progs : ι → Prog σ κ ω ν Unit) (i : ι) :
    (init s t progs).held i = ∅ := by ext k; simp [init, held]

variable [DecidableEq ι] [DecidableEq κ]

def Free (w : World ι σ κ ω ν) (i : ι) (k : κ) : Prop := w.holder k = none ∨ w.holder k = some i

instance (w : World ι σ κ ω ν) (i : ι) (k : κ) : Decidable (w.Free i k) :=
  inferInstanceAs (Decidable (_ ∨ _))

def resume (w : World ι σ κ ω ν) (i : ι) (c : Client σ κ ω ν) : World ι σ κ ω ν :=
  { w with client := Function.update w.client i c }

def take (w : World ι σ κ ω ν) (i : ι) (ks : List κ) : World ι σ κ ω ν :=
  { w with holder := fun k => if k ∈ ks then some i else w.holder k }

def release (w : World ι σ κ ω ν) (i : ι) : World ι σ κ ω ν :=
  { w with holder := fun k => if w.holder k = some i then none else w.holder k }

def abort (w : World ι σ κ ω ν) (i : ι) (msg : String) : World ι σ κ ω ν :=
  (w.release i).resume i ⟨.fail msg, []⟩

variable [Database σ ω]

def step (w : World ι σ κ ω ν) : Event ι ν → World ι σ κ ω ν
  | .tick n => { w with now := w.now + n }
  | .crash i => w.abort i "connection lost"
  | .draw i v =>
    match (w.client i).prog with
    | .draw next => w.resume i ⟨next v, (w.client i).pending⟩
    | _ => w
  | .run i =>
    match (w.client i).prog with
    | .done _ => w
    | .draw _ => w
    | .fail msg => w.abort i msg
    | .clock next => w.resume i ⟨next w.now, (w.client i).pending⟩
    | .stmt needs writes next =>
      let view := applyAll w.hist.db (w.client i).pending
      if ∀ k ∈ needs view, w.Free i k then
        (w.take i (needs view)).resume i ⟨next view, (w.client i).pending ++ writes view⟩
      else w
    | .commit next =>
      ({ w with hist := w.hist.commit i (w.client i).pending }.release i).resume i ⟨next, []⟩

def runAll (w : World ι σ κ ω ν) (evs : List (Event ι ν)) : World ι σ κ ω ν := evs.foldl step w

def visited (w : World ι σ κ ω ν) : List (Event ι ν) → List (History ι σ ω)
  | [] => [w.hist]
  | e :: es => w.hist :: (w.step e).visited es

def transitions (w : World ι σ κ ω ν) : List (Event ι ν) → List (World ι σ κ ω ν × Event ι ν)
  | [] => []
  | e :: es => (w, e) :: (w.step e).transitions es

def commitOf (w : World ι σ κ ω ν) : Event ι ν → Option (Commit ι σ ω)
  | .run i =>
    match (w.client i).prog with
    | .commit _ => some ⟨w.hist, i, (w.client i).pending⟩
    | _ => none
  | _ => none

def commits (w : World ι σ κ ω ν) : List (Event ι ν) → List (Commit ι σ ω)
  | [] => []
  | e :: es => (w.commitOf e).toList ++ (w.step e).commits es

theorem mem_commits {w : World ι σ κ ω ν} {evs : List (Event ι ν)} {c : Commit ι σ ω} :
    c ∈ w.commits evs ↔ ∃ x ∈ w.transitions evs, x.1.commitOf x.2 = some c := by
  induction evs generalizing w with
  | nil => simp [commits, transitions]
  | cons e es ih => simp [commits, transitions, ih]

@[simp] theorem runAll_nil (w : World ι σ κ ω ν) : w.runAll ([] : List (Event ι ν)) = w := rfl

@[simp] theorem runAll_cons (w : World ι σ κ ω ν) (e : Event ι ν) (es : List (Event ι ν)) :
    w.runAll (e :: es) = (w.step e).runAll es := rfl

theorem head_mem_visited (w : World ι σ κ ω ν) (evs : List (Event ι ν)) :
    w.hist ∈ w.visited evs := by cases evs <;> simp [visited]

theorem last_mem_visited (w : World ι σ κ ω ν) (evs : List (Event ι ν)) :
    (w.runAll evs).hist ∈ w.visited evs := by
  induction evs generalizing w with
  | nil => simp [visited]
  | cons e es ih => exact List.mem_cons_of_mem _ (ih _)

/-- What a step that commits nothing can do: let time pass, move one client
inside its transaction, or undo that transaction. -/
inductive Moves (w : World ι σ κ ω ν) : World ι σ κ ω ν → Prop where
  | stay : Moves w w
  | tick (n : ℕ) : Moves w { w with now := w.now + n }
  | abort (i : ι) (msg : String) : Moves w (w.abort i msg)
  | clock (i : ι) {next : ℤ → Prog σ κ ω ν Unit} (hp : (w.client i).prog = .clock next) (t : ℤ) :
      Moves w (w.resume i ⟨next t, (w.client i).pending⟩)
  | draw (i : ι) {next : ν → Prog σ κ ω ν Unit} (hp : (w.client i).prog = .draw next) (v : ν) :
      Moves w (w.resume i ⟨next v, (w.client i).pending⟩)
  | stmt (i : ι) {needs : σ → List κ} {writes : σ → List ω} {next : σ → Prog σ κ ω ν Unit}
      (hp : (w.client i).prog = .stmt needs writes next) (view : σ)
      (hv : view = applyAll w.hist.db (w.client i).pending)
      (hfree : ∀ k ∈ needs view, w.Free i k) :
      Moves w ((w.take i (needs view)).resume i
        ⟨next view, (w.client i).pending ++ writes view⟩)

theorem step_commit {w : World ι σ κ ω ν} {e : Event ι ν} {c : Commit ι σ ω}
    (h : w.commitOf e = some c) :
    ∃ i next, (w.client i).prog = .commit next ∧ c = ⟨w.hist, i, (w.client i).pending⟩ ∧
      w.step e = ({ w with hist := w.hist.commit i (w.client i).pending }.release i).resume i
        ⟨next, []⟩ := by
  cases e with
  | run i =>
    cases hp : (w.client i).prog with
    | commit next =>
      simp only [commitOf, hp, Option.some.injEq] at h
      exact ⟨i, next, hp, h.symm, by simp only [step, hp]⟩
    | _ => simp [commitOf, hp] at h
  | _ => simp [commitOf] at h

theorem step_moves {w : World ι σ κ ω ν} {e : Event ι ν} (h : w.commitOf e = none) :
    Moves w (w.step e) := by
  cases e with
  | tick n => exact .tick n
  | crash i => exact .abort i _
  | draw i v =>
    cases hp : (w.client i).prog with
    | draw next => simpa only [step, hp] using Moves.draw i hp v
    | _ => simpa only [step, hp] using Moves.stay
  | run i =>
    cases hp : (w.client i).prog with
    | done a => simpa only [step, hp] using Moves.stay
    | draw next => simpa only [step, hp] using Moves.stay
    | fail msg => simpa only [step, hp] using Moves.abort i msg
    | clock next => simpa only [step, hp] using Moves.clock i hp w.now
    | commit next => simp [commitOf, hp] at h
    | stmt needs writes next =>
      simp only [step, hp]
      split_ifs with hfree
      · exact .stmt i hp _ rfl hfree
      · exact .stay

end World
end Txn
