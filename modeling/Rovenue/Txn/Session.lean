import Rovenue.Txn.Program

/-! A program run on its own: every lock is free, so only the view, the clock
readings and the drawn identifiers matter. -/

namespace Txn

structure Session (σ ω ν : Type) where
  view : σ
  written : List ω
  clock : ℕ → ℤ
  ids : ℕ → ν

namespace Session
variable {σ ω ν : Type}

def start (s : σ) (clock : ℕ → ℤ) (ids : ℕ → ν) : Session σ ω ν := ⟨s, [], clock, ids⟩

@[simp] theorem start_view (s : σ) (clock : ℕ → ℤ) (ids : ℕ → ν) :
    (start s clock ids : Session σ ω ν).view = s := rfl
@[simp] theorem start_written (s : σ) (clock : ℕ → ℤ) (ids : ℕ → ν) :
    (start s clock ids : Session σ ω ν).written = [] := rfl
@[simp] theorem start_clock (s : σ) (clock : ℕ → ℤ) (ids : ℕ → ν) :
    (start s clock ids : Session σ ω ν).clock = clock := rfl
@[simp] theorem start_ids (s : σ) (clock : ℕ → ℤ) (ids : ℕ → ν) :
    (start s clock ids : Session σ ω ν).ids = ids := rfl

def tick (c : Session σ ω ν) : Session σ ω ν := { c with clock := fun n => c.clock (n + 1) }

def drawn (c : Session σ ω ν) : Session σ ω ν := { c with ids := fun n => c.ids (n + 1) }

def write [Database σ ω] (c : Session σ ω ν) (ws : List ω) : Session σ ω ν :=
  { c with view := applyAll c.view ws, written := c.written ++ ws }

@[simp] theorem tick_view (c : Session σ ω ν) : c.tick.view = c.view := rfl
@[simp] theorem tick_written (c : Session σ ω ν) : c.tick.written = c.written := rfl
@[simp] theorem tick_ids (c : Session σ ω ν) : c.tick.ids = c.ids := rfl
@[simp] theorem drawn_view (c : Session σ ω ν) : c.drawn.view = c.view := rfl
@[simp] theorem drawn_written (c : Session σ ω ν) : c.drawn.written = c.written := rfl
@[simp] theorem drawn_clock (c : Session σ ω ν) : c.drawn.clock = c.clock := rfl

variable [Database σ ω]

@[simp] theorem write_nil (c : Session σ ω ν) : c.write [] = c := by simp [write]
@[simp] theorem write_write (c : Session σ ω ν) (ws vs : List ω) :
    (c.write ws).write vs = c.write (ws ++ vs) := by simp [write, applyAll_append]
@[simp] theorem write_view (c : Session σ ω ν) (ws : List ω) :
    (c.write ws).view = applyAll c.view ws := rfl
@[simp] theorem write_written (c : Session σ ω ν) (ws : List ω) :
    (c.write ws).written = c.written ++ ws := rfl
@[simp] theorem write_clock (c : Session σ ω ν) (ws : List ω) : (c.write ws).clock = c.clock := rfl
@[simp] theorem write_ids (c : Session σ ω ν) (ws : List ω) : (c.write ws).ids = c.ids := rfl

end Session

namespace Prog
variable {σ κ ω ν α β : Type} [Database σ ω]

def eval : Prog σ κ ω ν α → Session σ ω ν → Except String (α × Session σ ω ν)
  | .done a, c => .ok (a, c)
  | .fail msg, _ => .error msg
  | .clock next, c => (next (c.clock 0)).eval c.tick
  | .draw next, c => (next (c.ids 0)).eval c.drawn
  | .stmt _ writes next, c => (next c.view).eval (c.write (writes c.view))
  | .commit next, c => next.eval c

def Returns (p : Prog σ κ ω ν α) (c : Session σ ω ν) (a : α) (c' : Session σ ω ν) : Prop :=
  p.eval c = .ok (a, c')

variable {c c' : Session σ ω ν} {a : α} {b : β}

theorem eval_done (x : α) (c : Session σ ω ν) :
    (Prog.done x : Prog σ κ ω ν α).eval c = .ok (x, c) := rfl

theorem eval_fail (msg : String) (c : Session σ ω ν) :
    (Prog.fail msg : Prog σ κ ω ν α).eval c = .error msg := rfl

theorem eval_clock (next : ℤ → Prog σ κ ω ν α) (c : Session σ ω ν) :
    (Prog.clock next).eval c = (next (c.clock 0)).eval c.tick := rfl

theorem eval_draw (next : ν → Prog σ κ ω ν α) (c : Session σ ω ν) :
    (Prog.draw next).eval c = (next (c.ids 0)).eval c.drawn := rfl

theorem eval_stmt (needs : σ → List κ) (writes : σ → List ω) (next : σ → Prog σ κ ω ν α)
    (c : Session σ ω ν) :
    (Prog.stmt needs writes next).eval c = (next c.view).eval (c.write (writes c.view)) := rfl

theorem eval_bind (p : Prog σ κ ω ν α) (f : α → Prog σ κ ω ν β) (c : Session σ ω ν) :
    (p.bind f).eval c = p.eval c >>= fun r => (f r.1).eval r.2 := by
  induction p generalizing c with
  | done a => rfl
  | fail msg => rfl
  | clock next ih => exact ih _ _
  | draw next ih => exact ih _ _
  | stmt needs writes next ih => exact ih _ _
  | commit next ih => exact ih _

@[simp] theorem returns_done {x : α} :
    (Prog.done x : Prog σ κ ω ν α).Returns c a c' ↔ x = a ∧ c = c' := by
  simp [Returns, eval_done]

@[simp] theorem returns_fail {msg : String} : ¬(Prog.fail msg : Prog σ κ ω ν α).Returns c a c' := by
  simp [Returns, eval_fail]

@[simp] theorem returns_throw {msg : String} : ¬(throw msg : Prog σ κ ω ν α).Returns c a c' :=
  returns_fail

@[simp] theorem returns_commit {next : Prog σ κ ω ν α} :
    (commit next).Returns c a c' ↔ next.Returns c a c' := Iff.rfl

@[simp] theorem returns_bind {p : Prog σ κ ω ν α} {f : α → Prog σ κ ω ν β} :
    (p.bind f).Returns c b c' ↔ ∃ a c₁, p.Returns c a c₁ ∧ (f a).Returns c₁ b c' := by
  simp only [Returns, eval_bind]
  cases h : p.eval c with
  | error e => simp [Bind.bind, Except.bind]
  | ok r => obtain ⟨x, c₁⟩ := r; simp [Bind.bind, Except.bind, and_assoc]

@[simp] theorem returns_query {f : σ → α} :
    (query f : Prog σ κ ω ν α).Returns c a c' ↔ f c.view = a ∧ c = c' := by
  simp [Returns, query, eval_stmt, eval_done]

@[simp] theorem returns_queryLocked {needs : σ → List κ} {f : σ → α} :
    (queryLocked needs f : Prog σ κ ω ν α).Returns c a c' ↔ f c.view = a ∧ c = c' := by
  simp [Returns, queryLocked, eval_stmt, eval_done]

@[simp] theorem returns_acquire {k : κ} {u : Unit} :
    (acquire k : Prog σ κ ω ν Unit).Returns c u c' ↔ c = c' := by
  simp [Returns, acquire, eval_stmt, eval_done]

@[simp] theorem returns_exec {needs : σ → List κ} {writes : σ → List ω} {f : σ → α} :
    (exec needs writes f : Prog σ κ ω ν α).Returns c a c' ↔
      f c.view = a ∧ c.write (writes c.view) = c' := by
  simp [Returns, exec, eval_stmt, eval_done]

@[simp] theorem returns_now {t : ℤ} :
    (now : Prog σ κ ω ν ℤ).Returns c t c' ↔ c.clock 0 = t ∧ c.tick = c' := by
  simp [Returns, now, eval_clock, eval_done]

@[simp] theorem returns_fresh {v : ν} :
    (fresh : Prog σ κ ω ν ν).Returns c v c' ↔ c.ids 0 = v ∧ c.drawn = c' := by
  simp [Returns, fresh, eval_draw, eval_done]

@[simp] theorem returns_autocommit {p : Prog σ κ ω ν α} :
    p.autocommit.Returns c a c' ↔ p.Returns c a c' := by
  simp only [autocommit, returns_bind, returns_commit, returns_done]
  constructor
  · rintro ⟨x, c₁, hp, rfl, rfl⟩
    exact hp
  · exact fun h => ⟨a, c', h, rfl, rfl⟩

@[simp] theorem returns_transaction {body : ℤ → Prog σ κ ω ν α} :
    (transaction body).Returns c a c' ↔ (body (c.clock 0)).Returns c.tick a c' :=
  returns_autocommit (p := body (c.clock 0)) (c := c.tick)

theorem returns_forEach {f : β → Prog σ κ ω ν Unit} {w : β → List ω}
    (hf : ∀ b c (u : Unit) c', (f b).Returns c u c' ↔ c.write (w b) = c') (bs : List β) {u : Unit} :
    (forEach bs f).Returns c u c' ↔ c.write (bs.flatMap w) = c' := by
  induction bs generalizing c with
  | nil => simp [forEach]
  | cons b bs ih => simp [forEach, hf, ih]

theorem exists_returns_forEach {f : β → Prog σ κ ω ν Unit}
    (hf : ∀ b c, ∃ c', (f b).Returns c () c') (bs : List β) (c : Session σ ω ν) :
    ∃ c', (forEach bs f).Returns c () c' := by
  induction bs generalizing c with
  | nil => exact ⟨c, rfl⟩
  | cons b bs ih =>
    obtain ⟨c₁, h₁⟩ := hf b c
    obtain ⟨c₂, h₂⟩ := ih c₁
    exact ⟨c₂, returns_bind.2 ⟨(), c₁, h₁, h₂⟩⟩

theorem Returns.view {p : Prog σ κ ω ν α} (h : p.Returns c a c') :
    ∃ ws, c'.written = c.written ++ ws ∧ c'.view = applyAll c.view ws := by
  induction p generalizing c with
  | done x => obtain ⟨-, rfl⟩ := returns_done.1 h; exact ⟨[], by simp⟩
  | fail msg => exact (returns_fail h).elim
  | clock next ih => exact ih _ (c := c.tick) h
  | draw next ih => exact ih _ (c := c.drawn) h
  | stmt needs writes next ih =>
    obtain ⟨ws, hw, hv⟩ := ih _ (c := c.write (writes c.view)) h
    refine ⟨writes c.view ++ ws, ?_, ?_⟩
    · rw [hw, Session.write_written, List.append_assoc]
    · rw [hv, Session.write_view, applyAll_append]
  | commit next ih => exact ih h

theorem Each.written {P : ω → Prop} {p : Prog σ κ ω ν α} (hp : p.Each fun _ ws => ∀ w ∈ ws, P w)
    (h : p.Returns c a c') :
    ∃ ws, c'.written = c.written ++ ws ∧ c'.view = applyAll c.view ws ∧ ∀ w ∈ ws, P w := by
  induction p generalizing c with
  | done x => obtain ⟨-, rfl⟩ := returns_done.1 h; exact ⟨[], by simp⟩
  | fail msg => exact (returns_fail h).elim
  | clock next ih => exact ih _ (hp _) (c := c.tick) h
  | draw next ih => exact ih _ (hp _) (c := c.drawn) h
  | stmt needs writes next ih =>
    obtain ⟨ws, hw, hv, hP⟩ := ih _ (hp c.view).2 (c := c.write (writes c.view)) h
    refine ⟨writes c.view ++ ws, ?_, ?_, ?_⟩
    · rw [hw, Session.write_written, List.append_assoc]
    · rw [hv, Session.write_view, applyAll_append]
    · exact fun w hw => (List.mem_append.1 hw).elim ((hp c.view).1 w) (hP w)
  | commit next ih => exact ih hp h

theorem Each.returns {φ : σ → List ω → Prop} {R : σ → σ → Prop} (refl : ∀ s, R s s)
    (trans : ∀ {x y z}, R x y → R y z → R x z) (law : ∀ s ws, φ s ws → R s (applyAll s ws))
    {p : Prog σ κ ω ν α} (hp : p.Each φ) (h : p.Returns c a c') : R c.view c'.view := by
  induction p generalizing c with
  | done x => obtain ⟨-, rfl⟩ := returns_done.1 h; exact refl _
  | fail msg => exact (returns_fail h).elim
  | clock next ih => exact ih _ (hp _) (c := c.tick) h
  | draw next ih => exact ih _ (hp _) (c := c.drawn) h
  | stmt needs writes next ih =>
    exact trans (law _ _ (hp c.view).1) (ih _ (hp c.view).2 (c := c.write (writes c.view)) h)
  | commit next ih => exact ih hp h

end Prog

structure Turn (β σ ω ν : Type) where
  label : β
  before : σ
  clock : ℕ → ℤ
  ids : ℕ → ν
  writes : List ω
  after : σ

section Turns
variable {β σ κ ω ν : Type} [Database σ ω] {prog : β → Prog σ κ ω ν Unit}

def Turn.Completes (prog : β → Prog σ κ ω ν Unit) (t : Turn β σ ω ν) : Prop :=
  ∃ c', (prog t.label).Returns (.start t.before t.clock t.ids) () c' ∧ c'.written = t.writes ∧
    c'.view = t.after

inductive Turns (prog : β → Prog σ κ ω ν Unit) : σ → List (Turn β σ ω ν) → σ → Prop where
  | nil (s : σ) : Turns prog s [] s
  | cons {t : Turn β σ ω ν} {ts : List (Turn β σ ω ν)} {s' : σ} (h : t.Completes prog)
      (rest : Turns prog t.after ts s') : Turns prog t.before (t :: ts) s'

theorem Turns.turn {b : β} {s s' : σ} {clock : ℕ → ℤ} {ids : ℕ → ν} {c : Session σ ω ν}
    {ts : List (Turn β σ ω ν)} (h : (prog b).Returns (.start s clock ids) () c)
    (rest : Turns prog c.view ts s') :
    Turns prog s (⟨b, s, clock, ids, c.written, c.view⟩ :: ts) s' :=
  .cons (t := ⟨b, s, clock, ids, c.written, c.view⟩) ⟨c, h, rfl, rfl⟩ rest

theorem Turns.completes {s s' : σ} {ts : List (Turn β σ ω ν)} (run : Turns prog s ts s') :
    ∀ t ∈ ts, t.Completes prog := by
  induction run with
  | nil s => simp
  | cons h rest ih => simpa using ⟨h, ih⟩

end Turns
end Txn

/-! A program that stops on its way: what it has committed by then. -/

namespace Txn
namespace Prog
variable {σ κ ω ν α β : Type} [Database σ ω]

def stopped : Prog σ κ ω ν α → ℕ → Session σ ω ν → σ → σ
  -- the store that a program leaves behind when it stops before its commit number `n`; `s` is what
  -- was committed last
  | .done _, _, _, s => s
  | .fail _, _, _, s => s
  | .clock next, n, c, s => (next (c.clock 0)).stopped n c.tick s
  | .draw next, n, c, s => (next (c.ids 0)).stopped n c.drawn s
  | .stmt _ writes next, n, c, s => (next c.view).stopped n (c.write (writes c.view)) s
  | .commit _, 0, _, s => s
  | .commit next, n + 1, c, _ => next.stopped n c c.view

variable {c : Session σ ω ν} {s : σ} {n : ℕ}
variable {needs : σ → List κ} {writes : σ → List ω} {f : σ → α} {g : α → Prog σ κ ω ν β}

/-- A loop of single statements, each committed on its own, has made the first `n` of them. -/
theorem stopped_forEach (needs : β → σ → List κ) (writes : β → List ω) (bs : List β) (a : α)
    (c : Session σ ω ν) (n : ℕ) :
    ((forEach bs fun b => autocommit (exec (needs b) (fun _ => writes b) fun _ => ())).bind
      fun _ => (.done a : Prog σ κ ω ν α)).stopped n c c.view =
        applyAll c.view ((bs.take n).flatMap writes) := by
  induction bs generalizing c n with
  | nil =>
    rw [List.take_nil]
    rfl
  | cons b bs ih =>
    cases n with
    | zero => rfl
    | succ n =>
      rw [List.take_succ_cons, List.flatMap_cons, applyAll_append]
      exact ih (c.write (writes b)) n

end Prog
end Txn
