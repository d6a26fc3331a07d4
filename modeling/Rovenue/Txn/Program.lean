import Mathlib

/-! Database clients as programs. A statement is evaluated against one view of
the store, takes the locks it needs and queues its writes; they reach the
committed store when the transaction commits. -/

namespace Txn

/-- A store `σ` and the elementary writes `ω` that change it. -/
class Database (σ : Type) (ω : outParam Type) where
  apply : σ → ω → σ

section Apply
variable {σ ω : Type} [Database σ ω]

def applyAll (s : σ) (ws : List ω) : σ := ws.foldl Database.apply s

@[simp] theorem applyAll_nil (s : σ) : applyAll s ([] : List ω) = s := rfl

@[simp] theorem applyAll_cons (s : σ) (w : ω) (ws : List ω) :
    applyAll s (w :: ws) = applyAll (Database.apply s w) ws := rfl

theorem applyAll_append (s : σ) (ws vs : List ω) :
    applyAll s (ws ++ vs) = applyAll (applyAll s ws) vs := List.foldl_append

theorem applyAll_induct {R : σ → σ → Prop} (refl : ∀ s, R s s)
    (trans : ∀ {a b c}, R a b → R b c → R a c) {ws : List ω}
    (each : ∀ w ∈ ws, ∀ s, R s (Database.apply s w)) (s : σ) : R s (applyAll s ws) := by
  induction ws generalizing s with
  | nil => exact refl s
  | cons w ws ih =>
    rw [applyAll_cons]
    exact trans (each w (by simp) s) (ih (fun v hv => each v (by simp [hv])) _)

theorem applyAll_congr {β : Type} (f : σ → β) {ws : List ω}
    (each : ∀ w ∈ ws, ∀ s : σ, f (Database.apply s w) = f s) (s : σ) :
    f (applyAll s ws) = f s :=
  applyAll_induct (R := fun a b => f b = f a) (fun _ => rfl) (fun h g => g.trans h) each s

end Apply

/-- A client of a store `σ` with locks `κ`, writes `ω` and drawn identifiers `ν`.
`stmt` blocks until the locks it needs are free; `fail` rolls back. -/
inductive Prog (σ κ ω ν α : Type) where
  | done (a : α)
  | fail (msg : String)
  | clock (next : ℤ → Prog σ κ ω ν α)
  | draw (next : ν → Prog σ κ ω ν α)
  | stmt (needs : σ → List κ) (writes : σ → List ω) (next : σ → Prog σ κ ω ν α)
  | commit (next : Prog σ κ ω ν α)

namespace Prog
variable {σ κ ω ν α β γ : Type}

def bind : Prog σ κ ω ν α → (α → Prog σ κ ω ν β) → Prog σ κ ω ν β
  | .done a, f => f a
  | .fail msg, _ => .fail msg
  | .clock next, f => .clock fun t => (next t).bind f
  | .draw next, f => .draw fun v => (next v).bind f
  | .stmt needs writes next, f => .stmt needs writes fun s => (next s).bind f
  | .commit next, f => .commit (next.bind f)

instance : Monad (Prog σ κ ω ν) where
  pure := .done
  bind := .bind

@[simp] theorem pure_eq (a : α) : (pure a : Prog σ κ ω ν α) = .done a := rfl

@[simp] theorem bind_eq (p : Prog σ κ ω ν α) (f : α → Prog σ κ ω ν β) : p >>= f = p.bind f := rfl

def query (f : σ → α) : Prog σ κ ω ν α :=
  .stmt (fun _ => []) (fun _ => []) fun s => .done (f s)

def queryLocked (needs : σ → List κ) (f : σ → α) : Prog σ κ ω ν α :=
  -- a `SELECT … FOR UPDATE`: the locks are those of the rows it returns
  .stmt needs (fun _ => []) fun s => .done (f s)

def acquire (k : κ) : Prog σ κ ω ν Unit :=
  .stmt (fun _ => [k]) (fun _ => []) fun _ => .done ()

def exec (needs : σ → List κ) (writes : σ → List ω) (f : σ → α) : Prog σ κ ω ν α :=
  -- an `INSERT` or `UPDATE`, with the locks of the rows it touches and the value it returns
  .stmt needs writes fun s => .done (f s)

def now : Prog σ κ ω ν ℤ := .clock .done

def fresh : Prog σ κ ω ν ν := .draw .done

def throw (msg : String) : Prog σ κ ω ν α := .fail msg

def transaction (body : ℤ → Prog σ κ ω ν α) : Prog σ κ ω ν α :=
  -- `BEGIN … COMMIT`; the body receives the transaction's start time
  .clock fun t => (body t).bind fun a => .commit (.done a)

def autocommit (p : Prog σ κ ω ν α) : Prog σ κ ω ν α := p.bind fun a => .commit (.done a)

def forEach : List β → (β → Prog σ κ ω ν Unit) → Prog σ κ ω ν Unit
  | [], _ => .done ()
  | b :: bs, f => (f b).bind fun _ => forEach bs f

def Stmts (φ : σ → List κ → List ω → Prop) : Prog σ κ ω ν α → Prop
  -- whatever the view, each statement satisfies `φ` of the view, the locks it needs and the writes
  -- it queues
  | .done _ => True
  | .fail _ => True
  | .clock next => ∀ t, (next t).Stmts φ
  | .draw next => ∀ v, (next v).Stmts φ
  | .stmt needs writes next => ∀ s, φ s (needs s) (writes s) ∧ (next s).Stmts φ
  | .commit next => next.Stmts φ

section Stmts
variable {φ ψ : σ → List κ → List ω → Prop}

theorem Stmts.bind {p : Prog σ κ ω ν α} {f : α → Prog σ κ ω ν β} (hp : p.Stmts φ)
    (hf : ∀ a, (f a).Stmts φ) : (p.bind f).Stmts φ := by
  induction p with
  | done a => exact hf a
  | fail msg => trivial
  | clock next ih => exact fun t => ih t (hp t)
  | draw next ih => exact fun v => ih v (hp v)
  | stmt needs writes next ih => exact fun s => ⟨(hp s).1, ih s (hp s).2⟩
  | commit next ih => exact ih hp

theorem Stmts.of_bind {p : Prog σ κ ω ν α} {f : α → Prog σ κ ω ν β} (h : (p.bind f).Stmts φ) :
    p.Stmts φ := by
  induction p with
  | done a => trivial
  | fail msg => trivial
  | clock next ih => exact fun t => ih t (h t)
  | draw next ih => exact fun v => ih v (h v)
  | stmt needs writes next ih => exact fun s => ⟨(h s).1, ih s (h s).2⟩
  | commit next ih => exact ih h

theorem Stmts.mono {p : Prog σ κ ω ν α} (hp : p.Stmts φ) (h : ∀ s ks ws, φ s ks ws → ψ s ks ws) :
    p.Stmts ψ := by
  induction p with
  | done a => trivial
  | fail msg => trivial
  | clock next ih => exact fun t => ih t (hp t)
  | draw next ih => exact fun v => ih v (hp v)
  | stmt needs writes next ih => exact fun s => ⟨h s _ _ (hp s).1, ih s (hp s).2⟩
  | commit next ih => exact ih hp

theorem stmts_query (h : ∀ s, φ s [] []) (f : σ → α) : (query f : Prog σ κ ω ν α).Stmts φ :=
  fun s => ⟨h s, trivial⟩

theorem stmts_queryLocked {needs : σ → List κ} (h : ∀ s, φ s (needs s) []) (f : σ → α) :
    (queryLocked needs f : Prog σ κ ω ν α).Stmts φ := fun s => ⟨h s, trivial⟩

theorem stmts_acquire {k : κ} (h : ∀ s, φ s [k] []) : (acquire k : Prog σ κ ω ν Unit).Stmts φ :=
  fun s => ⟨h s, trivial⟩

theorem stmts_exec {needs : σ → List κ} {writes : σ → List ω} {f : σ → α}
    (h : ∀ s, φ s (needs s) (writes s)) : (exec needs writes f : Prog σ κ ω ν α).Stmts φ :=
  fun s => ⟨h s, trivial⟩

theorem Stmts.transaction {body : ℤ → Prog σ κ ω ν α} (h : ∀ t, (body t).Stmts φ) :
    (Prog.transaction body).Stmts φ := fun t => (h t).bind fun _ => trivial

theorem Stmts.autocommit {p : Prog σ κ ω ν α} (h : p.Stmts φ) : p.autocommit.Stmts φ :=
  h.bind fun _ => trivial

theorem stmts_forEach {f : β → Prog σ κ ω ν Unit} (bs : List β) (h : ∀ b ∈ bs, (f b).Stmts φ) :
    (forEach bs f).Stmts φ := by
  induction bs with
  | nil => trivial
  | cons b bs ih => exact (h b (by simp)).bind fun _ => ih fun c hc => h c (by simp [hc])

end Stmts

def Each (φ : σ → List ω → Prop) (p : Prog σ κ ω ν α) : Prop := p.Stmts fun s _ ws => φ s ws

variable {φ ψ : σ → List ω → Prop}

theorem Each.bind {p : Prog σ κ ω ν α} {f : α → Prog σ κ ω ν β} (hp : p.Each φ)
    (hf : ∀ a, (f a).Each φ) : (p.bind f).Each φ := Stmts.bind hp hf

theorem Each.of_bind {p : Prog σ κ ω ν α} {f : α → Prog σ κ ω ν β} (h : (p.bind f).Each φ) :
    p.Each φ := Stmts.of_bind h

theorem Each.mono {p : Prog σ κ ω ν α} (hp : p.Each φ) (h : ∀ s ws, φ s ws → ψ s ws) :
    p.Each ψ := Stmts.mono hp fun s _ ws => h s ws

theorem each_query (h : ∀ s, φ s []) (f : σ → α) : (query f : Prog σ κ ω ν α).Each φ :=
  stmts_query h f

theorem each_queryLocked (h : ∀ s, φ s []) (needs : σ → List κ) (f : σ → α) :
    (queryLocked needs f : Prog σ κ ω ν α).Each φ := stmts_queryLocked h f

theorem each_acquire (h : ∀ s, φ s []) (k : κ) : (acquire k : Prog σ κ ω ν Unit).Each φ :=
  stmts_acquire h

theorem each_exec {needs : σ → List κ} {writes : σ → List ω} {f : σ → α}
    (h : ∀ s, φ s (writes s)) : (exec needs writes f : Prog σ κ ω ν α).Each φ := stmts_exec h

theorem Each.transaction {body : ℤ → Prog σ κ ω ν α} (h : ∀ t, (body t).Each φ) :
    (Prog.transaction body).Each φ := Stmts.transaction h

theorem Each.autocommit {p : Prog σ κ ω ν α} (h : p.Each φ) : p.autocommit.Each φ :=
  Stmts.autocommit h

theorem each_forEach {f : β → Prog σ κ ω ν Unit} (bs : List β) (h : ∀ b ∈ bs, (f b).Each φ) :
    (forEach bs f).Each φ := stmts_forEach bs h

end Prog
end Txn
