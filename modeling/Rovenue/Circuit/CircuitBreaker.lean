import Rovenue.Threads.System

/-! The breaker around a store's client. A call is let in by the state that it finds, and its end
acts on the state of that moment. -/

namespace Rovenue.Circuit
open Threads

inductive CircuitState where
  | closed | opened | halfOpen
  deriving DecidableEq, Repr

structure CircuitBreakerOptions where
  name : String
  failureThreshold : ℕ
  resetTimeoutMs : ℤ
  halfOpenRequests : ℕ

structure CircuitBreaker where
  state : CircuitState := .closed
  failures : ℕ := 0
  successes : ℕ := 0
  halfOpenSuccessCount : ℕ := 0
  halfOpenInFlight : ℕ := 0
  lastFailureAt : Option ℤ := none
  openedAt : Option ℤ := none

namespace CircuitBreaker
variable (o : CircuitBreakerOptions) (b : CircuitBreaker) (now : ℤ)

def stateAt : CircuitState :=
  if b.state = .opened ∧ b.openedAt.any (fun t => o.resetTimeoutMs ≤ now - t) then .halfOpen
  else b.state

def trip : CircuitBreaker :=
  { b with state := .opened, openedAt := some now, halfOpenSuccessCount := 0 }

def close : CircuitBreaker :=
  { b with
    state := .closed
    failures := 0
    successes := 0
    halfOpenSuccessCount := 0
    halfOpenInFlight := 0
    openedAt := none }

def onSuccess : CircuitBreaker :=
  let b := { b with successes := b.successes + 1 }
  if b.state = .halfOpen then
    let b := { b with halfOpenSuccessCount := b.halfOpenSuccessCount + 1 }
    if o.halfOpenRequests ≤ b.halfOpenSuccessCount then b.close else b
  else { b with failures := 0 }

def onFailure : CircuitBreaker :=
  let b := { b with failures := b.failures + 1, lastFailureAt := some now }
  if b.state = .halfOpen then b.trip now
  else if o.failureThreshold ≤ b.failures then b.trip now
  else b

def openMessage : String := "Circuit breaker '" ++ o.name ++ "' is OPEN — request rejected"

def probeLimitMessage : String :=
  "Circuit breaker '" ++ o.name ++ "' HALF_OPEN probe limit reached"

def enter : CircuitBreaker × Except String CircuitState :=
  -- `exec` up to the call of its function, with the state that it is called in
  match b.stateAt o now with
  | .opened => (b, .error (openMessage o))
  | .halfOpen =>
    if o.halfOpenRequests ≤ b.halfOpenInFlight then (b, .error (probeLimitMessage o))
    else ({ b with state := .halfOpen, halfOpenInFlight := b.halfOpenInFlight + 1 }, .ok .halfOpen)
  | .closed => (b, .ok .closed)

def leave (current : CircuitState) (succeeded : Bool) : CircuitBreaker :=
  let b := if succeeded then b.onSuccess o else b.onFailure o now
  if current = .halfOpen then { b with halfOpenInFlight := b.halfOpenInFlight - 1 } else b

end CircuitBreaker

structure StoreCircuit where
  breaker : CircuitBreaker := {}
  now : ℤ := 0
  -- when the breaker went open, the last time first; nothing in the code reads it, nor the count of
  -- its closings
  openings : List ℤ := []
  closings : ℕ := 0

def StoreCircuit.become (c : StoreCircuit) (b : CircuitBreaker) : StoreCircuit :=
  { c with
    breaker := b
    openings :=
      if c.breaker.state ≠ .opened ∧ b.state = .opened then c.now :: c.openings else c.openings
    closings := if c.breaker.state ≠ .closed ∧ b.state = .closed then c.closings + 1 else c.closings }

inductive ExecCall where
  | idle
  | rejected (message : String)
  -- let in under this state, after so many openings and closings
  | running (current : CircuitState) (opening closing : ℕ)
  | settled (current : CircuitState) (opening : ℕ) (succeeded : Bool)
  deriving DecidableEq

inductive ExecEvent where
  | call | resolve | reject

def ExecCall.step (o : CircuitBreakerOptions) (c : StoreCircuit) :
    ExecCall → ExecEvent → StoreCircuit × ExecCall
  | .idle, .call =>
    match c.breaker.enter o c.now with
    | (b, .error message) => (c.become b, .rejected message)
    | (b, .ok current) => (c.become b, .running current c.openings.length c.closings)
  | .running current opening _, .resolve =>
    (c.become (c.breaker.leave o c.now current true), .settled current opening true)
  | .running current opening _, .reject =>
    (c.become (c.breaker.leave o c.now current false), .settled current opening false)
  | t, _ => (c, t)

def breakerSystem (o : CircuitBreakerOptions) : System StoreCircuit ExecCall ExecEvent ℕ where
  step c t e := t.step o c e
  env c d := { c with now := c.now + d }
  reset t _ := t

abbrev CircuitWorld (ι : Type) := World ι StoreCircuit ExecCall

def breakerStart {ι : Type} : CircuitWorld ι := ⟨{}, fun _ => .idle⟩

namespace ExecCall

def isRunning : ExecCall → Bool
  | .running .. => true
  | _ => false

def isProbing : ExecCall → Bool
  | .running .halfOpen _ _ => true
  | _ => false

def probesSinceOpening (opening : ℕ) : ExecCall → Bool
  | .running .halfOpen opening' _ => opening' = opening
  | _ => false

def probesSinceClosing (closing : ℕ) : ExecCall → Bool
  | .running .halfOpen _ closing' => closing' = closing
  | _ => false

end ExecCall

variable {ι : Type}

/-- The functions let in as probes that are running. -/
def ProbesBounded (o : CircuitBreakerOptions) (w : CircuitWorld ι) : Prop :=
  ∀ calls : List ι, calls.Nodup → (∀ i ∈ calls, (w.task i).isProbing = true) →
    calls.length ≤ o.halfOpenRequests

/-- From half-open it closes after enough probes let in since it last opened, and none failed. -/
def ClosedByProbes (o : CircuitBreakerOptions) (w w' : CircuitWorld ι) : Prop :=
  w.shared.breaker.state = .halfOpen → w'.shared.breaker.state = .closed →
    (∃ calls : List ι, calls.Nodup ∧ o.halfOpenRequests ≤ calls.length ∧
      ∀ i ∈ calls, w'.task i = .settled .halfOpen w.shared.openings.length true) ∧
    ∀ i, w'.task i ≠ .settled .halfOpen w.shared.openings.length false

/-- No function starts before the timeout is over, whenever the breaker opened. -/
def WaitsOut (o : CircuitBreakerOptions) (w w' : CircuitWorld ι) : Prop :=
  ∀ i, (w.task i).isRunning = false → (w'.task i).isRunning = true →
    ∀ t ∈ w.shared.openings, t + o.resetTimeoutMs ≤ w.shared.now

/-- The timeout runs from when the breaker opened. -/
def DeadlineKept (w : CircuitWorld ι) : Prop :=
  w.shared.breaker.state = .opened → w.shared.breaker.openedAt = w.shared.openings.head?

def CountsOwn (w : CircuitWorld ι) : Event ι ExecEvent ℕ → Prop
  | .act i .resolve => w.shared.breaker.state = .halfOpen → (w.task i).isRunning = true →
    (w.task i).probesSinceOpening w.shared.openings.length = true
  | _ => True

def FailsBelow (o : CircuitBreakerOptions) (w : CircuitWorld ι) : Event ι ExecEvent ℕ → Prop
  | .act i .reject => w.shared.breaker.state = .opened → (w.task i).isRunning = true →
    w.shared.breaker.failures + 1 < o.failureThreshold
  | _ => True

def ProbesAfresh (o : CircuitBreakerOptions) (w : CircuitWorld ι) : Event ι ExecEvent ℕ → Prop
  | .act i .call => w.task i = .idle → w.shared.breaker.stateAt o w.shared.now = .halfOpen →
    ∀ j, (w.task j).isProbing = true →
      (w.task j).probesSinceClosing w.shared.closings = true
  | _ => True

structure InPhase (o : CircuitBreakerOptions) (w : CircuitWorld ι) (ev : Event ι ExecEvent ℕ) :
    Prop where
  countsOwn : CountsOwn w ev
  failsBelow : FailsBelow o w ev
  probesAfresh : ProbesAfresh o w ev

end Rovenue.Circuit
