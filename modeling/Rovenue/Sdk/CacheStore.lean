import Rovenue.Queues.Fifo
import Rovenue.Sdk.Error

/-! The SDK's queues on disk. Each append and each deletion holds the connection's
mutex from its first statement to its last. -/

namespace Rovenue.Sdk
open Queues

variable {R : Type}

structure SessionEvent where
  kind : String
  occurredAt : String
  durationMs : Option ℕ
deriving DecidableEq

structure AttributeMutation where
  key : String
  value : Option String
deriving DecidableEq

def sessionEventsCap : ℕ := 1000
def attributeMutationsCap : ℕ := 1000
def paywallEventsCap : ℕ := 100
def flushPage : ℕ := 200

inductive AppendFault where
  | insert | trim
deriving DecidableEq

def append (cap : ℕ) (row : R) (fault : Option AppendFault) (q : Fifo R) :
    Fifo R × Except RovenueError Unit :=
  -- insert, then trim to the newest `cap`; either failure is an error to the caller
  match fault with
  | some .insert => (q, .error (.ofKind .storage))
  | some .trim => (q.push row, .error (.ofKind .storage))
  | none => ((q.push row).trim cap, .ok ())

theorem mem_append {cap : ℕ} {row : R} {fault : Option AppendFault} {q : Fifo R} {e : ℕ × R}
    (h : e ∈ (append cap row fault q).1.rows) : e ∈ q.rows ∨ e = (q.next, row) := by
  rcases fault with _ | _ | _
  · exact Fifo.mem_push.1 (Fifo.mem_trim h)
  · exact .inl h
  · exact Fifo.mem_push.1 h

end Rovenue.Sdk
