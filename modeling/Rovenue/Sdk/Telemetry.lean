import Rovenue.Sdk.CacheStore
import Rovenue.Threads.System

/-! Session events and attribute mutations: two queues, the flushes that empty
them, and the `log_out` that changes who they belong to. -/

namespace Rovenue.Sdk
open Queues Threads

variable {R : Type}

structure Subscriber where
  rovenueId : String
  logOuts : ℕ
deriving DecidableEq

/-- A queued row; `under` is who was current when it was recorded, and no column. -/
structure Recorded (R : Type) where
  row : R
  under : Subscriber
deriving DecidableEq

structure Buffer (R : Type) where
  queue : Fifo (Recorded R)
  posted : List (Subscriber × List (ℕ × Recorded R))

def Buffer.empty : Buffer R := ⟨Fifo.empty, []⟩

/-- `request` is the POST's place among those sent from the buffer. -/
inductive Flush (R : Type) where
  | listing (sub : Subscriber)
  | posting (request : ℕ) (rows : List (ℕ × Recorded R))
  | deleting (ids : List ℕ)

inductive FlushEvent where
  | list (ok : Bool)
  | reply (result : Except RovenueError Unit)
  | delete (ok : Bool)

def flushOnce (drops : RovenueError → Bool) (b : Buffer R) :
    Flush R → FlushEvent → Buffer R × Option (Flush R)
  -- A flush that returns is `none`. The POST leaves with the listing: nothing shared is read in
  -- between. `drops` tells the rejections whose rows are deleted as well.
  | .listing sub, .list true =>
    let rows := b.queue.oldest flushPage
    if rows = [] then (b, none)
    else
      ({ b with posted := b.posted ++ [(sub, rows)] }, some (.posting b.posted.length rows))
  | .listing _, .list false => (b, none)
  | .posting _ rows, .reply result =>
    match result with
    | .ok () => (b, some (.deleting (rows.map Prod.fst)))
    | .error err => (b, if drops err then some (.deleting (rows.map Prod.fst)) else none)
  | .deleting ids, .delete true => ({ b with queue := b.queue.remove ids }, none)
  | .deleting _, .delete false => (b, none)
  | f, _ => (b, some f)

def sessionDrops : RovenueError → Bool := RovenueError.isPoison

def attributeDrops (err : RovenueError) : Bool :=
  !err.retryable && err.httpStatus.any fun s => 400 ≤ s && s < 500

structure Telemetry where
  subscriber : Subscriber
  sessions : Buffer SessionEvent
  attributes : Buffer AttributeMutation

/-- What is left of a `log_out` whose new identity row is on disk. -/
inductive LogOut where
  | swap (newRovenueId : String)
  | clearTokens
  | clearSessions
  | clearAttributes

inductive Thread where
  | idle
  | setAttributes (rest : List AttributeMutation)
  | flushSessions (f : Flush SessionEvent)
  | flushAttributes (f : Flush AttributeMutation)
  | logOut (l : LogOut)

inductive Action where
  | logOut (newRovenueId : String) (saved : Bool)
  | recordSessionEvent (e : SessionEvent) (fault : Option AppendFault)
  -- in the order in which the map is iterated
  | setAttributes (attributes : List AttributeMutation)
  | flushSessions
  | flushAttributes
  | append (fault : Option AppendFault)
  | flush (e : FlushEvent)
  | proceed (ok : Bool)

def Telemetry.subscriberId (s : Telemetry) : Option Subscriber :=
  if s.subscriber.rovenueId = "" then none else some s.subscriber

def Thread.ofSet : List AttributeMutation → Thread
  | [] => .idle
  | rest => .setAttributes rest

def LogOut.run (s : Telemetry) : LogOut → Bool → Telemetry × Thread
  | .swap newRovenueId, _ =>
    ({ s with subscriber := ⟨newRovenueId, s.subscriber.logOuts + 1⟩ }, .logOut .clearTokens)
  | _, false => (s, .idle)
  | .clearTokens, true => (s, .logOut .clearSessions)
  | .clearSessions, true =>
    ({ s with sessions := { s.sessions with queue := s.sessions.queue.clear } },
      .logOut .clearAttributes)
  | .clearAttributes, true =>
    ({ s with attributes := { s.attributes with queue := s.attributes.queue.clear } }, .idle)

def Telemetry.recordSessionEvent (s : Telemetry) (e : SessionEvent) (fault : Option AppendFault) :
    Telemetry :=
  { s with sessions := { s.sessions with
      queue := (append sessionEventsCap ⟨e, s.subscriber⟩ fault s.sessions.queue).1 } }

def Telemetry.setAttribute (s : Telemetry) (m : AttributeMutation) (fault : Option AppendFault) :
    Telemetry :=
  { s with attributes := { s.attributes with
      queue := (append attributeMutationsCap ⟨m, s.subscriber⟩ fault s.attributes.queue).1 } }

def Telemetry.step (s : Telemetry) : Thread → Action → Telemetry × Thread
  | .idle, .logOut newRovenueId saved =>
    (s, if saved then .logOut (.swap newRovenueId) else .idle)
  | .idle, .recordSessionEvent e fault => (s.recordSessionEvent e fault, .idle)
  | .idle, .setAttributes attributes => (s, .ofSet attributes)
  | .idle, .flushSessions =>
    (s, s.subscriberId.elim .idle fun sub => .flushSessions (.listing sub))
  | .idle, .flushAttributes =>
    (s, s.subscriberId.elim .idle fun sub => .flushAttributes (.listing sub))
  | .setAttributes (m :: rest), .append fault =>
    (s.setAttribute m fault, if fault = none then .ofSet rest else .idle)
  | .flushSessions f, .flush e =>
    let (sessions, f) := flushOnce sessionDrops s.sessions f e
    ({ s with sessions := sessions }, f.elim .idle .flushSessions)
  | .flushAttributes f, .flush e =>
    let (attributes, f) := flushOnce attributeDrops s.attributes f e
    ({ s with attributes := attributes }, f.elim .idle .flushAttributes)
  | .logOut l, .proceed ok => l.run s ok
  | t, _ => (s, t)

def telemetrySystem : System Telemetry Thread Action Empty where
  step := Telemetry.step
  env s _ := s
  reset t _ := t

end Rovenue.Sdk
