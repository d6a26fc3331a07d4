import Rovenue.Notifications.EventCatalog
import Rovenue.Threads.System

/-! `processNotification`, one await or more to a step: a call resolves its recipients, commits
each one's rows in a transaction of their own and adds the send jobs after the last of them. -/

namespace Rovenue.Notifications
open Threads

inductive DeliveryStatus where
  | delivered | queued | suppressed
  deriving DecidableEq, Repr

inductive SuppressReason where
  | suppressedList | noEmail
  deriving DecidableEq, Repr

structure ChannelStatus where
  channel : NotificationChannel
  status : DeliveryStatus
  suppressReason : Option SuppressReason := none
  deriving DecidableEq

structure Notification where
  userId : String
  projectId : Option String
  eventKey : String
  eventId : String
  title : String
  body : String
  deriving DecidableEq

/-- A row as it is committed; `notificationId` is the place of its notification. -/
structure Delivery extends ChannelStatus where
  notificationId : ℕ
  deriving DecidableEq

/-- `deliveryId` is the place of the row a job is for. -/
inductive SendJob where
  | email (deliveryId : ℕ) (address : String) (headers : List (String × String))
      (subject html text : String)
  | push (deliveryId : ℕ) (userId title body eventKey : String) (projectId : Option String)
  deriving DecidableEq

def SendJob.deliveryId : SendJob → ℕ
  | .email deliveryId _ _ _ _ _ => deliveryId
  | .push deliveryId _ _ _ _ _ => deliveryId

def SendJob.channel : SendJob → NotificationChannel
  | .email .. => .email
  | .push .. => .push

structure Store where
  notifications : List Notification := []
  deliveries : List Delivery := []
  jobs : List SendJob := []

def Store.hasNotification (s : Store) (userId eventId : String) : Bool :=
  s.notifications.any fun n => n.userId = userId && n.eventId = eventId

structure Rendered where
  subject : String := ""
  html : String := ""
  text : String := ""
  pushTitle : String := ""
  pushBody : String := ""
  deriving DecidableEq

abbrev CatalogEvent := {event : NotificationEventDescriptor // event ∈ eventCatalog}

structure Prepared where
  enabledChannels : List NotificationChannel
  nodup : enabledChannels.Nodup
  userEmail : Option String
  emailSuppressed : Bool
  unsubHeaders : List (String × String)
  rendered : Rendered

def Prepared.channelStatus (p : Prepared) : NotificationChannel → ChannelStatus
  | .inapp => ⟨.inapp, .delivered, none⟩
  | .email =>
    if p.userEmail = none then ⟨.email, .suppressed, some .noEmail⟩
    else if p.emailSuppressed then ⟨.email, .suppressed, some .suppressedList⟩
    else ⟨.email, .queued, none⟩
  | .push => ⟨.push, .queued, none⟩

def Prepared.channelStatuses (p : Prepared) : List ChannelStatus :=
  p.enabledChannels.map p.channelStatus

def Prepared.sendJob (p : Prepared) (payload : NotifyPayload) (userId : String)
    (deliveryId : ℕ) (cs : ChannelStatus) : Option SendJob :=
  if cs.status ≠ .queued then none
  else
    match cs.channel, p.userEmail with
    | .email, some userEmail => some (.email deliveryId userEmail p.unsubHeaders
        p.rendered.subject p.rendered.html p.rendered.text)
    | .push, _ => some (.push deliveryId userId p.rendered.pushTitle p.rendered.pushBody
        payload.eventKey payload.project)
    | _, _ => none

def Prepared.sendJobs (p : Prepared) (payload : NotifyPayload) (userId : String)
    (firstId : ℕ) : List SendJob :=
  -- the jobs of a recipient whose deliveries start at `firstId`
  (p.channelStatuses.zipIdx firstId).filterMap fun e => p.sendJob payload userId e.2 e.1

def Prepared.notification (p : Prepared) (payload : NotifyPayload) (userId : String) :
    Notification where
  userId := userId
  projectId := payload.projectId
  eventKey := payload.eventKey
  eventId := payload.eventId
  title := p.rendered.pushTitle
  body := p.rendered.pushBody

def Store.insert (s : Store) (n : Notification) (statuses : List ChannelStatus) : Store :=
  { s with
    notifications := s.notifications ++ [n]
    deliveries := s.deliveries ++ statuses.map fun cs => ⟨cs, s.notifications.length⟩ }

inductive Stage where
  | called
  -- at a recipient's look-ups; `postCommit` holds the jobs of those before
  | preparing (event : CatalogEvent) (userId : String) (rest : List String)
      (postCommit : List SendJob)
  | committing (event : CatalogEvent) (userId : String) (rest : List String)
      (postCommit : List SendJob) (prepared : Prepared)
  | sending (job : SendJob) (rest : List SendJob)
  | returned
  -- it threw, or the process is gone
  | failed

structure Call where
  payload : NotifyPayload
  stage : Stage

/-- What goes wrong at an await; `took` tells whether what was awaited took effect. -/
inductive Fault where
  | throws (took : Bool)
  | crashes (took : Bool)
  deriving DecidableEq

def Fault.took : Fault → Bool
  | .throws took => took
  | .crashes took => took

structure Reply where
  fault : Option Fault := none
  members : List (String × MemberRoleName) := []
  userChannels : UserChannels := {}
  projectDefaults : String → Option Bool := fun _ => none
  userOverrides : String → Option Bool := fun _ => none
  userEmail : Option String := none
  emailSuppressed : Bool := false
  unsubHeaders : List (String × String) := []
  rendered : Rendered := {}

def enqueue : List SendJob → Stage
  | [] => .returned
  | job :: rest => .sending job rest

def nextRecipient (event : CatalogEvent) (recipients : List String) (postCommit : List SendJob) :
    Stage :=
  match recipients with
  | [] => enqueue postCommit
  | userId :: rest => .preparing event userId rest postCommit

def resolve (payload : NotifyPayload) (reply : Reply) : Stage :=
  match h : getEvent payload.eventKey with
  | none => .failed
  | some event =>
    if reply.fault.isSome then .failed
    else
      match resolveRecipients payload reply.members with
      | .error _ => .failed
      | .ok recipients => nextRecipient ⟨event, mem_eventCatalog h⟩ recipients []

def projectPrefs (payload : NotifyPayload) (prefs : String → Option Bool) : String → Option Bool :=
  if payload.project = none then fun _ => none else prefs

def enabledChannels (event : CatalogEvent) (payload : NotifyPayload) (reply : Reply) :
    List NotificationChannel :=
  resolvePrefs event.1 reply.userChannels (projectPrefs payload reply.projectDefaults)
    (projectPrefs payload reply.userOverrides)

def prepared (event : CatalogEvent) (payload : NotifyPayload) (reply : Reply) : Prepared where
  enabledChannels := enabledChannels event payload reply
  nodup := (defaultChannels_nodup event.1 event.2).filter _
  userEmail := reply.userEmail.filter (· ≠ "")
  emailSuppressed := reply.emailSuppressed
  unsubHeaders :=
    if .email ∈ enabledChannels event payload reply ∧ reply.userEmail.filter (· ≠ "") ≠ none then
      reply.unsubHeaders
    else []
  rendered := reply.rendered

def prepare (payload : NotifyPayload) (event : CatalogEvent) (userId : String)
    (rest : List String) (postCommit : List SendJob) (reply : Reply) : Stage :=
  if reply.fault.isSome then .failed
  else if enabledChannels event payload reply = [] then nextRecipient event rest postCommit
  else .committing event userId rest postCommit (prepared event payload reply)

def committed (s : Store) (payload : NotifyPayload) (userId : String) (p : Prepared) : Store :=
  if s.hasNotification userId payload.eventId then s
  else s.insert (p.notification payload userId) p.channelStatuses

def jobsFor (s : Store) (payload : NotifyPayload) (userId : String) (p : Prepared) :
    List SendJob :=
  if s.hasNotification userId payload.eventId then []
  else p.sendJobs payload userId s.deliveries.length

def commit (s : Store) (payload : NotifyPayload) (event : CatalogEvent) (userId : String)
    (rest : List String) (postCommit : List SendJob) (p : Prepared) (reply : Reply) :
    Store × Stage :=
  match reply.fault with
  | none => (committed s payload userId p,
      nextRecipient event rest (postCommit ++ jobsFor s payload userId p))
  | some fault => (if fault.took then committed s payload userId p else s, .failed)

def Store.add (s : Store) (job : SendJob) : Store := { s with jobs := s.jobs ++ [job] }

def send (s : Store) (job : SendJob) (rest : List SendJob) (reply : Reply) : Store × Stage :=
  match reply.fault with
  | none => (s.add job, enqueue rest)
  | some (.throws took) => (if took then s.add job else s, enqueue rest)
  | some (.crashes took) => (if took then s.add job else s, .failed)

def advance (s : Store) (c : Call) (reply : Reply) : Store × Stage :=
  match c.stage with
  | .called => (s, resolve c.payload reply)
  | .preparing event userId rest postCommit =>
    (s, prepare c.payload event userId rest postCommit reply)
  | .committing event userId rest postCommit p =>
    commit s c.payload event userId rest postCommit p reply
  | .sending job rest => send s job rest reply
  | .returned => (s, .returned)
  | .failed => (s, .failed)

def processNotification : System Store Call Reply Empty where
  step s c reply := ((advance s c reply).1, { c with stage := (advance s c reply).2 })
  env _ d := nomatch d
  reset _ d := nomatch d

def messages {ι : Type} (payloads : ι → NotifyPayload) : World ι Store Call :=
  ⟨{}, fun i => ⟨payloads i, .called⟩⟩

/-- A row that was committed as queued has a job in the queue of its channel. -/
def QueuedAreSent (s : Store) : Prop :=
  ∀ id d, s.deliveries[id]? = some d → d.status = .queued →
    ∃ job ∈ s.jobs, job.deliveryId = id ∧ job.channel = d.channel

def Store.rowsFor (s : Store) (userId eventId : String) (channel : NotificationChannel) :
    List Delivery :=
  s.deliveries.filter fun d => d.channel = channel &&
    s.notifications[d.notificationId]?.any fun n => n.userId = userId && n.eventId = eventId

def OneRowEach (s : Store) : Prop :=
  ∀ userId eventId channel, (s.rowsFor userId eventId channel).length ≤ 1

def Stage.underWay : Stage → Bool
  | .preparing .. => true
  | .committing .. => true
  | .sending .. => true
  | _ => false

def Stage.pending : Stage → List SendJob
  | .preparing _ _ _ postCommit => postCommit
  | .committing _ _ _ postCommit _ => postCommit
  | .sending job rest => job :: rest
  | _ => []

def Loses (s : Store) (c : Call) (reply : Reply) : Prop :=
  match c.stage, reply.fault with
  | .preparing _ _ _ postCommit, some _ => postCommit ≠ []
  | .committing _ userId _ postCommit p, some fault =>
    postCommit ≠ [] ∨ fault.took = true ∧ jobsFor s c.payload userId p ≠ []
  | .sending _ _, some (.throws took) => took = false
  | .sending _ rest, some (.crashes took) => took = false ∨ rest ≠ []
  | _, _ => False

/-- A step that loses nothing. -/
def Keeps {ι : Type} (w : World ι Store Call) : Event ι Reply Empty → Prop
  | .act i reply => ¬Loses w.shared (w.task i) reply
  | .env d => nomatch d

end Rovenue.Notifications
