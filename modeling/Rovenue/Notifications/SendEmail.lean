import Rovenue.Threads.System

/-! The `send-email` worker. A job claims its delivery row, checks the suppression list, calls the
mailer and writes what came of it; a throw is the end of the attempt. -/

namespace Rovenue.Notifications
open Threads

inductive NotificationDeliveryStatus where
  | queued | sending | sent | delivered | bounced | failed | suppressed
  deriving DecidableEq, Repr

def unclaimableSendStatuses : List NotificationDeliveryStatus :=
  [.sending, .sent, .delivered, .bounced, .suppressed]

structure DeliveryRow where
  status : NotificationDeliveryStatus
  providerMessageId : Option String := none
  attempts : ℕ := 0
  accepted : ℕ := 0

namespace DeliveryRow

def claimable (row : DeliveryRow) : Bool := row.status ∉ unclaimableSendStatuses

def claim (row : DeliveryRow) : DeliveryRow :=
  if row.claimable then { row with status := .sending, attempts := row.attempts + 1 } else row

def mark (row : DeliveryRow) (status : NotificationDeliveryStatus)
    (providerMessageId : Option String := none) : DeliveryRow :=
  { row with
    status := status
    providerMessageId := providerMessageId.or row.providerMessageId }

def accept (row : DeliveryRow) : DeliveryRow := { row with accepted := row.accepted + 1 }

def isOut (row : DeliveryRow) : Bool :=
  row.status = .sent || row.status = .delivered || row.status = .bounced

end DeliveryRow

inductive SendStage where
  | waiting
  | checking
  | suppressing
  | mailing
  | releasing
  | marking (messageId : String)
  -- attempts are exhausted, and the `failed` handler is to run
  | exhausted
  | finished
  deriving DecidableEq

/-- `attempts` is what the job was added with. -/
structure EmailJob where
  attempts : Option ℕ
  attemptsMade : ℕ := 0
  stage : SendStage := .waiting

inductive Await where
  | returns
  | throws (took : Bool)
  deriving DecidableEq

def Await.took : Await → Bool
  | .returns => true
  | .throws took => took

structure SendReply where
  await : Await := .returns
  suppressed : Bool := false
  messageId : String := ""

def EmailJob.lastAttempt (job : EmailJob) : Bool := job.attempts.getD 1 ≤ job.attemptsMade + 1

def EmailJob.enter (job : EmailJob) (stage : SendStage) : EmailJob := { job with stage := stage }

def EmailJob.thrown (job : EmailJob) : EmailJob :=
  -- the queue counts the attempt, and retries or calls the `failed` handler
  { job with
    attemptsMade := job.attemptsMade + 1
    stage := if job.lastAttempt then .exhausted else .waiting }

def EmailJob.after (job : EmailJob) (await : Await) (stage : SendStage) : EmailJob :=
  match await with
  | .returns => job.enter stage
  | .throws _ => job.thrown

def sendEmail (row : DeliveryRow) (job : EmailJob) (reply : SendReply) : DeliveryRow × EmailJob :=
  let took := reply.await.took
  match job.stage with
  | .waiting =>
    (if took then row.claim else row,
      job.after reply.await (if row.claimable then .checking else .finished))
  | .checking =>
    (row, job.after reply.await (if reply.suppressed then .suppressing else .mailing))
  | .suppressing => (if took then row.mark .suppressed else row, job.after reply.await .finished)
  | .mailing =>
    (if took then row.accept else row,
      match reply.await with
      | .returns => job.enter (.marking reply.messageId)
      | .throws _ => job.enter .releasing)
  -- the mailer's error is thrown on, or that of the write
  | .releasing => (if took then row.mark .failed else row, job.thrown)
  | .marking messageId =>
    (if took then row.mark .sent (some messageId) else row, job.after reply.await .finished)
  -- what the handler's own write throws is only logged
  | .exhausted => (if took then row.mark .failed else row, job.enter .finished)
  | .finished => (row, job)

inductive Feedback where
  | delivered | bounced
  deriving DecidableEq

def DeliveryRow.feedback (row : DeliveryRow) (report : Feedback) : DeliveryRow :=
  if row.providerMessageId.isSome then
    row.mark (match report with | .delivered => .delivered | .bounced => .bounced)
  else row

def sendEmailWorker : System DeliveryRow EmailJob SendReply Feedback where
  step := sendEmail
  env := DeliveryRow.feedback
  reset job _ := job

def deliveryJobs {ι : Type} (status : NotificationDeliveryStatus) (attempts : ι → Option ℕ) :
    World ι DeliveryRow EmailJob :=
  ⟨{ status := status }, fun i => { attempts := attempts i }⟩

def AllFinished {ι : Type} (w : World ι DeliveryRow EmailJob) : Prop :=
  (∃ i, (w.task i).stage = .finished) ∧ ∀ i, (w.task i).stage = .finished

def DeliveryRow.settled (row : DeliveryRow) : Bool :=
  -- `sent`, `suppressed`, `delivered`, `bounced` or `failed`
  row.status ≠ .queued && row.status ≠ .sending

structure SingleFlight {ι : Type} [DecidableEq ι] (w : World ι DeliveryRow EmailJob)
    (evs : List (Event ι SendReply Feedback)) : Prop where
  once : ∀ v ∈ sendEmailWorker.visited w evs, v.shared.accepted ≤ 1
  unstuck : ∀ v ∈ sendEmailWorker.visited w evs, AllFinished v → v.shared.settled
  stays : ∀ x ∈ sendEmailWorker.transitions w evs, x.1.shared.isOut →
    (sendEmailWorker.next x.1 x.2).shared.isOut

def SendStage.inFlight : SendStage → Bool
  | .checking | .suppressing | .mailing | .releasing | .marking _ => true
  | _ => false

def HeldByOther {ι : Type} (w : World ι DeliveryRow EmailJob) (i : ι) : Prop :=
  ∃ j ≠ i, (w.task j).stage.inFlight

/-- What a throw may leave behind at each await. On the last attempt the `failed` handler comes
next and writes the row. -/
def Harmless {ι : Type} (w : World ι DeliveryRow EmailJob) (i : ι) (took : Bool) : Prop :=
  match (w.task i).stage with
  | .waiting => took = true → w.shared.claimable = true → (w.task i).lastAttempt
  | .checking => (w.task i).lastAttempt
  | .suppressing | .releasing => took = false → (w.task i).lastAttempt
  | .mailing => took = false
  | .marking _ => took = true
  | .exhausted => took = false → w.shared.settled ∨ HeldByOther w i
  | .finished => True

def HandlerKeepsOff {ι : Type} (w : World ι DeliveryRow EmailJob) (i : ι) (reply : SendReply) :
    Prop :=
  -- the `failed` handler writes only a row that is not out and that no other job holds
  (w.task i).stage = .exhausted → reply.await.took = true →
    w.shared.isOut = false ∧ ¬HeldByOther w i

def SendKeeps {ι : Type} (w : World ι DeliveryRow EmailJob) : Event ι SendReply Feedback → Prop
  | .act i reply =>
    (∀ took, reply.await = .throws took → Harmless w i took) ∧ HandlerKeepsOff w i reply
  | .env _ => True

end Rovenue.Notifications
