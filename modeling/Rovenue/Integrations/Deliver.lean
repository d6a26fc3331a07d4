import Mathlib

/-! One attempt at an integration delivery, and the attempts a queue makes of one job. -/

namespace Rovenue.Integrations

inductive DeliveryStatus where
  | pending | succeeded | failed | skipped | deadLetter
  deriving DecidableEq, Repr

def DeliveryStatus.terminal : DeliveryStatus → Bool
  | .succeeded | .skipped | .deadLetter => true
  | .pending | .failed => false

structure IntegrationDelivery where
  id : ℕ
  connectionId : String
  projectId : String
  providerId : String
  outboxEventId : String
  eventKey : String
  providerEvent : Option String := none
  status : DeliveryStatus
  attempt : ℕ
  skipReason : Option String := none
  httpStatus : Option ℕ := none
  responseBody : Option String := none
  errorMessage : Option String := none
  deriving DecidableEq

structure IntegrationConnection where
  id : String
  projectId : String
  providerId : String
  isEnabled : Bool
  deriving DecidableEq

structure IntegrationsDeliverJob where
  outboxEventId : String
  eventType : String

structure ProviderPayload where
  eventKey : String
  providerEvent : String
  body : String

inductive MapResult where
  | skip (reason : String)
  | payload (payload : ProviderPayload)

structure Failure where
  retriable : Bool
  httpStatus : Option ℕ
  responseBody : Option String
  errorMessage : Option String

inductive DeliverResult where
  | ok (httpStatus : Option ℕ) (responseBody : Option String)
  | failed (failure : Failure)

/-- What the provider does in one attempt: the event it makes of the envelope, and how `deliver`
resolves or what it throws. -/
structure Behaviour where
  mapEvent : MapResult
  deliver : ProviderPayload → Except String DeliverResult

inductive Notice where
  | live (status : DeliveryStatus)
  | audit (errorMessage : Option String)
  | sentry (errorMessage : Option String)
  deriving DecidableEq

structure DeliveryLog where
  rows : List IntegrationDelivery := []
  -- the ids below it are taken
  nextId : ℕ := 0
  -- the attempts that called `provider.deliver`
  delivered : List ℕ := []
  notices : List Notice := []

namespace DeliveryLog
variable (log : DeliveryLog)

def insertRow (row : ℕ → IntegrationDelivery) : DeliveryLog :=
  { log with rows := log.rows ++ [row log.nextId], nextId := log.nextId + 1 }

def updateDeliveryStatus (id : ℕ) (set : IntegrationDelivery → IntegrationDelivery) : DeliveryLog :=
  { log with rows := log.rows.map fun row => if row.id = id then set row else row }

def callProvider (attempt : ℕ) : DeliveryLog := { log with delivered := log.delivered ++ [attempt] }

def notify (notices : List Notice) : DeliveryLog := { log with notices := log.notices ++ notices }

end DeliveryLog

inductive DeliverOutcome where
  | connectionDisabled | skipped | succeeded | failed | deadLetter
  deriving DecidableEq

structure DeliverStepResult where
  outcome : DeliverOutcome
  deliveryId : Option ℕ := none
  deriving DecidableEq

section Step
variable (job : IntegrationsDeliverJob) (conn : IntegrationConnection) (maxAttempts attempt : ℕ)

def deliveryRow (eventKey : String) (status : DeliveryStatus) (id : ℕ) : IntegrationDelivery where
  id := id
  connectionId := conn.id
  projectId := conn.projectId
  providerId := conn.providerId
  outboxEventId := job.outboxEventId
  eventKey := eventKey
  status := status
  attempt := attempt

def failedRow (status : DeliveryStatus) (payload : ProviderPayload) (failure : Failure)
    (row : IntegrationDelivery) : IntegrationDelivery :=
  { row with
    status := status
    httpStatus := failure.httpStatus
    responseBody := failure.responseBody
    errorMessage := failure.errorMessage
    providerEvent := some payload.providerEvent
    skipReason := none
    attempt := attempt }

def deadLetter (payload : ProviderPayload) (failure : Failure) (id : ℕ) (log : DeliveryLog) :
    Except String DeliverStepResult × DeliveryLog :=
  (.ok ⟨.deadLetter, some id⟩,
    (log.updateDeliveryStatus id (failedRow attempt .deadLetter payload failure)).notify
      [.live .deadLetter, .audit failure.errorMessage, .sentry failure.errorMessage])

def httpError (failure : Failure) : String :=
  failure.errorMessage.getD ("HTTP " ++ (failure.httpStatus.map toString).getD "undefined")

def afterPending (payload : ProviderPayload) (deliver : ProviderPayload → Except String DeliverResult)
    (id : ℕ) (log : DeliveryLog) : Except String DeliverStepResult × DeliveryLog :=
  let log := log.callProvider attempt
  match deliver payload with
  | .error thrown => (.error thrown, log)
  | .ok (.ok httpStatus responseBody) =>
    (.ok ⟨.succeeded, some id⟩,
      (log.updateDeliveryStatus id fun row =>
        { row with
          status := .succeeded
          httpStatus := httpStatus
          responseBody := responseBody
          errorMessage := none
          providerEvent := some payload.providerEvent
          skipReason := none
          attempt := attempt }).notify [.live .succeeded])
  | .ok (.failed failure) =>
    if !failure.retriable then deadLetter attempt payload failure id log
    -- the queue counts an attempt only after it, so the last one is maxAttempts - 1
    else if maxAttempts - 1 ≤ attempt then deadLetter attempt payload failure id log
    else
      (.error (httpError failure),
        log.updateDeliveryStatus id (failedRow attempt .failed payload failure))

def runDeliverStep (behaviour : Behaviour) (log : DeliveryLog) :
    Except String DeliverStepResult × DeliveryLog :=
  if !conn.isEnabled then (.ok ⟨.connectionDisabled, none⟩, log)
  else
    match behaviour.mapEvent with
    | .skip reason =>
      (.ok ⟨.skipped, some log.nextId⟩, log.insertRow fun id =>
        { deliveryRow job conn attempt job.eventType .skipped id with skipReason := some reason })
    | .payload payload =>
      if maxAttempts ≤ attempt then
        (.ok ⟨.deadLetter, some log.nextId⟩, log.insertRow fun id =>
          { deliveryRow job conn attempt payload.eventKey .deadLetter id with
            providerEvent := some payload.providerEvent
            errorMessage := some "max attempts exhausted" })
      else
        afterPending maxAttempts attempt payload behaviour.deliver log.nextId
          (log.insertRow fun id =>
            { deliveryRow job conn attempt payload.eventKey .pending id with
              providerEvent := some payload.providerEvent })

end Step

structure Attempt where
  number : ℕ
  returned : Bool
  calledProvider : Bool

def calledIn (log next : DeliveryLog) : Bool := next.delivered.length ≠ log.delivered.length

section Queue
variable (job : IntegrationsDeliverJob) (conn : IntegrationConnection) (maxAttempts : ℕ)
  (behaviours : ℕ → Behaviour)

def runAttempts (attempt : ℕ) (log : DeliveryLog) : ℕ → List Attempt × DeliveryLog
  -- the attempts from `attempt` on: the queue makes another one after each that throws, while there
  -- are `left` of them
  | 0 => ([], log)
  | left + 1 =>
    let (result, next) := runDeliverStep job conn maxAttempts attempt (behaviours attempt) log
    let made : Attempt := ⟨attempt, result.isOk, calledIn log next⟩
    if result.isOk then ([made], next)
    else
      let (later, last) := runAttempts (attempt + 1) next left
      (made :: later, last)

def runJob (log : DeliveryLog) : List Attempt × DeliveryLog :=
  runAttempts job conn maxAttempts behaviours 0 log maxAttempts

end Queue
end Rovenue.Integrations
