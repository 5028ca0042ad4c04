import Junjo.Core.Dict
import Junjo.Core.Run

/-!
# Delivery attempts

`deliverOne` cut at its waits: the read of the row with its endpoint, the request, the transaction
that writes both. Claims and releases are statements of their own. Times are in milliseconds. Ids of
deliveries are never used again.
-/

namespace Junjo.Webhooks

def webhookBackoffMs : List ℕ :=
  [60000, 5 * 60000, 30 * 60000, 2 * 60 * 60000, 8 * 60 * 60000, 24 * 60 * 60000]

def webhookMaxAttempts : ℕ := 6

def webhookWorkerBatchSize : ℕ := 50

def webhookWorkerConcurrency : ℕ := 8

def webhookClaimLeaseMs : ℕ := 15 * 60000

def webhookAutoDisableThreshold : ℕ := 25

inductive DeliveryStatus where
  | pending
  | delivered
  | failed
deriving DecidableEq

structure WebhookDelivery where
  endpointId : ℕ
  status : DeliveryStatus := .pending
  attemptCount : ℕ := 0
  responseStatus : Option ℕ := none
  lastAttemptAt : Option ℕ := none
  nextAttemptAt : Option ℕ
deriving DecidableEq

structure WebhookEndpoint where
  disabledAt : Option ℕ := none
  consecutiveFailures : ℕ := 0
deriving DecidableEq

/-- The tables, with the endpoint of every delivery that was ever created. -/
structure WebhookTables where
  deliveries : Dict ℕ WebhookDelivery := Dict.empty
  endpoints : Dict ℕ WebhookEndpoint := Dict.empty
  created : Dict ℕ ℕ := Dict.empty
deriving DecidableEq

/-- An HTTP response; a request that fails without one has none. -/
structure WebhookFetchResult where
  ok : Bool
  status : ℕ
deriving DecidableEq

inductive DeliveryOutcome where
  | delivered (httpStatus : ℕ)
  | pending (httpStatus : Option ℕ) (nextAttemptAt : ℕ)
  | failed (httpStatus : Option ℕ)
  | missing
deriving DecidableEq

/-- What a call of `deliverOne` read before its request. -/
structure DeliveryAttempt where
  deliveryId : ℕ
  delivery : WebhookDelivery
  endpoint : WebhookEndpoint
deriving DecidableEq

/-- A response as `deliverOne` keeps it. -/
def httpOk (res : Option WebhookFetchResult) : Bool := (res.map WebhookFetchResult.ok).getD false

def httpStatus (res : Option WebhookFetchResult) : Option ℕ := res.map WebhookFetchResult.status

def backoffMs (nextAttempt : ℕ) : ℕ :=
  webhookBackoffMs.getD (min (nextAttempt - 1) (webhookBackoffMs.length - 1)) 0

def isPermanentFailure : Option ℕ → Bool
  | none => false
  | some status => if status = 408 ∨ status = 429 then false else 400 ≤ status && status < 500

namespace WebhookTables

/-- The start of `deliverOne`: the outcome of a row that is not pending, or the attempt. -/
def readDelivery (db : WebhookTables) (deliveryId : ℕ) : DeliveryOutcome ⊕ DeliveryAttempt :=
  match db.deliveries.get? deliveryId with
  | none => .inl .missing
  | some delivery =>
    match db.endpoints.get? delivery.endpointId with
    | none => .inl .missing
    | some endpoint =>
      match delivery.status with
      | .delivered => .inl (.delivered (delivery.responseStatus.getD 0))
      | .failed => .inl (.failed delivery.responseStatus)
      | .pending => .inr ⟨deliveryId, delivery, endpoint⟩

end WebhookTables

namespace DeliveryAttempt

variable (a : DeliveryAttempt) (res : Option WebhookFetchResult) (nowDate : ℕ)

def attemptCount : ℕ := a.delivery.attemptCount + 1

def nextStatus : DeliveryStatus :=
  if httpOk res then .delivered
  else if isPermanentFailure (httpStatus res) then .failed
  else if webhookMaxAttempts ≤ a.attemptCount then .failed
  else .pending

def nextAttemptAt : Option ℕ :=
  if a.nextStatus res = .pending then some (nowDate + backoffMs a.attemptCount) else none

def newConsecutive : ℕ := if httpOk res then 0 else a.endpoint.consecutiveFailures + 1

def shouldAutoDisable : Bool :=
  !httpOk res && a.endpoint.disabledAt.isNone &&
    webhookAutoDisableThreshold ≤ a.newConsecutive res

def updateDelivery (row : WebhookDelivery) : WebhookDelivery :=
  { row with
    status := a.nextStatus res
    attemptCount := a.attemptCount
    lastAttemptAt := some nowDate
    responseStatus := httpStatus res
    nextAttemptAt := a.nextAttemptAt res nowDate }

def updateEndpoint (row : WebhookEndpoint) : WebhookEndpoint where
  consecutiveFailures := a.newConsecutive res
  disabledAt := if a.shouldAutoDisable res then some nowDate else row.disabledAt

def outcome : DeliveryOutcome :=
  match a.nextStatus res with
  | .delivered => .delivered ((httpStatus res).getD 0)
  | .failed => .failed (httpStatus res)
  | .pending => .pending (httpStatus res) (nowDate + backoffMs a.attemptCount)

end DeliveryAttempt

namespace WebhookTables

/-- The transaction of `deliverOne`; `none` when one of the rows is gone. -/
def commitAttempt (db : WebhookTables) (a : DeliveryAttempt) (res : Option WebhookFetchResult)
    (nowDate : ℕ) : Option WebhookTables :=
  (db.deliveries.get? a.deliveryId).bind fun delivery =>
    (db.endpoints.get? a.delivery.endpointId).map fun endpoint =>
      { db with
        deliveries := db.deliveries.set a.deliveryId (a.updateDelivery res nowDate delivery)
        endpoints := db.endpoints.set a.delivery.endpointId
          (a.updateEndpoint res nowDate endpoint) }

structure ClaimedDelivery where
  id : ℕ
  endpointId : ℕ
deriving DecidableEq

/-- Whether a statement at `now` finds a row due. -/
def isDue (db : WebhookTables) (now : ℕ) (row : WebhookDelivery) : Bool :=
  row.status = .pending && (row.nextAttemptAt.map fun dueAt => decide (dueAt ≤ now)).getD false &&
    ((db.endpoints.get? row.endpointId).map fun e => e.disabledAt.isNone).getD false

def dueAt (p : ℕ × WebhookDelivery) : ℕ := p.2.nextAttemptAt.getD 0

/-- The order of the claims: oldest due first. -/
def dueOrder (p q : ℕ × WebhookDelivery) : Prop := dueAt p < dueAt q ∨ (dueAt p = dueAt q ∧ p.1 ≤ q.1)

instance decidableDueOrder : DecidableRel dueOrder := fun _ _ => instDecidableOr

/-- The due rows that no other transaction holds locked, oldest due first. -/
def dueDeliveries (db : WebhookTables) (now : ℕ) (locked : List ℕ) (batchSize : ℕ) :
    List (ℕ × WebhookDelivery) :=
  ((db.deliveries.entries.filter fun p => db.isDue now p.2 && !decide (p.1 ∈ locked)).insertionSort
    dueOrder).take batchSize

/-- Moves the next attempt of the pending rows among some. -/
def reschedule (db : WebhookTables) (ids : List ℕ) (at' : ℕ) : WebhookTables :=
  { db with
    deliveries := db.deliveries.mapEntries fun id row =>
      if id ∈ ids ∧ row.status = .pending then { row with nextAttemptAt := some at' } else row }

/-- `claimDueDeliveries`, one statement. -/
def claimDueDeliveries (db : WebhookTables) (now : ℕ) (locked : List ℕ) (batchSize leaseMs : ℕ) :
    WebhookTables × List ClaimedDelivery :=
  let due := db.dueDeliveries now locked batchSize
  (db.reschedule (due.map Prod.fst) (now + leaseMs), due.map fun p => ⟨p.1, p.2.endpointId⟩)

/-- `releaseClaims` -/
def releaseClaims (db : WebhookTables) (ids : List ℕ) (at' : ℕ) : WebhookTables :=
  db.reschedule ids at'

/-! ### Writes of the rest of the server -/

/-- `enqueueWebhookDeliveries`, for one of the endpoints it found enabled. -/
def enqueue (db : WebhookTables) (id endpointId now : ℕ) : Option WebhookTables :=
  if db.created.has id || !db.endpoints.has endpointId then none
  else some { db with
    deliveries := db.deliveries.set id { endpointId := endpointId, nextAttemptAt := some now }
    created := db.created.set id endpointId }

/-- A change of an endpoint's `disabledAt`. -/
def setDisabled (db : WebhookTables) (endpointId : ℕ) (disabledAt : Option ℕ) : WebhookTables :=
  match db.endpoints.get? endpointId with
  | none => db
  | some endpoint =>
    { db with endpoints := db.endpoints.set endpointId { endpoint with disabledAt := disabledAt } }

/-- The deletion of an endpoint, with its deliveries. -/
def deleteEndpoint (db : WebhookTables) (endpointId : ℕ) : WebhookTables :=
  { db with
    endpoints := db.endpoints.delete endpointId
    deliveries := db.deliveries.filter fun p => p.2.endpointId ≠ endpointId }

end WebhookTables

end Junjo.Webhooks
