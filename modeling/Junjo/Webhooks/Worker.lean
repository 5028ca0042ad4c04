import Junjo.Webhooks.Attempts

/-!
# The webhook worker

`startWebhookWorker` in one process. A tick claims due deliveries, groups them into one lane an
endpoint, and serves the lanes by some workers that take them from one queue (`runWorkerOnce`). It
settles when its workers are done or one of them throws, then releases the claims it holds as
unattempted. Code between two waits is one event.
-/

namespace Junjo.Webhooks

open WebhookTables (ClaimedDelivery)

structure WorkerOptions where
  batchSize : ℕ := webhookWorkerBatchSize
  concurrency : ℕ := webhookWorkerConcurrency
  leaseMs : ℕ := webhookClaimLeaseMs

/-- Where a worker of a tick is, with what follows in its lane. -/
inductive LaneWorker where
  | reading (id : ℕ) (rest : List ℕ)
  | sending (attempt : DeliveryAttempt) (rest : List ℕ)
  | committing (attempt : DeliveryAttempt) (res : Option WebhookFetchResult) (rest : List ℕ)
  | finished
  | threw
deriving DecidableEq

inductive TickPhase where
  | claiming
  | serving
  | releasing (ids : List ℕ)
  /-- The tick is over and released some claims. -/
  | ended (released : List ℕ)
deriving DecidableEq

/-- A tick, with the deliveries it has called `deliverOne` for. -/
structure Tick where
  phase : TickPhase := .claiming
  claimed : List ClaimedDelivery := []
  queue : List (List ℕ) := []
  workers : List LaneWorker := []
  unattempted : List ℕ := []
  attempted : List ℕ := []
deriving DecidableEq

namespace LaneWorker

/-- The delivery whose call of `deliverOne` is under way. -/
def attempting : LaneWorker → List ℕ
  | .reading id _ => [id]
  | .sending attempt _ => [attempt.deliveryId]
  | .committing attempt _ _ => [attempt.deliveryId]
  | .finished => []
  | .threw => []

def rest : LaneWorker → List ℕ
  | .reading _ rest => rest
  | .sending _ rest => rest
  | .committing _ _ rest => rest
  | .finished => []
  | .threw => []

/-- What is left of the lane. -/
def lane (w : LaneWorker) : List ℕ := w.attempting ++ w.rest

end LaneWorker

/-- The lanes of claimed deliveries, in the order of their first ones. -/
def lanesOf (claimed : List ClaimedDelivery) : Dict ℕ (List ℕ) :=
  claimed.foldl
    (fun lanes row => lanes.set row.endpointId ((lanes.get? row.endpointId).getD [] ++ [row.id]))
    Dict.empty

/-- What a worker comes to, with the queue and the unattempted claims that it leaves. -/
structure Taken where
  worker : LaneWorker
  queue : List (List ℕ)
  unattempted : List ℕ

/-- A worker goes on with the rest of its lane and then the queue; when the process stops, it gives
them up instead. -/
def takeLane (stopping : Bool) (unattempted : List ℕ) : List (List ℕ) → Taken
  | [] => ⟨.finished, [], unattempted⟩
  | [] :: queue => takeLane stopping unattempted queue
  | (id :: rest) :: queue =>
    if stopping then takeLane stopping (unattempted ++ (id :: rest)) queue
    else ⟨.reading id rest, queue, unattempted⟩

namespace Tick

/-- A worker goes on after a call of `deliverOne` that leaves some of its lane. -/
def advance (t : Tick) (stopping : Bool) (w : ℕ) (rest : List ℕ) : Tick :=
  let taken := takeLane stopping t.unattempted (rest :: t.queue)
  { t with
    workers := t.workers.set w taken.worker
    queue := taken.queue
    unattempted := taken.unattempted
    attempted := t.attempted ++ taken.worker.attempting }

/-- A worker goes on after an outcome: a retriable failure ends its lane. -/
def afterOutcome (t : Tick) (stopping : Bool) (w : ℕ) (rest : List ℕ) :
    DeliveryOutcome → Tick
  | .pending _ _ => { t with unattempted := t.unattempted ++ rest }.advance stopping w []
  | _ => t.advance stopping w rest

/-- Another worker of the tick starts. -/
def startWorker (t : Tick) (stopping : Bool) : Tick :=
  { t with workers := t.workers ++ [LaneWorker.finished] }.advance stopping t.workers.length []

def startWorkers (stopping : Bool) : ℕ → Tick → Tick
  | 0, t => t
  | n + 1, t => startWorkers stopping n (t.startWorker stopping)

/-- The start of a tick, when its claims are there. -/
def serve (t : Tick) (stopping : Bool) (concurrency : ℕ) (claimed : List ClaimedDelivery) : Tick :=
  let queue := (lanesOf claimed).entries.map Prod.snd
  startWorkers stopping (min (max 1 concurrency) queue.length)
    { t with phase := .serving, claimed := claimed, queue := queue }

def setWorker (t : Tick) (w : ℕ) (worker : LaneWorker) : Tick :=
  { t with workers := t.workers.set w worker }

/-- Whether `Promise.all` of the workers is settled. -/
def isSettled (t : Tick) : Bool :=
  decide (LaneWorker.threw ∈ t.workers) || t.workers.all fun w => w = LaneWorker.finished

end Tick

/-- The process, with the tables it works on, all its ticks and the one that it waits for. -/
structure WebhookWorker where
  db : WebhookTables := {}
  ticks : List Tick := []
  running : Option ℕ := none
  stopping : Bool := false
deriving DecidableEq

inductive WorkerEvent where
  | timer
  | claim (tick now : ℕ) (locked : List ℕ)
  | claimFails (tick : ℕ)
  | read (tick worker : ℕ)
  | respond (tick worker : ℕ) (res : Option WebhookFetchResult)
  | commit (tick worker nowDate : ℕ)
  /-- An error of the database in a call of `deliverOne`. -/
  | fail (tick worker : ℕ)
  | settle (tick : ℕ)
  | release (tick now : ℕ)
  | releaseFails (tick : ℕ)
  | stop
  | enqueue (id endpointId now : ℕ)
  | setDisabled (endpointId : ℕ) (disabledAt : Option ℕ)
  | deleteEndpoint (endpointId : ℕ)

namespace WebhookWorker

variable (opts : WorkerOptions)

def setTick (s : WebhookWorker) (i : ℕ) (t : Tick) : WebhookWorker :=
  { s with ticks := s.ticks.set i t }

/-- A step of one of the workers of a tick. -/
def workerStep (s : WebhookWorker) (i w : ℕ) (t : Tick) : LaneWorker → WorkerEvent →
    Option WebhookWorker
  | .reading id rest, .read _ _ =>
    match s.db.readDelivery id with
    | .inl outcome => some (s.setTick i (t.afterOutcome s.stopping w rest outcome))
    | .inr attempt => some (s.setTick i (t.setWorker w (.sending attempt rest)))
  | .sending attempt rest, .respond _ _ res =>
    some (s.setTick i (t.setWorker w (.committing attempt res rest)))
  | .committing attempt res rest, .commit _ _ nowDate =>
    (s.db.commitAttempt attempt res nowDate).map fun db =>
      { s with db := db }.setTick i
        (t.afterOutcome s.stopping w rest (attempt.outcome res nowDate))
  | .reading _ _, .fail _ _ => some (s.setTick i (t.setWorker w .threw))
  | .committing _ _ _, .fail _ _ => some (s.setTick i (t.setWorker w .threw))
  | _, _ => none

/-- A tick that is over makes room for the next. -/
def endTick (s : WebhookWorker) (i : ℕ) (t : Tick) (released : List ℕ) : WebhookWorker :=
  { s.setTick i { t with phase := .ended released } with running := none }

def onTick (s : WebhookWorker) (i : ℕ) (f : Tick → Option WebhookWorker) : Option WebhookWorker :=
  s.ticks[i]?.bind f

def onWorker (s : WebhookWorker) (i w : ℕ) (e : WorkerEvent) : Option WebhookWorker :=
  s.onTick i fun t => t.workers[w]?.bind fun worker => s.workerStep i w t worker e

/-- One event; `none` when it is not possible. -/
def next (s : WebhookWorker) : WorkerEvent → Option WebhookWorker
  | .timer =>
    if s.stopping || s.running.isSome then some s
    else some { s with ticks := s.ticks ++ [{}], running := some s.ticks.length }
  | .claim i now locked => s.onTick i fun t =>
    if t.phase = .claiming then
      let (db, claimed) := s.db.claimDueDeliveries now locked opts.batchSize opts.leaseMs
      some ({ s with db := db }.setTick i (t.serve s.stopping opts.concurrency claimed))
    else none
  | .claimFails i => s.onTick i fun t =>
    if t.phase = .claiming then some (s.endTick i t []) else none
  | .read i w => s.onWorker i w (.read i w)
  | .respond i w res => s.onWorker i w (.respond i w res)
  | .commit i w nowDate => s.onWorker i w (.commit i w nowDate)
  | .fail i w => s.onWorker i w (.fail i w)
  | .settle i => s.onTick i fun t =>
    if t.phase = .serving && t.isSettled then
      some (s.setTick i { t with phase := .releasing t.unattempted })
    else none
  | .release i now => s.onTick i fun t =>
    match t.phase with
    | .releasing ids => some ({ s with db := s.db.releaseClaims ids now }.endTick i t ids)
    | _ => none
  | .releaseFails i => s.onTick i fun t =>
    match t.phase with
    | .releasing (_ :: _) => some (s.endTick i t [])
    | _ => none
  | .stop => some { s with stopping := true }
  | .enqueue id endpointId now =>
    (s.db.enqueue id endpointId now).map fun db => { s with db := db }
  | .setDisabled endpointId disabledAt =>
    some { s with db := s.db.setDisabled endpointId disabledAt }
  | .deleteEndpoint endpointId => some { s with db := s.db.deleteEndpoint endpointId }

def run (s : WebhookWorker) (events : List WorkerEvent) : Option WebhookWorker :=
  runSteps (next opts) s events

end WebhookWorker

end Junjo.Webhooks
