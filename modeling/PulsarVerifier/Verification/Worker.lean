import Mathlib.Data.Finset.Basic
import PulsarVerifier.Lib.Broadcast
import PulsarVerifier.Store.System

/-!
# The verification worker

Execution of one job (`executeJob`, with its retries, timeouts and panics) and the worker that claims ready records,
runs at most `maxConcurrentJobs` jobs and commits their outcomes.

A verifier backend is code outside this development.  What a call of `verify` does is an input of the model: it ends
after some time with a result or a panic, or it never ends (`VerifyBehaviour`).
-/

namespace PulsarVerifier

structure VerificationConfig where
  maxConcurrentJobs : Nat
  jobTimeout : Duration
  maxRetries : Nat
  retryBackoff : Duration

/-- A handle to a backend object. -/
structure Verifier where
  handle : Nat
  deriving DecidableEq

/-- Static proof-type routing table assembled during application startup. -/
structure VerifierRegistry where
  verifiers : AList fun _ : ProofType => Verifier

namespace VerifierRegistry

def insertNew (registry : VerifierRegistry) (entry : ProofType × Verifier) : Except Error VerifierRegistry :=
  if entry.1 ∈ registry.verifiers then .error (.duplicateVerifier entry.1)
  else .ok ⟨registry.verifiers.insert entry.1 entry.2⟩

def new (verifiers : List (ProofType × Verifier)) : Except Error VerifierRegistry :=
  verifiers.foldlM insertNew ⟨∅⟩

def get (registry : VerifierRegistry) (proofType : ProofType) : Option Verifier := registry.verifiers.lookup proofType

end VerifierRegistry

/-! ### One job -/

/-- How a call of `verify` ends. -/
inductive VerifyEnd
  | returned (result : Except VerificationFailure VerificationVerdict)
  | panicked

/-- The time after which a call of `verify` ends, and how; `none` if it never does. -/
abbrev VerifyBehaviour := Option (Duration × VerifyEnd)

/-- A call of `verify` that has returned. -/
structure VerifyReturn where
  verifier : Verifier
  proof : Proof
  elapsed : Duration
  result : Except VerificationFailure VerificationVerdict

def attemptCleanupTimeout : Duration := 2 * 10 ^ 9

def unsupportedProofType : VerificationFailure :=
  { code := "unsupported_proof_type", message := "no verifier backend is registered for this proof type"
    retryable := false, code_ok := by decide, message_le := by decide }

def verifierPanicked : VerificationFailure :=
  { code := "verifier_panicked", message := "verifier backend panicked"
    retryable := false, code_ok := by decide, message_le := by decide }

def verificationTimeout : VerificationFailure :=
  { code := "verification_timeout", message := "verification attempt timed out"
    retryable := true, code_ok := by decide, message_le := by decide }

/-- One attempt; a result that arrives after the timeout, during the cleanup, is dropped. -/
def executeAttempt (attemptTimeout : Duration) : VerifyBehaviour → VerificationOutcome
  | none => .failed verificationTimeout
  | some (elapsed, ending) =>
    if elapsed ≤ attemptTimeout then
      match ending with
      | .returned (.ok verdict) => .completed verdict
      | .returned (.error error) => .failed error
      | .panicked => .failed verifierPanicked
    else .failed verificationTimeout

/-- The call of an attempt, if it returns before the attempt gives it up. -/
def attemptReturn (verifier : Verifier) (proof : Proof) (attemptTimeout : Duration) :
    VerifyBehaviour → List VerifyReturn
  | some (elapsed, .returned result) =>
    if elapsed ≤ attemptTimeout + attemptCleanupTimeout then [⟨verifier, proof, elapsed, result⟩] else []
  | _ => []

def VerificationOutcome.retryable : VerificationOutcome → Bool
  | .failed failure => failure.retryable
  | .completed _ => false

structure JobCompletion where
  job : VerificationJob
  outcome : VerificationOutcome

/-- Everything a job does: its completion or the message of its panic, the calls of `verify` that returned, and the
times it slept between attempts. -/
structure JobRun where
  completion : Except String JobCompletion
  returns : List VerifyReturn
  sleeps : List Duration

/-- `1_u32 << attempt`, which panics for shifts of 32 and more. -/
def backoffMultiplier (attempt : Nat) : Option Nat := if attempt < 32 then some (2 ^ attempt) else none

/-- The loop over the attempts from number `attempt` on, with so many left in the range `0..=max_retries`. -/
def executeAttempts (job : VerificationJob) (verifier : Verifier) (config : VerificationConfig)
    (behaviour : Nat → VerifyBehaviour) (attempt : Nat) : Nat → JobRun
  | 0 => ⟨.error "bounded verification loop always returns", [], []⟩
  | remaining + 1 =>
    let outcome := executeAttempt config.jobTimeout (behaviour attempt)
    let returned := attemptReturn verifier job.proof config.jobTimeout (behaviour attempt)
    if !outcome.retryable || attempt == config.maxRetries then ⟨.ok ⟨job, outcome⟩, returned, []⟩
    else
      match backoffMultiplier attempt with
      | none => ⟨.error "attempt to shift left with overflow", returned, []⟩
      | some multiplier =>
        let rest := executeAttempts job verifier config behaviour (attempt + 1) remaining
        ⟨rest.completion, returned ++ rest.returns,
          min (config.retryBackoff * multiplier) durationMax :: rest.sleeps⟩

def executeJob (job : VerificationJob) (verifier : Option Verifier) (config : VerificationConfig)
    (behaviour : Nat → VerifyBehaviour) : JobRun :=
  match verifier with
  | none => ⟨.ok ⟨job, .failed unsupportedProofType⟩, [], []⟩
  | some verifier => executeAttempts job verifier config behaviour 0 (config.maxRetries + 1)

/-! ### The worker -/

/-- A task of the `JoinSet`: still executing, or ended with a completion or a panic. -/
inductive JobTask
  | running (job : VerificationJob) (verifier : Option Verifier)
  | ended (completion : Except String JobCompletion)

inductive WorkerPhase
  /-- before the first reconciliation -/
  | reconciling
  /-- in `reconcile_ready_records`: the records of `remaining` have still to be visited, those of `ready` were found
  ready -/
  | snapshotting (remaining ready : List VerificationId)
  /-- at the top of the loop -/
  | top
  /-- in the loop of `start_ready_jobs` -/
  | starting
  /-- waiting in `select!` -/
  | selecting
  /-- in `commit_completion`, between `finish_verification` and `get`; `draining` tells which loop called it -/
  | requeueing (id : VerificationId) (draining : Bool)
  /-- in the loop after the stop -/
  | draining
  | returned (result : Except Error Unit)
  deriving DecidableEq

/-- Subscribes to ready store records and runs a bounded set of verifier jobs. -/
structure VerificationWorker where
  registry : VerifierRegistry
  config : VerificationConfig
  pending : List VerificationId
  pendingIds : Finset VerificationId
  activeIds : Finset VerificationId
  jobs : List JobTask
  phase : WorkerPhase

namespace VerificationWorker

def new (registry : VerifierRegistry) (config : VerificationConfig) : VerificationWorker :=
  { registry, config, pending := [], pendingIds := ∅, activeIds := ∅, jobs := [], phase := .reconciling }

def enqueue (w : VerificationWorker) (id : VerificationId) : VerificationWorker :=
  if id ∉ w.activeIds ∧ id ∉ w.pendingIds then
    { w with pendingIds := insert id w.pendingIds, pending := w.pending ++ [id] }
  else w

def removePending (w : VerificationWorker) (id : VerificationId) : VerificationWorker :=
  if id ∈ w.pendingIds then
    { w with pendingIds := w.pendingIds.erase id, pending := w.pending.filter (· ≠ id) }
  else w

/-- The start of `reconcile_ready_records`: Moka iterates over the store, which has the records of `keys`. -/
def reconcileReadyRecords (w : VerificationWorker) (keys : List VerificationId) : VerificationWorker :=
  { w with pending := [], pendingIds := ∅, phase := .snapshotting keys [] }

/-- The identities found ready, after the record of `id` was read. -/
def readyWith (ready : List VerificationId) (id : VerificationId) (record : Option (Arc ProofRecord)) :
    List VerificationId :=
  if record.any fun e => ProofStore.readyForVerification e.value then ready ++ [id] else ready

/-- The iteration comes to `id` and reads its record. -/
def visit (w : VerificationWorker) (id : VerificationId) (record : Option (Arc ProofRecord)) :
    Option VerificationWorker :=
  match w.phase with
  | .snapshotting remaining ready =>
    some { w with phase := .snapshotting (remaining.filter (· ≠ id)) (readyWith ready id record) }
  | _ => none

/-- The end of `reconcile_ready_records`: the records that were found ready are enqueued. -/
def collect (w : VerificationWorker) : Option VerificationWorker :=
  match w.phase with
  | .snapshotting [] ready => some { ready.foldl enqueue w with phase := .top }
  | _ => none

/-- The worker after a result of its subscription; after a lag it starts a snapshot of the store. -/
def handleStoreResult (w : VerificationWorker) (keys : List VerificationId) :
    Recv ProofStoreEvent → Except Error VerificationWorker
  | .event (.verificationChanged id .queued) => .ok (w.enqueue id)
  | .event (.proofEvicted id _) => .ok (w.removePending id)
  | .event _ => .ok w
  | .lagged => .ok (w.reconcileReadyRecords keys)
  | .closed => .error (.proofStore "proof store event channel closed")

/-- The phase after a step that may fail: the error ends `run`. -/
def returnError (w : VerificationWorker) (error : Error) : VerificationWorker :=
  { w with phase := .returned (.error error) }

/-- The worker starts to execute a job it has claimed. -/
def spawn (w : VerificationWorker) (job : VerificationJob) : VerificationWorker :=
  { w with
    activeIds := insert job.verificationId w.activeIds
    jobs := w.jobs ++ [.running job (w.registry.get job.proof.proofType)] }

/-- The store is told the outcome, `get` comes next. -/
def committed (w : VerificationWorker) (id : VerificationId) (draining : Bool) : VerificationWorker :=
  { w with phase := .requeueing id draining }

/-- The end of `commit_completion`: a record that is queued again is enqueued. -/
def requeue (w : VerificationWorker) (id : VerificationId) (draining : Bool) (record : Option (Arc ProofRecord)) :
    VerificationWorker :=
  let w := { w with phase := if draining then .draining else .top }
  if record.any fun e => e.value.metadata.verification = some .queued then w.enqueue id else w

end VerificationWorker

end PulsarVerifier
