import Mathlib.Data.List.AList
import PulsarVerifier.Store.Record

/-!
# Operations of the proof store

The store keeps one `Arc ProofRecord` per verification identifier in a Moka cache.  Every operation is one
`and_try_compute_with` on the entry of its identifier, followed by the publication of its events; the model of an
operation returns its result, the events it publishes in order, and the store after the commit (`Commit`).  Each `Put`
allocates a fresh `Arc`.
-/

namespace PulsarVerifier

abbrev Records := AList fun _ : VerificationId => Arc ProofRecord

/-- Concurrent, process-local source of truth for proof content and lifecycle state; `nextAddr` is the address of the
next allocation. -/
structure ProofStore where
  records : Records
  maxProofBytes : Nat
  nextAddr : Nat

structure ProofStoreConfig where
  maxCapacityBytes : Nat
  maxProofBytes : Nat
  terminalRetention : Duration
  eventBuffer : Nat

def metadataWeightBytes : Nat := 256

def toU32? (value : Nat) : Option Nat := if value < 2 ^ 32 then some value else none

def checkedAddU32 (a b : Nat) : Option Nat := toU32? (a + b)

/-- The largest weight a record of this configuration can have, if it fits Moka's weights. -/
def maximumWeight (config : ProofStoreConfig) : Option Nat := do
  let weight ← toU32? config.maxProofBytes
  let weight ← checkedAddU32 weight metadataWeightBytes
  let failure ← toU32? (failureCodeMaxBytes + failureMessageMaxBytes)
  checkedAddU32 weight failure

namespace ProofStore

/-- Builds a bounded cache; `config.maxProofBytes` is a `usize` and always fits `u64`. -/
def new (config : ProofStoreConfig) : Except Error ProofStore :=
  if config.maxCapacityBytes = 0 ∨ config.maxProofBytes = 0 ∨ config.terminalRetention = 0 ∨
      config.eventBuffer = 0 then
    .error (.proofStore "capacity, proof limit, retention, and event buffer must be positive")
  else if config.maxProofBytes > config.maxCapacityBytes then
    .error (.proofStore "maximum proof size must not exceed cache capacity")
  else if (maximumWeight config).isNone then
    .error (.proofStore "maximum proof size exceeds Moka's per-entry weight range")
  else
    .ok { records := ∅, maxProofBytes := config.maxProofBytes, nextAddr := 0 }

end ProofStore

/-! ### The atomic update of one entry -/

/-- What a compute closure asks Moka to do with the entry. -/
inductive Op
  | nop
  | put (record : ProofRecord)

/-- What Moka did with the entry. -/
inductive CompResult
  | inserted (entry : Arc ProofRecord)
  | replacedWith (entry : Arc ProofRecord)
  | unchanged (entry : Arc ProofRecord)
  | stillNone

/-- The outcome of one store operation: its result, the events it publishes after the commit, and the store. -/
structure Commit (α : Type) where
  result : Except Error α
  events : List ProofStoreEvent
  store : ProofStore

def storeChange : CompResult → StoreChange
  | .inserted _ => .inserted
  | .replacedWith _ => .updated
  | .unchanged _ | .stillNone => .unchanged

def resultState : CompResult → Option VerificationState
  | .inserted entry | .replacedWith entry | .unchanged entry => entry.value.metadata.verification
  | .stillNone => none

def queueIfReady (record : ProofRecord) : ProofRecord :=
  if record.metadata.chainObservedAt.isSome && record.proof.isSome && record.metadata.verification.isNone then
    { record with metadata := { record.metadata with verification := some .queued } }
  else record

def VerificationOutcome.state : VerificationOutcome → VerificationState
  | .completed verdict => .completed verdict
  | .failed failure => .failed failure

namespace ProofStore

def get (store : ProofStore) (id : VerificationId) : Option (Arc ProofRecord) := store.records.lookup id

/-- The entry of `id` becomes a freshly allocated `record`. -/
def put (store : ProofStore) (id : VerificationId) (record : ProofRecord) : ProofStore :=
  { store with records := store.records.insert id ⟨store.nextAddr, record⟩, nextAddr := store.nextAddr + 1 }

/-- `Entry::and_try_compute_with`: the closure sees the current entry and its decision is applied atomically. -/
def andTryComputeWith (store : ProofStore) (id : VerificationId)
    (compute : Option (Arc ProofRecord) → Except Error Op) : Except Error CompResult × ProofStore :=
  match compute (store.get id) with
  | .error error => (.error error, store)
  | .ok .nop =>
    match store.get id with
    | none => (.ok .stillNone, store)
    | some entry => (.ok (.unchanged entry), store)
  | .ok (.put record) =>
    let entry : Arc ProofRecord := ⟨store.nextAddr, record⟩
    let result := if (store.get id).isSome then CompResult.replacedWith entry else .inserted entry
    (.ok result, store.put id record)

/-- The tail of every operation: an error of the closure is returned as it is, otherwise the result is `value` and
the operation publishes `events`. -/
def commitWith {α : Type} (computed : Except Error CompResult × ProofStore) (value : CompResult → α)
    (events : CompResult → List ProofStoreEvent) : Commit α :=
  match computed with
  | (.error error, store) => ⟨.error error, [], store⟩
  | (.ok result, store) => ⟨.ok (value result), events result, store⟩

/-- The events of an observation or storage operation: `stored`, then the queued state if the record became ready. -/
def changeEvents (id : VerificationId) (stored : ProofStoreEvent) (result : CompResult) : List ProofStoreEvent :=
  if storeChange result = .unchanged then []
  else stored :: if resultState result = some .queued then [.verificationChanged id .queued] else []

/-- The events of a lifecycle operation that moves a record to `state`. -/
def stateEvents (id : VerificationId) (state : VerificationState) (result : CompResult) : List ProofStoreEvent :=
  if storeChange result = .unchanged then [] else [.verificationChanged id state]

/-! ### Observation and content -/

def observeCompute (now : Instant) : Option (Arc ProofRecord) → Except Error Op
  | none => .ok (.put
      { metadata :=
          { chainObservedAt := some now, contentSource := none, contentStoredAt := none, verification := none,
            completedAt := none }
        proof := none })
  | some entry =>
    if entry.value.metadata.chainObservedAt.isSome then .ok .nop
    else .ok (.put (queueIfReady
      { entry.value with metadata := { entry.value.metadata with chainObservedAt := some now } }))

/-- Records a canonical chain identity without requiring proof content. -/
def observeChainVerification (store : ProofStore) (now : Instant) (id : VerificationId) : Commit StoreChange :=
  commitWith (store.andTryComputeWith id (observeCompute now)) storeChange
    (changeEvents id (.verificationObserved id))

/-- `record` with content added, as `insert_local_proof` and `attach_downloaded_proof` do it. -/
def withContent (record : ProofRecord) (proof : Proof) (source : ProofSource) (now : Instant) : ProofRecord :=
  queueIfReady
    { metadata := { record.metadata with contentSource := some source, contentStoredAt := some now }
      proof := some proof }

def insertCompute (now : Instant) (proof : Proof) (source : ProofSource) :
    Option (Arc ProofRecord) → Except Error Op
  | none => .ok (.put
      { metadata :=
          { chainObservedAt := none, contentSource := some source, contentStoredAt := some now,
            verification := none, completedAt := none }
        proof := some proof })
  | some entry =>
    if entry.value.proof.isSome then .ok .nop else .ok (.put (withContent entry.value proof source now))

def attachCompute (now : Instant) (expectedId : VerificationId) (proof : Proof) (source : ProofSource) :
    Option (Arc ProofRecord) → Except Error Op
  | none => .error (.proofNotObserved expectedId)
  | some entry =>
    if entry.value.metadata.chainObservedAt.isNone then .error (.proofNotObserved expectedId)
    else if entry.value.proof.isSome then .ok .nop
    else .ok (.put (withContent entry.value proof source now))

variable [Sha256]

def validateProof (store : ProofStore) (expectedId : VerificationId) (proof : Proof) : Except Error Unit :=
  if proof.encodedLen > store.maxProofBytes then
    .error (.proofTooLarge expectedId proof.encodedLen store.maxProofBytes)
  else if proof.verificationId ≠ expectedId then .error (.verificationIdMismatch expectedId)
  else .ok ()

/-- Stores a complete proof supplied by a trusted local boundary such as RPC. -/
def insertLocalProof (store : ProofStore) (now : Instant) (proof : Proof) (source : ProofSource) :
    Commit (VerificationId × StoreChange) :=
  let id := proof.verificationId
  match store.validateProof id proof with
  | .error error => ⟨.error error, [], store⟩
  | .ok () =>
    commitWith (store.andTryComputeWith id (insertCompute now proof source)) (fun result => (id, storeChange result))
      (changeEvents id (.proofStored id source))

/-- Attaches a requested peer response to an identity previously observed on-chain. -/
def attachDownloadedProof (store : ProofStore) (now : Instant) (expectedId : VerificationId) (proof : Proof)
    (peer : PeerId) : Commit StoreChange :=
  match store.validateProof expectedId proof with
  | .error error => ⟨.error error, [], store⟩
  | .ok () =>
    commitWith (store.andTryComputeWith expectedId (attachCompute now expectedId proof (.peer peer))) storeChange
      (changeEvents expectedId (.proofStored expectedId (.peer peer)))

omit [Sha256]

def getProof (store : ProofStore) (id : VerificationId) : Option Proof :=
  (store.get id).bind (·.value.proof)

/-! ### The verification lifecycle -/

def beginCompute : Option (Arc ProofRecord) → Except Error Op
  | none => .ok .nop
  | some entry =>
    if entry.value.metadata.chainObservedAt.isNone || entry.value.proof.isNone ||
        decide (entry.value.metadata.verification ≠ some .queued) then .ok .nop
    else .ok (.put { entry.value with metadata := { entry.value.metadata with verification := some .verifying } })

/-- Claims one ready proof for verification; concurrent claims are serialized per identifier. -/
def beginVerification (store : ProofStore) (id : VerificationId) : Commit (Option VerificationJob) :=
  match store.andTryComputeWith id beginCompute with
  | (.error error, store) => ⟨.error error, [], store⟩
  | (.ok (.replacedWith claim), store) =>
    match claim.value.proof with
    | none => ⟨.error (.invalidVerificationTransition id .claimedRecordHasNoProof), [], store⟩
    | some proof => ⟨.ok (some ⟨id, proof, claim⟩), [.verificationChanged id .verifying], store⟩
  | (.ok _, store) => ⟨.ok none, [], store⟩

/-- The completion time of a record that is moved to `next`. -/
def completedAt (now : Instant) : VerificationState → Option Instant
  | .completed _ => some now
  | _ => none

def finishCompute (now : Instant) (job : VerificationJob) (next : VerificationState) :
    Option (Arc ProofRecord) → Except Error Op
  | none => .ok .nop
  | some entry =>
    if !entry.ptrEq job.claim then .ok .nop
    else if entry.value.metadata.verification ≠ some .verifying then
      .error (.invalidVerificationTransition job.verificationId
        (.expectedVerifying entry.value.metadata.verification))
    else .ok (.put
      { entry.value with
        metadata := { entry.value.metadata with verification := some next, completedAt := completedAt now next } })

/-- Commits a cryptographic verdict or an operational failure; a stale claim is ignored. -/
def finishVerification (store : ProofStore) (now : Instant) (job : VerificationJob) (outcome : VerificationOutcome) :
    Commit StoreChange :=
  commitWith (store.andTryComputeWith job.verificationId (finishCompute now job outcome.state)) storeChange
    (stateEvents job.verificationId outcome.state)

def retryCompute (id : VerificationId) : Option (Arc ProofRecord) → Except Error Op
  | none => .error (.invalidVerificationTransition id .recordDoesNotExist)
  | some entry =>
    let requeued : ProofRecord :=
      { entry.value with
        metadata := { entry.value.metadata with verification := some .queued, completedAt := none } }
    let refusal : Error :=
      .invalidVerificationTransition id (.expectedRetryableFailed entry.value.metadata.verification)
    match entry.value.metadata.verification with
    | some (.failed failure) => if failure.retryable then .ok (.put requeued) else .error refusal
    | some .queued => .ok .nop
    | _ => .error refusal

/-- Requeues a retryable operational failure without changing proof content. -/
def retryVerification (store : ProofStore) (id : VerificationId) : Commit StoreChange :=
  commitWith (store.andTryComputeWith id (retryCompute id)) storeChange (stateEvents id .queued)

/-- An eviction by Moka (expiry, size) or by `invalidate`: the record leaves the cache. -/
def evict (store : ProofStore) (id : VerificationId) : ProofStore :=
  { store with records := store.records.erase id }

/-! ### Snapshots and results -/

/-- The identifiers whose record satisfies `predicate`; Moka iterates in no fixed order. -/
def snapshot (store : ProofStore) (predicate : ProofRecord → Bool) : List VerificationId :=
  store.records.keys.filter fun id => (store.get id).any fun entry => predicate entry.value

def waitingForContent (record : ProofRecord) : Bool :=
  record.metadata.chainObservedAt.isSome && record.proof.isNone

def readyForVerification (record : ProofRecord) : Bool :=
  record.metadata.chainObservedAt.isSome && record.proof.isSome &&
    decide (record.metadata.verification = some .queued)

def recordsWaitingForContent (store : ProofStore) : List VerificationId := store.snapshot waitingForContent

def recordsReadyForVerification (store : ProofStore) : List VerificationId := store.snapshot readyForVerification

def locallyAvailableProofs (store : ProofStore) : List VerificationId := store.snapshot (·.proof.isSome)

end ProofStore

end PulsarVerifier
