import PulsarVerifier.Lib.Table
import PulsarVerifier.Store.Content
import PulsarVerifier.Submission.Validation
import PulsarVerifier.Text

/-!
# The submission service

Any number of `submit` calls run at once.  A call validates its submission and asks the receipt cache for the hash of
its transaction: it gets the cached receipt, or it waits for the call that is already relaying this transaction, or it
stores the proof and relays the transaction itself.  The receipt cache may drop a receipt at any time, and a call may
be dropped at any time.

The cache is asked before the store is.  A receipt outlives the content it was given for, so a successful submission
can leave the store without the proof.
-/

namespace PulsarVerifier

/-! ### The relay -/

/-- What the node answers to `broadcast_tx_sync`. -/
structure TxSyncResponse where
  hash : Bytes
  code : Nat
  codespace : String
  log : String
  deriving DecidableEq

/-- Immediate `CheckTx` receipt of the synchronous broadcast. -/
structure BroadcastReceipt where
  transactionHash : FixedBytes 32
  code : Nat
  codespace : String
  log : String
  deriving DecidableEq

/-- `broadcast_tx_sync` on the answer of the node, or on the failure to get one. -/
def broadcastTxSync (response : Except Error TxSyncResponse) : Except Error BroadcastReceipt := do
  let response ← response
  match FixedBytes.tryFrom 32 response.hash with
  | none => .error (.chain "transaction hash must contain 32 bytes")
  | some transactionHash =>
    pure ⟨transactionHash, response.code, boundedText response.codespace 64, boundedText response.log 512⟩

/-- The end of a relay: the receipt, or why there is none. -/
def relayResult (submission : ValidatedSubmission) (response : Except Error TxSyncResponse) :
    Except Error SubmissionReceipt := do
  let response ← broadcastTxSync response
  Except.rejectIf (response.transactionHash ≠ submission.transactionHash) .transactionHashMismatch
  Except.rejectIf (response.code ≠ 0)
    (.checkTxRejected (hexEncode submission.transactionHash.1) response.codespace response.code response.log)
  pure ⟨submission.verificationId, submission.transactionHash⟩

open Except in
theorem relayResult_eq_ok {v : ValidatedSubmission} {response : Except Error TxSyncResponse}
    {receipt : SubmissionReceipt}
    (h : relayResult v response = .ok receipt) : receipt = ⟨v.verificationId, v.transactionHash⟩ := by
  unfold relayResult at h
  simp only [bind_eq_ok_iff] at h
  obtain ⟨_, -, _, -, _, -, hreceipt⟩ := h
  cases hreceipt
  rfl

/-! ### Calls -/

abbrev CallId := Nat

/-- Where a call of `submit` stands. -/
inductive SubmitPhase
  /-- before the receipt cache is asked -/
  | validated (submission : ValidatedSubmission)
  /-- evaluates the receipt, before the store is written -/
  | storing (submission : ValidatedSubmission)
  /-- evaluates the receipt, and the transaction is broadcast -/
  | relaying (submission : ValidatedSubmission)
  /-- waits for the evaluation by another call -/
  | waiting (submission : ValidatedSubmission) (owner : CallId)
  | returning (result : Except Error SubmissionReceipt)
  deriving DecidableEq

structure SubmitCall where
  submission : ProofSubmission
  phase : SubmitPhase
  /-- the identifiers evicted from the store since the call started -/
  evicted : List VerificationId
  deriving DecidableEq

/-- The phase evaluates the receipt of this transaction. -/
def SubmitPhase.evaluates (hash : FixedBytes 32) : SubmitPhase → Bool
  | .storing v | .relaying v => decide (v.transactionHash = hash)
  | _ => false

def SubmitPhase.relays : SubmitPhase → Bool
  | .relaying _ => true
  | _ => false

/-- A call that waits for `owner` gets its result. -/
def SubmitPhase.settled (owner : CallId) (result : Except Error SubmissionReceipt) : SubmitPhase → SubmitPhase
  | .waiting v owner' => if owner' = owner then .returning result else .waiting v owner'
  | phase => phase

/-- A call that waits for `owner` starts again when that call is dropped. -/
def SubmitPhase.released (owner : CallId) : SubmitPhase → SubmitPhase
  | .waiting v owner' => if owner' = owner then .validated v else .waiting v owner'
  | phase => phase

structure SubmissionService where
  maxProofBytes : Nat
  maxTransactionBytes : Nat

/-- The phase in which a call starts. -/
def SubmissionService.admit [Sha256] [TransactionWire] (service : SubmissionService) (submission : ProofSubmission) :
    SubmitPhase :=
  match validateSubmission submission service.maxProofBytes service.maxTransactionBytes with
  | .ok v => .validated v
  | .error error => .returning (.error error)

/-- The store, the receipt cache and the calls that have not returned. -/
structure SubmissionSystem where
  stores : StoreSystem
  receipts : AList fun _ : FixedBytes 32 => SubmissionReceipt
  calls : AList fun _ : CallId => SubmitCall

inductive SubmissionAction
  | submit (call : CallId) (submission : ProofSubmission)
  | tryGetWith (call : CallId)
  | insertLocalProof (call : CallId) (now : Instant)
  | broadcastTxSync (call : CallId) (response : Except Error TxSyncResponse)
  /-- the call returns, or it is dropped before it does -/
  | leave (call : CallId)
  /-- the receipt cache drops a receipt: by its capacity or its time to live -/
  | forget (hash : FixedBytes 32)
  /-- an operation of another component on the store, or an eviction -/
  | store (action : StoreAction)

namespace SubmissionSystem

/-- The call that evaluates the receipt of this transaction. -/
def evaluation (s : SubmissionSystem) (hash : FixedBytes 32) : Option CallId :=
  s.calls.keys.find? fun call => (s.calls.lookup call).any (·.phase.evaluates hash)

def setPhase (s : SubmissionSystem) (call : CallId) (c : SubmitCall) (phase : SubmitPhase) : SubmissionSystem :=
  { s with calls := s.calls.insert call { c with phase } }

/-- The evaluation by `call` ends: the call and those that wait for it get the result. -/
def settle (s : SubmissionSystem) (call : CallId) (result : Except Error SubmissionReceipt) : SubmissionSystem :=
  let settled (call' : CallId) (c : SubmitCall) : SubmitCall :=
    { c with phase := if call' = call then .returning result else c.phase.settled call result }
  { s with calls := s.calls.retain fun call' c => some (settled call' c) }

/-- The call is gone, and those that wait for it start again. -/
def drop (s : SubmissionSystem) (call : CallId) : SubmissionSystem :=
  let released (c : SubmitCall) : SubmitCall := { c with phase := c.phase.released call }
  { s with calls := s.calls.retain fun call' c => if call' = call then none else some (released c) }

def cache (s : SubmissionSystem) (hash : FixedBytes 32) : Except Error SubmissionReceipt → SubmissionSystem
  | .ok receipt => { s with receipts := s.receipts.insert hash receipt }
  | .error _ => s

variable [Sha256] [TransactionWire] (service : SubmissionService)

omit [TransactionWire] in
/-- A step of another component on the store; every call remembers an eviction. -/
def operate (s : SubmissionSystem) (action : StoreAction) : SubmissionSystem :=
  let stores := (s.stores.perform action).1
  match action with
  | .evict id _ =>
    { s with stores, calls := s.calls.retain fun _ c => some { c with evicted := id :: c.evicted } }
  | _ => { s with stores }

/-- One step of a call, or of its environment; `none` if it cannot be taken. -/
def next (s : SubmissionSystem) : SubmissionAction → Option SubmissionSystem
  | .submit call submission =>
    match s.calls.lookup call with
    | some _ => none
    | none => some { s with calls := s.calls.insert call ⟨submission, service.admit submission, []⟩ }
  | .tryGetWith call =>
    match s.calls.lookup call with
    | some c =>
      match c.phase with
      | .validated v =>
        match s.receipts.lookup v.transactionHash with
        | some receipt => some (s.setPhase call c (.returning (.ok receipt)))
        | none =>
          match s.evaluation v.transactionHash with
          | some owner => some (s.setPhase call c (.waiting v owner))
          | none => some (s.setPhase call c (.storing v))
      | _ => none
    | none => none
  | .insertLocalProof call now =>
    match s.calls.lookup call with
    | some c =>
      match c.phase with
      | .storing v =>
        let s' := { s with stores := (s.stores.perform (.insertLocalProof now v.proof .rpc)).1 }
        match (s.stores.store.insertLocalProof now v.proof .rpc).result with
        | .ok _ => some (s'.setPhase call c (.relaying v))
        | .error error => some (s'.settle call (.error error))
      | _ => none
    | none => none
  | .broadcastTxSync call response =>
    match s.calls.lookup call with
    | some c =>
      match c.phase with
      | .relaying v =>
        let result := relayResult v response
        some ((s.cache v.transactionHash result).settle call result)
      | _ => none
    | none => none
  | .leave call =>
    match s.calls.lookup call with
    | some _ => some (s.drop call)
    | none => none
  | .forget hash => some { s with receipts := s.receipts.erase hash }
  | .store action => if s.stores.Enabled action then some (s.operate action) else none

def initial (store : ProofStore) : SubmissionSystem := ⟨⟨store, []⟩, ∅, ∅⟩

/-- All interleavings of `submit` calls, of the receipt cache and of the store, starting from `store`. -/
def lts (store : ProofStore) : Lts SubmissionSystem SubmissionAction := Lts.ofNext (· = initial store) (next service)

def phase (s : SubmissionSystem) (call : CallId) : Option SubmitPhase := (s.calls.lookup call).map (·.phase)

end SubmissionSystem

/-! ### What a call knows -/

section

variable [Sha256] [TransactionWire]

/-- The message of the transaction binds proofs with this identifier. -/
def Registers (txRaw : Bytes) (id : VerificationId) : Prop :=
  ∃ message proof, validateTransaction txRaw = .ok message ∧ message.Binds proof ∧ proof.verificationId = id

theorem Registers.unique {txRaw : Bytes} {id id' : VerificationId} (h : Registers txRaw id) (h' : Registers txRaw id') :
    id = id' := by
  obtain ⟨message, proof, hmessage, hbinds, rfl⟩ := h
  obtain ⟨message', proof', hmessage', hbinds', rfl⟩ := h'
  cases hmessage.symm.trans hmessage'
  exact hbinds.verificationId_eq hbinds'

/-- A transaction with this hash registers the identifier; its bytes are among `inputs`. -/
def Receipted (inputs : Set Bytes) (hash : FixedBytes 32) (id : VerificationId) : Prop :=
  ∃ txRaw ∈ inputs, hash = Sha256.digest txRaw ∧ Registers txRaw id

theorem Receipted.unique {inputs : Set Bytes} (hinj : Set.InjOn Sha256.digest inputs) {hash : FixedBytes 32}
    {id id' : VerificationId} (h : Receipted inputs hash id) (h' : Receipted inputs hash id') : id = id' := by
  obtain ⟨txRaw, hmem, rfl, hid⟩ := h
  obtain ⟨txRaw', hmem', hhash, hid'⟩ := h'
  obtain rfl := hinj hmem hmem' hhash
  exact hid.unique hid'

/-- `v` is what the validation made of the submission, and everything hashed for it is among `inputs`. -/
structure ProofSubmission.Admitted (inputs : Set Bytes) (submission : ProofSubmission) (v : ValidatedSubmission) :
    Prop where
  proof : v.proof = submission.proof
  id : v.verificationId = submission.proof.verificationId
  receipted : Receipted inputs v.transactionHash v.verificationId
  hashed : ∀ bytes ∈ submission.proof.hashed, bytes ∈ inputs

theorem ProofSubmission.admitted_of_validate {inputs : Set Bytes} {submission : ProofSubmission}
    {maxProofBytes maxTransactionBytes : Nat} {v : ValidatedSubmission}
    (h : validateSubmission submission maxProofBytes maxTransactionBytes = .ok v) (htx : submission.txRaw ∈ inputs)
    (hhashed : ∀ bytes ∈ submission.proof.hashed, bytes ∈ inputs) : submission.Admitted inputs v := by
  obtain ⟨-, -, ⟨message, hmessage, hbinds⟩, rfl⟩ := validateSubmission_eq_ok_iff.1 h
  exact ⟨rfl, rfl, ⟨_, htx, rfl, message, _, hmessage, hbinds, rfl⟩, hhashed⟩

/-- The store holds content for `id`, unless it was evicted since the call started. -/
def ProofStore.Holds (store : ProofStore) (evicted : List VerificationId) (id : VerificationId) : Prop :=
  id ∉ evicted → (store.getProof id).isSome

/-- What a call that has come to this phase knows about the store; `owners` are the phases of all calls. -/
def SubmitPhase.Ok (inputs : Set Bytes) (store : ProofStore) (owners : CallId → Option SubmitPhase)
    (submission : ProofSubmission) (evicted : List VerificationId) : SubmitPhase → Prop
  | .validated v | .storing v => submission.Admitted inputs v
  | .relaying v => submission.Admitted inputs v ∧ store.Holds evicted v.verificationId
  | .waiting v owner =>
    submission.Admitted inputs v ∧ ∃ phase, owners owner = some phase ∧ phase.evaluates v.transactionHash = true ∧
      (phase.relays = true → store.Holds evicted v.verificationId)
  | .returning (.ok receipt) =>
    ∃ v, submission.Admitted inputs v ∧ receipt.verificationId = v.verificationId ∧
      store.Holds evicted v.verificationId
  | .returning (.error _) => True

omit [Sha256] [TransactionWire] in
theorem SubmitPhase.settled_eq_self {phase : SubmitPhase} {owner : CallId} (h : ∀ v, phase ≠ .waiting v owner)
    (result : Except Error SubmissionReceipt) : phase.settled owner result = phase := by
  cases phase with
  | waiting v owner' =>
    have hne : owner' ≠ owner := by
      rintro rfl
      exact h v rfl
    exact if_neg hne
  | _ => rfl

omit [Sha256] [TransactionWire] in
theorem SubmitPhase.released_eq_self {phase : SubmitPhase} {owner : CallId} (h : ∀ v, phase ≠ .waiting v owner) :
    phase.released owner = phase := by
  cases phase with
  | waiting v owner' =>
    have hne : owner' ≠ owner := by
      rintro rfl
      exact h v rfl
    exact if_neg hne
  | _ => rfl

omit [Sha256] [TransactionWire] in
theorem SubmitPhase.ne_waiting_of_evaluates {phase : SubmitPhase} {hash : FixedBytes 32}
    (h : phase.evaluates hash = true) (v : ValidatedSubmission) (owner : CallId) : phase ≠ .waiting v owner := by
  rintro rfl
  cases h

theorem SubmitPhase.Ok.mono {inputs : Set Bytes} {store store' : ProofStore}
    {owners owners' : CallId → Option SubmitPhase}
    {submission : ProofSubmission} {evicted evicted' : List VerificationId} {phase : SubmitPhase}
    (h : phase.Ok inputs store owners submission evicted)
    (hstore : ∀ id, store.Holds evicted id → store'.Holds evicted' id)
    (howners : ∀ v owner p, phase = .waiting v owner → owners owner = some p → p.evaluates v.transactionHash = true →
      owners' owner = some p) :
    phase.Ok inputs store' owners' submission evicted' := by
  cases phase with
  | validated v | storing v => exact h
  | relaying v => exact ⟨h.1, hstore _ h.2⟩
  | waiting v owner =>
    obtain ⟨hadmitted, p, hp, hevaluates, hholds⟩ := h
    exact ⟨hadmitted, p, howners v owner p rfl hp hevaluates, hevaluates, fun hrelaying => hstore _ (hholds hrelaying)⟩
  | returning result =>
    cases result with
    | error error => trivial
    | ok receipt =>
      obtain ⟨v, hadmitted, hid, hholds⟩ := h
      exact ⟨v, hadmitted, hid, hstore _ hholds⟩

/-! ### The invariant -/

/-- The bytes that an action makes the node hash are among `inputs`. -/
def SubmissionAction.Hashes (inputs : Set Bytes) : SubmissionAction → Prop
  | .submit _ submission => submission.txRaw ∈ inputs ∧ ∀ bytes ∈ submission.proof.hashed, bytes ∈ inputs
  | .store action => ∀ proof ∈ action.content, ∀ bytes ∈ proof.hashed, bytes ∈ inputs
  | _ => True

namespace SubmissionSystem

/-- What a call that asks the receipt cache asks it for. -/
def asks (s : SubmissionSystem) (call : CallId) : Option ValidatedSubmission :=
  match s.phase call with
  | some (.validated v) => some v
  | _ => none

/-- The store was written for this transaction: it has a receipt, or it is being broadcast. -/
def written (s : SubmissionSystem) (hash : FixedBytes 32) : Bool :=
  (s.receipts.lookup hash).isSome || (s.evaluation hash).any fun owner => (s.phase owner).any SubmitPhase.relays

/-- A call that asks for a transaction for which the store was written finds the content there. -/
def Served (s : SubmissionSystem) : SubmissionAction → Prop
  | .tryGetWith call => ∀ v ∈ s.asks call, s.written v.transactionHash = true →
      (s.stores.store.getProof v.verificationId).isSome
  | _ => True

/-- The receipts, the calls and the content of the store agree. -/
structure Sound (inputs : Set Bytes) (s : SubmissionSystem) : Prop where
  wellFormed : s.stores.store.WellFormed
  hashed : ∀ id proof, s.stores.store.getProof id = some proof → ∀ bytes ∈ proof.hashed, bytes ∈ inputs
  receipts : ∀ hash receipt, s.receipts.lookup hash = some receipt → Receipted inputs hash receipt.verificationId
  calls : ∀ call c, s.calls.lookup call = some c →
    c.phase.Ok inputs s.stores.store s.phase c.submission c.evicted

variable {inputs : Set Bytes} {s : SubmissionSystem}

omit [TransactionWire] in
theorem holds_perform {a : StoreAction} (hevict : ∀ id cause, a ≠ .evict id cause) {evicted : List VerificationId}
    {id : VerificationId} (h : s.stores.store.Holds evicted id) : (s.stores.perform a).1.store.Holds evicted id :=
  fun hid => (s.stores.perform_content hevict id).2 (.inl (h hid))

theorem Sound.hashed_perform (hs : s.Sound inputs) {a : StoreAction}
    (ha : ∀ proof, a.content = some proof → ∀ bytes ∈ proof.hashed, bytes ∈ inputs) :
    ∀ id proof, (s.stores.perform a).1.store.getProof id = some proof → ∀ bytes ∈ proof.hashed, bytes ∈ inputs := by
  intro id proof h
  rcases StoreSystem.perform_getProof h with hold | hnew
  · exact hs.hashed id proof hold
  · exact ha proof hnew

theorem Sound.setPhase (hs : s.Sound inputs) {call : CallId} {c : SubmitCall} {phase : SubmitPhase}
    (hidle : ∀ p hash, s.phase call = some p → p.evaluates hash = false)
    (hphase : phase.Ok inputs s.stores.store s.phase c.submission c.evicted) :
    (s.setPhase call c phase).Sound inputs := by
  have howners : ∀ {owner p hash}, s.phase owner = some p → p.evaluates hash = true →
      (s.setPhase call c phase).phase owner = some p := by
    intro owner p hash hp hevaluates
    have hne : owner ≠ call := by
      rintro rfl
      rw [hidle p hash hp] at hevaluates
      cases hevaluates
    unfold SubmissionSystem.phase SubmissionSystem.setPhase
    rw [AList.lookup_insert_ne hne]
    exact hp
  refine ⟨hs.wellFormed, hs.hashed, hs.receipts, fun call' c' hc' => ?_⟩
  by_cases hcall : call' = call
  · subst hcall
    rw [SubmissionSystem.setPhase, AList.lookup_insert] at hc'
    cases hc'
    exact hphase.mono (fun _ h => h) fun _ _ _ _ => howners
  · rw [SubmissionSystem.setPhase, AList.lookup_insert_ne hcall] at hc'
    exact (hs.calls call' c' hc').mono (fun _ h => h) fun _ _ _ _ => howners

omit [Sha256] [TransactionWire] in
theorem phase_eq_some {call : CallId} {p : SubmitPhase} :
    s.phase call = some p ↔ ∃ c, s.calls.lookup call = some c ∧ c.phase = p :=
  Option.map_eq_some_iff

omit [Sha256] [TransactionWire] in
theorem lookup_settle {call call' : CallId} {result : Except Error SubmissionReceipt} {c : SubmitCall}
    (h : (s.settle call result).calls.lookup call' = some c) :
    ∃ old, s.calls.lookup call' = some old ∧ c.submission = old.submission ∧ c.evicted = old.evicted ∧
      c.phase = if call' = call then .returning result else old.phase.settled call result := by
  unfold settle at h
  rw [AList.lookup_retain] at h
  obtain ⟨old, hold, hc⟩ := Option.bind_eq_some_iff.1 h
  cases hc
  exact ⟨old, hold, rfl, rfl, rfl⟩

omit [Sha256] [TransactionWire] in
theorem phase_settle (call call' : CallId) (result : Except Error SubmissionReceipt) :
    (s.settle call result).phase call' =
      (s.phase call').map fun p => if call' = call then .returning result else p.settled call result := by
  unfold phase settle
  rw [AList.lookup_retain]
  cases s.calls.lookup call' <;> rfl

/-- The end of an evaluation: the call and those that wait for it get the result, a receipt only if the store was
written. -/
theorem Sound.settle (hinj : Set.InjOn Sha256.digest inputs) (hs : s.Sound inputs) {call : CallId} {p : SubmitPhase}
    (hcall : s.phase call = some p) {result : Except Error SubmissionReceipt}
    (hresult : (∃ error, result = .error error) ∨
      ∃ w receipt, p = .relaying w ∧ result = .ok receipt ∧ receipt.verificationId = w.verificationId) :
    (s.settle call result).Sound inputs := by
  obtain ⟨owner, howner, rfl⟩ := phase_eq_some.1 hcall
  have hok := hs.calls call owner howner
  refine ⟨hs.wellFormed, hs.hashed, hs.receipts, fun call' c hc => ?_⟩
  obtain ⟨old, hold, hsubmission, hevicted, hphase⟩ := lookup_settle hc
  rw [hsubmission, hevicted, hphase]
  have hold' := hs.calls call' old hold
  by_cases hcall' : call' = call
  · rw [if_pos hcall']
    subst hcall'
    cases howner.symm.trans hold
    rcases hresult with ⟨error, rfl⟩ | ⟨w, receipt, hrelaying, rfl, hid⟩
    · trivial
    · rw [hrelaying] at hok
      exact ⟨w, hok.1, hid, hok.2⟩
  · rw [if_neg hcall']
    by_cases hwaits : ∃ v, old.phase = .waiting v call
    · -- a call that waited for this one
      obtain ⟨v, hwaiting⟩ := hwaits
      rw [hwaiting] at hold' ⊢
      obtain ⟨hadmitted, p', hp', hevaluates, hholds⟩ := hold'
      cases hcall.symm.trans hp'
      simp only [SubmitPhase.settled, if_true]
      rcases hresult with ⟨error, rfl⟩ | ⟨w, receipt, hrelaying, rfl, hid⟩
      · trivial
      · rw [hrelaying] at hok hevaluates
        have hhash : w.transactionHash = v.transactionHash := of_decide_eq_true hevaluates
        have hids : w.verificationId = v.verificationId := by
          have hreceipted := hok.1.receipted
          rw [hhash] at hreceipted
          exact hreceipted.unique hinj hadmitted.receipted
        exact ⟨v, hadmitted, hid.trans hids, hholds (hrelaying ▸ rfl)⟩
    · have hother : ∀ v, old.phase ≠ .waiting v call := fun v hv => hwaits ⟨v, hv⟩
      rw [SubmitPhase.settled_eq_self hother]
      refine hold'.mono (fun _ h => h) fun v owner' p' hwaiting hp' hevaluates => ?_
      have hne : owner' ≠ call := by
        rintro rfl
        exact hother v hwaiting
      rw [phase_settle, hp', Option.map_some, if_neg hne,
        SubmitPhase.settled_eq_self fun v => p'.ne_waiting_of_evaluates hevaluates v call]

omit [Sha256] [TransactionWire] in
theorem phase_drop_of_ne {call call' : CallId} (hne : call' ≠ call) :
    (s.drop call).phase call' = (s.phase call').map (·.released call) := by
  unfold phase drop
  rw [AList.lookup_retain]
  cases s.calls.lookup call' with
  | none => rfl
  | some c => simp [hne]

theorem Sound.drop (hs : s.Sound inputs) (call : CallId) : (s.drop call).Sound inputs := by
  refine ⟨hs.wellFormed, hs.hashed, hs.receipts, fun call' c hc => ?_⟩
  unfold SubmissionSystem.drop at hc
  rw [AList.lookup_retain] at hc
  obtain ⟨old, hold, hc⟩ := Option.bind_eq_some_iff.1 hc
  split_ifs at hc with hcall'
  cases hc
  have hold' := hs.calls call' old hold
  dsimp only
  by_cases hwaits : ∃ v, old.phase = .waiting v call
  · obtain ⟨v, hwaiting⟩ := hwaits
    rw [hwaiting] at hold' ⊢
    simp only [SubmitPhase.released, if_true]
    exact hold'.1
  · have hother : ∀ v, old.phase ≠ .waiting v call := fun v hv => hwaits ⟨v, hv⟩
    rw [SubmitPhase.released_eq_self hother]
    refine hold'.mono (fun _ h => h) fun v owner p hwaiting hp hevaluates => ?_
    have hne : owner ≠ call := by
      rintro rfl
      exact hother v hwaiting
    rw [phase_drop_of_ne hne, hp, Option.map_some,
      SubmitPhase.released_eq_self fun v => p.ne_waiting_of_evaluates hevaluates v call]

theorem Sound.operate (hs : s.Sound inputs) {a : StoreAction}
    (ha : ∀ proof, a.content = some proof → ∀ bytes ∈ proof.hashed, bytes ∈ inputs) : (s.operate a).Sound inputs := by
  have hwellFormed := hs.wellFormed.perform a
  have hhashed := hs.hashed_perform ha
  by_cases hevict : ∃ id cause, a = .evict id cause
  · obtain ⟨id, cause, rfl⟩ := hevict
    have hphase : (s.operate (.evict id cause)).phase = s.phase := by
      funext call
      unfold phase SubmissionSystem.operate
      rw [AList.lookup_retain]
      cases s.calls.lookup call <;> rfl
    refine ⟨hwellFormed, hhashed, hs.receipts, fun call c hc => ?_⟩
    unfold SubmissionSystem.operate at hc
    rw [AList.lookup_retain] at hc
    obtain ⟨old, hold, hc⟩ := Option.bind_eq_some_iff.1 hc
    cases hc
    rw [hphase]
    refine (hs.calls call old hold).mono (fun id' hholds hid' => ?_) fun _ _ _ _ hp _ => hp
    rw [List.mem_cons, not_or] at hid'
    change ((s.stores.store.evict id).getProof id').isSome
    rw [ProofStore.getProof_evict_of_ne hid'.1]
    exact hholds hid'.2
  · have hevict' : ∀ id cause, a ≠ .evict id cause := fun id cause h => hevict ⟨id, cause, h⟩
    have hoperate : s.operate a = { s with stores := (s.stores.perform a).1 } := by
      cases a with
      | evict id cause => exact absurd rfl (hevict' id cause)
      | _ => rfl
    rw [hoperate]
    refine ⟨hwellFormed, hhashed, hs.receipts, fun call c hc => ?_⟩
    exact (hs.calls call c hc).mono (fun _ h => holds_perform hevict' h) fun _ _ _ _ hp _ => hp

/-- The store is written: the call and those that wait for it know that the content is there. -/
theorem Sound.relay (hinj : Set.InjOn Sha256.digest inputs) (hs : s.Sound inputs) {call : CallId} {c : SubmitCall}
    {v : ValidatedSubmission} (hcall : s.calls.lookup call = some c) (hphase : c.phase = .storing v)
    (hcontent : (s.stores.store.getProof v.verificationId).isSome) :
    (s.setPhase call c (.relaying v)).Sound inputs := by
  have hadmitted : c.submission.Admitted inputs v := by
    have hok := hs.calls call c hcall
    rwa [hphase] at hok
  have hother : ∀ owner, owner ≠ call → (s.setPhase call c (.relaying v)).phase owner = s.phase owner := by
    intro owner hne
    unfold phase SubmissionSystem.setPhase
    rw [AList.lookup_insert_ne hne]
  refine ⟨hs.wellFormed, hs.hashed, hs.receipts, fun call' c' hc' => ?_⟩
  unfold SubmissionSystem.setPhase at hc'
  by_cases hcall' : call' = call
  · subst hcall'
    rw [AList.lookup_insert] at hc'
    cases hc'
    exact ⟨hadmitted, fun _ => hcontent⟩
  · rw [AList.lookup_insert_ne hcall'] at hc'
    have hok := hs.calls call' c' hc'
    by_cases hwaits : ∃ w, c'.phase = .waiting w call
    · obtain ⟨w, hwaiting⟩ := hwaits
      rw [hwaiting] at hok ⊢
      obtain ⟨hadmitted', p, hp, hevaluates, -⟩ := hok
      obtain ⟨c'', hc'', rfl⟩ := phase_eq_some.1 hp
      cases hcall.symm.trans hc''
      rw [hphase] at hevaluates
      have hhash : v.transactionHash = w.transactionHash := of_decide_eq_true hevaluates
      have hids : v.verificationId = w.verificationId := by
        have hreceipted := hadmitted.receipted
        rw [hhash] at hreceipted
        exact hreceipted.unique hinj hadmitted'.receipted
      refine ⟨hadmitted', .relaying v, ?_, hevaluates, fun _ _ => hids ▸ hcontent⟩
      exact phase_eq_some.2 ⟨_, AList.lookup_insert _, rfl⟩
    · refine hok.mono (fun _ h => h) fun w owner p hwaiting hp hevaluates => ?_
      rw [hother owner, hp]
      rintro rfl
      exact hwaits ⟨w, hwaiting⟩

omit [Sha256] [TransactionWire] in
theorem evaluation_eq_some {hash : FixedBytes 32} {owner : CallId} (h : s.evaluation hash = some owner) :
    ∃ p, s.phase owner = some p ∧ p.evaluates hash = true := by
  unfold evaluation at h
  have hfound := List.find?_some h
  obtain ⟨c, hc, hevaluates⟩ := (Option.any_eq_true _ _).1 hfound
  exact ⟨c.phase, phase_eq_some.2 ⟨c, hc, rfl⟩, hevaluates⟩

theorem Sound.cache (hs : s.Sound inputs) {hash : FixedBytes 32} {result : Except Error SubmissionReceipt}
    (hresult : ∀ receipt, result = .ok receipt → Receipted inputs hash receipt.verificationId) :
    (s.cache hash result).Sound inputs := by
  cases result with
  | error error => exact hs
  | ok receipt =>
    refine ⟨hs.wellFormed, hs.hashed, fun hash' receipt' hreceipt' => ?_, hs.calls⟩
    unfold SubmissionSystem.cache at hreceipt'
    by_cases hhash : hash' = hash
    · subst hhash
      rw [AList.lookup_insert] at hreceipt'
      cases hreceipt'
      exact hresult receipt rfl
    · rw [AList.lookup_insert_ne hhash] at hreceipt'
      exact hs.receipts hash' receipt' hreceipt'

variable {service : SubmissionService} {t : SubmissionSystem}

theorem Sound.tryGetWith (hinj : Set.InjOn Sha256.digest inputs) (hs : s.Sound inputs) {call : CallId}
    (hserved : s.Served (.tryGetWith call)) (h : next service s (.tryGetWith call) = some t) : t.Sound inputs := by
  simp only [next] at h
  split at h
  · rename_i c hc
    split at h
    · rename_i v hphase
      have hcall : s.phase call = some (.validated v) := phase_eq_some.2 ⟨c, hc, hphase⟩
      have hasks : s.asks call = some v := by rw [asks, hcall]
      have hadmitted : c.submission.Admitted inputs v := by
        have hok := hs.calls call c hc
        rwa [hphase] at hok
      have hidle : ∀ p hash, s.phase call = some p → p.evaluates hash = false := by
        intro p hash hp
        cases hcall.symm.trans hp
        rfl
      split at h
      · rename_i receipt hreceipt
        cases h
        have hid := (hs.receipts _ _ hreceipt).unique hinj hadmitted.receipted
        have hwritten : s.written v.transactionHash = true := by simp [written, hreceipt]
        exact hs.setPhase hidle ⟨v, hadmitted, hid, fun _ => hserved v hasks hwritten⟩
      · split at h
        · rename_i owner howner
          cases h
          obtain ⟨p, hp, hevaluates⟩ := evaluation_eq_some howner
          refine hs.setPhase hidle ⟨hadmitted, p, hp, hevaluates, fun hrelays _ => hserved v hasks ?_⟩
          simp [written, howner, hp, hrelays]
        · cases h
          exact hs.setPhase hidle hadmitted
    · cases h
  · cases h

/-- Every step keeps the invariant if it serves calls only with content in the store. -/
theorem Sound.step (hinj : Set.InjOn Sha256.digest inputs) (hs : s.Sound inputs) {a : SubmissionAction}
    (h : next service s a = some t) (hserved : s.Served a) (hhashes : a.Hashes inputs) : t.Sound inputs := by
  cases a with
  | submit call submission =>
    simp only [next] at h
    split at h
    · cases h
    · rename_i hnone
      cases h
      have hidle : ∀ p hash, s.phase call = some p → p.evaluates hash = false := by
        intro p hash hp
        obtain ⟨c, hc, -⟩ := phase_eq_some.1 hp
        rw [hnone] at hc
        cases hc
      refine hs.setPhase (c := ⟨submission, service.admit submission, []⟩) hidle ?_
      unfold SubmissionService.admit
      split
      · rename_i v hv
        exact ProofSubmission.admitted_of_validate hv hhashes.1 hhashes.2
      · trivial
  | tryGetWith call => exact hs.tryGetWith hinj hserved h
  | insertLocalProof call now =>
    simp only [next] at h
    split at h
    · rename_i c hc
      split at h
      · rename_i v hphase
        have hadmitted : c.submission.Admitted inputs v := by
          have hok := hs.calls call c hc
          rwa [hphase] at hok
        -- the proof that is stored is the one of the call, whose hashes are known
        have hstored : (s.operate (.insertLocalProof now v.proof .rpc)).Sound inputs := by
          refine hs.operate fun proof hproof => ?_
          cases hproof
          rw [hadmitted.proof]
          exact hadmitted.hashed
        split at h
        · rename_i result hresult
          cases h
          refine hstored.relay hinj hc hphase ?_
          have hcontent := ProofStore.getProof_insertLocalProof hresult
          have hid : v.proof.verificationId = v.verificationId := by rw [hadmitted.proof, hadmitted.id]
          rwa [hid] at hcontent
        · cases h
          exact hstored.settle hinj (phase_eq_some.2 ⟨c, hc, rfl⟩) (.inl ⟨_, rfl⟩)
      · cases h
    · cases h
  | broadcastTxSync call response =>
    simp only [next] at h
    split at h
    · rename_i c hc
      split at h
      · rename_i v hphase
        cases h
        have hok := hs.calls call c hc
        rw [hphase] at hok
        -- a receipt is cached under the hash of its own transaction
        have hcached : (s.cache v.transactionHash (relayResult v response)).Sound inputs := by
          refine hs.cache fun receipt hreceipt => ?_
          rw [relayResult_eq_ok hreceipt]
          exact hok.1.receipted
        have hcall : (s.cache v.transactionHash (relayResult v response)).phase call = some (.relaying v) := by
          have hcall : s.phase call = some (.relaying v) := phase_eq_some.2 ⟨c, hc, hphase⟩
          cases relayResult v response <;> exact hcall
        refine hcached.settle hinj hcall ?_
        cases hresult : relayResult v response with
        | error error => exact .inl ⟨error, rfl⟩
        | ok receipt => exact .inr ⟨v, receipt, rfl, rfl, by rw [relayResult_eq_ok hresult]⟩
      · cases h
    · cases h
  | leave call =>
    simp only [next] at h
    split at h
    · cases h
      exact hs.drop call
    · cases h
  | forget hash =>
    cases h
    refine ⟨hs.wellFormed, hs.hashed, fun hash' receipt hreceipt => hs.receipts hash' receipt ?_, hs.calls⟩
    exact (AList.lookup_erase_some hreceipt).2
  | store action =>
    simp only [next] at h
    split_ifs at h
    cases h
    exact hs.operate hhashes

/-- A call that is about to return a receipt for an identifier that was not evicted since the call started has left its
proof in the store, in every run that serves calls only with content in the store. -/
theorem submitted_proof_stored {config : ProofStoreConfig} {store : ProofStore}
    (hnew : ProofStore.new config = .ok store) (hinj : Set.InjOn Sha256.digest inputs)
    (hs : ((lts service store).restrict fun s a => s.Served a ∧ a.Hashes inputs).Reachable s) {call : CallId}
    {c : SubmitCall} {receipt : SubmissionReceipt} (hcall : s.calls.lookup call = some c)
    (hreturns : c.phase = .returning (.ok receipt)) (hevicted : receipt.verificationId ∉ c.evicted) :
    s.stores.store.getProof receipt.verificationId = some c.submission.proof := by
  have hsound : s.Sound inputs := by
    refine hs.invariant (P := Sound inputs) ?_ ?_
    · rintro s rfl
      refine ⟨fun id e he => ?_, fun id proof hproof => ?_, fun hash receipt h => ?_, fun call c h => ?_⟩
      · rw [initial, ProofStore.new_get hnew] at he
        cases he
      · rw [initial, ProofStore.getProof, ProofStore.new_get hnew] at hproof
        cases hproof
      · cases h
      · cases h
    · rintro s a t - hsound ⟨hstep, hserved, hhashes⟩
      exact hsound.step hinj hstep hserved hhashes
  have hok := hsound.calls call c hcall
  rw [hreturns] at hok
  obtain ⟨v, hadmitted, hid, hholds⟩ := hok
  rw [hid] at hevicted ⊢
  obtain ⟨content, hcontent⟩ := Option.isSome_iff_exists.1 (hholds hevicted)
  obtain ⟨e, he, hproof⟩ := Option.bind_eq_some_iff.1 hcontent
  -- content with the same identifier is the same proof, as hashes do not collide
  have hcontentId : content.verificationId = v.verificationId :=
    ((hsound.wellFormed _ e he).content_id content hproof).1
  rw [hcontent, Proof.eq_of_verificationId_eq hinj (hsound.hashed _ _ hcontent) hadmitted.hashed
    (hcontentId.trans hadmitted.id)]

end SubmissionSystem

end

/-! ### A repeated submission -/

instance SubmissionSystem.decidableServed (s : SubmissionSystem) (a : SubmissionAction) : Decidable (s.Served a) :=
  match a with
  | .tryGetWith call => inferInstanceAs (Decidable (∀ v ∈ s.asks call, s.written v.transactionHash = true →
      (s.stores.store.getProof v.verificationId).isSome))
  | .submit _ _ | .insertLocalProof _ _ | .broadcastTxSync _ _ | .leave _ | .forget _ | .store _ => .isTrue trivial

namespace ProofSubmission

open Proto3

/-- A transaction that registers the proof. -/
def txRawOf [Sha256] (proof : Proof) : Bytes :=
  let submitProof := message
    [(1, .payload "pulsar1consumer".toUTF8.data.toList), (2, .payload (Sha256.digest proof.proof).1),
      (3, .number proof.proofType.toU32.toNat), (4, .payload (Sha256.digest proof.publicInputs).1),
      (5, .payload (Sha256.digest proof.verificationKey).1)]
  let any := message [(1, .payload msgSubmitProofTypeUrl.toUTF8.data.toList), (2, .payload submitProof)]
  message [(1, .payload (message [(1, .payload any)])), (2, .payload (message [(1, .payload [])])), (3, .payload [7])]

def small [Sha256] : ProofSubmission := ⟨.small, txRawOf .small⟩

end ProofSubmission

namespace SubmissionSystem

def smallService : SubmissionService := ⟨1024, 1024⟩

def accepted [Sha256] : Except Error TxSyncResponse :=
  .ok ⟨(Sha256.digest ProofSubmission.small.txRaw).1, 0, "", ""⟩

/-- All byte strings that the runs below hash. -/
def smallInputs [Sha256] : Set Bytes := {bytes | bytes ∈ ProofSubmission.small.txRaw :: Proof.small.hashed}

theorem smallInputs_injOn :
    letI := Sha256.standard
    Set.InjOn Sha256.digest smallInputs := by
  let _ := Sha256.standard
  have hlist : ∀ x ∈ ProofSubmission.small.txRaw :: Proof.small.hashed,
      ∀ y ∈ ProofSubmission.small.txRaw :: Proof.small.hashed, Sha256.digest x = Sha256.digest y → x = y := by
    decide +kernel
  exact fun x hx y hy => hlist x hx y hy

theorem hashes_submit_small [Sha256] (call : CallId) : (SubmissionAction.submit call .small).Hashes smallInputs :=
  ⟨List.mem_cons_self, fun _ hbytes => List.mem_cons_of_mem _ hbytes⟩

private def resubmission [Sha256] : List SubmissionAction :=
  [.submit 0 .small, .tryGetWith 0, .insertLocalProof 0 1, .submit 1 .small, .tryGetWith 1, .broadcastTxSync 0 accepted,
    .leave 0, .submit 2 .small, .tryGetWith 2]

/-- A call waits for the first one, a later call gets the cached receipt, and the proof is in the store. -/
theorem submitted_proof_stored_again :
    letI := Sha256.standard
    letI := TransactionWire.standard
    ∃ s c receipt, ((lts smallService .small).restrict fun s a => s.Served a ∧ a.Hashes smallInputs).Run
        (initial .small) resubmission s ∧
      s.calls.lookup 2 = some c ∧ c.phase = .returning (.ok receipt) ∧ receipt.verificationId ∉ c.evicted ∧
      s.stores.store.getProof receipt.verificationId = some Proof.small := by
  let _ := Sha256.standard
  let _ := TransactionWire.standard
  have hinj : Set.InjOn Sha256.digest smallInputs := smallInputs_injOn
  have hexec : (Lts.exec (Lts.guarded (next smallService) Served) (initial .small) resubmission).any (fun s =>
      (s.calls.lookup 2).any fun c => decide (c.submission = .small ∧ c.evicted = [] ∧
        c.phase = .returning (.ok ⟨Proof.small.verificationId, Sha256.digest ProofSubmission.small.txRaw⟩))) =
          true := by
    decide +kernel
  obtain ⟨s, hs, htest⟩ := (Option.any_eq_true _ _).1 hexec
  obtain ⟨c, hc, hcall⟩ := (Option.any_eq_true _ _).1 htest
  rw [decide_eq_true_eq] at hcall
  obtain ⟨hsubmission, hevicted, hreturns⟩ := hcall
  have hhashes : ∀ a ∈ resubmission, a.Hashes smallInputs := by
    intro a ha
    simp only [resubmission, List.mem_cons, List.not_mem_nil, or_false] at ha
    rcases ha with rfl | rfl | rfl | rfl | rfl | rfl | rfl | rfl | rfl <;>
      first | exact hashes_submit_small _ | trivial
  have hserved : ((lts smallService .small).restrict Served).Run (initial .small) resubmission s :=
    Lts.run_restrict_of_exec hs
  have hrun := hserved.restrict_and hhashes
  have hnot : Proof.small.verificationId ∉ c.evicted := by
    rw [hevicted]
    exact List.not_mem_nil
  have hstored := submitted_proof_stored (show ProofStore.new .small = .ok .small from rfl) hinj ⟨_, _, rfl, hrun⟩ hc
    hreturns hnot
  rw [hsubmission] at hstored
  exact ⟨s, c, _, hrun, hc, hreturns, hnot, hstored⟩

/-- A first call relays the transaction and returns; its proof is evicted, and a second call gets the cached receipt. -/
theorem submitted_proof_missing :
    letI := Sha256.standard
    letI := TransactionWire.standard
    let id := Proof.small.verificationId
    ∃ s c receipt, ProofStore.new .small = .ok .small ∧ (lts smallService .small).Run (initial .small)
        [.submit 0 .small, .tryGetWith 0, .insertLocalProof 0 1, .broadcastTxSync 0 accepted, .leave 0,
          .store (.evict id .size), .submit 1 .small, .tryGetWith 1] s ∧
      s.calls.lookup 1 = some c ∧ c.phase = .returning (.ok receipt) ∧ receipt.verificationId = id ∧ c.evicted = [] ∧
      s.stores.store.getProof id = none := by
  let _ := Sha256.standard
  let _ := TransactionWire.standard
  intro id
  have hexec : (Lts.exec (next smallService) (initial .small)
      [.submit 0 .small, .tryGetWith 0, .insertLocalProof 0 1, .broadcastTxSync 0 accepted, .leave 0,
        .store (.evict id .size), .submit 1 .small, .tryGetWith 1]).any (fun s =>
      (s.calls.lookup 1).any (fun c => decide (c.phase = .returning
        (.ok ⟨id, Sha256.digest ProofSubmission.small.txRaw⟩) ∧
        c.evicted = [])) && decide (s.stores.store.getProof id = none)) = true := by
    decide +kernel
  obtain ⟨s, hs, htest⟩ := (Option.any_eq_true _ _).1 hexec
  rw [Bool.and_eq_true, decide_eq_true_eq] at htest
  obtain ⟨c, hc, hcall⟩ := (Option.any_eq_true _ _).1 htest.1
  rw [decide_eq_true_eq] at hcall
  exact ⟨s, c, _, rfl, Lts.run_of_exec hs, hc, hcall.1, rfl, hcall.2, htest.2⟩

end SubmissionSystem

end PulsarVerifier
