import PulsarVerifier.Listener.Events
import PulsarVerifier.Submission.Service

/-!
# A submission and its committed request

The identifier of a proof is computed from three sources: from the content when it is stored, from the message of the
transaction when it is submitted, and from the event that the chain emits when the message is committed.  For every
submission that is accepted the three are one identifier, so the content and the request meet in one record.
-/

namespace PulsarVerifier

/-! ### What the chain commits -/

/-- A request as the chain commits it: the descriptor of its message, and its index in the block. -/
structure CommittedRequest where
  proofType : ProofType
  proofHash : FixedBytes 32
  publicInputsHash : FixedBytes 32
  verificationKeyHash : FixedBytes 32
  index : Nat
  index_lt : index < Chain.maxProofsPerBlock

namespace CommittedRequest

/-- The request is made of this message. -/
structure Commits (request : CommittedRequest) (message : MsgSubmitProof) : Prop where
  proofType : ProofType.tryFrom message.proofType = .ok request.proofType
  proofHash : message.proofHash = request.proofHash.1
  publicInputsHash : message.publicInputsHash = request.publicInputsHash.1
  verificationKeyHash : message.verificationKeyHash = request.verificationKeyHash.1

variable [Sha256]

/-- The identifier by the canonical formula. -/
def id (request : CommittedRequest) : VerificationId :=
  .fromComponentHashes request.proofType request.proofHash request.publicInputsHash request.verificationKeyHash

def record (request : CommittedRequest) : Chain.ProofRecord :=
  ⟨request.proofType.toU32.toNat, request.proofHash.1, request.publicInputsHash.1, request.verificationKeyHash.1,
    request.id.bytes.1⟩

/-- The attributes that describe the request in a block of this height. -/
def descriptor (request : CommittedRequest) (height : Nat) : Listener.Attributes :=
  Listener.announcementAttributes height request.index request.record

/-- The event of the request: no attribute is repeated, and the descriptor is among them, in any order. -/
structure Announced (height : Nat) (event : CommittedEvent) (request : CommittedRequest) : Prop where
  nodup : (event.attributes.map Prod.fst).Nodup
  descriptor : ∀ entry ∈ request.descriptor height, entry ∈ event.attributes

/-- The request of a message that binds a proof has the identifier of the proof. -/
theorem Commits.id_eq {request : CommittedRequest} {message : MsgSubmitProof} {proof : Proof}
    (h : request.Commits message) (hbinds : message.Binds proof) : request.id = proof.verificationId := by
  have htype : request.proofType = proof.proofType := Except.ok.inj (h.proofType.symm.trans hbinds.proofType)
  have hproof : request.proofHash = Sha256.digest proof.proof :=
    Subtype.ext (h.proofHash.symm.trans hbinds.proofHash)
  have hinputs : request.publicInputsHash = Sha256.digest proof.publicInputs :=
    Subtype.ext (h.publicInputsHash.symm.trans hbinds.publicInputsHash)
  have hkey : request.verificationKeyHash = Sha256.digest proof.verificationKey :=
    Subtype.ext (h.verificationKeyHash.symm.trans hbinds.verificationKeyHash)
  unfold id Proof.verificationId
  rw [htype, hproof, hinputs, hkey]

end CommittedRequest

/-- The events of the block that announce requests are those of `requests`, which have distinct indices. -/
structure CommittedBlock.Commits [Sha256] (block : CommittedBlock) (requests : List CommittedRequest) : Prop where
  height_pos : 1 ≤ block.height
  height_lt : block.height < 2 ^ 64
  indices : (requests.map (·.index)).Nodup
  events : List.Forall₂ (CommittedRequest.Announced block.height)
    (Listener.proofEvents block) requests

theorem CommittedBlock.commits_single [Sha256] (request : CommittedRequest) (height : Nat) (hpositive : 1 ≤ height)
    (hheight : height < 2 ^ 64) (validatorsHash : FixedBytes 32) :
    CommittedBlock.Commits ⟨height, validatorsHash, [⟨Listener.proofSubmittedEvent, request.descriptor height⟩]⟩
      [request] := by
  have hkeys : ((request.descriptor height).map Prod.fst).Nodup := by
    have hlist : (request.descriptor height).map Prod.fst =
        ["submission_height", "index_in_block", "proof_type", "proof_hash", "public_inputs_hash",
          "verification_key_hash", "verification_id"] := rfl
    rw [hlist]
    decide
  refine ⟨hpositive, hheight, List.nodup_singleton _, ?_⟩
  rw [Listener.proofEvents, List.filter_cons_of_pos (by simp)]
  exact .cons ⟨hkeys, fun _ hentry => hentry⟩ .nil

/-! ### How it is read -/

namespace Listener

variable [Sha256]

theorem announces_of_announced {event : CommittedEvent} {request : CommittedRequest} {height : Nat}
    (h : request.Announced height event) (hheight : height < 2 ^ 64) :
    Announces height event (request.index, request.id) := by
  have hindex : request.index < 256 := request.index_lt
  have htype : ProofType.tryFrom request.proofType.toU32.toNat = .ok request.proofType := ProofType.tryFrom_toU32 _
  have hrange : ∀ type : ProofType, -2 ^ 31 ≤ (type.toU32.toNat : Int) ∧ (type.toU32.toNat : Int) < 2 ^ 31 := by
    rintro (_ | _) <;> decide
  obtain ⟨hmin, hmax⟩ := hrange request.proofType
  exact ⟨request.record, carries_of_attributes hheight (by omega) hmin hmax h.nodup h.descriptor, hindex,
    _, _, _, _, htype, rfl, rfl, rfl, rfl, rfl⟩

theorem parseProofEvents_committed {block : CommittedBlock} {requests : List CommittedRequest}
    (h : block.Commits requests) : parseProofEvents block = .ok (requests.map (·.id)) := by
  refine (parseEvents_eq_ok_iff h.height_pos).2
    ⟨requests.map fun request => (request.index, request.id), ?_, ?_, ?_, ?_⟩
  · exact List.forall₂_map_right_iff.2
      (h.events.imp fun _ _ hannounced => announces_of_announced hannounced h.height_lt)
  · rw [List.map_map]
    exact h.indices
  · exact fun _ _ => List.not_mem_nil
  · rw [List.map_map]
    rfl

end Listener

/-! ### The message of a transaction -/

/-- The transaction holds this message and no other. -/
def TransactionWire.Holds [TransactionWire] (txRaw : Bytes) (message : MsgSubmitProof) : Prop :=
  ∃ tx body value, decodeTxRaw txRaw = .ok tx ∧ decodeTxBody tx.bodyBytes = .ok body ∧
    body.messages = [⟨msgSubmitProofTypeUrl, value⟩] ∧ decodeMsgSubmitProof value = .ok message

theorem decodeAs_eq_ok_iff {α : Type} {name : String} {decode : Bytes → Except String α} {bytes : Bytes} {value : α} :
    decodeAs name decode bytes = .ok value ↔ decode bytes = .ok value := by
  unfold decodeAs
  cases decode bytes <;> simp

open Except in
theorem validateTransaction_holds [TransactionWire] {txRaw : Bytes} {message : MsgSubmitProof}
    (h : validateTransaction txRaw = .ok message) : TransactionWire.Holds txRaw message := by
  unfold validateTransaction at h
  simp only [bind_eq_ok_iff, rejectIf_eq_ok_iff, exists_const, decodeAs_eq_ok_iff] at h
  obtain ⟨tx, htx, -, -, body, hbody, _, -, -, -, -, h⟩ := h
  split at h
  · rename_i any hmessages
    simp only [bind_eq_ok_iff, rejectIf_eq_ok_iff, exists_const, decodeAs_eq_ok_iff, ne_eq, not_not] at h
    obtain ⟨htype, message', hmessage, -, hresult⟩ := h
    cases hresult
    refine ⟨tx, body, any.value, htx, hbody, ?_, hmessage⟩
    rw [hmessages, ← htype]
  · cases h

/-! ### Receipts -/

/-- The validated submission that a call works on. -/
def SubmitPhase.pending : SubmitPhase → Option ValidatedSubmission
  | .validated v | .storing v | .relaying v | .waiting v _ => some v
  | .returning _ => none

theorem SubmitPhase.pending_settled {phase : SubmitPhase} {owner : CallId} {result : Except Error SubmissionReceipt}
    {v : ValidatedSubmission} (h : (phase.settled owner result).pending = some v) : phase.pending = some v := by
  cases phase with
  | waiting w owner' =>
    by_cases howner : owner' = owner
    · simp [settled, howner, pending] at h
    · simpa [settled, howner, pending] using h
  | _ => exact h

theorem SubmitPhase.pending_released (phase : SubmitPhase) (owner : CallId) :
    (phase.released owner).pending = phase.pending := by
  cases phase with
  | waiting w owner' => by_cases howner : owner' = owner <;> simp [released, howner, pending]
  | _ => rfl

namespace SubmissionSystem

/-- Every call of `t` that works on a submission was a call of `s` that works on it. -/
def Continues (s t : SubmissionSystem) : Prop :=
  ∀ call c v, t.calls.lookup call = some c → c.phase.pending = some v →
    ∃ old, s.calls.lookup call = some old ∧ old.submission = c.submission ∧ old.phase.pending = some v

variable {s t : SubmissionSystem}

theorem continues_setPhase {call : CallId} {c : SubmitCall} {phase : SubmitPhase} (hcall : s.calls.lookup call = some c)
    (hphase : ∀ v, phase.pending = some v → c.phase.pending = some v) : s.Continues (s.setPhase call c phase) := by
  intro call' c' v hc' hv
  unfold setPhase at hc'
  by_cases hsame : call' = call
  · subst hsame
    rw [AList.lookup_insert] at hc'
    cases hc'
    exact ⟨c, hcall, rfl, hphase v hv⟩
  · rw [AList.lookup_insert_ne hsame] at hc'
    exact ⟨c', hc', rfl, hv⟩

theorem continues_settle (call : CallId) (result : Except Error SubmissionReceipt) :
    s.Continues (s.settle call result) := by
  intro call' c v hc hv
  obtain ⟨old, hold, hsubmission, -, hphase⟩ := lookup_settle hc
  rw [hphase] at hv
  split at hv
  · cases hv
  · exact ⟨old, hold, hsubmission.symm, SubmitPhase.pending_settled hv⟩

theorem continues_drop (call : CallId) : s.Continues (s.drop call) := by
  intro call' c v hc hv
  unfold drop at hc
  rw [AList.lookup_retain] at hc
  obtain ⟨old, hold, hc⟩ := Option.bind_eq_some_iff.1 hc
  split_ifs at hc
  cases hc
  rw [SubmitPhase.pending_released] at hv
  exact ⟨old, hold, rfl, hv⟩

variable [Sha256]

theorem continues_operate (a : StoreAction) : s.Continues (s.operate a) := by
  intro call c v hc hv
  cases a with
  | evict id cause =>
    simp only [operate, AList.lookup_retain] at hc
    obtain ⟨old, hold, hc⟩ := Option.bind_eq_some_iff.1 hc
    cases hc
    exact ⟨old, hold, rfl, hv⟩
  | _ => exact ⟨c, hc, rfl, hv⟩

variable [TransactionWire] {service : SubmissionService}

/-- What a step can do to the calls and to the receipts: a call works on a submission because it did so before, or
because it has just been made with it; a receipt is cached for a transaction that a call works on. -/
structure Advances (service : SubmissionService) (s t : SubmissionSystem) (a : SubmissionAction) : Prop where
  calls : s.Continues t ∨ ∃ call submission, a = .submit call submission ∧
    t.calls = s.calls.insert call ⟨submission, service.admit submission, []⟩
  receipts : ∀ hash receipt, t.receipts.lookup hash = some receipt → s.receipts.lookup hash = some receipt ∨
    ∃ call c v, s.calls.lookup call = some c ∧ c.phase.pending = some v ∧ v.transactionHash = hash ∧
      v.verificationId = receipt.verificationId

theorem Continues.advances {a : SubmissionAction} (h : s.Continues t) (hreceipts : t.receipts = s.receipts) :
    Advances service s t a :=
  ⟨.inl h, fun _ _ hreceipt => .inl (hreceipts ▸ hreceipt)⟩

theorem advances_cache {a : SubmissionAction} {call : CallId} {c : SubmitCall} {v : ValidatedSubmission}
    (hcall : s.calls.lookup call = some c) (hphase : c.phase = .relaying v) (response : Except Error TxSyncResponse) :
    Advances service s ((s.cache v.transactionHash (relayResult v response)).settle call
      (relayResult v response)) a := by
  have hsettle := continues_settle (s := s.cache v.transactionHash (relayResult v response)) call
    (relayResult v response)
  cases hresult : relayResult v response with
  | error error =>
    rw [hresult] at hsettle
    exact Continues.advances hsettle rfl
  | ok receipt =>
    rw [hresult] at hsettle
    refine ⟨.inl hsettle, fun hash receipt' hreceipt => ?_⟩
    change (s.receipts.insert v.transactionHash receipt).lookup hash = some receipt' at hreceipt
    by_cases hhash : hash = v.transactionHash
    · rw [hhash, AList.lookup_insert] at hreceipt
      cases hreceipt
      refine .inr ⟨call, c, v, hcall, by rw [hphase]; rfl, hhash.symm, ?_⟩
      rw [relayResult_eq_ok hresult]
    · rw [AList.lookup_insert_ne hhash] at hreceipt
      exact .inl hreceipt

theorem next_advances {a : SubmissionAction} (h : next service s a = some t) : Advances service s t a := by
  cases a with
  | submit call submission =>
    simp only [next] at h
    split at h
    · cases h
    · cases h
      exact ⟨.inr ⟨call, submission, rfl, rfl⟩, fun _ _ hreceipt => .inl hreceipt⟩
  | tryGetWith call =>
    simp only [next] at h
    split at h
    · rename_i c hc
      split at h
      · rename_i v hphase
        have hpending : c.phase.pending = some v := by rw [hphase]; rfl
        have hset : ∀ phase : SubmitPhase, phase.pending = some v ∨ phase.pending = none →
            Advances service s (s.setPhase call c phase) (.tryGetWith call) := by
          intro phase hkeeps
          refine (continues_setPhase hc fun w hw => ?_).advances rfl
          rcases hkeeps with hsame | hnone
          · rw [hpending, ← hsame, hw]
          · rw [hnone] at hw
            cases hw
        split at h
        · cases h
          exact hset _ (.inr rfl)
        · split at h
          · cases h
            exact hset _ (.inl rfl)
          · cases h
            exact hset _ (.inl rfl)
      · cases h
    · cases h
  | insertLocalProof call now =>
    simp only [next] at h
    split at h
    · rename_i c hc
      split at h
      · rename_i v hphase
        split at h
        · cases h
          refine Continues.advances (continues_setPhase (s := { s with stores := _ }) hc fun w hw => ?_) rfl
          rw [hphase]
          exact hw
        · cases h
          exact Continues.advances (continues_settle (s := { s with stores := _ }) call _) rfl
      · cases h
    · cases h
  | broadcastTxSync call response =>
    simp only [next] at h
    split at h
    · rename_i c hc
      split at h
      · rename_i v hphase
        cases h
        exact advances_cache hc hphase response
      · cases h
    · cases h
  | leave call =>
    simp only [next] at h
    split at h
    · cases h
      exact (continues_drop call).advances rfl
    · cases h
  | forget hash =>
    cases h
    refine ⟨.inl fun call c v hc hv => ⟨c, hc, rfl, hv⟩, fun hash' receipt hreceipt => .inl ?_⟩
    exact (AList.lookup_erase_some hreceipt).2
  | store action =>
    simp only [next] at h
    split_ifs at h
    cases h
    refine (continues_operate action).advances ?_
    cases action <;> rfl

/-- Every call and every receipt stands for a transaction that registers its identifier. -/
structure Registered (inputs : Set Bytes) (s : SubmissionSystem) : Prop where
  calls : ∀ call c v, s.calls.lookup call = some c → c.phase.pending = some v →
    Receipted inputs v.transactionHash v.verificationId
  receipts : ∀ hash receipt, s.receipts.lookup hash = some receipt → Receipted inputs hash receipt.verificationId

variable {inputs : Set Bytes}

theorem Registered.step (hs : s.Registered inputs) {a : SubmissionAction} (h : next service s a = some t)
    (hhashes : a.Hashes inputs) : t.Registered inputs := by
  have hadvances := next_advances h
  constructor
  · intro call c v hc hv
    rcases hadvances.calls with hcontinues | ⟨call', submission, rfl, hcalls⟩
    · obtain ⟨old, hold, -, hpending⟩ := hcontinues call c v hc hv
      exact hs.calls call old v hold hpending
    · rw [hcalls] at hc
      by_cases hcall : call = call'
      · rw [hcall, AList.lookup_insert] at hc
        cases hc
        unfold SubmissionService.admit at hv
        split at hv
        · rename_i w hw
          cases hv
          exact (ProofSubmission.admitted_of_validate hw hhashes.1 hhashes.2).receipted
        · cases hv
      · rw [AList.lookup_insert_ne hcall] at hc
        exact hs.calls call c v hc hv
  · intro hash receipt hreceipt
    rcases hadvances.receipts hash receipt hreceipt with hold | ⟨call, c, v, hc, hv, rfl, hid⟩
    · exact hs.receipts hash receipt hold
    · rw [← hid]
      exact hs.calls call c v hc hv

theorem reachable_registered {store : ProofStore}
    (hs : ((lts service store).restrict fun _ a => a.Hashes inputs).Reachable s) : s.Registered inputs := by
  refine hs.invariant ?_ ?_
  · rintro s rfl
    exact ⟨fun call c v hc => (by cases hc), fun hash receipt hreceipt => (by cases hreceipt)⟩
  · rintro s a t - hs ⟨hstep, hhashes⟩
    exact hs.step hstep hhashes

end SubmissionSystem

/-! ### Three ways to one identifier -/

/-- The request that the chain makes of a message that binds a proof, at a given index. -/
def CommittedRequest.ofProof [Sha256] (proof : Proof) (index : Nat) (hindex : index < Chain.maxProofsPerBlock) :
    CommittedRequest :=
  ⟨proof.proofType, Sha256.digest proof.proof, Sha256.digest proof.publicInputs, Sha256.digest proof.verificationKey,
    index, hindex⟩

theorem MsgSubmitProof.Binds.commits [Sha256] {message : MsgSubmitProof} {proof : Proof} (h : message.Binds proof)
    {index : Nat} (hindex : index < Chain.maxProofsPerBlock) :
    (CommittedRequest.ofProof proof index hindex).Commits message :=
  ⟨h.proofType, h.proofHash, h.publicInputsHash, h.verificationKeyHash⟩

/-- A submission that is accepted is stored, registered and committed under one identifier: the message of its
transaction binds the proof, the store takes the proof under the identifier that the validation returns, and every
block that commits the message at some index is read with this identifier among its own.  Unless two of the hashed byte
strings collide, the transaction belongs to one proof, and the receipts cached under its hash have its identifier.  No
submission is refused for a mismatch of the two identifiers. -/
theorem submission_meets_request [Sha256] [TransactionWire] (submission : ProofSubmission)
    (maxProofBytes maxTransactionBytes : Nat) :
    (∀ id, validateSubmission submission maxProofBytes maxTransactionBytes ≠ .error (.verificationIdMismatch id)) ∧
    ∀ v, validateSubmission submission maxProofBytes maxTransactionBytes = .ok v →
      submission.proof.encodedLen ≤ maxProofBytes ∧ submission.txRaw.length ≤ maxTransactionBytes ∧
      (∃ message, TransactionWire.Holds submission.txRaw message ∧ message.Binds submission.proof ∧
        ∀ index < Chain.maxProofsPerBlock, ∃ request : CommittedRequest,
          request.index = index ∧ request.Commits message ∧
          ∀ block requests, CommittedBlock.Commits block requests → request ∈ requests →
            ∃ ids, Listener.parseProofEvents block = .ok ids ∧ v.verificationId ∈ ids ∧
              ids = requests.map (·.id)) ∧
      (∀ (store : ProofStore) now source, maxProofBytes ≤ store.maxProofBytes →
        ∃ change, (store.insertLocalProof now submission.proof source).result = .ok (v.verificationId, change) ∧
          (store.insertLocalProof now submission.proof source).store.getProof v.verificationId =
            some ((store.getProof v.verificationId).getD submission.proof)) ∧
      ∀ inputs : Set Bytes, Set.InjOn Sha256.digest inputs → submission.txRaw ∈ inputs →
        (∀ bytes ∈ submission.proof.hashed, bytes ∈ inputs) →
        (∀ other maxProofBytes' maxTransactionBytes' v', (∀ bytes ∈ other.proof.hashed, bytes ∈ inputs) →
          validateSubmission other maxProofBytes' maxTransactionBytes' = .ok v' → other.txRaw = submission.txRaw →
          other.proof = submission.proof) ∧
        ∀ service store s receipt,
          ((SubmissionSystem.lts service store).restrict fun _ a => a.Hashes inputs).Reachable s →
          s.receipts.lookup v.transactionHash = some receipt →
          receipt.verificationId = submission.proof.verificationId := by
  refine ⟨fun id h => ?_, fun v hv => ?_⟩
  · rcases validateSubmission_onlyFails _ _ _ _ h with ⟨-, hlarge⟩ | ⟨-, hlarge | hmessage⟩
    · cases hlarge
    · cases hlarge
    · exact hmessage
  obtain ⟨hproof, htx, ⟨message, hmessage, hbinds⟩, rfl⟩ := validateSubmission_eq_ok_iff.1 hv
  refine ⟨hproof, htx, ⟨message, validateTransaction_holds hmessage, hbinds, fun index hindex => ?_⟩,
    fun store now source hlimit => store.insertLocalProof_of_le (hproof.trans hlimit) now source,
    fun inputs hinj htxRaw hhashed => ⟨?_, ?_⟩⟩
  · have hcommits := hbinds.commits hindex
    refine ⟨_, rfl, hcommits, fun block requests hblock hrequest => ?_⟩
    refine ⟨_, Listener.parseProofEvents_committed hblock, ?_, rfl⟩
    rw [← hcommits.id_eq hbinds]
    exact List.mem_map_of_mem hrequest
  · intro other maxProofBytes' maxTransactionBytes' v' hhashed' hv' hsame
    obtain ⟨-, -, ⟨message', hmessage', hbinds'⟩, -⟩ := validateSubmission_eq_ok_iff.1 hv'
    rw [hsame, hmessage] at hmessage'
    cases hmessage'
    exact Proof.eq_of_verificationId_eq hinj hhashed' hhashed (hbinds'.verificationId_eq hbinds)
  · intro service store s receipt hs hreceipt
    have hown := (ProofSubmission.admitted_of_validate hv htxRaw hhashed).receipted
    exact ((SubmissionSystem.reachable_registered hs).receipts _ _ hreceipt).unique hinj hown

open SubmissionSystem in
/-- A proof with its transaction: a block commits its message, and its relay leaves a receipt. -/
theorem submission_meets_request_small :
    letI := Sha256.standard
    letI := TransactionWire.standard
    ∃ v, validateSubmission .small 1024 1024 = .ok v ∧
      (∃ block, block.height = 7 ∧ block.events.length = 1 ∧
        ∃ ids, Listener.parseProofEvents block = .ok ids ∧ v.verificationId ∈ ids) ∧
      ∃ s receipt, ((lts smallService .small).restrict fun _ a => a.Hashes smallInputs).Run (initial .small)
          [.submit 0 .small, .tryGetWith 0, .insertLocalProof 0 1, .broadcastTxSync 0 accepted] s ∧
        s.receipts.lookup v.transactionHash = some receipt ∧ receipt.verificationId = Proof.small.verificationId := by
  let _ := Sha256.standard
  let _ := TransactionWire.standard
  obtain ⟨v, hv⟩ : ∃ v, validateSubmission .small 1024 1024 = .ok v := by
    have hok : (validateSubmission .small 1024 1024).toBool = true := by decide +kernel
    cases h : validateSubmission .small 1024 1024 with
    | ok v => exact ⟨v, rfl⟩
    | error error =>
      rw [h] at hok
      cases hok
  have hinj : Set.InjOn Sha256.digest smallInputs := smallInputs_injOn
  obtain ⟨-, -, ⟨message, -, -, hcommitted⟩, -, hcollisions⟩ := (submission_meets_request .small 1024 1024).2 v hv
  obtain ⟨-, hreceipts⟩ := hcollisions smallInputs hinj (hashes_submit_small 0).1 (hashes_submit_small 0).2
  refine ⟨v, hv, ?_, ?_⟩
  · obtain ⟨request, -, -, hread⟩ := hcommitted 3 (by decide)
    obtain ⟨ids, hids, hmem, -⟩ := hread _ [request]
      (CommittedBlock.commits_single request 7 (by decide) (by decide) ⟨List.replicate 32 0, rfl⟩)
      List.mem_cons_self
    exact ⟨_, rfl, rfl, ids, hids, hmem⟩
  · have hexec : (Lts.exec (next smallService) (initial .small)
        [.submit 0 .small, .tryGetWith 0, .insertLocalProof 0 1, .broadcastTxSync 0 accepted]).any (fun s =>
        (s.receipts.lookup (Sha256.digest ProofSubmission.small.txRaw)).isSome) = true := by
      decide +kernel
    obtain ⟨s, hs, htest⟩ := (Option.any_eq_true _ _).1 hexec
    obtain ⟨receipt, hreceipt⟩ := Option.isSome_iff_exists.1 htest
    have hhash : v.transactionHash = Sha256.digest ProofSubmission.small.txRaw := by
      obtain ⟨-, -, -, rfl⟩ := validateSubmission_eq_ok_iff.1 hv
      rfl
    have hrun : ((lts smallService .small).restrict fun _ a => a.Hashes smallInputs).Run (initial .small)
        [.submit 0 .small, .tryGetWith 0, .insertLocalProof 0 1, .broadcastTxSync 0 accepted] s := by
      refine Lts.Run.restrict (Lts.run_of_exec hs) fun a ha => ?_
      simp only [List.mem_cons, List.not_mem_nil, or_false] at ha
      rcases ha with rfl | rfl | rfl | rfl <;> first | exact hashes_submit_small _ | trivial
    rw [← hhash] at hreceipt
    exact ⟨s, receipt, hrun, hreceipt, hreceipts _ _ s receipt ⟨_, _, rfl, hrun⟩ hreceipt⟩

end PulsarVerifier
