import Mathlib.Data.Finset.Dedup
import PulsarVerifier.Chain.Descriptor

/-!
# The client of the chain

What the node of the chain answers to a request is an input: the answer arrives in time, or the request fails or times
out (`RpcAnswer`).  The functions here are what the client makes of the answers.  The pages of one `ProofsByHeight`
query are given as a list of answers; a page that is not in the list never arrives.
-/

namespace PulsarVerifier

inductive RpcAnswer (α : Type)
  | timedOut
  | failed (error : String)
  | answered (value : α)

def withTimeout {α : Type} (operation : String) : RpcAnswer α → Except Error α
  | .timedOut => .error (.chain s!"CometBFT {operation} timed out")
  | .failed error => .error (.chain error)
  | .answered value => .ok value

def maxHeight : Nat := 2 ^ 63 - 1

/-- `Height::try_from`, which describes a height that is too large by `errorText`. -/
def heightTryFrom (errorText name : String) (height : Nat) : Except Error Nat :=
  if height ≤ maxHeight then .ok height else .error (.chain s!"invalid {name} height: {errorText}")

/-! ### Status, validators and headers -/

structure StatusResponse where
  network : String
  catchingUp : Bool
  latestBlockHeight : Nat

structure ChainStatus where
  latestHeight : Nat
  deriving DecidableEq

structure BlockResponse where
  height : Nat
  validatorsHash : Bytes

/-- All pages of the validators; a public key is given by its bytes. -/
structure ValidatorsResponse where
  blockHeight : Nat
  total : Int
  validators : List Bytes

structure PulsarClient where
  chainId : String

open Except in
def PulsarClient.status (client : PulsarClient) (answer : RpcAnswer StatusResponse) : Except Error ChainStatus := do
  let status ← withTimeout "status" answer
  rejectIf (status.network ≠ client.chainId) (Error.chainIdMismatch client.chainId status.network)
  rejectIf (status.catchingUp = true) (Error.chain "CometBFT node is still catching up")
  pure ⟨status.latestBlockHeight⟩

/-- Adds the next public key to those that were seen. -/
def addValidator (keys : List (FixedBytes 32)) (bytes : Bytes) : Except Error (List (FixedBytes 32)) :=
  match FixedBytes.tryFrom 32 bytes with
  | none => .error (.chain s!"validator public key must be Ed25519 (32 bytes), got {bytes.length} bytes")
  | some key =>
    if key ∈ keys then .error (.chain "validator set contains a duplicate public key") else .ok (keys ++ [key])

open Except in
/-- Loads one complete validator snapshot at an exact committed height. -/
def validatorPublicKeys (heightError : String) (height : Nat) (answer : RpcAnswer ValidatorsResponse) :
    Except Error (List (FixedBytes 32)) := do
  let height ← heightTryFrom heightError "validator" height
  let response ← withTimeout "validators" answer
  rejectIf (response.blockHeight ≠ height)
    (Error.chain s!"validator response height {response.blockHeight} does not match requested height {height}")
  rejectIf (response.total < 0) (Error.chain s!"validator response has invalid total {response.total}")
  rejectIf (response.total.toNat ≠ response.validators.length)
    (Error.chain s!"validator response count {response.validators.length} does not match total {response.total}")
  response.validators.foldlM addValidator []

open Except in
def validatorsHash (heightError : String) (height : Nat) (answer : RpcAnswer BlockResponse) :
    Except Error (FixedBytes 32) := do
  let height ← heightTryFrom heightError "block" height
  let response ← withTimeout "block" answer
  rejectIf (response.height ≠ height)
    (Error.chain s!"block response height {response.height} does not match requested height {height}")
  match FixedBytes.tryFrom 32 response.validatorsHash with
  | some hash => pure hash
  | none => .error (.chain "validators_hash must contain 32 bytes")

/-! ### Pending requests -/

namespace Chain

/-- `value` is what the decoder makes of the bytes of the page. -/
structure QueryProofsByHeightResponse where
  proofs : List QueryProofResponse
  nextKey : Bytes

structure AbciQuery where
  height : Nat
  code : Nat
  log : String
  value : Except String QueryProofsByHeightResponse

/-- The variables of the loop of `proofs_by_height`. -/
structure PageState where
  nextKey : Bytes
  proofs : List ChainProof
  positions : List (Nat × Nat)
  paginationKeys : List Bytes
  lastIndex : Option Nat
  queryHeight : Option Nat

def PageState.new : PageState :=
  { nextKey := [], proofs := [], positions := [], paginationKeys := [], lastIndex := none, queryHeight := none }

open Except in
def pinQueryHeight (pinned : Option Nat) (response : Nat) : Except Error (Option Nat) :=
  match pinned with
  | some expected => do
    rejectIf (response ≠ expected) (Error.invalidChainContract
      s!"ProofsByHeight response height {response} does not match pinned height {expected}")
    pure (some expected)
  | none => .ok (some response)

open Except in
def addRecord [Sha256] (height : Nat) (state : PageState) (response : QueryProofResponse) : Except Error PageState :=
  match response.proofKey with
  | none => .error (.invalidChainContract "proof query response is missing proof_key")
  | some key => do
    rejectIf ((key.submissionHeight, key.indexInBlock) ∈ state.positions) (Error.invalidChainContract
      s!"duplicate proof index {key.indexInBlock} at height {key.submissionHeight}")
    rejectIf (state.lastIndex.any (key.indexInBlock ≤ ·) = true) (Error.invalidChainContract
      "ProofsByHeight records are not strictly ordered by proof key")
    let proof ← validateQueryProof response height
    pure { state with
      proofs := state.proofs ++ proof.toList
      positions := (key.submissionHeight, key.indexInBlock) :: state.positions
      lastIndex := some key.indexInBlock }

open Except in
/-- One page, from the request to the end of the round. -/
def addPage [Sha256] (height : Nat) (state : PageState) (query : AbciQuery) : Except Error PageState := do
  let queryHeight ← pinQueryHeight state.queryHeight query.height
  rejectIf (query.code ≠ 0)
    (Error.chain s!"ProofsByHeight ABCI query failed with code {query.code}: {query.log}")
  match query.value with
  | .error text => .error (.invalidChainContract s!"invalid ProofsByHeight response: {text}")
  | .ok page =>
    let state ← page.proofs.foldlM (addRecord height) { state with queryHeight }
    rejectIf (state.positions.length > maxProofsPerBlock) (Error.invalidChainContract
      s!"ProofsByHeight returned more than {maxProofsPerBlock} records")
    rejectIf (page.nextKey ≠ [] ∧ page.proofs = []) (Error.invalidChainContract
      "ProofsByHeight returned an empty page with a continuation key")
    pure { state with nextKey := page.nextKey }

open Except in
/-- The rounds of the loop, from the variables `state` on. -/
def pages [Sha256] (height : Nat) (state : PageState) (answers : List (RpcAnswer AbciQuery)) :
    Except Error (List ChainProof) := do
  rejectIf (state.nextKey ∈ state.paginationKeys)
    (Error.invalidChainContract "ProofsByHeight repeated a pagination key")
  match answers with
  | [] => withTimeout "ProofsByHeight" .timedOut
  | answer :: answers =>
    let query ← withTimeout "ProofsByHeight" answer
    let state ← addPage height { state with paginationKeys := state.nextKey :: state.paginationKeys } query
    if state.nextKey = [] then pure state.proofs else pages height state answers

end Chain

open Except in
/-- Recovers pending verification requests submitted at one block height. -/
def proofsByHeight [Sha256] (height : Nat) (answers : List (RpcAnswer Chain.AbciQuery)) :
    Except Error (List Chain.ChainProof) := do
  rejectIf (height = 0) (Error.chain "proof query height must be positive")
  Chain.pages height .new answers

/-! ### Committed blocks -/

structure CommittedEvent where
  kind : String
  attributes : List (String × String)
  deriving DecidableEq

structure CommittedBlock where
  height : Nat
  validatorsHash : FixedBytes 32
  events : List CommittedEvent
  deriving DecidableEq

structure BlockHeader where
  height : Nat
  validatorsHash : Bytes

/-- The key and the value of an attribute, or the error of their decoding. -/
structure AbciEvent where
  kind : String
  attributes : List (Except String String × Except String String)

structure TxResult where
  code : Nat
  events : List AbciEvent

/-- The data of an event of the subscription. -/
inductive BlockEvent
  | newBlock (block : Option BlockHeader) (resultFinalizeBlock : Option (List TxResult))
  | other

def committedAttribute : Except String String × Except String String → Except Error (String × String)
  | (.error error, _) => .error (.invalidChainContract s!"event attribute key is not UTF-8: {error}")
  | (.ok _, .error error) => .error (.invalidChainContract s!"event attribute value is not UTF-8: {error}")
  | (.ok key, .ok value) => .ok (key, value)

def committedEvent (event : AbciEvent) : Except Error CommittedEvent := do
  let attributes ← event.attributes.mapM committedAttribute
  pure ⟨event.kind, attributes⟩

/-- The events of the transactions that succeeded. -/
def successfulEvents (txResults : List TxResult) : List AbciEvent :=
  (txResults.filter fun tx => tx.code = 0).flatMap TxResult.events

def committedBlock : BlockEvent → Except Error CommittedBlock
  | .other => .error (.invalidChainContract "NewBlock subscription returned a different event type")
  | .newBlock none _ => .error (.invalidChainContract "NewBlock event is missing block data")
  | .newBlock (some _) none => .error (.invalidChainContract "NewBlock event is missing FinalizeBlock data")
  | .newBlock (some header) (some txResults) =>
    match FixedBytes.tryFrom 32 header.validatorsHash with
    | none => .error (.invalidChainContract "block validators_hash must contain 32 bytes")
    | some validatorsHash => do
      let events ← (successfulEvents txResults).mapM committedEvent
      pure ⟨header.height, validatorsHash, events⟩

/-! ### What the answers list -/

namespace Chain

/-- The records of the pages up to the last one, which has no continuation key. -/
def listed : List (RpcAnswer AbciQuery) → List QueryProofResponse
  | .answered ⟨_, _, _, .ok page⟩ :: answers => page.proofs ++ if page.nextKey = [] then [] else listed answers
  | _ => []

end Chain

theorem committedBlock_newBlock {event : BlockEvent} {block : CommittedBlock} (h : committedBlock event = .ok block) :
    ∃ header txResults, event = .newBlock (some header) (some txResults) ∧ block.height = header.height ∧
      header.validatorsHash = block.validatorsHash.1 ∧
      ∀ e ∈ successfulEvents txResults, ∃ e' ∈ block.events, committedEvent e = .ok e' := by
  unfold committedBlock at h
  split at h
  · cases h
  · cases h
  · cases h
  · rename_i header txResults
    split at h
    · cases h
    · rename_i validatorsHash hhash
      obtain ⟨events, hevents, hblock⟩ := Except.bind_eq_ok_iff.1 h
      cases hblock
      refine ⟨header, txResults, rfl, rfl, FixedBytes.tryFrom_eq_some_iff.1 hhash, fun e he => ?_⟩
      exact Except.mem_of_mapM_eq_ok hevents he

end PulsarVerifier
