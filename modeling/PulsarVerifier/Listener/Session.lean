import Mathlib.Data.Finset.Card
import PulsarVerifier.Lib.Logged
import PulsarVerifier.Lib.Lts
import PulsarVerifier.Listener.Events
import PulsarVerifier.P2p.Driver

/-!
# The sessions of the listener

A session subscribes to the blocks of the chain, recovers the active requests (`initialize` of the source is
`initializeSession` here), and then takes one block after another (`processBlock`).  A failed call ends the session;
unless the error is fatal another session follows after a while, with the height and the validators hash of the last
one.

The two calls act on the store and on the driver of the peer network (`Effect`), and may fail at every query.  What the
chain, the store and the driver answer is an input (`ChainAnswers`).  Next to the listener the state of the system keeps
the driver, the identifiers that were passed to `observe_chain_verification`, and the height of the chain.
-/

namespace PulsarVerifier

/-! ### The validator set -/

/-- The check that 32 bytes are a public key; an error is its text. -/
class Ed25519 where
  tryFromBytes : FixedBytes 32 → Except String Unit

/-- The peer identifier is the multihash of the encoded key. -/
def peerIdFromEd25519 [Ed25519] (key : FixedBytes 32) : Except Error PeerId :=
  match Ed25519.tryFromBytes key with
  | .ok _ => .ok ⟨[0x00, 0x24, 0x08, 0x01, 0x12, 0x20] ++ key.1⟩
  | .error error => .error (.p2pAuthorization s!"invalid validator key: {error}")

open Except in
def loadAt [Ed25519] (heightError : String) (height : Nat) (answer : RpcAnswer ValidatorsResponse) :
    Except Error (Finset PeerId) := do
  let keys ← validatorPublicKeys heightError height answer
  let peers ← keys.mapM peerIdFromEd25519
  rejectIf (peers.toFinset.card ≠ keys.length)
    (Error.p2pAuthorization "validator set contains duplicate peer identities")
  pure peers.toFinset

/-! ### Calls -/

/-- What the surroundings answer during a call. -/
structure ChainAnswers where
  /-- what `Height::try_from` says of a height that is too large -/
  heightError : String
  status : RpcAnswer StatusResponse
  proofs : Nat → List (RpcAnswer Chain.AbciQuery)
  block : Nat → RpcAnswer BlockResponse
  validators : Nat → RpcAnswer ValidatorsResponse
  /-- of the store to `observe_chain_verification` -/
  observe : VerificationId → Except Error StoreChange
  /-- of the driver to `replace_authorized_peers`; a driver that reports an error has not replaced them -/
  replace : Except Error Unit

namespace Listener

inductive Effect
  /-- `observe_chain_verification` is called -/
  | observe (id : VerificationId)
  /-- a validator set has been fetched -/
  | loaded (peers : Finset PeerId)
  /-- the driver has replaced its authorized peers -/
  | replaced (peers : Finset PeerId)
  deriving DecidableEq

abbrev Call := Logged Effect Error

structure ListenerState where
  lastHeight : Option Nat
  validatorsHash : Option (FixedBytes 32)
  deriving DecidableEq

def activeProofHeights : Nat := 3

def activeHeights (latestHeight : Nat) : List Nat :=
  let first := max (latestHeight - (activeProofHeights - 1)) 1
  List.range' first (latestHeight + 1 - first)

def validatorSetChanged (previous : Option (FixedBytes 32)) (current : FixedBytes 32) : Bool :=
  decide (previous ≠ some current)

def saturatingAdd (a b : Nat) : Nat := min (a + b) (2 ^ 64 - 1)

section

variable (answers : ChainAnswers)

def observe (id : VerificationId) : Call Unit := .act (.observe id) ((answers.observe id).map fun _ => ())

def reconcileActiveWindow [Sha256] (latestHeight : Nat) : Call Unit :=
  (activeHeights latestHeight).forM fun height => do
    let proofs ← .lift (proofsByHeight height (answers.proofs height))
    (proofs.map Chain.ChainProof.verificationId).forM (observe answers)

def replaceAuthorizedPeers (peers : Finset PeerId) : Call Unit :=
  match answers.replace with
  | .ok _ => .act (.replaced peers) (.ok ())
  | .error error => .lift (.error error)

def replaceAt [Ed25519] (localPeerId : PeerId) (height : Nat) : Call Unit := do
  let peers ← .lift (loadAt answers.heightError height (answers.validators height))
  .act (.loaded peers) (.ok ())
  if localPeerId ∈ peers then replaceAuthorizedPeers answers peers
  else do
    replaceAuthorizedPeers answers ∅
    .lift (.error (.localValidatorRemoved localPeerId))

/-- The set is fetched only if the hash is another one than before. -/
def refresh [Ed25519] (localPeerId : PeerId) (previous : Option (FixedBytes 32)) (current : FixedBytes 32)
    (height : Nat) : Call Unit :=
  if validatorSetChanged previous current then replaceAt answers localPeerId height else pure ()

/-- The result is the state after the call; a call that fails leaves the state as it was. -/
def initializeSession [Sha256] [Ed25519] (client : PulsarClient) (updater : Option PeerId) (state : ListenerState) :
    Call ListenerState := do
  let status ← .lift (client.status answers.status)
  reconcileActiveWindow answers status.latestHeight
  match updater with
  | none => pure ⟨some status.latestHeight, state.validatorsHash⟩
  | some localPeerId => do
    let hash ← .lift (validatorsHash answers.heightError status.latestHeight (answers.block status.latestHeight))
    refresh answers localPeerId state.validatorsHash hash status.latestHeight
    pure ⟨some status.latestHeight, some hash⟩

def gapBefore (state : ListenerState) (block : CommittedBlock) : Bool :=
  state.lastHeight.any fun height => block.height > saturatingAdd height 1

def advances (state : ListenerState) (block : CommittedBlock) : Bool :=
  state.lastHeight.all fun height => block.height > height

/-- A gap may hide requests that no event told of. -/
def recoverGap [Sha256] (state : ListenerState) (block : CommittedBlock) : Call Unit :=
  if gapBefore state block then reconcileActiveWindow answers block.height else pure ()

/-- The authorized peers follow a new block, if there is a peer network. -/
def updateAuthorization [Ed25519] (updater : Option PeerId) (state : ListenerState) (block : CommittedBlock) :
    Call Unit :=
  match updater with
  | some localPeerId => refresh answers localPeerId state.validatorsHash block.validatorsHash block.height
  | none => pure ()

/-- The last part of `process_block`: only a block that is newer than the last one changes the state. -/
def recordBlock [Ed25519] (updater : Option PeerId) (state : ListenerState) (block : CommittedBlock) :
    Call ListenerState :=
  if advances state block then do
    updateAuthorization answers updater state block
    pure ⟨some block.height, some block.validatorsHash⟩
  else pure state

def processBlock [Sha256] [Ed25519] (updater : Option PeerId) (state : ListenerState) (block : CommittedBlock) :
    Call ListenerState := do
  let observations ← .lift (parseProofEvents block)
  recoverGap answers state block
  observations.forM (observe answers)
  recordBlock answers updater state block

end

def isFatal : Error → Bool
  | .chainIdMismatch _ _ | .invalidChainContract _ | .invalidVerificationId _ | .unsupportedProofType _
  | .verificationIdMismatch _ | .localValidatorRemoved _ | .proofStore _ => true
  | _ => false

end Listener

/-! ### The system -/

structure ListenerConfig where
  reconnectInitialBackoff : Duration
  reconnectMaxBackoff : Duration

/-- Where `run_listener` is. -/
inductive ListenerPhase
  | subscribing
  | initializing
  /-- a session that is established waits for the next block -/
  | streaming
  /-- before the next session -/
  | waiting
  | returned (result : Except Error Unit)
  deriving DecidableEq

structure ListenerSetup where
  config : ListenerConfig
  client : PulsarClient
  p2pEnabled : Bool

structure ListenerSystem where
  state : Listener.ListenerState
  phase : ListenerPhase
  backoff : Duration
  /-- `start` has been told that the first session is established -/
  ready : Bool
  stopRequested : Bool
  driver : Driver
  /-- history variable: the identifiers passed to `observe_chain_verification` -/
  observed : List VerificationId
  /-- the height of the chain -/
  tip : Nat

inductive ListenerAction
  /-- the chain commits a block -/
  | commit
  /-- the driver does something else than to replace its authorized peers -/
  | driverStep (driver : Driver)
  | requestStop
  | subscribe (result : Except Error Unit)
  | initializeSession (answers : ChainAnswers)
  /-- the subscription yields an event, an error, or its end -/
  | deliver (item : Option (Except String BlockEvent)) (answers : ChainAnswers)
  /-- the time between two sessions is over -/
  | wake
  /-- the stop is seen; `close` is the result of closing the subscription -/
  | stop (close : Except Error Unit)
  /-- the stop is seen during `initialize`, after so many of its effects -/
  | cancel (answers : ChainAnswers) (effects : Nat) (close : Except Error Unit)

namespace ListenerSystem

open Listener

def updater (setup : ListenerSetup) (s : ListenerSystem) : Option PeerId :=
  if setup.p2pEnabled then some s.driver.localPeerId else none

def perform (s : ListenerSystem) : List Effect → ListenerSystem
  | [] => s
  | .observe id :: effects => perform { s with observed := s.observed ++ [id] } effects
  | .loaded _ :: effects => perform s effects
  | .replaced peers :: effects => perform { s with driver := s.driver.replaceAuthorizedPeers peers } effects

def disconnect (setup : ListenerSetup) (s : ListenerSystem) (established : Bool) (error : Error) : ListenerSystem :=
  if isFatal error then { s with phase := .returned (.error error) }
  else
    { s with
      phase := .waiting
      backoff := if established then setup.config.reconnectInitialBackoff else s.backoff }

/-- The time to wait at most before the session after the next. -/
def nextBackoff (config : ListenerConfig) (backoff : Duration) : Duration :=
  min (if backoff * 2 ≤ durationMax then backoff * 2 else config.reconnectMaxBackoff) config.reconnectMaxBackoff

/-- Only a driver that runs replaces its authorized peers. -/
def fits (s : ListenerSystem) (answers : ChainAnswers) : Bool :=
  match answers.replace with
  | .ok _ => s.driver.isRunning
  | .error _ => true

section

variable [Sha256] [Ed25519] (setup : ListenerSetup)

def call (s : ListenerSystem) : ListenerAction → Option (Call ListenerState)
  | .initializeSession answers => some (Listener.initializeSession answers setup.client (s.updater setup) s.state)
  | .deliver (some (.ok event)) answers =>
    some do
      let block ← .lift (committedBlock event)
      processBlock answers (s.updater setup) s.state block
  | _ => none

def finishCall (s : ListenerSystem) (established : Bool) (call : Call ListenerState) : ListenerSystem :=
  let s' := s.perform call.log
  match call.result with
  | .ok state => { s' with state, phase := .streaming, ready := true }
  | .error error => s'.disconnect setup established error

def next (s : ListenerSystem) (action : ListenerAction) : Option ListenerSystem :=
  match s.phase, action with
  | _, .commit => some { s with tip := s.tip + 1 }
  | _, .driverStep driver =>
    if driver.authorizedPeers = s.driver.authorizedPeers ∧ driver.localPeerId = s.driver.localPeerId then
      some { s with driver }
    else none
  | _, .requestStop => some { s with stopRequested := true }
  | .subscribing, .subscribe (.ok _) => some { s with phase := .initializing }
  | .subscribing, .subscribe (.error error) => some (s.disconnect setup false error)
  | .initializing, .initializeSession answers =>
    if s.fits answers then (s.call setup (.initializeSession answers)).map (s.finishCall setup false) else none
  | .streaming, .deliver none _ => some (s.disconnect setup true (.chain "NewBlock subscription closed"))
  | .streaming, .deliver (some (.error error)) _ => some (s.disconnect setup true (.chain error))
  | .streaming, .deliver (some (.ok event)) answers =>
    if s.fits answers then (s.call setup (.deliver (some (.ok event)) answers)).map (s.finishCall setup true) else none
  | .waiting, .wake => some { s with phase := .subscribing, backoff := nextBackoff setup.config s.backoff }
  | .streaming, .stop close => if s.stopRequested then some { s with phase := .returned close } else none
  | .subscribing, .stop _ | .waiting, .stop _ =>
    if s.stopRequested then some { s with phase := .returned (.ok ()) } else none
  | .initializing, .cancel answers effects close =>
    if s.stopRequested ∧ s.fits answers then
      (s.call setup (.initializeSession answers)).map fun call =>
        { s.perform (call.log.take effects) with phase := .returned close }
    else none
  | _, _ => none

omit [Sha256] [Ed25519] in
def initial (driver : Driver) : ListenerSystem :=
  { state := ⟨none, none⟩, phase := .subscribing, backoff := setup.config.reconnectInitialBackoff, ready := false
    stopRequested := false, driver, observed := [], tip := 0 }

/-- The listener of a node with this driver, under all answers. -/
def lts (driver : Driver) : Lts ListenerSystem ListenerAction := .ofNext (· = initial setup driver) (next setup)

end

end ListenerSystem

/-! ### What a step can do -/

open Listener in
/-- The effect of a step on the state of the listener, the driver and the observations. -/
inductive ListenerMove [Sha256] [Ed25519] (setup : ListenerSetup) (s : ListenerSystem) :
    ListenerAction → ListenerSystem → Prop
  /-- no call is made -/
  | quiet {a : ListenerAction} {t : ListenerSystem} (hcall : s.call setup a = none) (hstate : t.state = s.state)
      (hobserved : t.observed = s.observed) (htip : s.tip ≤ t.tip)
      (hdriver : t.driver.authorizedPeers = s.driver.authorizedPeers ∧ t.driver.localPeerId = s.driver.localPeerId)
      (hreturned : ∀ result, s.phase = .returned result → t.phase = .returned result)
      (hstreaming : t.phase = .streaming → s.phase = .streaming) : ListenerMove setup s a t
  | initializeSession {answers : ChainAnswers} {call : Call ListenerState} (hphase : s.phase = .initializing)
      (hcall : s.call setup (.initializeSession answers) = some call) :
      ListenerMove setup s (.initializeSession answers) (s.finishCall setup false call)
  | deliver {event : BlockEvent} {answers : ChainAnswers} {call : Call ListenerState} (hphase : s.phase = .streaming)
      (hcall : s.call setup (.deliver (some (.ok event)) answers) = some call) :
      ListenerMove setup s (.deliver (some (.ok event)) answers) (s.finishCall setup true call)
  /-- the listener is stopped in the middle of a call -/
  | cancel {a : ListenerAction} {t : ListenerSystem} (close : Except Error Unit)
      (hcall : s.call setup a = none) (hphase : t.phase = .returned close) (hstate : t.state = s.state)
      (htip : t.tip = s.tip) (hobserved : ∀ id ∈ s.observed, id ∈ t.observed)
      (hlocal : t.driver.localPeerId = s.driver.localPeerId) : ListenerMove setup s a t

namespace ListenerSystem

open Listener

variable {setup : ListenerSetup} {s t : ListenerSystem} {a : ListenerAction}

theorem perform_frame (s : ListenerSystem) (effects : List Effect) :
    (s.perform effects).state = s.state ∧ (s.perform effects).phase = s.phase ∧ (s.perform effects).tip = s.tip ∧
      (s.perform effects).driver.localPeerId = s.driver.localPeerId := by
  induction effects generalizing s with
  | nil => exact ⟨rfl, rfl, rfl, rfl⟩
  | cons effect effects ih =>
    cases effect with
    | observe id => exact ih { s with observed := s.observed ++ [id] }
    | loaded peers => exact ih s
    | replaced peers => exact ih { s with driver := s.driver.replaceAuthorizedPeers peers }

theorem mem_observed_perform {s : ListenerSystem} {effects : List Effect} {id : VerificationId} :
    id ∈ (s.perform effects).observed ↔ id ∈ s.observed ∨ .observe id ∈ effects := by
  induction effects generalizing s with
  | nil => simp [perform]
  | cons effect effects ih =>
    cases effect with
    | observe id' =>
      rw [perform, ih]
      simp only [List.mem_append, List.mem_cons, List.not_mem_nil, or_false, Effect.observe.injEq,
        or_assoc]
    | loaded peers | replaced peers =>
      rw [perform, ih]
      simp

theorem disconnect_frame (setup : ListenerSetup) (s : ListenerSystem) (established : Bool) (error : Error) :
    ∃ phase backoff, s.disconnect setup established error = { s with phase, backoff } ∧ phase ≠ .streaming := by
  unfold disconnect
  split
  · exact ⟨_, s.backoff, rfl, nofun⟩
  · exact ⟨_, _, rfl, nofun⟩

theorem finishCall_frame (setup : ListenerSetup) (s : ListenerSystem) (established : Bool) (call : Call ListenerState) :
    (s.finishCall setup established call).tip = s.tip ∧
    (s.finishCall setup established call).driver = (s.perform call.log).driver ∧
    ∀ id, id ∈ (s.finishCall setup established call).observed ↔ id ∈ s.observed ∨ .observe id ∈ call.log := by
  obtain ⟨-, -, htip, -⟩ := s.perform_frame call.log
  unfold finishCall
  cases call.result with
  | ok state => exact ⟨htip, rfl, fun id => mem_observed_perform⟩
  | error error =>
    obtain ⟨phase, backoff, heq, -⟩ := (s.perform call.log).disconnect_frame setup established error
    dsimp only
    rw [heq]
    exact ⟨htip, rfl, fun id => mem_observed_perform⟩

theorem finishCall_ok (setup : ListenerSetup) (s : ListenerSystem) (established : Bool) {call : Call ListenerState}
    {state : ListenerState} (h : call.result = .ok state) : (s.finishCall setup established call).state = state := by
  unfold finishCall
  rw [h]

theorem finishCall_streaming (setup : ListenerSetup) (s : ListenerSystem) (established : Bool)
    {call : Call ListenerState} {state : ListenerState} (h : call.result = .ok state) :
    (s.finishCall setup established call).phase = .streaming := by
  unfold finishCall
  rw [h]

theorem finishCall_error (setup : ListenerSetup) (s : ListenerSystem) (established : Bool) {call : Call ListenerState}
    {error : Error} (h : call.result = .error error) :
    (s.finishCall setup established call).state = s.state ∧
    (s.finishCall setup established call).phase ≠ .streaming := by
  obtain ⟨hstate, -⟩ := s.perform_frame call.log
  obtain ⟨phase, backoff, heq, hphase⟩ := (s.perform call.log).disconnect_frame setup established error
  unfold finishCall
  simp only [h, heq]
  exact ⟨hstate, hphase⟩

variable [Sha256] [Ed25519]

theorem next_move (h : s.next setup a = some t) : ListenerMove setup s a t := by
  -- a step that only changes where the listener is, from a place before its end
  have hmove : ∀ {a} {phase : ListenerPhase} (phase' : ListenerPhase) (backoff : Duration), s.call setup a = none →
      s.phase = phase → (∀ result, phase ≠ .returned result) → phase' ≠ .streaming →
      ListenerMove setup s a { s with phase := phase', backoff } := by
    intro a phase phase' backoff hcall hphase hrunning hstreaming
    exact .quiet hcall rfl rfl le_rfl ⟨rfl, rfl⟩ (fun result h => absurd (hphase.symm.trans h) (hrunning result))
      fun h => absurd h hstreaming
  have hdisconnect : ∀ {a} {phase : ListenerPhase} (established : Bool) (error : Error), s.call setup a = none →
      s.phase = phase → (∀ result, phase ≠ .returned result) →
      ListenerMove setup s a (s.disconnect setup established error) := by
    intro a phase established error hcall hphase hrunning
    obtain ⟨phase', backoff, heq, hstreaming⟩ := s.disconnect_frame setup established error
    rw [heq]
    exact hmove phase' backoff hcall hphase hrunning hstreaming
  unfold next at h
  split at h
  · cases h
    exact .quiet rfl rfl rfl (Nat.le_succ _) ⟨rfl, rfl⟩ (fun _ h => h) fun h => h
  · split at h
    · rename_i hsame
      cases h
      exact .quiet rfl rfl rfl le_rfl hsame (fun _ h => h) fun h => h
    · cases h
  · cases h
    exact .quiet rfl rfl rfl le_rfl ⟨rfl, rfl⟩ (fun _ h => h) fun h => h
  · rename_i hphase
    cases h
    exact hmove _ _ rfl hphase nofun nofun
  · rename_i hphase
    cases h
    exact hdisconnect _ _ rfl hphase nofun
  · rename_i hphase
    split at h
    · cases h
      exact .initializeSession hphase rfl
    · cases h
  · rename_i hphase
    cases h
    exact hdisconnect _ _ rfl hphase nofun
  · rename_i hphase
    cases h
    exact hdisconnect _ _ rfl hphase nofun
  · rename_i hphase
    split at h
    · cases h
      exact .deliver hphase rfl
    · cases h
  · rename_i hphase
    cases h
    exact hmove _ _ rfl hphase nofun nofun
  · rename_i hphase
    split at h
    · cases h
      exact hmove _ _ rfl hphase nofun nofun
    · cases h
  · rename_i hphase
    split at h
    · cases h
      exact hmove _ _ rfl hphase nofun nofun
    · cases h
  · rename_i hphase
    split at h
    · cases h
      exact hmove _ _ rfl hphase nofun nofun
    · cases h
  · rename_i answers effects close hphase
    split at h
    · cases h
      obtain ⟨hstate, -, htip, hlocal⟩ := s.perform_frame
        ((Listener.initializeSession answers setup.client (s.updater setup) s.state).log.take effects)
      exact .cancel close rfl rfl hstate htip (fun id hid => mem_observed_perform.2 (.inl hid)) hlocal
    · cases h
  · cases h

end ListenerSystem

end PulsarVerifier
