import PulsarVerifier.Listener.Session
import PulsarVerifier.P2p.Gossip

/-!
# The authorized peers follow the validators hash

The listener keeps the validators hash of the last block and replaces the authorized peers of the driver when the hash
changes.  The hash and the peers are kept in two components; between their updates a fetch, an observation or the
driver may fail.
-/

namespace PulsarVerifier

/-! ### The chain -/

/-- The validators hash of each header, and the validator set that a hash belongs to. -/
structure ValidatorHistory where
  header : Nat → FixedBytes 32
  setOf : FixedBytes 32 → Finset PeerId

namespace ValidatorHistory

variable (validators : ValidatorHistory)

/-- Successful answers on headers and on validator sets are true. -/
structure Answers [Ed25519] (answers : ChainAnswers) : Prop where
  block : ∀ {height hash}, validatorsHash answers.heightError height (answers.block height) = .ok hash →
    hash = validators.header height
  set : ∀ {height peers}, loadAt answers.heightError height (answers.validators height) = .ok peers →
    peers = validators.setOf (validators.header height)

/-- What the listener gets from the chain in a step is true. -/
def Honest [Ed25519] : ListenerAction → Prop
  | .initializeSession answers | .cancel answers _ _ => validators.Answers answers
  | .deliver (some (.ok event)) answers => validators.Answers answers ∧
    ∀ block, committedBlock event = .ok block → block.validatorsHash = validators.header block.height
  | _ => True

end ValidatorHistory

/-! ### What a call does to the authorized peers -/

namespace Listener

/-- The effects that are no observations. -/
def authorizationEffects (effects : List Effect) : List Effect :=
  effects.filter fun
    | .observe _ => false
    | _ => true

theorem authorizationEffects_append (effects effects' : List Effect) :
    authorizationEffects (effects ++ effects') = authorizationEffects effects ++ authorizationEffects effects' :=
  List.filter_append ..

theorem mem_authorizationEffects_loaded {effects : List Effect} {peers : Finset PeerId} :
    .loaded peers ∈ authorizationEffects effects ↔ .loaded peers ∈ effects := by
  simp [authorizationEffects]

variable {validators : ValidatorHistory} {answers : ChainAnswers} {localPeerId : PeerId} {state : ListenerState}

/-- A first part without effects on the authorization changes nothing about the end. -/
theorem authorizationEffects_bind {P : List Effect → Except Error ListenerState → Prop} {α : Type} {x : Call α}
    {f : α → Call ListenerState} (hfailed : ∀ error, P [] (.error error)) (hx : authorizationEffects x.log = [])
    (hf : ∀ a, x.result = .ok a → P (authorizationEffects (f a).log) (f a).result) :
    P (authorizationEffects (x >>= f).log) (x >>= f).result := by
  cases hresult : x.result with
  | ok a =>
    obtain ⟨hlog, hresult'⟩ := Logged.bind_of_ok (f := f) hresult
    rw [hlog, hresult', authorizationEffects_append, hx]
    exact hf a hresult
  | error error =>
    obtain ⟨hlog, hresult'⟩ := Logged.bind_of_error (f := f) hresult
    rw [hlog, hresult', hx]
    exact hfailed error

theorem authorizationEffects_forM {α : Type} {g : α → Call Unit} (hg : ∀ a, authorizationEffects (g a).log = [])
    (as : List α) : authorizationEffects (as.forM g).log = [] := by
  refine List.filter_eq_nil_iff.2 fun effect heffect => ?_
  obtain ⟨a, -, heffect⟩ := Logged.mem_log_forM heffect
  exact List.filter_eq_nil_iff.1 (hg a) effect heffect

theorem authorizationEffects_observe (ids : List VerificationId) :
    authorizationEffects (ids.forM (observe answers)).log = [] :=
  authorizationEffects_forM (fun _ => rfl) ids

theorem authorizationEffects_reconcileActiveWindow [Sha256] (latestHeight : Nat) :
    authorizationEffects (reconcileActiveWindow answers latestHeight).log = [] := by
  refine authorizationEffects_forM (fun height => List.filter_eq_nil_iff.2 fun effect heffect => ?_) _
  rcases Logged.mem_log_bind heffect with heffect | ⟨proofs, -, heffect⟩
  · cases heffect
  · exact List.filter_eq_nil_iff.1 (authorizationEffects_observe _) effect heffect

section

variable [Ed25519]

theorem replaceAt_of_load {height : Nat} {peers : Finset PeerId}
    (hload : loadAt answers.heightError height (answers.validators height) = .ok peers) :
    replaceAt answers localPeerId height =
      match answers.replace with
      | .error error => ⟨[.loaded peers], .error error⟩
      | .ok _ =>
        if localPeerId ∈ peers then ⟨[.loaded peers, .replaced peers], .ok ()⟩
        else ⟨[.loaded peers, .replaced ∅], .error (.localValidatorRemoved localPeerId)⟩ := by
  unfold replaceAt replaceAuthorizedPeers
  rw [hload]
  change (Logged.act (Effect.loaded peers) (.ok ()) >>= fun _ => if localPeerId ∈ peers then _ else _) = _
  by_cases hlocal : localPeerId ∈ peers
  · simp only [if_pos hlocal]
    cases answers.replace <;> rfl
  · simp only [if_neg hlocal]
    cases answers.replace <;> rfl

/-- The possible ends of a call that takes the values of a height: the effects that are no observations, and the result.
The hash is one that is `given` at this height. -/
inductive Taking (answers : ChainAnswers) (updater : Option PeerId) (state : ListenerState) (height : Nat)
    (given : Option (FixedBytes 32) → Prop) : List Effect → Except Error ListenerState → Prop
  /-- a query or an observation fails -/
  | failed (error : Error) : Taking answers updater state height given [] (.error error)
  /-- the hash is the one that is known, or there is no peer network -/
  | kept {hash : Option (FixedBytes 32)} (hgiven : given hash) (hkept : updater = none ∨ hash = state.validatorsHash) :
    Taking answers updater state height given [] (.ok ⟨some height, hash⟩)
  | replaced {localPeerId : PeerId} {peers : Finset PeerId} {hash : Option (FixedBytes 32)}
      (hupdater : updater = some localPeerId)
      (hload : loadAt answers.heightError height (answers.validators height) = .ok peers)
      (hgiven : given hash) (hlocal : localPeerId ∈ peers) :
    Taking answers updater state height given [.loaded peers, .replaced peers] (.ok ⟨some height, hash⟩)
  /-- the driver does not replace its peers -/
  | refused {localPeerId : PeerId} {peers : Finset PeerId} {error : Error} (hupdater : updater = some localPeerId)
      (hload : loadAt answers.heightError height (answers.validators height) = .ok peers)
      (hreplace : answers.replace = .error error) :
    Taking answers updater state height given [.loaded peers] (.error error)
  | removed {localPeerId : PeerId} {peers : Finset PeerId} (hupdater : updater = some localPeerId)
      (hload : loadAt answers.heightError height (answers.validators height) = .ok peers)
      (hlocal : localPeerId ∉ peers) :
    Taking answers updater state height given [.loaded peers, .replaced ∅] (.error (.localValidatorRemoved localPeerId))

variable {updater : Option PeerId} {height : Nat} {given : Option (FixedBytes 32) → Prop}

/-- The call takes the values of this height. -/
def Takes (answers : ChainAnswers) (updater : Option PeerId) (state : ListenerState) (height : Nat)
    (given : Option (FixedBytes 32) → Prop) (call : Call ListenerState) : Prop :=
  Taking answers updater state height given (authorizationEffects call.log) call.result

/-- A call that fetches the set of a new hash. -/
theorem replaceAt_takes {hash : FixedBytes 32} (hgiven : given (some hash)) :
    Takes answers (some localPeerId) state height given
      (replaceAt answers localPeerId height >>= fun _ => pure ⟨some height, some hash⟩) := by
  cases hload : loadAt answers.heightError height (answers.validators height) with
  | error error =>
    have hfailed : replaceAt answers localPeerId height = ⟨[], .error error⟩ := by
      unfold replaceAt
      rw [hload]
      rfl
    rw [hfailed]
    exact .failed error
  | ok peers =>
    rw [replaceAt_of_load hload]
    cases hreplace : answers.replace with
    | error error => exact .refused rfl hload hreplace
    | ok =>
      by_cases hlocal : localPeerId ∈ peers
      · simp only [if_pos hlocal]
        exact .replaced rfl hload hgiven hlocal
      · simp only [if_neg hlocal]
        exact .removed rfl hload hlocal

theorem refresh_takes {hash : FixedBytes 32} (hgiven : given (some hash)) :
    Takes answers (some localPeerId) state height given
      (refresh answers localPeerId state.validatorsHash hash height >>= fun _ => pure ⟨some height, some hash⟩) := by
  unfold refresh
  split
  · exact replaceAt_takes hgiven
  · rename_i hsame
    have hknown : state.validatorsHash = some hash := by simpa [validatorSetChanged] using hsame
    exact .kept hgiven (.inr hknown.symm)

/-- The hash after the initialization at a height: without a peer network no header is read. -/
def InitialHash (answers : ChainAnswers) (updater : Option PeerId) (state : ListenerState) (height : Nat)
    (hash : Option (FixedBytes 32)) : Prop :=
  match updater with
  | none => hash = state.validatorsHash
  | some _ => ∃ read, hash = some read ∧ validatorsHash answers.heightError height (answers.block height) = .ok read

variable [Sha256]

theorem initializeSession_of_error {client : PulsarClient} {error : Error}
    (hstatus : client.status answers.status = .error error) :
    initializeSession answers client updater state = ⟨[], .error error⟩ := by
  unfold initializeSession
  rw [hstatus]
  rfl

theorem initializeSession_takes {client : PulsarClient} {status : ChainStatus}
    (hstatus : client.status answers.status = .ok status) :
    Takes answers updater state status.latestHeight (InitialHash answers updater state status.latestHeight)
      (initializeSession answers client updater state) := by
  refine authorizationEffects_bind .failed rfl fun status' hstatus' => ?_
  cases hstatus.symm.trans hstatus'
  refine authorizationEffects_bind .failed (authorizationEffects_reconcileActiveWindow _) fun _ _ => ?_
  cases updater with
  | none => exact .kept rfl (.inl rfl)
  | some localPeerId =>
    exact authorizationEffects_bind .failed rfl fun hash hblock => refresh_takes ⟨hash, rfl, hblock⟩

theorem authorizationEffects_processBlock {P : List Effect → Except Error ListenerState → Prop} {block : CommittedBlock}
    (hfailed : ∀ error, P [] (.error error))
    (hrecord : P (authorizationEffects (recordBlock answers updater state block).log)
      (recordBlock answers updater state block).result) :
    P (authorizationEffects (processBlock answers updater state block).log)
      (processBlock answers updater state block).result := by
  have hgap : authorizationEffects (recoverGap answers state block).log = [] := by
    unfold recoverGap
    split
    · exact authorizationEffects_reconcileActiveWindow _
    · rfl
  refine authorizationEffects_bind hfailed rfl fun ids _ => ?_
  refine authorizationEffects_bind hfailed hgap fun _ _ => ?_
  exact authorizationEffects_bind hfailed (authorizationEffects_observe _) fun _ _ => hrecord

/-- A block that is newer than the last one is taken. -/
theorem processBlock_takes {block : CommittedBlock} (hnew : advances state block = true) :
    Takes answers updater state block.height (· = some block.validatorsHash)
      (processBlock answers updater state block) := by
  refine authorizationEffects_processBlock .failed ?_
  unfold recordBlock
  rw [if_pos hnew]
  cases updater with
  | none => exact .kept rfl (.inl rfl)
  | some localPeerId => exact refresh_takes rfl

theorem processBlock_stale {block : CommittedBlock} (hold : advances state block = false) :
    authorizationEffects (processBlock answers updater state block).log = [] ∧
      ∀ state', (processBlock answers updater state block).result = .ok state' → state' = state := by
  refine authorizationEffects_processBlock (P := fun effects result => effects = [] ∧
    ∀ state', result = .ok state' → state' = state) (fun error => ⟨rfl, nofun⟩) ?_
  unfold recordBlock
  rw [hold]
  exact ⟨rfl, fun state' h => (Except.ok.inj h).symm⟩

omit [Sha256] in
/-- The end of a call of a node in the peer network, under true answers: the values of a height are taken with the hash
of its header, or the block is not newer than the last one. -/
inductive Ends (validators : ValidatorHistory) (answers : ChainAnswers) (localPeerId : PeerId)
    (state : ListenerState) : List Effect → Except Error ListenerState → Prop
  | takes {height : Nat} {given : Option (FixedBytes 32) → Prop} {effects : List Effect}
      {result : Except Error ListenerState}
      (htaking : Taking answers (some localPeerId) state height given effects result)
      (hgiven : ∀ hash, given hash → hash = some (validators.header height)) :
    Ends validators answers localPeerId state effects result
  | stale : Ends validators answers localPeerId state [] (.ok state)

omit [Sha256] in
theorem Ends.failed (error : Error) : Ends validators answers localPeerId state [] (.error error) :=
  .takes (.failed error : Taking answers (some localPeerId) state 0 (fun _ => False) [] (.error error)) nofun

theorem initializeSession_ends (hanswers : validators.Answers answers) (client : PulsarClient) :
    Ends validators answers localPeerId state
      (authorizationEffects (initializeSession answers client (some localPeerId) state).log)
      (initializeSession answers client (some localPeerId) state).result := by
  cases hstatus : client.status answers.status with
  | ok status =>
    refine .takes (initializeSession_takes hstatus) fun hash hhash => ?_
    obtain ⟨read, rfl, hblock⟩ := hhash
    rw [hanswers.block hblock]
  | error error =>
    rw [initializeSession_of_error hstatus]
    exact .failed error

theorem processBlock_ends {block : CommittedBlock} (hblock : block.validatorsHash = validators.header block.height) :
    Ends validators answers localPeerId state
      (authorizationEffects (processBlock answers (some localPeerId) state block).log)
      (processBlock answers (some localPeerId) state block).result := by
  cases hadvances : advances state block with
  | true =>
    refine .takes (processBlock_takes hadvances) fun hash hhash => ?_
    rw [hhash, hblock]
  | false =>
    have hstale : authorizationEffects (processBlock answers (some localPeerId) state block).log = [] ∧ _ :=
      processBlock_stale hadvances
    obtain ⟨heffects, hstate⟩ := hstale
    rw [heffects]
    cases hresult : (processBlock answers (some localPeerId) state block).result with
    | ok state' =>
      cases hstate state' hresult
      exact .stale
    | error error => exact .failed error

end

end Listener

def ListenerAction.answers : ListenerAction → Option ChainAnswers
  | .initializeSession answers | .deliver _ answers => some answers
  | _ => none

namespace ListenerSystem

open Listener

variable {validators : ValidatorHistory} {setup : ListenerSetup} {s t : ListenerSystem} {a : ListenerAction}
  {answers : ChainAnswers}

/-- Observations do not reach the driver. -/
theorem perform_driver_authorizationEffects (s : ListenerSystem) (effects : List Effect) :
    (s.perform effects).driver = (s.perform (authorizationEffects effects)).driver := by
  have hobserved : ∀ (s : ListenerSystem) (ids : List VerificationId) (effects : List Effect),
      (perform { s with observed := ids } effects).driver = (s.perform effects).driver := by
    intro s ids effects
    induction effects generalizing s ids with
    | nil => rfl
    | cons effect effects ih =>
      cases effect with
      | observe id => exact (ih s _).trans (ih s _).symm
      | loaded peers => exact ih s ids
      | replaced peers => exact ih { s with driver := s.driver.replaceAuthorizedPeers peers } ids
  induction effects generalizing s with
  | nil => rfl
  | cons effect effects ih =>
    cases effect with
    | observe id => exact (hobserved s _ effects).trans (ih s)
    | loaded peers => exact ih s
    | replaced peers => exact ih { s with driver := s.driver.replaceAuthorizedPeers peers }

section

variable [Sha256] [Ed25519]

/-- Every call of a node in the peer network ends in one of the ways. -/
theorem call_ends (hp2p : setup.p2pEnabled = true) (hhonest : validators.Honest a)
    (hanswers : a.answers = some answers) {call : Call ListenerState} (hcall : s.call setup a = some call) :
    validators.Answers answers ∧
      Ends validators answers s.driver.localPeerId s.state (authorizationEffects call.log) call.result := by
  have hupdater : s.updater setup = some s.driver.localPeerId := if_pos hp2p
  cases a with
  | initializeSession answers' =>
    cases hanswers
    cases hcall
    rw [hupdater]
    exact ⟨hhonest, initializeSession_ends hhonest setup.client⟩
  | deliver item answers' =>
    cases hanswers
    unfold ListenerSystem.call at hcall
    split at hcall
    · rename_i heq
      cases heq
    · rename_i event _ heq
      cases heq
      cases hcall
      rw [hupdater]
      exact ⟨hhonest.1, authorizationEffects_bind .failed rfl fun block hblock =>
        processBlock_ends (hhonest.2 block hblock)⟩
    · cases hcall
  | _ => cases hanswers

/-- The peers of the known hash are authorized, and a hash is known with the height. -/
structure Follows (validators : ValidatorHistory) (s : ListenerSystem) : Prop where
  authorized : ∀ hash, s.state.validatorsHash = some hash → s.driver.AuthorizedFrom (validators.setOf hash)
  known : s.state.lastHeight.isSome → s.state.validatorsHash.isSome

omit [Sha256] [Ed25519] in
theorem Follows.of_same (hs : Follows validators s) (hstate : t.state = s.state)
    (hdriver : t.driver.authorizedPeers = s.driver.authorizedPeers)
    (hlocal : t.driver.localPeerId = s.driver.localPeerId) : Follows validators t := by
  refine ⟨fun hash hhash => ?_, fun hlast => ?_⟩
  · rw [hstate] at hhash
    have hauthorized := hs.authorized hash hhash
    unfold Driver.AuthorizedFrom at hauthorized ⊢
    rw [hdriver, hlocal]
    exact hauthorized
  · rw [hstate] at hlast ⊢
    exact hs.known hlast

omit [Sha256] [Ed25519] in
/-- What a call does to the authorized peers, from its end. -/
theorem finishCall_driver (setup : ListenerSetup) (s : ListenerSystem) (established : Bool) (call : Call ListenerState)
    {effects : List Effect} (heffects : authorizationEffects call.log = effects) :
    (s.finishCall setup established call).driver = (s.perform effects).driver := by
  obtain ⟨-, hdriver, -⟩ := s.finishCall_frame setup established call
  rw [hdriver, perform_driver_authorizationEffects, heffects]

omit [Sha256] in
theorem Follows.finishCall (hs : Follows validators s) {established : Bool} {call : Call ListenerState}
    (hanswers : validators.Answers answers)
    (hends : Ends validators answers s.driver.localPeerId s.state (authorizationEffects call.log) call.result) :
    (∃ result, (s.finishCall setup established call).phase = .returned result) ∨
      Follows validators (s.finishCall setup established call) := by
  generalize heffects : authorizationEffects call.log = effects at hends
  generalize hresult : call.result = result at hends
  have hdriver := s.finishCall_driver setup established call heffects
  -- nothing is changed
  have hsame : effects = [] ∨ (∃ peers, effects = [.loaded peers]) →
      (s.finishCall setup established call).state = s.state →
      Follows validators (s.finishCall setup established call) := by
    intro hquiet hstate
    have hdriver : (s.finishCall setup established call).driver = s.driver := by
      rcases hquiet with rfl | ⟨peers, rfl⟩ <;> exact hdriver
    exact hs.of_same hstate (congrArg Driver.authorizedPeers hdriver) (congrArg Driver.localPeerId hdriver)
  cases hends with
  | stale => exact .inr (hsame (.inl rfl) (s.finishCall_ok setup established hresult))
  | takes htaking hgiven =>
    cases htaking with
    | failed error => exact .inr (hsame (.inl rfl) (s.finishCall_error setup established hresult).1)
    | refused hupdater hload hreplace =>
      exact .inr (hsame (.inr ⟨_, rfl⟩) (s.finishCall_error setup established hresult).1)
    | kept hhash hkept =>
      have hstate := s.finishCall_ok setup established hresult
      have hknown := hkept.resolve_left nofun
      cases hgiven _ hhash
      refine .inr ⟨fun hash hhash => ?_, fun _ => by rw [hstate]; rfl⟩
      rw [hstate, hknown] at hhash
      rw [hdriver]
      exact hs.authorized hash hhash
    | replaced hupdater hload hhash hlocal =>
      have hstate := s.finishCall_ok setup established hresult
      cases hgiven _ hhash
      cases hanswers.set hload
      refine .inr ⟨fun hash hhash => ?_, fun _ => by rw [hstate]; rfl⟩
      rw [hstate] at hhash
      cases hhash
      rw [hdriver]
      exact s.driver.replaceAuthorizedPeers_authorizedFrom _
    | removed hupdater hload hlocal =>
      -- the authorized peers are gone, and so is the listener
      cases hupdater
      refine .inl ⟨.error (.localValidatorRemoved s.driver.localPeerId), ?_⟩
      unfold ListenerSystem.finishCall
      rw [hresult]
      rfl

theorem follows_step (hp2p : setup.p2pEnabled = true)
    (hs : (∃ result, s.phase = .returned result) ∨ Follows validators s) (h : s.next setup a = some t)
    (hhonest : validators.Honest a) : (∃ result, t.phase = .returned result) ∨ Follows validators t := by
  cases next_move h with
  | quiet hcall hstate hobserved htip hdriver hreturned hstreaming =>
    rcases hs with ⟨result, hphase⟩ | hs
    · exact .inl ⟨result, hreturned result hphase⟩
    · exact .inr (hs.of_same hstate hdriver.1 hdriver.2)
  | initializeSession hphase hcall | deliver hphase hcall =>
    rcases hs with ⟨result, hreturned⟩ | hs
    · cases hphase.symm.trans hreturned
    · obtain ⟨hanswers, hends⟩ := call_ends hp2p hhonest rfl hcall
      exact hs.finishCall hanswers hends
  | cancel close hcall hphase hstate htip hobserved hlocal => exact .inl ⟨close, hphase⟩

omit [Sha256] in
/-- A call that fails leaves the hash and, if no set without the local validator was fetched, the authorized peers. -/
theorem finishCall_failed {established : Bool} {call : Call ListenerState}
    (hends : Ends validators answers s.driver.localPeerId s.state (authorizationEffects call.log) call.result)
    {error : Error} (herror : call.result = .error error)
    (hmember : ∀ peers, .loaded peers ∈ call.log → s.driver.localPeerId ∈ peers) :
    (s.finishCall setup established call).state = s.state ∧
      (s.finishCall setup established call).driver.authorizedPeers = s.driver.authorizedPeers := by
  generalize heffects : authorizationEffects call.log = effects at hends
  rw [herror] at hends
  obtain ⟨hstate, -⟩ := s.finishCall_error setup established herror
  rw [s.finishCall_driver setup established call heffects]
  refine ⟨hstate, ?_⟩
  cases hends with
  | takes htaking hgiven =>
    cases htaking with
    | failed | refused hupdater hload hreplace => rfl
    | removed hupdater hload hlocal =>
      cases hupdater
      have hloaded : .loaded _ ∈ authorizationEffects call.log := heffects ▸ List.mem_cons_self
      exact absurd (hmember _ (mem_authorizationEffects_loaded.1 hloaded)) hlocal

omit [Sha256] in
/-- A call that fetches a set without the local validator ends the listener, without any authorized peers. -/
theorem finishCall_removed {established : Bool} {call : Call ListenerState}
    (hends : Ends validators answers s.driver.localPeerId s.state (authorizationEffects call.log) call.result)
    {peers : Finset PeerId} (hloaded : .loaded peers ∈ call.log) (hlocal : s.driver.localPeerId ∉ peers)
    (hreplace : answers.replace = .ok ()) :
    (s.finishCall setup established call).driver.authorizedPeers = ∅ ∧
      (s.finishCall setup established call).phase =
        .returned (.error (.localValidatorRemoved s.driver.localPeerId)) := by
  rw [← mem_authorizationEffects_loaded] at hloaded
  generalize heffects : authorizationEffects call.log = effects at hends hloaded
  generalize hresult : call.result = result at hends
  cases hends with
  | stale => cases hloaded
  | takes htaking hgiven =>
    cases htaking with
    | failed error | kept hhash hkept => cases hloaded
    | replaced hupdater hload hhash hmember =>
      cases hupdater
      simp only [List.mem_cons, Effect.loaded.injEq, List.not_mem_nil, or_false, reduceCtorEq] at hloaded
      exact absurd (hloaded ▸ hmember) hlocal
    | refused hupdater hload herror => cases hreplace.symm.trans herror
    | removed hupdater hload hmember =>
      cases hupdater
      rw [s.finishCall_driver setup established call heffects]
      refine ⟨Finset.erase_empty _, ?_⟩
      unfold ListenerSystem.finishCall
      rw [hresult]
      rfl

theorem next_call (h : s.next setup a = some t) {call : Call ListenerState} (hcall : s.call setup a = some call) :
    (∃ established, t = s.finishCall setup established call) ∧ ∃ answers, a.answers = some answers := by
  cases next_move h with
  | quiet hnone => cases hnone.symm.trans hcall
  | initializeSession hphase hcall' =>
    cases hcall'.symm.trans hcall
    exact ⟨⟨false, rfl⟩, _, rfl⟩
  | deliver hphase hcall' =>
    cases hcall'.symm.trans hcall
    exact ⟨⟨true, rfl⟩, _, rfl⟩
  | cancel close hnone => cases hnone.symm.trans hcall

/-- Along every run, from the first initialization on, the authorized peers of a running listener are the validators of
the known hash without the local one; a step that fails leaves the hash and the authorized peers; and a step that
fetches a set without the local validator ends the listener with no peer authorized, if the driver takes the set. -/
theorem authorization_follows_validators (validators : ValidatorHistory) (setup : ListenerSetup) (driver : Driver)
    (hp2p : setup.p2pEnabled = true)
    (hs : ((lts setup driver).restrict fun _ a => validators.Honest a).Reachable s) :
    ((∀ result, s.phase ≠ .returned result) → s.state.lastHeight.isSome →
      ∃ hash, s.state.validatorsHash = some hash ∧ s.driver.AuthorizedFrom (validators.setOf hash)) ∧
    ∀ {a t call}, s.next setup a = some t → validators.Honest a → s.call setup a = some call →
      (∀ error, call.result = .error error →
        (∀ peers, .loaded peers ∈ call.log → s.driver.localPeerId ∈ peers) →
        t.state = s.state ∧ t.driver.authorizedPeers = s.driver.authorizedPeers) ∧
      ∀ peers, .loaded peers ∈ call.log → s.driver.localPeerId ∉ peers →
        a.answers.map ChainAnswers.replace = some (.ok ()) →
        t.driver.authorizedPeers = ∅ ∧ t.phase = .returned (.error (.localValidatorRemoved s.driver.localPeerId)) := by
  have hfollows : (∃ result, s.phase = .returned result) ∨ Follows validators s := by
    refine hs.invariant (P := fun s => (∃ result, s.phase = .returned result) ∨ Follows validators s)
      (fun hinit => ?_) ?_
    · cases hinit
      exact .inr ⟨nofun, nofun⟩
    · intro s a t _ hs hstep
      exact follows_step hp2p hs hstep.1 hstep.2
  refine ⟨fun hrunning hlast => ?_, fun {a t call} h hhonest hcall => ?_⟩
  · rcases hfollows with ⟨result, hreturned⟩ | hfollows
    · exact absurd hreturned (hrunning result)
    · obtain ⟨hash, hhash⟩ := Option.isSome_iff_exists.1 (hfollows.known hlast)
      exact ⟨hash, hhash, hfollows.authorized hash hhash⟩
  · obtain ⟨⟨established, rfl⟩, answers, hanswers⟩ := next_call h hcall
    obtain ⟨-, hends⟩ := call_ends hp2p hhonest hanswers hcall
    refine ⟨fun error herror hmember => finishCall_failed hends herror hmember, ?_⟩
    intro peers hloaded hlocal hreplace
    rw [hanswers] at hreplace
    exact finishCall_removed hends hloaded hlocal (Option.some.inj hreplace)

end

/-! ### Two validators, one of which is removed -/

section Fixtures

def keyOf (n : UInt8) : FixedBytes 32 := ⟨List.replicate 32 n, List.length_replicate⟩

def peerOf (n : UInt8) : PeerId := ⟨[0x00, 0x24, 0x08, 0x01, 0x12, 0x20] ++ (keyOf n).1⟩

@[reducible] def everyKey : Ed25519 := ⟨fun _ => .ok ()⟩

/-- The second validator alone is left at the second height. -/
def shrinking : ValidatorHistory where
  header height := keyOf (if height = 1 then 1 else 2)
  setOf hash := if hash = keyOf 1 then {peerOf 1, peerOf 2} else {peerOf 2}

/-- The chain answers for one height only. -/
def answersAt (height : Nat) (keys : List Bytes) : ChainAnswers where
  heightError := ""
  status := .answered ⟨"pulsar-1", false, height⟩
  proofs _ := [.answered ⟨height, 0, "", .ok ⟨[], []⟩⟩]
  block h := if h = height then .answered ⟨height, (shrinking.header height).1⟩ else .timedOut
  validators h := if h = height then .answered ⟨height, keys.length, keys⟩ else .timedOut
  observe _ := .ok .inserted
  replace := .ok ()

def joined : ChainAnswers := answersAt 1 [(keyOf 1).1, (keyOf 2).1]

def left : ChainAnswers := answersAt 2 [(keyOf 2).1]

private theorem answers_answersAt {height : Nat} {keys : List Bytes} (peers : Finset PeerId)
    (hblock : validatorsHash "" height (.answered ⟨height, (shrinking.header height).1⟩) =
      .ok (shrinking.header height))
    (hload : letI := everyKey; loadAt "" height (.answered ⟨height, keys.length, keys⟩) = .ok peers)
    (hpeers : peers = shrinking.setOf (shrinking.header height)) :
    letI := everyKey
    shrinking.Answers (answersAt height keys) := by
  let _ := everyKey
  refine ⟨fun {h hash} hhash => ?_, fun {h peers'} hpeers' => ?_⟩
  · by_cases heq : h = height
    · subst heq
      simp only [answersAt, if_true] at hhash
      exact Except.ok.inj (hhash.symm.trans hblock)
    · simp only [answersAt, if_neg heq, validatorsHash, withTimeout, Except.bind_eq_ok_iff, reduceCtorEq, false_and,
        exists_false, and_false] at hhash
  · by_cases heq : h = height
    · subst heq
      simp only [answersAt, if_true] at hpeers'
      exact (Except.ok.inj (hpeers'.symm.trans hload)).trans hpeers
    · simp only [answersAt, if_neg heq, loadAt, validatorPublicKeys, withTimeout, Except.bind_eq_ok_iff, reduceCtorEq,
        false_and, exists_false, and_false] at hpeers'

theorem answers_joined :
    letI := everyKey
    shrinking.Answers joined :=
  answers_answersAt {peerOf 1, peerOf 2} (by decide +kernel) (by decide +kernel) (by decide +kernel)

theorem answers_left :
    letI := everyKey
    shrinking.Answers left :=
  answers_answersAt {peerOf 2} (by decide +kernel) (by decide +kernel) (by decide +kernel)

def secondBlock : BlockEvent := .newBlock (some ⟨2, (keyOf 2).1⟩) (some [])

private def member : ListenerSetup := ⟨⟨1, 8⟩, ⟨"pulsar-1"⟩, true⟩

private def membersDriver : Driver := .build .small (peerOf 1) ∅ {0}

/-- The node after its first session is established. -/
private def connected : ListenerSystem :=
  letI := Sha256.standard
  letI := everyKey
  ({ initial member membersDriver with phase := .initializing }).finishCall member false
    (Listener.initializeSession joined member.client (some (peerOf 1)) ⟨none, none⟩)

private theorem reachable_connected :
    letI := Sha256.standard
    letI := everyKey
    ((lts member membersDriver).restrict fun _ a => shrinking.Honest a).Reachable connected :=
  ⟨initial member membersDriver, [.subscribe (.ok ()), .initializeSession joined], rfl,
    .cons ⟨rfl, trivial⟩ (.cons ⟨rfl, answers_joined⟩ (.refl _))⟩

/-- The second block is true, whatever the driver answers. -/
private theorem honest_secondBlock (replace : Except Error Unit) :
    letI := everyKey
    shrinking.Honest (.deliver (some (.ok secondBlock)) { left with replace }) := by
  let _ := everyKey
  refine ⟨⟨answers_left.block, answers_left.set⟩, fun block hblock => ?_⟩
  cases hblock
  rfl

end Fixtures

/-- A node joins the peer network with another validator, and leaves it when it is no validator any more. -/
theorem authorization_follows_validators_until_removed :
    letI := Sha256.standard
    letI := everyKey
    ∃ s t, ((lts ⟨⟨1, 8⟩, ⟨"pulsar-1"⟩, true⟩ (.build .small (peerOf 1) ∅ {0})).restrict
        fun _ a => shrinking.Honest a).Reachable s ∧
      s.state.validatorsHash = some (keyOf 1) ∧ s.driver.AuthorizedFrom (shrinking.setOf (keyOf 1)) ∧
      s.next ⟨⟨1, 8⟩, ⟨"pulsar-1"⟩, true⟩ (.deliver (some (.ok secondBlock)) left) = some t ∧
      t.driver.authorizedPeers = ∅ ∧ t.phase = .returned (.error (.localValidatorRemoved (peerOf 1))) := by
  let _ := Sha256.standard
  let _ := everyKey
  have hs : connected.phase = .streaming ∧ connected.state = ⟨some 1, some (keyOf 1)⟩ ∧
      connected.driver.localPeerId = peerOf 1 := by
    decide +kernel
  obtain ⟨hphase, hstate, hlocal⟩ := hs
  obtain ⟨hauthorized, hcalls⟩ := authorization_follows_validators shrinking member membersDriver rfl
    reachable_connected
  obtain ⟨hash, hhash, hpeers⟩ := hauthorized (fun result h => nomatch hphase.symm.trans h) (by rw [hstate]; rfl)
  rw [hstate] at hhash
  cases hhash
  have hnext : (connected.next member (.deliver (some (.ok secondBlock)) left)).isSome = true := by
    decide +kernel
  obtain ⟨t, ht⟩ := Option.isSome_iff_exists.1 hnext
  have hloaded : .loaded {peerOf 2} ∈ (do
      let block ← .lift (committedBlock secondBlock)
      processBlock left (connected.updater member) connected.state block : Call ListenerState).log := by
    decide +kernel
  obtain ⟨hempty, hended⟩ :=
    (hcalls ht (honest_secondBlock (.ok ())) rfl).2 {peerOf 2} hloaded (by rw [hlocal]; decide) rfl
  rw [hlocal] at hended
  exact ⟨connected, t, reachable_connected, congrArg ListenerState.validatorsHash hstate, hpeers, ht, hempty, hended⟩

/-- A driver that is closed does not take the empty set: the node that is no validator any more keeps its authorized
peer, and its listener goes on to the next session. -/
theorem closed_driver_keeps_authorized :
    letI := Sha256.standard
    letI := everyKey
    ∃ s t call, ((lts ⟨⟨1, 8⟩, ⟨"pulsar-1"⟩, true⟩ (.build .small (peerOf 1) ∅ {0})).restrict
        fun _ a => shrinking.Honest a).Reachable s ∧
      shrinking.Honest (.deliver (some (.ok secondBlock)) { left with replace := .error .p2pDriverClosed }) ∧
      s.next ⟨⟨1, 8⟩, ⟨"pulsar-1"⟩, true⟩
        (.deliver (some (.ok secondBlock)) { left with replace := .error .p2pDriverClosed }) = some t ∧
      s.call ⟨⟨1, 8⟩, ⟨"pulsar-1"⟩, true⟩
        (.deliver (some (.ok secondBlock)) { left with replace := .error .p2pDriverClosed }) = some call ∧
      .loaded {peerOf 2} ∈ call.log ∧ s.driver.localPeerId = peerOf 1 ∧
      t.driver.authorizedPeers = {peerOf 2} ∧ t.phase = .waiting := by
  let _ := Sha256.standard
  let _ := everyKey
  let call : Call ListenerState := do
    let block ← .lift (committedBlock secondBlock)
    processBlock { left with replace := .error .p2pDriverClosed } (connected.updater member) connected.state block
  have hrun : connected.next member
      (.deliver (some (.ok secondBlock)) { left with replace := .error .p2pDriverClosed }) =
        some (connected.finishCall member true call) := rfl
  have hend : .loaded {peerOf 2} ∈ call.log ∧ connected.driver.localPeerId = peerOf 1 ∧
      (connected.finishCall member true call).driver.authorizedPeers = {peerOf 2} ∧
      (connected.finishCall member true call).phase = .waiting := by
    decide +kernel
  exact ⟨connected, _, call, reachable_connected, honest_secondBlock _, hrun, rfl, hend⟩

end ListenerSystem

end PulsarVerifier
