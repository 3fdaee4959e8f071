import PulsarVerifier.Listener.Authorization

/-!
# The heights of the listener

The last height, the validators hash and the authorized peers of a node are all taken from some height of the chain.  A
block that is not newer than the last one is left alone, but a session begins at whatever height the node reports, also
at a lower one: the listener then goes back, and authorizes validators that were removed since.  If no node that is
asked is behind the listener, the heights never decrease.
-/

namespace PulsarVerifier

/-- What a step takes from the chain, with the height it is taken from. -/
inductive Taken
  | peers (height : Nat)
  | hash (height : Nat)
  | last (height : Nat)
  deriving DecidableEq

def Taken.height : Taken → Nat
  | .peers height | .hash height | .last height => height

def Listener.Effect.replaces : Listener.Effect → Bool
  | .replaced _ => true
  | _ => false

namespace ListenerAction

/-- The height that the status of the node reports to an initialization. -/
def reported (client : PulsarClient) : ListenerAction → Option Nat
  | .initializeSession answers | .cancel answers _ _ =>
    (client.status answers.status).toOption.map ChainStatus.latestHeight
  | _ => none

/-- The height that the call of a step works at. -/
def height (client : PulsarClient) : ListenerAction → Option Nat
  | .deliver (some (.ok event)) _ => (committedBlock event).toOption.map CommittedBlock.height
  | a => a.reported client

def queried : ListenerAction → Option ChainAnswers
  | .initializeSession answers | .cancel answers _ _ | .deliver _ answers => some answers
  | _ => none

/-- The chain gives this validators hash for the height: the header that is read, or that of the block. -/
def Gives (height : Nat) (hash : FixedBytes 32) : ListenerAction → Prop
  | .initializeSession answers => validatorsHash answers.heightError height (answers.block height) = .ok hash
  | .deliver (some (.ok event)) _ =>
    ∃ block, committedBlock event = .ok block ∧ block.height = height ∧ block.validatorsHash = hash
  | _ => False

end ListenerAction

namespace ListenerSystem

open Listener

variable {setup : ListenerSetup} {s t : ListenerSystem} {a : ListenerAction} {height : Nat}

/-- No node that is asked for its status is behind the listener. -/
def NotBehind (setup : ListenerSetup) (s : ListenerSystem) (a : ListenerAction) : Prop :=
  ∀ height ∈ a.reported setup.client, ∀ last ∈ s.state.lastHeight, last ≤ height

instance (setup : ListenerSetup) (s : ListenerSystem) (a : ListenerAction) : Decidable (NotBehind setup s a) :=
  inferInstanceAs (Decidable (∀ height ∈ a.reported setup.client, ∀ last ∈ s.state.lastHeight, last ≤ height))

/-- What a call at this height assigns when it succeeds: the initialization reads no header without a peer network,
and a block that is not newer than the last one changes nothing. -/
def assigned (setup : ListenerSetup) (s : ListenerSystem) (height : Nat) : ListenerAction → List Taken
  | .initializeSession _ => if setup.p2pEnabled then [.hash height, .last height] else [.last height]
  | _ => if s.state.lastHeight.all (height > ·) then [.hash height, .last height] else []

section

variable [Sha256] [Ed25519]

def effects (setup : ListenerSetup) (s : ListenerSystem) : ListenerAction → List Effect
  | .cancel answers count _ =>
    (Listener.initializeSession answers setup.client (s.updater setup) s.state).log.take count
  | a => ((s.call setup a).map Logged.log).getD []

/-- What a step takes from the chain, in this order. -/
def taken (setup : ListenerSetup) (s : ListenerSystem) (a : ListenerAction) (t : ListenerSystem) : List Taken :=
  match a.height setup.client with
  | none => []
  | some height =>
    (if (s.effects setup a).any Effect.replaces then [.peers height] else []) ++
      if t.phase = .streaming then s.assigned setup height a else []

/-- The authorized peers after the step are the validators of this height without the local one; there are none if the
local one is no validator. -/
def Installs (s : ListenerSystem) (a : ListenerAction) (t : ListenerSystem) (height : Nat) : Prop :=
  ∃ answers peers, a.queried = some answers ∧
    loadAt answers.heightError height (answers.validators height) = .ok peers ∧
    t.driver.authorizedPeers = if s.driver.localPeerId ∈ peers then peers.erase s.driver.localPeerId else ∅

/-! ### What a step takes -/

/-- What is taken in a step, and where the new values come from. -/
inductive HeightMove (setup : ListenerSetup) (s : ListenerSystem) (a : ListenerAction) (t : ListenerSystem) :
    List Taken → Prop
  | nothing (hstate : t.state = s.state) (hpeers : t.driver.authorizedPeers = s.driver.authorizedPeers) :
    HeightMove setup s a t []
  /-- the listener ends between the two updates -/
  | ended {height : Nat} {result : Except Error Unit}
      (hheight : NotBehind setup s a → ∀ last ∈ s.state.lastHeight, last ≤ height)
      (hphase : t.phase = .returned result) (hstate : t.state = s.state) (hpeers : Installs s a t height) :
    HeightMove setup s a t [.peers height]
  /-- without a peer network -/
  | unread {height : Nat} (hheight : NotBehind setup s a → ∀ last ∈ s.state.lastHeight, last ≤ height)
      (hstate : t.state = ⟨some height, s.state.validatorsHash⟩)
      (hpeers : t.driver.authorizedPeers = s.driver.authorizedPeers) : HeightMove setup s a t [.last height]
  | kept {height : Nat} {hash : FixedBytes 32}
      (hheight : NotBehind setup s a → ∀ last ∈ s.state.lastHeight, last ≤ height) (hgives : a.Gives height hash)
      (hstate : t.state = ⟨some height, some hash⟩) (hpeers : t.driver.authorizedPeers = s.driver.authorizedPeers) :
    HeightMove setup s a t [.hash height, .last height]
  | replaced {height : Nat} {hash : FixedBytes 32}
      (hheight : NotBehind setup s a → ∀ last ∈ s.state.lastHeight, last ≤ height) (hgives : a.Gives height hash)
      (hstate : t.state = ⟨some height, some hash⟩) (hpeers : Installs s a t height) :
    HeightMove setup s a t [.peers height, .hash height, .last height]

omit [Sha256] [Ed25519] in
theorem any_replaces_authorizationEffects (effects : List Effect) :
    (authorizationEffects effects).any Effect.replaces = effects.any Effect.replaces := by
  induction effects with
  | nil => rfl
  | cons effect effects ih =>
    cases effect with
    | observe id | loaded peers => exact ih
    | replaced peers => rfl

omit [Sha256] [Ed25519] in
theorem perform_driver_of_not_replaces {effects : List Effect} (h : effects.any Effect.replaces = false) :
    (s.perform effects).driver = s.driver := by
  induction effects generalizing s with
  | nil => rfl
  | cons effect effects ih =>
    cases effect with
    | observe id => exact ih (s := { s with observed := s.observed ++ [id] }) h
    | loaded peers => exact ih h
    | replaced peers => cases h

omit [Sha256] in
/-- The first effects of a call do not reach the driver, or they are all. -/
theorem replaces_of_prefix {answers : ChainAnswers} {updater : Option PeerId}
    {state : ListenerState} {given : Option (FixedBytes 32) → Prop} {effects first : List Effect}
    {result : Except Error ListenerState} (h : Taking answers updater state height given effects result)
    (hfirst : first <+: effects) (hreplaces : first.any Effect.replaces = true) :
    ∃ localPeerId peers, updater = some localPeerId ∧
      loadAt answers.heightError height (answers.validators height) = .ok peers ∧
      first = [.loaded peers, .replaced (if localPeerId ∈ peers then peers else ∅)] := by
  -- the replacement is the last of the two effects
  have hpair : ∀ {peers peers' : Finset PeerId}, first <+: [.loaded peers, .replaced peers'] →
      first = [.loaded peers, .replaced peers'] := by
    intro peers peers' hprefix
    rcases first with _ | ⟨x, _ | ⟨y, rest⟩⟩
    · cases hreplaces
    · obtain ⟨rfl, -⟩ := List.cons_prefix_cons.1 hprefix
      cases hreplaces
    · obtain ⟨rfl, htail⟩ := List.cons_prefix_cons.1 hprefix
      obtain ⟨rfl, hnil⟩ := List.cons_prefix_cons.1 htail
      rw [List.prefix_nil.1 hnil]
  have hnone : ∀ {effects : List Effect}, effects.any Effect.replaces = false → ¬first <+: effects := by
    intro effects hno hfirst
    obtain ⟨effect, hmem, heffect⟩ := List.any_eq_true.1 hreplaces
    exact absurd heffect (List.any_eq_false.1 hno effect (hfirst.subset hmem))
  cases h with
  | failed error | kept hgiven hkept | refused hupdater hload hreplace => exact absurd hfirst (hnone rfl)
  | replaced hupdater hload hgiven hlocal =>
    refine ⟨_, _, hupdater, hload, ?_⟩
    rw [if_pos hlocal]
    exact hpair hfirst
  | removed hupdater hload hlocal =>
    refine ⟨_, _, hupdater, hload, ?_⟩
    rw [if_neg hlocal]
    exact hpair hfirst

omit [Sha256] [Ed25519] in
theorem updater_eq_some {localPeerId : PeerId} (h : s.updater setup = some localPeerId) :
    localPeerId = s.driver.localPeerId := by
  unfold updater at h
  split at h
  · exact (Option.some.inj h).symm
  · cases h

theorem heightMove_of_takes {answers : ChainAnswers} {given : Option (FixedBytes 32) → Prop} {established : Bool}
    {call : Call ListenerState} (heffects : s.effects setup a = call.log)
    (hheight : a.height setup.client = some height)
    (hqueried : a.queried = some answers) (htakes : Takes answers (s.updater setup) s.state height given call)
    (habove : NotBehind setup s a → ∀ last ∈ s.state.lastHeight, last ≤ height)
    (hassigned : (s.assigned setup height a = [.hash height, .last height] ∧
        ∀ hash, given hash → ∃ read, hash = some read ∧ a.Gives height read) ∨
      s.updater setup = none ∧ s.assigned setup height a = [.last height] ∧
        ∀ hash, given hash → hash = s.state.validatorsHash) :
    HeightMove setup s a (s.finishCall setup established call)
      (taken setup s a (s.finishCall setup established call)) := by
  unfold taken
  rw [hheight, heffects, ← any_replaces_authorizationEffects]
  unfold Takes at htakes
  -- one case for each way in which the call can end
  generalize heq : authorizationEffects call.log = effects at htakes ⊢
  have hdriver := s.finishCall_driver setup established call heq
  generalize hresult : call.result = result at htakes
  cases htakes with
  | failed error | refused hupdater hload hreplace =>
    obtain ⟨hstate, hphase⟩ := s.finishCall_error setup established hresult
    simp only [if_neg hphase]
    exact .nothing hstate (by rw [hdriver]; rfl)
  | removed hupdater hload hlocal =>
    obtain ⟨hstate, hphase⟩ := s.finishCall_error setup established hresult
    cases updater_eq_some hupdater
    have hreturned : (s.finishCall setup established call).phase =
        .returned (.error (.localValidatorRemoved s.driver.localPeerId)) := by
      unfold finishCall
      rw [hresult]
      rfl
    simp only [if_neg hphase]
    refine .ended habove hreturned hstate ⟨answers, _, hqueried, hload, ?_⟩
    rw [hdriver, if_neg hlocal]
    exact Finset.erase_empty _
  | kept hgiven hkept =>
    have hstate := s.finishCall_ok setup established hresult
    simp only [if_pos (s.finishCall_streaming setup established hresult)]
    have hpeers : (s.finishCall setup established call).driver.authorizedPeers = s.driver.authorizedPeers := by
      rw [hdriver]
      rfl
    rcases hassigned with ⟨hassigned, hread⟩ | ⟨-, hassigned, hunread⟩
    · obtain ⟨read, rfl, hgives⟩ := hread _ hgiven
      rw [hassigned]
      exact .kept habove hgives hstate hpeers
    · cases hunread _ hgiven
      rw [hassigned]
      exact .unread habove hstate hpeers
  | replaced hupdater hload hgiven hlocal =>
    have hstate := s.finishCall_ok setup established hresult
    simp only [if_pos (s.finishCall_streaming setup established hresult)]
    rcases hassigned with ⟨hassigned, hread⟩ | ⟨hnone, -⟩
    · obtain ⟨read, rfl, hgives⟩ := hread _ hgiven
      cases updater_eq_some hupdater
      rw [hassigned]
      refine .replaced habove hgives hstate ⟨answers, _, hqueried, hload, ?_⟩
      rw [hdriver, if_pos hlocal]
      rfl
    · cases hnone.symm.trans hupdater

theorem next_quiet (h : s.next setup a = some t) (hcall : s.call setup a = none)
    (hcancel : ∀ answers count close, a ≠ .cancel answers count close) :
    t.state = s.state ∧ t.driver.authorizedPeers = s.driver.authorizedPeers := by
  have hdisconnect : ∀ established error, (s.disconnect setup established error).state = s.state ∧
      (s.disconnect setup established error).driver.authorizedPeers = s.driver.authorizedPeers := by
    intro established error
    obtain ⟨phase, backoff, heq, -⟩ := s.disconnect_frame setup established error
    rw [heq]
    exact ⟨rfl, rfl⟩
  unfold next at h
  split at h
  · cases h
    exact ⟨rfl, rfl⟩
  · split at h
    · rename_i hsame
      cases h
      exact ⟨rfl, hsame.1⟩
    · cases h
  · cases h
    exact ⟨rfl, rfl⟩
  · cases h
    exact ⟨rfl, rfl⟩
  · cases h
    exact hdisconnect _ _
  · cases hcall
  · cases h
    exact hdisconnect _ _
  · cases h
    exact hdisconnect _ _
  · cases hcall
  · cases h
    exact ⟨rfl, rfl⟩
  · split at h
    · cases h
      exact ⟨rfl, rfl⟩
    · cases h
  · split at h
    · cases h
      exact ⟨rfl, rfl⟩
    · cases h
  · split at h
    · cases h
      exact ⟨rfl, rfl⟩
    · cases h
  · exact absurd rfl (hcancel _ _ _)
  · cases h

theorem next_cancel {answers : ChainAnswers} {count : Nat} {close : Except Error Unit}
    (h : s.next setup (.cancel answers count close) = some t) :
    t = { s.perform (s.effects setup (.cancel answers count close)) with phase := .returned close } := by
  cases hphase : s.phase with
  | initializing =>
    simp only [next, hphase] at h
    split at h
    · cases h
      rfl
    · cases h
  | _ => simp only [next, hphase, reduceCtorEq] at h

theorem taken_of_none (h : a.height setup.client = none) : taken setup s a t = [] := by
  unfold taken
  rw [h]

theorem heightMove_of_failed {established : Bool} {error : Error} (h : a.height setup.client = none) :
    HeightMove setup s a (s.finishCall setup established ⟨[], .error error⟩)
      (taken setup s a (s.finishCall setup established ⟨[], .error error⟩)) := by
  rw [taken_of_none h]
  have hresult : (⟨[], .error error⟩ : Call ListenerState).result = .error error := rfl
  obtain ⟨hstate, -⟩ := s.finishCall_error setup established hresult
  exact .nothing hstate (congrArg Driver.authorizedPeers (s.finishCall_driver setup established ⟨[], .error error⟩ rfl))

theorem heightMove_cancel {answers : ChainAnswers} {count : Nat} {close : Except Error Unit}
    (h : s.next setup (.cancel answers count close) = some t) :
    HeightMove setup s (.cancel answers count close) t (taken setup s (.cancel answers count close) t) := by
  cases next_cancel h
  obtain ⟨hstate, -⟩ := s.perform_frame (s.effects setup (.cancel answers count close))
  cases hstatus : setup.client.status answers.status with
  | error error =>
    have heffects : s.effects setup (.cancel answers count close) = [] := by
      simp only [effects, initializeSession_of_error hstatus, List.take_nil]
    rw [taken_of_none (by simp only [ListenerAction.height, ListenerAction.reported, hstatus]; rfl), heffects]
    exact .nothing rfl rfl
  | ok status =>
    have hreported : ListenerAction.reported setup.client (.cancel answers count close) = some status.latestHeight := by
      simp only [ListenerAction.reported, hstatus]
      rfl
    have hheight : ListenerAction.height setup.client (.cancel answers count close) = some status.latestHeight :=
      hreported
    unfold taken
    rw [hheight]
    simp only [reduceCtorEq, if_false, List.append_nil]
    cases hreplaces : (s.effects setup (.cancel answers count close)).any Effect.replaces with
    | false => exact .nothing hstate (congrArg Driver.authorizedPeers (perform_driver_of_not_replaces hreplaces))
    | true =>
      rw [← any_replaces_authorizationEffects] at hreplaces
      -- a cancelled call has made the first effects of the whole one
      have hfirst : authorizationEffects (s.effects setup (.cancel answers count close)) <+:
          authorizationEffects (Listener.initializeSession answers setup.client (s.updater setup) s.state).log :=
        (List.take_prefix _ _).filter _
      obtain ⟨localPeerId, peers, hupdater, hload, heffects⟩ :=
        replaces_of_prefix (initializeSession_takes hstatus) hfirst hreplaces
      cases updater_eq_some hupdater
      refine .ended (fun hnot => hnot _ hreported) rfl hstate ⟨answers, peers, rfl, hload, ?_⟩
      have hdriver := s.perform_driver_authorizationEffects (s.effects setup (.cancel answers count close))
      rw [heffects] at hdriver
      refine (congrArg Driver.authorizedPeers hdriver).trans ?_
      change Finset.erase (if s.driver.localPeerId ∈ peers then peers else ∅) s.driver.localPeerId = _
      split
      · rfl
      · exact Finset.erase_empty _

theorem heightMove_initializeSession {answers : ChainAnswers} :
    let call := Listener.initializeSession answers setup.client (s.updater setup) s.state
    HeightMove setup s (.initializeSession answers) (s.finishCall setup false call)
      (taken setup s (.initializeSession answers) (s.finishCall setup false call)) := by
  intro call
  cases hstatus : setup.client.status answers.status with
  | error error =>
    have hcall : call = ⟨[], .error error⟩ := initializeSession_of_error hstatus
    rw [hcall]
    refine heightMove_of_failed ?_
    simp only [ListenerAction.height, ListenerAction.reported, hstatus]
    rfl
  | ok status =>
    have hreported : ListenerAction.reported setup.client (.initializeSession answers) = some status.latestHeight := by
      simp only [ListenerAction.reported, hstatus]
      rfl
    refine heightMove_of_takes rfl hreported rfl (initializeSession_takes hstatus) (fun hnot => hnot _ hreported) ?_
    -- without a peer network no header is read, so the hash stays
    unfold updater assigned InitialHash
    cases setup.p2pEnabled with
    | true => exact .inl ⟨rfl, fun hash hhash => hhash⟩
    | false => exact .inr ⟨rfl, rfl, fun hash hhash => hhash⟩

theorem heightMove_deliver {answers : ChainAnswers} {event : BlockEvent} {call : Call ListenerState}
    (hcall : s.call setup (.deliver (some (.ok event)) answers) = some call) :
    HeightMove setup s (.deliver (some (.ok event)) answers) (s.finishCall setup true call)
      (taken setup s (.deliver (some (.ok event)) answers) (s.finishCall setup true call)) := by
  cases hcall
  cases hblock : committedBlock event with
  | error error =>
    refine heightMove_of_failed ?_
    simp only [ListenerAction.height, hblock]
    rfl
  | ok block =>
    have hheight : ListenerAction.height setup.client (.deliver (some (.ok event)) answers) = some block.height := by
      simp only [ListenerAction.height, hblock]
      rfl
    have heffects : s.effects setup (.deliver (some (.ok event)) answers) =
        (processBlock answers (s.updater setup) s.state block).log := by
      simp only [effects, ListenerSystem.call, hblock]
      rfl
    change HeightMove setup s _ (s.finishCall setup true (processBlock answers (s.updater setup) s.state block))
      (taken setup s _ (s.finishCall setup true (processBlock answers (s.updater setup) s.state block)))
    cases hadvances : advances s.state block with
    | true =>
      refine heightMove_of_takes heffects hheight rfl (processBlock_takes hadvances) (fun _ last hlast => ?_)
        (.inl ⟨if_pos hadvances, fun hash hhash => ⟨_, hhash, block, hblock, rfl, rfl⟩⟩)
      unfold advances at hadvances
      rw [hlast] at hadvances
      exact (of_decide_eq_true hadvances).le
    | false =>
      -- a block that is not newer changes nothing
      have hstale : authorizationEffects (processBlock answers (s.updater setup) s.state block).log = [] ∧ _ :=
        processBlock_stale hadvances
      obtain ⟨hlog, hstate⟩ := hstale
      have hdriver := s.finishCall_driver setup true (processBlock answers (s.updater setup) s.state block) hlog
      have htaken : taken setup s (.deliver (some (.ok event)) answers)
          (s.finishCall setup true (processBlock answers (s.updater setup) s.state block)) = [] := by
        unfold taken
        rw [hheight, heffects, ← any_replaces_authorizationEffects, hlog]
        have hassigned : s.assigned setup block.height (.deliver (some (.ok event)) answers) = [] :=
          if_neg (Bool.eq_false_iff.1 hadvances)
        simp [hassigned]
      rw [htaken]
      refine .nothing ?_ (congrArg Driver.authorizedPeers hdriver)
      cases hresult : (processBlock answers (s.updater setup) s.state block).result with
      | ok state' => rw [s.finishCall_ok setup true hresult, hstate state' hresult]
      | error error => exact (s.finishCall_error setup true hresult).1

theorem taken_move (h : s.next setup a = some t) : HeightMove setup s a t (taken setup s a t) := by
  by_cases hcancel : ∃ answers count close, a = .cancel answers count close
  · obtain ⟨answers, count, close, rfl⟩ := hcancel
    exact heightMove_cancel h
  · cases hcall : s.call setup a with
    | none =>
      obtain ⟨hstate, hpeers⟩ := next_quiet h hcall fun answers count close heq => hcancel ⟨answers, count, close, heq⟩
      have hnone : a.height setup.client = none := by
        cases a with
        | initializeSession answers => cases hcall
        | deliver item answers =>
          rcases item with _ | error | event
          · rfl
          · rfl
          · cases hcall
        | cancel answers count close => exact absurd ⟨answers, count, close, rfl⟩ hcancel
        | _ => rfl
      rw [taken_of_none hnone]
      exact .nothing hstate hpeers
    | some call =>
      cases next_move h with
      | quiet hnone | cancel close hnone => cases hnone.symm.trans hcall
      | initializeSession hphase hcall' =>
        cases hcall'
        exact heightMove_initializeSession
      | deliver hphase hcall' => exact heightMove_deliver hcall'

/-! ### Runs -/

/-- The steps of the listener with a record of what they take. -/
def recordedLts (setup : ListenerSetup) (driver : Driver) : Lts (ListenerSystem × List Taken) ListenerAction :=
  .ofNext (fun s => s.1 = initial setup driver ∧ s.2 = []) (Lts.recorded (next setup) (taken setup))

theorem taken_of_returned {result : Except Error Unit} (hphase : s.phase = .returned result)
    (h : s.next setup a = some t) : t.phase = .returned result ∧ taken setup s a t = [] := by
  cases a with
  | commit =>
    simp only [next] at h
    cases h
    exact ⟨hphase, taken_of_none rfl⟩
  | driverStep driver =>
    simp only [next] at h
    split at h
    · cases h
      exact ⟨hphase, taken_of_none rfl⟩
    · cases h
  | requestStop =>
    simp only [next] at h
    cases h
    exact ⟨hphase, taken_of_none rfl⟩
  | _ => simp only [next, hphase, reduceCtorEq] at h

/-- The heights of the record do not decrease, and as long as the listener runs none is above the last height. -/
structure Ascends (s : ListenerSystem × List Taken) : Prop where
  sorted : (s.2.map Taken.height).Pairwise (· ≤ ·)
  bounded : (∃ result, s.1.phase = .returned result) ∨
    ∀ entry ∈ s.2, ∃ last ∈ s.1.state.lastHeight, entry.height ≤ last

omit [Sha256] [Ed25519] in
/-- Entries of one height, which is not below the last one. -/
theorem Ascends.append {s : ListenerSystem × List Taken} (hs : Ascends s)
    (hbounded : ∀ entry ∈ s.2, ∃ last ∈ s.1.state.lastHeight, entry.height ≤ last)
    (hheight : ∀ last ∈ s.1.state.lastHeight, last ≤ height) {entries : List Taken}
    (hentries : ∀ entry ∈ entries, entry.height = height) :
    ((s.2 ++ entries).map Taken.height).Pairwise (· ≤ ·) := by
  rw [List.map_append, List.pairwise_append]
  refine ⟨hs.sorted, ?_, ?_⟩
  · refine List.pairwise_map.2 (List.pairwise_of_forall_mem_list fun entry hentry entry' hentry' => ?_)
    rw [hentries entry hentry, hentries entry' hentry']
  · intro h hh h' hh'
    obtain ⟨entry, hentry, rfl⟩ := List.mem_map.1 hh
    obtain ⟨entry', hentry', rfl⟩ := List.mem_map.1 hh'
    obtain ⟨last, hlast, hle⟩ := hbounded entry hentry
    rw [hentries entry' hentry']
    exact hle.trans (hheight last hlast)

/-- The new values of a step come from the heights that are taken, and what is not taken stays. -/
structure Tells (s : ListenerSystem) (a : ListenerAction) (t : ListenerSystem) (entries : List Taken) : Prop where
  last : ∀ height, .last height ∈ entries → t.state.lastHeight = some height
  lastKept : (∀ height, .last height ∉ entries) → t.state.lastHeight = s.state.lastHeight
  hash : ∀ height, .hash height ∈ entries → ∃ hash, t.state.validatorsHash = some hash ∧ a.Gives height hash
  hashKept : (∀ height, .hash height ∉ entries) → t.state.validatorsHash = s.state.validatorsHash
  peers : ∀ height, .peers height ∈ entries → Installs s a t height
  peersKept : (∀ height, .peers height ∉ entries) → t.driver.authorizedPeers = s.driver.authorizedPeers

omit [Sha256] in
theorem HeightMove.tells {entries : List Taken} (h : HeightMove setup s a t entries) : Tells s a t entries := by
  cases h with
  | nothing hstate hpeers | ended hheight hphase hstate hpeers | unread hheight hstate hpeers =>
    constructor <;> simp [hstate, hpeers]
  | kept hheight hgives hstate hpeers | replaced hheight hgives hstate hpeers =>
    constructor <;> simp [hstate, hgives, hpeers]

omit [Sha256] in
/-- All that a step takes is of one height, at which a running listener then is. -/
theorem HeightMove.heights {entries : List Taken} (h : HeightMove setup s a t entries) (hnot : NotBehind setup s a) :
    (entries = [] ∧ t.state = s.state) ∨
    ∃ height, (∀ entry ∈ entries, entry.height = height) ∧ (∀ last ∈ s.state.lastHeight, last ≤ height) ∧
      (t.state.lastHeight = some height ∨ (∃ result, t.phase = .returned result) ∧ t.state = s.state) := by
  cases h with
  | nothing hstate hpeers => exact .inl ⟨rfl, hstate⟩
  | ended hheight hphase hstate hpeers =>
    exact .inr ⟨_, by simp [Taken.height], hheight hnot, .inr ⟨⟨_, hphase⟩, hstate⟩⟩
  | unread hheight hstate hpeers | kept hheight hgives hstate hpeers =>
    exact .inr ⟨_, by simp [Taken.height], hheight hnot, .inl (by rw [hstate])⟩
  | replaced hheight hgives hstate hpeers =>
    exact .inr ⟨_, by simp [Taken.height], hheight hnot, .inl (by rw [hstate])⟩

theorem ascends_next {s : ListenerSystem × List Taken} (hs : Ascends s) (hnext : s.1.next setup a = some t)
    (hnot : NotBehind setup s.1 a) : Ascends (t, s.2 ++ taken setup s.1 a t) := by
  rcases hs.bounded with ⟨result, hphase⟩ | hbounded
  · obtain ⟨hphase', hnothing⟩ := taken_of_returned hphase hnext
    rw [hnothing, List.append_nil]
    exact ⟨hs.sorted, .inl ⟨result, hphase'⟩⟩
  · rcases (taken_move hnext).heights hnot with ⟨hnothing, hstate⟩ | ⟨height, hentries, habove, hlast⟩
    · rw [hnothing, List.append_nil]
      refine ⟨hs.sorted, .inr ?_⟩
      rw [hstate]
      exact hbounded
    · refine ⟨hs.append hbounded habove hentries, ?_⟩
      rcases hlast with hlast | ⟨hphase, -⟩
      · refine .inr fun entry hentry => ⟨height, hlast, ?_⟩
        rcases List.mem_append.1 hentry with hentry | hentry
        · obtain ⟨last, hmem, hle⟩ := hbounded entry hentry
          exact hle.trans (habove last hmem)
        · exact (hentries entry hentry).le
      · exact .inl hphase

/-- If no node that the listener asks is behind it, the heights that the last height, the validators hash and the
authorized peers are taken from never decrease along a run; every new value comes from a height of the record; and the
validators that a step authorizes are those of a height which is not below any height before. -/
theorem heights_never_decrease (setup : ListenerSetup) (driver : Driver) {s : ListenerSystem × List Taken}
    (hs : ((recordedLts setup driver).restrict fun s a => NotBehind setup s.1 a).Reachable s) :
    (s.2.map Taken.height).Pairwise (· ≤ ·) ∧
    ∀ {a t}, s.1.next setup a = some t → Tells s.1 a t (taken setup s.1 a t) ∧ (NotBehind setup s.1 a →
      (∀ last ∈ s.1.state.lastHeight, ∃ last' ∈ t.state.lastHeight, last ≤ last') ∧
      ∀ peer ∈ t.driver.authorizedPeers, peer ∉ s.1.driver.authorizedPeers →
        ∃ height, Installs s.1 a t height ∧ ∀ entry ∈ s.2, entry.height ≤ height) := by
  have hascends : Ascends s := by
    refine hs.invariant (P := Ascends) (fun {s} hinit => ?_) (fun {s a t} _ hs hstep => ?_)
    · obtain ⟨s, record⟩ := s
      cases hinit.2
      exact ⟨.nil, .inr nofun⟩
    · obtain ⟨hnext, hrecord⟩ := Lts.recorded_eq_some.1 hstep.1
      have hnew := ascends_next hs hnext hstep.2
      rwa [← hrecord] at hnew
  refine ⟨hascends.sorted, fun {a t} hnext => ⟨(taken_move hnext).tells, fun hnot => ⟨fun last hlast => ?_, ?_⟩⟩⟩
  · rcases (taken_move hnext).heights hnot with ⟨-, hstate⟩ | ⟨height, -, habove, hafter | ⟨-, hstate⟩⟩
    · exact ⟨last, hstate ▸ hlast, le_rfl⟩
    · exact ⟨height, hafter, habove last hlast⟩
    · exact ⟨last, hstate ▸ hlast, le_rfl⟩
  · intro peer hpeer hnew
    have htells := (taken_move hnext).tells
    by_cases hpeers : ∃ height, .peers height ∈ taken setup s.1 a t
    · obtain ⟨height, hmem⟩ := hpeers
      refine ⟨height, htells.peers height hmem, fun entry hentry => ?_⟩
      have hsorted := (ascends_next hascends hnext hnot).sorted
      rw [List.map_append, List.pairwise_append] at hsorted
      exact hsorted.2.2 _ (List.mem_map_of_mem hentry) _ (List.mem_map_of_mem hmem)
    · rw [htells.peersKept (not_exists.1 hpeers)] at hpeer
      exact absurd hpeer hnew

end

/-! ### Two validators, one of which is removed -/

private def remaining : ListenerSetup := ⟨⟨1, 8⟩, ⟨"pulsar-1"⟩, true⟩

/-- A session begins at the first height, and the second block follows. -/
theorem heights_never_decrease_followed :
    letI := Sha256.standard
    letI := everyKey
    ∃ s, ((recordedLts remaining (.build .small (peerOf 2) ∅ {0})).restrict
        fun s a => NotBehind remaining s.1 a).Reachable s ∧
      s.2 = [.peers 1, .hash 1, .last 1, .peers 2, .hash 2, .last 2] ∧ (s.2.map Taken.height).Pairwise (· ≤ ·) := by
  let _ := Sha256.standard
  let _ := everyKey
  let driver : Driver := .build .small (peerOf 2) ∅ {0}
  have hexec : (Lts.exec (Lts.guarded (Lts.recorded (next remaining) (taken remaining))
      fun s a => NotBehind remaining s.1 a) (initial remaining driver, [])
      [.subscribe (.ok ()), .initializeSession joined, .deliver (some (.ok secondBlock)) left]).any
      (fun s => s.2 = [.peers 1, .hash 1, .last 1, .peers 2, .hash 2, .last 2]) = true := by
    decide +kernel
  obtain ⟨s, hrun, hrecord⟩ := (Option.any_eq_true _ _).1 hexec
  have hreach : ((recordedLts remaining driver).restrict fun s a => NotBehind remaining s.1 a).Reachable s :=
    ⟨_, _, ⟨rfl, rfl⟩, Lts.run_restrict_of_exec hrun⟩
  exact ⟨s, hreach, of_decide_eq_true hrecord, (heights_never_decrease remaining driver hreach).1⟩

/-- A node that lags behind takes the listener back: its answers are true, but they are those of an earlier height, and
the validator that was removed since is authorized again. -/
theorem lagging_node_restores_validator :
    letI := Sha256.standard
    letI := everyKey
    ∃ s t, ((lts remaining (.build .small (peerOf 2) ∅ {0})).restrict fun _ a => shrinking.Honest a).Reachable s ∧
      ((lts remaining (.build .small (peerOf 2) ∅ {0})).restrict fun _ a => shrinking.Honest a).Run s
        [.deliver none joined, .wake, .subscribe (.ok ()), .initializeSession joined] t ∧
      s.state = ⟨some 2, some (keyOf 2)⟩ ∧ peerOf 1 ∉ s.driver.authorizedPeers ∧
      t.state = ⟨some 1, some (keyOf 1)⟩ ∧ peerOf 1 ∈ t.driver.authorizedPeers := by
  let _ := Sha256.standard
  let _ := everyKey
  let driver : Driver := .build .small (peerOf 2) ∅ {0}
  let first : List ListenerAction := [.subscribe (.ok ()), .initializeSession left]
  let second : List ListenerAction :=
    [.deliver none joined, .wake, .subscribe (.ok ()), .initializeSession joined]
  have hexec : (Lts.exec (next remaining) (initial remaining driver) first).any (fun s =>
      s.state = ⟨some 2, some (keyOf 2)⟩ ∧ peerOf 1 ∉ s.driver.authorizedPeers ∧
      (Lts.exec (next remaining) s second).any (fun t =>
        t.state = ⟨some 1, some (keyOf 1)⟩ ∧ peerOf 1 ∈ t.driver.authorizedPeers)) = true := by
    decide +kernel
  obtain ⟨s, hfirst, hs⟩ := (Option.any_eq_true _ _).1 hexec
  obtain ⟨hstate, hremoved, ht⟩ := of_decide_eq_true hs
  obtain ⟨t, hsecond, ht⟩ := (Option.any_eq_true _ _).1 ht
  obtain ⟨hstate', hrestored⟩ := of_decide_eq_true ht
  refine ⟨s, t, ⟨_, first, rfl, (Lts.run_of_exec hfirst).restrict ?_⟩, (Lts.run_of_exec hsecond).restrict ?_, hstate,
    hremoved, hstate', hrestored⟩
  · intro a ha
    rcases List.mem_cons.1 ha with rfl | ha
    · trivial
    · obtain rfl := List.mem_singleton.1 ha
      exact answers_left
  · intro a ha
    obtain rfl | rfl | rfl | rfl : a = _ ∨ a = _ ∨ a = _ ∨ a = _ := by simpa [second] using ha
    · trivial
    · trivial
    · trivial
    · exact answers_joined

end ListenerSystem

end PulsarVerifier
