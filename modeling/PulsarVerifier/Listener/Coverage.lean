import PulsarVerifier.Chain.Recovery
import PulsarVerifier.Listener.Session
import PulsarVerifier.P2p.System

/-!
# The listener misses no active request

A request is active at the height of its submission and at the two heights after it.  The listener learns of a request
from the events of its block or from the recovery of a window of three heights.  The window of the last height is
pieced together from consecutive blocks, from the recovery after a gap and from the recovery of each new session.
-/

namespace PulsarVerifier

/-! ### The chain -/

structure Request where
  height : Nat
  indexInBlock : Nat
  verificationId : VerificationId
  deriving DecidableEq

/-- The requests of a chain, and which of them are pending in its application state at a height. -/
structure ChainHistory where
  requests : Set Request
  pending : Nat → Request → Prop
  pending_mem : ∀ {n r}, pending n r → r ∈ requests
  /-- a request never returns from final to pending -/
  pending_of_le : ∀ {m n r}, r.height ≤ m → m ≤ n → pending n r → pending m r

namespace ChainHistory

open Listener

variable (chain : ChainHistory)

/-- A successful answer to `ProofsByHeight` lists the pending requests of `height`, in some application state from the
one of the block that is reconciled to the latest. -/
def Lists [Sha256] (reconciled tip height : Nat) (pages : List (RpcAnswer Chain.AbciQuery)) : Prop :=
  (∃ proofs, proofsByHeight height pages = .ok proofs) →
    ∃ n, reconciled ≤ n ∧ n ≤ tip ∧ ∀ r, chain.pending n r → r.height = height →
      ∃ response ∈ Chain.listed pages, ∃ record, response.state = some (.pending record) ∧
        record.verificationId = r.verificationId.bytes.1

/-- The events of a block list the requests of its height. -/
def Announces : BlockEvent → Prop
  | .newBlock (some header) (some txResults) => ∀ r ∈ chain.requests, r.height = header.height →
    ∃ event ∈ successfulEvents txResults, event.kind = proofSubmittedEvent ∧
      (.ok verificationIdKey, .ok (hexEncode r.verificationId.bytes.1)) ∈ event.attributes
  | _ => True

/-- What the listener gets from the chain in a step is true: blocks are committed, and the lists are complete. -/
def Honest [Sha256] (setup : ListenerSetup) (s : ListenerSystem) : ListenerAction → Prop
  | .initializeSession answers => ∀ status, setup.client.status answers.status = .ok status →
    status.latestHeight ≤ s.tip ∧
    ∀ height, chain.Lists status.latestHeight s.tip height (answers.proofs height)
  | .deliver (some (.ok event)) answers => ∀ block, committedBlock event = .ok block →
    block.height ≤ s.tip ∧ chain.Announces event ∧
    ∀ height, chain.Lists block.height s.tip height (answers.proofs height)
  | _ => True

end ChainHistory

/-! ### What a successful call has observed -/

namespace Listener

theorem mem_activeHeights {latestHeight height : Nat} :
    height ∈ activeHeights latestHeight ↔ max 1 (latestHeight - 2) ≤ height ∧ height ≤ latestHeight := by
  simp only [activeHeights, activeProofHeights, List.mem_range'_1]
  omega

theorem forM_observe_ok {answers : ChainAnswers} {ids : List VerificationId}
    (h : (ids.forM (observe answers)).result = .ok ()) {id : VerificationId} (hid : id ∈ ids) :
    .observe id ∈ (ids.forM (observe answers)).log :=
  (Logged.forM_ok h hid).2 _ (List.mem_singleton.2 rfl)

variable [Sha256]

/-- A recovery that succeeds has observed what was pending at the heights of its window. -/
theorem reconcileActiveWindow_ok {answers : ChainAnswers} {latestHeight tip : Nat} {chain : ChainHistory}
    (hlists : ∀ height, chain.Lists latestHeight tip height (answers.proofs height))
    (h : (reconcileActiveWindow answers latestHeight).result = .ok ()) {r : Request} (hr : chain.pending tip r)
    (hheight : r.height ∈ activeHeights latestHeight) :
    .observe r.verificationId ∈ (reconcileActiveWindow answers latestHeight).log := by
  obtain ⟨hround, hlog⟩ := Logged.forM_ok h hheight
  obtain ⟨proofs, hproofs, hobserve, hround⟩ := Logged.bind_ok hround
  obtain ⟨n, hn, htip, hpending⟩ := hlists r.height ⟨proofs, hproofs⟩
  -- the request was pending already when the chain answered
  have hheight' : r.height ≤ n := (mem_activeHeights.1 hheight).2.trans hn
  obtain ⟨response, hresponse, record, hrecord, hid⟩ := hpending r (chain.pending_of_le hheight' htip hr) rfl
  obtain ⟨proof, hproof, hproofId⟩ := proofsByHeight_pending hproofs hresponse hrecord hid
  refine hlog _ ?_
  rw [hround]
  refine List.mem_append_right _ (forM_observe_ok hobserve ?_)
  exact List.mem_map.2 ⟨proof, hproof, hproofId⟩

variable [Ed25519]

theorem initializeSession_ok {answers : ChainAnswers} {client : PulsarClient} {updater : Option PeerId}
    {state state' : ListenerState} (h : (initializeSession answers client updater state).result = .ok state') :
    ∃ status, client.status answers.status = .ok status ∧ state'.lastHeight = some status.latestHeight ∧
      (reconcileActiveWindow answers status.latestHeight).result = .ok () ∧
      ∀ effect ∈ (reconcileActiveWindow answers status.latestHeight).log,
        effect ∈ (initializeSession answers client updater state).log := by
  obtain ⟨status, hstatus, h, hlog⟩ := Logged.bind_ok h
  obtain ⟨⟨⟩, hwindow, h, hlog'⟩ := Logged.bind_ok h
  refine ⟨status, hstatus, ?_, hwindow, fun effect heffect => ?_⟩
  · cases updater with
    | none =>
      cases h
      rfl
    | some localPeerId =>
      obtain ⟨hash, -, h, -⟩ := Logged.bind_ok h
      obtain ⟨-, -, h, -⟩ := Logged.bind_ok h
      cases h
      rfl
  · unfold initializeSession
    rw [hlog, hlog']
    exact List.mem_append_right _ (List.mem_append_left _ heffect)

theorem processBlock_ok {answers : ChainAnswers} {updater : Option PeerId} {state state' : ListenerState}
    {block : CommittedBlock} (h : (processBlock answers updater state block).result = .ok state') :
    (∃ ids, parseProofEvents block = .ok ids ∧
      ∀ id ∈ ids, .observe id ∈ (processBlock answers updater state block).log) ∧
    (gapBefore state block = true → (reconcileActiveWindow answers block.height).result = .ok () ∧
      ∀ effect ∈ (reconcileActiveWindow answers block.height).log,
        effect ∈ (processBlock answers updater state block).log) ∧
    if advances state block = true then state'.lastHeight = some block.height else state' = state := by
  obtain ⟨ids, hids, h, hlog⟩ := Logged.bind_ok h
  obtain ⟨⟨⟩, hgap, h, hlog'⟩ := Logged.bind_ok h
  obtain ⟨⟨⟩, hobserve, h, hlog''⟩ := Logged.bind_ok h
  unfold processBlock
  rw [hlog, hlog', hlog'']
  refine ⟨⟨ids, hids, fun id hid => ?_⟩, fun hgap' => ?_, ?_⟩
  · exact List.mem_append_right _ (List.mem_append_right _ (List.mem_append_left _ (forM_observe_ok hobserve hid)))
  · unfold recoverGap at hgap ⊢
    rw [if_pos hgap'] at hgap ⊢
    exact ⟨hgap, fun effect heffect => List.mem_append_right _ (List.mem_append_left _ heffect)⟩
  · unfold recordBlock at h
    split at h
    · rename_i hnew
      obtain ⟨-, -, h, -⟩ := Logged.bind_ok h
      cases h
      rw [if_pos hnew]
    · rename_i hold
      cases h
      rw [if_neg hold]

end Listener

/-! ### The invariant -/

namespace ListenerSystem

open Listener

variable {chain : ChainHistory} {setup : ListenerSetup} {s t : ListenerSystem} {a : ListenerAction}

/-- Every pending request of the window of the last height has been observed. -/
structure Covered (chain : ChainHistory) (s : ListenerSystem) : Prop where
  window : ∀ height, s.state.lastHeight = some height → ∀ r, chain.pending s.tip r →
    r.height ∈ activeHeights height → r.verificationId ∈ s.observed
  committed : ∀ height, s.state.lastHeight = some height → height ≤ s.tip
  /-- blocks are taken only after a session was initialized -/
  streaming : s.phase = .streaming → s.state.lastHeight.isSome

/-- The window stays covered while the chain grows and requests are observed. -/
theorem Covered.keep (hs : Covered chain s) (hstate : t.state = s.state) (htip : s.tip ≤ t.tip)
    (hobserved : ∀ id ∈ s.observed, id ∈ t.observed) (hphase : t.phase = .streaming → s.phase = .streaming) :
    Covered chain t where
  window height hlast r hr hheight := by
    rw [hstate] at hlast
    have hle : r.height ≤ s.tip := (mem_activeHeights.1 hheight).2.trans (hs.committed height hlast)
    exact hobserved _ (hs.window height hlast r (chain.pending_of_le hle htip hr) hheight)
  committed height hlast := by
    rw [hstate] at hlast
    exact (hs.committed height hlast).trans htip
  streaming h := by
    rw [hstate]
    exact hs.streaming (hphase h)

theorem Covered.fail (hs : Covered chain s) {established : Bool} {call : Call ListenerState} {error : Error}
    (h : call.result = .error error) : Covered chain (s.finishCall setup established call) := by
  obtain ⟨htip, -, hobserved⟩ := s.finishCall_frame setup established call
  obtain ⟨hstate, hphase⟩ := s.finishCall_error setup established h
  exact hs.keep hstate htip.ge (fun id hid => (hobserved id).2 (.inl hid)) fun h => absurd h hphase

/-- A call that succeeds covers the window of its height if what it observed does so together with what was observed
before. -/
theorem Covered.succeed {established : Bool} {call : Call ListenerState} {state : ListenerState} {height : Nat}
    (h : call.result = .ok state) (hlast : state.lastHeight = some height) (hcommitted : height ≤ s.tip)
    (hwindow : ∀ r, chain.pending s.tip r → r.height ∈ activeHeights height →
      r.verificationId ∈ s.observed ∨ .observe r.verificationId ∈ call.log) :
    Covered chain (s.finishCall setup established call) := by
  obtain ⟨htip, -, hobserved⟩ := s.finishCall_frame setup established call
  have hstate := s.finishCall_ok setup established h
  refine ⟨fun height' hlast' r hr hheight => ?_, fun height' hlast' => ?_, fun _ => ?_⟩
  · rw [hstate, hlast] at hlast'
    cases hlast'
    rw [htip] at hr
    exact (hobserved _).2 (hwindow r hr hheight)
  · rw [hstate, hlast] at hlast'
    cases hlast'
    rw [htip]
    exact hcommitted
  · rw [hstate, hlast]
    rfl

section

variable [Sha256]

/-- The events of a block tell of every request of its height. -/
theorem mem_ids_of_announces {event : BlockEvent} {block : CommittedBlock} (hblock : committedBlock event = .ok block)
    (hannounces : chain.Announces event) {ids : List VerificationId} (hids : parseProofEvents block = .ok ids)
    {r : Request} (hr : r ∈ chain.requests) (hheight : r.height = block.height) : r.verificationId ∈ ids := by
  obtain ⟨header, txResults, rfl, hheader, -, hevents⟩ := committedBlock_newBlock hblock
  obtain ⟨event, hevent, hkind, hentry⟩ := hannounces r hr (hheight.trans hheader)
  obtain ⟨event', hevent', hcommitted⟩ := hevents event hevent
  obtain ⟨entries, hentries, hcommitted⟩ := Except.bind_eq_ok_iff.1 hcommitted
  cases hcommitted
  obtain ⟨entry, hmem, hread⟩ := Except.mem_of_mapM_eq_ok hentries hentry
  cases hread
  exact parseProofEvents_ids hids hevent' hkind hmem

variable [Ed25519]

theorem Covered.initializeSession (hs : Covered chain s) {answers : ChainAnswers} {call : Call ListenerState}
    (hcall : s.call setup (.initializeSession answers) = some call)
    (hhonest : chain.Honest setup s (.initializeSession answers)) : Covered chain (s.finishCall setup false call) := by
  cases hcall
  cases hresult : (Listener.initializeSession answers setup.client (s.updater setup) s.state).result with
  | error error => exact hs.fail hresult
  | ok state =>
    obtain ⟨status, hstatus, hlast, hwindow, hlog⟩ := initializeSession_ok hresult
    obtain ⟨hcommitted, hlists⟩ := hhonest status hstatus
    refine .succeed hresult hlast hcommitted fun r hr hheight => .inr ?_
    exact hlog _ (reconcileActiveWindow_ok hlists hwindow hr hheight)

theorem Covered.deliver (hs : Covered chain s) (hphase : s.phase = .streaming) {event : BlockEvent}
    {answers : ChainAnswers} {call : Call ListenerState}
    (hcall : s.call setup (.deliver (some (.ok event)) answers) = some call)
    (hhonest : chain.Honest setup s (.deliver (some (.ok event)) answers)) :
    Covered chain (s.finishCall setup true call) := by
  cases hresult : call.result with
  | error error => exact hs.fail hresult
  | ok state =>
    cases hcall
    obtain ⟨block, hblock, hprocess, hlog⟩ := Logged.bind_ok hresult
    obtain ⟨hcommitted, hannounces, hlists⟩ := hhonest block hblock
    obtain ⟨⟨ids, hids, hobserved⟩, hgap, hstate⟩ := processBlock_ok hprocess
    obtain ⟨last, hlast⟩ := Option.isSome_iff_exists.1 (hs.streaming hphase)
    by_cases hnew : advances s.state block = true
    · rw [if_pos hnew] at hstate
      refine .succeed hresult hstate hcommitted fun r hr hheight => ?_
      rw [hlog]
      simp only [advances, hlast, Option.all_some, decide_eq_true_eq] at hnew
      by_cases hconsecutive : block.height ≤ last + 1
      · -- the block follows the last one: its own requests are new, the others of its window were in the window before
        rcases Nat.lt_or_ge r.height block.height with hbefore | hown
        · refine .inl (hs.window last hlast r hr ?_)
          rw [mem_activeHeights] at hheight ⊢
          omega
        · have hown' : r.height = block.height := Nat.le_antisymm (mem_activeHeights.1 hheight).2 hown
          refine .inr (List.mem_append_right _ (hobserved _ ?_))
          exact mem_ids_of_announces hblock hannounces hids (chain.pending_mem hr) hown'
      · have hgap' : gapBefore s.state block = true := by
          rw [gapBefore, hlast]
          exact decide_eq_true (by unfold saturatingAdd; omega)
        obtain ⟨hwindow, hmem⟩ := hgap hgap'
        exact .inr (List.mem_append_right _ (hmem _ (reconcileActiveWindow_ok hlists hwindow hr hheight)))
    · -- an old block changes nothing
      rw [if_neg hnew] at hstate
      subst hstate
      exact .succeed hresult hlast (hs.committed last hlast) fun r hr hheight =>
        .inl (hs.window last hlast r hr hheight)

theorem Covered.step (hs : Covered chain s) (h : s.next setup a = some t) (hhonest : chain.Honest setup s a) :
    Covered chain t := by
  cases next_move h with
  | quiet hcall hstate hobserved htip hdriver hreturned hstreaming =>
    exact hs.keep hstate htip (fun id hid => hobserved ▸ hid) hstreaming
  | initializeSession hphase hcall => exact hs.initializeSession hcall hhonest
  | deliver hphase hcall => exact hs.deliver hphase hcall hhonest
  | cancel close hcall hphase hstate htip hobserved hlocal =>
    exact hs.keep hstate htip.ge hobserved fun h => nomatch hphase.symm.trans h

omit [Sha256] [Ed25519] in
theorem covered_initial (chain : ChainHistory) (setup : ListenerSetup) (driver : Driver) :
    Covered chain (initial setup driver) :=
  ⟨nofun, nofun, nofun⟩

/-- Whatever the order of sessions, failures, gaps, duplicates and old blocks, every request that is still pending and
was submitted at one of the three heights up to the last one has been observed. -/
theorem active_request_observed (chain : ChainHistory) (setup : ListenerSetup) (driver : Driver)
    (hs : ((lts setup driver).restrict (chain.Honest setup)).Reachable s) {height : Nat}
    (hlast : s.state.lastHeight = some height) {r : Request} (hr : chain.pending s.tip r)
    (hfirst : max 1 (height - 2) ≤ r.height) (hlatest : r.height ≤ height) : r.verificationId ∈ s.observed := by
  have hcovered : Covered chain s := by
    refine hs.invariant (fun hinit => ?_) fun _ hs hstep => hs.step hstep.1 hstep.2
    cases hinit
    exact covered_initial chain setup driver
  exact hcovered.window height hlast r hr (mem_activeHeights.2 ⟨hfirst, hlatest⟩)

end

private def onlySetup : ListenerSetup := ⟨⟨1, 8⟩, ⟨"pulsar-1"⟩, false⟩

section

variable [Sha256]

private def onlyRequest : Request :=
  ⟨1, 0, .fromComponentHashes .minaPickles ⟨List.replicate 32 1, rfl⟩ ⟨List.replicate 32 2, rfl⟩
    ⟨List.replicate 32 3, rfl⟩⟩

private def onlyRecord : Chain.ProofRecord :=
  ⟨1, List.replicate 32 1, List.replicate 32 2, List.replicate 32 3, onlyRequest.verificationId.bytes.1⟩

private def onlyHistory : ChainHistory where
  requests := {onlyRequest}
  pending _ r := r = onlyRequest
  pending_mem h := h
  pending_of_le _ _ h := h

private def onlyAnswers : ChainAnswers where
  heightError := ""
  status := .answered ⟨"pulsar-1", false, 1⟩
  proofs _ := [.answered ⟨1, 0, "", .ok ⟨[⟨some ⟨1, 0⟩, some (.pending onlyRecord)⟩], []⟩⟩]
  block _ := .timedOut
  validators _ := .timedOut
  observe _ := .ok .inserted
  replace := .error .p2pDriverClosed

private theorem honest_onlyHistory {s : ListenerSystem} (htip : s.tip = 1) :
    onlyHistory.Honest onlySetup s (.initializeSession onlyAnswers) := by
  intro status hstatus
  have hheight : PulsarClient.status ⟨"pulsar-1"⟩ (.answered ⟨"pulsar-1", false, 1⟩) = .ok ⟨1⟩ := by
    decide
  cases hheight.symm.trans hstatus
  refine ⟨htip.ge, fun height _ => ⟨1, le_rfl, htip.ge, fun r hr _ => ?_⟩⟩
  cases hr
  exact ⟨_, List.mem_cons_self, onlyRecord, rfl, rfl⟩

end

/-- The first session recovers the only request of a chain. -/
theorem active_request_observed_recovered :
    letI := Sha256.standard
    letI : Ed25519 := ⟨fun _ => .ok ()⟩
    ∃ s, ((lts onlySetup (.build .small .here {.here} {0})).restrict (onlyHistory.Honest onlySetup)).Reachable s ∧
      s.state.lastHeight = some 1 ∧ onlyHistory.pending s.tip onlyRequest ∧
        onlyRequest.verificationId ∈ s.observed := by
  let _ := Sha256.standard
  let _ : Ed25519 := ⟨fun _ => .ok ()⟩
  let s₀ := initial onlySetup (.build .small .here {.here} {0})
  let s : ListenerSystem := { s₀ with tip := 1, phase := .initializing }
  let call := Listener.initializeSession onlyAnswers onlySetup.client none s.state
  have hreach : ((lts onlySetup (.build .small .here {.here} {0})).restrict (onlyHistory.Honest onlySetup)).Reachable
      (s.finishCall onlySetup false call) :=
    ⟨s₀, [.commit, .subscribe (.ok ()), .initializeSession onlyAnswers], rfl,
      .cons ⟨rfl, trivial⟩ (.cons ⟨rfl, trivial⟩ (.cons ⟨rfl, honest_onlyHistory rfl⟩ (.refl _)))⟩
  have hlast : (s.finishCall onlySetup false call).state.lastHeight = some 1 := by
    decide +kernel
  exact ⟨_, hreach, hlast, rfl,
    active_request_observed onlyHistory onlySetup (.build .small .here {.here} {0}) hreach hlast rfl le_rfl le_rfl⟩

end ListenerSystem

end PulsarVerifier
