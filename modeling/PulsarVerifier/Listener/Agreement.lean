import PulsarVerifier.Listener.Session

/-!
# Live events and recovery queries

A request reaches the node twice: as an event of the block that committed it, with its values in hexadecimal and decimal
text, and as a record of a query, with the values themselves.  `Carries` says what an event spells; the two paths
accept the same values, and give the same identifier.
-/

namespace PulsarVerifier

namespace Listener

variable {event : CommittedEvent}

section

variable [Sha256] {blockHeight index : Nat} {positions : List Nat}

theorem parseEvents_zero {events : List CommittedEvent} {ids : List VerificationId} :
    parseEvents 0 positions events = .ok ids ↔ events = [] ∧ ids = [] := by
  cases events with
  | nil =>
    rw [parseEvents]
    exact ⟨fun h => ⟨rfl, (Except.ok.inj h).symm⟩, fun h => congrArg Except.ok h.2.symm⟩
  | cons event events =>
    rw [parseEvents]
    constructor
    · intro h
      obtain ⟨⟨index, id⟩, hfirst, -⟩ := Except.bind_eq_ok_iff.1 h
      obtain ⟨_, -, hpos, -⟩ := parseProofEvent_eq_ok_iff.1 hfirst
      -- a valid position has a positive height
      cases hpos
    · rintro ⟨hevents, -⟩
      cases hevents

/-- A single event is accepted exactly if the query record with its values is. -/
theorem parseEvents_single {submissionHeight : Nat} {record : Chain.ProofRecord} {ids : List VerificationId}
    (hcarries : Carries event submissionHeight index record) :
    parseEvents blockHeight [] [event] = .ok ids ↔
      ∃ id, Chain.validateQueryProof ⟨some ⟨submissionHeight, index⟩, some (.pending record)⟩ blockHeight =
        .ok (some ⟨id, submissionHeight, index⟩) ∧ ids = [id] := by
  simp only [Chain.validateQueryProof_eq_ok_iff]
  rw [parseEvents]
  constructor
  · intro h
    obtain ⟨⟨index', id⟩, hfirst, h⟩ := Except.bind_eq_ok_iff.1 h
    obtain ⟨ids', hrest, h⟩ := Except.bind_eq_ok_iff.1 h
    cases hrest
    cases h
    obtain ⟨record', hcarries', hpos, hlt, hhashes, -⟩ := parseProofEvent_eq_ok_iff.1 hfirst
    obtain ⟨rfl, rfl, rfl⟩ := hcarries.unique hcarries'
    exact ⟨id, ⟨id, rfl, hpos, hlt, hhashes, rfl⟩, rfl⟩
  · rintro ⟨id, ⟨id', hheight, hpos, hlt, hhashes, hresult⟩, rfl⟩
    cases hresult
    cases hheight
    refine Except.bind_eq_ok_iff.2 ⟨(index, id), parseProofEvent_eq_ok_iff.2
      ⟨record, hcarries, hpos, hlt, hhashes, ?_⟩, ?_⟩
    · exact List.not_mem_nil
    · exact Except.bind_eq_ok_iff.2 ⟨[], rfl, rfl⟩

end

/-! ### A block that is refused -/

section

variable [Sha256] [Ed25519]

/-- Nothing is written before all events are parsed. -/
theorem processBlock_of_error {block : CommittedBlock} {error : Error} (h : parseProofEvents block = .error error)
    (answers : ChainAnswers) (updater : Option PeerId) (state : ListenerState) :
    (processBlock answers updater state block).log = [] ∧
      (processBlock answers updater state block).result = .error error := by
  unfold processBlock
  rw [h]
  exact ⟨rfl, rfl⟩

/-- The session ends, and the store, the driver and the state of the listener are as before. -/
theorem deliver_of_error {setup : ListenerSetup} {s t : ListenerSystem} {event : BlockEvent} {answers : ChainAnswers}
    {block : CommittedBlock} {error : Error} (hblock : committedBlock event = .ok block)
    (herror : parseProofEvents block = .error error)
    (hnext : s.next setup (.deliver (some (.ok event)) answers) = some t) :
    ∃ phase backoff, t = { s with phase, backoff } := by
  cases ListenerSystem.next_move hnext with
  | quiet hcall | cancel close hcall => cases hcall
  | deliver hphase hcall =>
    cases hcall
    obtain ⟨hlog, hresult⟩ := Logged.bind_of_ok (ω := Effect) (x := .lift (committedBlock event))
      (f := fun block => processBlock answers (s.updater setup) s.state block) hblock
    obtain ⟨hlog', hresult'⟩ := processBlock_of_error herror answers (s.updater setup) s.state
    rw [hlog'] at hlog
    rw [hresult'] at hresult
    unfold ListenerSystem.finishCall
    rw [hlog, hresult]
    obtain ⟨phase, backoff, heq, -⟩ := s.disconnect_frame setup true error
    exact ⟨phase, backoff, heq⟩

end

end Listener

open Listener

/-- The events of a block of the chain (a block at height one or above) are accepted exactly if each of them has
distinct keys and seven well-formed attributes, with the height of the block, an index below 256 that no other event
has, and a descriptor that hashes to the identifier it states; the identifiers are then those of the events, in their
order, and the other events do not matter.  A block that is refused changes nothing: neither the store nor the driver
nor the state of the listener.  And an event alone is accepted exactly if the query record with its values is, with the
same identifier. -/
theorem parseProofEvents_agrees [Sha256] [Ed25519] :
    (∀ block, 1 ≤ block.height → ∀ ids, parseProofEvents block = .ok ids ↔
      ∃ entries : List (Nat × VerificationId), List.Forall₂ (Announces block.height) (proofEvents block) entries ∧
        (entries.map Prod.fst).Nodup ∧ ids = entries.map Prod.snd) ∧
    (∀ block, block.height = 0 → ∀ ids, parseProofEvents block = .ok ids ↔ proofEvents block = [] ∧ ids = []) ∧
    (∀ block error, parseProofEvents block = .error error →
      (∀ answers updater state, (processBlock answers updater state block).log = [] ∧
        (processBlock answers updater state block).result = .error error) ∧
      ∀ setup (s t : ListenerSystem) event answers, committedBlock event = .ok block →
        s.next setup (.deliver (some (.ok event)) answers) = some t → ∃ phase backoff, t = { s with phase, backoff }) ∧
    ∀ submissionHeight index record block event, submissionHeight < 2 ^ 64 → index < 2 ^ 32 →
      -2 ^ 31 ≤ record.proofType → record.proofType < 2 ^ 31 → proofEvents block = [event] →
      (event.attributes.map Prod.fst).Nodup →
      (∀ entry ∈ announcementAttributes submissionHeight index record, entry ∈ event.attributes) →
      ∀ ids, parseProofEvents block = .ok ids ↔
        ∃ id, Chain.validateQueryProof ⟨some ⟨submissionHeight, index⟩, some (.pending record)⟩ block.height =
          .ok (some ⟨id, submissionHeight, index⟩) ∧ ids = [id] := by
  refine ⟨fun block hheight ids => ?_, fun block hheight ids => ?_, fun block error herror => ⟨?_, ?_⟩, ?_⟩
  · refine (parseEvents_eq_ok_iff hheight).trans ?_
    simp only [List.not_mem_nil, not_false_iff, implies_true, true_and]
  · unfold parseProofEvents
    rw [hheight]
    exact parseEvents_zero
  · exact processBlock_of_error herror
  · exact fun setup s t event answers hblock hnext => deliver_of_error hblock herror hnext
  · intro submissionHeight index record block event hheight hindex hmin hmax hevents hdistinct hattributes ids
    have hparse : parseProofEvents block = parseEvents block.height [] [event] :=
      congrArg (parseEvents block.height []) hevents
    rw [hparse]
    exact parseEvents_single (carries_of_attributes hheight hindex hmin hmax hdistinct hattributes)

private def emptyRequest [Sha256] : Chain.ProofRecord :=
  let hash := Sha256.digest []
  ⟨1, hash.1, hash.1, hash.1, (VerificationId.fromComponentHashes .minaPickles hash hash hash).bytes.1⟩

private def eventBlock [Sha256] (attributes : List (String × String)) : CommittedBlock :=
  ⟨7, Sha256.digest [], [⟨proofSubmittedEvent, attributes⟩]⟩

/-- The event that spells the request is accepted, as its record is; an event without attributes is refused, and nothing
is written. -/
theorem parseProofEvents_agrees_announced :
    letI := Sha256.standard
    letI : Ed25519 := ⟨fun _ => .ok ()⟩
    (∃ index id, parseProofEvents (eventBlock (announcementAttributes 7 0 emptyRequest)) = .ok [id] ∧
      Announces 7 ⟨proofSubmittedEvent, announcementAttributes 7 0 emptyRequest⟩ (index, id)) ∧
    ∀ answers updater state, (processBlock answers updater state (eventBlock [])).log = [] := by
  let _ := Sha256.standard
  let _ : Ed25519 := ⟨fun _ => .ok ()⟩
  obtain ⟨haccepted, -, hrefused, halone⟩ := parseProofEvents_agrees
  constructor
  · let hash := Sha256.digest []
    let id := VerificationId.fromComponentHashes .minaPickles hash hash hash
    have hquery : Chain.validateQueryProof ⟨some ⟨7, 0⟩, some (.pending emptyRequest)⟩ 7 = .ok (some ⟨id, 7, 0⟩) :=
      Chain.validateQueryProof_eq_ok_iff.2 ⟨id, rfl, by decide, by decide,
        ⟨.minaPickles, hash, hash, hash, rfl, rfl, rfl, rfl, rfl, rfl⟩, rfl⟩
    have hevent := (halone 7 0 emptyRequest (eventBlock (announcementAttributes 7 0 emptyRequest)) _ (by decide)
      (by decide)
      (by decide) (by decide) rfl (by decide) (fun _ h => h) [id]).2 ⟨id, hquery, rfl⟩
    obtain ⟨entries, hentries, -, hids⟩ := (haccepted _ (by decide) _).1 hevent
    obtain ⟨entry, rest, hannounces, hrest, rfl⟩ := List.forall₂_cons_left_iff.1 hentries
    cases hrest
    rw [hids] at hevent
    exact ⟨entry.1, entry.2, hevent, hannounces⟩
  · intro answers updater state
    obtain ⟨error, herror⟩ : ∃ error, parseProofEvents (eventBlock []) = .error error := ⟨_, rfl⟩
    exact ((hrefused _ error herror).1 answers updater state).1

end PulsarVerifier
