import Mathlib.Data.List.Nodup
import PulsarVerifier.Lib.Checks
import PulsarVerifier.Rpc.Contract

/-!
# The diagnostic statuses

`get_proof_statuses` answers for every identifier of a request, `get_verification_results` for the completed ones only.
Both check the request in the same way, but walk over the store and write the wire messages in their own.  What the
chain reads is the completed part of what an operator reads.
-/

namespace PulsarVerifier

/-- Verification status as a caller of the store sees it. -/
inductive VerificationStatus
  | unavailable
  | queued
  | verifying
  | completed (verdict : VerificationVerdict)
  | failed (failure : VerificationFailure)
  deriving DecidableEq

structure StoredVerificationStatus where
  verificationId : VerificationId
  status : VerificationStatus
  deriving DecidableEq

def statuses (read : VerificationId → Option (Arc ProofRecord)) (ids : List VerificationId) :
    List StoredVerificationStatus :=
  ids.map fun id =>
    { verificationId := id
      status :=
        match read id with
        | none => .unavailable
        | some record =>
          match record.value.metadata.verification with
          | none => .unavailable
          | some .queued => .queued
          | some .verifying => .verifying
          | some (.completed verdict) => .completed verdict
          | some (.failed failure) => .failed failure }

/-! ### The wire messages -/

inductive WirePhase
  | unspecified
  | unavailable
  | queued
  | verifying
  | completed
  | failed
  deriving DecidableEq

/-- The number of the enumeration on the wire. -/
def WirePhase.toInt : WirePhase → Int
  | .unspecified => 0
  | .unavailable => 1
  | .queued => 2
  | .verifying => 3
  | .completed => 4
  | .failed => 5

def unspecifiedVerdict : Int := 0

structure WireFailure where
  code : String
  message : String
  retryable : Bool
  deriving DecidableEq

structure ProofVerificationStatus where
  verificationId : Bytes
  phase : Int
  verdict : Int
  failure : Option WireFailure
  deriving DecidableEq

def wireStatus (status : StoredVerificationStatus) : ProofVerificationStatus :=
  let (phase, verdict, failure) : WirePhase × Option Int × Option WireFailure :=
    match status.status with
    | .unavailable => (.unavailable, none, none)
    | .queued => (.queued, none, none)
    | .verifying => (.verifying, none, none)
    | .completed verdict => (.completed, some (wireVerdict verdict), none)
    | .failed failure => (.failed, none, some ⟨failure.code, failure.message, failure.retryable⟩)
  { verificationId := status.verificationId.bytes.1
    phase := phase.toInt
    verdict := verdict.getD unspecifiedVerdict
    failure }

/-- A diagnostic status for every requested identifier, also for the unknown ones. -/
def getProofStatuses (read : VerificationId → Option (Arc ProofRecord)) (verificationIds : List Bytes) :
    Except Error (List ProofVerificationStatus) := do
  let ids ← parseIds verificationIds
  pure ((statuses read ids).map wireStatus)

/-! ### The checks on a request -/

/-- The request has too many entries, one that is no identifier, or one that repeats. -/
def InvalidRequest (rawIds : List Bytes) : Prop :=
  maxVerificationIds < rawIds.length ∨ (∃ rawId ∈ rawIds, rawId.length ≠ verificationIdLen) ∨ ¬rawIds.Nodup

instance (rawIds : List Bytes) : Decidable (InvalidRequest rawIds) := inferInstanceAs (Decidable (_ ∨ _ ∨ _))

variable {rawId : Bytes} {rawIds : List Bytes} {id : VerificationId} {ids seen : List VerificationId}

theorem parseIdsFrom_eq_ok_iff :
    parseIdsFrom seen rawIds = .ok ids ↔
      ids.map (fun id => id.bytes.1) = rawIds ∧ ids.Nodup ∧ ∀ id ∈ ids, id ∉ seen := by
  -- `seen` grows by the identifiers that were read
  induction rawIds generalizing seen ids with
  | nil =>
    rw [parseIdsFrom, List.map_eq_nil_iff]
    constructor
    · intro h
      cases h
      exact ⟨rfl, .nil, nofun⟩
    · rintro ⟨rfl, -, -⟩
      rfl
  | cons rawId rest ih =>
    rw [parseIdsFrom, Except.bind_eq_ok_iff]
    constructor
    · rintro ⟨id, hid, h⟩
      rw [VerificationId.tryFrom_eq_ok_iff] at hid
      split at h
      · cases h
      · rename_i hnew
        obtain ⟨others, hothers, h⟩ := Except.bind_eq_ok_iff.1 h
        cases h
        obtain ⟨hmap, hnodup, hunseen⟩ := ih.1 hothers
        refine ⟨by rw [List.map_cons, ← hid, hmap], ?_, ?_⟩
        · exact List.nodup_cons.2 ⟨fun hmem => hunseen id hmem List.mem_cons_self, hnodup⟩
        · intro id' hid'
          rcases List.mem_cons.1 hid' with rfl | hid'
          · exact hnew
          · exact fun hmem => hunseen id' hid' (List.mem_cons_of_mem _ hmem)
    · rintro ⟨hmap, hnodup, hunseen⟩
      obtain ⟨id, others, rfl, hid, hothers⟩ := List.map_eq_cons_iff.1 hmap
      rw [List.nodup_cons] at hnodup
      refine ⟨id, VerificationId.tryFrom_eq_ok_iff.2 hid.symm, ?_⟩
      rw [if_neg (hunseen id List.mem_cons_self)]
      refine Except.bind_eq_ok_iff.2 ⟨others, ih.2 ⟨hothers, hnodup.2, fun id' hid' hmem => ?_⟩, rfl⟩
      rcases List.mem_cons.1 hmem with rfl | hmem
      · exact hnodup.1 hid'
      · exact hunseen id' (List.mem_cons_of_mem _ hid') hmem

theorem parseIds_eq_ok_iff :
    parseIds rawIds = .ok ids ↔ ids.map (fun id => id.bytes.1) = rawIds ∧ ¬InvalidRequest rawIds := by
  unfold parseIds InvalidRequest
  split
  · rename_i hlong
    exact ⟨nofun, fun h => absurd (.inl hlong) h.2⟩
  · rename_i hshort
    rw [parseIdsFrom_eq_ok_iff]
    constructor
    · rintro ⟨rfl, hnodup, -⟩
      refine ⟨rfl, ?_⟩
      rintro (hlong | ⟨rawId, hmem, hlen⟩ | hrepeats)
      · exact hshort hlong
      · obtain ⟨id, -, rfl⟩ := List.mem_map.1 hmem
        exact hlen id.bytes.2
      · exact hrepeats (hnodup.map VerificationId.rawBytes_injective)
    · rintro ⟨rfl, hvalid⟩
      exact ⟨rfl, (not_not.1 fun h => hvalid (.inr (.inr h))).of_map _, fun _ _ => List.not_mem_nil⟩

theorem exists_parseIds_iff : (∃ ids, parseIds rawIds = .ok ids) ↔ ¬InvalidRequest rawIds := by
  constructor
  · rintro ⟨ids, h⟩
    exact (parseIds_eq_ok_iff.1 h).2
  · intro hvalid
    have hlength : ∀ rawId ∈ rawIds, rawId.length = verificationIdLen := fun rawId hmem =>
      not_not.1 fun hlen => hvalid (.inr (.inl ⟨rawId, hmem, hlen⟩))
    refine ⟨rawIds.attach.map fun rawId => ⟨⟨rawId.1, hlength rawId.1 rawId.2⟩⟩, parseIds_eq_ok_iff.2 ⟨?_, hvalid⟩⟩
    rw [List.map_map]
    exact List.attach_map_subtype_val rawIds

/-! ### The two views -/

theorem wireStatus_verdict (status : StoredVerificationStatus) :
    (wireStatus status).verdict ≠ unspecifiedVerdict ↔ (wireStatus status).phase = WirePhase.completed.toInt := by
  obtain ⟨id, status⟩ := status
  cases status with
  | completed verdict => cases verdict <;> simp [wireStatus, wireVerdict, unspecifiedVerdict]
  | _ => simp [wireStatus, WirePhase.toInt]

theorem wireStatus_failure (status : StoredVerificationStatus) :
    (wireStatus status).failure.isSome ↔ (wireStatus status).phase = WirePhase.failed.toInt := by
  obtain ⟨id, status⟩ := status
  cases status <;> simp [wireStatus, WirePhase.toInt]

def CompletedVerification.wireResult (result : CompletedVerification) : WireResult :=
  ⟨result.verificationId.bytes.1, wireVerdict result.verdict⟩

/-- The completed results are those of the completed statuses. -/
theorem completedResults_eq (read : VerificationId → Option (Arc ProofRecord)) (ids : List VerificationId) :
    (completedResults read ids).map CompletedVerification.wireResult =
      (((statuses read ids).map wireStatus).filter (·.phase = WirePhase.completed.toInt)).map
        fun status => ⟨status.verificationId, status.verdict⟩ := by
  unfold completedResults statuses
  induction ids with
  | nil => rfl
  | cons id ids ih =>
    simp only [List.filterMap_cons, List.map_cons, List.filter_cons]
    cases read id with
    | none => simpa [wireStatus, WirePhase.toInt] using ih
    | some record =>
      obtain ⟨addr, ⟨observedAt, source, storedAt, verification, completedAt⟩, proof⟩ := record
      cases verification with
      | none => simpa [wireStatus, WirePhase.toInt] using ih
      | some state =>
        cases state with
        | completed verdict => simpa [wireStatus, WirePhase.toInt, CompletedVerification.wireResult] using ih
        | _ => simpa [wireStatus, WirePhase.toInt] using ih

/-- Both requests fail exactly if they are invalid.  Otherwise there is a status for every identifier, in the order of
the request; it has a verdict if it is completed, and a failure if it is failed; and the results are the identifiers and
verdicts of the completed statuses, in the same order and each once. -/
theorem results_eq_completed_statuses (read : VerificationId → Option (Arc ProofRecord)) (rawIds : List Bytes) :
    ((∃ error, getVerificationResults read rawIds = .error error) ↔ InvalidRequest rawIds) ∧
    ((∃ error, getProofStatuses read rawIds = .error error) ↔ InvalidRequest rawIds) ∧
    (¬InvalidRequest rawIds → ∃ statuses results,
      getProofStatuses read rawIds = .ok statuses ∧ getVerificationResults read rawIds = .ok results ∧
      statuses.map ProofVerificationStatus.verificationId = rawIds ∧
      (∀ status ∈ statuses,
        (status.verdict ≠ unspecifiedVerdict ↔ status.phase = WirePhase.completed.toInt) ∧
        (status.failure.isSome ↔ status.phase = WirePhase.failed.toInt)) ∧
      results = ((statuses.filter (·.phase = WirePhase.completed.toInt)).map
        fun status => ⟨status.verificationId, status.verdict⟩) ∧
      (results.map WireResult.verificationId).Nodup) := by
  -- both handlers parse the request first, and fail in no other way
  have hfails : ∀ {α : Type} (f : List VerificationId → α),
      (∃ error, (do let ids ← parseIds rawIds; pure (f ids)) = (.error error : Except Error α)) ↔
        InvalidRequest rawIds := by
    intro α f
    rw [← not_not (a := InvalidRequest rawIds), ← exists_parseIds_iff]
    cases parseIds rawIds with
    | error error => exact ⟨fun _ ⟨_, h⟩ => (nomatch h), fun _ => ⟨error, rfl⟩⟩
    | ok ids => exact ⟨fun ⟨_, h⟩ => (nomatch h), fun h => absurd ⟨ids, rfl⟩ h⟩
  refine ⟨hfails _, hfails _, fun hvalid => ?_⟩
  obtain ⟨ids, hids⟩ := exists_parseIds_iff.2 hvalid
  obtain ⟨hraw, -⟩ := parseIds_eq_ok_iff.1 hids
  have hmap : ((statuses read ids).map wireStatus).map ProofVerificationStatus.verificationId = rawIds := by
    rw [← hraw, statuses, List.map_map, List.map_map]
    rfl
  refine ⟨(statuses read ids).map wireStatus, (completedResults read ids).map CompletedVerification.wireResult,
    ?_, ?_, hmap, ?_, completedResults_eq read ids, ?_⟩
  · unfold getProofStatuses
    rw [hids]
    rfl
  · unfold getVerificationResults
    rw [hids]
    rfl
  · intro status hstatus
    obtain ⟨stored, -, rfl⟩ := List.mem_map.1 hstatus
    exact ⟨wireStatus_verdict stored, wireStatus_failure stored⟩
  · have hnodup : rawIds.Nodup := not_not.1 fun h => hvalid (.inr (.inr h))
    -- the results are a part of the statuses, whose identifiers are those of the request
    rw [completedResults_eq, List.map_map]
    rw [← hmap] at hnodup
    exact hnodup.sublist (List.filter_sublist.map _)

/-- Two identifiers, one of which the store knows as completed. -/
theorem results_eq_completed_statuses_mixed :
    let known : VerificationId := ⟨⟨List.replicate 32 1, rfl⟩⟩
    let read : VerificationId → Option (Arc ProofRecord) := fun id =>
      if id = known then some ⟨0, ⟨none, none, none, some (.completed .valid), none⟩, none⟩ else none
    ∃ statuses results, getProofStatuses read [List.replicate 32 2, List.replicate 32 1] = .ok statuses ∧
      getVerificationResults read [List.replicate 32 2, List.replicate 32 1] = .ok results ∧
      statuses.map ProofVerificationStatus.verificationId = [List.replicate 32 2, List.replicate 32 1] ∧
      results.length = 1 := by
  intro known read
  obtain ⟨-, -, hviews⟩ := results_eq_completed_statuses read [List.replicate 32 2, List.replicate 32 1]
  obtain ⟨statuses, results, hstatuses, hresults, hmap, -⟩ := hviews (by decide)
  have hcount : (getVerificationResults read [List.replicate 32 2, List.replicate 32 1]).toOption.map List.length =
      some 1 := by
    decide +kernel
  rw [hresults] at hcount
  exact ⟨statuses, results, hstatuses, hresults, hmap, Option.some.inj hcount⟩

end PulsarVerifier
