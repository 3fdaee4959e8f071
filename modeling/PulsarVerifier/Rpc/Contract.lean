import PulsarVerifier.Store.Operations

/-!
# The consensus-facing verification results

`get_verification_results` checks the identifiers of a bounded request and answers with the completed ones.  It reads
the store once per identifier, at times of its own: `read` is what these reads return.
-/

namespace PulsarVerifier

def maxVerificationIds : Nat := 512

/-- The loop of `parse_ids`; `seen` are the identifiers parsed before. -/
def parseIdsFrom (seen : List VerificationId) : List Bytes → Except Error (List VerificationId)
  | [] => .ok []
  | rawId :: rest => do
    let id ← VerificationId.tryFrom rawId
    if id ∈ seen then .error (.invalidVerificationRequest s!"duplicate verification ID {id.toHex}")
    else
      let ids ← parseIdsFrom (id :: seen) rest
      pure (id :: ids)

def parseIds (rawIds : List Bytes) : Except Error (List VerificationId) :=
  if rawIds.length > maxVerificationIds then
    .error (.invalidVerificationRequest s!"at most {maxVerificationIds} verification IDs are allowed")
  else parseIdsFrom [] rawIds

/-- Only completed verdicts, in the order of the request. -/
def completedResults (read : VerificationId → Option (Arc ProofRecord)) (ids : List VerificationId) :
    List CompletedVerification :=
  ids.filterMap fun id =>
    match (read id).bind (·.value.metadata.verification) with
    | some (.completed verdict) => some ⟨id, verdict⟩
    | _ => none

structure WireResult where
  verificationId : Bytes
  verdict : Int
  deriving DecidableEq

def wireVerdict : VerificationVerdict → Int
  | .valid => 1
  | .invalid => 2

/-- The completed subset of a bounded chain request. -/
def getVerificationResults (read : VerificationId → Option (Arc ProofRecord)) (verificationIds : List Bytes) :
    Except Error (List WireResult) := do
  let ids ← parseIds verificationIds
  pure ((completedResults read ids).map fun result => ⟨result.verificationId.bytes.1, wireVerdict result.verdict⟩)

theorem getVerificationResults_mem {read : VerificationId → Option (Arc ProofRecord)} {request : List Bytes}
    {results : List WireResult} (h : getVerificationResults read request = .ok results) {result : WireResult}
    (hresult : result ∈ results) :
    ∃ id e verdict, read id = some e ∧ e.value.metadata.verification = some (.completed verdict) ∧
      result = ⟨id.bytes.1, wireVerdict verdict⟩ := by
  unfold getVerificationResults at h
  cases hids : parseIds request with
  | error error => rw [hids] at h; cases h
  | ok ids =>
    rw [hids] at h
    cases h
    obtain ⟨completed, hmem, rfl⟩ := List.mem_map.1 hresult
    obtain ⟨id, -, hid⟩ := List.mem_filterMap.1 hmem
    split at hid
    · rename_i verdict hread
      cases hid
      obtain ⟨e, he, hv⟩ := Option.bind_eq_some_iff.1 hread
      exact ⟨id, e, verdict, he, hv, rfl⟩
    · cases hid

end PulsarVerifier
