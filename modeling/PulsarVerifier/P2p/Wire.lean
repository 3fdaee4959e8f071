import PulsarVerifier.Lib.Checks
import PulsarVerifier.Lib.Proto3
import PulsarVerifier.P2p.Availability

/-!
# The byte format of availability messages

`AvailabilityWire.standard` encodes messages as `prost` does for `availability.proto`, and decodes what it has encoded
(`decode_encode`).  A repeated payload replaces the previous one.  Peer identifiers are multihashes: an inline key of at
most 42 bytes, or a SHA-256 digest.
-/

namespace PulsarVerifier

open Proto3 Protobuf

namespace AvailabilityPayload

def entry : AvailabilityPayload → Entry
  | .announcement id => (2, .payload (message (omitEmpty 1 id)))
  | .query requestId id => (3, .payload (message (omitEmpty 1 requestId ++ omitEmpty 2 id)))
  | .response requestId id providers =>
    (4, .payload (message (omitEmpty 1 requestId ++ omitEmpty 2 id ++ providers.map fun peer => (3, .payload peer))))

/-- The payload that a field of the envelope holds. -/
def ofEntry : Entry → Option (Except String AvailabilityPayload)
  | (2, .payload bytes) => some ((fields ⟨[], [1]⟩ bytes).map fun fields => .announcement (payload 1 fields))
  | (3, .payload bytes) => some ((fields ⟨[], [1, 2]⟩ bytes).map fun fields =>
      .query (payload 1 fields) (payload 2 fields))
  | (4, .payload bytes) => some ((fields ⟨[], [1, 2, 3]⟩ bytes).map fun fields =>
      .response (payload 1 fields) (payload 2 fields) (payloads 3 fields))
  | _ => none

end AvailabilityPayload

namespace AvailabilityMessage

def entries (m : AvailabilityMessage) : List Entry :=
  omitEmpty 1 m.chainId.toUTF8.data.toList ++ (m.payload.map AvailabilityPayload.entry).toList

def encode (m : AvailabilityMessage) : Bytes := message m.entries

def decode (bytes : Bytes) : Except String AvailabilityMessage := do
  let fields ← fields ⟨[], [1, 2, 3, 4]⟩ bytes
  let chainId ← string 1 fields
  let payload ← oneof AvailabilityPayload.ofEntry fields
  pure ⟨chainId, payload⟩

end AvailabilityMessage

/-- The code of the multihash is followed by the length of its digest, of at most 64 bytes.  Both numbers must be
written with as few bytes as possible. -/
def PeerId.ofBytes (bytes : Bytes) : Except String PeerId :=
  match readVarint bytes with
  | none => .error "invalid multihash"
  | some (code, rest) =>
    match readVarint rest with
    | none => .error "invalid multihash"
    | some (size, digest) =>
      if digest.length ≠ size ∨ 64 < size ∨ 2 ^ 64 ≤ code ∨ bytes ≠ varint code ++ (varint size ++ digest) then
        .error "invalid multihash"
      else if (code = 0 ∧ size ≤ 42) ∨ code = 0x12 then .ok ⟨bytes⟩
      else .error "unsupported multihash code"

@[reducible] def AvailabilityWire.standard : AvailabilityWire :=
  ⟨AvailabilityMessage.encode, AvailabilityMessage.decode, PeerId.ofBytes⟩

/-! ### Round trip -/

theorem AvailabilityPayload.ofEntry_entry (payload : AvailabilityPayload) :
    ofEntry payload.entry = some (.ok payload) := by
  cases payload with
  | announcement id =>
    have hid : Proto3.payload 1 (omitEmpty 1 id) = id := payload_eq (by simp)
    rw [entry, ofEntry, fields_message (by simp [Schema.Declares])]
    simp only [Except.map, hid]
  | query requestId id =>
    have hrequest : Proto3.payload 1 (omitEmpty 1 requestId ++ omitEmpty 2 id) = requestId := payload_eq (by simp)
    have hid : Proto3.payload 2 (omitEmpty 1 requestId ++ omitEmpty 2 id) = id := payload_eq (by simp)
    rw [entry, ofEntry, fields_message (by simp [or_imp, forall_and, Schema.Declares])]
    simp only [Except.map, hrequest, hid]
  | response requestId id providers =>
    have hrequest : Proto3.payload 1 (omitEmpty 1 requestId ++ omitEmpty 2 id ++
        providers.map fun peer => (3, .payload peer)) = requestId := payload_eq (by simp)
    have hid : Proto3.payload 2 (omitEmpty 1 requestId ++ omitEmpty 2 id ++
        providers.map fun peer => (3, .payload peer)) = id := payload_eq (by simp)
    have hproviders : payloads 3 (omitEmpty 1 requestId ++ omitEmpty 2 id ++
        providers.map fun peer => (3, .payload peer)) = providers := by simp
    rw [entry, ofEntry, fields_message (by simp [or_imp, forall_and, Schema.Declares])]
    simp only [Except.map, hrequest, hid, hproviders]

theorem AvailabilityMessage.decode_encode (m : AvailabilityMessage) : decode (encode m) = .ok m := by
  obtain ⟨chainId, payload⟩ := m
  have hfields : fields ⟨[], [1, 2, 3, 4]⟩ (encode ⟨chainId, payload⟩) = .ok (entries ⟨chainId, payload⟩) := by
    refine fields_message ?_
    rcases payload with _ | (_ | _ | _) <;>
      simp [entries, AvailabilityPayload.entry, or_imp, forall_and, Schema.Declares]
  have hchain : string 1 (entries ⟨chainId, payload⟩) = .ok chainId := by
    refine string_eq ?_
    rcases payload with _ | (_ | _ | _) <;> simp [entries, AvailabilityPayload.entry]
  have hpayload : oneof AvailabilityPayload.ofEntry (entries ⟨chainId, payload⟩) = .ok payload :=
    oneof_append (by simp [AvailabilityPayload.ofEntry]) fun payload _ => payload.ofEntry_entry
  exact Except.bind_eq_ok_iff.2 ⟨_, hfields, Except.bind_eq_ok_iff.2 ⟨_, hchain,
    Except.bind_eq_ok_iff.2 ⟨_, hpayload, rfl⟩⟩⟩

end PulsarVerifier
