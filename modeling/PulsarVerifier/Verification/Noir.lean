import Mathlib.Data.Nat.Digits.Defs
import PulsarVerifier.Lib.Async
import PulsarVerifier.Lib.Checks
import PulsarVerifier.Proof
import PulsarVerifier.Store.Record
import PulsarVerifier.Text
import PulsarVerifier.Verification.Soundness

/-!
# The Noir backend

`NoirVerifier::verify` sends a proof to a Barretenberg process and reads its answer: four bytes with a length, and that
many bytes.  The process may write anything, stop anywhere or stay silent, and the call may be cancelled at any moment.
A verdict is given for a complete answer only; every other end of the exchange is a failure (`verify_outcome`).  So a
job of the worker, whatever its attempts met, ends with a verdict only if a process has answered for its whole proof.

The process is an arbitrary function of what it is sent, and `Msgpack` stands for the `rmp_serde` codec of its messages.
-/

namespace PulsarVerifier

open Async

/-! ### Diagnostics -/

namespace Noir

def codes : List String :=
  ["invalid_noir_artifact", "barretenberg_protocol", "barretenberg_unavailable", "barretenberg_cleanup",
    "barretenberg_error"]

/-- The message of a failure, cut to the limit; the error is the message of a panic. -/
def cutMessage (message : String) : Except String String :=
  if message.utf8ByteSize > failureMessageMaxBytes then do
    let boundary ← searchBoundary message failureMessageMaxBytes
    truncate message boundary
  else .ok message

def failure (code message : String) (retryable : Bool) : Except String VerificationFailure := do
  let message ← cutMessage message
  match VerificationFailure.new code message retryable with
  | .ok failure => pure failure
  | .error _ => .error "Noir failure must satisfy diagnostic bounds"

def fail {α : Type} (code message : String) (retryable : Bool) : Outcome VerificationFailure α :=
  match failure code message retryable with
  | .ok failure => .failed failure
  | .error message => .panicked message

def unavailable {α : Type} (message : String) : Outcome VerificationFailure α :=
  fail "barretenberg_unavailable" message true

end Noir

/-! ### Messages -/

structure ProofSystemSettings where
  ipaAccumulation : Bool
  oracleHashType : String
  disableZk : Bool
  optimizedSolidityVerifier : Bool
  deriving DecidableEq

structure CircuitVerify where
  verificationKey : Bytes
  publicInputs : List Bytes
  proof : List Bytes
  settings : ProofSystemSettings
  deriving DecidableEq

/-- The one command that is sent. -/
inductive BarretenbergCommand
  | circuitVerify (command : CircuitVerify)
  deriving DecidableEq

/-- `other` stands for the variants that are no answer to the command. -/
inductive BarretenbergResponse
  | circuitVerifyResponse (verified : Bool)
  | errorResponse (message : String)
  | other (variant : String)
  deriving DecidableEq

/-- `rmp_serde::to_vec_named` and `rmp_serde::from_slice`, with the texts of their errors. -/
class Msgpack where
  encode : List BarretenbergCommand → Except String Bytes
  decode : Bytes → Except String BarretenbergResponse

/-! ### The process -/

/-- How the output of the process ends. -/
inductive PipeEnd
  | eof
  | error (text : String)
  deriving DecidableEq

/-- What the pipes of the process do: the results of the operations on its input, and its output.  An operation without
a result, or an output without an end, leaves the reader waiting. -/
structure Pipes where
  writes : List (Except String Unit)
  output : Bytes
  ending : Option PipeEnd

/-- How much of the pipes has happened at a poll. -/
structure PipeView where
  written : Nat
  read : Nat
  ended : Bool
  deriving DecidableEq

inductive ExchangeError
  | io (error : String)
  | oversized
  deriving DecidableEq

def maxResponseBytes : Nat := 1024 * 1024

def u32ToLeBytes (value : Nat) : Bytes := (List.range 4).map fun i => UInt8.ofNat (value / 256 ^ i)

def u32FromLeBytes (bytes : Bytes) : Nat := Nat.ofDigits 256 (bytes.map UInt8.toNat)

namespace Pipes

def upTo (pipes : Pipes) (view : PipeView) : Pipes :=
  { writes := pipes.writes.take view.written
    output := pipes.output.take view.read
    ending := if view.ended ∧ pipes.output.length ≤ view.read then pipes.ending else none }

/-- The next operation on the input of the process. -/
def write (pipes : Pipes) : Outcome ExchangeError Pipes :=
  match pipes.writes with
  | [] => .pending
  | .error error :: _ => .failed (.io error)
  | .ok () :: later => .returned { pipes with writes := later }

/-- Reads `length` bytes; `eof` is the text of the error at an early end. -/
def read (eof : String) (length : Nat) (pipes : Pipes) : Outcome ExchangeError (Bytes × Pipes) :=
  if length ≤ pipes.output.length then
    .returned (pipes.output.take length, { pipes with output := pipes.output.drop length })
  else
    match pipes.ending with
    | none => .pending
    | some .eof => .failed (.io eof)
    | some (.error error) => .failed (.io error)

/-- The length and the request are written and flushed, then the response is read. -/
def exchange (pipes : Pipes) : Outcome ExchangeError Bytes := do
  let pipes ← pipes.write
  let pipes ← pipes.write
  let pipes ← pipes.write
  let (length, pipes) ← pipes.read "unexpected end of file" 4
  let responseLen := u32FromLeBytes length
  if responseLen > maxResponseBytes then .failed .oversized
  else
    let (response, _) ← pipes.read "early eof" responseLen
    pure response

end Pipes

structure ProcessCommand where
  program : String
  args : List String
  env : List (String × String)
  deriving DecidableEq

structure Child where
  /-- The pipes that can be taken. -/
  stdin : Bool
  stdout : Bool
  /-- What the process does when it is sent these bytes. -/
  run : Bytes → Pipes
  /-- Whether the process has exited. -/
  tryWait : Except String Bool
  kill : Except String Unit

def Child.cleanup (child : Child) : Except String Unit :=
  match child.tryWait with
  | .error error => .error error
  | .ok true => .ok ()
  | .ok false => child.kill

/-! ### The verifier -/

structure NoirVerifier where
  binaryPath : String
  homeDirectory : String
  threadsPerJob : Nat
  deriving DecidableEq

/-- `as_chunks`, for so many chunks. -/
def asChunks (size : Nat) : Nat → Bytes → List Bytes
  | 0, _ => []
  | count + 1, bytes => bytes.take size :: asChunks size count (bytes.drop size)

namespace Noir

def fields (bytes : Bytes) : Outcome VerificationFailure (List Bytes) :=
  if bytes.length % 32 ≠ 0 then
    fail "invalid_noir_artifact"
      s!"Noir proof and public inputs must use 32-byte field framing; got {bytes.length} bytes" false
  else .returned (asChunks 32 (bytes.length / 32) bytes)

def buildCommand (proof : Proof) (publicInputs proofFields : List Bytes) : BarretenbergCommand :=
  .circuitVerify
    { verificationKey := proof.verificationKey, publicInputs, proof := proofFields
      settings :=
        { ipaAccumulation := false, oracleHashType := "poseidon2", disableZk := false
          optimizedSolidityVerifier := false } }

def classifyResponse : BarretenbergResponse → Outcome VerificationFailure VerificationVerdict
  | .circuitVerifyResponse verified => .returned (if verified then .valid else .invalid)
  | .errorResponse message => fail "barretenberg_error" s!"Barretenberg error: {message}" false
  | .other _ => fail "barretenberg_protocol" "Barretenberg returned an unexpected response variant" false

section

variable [Msgpack]

def encodeRequest (proof : Proof) (publicInputs proofFields : List Bytes) : Outcome VerificationFailure Bytes :=
  match Msgpack.encode [buildCommand proof publicInputs proofFields] with
  | .ok request => .returned request
  | .error error => fail "barretenberg_protocol" s!"failed to encode Barretenberg request: {error}" false

def decodeResponse (response : Bytes) : Outcome VerificationFailure BarretenbergResponse :=
  match Msgpack.decode response with
  | .ok response => .returned response
  | .error error => fail "barretenberg_protocol" s!"invalid Barretenberg response: {error}" false

end

/-- The response of an exchange that was not cancelled and did not fail. -/
def exchangeResponse : Option (Except ExchangeError Bytes) → Outcome VerificationFailure Bytes
  | none => unavailable "Barretenberg verification was cancelled"
  | some (.error .oversized) => fail "barretenberg_protocol" "Barretenberg response exceeds 1 MiB" false
  | some (.error (.io error)) => unavailable s!"Barretenberg pipe closed unexpectedly: {error}"
  | some (.ok response) => .returned response

end Noir

/-- The frame that is written to the process. -/
def requestFrame (request : Bytes) : Bytes := u32ToLeBytes request.length ++ request

namespace NoirVerifier

open Noir

def command (noir : NoirVerifier) : ProcessCommand :=
  { program := noir.binaryPath
    args := ["msgpack", "run"]
    env := [("HOME", noir.homeDirectory), ("HARDWARE_CONCURRENCY", toString noir.threadsPerJob)] }

/-- What the reading end sees at the polls of the exchange. -/
def polled (child : Child) (request : Bytes) (view : PipeView) : Outcome ExchangeError Bytes :=
  ((child.run (requestFrame request)).upTo view).exchange

section

variable [Msgpack]

/-- The part of the exchange that follows the start of the process. -/
def afterStart (request : Bytes) (polls : List (Poll PipeView)) (child : Child) :
    Outcome VerificationFailure BarretenbergResponse := do
  let exchangeResult ← select (polled child request) polls
  match child.cleanup with
  | .error error => fail "barretenberg_cleanup" s!"failed to stop Barretenberg: {error}" true
  | .ok () =>
    let response ← exchangeResponse exchangeResult
    decodeResponse response

variable (noir : NoirVerifier) (spawn : ProcessCommand → Except String Child)

def exchange (request : Bytes) (polls : List (Poll PipeView)) : Outcome VerificationFailure BarretenbergResponse :=
  if 2 ^ 32 ≤ request.length then
    fail "barretenberg_protocol" "Barretenberg request exceeds the framing limit" false
  else
    match spawn noir.command with
    | .error error => unavailable s!"failed to start Barretenberg: {error}"
    | .ok child =>
      if !child.stdin then unavailable "Barretenberg stdin pipe is unavailable"
      else if !child.stdout then unavailable "Barretenberg stdout pipe is unavailable"
      else afterStart request polls child

def verify (proof : Proof) (polls : List (Poll PipeView)) : Outcome VerificationFailure VerificationVerdict :=
  if proof.proofType ≠ .noirBarretenberg then
    fail "invalid_noir_artifact" "Noir verifier received a different proof type" false
  else do
    let proofFields ← fields proof.proof
    let publicInputs ← fields proof.publicInputs
    let request ← encodeRequest proof publicInputs proofFields
    let response ← noir.exchange spawn request polls
    classifyResponse response

end

end NoirVerifier

/-! ### The failures -/

namespace Noir

variable {α : Type} {code message : String} {retryable : Bool}

theorem failureCodeOk_of_mem_codes : ∀ code ∈ codes, failureCodeOk code = true := by decide +kernel

theorem cutMessage_eq (message : String) : cutMessage message = .ok (boundedText message failureMessageMaxBytes) := by
  rw [← boundedText.run_eq, boundedText.run, cutMessage]
  by_cases hfits : message.utf8ByteSize ≤ failureMessageMaxBytes
  · rw [if_pos hfits, if_neg (Nat.not_lt.2 hfits)]
  · rw [if_neg hfits, if_pos (Nat.not_le.1 hfits)]

theorem new_boundedText (hcode : code ∈ codes) (message : String) (retryable : Bool) :
    VerificationFailure.new code (boundedText message failureMessageMaxBytes) retryable =
      .ok ⟨code, boundedText message failureMessageMaxBytes, retryable, failureCodeOk_of_mem_codes code hcode,
        (longestPrefix_boundedText message failureMessageMaxBytes).le⟩ :=
  VerificationFailure.new_self ⟨_, _, _, _, _⟩

theorem failure_eq (hcode : code ∈ codes) (message : String) (retryable : Bool) :
    failure code message retryable =
      .ok ⟨code, boundedText message failureMessageMaxBytes, retryable, failureCodeOk_of_mem_codes code hcode,
        (longestPrefix_boundedText message failureMessageMaxBytes).le⟩ := by
  rw [failure, cutMessage_eq, Except.bind_eq_ok_iff]
  refine ⟨_, rfl, ?_⟩
  rw [new_boundedText hcode]
  rfl

/-- Both cuts keep the longest prefix within the limit, and what a failure keeps passes the checks on it. -/
theorem diagnostics_cut (value : String) :
    (∀ index, ∃ boundary ≤ index, searchBoundary value index = .ok boundary) ∧
    (∀ maxBytes, ∃ text, boundedText.run value maxBytes = .ok text ∧ text = boundedText value maxBytes ∧
      Utf8.LongestPrefix maxBytes value text ∧ (value.utf8ByteSize ≤ maxBytes → text = value)) ∧
    ∃ text, cutMessage value = .ok text ∧ Utf8.LongestPrefix failureMessageMaxBytes value text ∧
      (value.utf8ByteSize ≤ failureMessageMaxBytes → text = value) ∧
      ∀ code ∈ codes, ∀ retryable, ∃ failure, VerificationFailure.new code text retryable = .ok failure ∧
        Noir.failure code value retryable = .ok failure ∧
        failure.code = code ∧ failure.message = text ∧ failure.retryable = retryable := by
  refine ⟨fun index => ?_, fun maxBytes => ?_, ?_⟩
  · refine ⟨_, ?_, searchBoundary_eq value index⟩
    rw [charBoundary_eq_findGreatest]
    exact Nat.findGreatest_le index
  · exact ⟨_, boundedText.run_eq value maxBytes, rfl, longestPrefix_boundedText value maxBytes, boundedText_of_le⟩
  · refine ⟨_, cutMessage_eq value, longestPrefix_boundedText value _, boundedText_of_le, ?_⟩
    intro code hcode retryable
    exact ⟨_, new_boundedText hcode value retryable, failure_eq hcode value retryable, rfl, rfl, rfl⟩

theorem fail_ne_returned {a : α} : fail code message retryable ≠ .returned a := by
  unfold fail
  split <;> exact nofun

theorem within_fail (hcode : code ∈ codes) :
    Outcome.Within (fun failure => failure.code ∈ codes) (fail code message retryable : Outcome _ α) := by
  unfold fail
  rw [failure_eq hcode]
  exact .failed hcode

/-- A result that does not wait: a value, or a failure with one of the codes. -/
def Prompt (x : Outcome VerificationFailure α) : Prop :=
  (∃ a, x = .returned a) ∨ ∃ code ∈ codes, ∃ message retryable, x = fail code message retryable

theorem Prompt.returned (a : α) : Prompt (.returned a) := .inl ⟨a, rfl⟩

theorem Prompt.fail (hcode : code ∈ codes) : Prompt (fail code message retryable : Outcome _ α) :=
  .inr ⟨code, hcode, message, retryable, rfl⟩

theorem Prompt.within {x : Outcome VerificationFailure α} (h : Prompt x) :
    Outcome.Within (fun failure => failure.code ∈ codes) x := by
  rcases h with ⟨a, rfl⟩ | ⟨code, hcode, message, retryable, rfl⟩
  · exact .returned a
  · exact within_fail hcode

end Noir

/-! ### Fields -/

theorem asChunks_flatten {size : Nat} {chunks : List Bytes} (h : ∀ chunk ∈ chunks, chunk.length = size) :
    asChunks size chunks.length chunks.flatten = chunks := by
  induction chunks with
  | nil => rfl
  | cons chunk chunks ih =>
    rw [List.forall_mem_cons] at h
    rw [List.length_cons, List.flatten_cons, asChunks, List.take_left' h.1, List.drop_left' h.1, ih h.2]

theorem length_flatten_of_chunks {size : Nat} {chunks : List Bytes} (h : ∀ chunk ∈ chunks, chunk.length = size) :
    chunks.flatten.length = size * chunks.length := by
  induction chunks with
  | nil => rfl
  | cons chunk chunks ih =>
    rw [List.forall_mem_cons] at h
    rw [List.flatten_cons, List.length_append, h.1, ih h.2, List.length_cons, Nat.mul_succ, Nat.add_comm]

theorem asChunks_spec {size count : Nat} {bytes : Bytes} (h : bytes.length = size * count) :
    (∀ chunk ∈ asChunks size count bytes, chunk.length = size) ∧ (asChunks size count bytes).flatten = bytes := by
  induction count generalizing bytes with
  | zero => exact ⟨nofun, (List.length_eq_zero_iff.1 h).symm⟩
  | succ count ih =>
    rw [Nat.mul_succ] at h
    have hrest : (bytes.drop size).length = size * count := by
      rw [List.length_drop]
      omega
    obtain ⟨hchunks, hflatten⟩ := ih hrest
    rw [asChunks, List.forall_mem_cons, List.flatten_cons, hflatten, List.take_append_drop]
    exact ⟨⟨List.length_take_of_le (by omega), hchunks⟩, rfl⟩

/-- The fields are the 32-byte pieces of the bytes. -/
theorem Noir.fields_eq_returned_iff {bytes : Bytes} {pieces : List Bytes} :
    fields bytes = .returned pieces ↔ (∀ field ∈ pieces, field.length = 32) ∧ pieces.flatten = bytes := by
  unfold fields
  constructor
  · intro h
    split at h
    · exact absurd h fail_ne_returned
    · rename_i hframed
      cases h
      exact asChunks_spec (by omega)
  · rintro ⟨hpieces, rfl⟩
    have hlength := length_flatten_of_chunks hpieces
    rw [if_neg (by omega), hlength, Nat.mul_div_cancel_left _ (by omega), asChunks_flatten hpieces]

namespace Pipes

variable {pipes later : Pipes} {eof : String} {length : Nat} {bytes response : Bytes}

/-- The request is taken, and the output starts with the length of the response and the response. -/
def Answers (pipes : Pipes) (response : Bytes) : Prop :=
  (∃ more, pipes.writes = .ok () :: .ok () :: .ok () :: more) ∧
  ∃ length rest, pipes.output = length ++ (response ++ rest) ∧ length.length = 4 ∧
    u32FromLeBytes length = response.length ∧ response.length ≤ maxResponseBytes

theorem write_eq_returned_iff :
    pipes.write = .returned later ↔
      ∃ more, pipes.writes = .ok () :: more ∧ later = { pipes with writes := more } := by
  unfold write
  constructor
  · intro h
    split at h
    · cases h
    · cases h
    · rename_i more hwrites
      cases h
      exact ⟨more, hwrites, rfl⟩
  · rintro ⟨more, hwrites, rfl⟩
    rw [hwrites]

theorem read_eq_returned_iff :
    pipes.read eof length = .returned (bytes, later) ↔
      ∃ rest, pipes.output = bytes ++ rest ∧ bytes.length = length ∧ later = { pipes with output := rest } := by
  unfold read
  constructor
  · intro h
    split at h
    · rename_i hlength
      cases h
      exact ⟨_, (List.take_append_drop length pipes.output).symm, List.length_take_of_le hlength, rfl⟩
    · split at h <;> cases h
  · rintro ⟨rest, houtput, rfl, rfl⟩
    rw [houtput, if_pos (by rw [List.length_append]; omega), List.take_left, List.drop_left]

theorem exchange_eq_returned_iff : pipes.exchange = .returned response ↔ pipes.Answers response := by
  unfold exchange Answers
  simp only [Outcome.bind_eq_returned_iff, write_eq_returned_iff]
  constructor
  · rintro ⟨_, ⟨first, hfirst, rfl⟩, _, ⟨second, hsecond, rfl⟩, _, ⟨more, hmore, rfl⟩, ⟨length, afterLength⟩, hlength,
      h⟩
    dsimp only at hsecond hmore h
    obtain ⟨rest, houtput, hfour, rfl⟩ := read_eq_returned_iff.1 hlength
    split at h
    · cases h
    · rename_i hsize
      obtain ⟨⟨body, afterBody⟩, hbody, h⟩ := Outcome.bind_eq_returned_iff.1 h
      obtain ⟨rest', houtput', hbodyLength, rfl⟩ := read_eq_returned_iff.1 hbody
      cases h
      dsimp only at houtput houtput'
      have hresponse : body.length ≤ maxResponseBytes := by omega
      exact ⟨⟨more, by rw [hfirst, hsecond, hmore]⟩, length, rest', by rw [houtput, houtput'], hfour, hbodyLength.symm,
        hresponse⟩
  · rintro ⟨⟨more, hwrites⟩, length, rest, houtput, hfour, hbodyLength, hsize⟩
    refine ⟨_, ⟨_, hwrites, rfl⟩, _, ⟨_, rfl, rfl⟩, _, ⟨_, rfl, rfl⟩, ⟨length, _⟩,
      read_eq_returned_iff.2 ⟨_, houtput, hfour, rfl⟩, ?_⟩
    dsimp only
    rw [if_neg (by omega)]
    exact Outcome.bind_eq_returned_iff.2 ⟨(response, _), read_eq_returned_iff.2 ⟨_, rfl, hbodyLength.symm, rfl⟩, rfl⟩

/-- `pipes` is a part of `whole`; the end is seen after the output only. -/
structure PartOf (pipes whole : Pipes) : Prop where
  writes : pipes.writes <+: whole.writes
  output : pipes.output <+: whole.output
  ending : pipes.ending = none ∨ pipes.ending = whole.ending ∧ pipes.output = whole.output

theorem upTo_partOf (pipes : Pipes) (view : PipeView) : (pipes.upTo view).PartOf pipes := by
  refine ⟨List.take_prefix _ _, List.take_prefix _ _, ?_⟩
  unfold upTo
  dsimp only
  split
  · rename_i hended
    exact .inr ⟨rfl, List.take_of_length_le hended.2⟩
  · exact .inl rfl

variable {whole : Pipes}

theorem PartOf.write (h : pipes.PartOf whole) : Outcome.Before PartOf pipes.write whole.write := by
  obtain ⟨hwrites, houtput, hending⟩ := h
  unfold Pipes.write
  split
  · exact .pending _
  · rename_i error more hhead
    obtain ⟨rest, hrest⟩ := hwrites
    rw [← hrest, hhead]
    exact .failed _
  · rename_i more hhead
    obtain ⟨rest, hrest⟩ := hwrites
    rw [← hrest, hhead]
    exact .returned ⟨List.prefix_append more rest, houtput, hending⟩

theorem PartOf.read (h : pipes.PartOf whole) :
    Outcome.Before (fun a b => a.1 = b.1 ∧ a.2.PartOf b.2) (pipes.read eof length) (whole.read eof length) := by
  obtain ⟨hwrites, houtput, hending⟩ := h
  unfold Pipes.read
  split
  · rename_i hlength
    obtain ⟨rest, hrest⟩ := houtput
    rw [← hrest, if_pos (by rw [List.length_append]; omega), List.take_append_of_le_length hlength,
      List.drop_append_of_le_length hlength]
    refine .returned ⟨rfl, hwrites, List.prefix_append _ rest, hending.imp_right fun hended => ⟨hended.1, ?_⟩⟩
    rw [List.append_right_eq_self.1 (hrest.trans hended.2.symm), List.append_nil]
  · rename_i hshort
    rcases hending with hnone | ⟨hending, houtput'⟩
    · rw [hnone]
      exact .pending _
    · rw [hending, ← houtput', if_neg hshort]
      split
      · exact .pending _
      · exact .failed _
      · exact .failed _

theorem PartOf.exchange (h : pipes.PartOf whole) : Outcome.Before Eq pipes.exchange whole.exchange := by
  refine h.write.bind fun first first' hfirst => hfirst.write.bind fun second second' hsecond =>
    hsecond.write.bind fun third third' hthird => hthird.read.bind fun length length' hlength => ?_
  obtain ⟨length, afterLength⟩ := length
  obtain ⟨length', afterLength'⟩ := length'
  obtain ⟨rfl, hpart⟩ := hlength
  dsimp only
  split
  · exact .failed _
  · exact hpart.read.bind fun body body' hbody => .returned hbody.1

end Pipes

theorem NoirVerifier.polled_before (child : Child) (request : Bytes) (view : PipeView) :
    Outcome.Before Eq (polled child request view) (child.run (requestFrame request)).exchange :=
  (Pipes.upTo_partOf _ view).exchange

theorem NoirVerifier.select_eq_answer_iff {child : Child} {request response : Bytes} {polls : List (Poll PipeView)} :
    (select (polled child request) polls : Outcome VerificationFailure _) = .returned (some (.ok response)) ↔
      Finishes (polled child request) polls ∧ (child.run (requestFrame request)).Answers response := by
  rw [select_eq_some_iff (polled_before child request), ← Pipes.exchange_eq_returned_iff]
  refine and_congr_right fun _ => ?_
  cases (child.run (requestFrame request)).exchange with
  | pending | panicked | failed => exact ⟨nofun, nofun⟩
  | returned value => simp [settle]

/-! ### The verdict -/

theorem Noir.exchangeResponse_eq_returned_iff {result : Option (Except ExchangeError Bytes)} {response : Bytes} :
    exchangeResponse result = .returned response ↔ result = some (.ok response) := by
  constructor
  · intro h
    unfold exchangeResponse at h
    split at h
    · exact absurd h fail_ne_returned
    · exact absurd h fail_ne_returned
    · exact absurd h fail_ne_returned
    · cases h
      rfl
  · rintro rfl
    rfl

theorem Noir.classifyResponse_eq_returned_iff {response : BarretenbergResponse} {verdict : VerificationVerdict} :
    classifyResponse response = .returned verdict ↔
      ∃ verified, response = .circuitVerifyResponse verified ∧ verdict = if verified then .valid else .invalid := by
  constructor
  · intro h
    cases response with
    | circuitVerifyResponse verified =>
      cases h
      exact ⟨verified, rfl, rfl⟩
    | errorResponse message | other variant =>
      rw [classifyResponse] at h
      exact absurd h fail_ne_returned
  · rintro ⟨verified, rfl, rfl⟩
    rfl

section

variable [Msgpack]

theorem Noir.encodeRequest_eq_returned_iff {proof : Proof} {publicInputs proofFields : List Bytes} {request : Bytes} :
    encodeRequest proof publicInputs proofFields = .returned request ↔
      Msgpack.encode [buildCommand proof publicInputs proofFields] = .ok request := by
  unfold encodeRequest
  split
  · rename_i request' hencode
    rw [hencode, Outcome.returned.injEq, Except.ok.injEq]
  · rename_i error hencode
    rw [hencode]
    exact ⟨fun h => absurd h fail_ne_returned, nofun⟩

theorem Noir.decodeResponse_eq_returned_iff {bytes : Bytes} {response : BarretenbergResponse} :
    decodeResponse bytes = .returned response ↔ Msgpack.decode bytes = .ok response := by
  unfold decodeResponse
  split
  · rename_i response' hdecode
    rw [hdecode, Outcome.returned.injEq, Except.ok.injEq]
  · rename_i error hdecode
    rw [hdecode]
    exact ⟨fun h => absurd h fail_ne_returned, nofun⟩

namespace NoirVerifier

open Noir

variable {noir : NoirVerifier} {spawn : ProcessCommand → Except String Child} {polls : List (Poll PipeView)}
  {proof : Proof}

/-- The request fits a frame, and the process is started with both pipes. -/
structure Started (noir : NoirVerifier) (spawn : ProcessCommand → Except String Child) (request : Bytes)
    (child : Child) : Prop where
  framed : request.length < 2 ^ 32
  spawned : spawn noir.command = .ok child
  stdin : child.stdin = true
  stdout : child.stdout = true

/-- The process answered, the call was not cancelled before, and the process is gone. -/
structure Answered (polls : List (Poll PipeView)) (request : Bytes) (child : Child) (response : Bytes) : Prop where
  finishes : Finishes (polled child request) polls
  answers : (child.run (requestFrame request)).Answers response
  cleanup : child.cleanup = .ok ()

theorem exchange_of_started {request : Bytes} {child : Child} (h : Started noir spawn request child) :
    noir.exchange spawn request polls = afterStart request polls child := by
  obtain ⟨hframed, hspawned, hstdin, hstdout⟩ := h
  rw [exchange, if_neg (Nat.not_le.2 hframed), hspawned]
  dsimp only
  rw [hstdin, hstdout]
  rfl

theorem exchange_cases (noir : NoirVerifier) (spawn : ProcessCommand → Except String Child) (request : Bytes)
    (polls : List (Poll PipeView)) :
    (∃ child, Started noir spawn request child) ∨
      ∃ code ∈ codes, ∃ message retryable, noir.exchange spawn request polls = fail code message retryable := by
  unfold exchange
  split
  · exact .inr ⟨_, by decide, _, _, rfl⟩
  · rename_i hframed
    split
    · exact .inr ⟨_, by decide, _, _, rfl⟩
    · rename_i child hspawned
      split
      · exact .inr ⟨_, by decide, _, _, rfl⟩
      · rename_i hstdin
        split
        · exact .inr ⟨_, by decide, _, _, rfl⟩
        · rename_i hstdout
          exact .inl ⟨child, Nat.not_le.1 hframed, hspawned, by simpa using hstdin, by simpa using hstdout⟩

theorem afterStart_eq_returned_iff {request : Bytes} {child : Child} {response : BarretenbergResponse} :
    afterStart request polls child = .returned response ↔
      ∃ bytes, Answered polls request child bytes ∧ Msgpack.decode bytes = .ok response := by
  unfold afterStart
  rw [Outcome.bind_eq_returned_iff]
  constructor
  · rintro ⟨result, hselect, h⟩
    split at h
    · exact absurd h fail_ne_returned
    · rename_i hcleanup
      obtain ⟨bytes, hbytes, hdecode⟩ := Outcome.bind_eq_returned_iff.1 h
      rw [exchangeResponse_eq_returned_iff] at hbytes
      subst hbytes
      obtain ⟨hfinishes, hanswers⟩ := select_eq_answer_iff.1 hselect
      exact ⟨bytes, ⟨hfinishes, hanswers, hcleanup⟩, decodeResponse_eq_returned_iff.1 hdecode⟩
  · rintro ⟨bytes, ⟨hfinishes, hanswers, hcleanup⟩, hdecode⟩
    refine ⟨_, select_eq_answer_iff.2 ⟨hfinishes, hanswers⟩, ?_⟩
    rw [hcleanup]
    exact Outcome.bind_eq_returned_iff.2 ⟨bytes, rfl, decodeResponse_eq_returned_iff.2 hdecode⟩

theorem exchange_eq_returned_iff {request : Bytes} {response : BarretenbergResponse} :
    noir.exchange spawn request polls = .returned response ↔
      ∃ child bytes, Started noir spawn request child ∧ Answered polls request child bytes ∧
        Msgpack.decode bytes = .ok response := by
  constructor
  · intro h
    rcases exchange_cases noir spawn request polls with ⟨child, hstarted⟩ | ⟨_, -, _, _, hfail⟩
    · rw [exchange_of_started hstarted, afterStart_eq_returned_iff] at h
      obtain ⟨bytes, hanswered, hdecode⟩ := h
      exact ⟨child, bytes, hstarted, hanswered, hdecode⟩
    · rw [hfail] at h
      exact absurd h fail_ne_returned
  · rintro ⟨child, bytes, hstarted, hanswered, hdecode⟩
    rw [exchange_of_started hstarted]
    exact afterStart_eq_returned_iff.2 ⟨bytes, hanswered, hdecode⟩

/-! ### Failures of the exchange -/

theorem verify_of_noir (htype : proof.proofType = .noirBarretenberg) :
    noir.verify spawn proof polls = (do
      let proofFields ← fields proof.proof
      let publicInputs ← fields proof.publicInputs
      let request ← encodeRequest proof publicInputs proofFields
      let response ← noir.exchange spawn request polls
      classifyResponse response) :=
  if_neg (not_not.2 htype)

theorem verify_eq_returned_iff {verdict : VerificationVerdict} :
    noir.verify spawn proof polls = .returned verdict ↔
      proof.proofType = .noirBarretenberg ∧
      ∃ publicInputs proofFields request child response verified,
        ((∀ field ∈ proofFields, field.length = 32) ∧ proofFields.flatten = proof.proof) ∧
        ((∀ field ∈ publicInputs, field.length = 32) ∧ publicInputs.flatten = proof.publicInputs) ∧
        Msgpack.encode [buildCommand proof publicInputs proofFields] = .ok request ∧
        Started noir spawn request child ∧ Answered polls request child response ∧
        Msgpack.decode response = .ok (.circuitVerifyResponse verified) ∧
        verdict = if verified then .valid else .invalid := by
  constructor
  · intro h
    by_cases htype : proof.proofType = .noirBarretenberg
    · rw [verify_of_noir htype] at h
      simp only [Outcome.bind_eq_returned_iff, fields_eq_returned_iff, encodeRequest_eq_returned_iff,
        exchange_eq_returned_iff, classifyResponse_eq_returned_iff] at h
      obtain ⟨proofFields, hproof, publicInputs, hinputs, request, hencode, _, ⟨child, response, hstarted, hanswered,
        hdecode⟩, verified, rfl, hverdict⟩ := h
      exact ⟨htype, publicInputs, proofFields, request, child, response, verified, hproof, hinputs, hencode, hstarted,
        hanswered, hdecode, hverdict⟩
    · rw [verify, if_pos htype] at h
      exact absurd h fail_ne_returned
  · rintro ⟨htype, publicInputs, proofFields, request, child, response, verified, hproof, hinputs, hencode, hstarted,
      hanswered, hdecode, hverdict⟩
    rw [verify_of_noir htype]
    simp only [Outcome.bind_eq_returned_iff, fields_eq_returned_iff, encodeRequest_eq_returned_iff,
      exchange_eq_returned_iff, classifyResponse_eq_returned_iff]
    exact ⟨proofFields, hproof, publicInputs, hinputs, request, hencode, _, ⟨child, response, hstarted, hanswered,
      hdecode⟩, verified, rfl, hverdict⟩

end NoirVerifier

end

/-- A process that answers with one byte, and a codec in which this byte is a positive answer. -/
example :
    let _ : Msgpack :=
      ⟨fun _ => .ok [7], fun bytes => if bytes = [1] then .ok (.circuitVerifyResponse true) else .error "invalid type"⟩
    let child : Child :=
      ⟨true, true, fun _ => ⟨[.ok (), .ok (), .ok ()], [1, 0, 0, 0, 1], some .eof⟩, .ok true, .ok ()⟩
    let proof : Proof := ⟨.noirBarretenberg, List.replicate 64 0, List.replicate 32 1, [2]⟩
    let verify := (NoirVerifier.mk "/bb" "/home" 1).verify (fun _ => .ok child) proof
    verify [⟨⟨2, 0, false⟩, false, false⟩, ⟨⟨3, 5, false⟩, true, false⟩] = .returned .valid ∧
      verify [⟨⟨2, 0, false⟩, false, false⟩, ⟨⟨3, 4, false⟩, false, false⟩] = .pending := by
  decide +kernel

/-! ### The job that calls the backend -/

namespace NoirVerifier

/-- A call of `verify` as the job sees it, for a call that takes so long if it ends. -/
def behaviour (elapsed : Duration) : Outcome VerificationFailure VerificationVerdict → VerifyBehaviour
  | .pending => none
  | .panicked _ => some (elapsed, .panicked)
  | .failed failure => some (elapsed, .returned (.error failure))
  | .returned verdict => some (elapsed, .returned (.ok verdict))

theorem eq_returned_of_behaviour {outcome : Outcome VerificationFailure VerificationVerdict}
    {elapsed elapsed' : Duration} {verdict : VerificationVerdict}
    (h : behaviour elapsed outcome = some (elapsed', .returned (.ok verdict))) : outcome = .returned verdict := by
  cases outcome with
  | pending | panicked | failed => cases h
  | returned => cases h; rfl

/-- A job of this backend ends with a verdict only if a process, started by one of its attempts, has answered so for
the whole proof of the job. -/
theorem answered_of_executeJob [Msgpack] {noir : NoirVerifier} {job : VerificationJob} {verifier : Option Verifier}
    {config : VerificationConfig} {spawn : Nat → ProcessCommand → Except String Child}
    {polls : Nat → List (Poll PipeView)} {elapsed : Nat → Duration} {verdict : VerificationVerdict}
    (h : (executeJob job verifier config fun n =>
      behaviour (elapsed n) (noir.verify (spawn n) job.proof (polls n))).completion = .ok ⟨job, .completed verdict⟩) :
    ∃ n ≤ config.maxRetries, ∃ publicInputs proofFields request child response verified,
      proofFields.flatten = job.proof.proof ∧ publicInputs.flatten = job.proof.publicInputs ∧
      Msgpack.encode [Noir.buildCommand job.proof publicInputs proofFields] = .ok request ∧
      Started noir (spawn n) request child ∧ Answered (polls n) request child response ∧
      Msgpack.decode response = .ok (.circuitVerifyResponse verified) ∧
      verdict = if verified then .valid else .invalid := by
  obtain ⟨_, n, _, -, hn, -, hbehaviour, -⟩ := (executeJob_completed h).2 verdict rfl
  obtain ⟨-, publicInputs, proofFields, request, child, response, verified, hproof, hinputs, hanswer⟩ :=
    verify_eq_returned_iff.1 (eq_returned_of_behaviour hbehaviour)
  exact ⟨n, hn, publicInputs, proofFields, request, child, response, verified, hproof.2, hinputs.2, hanswer⟩

end NoirVerifier

end PulsarVerifier
