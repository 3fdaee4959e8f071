import PulsarVerifier.Lib.Checks
import PulsarVerifier.Verification.Worker

/-!
# Validation of the configuration

The sections of the configuration file that limit the proof store, the submissions and the verification jobs.  A field
that the file does not have takes its default; a component only sees what has passed the checks here.
-/

namespace PulsarVerifier

def Duration.fromSecs (secs : Nat) : Duration := secs * 10 ^ 9

def Duration.fromMillis (millis : Nat) : Duration := millis * 10 ^ 6

/-- `Path::is_absolute` on Unix -/
def isAbsolute (path : String) : Bool := decide (path.toList.head? = some '/')

structure NoirConfig where
  enabled : Bool
  binaryPath : String
  homeDirectory : String
  threadsPerJob : Nat
  deriving DecidableEq

structure FileNoirConfig where
  enabled : Bool := false
  binaryPath : String := ""
  homeDirectory : String := ""
  threadsPerJob : Nat := 1

structure FileVerificationConfig where
  maxConcurrentJobs : Nat := 2
  jobTimeoutSecs : Nat := 30
  maxRetries : Nat := 2
  retryBackoffMillis : Nat := 250
  noir : FileNoirConfig := {}

structure FileProofStoreConfig where
  maxCapacityBytes : Nat := 512 * 1024 * 1024
  maxProofBytes : Nat := 8 * 1024 * 1024
  terminalRetentionSecs : Nat := 15 * 60
  eventBuffer : Nat := 256

open Except in
def validateVerification (file : FileVerificationConfig) : Except Error (VerificationConfig × NoirConfig) := do
  rejectIf (¬(1 ≤ file.maxConcurrentJobs ∧ file.maxConcurrentJobs ≤ 256))
    (Error.invalidConfig "verification.max_concurrent_jobs must be between 1 and 256")
  rejectIf (file.jobTimeoutSecs = 0) (Error.invalidConfig "verification.job_timeout_secs must be greater than zero")
  rejectIf (file.maxRetries > 10) (Error.invalidConfig "verification.max_retries must not exceed 10")
  rejectIf (file.maxRetries > 0 ∧ file.retryBackoffMillis = 0)
    (Error.invalidConfig
      "verification.retry_backoff_millis must be greater than zero when retries are enabled")
  rejectIf (¬(1 ≤ file.noir.threadsPerJob ∧ file.noir.threadsPerJob ≤ 256))
    (Error.invalidConfig "verification.noir.threads_per_job must be between 1 and 256")
  rejectIf (file.noir.enabled ∧ (!isAbsolute file.noir.binaryPath || !isAbsolute file.noir.homeDirectory))
    (Error.invalidConfig "verification.noir binary_path and home_directory must be absolute when enabled")
  pure
    ({ maxConcurrentJobs := file.maxConcurrentJobs, jobTimeout := .fromSecs file.jobTimeoutSecs
       maxRetries := file.maxRetries, retryBackoff := .fromMillis file.retryBackoffMillis },
     { enabled := file.noir.enabled, binaryPath := file.noir.binaryPath, homeDirectory := file.noir.homeDirectory
       threadsPerJob := file.noir.threadsPerJob })

open Except in
/-- As in `ProofStore.new`, `max_proof_bytes` is a `usize` and always fits `u64`. -/
def validateProofStore (file : FileProofStoreConfig) : Except Error ProofStoreConfig := do
  rejectIf (file.maxCapacityBytes = 0 ∨ file.maxProofBytes = 0 ∨ file.terminalRetentionSecs = 0 ∨ file.eventBuffer = 0)
    (Error.invalidConfig
      "proof store capacity, proof limit, retention, and event buffer must be greater than zero")
  rejectIf (file.maxProofBytes > file.maxCapacityBytes)
    (Error.invalidConfig "proof_store.max_proof_bytes must not exceed max_capacity_bytes")
  pure
    { maxCapacityBytes := file.maxCapacityBytes, maxProofBytes := file.maxProofBytes
      terminalRetention := .fromSecs file.terminalRetentionSecs, eventBuffer := file.eventBuffer }

/-! ### The submission server -/

/-- A parsed address: whether its IP is a loopback address, and its port. -/
structure SocketAddr where
  isLoopback : Bool
  port : Nat
  deriving DecidableEq

/-- `str::parse::<SocketAddr>`, with the text of its error. -/
class SocketAddrParser where
  parse : String → Except String SocketAddr

structure SubmissionConfig where
  enabled : Bool
  listenAddress : SocketAddr
  maxTransactionBytes : Nat
  maxConcurrentRequests : Nat
  deriving DecidableEq

structure FileSubmissionConfig where
  enabled : Bool := false
  listenAddress : String := "127.0.0.1:50052"
  maxTransactionBytes : Nat := 1024 * 1024
  maxConcurrentRequests : Nat := 16

section

variable [SocketAddrParser]

open Except in
def validateLoopbackAddress (area : String) (enabled : Bool) (value : String) : Except Error SocketAddr :=
  match SocketAddrParser.parse value with
  | .error text => .error (.invalidConfig s!"{area}.listen_address must be a literal IP and port: {text}")
  | .ok address => do
    rejectIf (enabled ∧ address.port = 0)
      (Error.invalidConfig s!"{area}.listen_address port must be greater than zero when enabled")
    rejectIf (enabled ∧ !address.isLoopback)
      (Error.invalidConfig s!"{area}.listen_address must use a loopback IP when enabled")
    pure address

open Except in
/-- `config::validate_submission`; `submission` has a function of the same name. -/
def Config.validateSubmission (file : FileSubmissionConfig) : Except Error SubmissionConfig := do
  let listenAddress ← validateLoopbackAddress "submission" file.enabled file.listenAddress
  rejectIf (¬(1 ≤ file.maxTransactionBytes ∧ file.maxTransactionBytes ≤ 16 * 1024 * 1024))
    (Error.invalidConfig "submission.max_transaction_bytes must be between 1 byte and 16 MiB")
  rejectIf (¬(1 ≤ file.maxConcurrentRequests ∧ file.maxConcurrentRequests ≤ 64))
    (Error.invalidConfig "submission.max_concurrent_requests must be between 1 and 64")
  pure
    { enabled := file.enabled, listenAddress, maxTransactionBytes := file.maxTransactionBytes
      maxConcurrentRequests := file.maxConcurrentRequests }

end

/-! ### What is accepted -/

theorem maxRetries_le_of_validateVerification {file : FileVerificationConfig} {config : VerificationConfig}
    {noir : NoirConfig} (h : validateVerification file = .ok (config, noir)) : config.maxRetries ≤ 10 := by
  unfold validateVerification at h
  simp only [Except.bind_eq_ok_iff, Except.rejectIf_eq_ok_iff] at h
  obtain ⟨-, -, -, -, -, hretries, -, -, -, -, -, -, h⟩ := h
  cases h
  exact not_lt.1 hretries

theorem Config.maxTransactionBytes_le_of_validateSubmission [SocketAddrParser] {file : FileSubmissionConfig}
    {config : SubmissionConfig} (h : validateSubmission file = .ok config) :
    config.maxTransactionBytes ≤ 16 * 1024 * 1024 := by
  unfold validateSubmission at h
  simp only [Except.bind_eq_ok_iff, Except.rejectIf_eq_ok_iff] at h
  obtain ⟨address, -, -, htransaction, -, -, h⟩ := h
  cases h
  exact (not_not.1 htransaction).2

end PulsarVerifier
