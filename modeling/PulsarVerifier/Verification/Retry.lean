import PulsarVerifier.Config

/-!
# The retries of a job

A job runs attempts until one of them decides, or until the configuration allows no more, and reports the outcome of
its last attempt.  Between two attempts it sleeps, twice as long each time.
-/

namespace PulsarVerifier

variable {job : VerificationJob} {verifier : Verifier} {config : VerificationConfig}
  {behaviour : Nat → VerifyBehaviour}

/-- The outcome of attempt number `attempt`. -/
def VerificationConfig.outcome (config : VerificationConfig) (behaviour : Nat → VerifyBehaviour) (attempt : Nat) :
    VerificationOutcome :=
  executeAttempt config.jobTimeout (behaviour attempt)

/-- How long the job sleeps after attempt number `attempt`. -/
def VerificationConfig.backoff (config : VerificationConfig) (attempt : Nat) : Duration :=
  min (config.retryBackoff * 2 ^ attempt) durationMax

/-- The last attempt is the first one that decides, or the last one that is allowed. -/
structure LastAttempt (config : VerificationConfig) (behaviour : Nat → VerifyBehaviour) (last : Nat) : Prop where
  le : last ≤ config.maxRetries
  earlier : ∀ i < last, (config.outcome behaviour i).retryable = true
  decides : (config.outcome behaviour last).retryable = false ∨ last = config.maxRetries

/-- A job that runs the attempts from number `first` to number `first + more`. -/
def JobRun.through (job : VerificationJob) (verifier : Verifier) (config : VerificationConfig)
    (behaviour : Nat → VerifyBehaviour) (first more : Nat) : JobRun where
  completion := .ok ⟨job, config.outcome behaviour (first + more)⟩
  returns := (List.range' first (more + 1)).flatMap fun i =>
    attemptReturn verifier job.proof config.jobTimeout (behaviour i)
  sleeps := (List.range' first more).map config.backoff

theorem executeAttempts_of_decides {attempt remaining : Nat}
    (h : (config.outcome behaviour attempt).retryable = false ∨ attempt = config.maxRetries) :
    executeAttempts job verifier config behaviour attempt (remaining + 1) =
      .through job verifier config behaviour attempt 0 := by
  have hstop : (!(config.outcome behaviour attempt).retryable || attempt == config.maxRetries) = true := by
    simpa using h
  rw [executeAttempts]
  exact (if_pos hstop).trans (by simp [JobRun.through, VerificationConfig.outcome])

theorem executeAttempts_of_retryable {attempt remaining more : Nat}
    (hretry : (config.outcome behaviour attempt).retryable = true) (hlt : attempt < config.maxRetries)
    (hretries : config.maxRetries ≤ 32)
    (hrest : executeAttempts job verifier config behaviour (attempt + 1) remaining =
      .through job verifier config behaviour (attempt + 1) more) :
    executeAttempts job verifier config behaviour attempt (remaining + 1) =
      .through job verifier config behaviour attempt (more + 1) := by
  have hgo : ¬(!(config.outcome behaviour attempt).retryable || attempt == config.maxRetries) = true := by
    simp [hretry, hlt.ne]
  -- the shift is only computed before another attempt, so that its operand stays below 32
  have hshift : backoffMultiplier attempt = some (2 ^ attempt) := if_pos (hlt.trans_le hretries)
  rw [executeAttempts]
  refine (if_neg hgo).trans ?_
  rw [hshift, hrest]
  simp [JobRun.through, VerificationConfig.backoff, List.range'_succ, Nat.add_assoc, Nat.add_comm 1]

/-- The loop from attempt `attempt` on, by induction on the attempts that are left. -/
theorem executeAttempts_eq_through (job : VerificationJob) (verifier : Verifier) (behaviour : Nat → VerifyBehaviour)
    (hretries : config.maxRetries ≤ 32) {remaining attempt : Nat} (hleft : attempt + remaining = config.maxRetries) :
    ∃ more, attempt + more ≤ config.maxRetries ∧
      (∀ i, attempt ≤ i → i < attempt + more → (config.outcome behaviour i).retryable = true) ∧
      ((config.outcome behaviour (attempt + more)).retryable = false ∨ attempt + more = config.maxRetries) ∧
      executeAttempts job verifier config behaviour attempt (remaining + 1) =
        .through job verifier config behaviour attempt more := by
  induction remaining generalizing attempt with
  | zero =>
    exact ⟨0, by omega, by omega, .inr hleft, executeAttempts_of_decides (.inr hleft)⟩
  | succ remaining ih =>
    cases hretry : (config.outcome behaviour attempt).retryable with
    | false => exact ⟨0, by omega, by omega, .inl hretry, executeAttempts_of_decides (.inl hretry)⟩
    | true =>
      obtain ⟨more, hle, hearlier, hdecides, hrest⟩ := ih (by omega : attempt + 1 + remaining = _)
      refine ⟨more + 1, by omega, fun i hfrom hto => ?_, ?_,
        executeAttempts_of_retryable hretry (by omega) hretries hrest⟩
      · rcases Nat.eq_or_lt_of_le hfrom with rfl | hafter
        · exact hretry
        · exact hearlier i hafter (by omega)
      · rwa [Nat.add_comm more, ← Nat.add_assoc]

theorem outcome_of_late {attempt : Nat}
    (h : ∀ elapsed ending, behaviour attempt = some (elapsed, ending) → config.jobTimeout < elapsed) :
    config.outcome behaviour attempt = .failed verificationTimeout := by
  unfold VerificationConfig.outcome executeAttempt
  split
  · rfl
  · rename_i elapsed ending hbehaviour
    exact if_neg (h elapsed ending hbehaviour).not_ge

/-- With at most 32 retries, a job with a verifier runs its attempts up to the first one that decides, reports its
outcome and sleeps after each of the others; it does not overflow the shift, nor leave the loop without a result.  A
call that does not end in time is a failure that is retried, whatever it returns later.  A job without a verifier
fails for good. -/
theorem executeJob_first_decisive (job : VerificationJob) (verifier : Verifier) (config : VerificationConfig)
    (behaviour : Nat → VerifyBehaviour) (hretries : config.maxRetries ≤ 32) :
    (∃ last, LastAttempt config behaviour last ∧
      executeJob job (some verifier) config behaviour =
        { completion := .ok ⟨job, config.outcome behaviour last⟩
          returns := (List.range (last + 1)).flatMap fun i =>
            attemptReturn verifier job.proof config.jobTimeout (behaviour i)
          sleeps := (List.range last).map config.backoff }) ∧
    (∀ i, (∀ elapsed ending, behaviour i = some (elapsed, ending) → config.jobTimeout < elapsed) →
      config.outcome behaviour i = .failed verificationTimeout ∧ (config.outcome behaviour i).retryable = true) ∧
    (executeJob job none config behaviour = ⟨.ok ⟨job, .failed unsupportedProofType⟩, [], []⟩ ∧
      unsupportedProofType.retryable = false) ∧
    ∀ file config' noir, validateVerification file = .ok (config', noir) → config'.maxRetries ≤ 10 := by
  refine ⟨?_, fun i hlate => ?_, ⟨rfl, rfl⟩, fun file config' noir => maxRetries_le_of_validateVerification⟩
  · obtain ⟨last, hle, hearlier, hdecides, hrun⟩ :=
      executeAttempts_eq_through job verifier behaviour hretries (Nat.zero_add config.maxRetries)
    rw [Nat.zero_add] at hle hearlier hdecides
    refine ⟨last, ⟨hle, fun i => hearlier i i.zero_le, hdecides⟩, ?_⟩
    rw [executeJob, hrun, JobRun.through, Nat.zero_add, List.range_eq_range', List.range_eq_range']
  · rw [outcome_of_late hlate]
    exact ⟨rfl, rfl⟩

/-- The first call returns its verdict too late, during the cleanup, the second one never ends, and the third one is
in time. -/
private def thirdTime : Nat → VerifyBehaviour
  | 0 => some (11, .returned (.ok .valid))
  | 1 => none
  | _ => some (1, .returned (.ok .invalid))

theorem executeJob_first_decisive_third_time :
    let config : VerificationConfig := ⟨1, 10, 3, 5⟩
    let job : VerificationJob :=
      ⟨⟨⟨List.replicate 32 7, rfl⟩⟩, ⟨.minaPickles, [1], [2], [3]⟩, ⟨0, ⟨⟨none, none, none, none, none⟩, none⟩⟩⟩
    config.maxRetries ≤ 32 ∧
      (executeJob job (some ⟨0⟩) config thirdTime).completion = .ok ⟨job, .completed .invalid⟩ ∧
      (executeJob job (some ⟨0⟩) config thirdTime).sleeps = [5, 10] := by
  intro config job
  obtain ⟨last, hlast, hrun⟩ := (executeJob_first_decisive job ⟨0⟩ config thirdTime (by decide)).1
  have hsecond : (config.outcome thirdTime 2).retryable = false := by decide
  obtain rfl : last = 2 := by
    rcases Nat.lt_trichotomy last 2 with hlt | heq | hgt
    · have hfirst : ∀ i < 2, (config.outcome thirdTime i).retryable = true := by decide
      rcases hlast.decides with hdecides | hmax
      · rw [hfirst last hlt] at hdecides
        cases hdecides
      · rw [hmax] at hlt
        exact absurd hlt (by decide)
    · exact heq
    · have hretried := hlast.earlier 2 hgt
      rw [hsecond] at hretried
      cases hretried
  rw [hrun]
  exact ⟨by decide, rfl, rfl⟩

end PulsarVerifier
