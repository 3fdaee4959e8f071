import PulsarVerifier.Node.System

/-!
# Nodes agree on verdicts

Two nodes that serve a result for one request serve the same one, as long as what their verifiers return depends on the
proof only: the identifier of a request fixes its proof, however a node came by it.
-/

namespace PulsarVerifier

namespace NodeSystem

section

variable [Sha256] [Ed25519] [TransactionWire] [AvailabilityWire] {setup setup' : NodeSetup} {as as' : List NodeAction}
  {n n' : NodeSystem} {result result' : WireResult}

/-- The node answers a request with this result.  The store is read once for each identifier of the request, and other
tasks take their steps in between. -/
def Serves (setup : NodeSetup) (as : List NodeAction) (n : NodeSystem) (result : WireResult) : Prop :=
  ∃ read request results,
    (∀ id e, read id = some e → ∃ pre u post, as = pre ++ post ∧ (lts setup).Run (initial setup) pre u ∧
      (lts setup).Run u post n ∧ u.stores.store.get id = some e) ∧
    getVerificationResults read request = .ok results ∧ result ∈ results

theorem Serves.exists_call {config : ProofStoreConfig} (hnew : ProofStore.new config = .ok setup.store)
    (h : Serves setup as n result) :
    ∃ verdict, ∃ call ∈ n.verification.returns, call.result = .ok verdict ∧
      result = ⟨call.proof.verificationId.bytes.1, wireVerdict verdict⟩ := by
  obtain ⟨read, request, results, hread, hresults, hresult⟩ := h
  obtain ⟨id, e, verdict, he, hverdict, rfl⟩ := getVerificationResults_mem hresults hresult
  obtain ⟨pre, u, post, rfl, hpre, hpost, hget⟩ := hread id e he
  obtain ⟨bs, hbs, -⟩ := run_verification hpre
  obtain ⟨cs, hcs, -⟩ := hpost.project (f := verificationView) (l := verificationLabel) next_verification
  obtain ⟨proof, rfl, call, hcall, rfl, -, -, hreturned⟩ :=
    (VerificationSystem.run_sound hnew hbs).verified id e verdict hget hverdict
  exact ⟨verdict, call, VerificationSystem.run_returns hcs call hcall, hreturned, rfl⟩

/-- Two nodes, or one node at two times, never serve different verdicts for one request: whatever they were sent, in
whatever order, and also after retries and evictions. -/
theorem results_agree {config config' : ProofStoreConfig} (hnew : ProofStore.new config = .ok setup.store)
    (hnew' : ProofStore.new config' = .ok setup'.store) {inputs : Set Bytes} (hinj : Set.InjOn Sha256.digest inputs)
    (hhashed : ∀ call ∈ n.verification.returns ++ n'.verification.returns, ∀ bytes ∈ call.proof.hashed, bytes ∈ inputs)
    (verify : Proof → VerificationVerdict)
    (hverify : ∀ call ∈ n.verification.returns ++ n'.verification.returns, ∀ verdict, call.result = .ok verdict →
      verdict = verify call.proof)
    (hserves : Serves setup as n result) (hserves' : Serves setup' as' n' result')
    (hid : result.verificationId = result'.verificationId) : result = result' := by
  obtain ⟨verdict, call, hcall, hreturned, rfl⟩ := hserves.exists_call hnew
  obtain ⟨verdict', call', hcall', hreturned', rfl⟩ := hserves'.exists_call hnew'
  have hmem : call ∈ n.verification.returns ++ n'.verification.returns := List.mem_append_left _ hcall
  have hmem' : call' ∈ n.verification.returns ++ n'.verification.returns := List.mem_append_right _ hcall'
  have hproof : call.proof = call'.proof :=
    Proof.eq_of_verificationId_eq hinj (hhashed call hmem) (hhashed call' hmem')
      (congrArg VerificationId.mk (Subtype.ext hid))
  have hverdict : verdict = verdict' := by
    rw [hverify call hmem verdict hreturned, hverify call' hmem' verdict' hreturned', hproof]
  rw [hproof, hverdict]

end

/-- The request is answered, and the verifiers have found the only proof valid. -/
private def validTest [Sha256] (n : NodeSystem) : Bool :=
  decide (getVerificationResults n.stores.store.get [Proof.small.verificationId.bytes.1] =
    .ok [⟨Proof.small.verificationId.bytes.1, 1⟩]) &&
  n.verification.returns.all fun call => decide (call.proof = .small ∧ call.result.toOption = some .valid)

private theorem serves_of_exec [Sha256] [Ed25519] [TransactionWire] [AvailabilityWire] (as : List NodeAction)
    (h : (Lts.exec (next .small) (initial .small) as).any validTest = true) :
    ∃ n, Serves .small as n ⟨Proof.small.verificationId.bytes.1, 1⟩ ∧
      ∀ call ∈ n.verification.returns, call.proof = .small ∧ call.result.toOption = some .valid := by
  obtain ⟨n, hn, htest⟩ := (Option.any_eq_true _ _).1 h
  rw [validTest, Bool.and_eq_true, decide_eq_true_eq, List.all_eq_true] at htest
  refine ⟨n, ⟨_, _, _, fun id e he => ⟨as, n, [], (List.append_nil as).symm, Lts.run_of_exec hn, .refl n, he⟩, htest.1,
    List.mem_cons_self⟩, fun call hcall => of_decide_eq_true (htest.2 call hcall)⟩

/-- One node observes the request before the proof is submitted, the other one afterwards. -/
theorem results_agree_reordered :
    letI := Sha256.standard
    letI := ListenerSystem.everyKey
    letI := TransactionWire.standard
    letI := AvailabilityWire.standard
    ∃ n n', Serves .small (observing ++ verifying) n ⟨Proof.small.verificationId.bytes.1, 1⟩ ∧
      Serves .small (verifying.take 3 ++ observing ++ verifying.drop 3) n' ⟨Proof.small.verificationId.bytes.1, 1⟩ ∧
      ∀ result, Serves .small (verifying.take 3 ++ observing ++ verifying.drop 3) n' result →
        result.verificationId = Proof.small.verificationId.bytes.1 → result.verdict = 1 := by
  let _ := Sha256.standard
  let _ := ListenerSystem.everyKey
  let _ := TransactionWire.standard
  let _ := AvailabilityWire.standard
  obtain ⟨n, hserves, hcalls⟩ := serves_of_exec (observing ++ verifying) (by decide +kernel)
  obtain ⟨n', hserved, hcalls'⟩ :=
    serves_of_exec (verifying.take 3 ++ observing ++ verifying.drop 3) (by decide +kernel)
  have hall : ∀ call ∈ n.verification.returns ++ n'.verification.returns,
      call.proof = .small ∧ call.result.toOption = some .valid :=
    fun call hcall => (List.mem_append.1 hcall).elim (hcalls call) (hcalls' call)
  refine ⟨n, n', hserves, hserved, fun result hserves' hid => ?_⟩
  have hagree := results_agree (show ProofStore.new .small = .ok NodeSetup.small.store from rfl)
    (show ProofStore.new .small = .ok NodeSetup.small.store from rfl) SubmissionSystem.smallInputs_injOn
    (fun call hcall bytes hbytes => List.mem_cons_of_mem _ ((hall call hcall).1 ▸ hbytes)) (fun _ => .valid)
    (fun call hcall verdict hresult => by
      have hvalid := (hall call hcall).2
      rw [hresult] at hvalid
      exact Option.some.inj hvalid) hserves hserves' hid.symm
  rw [← hagree]

end NodeSystem

end PulsarVerifier
