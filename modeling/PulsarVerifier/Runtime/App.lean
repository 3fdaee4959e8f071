import PulsarVerifier.Runtime.Services

/-!
# The lifecycle of the process

`App.run` starts the components, waits until a shutdown is requested or a task ends, and stops what it has started.  A
start that fails stops what is there already.
-/

namespace PulsarVerifier

open Program

def verificationTask : String := "verification worker"

/-- What `App::run` reads of the configuration. -/
structure AppConfig where
  noirEnabled : Bool
  p2pEnabled : Bool
  listenerEnabled : Bool
  rpcEnabled : Bool
  submission : SubmissionConfig
  maxProofBytes : Nat
  shutdownTimeout : Duration

/-- `if let Some(..)` on a component. -/
def whenThere (component : Component) (body : Owner Unit) : Owner Unit := do
  if ← read (·.kept.components component) then body

/-! ### Stopping at once -/

/-- The component is taken and stopped, if it is there. -/
def takeAndForce (component : Component) (forceShutdown : Owner Unit) : Owner Unit :=
  whenThere component do
    update fun s => { s with kept := s.kept.take component }
    forceShutdown

def forceShutdownComponents : Owner Unit := do
  takeAndForce .submissionRpc SubmissionRpcServer.forceShutdown
  takeAndForce .listener PulsarListener.forceShutdown
  takeAndForce .p2p P2pService.forceShutdown
  update (·.ask .verification .cancel)
  abortTask .verification
  takeAndForce .rpc RpcServer.forceShutdown

def cleanupStartup : Owner Unit := do
  takeAndForce .rpc RpcServer.forceShutdown
  takeAndForce .listener PulsarListener.forceShutdown
  takeAndForce .p2p P2pService.forceShutdown
  update (·.ask .verification .cancel)
  abortTask .verification

/-! ### A requested shutdown -/

/-- One component is stopped in the time that is left. -/
def shutdownBefore (forceShutdown : Owner Unit) (shutdown : Duration → Owner AppResult) (deadline : Instant)
    (totalTimeout : Duration) : Owner AppResult := do
  let now ← read (·.now)
  if now ≤ deadline then
    match ← shutdown (deadline - now) with
    | .error (.shutdownTimeout _) => return .error (.shutdownTimeout totalTimeout)
    | result => return result
  else
    forceShutdown
    return .error (.shutdownTimeout totalTimeout)

def shutdownP2p : Instant → Duration → Owner AppResult := shutdownBefore P2pService.forceShutdown P2pService.shutdown

def shutdownListener : Instant → Duration → Owner AppResult :=
  shutdownBefore PulsarListener.forceShutdown PulsarListener.shutdown

def shutdownRpc : Instant → Duration → Owner AppResult := shutdownBefore RpcServer.forceShutdown RpcServer.shutdown

def shutdownSubmissionRpc : Instant → Duration → Owner AppResult :=
  shutdownBefore SubmissionRpcServer.forceShutdown SubmissionRpcServer.shutdown

/-- The token is cancelled even if no time is left. -/
def shutdownVerification (deadline : Instant) (totalTimeout : Duration) : Owner AppResult := do
  update (·.ask .verification .cancel)
  let now ← read (·.now)
  if now ≤ deadline then joinWithin .verification verificationTask (deadline - now) totalTimeout
  else
    abortTask .verification
    return .error (.shutdownTimeout totalTimeout)

def preserveFirstError (first : Option AppError) : AppResult → Option AppError
  | .ok () => first
  | .error error => first.or (some error)

/-- The component is taken and stopped, if it is there. -/
def takeAndShutdown (component : Component) (first : Option AppError) (shutdown : Owner AppResult) :
    Owner (Option AppError) := do
  if ← read (·.kept.components component) then
    update fun s => { s with kept := s.kept.take component }
    return preserveFirstError first (← shutdown)
  else return first

def resultError : AppResult → Option AppError
  | .ok () => none
  | .error error => some error

/-- The components are stopped one after the other, with one deadline for all. -/
def shutdownInOrder (first : Option AppError) (deadline : Instant) (shutdownTimeout : Duration) :
    Owner (Option AppError) := do
  let first ← takeAndShutdown .submissionRpc first (shutdownSubmissionRpc deadline shutdownTimeout)
  let first ← takeAndShutdown .listener first (shutdownListener deadline shutdownTimeout)
  let first ← takeAndShutdown .p2p first (shutdownP2p deadline shutdownTimeout)
  let result ← shutdownVerification deadline shutdownTimeout
  takeAndShutdown .rpc (preserveFirstError first result) (shutdownRpc deadline shutdownTimeout)

def shutdownRequested (request : AppResult) (shutdownTimeout : Duration) : Owner AppResult := do
  let deadline := (← read (·.now)) + shutdownTimeout
  update fun s => { s with kept := { s.kept with deadline := some deadline } }
  whenThere .rpc RpcServer.markNotServing
  whenThere .submissionRpc SubmissionRpcServer.markNotServing
  match ← shutdownInOrder (resultError request) deadline shutdownTimeout with
  | none => return .ok ()
  | some error => return .error error

/-! ### The end of the process -/

inductive AppExit
  | requested (result : AppResult)
  | p2pTask (exit : P2pExit)
  | listenerTask (result : TaskResult)
  | verificationTask (result : TaskResult)
  | rpcTask (result : TaskResult)
  | submissionRpcTask (result : TaskResult)

/-- The handles of the components that are there are polled. -/
def expectComponents : Owner Unit := do
  whenThere .p2p P2pService.expectTasks
  whenThere .listener PulsarListener.waitForExit
  expectHandle .verification "verification task exists while App is active"
  whenThere .rpc RpcServer.waitForExit
  whenThere .submissionRpc SubmissionRpcServer.waitForExit

/-- The branches that are ready; one of a component that is not there never is. -/
def appExitReady (s : Runtime) : List (AppExit × Runtime) :=
  s.control.toList.map (fun result => (.requested result, s)) ++
  s.signal.toList.map (fun result => (.requested result, s)) ++
  (if s.kept.components .p2p then P2pService.exitReady s else []).map (fun (exit, s) => (.p2pTask exit, s)) ++
  (if s.kept.components .listener then exitReady .listener s else []).map
    (fun (result, s) => (.listenerTask result, s)) ++
  -- `handle_app_exit` drops the handle of the verification worker before it does anything else
  (exitReady .verification s).map (fun (result, s) => (.verificationTask result, s)) ++
  (if s.kept.components .rpc then exitReady .rpc s else []).map (fun (result, s) => (.rpcTask result, s)) ++
  (if s.kept.components .submissionRpc then exitReady .submissionRpc s else []).map
    (fun (result, s) => (.submissionRpcTask result, s))

def waitForAppExit : Owner AppExit := do
  expectComponents
  awaitFor none appExitReady

def handleAppExit (exit : AppExit) (shutdownTimeout : Duration) : Owner AppResult := do
  match exit with
  | .requested result => shutdownRequested result shutdownTimeout
  | .p2pTask exit => failWith exit.intoError
  | .listenerTask result => failWith (unexpectedTaskError PulsarVerifier.listenerTask result)
  | .verificationTask result => failWith (unexpectedTaskError PulsarVerifier.verificationTask result)
  | .rpcTask result => failWith (unexpectedTaskError PulsarVerifier.rpcTask result)
  | .submissionRpcTask result => failWith (unexpectedTaskError PulsarVerifier.submissionRpcTask result)
where
  failWith (error : AppError) : Owner AppResult := do
    forceShutdownComponents
    return .error error

/-! ### The start -/

inductive ListenerStartup
  | started
  | disabled
  | shutdown (result : AppResult)
  | p2pTask (exit : P2pExit)
  | verificationTask (result : TaskResult)

/-- The branches beside the start of the listener that are ready. -/
def startupReady (s : Runtime) : List (ListenerStartup × Runtime) :=
  s.control.toList.map (fun result => (.shutdown result, s)) ++
  s.signal.toList.map (fun result => (.shutdown result, s)) ++
  (if s.kept.components .p2p then P2pService.exitReady s else []).map (fun (exit, s) => (.p2pTask exit, s)) ++
  -- as in `appExitReady`, the handle is dropped next
  (exitReady .verification s).map (fun (result, s) => (.verificationTask result, s))

/-- `PulsarListener::start` returns: the listener says that it is ready, or its task ends before that. -/
def PulsarListener.startReady (s : Runtime) : List (AppResult × Runtime) :=
  if s.listenerReady then [(.ok (), s)]
  else (exitReady .listener s).map fun (result, s) => (.error (unexpectedTaskError listenerTask result), s)

/-- All branches, once the task of the listener has been spawned. -/
def listenerStartReady (s : Runtime) : List ((AppResult ⊕ ListenerStartup) × Runtime) :=
  (PulsarListener.startReady s).map (fun (result, s) => (.inl result, s)) ++
    (startupReady s).map fun (startup, s) => (.inr startup, s)

/-- The branches are polled in any order: one that is ready may be taken before the start of the listener is polled. -/
def startListener (enabled : Bool) : Owner (Except AppError ListenerStartup) := do
  if enabled then
    whenThere .p2p P2pService.expectTasks
    expectHandle .verification "verification task exists while App is active"
    let polled ← choose 2
    if polled = 1 ∧ !(← read fun s => (startupReady s).isEmpty) then return .ok (← awaitFor none startupReady)
    else andThen call fun _ => do
      update (·.spawn .listener)
      match ← awaitFor none listenerStartReady with
      | .inl (.ok ()) =>
        update fun s => { s with kept := s.kept.put .listener }
        return .ok .started
      | .inl (.error error) => return .error error
      | .inr startup =>
        -- the start is dropped where it is: the listener aborts its task and does not wait for its end
        update fun s => (s.release .listener).abort .listener
        return .ok startup
  else return .ok .disabled

def startComponent (enabled : Bool) (component : Component) (start : Owner AppResult) : Owner AppResult :=
  if enabled then andThen start fun _ => do
    update fun s => { s with kept := s.kept.put component }
    return .ok ()
  else return .ok ()

/-- What has been started is stopped again. -/
def failStartup (result : AppResult) : Owner AppResult := do
  cleanupStartup
  return result

/-- The servers, once everything else has been started. -/
def startServers (config : AppConfig) (submissionChain : Option Unit) : Owner AppResult := do
  match ← startComponent config.rpcEnabled .rpc RpcServer.start with
  | .error error => failStartup (.error error)
  | .ok () =>
    match ← startComponent config.submission.enabled .submissionRpc (match submissionChain with
      | none => panicWith "enabled submission has a chain client"
      | some () => SubmissionRpcServer.start config.submission config.maxProofBytes) with
    | .error error => failStartup (.error error)
    | .ok () =>
      update fun s => { s with kept := { s.kept with started := true } }
      let exit ← waitForAppExit
      handleAppExit exit config.shutdownTimeout

/-- What `App::run` does once the P2P service is there. -/
def App.startRest (config : AppConfig) (submissionChain : Option Unit) : Owner AppResult := do
  whenThere .p2p P2pService.validatorSetUpdater
  update (·.spawn .verification)
  match ← startListener config.listenerEnabled with
  | .ok .started => startServers config submissionChain
  | .ok .disabled => startServers config submissionChain
  | .ok (.shutdown result) => failStartup result
  | .ok (.p2pTask exit) => failStartup (.error exit.intoError)
  | .ok (.verificationTask result) => failStartup (.error (unexpectedTaskError verificationTask result))
  | .error error => failStartup (.error error)

/-- What `App::run` does once the control socket is bound.  The calls make the proof store, the Noir verifier and the
chain client of the submissions. -/
def App.runBound (config : AppConfig) : Owner AppResult :=
  andThen call fun _ =>
  andThen (if config.noirEnabled then call else return .ok ()) fun _ =>
  andThen (if config.submission.enabled then andThen call fun _ => return .ok (some ()) else return .ok none)
    fun submissionChain =>
  andThen (startComponent config.p2pEnabled .p2p P2pService.start) fun _ =>
  App.startRest config submissionChain

/-- The control server is dropped last; that removes its socket. -/
def App.run (config : AppConfig) : Owner AppResult :=
  andThen call fun _ => do
    update fun s => { s with kept := { s.kept with socket := true } }
    let result ← App.runBound config
    update fun s => { s with kept := { s.kept with socket := false } }
    return result

end PulsarVerifier
