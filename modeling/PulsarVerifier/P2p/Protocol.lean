import PulsarVerifier.P2p.Bookkeeping
import PulsarVerifier.P2p.System

/-!
# Calls of the driver

The worker has at most one command in the mailbox of the driver: the one whose reply it waits for.  `Protocol` states
this for every reachable state, together with what is known about the retrieval a call belongs to; `CommandRound` is
what a round of the driver does with a command under it.
-/

namespace PulsarVerifier

/-! ### What a command does to the state of the driver -/

theorem error_of_map {α β : Type} {f : α → β} {result : Except Error α} {error : Error}
    (h : result.map f = .error error) : result = .error error := by
  cases result with
  | error e => exact congrArg Except.error (Except.error.inj h)
  | ok a => cases h

namespace Driver

variable [Sha256] (d : Driver) (net : NetworkOutcome) (caller : Caller)

theorem handleCommand_replies {command : DriverCommand} (h : command.ofClient = false) :
    ∃ reply, (d.handleCommand net caller command).2 = [(caller, reply)] := by
  cases command with
  | replaceAuthorizedPeers peers | drain => cases h
  | _ => exact ⟨_, rfl⟩

theorem handleCommand_replies_caller (command : DriverCommand) :
    (d.handleCommand net caller command).2 = [] ∨
      ∃ reply, (d.handleCommand net caller command).2 = [(caller, reply)] := by
  rcases h : d.handleCommand net caller command with ⟨d', replies⟩
  cases d.handleCommand_move net h with
  | drain => exact .inl rfl
  | _ => exact .inr ⟨_, rfl⟩

theorem handleCommand_state (command : DriverCommand) :
    (d.handleCommand net caller command).1.state = d.state ∨
      (command = .drain ∧ (d.handleCommand net caller command).1.state = .draining caller) := by
  rcases (d.handleCommand_move net rfl).state with ⟨hsame, -⟩ | ⟨-, hdrain, hdraining, -⟩
  · exact .inl hsame
  · exact .inr ⟨hdrain, hdraining⟩

end Driver

theorem DriverCall.Sends.not_ofClient {call : DriverCall} {command : DriverCommand} (h : call.Sends command) :
    command.ofClient = false := by
  cases command with
  | replaceAuthorizedPeers peers | drain => cases call <;> cases h
  | _ => rfl

namespace P2pSystem

/-- The commands of the worker in the mailbox. -/
def workerCommands (s : P2pSystem) : List DriverCommand :=
  s.mailbox.filterMap fun entry => if entry.1 = .worker then some entry.2 else none

/-- The call whose reply is still missing. -/
def awaited (s : P2pSystem) : Option DriverCall :=
  match s.worker.control, s.reply with
  | .waiting call, none => some call
  | _, _ => none

/-- The commands that belong to the call whose reply is missing. -/
def Outstanding : Option DriverCall → List DriverCommand → Prop
  | none, commands => commands = []
  | some call, commands => ∃ command, commands = [command] ∧ call.Sends command

structure Protocol (s : P2pSystem) : Prop where
  clients : ∀ caller command, (caller, command) ∈ s.mailbox → caller ≠ .worker → command.ofClient = true
  drain : s.driver.state ≠ .draining .worker
  emitting : s.emitting.isSome → s.driverResult = none
  replied : s.reply.isSome → ∃ call, s.worker.control = .waiting call
  sends : ∀ command call, s.worker.control = .sending command call → call.Sends command
  sending : ∀ command call, s.worker.control = .sending command call → ∀ id ∈ call.retrieval, s.worker.ledger.Idle id
  waiting : ∀ call, s.worker.control = .waiting call → ∀ id ∈ call.retrieval, s.worker.ledger.Idle id
  mailbox : s.driverResult = none → Outstanding s.awaited s.workerCommands

variable {s t : P2pSystem}

theorem awaited_eq_none (h : ∀ call, s.worker.control ≠ .waiting call) : s.awaited = none := by
  unfold awaited
  split
  · rename_i call hcontrol _
    exact absurd hcontrol (h call)
  · rfl

theorem awaited_of_reply (h : s.reply.isSome) : s.awaited = none := by
  unfold awaited
  split
  · rename_i hnone
    rw [hnone] at h
    cases h
  · rfl

theorem awaited_eq_some {call : DriverCall} (h : s.awaited = some call) :
    s.worker.control = .waiting call ∧ s.reply = none := by
  unfold awaited at h
  split at h
  · rename_i hcontrol hreply
    cases h
    exact ⟨hcontrol, hreply⟩
  · cases h

/-- A command of the worker in the mailbox is the one whose reply it waits for. -/
theorem Protocol.awaiting (h : s.Protocol) (hresult : s.driverResult = none) {command : DriverCommand}
    (hmem : (Caller.worker, command) ∈ s.mailbox) :
    ∃ call, s.worker.control = .waiting call ∧ s.reply = none ∧ call.Sends command ∧ s.workerCommands = [command] := by
  have hcommand : command ∈ s.workerCommands := List.mem_filterMap.2 ⟨_, hmem, rfl⟩
  have hout := h.mailbox hresult
  cases hawaited : s.awaited with
  | none =>
    rw [hawaited] at hout
    rw [hout] at hcommand
    cases hcommand
  | some call =>
    rw [hawaited] at hout
    obtain ⟨command', hcommands, hsends⟩ := hout
    rw [hcommands, List.mem_singleton] at hcommand
    obtain ⟨hcontrol, hreply⟩ := awaited_eq_some hawaited
    subst hcommand
    exact ⟨call, hcontrol, hreply, hsends, hcommands⟩

/-! ### Rounds of the driver -/

theorem finishRound_eq (h : s.driver.state ≠ .draining .worker) :
    ∃ state answers, s.finishRound = { s with driver := { s.driver with state }, answers } ∧
      (state = .running ↔ s.driver.state = .running) ∧ state ≠ .draining .worker := by
  unfold finishRound Driver.finishDrain
  split
  · rename_i driver replies hround
    split at hround
    · rename_i caller hstate
      split_ifs at hround
      · cases hround
        cases caller with
        | worker => exact absurd hstate h
        | client call => exact ⟨.drained, s.answers ++ [(.client call, .ok .unit)], rfl, by simp [hstate], by simp⟩
      · cases hround
        exact ⟨s.driver.state, s.answers, rfl, Iff.rfl, h⟩
    · cases hround
      exact ⟨s.driver.state, s.answers, rfl, Iff.rfl, h⟩

/-- A round of the driver with the first command of the mailbox. -/
inductive CommandRound [Sha256] (s : P2pSystem) (net : NetworkOutcome)
    (rest : List (Caller × DriverCommand)) : Caller → DriverCommand → P2pSystem → Prop
  | worker (call : DriverCall) (command : DriverCommand) (reply : Except Error Reply) (state : DriverState)
      (answers : Replies) (hcontrol : s.worker.control = .waiting call) (hreply : s.reply = none)
      (hsends : call.Sends command) (hresult : (s.driver.handleCommand net .worker command).2 = [(.worker, reply)])
      (hstate : state = .running ↔ s.driver.state = .running) (hdrain : state ≠ .draining .worker)
      (hrest : rest.filterMap (fun entry => if entry.1 = Caller.worker then some entry.2 else none) = []) :
    CommandRound s net rest .worker command
      { s with
        driver := { (s.driver.handleCommand net .worker command).1 with state }
        mailbox := rest, reply := some reply, answers }
  | client (call : Nat) (command : DriverCommand) (state : DriverState) (answers : Replies)
      (hclient : command.ofClient = true) (hstate : state = .running → s.driver.state = .running)
      (hdrain : state ≠ .draining .worker) :
    CommandRound s net rest (.client call) command
      { s with
        driver := { (s.driver.handleCommand net (.client call) command).1 with state }, mailbox := rest, answers }

section

variable [Sha256]

theorem Protocol.commandRound (h : s.Protocol) (net : NetworkOutcome) {caller : Caller} {command : DriverCommand}
    {rest : List (Caller × DriverCommand)} (hmailbox : s.mailbox = (caller, command) :: rest)
    (hresult : s.driverResult = none)
    (ht : t = ({ s with driver := (s.driver.handleCommand net caller command).1, mailbox := rest }.deliver
        (s.driver.handleCommand net caller command).2).finishRound) :
    CommandRound s net rest caller command t := by
  subst ht
  cases caller with
  | worker =>
    -- the worker waits for this command, and has sent no other
    obtain ⟨call, hcontrol, hreply, hsends, hcommands⟩ :=
      h.awaiting hresult (by rw [hmailbox]; exact List.mem_cons_self)
    unfold workerCommands at hcommands
    rw [hmailbox, List.filterMap_cons_some (b := command) (by simp)] at hcommands
    have hrest := (List.cons.inj hcommands).2
    obtain ⟨reply, hreplies⟩ := s.driver.handleCommand_replies net .worker hsends.not_ofClient
    have hstate : (s.driver.handleCommand net .worker command).1.state = s.driver.state := by
      rcases s.driver.handleCommand_state net .worker command with hstate | ⟨rfl, -⟩
      · exact hstate
      · cases hsends.not_ofClient
    rw [hreplies]
    obtain ⟨state, answers, hround, hrunning, hdrain⟩ :=
      finishRound_eq (s := { s with
        driver := (s.driver.handleCommand net .worker command).1, mailbox := rest, reply := some reply })
        (by rw [hstate]; exact h.drain)
    rw [hstate] at hrunning
    have hround' : CommandRound s net rest .worker command _ :=
      .worker call command reply state answers hcontrol hreply hsends hreplies hrunning hdrain hrest
    rwa [← hround] at hround'
  | client call =>
    have hclient : command.ofClient = true :=
      h.clients (.client call) command (by rw [hmailbox]; exact List.mem_cons_self) (by simp)
    have hstate := s.driver.handleCommand_state net (.client call) command
    -- only a client drains the driver, so the worker is never the one to be told
    have hnot : (s.driver.handleCommand net (.client call) command).1.state ≠ .draining .worker := by
      rcases hstate with hstate | ⟨-, hstate⟩
      · rw [hstate]
        exact h.drain
      · rw [hstate]
        simp
    have hrunning : (s.driver.handleCommand net (.client call) command).1.state = .running →
        s.driver.state = .running := by
      intro hr
      rcases hstate with hstate | ⟨-, hstate⟩
      · rwa [hstate] at hr
      · rw [hstate] at hr
        cases hr
    have hfinish : ∀ answers, CommandRound s net rest (.client call) command
        { s with
          driver := (s.driver.handleCommand net (.client call) command).1, mailbox := rest, answers }.finishRound := by
      intro answers
      obtain ⟨state, answers', hround, hiff, hdrain⟩ :=
        finishRound_eq (s := { s with
          driver := (s.driver.handleCommand net (.client call) command).1, mailbox := rest, answers }) hnot
      rw [hround]
      exact .client call command state answers' hclient (fun hs => hrunning (hiff.1 hs)) hdrain
    rcases s.driver.handleCommand_replies_caller net (.client call) command with hreplies | ⟨reply, hreplies⟩
    · rw [hreplies]
      exact hfinish s.answers
    · rw [hreplies]
      exact hfinish (s.answers ++ [(.client call, reply)])

/-! ### The invariant -/

omit [Sha256] in
theorem Protocol.of_posed (h : s.Protocol) (hcontrol : ∀ call, s.worker.control ≠ .waiting call)
    (hposed : t.worker.Posed) (hmailbox : t.mailbox = s.mailbox) (hdriver : t.driver = s.driver)
    (hemitting : t.emitting = s.emitting) (hresult : t.driverResult = s.driverResult) (hreply : t.reply = s.reply) :
    t.Protocol := by
  have hnone : s.reply = none := by
    by_contra hne
    obtain ⟨call, hcall⟩ := h.replied (Option.isSome_iff_ne_none.2 hne)
    exact hcontrol call hcall
  constructor
  · rw [hmailbox]
    exact h.clients
  · rw [hdriver]
    exact h.drain
  · rw [hemitting, hresult]
    exact h.emitting
  · rw [hreply, hnone]
    intro hsome
    cases hsome
  · intro command call hcall
    exact (hposed.2 command call hcall).1
  · intro command call hcall
    exact (hposed.2 command call hcall).2
  · intro call hcall
    exact absurd hcall (hposed.1 call)
  · intro hnoresult
    have hout := h.mailbox (hresult ▸ hnoresult)
    rw [awaited_eq_none hcontrol] at hout
    rw [awaited_eq_none hposed.1]
    unfold workerCommands
    rw [hmailbox]
    exact hout

omit [Sha256] in
private theorem not_waiting {control : Control} (h : s.worker.control = control)
    (hne : ∀ call, control ≠ .waiting call) :
    ∀ call, s.worker.control ≠ .waiting call := by
  intro call hcall
  exact hne call (h ▸ hcall)

omit [Sha256] in
private theorem Protocol.round (h : s.Protocol) {driver : Driver} {answers : Replies} {state : DriverState}
    {emitting : Option DriverEvent} {events : List DriverEvent} (hdrain : state ≠ .draining .worker)
    (hemitting : emitting = none) :
    Protocol { s with driver := { driver with state }, answers, emitting, events } where
  clients := h.clients
  drain := hdrain
  emitting hsome := by
    change emitting.isSome = true at hsome
    rw [hemitting] at hsome
    cases hsome
  replied := h.replied
  sends := h.sends
  sending := h.sending
  waiting := h.waiting
  mailbox := h.mailbox

omit [Sha256] in
theorem driverFree_iff : s.driverFree ↔ s.emitting = none ∧ s.driverResult = none := by
  simp [driverFree]

variable [AvailabilityWire]

theorem Protocol.step {a : P2pAction} (h : s.Protocol) (hstep : P2pStep s a t) : t.Protocol := by
  cases hstep with
  | operation | evict | publish | tick | requestStop | workerFlush | selectTurn | drainStoreEvent => exact { h with }
  | submit call command hclient =>
    refine { h with clients := ?_, mailbox := ?_ }
    · intro caller command' hmem hcaller
      rcases List.mem_append.1 hmem with hmem | hmem
      · exact h.clients caller command' hmem hcaller
      · cases List.mem_singleton.1 hmem
        exact hclient
    · intro hresult
      have hout := h.mailbox hresult
      unfold workerCommands at hout ⊢
      rw [List.filterMap_append]
      change Outstanding s.awaited (_ ++ [])
      rwa [List.append_nil]
  | driverCommand net caller command rest hmailbox hfree hid t ht =>
    have hrest : ∀ caller' command', (caller', command') ∈ rest → caller' ≠ .worker → command'.ofClient = true := by
      intro caller' command' hmem
      exact h.clients caller' command' (hmailbox ▸ List.mem_cons_of_mem _ hmem)
    cases h.commandRound { net with now := s.now } hmailbox (driverFree_iff.1 hfree).2 ht with
    | worker call _ reply state answers hcontrol hreply hsends hreplies hstate hdrain hempty =>
      refine { h with clients := hrest, drain := hdrain, replied := fun _ => ⟨call, hcontrol⟩, mailbox := fun _ => ?_ }
      rw [awaited_of_reply rfl]
      exact hempty
    | client call _ state answers hclient hstate hdrain =>
      refine { h with clients := hrest, drain := hdrain, mailbox := fun hresult => ?_ }
      have hout := h.mailbox hresult
      unfold workerCommands at hout
      rw [hmailbox] at hout
      exact hout
  | swarmError event error hfree herror =>
    refine { h with emitting := fun hsome => ?_, mailbox := (by rintro ⟨⟩) }
    change s.emitting.isSome = true at hsome
    rw [(driverFree_iff.1 hfree).1] at hsome
    cases hsome
  | swarmQuiet event driver hfree hremote hmove =>
    have hstate := s.driver.handleSwarmEvent_state hmove
    obtain ⟨state, answers, hround, -, hdrain⟩ :=
      finishRound_eq (s := { s with driver }) (by rw [hstate]; exact h.drain)
    rw [hround]
    exact h.round hdrain (driverFree_iff.1 hfree).1
  | swarmEmit event driver emitted hfree hremote hmove =>
    have hstate := s.driver.handleSwarmEvent_state hmove
    refine { h with drain := ?_, emitting := fun _ => (driverFree_iff.1 hfree).2 }
    rw [hstate]
    exact h.drain
  | delayedResponse i hfree =>
    obtain ⟨state, answers, hround, -, hdrain⟩ := finishRound_eq
      (s := { s with driver := { s.driver with delayedResponses := s.driver.delayedResponses.eraseIdx i } }) h.drain
    rw [hround]
    exact h.round hdrain (driverFree_iff.1 hfree).1
  | expireQueries hfree =>
    obtain ⟨state, answers, hround, -, hdrain⟩ :=
      finishRound_eq (s := { s with driver := s.driver.expireQueries s.now }) h.drain
    rw [hround]
    exact h.round hdrain (driverFree_iff.1 hfree).1
  | emitDropped net event hemitting hended driver hdriver =>
    have hstate : driver.state = s.driver.state := by
      rcases hdriver with ⟨rfl, -⟩ | ⟨requestId, peer, id, -, rfl⟩
      · rfl
      · exact s.driver.respondProof_state _ _ _
    obtain ⟨state, answers, hround, -, hdrain⟩ :=
      finishRound_eq (s := { s with driver, emitting := none }) (by rw [hstate]; exact h.drain)
    rw [hround]
    exact h.round hdrain rfl
  | emitSent net event hemitting hended hroom =>
    obtain ⟨state, answers, hround, -, hdrain⟩ :=
      finishRound_eq (s := { s with events := s.events ++ [event], emitting := none }) h.drain
    rw [hround]
    exact h.round hdrain rfl
  | selectStop hidle =>
    exact h.of_posed (not_waiting hidle (by rintro _ ⟨⟩)) (Worker.posed_of_idle hidle) rfl rfl rfl rfl rfl
  | selectDriverEvent mode event rest hidle =>
    exact h.of_posed (not_waiting hidle (by rintro _ ⟨⟩))
      (s.worker.handleDriverEvent_move s.now mode.draining event).posed rfl rfl rfl rfl rfl
  | selectDriverClosed hidle =>
    exact h.of_posed (not_waiting hidle (by rintro _ ⟨⟩)) Worker.posed_goto_returned rfl rfl rfl rfl rfl
  | selectStoreEvent notice receiver hidle =>
    obtain ⟨handled, expired, htaken⟩ := recordTaken_frame { s with receiver } notice
    rw [htaken]
    exact h.of_posed (not_waiting hidle (by rintro _ ⟨⟩)) Worker.posed_handleStoreEvent rfl rfl rfl rfl rfl
  | selectLagged receiver hidle =>
    exact h.of_posed (not_waiting hidle (by rintro _ ⟨⟩)) Worker.posed_goto_store rfl rfl rfl rfl rfl
  | selectWake i wake hidle =>
    exact h.of_posed (not_waiting hidle (by rintro _ ⟨⟩)) Worker.driven_handleWake.posed rfl rfl rfl rfl rfl
  | drained hidle =>
    exact h.of_posed (not_waiting hidle (by rintro _ ⟨⟩)) Worker.posed_goto_returned rfl rfl rfl rfl rfl
  | sendClosed command call hcontrol hdriver =>
    refine { h with
      replied := fun _ => ⟨call, rfl⟩, sends := (by rintro _ _ ⟨⟩), sending := (by rintro _ _ ⟨⟩)
      waiting := fun call' hcall => ?_, mailbox := fun hresult => ?_ }
    · cases hcall
      exact h.sending command call hcontrol
    · change s.driverResult = none at hresult
      rw [hresult] at hdriver
      cases hdriver
  | send command call hcontrol hdriver =>
    have hreply : s.reply = none := by
      by_contra hne
      obtain ⟨call', hcall⟩ := h.replied (Option.isSome_iff_ne_none.2 hne)
      rw [hcontrol] at hcall
      cases hcall
    refine { h with
      clients := ?_, replied := fun _ => ⟨call, rfl⟩, sends := (by rintro _ _ ⟨⟩)
      sending := (by rintro _ _ ⟨⟩), waiting := fun call' hcall => ?_, mailbox := fun _ => ?_ }
    · intro caller command' hmem hcaller
      rcases List.mem_append.1 hmem with hmem | hmem
      · exact h.clients caller command' hmem hcaller
      · cases List.mem_singleton.1 hmem
        exact absurd rfl hcaller
    · cases hcall
      exact h.sending command call hcontrol
    · have hout := h.mailbox hdriver
      rw [awaited_eq_none (not_waiting hcontrol (by rintro _ ⟨⟩))] at hout
      have hcommands : s.workerCommands = [] := hout
      unfold workerCommands at hcommands ⊢
      rw [List.filterMap_append, hcommands]
      simp only [awaited, Worker.goto, hreply]
      exact ⟨command, rfl, h.sends command call hcontrol⟩
  | reply choice delay elapsed call reply worker hcontrol hreply hresume =>
    have hposed : worker.Posed := (Worker.resumeCall_move hresume).posed (h.waiting call hcontrol)
    refine { h with
      replied := (by rintro ⟨⟩), sends := fun command call hcall => (hposed.2 command call hcall).1
      sending := fun command call hcall => (hposed.2 command call hcall).2
      waiting := fun call hcall => absurd hcall (hposed.1 call), mailbox := fun hresult => ?_ }
    have hsome : s.reply.isSome := by
      unfold replyToWorker at hreply
      split at hreply
      · rename_i hsome
        rw [hsome]
        rfl
      · change s.driverResult = none at hresult
        simp [hresult] at hreply
    have hout := h.mailbox hresult
    rw [awaited_of_reply hsome] at hout
    rw [awaited_eq_none hposed.1]
    exact hout
  | getProof snapshot requestId id hcontrol =>
    exact h.of_posed (not_waiting hcontrol (by rintro _ ⟨⟩))
      (Worker.posed_call trivial (by rintro _ ⟨⟩)) rfl rfl rfl rfl rfl
  | attach snapshot requestId peer id proof hcontrol =>
    exact h.of_posed (not_waiting hcontrol (by rintro _ ⟨⟩)) Worker.posed_goto_store rfl rfl rfl rfl rfl
  | attached snapshot requestId peer id stored hcontrol =>
    exact h.of_posed (not_waiting hcontrol (by rintro _ ⟨⟩)) Worker.posed_resumeAttached rfl rfl rfl rfl rfl
  | localSnapshot snapshot hcontrol =>
    exact h.of_posed (not_waiting hcontrol (by rintro _ ⟨⟩))
      (Worker.posed_call rfl (by rintro _ ⟨⟩)) rfl rfl rfl rfl rfl
  | waitingSnapshot snapshot hcontrol =>
    exact h.of_posed (not_waiting hcontrol (by rintro _ ⟨⟩)) Worker.driven_resumeWaiting.posed rfl rfl rfl rfl rfl
  | get snapshot id rest hcontrol =>
    exact h.of_posed (not_waiting hcontrol (by rintro _ ⟨⟩)) Worker.driven_resumeGet.posed rfl rfl rfl rfl rfl

theorem Protocol.running_of_step {a : P2pAction} (h : s.Protocol) (hstep : P2pStep s a t)
    (hrunning : t.driver.state = .running) : s.driver.state = .running := by
  have hround : ∀ u : P2pSystem, u.finishRound.driver.state = .running → u.driver.state = s.driver.state →
      s.driver.state = .running := by
    intro u hu hstate
    obtain ⟨state, answers, hround, hiff, -⟩ := finishRound_eq (s := u) (by rw [hstate]; exact h.drain)
    rw [hround] at hu
    exact hstate ▸ hiff.1 hu
  cases hstep with
  | driverCommand net caller command rest hmailbox hfree _ t ht =>
    cases h.commandRound { net with now := s.now } hmailbox (driverFree_iff.1 hfree).2 ht with
    | worker call _ reply state answers _ _ _ _ hstate => exact hstate.1 hrunning
    | client call _ state answers _ hstate => exact hstate hrunning
  | swarmQuiet event driver _ _ hmove => exact hround _ hrunning (s.driver.handleSwarmEvent_state hmove)
  | swarmEmit event driver emitted _ _ hmove => exact (s.driver.handleSwarmEvent_state hmove).symm.trans hrunning
  | delayedResponse | expireQueries | emitSent => exact hround _ hrunning rfl
  | emitDropped net event _ _ driver hdriver =>
    refine hround _ hrunning ?_
    rcases hdriver with ⟨rfl, -⟩ | ⟨requestId, peer, id, -, rfl⟩
    · rfl
    · exact s.driver.respondProof_state _ _ _
  | selectStoreEvent notice receiver =>
    obtain ⟨handled, expired, htaken⟩ := recordTaken_frame { s with receiver } notice
    rw [htaken] at hrunning
    exact hrunning
  | _ => exact hrunning

omit [Sha256] [AvailabilityWire] in
theorem protocol_initial {store : ProofStore} {config : P2pConfig} {localPeerId : PeerId} {validators : Finset PeerId}
    {listeners : Finset Nat} {capacity : Nat} :
    (initial store config localPeerId validators listeners capacity).Protocol where
  clients _ _ hmem := nomatch hmem
  drain h := nomatch h
  emitting h := nomatch h
  replied h := nomatch h
  sends _ _ h := nomatch h
  sending _ _ h := nomatch h
  waiting _ h := nomatch h
  mailbox _ := rfl

theorem run_protocol {store : ProofStore} {config : P2pConfig} {localPeerId : PeerId} {validators : Finset PeerId}
    {listeners : Finset Nat} {capacity : Nat}
    (h : (lts store config localPeerId validators listeners capacity).Reachable s) : s.Protocol := by
  refine h.invariant (P := Protocol) ?_ ?_
  · rintro s rfl
    exact protocol_initial
  · intro s a t _ hs hstep
    exact hs.step (next_step hstep)

end

end P2pSystem

end PulsarVerifier
