import PulsarVerifier.Lib.Checks
import PulsarVerifier.Lib.TimedStream
import PulsarVerifier.Store.Record

/-!
# The control endpoint

The server of the local control socket accepts one connection after the other, reads one frame from each, answers it,
and returns when the frame is the shutdown request.  It also returns on every error of a connection: a client that
closes, stalls or resets its connection before a frame is complete, or that does not take the reply, stops the server.
The probe that a second process opens to find out whether the socket is in use is such a client.

A connection is what the server sees of it: the bytes as they arrive, the end of the stream or an error of the socket,
and what becomes of a frame that the server writes.
-/

namespace PulsarVerifier

def shutdownRequest : Bytes := "shutdown\n".toUTF8.data.toList

def acceptedResponse : Bytes := "accepted\n".toUTF8.data.toList

def unknownResponse : Bytes := "error unknown-command\n".toUTF8.data.toList

def tooLargeResponse : Bytes := "error frame-too-large\n".toUTF8.data.toList

def maxFrameLen : Nat := 64

def ioTimeout : Duration := 2 * 10 ^ 9

def newline : UInt8 := 10

inductive WriteOutcome
  | written
  | failed (error : IoError)
  | timedOut
  deriving DecidableEq

/-- An accepted connection, as the server sees it. -/
structure Connection where
  incoming : List (Duration × Arrival UInt8 IoError)
  outgoing : Bytes → WriteOutcome

namespace ControlServer

/-! ### Frames -/

/-- The loop of `read_frame`, with room for `room` more bytes; `none` if the time is over. -/
def readBytes (frame : Bytes) (left : Duration) (incoming : List (Duration × Arrival UInt8 IoError)) :
    Nat → Option (Except IoError Bytes)
  | 0 => some (.error ⟨.invalidData, "frame exceeds 64 bytes"⟩)
  | room + 1 =>
    match TimedStream.next left incoming with
    | .value byte left incoming =>
      if byte = newline then some (.ok (frame ++ [byte])) else readBytes (frame ++ [byte]) left incoming room
    | .eof => some (.error ⟨.unexpectedEof, "unexpected end of file"⟩)
    | .failed error => some (.error error)
    | .timedOut => none

def readFrame (stream : Connection) (path : String) : Except Error Bytes :=
  match readBytes [] ioTimeout stream.incoming maxFrameLen with
  | some (.ok frame) => .ok frame
  | some (.error error) =>
    if error.kind = .invalidData then .error (.controlProtocol error.text) else .error (.controlIo path error)
  | none => .error (.controlTimeout path)

def writeFrame (stream : Connection) (frame : Bytes) (path : String) : Except Error Unit :=
  match stream.outgoing frame with
  | .written => .ok ()
  | .failed error => .error (.controlIo path error)
  | .timedOut => .error (.controlTimeout path)

/-! ### The server -/

def handleConnection (stream : Connection) (path : String) : Except Error Bool :=
  match readFrame stream path with
  | .ok request =>
    if request = shutdownRequest then do
      writeFrame stream acceptedResponse path
      pure true
    else do
      writeFrame stream unknownResponse path
      pure false
  | .error (.controlProtocol message) =>
    if message = "frame exceeds 64 bytes" then do
      writeFrame stream tooLargeResponse path
      pure false
    else .error (.controlProtocol message)
  | .error error => .error error

/-- The server on the connections it has accepted so far; `none` while it waits for the next one. -/
def waitForShutdown (socketPath : String) : List Connection → Option (Except Error Unit)
  | [] => none
  | stream :: rest =>
    match handleConnection stream socketPath with
    | .ok true => some (.ok ())
    | .ok false => waitForShutdown socketPath rest
    | .error error => some (.error error)

end ControlServer

/-! ### The probe of a second process -/

/-- What `symlink_metadata` says about the entry at a path. -/
structure Metadata where
  isSocket : Bool
  uid : Nat
  deriving DecidableEq

/-- The answers of the file system and of the socket at a path; `connect` is `none` if it times out. -/
structure SocketEntry where
  metadata : Except IoError Metadata
  connect : Option (Except IoError Unit)
  removeFile : Except IoError Unit

def isNotRunningError (error : IoError) : Bool :=
  decide (error.kind = .notFound) || decide (error.kind = .connectionRefused)

def ensureOwnedByUid (path : String) (metadata : Metadata) (effectiveUid : Nat) : Except Error Unit :=
  if metadata.uid ≠ effectiveUid then
    .error (.unsafeSocketPath path
      s!"entry is owned by uid {metadata.uid}, current effective uid is {effectiveUid}")
  else .ok ()

/-- A connection that is dropped as soon as it is open. -/
def Connection.dropped : Connection where
  incoming := [(0, .eof)]
  outgoing _ := .failed ⟨.brokenPipe, "Broken pipe (os error 32)"⟩

/-- `prepare_socket_path`, and the connection that it leaves to the process that listens on the socket. -/
def prepareSocketPath (path : String) (effectiveUid : Nat) (entry : SocketEntry) :
    Except Error Unit × Option Connection :=
  match entry.metadata with
  | .error error => if error.kind = .notFound then (.ok (), none) else (.error (.controlIo path error), none)
  | .ok metadata =>
    if !metadata.isSocket then (.error (.unsafeSocketPath path "existing entry is not a Unix socket"), none)
    else
      match ensureOwnedByUid path metadata effectiveUid with
      | .error error => (.error error, none)
      | .ok () =>
        match entry.connect with
        | some (.ok ()) => (.error (.alreadyRunning path), some .dropped)
        | none => (.error (.alreadyRunning path), none)
        | some (.error error) =>
          if isNotRunningError error then
            match entry.removeFile with
            | .ok () => (.ok (), none)
            | .error error => (.error (.controlIo path error), none)
          else (.error (.controlIo path error), none)

/-! ### Connections that leave the server alone -/

namespace Connection

/-- The first frame is the shutdown request, and it arrives in time. -/
def RequestsShutdown (c : Connection) : Prop := TimedStream.Delivers ioTimeout shutdownRequest c.incoming

/-- A frame other than the shutdown request, or as many bytes as a frame may have and no newline, arrive in time, and
the reply is taken.  An error of the socket that reads like the one for too many bytes is answered like it. -/
inductive Cooperates (c : Connection) : Prop
  | frame (line : Bytes) (hline : newline ∉ line) (hlength : line.length < maxFrameLen)
      (hdelivers : TimedStream.Delivers ioTimeout (line ++ [newline]) c.incoming)
      (hother : line ++ [newline] ≠ shutdownRequest) (hreply : c.outgoing unknownResponse = .written)
  | tooLarge (line : Bytes) (hline : newline ∉ line) (hlength : line.length = maxFrameLen)
      (hdelivers : TimedStream.Delivers ioTimeout line c.incoming) (hreply : c.outgoing tooLargeResponse = .written)
  | failed (line : Bytes) (hline : newline ∉ line) (hlength : line.length < maxFrameLen)
      (harrives : TimedStream.Arrives ioTimeout
        (line.map .value ++ [.failed ⟨.invalidData, "frame exceeds 64 bytes"⟩]) c.incoming)
      (hreply : c.outgoing tooLargeResponse = .written)

end Connection

namespace ControlServer

open TimedStream

section

variable {line frame result : Bytes} {room : Nat} {left : Duration} {incoming : List (Duration × Arrival UInt8 IoError)}

theorem readBytes_eq_ok_iff :
    readBytes frame left incoming room = some (.ok result) ↔
      ∃ line, newline ∉ line ∧ line.length < room ∧ result = frame ++ line ++ [newline] ∧
        Delivers left (line ++ [newline]) incoming := by
  induction room generalizing frame left incoming with
  | zero => simp [readBytes]
  | succ room ih =>
    constructor
    · intro h
      rw [readBytes] at h
      split at h
      · rename_i byte left' rest hnext
        split at h
        · rename_i hbyte
          subst hbyte
          cases h
          exact ⟨[], List.not_mem_nil, Nat.succ_pos _, by simp, arrives_value_iff.2 ⟨_, _, hnext, .nil⟩⟩
        · rename_i hbyte
          obtain ⟨line, hline, hlength, rfl, hdelivers⟩ := ih.1 h
          exact ⟨byte :: line, by simp [hline, Ne.symm hbyte], Nat.succ_lt_succ hlength, by simp,
            arrives_value_iff.2 ⟨_, _, hnext, hdelivers⟩⟩
      · cases h
      · cases h
      · cases h
    · rintro ⟨line, hline, hlength, rfl, hdelivers⟩
      cases line with
      | nil =>
        obtain ⟨left', rest, hnext, -⟩ := arrives_value_iff.1 hdelivers
        rw [readBytes, hnext]
        simp
      | cons byte line =>
        obtain ⟨left', rest, hnext, hrest⟩ := arrives_value_iff.1 hdelivers
        rw [List.mem_cons, not_or] at hline
        rw [readBytes, hnext]
        dsimp only
        rw [if_neg (Ne.symm hline.1)]
        exact ih.2 ⟨line, hline.2, Nat.lt_of_succ_lt_succ hlength, by simp, hrest⟩

/-- The error for too many bytes: as many arrive without a newline, or the socket itself reports it. -/
theorem readBytes_eq_tooLarge_iff :
    readBytes frame left incoming room = some (.error ⟨.invalidData, "frame exceeds 64 bytes"⟩) ↔
      ∃ line, newline ∉ line ∧ ((line.length = room ∧ Delivers left line incoming) ∨ (line.length < room ∧
        Arrives left (line.map .value ++ [.failed ⟨.invalidData, "frame exceeds 64 bytes"⟩]) incoming)) := by
  induction room generalizing frame left incoming with
  | zero => exact ⟨fun _ => ⟨[], List.not_mem_nil, .inl ⟨rfl, .nil⟩⟩, fun _ => rfl⟩
  | succ room ih =>
    constructor
    · intro h
      rw [readBytes] at h
      split at h
      · rename_i byte left' rest hnext
        split at h
        · cases h
        · rename_i hbyte
          obtain ⟨line, hline, hcases⟩ := ih.1 h
          refine ⟨byte :: line, by simp [hline, Ne.symm hbyte], hcases.imp (fun h => ?_) fun h => ?_⟩
          · exact ⟨congrArg Nat.succ h.1, arrives_value_iff.2 ⟨_, _, hnext, h.2⟩⟩
          · exact ⟨Nat.succ_lt_succ h.1, arrives_value_iff.2 ⟨_, _, hnext, h.2⟩⟩
      · cases h
      · rename_i error hnext
        cases h
        exact ⟨[], List.not_mem_nil, .inr ⟨Nat.succ_pos _, arrives_failed_iff.2 hnext⟩⟩
      · cases h
    · rintro ⟨line, hline, hcases⟩
      cases line with
      | nil =>
        rcases hcases with ⟨hlength, -⟩ | ⟨-, harrives⟩
        · cases hlength
        · rw [readBytes, arrives_failed_iff.1 harrives]
      | cons byte line =>
        rw [List.mem_cons, not_or] at hline
        have hnext : ∃ left' rest, next left incoming = .value byte left' rest ∧
            ((line.length = room ∧ Delivers left' line rest) ∨ (line.length < room ∧
              Arrives left' (line.map .value ++ [.failed ⟨.invalidData, "frame exceeds 64 bytes"⟩]) rest)) := by
          rcases hcases with ⟨hlength, harrives⟩ | ⟨hlength, harrives⟩
          · obtain ⟨left', rest, hnext, hrest⟩ := arrives_value_iff.1 harrives
            exact ⟨left', rest, hnext, .inl ⟨Nat.succ.inj hlength, hrest⟩⟩
          · obtain ⟨left', rest, hnext, hrest⟩ := arrives_value_iff.1 harrives
            exact ⟨left', rest, hnext, .inr ⟨Nat.lt_of_succ_lt_succ hlength, hrest⟩⟩
        obtain ⟨left', rest, hnext, hrest⟩ := hnext
        rw [readBytes, hnext]
        dsimp only
        rw [if_neg (Ne.symm hline.1)]
        exact ih.2 ⟨line, hline.2, hrest⟩

end

variable {c : Connection} {path : String}

theorem readFrame_eq_ok_iff {frame : Bytes} :
    readFrame c path = .ok frame ↔ readBytes [] ioTimeout c.incoming maxFrameLen = some (.ok frame) := by
  unfold readFrame
  split
  · rename_i hread
    simp [hread]
  · rename_i hread
    rw [hread]
    split_ifs <;> simp
  · rename_i hread
    simp [hread]

theorem readFrame_eq_tooLarge_iff :
    readFrame c path = .error (.controlProtocol "frame exceeds 64 bytes") ↔
      readBytes [] ioTimeout c.incoming maxFrameLen = some (.error ⟨.invalidData, "frame exceeds 64 bytes"⟩) := by
  unfold readFrame
  split
  · rename_i hread
    simp [hread]
  · rename_i error hread
    rw [hread]
    obtain ⟨kind, text⟩ := error
    split_ifs with hkind
    · cases hkind
      simp
    · simp [hkind]
  · rename_i hread
    simp [hread]

theorem readFrame_shutdown (h : c.RequestsShutdown) : readFrame c path = .ok shutdownRequest := by
  have hline : shutdownRequest = "shutdown".toUTF8.data.toList ++ [newline] := by decide +kernel
  refine readFrame_eq_ok_iff.2 (readBytes_eq_ok_iff.2 ⟨"shutdown".toUTF8.data.toList, by decide +kernel,
    by decide +kernel, hline, ?_⟩)
  rw [← hline]
  exact h

theorem writeFrame_eq_ok_iff {frame : Bytes} : writeFrame c frame path = .ok () ↔ c.outgoing frame = .written := by
  unfold writeFrame
  split <;> simp_all

theorem handleConnection_shutdown (h : c.RequestsShutdown) :
    handleConnection c path = (writeFrame c acceptedResponse path).map fun _ => true := by
  unfold handleConnection
  rw [readFrame_shutdown h]
  dsimp only
  rw [if_pos rfl]
  cases writeFrame c acceptedResponse path <;> rfl

open Except in
/-- Only a shutdown request makes the server return without an error. -/
theorem handleConnection_eq_true_iff :
    handleConnection c path = .ok true ↔ c.RequestsShutdown ∧ c.outgoing acceptedResponse = .written := by
  constructor
  · intro h
    have hshutdown : c.RequestsShutdown := by
      unfold handleConnection at h
      split at h
      · rename_i request hread
        split_ifs at h with hrequest
        · obtain ⟨line, -, -, hline, hdelivers⟩ := readBytes_eq_ok_iff.1 (readFrame_eq_ok_iff.1 hread)
          rw [List.nil_append] at hline
          rwa [Connection.RequestsShutdown, ← hrequest, hline]
        · obtain ⟨-, -, h⟩ := bind_eq_ok_iff.1 h
          cases h
      · split_ifs at h
        obtain ⟨-, -, h⟩ := bind_eq_ok_iff.1 h
        cases h
      · cases h
    rw [handleConnection_shutdown hshutdown] at h
    cases hwrite : writeFrame c acceptedResponse path with
    | error error =>
      rw [hwrite] at h
      cases h
    | ok result => exact ⟨hshutdown, writeFrame_eq_ok_iff.1 hwrite⟩
  · rintro ⟨hshutdown, hreply⟩
    rw [handleConnection_shutdown hshutdown, writeFrame_eq_ok_iff.2 hreply]
    rfl

open Except in
/-- Any other frame, and too many bytes, are answered, and the server goes on. -/
theorem handleConnection_eq_false_iff : handleConnection c path = .ok false ↔ c.Cooperates := by
  constructor
  · intro h
    unfold handleConnection at h
    split at h
    · rename_i request hread
      split_ifs at h with hrequest
      · obtain ⟨-, -, h⟩ := bind_eq_ok_iff.1 h
        cases h
      · obtain ⟨⟨⟩, hwrite, -⟩ := bind_eq_ok_iff.1 h
        obtain ⟨line, hline, hlength, rfl, hdelivers⟩ := readBytes_eq_ok_iff.1 (readFrame_eq_ok_iff.1 hread)
        exact .frame line hline hlength hdelivers hrequest (writeFrame_eq_ok_iff.1 hwrite)
    · rename_i message hread
      split_ifs at h with hmessage
      subst hmessage
      obtain ⟨⟨⟩, hwrite, -⟩ := bind_eq_ok_iff.1 h
      obtain ⟨line, hline, ⟨hlength, hdelivers⟩ | ⟨hlength, harrives⟩⟩ :=
        readBytes_eq_tooLarge_iff.1 (readFrame_eq_tooLarge_iff.1 hread)
      · exact .tooLarge line hline hlength hdelivers (writeFrame_eq_ok_iff.1 hwrite)
      · exact .failed line hline hlength harrives (writeFrame_eq_ok_iff.1 hwrite)
    · cases h
  · -- the reply to too many bytes is one, however they were found
    have hlarge : readBytes [] ioTimeout c.incoming maxFrameLen =
        some (.error ⟨.invalidData, "frame exceeds 64 bytes"⟩) → c.outgoing tooLargeResponse = .written →
        handleConnection c path = .ok false := by
      intro hread hreply
      unfold handleConnection
      rw [readFrame_eq_tooLarge_iff.2 hread]
      dsimp only
      rw [if_pos rfl, writeFrame_eq_ok_iff.2 hreply]
      rfl
    rintro (⟨line, hline, hlength, hdelivers, hother, hreply⟩ | ⟨line, hline, hlength, hdelivers, hreply⟩ |
      ⟨line, hline, hlength, harrives, hreply⟩)
    · have hread : readFrame c path = .ok (line ++ [newline]) :=
        readFrame_eq_ok_iff.2 (readBytes_eq_ok_iff.2 ⟨line, hline, hlength, rfl, hdelivers⟩)
      unfold handleConnection
      rw [hread]
      dsimp only
      rw [if_neg hother, writeFrame_eq_ok_iff.2 hreply]
      rfl
    · exact hlarge (readBytes_eq_tooLarge_iff.2 ⟨line, hline, .inl ⟨hlength, hdelivers⟩⟩) hreply
    · exact hlarge (readBytes_eq_tooLarge_iff.2 ⟨line, hline, .inr ⟨hlength, harrives⟩⟩) hreply

/-- The connections that cooperate do not change what becomes of the others. -/
theorem waitForShutdown_append {before : List Connection} (h : ∀ c ∈ before, c.Cooperates) (after : List Connection) :
    waitForShutdown path (before ++ after) = waitForShutdown path after := by
  induction before with
  | nil => rfl
  | cons c before ih =>
    rw [List.cons_append, waitForShutdown, handleConnection_eq_false_iff.2 (h c List.mem_cons_self)]
    exact ih fun d hd => h d (List.mem_cons_of_mem _ hd)

theorem waitForShutdown_eq_none_iff {connections : List Connection} :
    waitForShutdown path connections = none ↔ ∀ c ∈ connections, c.Cooperates := by
  induction connections with
  | nil => simp [waitForShutdown]
  | cons c rest ih =>
    rw [List.forall_mem_cons, ← ih, ← @handleConnection_eq_false_iff c path, waitForShutdown]
    split <;> simp_all

/-- The server returns on the first connection that does not cooperate. -/
theorem exists_of_waitForShutdown {connections : List Connection} {result : Except Error Unit}
    (h : waitForShutdown path connections = some result) :
    ∃ before c after, connections = before ++ c :: after ∧ (∀ d ∈ before, d.Cooperates) ∧
      handleConnection c path = result.map fun _ => true := by
  induction connections with
  | nil => cases h
  | cons c rest ih =>
    rw [waitForShutdown] at h
    split at h
    · rename_i hhandled
      cases h
      exact ⟨[], c, rest, rfl, (fun _ hmem => nomatch hmem), hhandled⟩
    · rename_i hhandled
      obtain ⟨before, d, after, rfl, hbefore, hd⟩ := ih h
      refine ⟨c :: before, d, after, rfl, ?_, hd⟩
      exact List.forall_mem_cons.2 ⟨handleConnection_eq_false_iff.1 hhandled, hbefore⟩
    · rename_i error hhandled
      cases h
      exact ⟨[], c, rest, rfl, (fun _ hmem => nomatch hmem), hhandled⟩

/-- The server goes on serving exactly as long as every client sends a frame other than the shutdown request, or too
many bytes, in time and takes the reply.  It returns without an error exactly if clients of this kind are followed by
one that requests the shutdown and takes the reply; and on such a request it returns what becomes of the reply. -/
theorem waitForShutdown_serves (socketPath : String) (connections : List Connection) :
    (waitForShutdown socketPath connections = none ↔ ∀ c ∈ connections, c.Cooperates) ∧
    (waitForShutdown socketPath connections = some (.ok ()) ↔
      ∃ before c after, connections = before ++ c :: after ∧ (∀ d ∈ before, d.Cooperates) ∧ c.RequestsShutdown ∧
        c.outgoing acceptedResponse = .written) ∧
    ∀ before c after, connections = before ++ c :: after → (∀ d ∈ before, d.Cooperates) → c.RequestsShutdown →
      waitForShutdown socketPath connections = some (writeFrame c acceptedResponse socketPath) := by
  have hrequest : ∀ before c after, connections = before ++ c :: after → (∀ d ∈ before, d.Cooperates) →
      c.RequestsShutdown →
      waitForShutdown socketPath connections = some (writeFrame c acceptedResponse socketPath) := by
    rintro before c after rfl hbefore hc
    rw [waitForShutdown_append hbefore, waitForShutdown, handleConnection_shutdown hc]
    cases writeFrame c acceptedResponse socketPath <;> rfl
  refine ⟨waitForShutdown_eq_none_iff, ⟨fun h => ?_, ?_⟩, hrequest⟩
  · obtain ⟨before, c, after, hsplit, hbefore, hc⟩ := exists_of_waitForShutdown h
    exact ⟨before, c, after, hsplit, hbefore, handleConnection_eq_true_iff.1 hc⟩
  · rintro ⟨before, c, after, hsplit, hbefore, hc, hreply⟩
    rw [hrequest before c after hsplit hbefore hc, writeFrame_eq_ok_iff.2 hreply]

/-! ### Some clients -/

/-- A client that sends these bytes at once and takes the reply. -/
private def sends (bytes : Bytes) : Connection where
  incoming := bytes.map fun byte => (0, .value byte)
  outgoing _ := .written

private theorem delivers_sends (bytes : Bytes) : Delivers ioTimeout bytes (sends bytes).incoming := by
  refine ⟨(sends bytes).incoming, [], (List.append_nil _).symm, ?_, ?_⟩
  · simp [sends]
  · have hnow : ((sends bytes).incoming.map Prod.fst).sum = 0 := by simp [sends, Function.comp_def]
    rw [hnow]
    exact Nat.zero_le _

private def statusRequest : Bytes := "status\n".toUTF8.data.toList

/-- A client that asks for something unknown is answered, and the next one shuts the server down. -/
theorem waitForShutdown_serves_status :
    (sends statusRequest).Cooperates ∧ (sends shutdownRequest).RequestsShutdown ∧
    waitForShutdown "control.sock" [sends statusRequest, sends shutdownRequest] = some (.ok ()) := by
  have hstatus : (sends statusRequest).Cooperates := by
    refine .frame "status".toUTF8.data.toList (by decide +kernel) (by decide +kernel) ?_ (by decide +kernel) rfl
    have hline : "status".toUTF8.data.toList ++ [newline] = statusRequest := by decide +kernel
    rw [hline]
    exact delivers_sends _
  have hshutdown : (sends shutdownRequest).RequestsShutdown := delivers_sends _
  exact ⟨hstatus, hshutdown, (waitForShutdown_serves "control.sock" _).2.1.2
    ⟨[sends statusRequest], sends shutdownRequest, [], rfl, by simpa using hstatus, hshutdown, rfl⟩⟩

/-- A client that connects and sends nothing. -/
private def stalled : Connection where
  incoming := []
  outgoing _ := .written

/-- A client that closes its connection in the middle of a frame. -/
private def interrupted : Connection where
  incoming := [(0, .value 115), (0, .eof)]
  outgoing _ := .written

/-- A client that sends a whole unknown command and is gone before the reply. -/
private def departed : Connection where
  incoming := (sends statusRequest).incoming
  outgoing _ := .failed ⟨.brokenPipe, "Broken pipe (os error 32)"⟩

/-- The server stops without a shutdown request: on the probe of a second process that finds the socket in use, on a
client that stalls, on one that closes in the middle of a frame, and on one that does not wait for the reply. -/
theorem waitForShutdown_stopped :
    prepareSocketPath "control.sock" 1000 ⟨.ok ⟨true, 1000⟩, some (.ok ()), .ok ()⟩ =
      (.error (.alreadyRunning "control.sock"), some .dropped) ∧
    waitForShutdown "control.sock" [.dropped] =
      some (.error (.controlIo "control.sock" ⟨.unexpectedEof, "unexpected end of file"⟩)) ∧
    waitForShutdown "control.sock" [stalled] = some (.error (.controlTimeout "control.sock")) ∧
    waitForShutdown "control.sock" [interrupted] =
      some (.error (.controlIo "control.sock" ⟨.unexpectedEof, "unexpected end of file"⟩)) ∧
    waitForShutdown "control.sock" [departed] =
      some (.error (.controlIo "control.sock" ⟨.brokenPipe, "Broken pipe (os error 32)"⟩)) ∧
    ∀ c ∈ [Connection.dropped, stalled, interrupted, departed], ¬ c.RequestsShutdown := by
  refine ⟨rfl, by decide +kernel, by decide +kernel, by decide +kernel, by decide +kernel, fun c hc hshutdown => ?_⟩
  have hread : readFrame c "control.sock" ≠ .ok shutdownRequest := by
    simp only [List.mem_cons, List.not_mem_nil, or_false] at hc
    rcases hc with rfl | rfl | rfl | rfl <;> decide +kernel
  exact hread (readFrame_shutdown hshutdown)

end ControlServer

end PulsarVerifier
