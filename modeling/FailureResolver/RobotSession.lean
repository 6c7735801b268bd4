import FailureResolver.JsonText
import FailureResolver.LiveFlow
import FailureResolver.PyException
import FailureResolver.Transitions

/-!
One robot session: the connection loop, the messages it handles and the command
requests that other tasks make on it. Between two awaits a task runs alone, so
a step is what one task does from one await to the next. The connection loop is
a single task; requests interleave with it at every await.
-/

namespace FailureResolver.RobotSession

open JsonValue JsonText PyText PyException LiveFlow

section Session

structure FlowFrame where
  revision : ℕ
  generation : ℕ
  pointer : Option FlowPointer

def flowHistoryLimit : ℕ := 512

inductive Future
  | waiting
  | done (verdict : Except PyExc CommandReceipt)
  | cancelled

def Future.isWaiting : Future → Bool
  | .waiting => true
  | _ => false

/-- A websocket is known by the identity of its object. -/
structure Session where
  websocket : Option ℕ
  connected : Bool
  generation : ℕ
  flowRevision : ℕ
  latestFlow : Option FlowPointer
  flowHistory : List FlowFrame
  commandsRevision : ℕ
  latestCommandsFrame : Option CommandsFrame
  pending : List String
  futures : String → Future

def Session.initial : Session where
  websocket := none
  connected := false
  generation := 0
  flowRevision := 0
  latestFlow := none
  flowHistory := []
  commandsRevision := 0
  latestCommandsFrame := none
  pending := []
  futures := fun _ => .waiting

def activateConnection (websocket : ℕ) (s : Session) : Session :=
  { s with
    websocket := some websocket
    generation := s.generation + 1
    latestFlow := none
    latestCommandsFrame := none
    connected := true }

def invalidateConnection (s : Session) : Session :=
  { s with websocket := none, connected := false, latestFlow := none, latestCommandsFrame := none }

end Session

section Messages

def outcomeUnknown (message : String) : PyExc := ⟨.robotCommandOutcomeUnknown, message⟩

def notSent (message : String) : PyExc := ⟨.robotCommandNotSent, message⟩

def responseVerdict (response : Fields) (s : Session) : Except PyExc CommandReceipt :=
  if !response.has "error" then
    .error (outcomeUnknown "robot returned a malformed correlated response")
  else match response.get "error" with
    | .null => .ok ⟨response.get "result", s.generation, s.flowRevision⟩
    | .str text =>
        if strip text = "" then
          .error (outcomeUnknown "robot returned an invalid correlated error response")
        else .error ⟨.robotCommandRejected, strip text⟩
    | _ => .error (outcomeUnknown "robot returned an invalid correlated error response")

def Session.settle (s : Session) (requestId : String) (future : Future) : Session :=
  { s with futures := Function.update s.futures requestId future }

def settleResponse (response : Fields) (s : Session) : Session :=
  match textOf (response.get "request_id") with
  | none => s
  | some requestId =>
      if requestId ∉ s.pending || !(s.futures requestId).isWaiting then s
      else s.settle requestId (.done (responseVerdict response s))

def rejectPendingUnknown (message : String) (s : Session) : Session :=
  { s with
    futures := fun requestId =>
      if requestId ∈ s.pending && (s.futures requestId).isWaiting then
        .done (.error (outcomeUnknown message))
      else s.futures requestId }

/-- A frame as the websocket hands it over, and what its lone surrogates are read as. -/
inductive Message
  | text (content : String) (lone : ℕ → Option Char)
  | bytes (content : ByteArray) (lone : ℕ → Option Char)

def Message.loads : Message → Option Json
  | .text content lone => loadsWith lone content.toList
  | .bytes content lone =>
      (String.fromUTF8? content).bind fun text => loadsWith lone text.toList

def Message.payload (message : Message) : Option Fields :=
  match message.loads with
  | some (.obj payload) => some payload
  | _ => none

/-- The first part of a message, up to the first await. -/
def handleResponse (payload : Fields) (s : Session) : Session :=
  match payload.get "response" with
  | .obj response => settleResponse response s
  | _ => s

def handleCommands (payload : Fields) (s : Session) : Session :=
  match payload.get "commands" with
  | .obj commands =>
      { s with
        commandsRevision := s.commandsRevision + 1
        latestCommandsFrame := some ⟨s.commandsRevision + 1, s.generation, commands⟩ }
  | _ => s

/-- The frame a message records, when it carries a Flow at all. -/
def flowFrame (payload : Fields) (s : Session) : Option FlowFrame :=
  if payload.has "flow" then
    some ⟨s.flowRevision + 1, s.generation,
      parseFlowPointer (payload.get "flow") (s.flowRevision + 1) s.generation⟩
  else none

def keepNewest {α : Type} (limit : ℕ) (xs : List α) : List α := xs.drop (xs.length - limit)

def recordFrame (s : Session) : Option FlowFrame → Session
  | none => s
  | some frame =>
      { s with
        flowRevision := frame.revision
        latestFlow := frame.pointer
        flowHistory := keepNewest flowHistoryLimit (s.flowHistory ++ [frame]) }

theorem handleResponse_skip {payload : Fields} {s : Session}
    (h : isMapping (payload.get "response") = false) : handleResponse payload s = s := by
  unfold handleResponse
  split
  · next response hresponse =>
    rw [hresponse] at h
    cases h
  · rfl

theorem handleCommands_skip {payload : Fields} {s : Session}
    (h : isMapping (payload.get "commands") = false) : handleCommands payload s = s := by
  unfold handleCommands
  split
  · next commands hcommands =>
    rw [hcommands] at h
    cases h
  · rfl

end Messages

section System

/-- Where the connection loop stands: outside a connection, waiting for a message
on one, inside a message with its last parts still to handle, or leaving one. -/
inductive LoopPhase
  | connecting
  | receiving (websocket : ℕ)
  | commandsDue (websocket : ℕ) (payload : Fields)
  | flowDue (websocket : ℕ) (payload : Fields)
  | leaving

def LoopPhase.websocket : LoopPhase → Option ℕ
  | .receiving websocket => some websocket
  | .commandsDue websocket _ => some websocket
  | .flowDue websocket _ => some websocket
  | _ => none

/-- Where a request stands, with what it read when it was made. -/
inductive RequestPhase
  | absent
  | queued (websocket generation : ℕ) (payload : Json)
  | sending (generation : ℕ)
  | awaiting (generation : ℕ)
  | returned (receipt : CommandReceipt)
  | raised (e : PyExc)

structure System where
  session : Session
  loop : LoopPhase
  sendLock : Option String
  requests : String → RequestPhase

def System.initial : System where
  session := .initial
  loop := .connecting
  sendLock := none
  requests := fun _ => .absent

def System.move (s : System) (requestId : String) (phase : RequestPhase) : System :=
  { s with requests := Function.update s.requests requestId phase }

/-- A request that ends takes its entry out of the pending ones. -/
def System.finish (s : System) (requestId : String) (phase : RequestPhase) : System :=
  { s with
    session := { s.session with pending := s.session.pending.filter (· ≠ requestId) }
    requests := Function.update s.requests requestId phase }

def System.register (s : System) (requestId : String) : System :=
  { s with
    session := { s.session with
      pending := requestId :: s.session.pending
      futures := Function.update s.session.futures requestId .waiting } }

def commandPayload (sysid requestId command : String) (arguments : Fields) : Json :=
  .obj [("command", .str (strip command)), ("arguments", .obj arguments),
    ("request_id", .str requestId), ("sysid", .str sysid),
    ("sender", .obj [("name", .str "failure-resolver"), ("email", .null), ("image", .null)])]

/-- The command text and the arguments mapping are what the session accepts. -/
def validCall (command arguments : Json) : Bool :=
  (match command with
    | .str text => strip text ≠ ""
    | _ => false) && isMapping arguments

/-- The first part of a request, up to the send lock. -/
def requestCommand (sysid requestId : String) (command arguments : Json) (s : System) : System :=
  match s.session.connected, s.session.websocket with
  | true, some websocket =>
      match command, arguments with
      | .str text, .obj arguments =>
          if strip text = "" then
            s.move requestId (.raised ⟨.value, "robot command must be non-empty text"⟩)
          else (s.register requestId).move requestId
            (.queued websocket s.session.generation
              (commandPayload sysid requestId text arguments))
      | .str text, _ =>
          if strip text = "" then
            s.move requestId (.raised ⟨.value, "robot command must be non-empty text"⟩)
          else s.move requestId (.raised ⟨.value, "robot command arguments must be an object"⟩)
      | _, _ => s.move requestId (.raised ⟨.value, "robot command must be non-empty text"⟩)
  | _, _ => s.move requestId (.raised (notSent "robot command channel is not connected"))

/-- A valid call on an open connection is registered. -/
theorem requestCommand_valid {sysid requestId text : String} {arguments : Fields} {s : System}
    {websocket : ℕ} (hconnected : s.session.connected = true)
    (hwebsocket : s.session.websocket = some websocket) (hblank : strip text ≠ "") :
    requestCommand sysid requestId (.str text) (.obj arguments) s =
      (s.register requestId).move requestId (.queued websocket s.session.generation
        (commandPayload sysid requestId text arguments)) := by
  simp only [requestCommand, hconnected, hwebsocket, hblank, if_false]

/-- What the first part of a request does: no connection, an invalid call, or a
registered request that waits for the send lock. -/
theorem requestCommand_cases (sysid requestId : String) (command arguments : Json) (s : System) :
    (∃ message, requestCommand sysid requestId command arguments s =
      s.move requestId (.raised (notSent message))) ∨
    (validCall command arguments = false ∧ ∃ message,
      requestCommand sysid requestId command arguments s =
        s.move requestId (.raised ⟨.value, message⟩)) ∨
    (∃ websocket payload, s.session.connected = true ∧ s.session.websocket = some websocket ∧
      requestCommand sysid requestId command arguments s =
        (s.register requestId).move requestId
          (.queued websocket s.session.generation payload)) := by
  cases hconnected : s.session.connected with
  | false =>
    refine .inl ⟨"robot command channel is not connected", ?_⟩
    simp only [requestCommand, hconnected]
  | true =>
    cases hwebsocket : s.session.websocket with
    | none =>
      refine .inl ⟨"robot command channel is not connected", ?_⟩
      simp only [requestCommand, hconnected, hwebsocket]
    | some websocket =>
      cases command with
      | str text =>
        by_cases hblank : strip text = ""
        · refine .inr (.inl ⟨by simp [validCall, hblank],
            "robot command must be non-empty text", ?_⟩)
          cases arguments <;> simp only [requestCommand, hconnected, hwebsocket, hblank, if_true]
        · cases arguments with
          | obj fields =>
            exact .inr (.inr ⟨websocket, _, rfl, rfl,
              requestCommand_valid hconnected hwebsocket hblank⟩)
          | _ =>
            refine .inr (.inl ⟨by simp [validCall, isMapping],
              "robot command arguments must be an object", ?_⟩)
            simp only [requestCommand, hconnected, hwebsocket, hblank, if_false]
      | _ =>
        refine .inr (.inl ⟨rfl, "robot command must be non-empty text", ?_⟩)
        simp only [requestCommand, hconnected, hwebsocket]

/-- The connection is still the one the request was made on. -/
def sameConnection (s : Session) (websocket generation : ℕ) : Bool :=
  s.websocket = some websocket && s.connected && s.generation = generation

/-- The last part of a request whose future is done. -/
def acknowledged (s : Session) (generation : ℕ) : Except PyExc CommandReceipt → RequestPhase
  | .ok receipt =>
      if s.connected && s.generation = generation then .returned receipt
      else .raised (outcomeUnknown "robot connection changed at command acknowledgement")
  | .error e => .raised e

end System

section Steps

/-- What happens, as an observer of the session could log it. -/
inductive Label
  | connect (websocket : ℕ)
  | receive (generation : ℕ) (message : Message)
  | commands
  | flow (frame : Option FlowFrame)
  | leave
  | rejectPending
  | request (requestId : String) (command arguments : Json)
  | write (requestId : String) (generation : ℕ) (text : List Char)
  | refuse (requestId : String)
  | sent (requestId : String)
  | sendFailed (requestId : String) (e : PyExc)
  | resume (requestId : String)
  | timeout (requestId : String)
  | cancel (requestId : String)

/-- The connection loop. An exception or a stop may end a connection at each of
its awaits; the handlers of the loop may be cut short by a cancellation. -/
inductive LoopStep : System → Label → System → Prop
  | connect {s : System} (websocket : ℕ) : s.loop = .connecting →
      LoopStep s (.connect websocket)
        { s with session := activateConnection websocket s.session, loop := .receiving websocket }
  | ignore {s : System} {websocket : ℕ} (message : Message) : s.loop = .receiving websocket →
      message.payload = none → LoopStep s (.receive s.session.generation message) s
  | receive {s : System} {websocket : ℕ} {message : Message} {payload : Fields} :
      s.loop = .receiving websocket → message.payload = some payload →
      LoopStep s (.receive s.session.generation message)
        { s with
          session := handleResponse payload s.session
          loop := .commandsDue websocket payload }
  | commands {s : System} {websocket : ℕ} {payload : Fields} :
      s.loop = .commandsDue websocket payload →
      LoopStep s .commands
        { s with session := handleCommands payload s.session, loop := .flowDue websocket payload }
  | flow {s : System} {websocket : ℕ} {payload : Fields} :
      s.loop = .flowDue websocket payload →
      LoopStep s (.flow (flowFrame payload s.session))
        { s with
          session := recordFrame s.session (flowFrame payload s.session)
          loop := .receiving websocket }
  | leave {s : System} : s.loop ≠ .leaving →
      LoopStep s .leave
        { s with
          session := if s.session.websocket = s.loop.websocket then
            invalidateConnection s.session else s.session
          loop := .leaving }
  | rejectPending {s : System} : s.loop = .leaving →
      LoopStep s .rejectPending
        { s with
          session := rejectPendingUnknown
            "robot connection closed before the command outcome was known" s.session
          loop := .connecting }
  | cutShort {s : System} : s.loop = .leaving →
      LoopStep s .leave { s with loop := .connecting }

/-- The requests. Every call has a fresh identifier. The websocket library knows
nothing of the session's own exceptions. -/
inductive RequestStep (sysid : String) : System → Label → System → Prop
  | request {s : System} (requestId : String) (command arguments : Json) :
      s.requests requestId = .absent →
      RequestStep sysid s (.request requestId command arguments)
        (requestCommand sysid requestId command arguments s)
  | write {s : System} {requestId : String} {websocket generation : ℕ} {payload : Json}
      {text : List Char} :
      s.requests requestId = .queued websocket generation payload → s.sendLock = none →
      sameConnection s.session websocket generation = true →
      dumps compactStyle payload = some text →
      RequestStep sysid s (.write requestId generation text)
        { s.move requestId (.sending generation) with sendLock := some requestId }
  | refuse {s : System} {requestId : String} {websocket generation : ℕ} {payload : Json} :
      s.requests requestId = .queued websocket generation payload → s.sendLock = none →
      sameConnection s.session websocket generation = false →
      RequestStep sysid s (.refuse requestId)
        (s.finish requestId
          (.raised (notSent "robot command channel changed before dispatch")))
  | unprintable {s : System} {requestId : String} {websocket generation : ℕ} {payload : Json} :
      s.requests requestId = .queued websocket generation payload → s.sendLock = none →
      sameConnection s.session websocket generation = true →
      dumps compactStyle payload = none →
      RequestStep sysid s (.refuse requestId)
        (s.finish requestId
          (.raised (outcomeUnknown "robot command dispatch failed; its outcome is unknown")))
  | sent {s : System} {requestId : String} {generation : ℕ} :
      s.requests requestId = .sending generation →
      RequestStep sysid s (.sent requestId)
        { s.move requestId (.awaiting generation) with sendLock := none }
  | sendFailed {s : System} {requestId : String} {generation : ℕ} (e : PyExc) :
      s.requests requestId = .sending generation → e.isException = true →
      e.cls ≠ .robotCommandNotSent →
      RequestStep sysid s (.sendFailed requestId e)
        { s.finish requestId
            (.raised (outcomeUnknown "robot command dispatch failed; its outcome is unknown")) with
          sendLock := none }
  | resume {s : System} {requestId : String} {generation : ℕ}
      {verdict : Except PyExc CommandReceipt} :
      s.requests requestId = .awaiting generation →
      s.session.futures requestId = .done verdict →
      RequestStep sysid s (.resume requestId)
        (s.finish requestId (acknowledged s.session generation verdict))
  | timeout {s : System} (requestId : String) {generation : ℕ} :
      s.requests requestId = .awaiting generation →
      RequestStep sysid s (.timeout requestId)
        ({ s with session := s.session.settle requestId .cancelled }.finish requestId
          (.raised (outcomeUnknown "timed out waiting for the robot command response")))
  | cancelQueued {s : System} {requestId message : String} {websocket generation : ℕ}
      {payload : Json} :
      s.requests requestId = .queued websocket generation payload →
      RequestStep sysid s (.cancel requestId)
        (s.move requestId (.raised ⟨.cancelled, message⟩))
  | cancelSending {s : System} {requestId message : String} {generation : ℕ} :
      s.requests requestId = .sending generation →
      RequestStep sysid s (.cancel requestId)
        { s.move requestId (.raised ⟨.cancelled, message⟩) with sendLock := none }
  | cancelAwaiting {s : System} {requestId message : String} {generation : ℕ} :
      s.requests requestId = .awaiting generation →
      RequestStep sysid s (.cancel requestId)
        ({ s with session := s.session.settle requestId .cancelled }.finish requestId
          (.raised ⟨.cancelled, message⟩))

def Step (sysid : String) (s : System) (l : Label) (s' : System) : Prop :=
  LoopStep s l s' ∨ RequestStep sysid s l s'

end Steps

end FailureResolver.RobotSession
