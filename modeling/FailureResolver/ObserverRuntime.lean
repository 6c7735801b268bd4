import FailureResolver.BoundedQueue
import FailureResolver.Program
import FailureResolver.PyException
import FailureResolver.Reconciliation
import FailureResolver.RowText

/-!
The service that watches the tables. One task connects, waits and connects again;
for each connection it creates a worker that takes signals from the queue one
after the other, and Realtime callbacks offer signals at any time. The observer
and the resolver share the loop and differ in the methods it calls. Log lines,
times of day and error names are left out.
-/

namespace FailureResolver.ObserverRuntime

open BoundedQueue JsonValue Program PyException PyText Reconciliation RowText

section State

inductive WorkerPhase
  | scheduled
  | running
  | ended
  deriving DecidableEq

/-- The client of the current connection and who was given it. -/
structure Connection where
  client : Option ℕ
  channel : Bool
  resolutionChannel : Bool
  processorClient : Option ℕ
  database : Option ℕ
  deriving DecidableEq

def Connection.nothing : Connection := ⟨none, false, false, none, none⟩

/-- What the Realtime library shows of its sockets, and the clock of the loop. -/
structure Link where
  channelJoined : Bool
  socketConnected : Bool
  resolutionJoined : Bool
  time : ℚ

structure Counters where
  eventsObserved : ℕ
  eventsDropped : ℕ
  rowsFetched : ℕ
  fetchErrors : ℕ
  reconnectAttempts : ℕ

/-- `accepted` lists the signals the queue ever took in, `notified` the failures the
coordinator was told of; the code reads neither. -/
structure World (bound : ℕ) where
  stopping : Bool
  running : Bool
  connected : Bool
  subscribed : Bool
  reconnect : Bool
  subscriptionError : Option PyExc
  resolutionSubscribed : Bool
  resolutionError : Option PyExc
  connection : Connection
  link : Link
  workers : List WorkerPhase
  queue : Queue Signal bound
  unfinished : ℕ
  counters : Counters
  accepted : List Signal
  notified : List String

structure Settings where
  reconcileLimit : ℕ
  reconnectInitialSeconds : ℚ
  reconnectMaxSeconds : ℚ
  subscriptionTimeoutSeconds : ℚ
  connectionCheckSeconds : ℚ
  disconnectGraceSeconds : ℚ
  shutdownTimeoutSeconds : ℚ

/-- The awaited calls. `begin` is the first scheduling of a created task; the two
pauses are the waits for the stop event between checks and between connections. -/
inductive Op
  | createClient
  | subscribe (resolutions : Bool)
  | waitSubscribed (resolutions : Bool) (timeoutSeconds : ℚ)
  | selectResolutions (limit : ℕ)
  | selectPendingFailures (limit : ℕ)
  | reconcileRecoveries
  | checkPause (timeoutSeconds : ℚ)
  | reconnectPause (timeoutSeconds : ℚ)
  | joinQueue (timeoutSeconds : ℚ)
  | gatherWorker (worker : ℕ)
  | removeChannel (client : ℕ) (resolutions : Bool)
  | closeRealtime (client : ℕ)
  | stopCoordinator
  | closeProcessor
  | begin (worker : ℕ)
  | nextSignal
  | selectRow (client : ℕ) (failureId : String)
  | pendingMemoryResolution (failureId : String)
  | learnResolution (resolutionId : String)
  | processFailure (failureId : String)

@[reducible] def Op.Reply : Op → Type
  | .createClient => ℕ
  | .selectResolutions _ => Json
  | .selectPendingFailures _ => Json
  | .nextSignal => Signal
  | .selectRow .. => Json
  | .pendingMemoryResolution _ => Option String
  | _ => Unit

variable (bound : ℕ)

abbrev watching : Interface := ⟨World bound, Op, Op.Reply, PyExc⟩

abbrev Watching := Prog (watching bound)

end State

section Callbacks

variable {bound : ℕ}

/-- `put_nowait`; the flag says whether there was room. -/
def World.put (signal : Signal) (w : World bound) : World bound × Bool :=
  if w.queue.items.length < bound then
    ({ w with
        queue := w.queue.offer signal
        unfinished := w.unfinished + 1
        accepted := w.accepted ++ [signal] }, true)
  else (w, false)

def World.count (f : Counters → Counters) (w : World bound) : World bound :=
  { w with counters := f w.counters }

def Counters.observe (c : Counters) : Counters := { c with eventsObserved := c.eventsObserved + 1 }

def Counters.drop (c : Counters) : Counters := { c with eventsDropped := c.eventsDropped + 1 }

def Counters.fetch (c : Counters) : Counters := { c with rowsFetched := c.rowsFetched + 1 }

def Counters.fail (c : Counters) : Counters := { c with fetchErrors := c.fetchErrors + 1 }

def Counters.retry (c : Counters) : Counters :=
  { c with reconnectAttempts := c.reconnectAttempts + 1 }

def safeScalarLength : ℕ := 160

def safeScalar (value : Json) : Option String :=
  match value with
  | .null => none
  | .arr _ => none
  | .obj _ => none
  | value =>
      some (String.ofList (((pyStr value).toList.map replacePrintable).take safeScalarLength))

structure SafeFailureEvent where
  event : Option String
  failureId : Option String
  commitTimestamp : Option String

/-- `payload.get("data", {})` of an object; anything else counts as empty data. -/
def payloadData : Json → Json
  | .obj payload => if Fields.has payload "data" then Fields.get payload "data" else .obj []
  | _ => .obj []

/-- `data.get("record", {})` of an object. -/
def payloadRecord : Json → Json
  | .obj data => if Fields.has data "record" then Fields.get data "record" else .obj []
  | _ => .obj []

/-- `from_realtime_payload`; data that is no object has no `get`. -/
def SafeFailureEvent.fromRealtimePayload (payload : Json) : Except PyExc SafeFailureEvent :=
  let record := match payloadRecord (payloadData payload) with
    | .obj record => record
    | _ => []
  match payloadData payload with
  | .obj data => .ok
      ⟨safeScalar (Fields.get data "type"), safeScalar (Fields.get record "failure_id"),
        safeScalar (Fields.get data "commit_timestamp")⟩
  | _ => .error ⟨.other "AttributeError", "payload data has no attribute 'get'"⟩

def onChange (payload : Json) (w : World bound) : Except PyExc (World bound) := do
  let event ← SafeFailureEvent.fromRealtimePayload payload
  let w := w.count .observe
  match event.failureId with
  | none => return w.count .drop
  | some failureId =>
      match w.put (.failure event.event failureId event.commitTimestamp) with
      | (w, true) => return w
      | (w, false) => return w.count .drop

def enqueueSignal (w : World bound) (signal : Signal) : World bound :=
  match w.put signal with
  | (w, true) => w.count .observe
  | (w, false) => w.count .drop

def onResolutionChange (payload : Json) (w : World bound) : World bound :=
  match payloadRecord (payloadData payload) with
  | .obj record =>
      match safeIdentifier (Fields.get record "resolution_id") with
      | none => w.count .drop
      | some resolutionId =>
          let data := match payloadData payload with
            | .obj data => data
            | _ => []
          enqueueSignal w (.resolution (safeIdentifier (Fields.get data "type")) resolutionId
            (safeIdentifier (Fields.get data "commit_timestamp")))
  | _ => w.count .drop

/-- `_status_name`: the last part of a dotted name, in capitals. -/
def statusName (status : String) : String :=
  upper (String.ofList ((splitOnChar '.' status.toList).getLastD []))

def connectionError (message : String) : PyExc := ⟨.connection, message⟩

def onSubscriptionStatus (status : String) (error : Option PyExc) (w : World bound) :
    World bound :=
  if statusName status = "SUBSCRIBED" then { w with connected := true, subscribed := true }
  else
    { w with
      subscriptionError := some (error.getD (connectionError (statusName status)))
      connected := false
      subscribed := true
      reconnect := true }

def onResolutionSubscriptionStatus (status : String) (error : Option PyExc) (w : World bound) :
    World bound :=
  if statusName status = "SUBSCRIBED" then { w with resolutionSubscribed := true }
  else
    { w with
      resolutionError := some (error.getD (connectionError (statusName status)))
      connected := false
      resolutionSubscribed := true
      reconnect := true }

def stop (w : World bound) : World bound := { w with stopping := true, reconnect := true }

end Callbacks

section Connecting

variable {bound : ℕ} (settings : Settings)

def World.connect (f : Connection → Connection) (w : World bound) : World bound :=
  { w with connection := f w.connection }

def connectObserver : Watching bound Unit := do
  Prog.update (σ := watching bound) fun w =>
    { w with
      subscribed := false
      reconnect := false
      subscriptionError := none
      connected := false }
  let client ← Prog.call (σ := watching bound) .createClient
  Prog.update (σ := watching bound)
    (World.connect fun c => { c with client := some client, channel := true })
  Prog.call (σ := watching bound) (.subscribe false)
  Prog.call (σ := watching bound) (.waitSubscribed false settings.subscriptionTimeoutSeconds)
  let w ← Prog.observe (σ := watching bound)
  match w.subscriptionError with
  | some e => .raise e
  | none =>
      if w.connected then return ()
      else .raise (connectionError "Supabase subscription did not become ready")

/-- Run a cleanup that may await, but let only a cancellation out of it. -/
def quietly (p : Watching bound Unit) : Watching bound Unit :=
  p.tryCatch fun e => if e.cls = .cancelled then .raise e else return ()

/-- The channel and the socket of a client that was given up. -/
def closeClient (before : Connection) : Watching bound Unit :=
  match before.client with
  | none => return ()
  | some client => quietly do
      if before.channel then Prog.call (σ := watching bound) (.removeChannel client false)
      else pure ()
      let w ← Prog.observe (σ := watching bound)
      if w.link.socketConnected then Prog.call (σ := watching bound) (.closeRealtime client)
      else return ()

def disconnectObserver : Watching bound Unit := do
  let w ← Prog.observe (σ := watching bound)
  Prog.update (σ := watching bound) fun w =>
    { w with
      connected := false
      connection := { w.connection with client := none, channel := false } }
  closeClient w.connection

def connectResolutionChannel : Watching bound Unit := do
  let w ← Prog.observe (σ := watching bound)
  if w.connection.client = none then
    .raise (connectionError "Supabase client is unavailable")
  else do
    Prog.update (σ := watching bound) fun w =>
      { w with
        resolutionSubscribed := false
        resolutionError := none
        connection := { w.connection with resolutionChannel := true } }
    Prog.call (σ := watching bound) (.subscribe true)
    Prog.call (σ := watching bound) (.waitSubscribed true settings.subscriptionTimeoutSeconds)
    let w ← Prog.observe (σ := watching bound)
    match w.resolutionError with
    | some e => .raise e
    | none => return ()

/-- `_enqueue_reconciliation`, with the counters of the runtime. -/
def enqueueReconciliation : Watching bound Unit := do
  let w ← Prog.observe (σ := watching bound)
  if w.connection.client = none then
    .raise (connectionError "Supabase client is unavailable")
  else do
    let resolutions ← Prog.call (σ := watching bound) (.selectResolutions settings.reconcileLimit)
    Prog.update (σ := watching bound) fun w =>
      (resolutionSignals (responseRows resolutions)).foldl enqueueSignal w
    let pending ← Prog.call (σ := watching bound) (.selectPendingFailures settings.reconcileLimit)
    Prog.update (σ := watching bound) fun w =>
      (failureSignals (responseRows pending)).foldl enqueueSignal w

def connectAgent : Watching bound Unit := do
  connectObserver settings
  let w ← Prog.observe (σ := watching bound)
  Prog.update (σ := watching bound)
    (World.connect fun c => { c with processorClient := c.client })
  if w.connection.client = none then
    .raise (connectionError "Supabase client is unavailable")
  else do
    Prog.update (σ := watching bound) (World.connect fun c => { c with database := c.client })
    connectResolutionChannel settings
    enqueueReconciliation settings
    Prog.call (σ := watching bound) .reconcileRecoveries

/-- The channel of the resolutions is removed from the client it belonged to. -/
def removeResolutionChannel (before : Connection) : Watching bound Unit :=
  match before.client with
  | none => return ()
  | some client =>
      if before.resolutionChannel then
        quietly (Prog.call (σ := watching bound) (.removeChannel client true))
      else return ()

def disconnectAgent : Watching bound Unit := do
  let w ← Prog.observe (σ := watching bound)
  Prog.update (σ := watching bound) (World.connect fun c =>
    { c with resolutionChannel := false, processorClient := none, database := none })
  removeResolutionChannel w.connection
  disconnectObserver

def observerIsHealthy (w : World bound) : Bool :=
  w.connection.client.isSome && w.connection.channel && w.link.channelJoined &&
    w.link.socketConnected

def agentIsHealthy (w : World bound) : Bool :=
  observerIsHealthy w && w.connection.resolutionChannel && w.link.resolutionJoined

end Connecting

section Signals

variable {bound : ℕ}

/-- The failure a signal is about; the observer has no other signals. -/
def subject : Signal → String
  | .failure _ failureId _ => failureId
  | .resolution _ resolutionId _ => resolutionId

def fetchObserved (signal : Signal) : Watching bound Unit := do
  let w ← Prog.observe (σ := watching bound)
  match w.connection.client with
  | none => .raise (connectionError "Supabase client is unavailable")
  | some client => do
      let data ← Prog.call (σ := watching bound) (.selectRow client (subject signal))
      match data with
      | .arr (_ :: _) => Prog.update (σ := watching bound) (World.count .fetch)
      | _ => return ()

/-- `recovery_coordinator.notify_failure`, as far as the runtime goes. -/
def World.notify (failureId : String) (w : World bound) : World bound :=
  { w with notified := w.notified ++ [failureId] }

/-- The memory a failure is waiting for is learned first. -/
def learnPending : Option String → Watching bound Unit
  | some resolutionId => Prog.call (σ := watching bound) (.learnResolution resolutionId)
  | none => return ()

/-- `_fetch_and_log_safe_row` of the resolver: the coordinator hears of a failure
before the matcher decides on it, and again once it has decided. -/
def processSignal : Signal → Watching bound Unit
  | .resolution _ resolutionId _ => do
      Prog.call (σ := watching bound) (.learnResolution resolutionId)
      Prog.update (σ := watching bound) (World.count .fetch)
  | .failure _ failureId _ => do
      Prog.update (σ := watching bound) (World.notify failureId)
      let pending ← Prog.call (σ := watching bound) (.pendingMemoryResolution failureId)
      learnPending pending
      Prog.call (σ := watching bound) (.processFailure failureId)
      Prog.update (σ := watching bound) (World.notify failureId)
      Prog.update (σ := watching bound) (World.count .fetch)

end Signals

section Loop

variable {bound : ℕ}

structure Service (bound : ℕ) where
  connect : Watching bound Unit
  disconnect : Watching bound Unit
  connectionIsHealthy : World bound → Bool
  fetchAndLogSafeRow : Signal → Watching bound Unit

def observer (settings : Settings) : Service bound :=
  ⟨connectObserver settings, disconnectObserver, observerIsHealthy, fetchObserved⟩

def agent (settings : Settings) : Service bound :=
  ⟨connectAgent settings, disconnectAgent, agentIsHealthy, processSignal⟩

variable (service : Service bound) (settings : Settings)

/-- An error of one signal is counted; `task_done` is called in any case. -/
def handleSignal (signal : Signal) : Watching bound Unit :=
  ((service.fetchAndLogSafeRow signal).tryCatch fun e =>
      if e.cls = .cancelled then .raise e
      else Prog.update (σ := watching bound) (World.count .fail)).tryFinally
    fun w => { w with unfinished := w.unfinished - 1 }

/-- `_fetch_worker`; `fuel` bounds the signals it takes. -/
def takeSignals : ℕ → Watching bound Unit
  | 0 => .halt
  | fuel + 1 => do
      let signal ← Prog.call (σ := watching bound) .nextSignal
      handleSignal service signal
      takeSignals fuel

def World.endWorker (worker : ℕ) (w : World bound) : World bound :=
  { w with workers := w.workers.set worker .ended }

def fetchWorker (fuel worker : ℕ) : Watching bound Unit := do
  Prog.call (σ := watching bound) (.begin worker)
  (takeSignals service fuel).tryFinally (World.endWorker worker)

/-- `_stop_fetch_worker`: the queue is given some time, then the worker is cancelled
and waited for. -/
def stopFetchWorker (worker : ℕ) : Watching bound Unit := do
  Prog.tryCatch (Prog.call (σ := watching bound) (.joinQueue settings.shutdownTimeoutSeconds))
    fun e => if e.cls = .timeout then return () else .raise e
  Prog.call (σ := watching bound) (.gatherWorker worker)

/-- `unhealthy_since or loop.time()`: a time of zero counts as none. -/
def unhealthySince (since : Option ℚ) (time : ℚ) : ℚ :=
  match since with
  | some t => if t = 0 then time else t
  | none => time

def waitUntilStoppedOrDisconnected : ℕ → Option ℚ → Watching bound Unit
  | 0, _ => .halt
  | fuel + 1, since => do
      let w ← Prog.observe (σ := watching bound)
      if w.stopping then return ()
      else if w.reconnect then
        .raise (connectionError "Supabase subscription reported an error")
      else if service.connectionIsHealthy w then do
        Prog.update (σ := watching bound) fun w => { w with connected := true }
        Prog.call (σ := watching bound) (.checkPause settings.connectionCheckSeconds)
        waitUntilStoppedOrDisconnected fuel none
      else do
        Prog.update (σ := watching bound) fun w => { w with connected := false }
        let since := unhealthySince since w.link.time
        if settings.disconnectGraceSeconds ≤ w.link.time - since then
          .raise (connectionError "Supabase connection remained unavailable")
        else do
          Prog.call (σ := watching bound) (.checkPause settings.connectionCheckSeconds)
          waitUntilStoppedOrDisconnected fuel (some since)

/-- An error of the connection is noted, a cancellation goes on. -/
def noteDisconnected (e : PyExc) : Watching bound Unit :=
  if e.cls = .cancelled then .raise e
  else Prog.update (σ := watching bound) fun w => { w with connected := false }

def World.createWorker (w : World bound) : World bound :=
  { w with workers := w.workers ++ [.scheduled] }

/-- One connection from its start to its cleanup. The result is the delay that a
next connection is tried after: a connection that came about starts over. -/
def connection (fuel : ℕ) (retryDelay : ℚ) : Watching bound ℚ := do
  match ← service.connect.attempt with
  | .error e => do
      (noteDisconnected e).finallyDo service.disconnect
      return retryDelay
  | .ok () => do
      let w ← Prog.observe (σ := watching bound)
      Prog.update (σ := watching bound) World.createWorker
      Prog.finallyDo
        ((waitUntilStoppedOrDisconnected service settings fuel none).tryCatch noteDisconnected)
        (do
          stopFetchWorker settings w.workers.length
          service.disconnect)
      return settings.reconnectInitialSeconds

def connectAgain : ℕ → ℚ → Watching bound Unit
  | 0, _ => .halt
  | fuel + 1, retryDelay => do
      let w ← Prog.observe (σ := watching bound)
      if w.stopping then return ()
      else do
        let retryDelay ← connection service settings fuel retryDelay
        let w ← Prog.observe (σ := watching bound)
        if w.stopping then return ()
        else do
          Prog.update (σ := watching bound) (World.count .retry)
          Prog.call (σ := watching bound) (.reconnectPause retryDelay)
          connectAgain fuel (min (retryDelay * 2) settings.reconnectMaxSeconds)

def runObserver (fuel : ℕ) : Watching bound Unit := do
  Prog.update (σ := watching bound) fun w => { w with running := true }
  Prog.finallyDo (connectAgain service settings fuel settings.reconnectInitialSeconds) (do
    Prog.update (σ := watching bound) fun w => { w with running := false, connected := false }
    service.disconnect)

def runAgent (fuel : ℕ) : Watching bound Unit :=
  Prog.finallyDo (runObserver (agent settings) settings fuel) (do
    Prog.call (σ := watching bound) .stopCoordinator
    Prog.call (σ := watching bound) .closeProcessor)

end Loop

end FailureResolver.ObserverRuntime
