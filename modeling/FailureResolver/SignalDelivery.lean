import FailureResolver.ObserverRuntime
import FailureResolver.TaskTable

/-!
One worker at a time. Callbacks offer signals, the main task connects and
reconnects, and any await may end with an error or a cancellation. A worker is
created only when the one before it has been waited for, so signals are handled
one after the other, in the order the queue took them in, and the work that is
left is always what waits in the queue and what is in hand.
-/

namespace FailureResolver.SignalDelivery

open BoundedQueue JsonValue ObserverRuntime Program PyException TaskPool TaskTable Transitions
open Reconciliation (Signal)

section Steps

variable {bound : ℕ}

/-- What an await does to the state by itself: a signal is taken from the queue, or
a created task starts, or it is cancelled before. A worker that was waited for has
ended. -/
def AwaitStep (w : World bound) : (op : Op) → Except PyExc op.Reply → World bound → Prop
  | .nextSignal, .ok signal, w' =>
      ∃ queue, w.queue.poll = some (signal, queue) ∧ w' = { w with queue := queue }
  | .begin worker, .ok _, w' =>
      w.workers[worker]? = some .scheduled ∧
        w' = { w with workers := w.workers.set worker .running }
  | .begin worker, .error _, w' =>
      w.workers[worker]? = some .scheduled ∧ w' = w.endWorker worker
  | .gatherWorker worker, .ok _, w' => w.workers[worker]? = some .ended ∧ w' = w
  | _, _, w' => w' = w

/-- What happens outside the tasks: Realtime calls back, the service is stopped, and
sockets and the clock change. -/
inductive Callback : World bound → World bound → Prop
  | change {w w' : World bound} (payload : Json) : onChange payload w = .ok w' → Callback w w'
  | resolutionChange (payload : Json) (w : World bound) : Callback w (onResolutionChange payload w)
  | status (status : String) (error : Option PyExc) (w : World bound) :
      Callback w (onSubscriptionStatus status error w)
  | resolutionStatus (status : String) (error : Option PyExc) (w : World bound) :
      Callback w (onResolutionSubscriptionStatus status error w)
  | stop (w : World bound) : Callback w (stop w)
  | link (link : Link) (w : World bound) : Callback w { w with link := link }

variable (service : Service bound)

/-- The event loop may schedule the task of any worker that is created. -/
def Spawned (p : Watching bound Unit) (_ : Unit) : Prop :=
  ∃ fuel worker, p = fetchWorker service fuel worker

abbrev Tasks (bound : ℕ) := Pool (watching bound) Unit Unit

abbrev ServiceStep : Tasks bound → Label (watching bound) → Tasks bound → Prop :=
  Step (Spawned service) (fun m _ _ => m) AwaitStep Callback

structure Fresh (w : World bound) : Prop where
  connection : w.connection = .nothing
  workers : w.workers = []
  unfinished : w.unfinished = w.queue.items.length
  accepted : w.accepted = w.queue.items

/-- The main task is started, and stands at its first await. -/
def started (main : Watching bound Unit) (w : World bound) : Tasks bound :=
  (Pool.initial w ()).run 0 main () w

def Works : Op → Prop
  | .selectRow .. => True
  | .pendingMemoryResolution _ => True
  | .learnResolution _ => True
  | .processFailure _ => True
  | _ => False

def Working (P : Tasks bound) (i : ℕ) : Prop :=
  ∃ op k, P.task i = some (.await op k) ∧ Works op

def Waiting (P : Tasks bound) (i : ℕ) : Prop := ∃ k, P.task i = some (.await .nextSignal k)

def takenSignal : Label (watching bound) → Option Signal
  | .resume _ .nextSignal (.ok signal) => some signal
  | _ => none

end Steps

section Discipline

variable {bound : ℕ}

/-- The client is known to the processor and the coordinator, or to neither. -/
structure Aligned (c : Connection) : Prop where
  processor : c.processorClient = none ∨ c.processorClient = c.client
  database : c.database = none ∨ c.database = c.client

/-- Neither the processor nor the coordinator has a client. -/
structure Released (c : Connection) : Prop where
  processor : c.processorClient = none
  database : c.database = none

/-- Where a task is: the main task with the worker it has to end and the connection
it has made, or a worker. -/
inductive Mode
  | main (worker : Option ℕ) (held : Connection)
  | waiting (worker : ℕ)
  | idle (worker : ℕ)
  | busy (worker : ℕ)
  | ended

def Mode.live : Mode → Option ℕ
  | .idle worker => some worker
  | .busy worker => some worker
  | _ => none

def Delay (settings : Settings) (seconds : ℚ) : Prop :=
  min settings.reconnectInitialSeconds settings.reconnectMaxSeconds ≤ seconds ∧
    seconds ≤ max settings.reconnectInitialSeconds settings.reconnectMaxSeconds

def PermittedMain (settings : Settings) (worker : Option ℕ) (held : Connection) : Op → Prop
  | .createClient => worker = none ∧ held = .nothing
  | .reconnectPause seconds => worker = none ∧ held = .nothing ∧ Delay settings seconds
  | .gatherWorker n => worker = some n
  | .begin _ => False
  | .nextSignal => False
  | op => ¬ Works op

def Permitted (settings : Settings) : Mode → Op → Prop
  | .main worker held, op => Aligned held ∧ PermittedMain settings worker held op
  | .waiting worker, op => op = .begin worker
  | .idle _, op => op = .nextSignal
  | .busy _, op => Works op
  | .ended, _ => False

def Mode.after : Mode → (op : Op) → Except PyExc op.Reply → Mode
  | .main _ held, .gatherWorker _, .ok _ => .main none held
  | .waiting worker, _, .ok _ => .idle worker
  | .waiting _, _, .error _ => .ended
  | .idle worker, .nextSignal, .ok _ => .busy worker
  | m, _, _ => m

/-- Signals are offered to the queue and nothing is taken from it. -/
structure Offers (w w' : World bound) : Prop where
  workers : w'.workers = w.workers
  signals : ∃ signals, w'.queue.items = w.queue.items ++ signals ∧
    w'.unfinished = w.unfinished + signals.length ∧ w'.accepted = w.accepted ++ signals

inductive Act : Mode → World bound → Mode → World bound → Prop
  | main {w w' : World bound} {worker : Option ℕ} {held : Connection} :
      Offers w w' → Act (.main worker held) w (.main worker w'.connection) w'
  | create {w : World bound} {held : Connection} :
      Act (.main none held) w (.main (some w.workers.length) held) w.createWorker
  | work {w w' : World bound} {worker : ℕ} :
      Offers w w' → w'.connection = w.connection → Act (.busy worker) w (.busy worker) w'
  | done {w : World bound} {worker : ℕ} :
      Act (.busy worker) w (.idle worker) { w with unfinished := w.unfinished - 1 }
  | finish {w : World bound} {worker : ℕ} : Act (.idle worker) w .ended (w.endWorker worker)

def watch (settings : Settings) : Discipline (watching bound) Mode where
  rely m w := ∀ worker held, m = .main worker held → w.connection = held
  act := Act
  request m _ op := Permitted settings m op
  answer m op r m' := m' = m.after op r

def Ends (_ : Except PyExc Unit) : Mode → Prop
  | .main _ held => Released held
  | .ended => True
  | _ => False

theorem Offers.of_eq {w w' : World bound} (hworkers : w'.workers = w.workers)
    (hqueue : w'.queue = w.queue) (hunfinished : w'.unfinished = w.unfinished)
    (haccepted : w'.accepted = w.accepted) : Offers w w' := by
  refine ⟨hworkers, [], ?_, ?_, ?_⟩
  · rw [hqueue, List.append_nil]
  · exact hunfinished
  · rw [haccepted, List.append_nil]

theorem Offers.trans {w w' w'' : World bound} (h : Offers w w') (h' : Offers w' w'') :
    Offers w w'' := by
  obtain ⟨first, hitems, hunfinished, haccepted⟩ := h.signals
  obtain ⟨second, hitems', hunfinished', haccepted'⟩ := h'.signals
  refine ⟨h'.workers.trans h.workers, first ++ second, ?_, ?_, ?_⟩
  · rw [hitems', hitems, List.append_assoc]
  · rw [hunfinished', hunfinished, List.length_append, Nat.add_assoc]
  · rw [haccepted', haccepted, List.append_assoc]

theorem offers_count (f : Counters → Counters) (w : World bound) : Offers w (w.count f) :=
  .of_eq rfl rfl rfl rfl

/-- A signal is taken in with all its bookkeeping, or not at all. -/
theorem offers_put (signal : Signal) (w : World bound) :
    Offers w (w.put signal).1 ∧ (w.put signal).1.connection = w.connection := by
  unfold World.put
  by_cases hroom : w.queue.items.length < bound
  · rw [if_pos hroom]
    refine ⟨⟨rfl, [signal], ?_, rfl, rfl⟩, rfl⟩
    show (w.queue.offer signal).items = _
    unfold Queue.offer
    rw [dif_pos hroom]
  · rw [if_neg hroom]
    exact ⟨.of_eq rfl rfl rfl rfl, rfl⟩

theorem offers_enqueueSignal (w : World bound) (signal : Signal) :
    Offers w (enqueueSignal w signal) ∧ (enqueueSignal w signal).connection = w.connection := by
  have hput := offers_put signal w
  unfold enqueueSignal
  generalize w.put signal = put at hput
  obtain ⟨w', room⟩ := put
  cases room with
  | true => exact ⟨hput.1.trans (offers_count _ _), hput.2⟩
  | false => exact ⟨hput.1.trans (offers_count _ _), hput.2⟩

theorem offers_enqueueSignals (signals : List Signal) (w : World bound) :
    Offers w (signals.foldl enqueueSignal w) ∧
      (signals.foldl enqueueSignal w).connection = w.connection := by
  induction signals generalizing w with
  | nil => exact ⟨.of_eq rfl rfl rfl rfl, rfl⟩
  | cons signal rest ih =>
    obtain ⟨hfirst, hconnection⟩ := offers_enqueueSignal w signal
    obtain ⟨hrest, hconnection'⟩ := ih (enqueueSignal w signal)
    exact ⟨hfirst.trans hrest, hconnection'.trans hconnection⟩

/-- A callback offers signals at most, and leaves the connection as it is. -/
theorem Callback.offers {w w' : World bound} (h : Callback w w') :
    Offers w w' ∧ w'.connection = w.connection := by
  cases h with
  | change payload hchange =>
    unfold onChange at hchange
    obtain ⟨event, -, hchange⟩ := bind_eq_ok.mp hchange
    dsimp only at hchange
    cases hid : event.failureId with
    | none =>
      rw [hid] at hchange
      cases hchange
      exact ⟨(offers_count _ _).trans (offers_count _ _), rfl⟩
    | some failureId =>
      rw [hid] at hchange
      have hput := offers_put (.failure event.event failureId event.commitTimestamp)
        (w.count .observe)
      dsimp only at hchange
      generalize (w.count .observe).put _ = put at hput hchange
      obtain ⟨w₁, room⟩ := put
      cases room with
      | true =>
        cases hchange
        exact ⟨(offers_count _ _).trans hput.1, hput.2⟩
      | false =>
        cases hchange
        exact ⟨((offers_count _ _).trans hput.1).trans (offers_count _ _), hput.2⟩
  | resolutionChange payload =>
    unfold onResolutionChange
    split
    · split
      · exact ⟨offers_count _ _, rfl⟩
      · exact offers_enqueueSignal _ _
    · exact ⟨offers_count _ _, rfl⟩
  | status status error =>
    unfold onSubscriptionStatus
    split <;> exact ⟨.of_eq rfl rfl rfl rfl, rfl⟩
  | resolutionStatus status error =>
    unfold onResolutionSubscriptionStatus
    split <;> exact ⟨.of_eq rfl rfl rfl rfl, rfl⟩
  | stop => exact ⟨.of_eq rfl rfl rfl rfl, rfl⟩
  | link link => exact ⟨.of_eq rfl rfl rfl rfl, rfl⟩

end Discipline

section Obeyed

variable {bound : ℕ} {settings : Settings} {w : World bound} {worker : Option ℕ}
variable {S S' : Connection → Prop} {α β : Type}

structure Bare (c : Connection) : Prop extends Released c where
  resolutions : c.resolutionChannel = false

/-- The main task goes on with this worker and a connection of this shape. -/
def Holds (worker : Option ℕ) (S : Connection → Prop) (_ : Except PyExc α) (g : Mode)
    (w : World bound) : Prop := g = .main worker w.connection ∧ S w.connection

/-- The main task has let the connection go, or was interrupted while it did. -/
def Lets (worker : Option ℕ) (r : Except PyExc α) (g : Mode) (w : World bound) : Prop :=
  Holds worker Bare r g w ∧ (r.isOk = true → w.connection = .nothing)

def Plain : Op → Prop
  | .subscribe _ => True
  | .waitSubscribed .. => True
  | .selectResolutions _ => True
  | .selectPendingFailures _ => True
  | .reconcileRecoveries => True
  | .checkPause _ => True
  | .joinQueue _ => True
  | .removeChannel .. => True
  | .closeRealtime _ => True
  | .stopCoordinator => True
  | .closeProcessor => True
  | _ => False

theorem bare_nothing : Bare .nothing := ⟨⟨rfl, rfl⟩, rfl⟩

theorem Bare.aligned {c : Connection} (h : Bare c) : Aligned c :=
  ⟨.inl h.processor, .inl h.database⟩

theorem permitted_plain {op : Op} {held : Connection} (hop : Plain op) (h : Aligned held) :
    Permitted settings (.main worker held) op := by
  refine ⟨h, ?_⟩
  cases op <;> first | exact hop.elim | exact id

theorem after_plain {op : Op} {held : Connection} (hop : Plain op) (r : Except PyExc op.Reply) :
    (Mode.main worker held).after op r = .main worker held := by
  cases op <;> first | exact hop.elim | rfl

theorem holds_call {op : Op} (hop : Plain op) (hS : ∀ c, S c → Aligned c) (h : S w.connection) :
    Obeys (watch settings) (Holds worker S) (Prog.call (σ := watching bound) op)
      (.main worker w.connection) w := by
  refine obeys_call.mpr ⟨permitted_plain hop (hS _ h), fun r g w' hlearned hrely => ?_⟩
  have hg : g = .main worker w.connection := hlearned.trans (after_plain hop r)
  have hsame : w'.connection = w.connection := hrely worker w.connection hg
  rw [hg, ← hsame]
  refine ⟨rfl, ?_⟩
  rw [hsame]
  exact h

theorem holds_update {f : World bound → World bound} (hf : Offers w (f w))
    (h : S (f w).connection) :
    Obeys (watch settings) (Holds worker S) (Prog.update (σ := watching bound) f)
      (.main worker w.connection) w :=
  ⟨_, .main hf, rfl, h⟩

theorem holds_bind {p : Watching bound α} {f : α → Watching bound β}
    (hp : Obeys (watch settings) (Holds worker S') p (.main worker w.connection) w)
    (hS : ∀ c, S' c → S c)
    (hf : ∀ a w', S' w'.connection →
      Obeys (watch settings) (Holds worker S) (f a) (.main worker w'.connection) w') :
    Obeys (watch settings) (Holds worker S) (p.bind f) (.main worker w.connection) w := by
  rw [obeys_bind]
  refine hp.mono fun r g w' hpost => ?_
  obtain ⟨rfl, hshape⟩ := hpost
  cases r with
  | ok a => exact hf a w' hshape
  | error e => exact ⟨rfl, hS _ hshape⟩

/-- A part without changes of its own. -/
theorem holds_awaits {p : Watching bound α} (hp : p.Awaits Plain) (hS : ∀ c, S c → Aligned c)
    (h : S w.connection) :
    Obeys (watch settings) (Holds worker S) p (.main worker w.connection) w := by
  have hobeys : Obeys (watch settings) (fun _ g w' => g = .main worker w.connection ∧
      w'.connection = w.connection) p (.main worker w.connection) w := by
    apply Obeys.of_awaits_relying hp
    · rfl
    · intro s op hop
      exact permitted_plain hop (hS _ h)
    · intro op r g' hop hlearned
      exact hlearned.trans (after_plain hop r)
    · intro s hrely
      exact hrely worker w.connection rfl
  refine hobeys.mono fun r g w' hpost => ?_
  obtain ⟨rfl, hsame⟩ := hpost
  rw [← hsame]
  refine ⟨rfl, ?_⟩
  rw [hsame]
  exact h

theorem awaits_quietly {p : Watching bound Unit} (hp : p.Awaits Plain) :
    (quietly p).Awaits Plain := by
  refine .tryCatch hp fun e => ?_
  split <;> trivial

theorem awaits_closeClient (before : Connection) :
    (closeClient before : Watching bound Unit).Awaits Plain := by
  unfold closeClient
  split
  · trivial
  · apply awaits_quietly
    simp only [Prog.bind_eq, Prog.pure_eq]
    split
    · refine .bind (.call trivial) fun _ => .bind (fun _ => trivial) fun w => ?_
      split
      · exact .call trivial
      · trivial
    · refine .bind (fun _ => trivial) fun w => ?_
      split
      · exact .call trivial
      · trivial

theorem awaits_removeResolutionChannel (before : Connection) :
    (removeResolutionChannel before : Watching bound Unit).Awaits Plain := by
  unfold removeResolutionChannel
  split
  · trivial
  · split
    · exact awaits_quietly (.call trivial)
    · trivial

theorem lets_disconnectObserver (h : Bare w.connection) :
    Obeys (watch settings) (Lets worker) (disconnectObserver : Watching bound Unit)
      (.main worker w.connection) w := by
  unfold disconnectObserver
  simp only [Prog.bind_eq]
  rw [obeys_observe_bind, obeys_update_bind]
  refine ⟨_, .main (.of_eq rfl rfl rfl rfl), ?_⟩
  have hnothing : { w.connection with client := none, channel := false } = Connection.nothing := by
    rw [Connection.nothing, Connection.mk.injEq]
    exact ⟨rfl, rfl, h.resolutions, h.processor, h.database⟩
  refine (holds_awaits
    (w := { w with
      connected := false
      connection := { w.connection with client := none, channel := false } })
    (S := fun c => c = .nothing) (awaits_closeClient w.connection)
    (fun c hc => hc ▸ bare_nothing.aligned) hnothing).mono fun r g w' hpost => ?_
  obtain ⟨rfl, hsame⟩ := hpost
  refine ⟨⟨rfl, ?_⟩, fun _ => hsame⟩
  rw [hsame]
  exact bare_nothing

theorem lets_disconnectAgent (_ : Aligned w.connection) :
    Obeys (watch settings) (Lets worker) (disconnectAgent : Watching bound Unit)
      (.main worker w.connection) w := by
  unfold disconnectAgent
  simp only [Prog.bind_eq]
  rw [obeys_observe_bind, obeys_update_bind]
  refine ⟨_, .main (.of_eq rfl rfl rfl rfl), ?_⟩
  rw [obeys_bind]
  refine (holds_awaits
    (w := World.connect (fun c =>
      { c with resolutionChannel := false, processorClient := none, database := none }) w)
    (S := Bare) (awaits_removeResolutionChannel w.connection) (fun c hc => hc.aligned)
    ⟨⟨rfl, rfl⟩, rfl⟩).mono fun r g w' hpost => ?_
  obtain ⟨rfl, hbare⟩ := hpost
  cases r with
  | ok _ => exact lets_disconnectObserver hbare
  | error e => exact ⟨⟨rfl, hbare⟩, fun h => by cases h⟩

theorem holds_connectObserver (h : w.connection = .nothing) :
    Obeys (watch settings) (Holds none Bare) (connectObserver settings : Watching bound Unit)
      (.main none w.connection) w := by
  have haligned : ∀ c, Bare c → Aligned c := fun c hc => hc.aligned
  unfold connectObserver
  simp only [Prog.bind_eq, Prog.pure_eq]
  rw [obeys_update_bind]
  refine ⟨_, .main (.of_eq rfl rfl rfl rfl), ?_⟩
  rw [obeys_bind]
  refine obeys_call.mpr ⟨⟨?_, rfl, h⟩, fun r g w' hlearned hrely => ?_⟩
  · show Aligned w.connection
    rw [h]
    exact bare_nothing.aligned
  have hg : g = .main none w.connection := hlearned
  have hsame : w'.connection = .nothing := (hrely none w.connection hg).trans h
  subst hg
  rw [h, ← hsame]
  cases r with
  | error e =>
    refine ⟨rfl, ?_⟩
    rw [hsame]
    exact bare_nothing
  | ok client =>
    dsimp only
    have hbare : Bare { w'.connection with client := some client, channel := true } := by
      rw [hsame]
      exact ⟨⟨rfl, rfl⟩, rfl⟩
    refine holds_bind (holds_update (.of_eq rfl rfl rfl rfl) hbare) (fun _ hc => hc) ?_
    intro _ w₁ h₁
    refine holds_bind (holds_call trivial haligned h₁) (fun _ hc => hc) fun _ w₂ h₂ => ?_
    refine holds_bind (holds_call trivial haligned h₂) (fun _ hc => hc) fun _ w₃ h₃ => ?_
    rw [obeys_observe_bind]
    split
    · exact ⟨rfl, h₃⟩
    · split
      · exact ⟨rfl, h₃⟩
      · exact ⟨rfl, h₃⟩

theorem holds_connectResolutionChannel (h : Aligned w.connection) :
    Obeys (watch settings) (Holds worker Aligned)
      (connectResolutionChannel settings : Watching bound Unit) (.main worker w.connection) w := by
  have hkeep : ∀ c, Aligned c → Aligned c := fun _ hc => hc
  unfold connectResolutionChannel
  simp only [Prog.bind_eq, Prog.pure_eq]
  rw [obeys_observe_bind]
  split
  · exact ⟨rfl, h⟩
  · refine holds_bind (holds_update (.of_eq rfl rfl rfl rfl) ⟨h.processor, h.database⟩) hkeep ?_
    intro _ w₁ h₁
    refine holds_bind (holds_call trivial hkeep h₁) hkeep fun _ w₂ h₂ => ?_
    refine holds_bind (holds_call trivial hkeep h₂) hkeep fun _ w₃ h₃ => ?_
    rw [obeys_observe_bind]
    split
    · exact ⟨rfl, h₃⟩
    · exact ⟨rfl, h₃⟩

theorem holds_enqueueReconciliation (h : Aligned w.connection) :
    Obeys (watch settings) (Holds worker Aligned)
      (enqueueReconciliation settings : Watching bound Unit) (.main worker w.connection) w := by
  have hkeep : ∀ c, Aligned c → Aligned c := fun _ hc => hc
  have hoffer : ∀ (signals : List Signal) (w' : World bound), Aligned w'.connection →
      Obeys (watch settings) (Holds worker Aligned) (Prog.update (σ := watching bound) fun w =>
        signals.foldl enqueueSignal w) (.main worker w'.connection) w' := by
    intro signals w' haligned
    obtain ⟨hoffers, hsame⟩ := offers_enqueueSignals signals w'
    apply holds_update hoffers
    rw [hsame]
    exact haligned
  unfold enqueueReconciliation
  simp only [Prog.bind_eq]
  rw [obeys_observe_bind]
  split
  · exact ⟨rfl, h⟩
  · refine holds_bind (holds_call trivial hkeep h) hkeep fun resolutions w₁ h₁ => ?_
    refine holds_bind (hoffer _ w₁ h₁) hkeep fun _ w₂ h₂ => ?_
    refine holds_bind (holds_call trivial hkeep h₂) hkeep fun pending w₃ h₃ => ?_
    exact hoffer _ w₃ h₃

theorem holds_connectAgent (h : w.connection = .nothing) :
    Obeys (watch settings) (Holds none Aligned) (connectAgent settings : Watching bound Unit)
      (.main none w.connection) w := by
  have hkeep : ∀ c, Aligned c → Aligned c := fun _ hc => hc
  unfold connectAgent
  simp only [Prog.bind_eq]
  refine holds_bind (holds_connectObserver h) (fun _ hc => hc.aligned) fun _ w₁ h₁ => ?_
  rw [obeys_observe_bind]
  refine holds_bind (holds_update (.of_eq rfl rfl rfl rfl) ⟨.inr rfl, .inl h₁.database⟩) hkeep ?_
  intro _ w₂ h₂
  split
  · exact ⟨rfl, h₂⟩
  · refine holds_bind (holds_update (.of_eq rfl rfl rfl rfl) ⟨h₂.processor, .inr rfl⟩) hkeep ?_
    intro _ w₃ h₃
    refine holds_bind (holds_connectResolutionChannel h₃) hkeep fun _ w₄ h₄ => ?_
    refine holds_bind (holds_enqueueReconciliation h₄) hkeep fun _ w₅ h₅ => ?_
    exact holds_call trivial hkeep h₅

end Obeyed

section Workers

variable {bound : ℕ} {settings : Settings} {w : World bound} {worker : ℕ}

def Busy (worker : ℕ) (_ : Except PyExc Unit) (g : Mode) (_ : World bound) : Prop :=
  g = .busy worker

theorem busy_bind_call {op : Op} {f : op.Reply → Watching bound Unit} (hop : Works op)
    (hf : ∀ a w', Obeys (watch settings) (Busy worker) (f a) (.busy worker) w') :
    Obeys (watch settings) (Busy worker) ((Prog.call (σ := watching bound) op).bind f)
      (.busy worker) w := by
  rw [obeys_bind]
  refine obeys_call.mpr ⟨hop, fun r g w' hlearned _ => ?_⟩
  have hg : g = .busy worker := by
    rw [hlearned]
    cases op <;> first | exact hop.elim | rfl
  subst hg
  cases r with
  | ok a => exact hf a w'
  | error e => rfl

theorem busy_update {f : World bound → World bound} (hf : Offers w (f w))
    (hsame : (f w).connection = w.connection) :
    Obeys (watch settings) (Busy worker) (Prog.update (σ := watching bound) f)
      (.busy worker) w :=
  ⟨_, .work hf hsame, rfl⟩

theorem busy_update_bind {f : World bound → World bound} {k : Unit → Watching bound Unit}
    (hf : Offers w (f w)) (hsame : (f w).connection = w.connection)
    (hk : Obeys (watch settings) (Busy worker) (k ()) (.busy worker) (f w)) :
    Obeys (watch settings) (Busy worker) ((Prog.update (σ := watching bound) f).bind k)
      (.busy worker) w :=
  obeys_update_bind.mpr ⟨_, .work hf hsame, hk⟩

theorem busy_fetchObserved (signal : Signal) :
    Obeys (watch settings) (Busy worker) (fetchObserved signal : Watching bound Unit)
      (.busy worker) w := by
  unfold fetchObserved
  simp only [Prog.bind_eq, Prog.pure_eq]
  rw [obeys_observe_bind]
  split
  · rfl
  · refine busy_bind_call trivial fun data w' => ?_
    split
    · exact busy_update (offers_count _ _) rfl
    · rfl

theorem busy_processSignal (signal : Signal) :
    Obeys (watch settings) (Busy worker) (processSignal signal : Watching bound Unit)
      (.busy worker) w := by
  cases signal with
  | resolution event resolutionId commitTimestamp =>
    refine busy_bind_call trivial fun _ w' => ?_
    exact busy_update (offers_count _ _) rfl
  | failure event failureId commitTimestamp =>
    have hmatch : ∀ w' : World bound, Obeys (watch settings) (Busy worker)
        ((Prog.call (σ := watching bound) (.processFailure failureId)).bind fun _ =>
          (Prog.update (σ := watching bound) (World.notify failureId)).bind fun _ =>
            Prog.update (σ := watching bound) (World.count .fetch)) (.busy worker) w' := by
      intro w'
      refine busy_bind_call trivial fun _ w'' => ?_
      refine busy_update_bind (.of_eq rfl rfl rfl rfl) rfl ?_
      exact busy_update (offers_count _ _) rfl
    refine busy_update_bind (.of_eq rfl rfl rfl rfl) rfl ?_
    refine busy_bind_call trivial fun pending w' => ?_
    cases pending with
    | none => exact hmatch w'
    | some resolutionId => exact busy_bind_call trivial fun _ w'' => hmatch w''

end Workers

section Service

variable {bound : ℕ} {settings : Settings} {service : Service bound} {S : Connection → Prop}
variable {w : World bound}

structure Conforms (settings : Settings) (service : Service bound) (S : Connection → Prop) :
    Prop where
  bare : ∀ c, Bare c → S c
  aligned : ∀ c, S c → Aligned c
  connect : ∀ w, w.connection = .nothing →
    Obeys (watch settings) (Holds none S) service.connect (.main none w.connection) w
  disconnect : ∀ worker w, S w.connection →
    Obeys (watch settings) (Lets worker) service.disconnect (.main worker w.connection) w
  work : ∀ signal worker w,
    Obeys (watch settings) (Busy worker) (service.fetchAndLogSafeRow signal) (.busy worker) w

theorem conforms_observer : Conforms settings (observer settings : Service bound) Bare :=
  ⟨fun _ h => h, fun _ h => h.aligned, fun _ h => holds_connectObserver h,
    fun _ _ h => lets_disconnectObserver h, fun signal _ _ => busy_fetchObserved signal⟩

theorem conforms_agent : Conforms settings (agent settings : Service bound) Aligned :=
  ⟨fun _ h => h.aligned, fun _ h => h, fun _ h => holds_connectAgent h,
    fun _ _ h => lets_disconnectAgent h, fun signal _ _ => busy_processSignal signal⟩

def Idle (worker : ℕ) (_ : Except PyExc Unit) (g : Mode) (_ : World bound) : Prop :=
  g = .idle worker

theorem idle_handleSignal (h : Conforms settings service S) (signal : Signal) (worker : ℕ) :
    Obeys (watch settings) (Idle worker) (handleSignal service signal) (.busy worker) w := by
  unfold handleSignal
  rw [obeys_tryFinally, obeys_tryCatch]
  refine (h.work signal worker w).mono fun r g w' hg => ?_
  have hbusy : g = .busy worker := hg
  subst hbusy
  cases r with
  | ok _ => exact ⟨_, .done, rfl⟩
  | error e =>
    dsimp only
    split
    · exact ⟨_, .done, rfl⟩
    · refine ⟨_, .work (offers_count _ _) rfl, ?_⟩
      exact ⟨_, .done, rfl⟩

theorem idle_takeSignals (h : Conforms settings service S) (fuel worker : ℕ) :
    Obeys (watch settings) (Idle worker) (takeSignals service fuel) (.idle worker) w := by
  induction fuel generalizing w with
  | zero => trivial
  | succ fuel ih =>
    unfold takeSignals
    simp only [Prog.bind_eq]
    rw [obeys_bind]
    refine obeys_call.mpr ⟨rfl, fun r g w' hlearned _ => ?_⟩
    cases r with
    | error e => exact hlearned
    | ok signal =>
      have hg : g = .busy worker := hlearned
      subst hg
      dsimp only
      rw [obeys_bind]
      refine (idle_handleSignal h signal worker).mono fun r g w'' hidle => ?_
      have hg : g = .idle worker := hidle
      subst hg
      cases r with
      | ok _ => exact ih
      | error e => rfl

theorem ends_fetchWorker (h : Conforms settings service S) (fuel worker : ℕ) :
    Obeys (watch settings) (fun r g _ => Ends r g) (fetchWorker service fuel worker)
      (.waiting worker) w := by
  unfold fetchWorker
  rw [Prog.bind_eq, obeys_bind]
  refine obeys_call.mpr ⟨rfl, fun r g w' hlearned _ => ?_⟩
  cases r with
  | error e =>
    have hg : g = .ended := hlearned
    subst hg
    trivial
  | ok _ =>
    have hg : g = .idle worker := hlearned
    subst hg
    show Obeys _ _ (Prog.tryFinally _ _) _ _
    rw [obeys_tryFinally]
    refine (idle_takeSignals h fuel worker).mono fun r g w'' hidle => ?_
    have hg : g = .idle worker := hidle
    subst hg
    exact ⟨_, .finish, trivial⟩

/-- The worker is given up with its end, or the wait for it is interrupted. -/
def Gathers (worker : ℕ) (S : Connection → Prop) (r : Except PyExc Unit) (g : Mode)
    (w : World bound) : Prop :=
  S w.connection ∧ (g = .main none w.connection ∨
    g = .main (some worker) w.connection ∧ r.isOk = false)

theorem gathers_stopFetchWorker (hS : ∀ c, S c → Aligned c) (hw : S w.connection)
    (worker : ℕ) :
    Obeys (watch settings) (Gathers worker S) (stopFetchWorker settings worker)
      (.main (some worker) w.connection) w := by
  unfold stopFetchWorker
  rw [Prog.bind_eq, obeys_bind]
  have hjoin : (Prog.tryCatch (Prog.call (σ := watching bound)
      (.joinQueue settings.shutdownTimeoutSeconds))
      fun e => if e.cls = .timeout then Prog.ret () else .raise e).Awaits Plain := by
    refine .tryCatch (.call trivial) fun e => ?_
    split <;> trivial
  refine (holds_awaits hjoin hS hw).mono fun r g w₁ hpost => ?_
  obtain ⟨rfl, h₁⟩ := hpost
  cases r with
  | error e => exact ⟨h₁, .inr ⟨rfl, rfl⟩⟩
  | ok _ =>
    refine obeys_call.mpr ⟨⟨hS _ h₁, rfl⟩, fun r g w₂ hlearned hrely => ?_⟩
    cases r with
    | ok _ =>
      have hg : g = .main none w₁.connection := hlearned
      have hsame : w₂.connection = w₁.connection := hrely none w₁.connection hg
      refine ⟨?_, .inl ?_⟩
      · rw [hsame]
        exact h₁
      · rw [hg, hsame]
    | error e =>
      have hg : g = .main (some worker) w₁.connection := hlearned
      have hsame : w₂.connection = w₁.connection := hrely (some worker) w₁.connection hg
      refine ⟨?_, .inr ⟨?_, rfl⟩⟩
      · rw [hsame]
        exact h₁
      · rw [hg, hsame]

theorem holds_waitUntilStoppedOrDisconnected (hS : ∀ c, S c → Aligned c) (hw : S w.connection)
    (worker : Option ℕ) (fuel : ℕ) (since : Option ℚ) :
    Obeys (watch settings) (Holds worker S)
      (waitUntilStoppedOrDisconnected service settings fuel since)
      (.main worker w.connection) w := by
  have hkeep : ∀ c, S c → S c := fun _ hc => hc
  induction fuel generalizing w since with
  | zero => trivial
  | succ fuel ih =>
    unfold waitUntilStoppedOrDisconnected
    simp only [Prog.bind_eq, Prog.pure_eq]
    rw [obeys_observe_bind]
    split_ifs
    · exact ⟨rfl, hw⟩
    · exact ⟨rfl, hw⟩
    · refine holds_bind (holds_update (.of_eq rfl rfl rfl rfl) hw) hkeep fun _ w₁ h₁ => ?_
      refine holds_bind (holds_call trivial hS h₁) hkeep fun _ w₂ h₂ => ?_
      exact ih h₂ none
    · refine holds_bind (holds_update (.of_eq rfl rfl rfl rfl) hw) hkeep fun _ w₁ h₁ => ?_
      exact ⟨rfl, h₁⟩
    · refine holds_bind (holds_update (.of_eq rfl rfl rfl rfl) hw) hkeep fun _ w₁ h₁ => ?_
      refine holds_bind (holds_call trivial hS h₁) hkeep fun _ w₂ h₂ => ?_
      exact ih h₂ _

theorem holds_noteDisconnected (hw : S w.connection) (worker : Option ℕ) (e : PyExc) :
    Obeys (watch settings) (Holds worker S) (noteDisconnected e) (.main worker w.connection) w := by
  unfold noteDisconnected
  split
  · exact ⟨rfl, hw⟩
  · exact holds_update (.of_eq rfl rfl rfl rfl) hw

def Remains (S : Connection → Prop) {α : Type} (r : Except PyExc α) (g : Mode) (w : World bound) :
    Prop := ∃ worker, Holds worker S r g w

/-- A connection that was cleaned up leaves nothing behind and a delay for the next. -/
def Concludes (settings : Settings) (S : Connection → Prop) :
    Except PyExc ℚ → Mode → World bound → Prop
  | .ok delay, g, w => g = .main none w.connection ∧ w.connection = .nothing ∧
      Delay settings delay
  | .error e, g, w => Remains S (.error e : Except PyExc ℚ) g w

/-- The delays of the settings, as they are checked when the service starts. -/
structure Delayed (settings : Settings) : Prop where
  initial : 0 < settings.reconnectInitialSeconds
  maximum : 0 < settings.reconnectMaxSeconds

theorem Delayed.first (settings : Settings) : Delay settings settings.reconnectInitialSeconds :=
  ⟨min_le_left _ _, le_max_left _ _⟩

theorem Delayed.next (h : Delayed settings) {delay : ℚ} (hdelay : Delay settings delay) :
    Delay settings (min (delay * 2) settings.reconnectMaxSeconds) := by
  obtain ⟨hlow, hhigh⟩ := hdelay
  have hpositive : 0 < min settings.reconnectInitialSeconds settings.reconnectMaxSeconds :=
    lt_min h.initial h.maximum
  refine ⟨le_min ?_ (min_le_right _ _), (min_le_right _ _).trans (le_max_right _ _)⟩
  linarith

def Cleaned (S : Connection → Prop) (r : Except PyExc Unit) (g : Mode) (w : World bound) : Prop :=
  Remains S r g w ∧ (r.isOk = true → g = .main none w.connection ∧ w.connection = .nothing)

/-- After a cleanup the connection has concluded the way its body ended. -/
theorem Cleaned.concludes {r' : Except PyExc Unit} {g : Mode} (h : Cleaned S r' g w) {delay : ℚ}
    (hdelay : Delay settings delay) (r : Except PyExc Unit) :
    (∀ e, r' = .error e → Concludes settings S (.error e) g w) ∧
      (r' = .ok () → (r = .ok () → Concludes settings S (.ok delay) g w) ∧
        ∀ e, r = .error e → Concludes settings S (.error e) g w) := by
  obtain ⟨hremains, hclean⟩ := h
  refine ⟨fun e _ => hremains, fun hr' => ⟨fun _ => ?_, fun e _ => hremains⟩⟩
  obtain ⟨hg, hw⟩ := hclean (by rw [hr']; rfl)
  exact ⟨hg, hw, hdelay⟩

theorem cleaned_disconnect (h : Conforms settings service S) (hw : S w.connection) :
    Obeys (watch settings) (Cleaned S) service.disconnect (.main none w.connection) w := by
  refine (h.disconnect none w hw).mono fun r g w' hdone => ?_
  obtain ⟨⟨hg, hbare⟩, hnothing⟩ := hdone
  exact ⟨⟨none, hg, h.bare _ hbare⟩, fun hr => ⟨hg, hnothing hr⟩⟩

/-- The worker is ended before the client is let go. -/
theorem cleaned_worker (h : Conforms settings service S) (hw : S w.connection) (worker : ℕ) :
    Obeys (watch settings) (Cleaned S)
      ((stopFetchWorker settings worker).bind fun _ => service.disconnect)
      (.main (some worker) w.connection) w := by
  rw [obeys_bind]
  refine (gathers_stopFetchWorker h.aligned hw worker).mono fun r g w' hgathers => ?_
  obtain ⟨hS, hmode⟩ := hgathers
  cases r with
  | error e =>
    refine ⟨?_, fun hr => by cases hr⟩
    rcases hmode with rfl | ⟨rfl, -⟩
    · exact ⟨none, rfl, hS⟩
    · exact ⟨some worker, rfl, hS⟩
  | ok _ =>
    rcases hmode with rfl | ⟨-, hfailed⟩
    · exact cleaned_disconnect h hS
    · cases hfailed

theorem concludes_connection (h : Conforms settings service S) (fuel : ℕ) {retryDelay : ℚ}
    (hdelay : Delay settings retryDelay) (hw : w.connection = .nothing) :
    Obeys (watch settings) (Concludes settings S) (connection service settings fuel retryDelay)
      (.main none w.connection) w := by
  unfold connection
  simp only [Prog.bind_eq, Prog.pure_eq]
  rw [obeys_bind, obeys_attempt]
  refine (h.connect w hw).mono fun r g w₁ hpost => ?_
  obtain ⟨rfl, h₁⟩ := hpost
  cases r with
  | error e =>
    dsimp only
    rw [obeys_bind, obeys_finallyDo]
    refine (holds_noteDisconnected h₁ none e).mono fun r g w₂ hpost => ?_
    obtain ⟨rfl, h₂⟩ := hpost
    refine (cleaned_disconnect h h₂).mono fun r' g w₃ hdone => ?_
    have hends := hdone.concludes hdelay r
    cases r' with
    | error e' => exact hends.1 e' rfl
    | ok _ =>
      cases r with
      | error e' => exact (hends.2 rfl).2 e' rfl
      | ok _ => exact (hends.2 rfl).1 rfl
  | ok _ =>
    have hfirst := Delayed.first settings
    dsimp only
    rw [obeys_observe_bind, obeys_update_bind]
    refine ⟨_, .create, ?_⟩
    rw [obeys_bind, obeys_finallyDo, obeys_tryCatch]
    refine (holds_waitUntilStoppedOrDisconnected (w := w₁.createWorker) h.aligned h₁
      (some w₁.workers.length) fuel none).mono fun r g w₂ hpost => ?_
    obtain ⟨rfl, h₂⟩ := hpost
    cases r with
    | ok _ =>
      refine (cleaned_worker h h₂ w₁.workers.length).mono fun r' g w₃ hdone => ?_
      have hends := hdone.concludes hfirst (.ok ())
      cases r' with
      | error e' => exact hends.1 e' rfl
      | ok _ => exact (hends.2 rfl).1 rfl
    | error e =>
      refine (holds_noteDisconnected h₂ (some w₁.workers.length) e).mono fun r g w₃ hpost => ?_
      obtain ⟨rfl, h₃⟩ := hpost
      refine (cleaned_worker h h₃ w₁.workers.length).mono fun r' g w₄ hdone => ?_
      have hends := hdone.concludes hfirst r
      cases r' with
      | error e' => exact hends.1 e' rfl
      | ok _ =>
        cases r with
        | error e' => exact (hends.2 rfl).2 e' rfl
        | ok _ => exact (hends.2 rfl).1 rfl

theorem remains_connectAgain (h : Conforms settings service S) (hdelayed : Delayed settings)
    (fuel : ℕ) {retryDelay : ℚ} (hdelay : Delay settings retryDelay)
    (hw : w.connection = .nothing) :
    Obeys (watch settings) (Remains S) (connectAgain service settings fuel retryDelay)
      (.main none w.connection) w := by
  have hnothing : ∀ {w' : World bound}, w'.connection = .nothing → S w'.connection := by
    intro w' hw'
    rw [hw']
    exact h.bare _ bare_nothing
  induction fuel generalizing w retryDelay with
  | zero => trivial
  | succ fuel ih =>
    unfold connectAgain
    simp only [Prog.bind_eq, Prog.pure_eq]
    rw [obeys_observe_bind]
    split
    · exact ⟨none, rfl, hnothing hw⟩
    · rw [obeys_bind]
      refine (concludes_connection h fuel hdelay hw).mono fun r g w₁ hpost => ?_
      cases r with
      | error e => exact hpost
      | ok delay =>
        obtain ⟨rfl, h₁, hnext⟩ := hpost
        dsimp only
        rw [obeys_observe_bind]
        split
        · exact ⟨none, rfl, hnothing h₁⟩
        · rw [obeys_update_bind]
          refine ⟨_, .main (offers_count _ _), ?_⟩
          rw [obeys_bind]
          refine obeys_call.mpr ⟨⟨h.aligned _ (hnothing h₁), rfl, h₁, hnext⟩, ?_⟩
          intro r g w₂ hlearned hrely
          have hg : g = .main none w₁.connection := hlearned
          have hsame : w₂.connection = w₁.connection := hrely none w₁.connection hg
          have h₂ : w₂.connection = .nothing := hsame.trans h₁
          rw [hg, ← hsame]
          cases r with
          | error e => exact ⟨none, rfl, hnothing h₂⟩
          | ok _ => exact ih (hdelayed.next hnext) h₂

theorem remains_runObserver (h : Conforms settings service S) (hdelayed : Delayed settings)
    (fuel : ℕ) (hw : w.connection = .nothing) :
    Obeys (watch settings) (Remains Bare) (runObserver service settings fuel)
      (.main none w.connection) w := by
  unfold runObserver
  simp only [Prog.bind_eq]
  rw [obeys_update_bind]
  refine ⟨_, .main (.of_eq rfl rfl rfl rfl), ?_⟩
  rw [obeys_finallyDo]
  refine (remains_connectAgain h hdelayed fuel (Delayed.first settings)
    (w := { w with running := true }) hw).mono fun r g w₁ hpost => ?_
  obtain ⟨worker, rfl, h₁⟩ := hpost
  rw [obeys_update_bind]
  refine ⟨_, .main (.of_eq rfl rfl rfl rfl), ?_⟩
  refine (h.disconnect worker { w₁ with running := false, connected := false } h₁).mono ?_
  intro r' g w₂ hdone
  cases r' with
  | ok _ => exact ⟨worker, hdone.1⟩
  | error e => exact ⟨worker, hdone.1⟩

theorem Remains.ends {r : Except PyExc Unit} {g : Mode} (h : Remains Bare r g w) : Ends r g := by
  obtain ⟨worker, rfl, hbare⟩ := h
  exact hbare.toReleased

theorem remains_runAgent (hdelayed : Delayed settings) (fuel : ℕ) (hw : w.connection = .nothing) :
    Obeys (watch settings) (Remains Bare) (runAgent settings fuel)
      (.main none w.connection) w := by
  have haligned : ∀ c, Bare c → Aligned c := fun _ hc => hc.aligned
  unfold runAgent
  rw [obeys_finallyDo]
  refine (remains_runObserver conforms_agent hdelayed fuel hw).mono fun r g w₁ hpost => ?_
  obtain ⟨worker, rfl, h₁⟩ := hpost
  have hstop : Obeys (watch settings) (Holds worker Bare)
      ((Prog.call (σ := watching bound) .stopCoordinator).bind fun _ =>
        Prog.call (σ := watching bound) .closeProcessor) (.main worker w₁.connection) w₁ := by
    refine holds_bind (holds_call trivial haligned h₁) (fun _ hc => hc) fun _ w₂ h₂ => ?_
    exact holds_call trivial haligned h₂
  refine hstop.mono fun r' g w₂ hdone => ?_
  cases r' with
  | ok _ => exact ⟨worker, hdone⟩
  | error e => exact ⟨worker, hdone⟩

end Service

section Modes

variable {bound : ℕ} {t : List (Label (watching bound))} {mode mode' : ℕ → Mode}
variable {w w' : World bound} {i worker : ℕ} {g g' : Mode}

/-- How the tasks fit together: the worker that has not ended is the one the main
task has to wait for, one task at most runs it, and what the queue has taken in was
handed out in order or is still there. -/
structure Table (t : List (Label (watching bound))) (mode : ℕ → Mode) (w : World bound) :
    Prop where
  main : ∀ i worker held, mode i = .main worker held → i = 0 ∧ w.connection = held
  child : ∀ n phase, w.workers[n]? = some phase → phase ≠ .ended →
    ∃ held, mode 0 = .main (some n) held
  live : ∀ i n, (mode i).live = some n → w.workers[n]? = some .running
  sole : ∀ i j n m, (mode i).live = some n → (mode j).live = some m → i = j
  accepted : w.accepted = t.filterMap takenSignal ++ w.queue.items
  free : (∀ i n, mode i ≠ .busy n) → w.unfinished = w.queue.items.length
  inHand : ∀ i n, mode i = .busy n → w.unfinished = w.queue.items.length + 1

structure Moves (mode : ℕ → Mode) (i : ℕ) (g g' : Mode) (mode' : ℕ → Mode) : Prop where
  before : mode i = g
  after : mode' i = g'
  others : ∀ j, j ≠ i → mode' j = mode j

theorem moves_update : Moves (Function.update mode i g) i g g' (Function.update mode i g') := by
  refine ⟨Function.update_self .., Function.update_self .., fun j hj => ?_⟩
  rw [Function.update_of_ne hj, Function.update_of_ne hj]

theorem Moves.stay (h : mode i = g) : Moves mode i g g' (Function.update mode i g') :=
  ⟨h, Function.update_self .., fun _ hj => Function.update_of_ne hj ..⟩

theorem Moves.live (h : Moves mode i g g' mode') (hlive : g'.live = none ∨ g'.live = g.live)
    {j n : ℕ} (hj : (mode' j).live = some n) : (mode j).live = some n := by
  by_cases hij : j = i
  · subst hij
    rw [h.after] at hj
    rw [h.before]
    rcases hlive with hnone | hsame
    · rw [hnone] at hj
      cases hj
    · rwa [hsame] at hj
  · rwa [← h.others j hij]

theorem busy_live (h : mode i = .busy worker) : (mode i).live = some worker := by
  rw [h]
  rfl

/-- The main task changes its mode, and offers signals to the queue. -/
theorem Table.main_moves {child child' : Option ℕ} {held held' : Connection}
    (h : Table t mode w) (hmoves : Moves mode i (.main child held) (.main child' held') mode')
    (hheld : w'.connection = held')
    (hworkers : ∀ n phase, w'.workers[n]? = some phase → phase ≠ .ended → child' = some n)
    (hrunning : ∀ n : ℕ, w.workers[n]? = some WorkerPhase.running →
      w'.workers[n]? = some WorkerPhase.running)
    (hsignals : ∃ signals, w'.queue.items = w.queue.items ++ signals ∧
      w'.unfinished = w.unfinished + signals.length ∧ w'.accepted = w.accepted ++ signals) :
    Table t mode' w' := by
  obtain ⟨signals, hitems, hunfinished, haccepted⟩ := hsignals
  obtain ⟨hzero, -⟩ := h.main i child held hmoves.before
  have hlive : ∀ {j n : ℕ}, (mode' j).live = some n → (mode j).live = some n :=
    fun hj => hmoves.live (.inl rfl) hj
  have hbusy : ∀ j n, mode' j = .busy n ↔ mode j = .busy n := by
    intro j n
    by_cases hij : j = i
    · rw [hij, hmoves.after, hmoves.before]
      exact iff_of_false (fun heq => by cases heq) fun heq => by cases heq
    · rw [hmoves.others j hij]
  refine ⟨fun j child'' held'' hj => ?_, fun n phase hn hphase => ?_, fun j n hj => ?_,
    fun j k n m hj hk => ?_, ?_, fun hfree => ?_, fun j n hj => ?_⟩
  · by_cases hij : j = i
    · rw [hij, hmoves.after, Mode.main.injEq] at hj
      exact ⟨hij.trans hzero, hheld.trans hj.2⟩
    · rw [hmoves.others j hij] at hj
      exact absurd ((h.main j _ _ hj).1.trans hzero.symm) hij
  · refine ⟨held', ?_⟩
    rw [← hzero, hmoves.after, hworkers n phase hn hphase]
  · exact hrunning n (h.live j n (hlive hj))
  · exact h.sole j k n m (hlive hj) (hlive hk)
  · rw [haccepted, h.accepted, hitems, List.append_assoc]
  · have hold := h.free fun j n hj => hfree j n ((hbusy j n).mpr hj)
    rw [hunfinished, hold, hitems, List.length_append]
  · have hold := h.inHand j n ((hbusy j n).mp hj)
    rw [hunfinished, hold, hitems, List.length_append]
    omega

/-- A worker comes to an end. -/
theorem Table.worker_ends (h : Table t mode w) (hmoves : Moves mode i g .ended mode')
    (hg : g = .idle worker ∨
      g = .waiting worker ∧ w.workers[worker]? = some .scheduled) :
    Table t mode' (w.endWorker worker) := by
  have hold : ∃ phase, w.workers[worker]? = some phase := by
    rcases hg with rfl | ⟨-, hscheduled⟩
    · exact ⟨_, h.live i worker (by rw [hmoves.before]; rfl)⟩
    · exact ⟨_, hscheduled⟩
  obtain ⟨phase, hphase⟩ := hold
  have hbound : worker < w.workers.length := (List.getElem?_eq_some_iff.mp hphase).1
  have hself : (w.endWorker worker).workers[worker]? = some .ended :=
    List.getElem?_set_self hbound
  have hother : ∀ n, n ≠ worker → (w.endWorker worker).workers[n]? = w.workers[n]? :=
    fun n hn => List.getElem?_set_ne (Ne.symm hn)
  have hplain : ∀ child held, g ≠ .main child held := by
    intro child held heq
    rcases hg with rfl | ⟨rfl, -⟩ <;> cases heq
  have hnotbusy : ∀ n, g ≠ .busy n := by
    intro n heq
    rcases hg with rfl | ⟨rfl, -⟩ <;> cases heq
  have hlive : ∀ {j n : ℕ}, (mode' j).live = some n → (mode j).live = some n :=
    fun hj => hmoves.live (.inl rfl) hj
  have hnot : ∀ j n, (mode' j).live = some n → j ≠ i := by
    intro j n hj hij
    rw [hij, hmoves.after] at hj
    cases hj
  have hbusy : ∀ j n, mode' j = .busy n ↔ mode j = .busy n := by
    intro j n
    by_cases hij : j = i
    · rw [hij, hmoves.after, hmoves.before]
      exact iff_of_false (fun heq => by cases heq) (hnotbusy n)
    · rw [hmoves.others j hij]
  refine ⟨fun j child held hj => ?_, fun n phase' hn hphase' => ?_, fun j n hj => ?_,
    fun j k n m hj hk => h.sole j k n m (hlive hj) (hlive hk), h.accepted, fun hfree => ?_,
    fun j n hj => ?_⟩
  · have hij : j ≠ i := by
      intro hij
      rw [hij, hmoves.after] at hj
      cases hj
    rw [hmoves.others j hij] at hj
    exact h.main j child held hj
  · have hne : n ≠ worker := by
      intro heq
      rw [heq, hself, Option.some.injEq] at hn
      exact hphase' hn.symm
    rw [hother n hne] at hn
    obtain ⟨held, hmain⟩ := h.child n phase' hn hphase'
    have hzero : 0 ≠ i := by
      intro hzero
      rw [hzero, hmoves.before] at hmain
      exact hplain _ _ hmain
    exact ⟨held, (hmoves.others 0 hzero).trans hmain⟩
  · have hrunning := h.live j n (hlive hj)
    have hne : n ≠ worker := by
      intro heq
      rcases hg with rfl | ⟨-, hscheduled⟩
      · exact hnot j n hj (h.sole j i n worker (hlive hj) (by rw [hmoves.before]; rfl))
      · rw [heq, hscheduled] at hrunning
        cases hrunning
    rw [hother n hne]
    exact hrunning
  · exact h.free fun j n hj => hfree j n ((hbusy j n).mpr hj)
  · exact h.inHand j n ((hbusy j n).mp hj)

theorem Table.act (h : Table t (Function.update mode i g) w) (hact : Act g w g' w') :
    Table t (Function.update mode i g') w' := by
  have hmoves : Moves (Function.update mode i g) i g g' (Function.update mode i g') := moves_update
  cases hact with
  | @main _ _ worker held hoffers =>
    obtain ⟨hzero, -⟩ := h.main i worker held hmoves.before
    refine h.main_moves hmoves rfl (fun n phase hn hphase => ?_) (fun n hn => ?_) hoffers.signals
    · rw [hoffers.workers] at hn
      obtain ⟨held', hmain⟩ := h.child n phase hn hphase
      rw [← hzero, hmoves.before, Mode.main.injEq] at hmain
      exact hmain.1
    · rw [hoffers.workers]
      exact hn
  | @create _ held =>
    obtain ⟨hzero, hheld⟩ := h.main i none held hmoves.before
    refine h.main_moves hmoves hheld (fun n phase hn hphase => ?_) (fun n hn => ?_)
      ⟨[], (List.append_nil _).symm, rfl, (List.append_nil _).symm⟩
    · show some w.workers.length = some n
      change (w.workers ++ [WorkerPhase.scheduled])[n]? = some phase at hn
      by_cases hlast : n < w.workers.length
      · rw [List.getElem?_append_left hlast] at hn
        obtain ⟨held', hmain⟩ := h.child n phase hn hphase
        rw [← hzero, hmoves.before] at hmain
        cases hmain
      · have hlength := (List.getElem?_eq_some_iff.mp hn).1
        rw [List.length_append, List.length_singleton] at hlength
        have heq : w.workers.length = n := by omega
        rw [heq]
    · show (w.workers ++ [WorkerPhase.scheduled])[n]? = some .running
      rw [List.getElem?_append_left (List.getElem?_eq_some_iff.mp hn).1]
      exact hn
  | work hoffers hsame =>
    obtain ⟨signals, hitems, hunfinished, haccepted⟩ := hoffers.signals
    refine ⟨fun j child held hj => ?_, fun n phase hn hphase => ?_, fun j n hj => ?_, h.sole, ?_,
      fun hfree => ?_, fun j n hj => ?_⟩
    · rw [hsame]
      exact h.main j child held hj
    · rw [hoffers.workers] at hn
      exact h.child n phase hn hphase
    · rw [hoffers.workers]
      exact h.live j n hj
    · rw [haccepted, h.accepted, hitems, List.append_assoc]
    · rw [hunfinished, h.free hfree, hitems, List.length_append]
    · rw [hunfinished, h.inHand j n hj, hitems, List.length_append]
      omega
  | @done _ worker =>
    have hbusy := h.inHand i worker hmoves.before
    have hmine := busy_live hmoves.before
    have hlive : ∀ {j n : ℕ}, (Function.update mode i (.idle worker) j).live = some n →
        (Function.update mode i (.busy worker) j).live = some n :=
      fun hj => hmoves.live (.inr rfl) hj
    have hcount : w.unfinished - 1 = w.queue.items.length := by omega
    refine ⟨fun j child held hj => ?_, fun n phase hn hphase => ?_,
      fun j n hj => h.live j n (hlive hj),
      fun j k n m hj hk => h.sole j k n m (hlive hj) (hlive hk),
      h.accepted, fun _ => hcount, fun j n hj => ?_⟩
    · have hij : j ≠ i := by
        intro hij
        rw [hij, hmoves.after] at hj
        cases hj
      rw [hmoves.others j hij] at hj
      exact h.main j child held hj
    · obtain ⟨held, hmain⟩ := h.child n phase hn hphase
      have hzero : 0 ≠ i := by
        intro hzero
        rw [hzero, hmoves.before] at hmain
        cases hmain
      exact ⟨held, (hmoves.others 0 hzero).trans hmain⟩
    · have hij : j = i := h.sole j i n worker (hlive (busy_live hj)) hmine
      rw [hij, hmoves.after] at hj
      cases hj
  | @finish _ worker => exact h.worker_ends hmoves (.inl rfl)

/-- A task that has nothing to do with the main task or with a signal. -/
def Mode.Outer : Mode → Prop
  | .waiting _ => True
  | .ended => True
  | _ => False

theorem Table.outer (h : Table t mode w) (hmoves : Moves mode i g g' mode') (hg : g.Outer)
    (hg' : g'.Outer) : Table t mode' w := by
  have hlive : ∀ {j n : ℕ}, (mode' j).live = some n → (mode j).live = some n := by
    intro j n hj
    refine hmoves.live (.inl ?_) hj
    cases g' <;> first | exact hg'.elim | rfl
  have hplain : ∀ child held, g ≠ .main child held := by
    rintro child held rfl
    exact hg
  have hplain' : ∀ child held, g' ≠ .main child held := by
    rintro child held rfl
    exact hg'
  have hbusy : ∀ j n, mode' j = .busy n ↔ mode j = .busy n := by
    intro j n
    by_cases hij : j = i
    · rw [hij, hmoves.after, hmoves.before]
      refine iff_of_false ?_ ?_
      · rintro rfl
        exact hg'
      · rintro rfl
        exact hg
    · rw [hmoves.others j hij]
  refine ⟨fun j child held hj => ?_, fun n phase hn hphase => ?_,
    fun j n hj => h.live j n (hlive hj), fun j k n m hj hk => h.sole j k n m (hlive hj) (hlive hk),
    h.accepted, fun hfree => h.free fun j n hj => hfree j n ((hbusy j n).mpr hj),
    fun j n hj => h.inHand j n ((hbusy j n).mp hj)⟩
  · have hij : j ≠ i := by
      intro hij
      rw [hij, hmoves.after] at hj
      exact hplain' _ _ hj
    rw [hmoves.others j hij] at hj
    exact h.main j child held hj
  · obtain ⟨held, hmain⟩ := h.child n phase hn hphase
    have hzero : 0 ≠ i := by
      intro hzero
      rw [hzero, hmoves.before] at hmain
      exact hplain _ _ hmain
    exact ⟨held, (hmoves.others 0 hzero).trans hmain⟩

/-- A label that hands nothing out. -/
theorem Table.extend (h : Table t mode w) {l : Label (watching bound)}
    (hl : takenSignal l = none) : Table (t ++ [l]) mode w := by
  refine ⟨h.main, h.child, h.live, h.sole, ?_, h.free, h.inHand⟩
  have hnothing : [l].filterMap takenSignal = [] := by
    rw [List.filterMap_cons_none hl, List.filterMap_nil]
  rw [List.filterMap_append, hnothing, List.append_nil]
  exact h.accepted

/-- A task that begins is the only one that runs a worker: the worker the main task
has to wait for was not running yet. -/
theorem Table.begins (h : Table t mode w) (hmode : mode i = .waiting worker)
    (hscheduled : w.workers[worker]? = some .scheduled) :
    Table t (Function.update mode i (.idle worker))
      { w with workers := w.workers.set worker .running } := by
  have hmoves : Moves mode i (.waiting worker) (.idle worker)
      (Function.update mode i (.idle worker)) := .stay hmode
  have hbound : worker < w.workers.length := (List.getElem?_eq_some_iff.mp hscheduled).1
  have hself : (w.workers.set worker .running)[worker]? = some .running :=
    List.getElem?_set_self hbound
  obtain ⟨held, hmain⟩ := h.child worker _ hscheduled (fun heq => by cases heq)
  have hzero : 0 ≠ i := by
    intro hzero
    rw [hzero, hmode] at hmain
    cases hmain
  have hnone : ∀ j n, (mode j).live ≠ some n := by
    intro j n hj
    have hrunning := h.live j n hj
    obtain ⟨held', hmain'⟩ := h.child n _ hrunning (fun heq => by cases heq)
    rw [hmain, Mode.main.injEq, Option.some.injEq] at hmain'
    rw [← hmain'.1, hscheduled] at hrunning
    cases hrunning
  have honly : ∀ {j n : ℕ}, (Function.update mode i (.idle worker) j).live = some n →
      j = i ∧ n = worker := by
    intro j n hj
    by_cases hij : j = i
    · rw [hij, hmoves.after] at hj
      exact ⟨hij, (Option.some.inj hj).symm⟩
    · rw [hmoves.others j hij] at hj
      exact absurd hj (hnone j n)
  refine ⟨fun j child held hj => ?_, fun n phase hn hphase => ?_, fun j n hj => ?_,
    fun j k n m hj hk => ?_, h.accepted, fun _ => ?_, fun j n hj => ?_⟩
  · have hij : j ≠ i := by
      intro hij
      rw [hij, hmoves.after] at hj
      cases hj
    rw [hmoves.others j hij] at hj
    exact h.main j child held hj
  · by_cases hne : n = worker
    · rw [hne]
      exact ⟨held, (hmoves.others 0 hzero).trans hmain⟩
    · change (w.workers.set worker .running)[n]? = some phase at hn
      rw [List.getElem?_set_ne (Ne.symm hne)] at hn
      obtain ⟨held', hmain'⟩ := h.child n phase hn hphase
      exact ⟨held', (hmoves.others 0 hzero).trans hmain'⟩
  · rw [(honly hj).2]
    exact hself
  · exact (honly hj).1.trans (honly hk).1.symm
  · exact h.free fun j n hj => hnone j n (busy_live hj)
  · rw [(honly (busy_live hj)).1, hmoves.after] at hj
    cases hj

/-- The oldest signal goes to the only task that runs. -/
theorem Table.takes (h : Table t mode w) (hmode : mode i = .idle worker) {signal : Signal}
    {queue : Queue Signal bound} (hpoll : w.queue.poll = some (signal, queue)) :
    Table (t ++ [.resume i .nextSignal (.ok signal)]) (Function.update mode i (.busy worker))
      { w with queue := queue } := by
  have hmoves : Moves mode i (.idle worker) (.busy worker)
      (Function.update mode i (.busy worker)) := .stay hmode
  have hitems := items_poll hpoll
  have hlive : ∀ {j n : ℕ}, (Function.update mode i (.busy worker) j).live = some n →
      (mode j).live = some n := fun hj => hmoves.live (.inr rfl) hj
  have hmine : (mode i).live = some worker := by
    rw [hmode]
    rfl
  have hfree : w.unfinished = w.queue.items.length := by
    refine h.free fun j n hj => ?_
    rw [h.sole j i n worker (busy_live hj) hmine, hmode] at hj
    cases hj
  refine ⟨fun j child held hj => ?_, fun n phase hn hphase => ?_,
    fun j n hj => h.live j n (hlive hj), fun j k n m hj hk => h.sole j k n m (hlive hj) (hlive hk),
    ?_, fun hnone => ?_, fun j n _ => ?_⟩
  · have hij : j ≠ i := by
      intro hij
      rw [hij, hmoves.after] at hj
      cases hj
    rw [hmoves.others j hij] at hj
    exact h.main j child held hj
  · obtain ⟨held, hmain⟩ := h.child n phase hn hphase
    have hzero : 0 ≠ i := by
      intro hzero
      rw [hzero, hmode] at hmain
      cases hmain
    exact ⟨held, (hmoves.others 0 hzero).trans hmain⟩
  · show w.accepted = _ ++ queue.items
    rw [h.accepted, hitems, List.filterMap_append, List.append_assoc]
    rfl
  · exact absurd hmoves.after (hnone i worker)
  · show w.unfinished = queue.items.length + 1
    rw [hfree, hitems, List.length_cons]

/-- The worker that was waited for has ended, and no other is left. -/
theorem Table.gathered (h : Table t mode w) {held : Connection}
    (hmode : mode i = .main (some worker) held) (hended : w.workers[worker]? = some .ended) :
    Table t (Function.update mode i (.main none held)) w := by
  obtain ⟨hzero, hheld⟩ := h.main i _ held hmode
  refine h.main_moves (.stay hmode) hheld (fun n phase hn hphase => ?_) (fun n hn => hn)
    ⟨[], (List.append_nil _).symm, rfl, (List.append_nil _).symm⟩
  obtain ⟨held', hmain⟩ := h.child n phase hn hphase
  rw [← hzero, hmode, Mode.main.injEq, Option.some.injEq] at hmain
  rw [← hmain.1, hended, Option.some.injEq] at hn
  exact absurd hn.symm hphase

/-- What an await does to the state as a step of its task. -/
theorem Table.answer {settings : Settings} {op : Op} {r : Except PyExc op.Reply}
    (h : Table t mode w) (hrequest : Permitted settings (mode i) op)
    (hawait : AwaitStep w op r w') :
    Table (t ++ [.resume i op r]) (Function.update mode i ((mode i).after op r)) w' := by
  have hstay : ∀ (l : Label (watching bound)) (g : Mode), takenSignal l = none → w' = w →
      g = mode i → Table (t ++ [l]) (Function.update mode i g) w' := by
    rintro l g hl rfl rfl
    rw [Function.update_eq_self]
    exact h.extend hl
  cases hmode : mode i with
  | main child held =>
    rw [hmode] at hrequest
    obtain ⟨-, hpermitted⟩ := hrequest
    cases op
    case gatherWorker n =>
      have hchild : child = some n := hpermitted
      cases r with
      | ok _ =>
        obtain ⟨hended, rfl⟩ := hawait
        exact (h.extend rfl).gathered (hmode.trans (by rw [hchild])) hended
      | error e =>
        exact hstay _ _ rfl hawait hmode.symm
    case begin => exact hpermitted.elim
    case nextSignal => exact hpermitted.elim
    all_goals exact hstay _ _ rfl hawait hmode.symm
  | waiting n =>
    rw [hmode] at hrequest
    have hop : op = .begin n := hrequest
    subst hop
    cases r with
    | ok _ =>
      obtain ⟨hscheduled, rfl⟩ := hawait
      exact (h.extend rfl).begins hmode hscheduled
    | error e =>
      obtain ⟨hscheduled, rfl⟩ := hawait
      exact (h.extend rfl).worker_ends (.stay hmode) (.inr ⟨rfl, hscheduled⟩)
  | idle n =>
    rw [hmode] at hrequest
    have hop : op = .nextSignal := hrequest
    subst hop
    cases r with
    | ok signal =>
      obtain ⟨queue, hpoll, rfl⟩ := hawait
      exact h.takes hmode hpoll
    | error e =>
      exact hstay _ _ rfl hawait hmode.symm
  | busy n =>
    rw [hmode] at hrequest
    have hop : Works op := hrequest
    cases op <;> first
      | exact hop.elim
      | exact hstay _ _ rfl hawait hmode.symm
  | ended =>
    rw [hmode] at hrequest
    exact hrequest.elim

def Manned (mode : ℕ → Mode) : Prop := ∃ child held, mode 0 = .main child held

theorem Moves.manned (h : Moves mode i g g' mode') (hmanned : Manned mode)
    (hg : ∀ child held, g = .main child held → ∃ child' held', g' = .main child' held') :
    Manned mode' := by
  obtain ⟨child, held, hmain⟩ := hmanned
  by_cases hzero : 0 = i
  · rw [hzero, h.before] at hmain
    obtain ⟨child', held', hmain'⟩ := hg child held hmain
    refine ⟨child', held', ?_⟩
    rw [hzero, h.after, hmain']
  · exact ⟨child, held, (h.others 0 hzero).trans hmain⟩

theorem after_main (child : Option ℕ) (held : Connection) (op : Op) (r : Except PyExc op.Reply) :
    ∃ child' held', (Mode.main child held).after op r = .main child' held' := by
  cases op <;> cases r <;> exact ⟨_, _, rfl⟩

def Manages (t : List (Label (watching bound))) (mode : ℕ → Mode) (_ : ℕ → Unit)
    (w : World bound) : Prop :=
  Table t mode w ∧ Manned mode

theorem rules {settings : Settings} {service : Service bound} {S : Connection → Prop}
    (hservice : Conforms settings service S) :
    Rules (watch settings) Ends Mode.ended (Spawned service) (fun _ _ _ => ()) AwaitStep Callback
      Manages := by
  refine ⟨fun g s s' op hop => hop, fun t mode _ i g s g' s' h hact => ?_,
    fun t mode _ i s p m h hrest hspawn => ?_, fun t mode _ i s op r s' h hrequest hawait => ?_,
    fun t mode _ s s' h hcallback => ?_⟩
  · refine ⟨h.1.act hact, (moves_update (g := g)).manned h.2 ?_⟩
    rintro child held rfl
    cases hact <;> exact ⟨_, _, rfl⟩
  · obtain ⟨fuel, worker, rfl⟩ := hspawn
    have hmoves : Moves mode i .ended (.waiting worker)
        (Function.update mode i (.waiting worker)) := .stay hrest
    refine ⟨.waiting worker, ends_fetchWorker hservice fuel worker,
      (h.1.extend rfl).outer hmoves trivial trivial, hmoves.manned h.2 ?_⟩
    intro child held hmain
    cases hmain
  · have hanswered := h.1.answer hrequest hawait
    refine ⟨_, rfl, fun worker held hmain => ?_, hanswered, ?_⟩
    · refine (hanswered.main i worker held ?_).2
      rw [Function.update_self]
      exact hmain
    · refine (Moves.stay rfl).manned h.2 ?_
      intro child held hmain
      rw [hmain]
      exact after_main child held op r
  · obtain ⟨hoffers, hsame⟩ := hcallback.offers
    obtain ⟨signals, hitems, hunfinished, haccepted⟩ := hoffers.signals
    have hextended := h.1.extend (l := .outside) rfl
    refine ⟨⟨fun j child held hj => ?_, fun n phase hn hphase => ?_, fun j n hj => ?_, h.1.sole, ?_,
      fun hfree => ?_, fun j n hj => ?_⟩, h.2⟩
    · rw [hsame]
      exact h.1.main j child held hj
    · rw [hoffers.workers] at hn
      exact h.1.child n phase hn hphase
    · rw [hoffers.workers]
      exact h.1.live j n hj
    · rw [haccepted, hextended.accepted, hitems, List.append_assoc]
    · rw [hunfinished, h.1.free hfree, hitems, List.length_append]
    · rw [hunfinished, h.1.inHand j n hj, hitems, List.length_append]
      omega

end Modes

section Observed

def everySecond : Settings := ⟨1, 1, 60, 1, 1, 1, 1⟩

def oneSignal : World 1 where
  stopping := false
  running := false
  connected := false
  subscribed := false
  reconnect := false
  subscriptionError := none
  resolutionSubscribed := false
  resolutionError := none
  connection := .nothing
  link := ⟨true, true, true, 0⟩
  workers := []
  queue := ⟨[.failure none "f" none], Nat.le_refl 1⟩
  unfinished := 1
  counters := ⟨0, 0, 0, 0, 0⟩
  accepted := [.failure none "f" none]
  notified := []

theorem fresh_oneSignal : Fresh oneSignal := ⟨rfl, rfl, rfl, rfl⟩

theorem delayed_everySecond : Delayed everySecond := ⟨zero_lt_one, Nat.ofNat_pos⟩

def observing : Watching 1 Unit := runObserver (observer everySecond) everySecond 3

abbrev observed : Tasks 1 := started observing oneSignal

theorem subscribed_status (w : World 1) :
    Callback w { w with connected := true, subscribed := true } := by
  have hname : statusName "SUBSCRIBED" = "SUBSCRIBED" := by decide +kernel
  have h := Callback.status "SUBSCRIBED" none w
  unfold onSubscriptionStatus at h
  rwa [if_pos hname] at h

theorem lost_status (w : World 1) :
    Callback w { w with
      subscriptionError := some (connectionError "CHANNEL_ERROR")
      connected := false
      subscribed := true
      reconnect := true } := by
  have hname : statusName "CHANNEL_ERROR" = "CHANNEL_ERROR" := by decide +kernel
  have h := Callback.status "CHANNEL_ERROR" none w
  unfold onSubscriptionStatus at h
  rwa [hname, if_neg (by decide)] at h

def cancelled : PyExc := ⟨.cancelled, ""⟩

/-- What the main task and the task of the worker have left to do. -/
structure Standing (P : Tasks 1) (w : World 1) (main : Watching 1 Unit)
    (worker : Option (Watching 1 Unit)) : Prop where
  state : P.state = w
  main : P.task 0 = some main
  worker : P.task 1 = worker

variable {P : Tasks 1} {w w' : World 1} {op : Op} {k : Except PyExc op.Reply → Watching 1 Unit}
variable {main : Watching 1 Unit} {worker : Option (Watching 1 Unit)}

theorem Standing.resumeMain (r : Except PyExc op.Reply) (w'' : World 1) (next : Watching 1 Unit)
    (h : Standing P w (.await op k) worker) (hawait : AwaitStep w op r w')
    (hadvance : advance (k r) w' = (w'', next)) :
    ∃ P', ServiceStep (observer everySecond) P (.resume 0 op r) P' ∧
      Standing P' w'' next worker := by
  refine ⟨_, .resume h.main (h.state ▸ hawait), ?_, ?_, ?_⟩
  · rw [run_state, hadvance]
  · rw [run_task_self, hadvance]
  · rw [run_task_other one_ne_zero, h.worker]

theorem Standing.resumeWorker (r : Except PyExc op.Reply) (w'' : World 1)
    (next : Watching 1 Unit) (h : Standing P w main (some (.await op k)))
    (hawait : AwaitStep w op r w') (hadvance : advance (k r) w' = (w'', next)) :
    ∃ P', ServiceStep (observer everySecond) P (.resume 1 op r) P' ∧
      Standing P' w'' main (some next) := by
  refine ⟨_, .resume h.worker (h.state ▸ hawait), ?_, ?_, ?_⟩
  · rw [run_state, hadvance]
  · rw [run_task_other zero_ne_one, h.main]
  · rw [run_task_self, hadvance]

theorem Standing.startWorker (next : Watching 1 Unit) (fuel n : ℕ) (h : Standing P w main none)
    (hadvance : advance (fetchWorker (observer everySecond) fuel n) w = (w, next)) :
    ∃ P', ServiceStep (observer everySecond) P (.start 1) P' ∧ Standing P' w main (some next) := by
  refine ⟨_, .start (m := ()) h.worker ⟨fuel, n, rfl⟩, ?_, ?_, ?_⟩
  · rw [run_state, h.state, hadvance]
  · rw [run_task_other zero_ne_one, h.main]
  · rw [run_task_self, h.state, hadvance]

theorem Standing.callback (h : Standing P w main worker) (hcallback : Callback w w') :
    ∃ P', ServiceStep (observer everySecond) P .outside P' ∧ Standing P' w' main worker :=
  ⟨_, .outside (h.state ▸ hcallback), rfl, h.main, h.worker⟩

def connectedWorld : World 1 :=
  { oneSignal with running := true, connection := ⟨some 7, true, false, none, none⟩ }

def workingWorld : World 1 :=
  { connectedWorld with
    connected := true
    subscribed := true
    workers := [.running]
    queue := ⟨[], Nat.zero_le 1⟩ }

def lostWorld : World 1 :=
  { workingWorld with
    subscriptionError := some (connectionError "CHANNEL_ERROR")
    connected := false
    reconnect := true }

def closedWorld : World 1 :=
  { lostWorld with
    unfinished := 0
    workers := [.ended]
    connection := .nothing
    counters := ⟨0, 0, 0, 0, 1⟩ }

/-- A connection is made and its worker takes a signal. The channel fails, the queue is
not empty in time, the worker is cancelled and the connection is closed. -/
theorem connection_lost : ∃ t P u P', Run (ServiceStep (observer everySecond)) observed t P ∧
    Working P 1 ∧ Run (ServiceStep (observer everySecond)) P u P' ∧
      (∃ k, P'.task 0 = some (.await (.reconnectPause 1) k)) ∧ P'.state = closedWorld := by
  have hobserved : Standing observed { oneSignal with running := true }
      (.await .createClient _) none := ⟨rfl, rfl, rfl⟩
  obtain ⟨P₁, hstep₁, h₁⟩ := hobserved.resumeMain (.ok 7) connectedWorld
    (.await (.subscribe false) _) rfl rfl
  obtain ⟨P₂, hstep₂, h₂⟩ := h₁.resumeMain (.ok ()) connectedWorld
    (.await (.waitSubscribed false 1) _) rfl rfl
  obtain ⟨P₃, hstep₃, h₃⟩ := h₂.callback (subscribed_status _)
  obtain ⟨P₄, hstep₄, h₄⟩ := h₃.resumeMain (.ok ())
    { connectedWorld with connected := true, subscribed := true, workers := [.scheduled] }
    (.await (.checkPause 1) _) rfl rfl
  obtain ⟨P₅, hstep₅, h₅⟩ := h₄.startWorker (.await (.begin 0) _) 1 0 rfl
  obtain ⟨P₆, hstep₆, h₆⟩ := h₅.resumeWorker (.ok ())
    { connectedWorld with connected := true, subscribed := true, workers := [.running] }
    (.await .nextSignal _) ⟨rfl, rfl⟩ rfl
  obtain ⟨P₇, hstep₇, h₇⟩ := h₆.resumeWorker (.ok (Signal.failure none "f" none)) workingWorld
    (.await (.selectRow 7 "f") _) ⟨_, rfl, rfl⟩ rfl
  obtain ⟨P₈, hstep₈, h₈⟩ := h₇.callback (lost_status _)
  obtain ⟨P₉, hstep₉, h₉⟩ := h₈.resumeMain (.ok ()) lostWorld (.await (.joinQueue 1) _) rfl rfl
  obtain ⟨P₁₀, hstep₁₀, h₁₀⟩ := h₉.resumeMain (.error ⟨.timeout, ""⟩) lostWorld
    (.await (.gatherWorker 0) _) rfl rfl
  obtain ⟨P₁₁, hstep₁₁, h₁₁⟩ := h₁₀.resumeWorker (.error cancelled)
    { lostWorld with unfinished := 0, workers := [.ended] } (.raise cancelled) rfl rfl
  obtain ⟨P₁₂, hstep₁₂, h₁₂⟩ := h₁₁.resumeMain (.ok ())
    { lostWorld with unfinished := 0, workers := [.ended], connection := .nothing }
    (.await (.removeChannel 7 false) _) ⟨rfl, rfl⟩ rfl
  obtain ⟨P₁₃, hstep₁₃, h₁₃⟩ := h₁₂.resumeMain (.ok ())
    { lostWorld with unfinished := 0, workers := [.ended], connection := .nothing }
    (.await (.closeRealtime 7) _) rfl rfl
  obtain ⟨P₁₄, hstep₁₄, h₁₄⟩ := h₁₃.resumeMain (.ok ()) closedWorld
    (.await (.reconnectPause 1) _) rfl rfl
  have hstart : Run (ServiceStep (observer everySecond)) observed [] observed := .start
  have hworking := ((((((hstart.next hstep₁).next hstep₂).next hstep₃).next hstep₄).next
    hstep₅).next hstep₆).next hstep₇
  have hempty : Run (ServiceStep (observer everySecond)) P₇ [] P₇ := .start
  have hclosed := ((((((hempty.next hstep₈).next hstep₉).next hstep₁₀).next hstep₁₁).next
    hstep₁₂).next hstep₁₃).next hstep₁₄
  exact ⟨_, P₇, _, P₁₄, hworking, ⟨.selectRow 7 "f", _, h₇.worker, trivial⟩, hclosed,
    ⟨_, h₁₄.main⟩, h₁₄.state⟩

end Observed

section Runs

variable {bound : ℕ} {settings : Settings} {service : Service bound} {main : Watching bound Unit}
variable {w : World bound} {t : List (Label (watching bound))} {P : Tasks bound} {mode : ℕ → Mode}

inductive Deployed (settings : Settings) : Service bound → Watching bound Unit → Prop
  | observer (fuel : ℕ) : Deployed settings (observer settings)
      (runObserver (observer settings) settings fuel)
  | agent (fuel : ℕ) : Deployed settings (agent settings) (runAgent settings fuel)

def Connecting : Op → Prop
  | .createClient => True
  | .reconnectPause _ => True
  | _ => False

abbrev GovernedBy (settings : Settings) (t : List (Label (watching bound))) (P : Tasks bound)
    (mode : ℕ → Mode) : Prop :=
  Governed (watch settings) Ends Mode.ended Manages t P mode

theorem governed_service (hdeployed : Deployed settings service main) (hw : Fresh w)
    (hdelayed : Delayed settings) (hrun : Run (ServiceStep service) (started main w) t P) :
    ∃ mode, GovernedBy settings t P mode := by
  have hmain : ∀ j child held, Function.update (fun _ => Mode.ended) 0 (.main none .nothing) j =
      .main child held → j = 0 ∧ w.connection = held := by
    intro j child held hj
    by_cases hzero : j = 0
    · rw [hzero, Function.update_self, Mode.main.injEq] at hj
      exact ⟨hzero, hw.connection.trans hj.2⟩
    · rw [Function.update_of_ne hzero] at hj
      cases hj
  have hlive : ∀ j n, (Function.update (fun _ => Mode.ended) 0 (.main none .nothing) j).live ≠
      some n := by
    intro j n hj
    by_cases hzero : j = 0
    · rw [hzero, Function.update_self] at hj
      cases hj
    · rw [Function.update_of_ne hzero] at hj
      cases hj
  have htable : Manages [] (Function.update (fun _ => Mode.ended) 0 (.main none .nothing))
      (Function.update (fun _ => ()) 0 ()) w := by
    refine ⟨⟨hmain, fun n phase hn _ => ?_, fun j n hj => absurd hj (hlive j n),
      fun j k n m hj _ => absurd hj (hlive j n), hw.accepted, fun _ => hw.unfinished,
      fun j n hj => absurd (busy_live hj) (hlive j n)⟩, none, .nothing, Function.update_self ..⟩
    rw [hw.workers] at hn
    cases hn
  have hstart : ∀ {S : Connection → Prop}, Conforms settings service S →
      Obeys (watch settings) (Remains Bare) main (.main none .nothing) w →
      ∃ mode, GovernedBy settings t P mode := by
    intro S hservice hobeys
    have hends := hobeys.mono (R := fun r g _ => Ends r g) fun _ _ _ hpost => hpost.ends
    exact governed_run (u := []) (rules hservice) (governed_started (rules hservice) hends htable)
      hrun
  have hconnection := hw.connection
  cases hdeployed with
  | observer fuel =>
    refine hstart conforms_observer ?_
    rw [← hconnection]
    exact remains_runObserver conforms_observer hdelayed fuel hconnection
  | agent fuel =>
    refine hstart conforms_agent ?_
    rw [← hconnection]
    exact remains_runAgent hdelayed fuel hconnection

/-- What a task does not await as the main task, it awaits as a worker. -/
theorem busy_of_working (h : GovernedBy settings t P mode) {i : ℕ} (hi : Working P i) :
    ∃ worker, mode i = .busy worker := by
  obtain ⟨op, k, htask, hworks⟩ := hi
  have hrequest : Permitted settings (mode i) op := h.requests htask
  cases hmode : mode i with
  | main child held =>
    rw [hmode] at hrequest
    have hpermitted := hrequest.2
    cases op <;> first | exact hworks.elim | exact absurd hworks hpermitted
  | waiting n =>
    rw [hmode] at hrequest
    have hop : op = .begin n := hrequest
    subst hop
    exact hworks.elim
  | idle n =>
    rw [hmode] at hrequest
    have hop : op = .nextSignal := hrequest
    subst hop
    exact hworks.elim
  | busy n => exact ⟨n, rfl⟩
  | ended =>
    rw [hmode] at hrequest
    exact hrequest.elim

theorem idle_of_waiting (h : GovernedBy settings t P mode) {i : ℕ} (hi : Waiting P i) :
    ∃ worker, mode i = .idle worker := by
  obtain ⟨k, htask⟩ := hi
  have hrequest : Permitted settings (mode i) .nextSignal := h.requests htask
  cases hmode : mode i with
  | main child held =>
    rw [hmode] at hrequest
    exact hrequest.2.elim
  | waiting n =>
    rw [hmode] at hrequest
    cases hrequest
  | idle n => exact ⟨n, rfl⟩
  | busy n =>
    rw [hmode] at hrequest
    exact hrequest.elim
  | ended =>
    rw [hmode] at hrequest
    exact hrequest.elim

/-- Whatever Realtime, the sockets and a cancellation do, at most one task works on a
signal, signals are handed out in the order the queue took them in with none left out
and none twice, and the queue counts what waits and what is in hand. -/
theorem signals_one_after_another (hdeployed : Deployed settings service main) (hw : Fresh w)
    (hdelayed : Delayed settings) (hrun : Run (ServiceStep service) (started main w) t P) :
    (∀ i j, Working P i → Working P j → i = j) ∧
      P.state.accepted = t.filterMap takenSignal ++ P.state.queue.items ∧
      (∀ i, Working P i → P.state.unfinished = P.state.queue.items.length + 1) ∧
      ∀ i, Waiting P i → (∀ j, ¬ Working P j) ∧
        P.state.unfinished = P.state.queue.items.length := by
  obtain ⟨mode, hgoverned⟩ := governed_service hdeployed hw hdelayed hrun
  obtain ⟨htable, -⟩ := hgoverned.table
  refine ⟨fun i j hi hj => ?_, htable.accepted, fun i hi => ?_, fun i hi => ?_⟩
  · obtain ⟨n, hn⟩ := busy_of_working hgoverned hi
    obtain ⟨m, hm⟩ := busy_of_working hgoverned hj
    exact htable.sole i j n m (busy_live hn) (busy_live hm)
  · obtain ⟨n, hn⟩ := busy_of_working hgoverned hi
    exact htable.inHand i n hn
  · obtain ⟨n, hn⟩ := idle_of_waiting hgoverned hi
    have hmine : (mode i).live = some n := by
      rw [hn]
      rfl
    have hfree : ∀ j m, mode j ≠ .busy m := by
      intro j m hm
      rw [htable.sole j i m n (busy_live hm) hmine, hn] at hm
      cases hm
    refine ⟨fun j hj => ?_, htable.free hfree⟩
    obtain ⟨m, hm⟩ := busy_of_working hgoverned hj
    exact hfree j m hm

theorem signals_one_after_another_working : ∃ t P,
    Run (ServiceStep (observer everySecond)) observed t P ∧ Working P 1 ∧
      P.state.unfinished = P.state.queue.items.length + 1 := by
  obtain ⟨t, P, -, -, hrun, hworking, -⟩ := connection_lost
  exact ⟨t, P, hrun, hworking, (signals_one_after_another (.observer 3) fresh_oneSignal
    delayed_everySecond hrun).2.2.1 1 hworking⟩

/-- Before the main task connects or pauses, the last connection has been let go of by
everyone and its worker has ended; the pause is within the settings. A client is only
ever known to the others as the one the service holds, and once the main task has
ended, however it ended, nobody is left with a client. -/
theorem connections_one_after_another (hdeployed : Deployed settings service main) (hw : Fresh w)
    (hdelayed : Delayed settings) (hrun : Run (ServiceStep service) (started main w) t P) :
    (∀ op k, P.task 0 = some (.await op k) → Aligned P.state.connection ∧
      (Connecting op → P.state.connection = .nothing ∧
        (∀ phase ∈ P.state.workers, phase = .ended) ∧ ∀ i, ¬ Working P i) ∧
      ∀ seconds, op = .reconnectPause seconds → Delay settings seconds) ∧
    ∀ p, P.task 0 = some p → Finished p → Released P.state.connection := by
  obtain ⟨mode, hgoverned⟩ := governed_service hdeployed hw hdelayed hrun
  obtain ⟨htable, child, held, hmain⟩ := hgoverned.table
  obtain ⟨-, hheld⟩ := htable.main 0 child held hmain
  refine ⟨fun op k htask => ?_, fun p htask hfinished => ?_⟩
  · have hrequest : Permitted settings (mode 0) op := hgoverned.requests htask
    rw [hmain] at hrequest
    obtain ⟨haligned, hpermitted⟩ := hrequest
    have hclosed : child = none → held = .nothing → P.state.connection = .nothing ∧
        (∀ phase ∈ P.state.workers, phase = .ended) ∧ ∀ i, ¬ Working P i := by
      rintro rfl rfl
      have hchild : ∀ phase ∈ P.state.workers, phase = .ended := by
        intro phase hmem
        obtain ⟨n, hn⟩ := List.mem_iff_getElem?.mp hmem
        by_contra hphase
        obtain ⟨held', hmain'⟩ := htable.child n phase hn hphase
        rw [hmain] at hmain'
        cases hmain'
      refine ⟨hheld, hchild, fun i hi => ?_⟩
      obtain ⟨n, hn⟩ := busy_of_working hgoverned hi
      cases hchild _ (List.mem_of_getElem? (htable.live i n (busy_live hn)))
    rw [hheld]
    refine ⟨haligned, fun hconnecting => ?_, ?_⟩
    · rw [← hheld]
      cases op
      case createClient => exact hclosed hpermitted.1 hpermitted.2
      case reconnectPause => exact hclosed hpermitted.1 hpermitted.2.1
      all_goals exact hconnecting.elim
    · rintro seconds rfl
      exact hpermitted.2.2
  · obtain ⟨-, hobeys⟩ := hgoverned.obeys 0 p htask
    rw [hheld]
    cases p with
    | ret a =>
      have hends : Ends (.ok a) (mode 0) := hobeys
      rw [hmain] at hends
      exact hends
    | raise e =>
      have hends : Ends (.error e) (mode 0) := hobeys
      rw [hmain] at hends
      exact hends
    | halt => exact hfinished.elim
    | get k => exact hfinished.elim
    | set s next => exact hfinished.elim
    | await op k => exact hfinished.elim

/-- The pause after a connection that was lost while its worker had a signal in hand. -/
theorem connections_one_after_another_pausing : ∃ t P u P',
    Run (ServiceStep (observer everySecond)) observed t P ∧ Working P 1 ∧
      Run (ServiceStep (observer everySecond)) P u P' ∧ P'.state.workers ≠ [] ∧
      (∃ k, P'.task 0 = some (.await (.reconnectPause 1) k)) ∧
      P'.state.connection = .nothing ∧ (∀ phase ∈ P'.state.workers, phase = .ended) ∧
      (∀ i, ¬ Working P' i) ∧ Delay everySecond 1 := by
  obtain ⟨t, P, u, P', hrun, hworking, hrun', ⟨k, hpausing⟩, hstate⟩ := connection_lost
  obtain ⟨-, hlet, hdelay⟩ := (connections_one_after_another (.observer 3) fresh_oneSignal
    delayed_everySecond (hrun.append hrun')).1 (.reconnectPause 1) k hpausing
  obtain ⟨hnothing, hended, hnobody⟩ := hlet trivial
  have hworkers : P'.state.workers ≠ [] := by
    rw [hstate]
    exact List.cons_ne_nil _ _
  exact ⟨t, P, u, P', hrun, hworking, hrun', hworkers, ⟨k, hpausing⟩, hnothing, hended, hnobody,
    hdelay 1 rfl⟩

end Runs

end FailureResolver.SignalDelivery
