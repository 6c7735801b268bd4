import FailureResolver.RobotSession

/-!
What a session knows in every state its connection loop reaches. The Flow
history is the end of the log of all recorded frames: frame number n carries
revision n, and the connection generation of the frames never decreases. The
latest Flow and the latest commands belong to the connection that is open.
-/

namespace FailureResolver.SessionHistory

open JsonValue LiveFlow Transitions RobotSession

section Newest

variable {α β : Type} {limit : ℕ}

theorem keepNewest_append (xs : List α) (x : α) :
    keepNewest limit (keepNewest limit xs ++ [x]) = keepNewest limit (xs ++ [x]) := by
  unfold keepNewest
  have hcut : xs.length - limit ≤ xs.length := by omega
  rw [← @List.drop_append_of_le_length _ xs [x] _ hcut, List.drop_drop]
  congr 1
  simp only [List.length_drop, List.length_append, List.length_singleton]
  omega

theorem length_keepNewest (xs : List α) : (keepNewest limit xs).length ≤ limit := by
  simp only [keepNewest, List.length_drop]
  omega

theorem keepNewest_sublist (xs : List α) : (keepNewest limit xs).Sublist xs :=
  List.drop_sublist _ _

theorem getLast?_keepNewest (hlimit : 0 < limit) (xs : List α) :
    (keepNewest limit xs).getLast? = xs.getLast? := by
  cases xs with
  | nil => simp [keepNewest]
  | cons x rest =>
    unfold keepNewest
    rw [List.getLast?_drop, if_neg]
    simp only [List.length_cons]
    omega

end Newest

section Coherence

/-- Nothing of an earlier connection is current, and the history is in order. -/
structure Coherent (s : Session) : Prop where
  disconnected : s.connected = false → s.latestFlow = none ∧ s.latestCommandsFrame = none
  latestFlow : ∀ pointer, s.latestFlow = some pointer → pointer.generation = s.generation ∧
    ∃ frame, s.flowHistory.getLast? = some frame ∧ frame.pointer = some pointer ∧
      frame.generation = s.generation
  latestCommands : ∀ frame, s.latestCommandsFrame = some frame → frame.generation = s.generation
  revisions : (s.flowHistory.map FlowFrame.revision).Pairwise (· < ·)
  generations : (s.flowHistory.map FlowFrame.generation).Pairwise (· ≤ ·)
  newest : s.flowRevision = (s.flowHistory.getLast?.map FlowFrame.revision).getD 0
  bounded : s.flowHistory.length ≤ flowHistoryLimit

def frames (t : List Label) : List FlowFrame :=
  t.filterMap (fun l => match l with
    | .flow frame => frame
    | _ => none)

/-- A log of frames: numbered from one, with the generation never falling. A
pointer keeps the revision and the generation of its frame. -/
structure Logged (log : List FlowFrame) : Prop where
  numbered : log.map FlowFrame.revision = List.range' 1 log.length
  generations : (log.map FlowFrame.generation).Pairwise (· ≤ ·)
  pointers : ∀ frame ∈ log, ∀ pointer, frame.pointer = some pointer →
    pointer.generation = frame.generation

structure Follows (log : List FlowFrame) (s : System) : Prop where
  logged : Logged log
  history : s.session.flowHistory = keepNewest flowHistoryLimit log
  revision : s.session.flowRevision = log.length
  generation : ∀ frame ∈ log, frame.generation ≤ s.session.generation
  websocket : s.session.websocket = s.loop.websocket
  connected : s.session.connected = s.loop.websocket.isSome
  disconnected : s.session.connected = false →
    s.session.latestFlow = none ∧ s.session.latestCommandsFrame = none
  latestFlow : ∀ pointer, s.session.latestFlow = some pointer →
    ∃ frame, log.getLast? = some frame ∧ frame.pointer = some pointer ∧
      frame.generation = s.session.generation
  latestCommands : ∀ frame, s.session.latestCommandsFrame = some frame →
    frame.generation = s.session.generation

end Coherence

section Preservation

variable {sysid : String} {s s' : System} {l : Label} {log : List FlowFrame}

/-- The sessions differ in the pending requests and their futures alone. -/
def SameFeed (s s' : Session) : Prop :=
  ∃ pending futures, s' = { s with pending := pending, futures := futures }

theorem sameFeed_settleResponse (response : Fields) (s : Session) :
    SameFeed s (settleResponse response s) := by
  unfold settleResponse
  split
  · exact ⟨_, _, rfl⟩
  · split <;> exact ⟨_, _, rfl⟩

theorem sameFeed_handleResponse (payload : Fields) (s : Session) :
    SameFeed s (handleResponse payload s) := by
  unfold handleResponse
  split
  · exact sameFeed_settleResponse _ _
  · exact ⟨_, _, rfl⟩

theorem sameFeed_requestCommand (requestId : String) (command arguments : Json) (s : System) :
    SameFeed s.session (requestCommand sysid requestId command arguments s).session ∧
      (requestCommand sysid requestId command arguments s).loop = s.loop := by
  rcases requestCommand_cases sysid requestId command arguments s with
    ⟨_, heq⟩ | ⟨-, _, heq⟩ | ⟨_, _, -, -, heq⟩
  all_goals
    rw [heq]
    exact ⟨⟨_, _, rfl⟩, rfl⟩

/-- A request leaves the connection and what it delivered alone. -/
theorem requestStep_feed (h : RequestStep sysid s l s') :
    SameFeed s.session s'.session ∧ s'.loop = s.loop := by
  cases h with
  | request requestId command arguments _ =>
    exact sameFeed_requestCommand requestId command arguments s
  | _ => exact ⟨⟨_, _, rfl⟩, rfl⟩

theorem frames_append (t u : List Label) : frames (t ++ u) = frames t ++ frames u :=
  List.filterMap_append

theorem requestStep_frames (h : RequestStep sysid s l s') : frames [l] = [] := by
  cases h <;> rfl

theorem Follows.sameFeed (h : Follows log s) {s' : System}
    (hfeed : SameFeed s.session s'.session) (hwebsocket : s'.loop.websocket = s.loop.websocket) :
    Follows log s' := by
  obtain ⟨session, loop, sendLock, requests⟩ := s'
  obtain ⟨pending, futures, hsession⟩ := hfeed
  dsimp only at hsession hwebsocket
  subst hsession
  exact { h with
    websocket := h.websocket.trans hwebsocket.symm
    connected := h.connected.trans (congrArg Option.isSome hwebsocket.symm) }

theorem logged_append (h : Logged log) {frame : FlowFrame}
    (hrevision : frame.revision = log.length + 1)
    (hgeneration : ∀ earlier ∈ log, earlier.generation ≤ frame.generation)
    (hpointer : ∀ pointer, frame.pointer = some pointer →
      pointer.generation = frame.generation) : Logged (log ++ [frame]) where
  numbered := by
    rw [List.map_append, h.numbered, List.length_append, List.length_singleton,
      List.range'_concat, List.map_singleton, hrevision, Nat.one_mul, Nat.add_comm 1]
  generations := by
    rw [List.map_append, List.pairwise_append]
    refine ⟨h.generations, List.pairwise_singleton _ _, fun a ha b hb => ?_⟩
    obtain ⟨earlier, hearlier, rfl⟩ := List.mem_map.mp ha
    obtain ⟨last, hlast, rfl⟩ := List.mem_map.mp hb
    rw [List.mem_singleton.mp hlast]
    exact hgeneration earlier hearlier
  pointers := by
    intro f hf
    rcases List.mem_append.mp hf with hf | hf
    · exact h.pointers f hf
    · rw [List.mem_singleton.mp hf]
      exact hpointer

theorem flowFrame_eq {payload : Fields} {s : Session} {frame : FlowFrame}
    (h : flowFrame payload s = some frame) : frame.revision = s.flowRevision + 1 ∧
      frame.generation = s.generation ∧
      ∀ pointer, frame.pointer = some pointer → pointer.generation = frame.generation := by
  unfold flowFrame at h
  split at h
  · cases h
    refine ⟨rfl, rfl, fun pointer hpointer => ?_⟩
    exact parseFlowPointer_generation hpointer
  · cases h

/-- A recorded frame goes to the end of the log. -/
theorem Follows.record (h : Follows log s) {frame : FlowFrame} {loop : LoopPhase}
    (hrevision : frame.revision = s.session.flowRevision + 1)
    (hgeneration : frame.generation = s.session.generation)
    (hpointer : ∀ pointer, frame.pointer = some pointer → pointer.generation = frame.generation)
    (hopen : s.loop.websocket.isSome) (hwebsocket : loop.websocket = s.loop.websocket) :
    Follows (log ++ [frame]) { s with session := recordFrame s.session (some frame), loop := loop } where
  logged := by
    refine logged_append h.logged ?_ (fun earlier hearlier => ?_) hpointer
    · rw [hrevision, h.revision]
    · rw [hgeneration]
      exact h.generation earlier hearlier
  history := by
    simp only [recordFrame]
    rw [h.history, keepNewest_append]
  revision := by
    show frame.revision = _
    rw [hrevision, h.revision, List.length_append, List.length_singleton]
  generation := by
    intro f hf
    rcases List.mem_append.mp hf with hf | hf
    · exact h.generation f hf
    · rw [List.mem_singleton.mp hf, hgeneration]
      exact Nat.le_refl _
  websocket := h.websocket.trans hwebsocket.symm
  connected := h.connected.trans (congrArg Option.isSome hwebsocket.symm)
  disconnected := by
    intro hclosed
    have hconnected : s.session.connected = true := by rw [h.connected, hopen]
    exact absurd (hconnected.symm.trans hclosed) (by decide)
  latestFlow := by
    intro pointer hlatest
    exact ⟨frame, List.getLast?_concat, hlatest, hgeneration⟩
  latestCommands := h.latestCommands

theorem Follows.commands (h : Follows log s) {payload : Fields} {loop : LoopPhase}
    (hopen : s.loop.websocket.isSome) (hwebsocket : loop.websocket = s.loop.websocket) :
    Follows log { s with session := handleCommands payload s.session, loop := loop } := by
  have hconnected : s.session.connected = true := by rw [h.connected, hopen]
  unfold handleCommands
  split
  · exact { h with
      websocket := h.websocket.trans hwebsocket.symm
      connected := h.connected.trans (congrArg Option.isSome hwebsocket.symm)
      disconnected := fun hclosed => absurd (hconnected.symm.trans hclosed) (by decide)
      latestCommands := fun frame hframe => by cases hframe; rfl }
  · exact h.sameFeed ⟨_, _, rfl⟩ hwebsocket

theorem Follows.connect (h : Follows log s) (websocket : ℕ) :
    Follows log
      { s with session := activateConnection websocket s.session, loop := .receiving websocket } :=
  { h with
    generation := fun frame hframe => Nat.le_succ_of_le (h.generation frame hframe)
    websocket := rfl
    connected := rfl
    disconnected := fun hclosed => by cases hclosed
    latestFlow := fun pointer hlatest => by cases hlatest
    latestCommands := fun frame hlatest => by cases hlatest }

theorem Follows.leave (h : Follows log s) :
    Follows log { s with session := invalidateConnection s.session, loop := .leaving } :=
  { h with
    websocket := rfl
    connected := rfl
    disconnected := fun _ => ⟨rfl, rfl⟩
    latestFlow := fun pointer hlatest => by cases hlatest
    latestCommands := fun frame hlatest => by cases hlatest }

theorem loopStep_follows (h : Follows log s) (hstep : LoopStep s l s') :
    Follows (log ++ frames [l]) s' := by
  cases hstep with
  | connect websocket _ => simpa [frames] using h.connect websocket
  | ignore message _ _ => simpa [frames] using h
  | @receive websocket message payload hloop _ =>
    simp only [frames, List.filterMap_cons_none, List.filterMap_nil, List.append_nil]
    apply h.sameFeed
    · exact sameFeed_handleResponse payload s.session
    · rw [hloop]
      rfl
  | @commands websocket payload hloop =>
    simp only [frames, List.filterMap_cons_none, List.filterMap_nil, List.append_nil]
    apply h.commands
    · rw [hloop]
      rfl
    · rw [hloop]
      rfl
  | @flow websocket payload hloop =>
    cases hframe : flowFrame payload s.session with
    | none =>
      simp only [frames, List.filterMap_cons_none, List.filterMap_nil, List.append_nil]
      apply h.sameFeed
      · exact ⟨_, _, rfl⟩
      · rw [hloop]
        rfl
    | some frame =>
      obtain ⟨hrevision, hgeneration, hpointer⟩ := flowFrame_eq hframe
      refine h.record hrevision hgeneration hpointer ?_ ?_
      · rw [hloop]
        rfl
      · rw [hloop]
        rfl
  | leave _ =>
    simp only [frames, List.filterMap_cons_none, List.filterMap_nil, List.append_nil]
    rw [if_pos h.websocket]
    exact h.leave
  | rejectPending hloop =>
    simp only [frames, List.filterMap_cons_none, List.filterMap_nil, List.append_nil]
    apply h.sameFeed
    · exact ⟨_, _, rfl⟩
    · rw [hloop]
      rfl
  | cutShort hloop =>
    simp only [frames, List.filterMap_cons_none, List.filterMap_nil, List.append_nil]
    apply h.sameFeed
    · exact ⟨_, _, rfl⟩
    · rw [hloop]
      rfl

theorem follows_initial : Follows [] System.initial where
  logged := ⟨rfl, List.Pairwise.nil, fun _ hframe => by cases hframe⟩
  history := rfl
  revision := rfl
  generation := fun _ hframe => by cases hframe
  websocket := rfl
  connected := rfl
  disconnected := fun _ => ⟨rfl, rfl⟩
  latestFlow := fun _ hlatest => by cases hlatest
  latestCommands := fun _ hlatest => by cases hlatest

/-- Every state follows the log of the frames recorded on the way to it. -/
theorem run_follows {t : List Label} (h : Run (Step sysid) System.initial t s) :
    Follows (frames t) s := by
  refine h.invariant (I := fun t s => Follows (frames t) s) follows_initial ?_
  intro t s l s' _ hfollows hstep
  rw [frames_append]
  rcases hstep with hloop | hrequest
  · exact loopStep_follows hfollows hloop
  · obtain ⟨hfeed, hloop⟩ := requestStep_feed hrequest
    rw [requestStep_frames hrequest, List.append_nil]
    exact hfollows.sameFeed hfeed (by rw [hloop])

/-- The end of a well-formed log is a coherent history. -/
theorem Follows.coherent (h : Follows log s) : Coherent s.session where
  disconnected := h.disconnected
  latestFlow := by
    intro pointer hlatest
    obtain ⟨frame, hlast, hpointer, hgeneration⟩ := h.latestFlow pointer hlatest
    have hmem := List.mem_of_getLast? hlast
    refine ⟨(h.logged.pointers frame hmem pointer hpointer).trans hgeneration, frame, ?_,
      hpointer, hgeneration⟩
    rw [h.history, getLast?_keepNewest (by decide), hlast]
  latestCommands := h.latestCommands
  revisions := by
    have hsorted : (log.map FlowFrame.revision).Pairwise (· < ·) := by
      rw [h.logged.numbered]
      exact List.pairwise_lt_range'
    rw [h.history]
    exact hsorted.sublist ((keepNewest_sublist log).map _)
  generations := by
    rw [h.history]
    exact h.logged.generations.sublist ((keepNewest_sublist log).map _)
  newest := by
    rw [h.history, getLast?_keepNewest (by decide), h.revision, ← List.getLast?_map,
      h.logged.numbered]
    cases log with
    | nil => rfl
    | cons frame rest =>
      rw [List.length_cons, List.range'_concat, List.getLast?_concat]
      simp only [Option.getD_some]
      omega
  bounded := by
    rw [h.history]
    exact length_keepNewest log

end Preservation

section Reconnects

variable {sysid : String} {t : List Label} {s : System}

def sampleMessage : Message := .text "\x7b\"flow\":1\x7d" JsonText.noLone

/-- In every reachable state nothing stale is current and the history is in order. -/
theorem reachable_coherent (h : Run (Step sysid) System.initial t s) : Coherent s.session :=
  (run_follows h).coherent

/-- A connection that has recorded one frame. -/
theorem reachable_coherent_recorded : ∃ t s, Run (Step "ROBOT") System.initial t s ∧
    frames t ≠ [] ∧ Coherent s.session := by
  have hflow : sampleMessage.payload.map (Fields.has · "flow") = some true := by decide +kernel
  obtain ⟨payload, hpayload, hhas⟩ := Option.map_eq_some_iff.mp hflow
  have hstart : Run (Step "ROBOT") System.initial [] System.initial := .start
  have hconnect := hstart.next (.inl (.connect 7 rfl))
  have hreceive := hconnect.next (.inl (.receive rfl hpayload))
  have hcommands := hreceive.next (.inl (.commands rfl))
  have hrecord := hcommands.next (.inl (.flow rfl))
  refine ⟨_, _, hrecord, ?_, reachable_coherent hrecord⟩
  simp [frames, flowFrame, hhas]

end Reconnects

end FailureResolver.SessionHistory
