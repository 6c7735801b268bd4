import FailureResolver.RobotSession

/-!
What a request may conclude from what has happened. A receipt needs an
acknowledgement that carries the request's own identifier and arrived on the
connection the request was written to; a rejection needs an error response of
its own; a request that was not sent was never written. The law of one request
relates its place, its future and the log, and every step of the session or of
any other request keeps it.
-/

namespace FailureResolver.CommandCorrelation

open JsonValue JsonText PyText PyException LiveFlow Transitions RobotSession

section Laws

def written (requestId : String) (t : List Label) : List ℕ :=
  t.filterMap (fun l => match l with
    | .write other generation _ => if other = requestId then some generation else none
    | _ => none)

/-- A response that names the request arrived on a connection. -/
def Responded (t : List Label) (requestId : String) (generation : ℕ) (response : Fields) : Prop :=
  ∃ message payload, .receive generation message ∈ t ∧ message.payload = some payload ∧
    payload.get "response" = .obj response ∧ textOf (response.get "request_id") = some requestId

def Acknowledged (t : List Label) (requestId : String) (generation : ℕ) : Prop :=
  ∃ response, Responded t requestId generation response ∧ response.has "error" = true ∧
    response.get "error" = .null

def Refused (t : List Label) (requestId : String) : Prop :=
  ∃ generation response text, Responded t requestId generation response ∧
    response.get "error" = .str text ∧ strip text ≠ ""

def requestErrors : List ExcClass :=
  [.robotCommandNotSent, .robotCommandRejected, .robotCommandOutcomeUnknown]

structure ErrorLaw (requestId : String) (t : List Label) (e : PyExc) : Prop where
  once : (written requestId t).length ≤ 1
  rejected : e.cls = .robotCommandRejected → Refused t requestId
  notSent : e.cls = .robotCommandNotSent → written requestId t = []
  known : e.cls ∈ requestErrors ∨
    (∃ command arguments, .request requestId command arguments ∈ t ∧
      validCall command arguments = false) ∨ .cancel requestId ∈ t

def PhaseLaw (requestId : String) (t : List Label) (current : ℕ) : RequestPhase → Prop
  | .absent => written requestId t = []
  | .queued _ generation _ => written requestId t = [] ∧ generation ≤ current
  | .sending generation => written requestId t = [generation] ∧ generation ≤ current
  | .awaiting generation => written requestId t = [generation] ∧ generation ≤ current
  | .returned _ => (written requestId t).length = 1
  | .raised e => ErrorLaw requestId t e

def madeOn : RequestPhase → Option ℕ
  | .queued _ generation _ => some generation
  | .sending generation => some generation
  | .awaiting generation => some generation
  | _ => none

def VerdictLaw (requestId : String) (t : List Label) (s : System) :
    Except PyExc CommandReceipt → Prop
  | .ok receipt => Acknowledged t requestId receipt.generation ∧
      receipt.generation ≤ s.session.generation ∧
      ∀ generation, madeOn (s.requests requestId) = some generation →
        generation ≤ receipt.generation
  | .error e => e.cls = .robotCommandRejected ∧ Refused t requestId ∨
      e.cls = .robotCommandOutcomeUnknown

structure Lawful (requestId : String) (t : List Label) (s : System) : Prop where
  phase : PhaseLaw requestId t s.session.generation (s.requests requestId)
  verdict : ∀ verdict, s.session.futures requestId = .done verdict →
    VerdictLaw requestId t s verdict

end Laws

section Carrying

variable {requestId other sysid : String} {t : List Label} {l : Label} {s s' : System}

theorem written_append (t u : List Label) :
    written requestId (t ++ u) = written requestId t ++ written requestId u :=
  List.filterMap_append

theorem Responded.append {generation : ℕ} {response : Fields}
    (h : Responded t requestId generation response) (u : List Label) :
    Responded (t ++ u) requestId generation response := by
  obtain ⟨message, payload, hmem, hrest⟩ := h
  exact ⟨message, payload, List.mem_append_left u hmem, hrest⟩

theorem Acknowledged.append {generation : ℕ} (h : Acknowledged t requestId generation)
    (u : List Label) : Acknowledged (t ++ u) requestId generation := by
  obtain ⟨response, hresponded, herror⟩ := h
  exact ⟨response, hresponded.append u, herror⟩

theorem Refused.append (h : Refused t requestId) (u : List Label) :
    Refused (t ++ u) requestId := by
  obtain ⟨generation, response, text, hresponded, herror⟩ := h
  exact ⟨generation, response, text, hresponded.append u, herror⟩

theorem ErrorLaw.append {e : PyExc} {u : List Label} (h : ErrorLaw requestId t e)
    (hwritten : written requestId u = []) : ErrorLaw requestId (t ++ u) e where
  once := by
    rw [written_append, hwritten, List.append_nil]
    exact h.once
  rejected := fun hcls => (h.rejected hcls).append u
  notSent := by
    intro hcls
    rw [written_append, hwritten, List.append_nil]
    exact h.notSent hcls
  known := by
    rcases h.known with hknown | ⟨command, arguments, hmem, hinvalid⟩ | hcancel
    · exact .inl hknown
    · exact .inr (.inl ⟨command, arguments, List.mem_append_left u hmem, hinvalid⟩)
    · exact .inr (.inr (List.mem_append_left u hcancel))

theorem PhaseLaw.append {phase : RequestPhase} {current later : ℕ} {u : List Label}
    (h : PhaseLaw requestId t current phase) (hwritten : written requestId u = [])
    (hle : current ≤ later) : PhaseLaw requestId (t ++ u) later phase := by
  have hsame : written requestId (t ++ u) = written requestId t := by
    rw [written_append, hwritten, List.append_nil]
  cases phase with
  | absent => exact hsame.trans h
  | queued websocket generation payload => exact ⟨hsame.trans h.1, h.2.trans hle⟩
  | sending generation => exact ⟨hsame.trans h.1, h.2.trans hle⟩
  | awaiting generation => exact ⟨hsame.trans h.1, h.2.trans hle⟩
  | returned receipt =>
    unfold PhaseLaw
    rw [hsame]
    exact h
  | raised e => exact ErrorLaw.append h hwritten

theorem VerdictLaw.mono {verdict : Except PyExc CommandReceipt}
    (h : VerdictLaw requestId t s verdict)
    (hgeneration : s.session.generation ≤ s'.session.generation)
    (hmade : ∀ generation, madeOn (s'.requests requestId) = some generation →
      madeOn (s.requests requestId) = some generation) : VerdictLaw requestId t s' verdict := by
  cases verdict with
  | ok receipt =>
    obtain ⟨hacknowledged, hle, hfrom⟩ := h
    exact ⟨hacknowledged, hle.trans hgeneration, fun g hg => hfrom g (hmade g hg)⟩
  | error e => exact h

theorem VerdictLaw.append {verdict : Except PyExc CommandReceipt} {u : List Label}
    (h : VerdictLaw requestId t s verdict) : VerdictLaw requestId (t ++ u) s verdict := by
  cases verdict with
  | ok receipt => exact ⟨h.1.append u, h.2⟩
  | error e =>
    rcases h with ⟨hcls, hrefused⟩ | hcls
    · exact .inl ⟨hcls, hrefused.append u⟩
    · exact .inr hcls

/-- What does not touch a request keeps its law. -/
theorem Lawful.untouched (h : Lawful requestId t s) (hwritten : written requestId [l] = [])
    (hgeneration : s.session.generation ≤ s'.session.generation)
    (hrequest : s'.requests requestId = s.requests requestId)
    (hfuture : s'.session.futures requestId = s.session.futures requestId) :
    Lawful requestId (t ++ [l]) s' where
  phase := by
    rw [hrequest]
    exact h.phase.append hwritten hgeneration
  verdict := by
    intro verdict hdone
    rw [hfuture] at hdone
    refine (h.verdict verdict hdone).append.mono hgeneration fun generation hmade => ?_
    rw [← hrequest]
    exact hmade

end Carrying

section Loop

variable {requestId : String} {t : List Label} {l : Label} {s s' : System}

theorem responseVerdict_law {response : Fields} {generation : ℕ}
    (hresponded : Responded t requestId generation response)
    (hgeneration : generation = s.session.generation)
    (hmade : ∀ made, madeOn (s.requests requestId) = some made → made ≤ generation) :
    VerdictLaw requestId t s (responseVerdict response s.session) := by
  unfold responseVerdict
  split
  · exact .inr rfl
  · next hhas =>
    have herror : response.has "error" = true := by simpa using hhas
    split
    · next hnull =>
      refine ⟨⟨response, ?_, herror, hnull⟩, Nat.le_refl _, ?_⟩
      · rw [← hgeneration]
        exact hresponded
      · rw [← hgeneration]
        exact hmade
    · next text htext =>
      split
      · exact .inr rfl
      · next hblank => exact .inl ⟨rfl, generation, response, text, hresponded, htext, hblank⟩
    · exact .inr rfl

/-- A response settles at most the future of the request it names. -/
theorem handleResponse_futures (payload : Fields) (s : Session) :
    (handleResponse payload s).futures requestId = s.futures requestId ∨
      ∃ response : Fields, payload.get "response" = .obj response ∧
        textOf (response.get "request_id") = some requestId ∧
        (handleResponse payload s).futures requestId = .done (responseVerdict response s) := by
  unfold handleResponse
  split
  · next response hresponse =>
    unfold settleResponse
    split
    · exact .inl rfl
    · next named hnamed =>
      split
      · exact .inl rfl
      · by_cases hsame : requestId = named
        · subst hsame
          exact .inr ⟨response, hresponse, hnamed, Function.update_self ..⟩
        · exact .inl (Function.update_of_ne hsame ..)
  · exact .inl rfl

theorem handleResponse_generation (payload : Fields) (s : Session) :
    (handleResponse payload s).generation = s.generation := by
  unfold handleResponse settleResponse
  split
  · split
    · rfl
    · split <;> rfl
  · rfl

theorem handleCommands_feed (payload : Fields) (s : Session) :
    (handleCommands payload s).generation = s.generation ∧
      (handleCommands payload s).futures = s.futures := by
  unfold handleCommands
  split <;> exact ⟨rfl, rfl⟩

theorem recordFrame_feed (s : Session) (frame : Option FlowFrame) :
    (recordFrame s frame).generation = s.generation ∧
      (recordFrame s frame).futures = s.futures := by
  cases frame <;> exact ⟨rfl, rfl⟩

theorem PhaseLaw.madeOn_le {phase : RequestPhase} {current : ℕ}
    (h : PhaseLaw requestId t current phase) :
    ∀ generation, madeOn phase = some generation → generation ≤ current := by
  intro generation hmade
  cases phase with
  | queued websocket made payload =>
    cases hmade
    exact h.2
  | sending made =>
    cases hmade
    exact h.2
  | awaiting made =>
    cases hmade
    exact h.2
  | _ => cases hmade

/-- The connection loop keeps the law of every request. -/
theorem loopStep_lawful (h : Lawful requestId t s) (hstep : LoopStep s l s') :
    Lawful requestId (t ++ [l]) s' := by
  cases hstep with
  | connect websocket _ => exact h.untouched rfl (Nat.le_succ _) rfl rfl
  | ignore message _ _ => exact h.untouched rfl (Nat.le_refl _) rfl rfl
  | @receive websocket message payload hloop hpayload =>
    have hle : s.session.generation ≤ (handleResponse payload s.session).generation :=
      Nat.le_of_eq (handleResponse_generation payload s.session).symm
    rcases @handleResponse_futures requestId payload s.session with
      hsame | ⟨response, hresponse, hnamed, hdone⟩
    · exact h.untouched rfl hle rfl hsame
    · refine ⟨?_, fun verdict hverdict => ?_⟩
      · exact h.phase.append rfl hle
      · dsimp only at hverdict
        rw [hdone] at hverdict
        cases hverdict
        have hresponded : Responded (t ++ [.receive s.session.generation message]) requestId
            s.session.generation response :=
          ⟨message, payload, List.mem_append_right t (List.mem_singleton_self _), hpayload,
            hresponse, hnamed⟩
        have hlaw := responseVerdict_law (s := s) hresponded rfl h.phase.madeOn_le
        exact hlaw.mono hle fun _ hmade => hmade
  | @commands websocket payload _ =>
    obtain ⟨hgeneration, hfutures⟩ := handleCommands_feed payload s.session
    exact h.untouched rfl (Nat.le_of_eq hgeneration.symm) rfl (congrFun hfutures requestId)
  | @flow websocket payload _ =>
    obtain ⟨hgeneration, hfutures⟩ := recordFrame_feed s.session (flowFrame payload s.session)
    exact h.untouched rfl (Nat.le_of_eq hgeneration.symm) rfl (congrFun hfutures requestId)
  | leave _ =>
    refine h.untouched rfl ?_ rfl ?_
    · dsimp only
      split <;> exact Nat.le_refl _
    · dsimp only
      split <;> rfl
  | rejectPending _ =>
    refine ⟨h.phase.append rfl (Nat.le_refl _), fun verdict hverdict => ?_⟩
    simp only [rejectPendingUnknown] at hverdict
    split at hverdict
    · cases hverdict
      exact .inr rfl
    · exact (h.verdict verdict hverdict).append.mono (Nat.le_refl _) fun _ hmade => hmade
  | cutShort _ => exact h.untouched rfl (Nat.le_refl _) rfl rfl

end Loop

section Requests

variable {requestId sysid : String} {t : List Label} {l : Label} {s s' : System}

def actor : Label → Option String
  | .request requestId _ _ => some requestId
  | .write requestId _ _ => some requestId
  | .refuse requestId => some requestId
  | .sent requestId => some requestId
  | .sendFailed requestId _ => some requestId
  | .resume requestId => some requestId
  | .timeout requestId => some requestId
  | .cancel requestId => some requestId
  | _ => none

theorem requestCommand_other (made : String) (hne : requestId ≠ made) (command arguments : Json)
    (s : System) :
    (requestCommand sysid made command arguments s).requests requestId = s.requests requestId ∧
      (requestCommand sysid made command arguments s).session.futures requestId =
        s.session.futures requestId := by
  rcases requestCommand_cases sysid made command arguments s with
    ⟨_, heq⟩ | ⟨-, _, heq⟩ | ⟨_, _, -, -, heq⟩
  · rw [heq]
    exact ⟨Function.update_of_ne hne .., rfl⟩
  · rw [heq]
    exact ⟨Function.update_of_ne hne .., rfl⟩
  · rw [heq]
    exact ⟨Function.update_of_ne hne .., Function.update_of_ne hne ..⟩

theorem requestCommand_generation (made : String) (command arguments : Json) (s : System) :
    (requestCommand sysid made command arguments s).session.generation =
      s.session.generation := by
  rcases requestCommand_cases sysid made command arguments s with
    ⟨_, heq⟩ | ⟨-, _, heq⟩ | ⟨_, _, -, -, heq⟩
  all_goals
    rw [heq]
    rfl

theorem requestStep_generation (h : RequestStep sysid s l s') :
    s'.session.generation = s.session.generation := by
  cases h with
  | request made command arguments _ => exact requestCommand_generation made command arguments s
  | _ => rfl

/-- A request step leaves every other request alone. -/
theorem requestStep_other (h : RequestStep sysid s l s') (hne : actor l ≠ some requestId) :
    written requestId [l] = [] ∧ s'.requests requestId = s.requests requestId ∧
      s'.session.futures requestId = s.session.futures requestId := by
  cases h with
  | @request made command arguments _ =>
    have hother : requestId ≠ made := fun heq => hne (by rw [heq]; rfl)
    exact ⟨rfl, requestCommand_other made hother command arguments s⟩
  | @write made websocket generation payload text =>
    have hother : requestId ≠ made := fun heq => hne (by rw [heq]; rfl)
    exact ⟨by simp [written, Ne.symm hother], Function.update_of_ne hother .., rfl⟩
  | @timeout made =>
    have hother : requestId ≠ made := fun heq => hne (by rw [heq]; rfl)
    exact ⟨rfl, Function.update_of_ne hother .., Function.update_of_ne hother ..⟩
  | @cancelAwaiting made =>
    have hother : requestId ≠ made := fun heq => hne (by rw [heq]; rfl)
    exact ⟨rfl, Function.update_of_ne hother .., Function.update_of_ne hother ..⟩
  | @refuse made | @unprintable made | @sent made | @sendFailed made | @resume made
  | @cancelQueued made | @cancelSending made =>
    have hother : requestId ≠ made := fun heq => hne (by rw [heq]; rfl)
    exact ⟨rfl, Function.update_of_ne hother .., rfl⟩

theorem errorLaw_unknown {u : List Label} (hwritten : (written requestId u).length ≤ 1)
    (message : String) : ErrorLaw requestId u (outcomeUnknown message) where
  once := hwritten
  rejected := fun hcls => by cases hcls
  notSent := fun hcls => by cases hcls
  known := .inl (by simp [requestErrors, outcomeUnknown])

theorem errorLaw_notSent {u : List Label} (hwritten : written requestId u = [])
    (message : String) : ErrorLaw requestId u (notSent message) where
  once := by simp [hwritten]
  rejected := fun hcls => by cases hcls
  notSent := fun _ => hwritten
  known := .inl (by simp [requestErrors, RobotSession.notSent])

theorem errorLaw_value {u : List Label} (hwritten : written requestId u = []) {message : String}
    {command arguments : Json} (hmem : .request requestId command arguments ∈ u)
    (hinvalid : validCall command arguments = false) :
    ErrorLaw requestId u ⟨.value, message⟩ where
  once := by simp [hwritten]
  rejected := fun hcls => by cases hcls
  notSent := fun _ => hwritten
  known := .inr (.inl ⟨command, arguments, hmem, hinvalid⟩)

theorem errorLaw_cancelled {u : List Label} (hwritten : (written requestId u).length ≤ 1)
    {message : String} (hmem : .cancel requestId ∈ u) :
    ErrorLaw requestId u ⟨.cancelled, message⟩ where
  once := hwritten
  rejected := fun hcls => by cases hcls
  notSent := fun hcls => by cases hcls
  known := .inr (.inr hmem)

/-- The first part of a request: refused for its connection or its arguments, or
registered with a future of its own. -/
theorem requestCommand_lawful (h : Lawful requestId t s) (command arguments : Json)
    (habsent : s.requests requestId = .absent) :
    Lawful requestId (t ++ [.request requestId command arguments])
      (requestCommand sysid requestId command arguments s) := by
  have hphase := h.phase
  rw [habsent] at hphase
  have hwritten : written requestId (t ++ [.request requestId command arguments]) = [] := by
    rw [written_append, hphase]
    rfl
  have hmem : Label.request requestId command arguments ∈
      t ++ [.request requestId command arguments] :=
    List.mem_append_right t (List.mem_singleton_self _)
  have hraised : ∀ e, ErrorLaw requestId (t ++ [.request requestId command arguments]) e →
      Lawful requestId (t ++ [.request requestId command arguments])
        (s.move requestId (.raised e)) := by
    intro e herror
    refine ⟨?_, fun verdict hdone => ?_⟩
    · simp only [System.move, Function.update_self]
      exact herror
    · refine (h.verdict verdict hdone).append.mono (Nat.le_refl _) fun generation hmade => ?_
      simp [System.move, madeOn] at hmade
  rcases requestCommand_cases sysid requestId command arguments s with
    ⟨_, heq⟩ | ⟨hinvalid, _, heq⟩ | ⟨_, _, -, -, heq⟩
  · rw [heq]
    exact hraised _ (errorLaw_notSent hwritten _)
  · rw [heq]
    exact hraised _ (errorLaw_value hwritten hmem hinvalid)
  · rw [heq]
    refine ⟨?_, fun verdict hdone => ?_⟩
    · simp only [System.move, Function.update_self]
      exact ⟨hwritten, Nat.le_refl _⟩
    · simp [System.move, System.register] at hdone

/-- A request that moves on keeps its law when its future is as it was, or gone. -/
theorem Lawful.moved (h : Lawful requestId t s) {phase : RequestPhase}
    (hrequest : s'.requests requestId = phase)
    (hphase : PhaseLaw requestId (t ++ [l]) s.session.generation phase)
    (hmade : ∀ generation, madeOn phase = some generation →
      madeOn (s.requests requestId) = some generation)
    (hgeneration : s'.session.generation = s.session.generation)
    (hfuture : s'.session.futures requestId = s.session.futures requestId ∨
      s'.session.futures requestId = .cancelled) : Lawful requestId (t ++ [l]) s' := by
  refine ⟨?_, fun verdict hdone => ?_⟩
  · rw [hrequest, hgeneration]
    exact hphase
  · rcases hfuture with hsame | hcancelled
    · rw [hsame] at hdone
      refine (h.verdict verdict hdone).append.mono (Nat.le_of_eq hgeneration.symm) ?_
      rw [hrequest]
      exact hmade
    · rw [hcancelled] at hdone
      cases hdone

theorem acknowledged_phase (h : Lawful requestId t s) {generation : ℕ}
    {verdict : Except PyExc CommandReceipt} {u : List Label}
    (hphase : s.requests requestId = .awaiting generation)
    (hdone : s.session.futures requestId = .done verdict) (hu : written requestId u = []) :
    PhaseLaw requestId (t ++ u) s.session.generation
      (acknowledged s.session generation verdict) := by
  have hwritten := h.phase
  rw [hphase] at hwritten
  have hone : (written requestId (t ++ u)).length = 1 := by
    rw [written_append, hwritten.1, hu]
    rfl
  have hverdict := (h.verdict verdict hdone).append (u := u)
  cases verdict with
  | ok receipt =>
    simp only [acknowledged]
    split
    · exact hone
    · exact errorLaw_unknown hone.le _
  | error e =>
    rcases hverdict with ⟨hcls, hrefused⟩ | hcls
    · refine ⟨hone.le, fun _ => hrefused, fun hnot => ?_, .inl (by simp [requestErrors, hcls])⟩
      rw [hcls] at hnot
      cases hnot
    · refine ⟨hone.le, fun hnot => ?_, fun hnot => ?_, .inl (by simp [requestErrors, hcls])⟩
      · rw [hcls] at hnot
        cases hnot
      · rw [hcls] at hnot
        cases hnot

/-- A request keeps its own law at each of its steps. -/
theorem requestStep_own (h : Lawful requestId t s) (hstep : RequestStep sysid s l s')
    (hactor : actor l = some requestId) : Lawful requestId (t ++ [l]) s' := by
  have hlaw := h.phase
  cases hstep with
  | @request made command arguments habsent =>
    cases hactor
    exact requestCommand_lawful h command arguments habsent
  | @write made websocket generation payload text hphase hlock hsame hdumps =>
    cases hactor
    rw [hphase] at hlaw
    refine h.moved (Function.update_self ..) ⟨?_, hlaw.2⟩ ?_ rfl (.inl rfl)
    · rw [written_append, hlaw.1]
      simp [written]
    · rw [hphase]
      exact fun _ hmade => hmade
  | @refuse made websocket generation payload hphase hlock hsame =>
    cases hactor
    rw [hphase] at hlaw
    refine h.moved (Function.update_self ..) (errorLaw_notSent ?_ _) (fun _ hmade => by cases hmade)
      rfl (.inl rfl)
    rw [written_append, hlaw.1]
    rfl
  | @unprintable made websocket generation payload hphase hlock hsame hdumps =>
    cases hactor
    rw [hphase] at hlaw
    refine h.moved (Function.update_self ..) (errorLaw_unknown ?_ _) (fun _ hmade => by cases hmade)
      rfl (.inl rfl)
    rw [written_append, hlaw.1]
    exact Nat.zero_le _
  | @sent made generation hphase =>
    cases hactor
    rw [hphase] at hlaw
    refine h.moved (Function.update_self ..) ⟨?_, hlaw.2⟩ ?_ rfl (.inl rfl)
    · rw [written_append, hlaw.1]
      rfl
    · rw [hphase]
      exact fun _ hmade => hmade
  | @sendFailed made generation e hphase =>
    cases hactor
    rw [hphase] at hlaw
    refine h.moved (Function.update_self ..) (errorLaw_unknown ?_ _) (fun _ hmade => by cases hmade)
      rfl (.inl rfl)
    rw [written_append, hlaw.1]
    exact Nat.le_refl _
  | @resume made generation verdict hphase hdone =>
    cases hactor
    refine h.moved (Function.update_self ..) (acknowledged_phase h hphase hdone rfl) ?_
      rfl (.inl rfl)
    intro other hmade
    cases verdict with
    | ok receipt =>
      simp only [acknowledged] at hmade
      split at hmade <;> cases hmade
    | error e => cases hmade
  | @timeout made generation hphase =>
    cases hactor
    rw [hphase] at hlaw
    refine h.moved (Function.update_self ..) (errorLaw_unknown ?_ _) (fun _ hmade => by cases hmade)
      rfl (.inr (Function.update_self ..))
    rw [written_append, hlaw.1]
    exact Nat.le_refl _
  | @cancelQueued made message websocket generation payload hphase =>
    cases hactor
    rw [hphase] at hlaw
    refine h.moved (Function.update_self ..) (errorLaw_cancelled ?_ (by simp))
      (fun _ hmade => by cases hmade) rfl (.inl rfl)
    rw [written_append, hlaw.1]
    exact Nat.zero_le _
  | @cancelSending made message generation hphase =>
    cases hactor
    rw [hphase] at hlaw
    refine h.moved (Function.update_self ..) (errorLaw_cancelled ?_ (by simp))
      (fun _ hmade => by cases hmade) rfl (.inl rfl)
    rw [written_append, hlaw.1]
    exact Nat.le_refl _
  | @cancelAwaiting made message generation hphase =>
    cases hactor
    rw [hphase] at hlaw
    refine h.moved (Function.update_self ..) (errorLaw_cancelled ?_ (by simp))
      (fun _ hmade => by cases hmade) rfl (.inr (Function.update_self ..))
    rw [written_append, hlaw.1]
    exact Nat.le_refl _

/-- Every step keeps the law of every request. -/
theorem step_lawful (h : Lawful requestId t s) (hstep : Step sysid s l s') :
    Lawful requestId (t ++ [l]) s' := by
  rcases hstep with hloop | hrequest
  · exact loopStep_lawful h hloop
  · by_cases hactor : actor l = some requestId
    · exact requestStep_own h hrequest hactor
    · obtain ⟨hwritten, hsame, hfuture⟩ := requestStep_other hrequest hactor
      exact h.untouched hwritten (Nat.le_of_eq (requestStep_generation hrequest).symm) hsame
        hfuture

theorem run_lawful (h : Run (Step sysid) System.initial t s) : Lawful requestId t s := by
  refine h.invariant (I := fun t s => Lawful requestId t s) ?_ ?_
  · exact ⟨rfl, fun verdict hdone => by cases hdone⟩
  · exact fun t s l s' _ hlawful hstep => step_lawful hlawful hstep

end Requests

section Correlation

variable {requestId sysid : String} {t : List Label} {l : Label} {s s' : System}

def Ends (s s' : System) (requestId : String) (phase : RequestPhase) : Prop :=
  s'.requests requestId = phase ∧ s.requests requestId ≠ phase

theorem PhaseLaw.once {phase : RequestPhase} {current : ℕ}
    (h : PhaseLaw requestId t current phase) : (written requestId t).length ≤ 1 := by
  cases phase with
  | absent =>
    have hwritten : written requestId t = [] := h
    simp [hwritten]
  | queued websocket generation payload => simp [h.1]
  | sending generation => simp [h.1]
  | awaiting generation => simp [h.1]
  | returned receipt => exact Nat.le_of_eq h
  | raised e => exact ErrorLaw.once h

/-- A receipt is returned to a request whose own connection is still open. -/
theorem returned_step {receipt : CommandReceipt} (hstep : Step sysid s l s')
    (hends : Ends s s' requestId (.returned receipt)) :
    s.session.connected = true ∧ s.requests requestId = .awaiting s.session.generation ∧
      s.session.futures requestId = .done (.ok receipt) := by
  obtain ⟨hreturned, hbefore⟩ := hends
  rcases hstep with hloop | hrequest
  · have hsame : s'.requests = s.requests := by cases hloop <;> rfl
    exact absurd (hsame ▸ hreturned) hbefore
  · by_cases hactor : actor l = some requestId
    · cases hrequest with
      | @request made command arguments =>
        cases hactor
        rcases requestCommand_cases sysid requestId command arguments s with
          ⟨_, heq⟩ | ⟨-, _, heq⟩ | ⟨_, _, -, -, heq⟩
        all_goals
          rw [heq] at hreturned
          simp [System.move] at hreturned
      | @resume made generation verdict hphase hdone =>
        cases hactor
        simp only [System.finish, Function.update_self] at hreturned
        cases verdict with
        | ok answered =>
          simp only [acknowledged] at hreturned
          split at hreturned
          · next hsame =>
            cases hreturned
            simp only [Bool.and_eq_true, decide_eq_true_eq] at hsame
            refine ⟨hsame.1, ?_, hdone⟩
            rw [hphase, hsame.2]
          · cases hreturned
        | error e => cases hreturned
      | _ =>
        cases hactor
        simp [System.move, System.finish] at hreturned
    · exact absurd ((requestStep_other hrequest hactor).2.1 ▸ hreturned) hbefore

/-- Each request is written at most once; it returns a receipt only for an
acknowledgement of its own on the connection it was written to, which is still
open; it is rejected only by an error of its own, not sent only when nothing was
written, and otherwise unknown. -/
theorem command_correlation (hrun : Run (Step sysid) System.initial t s)
    (hstep : Step sysid s l s') (requestId : String) :
    (written requestId (t ++ [l])).length ≤ 1 ∧
    (∀ receipt, Ends s s' requestId (.returned receipt) → s.session.connected = true ∧
      written requestId t = [s.session.generation] ∧
      Acknowledged t requestId s.session.generation) ∧
    (∀ e, Ends s s' requestId (.raised e) →
      (e.cls = .robotCommandRejected → Refused (t ++ [l]) requestId) ∧
      (e.cls = .robotCommandNotSent → written requestId (t ++ [l]) = []) ∧
      ((∀ command arguments, .request requestId command arguments ∈ t ++ [l] →
          validCall command arguments = true) → .cancel requestId ∉ t ++ [l] →
        e.cls ∈ requestErrors)) := by
  have hbefore : Lawful requestId t s := run_lawful hrun
  have hafter : Lawful requestId (t ++ [l]) s' := step_lawful hbefore hstep
  refine ⟨hafter.phase.once, fun receipt hends => ?_, fun e hends => ?_⟩
  · obtain ⟨hconnected, hphase, hdone⟩ := returned_step hstep hends
    have hwritten := hbefore.phase
    rw [hphase] at hwritten
    obtain ⟨hacknowledged, hle, hfrom⟩ := hbefore.verdict _ hdone
    have hge := hfrom s.session.generation (by rw [hphase]; rfl)
    have hsame : receipt.generation = s.session.generation := by omega
    rw [hsame] at hacknowledged
    exact ⟨hconnected, hwritten.1, hacknowledged⟩
  · have herror := hafter.phase
    rw [hends.1] at herror
    refine ⟨herror.rejected, herror.notSent, fun hvalid hcancel => ?_⟩
    rcases herror.known with hknown | ⟨command, arguments, hmem, hinvalid⟩ | hcancelled
    · exact hknown
    · rw [hvalid command arguments hmem] at hinvalid
      cases hinvalid
    · exact absurd hcancelled hcancel

/-- A request that was written on the first connection and timed out. -/
theorem command_correlation_timeout : ∃ t s s', Run (Step "ROBOT") System.initial t s ∧
    Step "ROBOT" s (.timeout "r") s' ∧ written "r" t = [1] ∧
    ∀ e, Ends s s' "r" (.raised e) → e.cls ∈ requestErrors := by
  have hsome : (dumps compactStyle (commandPayload "ROBOT" "r" "$stop" [])).isSome = true := by
    decide +kernel
  obtain ⟨text, htext⟩ := Option.isSome_iff_exists.mp hsome
  have hblank : strip "$stop" ≠ "" := by decide +kernel
  have hstart : Run (Step "ROBOT") System.initial [] System.initial := .start
  have hconnect := hstart.next (.inl (.connect 7 rfl))
  have hrequest := hconnect.next (.inr (.request "r" (.str "$stop") (.obj []) rfl))
  rw [requestCommand_valid rfl rfl hblank] at hrequest
  have hwrite := hrequest.next (.inr (.write (Function.update_self ..) rfl rfl htext))
  have hsent := hwrite.next (.inr (.sent (Function.update_self ..)))
  refine ⟨_, _, _, hsent, .inr (.timeout "r" (show _ = RequestPhase.awaiting 1 from rfl)), rfl,
    fun e hends => ?_⟩
  have hcorrelated := command_correlation hsent
    (.inr (.timeout "r" (show _ = RequestPhase.awaiting 1 from rfl))) "r"
  refine (hcorrelated.2.2 e hends).2.2 (fun command arguments hmem => ?_) (by simp)
  simp only [List.nil_append, List.cons_append, List.mem_cons, reduceCtorEq,
    Label.request.injEq, List.not_mem_nil, or_false, false_or] at hmem
  rw [hmem.2.1, hmem.2.2]
  decide +kernel

end Correlation

end FailureResolver.CommandCorrelation
