import FailureResolver.CommandCorrelation

/-!
The pending requests of a session. A request registers its entry before it waits
for the send lock and takes it out again in its handlers, which a cancellation
passes by until the command was sent. The pending ids are those of the requests
in flight exactly when every cancelled request had sent its command.
-/

namespace FailureResolver.PendingRequests

open JsonText JsonValue LiveFlow PyException PyText RobotSession CommandCorrelation Transitions

section Entries

/-- The request waits for the send lock, is being sent, or waits for its response. -/
def InFlight : RequestPhase → Prop
  | .queued .. => True
  | .sending _ => True
  | .awaiting _ => True
  | _ => False

def HasEnded : RequestPhase → Prop
  | .returned _ => True
  | .raised _ => True
  | _ => False

/-- No request that has ended is pending, every pending one is in flight, and the
connection loop settles no future but one of a request in flight. -/
structure NoLeaks (s : System) : Prop where
  ended : ∀ requestId, HasEnded (s.requests requestId) → requestId ∉ s.session.pending
  keys : ∀ requestId, requestId ∈ s.session.pending ↔ InFlight (s.requests requestId)
  waiter : ∀ l s', LoopStep s l s' → ∀ requestId,
    s'.session.futures requestId ≠ s.session.futures requestId →
      InFlight (s.requests requestId)

/-- Every request that was cancelled had sent its command. -/
def CancelledAfterSend (t : List Label) : Prop :=
  ∀ requestId, .cancel requestId ∈ t → .sent requestId ∈ t

/-- The entry of one request against what has happened to it. -/
def EntryLaw (requestId : String) (t : List Label) (s : System) : RequestPhase → Prop
  | .absent => requestId ∉ s.session.pending ∧ .cancel requestId ∉ t ∧ .sent requestId ∉ t
  | .queued .. => requestId ∈ s.session.pending ∧ .cancel requestId ∉ t ∧ .sent requestId ∉ t
  | .sending _ => requestId ∈ s.session.pending ∧ .cancel requestId ∉ t ∧ .sent requestId ∉ t
  | .awaiting _ => requestId ∈ s.session.pending ∧ .cancel requestId ∉ t ∧ .sent requestId ∈ t
  | .returned _ => requestId ∉ s.session.pending ∧ .cancel requestId ∉ t
  | .raised _ =>
      requestId ∈ s.session.pending ↔ .cancel requestId ∈ t ∧ .sent requestId ∉ t

abbrev Entered (requestId : String) (t : List Label) (s : System) : Prop :=
  EntryLaw requestId t s (s.requests requestId)

end Entries

section Steps

variable {requestId sysid : String} {t : List Label} {l : Label} {s s' : System}

theorem handleResponse_pending (payload : Fields) (s : Session) :
    (handleResponse payload s).pending = s.pending := by
  unfold handleResponse settleResponse
  split
  · split
    · rfl
    · split <;> rfl
  · rfl

/-- The connection loop takes no entry out and puts none in. -/
theorem loopStep_pending (h : LoopStep s l s') :
    s'.session.pending = s.session.pending ∧ s'.requests = s.requests ∧ actor l = none := by
  cases h with
  | @receive websocket message payload =>
    exact ⟨handleResponse_pending payload s.session, rfl, rfl⟩
  | @commands websocket payload =>
    refine ⟨?_, rfl, rfl⟩
    show (handleCommands payload s.session).pending = s.session.pending
    unfold handleCommands
    split <;> rfl
  | @flow websocket payload =>
    refine ⟨?_, rfl, rfl⟩
    cases hframe : flowFrame payload s.session <;> rfl
  | leave _ =>
    refine ⟨?_, rfl, rfl⟩
    dsimp only
    split <;> rfl
  | _ => exact ⟨rfl, rfl, rfl⟩

/-- A response settles the future of a pending request. -/
theorem handleResponse_settles {payload : Fields} {s : Session}
    (h : (handleResponse payload s).futures requestId ≠ s.futures requestId) :
    requestId ∈ s.pending := by
  unfold handleResponse at h
  split at h
  · next response hresponse =>
    unfold settleResponse at h
    split at h
    · exact absurd rfl h
    · next named hnamed =>
      split at h
      · exact absurd rfl h
      · next hwaiting =>
        by_cases hsame : requestId = named
        · subst hsame
          by_contra hgone
          exact hwaiting (by simp [hgone])
        · exact absurd (Function.update_of_ne hsame ..) h
  · exact absurd rfl h

/-- The connection loop settles the futures of pending requests alone. -/
theorem loopStep_settles (h : LoopStep s l s')
    (hchanged : s'.session.futures requestId ≠ s.session.futures requestId) :
    requestId ∈ s.session.pending := by
  cases h with
  | @receive websocket message payload => exact handleResponse_settles hchanged
  | @commands websocket payload =>
    exact absurd (congrFun (handleCommands_feed payload s.session).2 requestId) hchanged
  | @flow websocket payload =>
    exact absurd (congrFun (recordFrame_feed s.session _).2 requestId) hchanged
  | leave _ =>
    refine absurd ?_ hchanged
    dsimp only
    split <;> rfl
  | rejectPending _ =>
    by_contra hgone
    refine hchanged ?_
    simp [rejectPendingUnknown, hgone]
  | _ => exact absurd rfl hchanged

theorem not_mem_finish (s : System) (requestId : String) (phase : RequestPhase) :
    requestId ∉ (s.finish requestId phase).session.pending := by
  simp [System.finish]

/-- A request puts in and takes out its own entry alone. -/
theorem requestStep_pending (h : RequestStep sysid s l s') (hne : actor l ≠ some requestId) :
    requestId ∈ s'.session.pending ↔ requestId ∈ s.session.pending := by
  cases h with
  | @request made command arguments _ =>
    have hother : requestId ≠ made := fun heq => hne (by rw [heq]; rfl)
    rcases requestCommand_cases sysid made command arguments s with
      ⟨_, heq⟩ | ⟨-, _, heq⟩ | ⟨_, _, -, -, heq⟩
    · rw [heq]
      exact Iff.rfl
    · rw [heq]
      exact Iff.rfl
    · rw [heq]
      simp [System.move, System.register, hother]
  | @refuse made | @unprintable made | @sendFailed made | @resume made | @timeout made
  | @cancelAwaiting made =>
    have hother : requestId ≠ made := fun heq => hne (by rw [heq]; rfl)
    simp [System.finish, Session.settle, hother]
  | _ => exact Iff.rfl

/-- What does not touch a request keeps the law of its entry. -/
theorem EntryLaw.untouched {phase : RequestPhase} (h : EntryLaw requestId t s phase)
    (hne : actor l ≠ some requestId)
    (hpending : requestId ∈ s'.session.pending ↔ requestId ∈ s.session.pending) :
    EntryLaw requestId (t ++ [l]) s' phase := by
  have hcancel : .cancel requestId ∈ t ++ [l] ↔ .cancel requestId ∈ t := by
    refine ⟨fun hmem => ?_, fun hmem => List.mem_append_left _ hmem⟩
    rcases List.mem_append.mp hmem with hmem | hmem
    · exact hmem
    · exact absurd (by rw [← List.mem_singleton.mp hmem]; rfl) hne
  have hsent : .sent requestId ∈ t ++ [l] ↔ .sent requestId ∈ t := by
    refine ⟨fun hmem => ?_, fun hmem => List.mem_append_left _ hmem⟩
    rcases List.mem_append.mp hmem with hmem | hmem
    · exact hmem
    · exact absurd (by rw [← List.mem_singleton.mp hmem]; rfl) hne
  cases phase with
  | _ =>
    simp only [EntryLaw, hcancel, hsent, hpending] at h ⊢
    exact h

/-- A request that ends with its entry taken out, and was not cancelled before it
was sent. -/
theorem entered_ended {phase : RequestPhase} (hended : HasEnded phase)
    (hgone : requestId ∉ s.session.pending) (hcancel : .cancel requestId ∉ t) :
    EntryLaw requestId t s phase := by
  cases phase with
  | returned receipt => exact ⟨hgone, hcancel⟩
  | raised e => exact ⟨fun hmem => absurd hmem hgone, fun hmem => absurd hmem.1 hcancel⟩
  | _ => exact hended.elim

theorem acknowledged_ended (s : Session) (generation : ℕ) (verdict : Except PyExc CommandReceipt) :
    HasEnded (acknowledged s generation verdict) := by
  cases verdict with
  | ok receipt =>
    unfold acknowledged
    dsimp only
    split <;> trivial
  | error e => trivial

/-- A request keeps the law of its own entry at each of its steps. -/
theorem requestStep_entered (h : Entered requestId t s) (hstep : RequestStep sysid s l s')
    (hactor : actor l = some requestId) : Entered requestId (t ++ [l]) s' := by
  have hlaw := h
  unfold Entered at hlaw ⊢
  have hfinish : ∀ {phase : RequestPhase}, s'.requests requestId = phase → HasEnded phase →
      requestId ∉ s'.session.pending → .cancel requestId ∉ t → l ≠ .cancel requestId →
      EntryLaw requestId (t ++ [l]) s' (s'.requests requestId) := by
    intro phase hphase hended hgone hcancel hl
    rw [hphase]
    exact entered_ended hended hgone (by simp [hcancel, hl.symm])
  cases hstep with
  | @request made command arguments habsent =>
    cases hactor
    rw [habsent] at hlaw
    obtain ⟨hgone, hcancel, hsent⟩ := hlaw
    rcases requestCommand_cases sysid requestId command arguments s with
      ⟨message, heq⟩ | ⟨-, message, heq⟩ | ⟨websocket, payload, -, -, heq⟩
    · rw [heq] at hfinish ⊢
      exact hfinish (Function.update_self ..) trivial hgone hcancel (by simp)
    · rw [heq] at hfinish ⊢
      exact hfinish (Function.update_self ..) trivial hgone hcancel (by simp)
    · rw [heq]
      simp only [System.move, Function.update_self, EntryLaw, System.register]
      simp [hcancel, hsent]
  | @write made websocket generation payload text hphase =>
    cases hactor
    rw [hphase] at hlaw
    obtain ⟨hthere, hcancel, hsent⟩ := hlaw
    simp only [System.move, Function.update_self, EntryLaw]
    simp [hthere, hcancel, hsent]
  | @sent made generation hphase =>
    cases hactor
    rw [hphase] at hlaw
    obtain ⟨hthere, hcancel, -⟩ := hlaw
    simp only [System.move, Function.update_self, EntryLaw]
    simp [hthere, hcancel]
  | @refuse made websocket generation payload hphase =>
    cases hactor
    rw [hphase] at hlaw
    exact hfinish (Function.update_self ..) trivial (not_mem_finish s requestId _) hlaw.2.1 (by simp)
  | @unprintable made websocket generation payload hphase =>
    cases hactor
    rw [hphase] at hlaw
    exact hfinish (Function.update_self ..) trivial (not_mem_finish s requestId _) hlaw.2.1 (by simp)
  | @sendFailed made generation e hphase =>
    cases hactor
    rw [hphase] at hlaw
    have hgone := not_mem_finish s requestId (.raised (outcomeUnknown
      "robot command dispatch failed; its outcome is unknown"))
    exact hfinish (Function.update_self ..) trivial hgone hlaw.2.1 (by simp)
  | @resume made generation verdict hphase =>
    cases hactor
    rw [hphase] at hlaw
    exact hfinish (Function.update_self ..) (acknowledged_ended ..)
      (not_mem_finish s requestId _) hlaw.2.1 (by simp)
  | @timeout made generation hphase =>
    cases hactor
    rw [hphase] at hlaw
    exact hfinish (Function.update_self ..) trivial
      (not_mem_finish { s with session := s.session.settle requestId .cancelled } requestId _)
      hlaw.2.1 (by simp)
  | @cancelQueued made message websocket generation payload hphase =>
    -- no handler of the request runs: the entry stays
    cases hactor
    rw [hphase] at hlaw
    obtain ⟨hthere, -, hsent⟩ := hlaw
    simp only [System.move, Function.update_self, EntryLaw]
    simp [hthere, hsent]
  | @cancelSending made message generation hphase =>
    cases hactor
    rw [hphase] at hlaw
    obtain ⟨hthere, -, hsent⟩ := hlaw
    simp only [System.move, Function.update_self, EntryLaw]
    simp [hthere, hsent]
  | @cancelAwaiting made message generation hphase =>
    cases hactor
    rw [hphase] at hlaw
    obtain ⟨-, -, hsent⟩ := hlaw
    simp only [System.finish, Function.update_self, EntryLaw]
    simp [hsent]

theorem step_entered (h : Entered requestId t s) (hstep : Step sysid s l s') :
    Entered requestId (t ++ [l]) s' := by
  rcases hstep with hloop | hrequest
  · obtain ⟨hpending, hrequests, hactor⟩ := loopStep_pending hloop
    unfold Entered
    rw [hrequests]
    exact EntryLaw.untouched h (by rw [hactor]; simp) (by rw [hpending])
  · by_cases hactor : actor l = some requestId
    · exact requestStep_entered h hrequest hactor
    · unfold Entered
      rw [(requestStep_other hrequest hactor).2.1]
      exact EntryLaw.untouched h hactor (requestStep_pending hrequest hactor)

theorem run_entered (hrun : Run (Step sysid) System.initial t s) : Entered requestId t s := by
  refine hrun.invariant (I := fun t s => Entered requestId t s) ?_ ?_
  · exact ⟨by simp [System.initial, Session.initial], by simp, by simp⟩
  · exact fun t s l s' _ hentered hstep => step_entered hentered hstep

end Steps

section Leaks

variable {sysid : String} {t : List Label} {s : System}

/-- In a run without a cancellation before the command was sent nothing leaks. -/
theorem noLeaks_run (hrun : Run (Step sysid) System.initial t s) (hclean : CancelledAfterSend t) :
    NoLeaks s := by
  have hkeys : ∀ requestId,
      requestId ∈ s.session.pending ↔ InFlight (s.requests requestId) := by
    intro requestId
    have hlaw : EntryLaw requestId t s (s.requests requestId) := run_entered hrun
    cases hphase : s.requests requestId with
    | absent =>
      rw [hphase] at hlaw
      exact ⟨fun hmem => absurd hmem hlaw.1, fun h => h.elim⟩
    | returned receipt =>
      rw [hphase] at hlaw
      exact ⟨fun hmem => absurd hmem hlaw.1, fun h => h.elim⟩
    | raised e =>
      rw [hphase] at hlaw
      refine ⟨fun hmem => ?_, fun h => h.elim⟩
      obtain ⟨hcancel, hsent⟩ := hlaw.mp hmem
      exact absurd (hclean requestId hcancel) hsent
    | _ =>
      rw [hphase] at hlaw
      exact ⟨fun _ => trivial, fun _ => hlaw.1⟩
  refine ⟨fun requestId hended hmem => ?_, hkeys, fun l s' hstep requestId hchanged => ?_⟩
  · have hflight := (hkeys requestId).mp hmem
    cases hphase : s.requests requestId with
    | returned receipt =>
      rw [hphase] at hflight
      exact hflight
    | raised e =>
      rw [hphase] at hflight
      exact hflight
    | _ =>
      rw [hphase] at hended
      exact hended
  · exact (hkeys requestId).mp (loopStep_settles hstep hchanged)

/-- Nothing leaks exactly when every cancelled request had sent its command. -/
theorem noLeaks_iff (hrun : Run (Step sysid) System.initial t s) :
    NoLeaks s ↔ CancelledAfterSend t := by
  refine ⟨fun h requestId hcancel => ?_, noLeaks_run hrun⟩
  have hlaw : EntryLaw requestId t s (s.requests requestId) := run_entered hrun
  by_contra hsent
  cases hphase : s.requests requestId with
  | raised e =>
    rw [hphase] at hlaw
    have hflight := (h.keys requestId).mp (hlaw.mpr ⟨hcancel, hsent⟩)
    rw [hphase] at hflight
    exact hflight
  | returned receipt =>
    rw [hphase] at hlaw
    exact hlaw.2 hcancel
  | _ =>
    rw [hphase] at hlaw
    exact hlaw.2.1 hcancel

theorem move_self (s : System) (requestId : String) (phase : RequestPhase) :
    (s.move requestId phase).requests requestId = phase := by
  unfold System.move
  exact Function.update_self ..

/-- A request of the first connection that is being sent. -/
theorem sending_run : ∃ t s, Run (Step "ROBOT") System.initial t s ∧
    CancelledAfterSend t ∧ .sent "r" ∉ t ∧ s.requests "r" = .sending 1 := by
  have hsome : (dumps compactStyle (commandPayload "ROBOT" "r" "$stop" [])).isSome = true := by
    decide +kernel
  obtain ⟨text, htext⟩ := Option.isSome_iff_exists.mp hsome
  have hblank : strip "$stop" ≠ "" := by decide +kernel
  have hstart : Run (Step "ROBOT") System.initial [] System.initial := .start
  have hconnect := hstart.next (.inl (.connect 7 rfl))
  have hrequest := hconnect.next (.inr (.request "r" (.str "$stop") (.obj []) rfl))
  rw [requestCommand_valid rfl rfl hblank] at hrequest
  have hwrite := hrequest.next (.inr (.write (Function.update_self ..) rfl rfl htext))
  exact ⟨_, _, hwrite, fun requestId hcancel => by simp at hcancel, by simp,
    rfl⟩

/-- A request that is cancelled while it is being sent stays pending. -/
theorem cancelled_pending : ∃ t s, Run (Step "ROBOT") System.initial t s ∧
    HasEnded (s.requests "r") ∧ "r" ∈ s.session.pending ∧ ¬ NoLeaks s := by
  obtain ⟨t, s, hrun, hclean, hsent, hphase⟩ := sending_run
  have hcancel := hrun.next (.inr (@RequestStep.cancelSending "ROBOT" s "r" "" 1 hphase))
  have hlaw : Entered "r" _ _ := run_entered hcancel
  unfold Entered at hlaw
  simp only [System.move, Function.update_self, EntryLaw] at hlaw
  have hmem := hlaw.mpr ⟨by simp, by simp [hsent]⟩
  refine ⟨_, _, hcancel, ?_, hmem, fun hleaks => hleaks.ended "r" ?_ hmem⟩
  · simp only [System.move, Function.update_self]
    trivial
  · simp only [System.move, Function.update_self]
    trivial

/-- One that is cancelled once it was sent is not. -/
theorem noLeaks_sample : ∃ t s, Run (Step "ROBOT") System.initial t s ∧
    .cancel "r" ∈ t ∧ NoLeaks s := by
  obtain ⟨t, s, hrun, hclean, hsent, hphase⟩ := sending_run
  have hsend := hrun.next (.inr (.sent hphase))
  have hawaiting : (s.move "r" (.awaiting 1)).requests "r" = .awaiting 1 :=
    move_self s "r" _
  have hcancel := hsend.next (.inr (@RequestStep.cancelAwaiting "ROBOT" _ "r" "" 1 hawaiting))
  refine ⟨_, _, hcancel, by simp, (noLeaks_iff hcancel).mpr fun requestId hmem => ?_⟩
  simp only [List.append_assoc, List.mem_append, List.mem_cons, List.not_mem_nil, or_false,
    reduceCtorEq, false_or, Label.cancel.injEq] at hmem
  rcases hmem with hbefore | rfl
  · exact List.mem_append_left _ (List.mem_append_left _ (hclean requestId hbefore))
  · simp

end Leaks

end FailureResolver.PendingRequests
