import FailureResolver.RecoveryContract
import FailureResolver.Transitions
import Mathlib.Data.Finset.Card

/-!
The notifications of the recovery coordinator. A failure that is being processed
is pending; a notification that finds it pending makes it dirty, and the worker
replays it when it ends. A worker is a task of the event loop: it exists before
its first step. The end of a worker is the same for a return, an exception and a
cancellation, because it is the finally block that runs.
-/

namespace FailureResolver.FailureNotifications

open JsonValue RecoveryContract Transitions

section Notifications

def maxPendingFailures : ℕ := 512

/-- The notification state, with the workers that have not run yet and those that
are inside the processing of their failure. -/
structure Notifications where
  stopping : Bool
  pending : Finset String
  dirty : Finset String
  created : List String
  running : List String

def Notifications.initial : Notifications where
  stopping := false
  pending := ∅
  dirty := ∅
  created := []
  running := []

def notifyFailure (enabled : Bool) (failureId : Json) (s : Notifications) : Notifications :=
  if !enabled || s.stopping then s
  else match uuidText failureId with
    | none => s
    | some canonical =>
        if canonical ∈ s.pending then { s with dirty := insert canonical s.dirty }
        else if maxPendingFailures ≤ s.pending.card then s
        else { s with
          pending := insert canonical s.pending
          created := canonical :: s.created }

def startWorker (failureId : String) (s : Notifications) : Notifications :=
  { s with created := s.created.erase failureId, running := failureId :: s.running }

def release (failureId : String) (s : Notifications) : Notifications :=
  { s with
    pending := s.pending.erase failureId
    dirty := s.dirty.erase failureId
    running := s.running.erase failureId }

def finishWorker (enabled : Bool) (failureId : String) (s : Notifications) : Notifications :=
  if failureId ∈ s.dirty && !s.stopping then
    notifyFailure enabled (.str failureId) (release failureId s)
  else release failureId s

inductive Label
  | notify (failureId : Json)
  | start (failureId : String)
  | finish (failureId : String)
  | stop

inductive Step (enabled : Bool) : Notifications → Label → Notifications → Prop
  | notify (s : Notifications) (failureId : Json) :
      Step enabled s (.notify failureId) (notifyFailure enabled failureId s)
  | start {s : Notifications} {failureId : String} : failureId ∈ s.created →
      Step enabled s (.start failureId) (startWorker failureId s)
  | finish {s : Notifications} {failureId : String} : failureId ∈ s.running →
      Step enabled s (.finish failureId) (finishWorker enabled failureId s)
  | stop (s : Notifications) : Step enabled s .stop { s with stopping := true }

/-- The notification is for a failure and is not dropped for the capacity. -/
def Accepted (s : Notifications) (failureId : Json) (canonical : String) : Prop :=
  uuidText failureId = some canonical ∧
    (canonical ∈ s.pending ∨ s.pending.card < maxPendingFailures)

end Notifications

section Workers

variable {s s' : Notifications} {l : Label} {t u : List Label} {failureId : String}

/-- The pending failures are those with a worker, one each; a dirty failure is pending. -/
structure Tidy (s : Notifications) : Prop where
  nodup : (s.created ++ s.running).Nodup
  workers : ∀ failureId, failureId ∈ s.pending ↔ failureId ∈ s.created ++ s.running
  canonical : ∀ failureId ∈ s.pending, uuidText (.str failureId) = some failureId
  dirty : s.dirty ⊆ s.pending
  bounded : s.pending.card ≤ maxPendingFailures

theorem tidy_initial : Tidy .initial where
  nodup := List.nodup_nil
  workers := fun failureId => by simp [Notifications.initial]
  canonical := fun failureId h => by simp [Notifications.initial] at h
  dirty := Finset.Subset.refl _
  bounded := Nat.zero_le _

theorem notifyFailure_stopped (failureId : Json) (h : s.stopping = true) :
    notifyFailure true failureId s = s := by
  simp [notifyFailure, h]

theorem notifyFailure_pending {notified : Json} (hrunning : s.stopping = false)
    (huuid : uuidText notified = some failureId) (hpending : failureId ∈ s.pending) :
    notifyFailure true notified s = { s with dirty := insert failureId s.dirty } := by
  simp [notifyFailure, hrunning, huuid, hpending]

theorem notifyFailure_new {notified : Json} (hrunning : s.stopping = false)
    (huuid : uuidText notified = some failureId) (hnew : failureId ∉ s.pending)
    (hroom : s.pending.card < maxPendingFailures) :
    notifyFailure true notified s =
      { s with pending := insert failureId s.pending, created := failureId :: s.created } := by
  simp [notifyFailure, hrunning, huuid, hnew, Nat.not_le.mpr hroom]

/-- What a notification does between start and stop. -/
theorem notifyFailure_cases (notified : Json) (hrunning : s.stopping = false) :
    notifyFailure true notified s = s ∨
    (∃ canonical ∈ s.pending, uuidText notified = some canonical ∧
      notifyFailure true notified s = { s with dirty := insert canonical s.dirty }) ∨
    ∃ canonical, canonical ∉ s.pending ∧ uuidText notified = some canonical ∧
      s.pending.card < maxPendingFailures ∧
      notifyFailure true notified s =
        { s with pending := insert canonical s.pending, created := canonical :: s.created } := by
  cases huuid : uuidText notified with
  | none =>
    left
    simp [notifyFailure, hrunning, huuid]
  | some canonical =>
    by_cases hpending : canonical ∈ s.pending
    · exact .inr (.inl ⟨canonical, hpending, rfl, notifyFailure_pending hrunning huuid hpending⟩)
    · by_cases hfull : maxPendingFailures ≤ s.pending.card
      · left
        simp [notifyFailure, hrunning, huuid, hpending, hfull]
      · have hroom : s.pending.card < maxPendingFailures := by omega
        exact .inr (.inr ⟨canonical, hpending, rfl, hroom,
          notifyFailure_new hrunning huuid hpending hroom⟩)

theorem Tidy.notify (h : Tidy s) (hrunning : s.stopping = false) (notified : Json) :
    Tidy (notifyFailure true notified s) := by
  rcases notifyFailure_cases notified hrunning with
    heq | ⟨canonical, hpending, -, heq⟩ | ⟨canonical, hnew, huuid, hroom, heq⟩
  · rw [heq]
    exact h
  · rw [heq]
    exact { h with dirty := Finset.insert_subset hpending h.dirty }
  · rw [heq]
    have hworkers : canonical ∉ s.created ++ s.running := by
      rw [← h.workers]
      exact hnew
    refine ⟨?_, fun other => ?_, fun other hother => ?_, ?_, ?_⟩
    · rw [List.cons_append]
      exact List.nodup_cons.mpr ⟨hworkers, h.nodup⟩
    · rw [Finset.mem_insert, h.workers, List.cons_append, List.mem_cons]
    · rcases Finset.mem_insert.mp hother with rfl | hother
      · exact uuidText_canonical huuid
      · exact h.canonical other hother
    · exact h.dirty.trans (Finset.subset_insert _ _)
    · rw [Finset.card_insert_of_notMem hnew]
      omega

theorem Tidy.start (h : Tidy s) (hcreated : failureId ∈ s.created) :
    Tidy (startWorker failureId s) := by
  have hperm : (s.created.erase failureId ++ failureId :: s.running).Perm
      (s.created ++ s.running) :=
    List.perm_middle.trans ((List.perm_cons_erase hcreated).symm.append_right s.running)
  exact { h with
    nodup := hperm.nodup_iff.mpr h.nodup
    workers := fun other => (h.workers other).trans hperm.mem_iff.symm }

/-- A worker's failure leaves the pending ones with it. -/
theorem Tidy.release (h : Tidy s) (hworking : failureId ∈ s.running) :
    Tidy (release failureId s) := by
  have hperm : (s.created ++ s.running).Perm
      (failureId :: (s.created ++ s.running.erase failureId)) :=
    ((List.perm_cons_erase hworking).append_left s.created).trans List.perm_middle
  have hnodup := List.nodup_cons.mp (hperm.nodup_iff.mp h.nodup)
  refine ⟨hnodup.2, fun other => ?_, fun other hother => ?_, ?_, ?_⟩
  · show other ∈ s.pending.erase failureId ↔ other ∈ s.created ++ s.running.erase failureId
    rw [Finset.mem_erase, h.workers, hperm.mem_iff, List.mem_cons]
    constructor
    · intro hother
      exact hother.2.resolve_left hother.1
    · intro hother
      exact ⟨fun heq => hnodup.1 (heq ▸ hother), .inr hother⟩
  · exact h.canonical other (Finset.mem_of_mem_erase hother)
  · exact Finset.erase_subset_erase _ h.dirty
  · exact (Finset.card_erase_le).trans h.bounded

theorem Tidy.finish (h : Tidy s) (hworking : failureId ∈ s.running) :
    Tidy (finishWorker true failureId s) := by
  unfold finishWorker
  split
  · next hreplay =>
    simp only [Bool.and_eq_true, Bool.not_eq_true'] at hreplay
    exact (h.release hworking).notify hreplay.2 _
  · exact h.release hworking

theorem step_tidy (h : Tidy s) (hstep : Step true s l s') : Tidy s' := by
  cases hstep with
  | notify notified =>
    by_cases hstopped : s.stopping = true
    · rw [notifyFailure_stopped notified hstopped]
      exact h
    · exact h.notify (by simpa using hstopped) notified
  | start hcreated => exact h.start hcreated
  | finish hworking => exact h.finish hworking
  | stop => exact { h with }

theorem run_tidy (h : Run (Step true) .initial t s) : Tidy s :=
  h.preserves tidy_initial fun _ _ _ htidy hstep => step_tidy htidy hstep

/-- The replay of a dirty failure creates a worker: its own place has just become free. -/
theorem finishWorker_replays (h : Tidy s) (hrunning : s.stopping = false)
    (hdirty : failureId ∈ s.dirty) :
    failureId ∈ (finishWorker true failureId s).created := by
  have hpending := h.dirty hdirty
  have hroom : (s.pending.erase failureId).card < maxPendingFailures := by
    have hcard := Finset.card_erase_of_mem hpending
    have hpos : 0 < s.pending.card := Finset.card_pos.mpr ⟨failureId, hpending⟩
    have hbounded := h.bounded
    omega
  unfold finishWorker
  rw [if_pos (by simp [hdirty, hrunning]), notifyFailure_new (s := release failureId s) hrunning
    (h.canonical failureId hpending) (Finset.notMem_erase _ _) hroom]
  exact List.mem_cons_self ..

end Workers

section Service

variable {s s' : Notifications} {l : Label} {t u : List Label} {failureId : String}

/-- What a notification is owed: its failure has been started since, or a worker
for it is about to run, or the running worker will replay it. -/
def Owed (failureId : String) (u : List Label) (s : Notifications) : Prop :=
  .start failureId ∈ u ∨ failureId ∈ s.created ∨
    (failureId ∈ s.running ∧ failureId ∈ s.dirty ∧ .finish failureId ∉ u)

theorem step_stopping (hrunning : s.stopping = false) (hstep : Step true s l s')
    (hnot : l ≠ .stop) : s'.stopping = false := by
  have hnotify : ∀ (s : Notifications) (notified : Json), s.stopping = false →
      (notifyFailure true notified s).stopping = false := by
    intro s notified hs
    rcases notifyFailure_cases notified hs with heq | ⟨_, _, _, heq⟩ | ⟨_, _, _, _, heq⟩ <;>
      rw [heq] <;> exact hs
  cases hstep with
  | notify notified => exact hnotify s notified hrunning
  | start _ => exact hrunning
  | finish _ =>
    unfold finishWorker
    split
    · exact hnotify _ _ hrunning
    · exact hrunning
  | stop => exact absurd rfl hnot

theorem run_stopping (hrun : Run (Step true) s u s') (hrunning : s.stopping = false)
    (hnot : .stop ∉ u) : s'.stopping = false := by
  have hlaw := hrun.invariant (I := fun u s' => .stop ∉ u → s'.stopping = false)
    (fun _ => hrunning) fun u s₁ l s₂ _ hbefore hstep hnot =>
      step_stopping (hbefore fun hmem => hnot (List.mem_append_left _ hmem)) hstep
        fun heq => hnot (by rw [heq]; simp)
  exact hlaw hnot

theorem notifyFailure_mono (notified : Json) (hrunning : s.stopping = false) :
    s.created ⊆ (notifyFailure true notified s).created ∧
      s.dirty ⊆ (notifyFailure true notified s).dirty ∧
      (notifyFailure true notified s).running = s.running := by
  rcases notifyFailure_cases notified hrunning with
    heq | ⟨canonical, -, -, heq⟩ | ⟨canonical, -, -, -, heq⟩
  · rw [heq]
    exact ⟨List.Subset.refl _, Finset.Subset.refl _, rfl⟩
  · rw [heq]
    exact ⟨List.Subset.refl _, Finset.subset_insert _ _, rfl⟩
  · rw [heq]
    exact ⟨List.subset_cons_self _ _, Finset.Subset.refl _, rfl⟩

theorem finishWorker_mono (finished : String) (hrunning : s.stopping = false) :
    s.created ⊆ (finishWorker true finished s).created ∧
      s.dirty.erase finished ⊆ (finishWorker true finished s).dirty ∧
      (finishWorker true finished s).running = s.running.erase finished := by
  have hreleased : (release finished s).stopping = false := hrunning
  have hmono := notifyFailure_mono (.str finished) hreleased
  unfold finishWorker
  split
  · exact hmono
  · exact ⟨List.Subset.refl _, Finset.Subset.refl _, rfl⟩

/-- The notification that was accepted is owed a start. -/
theorem accepted_owed (h : Tidy s) (hrunning : s.stopping = false) {notified : Json}
    (haccepted : Accepted s notified failureId) :
    Owed failureId [] (notifyFailure true notified s) := by
  obtain ⟨huuid, hroom⟩ := haccepted
  by_cases hpending : failureId ∈ s.pending
  · rw [notifyFailure_pending hrunning huuid hpending]
    rcases List.mem_append.mp ((h.workers failureId).mp hpending) with hcreated | hworking
    · exact .inr (.inl hcreated)
    · exact .inr (.inr ⟨hworking, Finset.mem_insert_self _ _, List.not_mem_nil⟩)
  · rw [notifyFailure_new hrunning huuid hpending (hroom.resolve_left hpending)]
    exact .inr (.inl (List.mem_cons_self ..))

/-- Every step between start and stop keeps what is owed. -/
theorem step_owed (h : Tidy s) (hrunning : s.stopping = false) (howed : Owed failureId u s)
    (hstep : Step true s l s') (hnot : l ≠ .stop) : Owed failureId (u ++ [l]) s' := by
  rcases howed with hstarted | howed
  · exact .inl (List.mem_append_left _ hstarted)
  cases hstep with
  | notify notified =>
    obtain ⟨hcreated, hdirty, hsame⟩ := notifyFailure_mono notified hrunning
    rcases howed with howed | ⟨hworking, hmem, hunfinished⟩
    · exact .inr (.inl (hcreated howed))
    · exact .inr (.inr ⟨hsame ▸ hworking, hdirty hmem, by simpa using hunfinished⟩)
  | @start started hcreated =>
    by_cases heq : started = failureId
    · exact .inl (by simp [heq])
    · rcases howed with howed | ⟨hworking, hmem, hunfinished⟩
      · exact .inr (.inl ((List.mem_erase_of_ne (Ne.symm heq)).mpr howed))
      · exact .inr (.inr ⟨List.mem_cons_of_mem _ hworking, hmem, by simpa using hunfinished⟩)
  | @finish finished hworking' =>
    by_cases heq : finished = failureId
    · subst heq
      right; left
      rcases howed with howed | ⟨hworking, hmem, hunfinished⟩
      · have hdisjoint := List.nodup_append.mp h.nodup
        exact absurd rfl (hdisjoint.2.2 _ howed _ hworking')
      · exact finishWorker_replays h hrunning hmem
    · obtain ⟨hcreated, hdirty, hsame⟩ := finishWorker_mono finished hrunning
      rcases howed with howed | ⟨hworking, hmem, hunfinished⟩
      · exact .inr (.inl (hcreated howed))
      · refine .inr (.inr ⟨?_, hdirty (Finset.mem_erase.mpr ⟨Ne.symm heq, hmem⟩), ?_⟩)
        · rw [hsame]
          exact (List.mem_erase_of_ne (Ne.symm heq)).mpr hworking
        · simpa [Ne.symm heq] using hunfinished
  | stop => exact absurd rfl hnot

theorem run_owed (h : Tidy s) (hrunning : s.stopping = false) (howed : Owed failureId [] s)
    (hrun : Run (Step true) s u s') (hnot : .stop ∉ u) : Owed failureId u s' := by
  have hlaw := hrun.invariant
    (I := fun u s' => .stop ∉ u → Tidy s' ∧ s'.stopping = false ∧ Owed failureId u s')
    (fun _ => ⟨h, hrunning, howed⟩) ?_
  · exact (hlaw hnot).2.2
  · intro u s₁ l s₂ _ hbefore hstep hnot
    obtain ⟨htidy, hstopping, howes⟩ := hbefore fun hmem => hnot (List.mem_append_left _ hmem)
    have hl : l ≠ .stop := fun heq => hnot (by rw [heq]; simp)
    exact ⟨step_tidy htidy hstep, step_stopping hstopping hstep hl,
      step_owed htidy hstopping howes hstep hl⟩

/-- In a service that never stops, whose event loop runs every created task and
whose worker for the failure ends, what is owed is paid. -/
theorem owed_started (h : Tidy s) (hrunning : s.stopping = false) (howed : Owed failureId [] s)
    (e : Execution (Step true) s) (hnot : ∀ n, e.label n ≠ .stop)
    (hruns : ∀ n, failureId ∈ (e.state n).created → ∃ m, n ≤ m ∧ e.label m = .start failureId)
    (hends : ∀ n, failureId ∈ (e.state n).running → ∃ m, n ≤ m ∧ e.label m = .finish failureId) :
    ∃ n, e.label n = .start failureId := by
  have howes : ∀ n, Owed failureId (e.between 0 n) (e.state n) := by
    intro n
    have hrun := e.run (Nat.zero_le n)
    rw [e.starts] at hrun
    refine run_owed h hrunning howed hrun fun hmem => ?_
    obtain ⟨k, -, -, hk⟩ := e.mem_between hmem
    exact hnot k hk
  have hcreated : ∀ n, failureId ∈ (e.state n).created → ∃ n, e.label n = .start failureId := by
    intro n hmem
    obtain ⟨m, -, hm⟩ := hruns n hmem
    exact ⟨m, hm⟩
  have hstarted : ∀ n, .start failureId ∈ e.between 0 n → ∃ n, e.label n = .start failureId := by
    intro n hmem
    obtain ⟨k, -, -, hk⟩ := e.mem_between hmem
    exact ⟨k, hk⟩
  rcases howes 0 with hmem | hmem | ⟨hworking, -, -⟩
  · exact hstarted 0 hmem
  · exact hcreated 0 hmem
  · obtain ⟨m, -, hm⟩ := hends 0 hworking
    rcases howes (m + 1) with hmem | hmem | ⟨-, -, hunfinished⟩
    · exact hstarted (m + 1) hmem
    · exact hcreated (m + 1) hmem
    · exact absurd (hm ▸ e.label_mem_between (Nat.zero_le m) (Nat.lt_succ_self m)) hunfinished

/-- One worker for a failure, bounded pending failures, a replay that finds its
place, and for every notification that is not dropped a later start. -/
theorem notification_served (hrun : Run (Step true) .initial t s) (hstarted : .stop ∉ t) :
    (∀ failureId, (s.created ++ s.running).count failureId ≤ 1) ∧
    s.dirty ⊆ s.pending ∧ s.pending.card ≤ maxPendingFailures ∧
    (∀ failureId s', Step true s (.finish failureId) s' → failureId ∈ s.dirty →
      failureId ∈ s'.created) ∧
    ∀ notified failureId, Accepted s notified failureId →
      (∀ u s', Run (Step true) (notifyFailure true notified s) u s' → .stop ∉ u →
        Owed failureId u s') ∧
      ∀ e : Execution (Step true) (notifyFailure true notified s), (∀ n, e.label n ≠ .stop) →
        (∀ n, failureId ∈ (e.state n).created → ∃ m, n ≤ m ∧ e.label m = .start failureId) →
        (∀ n, failureId ∈ (e.state n).running → ∃ m, n ≤ m ∧ e.label m = .finish failureId) →
        ∃ n, e.label n = .start failureId := by
  have htidy := run_tidy hrun
  have hrunning : s.stopping = false := run_stopping hrun rfl hstarted
  refine ⟨fun failureId => List.nodup_iff_count_le_one.mp htidy.nodup failureId, htidy.dirty,
    htidy.bounded, ?_, ?_⟩
  · intro failureId s' hstep hdirty
    cases hstep with
    | finish hworking => exact finishWorker_replays htidy hrunning hdirty
  · intro notified failureId haccepted
    have hafter := htidy.notify hrunning notified
    have hstill := step_stopping hrunning (.notify s notified) (by simp)
    have howed := accepted_owed htidy hrunning haccepted
    exact ⟨fun u s' hlater hnot => run_owed hafter hstill howed hlater hnot,
      fun e hnot hruns hends => owed_started hafter hstill howed e hnot hruns hends⟩

def notifiedFailure : String := "00000000-0000-4000-8000-000000000001"

/-- A failure notified, started and notified again is replayed when its worker ends. -/
theorem notification_served_replayed : ∃ t s, Run (Step true) .initial t s ∧
    notifiedFailure ∈ s.running ∧ notifiedFailure ∈ s.dirty ∧
    ∀ s', Step true s (.finish notifiedFailure) s' → notifiedFailure ∈ s'.created := by
  have huuid : uuidText (.str notifiedFailure) = some notifiedFailure := by decide +kernel
  have hnotified : Run (Step true) .initial [.notify (.str notifiedFailure)]
      { Notifications.initial with pending := {notifiedFailure}, created := [notifiedFailure] } := by
    have hstep := @Step.notify true .initial (.str notifiedFailure)
    rw [notifyFailure_new rfl huuid (Finset.notMem_empty _) (by decide)] at hstep
    exact .next .start hstep
  have hstarted := hnotified.next (.start (List.mem_singleton.mpr rfl))
  have hrun := hstarted.next (.notify _ (.str notifiedFailure))
  rw [notifyFailure_pending rfl huuid (Finset.mem_singleton.mpr rfl)] at hrun
  have hdirty := Finset.mem_insert_self notifiedFailure ∅
  refine ⟨_, _, hrun, List.mem_cons_self .., hdirty, fun s' hfinish => ?_⟩
  exact (notification_served hrun (by simp)).2.2.2.1 notifiedFailure s' hfinish hdirty

end Service

end FailureResolver.FailureNotifications
