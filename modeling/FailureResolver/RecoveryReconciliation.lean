import FailureResolver.Backoff
import FailureResolver.FailureNotifications
import FailureResolver.RecoverySettings
import FailureResolver.TaskTable

/-!
The reconciliation of the recovery coordinator. Under a lock of its own it expires the
attempts whose lease ran out, each with the ids and the token of its row, and then
notifies the failures that wait for a first attempt or a retry. A row that does not
parse or cannot be expired does not stop the others. A task of the coordinator runs it
in a loop and waits longer after each failure.
-/

namespace FailureResolver.RecoveryReconciliation

open Backoff FailureNotifications JsonValue Program PyException RecoveryContract RecoverySettings
open TaskPool TaskTable Transitions

section Coordinator

structure World where
  databaseSet : Bool
  reconciling : Bool
  notifications : Notifications

/-- The awaits; a pause says whether the stop event was set. -/
inductive Op
  | waitForStop (seconds : ℚ)
  | acquireReconcileLock
  | expiredAttempts (limit : ℤ)
  | expire (failureId recoverySessionId runToken message : String)
  | coldCandidates (sysids : List String) (limit : ℤ)

@[reducible] def Op.Reply : Op → Type
  | .waitForStop _ => Bool
  | .expiredAttempts _ => List Fields
  | .expire .. => Fields
  | .coldCandidates .. => List Fields
  | _ => Unit

abbrev reconciling : Interface := ⟨World, Op, Op.Reply, PyExc⟩

abbrev Reconciling := Prog reconciling

abbrev ReconcileEvent := Event reconciling

variable (s : AcceptedSettings)

def requiredDatabase : Reconciling Unit :=
  .get (fun w => if w.databaseSet then .ret ()
    else .raise RecoveryCoordinator.databaseUnavailable)

def expiryMessage : String :=
  "Automatic recovery became unknown after the service lost its observation lease. Inspect " ++
    "the robot before taking another action."

def expiry (record : RecoverySessionRecord) : Op :=
  .expire record.currentFailureId record.recoverySessionId (record.recoveryRunToken.getD "")
    expiryMessage

def coldStatuses : List Json := [.null, .str "ready", .str "failed"]

def coldFailures (rows : List Fields) : List String :=
  rows.filterMap fun row =>
    if coldStatuses.any fun status => Json.pyEq (Fields.get row "recovery_status") status then
      uuidText (Fields.get row "failure_id")
    else none

def notifyFailures (failureIds : List String) (w : World) : World :=
  { w with notifications := failureIds.foldl (fun n failureId =>
      notifyFailure s.raw.enabled (.str failureId) n) w.notifications }

def expireAttempt (row : Fields) : Reconciling Unit :=
  Prog.tryCatch (do
      let record ← Prog.settle (σ := reconciling) (parseRecoverySession row true)
      let _ ← Prog.call (σ := reconciling) (expiry record)
      return ())
    (fun e => if e.cls = .cancelled then .raise e else return ())

def reconcileLocked : Reconciling Unit := do
  requiredDatabase
  let rows ← Prog.call (σ := reconciling) (.expiredAttempts s.raw.reconcileLimit)
  Prog.forEach expireAttempt rows
  let rows ← Prog.call (σ := reconciling)
    (.coldCandidates s.raw.robotAllowlist s.raw.reconcileLimit)
  Prog.update (σ := reconciling) (notifyFailures s (coldFailures rows))

def World.lock (held : Bool) (w : World) : World := { w with reconciling := held }

def reconcile : Reconciling Unit :=
  if !s.raw.enabled then return ()
  else do
    Prog.call (σ := reconciling) .acquireReconcileLock
    Prog.update (σ := reconciling) (World.lock true)
    (reconcileLocked s).tryFinally (World.lock false)

def backoffCap : ℚ := max s.raw.reconcileIntervalSeconds (s.raw.leaseSeconds / 2)

def nextBackoff (backoff : ℚ) : ℚ :=
  min (max s.raw.reconcileIntervalSeconds (backoff * 2)) (backoffCap s)

def reconcilePass (backoff : ℚ) : Reconciling ℚ :=
  Prog.tryCatch (do
      reconcile s
      return s.raw.reconcileIntervalSeconds)
    (fun e => if e.cls = .cancelled then .raise e else return nextBackoff s backoff)

def reconcileLoop : ℕ → ℚ → Reconciling Unit
  | 0, _ => .halt
  | fuel + 1, backoff => do
      let w ← Prog.observe (σ := reconciling)
      if w.notifications.stopping then return ()
      else do
        let stopped : Bool ← Prog.call (σ := reconciling) (.waitForStop (max (1 / 1000) backoff))
        if stopped then return ()
        else do
          let w ← Prog.observe (σ := reconciling)
          if !w.databaseSet then reconcileLoop fuel s.raw.reconcileIntervalSeconds
          else do
            let backoff ← reconcilePass s backoff
            reconcileLoop fuel backoff

end Coordinator

section Pass

variable {s : AcceptedSettings} {w : World} {rows : List Fields}

def expiryOf (row : Fields) : Option Op :=
  match parseRecoverySession row true with
  | .ok record => some (expiry record)
  | .error _ => none

def course (s : AcceptedSettings) (rows : List Fields) : List Op :=
  .acquireReconcileLock :: .expiredAttempts s.raw.reconcileLimit :: (rows.filterMap expiryOf ++
    [.coldCandidates s.raw.robotAllowlist s.raw.reconcileLimit])

def expiredRows (e : ReconcileEvent) : Option (List Fields) :=
  match e with
  | ⟨_, .expiredAttempts _, some (.ok rows, _)⟩ => some rows
  | _ => none

/-- The candidates an await has found, and the state that was found with them. -/
def coldRows (e : ReconcileEvent) : Option (List Fields × World) :=
  match e with
  | ⟨_, .coldCandidates .., some (.ok rows, w)⟩ => some (rows, w)
  | _ => none

def isExpiry : Op → Bool
  | .expire .. => true
  | _ => false

structure Expires (rows : List Fields) (t : List ReconcileEvent) (o : Outcome reconciling Unit) :
    Prop where
  course : t.map Event.op <+: rows.filterMap expiryOf
  returned : ∀ w, o = .returned () w → t.map Event.op = rows.filterMap expiryOf
  raised : ∀ e w, o = .raised e w → e.cls = .cancelled

theorem isExpiry_of_mem {op : Op} (h : op ∈ rows.filterMap expiryOf) : isExpiry op = true := by
  obtain ⟨row, -, hrow⟩ := List.mem_filterMap.mp h
  unfold expiryOf at hrow
  split at hrow
  · cases hrow
    rfl
  · cases hrow

theorem parse_error {row : Fields} {e : PyExc} (h : parseRecoverySession row true = .error e) :
    e.cls ≠ .cancelled := by
  intro hcancelled
  have hcontract := contractOnly_parseRecoverySession row true e h
  simp [PyExc.isContract, hcancelled] at hcontract

theorem expires_nothing {row : Fields} (h : expiryOf row = none) :
    Expires [row] [] (.returned () w) := by
  refine ⟨List.nil_prefix, fun _ _ => ?_, fun _ _ hraised => (by cases hraised)⟩
  rw [List.filterMap_cons_none h]
  rfl

theorem expires_one {row : Fields} {e : ReconcileEvent} {o : Outcome reconciling Unit}
    (h : expiryOf row = some e.op) (ho : ∀ e' w, o = .raised e' w → e'.cls = .cancelled) :
    Expires [row] [e] o := by
  have hops : [row].filterMap expiryOf = [e.op] := by
    rw [List.filterMap_cons_some h]
    rfl
  refine ⟨?_, fun _ _ => hops.symm, ho⟩
  rw [hops]
  exact List.prefix_rfl

theorem expireAttempt_expires (row : Fields) :
    Ensures anything (expireAttempt row) w (Expires [row]) := by
  unfold expireAttempt
  rw [ensures_tryCatch, Prog.bind_eq, ensures_bind]
  cases hparse : parseRecoverySession row true with
  | error e =>
    have hrow : expiryOf row = none := by
      unfold expiryOf
      rw [hparse]
    refine ensures_settle_error.mpr ?_
    show Ensures _ (if _ then _ else _) _ _
    rw [if_neg (parse_error hparse)]
    exact ensures_ret.mpr (expires_nothing hrow)
  | ok record =>
    have hrow : expiryOf row = some (expiry record) := by
      unfold expiryOf
      rw [hparse]
    refine ensures_settle_ok.mpr ?_
    show Ensures _ (Prog.bind _ _) _ _
    rw [ensures_bind]
    refine ensures_call.mpr ⟨?_, fun reply w' _ => ?_, fun e w' _ => ?_⟩
    · exact expires_one hrow fun _ _ ho => (by cases ho)
    · exact ensures_ret.mpr (expires_one hrow fun _ _ ho => (by cases ho))
    · show Ensures _ (if _ then _ else _) _ _
      split
      · next hcancelled =>
        refine ensures_raise.mpr (expires_one hrow fun e' w₁ ho => ?_)
        cases ho
        exact hcancelled
      · exact ensures_ret.mpr (expires_one hrow fun _ _ ho => (by cases ho))

/-- A row that is not expired does not keep the next ones from it. -/
theorem forEach_expires (rows : List Fields) :
    Ensures anything (Prog.forEach expireAttempt rows) w (Expires rows) := by
  induction rows generalizing w with
  | nil =>
    refine ensures_ret.mpr ⟨List.nil_prefix, fun _ _ => rfl, fun _ _ ho => (by cases ho)⟩
  | cons row rows ih =>
    have hops : (row :: rows).filterMap expiryOf =
        [row].filterMap expiryOf ++ rows.filterMap expiryOf := by
      rw [← List.filterMap_append, List.singleton_append]
    rw [Prog.forEach, ensures_bind]
    refine (expireAttempt_expires row).mono fun t o ht => ?_
    have hstopped : (∀ u w', o ≠ .returned u w') → Expires (row :: rows) t o := by
      intro hends
      refine ⟨?_, fun w' ho => absurd ho (hends () w'), ht.raised⟩
      rw [hops]
      exact ht.course.trans (List.prefix_append _ _)
    cases o with
    | returned u w' =>
      have hfirst := ht.returned w' rfl
      refine ih.mono fun t' o' ht' => ⟨?_, fun w₁ ho => ?_, ht'.raised⟩
      · rw [hops, List.map_append, hfirst]
        exact (List.prefix_append_right_inj _).mpr ht'.course
      · rw [hops, List.map_append, hfirst, ht'.returned w₁ ho]
    | raised e w' => exact hstopped fun _ _ ho => (by cases ho)
    | suspended => exact hstopped fun _ _ ho => (by cases ho)
    | outOfFuel => exact hstopped fun _ _ ho => (by cases ho)

/-- The candidates were found last and have been notified, in their order. -/
def Notified (s : AcceptedSettings) (t : List ReconcileEvent) (w' : World) : Prop :=
  ∃ last ∈ t.getLast?, ∃ found w, coldRows last = some (found, w) ∧
    w'.notifications = (notifyFailures s (coldFailures found) w).notifications

/-- A pass over some rows against the awaits it is to make. An error that is no
cancellation never comes from an expiry. -/
structure Completes (s : AcceptedSettings) (rows : List Fields) (ops : List Op)
    (t : List ReconcileEvent) (o : Outcome reconciling Unit) : Prop where
  reads : ∀ e ∈ t, ∀ found ∈ expiredRows e, found = rows
  course : t.map Event.op <+: ops
  returned : ∀ w, o = .returned () w → t.map Event.op = ops ∧ Notified s t w
  raised : ∀ e w, o = .raised e w → e.cls ≠ .cancelled →
    ∀ last ∈ t.getLast?, isExpiry last.op = false

theorem Completes.cons {ops : List Op} {e : ReconcileEvent} {t : List ReconcileEvent}
    {o : Outcome reconciling Unit} (h : Completes s rows ops t o)
    (hreads : ∀ found ∈ expiredRows e, found = rows) (he : isExpiry e.op = false) :
    Completes s rows (e.op :: ops) (e :: t) o := by
  have hlast : ∀ last ∈ (e :: t).getLast?, last = e ∨ last ∈ t.getLast? := by
    intro last hlast
    cases t with
    | nil =>
      rw [List.getLast?_singleton, Option.mem_some_iff] at hlast
      exact .inl hlast.symm
    | cons e' t =>
      rw [List.getLast?_cons_cons] at hlast
      exact .inr hlast
  refine ⟨fun e' he' => ?_, ?_, fun w ho => ?_, fun e' w ho hcancelled last hmem => ?_⟩
  · rcases List.mem_cons.mp he' with rfl | htail
    · exact hreads
    · exact h.reads e' htail
  · rw [List.map_cons]
    exact List.cons_prefix_cons.mpr ⟨rfl, h.course⟩
  · obtain ⟨hops, last, hmem, hnotified⟩ := h.returned w ho
    refine ⟨by rw [List.map_cons, hops], last, ?_, hnotified⟩
    cases t with
    | nil => cases hmem
    | cons e' t => rwa [List.getLast?_cons_cons]
  · rcases hlast last hmem with rfl | htail
    · exact he
    · exact h.raised e' w ho hcancelled last htail

/-- A run that gets no further than its first await. -/
theorem completes_cut {ops : List Op} {op : Op} {r : Option (Except PyExc op.Reply × World)}
    {o : Outcome reconciling Unit} (hop : isExpiry op = false)
    (ho : ∀ w, o ≠ .returned () w) (hrows : expiredRows ⟨w, op, r⟩ = none) :
    Completes s rows (op :: ops) [⟨w, op, r⟩] o := by
  refine ⟨fun e' he' => ?_, ?_, fun w hreturned => absurd hreturned (ho w),
    fun _ _ _ _ last hlast => ?_⟩
  · rw [List.mem_singleton] at he'
    subst he'
    rw [hrows]
    exact fun _ hfound => absurd hfound (Option.not_mem_none _)
  · exact List.cons_prefix_cons.mpr ⟨rfl, List.nil_prefix⟩
  · rw [List.getLast?_singleton, Option.mem_some_iff] at hlast
    subst hlast
    exact hop

theorem notify_completes (rows : List Fields) :
    Ensures anything ((Prog.call (σ := reconciling)
      (.coldCandidates s.raw.robotAllowlist s.raw.reconcileLimit)).bind fun found =>
        Prog.update (σ := reconciling) (notifyFailures s (coldFailures found))) w fun t o =>
      t ≠ [] ∧
        Completes s rows [.coldCandidates s.raw.robotAllowlist s.raw.reconcileLimit] t o := by
  rw [ensures_bind]
  refine ensures_call.mpr ⟨?_, fun found w' _ => ?_, fun e w' _ => ?_⟩
  · exact ⟨List.cons_ne_nil _ _,
      completes_cut (o := .suspended) rfl (fun _ ho => (by cases ho)) rfl⟩
  · refine ensures_update.mpr ⟨List.cons_ne_nil _ _, fun e he => ?_, List.prefix_rfl,
      fun w₁ ho => ?_, fun _ _ ho => (by cases ho)⟩
    · rw [List.append_nil, List.mem_singleton] at he
      subst he
      exact fun _ hfound => absurd hfound (Option.not_mem_none _)
    · cases ho
      exact ⟨rfl, _, rfl, found, w', rfl, rfl⟩
  · exact ⟨List.cons_ne_nil _ _,
      completes_cut (o := .raised e w') rfl (fun _ ho => (by cases ho)) rfl⟩

theorem expiredRows_expiry {e : ReconcileEvent} (h : isExpiry e.op = true) :
    expiredRows e = none := by
  unfold expiredRows
  split
  · cases h
  · rfl

theorem Expires.reads {t : List ReconcileEvent} {o : Outcome reconciling Unit}
    (h : Expires rows t o) : ∀ e ∈ t, ∀ found ∈ expiredRows e, found = rows := by
  intro e he found hfound
  have hop : e.op ∈ rows.filterMap expiryOf :=
    h.course.subset (List.mem_map_of_mem he)
  rw [expiredRows_expiry (isExpiry_of_mem hop)] at hfound
  cases hfound

theorem expire_completes (rows : List Fields) :
    Ensures anything ((Prog.forEach expireAttempt rows).bind fun _ =>
      (Prog.call (σ := reconciling)
        (.coldCandidates s.raw.robotAllowlist s.raw.reconcileLimit)).bind fun found =>
          Prog.update (σ := reconciling) (notifyFailures s (coldFailures found))) w
      (Completes s rows (rows.filterMap expiryOf ++
        [.coldCandidates s.raw.robotAllowlist s.raw.reconcileLimit])) := by
  rw [ensures_bind]
  refine (forEach_expires rows).mono fun t o ht => ?_
  have hstopped : ∀ o' : Outcome reconciling Unit, (∀ w', o' ≠ .returned () w') →
      (∀ e w', o' = .raised e w' → e.cls = .cancelled) →
      Completes s rows (rows.filterMap expiryOf ++
        [.coldCandidates s.raw.robotAllowlist s.raw.reconcileLimit]) t o' := by
    intro o' hreturned hraised
    refine ⟨ht.reads, ht.course.trans (List.prefix_append _ _),
      fun w' ho => absurd ho (hreturned w'), fun e w' ho hcancelled => ?_⟩
    exact absurd (hraised e w' ho) hcancelled
  cases o with
  | returned u w' =>
    have hexpired := ht.returned w' rfl
    refine (notify_completes rows).mono fun t' o' ht' => ?_
    obtain ⟨hnonempty, hnotified⟩ := ht'
    refine ⟨fun e he => ?_, ?_, fun w₁ ho => ?_, fun e w₁ ho hcancelled last hlast => ?_⟩
    · rcases List.mem_append.mp he with hbefore | hafter
      · exact ht.reads e hbefore
      · exact hnotified.reads e hafter
    · rw [List.map_append, hexpired]
      exact (List.prefix_append_right_inj _).mpr hnotified.course
    · obtain ⟨hops, last, hlast, hstate⟩ := hnotified.returned w₁ ho
      rw [← List.getLast?_append_of_ne_nil t hnonempty] at hlast
      exact ⟨by rw [List.map_append, hexpired, hops], last, hlast, hstate⟩
    · rw [List.getLast?_append_of_ne_nil _ hnonempty] at hlast
      exact hnotified.raised e w₁ ho hcancelled last hlast
  | raised e w' =>
    refine hstopped _ (fun _ ho => (by cases ho)) fun e' w₁ ho => ?_
    cases ho
    exact ht.raised e w' rfl
  | suspended => exact hstopped _ (fun _ ho => (by cases ho)) fun _ _ ho => (by cases ho)
  | outOfFuel => exact hstopped _ (fun _ ho => (by cases ho)) fun _ _ ho => (by cases ho)

theorem reconcileLocked_completes :
    Ensures anything (reconcileLocked s) w fun t o => ∃ rows,
      Completes s rows (.expiredAttempts s.raw.reconcileLimit :: (rows.filterMap expiryOf ++
        [.coldCandidates s.raw.robotAllowlist s.raw.reconcileLimit])) t o := by
  unfold reconcileLocked
  simp only [Prog.bind_eq]
  rw [ensures_bind]
  unfold requiredDatabase
  rw [ensures_get]
  split
  · refine ensures_ret.mpr ?_
    show Ensures _ (Prog.bind _ _) _ _
    rw [ensures_bind]
    refine ensures_call.mpr ⟨⟨[], ?_⟩, fun rows w' _ => ?_, fun e w' _ => ⟨[], ?_⟩⟩
    · exact completes_cut (o := .suspended) rfl (fun _ ho => (by cases ho)) rfl
    · refine (expire_completes rows).mono fun t o ht => ⟨rows, ?_⟩
      exact ht.cons (e := ⟨w, .expiredAttempts _, some (.ok rows, w')⟩)
        (fun found hfound => (Option.mem_some_iff.mp hfound).symm) rfl
    · exact completes_cut (o := .raised e w') rfl (fun _ ho => (by cases ho)) rfl
  · refine ensures_raise.mpr ⟨[], fun _ he => (by cases he), List.nil_prefix,
      fun _ ho => (by cases ho), fun _ _ _ _ _ hlast => (by cases hlast)⟩

/-- Each pass of an enabled coordinator, whatever its awaits end with: it takes the lock,
reads the expired attempts, expires those that parse in their order, each with the ids
and the token of its row, reads the candidates and notifies them in their order. It
stops short only of a cancellation, a missing database or one of the other awaits. -/
theorem reconcile_completes (s : AcceptedSettings) (w : World) :
    Ensures anything (reconcile s) w fun t o =>
      (s.raw.enabled = false ∧ t = [] ∧ o = .returned () w) ∨
        ∃ rows, Completes s rows (course s rows) t o := by
  unfold reconcile
  split
  · next hdisabled =>
    exact ensures_ret.mpr (.inl ⟨by simpa using hdisabled, rfl, rfl⟩)
  · rw [Prog.bind_eq, ensures_bind]
    refine ensures_call.mpr ⟨.inr ⟨[], ?_⟩, fun _ w' _ => ?_, fun e w' _ => .inr ⟨[], ?_⟩⟩
    · exact completes_cut (o := .suspended) rfl (fun _ ho => (by cases ho)) rfl
    · show Ensures _ (Prog.bind _ _) _ _
      rw [ensures_bind]
      refine ensures_update.mpr ?_
      show Ensures _ (Prog.tryFinally _ _) _ _
      rw [ensures_tryFinally]
      refine reconcileLocked_completes.mono fun t o ht => ?_
      obtain ⟨rows, hrows⟩ := ht
      have hpass := hrows.cons (e := ⟨w, .acquireReconcileLock, some (.ok (), w')⟩)
        (fun _ hfound => absurd hfound (Option.not_mem_none _)) rfl
      cases o with
      | returned u w₁ =>
        refine .inr ⟨rows, hpass.reads, hpass.course, fun w₂ ho => ?_, fun _ _ ho => by cases ho⟩
        cases ho
        exact hpass.returned w₁ rfl
      | raised e w₁ =>
        refine .inr ⟨rows, hpass.reads, hpass.course, fun _ ho => (by cases ho),
          fun e' w₂ ho => ?_⟩
        cases ho
        exact hpass.raised e w₁ rfl
      | suspended => exact .inr ⟨rows, hpass⟩
      | outOfFuel => exact .inr ⟨rows, hpass⟩
    · exact completes_cut (o := .raised e w') rfl (fun _ ho => (by cases ho)) rfl

end Pass

section Pauses

variable {s : AcceptedSettings} {w : World} {α β : Type}

/-- The passes of the loop: how many in a row have begun and not come to their end, and
whether one has begun since the last pause. -/
structure Passes where
  failed : ℕ
  begun : Bool

/-- Without a pass since the last pause the count starts over. -/
def Passes.failures (passes : Passes) : ℕ := if passes.begun then passes.failed else 0

/-- A pass asks for the lock first, and has come to its end once its candidates are found. -/
def Passes.after (passes : Passes) (op : Op) (r : Except PyExc op.Reply) : Passes :=
  match op, r with
  | .waitForStop _, _ => ⟨passes.failures, false⟩
  | .acquireReconcileLock, _ => ⟨passes.failed + 1, true⟩
  | .coldCandidates .., .ok _ => ⟨0, true⟩
  | _, _ => passes

def passesIn : List ReconcileEvent → Passes := recorded Passes.after ⟨0, false⟩

def pauseAfter (s : AcceptedSettings) (failures : ℕ) : ℚ :=
  max (1 / 1000) (delay s.raw.reconcileIntervalSeconds (backoffCap s) failures)

/-- A pause is the one after the passes that failed in a row. -/
def pausing (s : AcceptedSettings) : Discipline reconciling Passes where
  rely _ _ := True
  act passes _ passes' _ := passes' = passes
  request passes _ op := ∀ seconds, op = .waitForStop seconds →
    seconds = pauseAfter s passes.failures
  answer passes op r passes' := passes' = passes.after op r

theorem interval_pos (s : AcceptedSettings) : 0 < s.raw.reconcileIntervalSeconds :=
  (checkRanges_eq_ok.mp s.ranges).2.2.2.2.2.2.1

theorem interval_le_cap (s : AcceptedSettings) :
    s.raw.reconcileIntervalSeconds ≤ backoffCap s := le_max_left _ _

theorem nextBackoff_delay (s : AcceptedSettings) (failures : ℕ) :
    nextBackoff s (delay s.raw.reconcileIntervalSeconds (backoffCap s) failures) =
      delay s.raw.reconcileIntervalSeconds (backoffCap s) (failures + 1) := by
  have hpos := interval_pos s
  have hbelow := initial_le_delay hpos.le (interval_le_cap s) failures
  unfold nextBackoff
  rw [delay_succ hpos.le (interval_le_cap s), mul_comm, max_eq_right (by linarith)]

/-- No pause is as long as a lease. -/
theorem pauseAfter_lt (s : AcceptedSettings) (failures : ℕ) :
    pauseAfter s failures < s.raw.leaseSeconds := by
  obtain ⟨-, -, -, ⟨hlease, -⟩, -, -, -, hinterval⟩ := checkRanges_eq_ok.mp s.ranges
  have hlease' : (5 : ℚ) ≤ s.raw.leaseSeconds := by exact_mod_cast hlease
  have hdelay : delay s.raw.reconcileIntervalSeconds (backoffCap s) failures ≤ backoffCap s :=
    delay_le_cap failures
  have hcap : backoffCap s < s.raw.leaseSeconds := max_lt hinterval (by linarith)
  exact max_lt (by linarith) (hdelay.trans_lt hcap)

abbrev Obeying (s : AcceptedSettings) (p : Reconciling α) (Q : Except PyExc α → Passes → Prop)
    (passes : Passes) (w : World) : Prop :=
  Obeys (pausing s) (fun r passes _ => Q r passes) p passes w

/-- Awaits that are no pause and neither begin a pass nor end it. -/
def Within : Op → Prop
  | .waitForStop _ => False
  | .acquireReconcileLock => False
  | .coldCandidates .. => False
  | _ => True

variable {passes : Passes} {failures : ℕ}

theorem after_within {op : Op} {r : Except PyExc op.Reply} (hop : Within op) :
    passes.after op r = passes := by
  cases op with
  | waitForStop seconds => exact hop.elim
  | acquireReconcileLock => exact hop.elim
  | coldCandidates sysids limit => exact hop.elim
  | _ => rfl

theorem obeys_within {p : Reconciling α} (hp : p.Only Within) :
    Obeying s p (fun _ passes' => passes' = passes) passes w := by
  refine Obeys.of_only hp (fun _ _ => rfl) (fun _ op hop seconds heq => ?_)
    fun op r passes' hop hanswer => ?_
  · subst heq
    exact hop.elim
  · rw [hanswer]
    exact after_within hop

def Counted (failures : ℕ) (r : Except PyExc α) (passes : Passes) : Prop :=
  (∀ a, r = .ok a → passes.failures = 0) ∧ ∀ e, r = .error e → passes = ⟨failures + 1, true⟩

theorem counted_error (e : PyExc) :
    Counted failures (.error e : Except PyExc α) ⟨failures + 1, true⟩ :=
  ⟨fun _ ha => (by cases ha), fun _ _ => rfl⟩

theorem obeys_within_bind {p : Reconciling α} {f : α → Reconciling β} (hp : p.Only Within)
    (hf : ∀ a w, Obeying s (f a) (Counted failures) ⟨failures + 1, true⟩ w) :
    Obeying s (p.bind f) (Counted failures) ⟨failures + 1, true⟩ w := by
  unfold Obeying
  rw [obeys_bind]
  refine (obeys_within hp).mono fun r passes' w' hsame => ?_
  subst hsame
  cases r with
  | ok a => exact hf a w'
  | error e => exact counted_error e

theorem only_requiredDatabase : requiredDatabase.Only Within := by
  intro w
  dsimp only
  split <;> trivial

theorem only_expireAttempt (row : Fields) : (expireAttempt row).Only Within := by
  refine .tryCatch (.bind (.settle _) fun record => .bind (.call trivial) fun _ => trivial)
    fun e => ?_
  split <;> trivial

theorem obeys_reconcileLocked :
    Obeying s (reconcileLocked s) (Counted failures) ⟨failures + 1, true⟩ w := by
  unfold reconcileLocked
  simp only [Prog.bind_eq]
  refine obeys_within_bind only_requiredDatabase fun _ w => ?_
  refine obeys_within_bind (.call trivial) fun rows w => ?_
  refine obeys_within_bind (.forEach fun row _ => only_expireAttempt row) fun _ w => ?_
  unfold Obeying
  rw [obeys_bind]
  refine obeys_call.mpr ⟨fun seconds heq => (by cases heq), fun r passes' w' hanswer _ => ?_⟩
  cases r with
  | ok found =>
    have hended : passes' = ⟨0, true⟩ := hanswer
    subst hended
    exact ⟨_, rfl, fun _ _ => rfl, fun _ he => (by cases he)⟩
  | error e =>
    have hopen : passes' = ⟨failures + 1, true⟩ := hanswer
    subst hopen
    exact counted_error e

/-- A coordinator that is switched off begins no pass. -/
theorem obeys_reconcile :
    Obeying s (reconcile s) (Counted failures) ⟨failures, false⟩ w := by
  unfold reconcile
  split
  · exact ⟨fun _ _ => rfl, fun _ he => (by cases he)⟩
  · simp only [Prog.bind_eq]
    unfold Obeying
    rw [obeys_bind]
    refine obeys_call.mpr ⟨fun seconds heq => (by cases heq), fun r passes' w' hanswer _ => ?_⟩
    have hbegun : passes' = ⟨failures + 1, true⟩ := hanswer
    subst hbegun
    cases r with
    | error e => exact counted_error e
    | ok u =>
      refine obeys_within_bind (fun _ => trivial) fun _ w => ?_
      unfold Obeying
      rw [obeys_tryFinally]
      exact obeys_reconcileLocked.mono fun r passes' w' hcounted => ⟨passes', rfl, hcounted⟩

/-- The backoff is the delay after the passes that failed in a row. -/
def Delayed (s : AcceptedSettings) (backoff : ℚ) (passes : Passes) : Prop :=
  backoff = delay s.raw.reconcileIntervalSeconds (backoffCap s) passes.failures

theorem delayed_interval (h : passes.failures = 0) :
    Delayed s s.raw.reconcileIntervalSeconds passes := by
  unfold Delayed
  rw [h, delay_zero (interval_le_cap s)]

theorem obeys_reconcilePass {backoff : ℚ} (h : Delayed s backoff passes) :
    Obeying s (reconcilePass s backoff)
      (fun r passes' => ∀ next, r = .ok next → Delayed s next passes')
      ⟨passes.failures, false⟩ w := by
  unfold reconcilePass Obeying
  rw [obeys_tryCatch, Prog.bind_eq, obeys_bind]
  refine obeys_reconcile.mono fun r passes' w' hcounted => ?_
  obtain ⟨hended, hfailed⟩ := hcounted
  cases r with
  | ok u =>
    intro next hnext
    cases hnext
    exact delayed_interval (hended u rfl)
  | error e =>
    rw [hfailed e rfl]
    show Obeys _ _ (if _ then _ else _) _ _
    split
    · exact fun _ hnext => (by cases hnext)
    · intro next hnext
      cases hnext
      unfold Delayed at h ⊢
      rw [h, nextBackoff_delay]
      rfl

theorem obeys_reconcileLoop (fuel : ℕ) {backoff : ℚ} (h : Delayed s backoff passes) :
    Obeying s (reconcileLoop s fuel backoff) (fun _ _ => True) passes w := by
  induction fuel generalizing backoff passes w with
  | zero => trivial
  | succ fuel ih =>
    unfold reconcileLoop
    simp only [Prog.bind_eq, Prog.pure_eq]
    unfold Obeying
    rw [obeys_observe_bind]
    split
    · trivial
    · rw [obeys_bind]
      refine obeys_call.mpr ⟨fun seconds heq => ?_, fun r passes' w' hanswer _ => ?_⟩
      · cases heq
        unfold pauseAfter
        rw [h]
      · have hpaused : passes' = ⟨passes.failures, false⟩ := hanswer
        subst hpaused
        cases r with
        | error e => trivial
        | ok stopped =>
          cases stopped with
          | true => trivial
          | false =>
            show Obeys _ _ (Prog.bind _ _) _ _
            rw [obeys_observe_bind]
            split
            · exact ih (delayed_interval rfl)
            · rw [obeys_bind]
              refine (obeys_reconcilePass h).mono fun r passes' w'' hnext => ?_
              cases r with
              | ok next => exact ih (hnext next rfl)
              | error e => trivial

/-- In every run of the loop each pause is the interval doubled for every pass in a row
that began and did not come to its end, as far as the cap lets it. No pause is as long as
a lease. -/
theorem reconciliation_pauses (s : AcceptedSettings) (fuel : ℕ) (w : World) :
    Ensures anything (reconcileLoop s fuel s.raw.reconcileIntervalSeconds) w fun t _ =>
      ∀ before e after seconds, t = before ++ e :: after → e.op = .waitForStop seconds →
        seconds = pauseAfter s (passesIn before).failures ∧ seconds < s.raw.leaseSeconds := by
  have hobeys : Obeying s (reconcileLoop s fuel s.raw.reconcileIntervalSeconds)
      (fun _ _ => True) ⟨0, false⟩ w := obeys_reconcileLoop fuel (delayed_interval rfl)
  have hwatched : Ensures anything (reconcileLoop s fuel s.raw.reconcileIntervalSeconds) w
      fun t _ => ∀ before e after, t = before ++ e :: after →
        (pausing s).request (passesIn before) e.before e.op :=
    hobeys.watched anything (fun _ _ _ _ hact => hact) fun _ _ _ _ _ _ => ⟨rfl, trivial⟩
  refine hwatched.mono fun t _ ht before e after seconds hsplit hop => ?_
  have hseconds := ht before e after hsplit seconds hop
  refine ⟨hseconds, ?_⟩
  rw [hseconds]
  exact pauseAfter_lt s _

end Pauses

section Exclusion

variable {s : AcceptedSettings} {w w' : World} {α : Type}

abbrev Tasks := Pool reconciling Unit Unit

def Spawned (s : AcceptedSettings) (p : Reconciling Unit) (_ : Unit) : Prop :=
  p = reconcile s ∨ ∃ fuel, p = reconcileLoop s fuel s.raw.reconcileIntervalSeconds

/-- An await leaves the coordinator as it is; the lock is given when it is free. -/
def Awaited : Environment reconciling := fun w op r w' =>
  w' = w ∧ (op = .acquireReconcileLock → (∃ u, r = .ok u) → w.reconciling = false)

/-- What else happens: notifications come and their workers run, the database comes and
goes. The lock is the passes' own. -/
structure Elsewhere (s : AcceptedSettings) (w w' : World) : Prop where
  lock : w'.reconciling = w.reconciling
  notifications : ∃ u, Run (FailureNotifications.Step s.raw.enabled) w.notifications u
    w'.notifications

abbrev CoordinatorStep (s : AcceptedSettings) : Tasks → TaskPool.Label reconciling → Tasks → Prop :=
  TaskPool.Step (Spawned s) (fun m _ _ => m) Awaited (Elsewhere s)

def Inner : Op → Prop
  | .waitForStop _ => False
  | .acquireReconcileLock => False
  | _ => True

def Inside (P : Tasks) (i : ℕ) : Prop := ∃ op k, P.task i = some (.await op k) ∧ Inner op

inductive Mode
  | away
  | granted
  | inside

def Mode.after : Mode → (op : Op) → Except PyExc op.Reply → Mode
  | .away, .acquireReconcileLock, .ok _ => .granted
  | m, _, _ => m

def Permitted : Mode → Op → Prop
  | .away, op => ¬ Inner op
  | .granted, _ => False
  | .inside, op => Inner op

/-- What a task does to the coordinator between two awaits. -/
inductive Act (s : AcceptedSettings) : Mode → World → Mode → World → Prop
  | take {w : World} : w.reconciling = false → Act s .granted w .inside (w.lock true)
  | drop {w : World} : Act s .inside w .away (w.lock false)
  | notify {w : World} (failureIds : List String) :
      Act s .inside w .inside (notifyFailures s failureIds w)

def locking (s : AcceptedSettings) : Discipline reconciling Mode where
  rely g w := g = .granted → w.reconciling = false
  act := Act s
  request g _ op := Permitted g op
  answer g op r g' := g' = g.after op r

abbrev Locking (s : AcceptedSettings) (p : Reconciling α) (Q : Except PyExc α → Mode → Prop)
    (g : Mode) (w : World) : Prop :=
  Obeys (locking s) (fun r g _ => Q r g) p g w

theorem locking_inner {p : Reconciling α} (hp : p.Awaits Inner) :
    Locking s p (fun _ g => g = .inside) .inside w := by
  refine Obeys.of_awaits hp (fun _ op hop => hop) fun op r g' _ hanswer => ?_
  rw [hanswer]
  rfl

theorem awaits_expireAttempt (row : Fields) : (expireAttempt row).Awaits Inner := by
  refine .tryCatch (.bind (.settle _) fun record => .bind (.call trivial) fun _ => trivial)
    fun e => ?_
  split <;> trivial

theorem locking_inner_bind {β : Type} {p : Reconciling α} {f : α → Reconciling β}
    (hp : p.Awaits Inner) (hf : ∀ a w, Locking s (f a) (fun _ g => g = .inside) .inside w) :
    Locking s (p.bind f) (fun _ g => g = .inside) .inside w := by
  unfold Locking
  rw [obeys_bind]
  refine (locking_inner hp).mono fun r g w' hg => ?_
  subst hg
  cases r with
  | ok a => exact hf a w'
  | error e => rfl

theorem locking_reconcileLocked :
    Locking s (reconcileLocked s) (fun _ g => g = .inside) .inside w := by
  have hrequired : requiredDatabase.Awaits Inner := by
    intro w
    dsimp only
    split <;> trivial
  unfold reconcileLocked
  simp only [Prog.bind_eq]
  refine locking_inner_bind hrequired fun _ w => ?_
  refine locking_inner_bind (.call trivial) fun rows w => ?_
  refine locking_inner_bind (.forEach fun row _ => awaits_expireAttempt row) fun _ w => ?_
  refine locking_inner_bind (.call trivial) fun found w => ?_
  exact ⟨.inside, .notify _, rfl⟩

/-- The lock is taken at once when it is given, and given back on every way out. -/
theorem locking_reconcile : Locking s (reconcile s) (fun _ g => g = .away) .away w := by
  unfold reconcile
  split
  · rfl
  · unfold Locking
    rw [Prog.bind_eq, obeys_bind]
    refine obeys_call.mpr ⟨fun hinner => hinner, fun r g w' hanswer hfree => ?_⟩
    cases r with
    | error e => exact hanswer
    | ok u =>
      have hgranted : g = .granted := hanswer
      subst hgranted
      show Obeys _ _ (Prog.bind _ _) _ _
      rw [obeys_update_bind]
      refine ⟨.inside, .take (hfree rfl), ?_⟩
      rw [obeys_tryFinally]
      refine locking_reconcileLocked.mono fun r g w'' hg => ?_
      subst hg
      exact ⟨.away, .drop, rfl⟩

theorem locking_reconcilePass (backoff : ℚ) :
    Locking s (reconcilePass s backoff) (fun _ g => g = .away) .away w := by
  unfold reconcilePass Locking
  rw [obeys_tryCatch, Prog.bind_eq, obeys_bind]
  refine locking_reconcile.mono fun r g w' hg => ?_
  cases r with
  | ok u => exact hg
  | error e =>
    show Obeys _ _ (if _ then _ else _) _ _
    split <;> exact hg

theorem locking_reconcileLoop (fuel : ℕ) (backoff : ℚ) :
    Locking s (reconcileLoop s fuel backoff) (fun _ g => g = .away) .away w := by
  induction fuel generalizing backoff w with
  | zero => trivial
  | succ fuel ih =>
    unfold reconcileLoop
    simp only [Prog.bind_eq, Prog.pure_eq]
    unfold Locking
    rw [obeys_observe_bind]
    split
    · rfl
    · rw [obeys_bind]
      refine obeys_call.mpr ⟨fun hinner => hinner, fun r g w' hanswer _ => ?_⟩
      have haway : g = .away := hanswer
      subst haway
      cases r with
      | error e => rfl
      | ok stopped =>
        cases stopped with
        | true => rfl
        | false =>
          show Obeys _ _ (Prog.bind _ _) _ _
          rw [obeys_observe_bind]
          split
          · exact ih _
          · rw [obeys_bind]
            refine (locking_reconcilePass backoff).mono fun r g w'' hg => ?_
            subst hg
            cases r with
            | ok next => exact ih next
            | error e => rfl

/-- One pass at a time is inside, and the notifications have moved by steps of theirs. -/
structure Table (s : AcceptedSettings) (n : Notifications) (_ : List (TaskPool.Label reconciling))
    (mode : ℕ → Mode) (_ : ℕ → Unit) (w : World) : Prop where
  held : ∀ i, mode i = .inside → w.reconciling = true
  sole : ∀ i j, mode i = .inside → mode j = .inside → i = j
  notifications : ∃ u, Run (FailureNotifications.Step s.raw.enabled) n u w.notifications

variable {n : Notifications} {t : List (TaskPool.Label reconciling)} {mode : ℕ → Mode}
variable {record record' : ℕ → Unit} {i : ℕ} {g g' : Mode}

/-- A pass notifies as everyone does. -/
theorem notifyFailures_run (failureIds : List String) (w : World) :
    ∃ u, Run (FailureNotifications.Step s.raw.enabled) w.notifications u
      (notifyFailures s failureIds w).notifications := by
  induction failureIds generalizing w with
  | nil => exact ⟨[], .start⟩
  | cons failureId failureIds ih =>
    obtain ⟨u, hrun⟩ := ih { w with
      notifications := notifyFailure s.raw.enabled (.str failureId) w.notifications }
    have hfirst : Run (FailureNotifications.Step s.raw.enabled) w.notifications
        ([] ++ [.notify (.str failureId)])
        (notifyFailure s.raw.enabled (.str failureId) w.notifications) :=
      .next .start (.notify _ _)
    exact ⟨_, hfirst.append hrun⟩

theorem Table.act (h : Table s n t (Function.update mode i g) record w)
    (hact : Act s g w g' w') : Table s n t (Function.update mode i g') record w' := by
  have hothers : ∀ {m : Mode} j, j ≠ i → Function.update mode i m j = mode j := by
    intro m j hij
    exact Function.update_of_ne hij ..
  cases hact with
  | take hfree =>
    have hnone : ∀ j, j ≠ i → mode j ≠ .inside := by
      intro j hij hj
      have hheld := h.held j ((hothers j hij).trans hj)
      rw [hfree] at hheld
      cases hheld
    refine ⟨fun _ _ => rfl, fun j k hj hk => ?_, h.notifications⟩
    by_cases hij : j = i
    · by_cases hik : k = i
      · exact hij.trans hik.symm
      · rw [hothers k hik] at hk
        exact absurd hk (hnone k hik)
    · rw [hothers j hij] at hj
      exact absurd hj (hnone j hij)
  | drop =>
    have hmine : Function.update mode i Mode.inside i = .inside := Function.update_self ..
    have hnone : ∀ j, Function.update mode i Mode.away j ≠ .inside := by
      intro j hj
      by_cases hij : j = i
      · rw [hij, Function.update_self] at hj
        cases hj
      · rw [hothers j hij] at hj
        exact hij (h.sole j i ((hothers j hij).trans hj) hmine)
    exact ⟨fun j hj => absurd hj (hnone j), fun j _ hj => absurd hj (hnone j), h.notifications⟩
  | notify failureIds =>
    obtain ⟨u, hbefore⟩ := h.notifications
    obtain ⟨u', hafter⟩ := notifyFailures_run (s := s) failureIds w
    exact ⟨h.held, h.sole, _, hbefore.append hafter⟩

/-- A task that does not come inside leaves the table as it is. -/
theorem Table.outer (h : Table s n t mode record w) {t' : List (TaskPool.Label reconciling)}
    (hg : g = .inside → mode i = .inside) :
    Table s n t' (Function.update mode i g) record' w := by
  have hinside : ∀ j, Function.update mode i g j = .inside → mode j = .inside := by
    intro j hj
    by_cases hij : j = i
    · rw [hij, Function.update_self] at hj
      rw [hij]
      exact hg hj
    · rwa [Function.update_of_ne hij] at hj
  exact ⟨fun j hj => h.held j (hinside j hj), fun j k hj hk => h.sole j k (hinside j hj)
    (hinside k hk), h.notifications⟩

theorem after_inside {m : Mode} {op : Op} {r : Except PyExc op.Reply}
    (h : m.after op r = .inside) : m = .inside := by
  unfold Mode.after at h
  split at h
  · cases h
  · exact h

theorem after_granted {m : Mode} {op : Op} {r : Except PyExc op.Reply} (hm : Permitted m op)
    (h : m.after op r = .granted) : op = .acquireReconcileLock ∧ ∃ u, r = .ok u := by
  unfold Mode.after at h
  split at h
  · next u => exact ⟨rfl, u, rfl⟩
  · subst h
    exact hm.elim

theorem rules : Rules (locking s) (fun _ g => g = .away) Mode.away (Spawned s) (fun m _ _ => m)
    Awaited (Elsewhere s) (Table s n) := by
  refine ⟨fun g w w' op hop => hop, fun t mode record i g w g' w' h hact => h.act hact,
    fun t mode record i w p m h hrest hspawn => ⟨.away, ?_, h.outer fun hg => (by cases hg)⟩,
    fun t mode record i w op r w' h hrequest hawait => ?_,
    fun t mode record w w' h helsewhere => ?_⟩
  · rcases hspawn with rfl | ⟨fuel, rfl⟩
    · exact locking_reconcile
    · exact locking_reconcileLoop fuel _
  · obtain ⟨rfl, hfree⟩ := hawait
    refine ⟨_, rfl, fun hgranted => ?_, h.outer after_inside⟩
    obtain ⟨hop, hanswered⟩ := after_granted hrequest hgranted
    exact hfree hop hanswered
  · obtain ⟨u, hbefore⟩ := h.notifications
    obtain ⟨u', hafter⟩ := helsewhere.notifications
    refine ⟨fun i hi => ?_, h.sole, _, hbefore.append hafter⟩
    rw [helsewhere.lock]
    exact h.held i hi

/-- However many passes are asked for beside the loop, one at a time reads, expires and
notifies. All that they do to the notifications is what notifications do by themselves,
so that what holds of these in every run holds with the passes. -/
theorem reconciliations_one_at_a_time {t : List (TaskPool.Label reconciling)} {P : Tasks}
    (hrun : Run (CoordinatorStep s) (Pool.initial w ()) t P) :
    (∀ i j, Inside P i → Inside P j → i = j) ∧
      ∃ u, Run (FailureNotifications.Step s.raw.enabled) w.notifications u
        P.state.notifications := by
  have htable : Table s w.notifications [] (fun _ => Mode.away) (fun _ => ()) w :=
    ⟨fun _ hj => (by cases hj), fun _ _ hj => (by cases hj), [], .start⟩
  obtain ⟨mode, hgoverned⟩ := governed_run (u := []) rules ⟨_, governed_initial htable⟩ hrun
  have hinside : ∀ i, Inside P i → mode i = .inside := by
    intro i hi
    obtain ⟨op, k, htask, hinner⟩ := hi
    have hrequest : Permitted (mode i) op := hgoverned.requests htask
    cases hmode : mode i with
    | away =>
      rw [hmode] at hrequest
      exact absurd hinner hrequest
    | granted =>
      rw [hmode] at hrequest
      exact hrequest.elim
    | inside => rfl
  exact ⟨fun i j hi hj => hgoverned.table.sole i j (hinside i hi) (hinside j hj),
    hgoverned.table.notifications⟩

def atRest : World := ⟨true, false, .initial⟩

/-- Two passes are asked for; one is inside and the other waits for the lock. -/
theorem reconciliations_one_at_a_time_inside : ∃ t P,
    Run (CoordinatorStep .twoRobots) (Pool.initial atRest ()) t P ∧
      (∃ k, P.task 1 = some (.await .acquireReconcileLock k)) ∧ Inside P 0 ∧
      ∀ j, Inside P j → 0 = j := by
  have hstart : Run (CoordinatorStep .twoRobots) (Pool.initial atRest ()) []
      (Pool.initial atRest ()) := .start
  have hasked := Run.next hstart (.start (i := 0) (m := ()) (p := reconcile .twoRobots) rfl
    (.inl rfl))
  have hagain := Run.next hasked (.start (i := 1) (m := ()) (p := reconcile .twoRobots) rfl
    (.inl rfl))
  have hgiven : Awaited atRest .acquireReconcileLock (.ok ()) atRest := ⟨rfl, fun _ _ => rfl⟩
  have hlocked := Run.next hagain (.resume (i := 0) rfl hgiven)
  refine ⟨_, _, hlocked, ⟨_, rfl⟩, ⟨.expiredAttempts 500, _, rfl, trivial⟩, fun j hj => ?_⟩
  exact (reconciliations_one_at_a_time hlocked).1 0 j ⟨.expiredAttempts 500, _, rfl, trivial⟩ hj

end Exclusion

end FailureResolver.RecoveryReconciliation
