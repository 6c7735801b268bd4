import FailureResolver.BoundedQueue
import FailureResolver.Program
import FailureResolver.PyException
import FailureResolver.RowText

/-!
What the runtime puts into its work queue when it connects. Both tables are asked
for their oldest due rows, up to a limit, and the queue is bounded: a due row is
left without a signal when it is not among the oldest, or when the queue has no
room left for it.
-/

namespace FailureResolver.Reconciliation

open BoundedQueue JsonValue Program PyException RowText

section Runtime

inductive Signal
  | failure (event : Option String) (failureId : String) (commitTimestamp : Option String)
  | resolution (event : Option String) (resolutionId : String) (commitTimestamp : Option String)
  deriving DecidableEq

def queueBound (reconcileLimit : ℕ) : ℕ := max 256 (reconcileLimit * 2 + 32)

abbrev WorkQueue (limit : ℕ) := Queue Signal (queueBound limit)

structure Runtime (limit : ℕ) where
  clientSet : Bool
  queue : WorkQueue limit

/-- The two queries; each is ordered by `created_at` and limited. -/
inductive Op
  | selectResolutions (limit : ℕ)
  | selectPendingFailures (limit : ℕ)

abbrev reconciliation (limit : ℕ) : Interface := ⟨Runtime limit, Op, fun _ => Json, PyExc⟩

def responseRows : Json → List Fields
  | .arr items => items.filterMap fun item => match item with
      | .obj row => some row
      | _ => none
  | _ => []

def resolutionSignals (rows : List Fields) : List Signal :=
  rows.filterMap fun row => (safeIdentifier (Fields.get row "resolution_id")).map fun id =>
    .resolution (some "RECONCILE") id none

def failureSignals (rows : List Fields) : List Signal :=
  rows.filterMap fun row => (safeIdentifier (Fields.get row "failure_id")).map fun id =>
    .failure (some "RECONCILE") id none

def enqueueSignals {limit : ℕ} (signals : List Signal) (w : Runtime limit) : Runtime limit :=
  { w with queue := w.queue.offerAll signals }

def enqueueReconciliation (limit : ℕ) : Prog (reconciliation limit) Unit :=
  .get fun w =>
    if w.clientSet = false then .raise ⟨.connection, "Supabase client is unavailable"⟩
    else do
      let resolutions ← Prog.call (σ := reconciliation limit) (.selectResolutions limit)
      Prog.update (σ := reconciliation limit)
        (enqueueSignals (resolutionSignals (responseRows resolutions)))
      let pending ← Prog.call (σ := reconciliation limit) (.selectPendingFailures limit)
      Prog.update (σ := reconciliation limit)
        (enqueueSignals (failureSignals (responseRows pending)))

end Runtime

section Tables

structure ResolutionRow where
  resolutionId : String
  outcome : Option String
  applied : Option Bool
  createdAt : ℤ

structure FailureRow where
  failureId : String
  matcherStatus : Option String
  analysisStatus : Option String
  createdAt : ℤ

structure Tables where
  resolutions : List ResolutionRow
  failures : List FailureRow

def ResolutionRow.due (row : ResolutionRow) : Bool :=
  row.outcome = some "resolved" && row.applied = some true

def FailureRow.due (row : FailureRow) : Bool :=
  row.matcherStatus = some "pending" && row.analysisStatus = some "completed"

/-- The kept rows of a table, the oldest first; rows of one age in any order. -/
structure Ordered {Row : Type} (createdAt : Row → ℤ) (keep : Row → Bool)
    (table ordered : List Row) : Prop where
  perm : ordered.Perm (table.filter keep)
  sorted : ordered.Pairwise fun row later => createdAt row ≤ createdAt later

/-- How the database and Realtime answer one connect: the due rows in order, and
the signals that come in while each query is awaited. -/
structure Answers (tables : Tables) where
  resolutions : List ResolutionRow
  failures : List FailureRow
  resolutionsOrdered :
    Ordered ResolutionRow.createdAt ResolutionRow.due tables.resolutions resolutions
  failuresOrdered : Ordered FailureRow.createdAt FailureRow.due tables.failures failures
  early : List Signal
  late : List Signal

def ResolutionRow.response (row : ResolutionRow) : Fields :=
  [("resolution_id", .str row.resolutionId)]

def FailureRow.response (row : FailureRow) : Fields := [("failure_id", .str row.failureId)]

variable {tables : Tables} {limit : ℕ}

/-- Every query is answered by the first rows it selects, with the signals of its
await offered to the queue. -/
def database (answers : Answers tables) (limit : ℕ) : Environment (reconciliation limit) :=
  fun w op r w' => match op, r with
    | .selectResolutions n, .ok data =>
        data = .arr ((answers.resolutions.take n).map fun row => .obj row.response) ∧
          w'.queue = w.queue.offerAll answers.early
    | .selectPendingFailures n, .ok data =>
        data = .arr ((answers.failures.take n).map fun row => .obj row.response) ∧
          w'.queue = w.queue.offerAll answers.late
    | _, .error _ => True

def Signal.forResolution (resolutionId : String) : Signal → Prop
  | .resolution _ id _ => id = resolutionId
  | .failure .. => False

def Signal.forFailure (failureId : String) : Signal → Prop
  | .failure _ id _ => id = failureId
  | .resolution .. => False

/-- Every due row that is not settled yet has its signal in the queue. -/
structure MissesNothing (tables : Tables) (written : String → Bool) (queue : WorkQueue limit) :
    Prop where
  resolutions : ∀ row ∈ tables.resolutions, row.due = true → written row.resolutionId = false →
    ∃ signal ∈ queue.items, signal.forResolution row.resolutionId
  failures : ∀ row ∈ tables.failures, row.due = true →
    ∃ signal ∈ queue.items, signal.forFailure row.failureId

def Answers.resolutionSignals (answers : Answers tables) (limit : ℕ) : List Signal :=
  Reconciliation.resolutionSignals ((answers.resolutions.take limit).map ResolutionRow.response)

def Answers.failureSignals (answers : Answers tables) (limit : ℕ) : List Signal :=
  Reconciliation.failureSignals ((answers.failures.take limit).map FailureRow.response)

/-- A signal of this kind is queued already, comes in, or stands among the signals of
the oldest due rows at a position the queue still has room for. -/
def Admitted (answers : Answers tables) (queue : WorkQueue limit) (P : Signal → Prop) : Prop :=
  let bound := queueBound limit
  let early := queue.items.length + answers.early.length
  let late := early + (answers.resolutionSignals limit).length
  (∃ signal ∈ queue.items, P signal) ∨
    Reaches bound queue.items.length answers.early P ∨
    Reaches bound early (answers.resolutionSignals limit) P ∨
    Reaches bound late answers.late P ∨
    Reaches bound (late + answers.late.length) (answers.failureSignals limit) P

/-- Every due row that is not settled yet has a signal that is admitted. -/
structure Covered (answers : Answers tables) (written : String → Bool) (queue : WorkQueue limit) :
    Prop where
  resolutions : ∀ row ∈ tables.resolutions, row.due = true → written row.resolutionId = false →
    Admitted answers queue (Signal.forResolution row.resolutionId)
  failures : ∀ row ∈ tables.failures, row.due = true →
    Admitted answers queue (Signal.forFailure row.failureId)

end Tables

section Run

variable {tables : Tables} {limit : ℕ} {answers : Answers tables} {w : Runtime limit}
variable {written : String → Bool} {P : Signal → Prop}

/-- The queue after one connect, from all that was offered to it. -/
def reconciledQueue (answers : Answers tables) (queue : WorkQueue limit) : WorkQueue limit :=
  (((queue.offerAll answers.early).offerAll (answers.resolutionSignals limit)).offerAll
    answers.late).offerAll (answers.failureSignals limit)

theorem responseRows_map {Row : Type} (rows : List Row) (response : Row → Fields) :
    responseRows (.arr (rows.map fun row => .obj (response row))) = rows.map response := by
  unfold responseRows
  simp only [List.filterMap_map]
  exact congrFun List.filterMap_eq_map rows

theorem mem_reconciledQueue (queue : WorkQueue limit) :
    (∃ signal ∈ (reconciledQueue answers queue).items, P signal) ↔
      Admitted answers queue P := by
  have hitems : (reconciledQueue answers queue).items =
      (queue.items ++ answers.early ++ answers.resolutionSignals limit ++ answers.late ++
        answers.failureSignals limit).take (queueBound limit) := by
    unfold reconciledQueue
    rw [items_offerAll, items_offerAll, items_offerAll, items_offerAll]
    simp only [take_append_take]
  rw [hitems, mem_take_append, mem_take_append, mem_take_append, mem_take_append,
    List.take_of_length_le queue.bounded]
  simp only [List.length_append, or_assoc, Admitted]

/-- A reconciliation that returns leaves the queue with what was admitted. -/
theorem enqueueReconciliation_queue :
    Ensures (database answers limit) (enqueueReconciliation limit) w
      (fun _ o => ∀ a w', o = .returned a w' → w'.queue = reconciledQueue answers w.queue) := by
  unfold enqueueReconciliation
  rw [ensures_get]
  split
  · simp
  · simp only [Prog.bind_eq]
    rw [ensures_bind, ensures_call]
    simp only [after, ensures_bind, ensures_update]
    refine ⟨fun _ _ h => (by cases h), fun resolutions w₁ hresolutions => ?_,
      fun _ _ _ _ _ h => (by cases h)⟩
    obtain ⟨rfl, hqueue₁⟩ := hresolutions
    rw [ensures_call]
    simp only [after]
    refine ⟨fun _ _ h => (by cases h), fun pending w₂ hpending a w' hreturned => ?_,
      fun _ _ _ _ _ h => (by cases h)⟩
    obtain ⟨rfl, hqueue₂⟩ := hpending
    cases hreturned
    simp only [enqueueSignals, hqueue₂, hqueue₁, responseRows_map]
    rfl

/-- A connect misses nothing if and only if every due row that is not settled yet is
queued already, comes in, or is among the oldest with room left for it. -/
theorem reconciliation_missesNothing :
    Ensures (database answers limit) (enqueueReconciliation limit) w
      (fun _ o => ∀ a w', o = .returned a w' →
        (MissesNothing tables written w'.queue ↔ Covered answers written w.queue)) := by
  refine enqueueReconciliation_queue.mono fun t o hqueue a w' hreturned => ?_
  rw [hqueue a w' hreturned]
  constructor
  · intro h
    exact ⟨fun row hrow hdue hmissing =>
        (mem_reconciledQueue w.queue).mp (h.resolutions row hrow hdue hmissing),
      fun row hrow hdue => (mem_reconciledQueue w.queue).mp (h.failures row hrow hdue)⟩
  · intro h
    exact ⟨fun row hrow hdue hmissing =>
        (mem_reconciledQueue w.queue).mpr (h.resolutions row hrow hdue hmissing),
      fun row hrow hdue => (mem_reconciledQueue w.queue).mpr (h.failures row hrow hdue)⟩

def CleanId (id : String) : Prop := safeIdentifier (.str id) = some id

theorem mem_resolutionSignals {row : ResolutionRow} (hrow : row ∈ answers.resolutions)
    (hfits : answers.resolutions.length ≤ limit) (hid : CleanId row.resolutionId) :
    .resolution (some "RECONCILE") row.resolutionId none ∈ answers.resolutionSignals limit := by
  unfold Answers.resolutionSignals resolutionSignals
  rw [List.take_of_length_le hfits]
  refine List.mem_filterMap.mpr ⟨row.response, List.mem_map_of_mem hrow, ?_⟩
  show (safeIdentifier (.str row.resolutionId)).map _ = _
  rw [hid]
  rfl

theorem mem_failureSignals {row : FailureRow} (hrow : row ∈ answers.failures)
    (hfits : answers.failures.length ≤ limit) (hid : CleanId row.failureId) :
    .failure (some "RECONCILE") row.failureId none ∈ answers.failureSignals limit := by
  unfold Answers.failureSignals failureSignals
  rw [List.take_of_length_le hfits]
  refine List.mem_filterMap.mpr ⟨row.response, List.mem_map_of_mem hrow, ?_⟩
  show (safeIdentifier (.str row.failureId)).map _ = _
  rw [hid]
  rfl

theorem reaches_of_mem {bound before : ℕ} {signals : List Signal} {signal : Signal}
    (hmem : signal ∈ signals) (hP : P signal) (hfits : before + signals.length ≤ bound) :
    Reaches bound before signals P := by
  obtain ⟨i, hget⟩ := List.mem_iff_getElem?.mp hmem
  have hi := (List.getElem?_eq_some_iff.mp hget).1
  exact ⟨i, signal, hget, hP, by omega⟩

/-- The queue is large enough for both limits and thirty-two signals besides. -/
theorem covered_of_small
    (hresolutions : answers.resolutions.length ≤ limit)
    (hfailures : answers.failures.length ≤ limit)
    (hids : ∀ row ∈ answers.resolutions, CleanId row.resolutionId)
    (hids' : ∀ row ∈ answers.failures, CleanId row.failureId)
    (hqueue : w.queue.items.length + answers.early.length + answers.late.length ≤ 32) :
    Covered answers written w.queue := by
  have hbound : limit * 2 + 32 ≤ queueBound limit := Nat.le_max_right ..
  have hcount : (answers.resolutionSignals limit).length ≤ limit := by
    refine (List.length_filterMap_le _ _).trans ?_
    rw [List.length_map, List.length_take]
    exact Nat.min_le_left ..
  have hcount' : (answers.failureSignals limit).length ≤ limit := by
    refine (List.length_filterMap_le _ _).trans ?_
    rw [List.length_map, List.length_take]
    exact Nat.min_le_left ..
  refine ⟨fun row hrow hdue _ => ?_, fun row hrow hdue => ?_⟩
  · have hordered : row ∈ answers.resolutions :=
      answers.resolutionsOrdered.perm.mem_iff.mpr (List.mem_filter.mpr ⟨hrow, hdue⟩)
    refine .inr (.inr (.inl ?_))
    apply reaches_of_mem (mem_resolutionSignals hordered hresolutions (hids row hordered))
    · exact rfl
    · omega
  · have hordered : row ∈ answers.failures :=
      answers.failuresOrdered.perm.mem_iff.mpr (List.mem_filter.mpr ⟨hrow, hdue⟩)
    refine .inr (.inr (.inr (.inr ?_)))
    apply reaches_of_mem (mem_failureSignals hordered hfailures (hids' row hordered))
    · exact rfl
    · omega

end Run

section Overtaken

/-- The oldest resolution is learned; a younger one is not. -/
def sampleTables : Tables where
  resolutions :=
    [⟨"resolution-1", some "resolved", some true, 1⟩,
      ⟨"resolution-2", some "resolved", some true, 2⟩]
  failures := []

def sampleAnswers : Answers sampleTables where
  resolutions := sampleTables.resolutions
  failures := []
  resolutionsOrdered := ⟨.refl _, by simp [sampleTables]⟩
  failuresOrdered := ⟨.refl _, .nil⟩
  early := []
  late := []

def sampleRuntime {limit : ℕ} : Runtime limit := ⟨true, Queue.empty⟩

theorem database_resolutions {tables : Tables} {limit : ℕ} (answers : Answers tables)
    (w : Runtime limit) (n : ℕ) :
    database answers limit w (.selectResolutions n)
      (.ok (.arr ((answers.resolutions.take n).map fun row => .obj row.response)))
      (enqueueSignals answers.early w) := ⟨rfl, rfl⟩

theorem database_failures {tables : Tables} {limit : ℕ} (answers : Answers tables)
    (w : Runtime limit) (n : ℕ) :
    database answers limit w (.selectPendingFailures n)
      (.ok (.arr ((answers.failures.take n).map fun row => .obj row.response)))
      (enqueueSignals answers.late w) := ⟨rfl, rfl⟩

theorem sample_run (limit : ℕ) : ∃ t w', Runs (database sampleAnswers limit)
    (enqueueReconciliation limit) sampleRuntime t (.returned () w') :=
  ⟨_, _, .get (.resume (database_resolutions sampleAnswers _ limit) (.get (.set
    (.resume (database_failures sampleAnswers _ limit) (.get (.set (.ret () _)))))))⟩

/-- A limit of two takes in the younger resolution. -/
theorem reconciliation_missesNothing_younger : ∃ t w',
    Runs (database sampleAnswers 2) (enqueueReconciliation 2) sampleRuntime t
      (.returned () w') ∧
      MissesNothing sampleTables (fun id => id = "resolution-1") w'.queue := by
  obtain ⟨t, w', hrun⟩ := sample_run 2
  have hclean : CleanId "resolution-1" ∧ CleanId "resolution-2" := by
    unfold CleanId
    decide +kernel
  have hids : ∀ row ∈ sampleAnswers.resolutions, CleanId row.resolutionId := by
    intro row hrow
    rcases List.mem_pair.mp hrow with rfl | rfl
    · exact hclean.1
    · exact hclean.2
  have hcovered : Covered sampleAnswers (fun id => id = "resolution-1")
      (sampleRuntime : Runtime 2).queue :=
    covered_of_small (Nat.le_refl 2) (Nat.zero_le 2) hids (fun row hrow => by cases hrow)
      (Nat.zero_le 32)
  exact ⟨t, w', hrun, (reconciliation_missesNothing t _ hrun () w' rfl).mpr hcovered⟩

theorem sampleQueue_items : (reconciledQueue sampleAnswers
    (sampleRuntime : Runtime 1).queue).items =
    [.resolution (some "RECONCILE") "resolution-1" none] := by
  decide +kernel

/-- The limit is used up by a resolution that is learned already. -/
theorem younger_missed : ∃ t w',
    Runs (database sampleAnswers 1) (enqueueReconciliation 1) sampleRuntime t
      (.returned () w') ∧
      ¬ MissesNothing sampleTables (fun id => id = "resolution-1") w'.queue := by
  obtain ⟨t, w', hrun⟩ := sample_run 1
  refine ⟨t, w', hrun, fun hnothing => ?_⟩
  have hqueue := enqueueReconciliation_queue t _ hrun () w' rfl
  obtain ⟨signal, hsignal, hnamed⟩ := hnothing.resolutions
    ⟨"resolution-2", some "resolved", some true, 2⟩ (by simp [sampleTables]) rfl rfl
  rw [hqueue, sampleQueue_items, List.mem_singleton] at hsignal
  subst hsignal
  have hsame : "resolution-1" = "resolution-2" := hnamed
  exact absurd hsame (by decide)

end Overtaken

end FailureResolver.Reconciliation
