import FailureResolver.EpisodeStability
import FailureResolver.MemoryLedger
import FailureResolver.Sha256Numbers

/-!
Learning an episode again. The service writes columns of the failure row itself.
The columns it keeps its own records in do not change the hash the memory is looked
up by; those of a recovery do, unless they agree. With the memory in place nothing is
generalized and nothing is written: git brings the checkout up to date, and the latest
commit is pushed and named.
-/

namespace FailureResolver.UnchangedEpisode

open EpisodeEvidence EpisodeStability JsonRoundTrip JsonText JsonValue LearnResolution MemoryLedger
open Program PyException ResolutionEpisode ResolutionMemory RowText TaskPool
open DurableWrite (ReadsOnly asks_latestMemoryCommit asks_rebuildIndex)
open GitMemoryStore (GitOp git gitEnvironment)
open MemoryProvenance (hasSourceHash)

section Hash

variable {resolution failure failure' row : Fields} {source source' : ResolutionSource}

theorem sourceOfCanonical_sourceHash {resolutionId : String} {failureId : Option String}
    {canonical : Fields} (h : sourceOfCanonical resolutionId failureId canonical = .ok source) :
    source.sourceHash = Sha256.hexDigest source.canonicalPayloadJson := by
  unfold sourceOfCanonical at h
  obtain ⟨-, h⟩ := rejectMemory_ite_eq_ok.mp h
  split at h
  · cases h
  · cases h
    rfl

/-- The hash of a source is the digest of its text. -/
theorem learnedSource_sourceHash (h : learnedSource resolution (some failure) = .ok source) :
    source.sourceHash = Sha256.hexDigest source.canonicalPayloadJson := by
  obtain ⟨row, -, h⟩ := bind_eq_ok.mp h
  unfold resolutionSourceFromRow at h
  obtain ⟨resolutionId, -, h⟩ := bind_eq_ok.mp h
  obtain ⟨failureId, -, h⟩ := bind_eq_ok.mp h
  obtain ⟨applied, -, h⟩ := bind_eq_ok.mp h
  obtain ⟨outcome, -, h⟩ := bind_eq_ok.mp h
  obtain ⟨payload, -, h⟩ := bind_eq_ok.mp h
  split at h
  · cases h
  · split at h
    · exact sourceOfCanonical_sourceHash h
    · cases h

/-- The other failure row gives another text with the same digest. -/
def DigestCollision (resolution failure' : Fields) (source : ResolutionSource) : Prop :=
  ∃ source', learnedSource resolution (some failure') = .ok source' ∧
    source'.canonicalPayloadJson ≠ source.canonicalPayloadJson ∧
    Sha256.hexDigest source'.canonicalPayloadJson =
      Sha256.hexDigest source.canonicalPayloadJson

/-- The other failure row is learned under the same hash. -/
def SameHash (resolution failure' : Fields) (source : ResolutionSource) : Prop :=
  ∃ source', learnedSource resolution (some failure') = .ok source' ∧
    source'.sourceHash = source.sourceHash

theorem sameHash_iff (hresolution : Json.Distinct (.obj resolution))
    (hfailure : Json.Distinct (.obj failure)) (hfailure' : Json.Distinct (.obj failure'))
    (hsame : SameBut mutableColumns failure failure')
    (h : learnedSource resolution (some failure) = .ok source) :
    SameHash resolution failure' source ↔
      RecoveryAgrees failure failure' ∨ DigestCollision resolution failure' source := by
  constructor
  · intro hhash
    obtain ⟨source', h', hhash⟩ := hhash
    by_cases htext : source'.canonicalPayloadJson = source.canonicalPayloadJson
    · refine .inl (agrees_of_payload hresolution hfailure hfailure' h h' ?_)
      unfold ResolutionSource.payload
      rw [htext]
    · rw [learnedSource_sourceHash h, learnedSource_sourceHash h'] at hhash
      exact .inr ⟨source', h', htext, hhash⟩
  · intro hcondition
    rcases hcondition with hagree | ⟨source', h', -, hdigest⟩
    · have hlearned := (learnedSource_same_iff hresolution hfailure hfailure' hsame h).mpr hagree
      exact ⟨source, hlearned, rfl⟩
    · refine ⟨source', h', ?_⟩
      rw [learnedSource_sourceHash h, learnedSource_sourceHash h', hdigest]

end Hash

section Replay

variable {Repository : Type} {resolution failure : Fields} {source : ResolutionSource}

/-- A call of the model, or a write to a memory branch. -/
def isWork : Op → Bool
  | .generalizeResolution _ => true
  | .writeMemory .. => true
  | _ => false

/-- The episode is read as these two rows, and its memory is in place. -/
def InPlace (resolution failure : Fields) (source : ResolutionSource) :
    (op : Op) → Except PyExc op.Reply → Prop
  | .fetchResolution _, .ok row => row = some resolution
  | .fetchFailure _, .ok row => row = some failure
  | .hasSourceHash _ resolutionId sourceHash, .ok present =>
      resolutionId = source.resolutionId → sourceHash = source.sourceHash → present = true
  | _, _ => True

def replay (Repository : Type) (resolution failure : Fields) (source : ResolutionSource) :
    Discipline (learning Repository) Unit where
  rely _ _ := True
  act _ _ _ _ := True
  request _ _ op := isWork op = false
  answer _ op r _ := InPlace resolution failure source op r

variable {α β : Type} {w : World Repository}

abbrev Idle (resolution failure : Fields) (source : ResolutionSource)
    (p : Learning Repository α) (w : World Repository) : Prop :=
  Obeys (replay Repository resolution failure source) (fun _ _ _ => True) p () w

theorem obeys_query {op : Op} {Q : Except PyExc op.Reply → Unit → World Repository → Prop}
    (hop : isWork op = false) (herror : ∀ e w, Q (.error e) () w)
    (hok : ∀ a w, InPlace resolution failure source op (.ok a) → Q (.ok a) () w) :
    Obeys (replay Repository resolution failure source) Q (query op) () w := by
  refine obeys_client_query (fun _ => hop) (fun r _ w hanswer _ => ?_) fun _ => herror _ _
  cases r with
  | ok a => exact hok a w hanswer
  | error e => exact herror e w

variable {c : Ingestion}

end Replay

section Unchanged

variable {resolution failure failure' : Fields} {source : ResolutionSource}

def sampleId : String := "12345678-1234-5678-1234-567812345678"

def sampleResolution : Fields :=
  [("resolution_id", .str sampleId),
    ("failure_id", .str "87654321-4321-8765-4321-876543218765"), ("outcome", .str "resolved"),
    ("applied", .bool true),
    ("action_runs", .arr [.obj [("command", .str "open_door"), ("status", .str "sent")]])]

def sampleFailure (matcher recovery : Json) : Fields :=
  [("failure_id", .str "87654321-4321-8765-4321-876543218765"), ("matcher_status", matcher),
    ("recovery_status", recovery)]

theorem sampleResolution_distinct : Json.Distinct (.obj sampleResolution) := by
  simp [sampleResolution, Json.Distinct, Json.DistinctMembers, Json.DistinctItems]

def sampleFailureId : String := "87654321-4321-8765-4321-876543218765"

def sampleEvidence (recovery : Json) : Fields :=
  [("failure_event", .obj [("failure_id", .str sampleFailureId), ("recovery_status", recovery)]),
    ("resolution_event", .obj sampleResolution)]

def sampleMemory (recovery : Json) : Fields :=
  sampleResolution ++ [("episode_evidence", .obj (sampleEvidence recovery))]

def samplePayload (recovery : Json) : Fields :=
  Fields.set (payloadOfRow (sampleMemory recovery) sampleId (some sampleFailureId) "resolved" true)
    "episode_evidence" (.obj (sampleEvidence recovery))

def sampleText (recovery : Json) : List Char :=
  print compactStyle 0 (Json.sortKeys (.obj (samplePayload recovery)))

theorem sampleKeys_kept : ∀ key ∈ ["resolution_id", "failure_id", "outcome", "applied",
    "action_runs", "command", "status", "recovery_status", "failure_event", "resolution_event"],
    isSensitiveKey key = false := by decide +kernel

theorem sampleResolution_sanitized {depth : ℕ} (h : depth ≤ 1) :
    Sanitized depth (.obj sampleResolution) := by
  have hkept := sampleKeys_kept
  simp only [List.forall_mem_cons] at hkept
  obtain ⟨hresolution, hfailure, houtcome, happlied, hruns, hcommand, hstatus, -⟩ := hkept
  have hdepth : ∀ {d : ℕ}, d ≤ 4 → d ≤ maxEpisodeDepth := fun hd => hd.trans (by decide)
  have hrun : Sanitized (depth + 2)
      (.obj [("command", .str "open_door"), ("status", .str "sent")]) := by
    refine sanitized_obj.mpr ⟨hdepth (by omega), by decide, List.forall_mem_cons.mpr ⟨⟨hcommand,
      sanitized_str (hdepth (by omega)) (by decide)⟩, List.forall_mem_cons.mpr ⟨⟨hstatus,
      sanitized_str (hdepth (by omega)) (by decide)⟩, by simp⟩⟩⟩
  unfold sampleResolution
  rw [sanitized_obj]
  refine ⟨hdepth (by omega), by decide, ?_⟩
  simp only [List.forall_mem_cons]
  refine ⟨⟨hresolution, sanitized_str (hdepth (by omega)) (by decide)⟩,
    ⟨hfailure, sanitized_str (hdepth (by omega)) (by decide)⟩,
    ⟨houtcome, sanitized_str (hdepth (by omega)) (by decide)⟩,
    ⟨happlied, sanitized_scalar (hdepth (by omega)) rfl (by simp) (by simp)⟩,
    ⟨hruns, sanitized_arr.mpr ⟨hdepth (by omega), by decide, ?_⟩⟩, by simp⟩
  simpa using hrun

def recorded : List Json := [.null, .str "failed"]

variable {recovery : Json}

theorem recorded_sanitized (h : recovery ∈ recorded) {depth : ℕ} (hdepth : depth ≤ 4) :
    Sanitized depth recovery := by
  have hmax : depth ≤ maxEpisodeDepth := hdepth.trans (by decide)
  simp only [recorded, List.mem_cons, List.not_mem_nil, or_false] at h
  rcases h with rfl | rfl
  · exact sanitized_scalar hmax rfl (by simp) (by simp)
  · exact sanitized_str hmax (by decide)

theorem sampleEvidence_valid (h : recovery ∈ recorded) : Valid (sampleEvidence recovery) := by
  have hkept := sampleKeys_kept
  simp only [List.forall_mem_cons] at hkept
  obtain ⟨-, hfailure, -, -, -, -, -, hrecovery, hfailureEvent, hresolutionEvent, -⟩ := hkept
  constructor
  · unfold sampleEvidence
    rw [sanitized_obj]
    refine ⟨by decide, by simp [maxEpisodeCollectionItems], List.forall_mem_cons.mpr
      ⟨⟨hfailureEvent, ?_⟩,
      List.forall_mem_cons.mpr ⟨⟨hresolutionEvent, sampleResolution_sanitized le_rfl⟩, by simp⟩⟩⟩
    exact sanitized_obj.mpr ⟨by decide, by simp [maxEpisodeCollectionItems],
      List.forall_mem_cons.mpr ⟨⟨hfailure,
      sanitized_str (by decide) (by decide)⟩, List.forall_mem_cons.mpr ⟨⟨hrecovery,
      recorded_sanitized h (by decide)⟩, by simp⟩⟩⟩
  · have hshort : ∀ recovery ∈ recorded,
        printable (Json.sortKeys (.obj (sampleEvidence recovery))) = true ∧
        (print compactStyle 0 (Json.sortKeys (.obj (sampleEvidence recovery)))).length ≤
          maxEpisodeEvidenceChars := by decide +kernel
    obtain ⟨hprintable, hlength⟩ := hshort recovery h
    exact ⟨_, dumps_eq_some.mpr ⟨hprintable, rfl⟩, hlength⟩

/-- The failure is kept without its bookkeeping. -/
theorem sampleFailure_record (h : recovery ∈ recorded) :
    sanitizeEpisodeRecord (sampleFailure .null recovery) =
      .ok (.obj [("failure_id", .str sampleFailureId), ("recovery_status", recovery)]) := by
  have hkept := sampleKeys_kept
  simp only [List.forall_mem_cons] at hkept
  obtain ⟨-, hfailure, -, -, -, -, -, hrecovery, -⟩ := hkept
  have hdropped : isSensitiveKey "matcher_status" = true := by decide +kernel
  have hid : sanitizeValue 1 (.str sampleFailureId) = .ok (.str sampleFailureId) :=
    sanitized_str (by decide) (by decide)
  have hstatus : sanitizeValue 1 recovery = .ok recovery := recorded_sanitized h (by decide)
  unfold sanitizeEpisodeRecord
  rw [sanitizeValue, if_neg (by decide),
    if_neg (by simp [sampleFailure, maxEpisodeCollectionItems])]
  unfold sampleFailure
  rw [sanitizeMembers, if_neg (by simp [hfailure]), sanitizeMembers, if_pos hdropped,
    sanitizeMembers, if_neg (by simp [hrecovery]), sanitizeMembers]
  rw [show (Json.str "87654321-4321-8765-4321-876543218765") = .str sampleFailureId from rfl]
  simp only [Nat.zero_add, hid, hstatus]
  rfl

theorem decoded_sampleResolution : Decoded (.obj sampleResolution) :=
  ⟨sampleResolution_distinct, rfl⟩

theorem decoded_sampleEvidence (h : recovery ∈ recorded) :
    Decoded (.obj (sampleEvidence recovery)) := by
  have hrecovery : Decoded recovery := by
    simp only [recorded, List.mem_cons, List.not_mem_nil, or_false] at h
    rcases h with rfl | rfl
    · exact ⟨trivial, rfl⟩
    · exact ⟨trivial, rfl⟩
  refine hereditary_decoded.obj _ (by simp [sampleEvidence]) (List.forall_mem_cons.mpr ⟨?_,
    List.forall_mem_cons.mpr ⟨decoded_sampleResolution, by simp⟩⟩)
  exact hereditary_decoded.obj _ (by simp) (List.forall_mem_cons.mpr ⟨⟨trivial, rfl⟩,
    List.forall_mem_cons.mpr ⟨hrecovery, by simp⟩⟩)

theorem decoded_sampleMemory (h : recovery ∈ recorded) : Decoded (.obj (sampleMemory recovery)) := by
  refine hereditary_decoded.obj _ (by simp [sampleMemory, sampleResolution]) fun m hm => ?_
  rcases List.mem_append.mp hm with hm | hm
  · exact hereditary_decoded.member _ decoded_sampleResolution m hm
  · rw [List.mem_singleton.mp hm]
    exact decoded_sampleEvidence h

theorem sampleMemory_eq (h : recovery ∈ recorded) :
    memoryRow sampleResolution (some (sampleFailure .null recovery)) =
      .ok (sampleMemory recovery) := by
  have hevidence : buildEpisodeEvidence (some (sampleFailure .null recovery)) sampleResolution =
      .ok (sampleEvidence recovery) := by
    unfold buildEpisodeEvidence failureEvent
    simp only [sampleFailure_record h]
    have hresolution : sanitizeEpisodeRecord sampleResolution = .ok (.obj sampleResolution) :=
      sampleResolution_sanitized (by decide)
    simp only [hresolution]
    exact validate_valid (sampleEvidence_valid h)
  unfold memoryRow resolutionWithFailureContext
  rw [hevidence]
  rfl

/-- The source of the sample is hashed as this text. -/
theorem exists_sampleSource (h : recovery ∈ recorded) : ∃ source,
    learnedSource sampleResolution (some (sampleFailure .null recovery)) = .ok source ∧
      source.canonicalPayloadJson = sampleText recovery := by
  have hid : canonicalUuid (Fields.get (sampleMemory recovery) "resolution_id") "resolution_id" =
      .ok sampleId := by
    show canonicalUuid (.str sampleId) "resolution_id" = .ok sampleId
    decide +kernel
  have hfailure : optionalUuid (Fields.get (sampleMemory recovery) "failure_id") "failure_id" =
      .ok (some sampleFailureId) := by
    show optionalUuid (.str sampleFailureId) "failure_id" = .ok (some sampleFailureId)
    decide +kernel
  have happlied : appliedOfRow (sampleMemory recovery) = .ok true := rfl
  have houtcome : optionalRowText (sampleMemory recovery) "outcome" = .ok (some "resolved") := by
    show Except.ok (if PyText.strip "resolved" = "" then none else
      some (PyText.strip "resolved")) = Except.ok (some "resolved")
    decide
  have hselected : Fields.get (payloadOfRow (sampleMemory recovery) sampleId (some sampleFailureId)
      "resolved" true) "episode_evidence" = .obj (sampleEvidence recovery) :=
    get_payloadOfRow (sampleMemory recovery) _ _ _ _ (by decide) (by decide)
  have hpayload : withEpisodeEvidence (payloadOfRow (sampleMemory recovery) sampleId
      (some sampleFailureId) "resolved" true) = .ok (samplePayload recovery) :=
    withEpisodeEvidence_valid (sampleEvidence_valid h) hselected
  have hmap : withCurrentMap (sampleMemory recovery) (samplePayload recovery) =
      samplePayload recovery := rfl
  have hruns : isArrayOfObjects (Fields.get (samplePayload recovery) "action_runs") = true := rfl
  have hdecoded : Decoded (.obj (samplePayload recovery)) :=
    hereditary_decoded.set _ _ _ (inherits_payloadOfRow hereditary_decoded (fun _ => ⟨trivial, rfl⟩)
      (fun _ => ⟨trivial, rfl⟩) (decoded_sampleMemory h) _ _ _ _) (decoded_sampleEvidence h)
  rw [← hmap] at hdecoded
  obtain ⟨source, hsource, hholds⟩ := @resolutionSourceFromRow_of_parts (sampleMemory recovery)
    (samplePayload recovery) sampleId (some sampleFailureId) (some "resolved") true hid hfailure
    happlied houtcome hpayload hdecoded hruns
  have htext := hholds.text
  rw [hmap] at htext
  exact ⟨source, bind_eq_ok.mpr ⟨_, sampleMemory_eq h, hsource⟩, htext⟩

def sampleWorld : World Branches where
  clientSet := true
  knownCommitShas _ := none
  failures _ := none
  repository _ := ⟨some (GitHistory.clone []), []⟩

def sampleSetup : Setup where
  config _ := ⟨"main", fun _ => true⟩
  strOf _ := ""
  nameOf sha := toString sha.length

end Unchanged

end FailureResolver.UnchangedEpisode
