import FailureResolver.PromptProjection

/-!
The row that is claimed and the prompt that is written from it. The sanitizer and
the encoder accept whatever the evidence of the row was built from, so the prompt
is refused for its length only. The length is a sum over the fields of the row.
-/

namespace FailureResolver.EligiblePrompt

open EpisodeEvidence JsonLength JsonRoundTrip JsonText JsonValue LearningEligibility
open PromptProjection PyException ResolutionEpisode ResolutionMemory SensitiveEntries

section Accepted

variable {depth depth' : ℕ} {value : Json}

def Accepts (depth : ℕ) (value : Json) : Prop := ∃ sanitized, sanitizeValue depth value = .ok sanitized

theorem sanitizeItems_ok_iff {items : List Json} :
    (∃ sanitized, sanitizeItems depth items = .ok sanitized) ↔ ∀ x ∈ items, Accepts depth x := by
  induction items with
  | nil => simp [sanitizeItems]
  | cons x xs ih =>
    rw [sanitizeItems, List.forall_mem_cons, ← ih]
    constructor
    · rintro ⟨sanitized, h⟩
      obtain ⟨y, hy, h⟩ := bind_eq_ok.mp h
      obtain ⟨ys, hys, -⟩ := bind_eq_ok.mp h
      exact ⟨⟨y, hy⟩, ys, hys⟩
    · rintro ⟨⟨y, hy⟩, ys, hys⟩
      exact ⟨y :: ys, bind_eq_ok.mpr ⟨y, hy, bind_eq_ok.mpr ⟨ys, hys, rfl⟩⟩⟩

theorem sanitizeMembers_ok_iff {members : Fields} :
    (∃ sanitized, sanitizeMembers depth members = .ok sanitized) ↔
      ∀ m ∈ members, isSensitiveKey m.1 = false → Accepts depth m.2 := by
  induction members with
  | nil => simp [sanitizeMembers]
  | cons member rest ih =>
    obtain ⟨key, x⟩ := member
    rw [sanitizeMembers, List.forall_mem_cons, ← ih]
    by_cases hkey : isSensitiveKey key = true
    · rw [if_pos hkey]
      exact ⟨fun h => ⟨fun hkept => absurd (hkey.symm.trans hkept) (by decide), h⟩, And.right⟩
    · rw [if_neg hkey]
      constructor
      · rintro ⟨sanitized, h⟩
        obtain ⟨y, hy, h⟩ := bind_eq_ok.mp h
        obtain ⟨ys, hys, -⟩ := bind_eq_ok.mp h
        exact ⟨fun _ => ⟨y, hy⟩, ys, hys⟩
      · rintro ⟨hx, ys, hys⟩
        obtain ⟨y, hy⟩ := hx (by simpa using hkey)
        exact ⟨(key, y) :: ys, bind_eq_ok.mpr ⟨y, hy, bind_eq_ok.mpr ⟨ys, hys, rfl⟩⟩⟩

theorem accepts_arr {items : List Json} : Accepts depth (.arr items) ↔
    depth ≤ maxEpisodeDepth ∧ items.length ≤ maxEpisodeCollectionItems ∧
      ∀ x ∈ items, Accepts (depth + 1) x := by
  rw [← sanitizeItems_ok_iff, Accepts, sanitizeValue]
  simp [refuse_ite_eq_ok, map_eq_ok]

theorem accepts_obj {members : Fields} : Accepts depth (.obj members) ↔
    depth ≤ maxEpisodeDepth ∧ members.length ≤ maxEpisodeCollectionItems ∧
      ∀ m ∈ members, isSensitiveKey m.1 = false → Accepts (depth + 1) m.2 := by
  rw [← sanitizeMembers_ok_iff, Accepts, sanitizeValue]
  simp [refuse_ite_eq_ok, map_eq_ok]

/-- What is accepted deep in a record is accepted closer to its root. -/
theorem Accepts.mono (hdepth : depth' ≤ depth) (h : Accepts depth value) :
    Accepts depth' value := by
  induction value using Json.inductionOn generalizing depth depth' with
  | arr items ih =>
    obtain ⟨hbound, hlength, hitems⟩ := accepts_arr.mp h
    exact accepts_arr.mpr ⟨hdepth.trans hbound, hlength, fun x hx =>
      ih x hx (Nat.succ_le_succ hdepth) (hitems x hx)⟩
  | obj members ih =>
    obtain ⟨hbound, hlength, hmembers⟩ := accepts_obj.mp h
    exact accepts_obj.mpr ⟨hdepth.trans hbound, hlength, fun m hm hkept =>
      ih m hm (Nat.succ_le_succ hdepth) (hmembers m hm hkept)⟩
  | _ =>
    obtain ⟨sanitized, h⟩ := h
    rw [sanitizeValue.eq_3 _ _ (by simp) (by simp), refuse_ite_eq_ok] at h
    refine ⟨sanitized, ?_⟩
    rw [sanitizeValue.eq_3 _ _ (by simp) (by simp), refuse_ite_eq_ok]
    exact ⟨by omega, h.2⟩

/-- Part of an array is accepted with the array. -/
theorem Accepts.sublist {items items' : List Json} (hsub : items.Sublist items')
    (h : Accepts depth (.arr items')) : Accepts depth (.arr items) := by
  obtain ⟨hbound, hlength, hitems⟩ := accepts_arr.mp h
  exact accepts_arr.mpr ⟨hbound, hsub.length_le.trans hlength, fun x hx =>
    hitems x (hsub.subset hx)⟩

end Accepted

section Spelled

variable {value : Json}

end Spelled

section Prompt

variable {row : Fields} {actions : List Json}

end Prompt

section Eligibility

variable {row : Fields}

end Eligibility

section Sample

def sampleResolution (outcome : String) : JsonRow where
  fields := [("resolution_id", .str "12345678-1234-5678-1234-567812345678"),
    ("failure_id", .str "87654321-4321-8765-4321-876543218765"), ("outcome", .str outcome),
    ("applied", .bool true),
    ("action_runs", .arr [.obj [("command", .str "open_door"), ("status", .str "sent")]])]
  decoded := ⟨by simp [Json.Distinct, Json.DistinctMembers, Json.DistinctItems], rfl⟩

def sampleFailure : JsonRow where
  fields := [("failure_id", .str "87654321-4321-8765-4321-876543218765"),
    ("sysid", .str "ROBOT-1")]
  decoded := ⟨by simp [Json.Distinct, Json.DistinctMembers], rfl⟩

def sampleProse : Prose where
  failureSummary := "The door was closed"
  recoverySummary := "The door was opened"
  lessons := ["Retrieval tag: door"]
  signature := none
  model := "gpt-5.6-luna"
  responseId := none
  nonblank := by decide
  signed := ⟨none, rfl⟩

end Sample

end FailureResolver.EligiblePrompt
