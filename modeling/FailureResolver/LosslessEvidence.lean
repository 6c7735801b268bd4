import FailureResolver.EscapingErrors
import FailureResolver.JsonLength
import FailureResolver.MemorySections
import FailureResolver.SensitiveEntries

/-!
What sanitizing keeps. A path leads into a value by keys and positions. In an accepted
record no path passes a sensitive key; every other path leads to the same scalar, to as
many items, or to the same keys in their order, as before. Whatever lies on such a path
and exceeds a limit makes the record refused, and an accepted record is accepted again
as it is read back from a memory file.
-/

namespace FailureResolver.LosslessEvidence

open EpisodeEvidence EscapingErrors JsonLength JsonRoundTrip JsonText JsonValue MemoryMarkdown
open MemorySections PyException SensitiveEntries

section Paths

inductive Step
  | key (name : String)
  | item (position : ℕ)

def Step.isSensitive : Step → Bool
  | .key name => isSensitiveKey name
  | .item _ => false

def Visible (path : List Step) : Prop := ∀ s ∈ path, s.isSensitive = false

def stepInto : Json → Step → Option Json
  | .obj members, .key name => members.lookup name
  | .arr items, .item position => items[position]?
  | _, _ => none

def walk (value : Json) : List Step → Option Json
  | [] => some value
  | s :: rest =>
      match stepInto value s with
      | some x => walk x rest
      | none => none

theorem visible_cons {s : Step} {rest : List Step} :
    Visible (s :: rest) ↔ s.isSensitive = false ∧ Visible rest := List.forall_mem_cons

theorem lookup_withoutSensitiveMembers (members : Fields) (name : String) :
    (withoutSensitiveMembers members).lookup name =
      if isSensitiveKey name = true then none else (members.lookup name).map withoutSensitive := by
  induction members with
  | nil => simp [withoutSensitiveMembers]
  | cons first rest ih =>
    obtain ⟨key, x⟩ := first
    rw [withoutSensitiveMembers, List.lookup_cons]
    by_cases hname : name = key
    · subst hname
      rw [beq_self_eq_true]
      by_cases hsensitive : isSensitiveKey name = true
      · rw [if_pos hsensitive, ih, if_pos hsensitive, if_pos hsensitive]
      · rw [if_neg hsensitive, if_neg hsensitive, List.lookup_cons, beq_self_eq_true]
        rfl
    · have hne : (name == key) = false := by simpa using hname
      rw [hne]
      split
      · exact ih
      · rw [List.lookup_cons, hne]
        exact ih

/-- A step into the redacted value: the redacted target, and none behind a sensitive key. -/
theorem stepInto_withoutSensitive (value : Json) (s : Step) :
    stepInto (withoutSensitive value) s =
      if s.isSensitive = true then none else (stepInto value s).map withoutSensitive := by
  cases s with
  | key name =>
    cases value with
    | obj members =>
      rw [withoutSensitive]
      exact lookup_withoutSensitiveMembers members name
    | arr items =>
      rw [withoutSensitive_arr]
      simp [stepInto]
    | _ => simp [withoutSensitive, stepInto]
  | item position =>
    cases value with
    | obj members => simp [withoutSensitive, stepInto, Step.isSensitive]
    | arr items =>
      rw [withoutSensitive_arr]
      simp [stepInto, Step.isSensitive]
    | _ => simp [withoutSensitive, stepInto, Step.isSensitive]

theorem walk_withoutSensitive {value : Json} {path : List Step} (h : Visible path) :
    walk (withoutSensitive value) path = (walk value path).map withoutSensitive := by
  induction path generalizing value with
  | nil => rfl
  | cons s rest ih =>
    obtain ⟨hs, hrest⟩ := visible_cons.mp h
    rw [walk, walk, stepInto_withoutSensitive, hs, if_neg Bool.false_ne_true]
    cases stepInto value s with
    | none => rfl
    | some x => exact ih hrest

theorem walk_sensitive {value : Json} {path : List Step} (h : ¬ Visible path) :
    walk (withoutSensitive value) path = none := by
  induction path generalizing value with
  | nil => exact absurd (List.forall_mem_nil _) h
  | cons s rest ih =>
    rw [walk, stepInto_withoutSensitive]
    by_cases hs : s.isSensitive = true
    · rw [if_pos hs]
    · rw [if_neg hs]
      have hrest : ¬ Visible rest := by
        intro hvisible
        exact h (visible_cons.mpr ⟨by simpa using hs, hvisible⟩)
      cases stepInto value s with
      | none => rfl
      | some x => exact ih hrest

end Paths

section Kept

/-- As many items, the same keys in their order without the sensitive ones, or the same
scalar. -/
def SameNode : Json → Json → Prop
  | .arr items, .arr items' => items'.length = items.length
  | .obj members, .obj members' =>
      Fields.keys members' = (Fields.keys members).filter fun key => !isSensitiveKey key
  | value, value' => value = value'

/-- The record is the value without what lies under a sensitive key. -/
structure Redacts (value record : Json) : Prop where
  hidden : ∀ path, ¬ Visible path → walk record path = none
  absent : ∀ path, walk value path = none → walk record path = none
  kept : ∀ path x, Visible path → walk value path = some x →
    ∃ y, walk record path = some y ∧ SameNode x y

theorem keys_withoutSensitiveMembers_eq (members : Fields) :
    Fields.keys (withoutSensitiveMembers members) =
      (Fields.keys members).filter fun key => !isSensitiveKey key := by
  unfold Fields.keys
  induction members with
  | nil => rfl
  | cons first rest ih =>
    obtain ⟨key, x⟩ := first
    rw [withoutSensitiveMembers, List.map_cons]
    by_cases hkey : isSensitiveKey key = true
    · rw [if_pos hkey, List.filter_cons_of_neg (by simp [hkey]), ih]
    · rw [if_neg hkey, List.filter_cons_of_pos (by simp [hkey]), List.map_cons, ih]

theorem sameNode_withoutSensitive (value : Json) : SameNode value (withoutSensitive value) := by
  cases value with
  | arr items =>
    rw [withoutSensitive_arr]
    exact List.length_map _
  | obj members =>
    rw [withoutSensitive]
    exact keys_withoutSensitiveMembers_eq members
  | _ => rfl

theorem redacts_withoutSensitive (value : Json) : Redacts value (withoutSensitive value) := by
  refine ⟨fun path h => walk_sensitive h, fun path h => ?_, fun path x hvisible hx => ?_⟩
  · by_cases hvisible : Visible path
    · rw [walk_withoutSensitive hvisible, h]
      rfl
    · exact walk_sensitive hvisible
  · rw [walk_withoutSensitive hvisible, hx]
    exact ⟨withoutSensitive x, rfl, sameNode_withoutSensitive x⟩

end Kept

section Limits

variable {depth : ℕ} {value sanitized : Json}

def TooLarge : Json → Prop
  | .str s => maxEpisodeStringChars < s.length
  | .arr items => maxEpisodeCollectionItems < items.length
  | .obj members => maxEpisodeCollectionItems < members.length
  | _ => False

theorem sanitizeItems_item {items ys : List Json} (h : sanitizeItems depth items = .ok ys)
    {x : Json} (hx : x ∈ items) : ∃ y, sanitizeValue depth x = .ok y := by
  induction items generalizing ys with
  | nil => cases hx
  | cons first rest ih =>
    rw [sanitizeItems] at h
    obtain ⟨y, hy, h⟩ := bind_eq_ok.mp h
    obtain ⟨zs, hzs, -⟩ := bind_eq_ok.mp h
    rcases List.mem_cons.mp hx with rfl | hrest
    · exact ⟨y, hy⟩
    · exact ih hzs hrest

theorem sanitizeMembers_member {members ys : Fields} (h : sanitizeMembers depth members = .ok ys)
    {m : String × Json} (hm : m ∈ members) (hkey : isSensitiveKey m.1 = false) :
    ∃ y, sanitizeValue depth m.2 = .ok y := by
  induction members generalizing ys with
  | nil => cases hm
  | cons first rest ih =>
    obtain ⟨key, x⟩ := first
    rw [sanitizeMembers] at h
    by_cases hsensitive : isSensitiveKey key = true
    · rw [if_pos hsensitive] at h
      rcases List.mem_cons.mp hm with rfl | hrest
      · rw [hkey] at hsensitive
        exact absurd hsensitive Bool.false_ne_true
      · exact ih h hrest
    · rw [if_neg hsensitive] at h
      obtain ⟨y, hy, h⟩ := bind_eq_ok.mp h
      obtain ⟨zs, hzs, -⟩ := bind_eq_ok.mp h
      rcases List.mem_cons.mp hm with rfl | hrest
      · exact ⟨y, hy⟩
      · exact ih hzs hrest

/-- What a step leads to was sanitized one level deeper. -/
theorem sanitizeValue_step {s : Step} {x : Json} (h : sanitizeValue depth value = .ok sanitized)
    (hs : s.isSensitive = false) (hx : stepInto value s = some x) :
    ∃ y, sanitizeValue (depth + 1) x = .ok y := by
  cases s with
  | key name =>
    cases value with
    | obj members =>
      rw [sanitizeValue, refuse_ite_eq_ok, refuse_ite_eq_ok, map_eq_ok] at h
      obtain ⟨-, -, ys, hys, -⟩ := h
      have hmember : (name, x) ∈ members := by
        obtain ⟨before, after, rfl, -⟩ := List.lookup_eq_some_iff.mp hx
        simp
      exact sanitizeMembers_member hys hmember hs
    | _ => cases hx
  | item position =>
    cases value with
    | arr items =>
      rw [sanitizeValue, refuse_ite_eq_ok, refuse_ite_eq_ok, map_eq_ok] at h
      obtain ⟨-, -, ys, hys, -⟩ := h
      exact sanitizeItems_item hys (List.mem_of_getElem? hx)
    | _ => cases hx

theorem sanitizeValue_within (h : sanitizeValue depth value = .ok sanitized) :
    depth ≤ maxEpisodeDepth ∧ ¬ TooLarge value := by
  cases value with
  | arr items =>
    rw [sanitizeValue, refuse_ite_eq_ok, refuse_ite_eq_ok] at h
    exact ⟨not_lt.mp h.1, h.2.1⟩
  | obj members =>
    rw [sanitizeValue, refuse_ite_eq_ok, refuse_ite_eq_ok] at h
    exact ⟨not_lt.mp h.1, h.2.1⟩
  | str s =>
    rw [sanitizeValue.eq_3 _ _ (by simp) (by simp), refuse_ite_eq_ok, sanitizeScalar,
      refuse_ite_eq_ok] at h
    exact ⟨not_lt.mp h.1, h.2.1⟩
  | _ =>
    rw [sanitizeValue.eq_3 _ _ (by simp) (by simp), refuse_ite_eq_ok] at h
    exact ⟨not_lt.mp h.1, id⟩

/-- Along a visible path every value of an accepted one is within the limits. -/
theorem within_of_walk {path : List Step} {x : Json} (h : sanitizeValue depth value = .ok sanitized)
    (hvisible : Visible path) (hx : walk value path = some x) :
    depth + path.length ≤ maxEpisodeDepth ∧ ¬ TooLarge x := by
  induction path generalizing depth value sanitized with
  | nil =>
    rw [walk, Option.some.injEq] at hx
    rw [← hx]
    exact sanitizeValue_within h
  | cons s rest ih =>
    obtain ⟨hs, hrest⟩ := visible_cons.mp hvisible
    rw [walk] at hx
    cases hstep : stepInto value s with
    | none =>
      rw [hstep] at hx
      cases hx
    | some y =>
      rw [hstep] at hx
      obtain ⟨z, hz⟩ := sanitizeValue_step h hs hstep
      obtain ⟨hdepth, hsmall⟩ := ih hz hrest hx
      rw [List.length_cons]
      exact ⟨by omega, hsmall⟩

end Limits

section Refused

variable {depth : ℕ} {value : Json}

def isValueError (e : PyExc) : Prop := e.cls = .value

def OnlyRefuses {α : Type} (x : Except PyExc α) : Prop := ¬ Escapes (fun e => ¬ isValueError e) x

theorem onlyRefuses_ok {α : Type} (a : α) : OnlyRefuses (.ok a) := not_escapes_ok a

theorem onlyRefuses_refuse {α : Type} (message : String) :
    OnlyRefuses (refuse message : Except PyExc α) := fun h => escapes_error.mp h rfl

theorem OnlyRefuses.ite {α : Type} {p : Prop} [Decidable p] {message : String}
    {x : Except PyExc α} (h : OnlyRefuses x) : OnlyRefuses (if p then refuse message else x) := by
  split
  · exact onlyRefuses_refuse message
  · exact h

theorem OnlyRefuses.map {α β : Type} {x : Except PyExc α} (h : OnlyRefuses x) (f : α → β) :
    OnlyRefuses (x.map f) := by
  cases x with
  | ok a => exact onlyRefuses_ok (f a)
  | error e =>
    intro he
    obtain ⟨e', heq, hkind⟩ := he
    cases heq
    exact h ⟨e, rfl, hkind⟩

theorem onlyRefuses_scalar (value : Json) : OnlyRefuses (sanitizeScalar value) := by
  unfold sanitizeScalar
  split
  · exact (onlyRefuses_ok _).ite
  · split
    · exact onlyRefuses_ok _
    · exact onlyRefuses_refuse _
  · exact onlyRefuses_ok _

theorem onlyRefuses_sanitizeValue_scalar (hobj : ∀ members, value = .obj members → False)
    (harr : ∀ items, value = .arr items → False) : OnlyRefuses (sanitizeValue depth value) := by
  rw [sanitizeValue.eq_3 depth value hobj harr]
  exact (onlyRefuses_scalar value).ite

theorem onlyRefuses_items {items : List Json}
    (h : ∀ x ∈ items, OnlyRefuses (sanitizeValue depth x)) :
    OnlyRefuses (sanitizeItems depth items) := by
  induction items with
  | nil => exact onlyRefuses_ok []
  | cons x xs ih =>
    obtain ⟨hx, hxs⟩ := List.forall_mem_cons.mp h
    rw [sanitizeItems]
    exact not_escapes_bind hx fun _ _ => not_escapes_bind (ih hxs) fun _ _ => not_escapes_ok _

theorem onlyRefuses_members {members : Fields}
    (h : ∀ m ∈ members, OnlyRefuses (sanitizeValue depth m.2)) :
    OnlyRefuses (sanitizeMembers depth members) := by
  induction members with
  | nil => exact onlyRefuses_ok []
  | cons first rest ih =>
    obtain ⟨key, x⟩ := first
    obtain ⟨hx, hrest⟩ := List.forall_mem_cons.mp h
    rw [sanitizeMembers]
    split
    · exact ih hrest
    · exact not_escapes_bind hx fun _ _ => not_escapes_bind (ih hrest) fun _ _ => not_escapes_ok _

theorem onlyRefuses_sanitizeValue (depth : ℕ) (value : Json) :
    OnlyRefuses (sanitizeValue depth value) := by
  induction value using Json.inductionOn generalizing depth with
  | null => exact onlyRefuses_sanitizeValue_scalar (by simp) (by simp)
  | bool b => exact onlyRefuses_sanitizeValue_scalar (by simp) (by simp)
  | int n => exact onlyRefuses_sanitizeValue_scalar (by simp) (by simp)
  | float x => exact onlyRefuses_sanitizeValue_scalar (by simp) (by simp)
  | str s => exact onlyRefuses_sanitizeValue_scalar (by simp) (by simp)
  | arr items ih =>
    rw [sanitizeValue]
    exact ((onlyRefuses_items fun x hx => ih x hx (depth + 1)).map _).ite.ite
  | obj members ih =>
    rw [sanitizeValue]
    exact ((onlyRefuses_members fun m hm => ih m hm (depth + 1)).map _).ite.ite

theorem onlyRefuses_validate (value : Json) : OnlyRefuses (validateEpisodeEvidence value) := by
  unfold validateEpisodeEvidence
  refine not_escapes_bind (onlyRefuses_sanitizeValue 0 value) fun sanitized _ => ?_
  split
  · split
    · exact (onlyRefuses_ok _).ite
    · exact onlyRefuses_refuse _
  · exact onlyRefuses_refuse _

def Refused (value : Json) : Prop := Escapes isValueError (validateEpisodeEvidence value)

theorem refused_of_not_accepted (h : ∀ record, validateEpisodeEvidence value ≠ .ok record) :
    Refused value := by
  have honly := onlyRefuses_validate value
  cases hvalidate : validateEpisodeEvidence value with
  | ok record => exact absurd hvalidate (h record)
  | error e =>
    rw [hvalidate] at honly
    refine ⟨e, hvalidate, ?_⟩
    by_contra hother
    exact honly (escapes_error.mpr hother)

end Refused

section Record

variable {value : Json} {record : Fields}

/-- What the memory file holds of a record is read back as the same record, with its keys in
order, and accepted. -/
def StaysAccepted (record : Fields) : Prop :=
  ∃ text sorted, dumps indentedStyle (Json.sortKeys (.obj record)) = some text ∧
    loads (universalNewlines text) = some (.obj sorted) ∧
    Json.pyEq (.obj sorted) (.obj record) = true ∧
    validateEpisodeEvidence (.obj sorted) = .ok sorted

theorem stays_accepted (hdistinct : Json.Distinct (.obj record)) (h : Valid record) :
    StaysAccepted record := by
  have hprintable := printable_sortKeys_iff.mp (printable_evidence h)
  have hnewlines : universalNewlines (indentedJson (.obj record)) = indentedJson (.obj record) :=
    universalNewlines_eq fun hmem => feeds_indentedJson (.obj record) '\r' hmem rfl
  obtain ⟨sorted, hsorted⟩ : ∃ sorted, Json.sortKeys (.obj record) = .obj sorted :=
    ⟨_, sortKeys_obj record⟩
  refine ⟨indentedJson (.obj record), sorted, ?_, ?_, ?_, ?_⟩
  · exact ResolutionMemory.dumps_eq_some.mpr ⟨printable_sortKeys hprintable, rfl⟩
  · rw [hnewlines, loads_indentedJson hdistinct hprintable, hsorted]
  · rw [← hsorted]
    exact pyEq_sortKeys hdistinct hprintable
  · exact validate_valid (h.sortKeys hsorted)

theorem redacts_of_accepted (h : validateEpisodeEvidence value = .ok record) :
    Redacts value (.obj record) := by
  obtain ⟨hsanitize, -⟩ := validate_eq_ok.mp h
  rw [sanitizeValue_eq 0 value hsanitize]
  exact redacts_withoutSensitive value

theorem refused_of_exceeds {path : List Step} {x : Json} (hvisible : Visible path)
    (hx : walk value path = some x) (hexceeds : maxEpisodeDepth < path.length ∨ TooLarge x) :
    Refused value := by
  apply refused_of_not_accepted
  intro record h
  obtain ⟨hsanitize, -⟩ := validate_eq_ok.mp h
  obtain ⟨hdepth, hsmall⟩ := within_of_walk hsanitize hvisible hx
  rcases hexceeds with hdeep | hlarge
  · omega
  · exact hsmall hlarge

theorem refused_of_long (hlong : maxEpisodeEvidenceChars < compactLength (withoutSensitive value)) :
    Refused value := by
  apply refused_of_not_accepted
  intro record h
  obtain ⟨hsanitize, -, text, hdumps, hshort⟩ := validate_eq_ok.mp h
  rw [sanitizeValue_eq 0 value hsanitize] at hdumps
  obtain ⟨-, htext⟩ := ResolutionMemory.dumps_eq_some.mp hdumps
  have hlength : compactLength (withoutSensitive value).sortKeys = text.length := by
    rw [← htext]
    rfl
  rw [compactLength_sortKeys] at hlength
  omega

/-- Sanitizing removes what lies under a sensitive key and nothing else. What it accepts is
accepted again, at once and from a memory file; what exceeds a limit it refuses. -/
theorem sanitizing_lossless (value : Json) (hdistinct : value.Distinct) :
    (∀ record, validateEpisodeEvidence value = .ok record →
      Redacts value (.obj record) ∧ validateEpisodeEvidence (.obj record) = .ok record ∧
        StaysAccepted record) ∧
    (∀ path x, Visible path → walk value path = some x →
      maxEpisodeDepth < path.length ∨ TooLarge x → Refused value) ∧
    (maxEpisodeEvidenceChars < compactLength (withoutSensitive value) →
      Refused value) := by
  refine ⟨fun record h => ?_, fun path x => refused_of_exceeds, refused_of_long⟩
  obtain ⟨hsanitize, hvalid⟩ := validate_eq_ok.mp h
  have hkeys := sanitizeValue_distinct 0 value hdistinct hsanitize
  exact ⟨redacts_of_accepted h, validate_valid hvalid, stays_accepted hkeys hvalid⟩

def sampleRecord : Json :=
  .obj [("samples", .arr [.int 1, .obj [("api_key", .str "secret"), ("count", .int 2)]])]

theorem sanitizing_lossless_sample : ∃ record,
    validateEpisodeEvidence sampleRecord = .ok record ∧ Redacts sampleRecord (.obj record) ∧
      StaysAccepted record := by
  have hdistinct : sampleRecord.Distinct := by
    simp [sampleRecord, Json.Distinct, Json.DistinctItems, Json.DistinctMembers]
  have hok : (validateEpisodeEvidence sampleRecord).isOk = true := by decide +kernel
  obtain ⟨record, hrecord⟩ := exists_of_isOk hok
  obtain ⟨hredacts, -, hstays⟩ := (sanitizing_lossless sampleRecord hdistinct).1 record hrecord
  exact ⟨record, hrecord, hredacts, hstays⟩

end Record

end FailureResolver.LosslessEvidence
