import FailureResolver.ResolutionEpisode

/-!
Which columns of a failure row a memory source depends on. Two failure rows that
differ only in columns the service writes itself give the same source if and
only if their recovery columns agree: the other columns are dropped from the
evidence, and no context is projected from any of them.
-/

namespace FailureResolver.EpisodeStability

open EpisodeEvidence JsonRoundTrip JsonText JsonValue PyException ResolutionEpisode
open ResolutionMemory

section Columns

def recoveryColumns : List String := ["recovery_status", "recovery_session_id"]

/-- The columns of a failure row the service writes itself. -/
def mutableColumns : List String := resolverBookkeepingKeys ++ recoveryColumns

/-- Two rows of one table that differ only in some of its columns. -/
def SameBut (columns : List String) (row row' : Fields) : Prop :=
  List.Forall₂ (fun member member' : String × Json =>
    member.1 = member'.1 ∧ (member.1 ∉ columns → member.2 = member'.2)) row row'

/-- A column as it stands in the evidence, without regard to the order of members. -/
def evidenceValue (value : Json) : Except PyExc Json := (sanitizeValue 1 value).map Json.sortKeys

/-- The recovery columns of both rows are the same evidence. -/
def RecoveryAgrees (failure failure' : Fields) : Prop :=
  ∀ key ∈ recoveryColumns,
    evidenceValue (Fields.get failure key) = evidenceValue (Fields.get failure' key)

variable {columns : List String} {row row' failure failure' : Fields}

theorem SameBut.lookup (h : SameBut columns row row') {key : String} (hkey : key ∉ columns) :
    row.lookup key = row'.lookup key := by
  induction h with
  | nil => rfl
  | @cons member member' rest rest' hmember _ ih =>
    obtain ⟨name, x⟩ := member
    obtain ⟨name', x'⟩ := member'
    obtain ⟨hname, hsame⟩ := hmember
    simp only at hname hsame
    subst hname
    by_cases heq : key = name
    · subst heq
      simp [hsame hkey]
    · have hne : (key == name) = false := by simpa using heq
      simpa [List.lookup_cons, hne] using ih

theorem SameBut.get (h : SameBut columns row row') {key : String} (hkey : key ∉ columns) :
    Fields.get row key = Fields.get row' key := by
  unfold Fields.get
  rw [h.lookup hkey]

theorem SameBut.mono {columns' : List String} (h : SameBut columns row row')
    (hsub : columns ⊆ columns') : SameBut columns' row row' :=
  h.imp fun _ _ hmember => ⟨hmember.1, fun hkey => hmember.2 fun hold => hkey (hsub hold)⟩

theorem SameBut.symm (h : SameBut columns row row') : SameBut columns row' row :=
  h.flip.imp fun _ _ hmember => ⟨hmember.1.symm, fun hkey => (hmember.2 (hmember.1 ▸ hkey)).symm⟩

end Columns

section Projection

def contextColumns : List String :=
  "sanitized_context" :: (directFields ++ aliases.flatMap Prod.snd)

theorem contextColumns_immutable : ∀ key ∈ contextColumns, key ∉ mutableColumns := by decide

variable {failure failure' : Fields}

theorem firstPresent_congr {candidates : List String}
    (h : ∀ key ∈ candidates, Fields.get failure key = Fields.get failure' key) :
    firstPresent failure candidates = firstPresent failure' candidates := by
  unfold firstPresent
  rw [List.map_congr_left h]

/-- The context is projected from the context columns alone. -/
theorem projectFailureContext_congr
    (h : ∀ key ∈ contextColumns, Fields.get failure key = Fields.get failure' key) :
    projectFailureContext failure = projectFailureContext failure' := by
  have hdirect : ∀ key ∈ directFields, Fields.get failure key = Fields.get failure' key := by
    intro key hkey
    exact h key (List.mem_cons_of_mem _ (List.mem_append_left _ hkey))
  have halias : ∀ column ∈ aliases,
      firstPresent failure column.2 = firstPresent failure' column.2 := by
    intro column hcolumn
    apply firstPresent_congr
    intro key hkey
    have hmem := List.mem_flatMap.mpr ⟨column, hcolumn, hkey⟩
    exact h key (List.mem_cons_of_mem _ (List.mem_append_right _ hmem))
  unfold projectFailureContext
  rw [h "sanitized_context" (List.mem_cons_self ..)]
  congr 1
  rw [List.foldl_ext _ (fun projected column => project projected column.1
      (firstPresent failure' column.2)) _ fun projected column hcolumn => by
        rw [halias column hcolumn]]
  congr 1
  apply List.foldl_ext
  intro projected field hfield
  rw [hdirect field hfield]

theorem fillContext_same (h : SameBut mutableColumns failure failure') (resolution : Fields) :
    fillContext resolution (some failure) = fillContext resolution (some failure') := by
  unfold fillContext
  simp only
  rw [projectFailureContext_congr fun key hkey => h.get (contextColumns_immutable key hkey)]

end Projection

section Evidence

variable {failure failure' resolution evidence : Fields}

def withSortedValues (fields : Fields) : Fields := fields.map fun m => (m.1, m.2.sortKeys)

theorem sortKeys_obj_congr (h : withSortedValues failure = withSortedValues failure') :
    Json.sortKeys (.obj failure) = Json.sortKeys (.obj failure') := by
  unfold withSortedValues at h
  rw [sortKeys_obj, sortKeys_obj, h]

/-- Columns that are dropped, or that are the same evidence. -/
def SameEvidence (failure failure' : Fields) : Prop :=
  List.Forall₂ (fun member member' : String × Json => member.1 = member'.1 ∧
    (isSensitiveKey member.1 = true ∨ evidenceValue member.2 = evidenceValue member'.2))
    failure failure'

theorem evidenceValue_eq_ok {value value' sanitized : Json}
    (h : sanitizeValue 1 value = .ok sanitized)
    (hsame : evidenceValue value = evidenceValue value') :
    ∃ sanitized', sanitizeValue 1 value' = .ok sanitized' ∧
      sanitized.sortKeys = sanitized'.sortKeys := by
  unfold evidenceValue at hsame
  rw [h] at hsame
  obtain ⟨sanitized', hvalue, hsorted⟩ := map_eq_ok.mp hsame.symm
  exact ⟨sanitized', hvalue, hsorted.symm⟩

theorem sanitizeMembers_congr (hsame : SameEvidence failure failure') {sanitized : Fields}
    (h : sanitizeMembers 1 failure = .ok sanitized) :
    ∃ sanitized', sanitizeMembers 1 failure' = .ok sanitized' ∧
      withSortedValues sanitized = withSortedValues sanitized' := by
  induction hsame generalizing sanitized with
  | nil => exact ⟨sanitized, h, rfl⟩
  | @cons member member' rest rest' hmember _ ih =>
    obtain ⟨name, x⟩ := member
    obtain ⟨name', x'⟩ := member'
    obtain ⟨hname, hvalue⟩ := hmember
    simp only at hname hvalue
    subst hname
    rw [sanitizeMembers] at h ⊢
    by_cases hkey : isSensitiveKey name = true
    · rw [if_pos hkey] at h ⊢
      exact ih h
    · rw [if_neg hkey] at h ⊢
      obtain ⟨y, hy, h⟩ := bind_eq_ok.mp h
      obtain ⟨ys, hys, h⟩ := bind_eq_ok.mp h
      cases h
      obtain ⟨y', hy', hsorted⟩ := evidenceValue_eq_ok hy (hvalue.resolve_left hkey)
      obtain ⟨ys', hys', hrest⟩ := ih hys
      refine ⟨(name, y') :: ys', bind_eq_ok.mpr ⟨y', hy', bind_eq_ok.mpr ⟨ys', hys', rfl⟩⟩, ?_⟩
      unfold withSortedValues at hrest ⊢
      rw [List.map_cons, List.map_cons, hsorted, hrest]

theorem sanitizeEpisodeRecord_eq_ok {record : Fields} {sanitized : Json} :
    sanitizeEpisodeRecord record = .ok sanitized ↔
      record.length ≤ maxEpisodeCollectionItems ∧
        ∃ members, sanitizeMembers 1 record = .ok members ∧ sanitized = .obj members := by
  unfold sanitizeEpisodeRecord
  rw [sanitizeValue, refuse_ite_eq_ok, refuse_ite_eq_ok, map_eq_ok]
  constructor
  · rintro ⟨-, hlength, members, hmembers, rfl⟩
    exact ⟨by omega, members, hmembers, rfl⟩
  · rintro ⟨hlength, members, hmembers, rfl⟩
    exact ⟨by simp, by omega, members, hmembers, rfl⟩

def eventsOf (failureEvent resolutionEvent : Json) : Fields :=
  [("failure_event", failureEvent), ("resolution_event", resolutionEvent)]

/-- The evidence is made of the two sanitized rows. -/
theorem buildEpisodeEvidence_eq_ok :
    buildEpisodeEvidence (some failure) resolution = .ok evidence ↔
      ∃ failureEvent resolutionEvent, sanitizeEpisodeRecord failure = .ok failureEvent ∧
        sanitizeEpisodeRecord resolution = .ok resolutionEvent ∧
        evidence = eventsOf failureEvent resolutionEvent ∧ Valid evidence := by
  unfold buildEpisodeEvidence
  rw [bind_eq_ok]
  refine exists_congr fun failureEvent => ?_
  constructor
  · rintro ⟨hfailure, h⟩
    obtain ⟨resolutionEvent, hresolution, h⟩ := bind_eq_ok.mp h
    obtain ⟨hsanitize, hvalid⟩ := validate_eq_ok.mp h
    refine ⟨resolutionEvent, hfailure, hresolution, ?_, hvalid⟩
    rw [sanitizeValue, refuse_ite_eq_ok, refuse_ite_eq_ok, map_eq_ok] at hsanitize
    obtain ⟨-, -, members, hmembers, heq⟩ := hsanitize
    cases heq
    refine sanitizeMembers_of_sanitized (fun m hm => ?_) hmembers
    have hevent := sanitizeValue_sanitized 0 (.obj failure) hfailure
    have hrecord := sanitizeValue_sanitized 0 (.obj resolution) hresolution
    have hkeys : isSensitiveKey "failure_event" = false ∧
        isSensitiveKey "resolution_event" = false := by decide
    rcases List.mem_cons.mp hm with rfl | hm
    · exact ⟨hkeys.1, fun y hy => hevent.eq hy⟩
    · rw [List.mem_singleton] at hm
      subst hm
      exact ⟨hkeys.2, fun y hy => hrecord.eq hy⟩
  · rintro ⟨resolutionEvent, hfailure, hresolution, rfl, hvalid⟩
    exact ⟨hfailure, bind_eq_ok.mpr ⟨resolutionEvent, hresolution, validate_valid hvalid⟩⟩

theorem buildEpisodeEvidence_congr (hsame : SameEvidence failure failure')
    (h : buildEpisodeEvidence (some failure) resolution = .ok evidence) :
    ∃ evidence', buildEpisodeEvidence (some failure') resolution = .ok evidence' ∧
      Json.sortKeys (.obj evidence) = Json.sortKeys (.obj evidence') := by
  obtain ⟨failureEvent, resolutionEvent, hfailure, hresolution, rfl, hvalid⟩ :=
    buildEpisodeEvidence_eq_ok.mp h
  obtain ⟨hlength, members, hmembers, rfl⟩ := sanitizeEpisodeRecord_eq_ok.mp hfailure
  obtain ⟨members', hmembers', hsorted⟩ := sanitizeMembers_congr hsame hmembers
  have hrecord : sanitizeEpisodeRecord failure' = .ok (.obj members') :=
    sanitizeEpisodeRecord_eq_ok.mpr
      ⟨by rwa [← hsame.length_eq], members', hmembers', rfl⟩
  have hevents : Json.sortKeys (.obj (eventsOf (.obj members) resolutionEvent)) =
      Json.sortKeys (.obj (eventsOf (.obj members') resolutionEvent)) := by
    apply sortKeys_obj_congr
    simp only [withSortedValues, eventsOf, List.map_cons, List.map_nil]
    rw [sortKeys_obj_congr hsorted]
  exact ⟨_, buildEpisodeEvidence_eq_ok.mpr
    ⟨_, resolutionEvent, hrecord, hresolution, rfl, hvalid.of_sortKeys hevents⟩, hevents⟩

end Evidence

section Rows

variable {fields fields' row row' evidence evidence' : Fields} {key : String}

theorem get_withSortedValues (fields : Fields) (key : String) :
    Fields.get (withSortedValues fields) key = (Fields.get fields key).sortKeys := by
  unfold withSortedValues
  induction fields with
  | nil => rfl
  | cons member rest ih =>
    obtain ⟨name, x⟩ := member
    by_cases hname : key = name
    · subst hname
      simp [Fields.get]
    · have hne : (key == name) = false := by simpa using hname
      simpa [Fields.get, List.lookup_cons, hne] using ih

theorem has_withSortedValues (fields : Fields) (key : String) :
    Fields.has (withSortedValues fields) key = Fields.has fields key := by
  rw [Bool.eq_iff_iff, has_eq_true_iff, has_eq_true_iff, withSortedValues, List.map_map]
  rfl

theorem set_withSortedValues (fields : Fields) (key : String) (value : Json) :
    withSortedValues (Fields.set fields key value) =
      Fields.set (withSortedValues fields) key value.sortKeys := by
  unfold Fields.set
  rw [has_withSortedValues]
  split
  · unfold withSortedValues
    rw [List.map_map, List.map_map]
    refine List.map_congr_left fun member _ => ?_
    simp only [Function.comp_apply]
    split <;> rfl
  · unfold withSortedValues
    rw [List.map_append]
    rfl

theorem set_congr (key : String) (h : withSortedValues fields = withSortedValues fields')
    {value value' : Json} (hvalue : value.sortKeys = value'.sortKeys) :
    withSortedValues (Fields.set fields key value) =
      withSortedValues (Fields.set fields' key value') := by
  rw [set_withSortedValues, set_withSortedValues, h, hvalue]

theorem isNull_sortKeys (value : Json) : value.sortKeys.isNull = value.isNull := by
  cases value with
  | arr items => rw [sortKeys_arr]; rfl
  | obj members => rw [sortKeys_obj]; rfl
  | _ => rfl

theorem fillNull_congr (h : withSortedValues fields = withSortedValues fields') (value : Json) :
    withSortedValues (fillNull fields key value) =
      withSortedValues (fillNull fields' key value) := by
  have hnull : (Fields.get fields key).isNull = (Fields.get fields' key).isNull := by
    rw [← isNull_sortKeys, ← get_withSortedValues, h, get_withSortedValues, isNull_sortKeys]
  unfold fillNull
  rw [hnull]
  split
  · exact set_congr _ h rfl
  · exact h

theorem withCurrentMap_congr (h : withSortedValues fields = withSortedValues fields')
    (hnavigation : Fields.get row "navigation" = Fields.get row' "navigation")
    (hreported : Fields.get row "status_reported_at" = Fields.get row' "status_reported_at") :
    withSortedValues (withCurrentMap row fields) =
      withSortedValues (withCurrentMap row' fields') := by
  unfold withCurrentMap
  rw [hnavigation, hreported]
  split
  · exact fillNull_congr (fillNull_congr (fillNull_congr h _) _) _
  · exact h

/-- Two rows that are the same but for evidence in another order of members. -/
structure SameEpisode (row row' evidence evidence' : Fields) : Prop where
  other : ∀ key ≠ "episode_evidence", row.lookup key = row'.lookup key
  left : Fields.get row "episode_evidence" = .obj evidence
  right : Fields.get row' "episode_evidence" = .obj evidence'
  valid : Valid evidence
  sorted : Json.sortKeys (.obj evidence) = Json.sortKeys (.obj evidence')

theorem SameEpisode.get (h : SameEpisode row row' evidence evidence')
    (hkey : key ≠ "episode_evidence") : Fields.get row key = Fields.get row' key := by
  unfold Fields.get
  rw [h.other key hkey]

theorem SameEpisode.payload (h : SameEpisode row row' evidence evidence') (resolutionId : String)
    (failureId : Option String) (outcome : String) (applied : Bool) :
    withSortedValues (payloadOfRow row resolutionId failureId outcome applied) =
      withSortedValues (payloadOfRow row' resolutionId failureId outcome applied) := by
  unfold payloadOfRow
  refine set_congr _ (set_congr _ (set_congr _ (set_congr _ ?_ rfl) rfl) rfl) rfl
  unfold withSortedValues
  rw [List.map_map, List.map_map]
  refine List.map_congr_left fun field _ => ?_
  simp only [Function.comp_apply, Prod.mk.injEq, true_and]
  by_cases hfield : field = "episode_evidence"
  · rw [hfield, h.left, h.right, h.sorted]
  · rw [h.get hfield]

/-- Evidence in another order of members gives the same source. -/
theorem resolutionSourceFromRow_congr (h : SameEpisode row row' evidence evidence') :
    resolutionSourceFromRow row = resolutionSourceFromRow row' := by
  have happlied : appliedOfRow row = appliedOfRow row' := by
    unfold appliedOfRow Fields.has Fields.get
    rw [h.other "applied" (by decide)]
  have houtcome : optionalRowText row "outcome" = optionalRowText row' "outcome" := by
    unfold optionalRowText
    rw [h.get (by decide)]
  unfold resolutionSourceFromRow
  rw [happlied, houtcome, h.get (by decide : "resolution_id" ≠ "episode_evidence"),
    h.get (by decide : "failure_id" ≠ "episode_evidence")]
  refine bind_congr fun resolutionId => bind_congr fun failureId => bind_congr fun applied =>
    bind_congr fun outcome => ?_
  have hevidence : Fields.get (payloadOfRow row resolutionId failureId
      (outcome.getD "recorded") applied) "episode_evidence" = .obj evidence := by
    rw [get_payloadOfRow row _ _ _ _ (by decide) (by decide), h.left]
  have hevidence' : Fields.get (payloadOfRow row' resolutionId failureId
      (outcome.getD "recorded") applied) "episode_evidence" = .obj evidence' := by
    rw [get_payloadOfRow row' _ _ _ _ (by decide) (by decide), h.right]
  have hmapped := sortKeys_obj_congr (withCurrentMap_congr
    (set_congr "episode_evidence"
      (h.payload resolutionId failureId (outcome.getD "recorded") applied) h.sorted)
    (h.get (by decide : "navigation" ≠ "episode_evidence"))
    (h.get (by decide : "status_reported_at" ≠ "episode_evidence")))
  rw [withEpisodeEvidence_valid h.valid hevidence,
    withEpisodeEvidence_valid (h.valid.of_sortKeys h.sorted) hevidence']
  simp only [Except.bind, bind, hmapped]

end Rows

section Source

variable {failure failure' resolution row : Fields} {source source' : ResolutionSource}

theorem memoryRow_eq_ok : memoryRow resolution (some failure) = .ok row ↔
    ∃ evidence, buildEpisodeEvidence (some failure) resolution = .ok evidence ∧
      row = rowWithSuccessfulActions (Fields.set (fillContext resolution (some failure))
        "episode_evidence" (.obj evidence)) := by
  unfold memoryRow resolutionWithFailureContext
  constructor
  · intro h
    obtain ⟨prepared, hprepared, rfl⟩ := map_eq_ok.mp h
    obtain ⟨evidence, hevidence, rfl⟩ := map_eq_ok.mp hprepared
    exact ⟨evidence, hevidence, rfl⟩
  · rintro ⟨evidence, hevidence, rfl⟩
    exact map_eq_ok.mpr ⟨_, map_eq_ok.mpr ⟨evidence, hevidence, rfl⟩, rfl⟩

theorem get_rowWithSuccessfulActions (row : Fields) {key : String} (hkey : key ≠ "action_runs") :
    Fields.get (rowWithSuccessfulActions row) key = Fields.get row key :=
  get_set_other hkey

theorem lookup_set_self (fields : Fields) (key : String) (value : Json) :
    (Fields.set fields key value).lookup key = some value := by
  unfold Fields.set
  by_cases hhas : Fields.has fields key = true
  · obtain ⟨old, hold⟩ := Option.isSome_iff_exists.mp hhas
    rw [if_pos hhas, lookup_map_set, if_pos rfl, hold]
    rfl
  · have hnone : fields.lookup key = none := by
      cases hlookup : fields.lookup key with
      | none => rfl
      | some old => simp [Fields.has, hlookup] at hhas
    rw [if_neg hhas, List.lookup_append, hnone]
    simp

theorem lookup_set_other {fields : Fields} {key other : String} {value : Json}
    (h : other ≠ key) : (Fields.set fields key value).lookup other = fields.lookup other := by
  have hne : (other == key) = false := by simpa using h
  unfold Fields.set
  split
  · rw [lookup_map_set, if_neg h]
  · rw [List.lookup_append]
    simp [List.lookup_cons, hne]

/-- The rows learned from two episodes with the same evidence. -/
theorem sameEpisode_rows {prepared evidence evidence' : Fields} (hvalid : Valid evidence)
    (hsorted : Json.sortKeys (.obj evidence) = Json.sortKeys (.obj evidence')) :
    SameEpisode
      (rowWithSuccessfulActions (Fields.set prepared "episode_evidence" (.obj evidence)))
      (rowWithSuccessfulActions (Fields.set prepared "episode_evidence" (.obj evidence')))
      evidence evidence' := by
  refine ⟨fun key hkey => ?_, ?_, ?_, hvalid, hsorted⟩
  · have hruns : successfulActionRuns
          (Fields.set prepared "episode_evidence" (.obj evidence)) =
        successfulActionRuns (Fields.set prepared "episode_evidence" (.obj evidence')) := by
      unfold successfulActionRuns
      rw [get_set_other (by decide), get_set_other (by decide)]
    unfold rowWithSuccessfulActions
    by_cases hactions : key = "action_runs"
    · subst hactions
      rw [hruns, lookup_set_self, lookup_set_self]
    · rw [lookup_set_other hactions, lookup_set_other hactions, lookup_set_other hkey,
        lookup_set_other hkey]
  · rw [get_rowWithSuccessfulActions _ (by decide), get_set_self]
  · rw [get_rowWithSuccessfulActions _ (by decide), get_set_self]

/-- A bookkeeping column is dropped from the evidence. -/
theorem bookkeeping_sensitive : ∀ key ∈ resolverBookkeepingKeys, isSensitiveKey key = true := by
  decide

theorem recovery_kept : ∀ key ∈ recoveryColumns, isSensitiveKey key = false := by decide

theorem get_of_mem (h : Json.Distinct (.obj failure)) {member : String × Json}
    (hmember : member ∈ failure) : Fields.get failure member.1 = member.2 := by
  unfold Fields.get
  rw [lookup_eq_some_of_mem (distinct_obj.mp h).1 hmember]
  rfl

theorem SameBut.sameEvidence (hfailure : Json.Distinct (.obj failure))
    (hfailure' : Json.Distinct (.obj failure')) (hsame : SameBut mutableColumns failure failure')
    (hagree : RecoveryAgrees failure failure') : SameEvidence failure failure' := by
  have hzip := List.forall₂_iff_zip.mp hsame
  refine List.forall₂_iff_zip.mpr ⟨hzip.1, fun {member member'} hmem => ?_⟩
  obtain ⟨hkey, hvalue⟩ := hzip.2 hmem
  obtain ⟨hleft, hright⟩ := List.of_mem_zip hmem
  refine ⟨hkey, ?_⟩
  by_cases hsensitive : isSensitiveKey member.1 = true
  · exact .inl hsensitive
  · refine .inr ?_
    by_cases hmutable : member.1 ∈ mutableColumns
    · rcases List.mem_append.mp hmutable with hbookkeeping | hrecovery
      · exact absurd (bookkeeping_sensitive _ hbookkeeping) hsensitive
      · have hcolumn := hagree member.1 hrecovery
        rwa [get_of_mem hfailure hleft, hkey, get_of_mem hfailure' hright] at hcolumn
    · rw [hvalue hmutable]

/-- The same evidence is learned as the same source. -/
theorem learnedSource_of_agrees (hfailure : Json.Distinct (.obj failure))
    (hfailure' : Json.Distinct (.obj failure')) (hsame : SameBut mutableColumns failure failure')
    (hagree : RecoveryAgrees failure failure')
    (h : learnedSource resolution (some failure) = .ok source) :
    learnedSource resolution (some failure') = .ok source := by
  obtain ⟨row, hrow, hsource⟩ := bind_eq_ok.mp h
  obtain ⟨evidence, hevidence, rfl⟩ := memoryRow_eq_ok.mp hrow
  obtain ⟨evidence', hevidence', hsorted⟩ :=
    buildEpisodeEvidence_congr (hsame.sameEvidence hfailure hfailure' hagree) hevidence
  obtain ⟨-, -, -, -, -, hvalid⟩ := buildEpisodeEvidence_eq_ok.mp hevidence
  have hrow' := memoryRow_eq_ok.mpr ⟨evidence', hevidence', rfl⟩
  refine bind_eq_ok.mpr ⟨_, hrow', ?_⟩
  rw [← fillContext_same hsame, ← resolutionSourceFromRow_congr (sameEpisode_rows hvalid hsorted)]
  exact hsource

/-- The evidence of the failure in a learned source. -/
theorem learnedSource_evidence (hresolution : Json.Distinct (.obj resolution))
    (hfailure : Json.Distinct (.obj failure))
    (h : learnedSource resolution (some failure) = .ok source) :
    ∃ members resolutionEvent, sanitizeMembers 1 failure = .ok members ∧
      Json.Distinct (.obj (eventsOf (.obj members) resolutionEvent)) ∧
      Fields.get source.payload "episode_evidence" =
        Json.sortKeys (.obj (eventsOf (.obj members) resolutionEvent)) := by
  obtain ⟨row, hrow, hsource⟩ := bind_eq_ok.mp h
  obtain ⟨evidence, hevidence, rfl⟩ := memoryRow_eq_ok.mp hrow
  obtain ⟨hdistinct, -⟩ := buildEpisodeEvidence_valid hresolution
    (fun _ hsome => Option.some.inj hsome ▸ hfailure) hevidence
  obtain ⟨failureEvent, resolutionEvent, hevent, -, rfl, hvalid⟩ :=
    buildEpisodeEvidence_eq_ok.mp hevidence
  obtain ⟨-, members, hmembers, rfl⟩ := sanitizeEpisodeRecord_eq_ok.mp hevent
  refine ⟨members, resolutionEvent, hmembers, hdistinct, ?_⟩
  have hfilled : Json.Distinct (.obj (fillContext resolution (some failure))) :=
    inherits_fillContext hereditary_distinct hresolution fun _ hsome =>
      Option.some.inj hsome ▸ hfailure
  have hprepared := distinct_set hfilled "episode_evidence"
    hdistinct
  apply resolutionSourceFromRow_evidence _ hvalid _ hsource
  · exact distinct_set hprepared _ (inherits_successfulActionRuns hereditary_distinct hprepared)
  · rw [get_rowWithSuccessfulActions _ (by decide), get_set_self]

theorem get_failureEvent {members members' : Fields} {resolutionEvent resolutionEvent' : Json}
    (hdistinct : Json.Distinct (.obj (eventsOf (.obj members) resolutionEvent)))
    (hdistinct' : Json.Distinct (.obj (eventsOf (.obj members') resolutionEvent')))
    (h : Json.sortKeys (.obj (eventsOf (.obj members) resolutionEvent)) =
      Json.sortKeys (.obj (eventsOf (.obj members') resolutionEvent'))) (key : String) :
    (Fields.get members key).sortKeys = (Fields.get members' key).sortKeys := by
  have hmembers := distinct_get hdistinct "failure_event"
  have hmembers' := distinct_get hdistinct' "failure_event"
  have hleft := get_sortKeys hdistinct (sortKeys_obj _) "failure_event"
  have hright := get_sortKeys hdistinct' (h.symm.trans (sortKeys_obj _)) "failure_event"
  rw [hleft] at hright
  have hevent : Json.sortKeys (.obj members) = Json.sortKeys (.obj members') := hright
  have hget := get_sortKeys hmembers (sortKeys_obj _) key
  have hget' := get_sortKeys hmembers' (hevent.symm.trans (sortKeys_obj _)) key
  rw [← hget, hget']

/-- Sources with the same text have the same recovery columns in their evidence. -/
theorem agrees_of_payload (hresolution : Json.Distinct (.obj resolution))
    (hfailure : Json.Distinct (.obj failure)) (hfailure' : Json.Distinct (.obj failure'))
    (h : learnedSource resolution (some failure) = .ok source)
    (h' : learnedSource resolution (some failure') = .ok source')
    (hpayload : source.payload = source'.payload) : RecoveryAgrees failure failure' := by
  obtain ⟨members, resolutionEvent, hmembers, hdistinct, hevidence⟩ :=
    learnedSource_evidence hresolution hfailure h
  obtain ⟨members', resolutionEvent', hmembers', hdistinct', hevidence'⟩ :=
    learnedSource_evidence hresolution hfailure' h'
  rw [hpayload, hevidence'] at hevidence
  intro key hkey
  have hkept := recovery_kept key hkey
  have hvalue := get_sanitizeMembers (by decide) hkept hmembers
  have hvalue' := get_sanitizeMembers (by decide) hkept hmembers'
  unfold evidenceValue
  rw [hvalue, hvalue']
  simp only [Except.map]
  rw [get_failureEvent hdistinct hdistinct' hevidence.symm key]

/-- What a learned source depends on among the columns the service writes. -/
theorem learnedSource_same_iff (hresolution : Json.Distinct (.obj resolution))
    (hfailure : Json.Distinct (.obj failure)) (hfailure' : Json.Distinct (.obj failure'))
    (hsame : SameBut mutableColumns failure failure')
    (h : learnedSource resolution (some failure) = .ok source) :
    learnedSource resolution (some failure') = .ok source ↔ RecoveryAgrees failure failure' := by
  constructor
  · intro h'
    exact agrees_of_payload hresolution hfailure hfailure' h h' rfl
  · intro hagree
    exact learnedSource_of_agrees hfailure hfailure' hsame hagree h

end Source

end FailureResolver.EpisodeStability
