import FailureResolver.JsonLength
import FailureResolver.JsonRoundTrip
import FailureResolver.StructuralGuard

/-!
The guard arguments built for a live Flow, as the parser of a plan reads them.
They are few short texts and two small numbers, so they are never too large or
too deep and equal themselves; what the parser may refuse are the names of the
Flow.
-/

namespace FailureResolver.GuardArguments

open BinaryFloat JsonValue JsonText JsonLength JsonRoundTrip PyException PyText LiveFlow
open RecoveryContract ActionPlan PlanParsing PlanValidation StructuralGuard

section Members

variable (pointer : FlowPointer) (index : ℤ) (command : String) (rewindSteps : ℤ)
  (mode : ResumeMode)

theorem get_guardArguments_filename :
    Fields.get (guardArguments pointer index command rewindSteps mode) "filename" =
      optionalText pointer.filename := by
  unfold guardArguments
  cases pointer.filename <;> cases pointer.fid <;> split_ifs <;> rfl

theorem has_guardArguments_filename :
    Fields.has (guardArguments pointer index command rewindSteps mode) "filename" =
      pointer.filename.isSome := by
  unfold guardArguments
  cases pointer.filename <;> cases pointer.fid <;> split_ifs <;> rfl

theorem get_guardArguments_fid :
    Fields.get (guardArguments pointer index command rewindSteps mode) "fid" =
      optionalText pointer.fid := by
  unfold guardArguments
  cases pointer.filename <;> cases pointer.fid <;> split_ifs <;> rfl

theorem has_guardArguments_fid :
    Fields.has (guardArguments pointer index command rewindSteps mode) "fid" =
      pointer.fid.isSome := by
  unfold guardArguments
  cases pointer.filename <;> cases pointer.fid <;> split_ifs <;> rfl

theorem get_guardArguments_flowCommit :
    Fields.get (guardArguments pointer index command rewindSteps mode) "flow_commit" =
      optionalText pointer.flowCommit := by
  unfold guardArguments
  cases pointer.filename <;> cases pointer.fid <;> cases pointer.flowCommit <;> split_ifs <;>
    first | rfl | simp_all

/-- The keys are those the parser allows, each once. -/
theorem keys_guardArguments_sublist :
    (Fields.keys (guardArguments pointer index command rewindSteps mode)).Sublist
      ["mode", "rewind_steps", "current_action_index", "current_command", "flow_id", "filename",
        "fid", "flow_commit"] := by
  unfold guardArguments
  cases pointer.filename <;> cases pointer.fid <;> split_ifs <;>
    simp [Fields.keys, optionalMember]

theorem mem_optionalMember {key : String} {name : Option String} {m : String × Json}
    (h : m ∈ optionalMember key name) : ∃ s, m.2 = .str s := by
  cases name with
  | none => cases h
  | some s =>
    rw [List.mem_singleton.mp h]
    exact ⟨s, rfl⟩

/-- Every value is a text of the Flow, one of the two numbers, or null. -/
theorem mem_guardArguments {m : String × Json}
    (h : m ∈ guardArguments pointer index command rewindSteps mode) :
    m.2 = .int rewindSteps ∨ m.2 = .int index ∨ m.2 = .null ∨ ∃ s, m.2 = .str s := by
  unfold guardArguments at h
  simp only [List.mem_append, List.mem_cons, List.not_mem_nil, or_false] at h
  rcases h with ((h | h) | h) | h
  · rcases h with rfl | rfl | rfl | rfl | rfl
    · exact .inr (.inr (.inr ⟨_, rfl⟩))
    · exact .inl rfl
    · exact .inr (.inl rfl)
    · exact .inr (.inr (.inr ⟨_, rfl⟩))
    · exact .inr (.inr (.inr ⟨_, rfl⟩))
  · obtain ⟨s, hs⟩ := mem_optionalMember h
    exact .inr (.inr (.inr ⟨s, hs⟩))
  · obtain ⟨s, hs⟩ := mem_optionalMember h
    exact .inr (.inr (.inr ⟨s, hs⟩))
  · split at h
    · rw [List.mem_singleton.mp h]
      cases pointer.flowCommit with
      | none => exact .inr (.inr (.inl rfl))
      | some commit => exact .inr (.inr (.inr ⟨_, rfl⟩))
    · cases h

end Members

section Flat

/-- Texts, nulls and integers no longer than an action index. -/
def Flat (fields : Fields) : Prop :=
  ∀ m ∈ fields, (∃ n, m.2 = .int n ∧ 0 ≤ n ∧ n ≤ 1000000) ∨ m.2 = .null ∨ ∃ s, m.2 = .str s

variable {fields : Fields}

theorem walkMembers_flat (h : Flat fields) {nodes : ℕ} (hnodes : nodes + fields.length ≤ maxJsonNodes) :
    walkMembers nodes 1 fields = .ok (nodes + fields.length) := by
  induction fields generalizing nodes with
  | nil => rfl
  | cons m rest ih =>
    obtain ⟨key, x⟩ := m
    obtain ⟨hx, hrest⟩ := List.forall_mem_cons.mp h
    rw [List.length_cons] at hnodes
    have hcount : countNode nodes 1 = .ok (nodes + 1) := by
      unfold countNode
      rw [if_neg]
      unfold maxJsonDepth
      omega
    have hwalk : walkJson nodes 1 x = .ok (nodes + 1) := by
      rcases hx with ⟨n, hn, -⟩ | hn | ⟨s, hs⟩
      · simp only at hn
        rw [hn]
        exact hcount
      · simp only at hn
        rw [hn]
        exact hcount
      · simp only at hs
        rw [hs]
        exact hcount
    rw [walkMembers, hwalk]
    show walkMembers (nodes + 1) 1 rest = _
    rw [ih hrest (by omega), List.length_cons]
    congr 1
    omega

theorem validateJson_flat (h : Flat fields) (hlength : fields.length < maxJsonNodes) :
    validateJson (.obj fields) = .ok () := by
  have hcount : countNode 0 0 = .ok 1 := rfl
  have hwalk : walkMembers 1 1 fields = .ok (1 + fields.length) := walkMembers_flat h (by omega)
  unfold validateJson
  rw [walkJson, hcount]
  show (walkMembers 1 1 fields >>= fun _ => .ok ()) = _
  rw [hwalk]
  rfl

theorem printable_flat (h : Flat fields) : printable (.obj fields) = true := by
  rw [printable, printableMembers_iff]
  intro m hm
  rcases h m hm with ⟨n, hn, hrange⟩ | hn | ⟨s, hs⟩
  · rw [hn]
    show scalarPrintable (.int n) = true
    rw [scalarPrintable, decide_eq_true_eq]
    refine le_trans ?_ (show 7 ≤ maxStrDigits by unfold maxStrDigits; omega)
    exact Nat.toDigits_length 10 n.natAbs 7 (by omega) (by omega)
  · rw [hn]
    rfl
  · rw [hs]
    rfl

theorem jsonValuesEqual_flat (h : Flat fields) {m : String × Json} (hm : m ∈ fields) :
    jsonValuesEqual m.2 m.2 = .ok true := by
  rcases h m hm with ⟨n, hn, hrange⟩ | hn | ⟨s, hs⟩
  · have hsmall : n.natAbs < 2 ^ 20 := by omega
    obtain ⟨x, hx⟩ := exists_ofInt (by omega) hsmall
    have hfloat : toFloat (.int n) = .ok (.finite x) := by
      rw [toFloat, hx]
    rw [hn, jsonValuesEqual, if_pos (show isNumber (.int n) = true from rfl), numbersEqual,
      hfloat]
    simp [bind, Except.bind, pure, Except.pure, isFinite, Number.ofFloat, Number.eq]
  · rw [hn]
    rfl
  · rw [hs, jsonValuesEqual]
    simp

theorem pyEq_flat (h : Flat fields) (hkeys : (fields.map Prod.fst).Nodup) :
    Json.pyEq (.obj fields) (.obj fields) = true := by
  rw [Json.pyEq, Bool.and_eq_true]
  refine ⟨by simp, pyEqMembers_of_forall fun m hm => ⟨m.2, lookup_eq_some_of_mem hkeys hm, ?_⟩⟩
  rcases h m hm with ⟨n, hn, -⟩ | hn | ⟨s, hs⟩
  · rw [hn]
    simp [Json.pyEq, Json.numberEq, Json.number, Number.eq]
  · rw [hn]
    rfl
  · rw [hs]
    simp [Json.pyEq]

/-- Values that equal themselves pass as their own effective arguments. -/
theorem checkEffectiveKeys_self {message : String} {keys : List String}
    (hnodup : (fields.map Prod.fst).Nodup) (h : Flat fields)
    (hkeys : ∀ key ∈ keys, key ∈ fields.map Prod.fst) :
    checkEffectiveKeys message fields fields (keys.map Json.str) = .ok () := by
  induction keys with
  | nil => rfl
  | cons key rest ih =>
    obtain ⟨hkey, hrest⟩ := List.forall_mem_cons.mp hkeys
    obtain ⟨m, hm, rfl⟩ := List.mem_map.mp hkey
    have hget : Fields.get fields m.1 = m.2 := by
      rw [Fields.get, lookup_eq_some_of_mem hnodup hm]
      rfl
    have hsame : jsonValuesEqual (Fields.get fields m.1) (Fields.get fields m.1) = .ok true := by
      rw [hget]
      exact jsonValuesEqual_flat h hm
    rw [List.map_cons, checkEffectiveKeys]
    refine bind_unit_eq_ok.mpr ⟨?_, bind_eq_ok.mpr ⟨true, hsame, bind_unit_eq_ok.mpr
      ⟨rfl, ih hrest⟩⟩⟩
    rw [has_eq_true_iff.mpr hkey]
    rfl

theorem asTexts_map_str (keys : List String) : asTexts (keys.map Json.str) = some keys := by
  induction keys with
  | nil => rfl
  | cons key rest ih => rw [List.map_cons, asTexts, ih, Option.map_some]

end Flat

section Accepted

/-- What the paused step and the names of a Flow have to be for their guard
arguments to be texts and numbers of the contract. -/
structure Bounded (pointer : FlowPointer) (index : ℤ) (command : String) (rewindSteps : ℤ) :
    Prop where
  steps : 0 ≤ rewindSteps ∧ rewindSteps ≤ maxRewindSteps
  index : 0 ≤ index ∧ index ≤ 1000000
  command : Trimmed command ∧ command.length ≤ maxCommandLength
  flowId : Trimmed pointer.flowId ∧ pointer.flowId.length ≤ 300
  filename : ∀ name, pointer.filename = some name → Trimmed name ∧ name.length ≤ 300
  fid : ∀ name, pointer.fid = some name → Trimmed name ∧ name.length ≤ 300
  flowCommit : ∀ commit, pointer.flowCommit = some commit → Trimmed commit ∧ commit.length ≤ 300

variable {pointer : FlowPointer} {index : ℤ} {command : String} {rewindSteps : ℤ}
  {mode : ResumeMode}

theorem keys_nodup : ((guardArguments pointer index command rewindSteps mode).map Prod.fst).Nodup :=
  (keys_guardArguments_sublist pointer index command rewindSteps mode).nodup (by decide)

theorem key_plain {key : String}
    (h : key ∈ (guardArguments pointer index command rewindSteps mode).map Prod.fst) :
    (Trimmed key ∧ key.length ≤ maxCommandLength) ∧ key ∈ allowedResumeArguments := by
  have hall : ∀ name ∈ ["mode", "rewind_steps", "current_action_index", "current_command",
      "flow_id", "filename", "fid", "flow_commit"],
      (Trimmed name ∧ name.length ≤ maxCommandLength) ∧ name ∈ allowedResumeArguments := by
    decide +kernel
  exact hall key ((keys_guardArguments_sublist pointer index command rewindSteps mode).subset h)

theorem Bounded.flat (h : Bounded pointer index command rewindSteps) :
    Flat (guardArguments pointer index command rewindSteps mode) := by
  intro m hm
  have hsteps := h.steps
  unfold maxRewindSteps at hsteps
  rcases mem_guardArguments pointer index command rewindSteps mode hm with hm | hm | hm | hm
  · exact .inl ⟨rewindSteps, hm, by omega, by omega⟩
  · exact .inl ⟨index, hm, h.index⟩
  · exact .inr (.inl hm)
  · exact .inr (.inr hm)

theorem length_guardArguments_le :
    (guardArguments pointer index command rewindSteps mode).length ≤ 8 := by
  have hlength := (keys_guardArguments_sublist pointer index command rewindSteps mode).length_le
  simpa [Fields.keys] using hlength

/-- How long the members of the guard arguments are together. -/
theorem Bounded.memberLength_le (h : Bounded pointer index command rewindSteps) :
    ((guardArguments pointer index command rewindSteps mode).map memberLength).sum ≤ 8105 := by
  have htext : ∀ s : String, compactLength (.str s) ≤ 6 * s.length + 2 := length_quote_le
  have hmode : compactLength (.str mode.text) ≤ 15 := by cases mode <;> decide +kernel
  have hsteps : compactLength (.int rewindSteps) ≤ 1 := by
    have hnear := h.steps
    unfold maxRewindSteps at hnear
    exact compactLength_nat_le (by omega) hnear.1 (by omega)
  have hindex : compactLength (.int index) ≤ 7 :=
    compactLength_nat_le (by omega) h.index.1 (by have := h.index.2; omega)
  have hcommand : command.length ≤ 128 := h.command.2
  have hflowId := h.flowId.2
  have hkey : ∀ key value, memberLength (key, value) = (quote key).length + 1 + compactLength value :=
    fun _ _ => rfl
  have hoptional : ∀ (key : String) (name : Option String),
      (∀ s, name = some s → Trimmed s ∧ s.length ≤ 300) →
        ((optionalMember key name).map memberLength).sum ≤ (quote key).length + 1803 := by
    intro key name hname
    cases name with
    | none => simp [optionalMember]
    | some s =>
      have hs := (hname s rfl).2
      have hs' := htext s
      simp only [optionalMember, List.map_cons, List.map_nil, List.sum_cons, List.sum_nil, hkey]
      omega
  have hfilename := hoptional "filename" pointer.filename h.filename
  have hfid := hoptional "fid" pointer.fid h.fid
  have hcommit : ((if pointer.flowCommit.isSome || Fields.has pointer.raw "flow_commit" then
      [("flow_commit", optionalText pointer.flowCommit)] else [] : Fields).map memberLength).sum ≤
        (quote "flow_commit").length + 1803 := by
    split
    · have hvalue : compactLength (optionalText pointer.flowCommit) ≤ 1802 := by
        cases hcommit : pointer.flowCommit with
        | none => show 4 ≤ 1802; omega
        | some commit =>
          have hlength := (h.flowCommit commit hcommit).2
          have hquoted := htext commit
          show compactLength (.str commit) ≤ 1802
          omega
      simp only [List.map_cons, List.map_nil, List.sum_cons, List.sum_nil, hkey]
      omega
    · simp
  have hquotes : (quote "mode").length = 6 ∧ (quote "rewind_steps").length = 14 ∧
      (quote "current_action_index").length = 22 ∧ (quote "current_command").length = 17 ∧
      (quote "flow_id").length = 9 ∧ (quote "filename").length = 10 ∧ (quote "fid").length = 5 ∧
      (quote "flow_commit").length = 13 := by decide +kernel
  have hcommand' := htext command
  have hflowId' := htext pointer.flowId
  unfold guardArguments
  simp only [List.map_append, List.sum_append, List.map_cons, List.map_nil, List.sum_cons,
    List.sum_nil, hkey] at hfilename hfid hcommit ⊢
  omega

theorem Bounded.argumentBytes (h : Bounded pointer index command rewindSteps) :
    ∃ bytes, ActionPlan.argumentBytes (guardArguments pointer index command rewindSteps mode) =
      .ok bytes ∧ bytes ≤ maxArgumentBytes := by
  have hprintable : printable (.obj (guardArguments pointer index command rewindSteps mode)) =
      true := printable_flat h.flat
  have hlength : compactLength
      (.obj (guardArguments pointer index command rewindSteps mode)) ≤ 8114 := by
    have hmembers : ((guardArguments pointer index command rewindSteps mode).map
      memberLength).sum ≤ 8105 := h.memberLength_le
    have hcount : (guardArguments pointer index command rewindSteps mode).length ≤ 8 :=
      length_guardArguments_le
    rw [compactLength_obj]
    omega
  rw [← compactLength_sortKeys] at hlength
  refine ⟨_, argumentBytes_of_dumps (if_pos (printable_sortKeys hprintable)), ?_⟩
  have hbytes := utf8ByteSize_ofList_le (print compactStyle 0
    (Json.sortKeys (.obj (guardArguments pointer index command rewindSteps mode))))
  unfold compactLength at hlength
  unfold maxArgumentBytes
  omega

end Accepted

end FailureResolver.GuardArguments
