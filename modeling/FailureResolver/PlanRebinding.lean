import FailureResolver.FlowProgress
import FailureResolver.GuardArguments

/-!
Binding the actions of a memory to one captured failure. Only the continuation is
rewritten, to the guard arguments and the captured steps of this Flow; what comes
out is bound to the same failure again without change, and a live Flow at the same
step accepts it and replays its arguments.
-/

namespace FailureResolver.PlanRebinding

open JsonValue PyException PyText LiveFlow RecoveryContract ActionPlan PlanParsing PlanValidation
open FlowTree StructuralGuard GuardArguments

section Pointer

/-- The names of a pointer are texts of its document, read without blanks. -/
structure NamesTrimmed (pointer : FlowPointer) : Prop where
  flowId : Trimmed pointer.flowId
  filename : ∀ name, pointer.filename = some name → Trimmed name
  fid : ∀ name, pointer.fid = some name → Trimmed name
  flowCommit : ∀ commit, pointer.flowCommit = some commit → Trimmed commit

theorem trimmed_of_textOf {value : Json} {s : String} (h : textOf value = some s) : Trimmed s := by
  refine ⟨?_, FlowProgress.strip_of_textOf h⟩
  cases value with
  | str text =>
    unfold textOf at h
    by_cases hempty : strip text = ""
    · simp [hempty] at h
    · simp only [hempty, if_false, Option.some.injEq] at h
      rw [← h]
      exact hempty
  | _ => cases h

theorem parseFlowPointer_names {flow : Fields} {revision generation : ℕ} {pointer : FlowPointer}
    (h : parseFlowPointer (.obj flow) revision generation = some pointer) :
    NamesTrimmed pointer := by
  have hnames : ∀ flowId status index command completed,
      [textOf (flow.get "id"), textOf (flow.get "filename"), textOf (flow.get "fid")].findSome? id =
        some flowId →
      NamesTrimmed
        { revision, flowId, status, actionIndex := index, actionCommand := command
          filename := textOf (flow.get "filename"), fid := textOf (flow.get "fid")
          flowCommit := textOf (flow.get "flow_commit"), raw := flow, generation, completed } := by
    intro flowId status index command completed hflowId
    obtain ⟨value, hvalue, hsome⟩ := List.exists_of_findSome?_eq_some hflowId
    have htext : ∃ value, textOf value = some flowId := by
      simp only [List.mem_cons, List.not_mem_nil, or_false] at hvalue
      rcases hvalue with rfl | rfl | rfl
      · exact ⟨_, hsome⟩
      · exact ⟨_, hsome⟩
      · exact ⟨_, hsome⟩
    obtain ⟨value, hvalue⟩ := htext
    exact ⟨trimmed_of_textOf hvalue, fun _ hname => trimmed_of_textOf hname,
      fun _ hname => trimmed_of_textOf hname, fun _ hname => trimmed_of_textOf hname⟩
  unfold parseFlowPointer pointerOfFlow at h
  dsimp only at h
  split at h
  · next hflowId hstatus =>
    split_ifs at h
    · cases h
      exact hnames _ _ _ _ _ hflowId
    · split at h
      · cases h
      · split at h
        · split_ifs at h
          cases h
          exact hnames _ _ _ _ _ hflowId
        · cases h
  · cases h

theorem capturedPointer_eq_ok {snapshot : Json} {flowId command : String} {index : ℤ}
    {pointer : FlowPointer} :
    capturedPointer snapshot flowId command index = .ok pointer ↔
      parseFlowPointer snapshot 0 0 = some pointer ∧ pointer.completed = false ∧
        casefold (strip pointer.status) = "paused" ∧ pointer.flowId = flowId ∧
        pointer.actionIndex = some index ∧ pointer.actionCommand = some command := by
  unfold capturedPointer
  dsimp only
  cases hparse : parseFlowPointer snapshot 0 0 with
  | none => simp
  | some parsed =>
    dsimp only
    rw [Option.some.injEq]
    split
    · next hcaptured =>
      rw [Bool.not_eq_true'] at hcaptured
      constructor
      · intro h
        cases h
        exact ⟨rfl, hcaptured⟩
      · intro h
        rw [h.1]
    · next hcaptured =>
      rw [Bool.not_eq_true'] at hcaptured
      constructor
      · intro h
        exact absurd h reject_ne_ok
      · intro h
        obtain ⟨rfl, h⟩ := h
        exact absurd h hcaptured

end Pointer

section Rewriting

def replaceMember (key : String) (value : Json) (m : String × Json) : String × Json :=
  if m.1 = key then (key, value) else m

@[simp] theorem replaceMember_fst (key : String) (value : Json) (m : String × Json) :
    (replaceMember key value m).1 = m.1 := by
  unfold replaceMember
  split
  · next h => exact h.symm
  · rfl

variable {fields : Fields} {key : String} {value : Json}

theorem keys_map {f : String × Json → String × Json} (hf : ∀ m, (f m).1 = m.1) (fields : Fields) :
    Fields.keys (fields.map f) = Fields.keys fields := by
  unfold Fields.keys
  rw [List.map_map]
  exact List.map_congr_left fun m _ => hf m

theorem has_map {f : String × Json → String × Json} (hf : ∀ m, (f m).1 = m.1) (fields : Fields)
    (key : String) : Fields.has (fields.map f) key = Fields.has fields key := by
  have hkeys := keys_map hf fields
  unfold Fields.keys at hkeys
  rw [Bool.eq_iff_iff, has_eq_true_iff, has_eq_true_iff, hkeys]

theorem lookup_map {f : String × Json → String × Json} (hf : ∀ m, (f m).1 = m.1) (fields : Fields)
    (key : String) :
    (fields.map f).lookup key = (fields.lookup key).map fun value => (f (key, value)).2 := by
  induction fields with
  | nil => rfl
  | cons m rest ih =>
    obtain ⟨name, x⟩ := m
    have hname : f (name, x) = (name, (f (name, x)).2) := Prod.ext (hf _) rfl
    rw [List.map_cons, hname, List.lookup_cons, List.lookup_cons, ih]
    by_cases hkey : key = name
    · subst hkey
      simp
    · have hne : (key == name) = false := by simpa using hkey
      rw [hne]

theorem set_eq_map (h : Fields.has fields key = true) :
    Fields.set fields key value = fields.map (replaceMember key value) := by
  unfold Fields.set
  rw [if_pos h]
  rfl

theorem setPresent_eq_map :
    (if Fields.has fields key then Fields.set fields key value else fields) =
      fields.map (replaceMember key value) := by
  by_cases h : Fields.has fields key = true
  · rw [if_pos h, set_eq_map h]
  · rw [if_neg h]
    rw [has_eq_true_iff] at h
    have hsame : ∀ m ∈ fields, replaceMember key value m = id m := by
      intro m hm
      unfold replaceMember
      rw [if_neg]
      · rfl
      · rintro rfl
        exact h (List.mem_map.mpr ⟨m, hm, rfl⟩)
    rw [List.map_congr_left hsame, List.map_id]

def reboundKeys : List String :=
  ["arguments", "arguments_effective", "explicit_arguments", "continuation_context"]

def reboundContext (fresh : Fields) (current target : FlowActionContext) : Json :=
  .obj [("expected_arguments", .obj fresh), ("current_action", contextPayload current),
    ("target_action", contextPayload target)]

def rebindMember (fresh : Fields) (current target : FlowActionContext) :
    String × Json → String × Json :=
  replaceMember "continuation_context" (reboundContext fresh current target) ∘
    replaceMember "explicit_arguments" (.arr ((Fields.keys fresh).map Json.str)) ∘
    replaceMember "arguments_effective" (.obj fresh) ∘ replaceMember "arguments" (.obj fresh)

variable {fresh : Fields} {current target : FlowActionContext}

theorem rebindMember_fst (m : String × Json) : (rebindMember fresh current target m).1 = m.1 := by
  simp [rebindMember]

theorem rebindMember_other {m : String × Json} (h : m.1 ∉ reboundKeys) :
    rebindMember fresh current target m = m := by
  simp only [reboundKeys, List.mem_cons, List.not_mem_nil, or_false, not_or] at h
  simp [rebindMember, replaceMember, h]

theorem rebindMember_idem (m : String × Json) :
    rebindMember fresh current target (rebindMember fresh current target m) =
      rebindMember fresh current target m := by
  by_cases h : m.1 ∈ reboundKeys
  · obtain ⟨name, x⟩ := m
    simp only [reboundKeys, List.mem_cons, List.not_mem_nil, or_false] at h
    rcases h with rfl | rfl | rfl | rfl <;> simp [rebindMember, replaceMember]
  · rw [rebindMember_other h, rebindMember_other h]

/-- Binding a continuation that has arguments and a context overwrites members
and adds none. -/
theorem rebindTerminal_eq_map {terminal : Fields} (harguments : Fields.has terminal "arguments" = true)
    (hcontext : Fields.has terminal "continuation_context" = true) :
    rebindTerminal terminal fresh current target =
      terminal.map (rebindMember fresh current target) := by
  unfold rebindTerminal
  dsimp only
  rw [set_eq_map harguments, setPresent_eq_map, setPresent_eq_map, set_eq_map]
  · rw [List.map_map, List.map_map, List.map_map]
    rfl
  · rw [has_map (replaceMember_fst _ _), has_map (replaceMember_fst _ _),
      has_map (replaceMember_fst _ _)]
    exact hcontext

theorem get_rebound (terminal : Fields) (h : Fields.has terminal key = true) :
    Fields.get (terminal.map (rebindMember fresh current target)) key =
      (rebindMember fresh current target (key, Fields.get terminal key)).2 := by
  unfold Fields.has at h
  obtain ⟨x, hx⟩ := Option.isSome_iff_exists.mp h
  unfold Fields.get
  rw [lookup_map rebindMember_fst, hx]
  rfl

theorem get_rebound_other (terminal : Fields) (h : key ∉ reboundKeys) :
    Fields.get (terminal.map (rebindMember fresh current target)) key =
      Fields.get terminal key := by
  unfold Fields.get
  rw [lookup_map rebindMember_fst]
  cases terminal.lookup key with
  | none => rfl
  | some x =>
    rw [Option.map_some, rebindMember_other h]

theorem mapLast_append {f : Fields → Fields} (before : List Fields) (last : Fields) :
    mapLast f (before ++ [last]) = before ++ [f last] := by
  induction before with
  | nil => rfl
  | cons x rest ih =>
    rw [List.cons_append, mapLast, ih, List.cons_append]
    · simp

end Rewriting

section Terminal

variable {pointer : FlowPointer} {index : ℤ} {command : String} {rewindSteps : ℤ}
  {mode : ResumeMode} {current target : FlowActionContext} {raw : Fields}

/-- A captured step is read back. -/
theorem parseContinuationAction_contextPayload {context : FlowActionContext}
    (h : ContextFormed context) (name : String) :
    parseContinuationAction (contextPayload context) name = .ok context := by
  unfold contextPayload
  refine parseContinuationAction_eq_ok.mpr ⟨rfl, ⟨rfl, h.index⟩, ⟨rfl, h.command⟩,
    ⟨rfl, h.areaName⟩, ⟨rfl, h.itemName⟩, fun key hkey hhas => ?_⟩
  simp only [List.mem_cons, List.not_mem_nil, or_false] at hkey
  rcases hkey with rfl | rfl <;> cases hhas

/-- The two file names of a Flow agree where both are there. -/
def NamesAgree (pointer : FlowPointer) : Prop :=
  ∀ filename fid, pointer.filename = some filename → pointer.fid = some fid → filename = fid

theorem parseContinuationAction_contextPayload_inv {context parsed : FlowActionContext}
    {name : String} (h : parseContinuationAction (contextPayload context) name = .ok parsed) :
    parsed = context := by
  obtain ⟨-, hindex, hcommand, harea, hitem, -⟩ := parseContinuationAction_eq_ok.mp h
  have hindex' : context.actionIndex = parsed.actionIndex := Json.int.inj hindex.1
  have hcommand' : context.command = parsed.command := Json.str.inj hcommand.1
  have harea' : context.areaName = parsed.areaName := Json.str.inj harea.1
  have hitem' : context.itemName = parsed.itemName := Json.str.inj hitem.1
  cases context
  cases parsed
  simp only at hindex' hcommand' harea' hitem'
  rw [hindex', hcommand', harea', hitem']

/-- What the parser reads from guard arguments is what they were built from. -/
theorem parseResumeArguments_guardArguments_inv {mode' : ResumeMode} {steps' index' : ℤ}
    {command' : String}
    (h : parseResumeArguments (guardArguments pointer index command rewindSteps mode) =
      .ok (mode', steps', index', command')) :
    NamesAgree pointer ∧ mode' = mode ∧ steps' = rewindSteps ∧ index' = index ∧
      command' = command := by
  obtain ⟨-, hmode, hsteps, -, -, htexts, hindex, hcommand, -⟩ := parseResumeArguments_eq_ok.mp h
  rw [get_guardArguments_mode, Json.str.injEq] at hmode
  rw [get_guardArguments_steps, Json.int.injEq] at hsteps
  rw [get_guardArguments_index, Json.int.injEq] at hindex
  rw [get_guardArguments_command, Json.str.injEq] at hcommand
  refine ⟨fun filename fid hfilename hfid => ?_, ?_, hsteps.1.symm, hindex.1.symm, hcommand.symm⟩
  · have hagree := htexts.agree
    rw [has_guardArguments_filename, has_guardArguments_fid, get_guardArguments_filename,
      get_guardArguments_fid, hfilename, hfid] at hagree
    simpa [optionalText, Json.pyEq] using hagree rfl rfl
  · cases mode <;> cases mode' <;> first | rfl | (exact absurd hmode (by decide))

/-- The guard arguments of file names that agree pass the parser. -/
theorem parseResumeArguments_guardArguments (h : Bounded pointer index command rewindSteps)
    (hretry : mode = .retryCurrent → rewindSteps = 0)
    (hrewind : mode = .rewind → rewindSteps ≠ 0) (hsame : NamesAgree pointer) :
    parseResumeArguments (guardArguments pointer index command rewindSteps mode) =
      .ok (mode, rewindSteps, index, command) := by
  have hkeys : hasOnly (guardArguments pointer index command rewindSteps mode)
      allowedResumeArguments = true := by
    unfold hasOnly
    rw [List.all_eq_true]
    intro m hm
    exact decide_eq_true (key_plain (List.mem_map.mpr ⟨m, hm, rfl⟩)).2
  refine parseResumeArguments_eq_ok.mpr ⟨hkeys, rfl, ⟨rfl, h.steps⟩, hretry, hrewind,
    ⟨⟨_, rfl, h.flowId⟩, fun key hkey hhas => ?_, fun hfilename hfid => ?_, fun hnull => ?_⟩,
    ⟨rfl, h.index⟩, rfl, h.command⟩
  · simp only [List.mem_cons, List.not_mem_nil, or_false] at hkey
    rcases hkey with rfl | rfl
    · rw [has_guardArguments_filename] at hhas
      obtain ⟨name, hname⟩ := Option.isSome_iff_exists.mp hhas
      rw [get_guardArguments_filename, hname]
      exact ⟨name, rfl, h.filename name hname⟩
    · rw [has_guardArguments_fid] at hhas
      obtain ⟨name, hname⟩ := Option.isSome_iff_exists.mp hhas
      rw [get_guardArguments_fid, hname]
      exact ⟨name, rfl, h.fid name hname⟩
  · rw [has_guardArguments_filename] at hfilename
    rw [has_guardArguments_fid] at hfid
    obtain ⟨filename, hname⟩ := Option.isSome_iff_exists.mp hfilename
    obtain ⟨fid, hname'⟩ := Option.isSome_iff_exists.mp hfid
    rw [get_guardArguments_filename, get_guardArguments_fid, hname, hname',
      hsame filename fid hname hname']
    simp [optionalText, Json.pyEq]
  · rw [get_guardArguments_flowCommit] at hnull ⊢
    cases hcommit : pointer.flowCommit with
    | none =>
      rw [hcommit] at hnull
      cases hnull
    | some commit => exact ⟨commit, rfl, h.flowCommit commit hcommit⟩

/-- A rewritten continuation is accepted as an action like the one it was. -/
theorem actionAccepted_rebound {position : ℕ} {arguments : Fields} {name : String}
    (haccepted : ActionAccepted position raw arguments name)
    (h : Bounded pointer index command rewindSteps) :
    ActionAccepted position
      (raw.map (rebindMember (guardArguments pointer index command rewindSteps mode) current target))
      (guardArguments pointer index command rewindSteps mode) name := by
  have hflat : Flat (guardArguments pointer index command rewindSteps mode) := h.flat
  have hcount : (guardArguments pointer index command rewindSteps mode).length ≤ 8 :=
    length_guardArguments_le
  have hjson : validateJson (.obj (guardArguments pointer index command rewindSteps mode)) =
      .ok () := validateJson_flat hflat (by unfold maxJsonNodes; omega)
  have harguments : Fields.has raw "arguments" = true := by
    rw [has_eq_true_iff]
    rcases get_eq_null_or_mem raw "arguments" with hnull | hmem
    · rw [haccepted.given] at hnull
      cases hnull
    · exact List.mem_map.mpr ⟨_, hmem, rfl⟩
  have hhas : ∀ key, Fields.has (raw.map (rebindMember
      (guardArguments pointer index command rewindSteps mode) current target)) key =
        Fields.has raw key := fun key => has_map rebindMember_fst raw key
  refine ⟨?_, ?_, fun htitle => ?_, ?_, hjson, h.argumentBytes, ?_, ?_⟩
  · have hkeys := haccepted.keys
    unfold hasOnly at hkeys ⊢
    rw [List.all_eq_true] at hkeys ⊢
    intro m hm
    obtain ⟨m', hm', rfl⟩ := List.mem_map.mp hm
    rw [rebindMember_fst]
    exact hkeys m' hm'
  · rw [get_rebound_other raw (by decide)]
    exact haccepted.command
  · rw [hhas] at htitle
    rw [get_rebound_other raw (by decide)]
    exact haccepted.title htitle
  · rw [get_rebound raw harguments]
    rfl
  · unfold checkEffective
    rw [hhas]
    by_cases heffective : Fields.has raw "arguments_effective" = true
    · have hexplicit : explicitKeys (raw.map (rebindMember
          (guardArguments pointer index command rewindSteps mode) current target))
          (guardArguments pointer index command rewindSteps mode) =
            .arr ((Fields.keys (guardArguments pointer index command rewindSteps mode)).map
              Json.str) := by
        unfold explicitKeys
        rw [hhas]
        by_cases hpresent : Fields.has raw "explicit_arguments" = true
        · rw [if_pos hpresent, get_rebound raw hpresent]
          rfl
        · rw [if_neg hpresent]
      rw [if_pos heffective, get_rebound raw heffective]
      show (validateJson (.obj (guardArguments pointer index command rewindSteps mode)) >>=
        fun _ => checkProvenance position _ (guardArguments pointer index command rewindSteps mode)
          (guardArguments pointer index command rewindSteps mode)) = .ok ()
      refine bind_unit_eq_ok.mpr ⟨hjson, ?_⟩
      unfold checkProvenance
      rw [hexplicit]
      exact checkEffectiveKeys_self keys_nodup hflat fun key hkey => hkey
    · rw [if_neg heffective]
  · unfold checkExplicit
    rw [hhas, rejectIf_eq_ok]
    cases hpresent : Fields.has raw "explicit_arguments" with
    | false => rfl
    | true =>
      have htexts : explicitTexts (raw.map (rebindMember
          (guardArguments pointer index command rewindSteps mode) current target)) =
            some (Fields.keys (guardArguments pointer index command rewindSteps mode)) := by
        unfold explicitTexts
        rw [get_rebound raw hpresent]
        exact asTexts_map_str _
      have hvalid : explicitValid (Fields.keys (guardArguments pointer index command rewindSteps
          mode)) (guardArguments pointer index command rewindSteps mode) = true := by
        unfold explicitValid
        rw [decide_eq_true_eq]
        exact ⟨keys_nodup, fun key hkey => (key_plain hkey).1, fun _ hkey => hkey,
          fun _ hkey => hkey⟩
      rw [htexts]
      dsimp only
      rw [hvalid]
      rfl

theorem get_reboundContext (hcontext : Fields.has raw "continuation_context" = true)
    {fresh : Fields} : Fields.get (raw.map (rebindMember fresh current target))
      "continuation_context" = reboundContext fresh current target := by
  rw [get_rebound raw hcontext]
  rfl

/-- Parsing a rewritten continuation gives the steps it was bound to. -/
theorem parseResumeFlow_rebound_inv {name : String} {parsed : Terminal}
    (hcontext : Fields.has raw "continuation_context" = true)
    (h : parseResumeFlow ⟨name, guardArguments pointer index command rewindSteps mode,
      raw.map (rebindMember (guardArguments pointer index command rewindSteps mode) current
        target)⟩ = .ok parsed) :
    NamesAgree pointer ∧ current.command = command ∧
      parsed = .resumeFlow (guardArguments pointer index command rewindSteps mode) mode
        rewindSteps current target := by
  obtain ⟨mode', steps', index', command', continuation, current', target', hguard,
    hcontinuation, -, -, -, hcurrent', htarget', hsteps, rfl⟩ := parseResumeFlow_eq_ok.mp h
  dsimp only at hcontinuation hguard
  rw [get_reboundContext hcontext] at hcontinuation
  cases hcontinuation
  have hcurrent : current' = current := parseContinuationAction_contextPayload_inv hcurrent'
  have htarget : target' = target := parseContinuationAction_contextPayload_inv htarget'
  obtain ⟨hagree, rfl, rfl, rfl, rfl⟩ := parseResumeArguments_guardArguments_inv hguard
  rw [hcurrent] at hsteps
  rw [hcurrent, htarget]
  exact ⟨hagree, hsteps.atCommand, rfl⟩

/-- A rewritten continuation is parsed when the file names agree and the step it
captures has the command of the pointer. -/
theorem parseResumeFlow_rebound {name : String}
    (hcontext : Fields.has raw "continuation_context" = true)
    (hretryContext : (Fields.get raw "retry_context").isNull = true)
    (h : Bounded pointer index command rewindSteps)
    (hretry : mode = .retryCurrent → rewindSteps = 0 ∧ target = current)
    (hrewind : mode = .rewind → rewindSteps ≠ 0)
    (hcurrent : ContextFormed current) (htarget : ContextFormed target)
    (hindex : current.actionIndex = index) (hdistance : target.actionIndex = index - rewindSteps)
    (hagree : NamesAgree pointer) (hcommand : current.command = command) :
    parseResumeFlow ⟨name, guardArguments pointer index command rewindSteps mode,
        raw.map (rebindMember (guardArguments pointer index command rewindSteps mode) current
          target)⟩ =
      .ok (.resumeFlow (guardArguments pointer index command rewindSteps mode) mode
        rewindSteps current target) := by
  refine parseResumeFlow_eq_ok.mpr ⟨mode, rewindSteps, index, command, _, current, target,
    parseResumeArguments_guardArguments h (fun hmode => (hretry hmode).1) hrewind hagree,
    get_reboundContext hcontext, rfl, pyEq_flat h.flat keys_nodup, ?_,
    parseContinuationAction_contextPayload hcurrent _,
    parseContinuationAction_contextPayload htarget _,
    ⟨hindex, hcommand, hdistance, fun hmode => (hretry hmode).2⟩, rfl⟩
  rw [get_rebound_other raw (by decide)]
  exact hretryContext

end Terminal

section Binding

variable {actions rebound : List Fields} {snapshot : Json} {flowId command : String} {index : ℤ}

/-- Accepted actions end in a continuation. -/
theorem exists_append_of_accepted {plan : RecoveryPlan}
    (h : parseRecoveryPlan (asPlanValue actions) = .ok plan) :
    ∃ before last, actions = before ++ [last] := by
  rcases List.eq_nil_or_concat actions with rfl | ⟨before, last, rfl⟩
  · obtain ⟨before, last, heq⟩ := exists_append_of_parseRecoveryPlan h
    have hempty : [] = before ++ [last] := Json.arr.inj heq
    simp at hempty
  · exact ⟨before, last, by rw [List.concat_eq_append]⟩

theorem parse_asPlanValue_append {before : List Fields} {last : Fields} {plan : RecoveryPlan} :
    parseRecoveryPlan (asPlanValue (before ++ [last])) = .ok plan ↔
      before.length < maxActions ∧
        ∃ corrections name arguments, parseActions 0 (before.map Json.obj) = .ok corrections ∧
          ActionAccepted before.length last arguments name ∧ CorrectionsAccepted corrections ∧
          isTerminal name = true ∧
          ∃ parsed, parseTerminal ⟨name, arguments, last⟩ = .ok parsed ∧
            plan = ⟨corrections.map ParsedAction.recoveryAction, parsed⟩ := by
  unfold asPlanValue
  rw [List.map_append, List.map_singleton, parseRecoveryPlan_append, List.length_map]
  refine and_congr_right fun _ => ?_
  constructor
  · intro h
    obtain ⟨corrections, terminal, hcorrections, hterminal, haccepted, hlast, hparsed⟩ := h
    obtain ⟨name, arguments, haction, rfl⟩ := parseAction_eq_ok.mp hterminal
    exact ⟨corrections, name, arguments, hcorrections, haction, haccepted, hlast, hparsed⟩
  · intro h
    obtain ⟨corrections, name, arguments, hcorrections, haction, haccepted, hlast, hparsed⟩ := h
    exact ⟨corrections, _, hcorrections, parseAction_eq_ok.mpr ⟨name, arguments, haction, rfl⟩,
      haccepted, hlast, hparsed⟩

/-- What binding returns for a plan and a captured pointer. -/
def Binds (plan : RecoveryPlan) (pointer : FlowPointer) (index : ℤ) (actions rebound : List Fields) :
    Prop :=
  match plan.terminal with
  | .rerun _ _ => validatePlanForFlow plan pointer = .ok () ∧ rebound = actions
  | .resumeFlow _ mode rewindSteps current target =>
      ∃ paused rewound fresh reboundPlan, WellFormed pointer.raw ∧
        (paused ∈ documentOrder pointer.raw ∧ paused.actionIndex = index) ∧
        (rewound ∈ documentOrder pointer.raw ∧ rewound.actionIndex = index - rewindSteps) ∧
        sameStructure current paused = true ∧ sameStructure target rewound = true ∧
        current.actionIndex - target.actionIndex = rewindSteps ∧
        buildGuardedResumeArguments pointer rewindSteps (some mode) = .ok fresh ∧
        rebound = mapLast (fun terminal => rebindTerminal terminal fresh paused rewound) actions ∧
        parseRecoveryPlan (asPlanValue rebound) = .ok reboundPlan ∧
        validatePlanForFlow reboundPlan pointer = .ok ()

theorem rebindRecoveryActions_eq_ok :
    rebindRecoveryActions actions snapshot flowId index command = .ok rebound ↔
      ∃ pointer plan, capturedPointer snapshot flowId command index = .ok pointer ∧
        parseRecoveryPlan (asPlanValue actions) = .ok plan ∧
        Binds plan pointer index actions rebound := by
  unfold rebindRecoveryActions Binds
  rw [bind_eq_ok]
  refine exists_congr fun pointer => ?_
  rw [bind_eq_ok, ← exists_and_left]
  refine exists_congr fun plan => and_congr_right fun _ => and_congr_right fun _ => ?_
  cases plan.terminal with
  | rerun retried expectedNext =>
    dsimp only
    rw [bind_unit_eq_ok]
    refine and_congr_right fun _ => ?_
    constructor
    · intro h
      cases h
      rfl
    · intro h
      rw [h]
      rfl
  | resumeFlow arguments mode rewindSteps current target =>
    dsimp only
    constructor
    · intro h
      obtain ⟨contexts, hcontexts, h⟩ := bind_eq_ok.mp h
      obtain ⟨hformed, rfl⟩ := flowActionContexts_eq_ok.mp hcontexts
      cases hpaused : contextAt (documentOrder pointer.raw) index with
      | none =>
        rw [hpaused] at h
        exact absurd h reject_ne_ok
      | some paused =>
        cases hrewound : contextAt (documentOrder pointer.raw) (index - rewindSteps) with
        | none =>
          rw [hpaused, hrewound] at h
          exact absurd h reject_ne_ok
        | some rewound =>
          rw [hpaused, hrewound] at h
          obtain ⟨hsame, h⟩ := bind_unit_eq_ok.mp h
          obtain ⟨fresh, hfresh, h⟩ := bind_eq_ok.mp h
          obtain ⟨reboundPlan, hplan, h⟩ := bind_eq_ok.mp h
          obtain ⟨hvalid, h⟩ := bind_unit_eq_ok.mp h
          cases h
          rw [rejectIf_eq_ok, Bool.or_eq_false_iff, Bool.or_eq_false_iff, Bool.not_eq_false',
            Bool.not_eq_false', decide_eq_false_iff_not, not_not] at hsame
          exact ⟨paused, rewound, fresh, reboundPlan, hformed,
            (contextAt_eq_some hformed.distinct).mp hpaused,
            (contextAt_eq_some hformed.distinct).mp hrewound, hsame.1.1, hsame.1.2, hsame.2,
            hfresh, rfl, hplan, hvalid⟩
    · intro h
      obtain ⟨paused, rewound, fresh, reboundPlan, hformed, hpaused, hrewound, hcurrent, htarget,
        hdistance, hfresh, rfl, hplan, hvalid⟩ := h
      refine bind_eq_ok.mpr ⟨_, flowActionContexts_eq_ok.mpr ⟨hformed, rfl⟩, ?_⟩
      rw [(contextAt_eq_some hformed.distinct).mpr hpaused,
        (contextAt_eq_some hformed.distinct).mpr hrewound]
      refine bind_unit_eq_ok.mpr ⟨?_, bind_eq_ok.mpr ⟨fresh, hfresh, bind_eq_ok.mpr
        ⟨reboundPlan, hplan, bind_unit_eq_ok.mpr ⟨hvalid, rfl⟩⟩⟩⟩
      rw [rejectIf_eq_ok, hcurrent, htarget, decide_eq_false (not_not.mpr hdistance)]
      rfl

theorem has_of_get {fields : Fields} {key : String} {members : Fields}
    (h : Fields.get fields key = .obj members) : Fields.has fields key = true := by
  rw [has_eq_true_iff]
  rcases get_eq_null_or_mem fields key with hnull | hmem
  · rw [h] at hnull
    cases hnull
  · exact List.mem_map.mpr ⟨_, hmem, rfl⟩

/-- A list of actions before its continuation, which has the members binding
overwrites. -/
structure Continued (actions before : List Fields) (last : Fields) : Prop where
  split : actions = before ++ [last]
  arguments : Fields.has last "arguments" = true
  context : Fields.has last "continuation_context" = true

theorem Continued.mapLast {before : List Fields} {last fresh : Fields}
    (h : Continued actions before last) {current target : FlowActionContext} :
    PlanValidation.mapLast (fun terminal => rebindTerminal terminal fresh current target) actions =
      before ++ [last.map (rebindMember fresh current target)] := by
  rw [h.split, mapLast_append, rebindTerminal_eq_map h.arguments h.context]

theorem Continued.rewritten {before : List Fields} {last fresh : Fields}
    (h : Continued actions before last) {current target : FlowActionContext} :
    Continued (before ++ [last.map (rebindMember fresh current target)]) before
      (last.map (rebindMember fresh current target)) where
  split := rfl
  arguments := by rw [has_map rebindMember_fst, h.arguments]
  context := by rw [has_map rebindMember_fst, h.context]

/-- The actions of a plan that resumes a Flow, up to its continuation. -/
theorem exists_continued {plan : RecoveryPlan} {arguments : Fields} {mode : ResumeMode}
    {rewindSteps : ℤ} {current target : FlowActionContext}
    (hplan : parseRecoveryPlan (asPlanValue actions) = .ok plan)
    (hterminal : plan.terminal = .resumeFlow arguments mode rewindSteps current target) :
    ∃ before last name, Continued actions before last ∧ before.length < maxActions ∧
      ActionAccepted before.length last arguments name ∧ isTerminal name = true ∧
      name ≠ "$rerun" ∧ (Fields.get last "retry_context").isNull = true ∧
      ∃ corrections, parseActions 0 (before.map Json.obj) = .ok corrections ∧
        CorrectionsAccepted corrections := by
  obtain ⟨before, last, rfl⟩ := exists_append_of_accepted hplan
  obtain ⟨hlength, corrections, name, arguments', hcorrections, haction, haccepted, hlast, parsed,
    hparsed, rfl⟩ := parse_asPlanValue_append.mp hplan
  dsimp only at hterminal
  subst hterminal
  obtain ⟨hname, hresume⟩ := parseTerminal_resumeFlow hparsed
  obtain ⟨mode', steps', index', command', continuation, current', target', -, hcontinuation, -, -,
    hretry, -, -, -, heq⟩ := parseResumeFlow_eq_ok.mp hresume
  cases heq
  exact ⟨before, last, name, ⟨rfl, has_of_get haction.given, has_of_get hcontinuation⟩, hlength,
    haction, hlast, hname, hretry, corrections, hcorrections, haccepted⟩

/-- The plan of rebound actions resumes with the arguments and steps they were
bound to. -/
theorem rebound_terminal {before : List Fields} {last : Fields} {pointer : FlowPointer}
    {mode : ResumeMode} {rewindSteps : ℤ} {paused rewound : FlowActionContext}
    {reboundPlan : RecoveryPlan} {name : String} {arguments : Fields}
    (hlast : Continued actions before last)
    (haction : ActionAccepted before.length last arguments name) (hname : name ≠ "$rerun")
    (hparse : parseRecoveryPlan (asPlanValue (before ++ [last.map (rebindMember
      (guardArguments pointer index command rewindSteps mode) paused rewound)])) =
        .ok reboundPlan) :
    NamesAgree pointer ∧ paused.command = command ∧
      reboundPlan.terminal = .resumeFlow (guardArguments pointer index command rewindSteps mode)
        mode rewindSteps paused rewound := by
  obtain ⟨-, corrections, name', arguments', -, haction', -, -, parsed, hparsed, rfl⟩ :=
    parse_asPlanValue_append.mp hparse
  have hname' : name' = name := by
    have hcommand := haction'.command.1
    rw [get_rebound_other last (by decide), haction.command.1, Json.str.injEq] at hcommand
    exact hcommand.symm
  have harguments : arguments' = guardArguments pointer index command rewindSteps mode := by
    have hgiven := haction'.given
    rw [get_rebound last hlast.arguments] at hgiven
    have hobj : Json.obj (guardArguments pointer index command rewindSteps mode) =
        .obj arguments' := hgiven
    exact (Json.obj.inj hobj).symm
  subst harguments
  subst hname'
  unfold parseTerminal at hparsed
  rw [if_neg hname] at hparsed
  exact parseResumeFlow_rebound_inv hlast.context hparsed

end Binding

section Execution

/-- A live pointer at the captured step of the same Flow. -/
structure SameStep (captured live : FlowPointer) : Prop where
  flowId : live.flowId = captured.flowId
  filename : live.filename = captured.filename
  fid : live.fid = captured.fid
  flowCommit : live.flowCommit = captured.flowCommit
  actionIndex : live.actionIndex = captured.actionIndex
  actionCommand : live.actionCommand = captured.actionCommand
  tree : Fields.get captured.raw "areas" = Fields.get live.raw "areas"

variable {captured live pointer : FlowPointer} {plan : RecoveryPlan}

theorem guardHolds_congr (h : GuardHolds plan captured.raw captured)
    (hsame : SameStep captured live) : GuardHolds plan live.raw live := by
  obtain ⟨hformed, paused, hmem, hindex, hcommand, hfits⟩ := h
  rw [documentOrder_congr hsame.tree] at hmem hfits
  exact ⟨hformed.congr hsame.tree, paused, hmem, hsame.actionIndex.trans hindex,
    hsame.actionCommand.trans hcommand, hfits⟩

/-- The step a valid plan expects is the one the pointer stands at. -/
theorem expectedStep_of_guard {flow : Fields} (h : GuardHolds plan flow pointer) :
    pointer.actionIndex = some plan.expectedStep.actionIndex ∧
      pointer.actionCommand = some plan.expectedStep.command := by
  obtain ⟨-, paused, -, hindex, hcommand, hfits⟩ := h
  unfold Fits at hfits
  unfold RecoveryPlan.expectedStep
  cases hterminal : plan.terminal with
  | rerun retried expectedNext =>
    rw [hterminal] at hfits
    obtain ⟨rfl, -⟩ := hfits
    exact ⟨hindex, hcommand⟩
  | resumeFlow arguments mode rewindSteps current target =>
    rw [hterminal] at hfits
    obtain ⟨rfl, -⟩ := hfits
    exact ⟨hindex, hcommand⟩

/-- Arguments built at a step are replayed at the same step. -/
theorem resumeArgumentsForPlan_replay {index : ℤ} {command : String} {rewindSteps : ℤ}
    {mode : ResumeMode} {current target : FlowActionContext}
    (hterminal : plan.terminal = .resumeFlow
      (guardArguments captured index command rewindSteps mode) mode rewindSteps current target)
    (hnames : NamesTrimmed captured) (hindex : captured.actionIndex = some index)
    (hcommand : captured.actionCommand = some command) (hsame : SameStep captured live) :
    resumeArgumentsForPlan plan live =
      .ok (guardArguments captured index command rewindSteps mode) := by
  unfold resumeArgumentsForPlan
  rw [hterminal]
  refine bind_unit_eq_ok.mpr ⟨?_, bind_unit_eq_ok.mpr ⟨forM_eq_ok.mpr fun guard hguard => ?_, rfl⟩⟩
  · rw [hsame.actionIndex, hsame.actionCommand, hindex, hcommand, rejectIf_eq_ok]
    simp [optionalInt, optionalText, Json.pyEq, Json.numberEq, Json.number, Number.eq]
  · have hfid : FlowPointer.liveFid live = captured.fid ∨ captured.fid = none := by
      unfold FlowPointer.liveFid
      rw [hsame.fid]
      cases hfid : captured.fid with
      | none => exact .inr rfl
      | some fid =>
        dsimp only
        rw [if_neg (hnames.fid fid hfid).1]
        exact .inl rfl
    unfold liveGuards at hguard
    simp only [List.mem_cons, List.not_mem_nil, or_false] at hguard
    rw [rejectIf_eq_ok]
    rcases hguard with rfl | rfl | rfl | rfl
    · rw [get_guardArguments_flowId, hsame.flowId]
      simp [Json.pyEq]
    · rw [get_guardArguments_filename, hsame.filename]
      cases captured.filename <;> simp [optionalText, Json.pyEq]
    · rw [get_guardArguments_fid, has_guardArguments_fid]
      rcases hfid with hfid | hfid
      · rw [hfid]
        cases captured.fid <;> simp [optionalText, Json.pyEq]
      · rw [hfid]
        rfl
    · rw [get_guardArguments_flowCommit, hsame.flowCommit]
      cases captured.flowCommit <;> simp [optionalText, Json.pyEq]

end Execution

section Rebinding

variable {actions rebound : List Fields} {flow : Fields} {flowId command : String} {index : ℤ}

/-- Two lists of actions differ at most in what binding rewrites of a terminal
`$resume_flow`. -/
def DiffersInContinuation (actions rebound : List Fields) : Prop :=
  ∃ before last last', actions = before ++ [last] ∧ rebound = before ++ [last'] ∧
    Fields.keys last' = Fields.keys last ∧
    (∀ key ∉ reboundKeys, Fields.get last' key = Fields.get last key) ∧
    (Fields.get last "command" ≠ .str "$resume_flow" → last' = last)

/-- The actions are a plan that fits the captured step and the live Flow, and
whose continuation can be sent, a resumed one with the arguments it carries. -/
def Executable (rebound : List Fields) (index : ℤ) (command : String) (live : FlowPointer) : Prop :=
  ∃ plan, parseRecoveryPlan (asPlanValue rebound) = .ok plan ∧
    (∀ target : FailureRecoveryTarget, target.actionIndex = index →
      target.actionCommand = command → validatePlanForTarget plan target = .ok ()) ∧
    validatePlanForFlow plan live = .ok () ∧
    ∃ payload, resumeArgumentsForPlan plan live = .ok payload ∧
      ∀ terminal, rebound.getLast? = some terminal →
        Fields.get terminal "command" = .str "$resume_flow" →
          Fields.get terminal "arguments" = .obj payload

theorem validatePlanForTarget_of_guard {pointer : FlowPointer} {plan : RecoveryPlan}
    (hguard : GuardHolds plan flow pointer) (hindex : pointer.actionIndex = some index)
    (hcommand : pointer.actionCommand = some command) {target : FailureRecoveryTarget}
    (htarget : target.actionIndex = index) (htarget' : target.actionCommand = command) :
    validatePlanForTarget plan target = .ok () := by
  obtain ⟨hstep, hstep'⟩ := expectedStep_of_guard hguard
  rw [hindex, Option.some.injEq] at hstep
  rw [hcommand, Option.some.injEq] at hstep'
  unfold validatePlanForTarget identifiesStep
  rw [rejectIf_eq_ok, htarget, htarget', hstep, hstep']
  simp

/-- A plan whose terminal retries ends in a `$rerun`. -/
theorem rerun_command {before : List Fields} {last : Fields} {plan : RecoveryPlan}
    {retried : FlowActionContext} {expectedNext : Option FlowActionContext}
    (hplan : parseRecoveryPlan (asPlanValue (before ++ [last])) = .ok plan)
    (hterminal : plan.terminal = .rerun retried expectedNext) :
    Fields.get last "command" = .str "$rerun" := by
  obtain ⟨-, corrections, name, arguments, -, haction, -, -, parsed, hparsed, rfl⟩ :=
    parse_asPlanValue_append.mp hplan
  dsimp only at hterminal
  subst hterminal
  unfold parseTerminal at hparsed
  split at hparsed
  · next hname =>
    rw [haction.command.1]
    exact congrArg Json.str hname
  · obtain ⟨mode, steps, index, command, continuation, current, target, -, -, -, -, -, -, -, -,
      heq⟩ := parseResumeFlow_eq_ok.mp hparsed
    cases heq

/-- A retried step is bound and executed as it is. -/
theorem rebind_rerun {captured : FlowPointer} {plan : RecoveryPlan} {retried : FlowActionContext}
    {expectedNext : Option FlowActionContext}
    (hplan : parseRecoveryPlan (asPlanValue actions) = .ok plan)
    (hterminal : plan.terminal = .rerun retried expectedNext)
    (hguard : GuardHolds plan captured.raw captured) (hindex : captured.actionIndex = some index)
    (hcommand : captured.actionCommand = some command) :
    DiffersInContinuation actions actions ∧
      ∀ live, live.completed = false → SameStep captured live →
        Executable actions index command live := by
  obtain ⟨before, last, rfl⟩ := exists_append_of_accepted hplan
  have hlast := rerun_command hplan hterminal
  refine ⟨⟨before, last, last, rfl, rfl, rfl, fun _ _ => rfl, fun _ => rfl⟩, ?_⟩
  intro live hlive hsame
  have hindex' := hsame.actionIndex.trans hindex
  have hcommand' := hsame.actionCommand.trans hcommand
  have hpayload : resumeArgumentsForPlan plan live =
      .ok (guardArguments live index command 0 .retryCurrent) := by
    unfold resumeArgumentsForPlan
    rw [hterminal]
    exact buildGuardedResumeArguments_eq_ok.mpr ⟨index, command, hindex', hcommand',
      ⟨le_rfl, by decide⟩, fun _ => rfl, rfl⟩
  refine ⟨plan, hplan, fun target => validatePlanForTarget_of_guard hguard hindex hcommand,
    (validatePlanForFlow_eq_ok rfl hlive).mpr (guardHolds_congr hguard hsame), _, hpayload, ?_⟩
  intro terminal hget hresume
  rw [List.getLast?_append_of_ne_nil _ (by simp), List.getLast?_singleton,
    Option.some.injEq] at hget
  rw [← hget, hlast] at hresume
  exact absurd (Json.str.inj hresume) (by decide)

theorem sameStructure_self (context : FlowActionContext) : sameStructure context context = true := by
  simp [sameStructure]

/-- A resumed continuation is rewritten, keeps its rewriting, and is replayed at
the same step. -/
theorem rebind_resume {snapshot : Json} {captured : FlowPointer} {plan : RecoveryPlan}
    {arguments : Fields} {mode : ResumeMode} {rewindSteps : ℤ}
    {current target : FlowActionContext}
    (hcaptured : capturedPointer snapshot flowId command index = .ok captured)
    (hnames : NamesTrimmed captured)
    (hplan : parseRecoveryPlan (asPlanValue actions) = .ok plan)
    (hterminal : plan.terminal = .resumeFlow arguments mode rewindSteps current target)
    (hbinds : Binds plan captured index actions rebound) :
    DiffersInContinuation actions rebound ∧
      rebindRecoveryActions rebound snapshot flowId index command = .ok rebound ∧
      ∀ live, live.completed = false → SameStep captured live →
        Executable rebound index command live := by
  obtain ⟨-, hlive, -, -, hindex, hcommand⟩ := capturedPointer_eq_ok.mp hcaptured
  obtain ⟨before, last, name, hcontinued, -, haction, hlast, hname, -, -⟩ :=
    exists_continued hplan hterminal
  unfold Binds at hbinds
  rw [hterminal] at hbinds
  obtain ⟨paused, rewound, fresh, reboundPlan, hformed, hpaused, hrewound, -, -, -, hfresh, rfl,
    hparse, hvalid⟩ := hbinds
  obtain ⟨index', command', hindex', hcommand', hnear, hretry, rfl⟩ :=
    buildGuardedResumeArguments_eq_ok.mp hfresh
  rw [hindex] at hindex'
  cases hindex'
  rw [hcommand] at hcommand'
  cases hcommand'
  rw [hcontinued.mapLast] at hparse ⊢
  obtain ⟨-, -, hreboundTerminal⟩ := rebound_terminal hcontinued haction hname hparse
  refine ⟨⟨before, last, _, hcontinued.split, rfl, keys_map rebindMember_fst last,
    fun key hkey => get_rebound_other last hkey, fun hother => ?_⟩, ?_, fun live hlive' hsame => ?_⟩
  · have hresume : name = "$resume_flow" := by
      unfold isTerminal at hlast
      simpa [hname] using hlast
    rw [haction.command.1, hresume] at hother
    exact absurd rfl hother
  · refine rebindRecoveryActions_eq_ok.mpr ⟨captured, reboundPlan, hcaptured, hparse, ?_⟩
    unfold Binds
    rw [hreboundTerminal]
    refine ⟨paused, rewound, _, reboundPlan, hformed, hpaused, hrewound, sameStructure_self _,
      sameStructure_self _, ?_, hfresh, ?_, hparse, hvalid⟩
    · rw [hpaused.2, hrewound.2]
      omega
    · rw [hcontinued.rewritten.mapLast, List.map_map]
      have hidem : rebindMember (guardArguments captured index command rewindSteps mode) paused
          rewound ∘ rebindMember (guardArguments captured index command rewindSteps mode) paused
          rewound = rebindMember (guardArguments captured index command rewindSteps mode) paused
          rewound := funext rebindMember_idem
      rw [hidem]
  · have hguard := (validatePlanForFlow_eq_ok rfl hlive).mp hvalid
    refine ⟨reboundPlan, hparse, fun target => validatePlanForTarget_of_guard hguard hindex hcommand,
      (validatePlanForFlow_eq_ok rfl hlive').mpr (guardHolds_congr hguard hsame), _,
      resumeArgumentsForPlan_replay hreboundTerminal hnames hindex hcommand hsame, ?_⟩
    intro terminal hget _
    rw [List.getLast?_append_of_ne_nil _ (by simp), List.getLast?_singleton,
      Option.some.injEq] at hget
    rw [← hget, get_rebound last hcontinued.arguments]
    rfl

/-- What is bound to a captured failure differs from the memory only in its
continuation, is bound to the same failure without change, and is executable
wherever a live Flow stands at the captured step. -/
theorem rebind_executable
    (h : rebindRecoveryActions actions (.obj flow) flowId index command = .ok rebound) :
    DiffersInContinuation actions rebound ∧
      rebindRecoveryActions rebound (.obj flow) flowId index command = .ok rebound ∧
      ∀ captured, parseFlowPointer (.obj flow) 0 0 = some captured →
        ∀ (document : Fields) (revision generation : ℕ) (live : FlowPointer),
          parseFlowPointer (.obj document) revision generation = some live →
            SameStep captured live → Executable rebound index command live := by
  obtain ⟨captured, plan, hcaptured, hplan, hbinds⟩ := rebindRecoveryActions_eq_ok.mp h
  obtain ⟨hparse, hcompleted, -, -, hindex, hcommand⟩ := capturedPointer_eq_ok.mp hcaptured
  have hall : DiffersInContinuation actions rebound ∧
      rebindRecoveryActions rebound (.obj flow) flowId index command = .ok rebound ∧
      ∀ live, live.completed = false → SameStep captured live →
        Executable rebound index command live := by
    cases hterminal : plan.terminal with
    | rerun retried expectedNext =>
      unfold Binds at hbinds
      rw [hterminal] at hbinds
      obtain ⟨hvalid, rfl⟩ := hbinds
      have hguard := (validatePlanForFlow_eq_ok rfl hcompleted).mp hvalid
      obtain ⟨hdiffers, hlive⟩ := rebind_rerun hplan hterminal hguard hindex hcommand
      exact ⟨hdiffers, h, hlive⟩
    | resumeFlow arguments mode rewindSteps current target =>
      exact rebind_resume hcaptured (parseFlowPointer_names hparse) hplan hterminal hbinds
  obtain ⟨hdiffers, hagain, hlive⟩ := hall
  refine ⟨hdiffers, hagain, fun captured' hparse' document revision generation live hlive' hsame => ?_⟩
  rw [hparse, Option.some.injEq] at hparse'
  subst hparse'
  have hstep := hsame.actionIndex.trans hindex
  exact hlive live (parseFlowPointer_live hlive' hstep).1 hsame

/-- A memory whose continuation resumes a Flow, and a paused Flow with the same
steps where it was captured and where it aims. -/
structure Remembered (actions : List Fields) (flow : Fields) (pointer : FlowPointer) (index : ℤ)
    (command : String) (paused rewound : FlowActionContext) : Prop where
  accepted : ∃ plan arguments mode rewindSteps current target,
    parseRecoveryPlan (asPlanValue actions) = .ok plan ∧
      plan.terminal = .resumeFlow arguments mode rewindSteps current target ∧
      (∃ contexts, flowActionContexts flow = .ok contexts ∧ contextAt contexts index = some paused ∧
        contextAt contexts (index - rewindSteps) = some rewound) ∧
      sameStructure current paused = true ∧ sameStructure target rewound = true
  captured : capturedPointer (.obj flow) pointer.flowId command index = .ok pointer
  flowId : pointer.flowId.length ≤ 300
  filename : ∀ name, pointer.filename = some name → name.length ≤ 300
  fid : ∀ name, pointer.fid = some name → name.length ≤ 300
  flowCommit : ∀ commit, pointer.flowCommit = some commit → commit.length ≤ 300

/-- Binding succeeds only with file names that agree and the pointer's command. -/
theorem agree_of_bound {pointer : FlowPointer} {paused rewound : FlowActionContext}
    (h : Remembered actions flow pointer index command paused rewound)
    (hbound : rebindRecoveryActions actions (.obj flow) pointer.flowId index command =
      .ok rebound) : NamesAgree pointer ∧ paused.command = command := by
  obtain ⟨plan, arguments, mode, rewindSteps, current, target, hplan, hterminal,
    ⟨contexts, hcontexts, hpaused, -⟩, -, -⟩ := h.accepted
  obtain ⟨hparse, hlive, -, -, hindex, hcommand⟩ := capturedPointer_eq_ok.mp h.captured
  obtain ⟨hraw, -⟩ := parseFlowPointer_step hparse hlive
  obtain ⟨hformed, rfl⟩ := flowActionContexts_eq_ok.mp hcontexts
  obtain ⟨before, last, name, hcontinued, -, haction, -, hname, -, -⟩ :=
    exists_continued hplan hterminal
  obtain ⟨pointer', plan', hcaptured', hplan', hbinds⟩ := rebindRecoveryActions_eq_ok.mp hbound
  rw [h.captured] at hcaptured'
  cases hcaptured'
  rw [hplan] at hplan'
  cases hplan'
  unfold Binds at hbinds
  rw [hterminal] at hbinds
  obtain ⟨paused', rewound', fresh, reboundPlan, -, hpaused', -, -, -, -, hfresh, rfl, hparse',
    -⟩ := hbinds
  obtain ⟨index', command', hindex', hcommand', -, -, rfl⟩ :=
    buildGuardedResumeArguments_eq_ok.mp hfresh
  rw [hindex] at hindex'
  cases hindex'
  rw [hcommand] at hcommand'
  cases hcommand'
  rw [hraw] at hpaused'
  have hsame : some paused' = some paused :=
    ((contextAt_eq_some hformed.distinct).mpr hpaused').symm.trans hpaused
  cases hsame
  rw [hcontinued.mapLast] at hparse'
  obtain ⟨hagree, hsame, -⟩ := rebound_terminal hcontinued haction hname hparse'
  exact ⟨hagree, hsame⟩

/-- With file names that agree and the pointer's command, the guard arguments
are of the contract. -/
theorem bounded_of_remembered {pointer : FlowPointer} {paused rewound : FlowActionContext}
    {rewindSteps : ℤ} (h : Remembered actions flow pointer index command paused rewound)
    (hnear : 0 ≤ rewindSteps ∧ rewindSteps ≤ maxRewindSteps) (hpaused : ContextFormed paused)
    (hindex : paused.actionIndex = index) (hsame : paused.command = command) :
    Bounded pointer index command rewindSteps := by
  have hnames := parseFlowPointer_names (capturedPointer_eq_ok.mp h.captured).1
  exact
    { steps := hnear
      index := by
        rw [← hindex]
        exact hpaused.index
      command := by
        rw [← hsame]
        exact hpaused.command
      flowId := ⟨hnames.flowId, h.flowId⟩
      filename := fun name hname => ⟨hnames.filename name hname, h.filename name hname⟩
      fid := fun name hname => ⟨hnames.fid name hname, h.fid name hname⟩
      flowCommit := fun name hname => ⟨hnames.flowCommit name hname, h.flowCommit name hname⟩ }

/-- Then binding succeeds. -/
theorem bound_of_agree {pointer : FlowPointer} {paused rewound : FlowActionContext}
    (h : Remembered actions flow pointer index command paused rewound)
    (hagree : NamesAgree pointer) (hsame : paused.command = command) :
    ∃ rebound, rebindRecoveryActions actions (.obj flow) pointer.flowId index command =
      .ok rebound := by
  obtain ⟨plan, arguments, mode, rewindSteps, current, target, hplan, hterminal,
    ⟨contexts, hcontexts, hpaused, hrewound⟩, hcurrent, htarget⟩ := h.accepted
  obtain ⟨hparse, hlive, -, -, hindex, hcommand⟩ := capturedPointer_eq_ok.mp h.captured
  obtain ⟨hraw, -⟩ := parseFlowPointer_step hparse hlive
  obtain ⟨hformed, rfl⟩ := flowActionContexts_eq_ok.mp hcontexts
  rw [contextAt_eq_some hformed.distinct] at hpaused hrewound
  have hresume := parseRecoveryPlan_resume hplan hterminal
  have hdistance := hresume.distance
  obtain ⟨before, last, name, hcontinued, hlength, haction, hlast, hname, hretryContext,
    corrections, hcorrections, haccepted⟩ := exists_continued hplan hterminal
  have hbounded := bounded_of_remembered h hresume.near (hformed.context hpaused.1) hpaused.2 hsame
  have hstay : mode = .retryCurrent → rewindSteps = 0 ∧ rewound = paused := by
    intro hmode
    have hzero := (hresume.retried hmode).1
    refine ⟨hzero, List.inj_on_of_nodup_map hformed.distinct hrewound.1 hpaused.1 ?_⟩
    rw [hrewound.2, hpaused.2, hzero]
    omega
  have hterminal' : parseTerminal ⟨name, guardArguments pointer index command rewindSteps mode,
      last.map (rebindMember (guardArguments pointer index command rewindSteps mode) paused
        rewound)⟩ = .ok (.resumeFlow (guardArguments pointer index command rewindSteps mode) mode
          rewindSteps paused rewound) := by
    unfold parseTerminal
    rw [if_neg hname]
    exact parseResumeFlow_rebound hcontinued.context hretryContext hbounded hstay hresume.rewound
      (hformed.context hpaused.1) (hformed.context hrewound.1) hpaused.2 hrewound.2 hagree hsame
  have hplan' := parse_asPlanValue_append.mpr ⟨hlength, corrections, name, _, hcorrections,
    actionAccepted_rebound haction hbounded, haccepted, hlast, _, hterminal', rfl⟩
  have hguard : GuardHolds ⟨corrections.map ParsedAction.recoveryAction,
      .resumeFlow (guardArguments pointer index command rewindSteps mode) mode rewindSteps
        paused rewound⟩ flow pointer := by
    refine ⟨hformed, paused, hpaused.1, ?_, ?_, rfl, hrewound.1, ?_⟩
    · rw [hpaused.2]
      exact hindex
    · rw [hsame]
      exact hcommand
    · rw [hrewound.2, hpaused.2]
  refine ⟨before ++ [last.map (rebindMember (guardArguments pointer index command rewindSteps mode)
    paused rewound)], rebindRecoveryActions_eq_ok.mpr ⟨pointer, plan, h.captured, hplan, ?_⟩⟩
  unfold Binds
  rw [hterminal, hraw]
  refine ⟨paused, rewound, _, _, hformed, hpaused, hrewound, hcurrent, htarget, by omega,
    buildGuardedResumeArguments_eq_ok.mpr ⟨index, command, hindex, hcommand, hresume.near,
      fun hmode => (hresume.retried hmode).1, rfl⟩,
    hcontinued.mapLast.symm, hplan', (validatePlanForFlow_eq_ok hraw hlive).mpr hguard⟩

/-- A remembered continuation is bound to a Flow exactly when the Flow's two file
names agree and its pointer carries the command of the enabled step. -/
theorem rebind_complete_iff {pointer : FlowPointer} {paused rewound : FlowActionContext}
    (h : Remembered actions flow pointer index command paused rewound) :
    (∃ rebound, rebindRecoveryActions actions (.obj flow) pointer.flowId index command =
        .ok rebound) ↔
      NamesAgree pointer ∧ paused.command = command := by
  constructor
  · intro hbound
    obtain ⟨rebound, hbound⟩ := hbound
    exact agree_of_bound h hbound
  · intro hagree
    exact bound_of_agree h hagree.1 hagree.2

def sampleNames (fid : String) : Fields :=
  [("id", .str "flow-1"), ("filename", .str "room-101.yaml"), ("fid", .str fid)]

def samplePointer (fid : String) : FlowPointer where
  revision := 0
  flowId := "flow-1"
  status := "paused"
  actionIndex := some 4
  actionCommand := some "open_door"
  filename := some "room-101.yaml"
  fid := some fid
  flowCommit := none
  raw := sampleFlow (sampleNames fid)
  generation := 0
  completed := false

def samplePlan : RecoveryPlan where
  corrections := []
  terminal := .resumeFlow [("mode", .str "rewind"), ("rewind_steps", .int 1),
      ("current_action_index", .int 4), ("current_command", .str "open_door"),
      ("flow_id", .str "flow-0")] .rewind 1 ⟨4, "open_door", "Room", "Door"⟩
    ⟨3, "grasp", "Room", "Door"⟩

theorem sample_accepted : parseRecoveryPlan (asPlanValue [sampleResume "flow-0"]) =
    .ok samplePlan := by
  rfl

theorem sample_captured (fid : String)
    (h : capturedPointer (.obj (sampleFlow (sampleNames fid))) "flow-1" "open_door" 4 =
      .ok (samplePointer fid)) (hfid : fid.length ≤ 300) :
    Remembered [sampleResume "flow-0"] (sampleFlow (sampleNames fid)) (samplePointer fid) 4
      "open_door" ⟨4, "open_door", "Room", "Door"⟩ ⟨3, "grasp", "Room", "Door"⟩ where
  accepted := ⟨samplePlan, _, .rewind, 1, _, _, sample_accepted, rfl, ⟨_, rfl, rfl, rfl⟩, rfl, rfl⟩
  captured := h
  flowId := by
    show "flow-1".length ≤ 300
    decide
  filename := by
    intro name hname
    cases hname
    decide
  fid := by
    intro name hname
    cases hname
    exact hfid
  flowCommit := by
    intro commit hcommit
    cases hcommit

theorem sample_agree : NamesAgree (samplePointer "room-101.yaml") := by
  intro filename fid hfilename hfid
  cases hfilename
  cases hfid
  rfl

theorem rebind_complete_sample :
    ∃ rebound, rebindRecoveryActions [sampleResume "flow-0"]
      (.obj (sampleFlow (sampleNames "room-101.yaml"))) (samplePointer "room-101.yaml").flowId 4
        "open_door" = .ok rebound := by
  have hremembered := sample_captured "room-101.yaml" rfl (by decide)
  exact (rebind_complete_iff hremembered).mpr ⟨sample_agree, rfl⟩

/-- A Flow whose `filename` and `fid` differ: its guard arguments carry both, and
the parser refuses them. -/
theorem names_differ_refused :
    Remembered [sampleResume "flow-0"] (sampleFlow (sampleNames "room-101"))
        (samplePointer "room-101") 4 "open_door" ⟨4, "open_door", "Room", "Door"⟩
        ⟨3, "grasp", "Room", "Door"⟩ ∧
      ∀ rebound, rebindRecoveryActions [sampleResume "flow-0"]
        (.obj (sampleFlow (sampleNames "room-101"))) "flow-1" 4 "open_door" ≠ .ok rebound := by
  have hremembered := sample_captured "room-101" rfl (by decide)
  refine ⟨hremembered, fun rebound hbound => ?_⟩
  have hagree := (agree_of_bound hremembered hbound).1 "room-101.yaml" "room-101" rfl rfl
  exact absurd hagree (by decide)

theorem rebind_executable_sample :
    ∃ rebound, rebindRecoveryActions [sampleResume "flow-0"]
        (.obj (sampleFlow (sampleNames "room-101.yaml"))) "flow-1" 4 "open_door" = .ok rebound ∧
      DiffersInContinuation [sampleResume "flow-0"] rebound ∧
      Executable rebound 4 "open_door" (samplePointer "room-101.yaml") := by
  obtain ⟨rebound, hbound⟩ := bound_of_agree (sample_captured "room-101.yaml" rfl (by decide))
    sample_agree rfl
  obtain ⟨hdiffers, -, hlive⟩ := rebind_executable hbound
  have hparse : parseFlowPointer (.obj (sampleFlow (sampleNames "room-101.yaml"))) 0 0 =
      some (samplePointer "room-101.yaml") := by
    rfl
  exact ⟨rebound, hbound, hdiffers, hlive _ hparse _ 0 0 _ hparse
    ⟨rfl, rfl, rfl, rfl, rfl, rfl, rfl⟩⟩

end Rebinding

end FailureResolver.PlanRebinding
