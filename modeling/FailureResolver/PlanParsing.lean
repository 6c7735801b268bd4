import FailureResolver.ActionPlan

/-!
What an accepted plan satisfies. A list of actions is accepted exactly when every
action is, one of them is a continuation and it stands last; the guard arguments
of an accepted continuation name its captured step and how far it rewinds.
-/

namespace FailureResolver.PlanParsing

open JsonValue PyException PyText RecoveryContract ActionPlan

section Fields

theorem requiredText_eq_ok {value : Json} {name s : String} {maxLength : ℕ} :
    requiredText value name maxLength = .ok s ↔
      value = .str s ∧ Trimmed s ∧ s.length ≤ maxLength := by
  cases value with
  | str text =>
    unfold requiredText
    dsimp only
    by_cases htrimmed : Trimmed text
    · rw [if_neg (not_not.mpr htrimmed)]
      by_cases hlength : maxLength < text.length
      · rw [if_pos hlength]
        constructor
        · intro h
          exact absurd h reject_ne_ok
        · intro h
          obtain ⟨heq, -, hbound⟩ := h
          cases heq
          omega
      · rw [if_neg hlength]
        constructor
        · intro h
          cases h
          exact ⟨rfl, htrimmed, by omega⟩
        · intro h
          cases h.1
          rfl
    · rw [if_pos htrimmed]
      constructor
      · intro h
        exact absurd h reject_ne_ok
      · intro h
        cases h.1
        exact absurd h.2.1 htrimmed
  | _ =>
    constructor
    · intro h
      exact absurd h reject_ne_ok
    · intro h
      cases h.1

theorem requiredInt_iff {value : Json} {name : String} {minimum maximum n : ℤ} :
    requiredInt value name minimum maximum = .ok n ↔
      value = .int n ∧ minimum ≤ n ∧ n ≤ maximum := by
  constructor
  · exact requiredInt_eq_ok
  · intro h
    obtain ⟨rfl, hrange⟩ := h
    unfold requiredInt
    dsimp only
    rw [if_pos hrange]

/-- A text of the contract: nonempty, trimmed and not too long. -/
def IsText (value : Json) (maxLength : ℕ) : Prop :=
  ∃ s, value = .str s ∧ Trimmed s ∧ s.length ≤ maxLength

def IsIndex (value : Json) : Prop := ∃ n, value = .int n ∧ 0 ≤ n ∧ n ≤ 1000000

/-- A text that is only asked for under a condition. -/
theorem optionalText_eq_ok {β : Type} {condition : Bool} {value : Json} {name : String}
    {maxLength : ℕ} {rest : Except PyExc β} {b : β} :
    (if condition = true then do
        let _ ← requiredText value name maxLength
        rest
      else rest) = .ok b ↔ (condition = true → IsText value maxLength) ∧ rest = .ok b := by
  cases condition with
  | false => simp
  | true =>
    simp only [if_true, true_imp_iff]
    rw [bind_eq_ok]
    constructor
    · intro h
      obtain ⟨s, hs, hrest⟩ := h
      exact ⟨⟨s, requiredText_eq_ok.mp hs⟩, hrest⟩
    · intro h
      obtain ⟨⟨s, hs⟩, hrest⟩ := h
      exact ⟨s, requiredText_eq_ok.mpr hs, hrest⟩

theorem parseContinuationAction_eq_ok {fields : Fields} {name : String}
    {context : FlowActionContext} :
    parseContinuationAction (.obj fields) name = .ok context ↔
      hasOnly fields ["command", "description", "status", "areaName", "itemName", "actionIndex"]
          = true ∧
        (Fields.get fields "actionIndex" = .int context.actionIndex ∧ 0 ≤ context.actionIndex ∧
          context.actionIndex ≤ 1000000) ∧
        (Fields.get fields "command" = .str context.command ∧ Trimmed context.command ∧
          context.command.length ≤ maxCommandLength) ∧
        (Fields.get fields "areaName" = .str context.areaName ∧ Trimmed context.areaName ∧
          context.areaName.length ≤ 300) ∧
        (Fields.get fields "itemName" = .str context.itemName ∧ Trimmed context.itemName ∧
          context.itemName.length ≤ 300) ∧
        ∀ key ∈ ["description", "status"], Fields.has fields key = true →
          IsText (Fields.get fields key) 1000 := by
  unfold parseContinuationAction
  dsimp only
  rw [bind_unit_eq_ok, rejectIf_eq_ok, Bool.not_eq_false']
  refine and_congr_right fun _ => ?_
  constructor
  · intro h
    obtain ⟨index, hindex, h⟩ := bind_eq_ok.mp h
    obtain ⟨command, hcommand, h⟩ := bind_eq_ok.mp h
    obtain ⟨areaName, harea, h⟩ := bind_eq_ok.mp h
    obtain ⟨itemName, hitem, h⟩ := bind_eq_ok.mp h
    obtain ⟨htexts, h⟩ := bind_unit_eq_ok.mp h
    cases h
    refine ⟨requiredInt_iff.mp hindex, requiredText_eq_ok.mp hcommand,
      requiredText_eq_ok.mp harea, requiredText_eq_ok.mp hitem, fun key hkey => ?_⟩
    exact (optionalText_eq_ok.mp (forM_eq_ok.mp htexts key hkey)).1
  · intro h
    obtain ⟨hindex, hcommand, harea, hitem, htexts⟩ := h
    refine bind_eq_ok.mpr ⟨_, requiredInt_iff.mpr hindex, bind_eq_ok.mpr
      ⟨_, requiredText_eq_ok.mpr hcommand, bind_eq_ok.mpr ⟨_, requiredText_eq_ok.mpr harea,
        bind_eq_ok.mpr ⟨_, requiredText_eq_ok.mpr hitem, bind_unit_eq_ok.mpr ⟨?_, rfl⟩⟩⟩⟩⟩
    exact forM_eq_ok.mpr fun key hkey => optionalText_eq_ok.mpr ⟨htexts key hkey, rfl⟩

end Fields

section Actions

structure ActionAccepted (index : ℕ) (raw arguments : Fields) (command : String) : Prop where
  keys : hasOnly raw allowedActionFields = true
  command : Fields.get raw "command" = .str command ∧ Trimmed command ∧
    command.length ≤ maxCommandLength
  title : Fields.has raw "title" = true → IsText (Fields.get raw "title") 300
  given : Fields.get raw "arguments" = .obj arguments
  json : validateJson (.obj arguments) = .ok ()
  size : ∃ bytes, argumentBytes arguments = .ok bytes ∧ bytes ≤ maxArgumentBytes
  effective : checkEffective index raw arguments = .ok ()
  explicit : checkExplicit index raw arguments = .ok ()

theorem parseAction_eq_ok {index : ℕ} {raw : Fields} {action : ParsedAction} :
    parseAction index (.obj raw) = .ok action ↔
      ∃ command arguments, ActionAccepted index raw arguments command ∧
        action = ⟨command, arguments, raw⟩ := by
  unfold parseAction
  dsimp only
  rw [bind_unit_eq_ok, rejectIf_eq_ok, Bool.not_eq_false']
  constructor
  · intro h
    obtain ⟨hkeys, h⟩ := h
    obtain ⟨command, hcommand, h⟩ := bind_eq_ok.mp h
    obtain ⟨htitle, h⟩ := optionalText_eq_ok.mp h
    cases harguments : Fields.get raw "arguments" with
    | obj arguments =>
      rw [harguments] at h
      obtain ⟨hjson, h⟩ := bind_unit_eq_ok.mp h
      obtain ⟨bytes, hbytes, h⟩ := bind_eq_ok.mp h
      obtain ⟨hsize, h⟩ := bind_unit_eq_ok.mp h
      obtain ⟨heffective, h⟩ := bind_unit_eq_ok.mp h
      obtain ⟨hexplicit, h⟩ := bind_unit_eq_ok.mp h
      cases h
      rw [rejectIf_eq_ok, decide_eq_false_iff_not, not_lt] at hsize
      exact ⟨command, arguments,
        ⟨hkeys, requiredText_eq_ok.mp hcommand, htitle, harguments, hjson, ⟨bytes, hbytes, hsize⟩,
          heffective, hexplicit⟩, rfl⟩
    | _ =>
      rw [harguments] at h
      exact absurd h reject_ne_ok
  · intro h
    obtain ⟨command, arguments, haccepted, rfl⟩ := h
    obtain ⟨bytes, hbytes, hsize⟩ := haccepted.size
    refine ⟨haccepted.keys, bind_eq_ok.mpr ⟨command, requiredText_eq_ok.mpr haccepted.command,
      optionalText_eq_ok.mpr ⟨haccepted.title, ?_⟩⟩⟩
    rw [haccepted.given]
    refine bind_unit_eq_ok.mpr ⟨haccepted.json, bind_eq_ok.mpr ⟨bytes, hbytes,
      bind_unit_eq_ok.mpr ⟨?_, bind_unit_eq_ok.mpr ⟨haccepted.effective,
        bind_unit_eq_ok.mpr ⟨haccepted.explicit, rfl⟩⟩⟩⟩⟩
    rw [rejectIf_eq_ok, decide_eq_false_iff_not, not_lt]
    exact hsize

theorem parseActions_append {index : ℕ} {before : List Json} {last : Json}
    {parsed : List ParsedAction} :
    parseActions index (before ++ [last]) = .ok parsed ↔
      ∃ corrections terminal, parseActions index before = .ok corrections ∧
        parseAction (index + before.length) last = .ok terminal ∧
        parsed = corrections ++ [terminal] := by
  induction before generalizing index parsed with
  | nil =>
    rw [List.nil_append, parseActions]
    constructor
    · intro h
      obtain ⟨terminal, hterminal, h⟩ := bind_eq_ok.mp h
      cases h
      exact ⟨[], terminal, rfl, hterminal, rfl⟩
    · intro h
      obtain ⟨corrections, terminal, hcorrections, hterminal, rfl⟩ := h
      cases hcorrections
      exact bind_eq_ok.mpr ⟨terminal, hterminal, rfl⟩
  | cons value before ih =>
    have hindex : index + (value :: before).length = index + 1 + before.length := by
      simp only [List.length_cons]
      omega
    rw [List.cons_append, parseActions, hindex]
    constructor
    · intro h
      obtain ⟨action, haction, h⟩ := bind_eq_ok.mp h
      obtain ⟨rest, hrest, h⟩ := bind_eq_ok.mp h
      cases h
      obtain ⟨corrections, terminal, hcorrections, hterminal, rfl⟩ := ih.mp hrest
      refine ⟨action :: corrections, terminal, ?_, hterminal, rfl⟩
      exact bind_eq_ok.mpr ⟨action, haction, bind_eq_ok.mpr ⟨corrections, hcorrections, rfl⟩⟩
    · intro h
      obtain ⟨corrections, terminal, hcorrections, hterminal, rfl⟩ := h
      obtain ⟨action, haction, h⟩ := bind_eq_ok.mp hcorrections
      obtain ⟨rest, hrest, h⟩ := bind_eq_ok.mp h
      cases h
      exact bind_eq_ok.mpr ⟨action, haction, bind_eq_ok.mpr
        ⟨rest ++ [terminal], ih.mpr ⟨rest, terminal, hrest, hterminal, rfl⟩, rfl⟩⟩

def CorrectionsAccepted (corrections : List ParsedAction) : Prop :=
  ∀ action ∈ corrections, isTerminal action.command = false ∧ checkCorrection action = .ok ()

/-- A plan is accepted action by action, with the continuation last. -/
theorem parseRecoveryPlan_append {before : List Json} {last : Json} {plan : RecoveryPlan} :
    parseRecoveryPlan (.arr (before ++ [last])) = .ok plan ↔
      before.length < maxActions ∧
        ∃ corrections terminal, parseActions 0 before = .ok corrections ∧
          parseAction before.length last = .ok terminal ∧ CorrectionsAccepted corrections ∧
          isTerminal terminal.command = true ∧
          ∃ parsed, parseTerminal terminal = .ok parsed ∧
            plan = ⟨corrections.map ParsedAction.recoveryAction, parsed⟩ := by
  unfold parseRecoveryPlan
  dsimp only
  rw [bind_unit_eq_ok, rejectIf_eq_ok, decide_eq_false_iff_not, List.length_append,
    List.length_singleton]
  have hlength : ¬ (before.length + 1 < 1 ∨ maxActions < before.length + 1) ↔
      before.length < maxActions := by omega
  rw [hlength]
  refine and_congr_right fun _ => ?_
  rw [bind_eq_ok]
  constructor
  · intro h
    obtain ⟨parsed, hparsed, h⟩ := h
    obtain ⟨corrections, terminal, hcorrections, hterminal, rfl⟩ :=
      parseActions_append.mp hparsed
    rw [List.reverse_append, List.reverse_singleton, List.singleton_append] at h
    dsimp only at h
    rw [List.reverse_reverse] at h
    obtain ⟨hpositions, h⟩ := bind_unit_eq_ok.mp h
    obtain ⟨hchecked, h⟩ := bind_unit_eq_ok.mp h
    obtain ⟨continuation, hcontinuation, h⟩ := bind_eq_ok.mp h
    cases h
    rw [rejectIf_eq_ok, Bool.or_eq_false_iff, Bool.not_eq_false', List.any_eq_false] at hpositions
    rw [Nat.zero_add] at hterminal
    refine ⟨corrections, terminal, hcorrections, hterminal, fun action haction => ?_,
      hpositions.1, continuation, hcontinuation, rfl⟩
    exact ⟨by simpa using hpositions.2 action haction, forM_eq_ok.mp hchecked action haction⟩
  · intro h
    obtain ⟨corrections, terminal, hcorrections, hterminal, haccepted, hlast, continuation,
      hcontinuation, rfl⟩ := h
    rw [← Nat.zero_add before.length] at hterminal
    refine ⟨corrections ++ [terminal],
      parseActions_append.mpr ⟨corrections, terminal, hcorrections, hterminal, rfl⟩, ?_⟩
    rw [List.reverse_append, List.reverse_singleton, List.singleton_append]
    dsimp only
    rw [List.reverse_reverse]
    refine bind_unit_eq_ok.mpr ⟨?_, bind_unit_eq_ok.mpr ⟨?_, bind_eq_ok.mpr
      ⟨continuation, hcontinuation, rfl⟩⟩⟩
    · rw [rejectIf_eq_ok, Bool.or_eq_false_iff, Bool.not_eq_false', List.any_eq_false]
      exact ⟨hlast, fun action haction => by simp [(haccepted action haction).1]⟩
    · exact forM_eq_ok.mpr fun action haction => (haccepted action haction).2

/-- An accepted plan is a nonempty list. -/
theorem exists_append_of_parseRecoveryPlan {value : Json} {plan : RecoveryPlan}
    (h : parseRecoveryPlan value = .ok plan) :
    ∃ before last, value = .arr (before ++ [last]) := by
  cases value with
  | arr actions =>
    rcases List.eq_nil_or_concat actions with rfl | ⟨before, last, rfl⟩
    · unfold parseRecoveryPlan at h
      dsimp only at h
      have hlength := (bind_unit_eq_ok.mp h).1
      rw [rejectIf_eq_ok] at hlength
      simp at hlength
    · exact ⟨before, last, by rw [List.concat_eq_append]⟩
  | _ => exact absurd h reject_ne_ok

end Actions

section Resume

/-- How the guard arguments of an accepted continuation hang together with its
captured steps. -/
structure ResumeAccepted (arguments : Fields) (mode : ResumeMode) (rewindSteps : ℤ)
    (current target : FlowActionContext) : Prop where
  modeText : Fields.get arguments "mode" = .str mode.text
  steps : Fields.get arguments "rewind_steps" = .int rewindSteps
  near : 0 ≤ rewindSteps ∧ rewindSteps ≤ maxRewindSteps
  index : Fields.get arguments "current_action_index" = .int current.actionIndex
  command : Fields.get arguments "current_command" = .str current.command
  distance : target.actionIndex = current.actionIndex - rewindSteps
  start : 0 ≤ target.actionIndex
  retried : mode = .retryCurrent → rewindSteps = 0 ∧ target = current
  rewound : mode = .rewind → rewindSteps ≠ 0

theorem parseResumeMode_eq_ok {value : Json} {mode : ResumeMode} :
    parseResumeMode value = .ok mode ↔ value = .str mode.text := by
  unfold parseResumeMode
  split
  · cases mode <;> simp [ResumeMode.text]
  · cases mode <;> simp [ResumeMode.text]
  · next hretry hrewind =>
    constructor
    · intro h
      exact absurd h reject_ne_ok
    · intro h
      cases mode with
      | retryCurrent => exact absurd h hretry
      | rewind => exact absurd h hrewind

structure GuardTexts (arguments : Fields) : Prop where
  flowId : IsText (Fields.get arguments "flow_id") 300
  names : ∀ key ∈ ["filename", "fid"], Fields.has arguments key = true →
    IsText (Fields.get arguments key) 300
  agree : Fields.has arguments "filename" = true → Fields.has arguments "fid" = true →
    (Fields.get arguments "filename").pyEq (Fields.get arguments "fid") = true
  flowCommit : (Fields.get arguments "flow_commit").isNull = false →
    IsText (Fields.get arguments "flow_commit") 300

theorem parseResumeArguments_eq_ok {arguments : Fields} {mode : ResumeMode}
    {rewindSteps index : ℤ} {command : String} :
    parseResumeArguments arguments = .ok (mode, rewindSteps, index, command) ↔
      hasOnly arguments allowedResumeArguments = true ∧
        Fields.get arguments "mode" = .str mode.text ∧
        (Fields.get arguments "rewind_steps" = .int rewindSteps ∧ 0 ≤ rewindSteps ∧
          rewindSteps ≤ maxRewindSteps) ∧
        (mode = .retryCurrent → rewindSteps = 0) ∧ (mode = .rewind → rewindSteps ≠ 0) ∧
        GuardTexts arguments ∧
        (Fields.get arguments "current_action_index" = .int index ∧ 0 ≤ index ∧
          index ≤ 1000000) ∧
        Fields.get arguments "current_command" = .str command ∧ Trimmed command ∧
          command.length ≤ maxCommandLength := by
  unfold parseResumeArguments
  constructor
  · intro h
    obtain ⟨hkeys, h⟩ := bind_unit_eq_ok.mp h
    obtain ⟨mode', hmode, h⟩ := bind_eq_ok.mp h
    obtain ⟨steps, hsteps, h⟩ := bind_eq_ok.mp h
    obtain ⟨hretry, h⟩ := bind_unit_eq_ok.mp h
    obtain ⟨hrewind, h⟩ := bind_unit_eq_ok.mp h
    obtain ⟨flowId, hflow, h⟩ := bind_eq_ok.mp h
    obtain ⟨hnames, h⟩ := bind_unit_eq_ok.mp h
    obtain ⟨hagree, h⟩ := bind_unit_eq_ok.mp h
    obtain ⟨hcommit, h⟩ := optionalText_eq_ok.mp h
    obtain ⟨index', hindex, h⟩ := bind_eq_ok.mp h
    obtain ⟨command', hcommand, h⟩ := bind_eq_ok.mp h
    cases h
    rw [rejectIf_eq_ok, Bool.not_eq_false'] at hkeys
    rw [rejectIf_eq_ok, decide_eq_false_iff_not, not_and, not_not] at hretry
    rw [rejectIf_eq_ok, decide_eq_false_iff_not, not_and] at hrewind
    rw [rejectIf_eq_ok] at hagree
    refine ⟨hkeys, parseResumeMode_eq_ok.mp hmode, requiredInt_iff.mp hsteps, hretry, hrewind,
      ⟨⟨flowId, requiredText_eq_ok.mp hflow⟩, fun key hkey => ?_, fun hfilename hfid => ?_,
        fun hnull => hcommit (by rw [hnull]; rfl)⟩,
      requiredInt_iff.mp hindex, requiredText_eq_ok.mp hcommand⟩
    · exact (optionalText_eq_ok.mp (forM_eq_ok.mp hnames key hkey)).1
    · rw [hfilename, hfid, Bool.true_and, Bool.true_and, Bool.not_eq_false'] at hagree
      exact hagree
  · intro h
    obtain ⟨hkeys, hmode, hsteps, hretry, hrewind, htexts, hindex, hcommand⟩ := h
    obtain ⟨flowId, hflow⟩ := htexts.flowId
    refine bind_unit_eq_ok.mpr ⟨?_, bind_eq_ok.mpr ⟨mode, parseResumeMode_eq_ok.mpr hmode,
      bind_eq_ok.mpr ⟨rewindSteps, requiredInt_iff.mpr hsteps, bind_unit_eq_ok.mpr ⟨?_,
        bind_unit_eq_ok.mpr ⟨?_, bind_eq_ok.mpr ⟨flowId, requiredText_eq_ok.mpr hflow,
          bind_unit_eq_ok.mpr ⟨?_, bind_unit_eq_ok.mpr ⟨?_, ?_⟩⟩⟩⟩⟩⟩⟩⟩
    · rw [rejectIf_eq_ok, hkeys]
      rfl
    · rw [rejectIf_eq_ok, decide_eq_false_iff_not, not_and, not_not]
      exact hretry
    · rw [rejectIf_eq_ok, decide_eq_false_iff_not, not_and]
      exact hrewind
    · exact forM_eq_ok.mpr fun key hkey => optionalText_eq_ok.mpr ⟨htexts.names key hkey, rfl⟩
    · rw [rejectIf_eq_ok]
      cases hfilename : Fields.has arguments "filename" with
      | false => rfl
      | true =>
        cases hfid : Fields.has arguments "fid" with
        | false => rfl
        | true => rw [htexts.agree hfilename hfid]; rfl
    · refine optionalText_eq_ok.mpr ⟨fun hnull => htexts.flowCommit (by simpa using hnull), ?_⟩
      exact bind_eq_ok.mpr ⟨index, requiredInt_iff.mpr hindex, bind_eq_ok.mpr
        ⟨command, requiredText_eq_ok.mpr hcommand, rfl⟩⟩

/-- The captured steps stand where the guard arguments say. -/
structure StepsNamed (mode : ResumeMode) (rewindSteps index : ℤ) (command : String)
    (current target : FlowActionContext) : Prop where
  atIndex : current.actionIndex = index
  atCommand : current.command = command
  distance : target.actionIndex = index - rewindSteps
  retried : mode = .retryCurrent → target = current

theorem parseResumeFlow_eq_ok {terminal : ParsedAction} {parsed : Terminal} :
    parseResumeFlow terminal = .ok parsed ↔
      ∃ mode rewindSteps index command continuation current target,
        parseResumeArguments terminal.arguments = .ok (mode, rewindSteps, index, command) ∧
          Fields.get terminal.raw "continuation_context" = .obj continuation ∧
          hasOnly continuation ["expected_arguments", "current_action", "target_action"] = true ∧
          (Fields.get continuation "expected_arguments").pyEq (.obj terminal.arguments) = true ∧
          (Fields.get terminal.raw "retry_context").isNull = true ∧
          parseContinuationAction (Fields.get continuation "current_action")
            "continuation_context.current_action" = .ok current ∧
          parseContinuationAction (Fields.get continuation "target_action")
            "continuation_context.target_action" = .ok target ∧
          StepsNamed mode rewindSteps index command current target ∧
          parsed = .resumeFlow terminal.arguments mode rewindSteps current target := by
  unfold parseResumeFlow
  dsimp only
  rw [bind_eq_ok]
  constructor
  · intro h
    obtain ⟨⟨mode, rewindSteps, index, command⟩, harguments, h⟩ := h
    dsimp only at h
    cases hcontinuation : Fields.get terminal.raw "continuation_context" with
    | obj continuation =>
      rw [hcontinuation] at h
      obtain ⟨hkeys, h⟩ := bind_unit_eq_ok.mp h
      obtain ⟨hexpected, h⟩ := bind_unit_eq_ok.mp h
      obtain ⟨hretry, h⟩ := bind_unit_eq_ok.mp h
      obtain ⟨current, hcurrent, h⟩ := bind_eq_ok.mp h
      obtain ⟨target, htarget, h⟩ := bind_eq_ok.mp h
      obtain ⟨hpointers, h⟩ := bind_unit_eq_ok.mp h
      obtain ⟨hsame, h⟩ := bind_unit_eq_ok.mp h
      cases h
      rw [rejectIf_eq_ok, Bool.not_eq_false'] at hkeys hexpected hretry
      rw [rejectIf_eq_ok, decide_eq_false_iff_not, not_or, not_or, not_not, not_not, not_not]
        at hpointers
      rw [rejectIf_eq_ok, decide_eq_false_iff_not, not_and, not_not] at hsame
      exact ⟨mode, rewindSteps, index, command, continuation, current, target, harguments, rfl,
        hkeys, hexpected, hretry, hcurrent, htarget,
        ⟨hpointers.1, hpointers.2.1, hpointers.2.2, hsame⟩, rfl⟩
    | _ =>
      rw [hcontinuation] at h
      exact absurd h reject_ne_ok
  · intro h
    obtain ⟨mode, rewindSteps, index, command, continuation, current, target, harguments,
      hcontinuation, hkeys, hexpected, hretry, hcurrent, htarget, hsteps, rfl⟩ := h
    refine ⟨(mode, rewindSteps, index, command), harguments, ?_⟩
    dsimp only
    rw [hcontinuation]
    refine bind_unit_eq_ok.mpr ⟨by rw [hkeys]; rfl, bind_unit_eq_ok.mpr ⟨by rw [hexpected]; rfl,
      bind_unit_eq_ok.mpr ⟨by rw [hretry]; rfl, bind_eq_ok.mpr ⟨current, hcurrent,
        bind_eq_ok.mpr ⟨target, htarget, bind_unit_eq_ok.mpr ⟨?_, bind_unit_eq_ok.mpr
          ⟨?_, rfl⟩⟩⟩⟩⟩⟩⟩
    · rw [rejectIf_eq_ok, decide_eq_false_iff_not, not_or, not_or, not_not, not_not, not_not]
      exact ⟨hsteps.atIndex, hsteps.atCommand, hsteps.distance⟩
    · rw [rejectIf_eq_ok, decide_eq_false_iff_not, not_and, not_not]
      exact hsteps.retried

theorem parseRerun_terminal {terminal : ParsedAction} {parsed : Terminal}
    (h : parseRerun terminal = .ok parsed) :
    ∃ retried expectedNext, parsed = .rerun retried expectedNext := by
  unfold parseRerun at h
  obtain ⟨-, h⟩ := bind_unit_eq_ok.mp h
  obtain ⟨-, h⟩ := bind_unit_eq_ok.mp h
  split at h
  · split at h
    · obtain ⟨-, h⟩ := bind_unit_eq_ok.mp h
      obtain ⟨-, h⟩ := bind_unit_eq_ok.mp h
      obtain ⟨retried, -, h⟩ := bind_eq_ok.mp h
      obtain ⟨expectedNext, -, h⟩ := bind_eq_ok.mp h
      cases h
      exact ⟨retried, expectedNext, rfl⟩
    · exact absurd h reject_ne_ok
  · exact absurd h reject_ne_ok

/-- A continuation that resumes was parsed as one. -/
theorem parseTerminal_resumeFlow {terminal : ParsedAction} {arguments : Fields}
    {mode : ResumeMode} {rewindSteps : ℤ} {current target : FlowActionContext}
    (h : parseTerminal terminal = .ok (.resumeFlow arguments mode rewindSteps current target)) :
    terminal.command ≠ "$rerun" ∧
      parseResumeFlow terminal = .ok (.resumeFlow arguments mode rewindSteps current target) := by
  unfold parseTerminal at h
  split at h
  · obtain ⟨retried, expectedNext, heq⟩ := parseRerun_terminal h
    cases heq
  · next hcommand => exact ⟨hcommand, h⟩

theorem parseContinuationAction_index {value : Json} {name : String}
    {context : FlowActionContext} (h : parseContinuationAction value name = .ok context) :
    0 ≤ context.actionIndex ∧ context.actionIndex ≤ 1000000 := by
  cases value with
  | obj fields => exact (parseContinuationAction_eq_ok.mp h).2.1.2
  | _ => exact absurd h reject_ne_ok

/-- The guard arguments of an accepted plan name its captured steps. -/
theorem parseRecoveryPlan_resume {value : Json} {plan : RecoveryPlan} {arguments : Fields}
    {mode : ResumeMode} {rewindSteps : ℤ} {current target : FlowActionContext}
    (h : parseRecoveryPlan value = .ok plan)
    (hterminal : plan.terminal = .resumeFlow arguments mode rewindSteps current target) :
    ResumeAccepted arguments mode rewindSteps current target := by
  obtain ⟨before, last, rfl⟩ := exists_append_of_parseRecoveryPlan h
  obtain ⟨-, corrections, terminal, -, -, -, -, parsed, hparsed, rfl⟩ :=
    parseRecoveryPlan_append.mp h
  dsimp only at hterminal
  subst hterminal
  obtain ⟨-, hresume⟩ := parseTerminal_resumeFlow hparsed
  obtain ⟨mode', steps', index, command, continuation, current', target', harguments, -, -, -, -,
    -, htarget, hsteps, heq⟩ := parseResumeFlow_eq_ok.mp hresume
  cases heq
  obtain ⟨-, hmode, hrewind, hretry, hrewound, -, hindex, hcommand⟩ :=
    parseResumeArguments_eq_ok.mp harguments
  obtain ⟨rfl, rfl, hposition, hsame⟩ := hsteps
  exact
    { modeText := hmode
      steps := hrewind.1
      near := hrewind.2
      index := hindex.1
      command := hcommand.1
      distance := hposition
      start := (parseContinuationAction_index htarget).1
      retried := fun hmode' => ⟨hretry hmode', hsame hmode'⟩
      rewound := hrewound }

end Resume

end FailureResolver.PlanParsing
