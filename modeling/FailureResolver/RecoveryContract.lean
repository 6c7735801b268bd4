import FailureResolver.JsonValue
import FailureResolver.PyException
import FailureResolver.PyText
import Mathlib.Tactic.SplitIfs

/-!
Parsing of untrusted recovery rows. A failure row gives the failed Flow step and
its candidate suggestion; a session row gives the pinned plan, its lifecycle and
its attempt budget. Everything that is not exactly of the contract is rejected.
-/

namespace FailureResolver.RecoveryContract

open JsonValue PyException PyText

def sessionStatuses : List String :=
  ["ready", "running", "awaiting_outcome", "recovered", "failed", "unknown", "timed_out",
    "cancelled"]

def terminalSessionStatuses : List String := ["recovered", "unknown", "timed_out", "cancelled"]

def maxActions : ℕ := 10
def maxRewindSteps : ℤ := 5
def maxCommandLength : ℕ := 128

section Fields

def requiredText (value : Json) (name : String) (maxLength : ℕ) : Except PyExc String :=
  match value with
  | .str s =>
      if ¬ Trimmed s then reject s!"{name} must be non-empty trimmed text"
      else if maxLength < s.length then reject s!"{name} is too long"
      else .ok s
  | _ => reject s!"{name} must be non-empty trimmed text"

def requiredInt (value : Json) (name : String) (minimum maximum : ℤ) : Except PyExc ℤ :=
  match value with
  | .int n =>
      if minimum ≤ n ∧ n ≤ maximum then .ok n
      else reject s!"{name} must be between {minimum} and {maximum}"
  | _ => reject s!"{name} must be an integer"

/-- One position of the UUID pattern: the version, the variant, a hyphen or a
hexadecimal digit. -/
def uuidPosition (pattern c : Char) : Bool :=
  match pattern with
  | '-' => c = '-'
  | 'v' => '1' ≤ c && c ≤ '5'
  | 'w' => c = '8' || c = '9' || c = 'a' || c = 'b'
  | _ => isLowerHex c

def uuidPattern : List Char := "hhhhhhhh-hhhh-vhhh-whhh-hhhhhhhhhhhh".toList

def isUuid (s : String) : Bool :=
  s.toList.length = uuidPattern.length &&
    (List.zipWith uuidPosition uuidPattern s.toList).all id

def uuidText (value : Json) : Option String :=
  match value with
  | .str s => if isUuid (lower (strip s)) then some (lower (strip s)) else none
  | _ => none

theorem uuidPosition_plain {pattern c : Char} (h : uuidPosition pattern c = true) :
    isSpace c = false ∧ lowerChar c = c := by
  have hbounds : (48 ≤ c.toNat ∧ c.toNat ≤ 57) ∨ (97 ≤ c.toNat ∧ c.toNat ≤ 122) ∨
      c.toNat = 45 := by
    unfold uuidPosition at h
    split at h
    · have hc : c = '-' := by simpa using h
      rw [hc]
      decide
    · have hc : '1' ≤ c ∧ c ≤ '5' := by simpa using h
      have hlow : 49 ≤ c.toNat := hc.1
      have hhigh : c.toNat ≤ 53 := hc.2
      omega
    · have hc : ((c = '8' ∨ c = '9') ∨ c = 'a') ∨ c = 'b' := by simpa using h
      rcases hc with ((rfl | rfl) | rfl) | rfl <;> decide
    · simp only [isLowerHex, Char.isDigit, Bool.or_eq_true, Bool.and_eq_true,
        decide_eq_true_eq] at h
      rcases h with ⟨hlow, hhigh⟩ | ⟨hlow, hhigh⟩
      · exact .inl ⟨hlow, hhigh⟩
      · have hlow' : 97 ≤ c.toNat := hlow
        have hhigh' : c.toNat ≤ 102 := hhigh
        omega
  constructor
  · simp only [isSpace, Bool.or_eq_false_iff, Bool.and_eq_false_iff, decide_eq_false_iff_not]
    omega
  · unfold lowerChar
    have hcapital : ¬ ('A' ≤ c ∧ c ≤ 'Z') := by
      intro hc
      have hlow : 65 ≤ c.toNat := hc.1
      have hhigh : c.toNat ≤ 90 := hc.2
      omega
    rw [if_neg hcapital, if_neg (by omega)]

theorem isUuid_plain {s : String} (h : isUuid s = true) :
    ∀ c ∈ s.toList, isSpace c = false ∧ lowerChar c = c := by
  simp only [isUuid, Bool.and_eq_true, decide_eq_true_eq] at h
  obtain ⟨hlength, hall⟩ := h
  intro c hc
  obtain ⟨i, hi, rfl⟩ := List.mem_iff_getElem.mp hc
  have hi' : i < (List.zipWith uuidPosition uuidPattern s.toList).length := by
    rw [List.length_zipWith]
    omega
  have hposition := List.all_eq_true.mp hall _ (List.getElem_mem hi')
  rw [List.getElem_zipWith] at hposition
  exact uuidPosition_plain hposition

/-- A canonical UUID is its own canonical form. -/
theorem uuidText_canonical {value : Json} {s : String} (h : uuidText value = some s) :
    uuidText (.str s) = some s := by
  have huuid : isUuid s = true := by
    cases value with
    | str text =>
      simp only [uuidText, Option.ite_none_right_eq_some, Option.some.injEq] at h
      rw [← h.2]
      exact h.1
    | _ => cases h
  have hplain := isUuid_plain huuid
  have hstripChars : stripChars s.toList = s.toList := by
    apply stripChars_of_ends
    · intro c hc
      exact (hplain c (List.mem_of_mem_head? hc)).1
    · intro c hc
      exact (hplain c (List.mem_of_getLast? hc)).1
  have hstrip : strip s = s := by
    rw [strip, hstripChars, String.ofList_toList]
  have hlower : lower s = s := by
    unfold lower
    rw [List.map_congr_left fun c hc => (hplain c hc).2, List.map_id', String.ofList_toList]
  simp only [uuidText, hstrip, hlower, huuid, if_true]

def requiredUuid (value : Json) (name : String) : Except PyExc String :=
  match uuidText value with
  | some parsed => .ok parsed
  | none => reject s!"{name} must be a UUID"

def isSysid (s : String) : Bool :=
  1 ≤ s.length && s.length ≤ 64 && s.toList.all (fun c => c.isAlphanum || c = '-')

theorem contractOnly_requiredText (value : Json) (name : String) (maxLength : ℕ) :
    ContractOnly (requiredText value name maxLength) := by
  unfold requiredText
  split
  · split_ifs <;> first | exact contractOnly_reject _ | exact contractOnly_ok _
  · exact contractOnly_reject _

theorem contractOnly_requiredInt (value : Json) (name : String) (minimum maximum : ℤ) :
    ContractOnly (requiredInt value name minimum maximum) := by
  unfold requiredInt
  split
  · split_ifs
    · exact contractOnly_ok _
    · exact contractOnly_reject _
  · exact contractOnly_reject _

end Fields

section Rows

/-- The step a recovery is about; recoveries are exclusive per step. -/
structure PointerKey where
  sysid : String
  flowId : String
  actionIndex : ℤ
  actionCommand : String
  deriving DecidableEq

structure FailurePointerTarget where
  failureId : String
  sysid : String
  flowId : String
  actionIndex : ℤ
  actionCommand : String
  recoveryEpisodeKey : String
  recoverySessionId : Option String
  recoveryStatus : Option String

def FailurePointerTarget.pointerKey (target : FailurePointerTarget) : PointerKey :=
  ⟨target.sysid, target.flowId, target.actionIndex, target.actionCommand⟩

structure FailureRecoveryTarget extends FailurePointerTarget where
  resolverSuggestion : Fields

structure RecoverySessionRecord where
  recoverySessionId : String
  rootFailureId : String
  currentFailureId : String
  sysid : String
  flowId : String
  actionIndex : ℤ
  actionCommand : String
  pinnedMemoryId : String
  pinnedActions : List Fields
  pinnedActionsHash : String
  recoveryStatus : String
  recoveryAttempts : ℤ
  recoveryMaxAttempts : ℤ
  recoveryRewindSteps : ℤ
  recoveryRunToken : Option String

def RecoverySessionRecord.pointerKey (record : RecoverySessionRecord) : PointerKey :=
  ⟨record.sysid, record.flowId, record.actionIndex, record.actionCommand⟩

/-- `str(row.get(key) or "").strip()` for a text column. -/
def strippedColumn (row : Fields) (key : String) : String :=
  match row.get key with
  | .str s => strip s
  | _ => ""

def optional {α : Type} (value : Json) (parse : Json → Except PyExc α) : Except PyExc (Option α) :=
  if value.isNull then .ok none else (parse value).map some

def parseRecoveryStatus (value : Json) : Except PyExc String := do
  let status ← requiredText value "recovery_status" 32
  rejectIf (status ∉ sessionStatuses) "recovery_status is invalid"
  return status

def parseFailurePointerTarget (row : Fields) : Except PyExc FailurePointerTarget := do
  let failureId ← requiredUuid (row.get "failure_id") "failure_id"
  let sysid := upper (← requiredText (row.get "sysid") "sysid" 64)
  rejectIf (!isSysid sysid) "sysid is invalid"
  let flowId ← requiredText (row.get "flow_id") "flow_id" 300
  let actionIndex ← requiredInt (row.get "action_index") "action_index" 0 1000000
  let actionCommand ← requiredText (row.get "action_command") "action_command" maxCommandLength
  let episodeKey ← requiredText (row.get "recovery_episode_key") "recovery_episode_key" 64
  rejectIf (!isHash episodeKey) "recovery_episode_key is invalid"
  let recoveryStatus ← optional (row.get "recovery_status") parseRecoveryStatus
  let sessionId ← optional (row.get "recovery_session_id")
    (fun value => requiredUuid value "recovery_session_id")
  return {
    failureId, sysid, flowId, actionIndex, actionCommand
    recoveryEpisodeKey := episodeKey
    recoverySessionId := sessionId
    recoveryStatus }

def parseFailureRecoveryTarget (row : Fields) : Except PyExc FailureRecoveryTarget := do
  let target ← parseFailurePointerTarget row
  rejectIf (strippedColumn row "analysis_status" ≠ "completed")
    "failure analysis is not completed"
  rejectIf (strippedColumn row "matcher_status" ≠ "solution_found")
    "failure has no pinned solution candidate"
  match row.get "resolver_suggestion" with
  | .obj suggestion =>
      let _ ← requiredText (Fields.get suggestion "memory_id") "resolver_suggestion.memory_id" 300
      return { target with resolverSuggestion := suggestion }
  | _ => reject "resolver_suggestion must be an object"

def asObjects : List Json → Option (List Fields)
  | [] => some []
  | .obj fields :: rest => (asObjects rest).map (fields :: ·)
  | _ :: _ => none

def parsePinnedActions (value : Json) : Except PyExc (List Fields) :=
  match value with
  | .arr actions =>
      if actions.length < 1 ∨ maxActions < actions.length then
        reject "pinned_actions must contain 1 to 10 actions"
      else match asObjects actions with
        | some objects => .ok objects
        | none => reject "pinned_actions contains a non-object"
  | _ => reject "pinned_actions must contain 1 to 10 actions"

/-- Which attempt counts and run tokens a status may come with. -/
def checkLifecycle (status : String) (attempts maxAttempts : ℤ) (runToken : Option String) :
    Except PyExc Unit := do
  rejectIf (status = "ready" ∧ (attempts ≠ 0 ∨ runToken.isSome))
    "ready recovery session lifecycle is invalid"
  rejectIf (status ∈ ["running", "awaiting_outcome"] ∧ (attempts < 1 ∨ runToken.isNone))
    "active recovery session lifecycle is invalid"
  rejectIf (status = "failed" ∧ (attempts < 1 ∨ maxAttempts ≤ attempts ∨ runToken.isNone))
    "failed recovery session lifecycle is invalid"
  rejectIf (status ∈ ["recovered", "unknown"] ∧ (attempts < 1 ∨ runToken.isNone))
    "terminal recovery session lifecycle is invalid"
  rejectIf (status = "timed_out" ∧ (attempts ≠ maxAttempts ∨ runToken.isNone))
    "timed_out recovery lifecycle is invalid"

def checkRunToken (status : String) (runToken : Option String) (requireRunToken : Bool) :
    Except PyExc Unit := do
  rejectIf (requireRunToken ∧ status ∉ ["running", "awaiting_outcome"])
    "claimed session is not active"
  rejectIf (requireRunToken ∧ runToken.isNone) "claimed session has no run token"

/-- The suggestion the plan was pinned from still names the same memory and
carries the same actions. -/
def checkPinnedSuggestion (value actions : Json) (pinnedMemoryId : String) :
    Except PyExc Unit :=
  match value with
  | .obj suggestion => do
      rejectIf (!(Fields.get suggestion "memory_id").pyEq (.str pinnedMemoryId))
        "pinned memory identity does not match"
      rejectIf (!(Fields.get suggestion "actions").pyEq actions)
        "pinned action copies do not match"
  | _ => reject "pinned_resolver_suggestion is invalid"

def parseRecoverySession (row : Fields) (requireRunToken : Bool) :
    Except PyExc RecoverySessionRecord := do
  let status ← parseRecoveryStatus (row.get "recovery_status")
  let actions ← parsePinnedActions (row.get "pinned_actions")
  let attempts ← requiredInt (row.get "recovery_attempts") "recovery_attempts" 0 20
  let maxAttempts ← requiredInt (row.get "recovery_max_attempts") "recovery_max_attempts" 1 20
  rejectIf (maxAttempts < attempts) "recovery_attempts exceeds its maximum"
  let rewindSteps ← requiredInt (row.get "recovery_rewind_steps") "recovery_rewind_steps" 0
    maxRewindSteps
  let runToken ← optional (row.get "recovery_run_token")
    (fun value => requiredUuid value "recovery_run_token")
  checkRunToken status runToken requireRunToken
  checkLifecycle status attempts maxAttempts runToken
  let actionsHash ← requiredText (row.get "pinned_actions_hash") "pinned_actions_hash" 64
  rejectIf (!isHash actionsHash) "pinned_actions_hash is invalid"
  let pinnedMemoryId ← requiredText (row.get "pinned_memory_id") "pinned_memory_id" 300
  checkPinnedSuggestion (row.get "pinned_resolver_suggestion") (row.get "pinned_actions")
    pinnedMemoryId
  let rootEpisodeKey ← requiredText (row.get "root_episode_key") "root_episode_key" 64
  rejectIf (!isHash rootEpisodeKey) "root_episode_key is invalid"
  let sysid := upper (← requiredText (row.get "sysid") "sysid" 64)
  rejectIf (!isSysid sysid) "recovery session sysid is invalid"
  let recoverySessionId ← requiredUuid (row.get "recovery_session_id") "recovery_session_id"
  let rootFailureId ← requiredUuid (row.get "root_failure_id") "root_failure_id"
  let currentFailureId ← requiredUuid (row.get "current_failure_id") "current_failure_id"
  let flowId ← requiredText (row.get "flow_id") "flow_id" 300
  let actionIndex ← requiredInt (row.get "action_index") "action_index" 0 1000000
  let actionCommand ← requiredText (row.get "action_command") "action_command" maxCommandLength
  return {
    recoverySessionId, rootFailureId, currentFailureId, sysid, flowId, actionIndex, actionCommand
    pinnedMemoryId
    pinnedActions := actions
    pinnedActionsHash := actionsHash
    recoveryStatus := status
    recoveryAttempts := attempts
    recoveryMaxAttempts := maxAttempts
    recoveryRewindSteps := rewindSteps
    recoveryRunToken := runToken }

theorem contractOnly_requiredUuid (value : Json) (name : String) :
    ContractOnly (requiredUuid value name) := by
  unfold requiredUuid
  split
  · exact contractOnly_ok _
  · exact contractOnly_reject _

theorem contractOnly_optionalUuid (value : Json) (name : String) :
    ContractOnly (optional value (fun value => requiredUuid value name)) := by
  unfold optional
  split
  · exact contractOnly_ok _
  · exact (contractOnly_requiredUuid value name).map some

theorem contractOnly_parsePinnedActions (value : Json) :
    ContractOnly (parsePinnedActions value) := by
  unfold parsePinnedActions
  split
  · split_ifs
    · exact contractOnly_reject _
    · split
      · exact contractOnly_ok _
      · exact contractOnly_reject _
  · exact contractOnly_reject _

theorem contractOnly_checkPinnedSuggestion (value actions : Json) (pinnedMemoryId : String) :
    ContractOnly (checkPinnedSuggestion value actions pinnedMemoryId) := by
  unfold checkPinnedSuggestion
  split
  · exact .bind (contractOnly_rejectIf _ _) fun _ _ => contractOnly_rejectIf _ _
  · exact contractOnly_reject _

/-- A session row is parsed or refused; nothing else is raised. -/
theorem contractOnly_parseRecoverySession (row : Fields) (requireRunToken : Bool) :
    ContractOnly (parseRecoverySession row requireRunToken) := by
  unfold parseRecoverySession parseRecoveryStatus checkRunToken checkLifecycle
  refine .bind (.bind (contractOnly_requiredText _ _ _) fun _ _ => .bind
    (contractOnly_rejectIf _ _) fun _ _ => contractOnly_ok _) fun status _ => ?_
  refine .bind (contractOnly_parsePinnedActions _) fun actions _ => ?_
  refine .bind (contractOnly_requiredInt _ _ _ _) fun attempts _ => ?_
  refine .bind (contractOnly_requiredInt _ _ _ _) fun maxAttempts _ => ?_
  refine .bind (contractOnly_rejectIf _ _) fun _ _ => ?_
  refine .bind (contractOnly_requiredInt _ _ _ _) fun rewindSteps _ => ?_
  refine .bind (contractOnly_optionalUuid _ _) fun runToken _ => ?_
  refine .bind (.bind (contractOnly_rejectIf _ _) fun _ _ => contractOnly_rejectIf _ _)
    fun _ _ => ?_
  refine .bind (.bind (contractOnly_rejectIf _ _) fun _ _ => .bind (contractOnly_rejectIf _ _)
    fun _ _ => .bind (contractOnly_rejectIf _ _) fun _ _ => .bind (contractOnly_rejectIf _ _)
    fun _ _ => contractOnly_rejectIf _ _) fun _ _ => ?_
  refine .bind (contractOnly_requiredText _ _ _) fun actionsHash _ => ?_
  refine .bind (contractOnly_rejectIf _ _) fun _ _ => ?_
  refine .bind (contractOnly_requiredText _ _ _) fun pinnedMemoryId _ => ?_
  refine .bind (contractOnly_checkPinnedSuggestion _ _ _) fun _ _ => ?_
  refine .bind (contractOnly_requiredText _ _ _) fun rootEpisodeKey _ => ?_
  refine .bind (contractOnly_rejectIf _ _) fun _ _ => ?_
  refine .bind (contractOnly_requiredText _ _ _) fun sysid _ => ?_
  refine .bind (contractOnly_rejectIf _ _) fun _ _ => ?_
  refine .bind (contractOnly_requiredUuid _ _) fun recoverySessionId _ => ?_
  refine .bind (contractOnly_requiredUuid _ _) fun rootFailureId _ => ?_
  refine .bind (contractOnly_requiredUuid _ _) fun currentFailureId _ => ?_
  refine .bind (contractOnly_requiredText _ _ _) fun flowId _ => ?_
  refine .bind (contractOnly_requiredInt _ _ _ _) fun actionIndex _ => ?_
  exact .bind (contractOnly_requiredText _ _ _) fun actionCommand _ => contractOnly_ok _

structure SessionAccepted (row : Fields) (requireRunToken : Bool)
    (record : RecoverySessionRecord) : Prop where
  status : parseRecoveryStatus (row.get "recovery_status") = .ok record.recoveryStatus
  attempts : requiredInt (row.get "recovery_attempts") "recovery_attempts" 0 20 =
    .ok record.recoveryAttempts
  maxAttempts : requiredInt (row.get "recovery_max_attempts") "recovery_max_attempts" 1 20 =
    .ok record.recoveryMaxAttempts
  budget : record.recoveryAttempts ≤ record.recoveryMaxAttempts
  runToken : optional (row.get "recovery_run_token")
    (fun value => requiredUuid value "recovery_run_token") = .ok record.recoveryRunToken
  claimed : checkRunToken record.recoveryStatus record.recoveryRunToken requireRunToken = .ok ()
  lifecycle : checkLifecycle record.recoveryStatus record.recoveryAttempts
    record.recoveryMaxAttempts record.recoveryRunToken = .ok ()

theorem parseRecoverySession_accepted {row : Fields} {requireRunToken : Bool}
    {record : RecoverySessionRecord} (h : parseRecoverySession row requireRunToken = .ok record) :
    SessionAccepted row requireRunToken record := by
  unfold parseRecoverySession at h
  obtain ⟨status, hstatus, h⟩ := bind_eq_ok.mp h
  obtain ⟨actions, -, h⟩ := bind_eq_ok.mp h
  obtain ⟨attempts, hattempts, h⟩ := bind_eq_ok.mp h
  obtain ⟨maxAttempts, hmax, h⟩ := bind_eq_ok.mp h
  obtain ⟨hbudget, h⟩ := bind_unit_eq_ok.mp h
  obtain ⟨rewindSteps, -, h⟩ := bind_eq_ok.mp h
  obtain ⟨runToken, htoken, h⟩ := bind_eq_ok.mp h
  obtain ⟨hclaimed, h⟩ := bind_unit_eq_ok.mp h
  obtain ⟨hlifecycle, h⟩ := bind_unit_eq_ok.mp h
  obtain ⟨actionsHash, -, h⟩ := bind_eq_ok.mp h
  obtain ⟨-, h⟩ := bind_unit_eq_ok.mp h
  obtain ⟨pinnedMemoryId, -, h⟩ := bind_eq_ok.mp h
  obtain ⟨-, h⟩ := bind_unit_eq_ok.mp h
  obtain ⟨rootEpisodeKey, -, h⟩ := bind_eq_ok.mp h
  obtain ⟨-, h⟩ := bind_unit_eq_ok.mp h
  obtain ⟨sysid, -, h⟩ := bind_eq_ok.mp h
  obtain ⟨-, h⟩ := bind_unit_eq_ok.mp h
  obtain ⟨sessionId, -, h⟩ := bind_eq_ok.mp h
  obtain ⟨rootFailureId, -, h⟩ := bind_eq_ok.mp h
  obtain ⟨currentFailureId, -, h⟩ := bind_eq_ok.mp h
  obtain ⟨flowId, -, h⟩ := bind_eq_ok.mp h
  obtain ⟨actionIndex, -, h⟩ := bind_eq_ok.mp h
  obtain ⟨actionCommand, -, h⟩ := bind_eq_ok.mp h
  cases h
  have hwithin : attempts ≤ maxAttempts := by simpa using hbudget
  exact ⟨hstatus, hattempts, hmax, hwithin, htoken, hclaimed, hlifecycle⟩

theorem requiredInt_eq_ok {value : Json} {name : String} {minimum maximum n : ℤ}
    (h : requiredInt value name minimum maximum = .ok n) :
    value = .int n ∧ minimum ≤ n ∧ n ≤ maximum := by
  unfold requiredInt at h
  split at h
  · split_ifs at h with hrange
    · cases h
      exact ⟨rfl, hrange⟩
    · exact absurd h reject_ne_ok
  · exact absurd h reject_ne_ok

/-- A claimed row that parses carries its run token in canonical form. -/
theorem parseRecoverySession_runToken {row : Fields} {record : RecoverySessionRecord}
    (h : parseRecoverySession row true = .ok record) :
    ∃ runToken, record.recoveryRunToken = some runToken ∧
      uuidText (row.get "recovery_run_token") = some runToken := by
  have haccepted := parseRecoverySession_accepted h
  cases htoken : record.recoveryRunToken with
  | none =>
    have hclaimed := haccepted.claimed
    rw [htoken] at hclaimed
    simp [checkRunToken] at hclaimed
  | some runToken =>
    refine ⟨runToken, rfl, ?_⟩
    have hparsed := haccepted.runToken
    rw [htoken] at hparsed
    unfold optional requiredUuid at hparsed
    split at hparsed
    · cases hparsed
    · cases huuid : uuidText (row.get "recovery_run_token") with
      | none => simp [huuid, reject, Except.map] at hparsed
      | some parsed => simpa [huuid, Except.map] using hparsed

end Rows

end FailureResolver.RecoveryContract
