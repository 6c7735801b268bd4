import FailureResolver.EpisodeEvidence
import FailureResolver.RecoveryCoordinator

/-!
The settings of automatic recovery. Robots are named in one canonical way, numbers lie
in their ranges, and where recovery is enabled the lease covers the longest plan there
can be. Accepted settings pass their own check unchanged, and every robot they name is
reached through a socket of its own.
-/

namespace FailureResolver.RecoverySettings

open BinaryFloat EpisodeEvidence PyException PyText RecoveryContract RecoveryCoordinator

section Settings

structure RecoveryExecutionSettings where
  enabled : Bool
  robotAllowlist : List String
  maxAttempts : ℤ
  commandTimeoutSeconds : ℚ
  outcomeTimeoutSeconds : ℚ
  leaseSeconds : ℤ
  cfAccessClientId : String
  cfAccessClientSecret : String
  reconcileLimit : ℤ
  reconcileIntervalSeconds : ℚ
  startGraceSeconds : ℚ

def canonicalRobot (sysid : String) : Except PyExc String :=
  let canonical := upper (strip sysid)
  if isSysid canonical = false then
    refuse "RECOVERY_ROBOT_ALLOWLIST contains an invalid robot sysid"
  else .ok canonical

def addRobot (normalized : List String) (sysid : String) : Except PyExc (List String) := do
  let canonical ← canonicalRobot sysid
  return if canonical ∈ normalized then normalized else normalized ++ [canonical]

def normalizedAllowlist (robots : List String) : Except PyExc (List String) :=
  robots.foldlM addRobot []

def checkEnabled (s : RecoveryExecutionSettings) (robots : List String) : Except PyExc Unit :=
  if robots = [] then
    refuse "RECOVERY_ROBOT_ALLOWLIST is required when RESOLVER_AUTO_EXECUTE=true"
  else if strip s.cfAccessClientId = "" ∨ strip s.cfAccessClientSecret = "" then
    refuse ("RECOVERY_CF_ACCESS_CLIENT_ID and RECOVERY_CF_ACCESS_CLIENT_SECRET are " ++
      "required when RESOLVER_AUTO_EXECUTE=true")
  else do
    let required ← requiredLeaseSeconds 10 s.commandTimeoutSeconds s.outcomeTimeoutSeconds
    if s.leaseSeconds < required then
      refuse ("RECOVERY_LEASE_SECONDS must cover the worst-case 10-command plus Flow-outcome " ++
        "timeout window and safety margin when RESOLVER_AUTO_EXECUTE=true")
    else .ok ()

def checkRanges (s : RecoveryExecutionSettings) : Except PyExc Unit :=
  if ¬ (1 ≤ s.maxAttempts ∧ s.maxAttempts ≤ 20) then
    refuse "RECOVERY_MAX_ATTEMPTS must be between 1 and 20"
  else if s.commandTimeoutSeconds ≤ 0 then
    refuse "RECOVERY_COMMAND_TIMEOUT_SECONDS must be greater than zero"
  else if s.outcomeTimeoutSeconds ≤ 0 then
    refuse "RECOVERY_OUTCOME_TIMEOUT_SECONDS must be greater than zero"
  else if ¬ (5 ≤ s.leaseSeconds ∧ s.leaseSeconds ≤ 900) then
    refuse "RECOVERY_LEASE_SECONDS must be between 5 and 900"
  else if s.reconcileLimit ≤ 0 then refuse "reconcile_limit must be greater than zero"
  else if s.startGraceSeconds < 0 then
    refuse "RECOVERY_START_GRACE_SECONDS must be zero or greater"
  else if s.reconcileIntervalSeconds ≤ 0 ∨ (s.leaseSeconds : ℚ) ≤ s.reconcileIntervalSeconds then
    refuse ("RECOVERY_RECONCILE_INTERVAL_SECONDS must be greater than zero and shorter than " ++
      "RECOVERY_LEASE_SECONDS")
  else .ok ()

def postInit (s : RecoveryExecutionSettings) : Except PyExc RecoveryExecutionSettings := do
  let robots ← normalizedAllowlist s.robotAllowlist
  checkRanges s
  if s.enabled then
    checkEnabled s robots
    return { s with robotAllowlist := robots }
  else return { s with robotAllowlist := robots }

def robotUrl (canonical : String) : String :=
  "wss://" ++ lower canonical ++ ".ws.devices.bellboy.co/?gateway=1"

def robotWebsocketUrl (sysid : String) : Except PyExc String :=
  let canonical := strip sysid
  if isSysid canonical = false then refuse "robot sysid must be a safe hostname label"
  else .ok (robotUrl canonical)

end Settings

section Canonical

variable {s s' : String} {c d : Char}

def isPlainUpper (c : Char) : Bool := c.isUpper || c.isDigit || c = '-'

theorem isUpper_eq : c.isUpper = decide (c.val ≥ 'A'.val ∧ c.val ≤ 'Z'.val) := rfl

theorem isAlphanum_eq :
    c.isAlphanum = (c.isUpper || (c.val ≥ 'a'.val && c.val ≤ 'z'.val) || c.isDigit) := rfl

theorem isPlainUpper_iff : isPlainUpper c = true ↔
    65 ≤ c.toNat ∧ c.toNat ≤ 90 ∨ 48 ≤ c.toNat ∧ c.toNat ≤ 57 ∨ c.toNat = 45 := by
  have hdash : c = '-' ↔ c.toNat = 45 := by
    constructor
    · rintro rfl
      rfl
    · intro h
      exact Char.ext (UInt32.toNat_inj.mp h)
  simp only [isPlainUpper, isUpper_eq, Char.isDigit, Bool.or_eq_true, Bool.and_eq_true,
    decide_eq_true_eq, ge_iff_le, UInt32.le_iff_toNat_le, hdash]
  exact or_assoc

theorem lowerCase_iff : ('a' ≤ c ∧ c ≤ 'z') ↔ 97 ≤ c.toNat ∧ c.toNat ≤ 122 := Iff.rfl

theorem upperCase_iff : ('A' ≤ c ∧ c ≤ 'Z') ↔ 65 ≤ c.toNat ∧ c.toNat ≤ 90 := Iff.rfl

theorem alphanum_iff : (c.isAlphanum || c = '-') = true ↔
    isPlainUpper c = true ∨ 97 ≤ c.toNat ∧ c.toNat ≤ 122 := by
  simp only [isPlainUpper, isAlphanum_eq, Bool.or_eq_true, Bool.and_eq_true, decide_eq_true_eq,
    ge_iff_le, UInt32.le_iff_toNat_le]
  show _ ↔ _ ∨ 97 ≤ c.val.toNat ∧ c.val.toNat ≤ 122
  tauto

theorem foldLigature_plain {n : ℕ} (h : n < 128) : foldLigature n = none := by
  unfold foldLigature
  split <;> first | omega | rfl

theorem upperChar_plain (h : isPlainUpper c = true) : upperChar c = [c] := by
  have hrange := isPlainUpper_iff.mp h
  unfold upperChar
  rw [if_neg (by rw [lowerCase_iff]; omega), if_neg (by omega), if_neg (by omega),
    foldLigature_plain (by omega)]

theorem isSpace_plain (h : isPlainUpper c = true) : isSpace c = false := by
  have hrange := isPlainUpper_iff.mp h
  unfold isSpace
  simp only [Bool.or_eq_false_iff, Bool.and_eq_false_iff, decide_eq_false_iff_not]
  omega

theorem toNat_ofNat_plain : ∀ n < 128, (Char.ofNat n).toNat = n := by decide

theorem foldLigature_capitals {n : ℕ} {letters : String} (h : foldLigature n = some letters) :
    ∀ d ∈ letters.toList.map fun d => Char.ofNat (d.toNat - 32), d.toNat < 97 := by
  unfold foldLigature at h
  split at h <;> cases h <;> decide

/-- The upper case of a character is in no case a small letter of ASCII. -/
theorem plain_of_upperChar (hd : d ∈ upperChar c)
    (hplain : (d.isAlphanum || d = '-') = true) : isPlainUpper d = true := by
  rcases alphanum_iff.mp hplain with hupper | hlower
  · exact hupper
  exfalso
  unfold upperChar at hd
  split at hd
  · next hsmall =>
    rw [lowerCase_iff] at hsmall
    rw [List.mem_singleton] at hd
    subst hd
    rw [toNat_ofNat_plain _ (by omega)] at hlower
    omega
  · next hsmall =>
    rw [lowerCase_iff] at hsmall
    split at hd
    · rw [List.mem_singleton] at hd
      subst hd
      exact absurd hlower (by decide)
    · split at hd
      · rw [List.mem_singleton] at hd
        subst hd
        omega
      · split at hd
        · next letters hfold =>
          have hcapital := foldLigature_capitals hfold d hd
          omega
        · rw [List.mem_singleton] at hd
          subst hd
          omega

theorem upperChar_lowerChar (h : isPlainUpper c = true) : upperChar (lowerChar c) = [c] := by
  have hrange := isPlainUpper_iff.mp h
  unfold lowerChar
  split
  · next hcapital =>
    rw [upperCase_iff] at hcapital
    have hsmall : (Char.ofNat (c.toNat + 32)).toNat = c.toNat + 32 :=
      toNat_ofNat_plain _ (by omega)
    unfold upperChar
    rw [if_pos (by rw [lowerCase_iff, hsmall]; omega), hsmall, Nat.add_sub_cancel,
      Char.ofNat_toNat]
  · rw [if_neg (by omega)]
    exact upperChar_plain h

/-- A robot is named the way its name is kept. -/
structure Canonical (s : String) : Prop where
  sysid : isSysid s = true
  plain : ∀ c ∈ s.toList, isPlainUpper c = true

theorem Canonical.strip_eq (h : Canonical s) : strip s = s := by
  unfold strip
  rw [stripChars_of_ends, String.ofList_toList]
  · intro c hc
    exact isSpace_plain (h.plain c (List.mem_of_mem_head? hc))
  · intro c hc
    exact isSpace_plain (h.plain c (List.mem_of_getLast? hc))

theorem Canonical.upper_eq (h : Canonical s) : upper s = s := by
  have hchars : s.toList.flatMap upperChar = s.toList.flatMap fun c => [c] :=
    List.flatMap_congr fun c hc => upperChar_plain (h.plain c hc)
  unfold upper
  rw [hchars, List.flatMap_singleton', String.ofList_toList]

theorem canonical_upper (h : isSysid (upper s) = true) : Canonical (upper s) := by
  refine ⟨h, fun c hc => ?_⟩
  unfold isSysid at h
  rw [Bool.and_eq_true, List.all_eq_true] at h
  have hplain := h.2 c hc
  unfold upper at hc
  rw [String.toList_ofList, List.mem_flatMap] at hc
  obtain ⟨origin, -, horigin⟩ := hc
  exact plain_of_upperChar horigin hplain

/-- The small letters of a name tell its capital letters. -/
theorem Canonical.upper_lower (h : Canonical s) : upper (lower s) = s := by
  have hchars : (s.toList.map lowerChar).flatMap upperChar = s.toList.flatMap fun c => [c] := by
    rw [List.flatMap_map]
    exact List.flatMap_congr fun c hc => upperChar_lowerChar (h.plain c hc)
  unfold upper lower
  rw [String.toList_ofList, hchars, List.flatMap_singleton', String.ofList_toList]

theorem canonicalRobot_eq_ok : canonicalRobot s = .ok s' ↔
    upper (strip s) = s' ∧ isSysid s' = true := by
  unfold canonicalRobot
  dsimp only
  rw [refuse_ite_eq_ok, Bool.not_eq_false, Except.ok.injEq]
  constructor
  · rintro ⟨hsysid, rfl⟩
    exact ⟨rfl, hsysid⟩
  · rintro ⟨rfl, hsysid⟩
    exact ⟨hsysid, rfl⟩

theorem canonicalRobot_canonical (h : canonicalRobot s = .ok s') : Canonical s' := by
  obtain ⟨rfl, hsysid⟩ := canonicalRobot_eq_ok.mp h
  exact canonical_upper hsysid

theorem Canonical.canonicalRobot_eq (h : Canonical s) : canonicalRobot s = .ok s := by
  refine canonicalRobot_eq_ok.mpr ⟨?_, h.sysid⟩
  rw [h.strip_eq, h.upper_eq]

theorem Canonical.url_inj (h : Canonical s) (h' : Canonical s') (hsame : robotUrl s = robotUrl s') :
    s = s' := by
  unfold robotUrl at hsame
  rw [String.append_left_inj, String.append_right_inj] at hsame
  rw [← h.upper_lower, ← h'.upper_lower, hsame]

theorem Canonical.url (h : Canonical s) : robotWebsocketUrl s = .ok (robotUrl s) := by
  unfold robotWebsocketUrl
  dsimp only
  rw [h.strip_eq]
  exact refuse_ite_eq_ok.mpr ⟨by rw [h.sysid]; simp, rfl⟩

end Canonical

section Allowlist

variable {robots normalized out : List String}

/-- The robots so far, each once and by its canonical name. -/
structure Normal (normalized : List String) : Prop where
  canonical : ∀ robot ∈ normalized, Canonical robot
  nodup : normalized.Nodup

theorem addRobot_normal {robot : String} (hnormal : Normal normalized)
    (h : addRobot normalized robot = .ok out) : Normal out := by
  obtain ⟨canonical, hrobot, h⟩ := bind_eq_ok.mp h
  have hcanonical := canonicalRobot_canonical hrobot
  cases h
  split
  · exact hnormal
  · next hnew =>
    refine ⟨fun name hname => ?_, ?_⟩
    · rcases List.mem_append.mp hname with hbefore | hlast
      · exact hnormal.canonical name hbefore
      · rw [List.mem_singleton] at hlast
        subst hlast
        exact hcanonical
    · refine List.nodup_append.mpr ⟨hnormal.nodup, List.nodup_singleton _, ?_⟩
      rintro name hname _ hlast rfl
      rw [List.mem_singleton] at hlast
      subst hlast
      exact hnew hname

theorem foldlM_addRobot_normal (hnormal : Normal normalized)
    (h : robots.foldlM addRobot normalized = .ok out) : Normal out := by
  induction robots generalizing normalized with
  | nil =>
    cases h
    exact hnormal
  | cons robot robots ih =>
    rw [List.foldlM_cons] at h
    obtain ⟨next, hnext, h⟩ := bind_eq_ok.mp h
    exact ih (addRobot_normal hnormal hnext) h

/-- Names that are canonical and new are taken as they are. -/
theorem foldlM_addRobot_eq (h : Normal (normalized ++ robots)) :
    robots.foldlM addRobot normalized = .ok (normalized ++ robots) := by
  induction robots generalizing normalized with
  | nil =>
    rw [List.append_nil]
    rfl
  | cons robot robots ih =>
    have hcanonical : Canonical robot :=
      h.canonical robot (List.mem_append_right _ List.mem_cons_self)
    have hnew : robot ∉ normalized := by
      intro hold
      exact (List.nodup_append.mp h.nodup).2.2 robot hold robot List.mem_cons_self rfl
    have hadded : addRobot normalized robot = .ok (normalized ++ [robot]) := by
      refine bind_eq_ok.mpr ⟨robot, hcanonical.canonicalRobot_eq, ?_⟩
      rw [if_neg hnew]
      rfl
    have hassoc : normalized ++ robot :: robots = normalized ++ [robot] ++ robots := by
      rw [List.append_assoc, List.singleton_append]
    rw [hassoc] at h ⊢
    rw [List.foldlM_cons]
    exact bind_eq_ok.mpr ⟨_, hadded, ih h⟩

theorem normalizedAllowlist_normal (h : normalizedAllowlist robots = .ok out) : Normal out := by
  refine foldlM_addRobot_normal ⟨fun robot hrobot => ?_, List.nodup_nil⟩ h
  exact absurd hrobot List.not_mem_nil

theorem mapM_robotWebsocketUrl (h : ∀ robot ∈ robots, Canonical robot) :
    robots.mapM robotWebsocketUrl = .ok (robots.map robotUrl) := by
  induction robots with
  | nil => rfl
  | cons robot robots ih =>
    rw [List.forall_mem_cons] at h
    rw [List.mapM_cons, h.1.url, ih h.2]
    rfl

theorem Normal.normalizedAllowlist_eq (h : Normal robots) :
    normalizedAllowlist robots = .ok robots := by
  rw [← List.nil_append robots] at h
  exact foldlM_addRobot_eq h

end Allowlist

section Accepted

variable {s s' : RecoveryExecutionSettings}

theorem postInit_eq_ok : postInit s = .ok s' ↔
    ∃ robots, normalizedAllowlist s.robotAllowlist = .ok robots ∧ checkRanges s = .ok () ∧
      (s.enabled = true → checkEnabled s robots = .ok ()) ∧
      s' = { s with robotAllowlist := robots } := by
  unfold postInit
  rw [bind_eq_ok]
  apply exists_congr
  intro robots
  apply and_congr_right
  intro _
  rw [bind_unit_eq_ok]
  apply and_congr_right
  intro _
  split
  · next henabled =>
    rw [bind_unit_eq_ok]
    constructor
    · rintro ⟨hchecked, h⟩
      cases h
      exact ⟨fun _ => hchecked, rfl⟩
    · rintro ⟨hchecked, rfl⟩
      exact ⟨hchecked henabled, rfl⟩
  · next henabled =>
    constructor
    · intro h
      cases h
      exact ⟨fun htrue => absurd htrue henabled, rfl⟩
    · rintro ⟨-, rfl⟩
      rfl

theorem checkRanges_eq_ok : checkRanges s = .ok () ↔
    (1 ≤ s.maxAttempts ∧ s.maxAttempts ≤ 20) ∧ 0 < s.commandTimeoutSeconds ∧
      0 < s.outcomeTimeoutSeconds ∧ (5 ≤ s.leaseSeconds ∧ s.leaseSeconds ≤ 900) ∧
      0 < s.reconcileLimit ∧ 0 ≤ s.startGraceSeconds ∧
      0 < s.reconcileIntervalSeconds ∧ s.reconcileIntervalSeconds < s.leaseSeconds := by
  unfold checkRanges
  simp only [refuse_ite_eq_ok, not_not, not_le, not_lt, not_or, and_true]

theorem checkEnabled_eq_ok {robots : List String} : checkEnabled s robots = .ok () ↔
    robots ≠ [] ∧ strip s.cfAccessClientId ≠ "" ∧ strip s.cfAccessClientSecret ≠ "" ∧
      ∃ required, requiredLeaseSeconds 10 s.commandTimeoutSeconds s.outcomeTimeoutSeconds =
        .ok required ∧ required ≤ s.leaseSeconds := by
  unfold checkEnabled
  simp only [refuse_ite_eq_ok, bind_eq_ok, not_lt, not_or, and_true, and_assoc, ne_eq]

/-- Accepted settings are checked as they are. -/
theorem postInit_idempotent (h : postInit s = .ok s') : postInit s' = .ok s' := by
  obtain ⟨robots, hrobots, hranges, henabled, rfl⟩ := postInit_eq_ok.mp h
  have hnormal := normalizedAllowlist_normal hrobots
  exact postInit_eq_ok.mpr ⟨robots, hnormal.normalizedAllowlist_eq, hranges, henabled, rfl⟩

structure AcceptedSettings where
  raw : RecoveryExecutionSettings
  accepted : postInit raw = .ok raw

theorem AcceptedSettings.ranges (s : AcceptedSettings) : checkRanges s.raw = .ok () := by
  obtain ⟨robots, -, hranges, -, -⟩ := postInit_eq_ok.mp s.accepted
  exact hranges

def AcceptedSettings.execution (s : AcceptedSettings) : Settings where
  enabled := s.raw.enabled
  robotAllowlist := s.raw.robotAllowlist
  maxAttempts := s.raw.maxAttempts
  commandTimeoutSeconds := s.raw.commandTimeoutSeconds
  outcomeTimeoutSeconds := s.raw.outcomeTimeoutSeconds
  leaseSeconds := s.raw.leaseSeconds
  startGraceSeconds := s.raw.startGraceSeconds
  maxAttempts_range := (checkRanges_eq_ok.mp s.ranges).1
  commandTimeout_pos := (checkRanges_eq_ok.mp s.ranges).2.1
  outcomeTimeout_pos := (checkRanges_eq_ok.mp s.ranges).2.2.1
  lease_range := (checkRanges_eq_ok.mp s.ranges).2.2.2.1
  startGrace_nonneg := (checkRanges_eq_ok.mp s.ranges).2.2.2.2.2.1

/-- What the float sum of the longest plan may miss of it, in seconds. -/
def roundingSlack : ℚ := 1 / 2 ^ 41

theorem requiredLeaseSeconds_covers {commands : ℕ} {command outcome : ℚ} {required lease : ℤ}
    (hcommand : 0 < command) (houtcome : 0 < outcome)
    (h : requiredLeaseSeconds commands command outcome = .ok required) (hlease : required ≤ lease)
    (hrange : lease ≤ 900) :
    commands * command + outcome + 5 ≤ lease + roundingSlack := by
  unfold requiredLeaseSeconds at h
  dsimp only at h
  split at h
  · next seconds hseconds =>
    obtain ⟨dispatch, hdispatch, hseconds⟩ := Option.bind_eq_some_iff.mp hseconds
    obtain ⟨observation, hobservation, hseconds⟩ := Option.bind_eq_some_iff.mp hseconds
    have hdispatched := nearest_nonneg hdispatch
    have hobserved := nearest_nonneg hobservation
    have hfirst := le_nearest (by positivity) hdispatch
    have hsecond := le_nearest (by positivity) hobservation
    have hthird := le_nearest (by positivity) hseconds
    have hceil : seconds ≤ (lease : ℚ) :=
      (Int.le_ceil seconds).trans (by exact_mod_cast (Except.ok.inj h).trans_le hlease)
    have hrange' : (lease : ℚ) ≤ 900 := by exact_mod_cast hrange
    have htiny : (2 : ℚ) ^ (-1075 : ℤ) ≤ 1 / 2 ^ 60 := by
      have hmono : (2 : ℚ) ^ (-1075 : ℤ) ≤ (2 : ℚ) ^ (-60 : ℤ) :=
        zpow_le_zpow_right₀ (by norm_num) (by norm_num)
      exact hmono.trans_eq (by norm_num)
    generalize (2 : ℚ) ^ (-1075 : ℤ) = tiny at hfirst hsecond hthird htiny
    unfold roundingSlack
    linarith
  · cases h

/-- The lease covers ten commands, the outcome of the Flow and five seconds, but for what
the float sum misses. -/
theorem AcceptedSettings.covers (s : AcceptedSettings) (h : s.raw.enabled = true) :
    10 * s.raw.commandTimeoutSeconds + s.raw.outcomeTimeoutSeconds + 5 ≤
      s.raw.leaseSeconds + roundingSlack := by
  obtain ⟨robots, -, -, henabled, -⟩ := postInit_eq_ok.mp s.accepted
  obtain ⟨-, hcommand, houtcome, hrange, -⟩ := checkRanges_eq_ok.mp s.ranges
  obtain ⟨-, -, -, required, hrequired, hlease⟩ := checkEnabled_eq_ok.mp (henabled h)
  exact_mod_cast requiredLeaseSeconds_covers hcommand houtcome hrequired hlease hrange.2

/-- Settings that are accepted are accepted again as they are, and the robots they name
have different sockets. -/
theorem accepted_settings_canonical (h : postInit s = .ok s') :
    postInit s' = .ok s' ∧ ∃ urls,
      s'.robotAllowlist.mapM robotWebsocketUrl = .ok urls ∧ urls.Nodup := by
  refine ⟨postInit_idempotent h, ?_⟩
  obtain ⟨robots, hrobots, -, -, rfl⟩ := postInit_eq_ok.mp h
  have hnormal := normalizedAllowlist_normal hrobots
  refine ⟨robots.map robotUrl, mapM_robotWebsocketUrl hnormal.canonical, ?_⟩
  refine hnormal.nodup.map_on fun robot hrobot other hother hsame => ?_
  exact (hnormal.canonical robot hrobot).url_inj (hnormal.canonical other hother) hsame

def twoRobots : RecoveryExecutionSettings where
  enabled := true
  robotAllowlist := [" robot-1", "ROBOT-1", "robot-2"]
  maxAttempts := 3
  commandTimeoutSeconds := 15
  outcomeTimeoutSeconds := 60
  leaseSeconds := 300
  cfAccessClientId := "id"
  cfAccessClientSecret := "secret"
  reconcileLimit := 500
  reconcileIntervalSeconds := 30
  startGraceSeconds := 5

theorem postInit_twoRobots : postInit twoRobots =
    .ok { twoRobots with robotAllowlist := ["ROBOT-1", "ROBOT-2"] } := by
  refine postInit_eq_ok.mpr ⟨_, by decide +kernel, ?_, fun _ => ?_, rfl⟩
  · exact checkRanges_eq_ok.mpr (by norm_num [twoRobots])
  · exact checkEnabled_eq_ok.mpr ⟨by simp, by decide +kernel, by decide +kernel, 215,
      by decide +kernel, by decide +kernel⟩

theorem accepted_settings_canonical_twoRobots :
    postInit twoRobots = .ok { twoRobots with robotAllowlist := ["ROBOT-1", "ROBOT-2"] } ∧
      ∃ urls, ["ROBOT-1", "ROBOT-2"].mapM robotWebsocketUrl = .ok urls ∧ urls.Nodup :=
  ⟨postInit_twoRobots, (accepted_settings_canonical postInit_twoRobots).2⟩

def AcceptedSettings.twoRobots : AcceptedSettings :=
  ⟨_, postInit_idempotent postInit_twoRobots⟩

end Accepted

end FailureResolver.RecoverySettings
