import FailureResolver.JsonText
import FailureResolver.PyException
import FailureResolver.PyText

/-!
Episode evidence: source rows without credentials and without the resolver's own
bookkeeping. Nothing is truncated; what exceeds a bound is refused. A sanitized
value is its own sanitized value, in whatever order its members stand.
-/

namespace FailureResolver.EpisodeEvidence

open JsonValue JsonText PyException PyText

def maxEpisodeEvidenceChars : ℕ := 160000
def maxEpisodeStringChars : ℕ := 32000
def maxEpisodeCollectionItems : ℕ := 4096
def maxEpisodeDepth : ℕ := 16

def sensitiveKeyParts : List String :=
  ["api_key", "apikey", "authorization", "client_secret", "cookie", "credential", "passwd",
    "password", "private_key", "service_role"]

def resolverBookkeepingKeys : List String :=
  ["matcher_status", "matcher_message", "resolver_suggestion", "memory_status",
    "memory_resolution_id", "memory_commit_sha", "memory_message", "memory_ingested_at",
    "updated_at"]

def valueError (message : String) : PyExc := ⟨.value, message⟩

def refuse {α : Type} (message : String) : Except PyExc α := .error (valueError message)

theorem refuse_ite_eq_ok {α : Type} {p : Prop} [Decidable p] {message : String}
    {x : Except PyExc α} {a : α} :
    (if p then refuse message else x) = .ok a ↔ ¬ p ∧ x = .ok a := by
  split <;> simp_all [refuse]

theorem map_eq_ok {α β : Type} {f : α → β} {x : Except PyExc α} {b : β} :
    x.map f = .ok b ↔ ∃ a, x = .ok a ∧ f a = b := by
  cases x <;> simp [Except.map]

def normalizedKey (key : String) : List Char :=
  (lower (strip key)).toList.map (fun c => if c = '-' then '_' else c)

def isSensitiveKey (key : String) : Bool :=
  let normalized := normalizedKey key
  resolverBookkeepingKeys.any (fun name => name.toList = normalized) ||
    normalized = "operator_email".toList || "_email".toList.isSuffixOf normalized ||
    normalized = "token".toList || "token_".toList.isPrefixOf normalized ||
    "_token".toList.isSuffixOf normalized ||
    sensitiveKeyParts.any (fun part => decide (part.toList <:+: normalized))

def sanitizeScalar : Json → Except PyExc Json
  | .str s =>
      if maxEpisodeStringChars < s.length then refuse "episode evidence contains oversized text"
      else .ok (.str s)
  | .float x =>
      if BinaryFloat.isFinite x then .ok (.float x)
      else refuse "episode evidence contains a non-finite number"
  | value => .ok value

mutual

def sanitizeValue (depth : ℕ) (value : Json) : Except PyExc Json :=
  if maxEpisodeDepth < depth then refuse "episode evidence exceeds the maximum depth"
  else match value with
    | .obj members =>
        if maxEpisodeCollectionItems < members.length then
          refuse "episode evidence object has too many fields"
        else (sanitizeMembers (depth + 1) members).map .obj
    | .arr items =>
        if maxEpisodeCollectionItems < items.length then
          refuse "episode evidence array has too many items"
        else (sanitizeItems (depth + 1) items).map .arr
    | value => sanitizeScalar value

def sanitizeItems (depth : ℕ) : List Json → Except PyExc (List Json)
  | [] => .ok []
  | x :: xs => do
      let x ← sanitizeValue depth x
      let xs ← sanitizeItems depth xs
      return x :: xs

def sanitizeMembers (depth : ℕ) : List (String × Json) → Except PyExc Fields
  | [] => .ok []
  | (key, x) :: rest =>
      if isSensitiveKey key then sanitizeMembers depth rest
      else do
        let x ← sanitizeValue depth x
        let rest ← sanitizeMembers depth rest
        return (key, x) :: rest

end

def sanitizeEpisodeRecord (record : Fields) : Except PyExc Json := sanitizeValue 0 (.obj record)

/-- Sanitize and size-check a structured evidence object. -/
def validateEpisodeEvidence (value : Json) : Except PyExc Fields := do
  match ← sanitizeValue 0 value with
  | .obj sanitized =>
      match dumps compactStyle (Json.sortKeys (.obj sanitized)) with
      | some serialized =>
          if maxEpisodeEvidenceChars < serialized.length then
            refuse "episode evidence exceeds the bounded limit"
          else return sanitized
      | none => refuse "Exceeds the limit (4300 digits) for integer string conversion"
  | _ => refuse "episode evidence must be an object"

section Errors

theorem errorOnly_refuse {α : Type} (message : String) :
    ErrorOnly (refuse message : Except PyExc α) := errorOnly_error rfl

theorem errorOnly_sanitizeScalar (value : Json) : ErrorOnly (sanitizeScalar value) := by
  unfold sanitizeScalar
  split
  · exact (errorOnly_refuse _).ite (errorOnly_ok _)
  · exact (errorOnly_ok _).ite (errorOnly_refuse _)
  · exact errorOnly_ok _

theorem errorOnly_sanitizeItems {depth : ℕ} {items : List Json}
    (h : ∀ x ∈ items, ErrorOnly (sanitizeValue depth x)) :
    ErrorOnly (sanitizeItems depth items) := by
  induction items with
  | nil => exact errorOnly_ok []
  | cons x xs ih =>
    obtain ⟨hx, hxs⟩ := List.forall_mem_cons.mp h
    rw [sanitizeItems]
    exact hx.bind fun y => (ih hxs).bind fun ys => errorOnly_ok _

theorem errorOnly_sanitizeMembers {depth : ℕ} {members : Fields}
    (h : ∀ m ∈ members, ErrorOnly (sanitizeValue depth m.2)) :
    ErrorOnly (sanitizeMembers depth members) := by
  induction members with
  | nil => exact errorOnly_ok []
  | cons member rest ih =>
    obtain ⟨key, x⟩ := member
    obtain ⟨hx, hrest⟩ := List.forall_mem_cons.mp h
    rw [sanitizeMembers]
    exact (ih hrest).ite (hx.bind fun y => (ih hrest).bind fun ys => errorOnly_ok _)

theorem errorOnly_sanitizeValue_scalar {depth : ℕ} {value : Json}
    (hobj : ∀ members, value = .obj members → False)
    (harr : ∀ items, value = .arr items → False) : ErrorOnly (sanitizeValue depth value) := by
  rw [sanitizeValue.eq_3 depth value hobj harr]
  exact (errorOnly_refuse _).ite (errorOnly_sanitizeScalar value)

theorem errorOnly_sanitizeValue (depth : ℕ) (value : Json) :
    ErrorOnly (sanitizeValue depth value) := by
  induction value using Json.inductionOn generalizing depth with
  | null => exact errorOnly_sanitizeValue_scalar (by simp) (by simp)
  | bool b => exact errorOnly_sanitizeValue_scalar (by simp) (by simp)
  | int n => exact errorOnly_sanitizeValue_scalar (by simp) (by simp)
  | float x => exact errorOnly_sanitizeValue_scalar (by simp) (by simp)
  | str s => exact errorOnly_sanitizeValue_scalar (by simp) (by simp)
  | arr items ih =>
    rw [sanitizeValue]
    refine (errorOnly_refuse _).ite ((errorOnly_refuse _).ite (ErrorOnly.map ?_ _))
    exact errorOnly_sanitizeItems fun x hx => ih x hx (depth + 1)
  | obj members ih =>
    rw [sanitizeValue]
    refine (errorOnly_refuse _).ite ((errorOnly_refuse _).ite (ErrorOnly.map ?_ _))
    exact errorOnly_sanitizeMembers fun m hm => ih m hm (depth + 1)

theorem errorOnly_validateEpisodeEvidence (value : Json) :
    ErrorOnly (validateEpisodeEvidence value) := by
  unfold validateEpisodeEvidence
  refine (errorOnly_sanitizeValue 0 value).bind fun sanitized => ?_
  split
  · split
    · exact (errorOnly_refuse _).ite (errorOnly_ok _)
    · exact errorOnly_refuse _
  · exact errorOnly_refuse _

end Errors

section Sanitized

variable {depth : ℕ} {value sanitized : Json}

/-- The value is its own sanitized value at this depth. -/
def Sanitized (depth : ℕ) (value : Json) : Prop := sanitizeValue depth value = .ok value

def SanitizedMember (depth : ℕ) (member : String × Json) : Prop :=
  isSensitiveKey member.1 = false ∧ Sanitized depth member.2

theorem sanitizeScalar_eq (h : sanitizeScalar value = .ok sanitized) : sanitized = value := by
  unfold sanitizeScalar at h
  split at h
  · split at h <;> cases h
    rfl
  · split at h <;> cases h
    rfl
  · cases h
    rfl

theorem sanitizeItems_fixed {items : List Json} :
    sanitizeItems depth items = .ok items ↔ ∀ x ∈ items, Sanitized depth x := by
  induction items with
  | nil => simp [sanitizeItems]
  | cons x xs ih =>
    rw [sanitizeItems, List.forall_mem_cons, ← ih]
    constructor
    · intro h
      obtain ⟨y, hy, h⟩ := bind_eq_ok.mp h
      obtain ⟨ys, hys, h⟩ := bind_eq_ok.mp h
      cases h
      exact ⟨hy, hys⟩
    · rintro ⟨hx, hxs⟩
      exact bind_eq_ok.mpr ⟨x, hx, bind_eq_ok.mpr ⟨xs, hxs, rfl⟩⟩

theorem length_sanitizeMembers {members sanitized : Fields}
    (h : sanitizeMembers depth members = .ok sanitized) : sanitized.length ≤ members.length := by
  induction members generalizing sanitized with
  | nil =>
    cases h
    simp
  | cons member rest ih =>
    obtain ⟨key, x⟩ := member
    rw [sanitizeMembers] at h
    split at h
    · exact (ih h).trans (by simp)
    · obtain ⟨y, -, h⟩ := bind_eq_ok.mp h
      obtain ⟨ys, hys, h⟩ := bind_eq_ok.mp h
      cases h
      simpa using ih hys

theorem sanitizeMembers_fixed {members : Fields} :
    sanitizeMembers depth members = .ok members ↔ ∀ m ∈ members, SanitizedMember depth m := by
  induction members with
  | nil => simp [sanitizeMembers]
  | cons member rest ih =>
    obtain ⟨key, x⟩ := member
    rw [sanitizeMembers, List.forall_mem_cons, ← ih]
    constructor
    · intro h
      split at h
      · have hlength := length_sanitizeMembers h
        simp at hlength
      · next hkey =>
        obtain ⟨y, hy, h⟩ := bind_eq_ok.mp h
        obtain ⟨ys, hys, h⟩ := bind_eq_ok.mp h
        cases h
        exact ⟨⟨by simpa using hkey, hy⟩, hys⟩
    · rintro ⟨⟨hkey, hx⟩, hrest⟩
      rw [if_neg (by simpa using hkey)]
      exact bind_eq_ok.mpr ⟨x, hx, bind_eq_ok.mpr ⟨rest, hrest, rfl⟩⟩

theorem sanitized_arr {items : List Json} : Sanitized depth (.arr items) ↔
    depth ≤ maxEpisodeDepth ∧ items.length ≤ maxEpisodeCollectionItems ∧
      ∀ x ∈ items, Sanitized (depth + 1) x := by
  rw [← sanitizeItems_fixed, Sanitized, sanitizeValue]
  simp [refuse_ite_eq_ok, map_eq_ok]

theorem sanitized_obj {members : Fields} : Sanitized depth (.obj members) ↔
    depth ≤ maxEpisodeDepth ∧ members.length ≤ maxEpisodeCollectionItems ∧
      ∀ m ∈ members, SanitizedMember (depth + 1) m := by
  rw [← sanitizeMembers_fixed, Sanitized, sanitizeValue]
  simp [refuse_ite_eq_ok, map_eq_ok]

theorem sanitized_scalar (hdepth : depth ≤ maxEpisodeDepth)
    (hvalue : sanitizeScalar value = .ok value) (hobj : ∀ members, value ≠ .obj members)
    (harr : ∀ items, value ≠ .arr items) : Sanitized depth value := by
  unfold Sanitized
  rw [sanitizeValue, if_neg (by omega), hvalue]
  · exact hobj
  · exact harr

theorem sanitized_str {s : String} (hdepth : depth ≤ maxEpisodeDepth)
    (hs : s.length ≤ maxEpisodeStringChars) : Sanitized depth (.str s) :=
  sanitized_scalar hdepth (if_neg hs.not_gt) (by simp) (by simp)

theorem keys_sanitizeMembers {members sanitized : Fields}
    (h : sanitizeMembers depth members = .ok sanitized) :
    (sanitized.map Prod.fst).Sublist (members.map Prod.fst) := by
  induction members generalizing sanitized with
  | nil =>
    cases h
    exact .slnil
  | cons member rest ih =>
    obtain ⟨key, x⟩ := member
    rw [sanitizeMembers] at h
    split at h
    · exact (ih h).cons key
    · obtain ⟨y, -, h⟩ := bind_eq_ok.mp h
      obtain ⟨ys, hys, h⟩ := bind_eq_ok.mp h
      cases h
      exact (ih hys).cons_cons key

theorem forall_sanitizeItems {P : Json → Prop} {items sanitized : List Json}
    (ih : ∀ x ∈ items, ∀ y, sanitizeValue depth x = .ok y → P y)
    (h : sanitizeItems depth items = .ok sanitized) : ∀ y ∈ sanitized, P y := by
  induction items generalizing sanitized with
  | nil =>
    cases h
    simp
  | cons x xs hrest =>
    rw [sanitizeItems] at h
    obtain ⟨y, hy, h⟩ := bind_eq_ok.mp h
    obtain ⟨ys, hys, h⟩ := bind_eq_ok.mp h
    cases h
    obtain ⟨hx, hxs⟩ := List.forall_mem_cons.mp ih
    exact List.forall_mem_cons.mpr ⟨hx y hy, hrest hxs hys⟩

/-- What is stored under a key that is kept. -/
theorem forall_sanitizeMembers {P : Json → Prop} {members sanitized : Fields}
    (ih : ∀ m ∈ members, ∀ y, sanitizeValue depth m.2 = .ok y → P y)
    (h : sanitizeMembers depth members = .ok sanitized) :
    ∀ m ∈ sanitized, isSensitiveKey m.1 = false ∧ P m.2 := by
  induction members generalizing sanitized with
  | nil =>
    cases h
    simp
  | cons member rest hrest =>
    obtain ⟨key, x⟩ := member
    obtain ⟨hx, hxs⟩ := List.forall_mem_cons.mp ih
    rw [sanitizeMembers] at h
    split at h
    · exact hrest hxs h
    · next hkey =>
      obtain ⟨y, hy, h⟩ := bind_eq_ok.mp h
      obtain ⟨ys, hys, h⟩ := bind_eq_ok.mp h
      cases h
      exact List.forall_mem_cons.mpr ⟨⟨by simpa using hkey, hx y hy⟩, hrest hxs hys⟩

theorem length_sanitizeItems {items sanitized : List Json}
    (h : sanitizeItems depth items = .ok sanitized) : sanitized.length = items.length := by
  induction items generalizing sanitized with
  | nil =>
    cases h
    rfl
  | cons x xs ih =>
    rw [sanitizeItems] at h
    obtain ⟨y, -, h⟩ := bind_eq_ok.mp h
    obtain ⟨ys, hys, h⟩ := bind_eq_ok.mp h
    cases h
    simp [ih hys]

theorem sanitizeValue_scalar (hobj : ∀ members, value = .obj members → False)
    (harr : ∀ items, value = .arr items → False)
    (h : sanitizeValue depth value = .ok sanitized) : sanitized = value := by
  rw [sanitizeValue.eq_3 depth value hobj harr, refuse_ite_eq_ok] at h
  exact sanitizeScalar_eq h.2

theorem sanitizeScalar_sanitized (hobj : ∀ members, value = .obj members → False)
    (harr : ∀ items, value = .arr items → False)
    (h : sanitizeValue depth value = .ok sanitized) : Sanitized depth sanitized := by
  have hsame := sanitizeValue_scalar hobj harr h
  rw [hsame] at h ⊢
  exact h

/-- Sanitizing is idempotent. -/
theorem sanitizeValue_sanitized (depth : ℕ) (value : Json) {sanitized : Json}
    (h : sanitizeValue depth value = .ok sanitized) : Sanitized depth sanitized := by
  induction value using Json.inductionOn generalizing depth sanitized with
  | null => exact sanitizeScalar_sanitized (by simp) (by simp) h
  | bool b => exact sanitizeScalar_sanitized (by simp) (by simp) h
  | int n => exact sanitizeScalar_sanitized (by simp) (by simp) h
  | float x => exact sanitizeScalar_sanitized (by simp) (by simp) h
  | str s => exact sanitizeScalar_sanitized (by simp) (by simp) h
  | arr items ih =>
    rw [sanitizeValue, refuse_ite_eq_ok, refuse_ite_eq_ok, map_eq_ok] at h
    obtain ⟨hdepth, hlength, ys, hys, rfl⟩ := h
    have hsame := length_sanitizeItems hys
    exact sanitized_arr.mpr ⟨by omega, by omega,
      forall_sanitizeItems (fun x hx y hy => ih x hx (depth + 1) hy) hys⟩
  | obj members ih =>
    rw [sanitizeValue, refuse_ite_eq_ok, refuse_ite_eq_ok, map_eq_ok] at h
    obtain ⟨hdepth, hlength, ys, hys, rfl⟩ := h
    have hshort := length_sanitizeMembers hys
    exact sanitized_obj.mpr ⟨by omega, by omega,
      forall_sanitizeMembers (fun m hm y hy => ih m hm (depth + 1) hy) hys⟩

/-- Sanitizing repeats no key. -/
theorem sanitizeValue_distinct (depth : ℕ) (value : Json) {sanitized : Json}
    (hdistinct : value.Distinct) (h : sanitizeValue depth value = .ok sanitized) :
    sanitized.Distinct := by
  induction value using Json.inductionOn generalizing depth sanitized with
  | null => rwa [sanitizeValue_scalar (by simp) (by simp) h]
  | bool b => rwa [sanitizeValue_scalar (by simp) (by simp) h]
  | int n => rwa [sanitizeValue_scalar (by simp) (by simp) h]
  | float x => rwa [sanitizeValue_scalar (by simp) (by simp) h]
  | str s => rwa [sanitizeValue_scalar (by simp) (by simp) h]
  | arr items ih =>
    rw [sanitizeValue, refuse_ite_eq_ok, refuse_ite_eq_ok, map_eq_ok] at h
    obtain ⟨-, -, ys, hys, rfl⟩ := h
    rw [Json.Distinct, distinctItems_iff] at hdistinct ⊢
    exact forall_sanitizeItems (fun x hx y hy => ih x hx (depth + 1) (hdistinct x hx) hy) hys
  | obj members ih =>
    rw [sanitizeValue, refuse_ite_eq_ok, refuse_ite_eq_ok, map_eq_ok] at h
    obtain ⟨-, -, ys, hys, rfl⟩ := h
    obtain ⟨hkeys, hmembers⟩ := distinct_obj.mp hdistinct
    refine distinct_obj.mpr ⟨hkeys.sublist (keys_sanitizeMembers hys), fun m hm => ?_⟩
    exact (forall_sanitizeMembers
      (fun m hm y hy => ih m hm (depth + 1) (hmembers m hm) hy) hys m hm).2

/-- The order of the members does not matter. -/
theorem Sanitized.sortKeys (h : Sanitized depth value) : Sanitized depth value.sortKeys := by
  induction value using Json.inductionOn generalizing depth with
  | null => exact h
  | bool b => exact h
  | int n => exact h
  | float x => exact h
  | str s => exact h
  | arr items ih =>
    obtain ⟨hdepth, hlength, hitems⟩ := sanitized_arr.mp h
    rw [sortKeys_arr]
    refine sanitized_arr.mpr ⟨hdepth, by simpa using hlength, fun x hx => ?_⟩
    obtain ⟨y, hy, rfl⟩ := List.mem_map.mp hx
    exact ih y hy (hitems y hy)
  | obj members ih =>
    obtain ⟨hdepth, hlength, hmembers⟩ := sanitized_obj.mp h
    rw [sortKeys_obj]
    refine sanitized_obj.mpr ⟨hdepth, ?_, fun m hm => ?_⟩
    · rwa [List.length_insertionSort, List.length_map]
    · obtain ⟨m', hm', rfl⟩ := mem_sortedMembers.mp hm
      exact ⟨(hmembers m' hm').1, ih m' hm' (hmembers m' hm').2⟩

theorem Sanitized.of_sortKeys (h : Sanitized depth value.sortKeys) : Sanitized depth value := by
  induction value using Json.inductionOn generalizing depth with
  | null => exact h
  | bool b => exact h
  | int n => exact h
  | float x => exact h
  | str s => exact h
  | arr items ih =>
    rw [sortKeys_arr, sanitized_arr, List.length_map, List.forall_mem_map] at h
    obtain ⟨hdepth, hlength, hitems⟩ := h
    exact sanitized_arr.mpr ⟨hdepth, hlength, fun x hx => ih x hx (hitems x hx)⟩
  | obj members ih =>
    rw [sortKeys_obj, sanitized_obj, List.length_insertionSort, List.length_map] at h
    obtain ⟨hdepth, hlength, hmembers⟩ := h
    refine sanitized_obj.mpr ⟨hdepth, hlength, fun m hm => ?_⟩
    obtain ⟨hkey, hvalue⟩ := hmembers _ (mem_sortedMembers.mpr ⟨m, hm, rfl⟩)
    exact ⟨hkey, ih m hm hvalue⟩

theorem sanitizeItems_of_sanitized {depth' : ℕ} {items sanitized : List Json}
    (ih : ∀ x ∈ items, ∀ y, sanitizeValue depth' x = .ok y → y = x)
    (h : sanitizeItems depth' items = .ok sanitized) : sanitized = items := by
  induction items generalizing sanitized with
  | nil =>
    cases h
    rfl
  | cons x xs hrest =>
    rw [sanitizeItems] at h
    obtain ⟨y, hy, h⟩ := bind_eq_ok.mp h
    obtain ⟨ys, hys, h⟩ := bind_eq_ok.mp h
    cases h
    obtain ⟨hx, hxs⟩ := List.forall_mem_cons.mp ih
    rw [hx y hy, hrest hxs hys]

theorem sanitizeMembers_of_sanitized {depth' : ℕ} {members sanitized : Fields}
    (ih : ∀ m ∈ members, isSensitiveKey m.1 = false ∧
      ∀ y, sanitizeValue depth' m.2 = .ok y → y = m.2)
    (h : sanitizeMembers depth' members = .ok sanitized) : sanitized = members := by
  induction members generalizing sanitized with
  | nil =>
    cases h
    rfl
  | cons member rest hrest =>
    obtain ⟨key, x⟩ := member
    obtain ⟨⟨hkey, hx⟩, hxs⟩ := List.forall_mem_cons.mp ih
    rw [sanitizeMembers, hkey] at h
    obtain ⟨y, hy, h⟩ := bind_eq_ok.mp h
    obtain ⟨ys, hys, h⟩ := bind_eq_ok.mp h
    cases h
    rw [hx y hy, hrest hxs hys]

/-- A sanitized value is not changed at another depth, where it is accepted. -/
theorem Sanitized.eq {depth' : ℕ} (h : Sanitized depth value)
    (h' : sanitizeValue depth' value = .ok sanitized) : sanitized = value := by
  induction value using Json.inductionOn generalizing depth depth' sanitized with
  | null => exact sanitizeValue_scalar (by simp) (by simp) h'
  | bool b => exact sanitizeValue_scalar (by simp) (by simp) h'
  | int n => exact sanitizeValue_scalar (by simp) (by simp) h'
  | float x => exact sanitizeValue_scalar (by simp) (by simp) h'
  | str s => exact sanitizeValue_scalar (by simp) (by simp) h'
  | arr items ih =>
    obtain ⟨-, -, hitems⟩ := sanitized_arr.mp h
    rw [sanitizeValue, refuse_ite_eq_ok, refuse_ite_eq_ok, map_eq_ok] at h'
    obtain ⟨-, -, ys, hys, rfl⟩ := h'
    rw [sanitizeItems_of_sanitized (fun x hx y hy => ih x hx (hitems x hx) hy) hys]
  | obj members ih =>
    obtain ⟨-, -, hmembers⟩ := sanitized_obj.mp h
    rw [sanitizeValue, refuse_ite_eq_ok, refuse_ite_eq_ok, map_eq_ok] at h'
    obtain ⟨-, -, ys, hys, rfl⟩ := h'
    rw [sanitizeMembers_of_sanitized (fun m hm =>
      ⟨(hmembers m hm).1, fun y hy => ih m hm (hmembers m hm).2 hy⟩) hys]

/-- A kept member is the sanitized member; an absent one stays absent. -/
theorem get_sanitizeMembers {members sanitized : Fields} {key : String}
    (hdepth : depth ≤ maxEpisodeDepth) (hkey : isSensitiveKey key = false)
    (h : sanitizeMembers depth members = .ok sanitized) :
    sanitizeValue depth (Fields.get members key) = .ok (Fields.get sanitized key) := by
  induction members generalizing sanitized with
  | nil =>
    cases h
    rw [show Fields.get [] key = Json.null from rfl, sanitizeValue.eq_3 _ _ (by simp) (by simp),
      if_neg (by omega)]
    rfl
  | cons member rest ih =>
    obtain ⟨name, x⟩ := member
    rw [sanitizeMembers] at h
    by_cases hname : key = name
    · subst hname
      rw [hkey] at h
      obtain ⟨y, hy, h⟩ := bind_eq_ok.mp h
      obtain ⟨ys, hys, h⟩ := bind_eq_ok.mp h
      cases h
      simpa [Fields.get] using hy
    · have hne : (key == name) = false := by simpa using hname
      split at h
      · have hrest := ih h
        simpa [Fields.get, List.lookup_cons, hne] using hrest
      · obtain ⟨y, hy, h⟩ := bind_eq_ok.mp h
        obtain ⟨ys, hys, h⟩ := bind_eq_ok.mp h
        cases h
        have hrest := ih hys
        simpa [Fields.get, List.lookup_cons, hne] using hrest

structure Valid (evidence : Fields) : Prop where
  sanitized : Sanitized 0 (.obj evidence)
  bounded : ∃ text, dumps compactStyle (Json.sortKeys (.obj evidence)) = some text ∧
    text.length ≤ maxEpisodeEvidenceChars

theorem validate_eq_ok {evidence : Fields} :
    validateEpisodeEvidence value = .ok evidence ↔
      sanitizeValue 0 value = .ok (.obj evidence) ∧ Valid evidence := by
  unfold validateEpisodeEvidence
  rw [bind_eq_ok]
  constructor
  · rintro ⟨sanitized, hsanitized, h⟩
    split at h
    · next members =>
      split at h
      · next text htext =>
        obtain ⟨hlength, h⟩ := refuse_ite_eq_ok.mp h
        cases h
        exact ⟨hsanitized, sanitizeValue_sanitized 0 value hsanitized, text, htext, by omega⟩
      · cases h
    · cases h
  · rintro ⟨hsanitized, -, text, htext, hlength⟩
    refine ⟨_, hsanitized, ?_⟩
    simp only [htext]
    exact refuse_ite_eq_ok.mpr ⟨by omega, rfl⟩

theorem Valid.sortKeys {evidence sorted : Fields} (h : Valid evidence)
    (hsorted : Json.sortKeys (.obj evidence) = .obj sorted) : Valid sorted := by
  refine ⟨?_, ?_⟩
  · rw [← hsorted]
    exact h.sanitized.sortKeys
  · rw [← hsorted, sortKeys_sortKeys]
    exact h.bounded

/-- Validity does not depend on the order of the members. -/
theorem Valid.of_sortKeys {evidence evidence' : Fields} (h : Valid evidence)
    (hsame : Json.sortKeys (.obj evidence) = Json.sortKeys (.obj evidence')) : Valid evidence' := by
  refine ⟨Sanitized.of_sortKeys ?_, ?_⟩
  · rw [← hsame]
    exact h.sanitized.sortKeys
  · rw [← hsame]
    exact h.bounded

/-- Validated evidence is accepted again, and not changed. -/
theorem validate_valid {evidence : Fields} (h : Valid evidence) :
    validateEpisodeEvidence (.obj evidence) = .ok evidence :=
  validate_eq_ok.mpr ⟨h.sanitized, h⟩

end Sanitized

end FailureResolver.EpisodeEvidence
