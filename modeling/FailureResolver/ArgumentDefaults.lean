import FailureResolver.ArgumentPaths
import FailureResolver.JsonEquality
import FailureResolver.JsonRoundTrip

/-!
The recorded effective arguments of a correction. What a robot works with is
the tree of the arguments with every default placed at its path; the provenance
check overlays the arguments on the defaults by whole names, and compares numbers
as floats. The two agree exactly as long as no input below the root has a default,
every number of the tree is the only one with its float, and nothing is nested too
deeply to be read or copied; or where the tree holds a number that is no JSON.
-/

namespace FailureResolver.ArgumentDefaults

open JsonValue JsonText JsonRoundTrip JsonEquality PyException PyInterpreter PyText
open RecoveryContract ActionPlan PlanParsing CommandSchema ArgumentPaths

section Overlay

variable {fields : Fields}

theorem updateFields_cons (m : String × Json) (rest : Fields) :
    updateFields fields (m :: rest) = updateFields (Fields.set fields m.1 m.2) rest := rfl

/-- The updates win, and what they do not name stays. -/
theorem lookup_updateFields {updates : Fields} (h : (updates.map Prod.fst).Nodup) (key : String) :
    (updateFields fields updates).lookup key = (updates.lookup key).or (fields.lookup key) := by
  induction updates generalizing fields with
  | nil => rfl
  | cons m rest ih =>
    obtain ⟨name, value⟩ := m
    obtain ⟨hname, hrest⟩ := List.nodup_cons.mp h
    rw [updateFields_cons, ih hrest, lookup_set]
    by_cases hkey : key = name
    · subst hkey
      have hnone : rest.lookup key = none := by
        rw [List.lookup_eq_none_iff]
        intro m hm
        rw [bne_iff_ne]
        intro heq
        exact hname (List.mem_map.mpr ⟨m, hm, heq.symm⟩)
      simp [hnone]
    · have hne : (key == name) = false := by simpa using hkey
      rw [if_neg hkey, List.lookup_cons, hne]

theorem distinct_updateFields {updates : Fields} (hfields : Json.Distinct (.obj fields))
    (hupdates : ∀ m ∈ updates, m.2.Distinct) :
    Json.Distinct (.obj (updateFields fields updates)) := by
  induction updates generalizing fields with
  | nil => exact hfields
  | cons m rest ih =>
    obtain ⟨hm, hrest⟩ := List.forall_mem_cons.mp hupdates
    exact ih (distinct_set hfields m.1 hm) hrest

theorem lookup_filter_keys (fields : Fields) (p : String → Bool) (key : String) :
    (fields.filter fun m => p m.1).lookup key = if p key then fields.lookup key else none := by
  induction fields with
  | nil => simp
  | cons m rest ih =>
    obtain ⟨name, value⟩ := m
    by_cases hkey : key = name
    · subst hkey
      by_cases hp : p key = true
      · simp [hp]
      · simpa [List.filter_cons, hp] using ih
    · have hne : (key == name) = false := by simpa using hkey
      by_cases hp : p name = true
      · simp [hp, List.lookup_cons, hne, ih]
      · simp [hp, List.lookup_cons, hne, ih]

end Overlay

section Placing

variable {interpreter : Interpreter}

/-- The default of an input, if its placeholder stands for one. -/
def defaultOf (interpreter : Interpreter) (input : Fields) : Option Json :=
  match actionInputDefault interpreter.unlimited input with
  | .ok default => default
  | .error _ => none

def membersAt (fields : Fields) (key : String) : Fields :=
  match Fields.get fields key with
  | .obj members => members
  | _ => []

/-- Put a value at a path, below new objects where there are none. -/
def placeAt (fields : Fields) (path : List String) (value : Json) : Fields :=
  match path with
  | [] => fields
  | [key] => Fields.set fields key value
  | key :: next :: path =>
      Fields.set fields key (.obj (placeAt (membersAt fields key) (next :: path) value))

/-- Place the default of an input unless the arguments bind a value at its path. -/
def placeDefault (interpreter : Interpreter) (arguments nested : Fields) (spec : InputSpec) :
    Fields :=
  match defaultOf interpreter spec.input with
  | some default =>
      if (pathValue (.obj arguments) spec.path).isNone then placeAt nested spec.path default
      else nested
  | none => nested

/-- The arguments with every default placed at its path. -/
def nestedArguments (interpreter : Interpreter) (schema arguments : Fields) : Fields :=
  (declaredInputs schema).foldl (placeDefault interpreter arguments) arguments

theorem distinct_membersAt {fields : Fields} (h : Json.Distinct (.obj fields)) (key : String) :
    Json.Distinct (.obj (membersAt fields key)) := by
  have hget := distinct_get h key
  unfold membersAt
  split
  · next heq =>
    rw [heq] at hget
    exact hget
  · exact distinct_obj.mpr ⟨List.nodup_nil, fun m hm => by cases hm⟩

theorem distinct_placeAt {fields : Fields} (h : Json.Distinct (.obj fields)) (path : List String)
    {value : Json} (hvalue : value.Distinct) :
    Json.Distinct (.obj (placeAt fields path value)) := by
  fun_induction placeAt fields path value with
  | case1 fields => exact h
  | case2 fields key => exact distinct_set h key hvalue
  | case3 fields key next path ih => exact distinct_set h key (ih (distinct_membersAt h key))

variable {p : Json → Bool}

theorem everyNumber_set {fields : Fields} (h : everyNumber p (.obj fields) = true) (key : String)
    {value : Json} (hvalue : everyNumber p value = true) :
    everyNumber p (.obj (Fields.set fields key value)) = true := by
  rw [everyNumber_obj] at h ⊢
  intro m hm
  rcases mem_set hm with hm | rfl
  · exact h m hm
  · exact hvalue

theorem everyNumber_membersAt {fields : Fields} (h : everyNumber p (.obj fields) = true)
    (key : String) : everyNumber p (.obj (membersAt fields key)) = true := by
  rw [everyNumber_obj] at h
  unfold membersAt
  split
  · next members heq =>
    rcases get_eq_null_or_mem fields key with hnull | hmem
    · rw [hnull] at heq
      cases heq
    · rw [heq] at hmem
      exact h _ hmem
  · rfl

theorem everyNumber_placeAt {fields : Fields} (h : everyNumber p (.obj fields) = true)
    (path : List String) {value : Json} (hvalue : everyNumber p value = true) :
    everyNumber p (.obj (placeAt fields path value)) = true := by
  fun_induction placeAt fields path value with
  | case1 fields => exact h
  | case2 fields key => exact everyNumber_set h key hvalue
  | case3 fields key next path ih =>
    exact everyNumber_set h key (ih (everyNumber_membersAt h key))

/-- Placing a value makes no other key at the root than the head of its path. -/
theorem has_placeAt {fields : Fields} {path : List String} {value : Json} {key : String}
    (h : Fields.has (placeAt fields path value) key = true) :
    Fields.has fields key = true ∨ path.head? = some key := by
  have hset : ∀ {fields : Fields} {name : String} {x : Json},
      Fields.has (Fields.set fields name x) key = true → Fields.has fields key = true ∨ name = key := by
    intro fields name x hhas
    unfold Fields.has at hhas ⊢
    rw [lookup_set] at hhas
    by_cases hkey : key = name
    · exact .inr hkey.symm
    · rw [if_neg hkey] at hhas
      exact .inl hhas
  fun_cases placeAt fields path value with
  | case1 => exact .inl h
  | case2 name =>
    rcases hset h with hhas | heq
    · exact .inl hhas
    · exact .inr (by rw [heq]; rfl)
  | case3 name next path =>
    rcases hset h with hhas | heq
    · exact .inl hhas
    · exact .inr (by rw [heq]; rfl)

end Placing

section Names

theorem not_mem_of_mem_splitOnChar {separator : Char} {text part : List Char}
    (h : part ∈ splitOnChar separator text) : separator ∉ part := by
  induction text generalizing part with
  | nil =>
    rw [splitOnChar, List.mem_singleton] at h
    rw [h]
    exact List.not_mem_nil
  | cons c rest ih =>
    rw [splitOnChar] at h
    split at h
    · rcases List.mem_cons.mp h with rfl | h
      · exact List.not_mem_nil
      · exact ih h
    · next hne =>
      split at h
      · next first parts heq =>
        rcases List.mem_cons.mp h with rfl | h
        · intro hmem
          rcases List.mem_cons.mp hmem with hc | hfirst
          · exact hne hc.symm
          · exact ih (by rw [heq]; exact List.mem_cons_self) hfirst
        · exact ih (by rw [heq]; exact List.mem_cons_of_mem _ h)
      · next heq => exact absurd heq (splitOnChar_ne_nil separator rest)

theorem splitOnChar_of_not_mem {separator : Char} {text : List Char} (h : separator ∉ text) :
    splitOnChar separator text = [text] := by
  induction text with
  | nil => rfl
  | cons c rest ih =>
    rw [List.mem_cons, not_or] at h
    rw [splitOnChar, if_neg (Ne.symm h.1), ih h.2]

/-- A part of a dotted name is a name without dots. -/
theorem dottedPath_part {name part : String} (h : part ∈ dottedPath name) :
    dottedPath part = [part] := by
  obtain ⟨text, htext, rfl⟩ := List.mem_map.mp h
  unfold dottedPath
  rw [String.toList_ofList, splitOnChar_of_not_mem (not_mem_of_mem_splitOnChar htext)]
  rfl

/-- A name whose path has one part is that part. -/
theorem dottedPath_of_length {name : String} (h : (dottedPath name).length = 1) :
    dottedPath name = [name] := by
  obtain ⟨key, hkey⟩ := List.length_eq_one_iff.mp h
  unfold dottedPath at hkey ⊢
  obtain ⟨text, htext, -⟩ := List.map_eq_singleton_iff.mp hkey
  have hpart : '.' ∉ name.toList := by
    intro hmem
    have hcount : ∀ chars : List Char, '.' ∈ chars → (splitOnChar '.' chars).length ≠ 1 := by
      intro chars hdot
      induction chars with
      | nil => cases hdot
      | cons c rest ih =>
        rw [splitOnChar]
        split
        · intro hlength
          rw [List.length_cons, Nat.succ.injEq, List.length_eq_zero_iff] at hlength
          exact splitOnChar_ne_nil _ _ hlength
        · next hne =>
          rcases List.mem_cons.mp hdot with rfl | hrest
          · exact absurd rfl hne
          · split
            · next heq =>
              have hlength := ih hrest
              rw [heq] at hlength
              exact hlength
            · next heq => exact absurd heq (splitOnChar_ne_nil _ _)
    exact hcount _ hmem (by rw [htext]; rfl)
  rw [splitOnChar_of_not_mem hpart, List.map_singleton, String.ofList_toList]

end Names

section Defaults

variable {interpreter : Interpreter} {command : String} {schema arguments : Fields}

def nameOf (raw : Json) : String :=
  match Json.get raw "name" with
  | .str name => name
  | _ => ""

def TextPlaceholder (raw : Json) : Prop :=
  Json.get raw "placeholder" = .null ∨ ∃ text, Json.get raw "placeholder" = .str text

/-- The whole name of an input and its default, as the overlay keeps them. -/
def namedDefault (interpreter : Interpreter) (raw : Json) : Option (String × Json) :=
  (defaultOf interpreter (specOf raw).input).map fun default => (nameOf raw, default)

/-- The defaults of a schema under the whole names of their inputs. -/
def flatDefaults (interpreter : Interpreter) (schema : Fields) : Fields :=
  (rawInputs schema).filterMap (namedDefault interpreter)

theorem named_path {raw : Json} (h : IsNamed raw) :
    (specOf raw).path = dottedPath (nameOf raw) ∧ nameOf raw ≠ "" := by
  obtain ⟨input, name, rfl, hname, -, hparts⟩ := h
  have hget : Json.get (.obj input) "name" = .str name := hname
  have hnameOf : nameOf (.obj input) = name := by
    unfold nameOf
    rw [hget]
  refine ⟨?_, ?_⟩
  · unfold specOf
    dsimp only
    rw [hget, hnameOf]
  · rw [hnameOf]
    rintro rfl
    exact hparts (by decide)

/-- Reading the defaults keeps each under the whole name of its input. -/
theorem addDefault_eq {raw : Json} (h : IsNamed raw) (htext : TextPlaceholder raw)
    (hread : ¬ DeepPlaceholder interpreter (specOf raw).input) (defaults : Fields) :
    addDefault interpreter command defaults raw =
      .ok (match namedDefault interpreter raw with
        | some m => Fields.set defaults m.1 m.2
        | none => defaults) := by
  have hne := (named_path h).2
  obtain ⟨input, name, rfl, hname, -, -⟩ := h
  have hnameOf : nameOf (.obj input) = name := by
    unfold nameOf Json.get
    dsimp only
    rw [hname]
  have hdefault : actionInputDefault interpreter input = .ok (defaultOf interpreter input) := by
    obtain ⟨default, hdefault⟩ := @exists_unlimitedDefault interpreter input htext
    have hunlimited : actionInputDefault interpreter input =
        actionInputDefault interpreter.unlimited input := actionInputDefault_of_read hread
    rw [hunlimited, defaultOf, hdefault]
  have hnamed : namedDefault interpreter (.obj input) =
      (defaultOf interpreter input).map fun d => (name, d) := by
    unfold namedDefault
    rw [hnameOf]
    rfl
  rw [hnameOf] at hne
  unfold addDefault
  dsimp only
  rw [hdefault, hnamed]
  cases defaultOf interpreter input with
  | none => rfl
  | some d =>
    show (match Fields.get input "name" with
      | .str name =>
          if name = "" then
            reject s!"Live action spec input name is invalid for {PyText.repr command}"
          else pure (Fields.set defaults name d)
      | _ => reject s!"Live action spec input name is invalid for {PyText.repr command}") = _
    rw [hname]
    dsimp only
    rw [if_neg hne]
    rfl

theorem addDefault_of_deep {raw : Json} (h : IsNamed raw)
    (hdeep : DeepPlaceholder interpreter (specOf raw).input) (defaults : Fields) :
    addDefault interpreter command defaults raw = .error recursionError := by
  obtain ⟨input, name, rfl, -⟩ := h
  have hdefault : actionInputDefault interpreter input = .error recursionError :=
    actionInputDefault_of_deep hdeep
  unfold addDefault
  dsimp only
  rw [hdefault]
  rfl

/-- The defaults of all inputs are read, unless one of them is nested too deeply. -/
theorem foldlM_addDefault {raws : List Json}
    (hraws : ∀ raw ∈ raws, IsNamed raw ∧ TextPlaceholder raw) {defaults result : Fields} :
    raws.foldlM (addDefault interpreter command) defaults = .ok result ↔
      (∀ raw ∈ raws, ¬ DeepPlaceholder interpreter (specOf raw).input) ∧
        updateFields defaults (raws.filterMap (namedDefault interpreter)) = result := by
  induction raws generalizing defaults with
  | nil => simp [updateFields, pure, Except.pure]
  | cons raw rest ih =>
    obtain ⟨⟨hnamed, htext⟩, hrest⟩ := List.forall_mem_cons.mp hraws
    rw [List.foldlM_cons, List.forall_mem_cons]
    by_cases hdeep : DeepPlaceholder interpreter (specOf raw).input
    · rw [addDefault_of_deep hnamed hdeep]
      exact iff_of_false (by simp [bind, Except.bind]) fun h => h.1.1 hdeep
    · rw [addDefault_eq hnamed htext hdeep]
      show List.foldlM (addDefault interpreter command) _ rest = _ ↔ _
      rw [ih hrest]
      simp only [hdeep, not_false_eq_true, true_and]
      cases hdefault : namedDefault interpreter raw with
      | none => rw [List.filterMap_cons_none hdefault]
      | some m => rw [List.filterMap_cons_some hdefault, updateFields_cons]

def overlay (interpreter : Interpreter) (schema arguments : Fields) : Fields :=
  updateFields (updateFields [] (flatDefaults interpreter schema)) arguments

theorem keys_flatDefaults (raws : List Json) :
    ((raws.filterMap (namedDefault interpreter)).map Prod.fst).Sublist (raws.map nameOf) := by
  induction raws with
  | nil => exact List.Sublist.refl _
  | cons raw rest ih =>
    cases hdefault : namedDefault interpreter raw with
    | none =>
      rw [List.filterMap_cons_none hdefault]
      exact ih.cons (nameOf raw)
    | some m =>
      have hname : m.1 = nameOf raw := by
        unfold namedDefault at hdefault
        obtain ⟨d, -, rfl⟩ := Option.map_eq_some_iff.mp hdefault
        rfl
      rw [List.filterMap_cons_some hdefault, List.map_cons, List.map_cons, hname]
      exact ih.cons_cons (nameOf raw)

theorem names_nodup (h : InputsDeclared command schema) :
    ((rawInputs schema).map nameOf).Nodup := by
  have hpaths : (declaredInputs schema).map InputSpec.path =
      ((rawInputs schema).map nameOf).map dottedPath := by
    unfold declaredInputs
    rw [List.map_map, List.map_map]
    exact List.map_congr_left fun raw hraw => (named_path (h.named raw hraw)).1
  have hdistinct := h.distinct
  rw [hpaths] at hdistinct
  exact List.Nodup.of_map dottedPath hdistinct

theorem flatDefaults_nodup (h : InputsDeclared command schema) :
    ((flatDefaults interpreter schema).map Prod.fst).Nodup :=
  (keys_flatDefaults _).nodup (names_nodup h)

theorem lookup_overlay (h : InputsDeclared command schema)
    (harguments : (arguments.map Prod.fst).Nodup) (key : String) :
    (overlay interpreter schema arguments).lookup key =
      (arguments.lookup key).or ((flatDefaults interpreter schema).lookup key) := by
  unfold overlay
  rw [lookup_updateFields harguments, lookup_updateFields (flatDefaults_nodup h),
    List.lookup_nil, Option.or_none]

theorem mem_flatDefaults {m : String × Json} :
    m ∈ flatDefaults interpreter schema ↔
      ∃ raw ∈ rawInputs schema, nameOf raw = m.1 ∧
        defaultOf interpreter (specOf raw).input = some m.2 := by
  unfold flatDefaults
  rw [List.mem_filterMap]
  refine exists_congr fun raw => and_congr_right fun _ => ?_
  unfold namedDefault
  rw [Option.map_eq_some_iff]
  constructor
  · intro h
    obtain ⟨d, hd, rfl⟩ := h
    exact ⟨rfl, hd⟩
  · intro h
    exact ⟨m.2, h.2, by rw [h.1]⟩

/-- A default is a value the parser of its placeholder builds. -/
theorem distinct_defaultOf {input : Fields} {value : Json}
    (h : defaultOf interpreter input = some value) : value.Distinct := by
  have hread : actionInputDefault interpreter.unlimited input = .ok (some value) := by
    unfold defaultOf at h
    split at h
    · next default heq => rw [heq, h]
    · cases h
  unfold actionInputDefault at hread
  split at hread
  · cases hread
  · next raw heq =>
    unfold placeholderValue at hread
    split_ifs at hread
    · cases hread
    · cases hread
      trivial
    · obtain ⟨n, -, rfl⟩ := Option.map_eq_some_iff.mp (Except.ok.inj hread)
      trivial
    · obtain ⟨x, -, hx⟩ := Option.bind_eq_some_iff.mp (Except.ok.inj hread)
      split at hx
      · cases hx
        trivial
      · cases hx
    · obtain ⟨parsed, hparsed, hvalue⟩ := bind_eq_ok.mp hread
      obtain ⟨-, hloads⟩ := Interpreter.loads_eq_ok.mp hparsed
      cases hvalue
      cases hfound : parsed with
      | none => trivial
      | some found =>
        rw [hfound] at hloads
        exact distinct_loadsWith hloads
    · cases hread
      trivial
  · cases hread

theorem distinct_overlay (hdistinct : Json.Distinct (.obj arguments)) :
    Json.Distinct (.obj (overlay interpreter schema arguments)) := by
  refine distinct_updateFields (distinct_updateFields (distinct_obj.mpr (by simp)) fun m hm => ?_)
    (distinct_obj.mp hdistinct).2
  obtain ⟨raw, -, -, hdefault⟩ := mem_flatDefaults.mp hm
  exact distinct_defaultOf hdefault

/-- What a fold over the inputs keeps when placing one default keeps it. -/
theorem placeDefaults_keep {motive : Fields → Prop} {specs : List InputSpec} {nested : Fields}
    (hstep : ∀ spec ∈ specs, ∀ default, defaultOf interpreter spec.input = some default →
      pathValue (.obj arguments) spec.path = none → ∀ fields, motive fields →
        motive (placeAt fields spec.path default))
    (hnested : motive nested) : motive (specs.foldl (placeDefault interpreter arguments) nested) := by
  induction specs generalizing nested with
  | nil => exact hnested
  | cons spec rest ih =>
    rw [List.foldl_cons]
    apply ih
    · intro other hother
      exact hstep other (List.mem_cons_of_mem spec hother)
    · unfold placeDefault
      cases hdefault : defaultOf interpreter spec.input with
      | none => exact hnested
      | some default =>
        dsimp only
        split
        · next hnone =>
          exact hstep spec List.mem_cons_self default hdefault (Option.isNone_iff_eq_none.mp hnone)
            nested hnested
        · exact hnested

theorem distinct_nestedArguments (hdistinct : Json.Distinct (.obj arguments)) :
    Json.Distinct (.obj (nestedArguments interpreter schema arguments)) := by
  unfold nestedArguments
  refine placeDefaults_keep (motive := fun fields => Json.Distinct (.obj fields)) ?_ hdistinct
  intro spec _ default hdefault _ fields hfields
  exact distinct_placeAt hfields spec.path (distinct_defaultOf hdefault)

end Defaults

section Agreement

variable {interpreter : Interpreter} {command : String} {schema arguments : Fields}

/-- Accepted arguments have well declared inputs, and every key at their root is
the head of a declared path. -/
theorem root_declared (h : validateActionArguments command arguments schema = .ok ()) :
    InputsDeclared command schema ∧ ∀ key, Fields.has arguments key = true →
      ∃ spec ∈ declaredInputs schema, spec.path.head? = some key := by
  unfold validateActionArguments at h
  obtain ⟨specs, hspecs, h⟩ := bind_eq_ok.mp h
  obtain ⟨hdeclared, -, rfl⟩ := specPaths_eq_ok.mp hspecs
  obtain ⟨hwalk, -⟩ := bind_unit_eq_ok.mp h
  have hallowed := (validateObject_root_eq_ok hdeclared.prefixFree arguments).mp hwalk
  refine ⟨hdeclared, fun key hkey => ?_⟩
  obtain ⟨m, hm, rfl⟩ := List.mem_map.mp (has_eq_true_iff.mp hkey)
  rcases hallowed _ _ ⟨m, hm, .here _ _⟩ with ⟨spec, hspec, hpath, -⟩ | ⟨⟨spec, hspec, habove⟩, -⟩
  · exact ⟨spec, hspec, by rw [hpath]; rfl⟩
  · obtain ⟨next, rest, hpath⟩ := properPrefix_iff.mp habove
    exact ⟨spec, hspec, by rw [hpath]; rfl⟩

theorem root_nested (h : validateActionArguments command arguments schema = .ok ()) {key : String}
    (hkey : Fields.has (nestedArguments interpreter schema arguments) key = true) :
    ∃ spec ∈ declaredInputs schema, spec.path.head? = some key := by
  revert hkey
  unfold nestedArguments
  refine placeDefaults_keep
    (motive := fun fields => Fields.has fields key = true →
      ∃ spec ∈ declaredInputs schema, spec.path.head? = some key) ?_ ((root_declared h).2 key)
  intro spec hspec default _ _ fields hfields hkey
  rcases has_placeAt hkey with hhas | hhead
  · exact hfields hhas
  · exact ⟨spec, hspec, hhead⟩

/-- A name at the root that is also the name of an input is that input's path. -/
theorem path_of_head (h : InputsDeclared command schema) {raw : Json}
    (hraw : raw ∈ rawInputs schema) (hhead : ∃ spec ∈ declaredInputs schema, spec.path.head? = some (nameOf raw)) :
    (specOf raw).path = [nameOf raw] := by
  obtain ⟨spec, hspec, hhead⟩ := hhead
  obtain ⟨other, hother, rfl⟩ := List.mem_map.mp hspec
  rw [(named_path (h.named other hother)).1] at hhead
  rw [(named_path (h.named raw hraw)).1]
  exact dottedPath_part (List.mem_of_mem_head? hhead)

/-- No input below the root has a default. -/
def PlainDefaults (interpreter : Interpreter) (schema : Fields) : Prop :=
  ∀ spec ∈ declaredInputs schema,
    (defaultOf interpreter spec.input).isSome = true → spec.path.length = 1

/-- Where all defaults lie at the root, placing them is an update by name. -/
theorem nestedArguments_plain (h : InputsDeclared command schema)
    (hplain : PlainDefaults interpreter schema) :
    nestedArguments interpreter schema arguments = updateFields arguments
      ((flatDefaults interpreter schema).filter fun m => !Fields.has arguments m.1) := by
  have hfold : ∀ raws : List Json, (∀ raw ∈ raws, raw ∈ rawInputs schema) → ∀ nested : Fields,
      (raws.map specOf).foldl (placeDefault interpreter arguments) nested = updateFields nested
        ((raws.filterMap (namedDefault interpreter)).filter fun m => !Fields.has arguments m.1) := by
    intro raws hraws
    induction raws with
    | nil =>
      intro nested
      rfl
    | cons raw rest ih =>
      intro nested
      obtain ⟨hraw, hrest⟩ := List.forall_mem_cons.mp hraws
      rw [List.map_cons, List.foldl_cons, ih hrest]
      unfold placeDefault
      cases hdefault : defaultOf interpreter (specOf raw).input with
      | none =>
        have hnamed : namedDefault interpreter raw = none := by
          unfold namedDefault
          rw [hdefault]
          rfl
        rw [List.filterMap_cons_none hnamed]
      | some default =>
        have hnamed : namedDefault interpreter raw = some (nameOf raw, default) := by
          unfold namedDefault
          rw [hdefault]
          rfl
        have hpath : (specOf raw).path = [nameOf raw] := by
          have hlength := hplain _ (List.mem_map_of_mem hraw) (by rw [hdefault]; rfl)
          rw [(named_path (h.named raw hraw)).1] at hlength ⊢
          exact dottedPath_of_length hlength
        have hbound : (pathValue (.obj arguments) [nameOf raw]).isNone =
            !Fields.has arguments (nameOf raw) := by
          rw [pathValue_cons]
          unfold Fields.has
          cases arguments.lookup (nameOf raw) <;> rfl
        rw [List.filterMap_cons_some hnamed, List.filter_cons]
        dsimp only
        rw [hpath, hbound]
        cases Fields.has arguments (nameOf raw) with
        | true => rfl
        | false => rfl
  exact hfold (rawInputs schema) (fun raw hraw => hraw) arguments

theorem lookup_nestedArguments_plain (h : InputsDeclared command schema)
    (harguments : (arguments.map Prod.fst).Nodup) (hplain : PlainDefaults interpreter schema)
    (key : String) : (nestedArguments interpreter schema arguments).lookup key =
      (overlay interpreter schema arguments).lookup key := by
  have hnodup : (((flatDefaults interpreter schema).filter fun m => !Fields.has arguments m.1).map
      Prod.fst).Nodup :=
    (List.filter_sublist.map Prod.fst).nodup (flatDefaults_nodup h)
  rw [nestedArguments_plain h hplain, lookup_updateFields hnodup, lookup_overlay h harguments,
    lookup_filter_keys _ (fun name => !Fields.has arguments name)]
  unfold Fields.has
  cases arguments.lookup key with
  | some value => simp
  | none => simp

/-- A default below the root is under a key of the overlay that no tree has. -/
theorem not_same_keys (h : validateActionArguments command arguments schema = .ok ())
    (harguments : (arguments.map Prod.fst).Nodup) (hplain : ¬ PlainDefaults interpreter schema) :
    ∃ key, Fields.has (overlay interpreter schema arguments) key = true ∧
      ¬ Fields.has (nestedArguments interpreter schema arguments) key = true := by
  have hdeclared := (root_declared h).1
  unfold PlainDefaults at hplain
  push Not at hplain
  obtain ⟨spec, hspec, hdefault, hlength⟩ := hplain
  obtain ⟨raw, hraw, rfl⟩ := List.mem_map.mp hspec
  obtain ⟨default, hdefault⟩ := Option.isSome_iff_exists.mp hdefault
  refine ⟨nameOf raw, ?_, fun hkey => hlength ?_⟩
  · unfold Fields.has
    have hmem : (nameOf raw, default) ∈ flatDefaults interpreter schema :=
      mem_flatDefaults.mpr ⟨raw, hraw, rfl, hdefault⟩
    rw [lookup_overlay hdeclared harguments,
      lookup_eq_some_of_mem (flatDefaults_nodup hdeclared) hmem]
    cases arguments.lookup (nameOf raw) <;> rfl
  · rw [path_of_head hdeclared hraw (root_nested h hkey)]
    rfl

/-- The tree holds no number that the overlay does not hold. -/
theorem comparable_nested_of_overlay
    (h : validateActionArguments command arguments schema = .ok ())
    (harguments : (arguments.map Prod.fst).Nodup)
    (hoverlay : comparable (.obj (overlay interpreter schema arguments)) = true) :
    comparable (.obj (nestedArguments interpreter schema arguments)) = true := by
  have hdeclared := (root_declared h).1
  unfold comparable at hoverlay
  rw [everyNumber_obj] at hoverlay
  have hlookup : ∀ key value, (overlay interpreter schema arguments).lookup key = some value →
      comparable value = true := by
    intro key value hvalue
    obtain ⟨before, after, heq, -⟩ := List.lookup_eq_some_iff.mp hvalue
    refine hoverlay (key, value) ?_
    rw [heq]
    exact List.mem_append_right before List.mem_cons_self
  unfold nestedArguments
  refine placeDefaults_keep (motive := fun fields => comparable (.obj fields) = true) ?_ ?_
  · intro spec hspec default hdefault hunbound fields hfields
    obtain ⟨raw, hraw, rfl⟩ := List.mem_map.mp hspec
    refine everyNumber_placeAt hfields _ (hlookup (nameOf raw) default ?_)
    have hmem : (nameOf raw, default) ∈ flatDefaults interpreter schema :=
      mem_flatDefaults.mpr ⟨raw, hraw, rfl, hdefault⟩
    rw [lookup_overlay hdeclared harguments,
      lookup_eq_some_of_mem (flatDefaults_nodup hdeclared) hmem]
    cases hname : arguments.lookup (nameOf raw) with
    | none => rfl
    | some value =>
      have hhas : Fields.has arguments (nameOf raw) = true := by
        unfold Fields.has
        rw [hname]
        rfl
      rw [path_of_head hdeclared hraw ((root_declared h).2 _ hhas), pathValue_cons, hname]
        at hunbound
      cases hunbound
  · unfold comparable
    rw [everyNumber_obj]
    intro m hm
    refine hlookup m.1 m.2 ?_
    rw [lookup_overlay hdeclared harguments, lookup_eq_some_of_mem harguments hm]
    rfl

/-- The interpreter can read every placeholder of a schema, and copy the defaults and the
arguments. -/
structure WithinLimits (interpreter : Interpreter) (schema arguments : Fields) : Prop where
  read : ∀ raw ∈ rawInputs schema, ¬ DeepPlaceholder interpreter (specOf raw).input
  defaults : exceeds interpreter.copying
    (copyCalls (.obj (updateFields [] (flatDefaults interpreter schema)))) = false
  arguments : exceeds interpreter.copying (copyCalls (.obj arguments)) = false

/-- With text placeholders and explicit keys that are the arguments', the check
compares what was recorded with the overlay, if it gets that far. -/
theorem validateActionProvenance_eq_ok
    (h : validateActionArguments command arguments schema = .ok ())
    (htext : ∀ raw ∈ rawInputs schema, TextPlaceholder raw) {effective : Fields}
    {explicit : Option (List String)}
    (hexplicit : ∀ keys, explicit = some keys → sameKeys keys arguments = true) :
    validateActionProvenance ⟨command, arguments, some effective, explicit⟩ schema interpreter =
        .ok () ↔ WithinLimits interpreter schema arguments ∧
      jsonValuesEqual (.obj effective) (.obj (overlay interpreter schema arguments)) = .ok true := by
  have hdeclared := (root_declared h).1
  have hinputs : specInputs command schema = .ok (rawInputs schema) := by
    obtain ⟨raws, hraws⟩ := hdeclared.inputs
    unfold specInputs rawInputs
    rw [hraws]
    rfl
  have hraws : ∀ raw ∈ rawInputs schema, IsNamed raw ∧ TextPlaceholder raw :=
    fun raw hraw => ⟨hdeclared.named raw hraw, htext raw hraw⟩
  unfold validateActionProvenance
  dsimp only
  rw [hinputs]
  show (((rawInputs schema).foldlM (addDefault interpreter command) []) >>= _) = _ ↔ _
  rw [bind_eq_ok]
  constructor
  · intro hok
    obtain ⟨defaults, hdefaults, hok⟩ := hok
    obtain ⟨hread, rfl⟩ := (foldlM_addDefault hraws).mp hdefaults
    obtain ⟨-, hok⟩ := bind_unit_eq_ok.mp hok
    obtain ⟨copied, hcopied, hok⟩ := bind_eq_ok.mp hok
    obtain ⟨hcopies, rfl⟩ := Interpreter.deepcopy_eq_ok.mp hcopied
    obtain ⟨copied, hcopied, hok⟩ := bind_eq_ok.mp hok
    obtain ⟨hcopies', rfl⟩ := Interpreter.deepcopy_eq_ok.mp hcopied
    obtain ⟨same, hsame, hok⟩ := bind_eq_ok.mp hok
    rw [rejectIf_eq_ok, Bool.not_eq_false'] at hok
    rw [hok] at hsame
    exact ⟨⟨hread, hcopies, hcopies'⟩, hsame⟩
  · intro hequal
    obtain ⟨hlimits, hequal⟩ := hequal
    refine ⟨_, (foldlM_addDefault hraws).mpr ⟨hlimits.read, rfl⟩,
      bind_unit_eq_ok.mpr ⟨rejectIf_eq_ok.mpr ?_, ?_⟩⟩
    · cases explicit with
      | none => rfl
      | some keys =>
        dsimp only
        rw [hexplicit keys rfl]
        rfl
    · exact bind_eq_ok.mpr ⟨_, Interpreter.deepcopy_eq_ok.mpr ⟨hlimits.defaults, rfl⟩,
        bind_eq_ok.mpr ⟨_, Interpreter.deepcopy_eq_ok.mpr ⟨hlimits.arguments, rfl⟩,
          bind_eq_ok.mpr ⟨true, hequal, rejectIf_eq_ok.mpr rfl⟩⟩⟩

/-- Whatever was recorded, it passes exactly when it is the same JSON as the tree of the
arguments with every default placed at its path. -/
def ProvenanceAgrees (interpreter : Interpreter) (command : String) (schema arguments : Fields) :
    Prop :=
  ∀ effective explicit, Json.Distinct (.obj effective) →
    (∀ keys, explicit = some keys → sameKeys keys arguments = true) →
    (validateActionProvenance ⟨command, arguments, some effective, explicit⟩ schema interpreter =
        .ok () ↔
      JsonSame (.obj effective) (.obj (nestedArguments interpreter schema arguments)))

/-- The check agrees with the paths exactly when some number of the tree is no JSON, or when no
input below the root has a default, every number of the tree stands alone among the floats,
and the interpreter's limits are kept. -/
theorem provenance_agrees_iff (hdistinct : Json.Distinct (.obj arguments))
    (h : validateActionArguments command arguments schema = .ok ())
    (htext : ∀ raw ∈ rawInputs schema, TextPlaceholder raw) :
    ProvenanceAgrees interpreter command schema arguments ↔
      allExact (.obj (nestedArguments interpreter schema arguments)) = false ∨
        (PlainDefaults interpreter schema ∧
          allAlone (.obj (nestedArguments interpreter schema arguments)) = true ∧
          WithinLimits interpreter schema arguments) := by
  have hkeys := (distinct_obj.mp hdistinct).1
  have hnested : Json.Distinct (.obj (nestedArguments interpreter schema arguments)) :=
    distinct_nestedArguments hdistinct
  have hnone : ∀ keys, (none : Option (List String)) = some keys →
      sameKeys keys arguments = true := fun keys heq => by cases heq
  constructor
  · intro hagrees
    by_cases hexact : allExact (.obj (nestedArguments interpreter schema arguments)) = true
    · right
      have hpass := (hagrees _ none hnested hnone).mpr (same_self hnested hexact)
      obtain ⟨hlimits, hoverlay⟩ := (validateActionProvenance_eq_ok h htext hnone).mp hpass
      have hplain : PlainDefaults interpreter schema := by
        by_contra hplain
        obtain ⟨key, hhas, hnot⟩ := not_same_keys h hkeys hplain
        exact hnot (((objectsEqual_eq_ok.mp hoverlay).1 key).mpr hhas)
      have hlookup := lookup_nestedArguments_plain (root_declared h).1 hkeys hplain
      refine ⟨hplain, ?_, hlimits⟩
      by_contra halone
      -- a number that does not stand alone lets a second record pass
      have hcomparable := comparable_of_equal hnested
        ((objectsEqual_congr fun key => (hlookup key).symm).mp hoverlay)
      obtain ⟨other, hother, hequal, hdiffer⟩ :=
        exists_confused hnested hcomparable (Bool.not_eq_true _ ▸ halone)
      cases other with
      | obj effective =>
        refine hdiffer ((hagrees effective none hother hnone).mp
          ((validateActionProvenance_eq_ok h htext hnone).mpr ⟨hlimits, ?_⟩))
        exact (objectsEqual_congr hlookup).mp hequal
      | _ => simp [jsonValuesEqual, isNumber, Json.isNull] at hequal
    · exact .inl (Bool.not_eq_true _ ▸ hexact)
  · intro hcondition effective explicit heffective hexplicit
    rw [validateActionProvenance_eq_ok h htext hexplicit]
    rcases hcondition with hinexact | ⟨hplain, halone, hlimits⟩
    · have hnot : ¬ allExact (.obj (nestedArguments interpreter schema arguments)) = true := by
        rw [hinexact]
        exact Bool.false_ne_true
      refine iff_of_false (fun hpass => hnot ?_) fun hsame => hnot (allExact_of_same hnested hsame)
      exact allExact_of_comparable (comparable_nested_of_overlay h hkeys
        (comparable_of_equal (distinct_overlay hdistinct) hpass.2))
    · rw [← jsonValuesEqual_of_alone heffective hnested halone]
      have hcompare := @objectsEqual_congr effective _ _ fun key =>
        (lookup_nestedArguments_plain (root_declared h).1 hkeys hplain key).symm
      exact ⟨fun hpass => hcompare.mp hpass.2, fun hequal => ⟨hlimits, hcompare.mpr hequal⟩⟩

/-- A gripper whose force has a default, below the root or at it. -/
def gripSchema (name : String) : Fields :=
  [("inputs", .arr [.obj [("name", .str name), ("type", .str "int"), ("required", .bool false),
    ("placeholder", .str "2")]])]

theorem provenance_agrees_sample : ProvenanceAgrees .plain "grasp" (gripSchema "force") [] := by
  refine (provenance_agrees_iff (distinct_obj.mpr (by simp)) (by decide +kernel)
    fun raw hraw => ?_).mpr (.inr ⟨fun spec hspec _ => ?_, by decide +kernel, ?_⟩)
  · cases List.mem_singleton.mp hraw
    exact .inr ⟨"2", rfl⟩
  · cases List.mem_singleton.mp hspec
    decide +kernel
  · refine ⟨fun raw _ hdeep => ?_, rfl, rfl⟩
    obtain ⟨text, -, -, hexceeds⟩ := hdeep
    exact absurd hexceeds Bool.false_ne_true

/-- The tree of the arguments with the default in it is refused. -/
theorem dotted_default_refused :
    validateActionArguments "grasp" [] (gripSchema "grip.force") = .ok () ∧
      (∀ raw ∈ rawInputs (gripSchema "grip.force"), TextPlaceholder raw) ∧
      nestedArguments .plain (gripSchema "grip.force") [] = [("grip", .obj [("force", .int 2)])] ∧
      ¬ ProvenanceAgrees .plain "grasp" (gripSchema "grip.force") [] := by
  have hnested : nestedArguments .plain (gripSchema "grip.force") [] =
      [("grip", .obj [("force", .int 2)])] := by
    rfl
  refine ⟨by decide +kernel, fun raw hraw => ?_, hnested, fun hagrees => ?_⟩
  · cases List.mem_singleton.mp hraw
    exact .inr ⟨"2", rfl⟩
  have hdistinct : Json.Distinct (.obj [("grip", .obj [("force", .int 2)])]) := by
    simp [Json.Distinct, Json.DistinctMembers]
  have hpass := (hagrees [("grip", .obj [("force", .int 2)])] none hdistinct
    (fun keys heq => by cases heq)).mpr (by rw [hnested]; exact same_self hdistinct rfl)
  revert hpass
  decide +kernel

end Agreement

end FailureResolver.ArgumentDefaults
