import FailureResolver.CheckedFold
import FailureResolver.CommandSchema
import FailureResolver.PlanParsing

/-!
The arguments of a correction as a tree of paths. Every input of an action spec
declares the path its dotted name stands for, and no declared path lies above
another. The arguments are walked from the root through what lies above declared
paths; the walk accepts them exactly when everything it meets is declared, or is
an object above something declared.
-/

namespace FailureResolver.ArgumentPaths

open JsonValue PyException PyText RecoveryContract ActionPlan PlanParsing CommandSchema CheckedFold

section Paths

theorem properPrefix_iff {short long : List String} :
    properPrefix short long = true ↔ ∃ key rest, long = short ++ key :: rest := by
  unfold properPrefix
  rw [Bool.and_eq_true, decide_eq_true_eq, List.isPrefixOf_iff_prefix]
  constructor
  · intro h
    obtain ⟨⟨rest, rfl⟩, hne⟩ := h
    cases rest with
    | nil => exact absurd (List.append_nil short).symm hne
    | cons key rest => exact ⟨key, rest, rfl⟩
  · intro h
    obtain ⟨key, rest, rfl⟩ := h
    refine ⟨⟨key :: rest, rfl⟩, fun heq => ?_⟩
    have hlength := congrArg List.length heq
    rw [List.length_append, List.length_cons] at hlength
    omega

def IsDeclared (specs : List InputSpec) (path : List String) : Prop :=
  ∃ spec ∈ specs, spec.path = path

def IsAbove (specs : List InputSpec) (path : List String) : Prop :=
  ∃ spec ∈ specs, properPrefix path spec.path = true

/-- Paths without empty parts, each declared once and none above another. -/
structure PrefixFree (specs : List InputSpec) : Prop where
  parts : ∀ spec ∈ specs, "" ∉ spec.path
  distinct : (specs.map InputSpec.path).Nodup
  free : ∀ spec ∈ specs, ¬ IsAbove specs spec.path

variable {specs : List InputSpec} {path : List String} {key : String}

theorem PrefixFree.spec_unique (h : PrefixFree specs) {spec other : InputSpec}
    (hspec : spec ∈ specs) (hother : other ∈ specs) (hpath : spec.path = other.path) :
    spec = other :=
  List.inj_on_of_nodup_map h.distinct hspec hother hpath

/-- A key on the way to a declared path is not empty. -/
theorem PrefixFree.key_ne_empty (h : PrefixFree specs)
    (hkey : IsDeclared specs (path ++ [key]) ∨ IsAbove specs (path ++ [key])) : key ≠ "" := by
  rintro rfl
  rcases hkey with ⟨spec, hspec, hpath⟩ | ⟨spec, hspec, hpath⟩
  · refine h.parts spec hspec ?_
    rw [hpath]
    simp
  · obtain ⟨next, rest, heq⟩ := properPrefix_iff.mp hpath
    refine h.parts spec hspec ?_
    rw [heq]
    simp

end Paths

section Walk

variable {specs : List InputSpec} {command : String}

/-- From the value at a path, through objects above declared paths, one gets to
a value below it. -/
inductive Descends (specs : List InputSpec) : List String → Json → List String → Json → Prop
  | here (path : List String) (value : Json) : Descends specs path value path value
  | down {path below : List String} {members : Fields} {m : String × Json} {found : Json}
      (habove : IsAbove specs path) (hmem : m ∈ members)
      (hrest : Descends specs (path ++ [m.1]) m.2 below found) :
      Descends specs path (.obj members) below found

/-- What the walk meets when it starts at the root of the arguments. -/
def Met (specs : List InputSpec) (arguments : Fields) (path : List String) (value : Json) : Prop :=
  ∃ m ∈ arguments, Descends specs [m.1] m.2 path value

theorem sizeOf_member_lt {members : Fields} {m : String × Json} (h : m ∈ members) :
    sizeOf m.2 < sizeOf (Json.obj members) := by
  have hlt := List.sizeOf_lt_of_mem h
  obtain ⟨key, value⟩ := m
  simp only [Prod.mk.sizeOf_spec, Json.obj.sizeOf_spec] at hlt ⊢
  omega

def AcceptedBy (command : String) (value : Json) (spec : InputSpec) : Prop :=
  validateInputValue value spec.input s!"{command}.{joinDots spec.path}" = .ok ()

/-- A declared value that its input accepts, or an object above declared ones. -/
def Allowed (specs : List InputSpec) (command : String) (path : List String) (value : Json) :
    Prop :=
  (∃ spec ∈ specs, spec.path = path ∧ AcceptedBy command value spec) ∨
    (IsAbove specs path ∧ ∃ members, value = .obj members)

theorem validateObject_eq_ok {path : List String} {members : Fields} :
    validateObject specs command path members = .ok () ↔
      ∀ m ∈ members, m.1 ≠ "" ∧ validateArgument specs command (path ++ [m.1]) m.2 = .ok () := by
  induction members with
  | nil => simp [validateObject]
  | cons m rest ih =>
    obtain ⟨key, value⟩ := m
    rw [validateObject, bind_unit_eq_ok, bind_unit_eq_ok, ih, rejectIf_eq_ok,
      decide_eq_false_iff_not, List.forall_mem_cons, and_assoc]

theorem validateArgument_declared (h : PrefixFree specs) {spec : InputSpec} (hspec : spec ∈ specs)
    {value : Json} : validateArgument specs command spec.path value =
      validateInputValue value spec.input s!"{command}.{joinDots spec.path}" := by
  rw [validateArgument.eq_def]
  cases hfind : specs.find? (fun other => decide (other.path = spec.path)) with
  | none =>
    rw [List.find?_eq_none] at hfind
    exact absurd (decide_eq_true rfl) (hfind spec hspec)
  | some found =>
    have hpath : found.path = spec.path := by simpa using List.find?_some hfind
    rw [h.spec_unique (List.mem_of_find?_eq_some hfind) hspec hpath]

theorem find_undeclared {path : List String} (h : ¬ IsDeclared specs path) :
    specs.find? (fun spec => decide (spec.path = path)) = none := by
  rw [List.find?_eq_none]
  intro spec hspec hpath
  exact h ⟨spec, hspec, by simpa using hpath⟩

theorem any_above_iff {path : List String} :
    (specs.any fun spec => properPrefix path spec.path) = true ↔ IsAbove specs path := by
  rw [List.any_eq_true]
  rfl

theorem validateArgument_undeclared {path : List String} {value : Json}
    (hdeclared : ¬ IsDeclared specs path) (habove : ¬ IsAbove specs path) :
    validateArgument specs command path value ≠ .ok () := by
  rw [validateArgument.eq_def, find_undeclared hdeclared]
  dsimp only
  rw [if_neg (mt any_above_iff.mp habove)]
  exact reject_ne_ok

theorem validateArgument_above {path : List String} {value : Json}
    (hdeclared : ¬ IsDeclared specs path) (habove : IsAbove specs path) :
    validateArgument specs command path value = .ok () ↔
      ∃ members, value = .obj members ∧ ∀ m ∈ members, m.1 ≠ "" ∧
        validateArgument specs command (path ++ [m.1]) m.2 = .ok () := by
  rw [validateArgument.eq_def, find_undeclared hdeclared]
  dsimp only
  rw [if_pos (any_above_iff.mpr habove)]
  cases value with
  | obj members =>
    dsimp only
    rw [validateObject_eq_ok]
    constructor
    · intro h
      exact ⟨members, rfl, h⟩
    · intro h
      obtain ⟨members', heq, h⟩ := h
      cases heq
      exact h
  | _ =>
    constructor
    · intro h
      exact absurd h reject_ne_ok
    · intro h
      obtain ⟨members, heq, -⟩ := h
      cases heq

/-- A declared value, or one that is on no way to a declared path, is as far as
the walk gets. -/
theorem descends_stop {path below : List String} {value found : Json}
    (habove : ¬ IsAbove specs path) (h : Descends specs path value below found) :
    below = path ∧ found = value := by
  cases h with
  | here => exact ⟨rfl, rfl⟩
  | down habove' => exact absurd habove' habove

/-- The walk of one argument accepts exactly when everything it meets is allowed. -/
theorem validateArgument_eq_ok (h : PrefixFree specs) (path : List String) (value : Json) :
    validateArgument specs command path value = .ok () ↔
      ∀ below found, Descends specs path value below found →
        Allowed specs command below found := by
  induction hsize : sizeOf value using Nat.strong_induction_on generalizing path value with
  | _ size ih =>
    by_cases hdeclared : IsDeclared specs path
    · obtain ⟨spec, hspec, rfl⟩ := hdeclared
      have habove : ¬ IsAbove specs spec.path := h.free spec hspec
      rw [validateArgument_declared h hspec]
      constructor
      · intro hok below found hdescends
        obtain ⟨rfl, rfl⟩ := descends_stop habove hdescends
        exact .inl ⟨spec, hspec, rfl, hok⟩
      · intro hall
        rcases hall _ _ (.here _ _) with ⟨other, hother, hpath, hok⟩ | ⟨habove', -⟩
        · rw [h.spec_unique hspec hother hpath.symm]
          exact hok
        · exact absurd habove' habove
    · by_cases habove : IsAbove specs path
      · rw [validateArgument_above hdeclared habove]
        constructor
        · intro hok below found hdescends
          obtain ⟨members, rfl, hmembers⟩ := hok
          cases hdescends with
          | here => exact .inr ⟨habove, members, rfl⟩
          | down _ hmem hrest =>
            subst hsize
            exact (ih _ (sizeOf_member_lt hmem) _ _ rfl).mp (hmembers _ hmem).2 _ _ hrest
        · intro hall
          rcases hall _ _ (.here _ _) with ⟨spec, hspec, hpath, -⟩ | ⟨-, members, rfl⟩
          · exact absurd ⟨spec, hspec, hpath⟩ hdeclared
          · refine ⟨members, rfl, fun m hm => ?_⟩
            have hallowed : ∀ below found, Descends specs (path ++ [m.1]) m.2 below found →
                Allowed specs command below found :=
              fun below found hrest => hall below found (.down habove hm hrest)
            refine ⟨?_, ?_⟩
            · rcases hallowed _ _ (.here _ _) with ⟨spec, hspec, hpath, -⟩ | ⟨hnext, -⟩
              · exact h.key_ne_empty (.inl ⟨spec, hspec, hpath⟩)
              · exact h.key_ne_empty (.inr hnext)
            · subst hsize
              exact (ih _ (sizeOf_member_lt hm) _ _ rfl).mpr hallowed
      · constructor
        · intro hok
          exact absurd hok (validateArgument_undeclared hdeclared habove)
        · intro hall
          rcases hall _ _ (.here _ _) with ⟨spec, hspec, hpath, -⟩ | ⟨habove', -⟩
          · exact absurd ⟨spec, hspec, hpath⟩ hdeclared
          · exact absurd habove' habove

/-- The walk of all arguments accepts exactly when everything it meets is allowed. -/
theorem validateObject_root_eq_ok (h : PrefixFree specs) (arguments : Fields) :
    validateObject specs command [] arguments = .ok () ↔
      ∀ path value, Met specs arguments path value → Allowed specs command path value := by
  rw [validateObject_eq_ok]
  constructor
  · intro hok path value hmet
    obtain ⟨m, hm, hdescends⟩ := hmet
    exact (validateArgument_eq_ok h _ _).mp (hok m hm).2 path value hdescends
  · intro hall m hm
    have hallowed : ∀ path value, Descends specs [m.1] m.2 path value →
        Allowed specs command path value := fun path value hdescends =>
      hall path value ⟨m, hm, hdescends⟩
    refine ⟨?_, (validateArgument_eq_ok h _ _).mpr hallowed⟩
    have hkey : ∀ path, path = [] ++ [m.1] → IsDeclared specs path ∨ IsAbove specs path →
        m.1 ≠ "" := by
      intro path hpath hnext
      subst hpath
      exact h.key_ne_empty hnext
    rcases hallowed _ _ (.here _ _) with ⟨spec, hspec, hpath, -⟩ | ⟨hnext, -⟩
    · exact hkey _ rfl (.inl ⟨spec, hspec, hpath⟩)
    · exact hkey _ rfl (.inr hnext)

end Walk

section Values

variable {specs : List InputSpec}

theorem pathValue_cons {members : Fields} {key : String} {path : List String} :
    pathValue (.obj members) (key :: path) = (members.lookup key).bind (pathValue · path) := by
  rw [pathValue]
  unfold Fields.has Fields.get
  cases members.lookup key <;> rfl

/-- What the walk meets is what lies at its path. -/
theorem pathValue_of_descends {path below : List String} {value found : Json}
    (h : Descends specs path value below found) (hdistinct : value.Distinct) :
    ∃ suffix, below = path ++ suffix ∧ pathValue value suffix = some found := by
  induction h with
  | here path value => exact ⟨[], (List.append_nil path).symm, rfl⟩
  | down _ hmem _ ih =>
    obtain ⟨hkeys, hvalues⟩ := distinct_obj.mp hdistinct
    obtain ⟨suffix, rfl, hvalue⟩ := ih (hvalues _ hmem)
    refine ⟨_ :: suffix, by rw [List.append_assoc]; rfl, ?_⟩
    rw [pathValue_cons, lookup_eq_some_of_mem hkeys hmem]
    exact hvalue

/-- What lies at a path whose upper part is above declared paths is met. -/
theorem descends_of_pathValue {path suffix : List String} {value found : Json}
    (h : pathValue value suffix = some found)
    (habove : ∀ before key rest, suffix = before ++ key :: rest → IsAbove specs (path ++ before)) :
    Descends specs path value (path ++ suffix) found := by
  induction suffix generalizing path value with
  | nil =>
    cases h
    rw [List.append_nil]
    exact .here path _
  | cons key suffix ih =>
    cases value with
    | obj members =>
      rw [pathValue_cons] at h
      obtain ⟨x, hx, hrest⟩ := Option.bind_eq_some_iff.mp h
      obtain ⟨before, after, rfl, -⟩ := List.lookup_eq_some_iff.mp hx
      have hupper : ∀ before next rest, suffix = before ++ next :: rest →
          IsAbove specs (path ++ [key] ++ before) := by
        intro front next rest heq
        rw [List.append_assoc]
        exact habove (key :: front) next rest (by rw [heq]; rfl)
      have hnext := ih hrest hupper
      rw [List.append_assoc] at hnext
      have hroot := habove [] key suffix rfl
      rw [List.append_nil] at hroot
      exact .down hroot (List.mem_append_right before (List.mem_cons_self ..)) hnext
    | _ => cases h

/-- A declared input's value is met exactly where its path leads. -/
theorem met_declared_iff {arguments : Fields} (hdistinct : Json.Distinct (.obj arguments))
    {spec : InputSpec} (hspec : spec ∈ specs) (hne : spec.path ≠ []) {value : Json} :
    Met specs arguments spec.path value ↔ pathValue (.obj arguments) spec.path = some value := by
  obtain ⟨hkeys, hvalues⟩ := distinct_obj.mp hdistinct
  constructor
  · intro h
    obtain ⟨m, hm, hdescends⟩ := h
    obtain ⟨suffix, hpath, hvalue⟩ := pathValue_of_descends hdescends (hvalues m hm)
    rw [hpath]
    show pathValue (.obj arguments) (m.1 :: suffix) = some value
    rw [pathValue_cons, lookup_eq_some_of_mem hkeys hm]
    exact hvalue
  · intro h
    obtain ⟨key, suffix, hpath⟩ := List.exists_cons_of_ne_nil hne
    rw [hpath, pathValue_cons] at h
    obtain ⟨x, hx, hrest⟩ := Option.bind_eq_some_iff.mp h
    obtain ⟨before, after, rfl, -⟩ := List.lookup_eq_some_iff.mp hx
    refine ⟨(key, x), List.mem_append_right before (List.mem_cons_self ..), ?_⟩
    rw [hpath]
    have hupper : ∀ before next rest, suffix = before ++ next :: rest →
        IsAbove specs ([key] ++ before) := by
      intro front next rest heq
      refine ⟨spec, hspec, properPrefix_iff.mpr ⟨next, rest, ?_⟩⟩
      rw [hpath, heq]
      rfl
    exact descends_of_pathValue hrest hupper

end Values

section Inputs

def specOf (raw : Json) : InputSpec where
  path := match Json.get raw "name" with
    | .str name => dottedPath name
    | _ => []
  input := match raw with
    | .obj input => input
    | _ => []

def rawInputs (schema : Fields) : List Json := LiveFlow.itemsOf (Fields.get schema "inputs")

def declaredInputs (schema : Fields) : List InputSpec := (rawInputs schema).map specOf

def IsNamed (raw : Json) : Prop :=
  ∃ input name, raw = .obj input ∧ Fields.get input "name" = .str name ∧ Trimmed name ∧
    "" ∉ dottedPath name

def HasFlag (raw : Json) : Prop := ∃ b, Json.get raw "required" = .bool b

/-- The name of the schema agrees, and its input paths are well formed, distinct
and none lies above another. -/
structure InputsDeclared (command : String) (schema : Fields) : Prop where
  name : Fields.get schema "name" = .null ∨ Fields.get schema "name" = .str command
  inputs : ∃ raws, Fields.get schema "inputs" = .arr raws
  named : ∀ raw ∈ rawInputs schema, IsNamed raw
  distinct : ((declaredInputs schema).map InputSpec.path).Nodup
  free : ∀ spec ∈ declaredInputs schema, ¬ IsAbove (declaredInputs schema) spec.path

def FlagsTyped (schema : Fields) : Prop := ∀ raw ∈ rawInputs schema, HasFlag raw

theorem dottedPath_ne_nil (name : String) : dottedPath name ≠ [] := by
  unfold dottedPath
  intro h
  rw [List.map_eq_nil_iff] at h
  cases htext : name.toList with
  | nil =>
    rw [htext] at h
    cases h
  | cons c rest =>
    rw [htext, splitOnChar] at h
    split at h
    · cases h
    · split at h <;> cases h

theorem appends_addInput (command : String) :
    Appends (addInput command) (fun raw => IsNamed raw ∧ HasFlag raw) (fun raw => [specOf raw])
      (fun specs => (specs.map InputSpec.path).Nodup) := by
  intro specs raw out hspecs
  dsimp only
  rw [List.map_append, List.map_singleton]
  have hnodup : (specs.map InputSpec.path ++ [(specOf raw).path]).Nodup ↔
      (specOf raw).path ∉ specs.map InputSpec.path := by
    rw [List.nodup_append]
    constructor
    · intro h hmem
      exact h.2.2 _ hmem _ (List.mem_singleton_self _) rfl
    · intro h
      refine ⟨hspecs, List.nodup_singleton _, fun a ha b hb => ?_⟩
      rw [List.mem_singleton.mp hb]
      rintro rfl
      exact h ha
  rw [hnodup]
  constructor
  · intro h
    cases raw with
    | obj input =>
      obtain ⟨name, hname, h⟩ := bind_eq_ok.mp h
      obtain ⟨hpath, h⟩ := bind_unit_eq_ok.mp h
      obtain ⟨hflag, h⟩ := bind_unit_eq_ok.mp h
      cases h
      rw [rejectIf_eq_ok, decide_eq_false_iff_not, not_or] at hpath
      rw [rejectIf_eq_ok] at hflag
      have hnamed : Fields.get input "name" = .str name ∧ Trimmed name := by
        unfold inputName at hname
        split at hname
        · next text htext =>
          split at hname
          · next htrimmed =>
            cases hname
            exact ⟨htext, htrimmed⟩
          · exact absurd hname reject_ne_ok
        · exact absurd hname reject_ne_ok
      have hspec : specOf (.obj input) = ⟨dottedPath name, input⟩ := by
        unfold specOf Json.get
        dsimp only
        rw [hnamed.1]
      rw [hspec]
      refine ⟨⟨⟨input, name, rfl, hnamed.1, hnamed.2, hpath.1⟩, ?_⟩, hpath.2, rfl⟩
      unfold HasFlag Json.get
      dsimp only
      cases hrequired : Fields.get input "required" with
      | bool b => exact ⟨b, rfl⟩
      | _ =>
        rw [hrequired] at hflag
        cases hflag
    | _ => exact absurd h reject_ne_ok
  · intro h
    obtain ⟨⟨⟨input, name, rfl, hname, htrimmed, hparts⟩, ⟨b, hflag⟩⟩, hfresh, rfl⟩ := h
    have hspec : specOf (.obj input) = ⟨dottedPath name, input⟩ := by
      unfold specOf Json.get
      dsimp only
      rw [hname]
    rw [hspec] at hfresh ⊢
    have hread : inputName command input = .ok name := by
      unfold inputName
      rw [hname]
      dsimp only
      rw [if_pos htrimmed]
    refine bind_eq_ok.mpr ⟨name, hread, bind_unit_eq_ok.mpr ⟨?_, bind_unit_eq_ok.mpr ⟨?_, rfl⟩⟩⟩
    · rw [rejectIf_eq_ok, decide_eq_false_iff_not, not_or]
      exact ⟨hparts, hfresh⟩
    · have hflag' : Fields.get input "required" = .bool b := hflag
      rw [hflag']
      rfl

/-- The declared paths of a schema are read when its inputs are well declared. -/
theorem specPaths_eq_ok {command : String} {schema : Fields} {specs : List InputSpec} :
    specPaths command schema = .ok specs ↔
      InputsDeclared command schema ∧ FlagsTyped schema ∧ specs = declaredInputs schema := by
  have hfold := (appends_addInput command).foldlM (fun acc rest h => by
    rw [List.map_append] at h
    exact h.of_append_left) [] (rawInputs schema) specs (by simp)
  dsimp only at hfold
  rw [List.nil_append, ← List.map_eq_flatMap] at hfold
  have hname : (rejectIf (!(Fields.get schema "name").isNull &&
      !(Fields.get schema "name").pyEq (.str command))
        s!"Live action spec name differs for {PyText.repr command}") = .ok () ↔
      Fields.get schema "name" = .null ∨ Fields.get schema "name" = .str command := by
    rw [rejectIf_eq_ok]
    cases Fields.get schema "name" <;> simp [Json.isNull, Json.pyEq, Json.numberEq, Json.number]
  have hfree : (rejectIf (specs.any fun spec => specs.any fun other =>
      properPrefix other.path spec.path)
        s!"Live action spec paths overlap for {PyText.repr command}") = .ok () ↔
      ∀ spec ∈ specs, ∀ other ∈ specs, properPrefix other.path spec.path = false := by
    rw [rejectIf_eq_ok, List.any_eq_false]
    refine forall₂_congr fun spec _ => ?_
    rw [Bool.not_eq_true, List.any_eq_false]
    exact forall₂_congr fun other _ => iff_of_eq (Bool.not_eq_true _)
  unfold specPaths
  rw [bind_unit_eq_ok, hname]
  constructor
  · intro h
    obtain ⟨hsame, h⟩ := h
    obtain ⟨raws, hraws, h⟩ := bind_eq_ok.mp h
    obtain ⟨read, hread, h⟩ := bind_eq_ok.mp h
    obtain ⟨hoverlap, h⟩ := bind_unit_eq_ok.mp h
    cases h
    have hinputs : Fields.get schema "inputs" = .arr raws := by
      unfold specInputs at hraws
      split at hraws
      · next heq =>
        cases hraws
        exact heq
      · exact absurd hraws reject_ne_ok
    have hitems : rawInputs schema = raws := by
      unfold rawInputs
      rw [hinputs]
      rfl
    rw [← hitems] at hread
    obtain ⟨hall, hdistinct, rfl⟩ := hfold.mp hread
    have hoverlap' := hfree.mp hoverlap
    refine ⟨⟨hsame, ⟨raws, hinputs⟩, fun raw hraw => (hall raw hraw).1, hdistinct,
      fun spec hspec habove => ?_⟩, fun raw hraw => (hall raw hraw).2, rfl⟩
    obtain ⟨other, hother, hprefix⟩ := habove
    rw [hoverlap' other hother spec hspec] at hprefix
    cases hprefix
  · intro h
    obtain ⟨hdeclared, hflags, rfl⟩ := h
    obtain ⟨raws, hinputs⟩ := hdeclared.inputs
    have hitems : rawInputs schema = raws := by
      unfold rawInputs
      rw [hinputs]
      rfl
    have hraws : specInputs command schema = .ok raws := by
      unfold specInputs
      rw [hinputs]
    have hread := hfold.mpr ⟨fun raw hraw => ⟨hdeclared.named raw hraw, hflags raw hraw⟩,
      hdeclared.distinct, rfl⟩
    rw [hitems] at hread
    refine ⟨hdeclared.name, bind_eq_ok.mpr ⟨raws, hraws, bind_eq_ok.mpr ⟨_, hread,
      bind_unit_eq_ok.mpr ⟨hfree.mpr fun spec hspec other hother => ?_, rfl⟩⟩⟩⟩
    rw [← Bool.not_eq_true]
    exact fun hprefix => hdeclared.free other hother ⟨spec, hspec, hprefix⟩

theorem InputsDeclared.path {command : String} {schema : Fields}
    (h : InputsDeclared command schema) {spec : InputSpec} (hspec : spec ∈ declaredInputs schema) :
    spec.path ≠ [] ∧ "" ∉ spec.path := by
  obtain ⟨raw, hraw, rfl⟩ := List.mem_map.mp hspec
  obtain ⟨input, name, rfl, hname, -, hparts⟩ := h.named raw hraw
  have hpath : (specOf (.obj input)).path = dottedPath name := by
    unfold specOf Json.get
    dsimp only
    rw [hname]
  rw [hpath]
  exact ⟨dottedPath_ne_nil name, hparts⟩

theorem InputsDeclared.prefixFree {command : String} {schema : Fields}
    (h : InputsDeclared command schema) : PrefixFree (declaredInputs schema) where
  parts := fun _ hspec => (h.path hspec).2
  distinct := h.distinct
  free := h.free

end Inputs

section Arguments

/-- Everything met on the way through the arguments is declared or an object
above something declared, every value at a declared path fits its input, and
every required input has a value that is neither null nor empty. -/
structure ArgumentsDeclared (command : String) (arguments schema : Fields) : Prop where
  inputs : InputsDeclared command schema
  met : ∀ path value, Met (declaredInputs schema) arguments path value →
    IsDeclared (declaredInputs schema) path ∨
      (IsAbove (declaredInputs schema) path ∧ ∃ members, value = .obj members)
  accepted : ∀ spec ∈ declaredInputs schema, ∀ value,
    pathValue (.obj arguments) spec.path = some value → AcceptedBy command value spec
  required : ∀ spec ∈ declaredInputs schema, Fields.get spec.input "required" = .bool true →
    ∃ value, pathValue (.obj arguments) spec.path = some value ∧ value ≠ .null ∧ value ≠ .str ""

theorem isMissing_eq_false {value : Option Json} :
    isMissing value = false ↔ ∃ x, value = some x ∧ x ≠ .null ∧ x ≠ .str "" := by
  cases value with
  | none => simp [isMissing]
  | some x => cases x <;> simp [isMissing]

theorem isTrue_iff {value : Json} : JsonValue.isTrue value = true ↔ value = .bool true := by
  cases value with
  | bool b => cases b <;> simp [JsonValue.isTrue]
  | _ => simp [JsonValue.isTrue]

/-- The walk and the values at declared paths are one condition. -/
theorem allowed_iff {command : String} {arguments schema : Fields}
    (hdeclared : InputsDeclared command schema) (hdistinct : Json.Distinct (.obj arguments)) :
    (∀ path value, Met (declaredInputs schema) arguments path value →
        Allowed (declaredInputs schema) command path value) ↔
      (∀ path value, Met (declaredInputs schema) arguments path value →
        IsDeclared (declaredInputs schema) path ∨
          (IsAbove (declaredInputs schema) path ∧ ∃ members, value = .obj members)) ∧
      ∀ spec ∈ declaredInputs schema, ∀ value,
        pathValue (.obj arguments) spec.path = some value → AcceptedBy command value spec := by
  constructor
  · intro h
    refine ⟨fun path value hmet => ?_, fun spec hspec value hvalue => ?_⟩
    · rcases h path value hmet with ⟨spec, hspec, hpath, -⟩ | habove
      · exact .inl ⟨spec, hspec, hpath⟩
      · exact .inr habove
    · have hmet := (met_declared_iff hdistinct hspec (hdeclared.path hspec).1).mpr hvalue
      rcases h _ _ hmet with ⟨other, hother, hpath, haccepted⟩ | ⟨habove, -⟩
      · rw [hdeclared.prefixFree.spec_unique hspec hother hpath.symm]
        exact haccepted
      · exact absurd habove (hdeclared.free spec hspec)
  · intro h path value hmet
    rcases h.1 path value hmet with ⟨spec, hspec, rfl⟩ | habove
    · have hvalue := (met_declared_iff hdistinct hspec (hdeclared.path hspec).1).mp hmet
      exact .inl ⟨spec, hspec, rfl, h.2 spec hspec value hvalue⟩
    · exact .inr habove

/-- Arguments are accepted exactly when the schema is well declared, nothing
undeclared is met, every declared value fits and none that is required is
missing. -/
theorem validateActionArguments_iff {command : String} {arguments schema : Fields}
    (hdistinct : Json.Distinct (.obj arguments)) :
    validateActionArguments command arguments schema = .ok () ↔
      ArgumentsDeclared command arguments schema ∧ FlagsTyped schema := by
  have hrequired : ∀ (specs : List InputSpec) (message : InputSpec → String),
      (specs.forM fun spec => rejectIf (JsonValue.isTrue (Fields.get spec.input "required") &&
          isMissing (pathValue (.obj arguments) spec.path)) (message spec)) = .ok () ↔
        ∀ spec ∈ specs, Fields.get spec.input "required" = .bool true →
          ∃ value, pathValue (.obj arguments) spec.path = some value ∧ value ≠ .null ∧
            value ≠ .str "" := by
    intro specs message
    rw [forM_eq_ok]
    refine forall₂_congr fun spec _ => ?_
    rw [rejectIf_eq_ok, Bool.and_eq_false_imp, isTrue_iff, isMissing_eq_false]
  unfold validateActionArguments
  rw [bind_eq_ok]
  constructor
  · intro h
    obtain ⟨specs, hspecs, h⟩ := h
    obtain ⟨hdeclared, hflags, rfl⟩ := specPaths_eq_ok.mp hspecs
    obtain ⟨hwalk, h⟩ := bind_unit_eq_ok.mp h
    have hallowed := (validateObject_root_eq_ok hdeclared.prefixFree arguments).mp hwalk
    obtain ⟨hmet, haccepted⟩ := (allowed_iff hdeclared hdistinct).mp hallowed
    exact ⟨⟨hdeclared, hmet, haccepted, (hrequired _ _).mp h⟩, hflags⟩
  · intro h
    obtain ⟨⟨hdeclared, hmet, haccepted, hpresent⟩, hflags⟩ := h
    refine ⟨_, specPaths_eq_ok.mpr ⟨hdeclared, hflags, rfl⟩, bind_unit_eq_ok.mpr
      ⟨?_, (hrequired _ _).mpr hpresent⟩⟩
    exact (validateObject_root_eq_ok hdeclared.prefixFree arguments).mpr
      ((allowed_iff hdeclared hdistinct).mpr ⟨hmet, haccepted⟩)

def sampleSchema : Fields :=
  [("inputs", .arr [
    .obj [("name", .str "grip.force"), ("type", .str "number"), ("required", .bool true)],
    .obj [("name", .str "speed"), ("type", .str "integer"), ("required", .bool false)]])]

theorem validateActionArguments_sample :
    ArgumentsDeclared "grasp" [("grip", .obj [("force", .int 2)])] sampleSchema ∧
      FlagsTyped sampleSchema := by
  have hdistinct : Json.Distinct (.obj [("grip", .obj [("force", .int 2)])]) := by
    simp [Json.Distinct, Json.DistinctMembers]
  have hok : validateActionArguments "grasp" [("grip", .obj [("force", .int 2)])] sampleSchema =
      .ok () := by
    decide +kernel
  exact (validateActionArguments_iff hdistinct).mp hok

/-- An input that does not say whether it is required: everything asked of paths
and values holds, and the arguments are refused all the same. -/
theorem flagless_refused :
    ArgumentsDeclared "fold" [] [("inputs", .arr [.obj [("name", .str "speed"),
        ("type", .str "integer")]])] ∧
      validateActionArguments "fold" [] [("inputs", .arr [.obj [("name", .str "speed"),
        ("type", .str "integer")]])] ≠ .ok () := by
  have hpath : dottedPath "speed" = ["speed"] := by decide +kernel
  have hspecs : declaredInputs [("inputs", .arr [.obj [("name", .str "speed"),
      ("type", .str "integer")]])] =
        [⟨["speed"], [("name", .str "speed"), ("type", .str "integer")]⟩] := by
    rw [← hpath]
    rfl
  refine ⟨⟨⟨.inl rfl, ⟨_, rfl⟩, fun raw hraw => ?_, ?_, fun spec hspec habove => ?_⟩,
    fun path value hmet => ?_, fun spec hspec value hvalue => ?_, fun spec hspec hrequired => ?_⟩,
    by decide +kernel⟩
  · rw [List.mem_singleton.mp hraw]
    refine ⟨_, "speed", rfl, rfl, by decide, ?_⟩
    rw [hpath]
    decide
  · rw [hspecs]
    simp
  · rw [hspecs] at hspec habove
    obtain ⟨other, hother, hprefix⟩ := habove
    rw [List.mem_singleton.mp hspec, List.mem_singleton.mp hother] at hprefix
    exact absurd hprefix (by decide)
  · obtain ⟨m, hm, -⟩ := hmet
    cases hm
  · rw [hspecs] at hspec
    rw [List.mem_singleton.mp hspec] at hvalue
    cases hvalue
  · rw [hspecs] at hspec
    rw [List.mem_singleton.mp hspec] at hrequired
    cases hrequired

end Arguments

end FailureResolver.ArgumentPaths
