import FailureResolver.CheckedFold
import FailureResolver.PlanParsing
import FailureResolver.PlanValidation

/-!
The action tree of a Flow as the list of its enabled actions. An area, an item or
an action that is switched off does not count, the rest stands in document order,
and the tree is well formed when all names, indices and commands on the way are
and no two enabled actions share an index.
-/

namespace FailureResolver.FlowTree

open JsonValue PyException PyText LiveFlow RecoveryContract ActionPlan PlanParsing PlanValidation
open CheckedFold

section Order

def enabledAreas (flow : Fields) : List Fields := enabled (itemsOf (Fields.get flow "areas"))

def enabledItems (area : Fields) : List Fields := enabled (itemsOf (Fields.get area "items"))

def enabledActions (item : Fields) : List Fields := enabled (itemsOf (Fields.get item "actions"))

def nameOf : Json → String
  | .str s => s
  | _ => ""

def indexOf : Json → ℤ
  | .int n => n
  | _ => 0

def contextOf (area item action : Fields) : FlowActionContext where
  actionIndex := indexOf (Fields.get action "action_index")
  command := nameOf (Fields.get action "command")
  areaName := nameOf (Fields.get area "name")
  itemName := nameOf (Fields.get item "name")

def itemOrder (area item : Fields) : List FlowActionContext :=
  (enabledActions item).map (contextOf area item)

def areaOrder (area : Fields) : List FlowActionContext :=
  (enabledItems area).flatMap (itemOrder area)

def documentOrder (flow : Fields) : List FlowActionContext :=
  (enabledAreas flow).flatMap areaOrder

def IsArray (value : Json) : Prop := ∃ items, value = .arr items

def ActionFormed (action : Fields) : Prop :=
  IsIndex (Fields.get action "action_index") ∧ IsText (Fields.get action "command") maxCommandLength

def ItemFormed (item : Fields) : Prop :=
  IsText (Fields.get item "name") 300 ∧ IsArray (Fields.get item "actions") ∧
    ∀ action ∈ enabledActions item, ActionFormed action

def AreaFormed (area : Fields) : Prop :=
  IsText (Fields.get area "name") 300 ∧ IsArray (Fields.get area "items") ∧
    ∀ item ∈ enabledItems area, ItemFormed item

def DistinctIndices (contexts : List FlowActionContext) : Prop :=
  (contexts.map FlowActionContext.actionIndex).Nodup

structure WellFormed (flow : Fields) : Prop where
  areas : IsArray (Fields.get flow "areas")
  formed : ∀ area ∈ enabledAreas flow, AreaFormed area
  distinct : DistinctIndices (documentOrder flow)

end Order

section Walk

theorem DistinctIndices.left {before rest : List FlowActionContext}
    (h : DistinctIndices (before ++ rest)) : DistinctIndices before := by
  unfold DistinctIndices at h ⊢
  rw [List.map_append] at h
  exact h.of_append_left

theorem distinctIndices_append_singleton {before : List FlowActionContext}
    {context : FlowActionContext} (hbefore : DistinctIndices before) :
    DistinctIndices (before ++ [context]) ↔
      context.actionIndex ∉ before.map FlowActionContext.actionIndex := by
  unfold DistinctIndices at hbefore ⊢
  rw [List.map_append, List.map_singleton, List.nodup_append]
  constructor
  · intro h hmem
    exact h.2.2 _ hmem _ (List.mem_singleton_self _) rfl
  · intro h
    refine ⟨hbefore, List.nodup_singleton _, fun a ha b hb => ?_⟩
    rw [List.mem_singleton.mp hb]
    rintro rfl
    exact h ha

theorem requiredItems_eq_ok {value : Json} {message : String} {items : List Json} :
    requiredItems value message = .ok items ↔ IsArray value ∧ items = itemsOf value := by
  cases value with
  | arr _ =>
    constructor
    · intro h
      cases h
      exact ⟨⟨_, rfl⟩, rfl⟩
    · intro h
      rw [h.2]
      rfl
  | _ =>
    constructor
    · intro h
      exact absurd h reject_ne_ok
    · intro h
      obtain ⟨⟨items, heq⟩, -⟩ := h
      cases heq

theorem appends_actionContext (area item : Fields) :
    Appends (actionContext (nameOf (Fields.get area "name")) (nameOf (Fields.get item "name")))
      ActionFormed (fun action => [contextOf area item action]) DistinctIndices := by
  intro contexts action out hcontexts
  unfold actionContext
  constructor
  · intro h
    obtain ⟨index, hindex, h⟩ := bind_eq_ok.mp h
    obtain ⟨hfresh, h⟩ := bind_unit_eq_ok.mp h
    obtain ⟨command, hcommand, h⟩ := bind_eq_ok.mp h
    cases h
    have hindex' := requiredInt_iff.mp hindex
    have hcommand' := requiredText_eq_ok.mp hcommand
    have hcontext : contextOf area item action =
        ⟨index, command, nameOf (Fields.get area "name"), nameOf (Fields.get item "name")⟩ := by
      rw [contextOf, hindex'.1, hcommand'.1]
      rfl
    dsimp only
    rw [hcontext]
    refine ⟨⟨⟨index, hindex'⟩, ⟨command, hcommand'⟩⟩, ?_, rfl⟩
    rw [distinctIndices_append_singleton hcontexts]
    simpa using hfresh
  · intro h
    obtain ⟨⟨⟨index, hindex⟩, ⟨command, hcommand⟩⟩, hdistinct, rfl⟩ := h
    have hcontext : contextOf area item action =
        ⟨index, command, nameOf (Fields.get area "name"), nameOf (Fields.get item "name")⟩ := by
      rw [contextOf, hindex.1, hcommand.1]
      rfl
    dsimp only at hdistinct ⊢
    rw [hcontext] at hdistinct ⊢
    rw [distinctIndices_append_singleton hcontexts] at hdistinct
    exact bind_eq_ok.mpr ⟨index, requiredInt_iff.mpr hindex, bind_unit_eq_ok.mpr
      ⟨by simpa using hdistinct, bind_eq_ok.mpr ⟨command, requiredText_eq_ok.mpr hcommand, rfl⟩⟩⟩

theorem appends_itemContexts (area : Fields) :
    Appends (itemContexts (nameOf (Fields.get area "name"))) ItemFormed (itemOrder area)
      DistinctIndices := by
  intro contexts item out hcontexts
  unfold itemContexts itemOrder
  constructor
  · intro h
    obtain ⟨name, hname, h⟩ := bind_eq_ok.mp h
    obtain ⟨actions, hactions, h⟩ := bind_eq_ok.mp h
    obtain ⟨harray, rfl⟩ := requiredItems_eq_ok.mp hactions
    have hitem : IsText (Fields.get item "name") 300 := ⟨name, requiredText_eq_ok.mp hname⟩
    have hnameOf : name = nameOf (Fields.get item "name") := by
      rw [(requiredText_eq_ok.mp hname).1]
      rfl
    rw [hnameOf] at h
    obtain ⟨hformed, hdistinct, rfl⟩ := ((appends_actionContext area item).foldlM
      (fun _ _ => DistinctIndices.left) contexts _ out hcontexts).mp h
    dsimp only at hdistinct ⊢
    rw [← List.map_eq_flatMap] at hdistinct ⊢
    exact ⟨⟨hitem, harray, hformed⟩, hdistinct, rfl⟩
  · intro h
    obtain ⟨⟨hitem, harray, hformed⟩, hdistinct, rfl⟩ := h
    obtain ⟨name, hname⟩ := hitem
    have hnameOf : name = nameOf (Fields.get item "name") := by
      rw [hname.1]
      rfl
    refine bind_eq_ok.mpr ⟨name, requiredText_eq_ok.mpr hname, bind_eq_ok.mpr
      ⟨_, requiredItems_eq_ok.mpr ⟨harray, rfl⟩, ?_⟩⟩
    rw [hnameOf]
    refine ((appends_actionContext area item).foldlM (fun _ _ => DistinctIndices.left)
      contexts _ _ hcontexts).mpr ⟨hformed, ?_⟩
    dsimp only
    rw [← List.map_eq_flatMap]
    exact ⟨hdistinct, rfl⟩

theorem appends_areaContexts :
    Appends areaContexts AreaFormed areaOrder DistinctIndices := by
  intro contexts area out hcontexts
  unfold areaContexts
  constructor
  · intro h
    obtain ⟨name, hname, h⟩ := bind_eq_ok.mp h
    obtain ⟨items, hitems, h⟩ := bind_eq_ok.mp h
    obtain ⟨harray, rfl⟩ := requiredItems_eq_ok.mp hitems
    have harea : IsText (Fields.get area "name") 300 := ⟨name, requiredText_eq_ok.mp hname⟩
    have hnameOf : name = nameOf (Fields.get area "name") := by
      rw [(requiredText_eq_ok.mp hname).1]
      rfl
    rw [hnameOf] at h
    obtain ⟨hformed, hdistinct, rfl⟩ := ((appends_itemContexts area).foldlM
      (fun _ _ => DistinctIndices.left) contexts _ out hcontexts).mp h
    exact ⟨⟨harea, harray, hformed⟩, hdistinct, rfl⟩
  · intro h
    obtain ⟨⟨harea, harray, hformed⟩, hdistinct, rfl⟩ := h
    obtain ⟨name, hname⟩ := harea
    have hnameOf : name = nameOf (Fields.get area "name") := by
      rw [hname.1]
      rfl
    refine bind_eq_ok.mpr ⟨name, requiredText_eq_ok.mpr hname, bind_eq_ok.mpr
      ⟨_, requiredItems_eq_ok.mpr ⟨harray, rfl⟩, ?_⟩⟩
    rw [hnameOf]
    exact ((appends_itemContexts area).foldlM (fun _ _ => DistinctIndices.left)
      contexts _ _ hcontexts).mpr ⟨hformed, hdistinct, rfl⟩

/-- The walk of the tree succeeds on the well-formed ones and lists their
enabled actions in document order. -/
theorem flowActionContexts_eq_ok {flow : Fields} {contexts : List FlowActionContext} :
    flowActionContexts flow = .ok contexts ↔ WellFormed flow ∧ contexts = documentOrder flow := by
  unfold flowActionContexts
  have hwalk := appends_areaContexts.foldlM (fun _ _ => DistinctIndices.left) []
    (enabledAreas flow) contexts (by unfold DistinctIndices; simp)
  rw [List.nil_append] at hwalk
  constructor
  · intro h
    obtain ⟨areas, hareas, h⟩ := bind_eq_ok.mp h
    obtain ⟨harray, rfl⟩ := requiredItems_eq_ok.mp hareas
    obtain ⟨hformed, hdistinct, heq⟩ := hwalk.mp h
    exact ⟨⟨harray, hformed, hdistinct⟩, heq⟩
  · intro h
    obtain ⟨⟨harray, hformed, hdistinct⟩, heq⟩ := h
    exact bind_eq_ok.mpr ⟨_, requiredItems_eq_ok.mpr ⟨harray, rfl⟩,
      hwalk.mpr ⟨hformed, hdistinct, heq⟩⟩

end Walk

section Formed

structure ContextFormed (context : FlowActionContext) : Prop where
  index : 0 ≤ context.actionIndex ∧ context.actionIndex ≤ 1000000
  command : Trimmed context.command ∧ context.command.length ≤ maxCommandLength
  areaName : Trimmed context.areaName ∧ context.areaName.length ≤ 300
  itemName : Trimmed context.itemName ∧ context.itemName.length ≤ 300

theorem isText_nameOf {value : Json} {maxLength : ℕ} (h : IsText value maxLength) :
    Trimmed (nameOf value) ∧ (nameOf value).length ≤ maxLength := by
  obtain ⟨s, rfl, hs⟩ := h
  exact hs

theorem isIndex_indexOf {value : Json} (h : IsIndex value) :
    0 ≤ indexOf value ∧ indexOf value ≤ 1000000 := by
  obtain ⟨n, rfl, hn⟩ := h
  exact hn

theorem WellFormed.context {flow : Fields} (h : WellFormed flow) {context : FlowActionContext}
    (hmem : context ∈ documentOrder flow) : ContextFormed context := by
  unfold documentOrder at hmem
  obtain ⟨area, harea, hmem⟩ := List.mem_flatMap.mp hmem
  obtain ⟨item, hitem, hmem⟩ := List.mem_flatMap.mp hmem
  obtain ⟨action, haction, rfl⟩ := List.mem_map.mp hmem
  have hareaFormed := h.formed area harea
  have hitemFormed := hareaFormed.2.2 item hitem
  have hactionFormed := hitemFormed.2.2 action haction
  exact
    { index := isIndex_indexOf hactionFormed.1
      command := isText_nameOf hactionFormed.2
      areaName := isText_nameOf hareaFormed.1
      itemName := isText_nameOf hitemFormed.1 }

/-- The tree is all that counts. -/
theorem documentOrder_congr {flow other : Fields}
    (h : Fields.get flow "areas" = Fields.get other "areas") :
    documentOrder flow = documentOrder other := by
  unfold documentOrder enabledAreas
  rw [h]

theorem WellFormed.congr {flow other : Fields} (hflow : WellFormed flow)
    (h : Fields.get flow "areas" = Fields.get other "areas") : WellFormed other := by
  obtain ⟨hareas, hformed, hdistinct⟩ := hflow
  unfold enabledAreas at hformed
  rw [documentOrder_congr h] at hdistinct
  rw [h] at hareas hformed
  exact ⟨hareas, hformed, hdistinct⟩

end Formed

section Steps

variable {contexts before rest : List FlowActionContext} {context : FlowActionContext} {index : ℤ}

/-- A step is found by its index. -/
theorem contextAt_eq_some (h : DistinctIndices contexts) :
    contextAt contexts index = some context ↔ context ∈ contexts ∧ context.actionIndex = index := by
  unfold contextAt
  constructor
  · intro hfind
    exact ⟨List.mem_of_find?_eq_some hfind, by simpa using List.find?_some hfind⟩
  · intro hmem
    obtain ⟨hmem, hindex⟩ := hmem
    cases hfind : contexts.find? (fun c => decide (c.actionIndex = index)) with
    | none =>
      rw [List.find?_eq_none] at hfind
      exact absurd (decide_eq_true hindex) (hfind context hmem)
    | some found =>
      have hfound : found.actionIndex = index := by simpa using List.find?_some hfind
      have hsame : found = context := List.inj_on_of_nodup_map h
        (List.mem_of_find?_eq_some hfind) hmem (hfound.trans hindex.symm)
      rw [hsame]

/-- What follows a step in document order. -/
theorem contextAfter_append (h : DistinctIndices (before ++ context :: rest)) :
    contextAfter (before ++ context :: rest) context = rest.head? := by
  have hnodup := List.Nodup.of_map _ h
  have hfresh : context ∉ before := by
    intro hmem
    exact (List.nodup_append.mp hnodup).2.2 _ hmem _ (List.mem_cons_self ..) rfl
  have hposition : (before ++ context :: rest).idxOf context = before.length := by
    rw [List.idxOf_append_of_notMem hfresh, List.idxOf_cons_self, Nat.add_zero]
  unfold contextAfter
  rw [hposition, List.getElem?_append_right (by omega)]
  cases rest <;> simp

end Steps

end FailureResolver.FlowTree
