import FailureResolver.JsonLength

/-!
How long the indented text of a JSON value is. To the compact text it adds a line feed
and the indentation for every entry and for every closing bracket, and a blank behind
every key, so what it adds depends on the nesting and on the number of entries alone.
-/

namespace FailureResolver.JsonIndent

open JsonLayout JsonLength JsonText JsonValue

def lineChars (level : ℕ) : ℕ := 1 + 2 * level

mutual

def layoutChars (level : ℕ) : Json → ℕ
  | .arr (x :: xs) => layoutItems (level + 1) (x :: xs) + lineChars level
  | .obj (m :: rest) => layoutMembers (level + 1) (m :: rest) + lineChars level
  | _ => 0

def layoutItems (level : ℕ) : List Json → ℕ
  | [] => 0
  | x :: xs => lineChars level + layoutChars level x + layoutItems level xs

def layoutMembers (level : ℕ) : List (String × Json) → ℕ
  | [] => 0
  | (_, x) :: rest => lineChars level + 1 + layoutChars level x + layoutMembers level rest

end

/-- The length of a value as `json.dumps(value, indent=2)` writes it. -/
def indentedChars (value : Json) : ℕ := compactLength value + layoutChars 0 value

theorem length_newline (level : ℕ) : (indentedStyle.newline level).length = lineChars level := by
  unfold indentedStyle lineChars
  rw [List.length_cons, List.length_replicate]
  omega

theorem layoutItems_eq (level : ℕ) (items : List Json) : layoutItems level items =
    (items.map fun x => lineChars level + layoutChars level x).sum := by
  induction items with
  | nil => rfl
  | cons x xs ih => rw [layoutItems, ih, List.map_cons, List.sum_cons]

theorem layoutMembers_eq (level : ℕ) (members : Fields) : layoutMembers level members =
    (members.map fun m => lineChars level + 1 + layoutChars level m.2).sum := by
  induction members with
  | nil => rfl
  | cons m rest ih => rw [layoutMembers, ih, List.map_cons, List.sum_cons]

theorem layoutChars_arr {items : List Json} (hne : items ≠ []) (level : ℕ) :
    layoutChars level (.arr items) =
      (items.map fun x => lineChars (level + 1) + layoutChars (level + 1) x).sum +
        lineChars level := by
  cases items with
  | nil => exact absurd rfl hne
  | cons x xs => rw [layoutChars, layoutItems_eq]

theorem layoutChars_obj {members : Fields} (hne : members ≠ []) (level : ℕ) :
    layoutChars level (.obj members) =
      (members.map fun m => lineChars (level + 1) + 1 + layoutChars (level + 1) m.2).sum +
        lineChars level := by
  cases members with
  | nil => exact absurd rfl hne
  | cons m rest => rw [layoutChars, layoutMembers_eq]

theorem length_printItems_indented {level : ℕ} {items : List Json} (h : ∀ x ∈ items,
    (print indentedStyle level x).length = compactLength x + layoutChars level x) :
    (printItems indentedStyle level items).length =
      (items.map compactLength).sum + items.length + layoutItems level items := by
  induction items with
  | nil => rfl
  | cons x xs ih =>
    obtain ⟨hx, hxs⟩ := List.forall_mem_cons.mp h
    rw [printItems, layoutItems]
    simp only [List.length_cons, List.length_append, List.map_cons, List.sum_cons, ih hxs, hx,
      length_newline]
    omega

theorem length_printMembers_indented {level : ℕ} {members : Fields} (h : ∀ m ∈ members,
    (print indentedStyle level m.2).length = compactLength m.2 + layoutChars level m.2) :
    (printMembers indentedStyle level members).length =
      (members.map memberLength).sum + members.length + layoutMembers level members := by
  induction members with
  | nil => rfl
  | cons m rest ih =>
    obtain ⟨key, x⟩ := m
    obtain ⟨hx, hrest⟩ := List.forall_mem_cons.mp h
    have hblank : indentedStyle.afterKey.length = 1 := rfl
    dsimp only at hx
    rw [printMembers, layoutMembers]
    simp only [List.length_cons, List.length_append, List.map_cons, List.sum_cons, ih hrest, hx,
      length_newline, hblank, memberLength]
    omega

/-- The indented text is the compact one with its layout. -/
theorem length_print_indented (value : Json) (level : ℕ) :
    (print indentedStyle level value).length = compactLength value + layoutChars level value := by
  induction value using Json.inductionOn generalizing level with
  | null => rfl
  | bool b => rfl
  | int n => rfl
  | float x => rfl
  | str s => rfl
  | arr items ih =>
    cases items with
    | nil => rfl
    | cons x xs =>
      obtain ⟨hx, hxs⟩ := List.forall_mem_cons.mp ih
      have hrest := length_printItems_indented fun y hy => hxs y hy (level + 1)
      rw [compactLength_arr, print, layoutChars, layoutItems]
      simp only [List.length_cons, List.length_append, List.length_nil, List.map_cons,
        List.sum_cons, hrest, hx, length_newline]
      omega
  | obj members ih =>
    cases members with
    | nil => rfl
    | cons m rest =>
      obtain ⟨key, x⟩ := m
      obtain ⟨hx, hxs⟩ := List.forall_mem_cons.mp ih
      have hrest := length_printMembers_indented fun y hy => hxs y hy (level + 1)
      have hblank : indentedStyle.afterKey.length = 1 := rfl
      dsimp only at hx
      rw [compactLength_obj, print, layoutChars, layoutMembers]
      simp only [List.length_cons, List.length_append, List.length_nil, List.map_cons,
        List.sum_cons, hrest, hx, length_newline, hblank, memberLength]
      omega

/-- Sorting the keys moves members with their layout. -/
theorem layoutChars_sortKeys (value : Json) (level : ℕ) :
    layoutChars level value.sortKeys = layoutChars level value := by
  induction value using Json.inductionOn generalizing level with
  | null => rfl
  | bool b => rfl
  | int n => rfl
  | float x => rfl
  | str s => rfl
  | arr items ih =>
    by_cases hne : items = []
    · subst hne
      rfl
    · have hmapped : items.map Json.sortKeys ≠ [] := by simpa using hne
      rw [sortKeys_arr, layoutChars_arr hmapped, layoutChars_arr hne, List.map_map]
      congr 2
      apply List.map_congr_left
      intro x hx
      rw [Function.comp_apply, ih x hx]
  | obj members ih =>
    by_cases hne : members = []
    · subst hne
      rfl
    · have hperm := List.perm_insertionSort keyLe (members.map fun m => (m.1, m.2.sortKeys))
      have hsorted : (members.map fun m => (m.1, m.2.sortKeys)).insertionSort keyLe ≠ [] := by
        rw [ne_eq, ← List.length_eq_zero_iff, hperm.length_eq, List.length_map,
          List.length_eq_zero_iff]
        exact hne
      rw [sortKeys_obj, layoutChars_obj hsorted, layoutChars_obj hne, (hperm.map _).sum_eq,
        List.map_map]
      congr 2
      apply List.map_congr_left
      intro m hm
      rw [Function.comp_apply, ih m hm]

theorem indentedChars_sortKeys (value : Json) :
    indentedChars value.sortKeys = indentedChars value := by
  unfold indentedChars
  rw [compactLength_sortKeys, layoutChars_sortKeys]

end FailureResolver.JsonIndent
