import FailureResolver.JsonLayout
import Mathlib.Algebra.BigOperators.Group.List.Basic
import Mathlib.Data.Nat.Digits.Defs

/-!
How long the compact text of a JSON value is. A string takes its characters, one
or five more for each that is escaped, and two quotes; a container takes its items,
a comma between two of them and two brackets. The order of the members of an object
does not matter, so sorting the keys keeps the length.
-/

namespace FailureResolver.JsonLength

open JsonLayout JsonText JsonValue

section Text

def escapes (text : List Char) : ℕ := (text.map fun c => (escapeChar c).length - 1).sum

theorem one_le_length_escapeChar (c : Char) : 1 ≤ (escapeChar c).length := by
  unfold escapeChar
  split_ifs <;> simp

theorem length_flatMap_escapeChar (text : List Char) :
    (text.flatMap escapeChar).length = text.length + escapes text := by
  induction text with
  | nil => rfl
  | cons c rest ih =>
    have hc := one_le_length_escapeChar c
    rw [List.flatMap_cons, List.length_append, ih, List.length_cons]
    simp only [escapes, List.map_cons, List.sum_cons]
    omega

theorem length_quote (s : String) : (quote s).length = s.toList.length + escapes s.toList + 2 := by
  rw [quote, List.length_cons, List.length_append, length_flatMap_escapeChar]
  rfl

end Text

section Containers

/-- The length of a value as `json.dumps` writes it compactly. -/
def compactLength (value : Json) : ℕ := (print compactStyle 0 value).length

theorem print_compact_level (level : ℕ) (value : Json) :
    print compactStyle level value = print compactStyle 0 value := by
  induction value using Json.inductionOn generalizing level with
  | null => rfl
  | bool b => rfl
  | int n => rfl
  | float x => rfl
  | str s => rfl
  | arr items ih =>
    cases items with
    | nil => rfl
    | cons x xs =>
      obtain ⟨hx, hxs⟩ := List.forall_mem_cons.mp ih
      have hrest : printItems compactStyle (level + 1) xs = printItems compactStyle 1 xs := by
        rw [printItems_flatMap, printItems_flatMap]
        apply List.flatMap_congr
        intro y hy
        rw [hxs y hy (level + 1), hxs y hy 1]
        rfl
      rw [print, print, hrest, hx (level + 1), hx (0 + 1)]
      rfl
  | obj members ih =>
    cases members with
    | nil => rfl
    | cons m rest =>
      obtain ⟨key, x⟩ := m
      obtain ⟨hx, hxs⟩ := List.forall_mem_cons.mp ih
      have hrest : printMembers compactStyle (level + 1) rest = printMembers compactStyle 1 rest := by
        rw [printMembers_flatMap, printMembers_flatMap]
        apply List.flatMap_congr
        intro y hy
        rw [hxs y hy (level + 1), hxs y hy 1]
        rfl
      rw [print, print, hrest, hx (level + 1), hx (0 + 1)]
      rfl

theorem compactLength_arr (items : List Json) :
    compactLength (.arr items) = 2 + (items.map compactLength).sum + (items.length - 1) := by
  cases items with
  | nil => rfl
  | cons x xs =>
    have hrest : (printItems compactStyle 1 xs).length =
        (xs.map compactLength).sum + xs.length := by
      induction xs with
      | nil => rfl
      | cons y ys ih =>
        rw [printItems, print_compact_level]
        simp only [compactStyle_newline, List.nil_append, List.length_cons, List.length_append,
          List.map_cons, List.sum_cons, ih, compactLength]
        omega
    unfold compactLength at *
    rw [print, print_compact_level]
    simp only [compactStyle_newline, List.nil_append, List.length_cons, List.length_append,
      List.length_nil, List.map_cons, List.sum_cons, zero_add, hrest]
    omega

def memberLength (m : String × Json) : ℕ := (quote m.1).length + 1 + compactLength m.2

theorem compactLength_obj (members : Fields) : compactLength (.obj members) =
    2 + (members.map memberLength).sum + (members.length - 1) := by
  cases members with
  | nil => rfl
  | cons m rest =>
    obtain ⟨key, x⟩ := m
    have hrest : (printMembers compactStyle 1 rest).length =
        (rest.map memberLength).sum + rest.length := by
      induction rest with
      | nil => rfl
      | cons n more ih =>
        obtain ⟨key, y⟩ := n
        rw [printMembers, print_compact_level]
        simp only [compactStyle_newline, compactStyle_afterKey, List.nil_append, List.length_cons,
          List.length_append, List.map_cons, List.sum_cons, ih, compactLength, memberLength]
        omega
    unfold compactLength
    rw [print, print_compact_level]
    simp only [compactStyle_newline, compactStyle_afterKey, List.nil_append, List.length_cons,
      List.length_append, List.length_nil, List.map_cons, List.sum_cons, zero_add, hrest,
      memberLength, compactLength]
    omega

@[simp] theorem compactLength_str (s : String) :
    compactLength (.str s) = s.toList.length + escapes s.toList + 2 := length_quote s

/-- Sorting the keys moves members, which changes no length. -/
theorem compactLength_sortKeys (value : Json) :
    compactLength value.sortKeys = compactLength value := by
  induction value using Json.inductionOn with
  | null => rfl
  | bool b => rfl
  | int n => rfl
  | float x => rfl
  | str s => rfl
  | arr items ih =>
    have hitems : items.map (compactLength ∘ Json.sortKeys) = items.map compactLength :=
      List.map_congr_left ih
    rw [sortKeys_arr, compactLength_arr, compactLength_arr, List.length_map, List.map_map, hitems]
  | obj members ih =>
    have hperm := List.perm_insertionSort keyLe (members.map fun m => (m.1, m.2.sortKeys))
    have hmembers : ∀ m ∈ members, memberLength (m.1, m.2.sortKeys) = memberLength m := by
      intro m hm
      unfold memberLength
      rw [ih m hm]
    rw [sortKeys_obj, compactLength_obj, compactLength_obj, (hperm.map memberLength).sum_eq,
      hperm.length_eq, List.length_map, List.map_map]
    rw [← List.map_congr_left hmembers]
    rfl

def styledLength (style : Style) (level : ℕ) (m : String × Json) : ℕ :=
  (style.newline level).length + (quote m.1).length + style.afterKey.length +
    (print style level m.2).length + 2

theorem length_print_obj (style : Style) (level : ℕ) {members : Fields} (hne : members ≠ []) :
    (print style level (.obj members)).length =
      (members.map (styledLength style (level + 1))).sum + (style.newline level).length + 1 := by
  cases members with
  | nil => exact absurd rfl hne
  | cons m rest =>
    obtain ⟨key, x⟩ := m
    have hrest : (printMembers style (level + 1) rest).length =
        (rest.map (styledLength style (level + 1))).sum := by
      clear hne
      induction rest with
      | nil => rfl
      | cons n more ih =>
        obtain ⟨key, y⟩ := n
        rw [printMembers]
        simp only [List.length_cons, List.length_append, List.map_cons, List.sum_cons, ih,
          styledLength]
        omega
    rw [print]
    simp only [List.length_cons, List.length_append, List.length_nil, List.map_cons,
      List.sum_cons, hrest, styledLength]
    omega

/-- A longer text under one key makes an object longer by as much. -/
theorem length_print_text (style : Style) (before after : Fields) (key s : String) :
    (print style 0 (Json.sortKeys (.obj (before ++ (key, .str s) :: after)))).length =
      (print style 0 (Json.sortKeys (.obj (before ++ (key, .str "") :: after)))).length +
        (s.toList.length + escapes s.toList) := by
  have hlength : ∀ text : String,
      (print style 0 (Json.sortKeys (.obj (before ++ (key, .str text) :: after)))).length =
        ((before.map fun m => (m.1, m.2.sortKeys)).map (styledLength style 1)).sum +
          styledLength style 1 (key, .str text) +
          ((after.map fun m => (m.1, m.2.sortKeys)).map (styledLength style 1)).sum +
          (style.newline 0).length + 1 := by
    intro text
    have hperm := List.perm_insertionSort keyLe
      ((before ++ (key, Json.str text) :: after).map fun m => (m.1, m.2.sortKeys))
    have hne : ((before ++ (key, Json.str text) :: after).map fun m =>
        (m.1, m.2.sortKeys)).insertionSort keyLe ≠ [] := by
      rw [ne_eq, ← List.length_eq_zero_iff, hperm.length_eq]
      simp
    rw [sortKeys_obj, length_print_obj style 0 hne, (hperm.map (styledLength style 1)).sum_eq]
    simp only [List.map_append, List.map_cons, List.sum_append, List.sum_cons, Json.sortKeys]
    omega
  have htext : styledLength style 1 (key, .str s) =
      styledLength style 1 (key, .str "") + (s.toList.length + escapes s.toList) := by
    have hquoted : ∀ text : String, (print style 1 (.str text)).length =
        text.toList.length + escapes text.toList + 2 := fun text => length_quote text
    have hempty : (print style 1 (.str "")).length = 2 := hquoted ""
    unfold styledLength
    dsimp only
    rw [hempty, hquoted s]
    omega
  rw [hlength s, hlength "", htext]
  omega

end Containers

section Bounds

theorem length_escapeChar_le (c : Char) : (escapeChar c).length ≤ 6 := by
  unfold escapeChar
  split_ifs <;> simp

theorem escapes_le (text : List Char) : escapes text ≤ 5 * text.length := by
  induction text with
  | nil => simp [escapes]
  | cons c rest ih =>
    have hc := length_escapeChar_le c
    simp only [escapes, List.map_cons, List.sum_cons, List.length_cons] at ih ⊢
    omega

theorem length_quote_le (s : String) : (quote s).length ≤ 6 * s.length + 2 := by
  have hescapes := escapes_le s.toList
  rw [length_quote, ← String.length_toList]
  omega

/-- A number below a power of ten has at most as many digits as its exponent. -/
theorem compactLength_nat_le {n : ℤ} {digits : ℕ} (hdigits : 0 < digits) (h : 0 ≤ n)
    (hn : n < 10 ^ digits) : compactLength (.int n) ≤ digits := by
  have htext : compactLength (.int n) = (Nat.toDigits 10 n.natAbs).length := by
    have hnegative : ¬ n < 0 := by omega
    show (DecimalText.intText n).length = _
    simp [DecimalText.intText, DecimalText.intLiteral, DecimalText.Literal.text,
      DecimalText.Literal.signText, DecimalText.Literal.fractionText,
      DecimalText.Literal.exponentText, hnegative]
  obtain ⟨m, rfl⟩ := Int.eq_ofNat_of_zero_le h
  have hm : m < 10 ^ digits := by exact_mod_cast hn
  rw [htext]
  exact Nat.toDigits_length 10 m digits hdigits hm

theorem utf8ByteSize_ofList_le (text : List Char) :
    (String.ofList text).utf8ByteSize ≤ 4 * text.length := by
  induction text with
  | nil => simp
  | cons c rest ih =>
    have hc := c.utf8Size_le_four
    rw [String.ofList_cons, String.utf8ByteSize_append, String.utf8ByteSize_singleton,
      List.length_cons]
    omega

end Bounds

end FailureResolver.JsonLength
