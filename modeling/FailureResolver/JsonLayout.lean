import FailureResolver.FencedText
import FailureResolver.JsonRoundTrip

/-!
The shape of printed JSON. Every character of a compact text is at least a blank,
so a compact text has no line feed; an indented text has one only before a blank
or a closing bracket. Both start and end with a character that stripping keeps.
-/

namespace FailureResolver.JsonLayout

open DecimalText FencedText JsonRoundTrip JsonText JsonValue PyText

def Ink (c : Char) : Prop := 32 < c.toNat ∧ c.toNat < 127

instance (c : Char) : Decidable (Ink c) := inferInstanceAs (Decidable (_ ∧ _))

section Scalars

theorem ink_of_isDigit {c : Char} (h : c.isDigit) : Ink c := by
  simp only [Char.isDigit, Bool.and_eq_true, decide_eq_true_eq, ge_iff_le] at h
  have hlow : 48 ≤ c.toNat := by
    have := UInt32.le_iff_toNat_le.mp h.1
    simpa using this
  have hhigh : c.toNat ≤ 57 := by
    have := UInt32.le_iff_toNat_le.mp h.2
    simpa using this
  exact ⟨by omega, by omega⟩

theorem ink_literal {l : Literal} (hl : l.WellFormed) : ∀ c ∈ l.text, Ink c := by
  intro c hc
  simp only [Literal.text, List.mem_append] at hc
  rcases hc with hc | hc | hc | hc
  · cases hnegative : l.negative with
    | false => simp [Literal.signText, hnegative] at hc
    | true =>
      simp only [Literal.signText, hnegative, if_true, List.mem_singleton] at hc
      rw [hc]
      decide
  · exact ink_of_isDigit (hl.whole_digits c hc)
  · unfold Literal.fractionText at hc
    split at hc
    · cases hc
    · rcases List.mem_cons.mp hc with rfl | hc
      · decide
      · exact ink_of_isDigit (hl.fraction_digits c hc)
  · cases hexponent : l.exponent with
    | none => simp [hexponent, Literal.exponentText] at hc
    | some exponent =>
      obtain ⟨negative, ds⟩ := exponent
      have hdigits := (hl.exponent_digits negative ds hexponent).2
      rw [hexponent] at hc
      cases negative with
      | true =>
        rcases List.mem_cons.mp hc with rfl | hc
        · decide
        · rcases List.mem_cons.mp hc with rfl | hc
          · decide
          · exact ink_of_isDigit (hdigits c hc)
      | false =>
        rcases List.mem_cons.mp hc with rfl | hc
        · decide
        · rcases List.mem_cons.mp hc with rfl | hc
          · decide
          · exact ink_of_isDigit (hdigits c hc)

theorem ink_scalarText {value : Json} (h : isText value = false) :
    ∀ c ∈ scalarText value, Ink c := by
  cases value with
  | null => decide
  | bool b => cases b <;> decide
  | int n => exact ink_literal (intLiteral_wellFormed n)
  | float x =>
    cases x with
    | nan => decide
    | infinity negative => cases negative <;> decide
    | finite x => exact ink_literal (floatLiteral_wellFormed x)
  | str s => cases h
  | arr items => exact (by decide : ∀ c ∈ "[]".toList, Ink c)
  | obj members => exact (by decide : ∀ c ∈ "\x7b\x7d".toList, Ink c)

/-- An escaped character is at least a blank, and is itself if it was not
escaped. -/
theorem mem_escapeChar {c d : Char} (h : d ∈ escapeChar c) : Ink d ∨ d = c ∧ 32 ≤ c.toNat := by
  have hdigit : ∀ n < 16, Ink (hexDigit n) := by decide
  unfold escapeChar at h
  split at h
  · exact .inl ((by decide : ∀ d ∈ ['\\', '"'], Ink d) d h)
  split at h
  · exact .inl ((by decide : ∀ d ∈ ['\\', '\\'], Ink d) d h)
  split at h
  · exact .inl ((by decide : ∀ d ∈ ['\\', 'n'], Ink d) d h)
  split at h
  · exact .inl ((by decide : ∀ d ∈ ['\\', 'r'], Ink d) d h)
  split at h
  · exact .inl ((by decide : ∀ d ∈ ['\\', 't'], Ink d) d h)
  split at h
  · exact .inl ((by decide : ∀ d ∈ ['\\', 'f'], Ink d) d h)
  split at h
  · exact .inl ((by decide : ∀ d ∈ ['\\', 'b'], Ink d) d h)
  split at h
  · next hcontrol =>
    simp only [List.mem_cons, List.not_mem_nil, or_false] at h
    rcases h with rfl | rfl | rfl | rfl | rfl | rfl
    · exact .inl (by decide)
    · exact .inl (by decide)
    · exact .inl (by decide)
    · exact .inl (by decide)
    · exact .inl (hdigit _ (by omega))
    · exact .inl (hdigit _ (by omega))
  · next hcontrol =>
    rw [List.mem_singleton.mp h]
    exact .inr ⟨rfl, by omega⟩

/-- Nothing below a blank is left in a quoted string. -/
theorem mem_quote {s : String} {d : Char} (h : d ∈ quote s) : 32 ≤ d.toNat := by
  simp only [quote, List.mem_cons, List.mem_append, List.mem_flatMap, List.not_mem_nil,
    or_false] at h
  rcases h with rfl | ⟨c, -, hd⟩ | rfl
  · decide
  · rcases mem_escapeChar hd with hink | ⟨rfl, hblank⟩
    · exact hink.1.le
    · exact hblank
  · decide

theorem mem_scalarText {value : Json} {d : Char} (h : d ∈ scalarText value) : 32 ≤ d.toNat := by
  cases htext : isText value with
  | false => exact (ink_scalarText htext d h).1.le
  | true =>
    cases value with
    | str s => exact mem_quote h
    | _ => cases htext

end Scalars

section Containers

variable {P : List Char → Prop} {style : Style}

theorem printItems_flatMap (style : Style) (level : ℕ) (items : List Json) :
    printItems style level items =
      items.flatMap (fun x => ',' :: (style.newline level ++ print style level x)) := by
  induction items with
  | nil => rfl
  | cons x xs ih => simp [printItems, ih]

theorem printMembers_flatMap (style : Style) (level : ℕ) (members : Fields) :
    printMembers style level members = members.flatMap (fun m =>
      ',' :: (style.newline level ++ (quote m.1 ++ (':' :: (style.afterKey ++
        print style level m.2))))) := by
  induction members with
  | nil => rfl
  | cons m rest ih =>
    obtain ⟨key, x⟩ := m
    simp [printMembers, ih]

/-- What holds of every piece and is kept by joining pieces holds of the text. -/
structure Pieces (style : Style) (P : List Char → Prop) : Prop where
  append : ∀ a b, P a → P b → P (a ++ b)
  scalar : ∀ value, P (scalarText value)
  quote : ∀ s, P (quote s)
  mark : ∀ c ∈ ['[', '\x7b', ',', ':'], P [c]
  afterKey : P style.afterKey
  item : ∀ level, P (style.newline (level + 1))
  close : ∀ level, ∀ c ∈ [']', '\x7d'], P (style.newline level ++ [c])

theorem Pieces.flatMap {α : Type} {f : α → List Char} {xs : List α} (hP : Pieces style P)
    (h : ∀ x ∈ xs, P (f x)) {close : List Char} (hclose : P close) :
    P (xs.flatMap f ++ close) := by
  induction xs with
  | nil => exact hclose
  | cons x xs ih =>
    obtain ⟨hx, hxs⟩ := List.forall_mem_cons.mp h
    rw [List.flatMap_cons, List.append_assoc]
    exact hP.append _ _ hx (ih hxs)

theorem Pieces.print (hP : Pieces style P) (value : Json) (level : ℕ) :
    P (JsonText.print style level value) := by
  induction value using Json.inductionOn generalizing level with
  | null => exact hP.scalar .null
  | bool b => exact hP.scalar (.bool b)
  | int n => exact hP.scalar (.int n)
  | float x => exact hP.scalar (.float x)
  | str s => exact hP.scalar (.str s)
  | arr items ih =>
    cases items with
    | nil => exact hP.scalar (.arr [])
    | cons x xs =>
      obtain ⟨hx, hxs⟩ := List.forall_mem_cons.mp ih
      have hrest := hP.flatMap
        (f := fun x => ',' :: (style.newline (level + 1) ++ JsonText.print style (level + 1) x))
        (fun y hy => hP.append [','] _ (hP.mark ',' (by decide))
          (hP.append _ _ (hP.item level) (hxs y hy (level + 1))))
        (hP.close level ']' (by decide))
      rw [JsonText.print, printItems_flatMap]
      exact hP.append ['['] _ (hP.mark '[' (by decide)) (hP.append _ _ (hP.item level)
        (hP.append _ _ (hx (level + 1)) hrest))
  | obj members ih =>
    cases members with
    | nil => exact hP.scalar (.obj [])
    | cons m rest =>
      obtain ⟨key, x⟩ := m
      obtain ⟨hx, hxs⟩ := List.forall_mem_cons.mp ih
      have hmember : ∀ (key : String) (x : Json), P (JsonText.print style (level + 1) x) →
          P (JsonText.quote key ++ (':' :: (style.afterKey ++
            JsonText.print style (level + 1) x))) := fun key x hx =>
        hP.append _ _ (hP.quote key) (hP.append [':'] _ (hP.mark ':' (by decide))
          (hP.append _ _ hP.afterKey hx))
      have hrest := hP.flatMap
        (f := fun m : String × Json => ',' :: (style.newline (level + 1) ++ (JsonText.quote m.1 ++
          (':' :: (style.afterKey ++ JsonText.print style (level + 1) m.2)))))
        (fun y hy => hP.append [','] _ (hP.mark ',' (by decide)) (hP.append _ _ (hP.item level)
          (hmember y.1 y.2 (hxs y hy (level + 1)))))
        (hP.close level '\x7d' (by decide))
      have hwhole := hP.append ['\x7b'] _ (hP.mark '\x7b' (by decide)) (hP.append _ _ (hP.item level)
        (hP.append _ _ (hmember key x (hx (level + 1))) hrest))
      rw [JsonText.print, printMembers_flatMap]
      simpa using hwhole

/-- A compact text has no control character. -/
theorem mem_print_compact (value : Json) : ∀ d ∈ print compactStyle 0 value, 32 ≤ d.toNat := by
  have hpieces : Pieces compactStyle (fun text => ∀ d ∈ text, 32 ≤ d.toNat) := by
    refine ⟨fun a b ha hb d hd => ?_, fun value d hd => mem_scalarText hd,
      fun s d hd => mem_quote hd, by decide, by simp [compactStyle], by simp [compactStyle],
      fun level => ?_⟩
    · exact (List.mem_append.mp hd).elim (ha d) (hb d)
    · simp only [compactStyle, List.nil_append]
      decide
  exact hpieces.print value 0

/-- An indented text has no control character but the line feed. -/
theorem mem_print_indented (value : Json) :
    ∀ d ∈ print indentedStyle 0 value, d = '\n' ∨ 32 ≤ d.toNat := by
  have hnewline : ∀ level, ∀ d ∈ indentedStyle.newline level, d = '\n' ∨ 32 ≤ d.toNat := by
    intro level d hd
    rcases List.mem_cons.mp hd with rfl | hd
    · exact .inl rfl
    · rw [(List.mem_replicate.mp hd).2]
      exact .inr (by decide)
  have hpieces : Pieces indentedStyle (fun text => ∀ d ∈ text, d = '\n' ∨ 32 ≤ d.toNat) := by
    refine ⟨fun a b ha hb d hd => ?_, fun value d hd => .inr (mem_scalarText hd),
      fun s d hd => .inr (mem_quote hd), by decide, by decide, fun level => hnewline _,
      fun level c hc d hd => ?_⟩
    · exact (List.mem_append.mp hd).elim (ha d) (hb d)
    · rcases List.mem_append.mp hd with hd | hd
      · exact hnewline level d hd
      · rw [List.mem_singleton.mp hd]
        exact .inr ((by decide : ∀ c ∈ [']', '\x7d'], 32 ≤ c.toNat) c hc)
  exact hpieces.print value 0

theorem plain_of_blank {text : List Char} (h : ∀ d ∈ text, 32 ≤ d.toNat) : Plain text :=
  fun hmem => absurd (h '\n' hmem) (by decide)

/-- No line of an indented text starts a heading or a fence. -/
theorem tame_print_indented (value : Json) : Tame (print indentedStyle 0 value) := by
  have hplain : ∀ {text : List Char}, (∀ d ∈ text, 32 ≤ d.toNat) → Tame text :=
    fun h => (plain_of_blank h).guarded
  have hblanks : ∀ level, ∀ d ∈ List.replicate (2 * level) ' ', 32 ≤ d.toNat := by
    intro level d hd
    rw [(List.mem_replicate.mp hd).2]
    decide
  have hpieces : Pieces indentedStyle Tame := by
    refine ⟨fun a b ha hb => ha.append hb, fun value => hplain fun d hd => mem_scalarText hd,
      fun s => hplain fun d hd => mem_quote hd, fun c hc => hplain ?_, hplain (by decide),
      fun level => ?_, fun level c hc => ?_⟩
    · revert c
      decide
    · exact guarded_line (by decide) (hplain (hblanks (level + 1)))
    · cases level with
      | zero =>
        refine guarded_line ?_ (hplain ?_)
        · revert c
          decide
        · revert c
          decide
      | succ level =>
        have hline : Tame (indentedStyle.newline (level + 1)) :=
          guarded_line (by decide) (hplain (hblanks (level + 1)))
        exact hline.append (hplain (by revert c; decide))
  exact hpieces.print value 0

end Containers

section Ends

def Flush (text : List Char) : Prop := stripChars text = text

theorem isSpace_of_ink {c : Char} (h : Ink c) : isSpace c = false := by
  obtain ⟨hlow, hhigh⟩ := h
  simp only [isSpace, Bool.or_eq_false_iff, Bool.and_eq_false_iff, decide_eq_false_iff_not]
  omega

theorem flush_of_ink {text : List Char} (hhead : ∀ c, text.head? = some c → Ink c)
    (hlast : ∀ c, text.getLast? = some c → Ink c) : Flush text :=
  stripChars_of_ends (fun c hc => isSpace_of_ink (hhead c hc))
    (fun c hc => isSpace_of_ink (hlast c hc))

theorem ends_bracket {first last : Char} (start : List Char) {text : List Char}
    (hfirst : Ink first) (hlast : Ink last) (h : text = first :: (start ++ [last])) :
    (∀ c, text.head? = some c → Ink c) ∧ ∀ c, text.getLast? = some c → Ink c := by
  rw [h]
  constructor
  · rintro c ⟨⟩
    exact hfirst
  · intro c hc
    rw [← List.cons_append, List.getLast?_concat] at hc
    cases hc
    exact hlast

/-- A printed value starts and ends with a visible character. -/
theorem print_ends (style : Style) (level : ℕ) (value : Json) :
    (∀ c, (print style level value).head? = some c → Ink c) ∧
      ∀ c, (print style level value).getLast? = some c → Ink c := by
  have hscalar : isText value = false → print style level value = scalarText value →
      (∀ c, (print style level value).head? = some c → Ink c) ∧
        ∀ c, (print style level value).getLast? = some c → Ink c := by
    intro htext hprint
    rw [hprint]
    exact ⟨fun c hc => ink_scalarText htext c (List.mem_of_mem_head? hc),
      fun c hc => ink_scalarText htext c (List.mem_of_getLast? hc)⟩
  cases value with
  | null => exact hscalar rfl rfl
  | bool b => exact hscalar rfl rfl
  | int n => exact hscalar rfl rfl
  | float x => exact hscalar rfl rfl
  | str s => exact ends_bracket (s.toList.flatMap escapeChar) (by decide) (by decide) rfl
  | arr items =>
    cases items with
    | nil => exact hscalar rfl rfl
    | cons x xs =>
      have hprint : print style level (.arr (x :: xs)) = '[' :: ((style.newline (level + 1) ++
          (print style (level + 1) x ++ (printItems style (level + 1) xs ++
            style.newline level))) ++ [']']) := by
        simp [print]
      exact ends_bracket _ (by decide) (by decide) hprint
  | obj members =>
    cases members with
    | nil => exact hscalar rfl rfl
    | cons m rest =>
      obtain ⟨key, x⟩ := m
      have hprint : print style level (.obj ((key, x) :: rest)) =
          '\x7b' :: ((style.newline (level + 1) ++ (quote key ++ (':' :: (style.afterKey ++
            (print style (level + 1) x ++ (printMembers style (level + 1) rest ++
              style.newline level)))))) ++ ['\x7d']) := by
        simp [print]
      exact ends_bracket _ (by decide) (by decide) hprint

theorem flush_print (style : Style) (level : ℕ) (value : Json) :
    Flush (print style level value) :=
  flush_of_ink (print_ends style level value).1 (print_ends style level value).2

end Ends

end FailureResolver.JsonLayout
