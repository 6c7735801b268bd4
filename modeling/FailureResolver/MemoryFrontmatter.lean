import FailureResolver.JsonPrefix
import FailureResolver.MemorySections

/-!
The frontmatter of a memory, read back. The encoder keeps three line boundaries
inside a value that the reader splits at: U+0085, U+2028 and U+2029. Without them
every line is read as the field it was written for. The first line that has one is
cut inside its value; what is left is no JSON text, so the field reads as a text
that is not its value, or the whole frontmatter is refused.
-/

namespace FailureResolver.MemoryFrontmatter

open FencedText JsonLayout JsonPrefix JsonRoundTrip JsonText JsonValue PyException PyText PyUuid
open ResolutionMemory MemoryMarkdown MemorySections

section Separators

def isSeparator (c : Char) : Bool := c.toNat = 0x85 || c.toNat = 0x2028 || c.toNat = 0x2029

mutual

/-- Every text in a value, the keys of its objects among them. -/
def texts : Json → List String
  | .str s => [s]
  | .arr items => textsItems items
  | .obj members => textsMembers members
  | _ => []

def textsItems : List Json → List String
  | [] => []
  | x :: xs => texts x ++ textsItems xs

def textsMembers : List (String × Json) → List String
  | [] => []
  | (key, x) :: rest => key :: (texts x ++ textsMembers rest)

end

/-- No text in the value has a line boundary that is kept. -/
def SeparatorFree (value : Json) : Prop :=
  ∀ s ∈ texts value, ∀ c ∈ s.toList, isSeparator c = false

instance (value : Json) : Decidable (SeparatorFree value) :=
  inferInstanceAs (Decidable (∀ s ∈ texts value, ∀ c ∈ s.toList, isSeparator c = false))

theorem mem_textsItems {items : List Json} {s : String} :
    s ∈ textsItems items ↔ ∃ x ∈ items, s ∈ texts x := by
  induction items with
  | nil => simp [textsItems]
  | cons x xs ih => simp [textsItems, ih]

theorem mem_textsMembers {members : Fields} {s : String} :
    s ∈ textsMembers members ↔ ∃ m ∈ members, s = m.1 ∨ s ∈ texts m.2 := by
  induction members with
  | nil => simp [textsMembers]
  | cons m rest ih =>
    obtain ⟨key, x⟩ := m
    simp [textsMembers, ih, or_assoc]

/-- A character outside ASCII is written as it is. -/
theorem mem_quote_iff {s : String} {c : Char} (hc : 127 ≤ c.toNat) :
    c ∈ quote s ↔ c ∈ s.toList := by
  have hink : ¬ Ink c := fun h => absurd h.2 (by omega)
  have hself : c ∈ escapeChar c := by
    have hne : ∀ d : Char, d.toNat < 127 → c ≠ d := by
      rintro d hd rfl
      omega
    simp [escapeChar, hne '"' (by decide), hne '\\' (by decide), hne '\n' (by decide),
      hne '\r' (by decide), hne '\t' (by decide), show c.toNat ≠ 12 by omega,
      show c.toNat ≠ 8 by omega, show ¬ c.toNat < 32 by omega]
  simp only [quote, List.mem_cons, List.mem_append, List.mem_flatMap, List.not_mem_nil, or_false]
  constructor
  · rintro (rfl | ⟨d, hd, hmem⟩ | rfl)
    · exact absurd hc (by decide)
    · rcases mem_escapeChar hmem with h | ⟨rfl, -⟩
      · exact absurd h hink
      · exact hd
    · exact absurd hc (by decide)
  · exact fun hmem => .inr (.inl ⟨c, hmem, hself⟩)

theorem mem_print_iff {c : Char} (hc : 127 ≤ c.toNat) (level : ℕ) (value : Json) :
    c ∈ print compactStyle level value ↔ ∃ s ∈ texts value, c ∈ s.toList := by
  have hmark : ∀ d : Char, d.toNat < 127 → c ≠ d := by
    rintro d hd rfl
    omega
  have hscalar : ∀ value, isText value = false → c ∉ scalarText value := fun value htext hmem =>
    absurd (ink_scalarText htext c hmem).2 (by omega)
  have hnone : ∀ {value : Json} {level : ℕ}, texts value = [] →
      print compactStyle level value = scalarText value → c ∉ scalarText value →
      (c ∈ print compactStyle level value ↔ ∃ s ∈ texts value, c ∈ s.toList) := by
    intro value level htexts hprint hmem
    rw [htexts, hprint]
    simp [hmem]
  induction value using Json.inductionOn generalizing level with
  | null => exact hnone rfl rfl (hscalar .null rfl)
  | bool b => exact hnone rfl rfl (hscalar (.bool b) rfl)
  | int n => exact hnone rfl rfl (hscalar (.int n) rfl)
  | float x => exact hnone rfl rfl (hscalar (.float x) rfl)
  | str s =>
    change c ∈ quote s ↔ ∃ t ∈ [s], c ∈ t.toList
    rw [mem_quote_iff hc]
    simp
  | arr items ih =>
    cases items with
    | nil => exact hnone rfl rfl (hscalar (.arr []) rfl)
    | cons x xs =>
      obtain ⟨hx, hxs⟩ := List.forall_mem_cons.mp ih
      rw [texts, textsItems, print, printItems_flatMap]
      simp only [compactStyle_newline, List.nil_append, List.mem_cons, List.mem_append,
        List.mem_flatMap, List.not_mem_nil, or_false, hmark '[' (by decide),
        hmark ']' (by decide), hmark ',' (by decide), false_or, mem_textsItems]
      have hitems : (∃ y ∈ xs, c ∈ print compactStyle (level + 1) y) ↔
          ∃ y ∈ xs, ∃ s ∈ texts y, c ∈ s.toList :=
        exists_congr fun y => and_congr_right fun hy => hxs y hy (level + 1)
      have hfirst : c ∈ print compactStyle (level + 1) x ↔ ∃ s ∈ texts x, c ∈ s.toList :=
        hx (level + 1)
      rw [hfirst, hitems]
      constructor
      · rintro (⟨s, hs, hmem⟩ | ⟨y, hy, s, hs, hmem⟩)
        · exact ⟨s, .inl hs, hmem⟩
        · exact ⟨s, .inr ⟨y, hy, hs⟩, hmem⟩
      · rintro ⟨s, hs | ⟨y, hy, hs⟩, hmem⟩
        · exact .inl ⟨s, hs, hmem⟩
        · exact .inr ⟨y, hy, s, hs, hmem⟩
  | obj members ih =>
    cases members with
    | nil => exact hnone rfl rfl (hscalar (.obj []) rfl)
    | cons m rest =>
      obtain ⟨key, x⟩ := m
      obtain ⟨hx, hxs⟩ := List.forall_mem_cons.mp ih
      rw [texts, textsMembers, print, printMembers_flatMap]
      simp only [compactStyle_newline, compactStyle_afterKey, List.nil_append, List.mem_cons,
        List.mem_append,
        List.mem_flatMap, List.not_mem_nil, or_false, hmark '\x7b' (by decide),
        hmark '\x7d' (by decide), hmark ',' (by decide), hmark ':' (by decide), false_or,
        mem_textsMembers, mem_quote_iff hc]
      have hitems : (∃ y ∈ rest, c ∈ y.1.toList ∨ c ∈ print compactStyle (level + 1) y.2) ↔
          ∃ y ∈ rest, c ∈ y.1.toList ∨ ∃ s ∈ texts y.2, c ∈ s.toList :=
        exists_congr fun y => and_congr_right fun hy => or_congr_right (hxs y hy (level + 1))
      have hfirst : c ∈ print compactStyle (level + 1) x ↔ ∃ s ∈ texts x, c ∈ s.toList :=
        hx (level + 1)
      rw [hfirst, hitems]
      constructor
      · rintro (hmem | ⟨s, hs, hmem⟩ | ⟨y, hy, hmem | ⟨s, hs, hmem⟩⟩)
        · exact ⟨key, .inl rfl, hmem⟩
        · exact ⟨s, .inr (.inl hs), hmem⟩
        · exact ⟨y.1, .inr (.inr ⟨y, hy, .inl rfl⟩), hmem⟩
        · exact ⟨s, .inr (.inr ⟨y, hy, .inr hs⟩), hmem⟩
      · rintro ⟨s, rfl | hs | ⟨y, hy, rfl | hs⟩, hmem⟩
        · exact .inl hmem
        · exact .inr (.inl ⟨s, hs, hmem⟩)
        · exact .inr (.inr ⟨y, hy, .inl hmem⟩)
        · exact .inr (.inr ⟨y, hy, .inr ⟨s, hs, hmem⟩⟩)

/-- What ends a line in a compact text is one of the three separators. -/
theorem isLineBreak_of_blank {c : Char} (h : 32 ≤ c.toNat) : isLineBreak c = isSeparator c := by
  have hcontrol : (decide (10 ≤ c.toNat) && decide (c.toNat ≤ 13)) = false ∧
      (decide (28 ≤ c.toNat) && decide (c.toNat ≤ 30)) = false := by
    constructor
    · rw [Bool.and_eq_false_iff, decide_eq_false_iff_not, decide_eq_false_iff_not]
      omega
    · rw [Bool.and_eq_false_iff, decide_eq_false_iff_not, decide_eq_false_iff_not]
      omega
  simp only [isLineBreak, isSeparator, hcontrol.1, hcontrol.2, Bool.false_or]

theorem isSeparator_high {c : Char} (h : isSeparator c = true) : 127 ≤ c.toNat := by
  simp only [isSeparator, Bool.or_eq_true, decide_eq_true_eq] at h
  omega

/-- The written value stays on its line exactly if it has no separator. -/
theorem yamlScalar_no_break_iff (value : Json) :
    (∀ c ∈ yamlScalar value, isLineBreak c = false) ↔ SeparatorFree value := by
  constructor
  · intro h s hs c hc
    by_contra hsep
    rw [Bool.not_eq_false] at hsep
    have hmem : c ∈ yamlScalar value :=
      (mem_print_iff (isSeparator_high hsep) 0 value).mpr ⟨s, hs, hc⟩
    have hbreak := h c hmem
    rw [isLineBreak_of_blank (mem_print_compact value c hmem), hsep] at hbreak
    cases hbreak
  · intro h c hc
    rw [isLineBreak_of_blank (mem_print_compact value c hc)]
    by_contra hsep
    rw [Bool.not_eq_false] at hsep
    obtain ⟨s, hs, hmem⟩ := (mem_print_iff (isSeparator_high hsep) 0 value).mp hc
    rw [h s hs c hmem] at hsep
    cases hsep

end Separators

section Lines

variable {lines before after : List (List Char)}

/-- Lines without a boundary are split where they were joined. -/
theorem splitLines_joinLines (hne : ∀ line ∈ lines, line ≠ [])
    (hbreak : ∀ line ∈ lines, ∀ c ∈ line, isLineBreak c = false) :
    splitLines (joinLines lines) = lines := by
  unfold splitLines joinLines
  induction lines with
  | nil => rfl
  | cons line lines ih =>
    obtain ⟨hline, hlines⟩ := List.forall_mem_cons.mp hne
    obtain ⟨hplain, hplains⟩ := List.forall_mem_cons.mp hbreak
    cases lines with
    | nil =>
      rw [List.intercalate_singleton, splitLinesFrom_plain [] line hplain]
      simp [hline]
    | cons next lines =>
      rw [List.intercalate_cons_cons, List.append_assoc]
      exact (splitLinesFrom_line [] line _ hplain).trans
        (congrArg (line :: ·) (ih hlines hplains))

/-- A line with a boundary is cut at its first one. -/
theorem splitLines_cut (before after : List (List Char)) (cut more : List Char) {b : Char}
    (hbreak : ∀ line ∈ before, ∀ c ∈ line, isLineBreak c = false)
    (hcut : ∀ c ∈ cut, isLineBreak c = false) (hb : isLineBreak b = true) :
    ∃ tail, splitLines (joinLines (before ++ (cut ++ b :: more) :: after)) =
      before ++ cut :: tail := by
  unfold splitLines joinLines
  induction before with
  | nil =>
    cases after with
    | nil =>
      rw [List.nil_append, List.intercalate_singleton]
      exact splitLinesFrom_break [] cut more hcut hb
    | cons next after =>
      rw [List.nil_append, List.intercalate_cons_cons, List.append_assoc, List.append_assoc]
      exact splitLinesFrom_break [] cut _ hcut hb
  | cons line before ih =>
    obtain ⟨hplain, hplains⟩ := List.forall_mem_cons.mp hbreak
    obtain ⟨tail, htail⟩ := ih hplains
    refine ⟨tail, ?_⟩
    rw [List.cons_append, List.intercalate_cons_of_ne_nil (by simp), List.append_assoc]
    exact (splitLinesFrom_line [] line _ hplain).trans (congrArg (line :: ·) htail)

theorem exists_first_failure {α : Type} {p : α → Prop} {xs : List α} (h : ¬ ∀ x ∈ xs, p x) :
    ∃ before x after, xs = before ++ x :: after ∧ (∀ y ∈ before, p y) ∧ ¬ p x := by
  induction xs with
  | nil => exact absurd (by simp) h
  | cons x xs ih =>
    by_cases hx : p x
    · have hrest : ¬ ∀ y ∈ xs, p y := fun hxs => h (List.forall_mem_cons.mpr ⟨hx, hxs⟩)
      obtain ⟨before, y, after, rfl, hbefore, hy⟩ := ih hrest
      exact ⟨x :: before, y, after, rfl, List.forall_mem_cons.mpr ⟨hx, hbefore⟩, hy⟩
    · exact ⟨[], x, xs, rfl, by simp, hx⟩

end Lines

section Fields

variable {parsed : Fields} {key : String} {value : Json}

theorem partitionColon_key {key rest : List Char} (h : ':' ∉ key) :
    partitionColon (key ++ ':' :: rest) = some (key, rest) := by
  induction key with
  | nil => rfl
  | cons c key ih =>
    have hc : c ≠ ':' := fun heq => h (heq ▸ List.mem_cons_self ..)
    rw [List.cons_append, partitionColon, if_neg hc,
      ih fun hmem => h (List.mem_cons_of_mem _ hmem)]
    rfl

theorem stripChars_blank (text : List Char) : stripChars (' ' :: text) = stripChars text := rfl

/-- A line of a known field adds what its text reads as. -/
theorem addFrontmatterLine_field (hkey : key ∈ frontmatterFields)
    (hfresh : key ∉ parsed.map Prod.fst) (valueText : List Char) :
    addFrontmatterLine parsed (key.toList ++ ':' :: ' ' :: valueText) =
      .ok (parsed ++ [(key, frontmatterValue (stripChars valueText))]) := by
  obtain ⟨hword, hflush, hcolon, -, -, -⟩ := frontmatterFields_words key hkey
  have hhas : Fields.has parsed key = false := by
    rw [← Bool.not_eq_true, has_eq_true_iff]
    exact hfresh
  unfold addFrontmatterLine
  rw [partitionColon_key hcolon]
  simp only [hflush, hword, String.ofList_toList, hhas, Bool.true_eq_false, Bool.false_eq_true,
    if_false, stripChars_blank]

theorem frontmatterValue_yamlScalar (hdistinct : value.Distinct)
    (hprintable : printable value = true) :
    frontmatterValue (stripChars (yamlScalar value)) = value := by
  have hflush : stripChars (yamlScalar value) = yamlScalar value :=
    flush_print compactStyle 0 value
  unfold frontmatterValue
  rw [hflush, yamlScalar, loads_print compactStyle_blank hdistinct hprintable]
  rfl

/-- What a frontmatter has to satisfy to be read back: known fields, each once,
with values that have a text. -/
structure Writable (entries : Fields) : Prop where
  known : ∀ entry ∈ entries, entry.1 ∈ frontmatterFields
  nodup : (entries.map Prod.fst).Nodup
  distinct : ∀ entry ∈ entries, entry.2.Distinct
  printable : ∀ entry ∈ entries, printable entry.2 = true

theorem Writable.append {entries other : Fields} (h : Writable (entries ++ other)) :
    Writable entries ∧ Writable other := by
  obtain ⟨hknown, hnodup, hdistinct, hprintable⟩ := h
  rw [List.map_append, List.nodup_append] at hnodup
  rw [List.forall_mem_append] at hknown hdistinct hprintable
  exact ⟨⟨hknown.1, hnodup.1, hdistinct.1, hprintable.1⟩,
    ⟨hknown.2, hnodup.2.1, hdistinct.2, hprintable.2⟩⟩

/-- Whole lines read as the fields they were written for. -/
theorem foldlM_frontmatterLine (parsed entries : Fields)
    (h : Writable (parsed ++ entries)) :
    (entries.map frontmatterLine).foldlM addFrontmatterLine parsed = .ok (parsed ++ entries) := by
  induction entries generalizing parsed with
  | nil => simp [pure, Except.pure]
  | cons entry rest ih =>
    obtain ⟨key, value⟩ := entry
    have hmem : (key, value) ∈ parsed ++ (key, value) :: rest := by simp
    have hfresh : key ∉ parsed.map Prod.fst := by
      have hnodup := h.nodup
      rw [List.map_append, List.nodup_append] at hnodup
      exact fun hkey => hnodup.2.2 key hkey key (by simp) rfl
    have hread : addFrontmatterLine parsed (frontmatterLine (key, value)) =
        .ok (parsed ++ [(key, value)]) := by
      rw [frontmatterLine, addFrontmatterLine_field (h.known _ hmem) hfresh,
        frontmatterValue_yamlScalar (h.distinct _ hmem) (h.printable _ hmem)]
    have hrest := ih (parsed ++ [(key, value)]) (by simpa using h)
    rw [List.map_cons, List.foldlM_cons, hread]
    simpa [bind, Except.bind] using hrest

theorem addFrontmatterLine_append {line : List Char} {parsed' : Fields}
    (h : addFrontmatterLine parsed line = .ok parsed') : ∃ entry, parsed' = parsed ++ [entry] := by
  unfold addFrontmatterLine at h
  split at h
  · cases h
  · rw [rejectMemory_ite_eq_ok, rejectMemory_ite_eq_ok] at h
    obtain ⟨-, -, h⟩ := h
    cases h
    exact ⟨_, rfl⟩

/-- Later lines do not change what was read. -/
theorem foldlM_prefix {lines : List (List Char)} {parsed' : Fields}
    (h : lines.foldlM addFrontmatterLine parsed = .ok parsed') : parsed <+: parsed' := by
  induction lines generalizing parsed with
  | nil =>
    cases h
    exact List.prefix_rfl
  | cons line lines ih =>
    rw [List.foldlM_cons] at h
    obtain ⟨next, hnext, h⟩ := bind_eq_ok.mp h
    obtain ⟨entry, rfl⟩ := addFrontmatterLine_append hnext
    exact (List.prefix_append _ _).trans (ih h)

end Fields

section Draft

variable {draft : DraftFields}

theorem keys_frontmatter (draft : DraftFields) :
    (frontmatter draft).map Prod.fst = frontmatterFields := rfl

theorem nodup_frontmatterFields : frontmatterFields.Nodup := by decide +kernel

theorem printable_count {n : ℕ} (h : n < maxListLength) : printable (.int n) = true := by
  have hdigits : (Nat.toDigits 10 n).length ≤ 19 := by
    rw [Nat.length_toDigits_le_iff (by omega) (by omega)]
    unfold maxListLength at h
    omega
  have hshort : (Nat.toDigits 10 n).length ≤ maxStrDigits := by
    unfold maxStrDigits
    omega
  simpa [printable, scalarPrintable] using hshort

/-- Every field of a frontmatter has a text. -/
theorem writable_frontmatter (h : draft.source.Genuine) : Writable (frontmatter draft) := by
  have hoptional : ∀ text : Option String,
      (optionalText text).Distinct ∧ printable (optionalText text) = true := by
    intro text
    cases text <;> exact ⟨trivial, rfl⟩
  have hpayload : ∀ key, (Fields.get draft.source.payload key).Distinct ∧
      printable (Fields.get draft.source.payload key) = true := fun key =>
    ⟨distinct_get h.distinct key, printable_get h.printable key⟩
  have hscalar : ∀ entry ∈ frontmatter draft, entry.2.Distinct ∧ printable entry.2 = true := by
    unfold frontmatter
    simp only [List.forall_mem_cons, hoptional, hpayload, printable_count h.bounded, true_and,
      and_true]
    exact ⟨⟨trivial, rfl⟩, ⟨trivial, rfl⟩, ⟨trivial, rfl⟩, ⟨trivial, rfl⟩, ⟨trivial, rfl⟩,
      ⟨trivial, rfl⟩, trivial, ⟨trivial, rfl⟩, by simp⟩
  refine ⟨fun entry hentry => ?_, ?_, fun entry hentry => (hscalar entry hentry).1,
    fun entry hentry => (hscalar entry hentry).2⟩
  · rw [← keys_frontmatter draft]
    exact List.mem_map_of_mem hentry
  · rw [keys_frontmatter]
    exact nodup_frontmatterFields

theorem get_of_mem {entries : Fields} (hnodup : (entries.map Prod.fst).Nodup)
    (entry : String × Json) (h : entry ∈ entries) : Fields.get entries entry.1 = entry.2 := by
  rw [Fields.get, lookup_eq_some_of_mem hnodup h]
  rfl

theorem frontmatterLines_eq (draft : DraftFields) :
    frontmatterLines draft = (frontmatter draft).map frontmatterLine := by
  unfold frontmatterLines
  rw [← keys_frontmatter draft, List.map_map]
  refine List.map_congr_left fun entry hentry => ?_
  have hnodup : ((frontmatter draft).map Prod.fst).Nodup := by
    rw [keys_frontmatter]
    exact nodup_frontmatterFields
  simp only [Function.comp_apply, get_of_mem hnodup entry hentry]

theorem checkFrontmatter_frontmatter (draft : DraftFields) :
    checkFrontmatter (frontmatter draft) = .ok (frontmatter draft) := by
  have hhas : frontmatterFields.all (Fields.has (frontmatter draft)) = true := by
    rw [List.all_eq_true]
    intro key hkey
    rwa [has_eq_true_iff, keys_frontmatter]
  have hnodup : ((frontmatter draft).map Prod.fst).Nodup := by
    rw [keys_frontmatter]
    exact nodup_frontmatterFields
  have hversion := get_of_mem hnodup ("schema_version", .int schemaVersion)
    (by simp [frontmatter])
  have hsource := get_of_mem hnodup ("source", .str sourceTable)
    (by simp [frontmatter])
  have hkind := get_of_mem hnodup ("memory_kind", .str draft.memoryKind.text)
    (by simp [frontmatter])
  have hactionable := get_of_mem hnodup ("actionable", .bool draft.actionable)
    (by simp [frontmatter])
  have hcount := get_of_mem hnodup
    ("action_count", .int draft.source.dispatchedActions.length)
    (by simp [frontmatter])
  simp only at hversion hsource hkind hactionable hcount
  have hpositive : ¬ (Json.pyEq (.str draft.memoryKind.text) (.str "positive") = false ∧
      Json.pyEq (.str draft.memoryKind.text) (.str "negative") = false) := by
    cases draft.memoryKind <;> decide
  have hinteger : Json.pyEq (.int schemaVersion) (.int schemaVersion) = true := by decide
  have htable : Json.pyEq (.str sourceTable) (.str sourceTable) = true := by
    simp [Json.pyEq]
  have hnatural : isActionCount (.int draft.source.dispatchedActions.length) = true := by
    simp [isActionCount]
  unfold checkFrontmatter
  rw [hversion, hsource, hkind, hactionable, hcount, hhas, hinteger, htable, hnatural,
    if_neg hpositive]
  rfl

/-- No field of the frontmatter holds a line boundary that is kept. -/
def CleanFrontmatter (draft : DraftFields) : Prop :=
  ∀ entry ∈ frontmatter draft, SeparatorFree entry.2

instance (draft : DraftFields) : Decidable (CleanFrontmatter draft) :=
  inferInstanceAs (Decidable (∀ entry ∈ frontmatter draft, SeparatorFree entry.2))

theorem frontmatterLine_no_break {entry : String × Json} (hkey : entry.1 ∈ frontmatterFields)
    (h : SeparatorFree entry.2) : ∀ c ∈ frontmatterLine entry, isLineBreak c = false := by
  intro c hc
  simp only [frontmatterLine, List.mem_append, List.mem_cons] at hc
  rcases hc with hc | rfl | rfl | hc
  · exact (frontmatterFields_words _ hkey).2.2.2.1 c hc
  · decide
  · decide
  · exact (yamlScalar_no_break_iff _).mpr h c hc

/-- A clean frontmatter is read back. -/
theorem parseFrontmatter_clean (h : draft.source.Genuine) (hclean : CleanFrontmatter draft) :
    parseFrontmatter (frontmatterText draft) = .ok (frontmatter draft) := by
  have hwritable := writable_frontmatter h
  have hlines : splitLines (frontmatterText draft) = (frontmatter draft).map frontmatterLine := by
    unfold frontmatterText
    rw [frontmatterLines_eq]
    refine splitLines_joinLines (fun line hline => ?_) fun line hline => ?_
    · obtain ⟨entry, -, rfl⟩ := List.mem_map.mp hline
      simp [frontmatterLine]
    · obtain ⟨entry, hentry, rfl⟩ := List.mem_map.mp hline
      exact frontmatterLine_no_break (hwritable.known entry hentry) (hclean entry hentry)
  have hfold := foldlM_frontmatterLine [] (frontmatter draft) (by simpa using hwritable)
  unfold parseFrontmatter
  rw [hlines, hfold]
  exact checkFrontmatter_frontmatter draft

end Draft

section Cut

variable {draft : DraftFields}

theorem detached_of_space {rest : List Char} (h : ∀ c, rest.head? = some c → isSpace c = true) :
    Detached rest := by
  intro c hc
  have hspace := h c hc
  have hink : ¬ Ink c := fun hink => by
    rw [isSpace_of_ink hink] at hspace
    cases hspace
  refine ⟨fun hdigit => hink (ink_of_isDigit hdigit), fun hmem => hink ?_⟩
  exact (by decide : ∀ c ∈ ['.', 'e', 'E', '+', '-'], Ink c) c hmem

/-- What is left of a value cut at a boundary is no JSON text. -/
theorem loads_cut {value : Json} {cut more : List Char} {b : Char} (hdistinct : value.Distinct)
    (hprintable : printable value = true) (hprint : yamlScalar value = cut ++ b :: more)
    (hb : isLineBreak b = true) : loads (stripChars cut) = none := by
  have hhead : ∀ c, cut.head? = some c → isSpace c = false := by
    intro c hc
    apply isSpace_of_ink
    apply (print_ends compactStyle 0 value).1 c
    change (yamlScalar value).head? = some c
    rw [hprint, List.head?_append, hc]
    rfl
  obtain ⟨blanks, hcut, hblanks⟩ := stripChars_append hhead
  apply loads_prefix (blanks ++ b :: more) compactStyle_blank hdistinct hprintable
  · rw [← List.append_assoc, ← hcut]
    exact hprint
  · simp
  · apply detached_of_space
    intro c hc
    cases blanks with
    | nil =>
      cases hc
      exact isSpace_of_isLineBreak hb
    | cons d blanks =>
      cases hc
      exact hblanks _ (List.mem_cons_self ..)

/-- A text without separators is no value that has one. -/
theorem pyEq_text {text : List Char} {value : Json} (htext : ∀ c ∈ text, isSeparator c = false)
    (h : ¬ SeparatorFree value) : Json.pyEq (.str (String.ofList text)) value = false := by
  cases value with
  | str s =>
    rw [Json.pyEq, beq_eq_false_iff_ne]
    rintro rfl
    apply h
    intro t ht c hc
    rw [List.mem_singleton.mp ht, String.toList_ofList] at hc
    exact htext c hc
  | null => rfl
  | bool b => rfl
  | int n => rfl
  | float x => rfl
  | arr items => rfl
  | obj members => rfl

/-- A frontmatter with a separator is refused or misread. -/
theorem parseFrontmatter_cut (h : draft.source.Genuine) (hclean : ¬ CleanFrontmatter draft)
    {parsed : Fields} (hparse : parseFrontmatter (frontmatterText draft) = .ok parsed) :
    ∃ entry ∈ frontmatter draft, ¬ SeparatorFree entry.2 ∧
      Json.pyEq (Fields.get parsed entry.1) entry.2 = false := by
  have hwritable := writable_frontmatter h
  obtain ⟨before, ⟨key, value⟩, after, hsplit, hbefore, hvalue⟩ := exists_first_failure hclean
  have hmem : (key, value) ∈ frontmatter draft := by simp [hsplit]
  have hkey := hwritable.known _ hmem
  have hbroken := (yamlScalar_no_break_iff value).not.mpr hvalue
  obtain ⟨cut, b, more, hprint, hcut, hb⟩ := exists_first_failure hbroken
  rw [Bool.not_eq_false] at hb
  have hword := (frontmatterFields_words key hkey).2.2.2.1
  obtain ⟨tail, htail⟩ := splitLines_cut (before.map frontmatterLine)
    (after.map frontmatterLine) (key.toList ++ ':' :: ' ' :: cut) more
    (fun line hline => by
      obtain ⟨entry, hentry, rfl⟩ := List.mem_map.mp hline
      exact frontmatterLine_no_break (hwritable.known entry (by simp [hsplit, hentry]))
        (hbefore entry hentry))
    (fun c hc => by
      simp only [List.mem_append, List.mem_cons] at hc
      rcases hc with hc | rfl | rfl | hc
      · exact hword c hc
      · decide
      · decide
      · exact hcut c hc)
    hb
  have hlines : splitLines (frontmatterText draft) =
      before.map frontmatterLine ++ (key.toList ++ ':' :: ' ' :: cut) :: tail := by
    rw [← htail]
    unfold frontmatterText
    rw [frontmatterLines_eq, hsplit, List.map_append, List.map_cons]
    simp [frontmatterLine, hprint]
  have hread := foldlM_frontmatterLine [] before
    (by simpa using (hsplit ▸ hwritable).append.1)
  have hfresh : key ∉ before.map Prod.fst := by
    have hnodup := hwritable.nodup
    rw [hsplit, List.map_append, List.nodup_append] at hnodup
    exact fun hold => hnodup.2.2 key hold key (by simp) rfl
  unfold parseFrontmatter at hparse
  rw [hlines, List.foldlM_append] at hparse
  obtain ⟨folded, hfolded, hcheck⟩ := bind_eq_ok.mp hparse
  rw [hread, List.nil_append] at hfolded
  obtain ⟨start, hstart, hfolded⟩ := bind_eq_ok.mp hfolded
  cases hstart
  rw [List.foldlM_cons, addFrontmatterLine_field hkey hfresh] at hfolded
  obtain ⟨next, hnext, hfolded⟩ := bind_eq_ok.mp hfolded
  cases hnext
  obtain ⟨later, rfl⟩ := foldlM_prefix hfolded
  have hsame : parsed = before ++ [(key, frontmatterValue (stripChars cut))] ++ later := by
    unfold checkFrontmatter at hcheck
    simp only [rejectMemory_ite_eq_ok, Except.ok.injEq] at hcheck
    exact hcheck.2.2.2.2.2.2.symm
  have hget : Fields.get parsed key = .str (String.ofList (stripChars cut)) := by
    have hnone : before.lookup key = none := by
      rw [List.lookup_eq_none_iff]
      intro entry hentry
      rw [bne_iff_ne]
      rintro rfl
      exact hfresh (List.mem_map_of_mem hentry)
    rw [hsame, Fields.get, List.lookup_append, List.lookup_append, hnone]
    simp [frontmatterValue, loads_cut (hwritable.distinct _ hmem) (hwritable.printable _ hmem)
      hprint hb]
  refine ⟨(key, value), hmem, hvalue, ?_⟩
  simp only
  rw [hget]
  apply pyEq_text _ hvalue
  intro c hc
  have hcutMem : c ∈ cut := by
    unfold stripChars at hc
    exact (List.dropWhile_sublist _).mem (List.mem_reverse.mp
      ((List.dropWhile_sublist _).mem (List.mem_reverse.mp hc)))
  have hbreak := hcut c hcutMem
  rwa [isLineBreak_of_blank] at hbreak
  exact mem_print_compact value c (by
    change c ∈ yamlScalar value
    rw [hprint]
    exact List.mem_append_left _ hcutMem)

end Cut

end FailureResolver.MemoryFrontmatter
