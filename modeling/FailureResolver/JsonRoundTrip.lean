import FailureResolver.JsonText

/-!
The decoder reads back what the encoder writes. Strings are read item by item,
numbers through the decimal round trip, containers by recursion on the value;
the fuel of the decoder is bounded by the length of the text. The round trip
holds in every style that puts only blanks between the parts.
-/

namespace FailureResolver.JsonRoundTrip

open BinaryFloat DecimalText JsonValue JsonText PyText

section Strings

variable {lone : ℕ → Option Char}

theorem scanHex_control : ∀ n < 32, ∀ rest : List Char,
    scanHex ('0' :: '0' :: hexDigit (n / 16) :: hexDigit (n % 16) :: rest) = some (n, rest) := by
  intro n hn rest
  have hzero : hexValue '0' = some 0 := by decide
  simp only [scanHex, hzero, hexValue_hexDigit (n / 16) (by omega),
    hexValue_hexDigit (n % 16) (by omega)]
  simp only [Option.some.injEq, Prod.mk.injEq, and_true]
  omega

theorem scanUnicode_control {c : Char} (hc : c.toNat < 32) (rest : List Char) :
    scanUnicode lone ('0' :: '0' :: hexDigit (c.toNat / 16) :: hexDigit (c.toNat % 16) :: rest) =
      some (c, rest) := by
  unfold scanUnicode
  rw [scanHex_control c.toNat hc]
  simp only
  rw [if_neg (by omega), if_neg (by omega), Char.ofNat_toNat]

theorem scanStringItem_plain {c : Char} (hquote : c ≠ '"') (hslash : c ≠ '\\')
    (hcontrol : ¬ c.toNat < 32) (rest : List Char) :
    scanStringItem lone (c :: rest) = .char c rest := by
  unfold scanStringItem
  split
  · next heq => cases heq
  · next heq => exact absurd (List.cons.inj heq).1 hquote
  · next heq => exact absurd (List.cons.inj heq).1 hslash
  · next heq => exact absurd (List.cons.inj heq).1 hslash
  · next heq => exact absurd (List.cons.inj heq).1 hslash
  · next heq =>
    obtain ⟨rfl, rfl⟩ := List.cons.inj heq
    exact if_neg hcontrol

/-- One written character is one item. -/
theorem scanStringItem_escapeChar (c : Char) (rest : List Char) :
    scanStringItem lone (escapeChar c ++ rest) = .char c rest := by
  unfold escapeChar
  split_ifs with hquote hslash hline hreturn htab hfeed hback hcontrol
  · rw [hquote]
    rfl
  · rw [hslash]
    rfl
  · rw [hline]
    rfl
  · rw [hreturn]
    rfl
  · rw [htab]
    rfl
  · rw [← Char.ofNat_toNat c, hfeed]
    rfl
  · rw [← Char.ofNat_toNat c, hback]
    rfl
  · simp only [List.cons_append, List.nil_append, scanStringItem]
    rw [scanUnicode_control hcontrol]
  · exact scanStringItem_plain hquote hslash hcontrol rest

theorem escapeChar_ne_nil (c : Char) : escapeChar c ≠ [] := by
  unfold escapeChar
  split_ifs <;> simp

/-- The body of a written string is read back, with a step for each character
and one for the closing quote. -/
theorem scanString_body (body rest : List Char) {n : ℕ} (hn : body.length < n) :
    scanString lone n (body.flatMap escapeChar ++ '"' :: rest) = some (body, rest) := by
  induction body generalizing n with
  | nil =>
    obtain ⟨n, rfl⟩ := Nat.exists_eq_add_of_lt hn
    rfl
  | cons c body ih =>
    obtain ⟨n, rfl⟩ : ∃ m, n = m + 1 := ⟨n - 1, by omega⟩
    rw [List.flatMap_cons, List.append_assoc, scanString, scanStringItem_escapeChar]
    simp only [ih (by simpa using hn), Option.map_some]

theorem length_flatMap_escapeChar (body : List Char) :
    body.length ≤ (body.flatMap escapeChar).length := by
  induction body with
  | nil => simp
  | cons c body ih =>
    have hc : 0 < (escapeChar c).length := List.length_pos_iff.mpr (escapeChar_ne_nil c)
    simp only [List.flatMap_cons, List.length_append, List.length_cons]
    omega

/-- A written string behind its opening quote is read back. -/
theorem scanString_quote (s : String) (rest : List Char) {n : ℕ} (hn : (quote s).length ≤ n + 1) :
    scanString lone n (s.toList.flatMap escapeChar ++ '"' :: rest) = some (s.toList, rest) := by
  apply scanString_body
  have hlength := length_flatMap_escapeChar s.toList
  simp only [quote, List.length_cons, List.length_append] at hn
  omega

end Strings

section Scalars

variable {lone : ℕ → Option Char}

theorem scanScalar_number {c : Char} {text : List Char}
    (h : c.isDigit ∨ c = '-' ∧ ∃ d rest, text = d :: rest ∧ d.isDigit) :
    scanScalar (c :: text) = scanNumber (c :: text) := by
  have hletter : ∀ x : Char, ¬ x.isDigit → x ≠ '-' → c ≠ x := by
    rintro x hx hminus rfl
    rcases h with h | ⟨h, -⟩
    · exact hx h
    · exact hminus h
  unfold scanScalar
  split
  · next heq => exact absurd (List.cons.inj heq).1 (hletter _ (by decide) (by decide))
  · next heq => exact absurd (List.cons.inj heq).1 (hletter _ (by decide) (by decide))
  · next heq => exact absurd (List.cons.inj heq).1 (hletter _ (by decide) (by decide))
  · next heq => exact absurd (List.cons.inj heq).1 (hletter _ (by decide) (by decide))
  · next heq => exact absurd (List.cons.inj heq).1 (hletter _ (by decide) (by decide))
  · next heq =>
    obtain ⟨rfl, rfl⟩ := List.cons.inj heq
    rcases h with h | ⟨-, d, rest, hd, hdigit⟩
    · exact absurd h (by decide)
    · rw [(List.cons.inj hd).1.symm] at hdigit
      exact absurd hdigit (by decide)
  · rfl

/-- How the text of a well-formed literal starts. -/
theorem literal_head {l : Literal} (hl : l.WellFormed) (rest : List Char) :
    ∃ c text, l.text ++ rest = c :: text ∧
      (c.isDigit ∨ c = '-' ∧ ∃ d rest, text = d :: rest ∧ d.isDigit) := by
  obtain ⟨d, whole, hwhole⟩ := List.exists_cons_of_ne_nil hl.whole_ne_nil
  have hd : d.isDigit := hl.whole_digits d (by simp [hwhole])
  unfold Literal.text Literal.signText
  rw [hwhole]
  split
  · exact ⟨'-', _, rfl, .inr ⟨rfl, d, _, rfl, hd⟩⟩
  · exact ⟨d, _, rfl, .inl hd⟩

theorem scanNumber_intText {n : ℤ} {rest : List Char}
    (hn : (Nat.toDigits 10 n.natAbs).length ≤ maxStrDigits) (hrest : Stops rest) :
    scanNumber (intText n ++ rest) = some (.int n, rest) := by
  unfold scanNumber intText
  rw [scan_text (intLiteral_wellFormed n) hrest]
  have hlength : (intLiteral n).whole.length ≤ maxStrDigits := hn
  simp only [intLiteral_isInteger, if_true, hlength, intLiteral_intValue]

theorem scanNumber_floatText (x : Finite) {rest : List Char} (hrest : Stops rest) :
    scanNumber (floatText x ++ rest) = some (.float (.finite x), rest) := by
  unfold scanNumber floatText
  rw [scan_text (floatLiteral_wellFormed x) hrest]
  simp only [floatLiteral_not_integer, Bool.false_eq_true, if_false, floatLiteral_floatValue]

/-- A number is read by the scanner of numbers. -/
theorem parseValue_literal {l : Literal} (hl : l.WellFormed) (n : ℕ) (rest : List Char) :
    parseValue lone (n + 1) (l.text ++ rest) = scanNumber (l.text ++ rest) := by
  obtain ⟨c, text, heq, hhead⟩ := literal_head hl rest
  rw [heq, ← scanScalar_number hhead]
  have hbracket : ∀ x : Char, ¬ x.isDigit → x ≠ '-' → c ≠ x := by
    rintro x hx hminus rfl
    rcases hhead with h | ⟨h, -⟩
    · exact hx h
    · exact hminus h
  rw [parseValue.eq_def]
  simp only
  split
  · next heq => exact absurd (List.cons.inj heq).1 (hbracket _ (by decide) (by decide))
  · next heq => exact absurd (List.cons.inj heq).1 (hbracket _ (by decide) (by decide))
  · next heq => exact absurd (List.cons.inj heq).1 (hbracket _ (by decide) (by decide))
  · rfl

theorem parseValue_quote (s : String) (rest : List Char) {n : ℕ}
    (hn : (quote s).length ≤ n + 1) :
    parseValue lone (n + 1) (quote s ++ rest) = some (.str s, rest) := by
  have htext : quote s ++ rest = '"' :: (s.toList.flatMap escapeChar ++ '"' :: rest) := by
    simp [quote]
  rw [htext, parseValue.eq_def]
  simp only [scanString_quote s rest (Nat.le_succ_of_le hn), Option.map_some, String.ofList_toList]

end Scalars

section Containers

structure Blank (style : Style) : Prop where
  newline : ∀ level, ∀ c ∈ style.newline level, isJsonSpace c = true
  afterKey : ∀ c ∈ style.afterKey, isJsonSpace c = true

theorem compactStyle_blank : Blank compactStyle := ⟨by simp [compactStyle], by simp [compactStyle]⟩

theorem indentedStyle_blank : Blank indentedStyle where
  newline := by
    intro level c hc
    rcases List.mem_cons.mp hc with rfl | hc
    · rfl
    · rw [List.eq_of_mem_replicate hc]
      rfl
  afterKey := by
    intro c hc
    rw [List.mem_singleton.mp hc]
    rfl

theorem skipSpace_blank {blank text : List Char} (hblank : ∀ c ∈ blank, isJsonSpace c = true)
    (htext : ∀ c, text.head? = some c → isJsonSpace c = false) :
    skipSpace (blank ++ text) = text := by
  unfold skipSpace
  induction blank with
  | nil =>
    cases text with
    | nil => rfl
    | cons c rest => simp [htext c rfl]
  | cons c blank ih =>
    obtain ⟨hc, hrest⟩ := List.forall_mem_cons.mp hblank
    simp [hc, ih hrest]

theorem skipSpace_cons {c : Char} (hc : isJsonSpace c = false) (rest : List Char) :
    skipSpace (c :: rest) = c :: rest := by
  simp [skipSpace, hc]

/-- Punctuation and blanks do not extend a number. -/
theorem stops_cons {c : Char} (hc : c ∈ [',', ']', '}', ' ', '\t', '\n', '\r'])
    (rest : List Char) : Stops (c :: rest) := by
  intro d hd
  cases hd
  revert c
  decide

theorem stops_blank {blank rest : List Char} (hblank : ∀ c ∈ blank, isJsonSpace c = true)
    (hrest : Stops rest) : Stops (blank ++ rest) := by
  cases blank with
  | nil => exact hrest
  | cons c blank =>
    have hc := hblank c (List.mem_cons_self ..)
    simp only [isJsonSpace, Bool.or_eq_true, decide_eq_true_eq] at hc
    rcases hc with ((rfl | rfl) | rfl) | rfl <;> exact stops_cons (by decide) _

variable {lone : ℕ → Option Char} {style : Style} {close : List Char}

/-- How the text of a printable value starts. -/
theorem print_head (style : Style) (level : ℕ) {value : Json} (h : printable value = true) :
    ∃ c text, print style level value = c :: text ∧ isJsonSpace c = false ∧ c ≠ ']' := by
  have hnumber : ∀ {l : Literal}, l.WellFormed →
      ∃ c text, l.text = c :: text ∧ isJsonSpace c = false ∧ c ≠ ']' := by
    intro l hl
    obtain ⟨c, text, heq, hhead⟩ := literal_head hl []
    rw [List.append_nil] at heq
    refine ⟨c, text, heq, ?_, ?_⟩
    · rcases hhead with hdigit | ⟨rfl, -⟩
      · by_contra hspace
        simp only [isJsonSpace, Bool.or_eq_true, decide_eq_true_eq, Bool.not_eq_false] at hspace
        rcases hspace with ((rfl | rfl) | rfl) | rfl <;> exact absurd hdigit (by decide)
      · rfl
    · rintro rfl
      rcases hhead with hdigit | ⟨h, -⟩
      · exact absurd hdigit (by decide)
      · cases h
  cases value with
  | null => exact ⟨_, _, rfl, rfl, by decide⟩
  | bool b => cases b <;> exact ⟨_, _, rfl, rfl, by decide⟩
  | int n => exact hnumber (intLiteral_wellFormed n)
  | float x =>
    cases x with
    | finite x => exact hnumber (floatLiteral_wellFormed x)
    | nan => cases h
    | infinity negative => cases h
  | str s => exact ⟨_, _, rfl, rfl, by decide⟩
  | arr items => cases items <;> exact ⟨_, _, rfl, rfl, by decide⟩
  | obj members =>
    cases members with
    | nil => exact ⟨_, _, rfl, rfl, by decide⟩
    | cons member rest => exact ⟨_, _, rfl, rfl, by decide⟩

theorem set_fresh {members : Fields} {key : String} (h : key ∉ members.map Prod.fst)
    (value : Json) : Fields.set members key value = members ++ [(key, value)] := by
  unfold Fields.set
  rw [if_neg]
  rwa [has_eq_true_iff]

/-- A value that is not a container with items. -/
theorem parseValue_scalar {value : Json} {level : ℕ}
    (harr : ∀ x xs, value ≠ .arr (x :: xs)) (hobj : ∀ member rest, value ≠ .obj (member :: rest))
    (h : printable value = true)
    {rest : List Char} (hrest : Stops rest) {n : ℕ} (hn : (print style level value).length < n + 1) :
    parseValue lone (n + 1) (print style level value ++ rest) = some (value, rest) := by
  cases value with
  | null => rfl
  | bool b => cases b <;> rfl
  | int m =>
    have hlength : (Nat.toDigits 10 m.natAbs).length ≤ maxStrDigits := by
      simpa [printable, scalarPrintable] using h
    exact (parseValue_literal (intLiteral_wellFormed m) n rest).trans
      (scanNumber_intText hlength hrest)
  | float x =>
    cases x with
    | finite x =>
      exact (parseValue_literal (floatLiteral_wellFormed x) n rest).trans
        (scanNumber_floatText x hrest)
    | nan => cases h
    | infinity negative => cases h
  | str s => exact parseValue_quote s rest hn.le
  | arr items =>
    cases items with
    | nil => rfl
    | cons x xs => exact absurd rfl (harr x xs)
  | obj members =>
    cases members with
    | nil => rfl
    | cons member members => exact absurd rfl (hobj member members)

theorem head_print_append (style : Style) (level : ℕ) {value : Json}
    (h : printable value = true) (rest : List Char) :
    ∀ c, (print style level value ++ rest).head? = some c → isJsonSpace c = false := by
  obtain ⟨c, text, heq, hc, -⟩ := print_head style level h
  rw [heq]
  rintro d ⟨⟩
  exact hc

theorem head_quote (key : String) (rest : List Char) :
    ∀ c, (quote key ++ rest).head? = some c → isJsonSpace c = false := by
  rintro c ⟨⟩
  rfl

/-- What stands behind an item that is not the last one. -/
theorem stops_printItems (style : Style) (hclose : ∀ c ∈ close, isJsonSpace c = true) (level : ℕ)
    (items : List Json) (rest : List Char) :
    Stops (printItems style level items ++ (close ++ ']' :: rest)) := by
  cases items with
  | nil => exact (stops_blank hclose (stops_cons (by decide) rest) : Stops (close ++ ']' :: rest))
  | cons x xs => exact stops_cons (c := ',') (by decide) _

theorem stops_printMembers (style : Style) (hclose : ∀ c ∈ close, isJsonSpace c = true) (level : ℕ)
    (members : Fields) (rest : List Char) :
    Stops (printMembers style level members ++ (close ++ '}' :: rest)) := by
  cases members with
  | nil => exact (stops_blank hclose (stops_cons (by decide) rest) : Stops (close ++ '}' :: rest))
  | cons member members => exact stops_cons (c := ',') (by decide) _

mutual

/-- A printed value is read back, whatever follows that does not extend it. -/
theorem parseValue_print (hstyle : Blank style) (value : Json) (level n : ℕ) (rest : List Char)
    (hdistinct : value.Distinct) (hprintable : printable value = true) (hrest : Stops rest)
    (hn : (print style level value).length < n) :
    parseValue lone n (print style level value ++ rest) = some (value, rest) := by
  obtain ⟨n, rfl⟩ : ∃ m, n = m + 1 := ⟨n - 1, by omega⟩
  match hvalue : value with
  | .null => exact parseValue_scalar (by simp) (by simp) hprintable hrest hn
  | .bool b => exact parseValue_scalar (by simp) (by simp) hprintable hrest hn
  | .int m => exact parseValue_scalar (by simp) (by simp) hprintable hrest hn
  | .float x => exact parseValue_scalar (by simp) (by simp) hprintable hrest hn
  | .str s => exact parseValue_scalar (by simp) (by simp) hprintable hrest hn
  | .arr [] => exact parseValue_scalar (by simp) (by simp) hprintable hrest hn
  | .obj [] => exact parseValue_scalar (by simp) (by simp) hprintable hrest hn
  | .arr (x :: xs) =>
    obtain ⟨hx, hxs⟩ := hdistinct
    obtain ⟨hpx, hpxs⟩ := Bool.and_eq_true_iff.mp hprintable
    have hitems := parseItems_print hstyle x xs (level + 1) n (style.newline level) rest
      (hstyle.newline level) hx hxs hpx hpxs (by
        simp only [print, List.length_cons, List.length_append, List.length_nil] at hn
        omega)
    have hskip := skipSpace_blank (hstyle.newline (level + 1)) (head_print_append style (level + 1)
      hpx (printItems style (level + 1) xs ++ (style.newline level ++ ']' :: rest)))
    simp only [print, List.cons_append, List.append_assoc, List.nil_append]
    rw [parseValue.eq_def]
    simp only
    rw [hskip]
    obtain ⟨c, text, hhead, -, hbracket⟩ := print_head style (level + 1) hpx
    split
    · next heq =>
      rw [hhead] at heq
      exact absurd (List.cons.inj heq).1 hbracket
    · rw [hitems]
      rfl
  | .obj ((key, x) :: members) =>
    obtain ⟨hkeys, hx, hmembers⟩ := hdistinct
    obtain ⟨hpx, hpmembers⟩ := Bool.and_eq_true_iff.mp hprintable
    have hparsed := parseMembers_print hstyle key x members [] (level + 1) n (style.newline level)
      rest (hstyle.newline level) hkeys hx hmembers hpx hpmembers (by
        simp only [print, List.length_cons, List.length_append, List.length_nil] at hn
        omega)
    have hskip := skipSpace_blank (hstyle.newline (level + 1)) (head_quote key (':' ::
      (style.afterKey ++ (print style (level + 1) x ++ (printMembers style (level + 1) members ++
        (style.newline level ++ '}' :: rest))))))
    simp only [print, List.cons_append, List.append_assoc, List.nil_append]
    rw [parseValue.eq_def]
    simp only
    rw [hskip]
    split
    · next heq => exact absurd (List.cons.inj heq).1 (by decide)
    · rw [hparsed]
      rfl
  termination_by sizeOf value
  decreasing_by
    · rw [hvalue]
      simp
      omega
    · rw [hvalue]
      simp
      omega

theorem parseItems_print (hstyle : Blank style) (x : Json) (xs : List Json) (level n : ℕ)
    (close rest : List Char) (hclose : ∀ c ∈ close, isJsonSpace c = true)
    (hx : x.Distinct) (hxs : Json.DistinctItems xs) (hpx : printable x = true)
    (hpxs : printableItems xs = true)
    (hn : (print style level x).length + (printItems style level xs).length + 1 < n) :
    parseItems lone n (print style level x ++ (printItems style level xs ++ (close ++ ']' :: rest))) =
      some (x :: xs, rest) := by
  obtain ⟨n, rfl⟩ : ∃ m, n = m + 1 := ⟨n - 1, by omega⟩
  have hvalue := parseValue_print hstyle x level n _ hx hpx
    (stops_printItems style hclose level xs rest) (by omega)
  rw [parseItems, hvalue]
  match hitems : xs with
  | [] =>
    have hskip : skipSpace (close ++ ']' :: rest) = ']' :: rest :=
      skipSpace_blank hclose (by simp [isJsonSpace])
    simp only [printItems, List.nil_append, hskip]
  | y :: ys =>
    obtain ⟨hy, hys⟩ := hxs
    obtain ⟨hpy, hpys⟩ := Bool.and_eq_true_iff.mp hpxs
    have hrest := parseItems_print hstyle y ys level n close rest hclose hy hys hpy hpys (by
      simp only [printItems, List.length_cons, List.length_append] at hn
      omega)
    have hskip := skipSpace_blank (hstyle.newline level) (head_print_append style level hpy
      (printItems style level ys ++ (close ++ ']' :: rest)))
    simp only [printItems, List.cons_append, List.append_assoc]
    rw [skipSpace_cons (by decide)]
    simp only
    rw [hskip, hrest]
    rfl
  termination_by sizeOf x + sizeOf xs
  decreasing_by
    · cases xs <;> simp
    · rw [hitems]
      simp
      omega

theorem parseMembers_print (hstyle : Blank style) (key : String) (x : Json)
    (members before : Fields) (level n : ℕ) (close rest : List Char)
    (hclose : ∀ c ∈ close, isJsonSpace c = true)
    (hkeys : ((before ++ (key, x) :: members).map Prod.fst).Nodup)
    (hx : x.Distinct) (hmembers : Json.DistinctMembers members) (hpx : printable x = true)
    (hpmembers : printableMembers members = true)
    (hn : (quote key).length + (print style level x).length +
      (printMembers style level members).length + 1 < n) :
    parseMembers lone n before (quote key ++ ':' :: (style.afterKey ++ (print style level x ++
        (printMembers style level members ++ (close ++ '}' :: rest))))) =
      some (before ++ (key, x) :: members, rest) := by
  obtain ⟨n, rfl⟩ : ∃ m, n = m + 1 := ⟨n - 1, by omega⟩
  have hvalue := parseValue_print hstyle x level n _ hx hpx
    (stops_printMembers style hclose level members rest) (by omega)
  have hfresh : key ∉ before.map Prod.fst := by
    rw [List.map_append, List.map_cons, List.nodup_append] at hkeys
    exact fun hkey => hkeys.2.2 key hkey key (List.mem_cons_self ..) rfl
  have hskipKey := skipSpace_blank hstyle.afterKey (head_print_append style level hpx
    (printMembers style level members ++ (close ++ '}' :: rest)))
  simp only [quote, List.cons_append, List.append_assoc, List.nil_append]
  rw [parseMembers, scanString_quote key _ (by omega)]
  simp only
  rw [skipSpace_cons (by decide)]
  simp only
  rw [hskipKey, hvalue]
  simp only [String.ofList_toList, set_fresh hfresh]
  match hmember : members with
  | [] =>
    have hskip : skipSpace (close ++ '}' :: rest) = '}' :: rest :=
      skipSpace_blank hclose (by simp [isJsonSpace])
    simp only [printMembers, List.nil_append, hskip]
  | (key', y) :: members' =>
    obtain ⟨hy, hmembers'⟩ := hmembers
    obtain ⟨hpy, hpmembers'⟩ := Bool.and_eq_true_iff.mp hpmembers
    have hrest := parseMembers_print hstyle key' y members' (before ++ [(key, x)]) level n close
      rest hclose (by simpa using hkeys) hy hmembers' hpy hpmembers' (by
        simp only [printMembers, List.length_cons, List.length_append] at hn
        omega)
    have hskip := skipSpace_blank (hstyle.newline level) (head_quote key' (':' ::
      (style.afterKey ++ (print style level y ++ (printMembers style level members' ++
        (close ++ '}' :: rest))))))
    simp only [printMembers, List.cons_append, List.append_assoc]
    rw [skipSpace_cons (by decide)]
    simp only
    rw [hskip, hrest]
    simp
  termination_by sizeOf x + sizeOf members
  decreasing_by
    · cases members <;> simp
    · rw [hmember]
      simp
      omega

end

/-- `json.loads` inverts `json.dumps` in a style of blanks. -/
theorem loads_print (hstyle : Blank style) {value : Json} (hdistinct : value.Distinct)
    (hprintable : printable value = true) : loads (print style 0 value) = some value := by
  have hskip : skipSpace ([] ++ (print style 0 value ++ [])) = print style 0 value ++ [] :=
    skipSpace_blank (by simp) (head_print_append style 0 hprintable [])
  have hparse : parseValue noLone ((print style 0 value).length + 1)
      (print style 0 value ++ []) = some (value, []) :=
    parseValue_print hstyle value 0 _ [] hdistinct hprintable (by simp [Stops]) (by omega)
  rw [List.append_nil] at hskip hparse
  unfold loads loadsWith
  rw [List.nil_append] at hskip
  rw [hskip, hparse]
  rfl

theorem loads_dumps (hstyle : Blank style) {value : Json} {text : List Char}
    (hdistinct : value.Distinct) (h : dumps style value = some text) :
    loads text = some value := by
  unfold dumps at h
  split at h
  · next hprintable =>
    cases h
    exact loads_print hstyle hdistinct hprintable
  · cases h

end Containers

section Sorted

variable {style : Style} {value : Json}

theorem printableItems_iff {items : List Json} :
    printableItems items = true ↔ ∀ x ∈ items, printable x = true := by
  induction items with
  | nil => simp [printableItems]
  | cons x xs ih => simp [printableItems, ih]

theorem printableMembers_iff {members : Fields} :
    printableMembers members = true ↔ ∀ m ∈ members, printable m.2 = true := by
  induction members with
  | nil => simp [printableMembers]
  | cons m rest ih =>
    obtain ⟨key, x⟩ := m
    simp [printableMembers, ih]

theorem hereditary_printable : Hereditary (printable · = true) where
  null := rfl
  arr := fun _ hitems => printableItems_iff.mpr hitems
  item := fun _ h => printableItems_iff.mp h
  obj := fun _ _ hmembers => printableMembers_iff.mpr hmembers
  member := fun _ h => printableMembers_iff.mp h
  set := by
    intro members key value h hvalue
    refine printableMembers_iff.mpr fun m hm => ?_
    rcases mem_set hm with hm | rfl
    · exact printableMembers_iff.mp h m hm
    · exact hvalue

/-- A value as a decoder hands it out: no key twice, and a text for every number. -/
structure Decoded (value : Json) : Prop where
  distinct : value.Distinct
  printable : printable value = true

theorem hereditary_decoded : Hereditary Decoded where
  null := ⟨trivial, rfl⟩
  arr := fun _ h => ⟨hereditary_distinct.arr _ fun x hx => (h x hx).distinct,
    hereditary_printable.arr _ fun x hx => (h x hx).printable⟩
  item := fun _ h x hx => ⟨hereditary_distinct.item _ h.distinct x hx,
    hereditary_printable.item _ h.printable x hx⟩
  obj := fun _ hkeys h => ⟨hereditary_distinct.obj _ hkeys fun m hm => (h m hm).distinct,
    hereditary_printable.obj _ hkeys fun m hm => (h m hm).printable⟩
  member := fun _ h m hm => ⟨hereditary_distinct.member _ h.distinct m hm,
    hereditary_printable.member _ h.printable m hm⟩
  set := fun _ key _ h hvalue => ⟨hereditary_distinct.set _ key _ h.distinct hvalue.distinct,
    hereditary_printable.set _ key _ h.printable hvalue.printable⟩

structure JsonRow where
  fields : Fields
  decoded : Decoded (.obj fields)

/-- Sorting changes no number. -/
theorem printable_sortKeys_iff : printable value.sortKeys = true ↔ printable value = true := by
  induction value using Json.inductionOn with
  | null => exact Iff.rfl
  | bool b => exact Iff.rfl
  | int n => exact Iff.rfl
  | float x => exact Iff.rfl
  | str s => exact Iff.rfl
  | arr items ih =>
    rw [sortKeys_arr, printable, printable, printableItems_iff, printableItems_iff]
    rw [List.forall_mem_map]
    exact forall₂_congr ih
  | obj members ih =>
    rw [sortKeys_obj, printable, printable, printableMembers_iff, printableMembers_iff]
    constructor
    · intro h m hm
      exact (ih m hm).mp (h _ (mem_sortedMembers.mpr ⟨m, hm, rfl⟩))
    · intro h m hm
      obtain ⟨m', hm', rfl⟩ := mem_sortedMembers.mp hm
      exact (ih m' hm').mpr (h m' hm')

theorem printable_sortKeys (h : printable value = true) : printable value.sortKeys = true :=
  printable_sortKeys_iff.mpr h

theorem pyEqItems_map {items : List Json} {f : Json → Json}
    (h : ∀ x ∈ items, Json.pyEq (f x) x = true) : Json.pyEqItems (items.map f) items = true := by
  induction items with
  | nil => rfl
  | cons x xs ih =>
    obtain ⟨hx, hxs⟩ := List.forall_mem_cons.mp h
    rw [List.map_cons, Json.pyEqItems, hx, ih hxs]
    rfl

theorem pyEqMembers_of_forall {xs ys : Fields}
    (h : ∀ m ∈ xs, ∃ y, ys.lookup m.1 = some y ∧ Json.pyEq m.2 y = true) :
    Json.pyEqMembers xs ys = true := by
  induction xs with
  | nil => rfl
  | cons m rest ih =>
    obtain ⟨key, x⟩ := m
    obtain ⟨⟨y, hlookup, heq⟩, hrest⟩ := List.forall_mem_cons.mp h
    simp only at hlookup heq
    rw [Json.pyEqMembers, hlookup, ih hrest]
    simpa using heq

/-- Sorting the members does not change what the value equals. -/
theorem pyEq_sortKeys (hdistinct : value.Distinct) (h : printable value = true) :
    Json.pyEq value.sortKeys value = true := by
  induction value using Json.inductionOn with
  | null => rfl
  | bool b => simp [Json.sortKeys, Json.pyEq, Json.numberEq, Json.number, Number.eq]
  | int n => simp [Json.sortKeys, Json.pyEq, Json.numberEq, Json.number, Number.eq]
  | float x =>
    cases x with
    | finite x =>
      simp [Json.sortKeys, Json.pyEq, Json.numberEq, Json.number, Number.eq, Number.ofFloat]
    | nan => cases h
    | infinity negative => cases h
  | str s => simp [Json.sortKeys, Json.pyEq]
  | arr items ih =>
    have hitems := printableItems_iff.mp h
    rw [Json.Distinct, distinctItems_iff] at hdistinct
    rw [sortKeys_arr, Json.pyEq]
    exact pyEqItems_map fun x hx => ih x hx (hdistinct x hx) (hitems x hx)
  | obj members ih =>
    have hmembers := printableMembers_iff.mp h
    obtain ⟨hkeys, hvalues⟩ := distinct_obj.mp hdistinct
    rw [sortKeys_obj, Json.pyEq, Bool.and_eq_true]
    refine ⟨by simp, pyEqMembers_of_forall fun m hm => ?_⟩
    obtain ⟨m', hm', rfl⟩ := mem_sortedMembers.mp hm
    exact ⟨m'.2, lookup_eq_some_of_mem hkeys hm', ih m' hm' (hvalues m' hm') (hmembers m' hm')⟩

end Sorted

section Decoded

variable {lone : ℕ → Option Char}

structure DistinctUpTo (lone : ℕ → Option Char) (n : ℕ) : Prop where
  value : ∀ {text rest : List Char} {v : Json}, parseValue lone n text = some (v, rest) → v.Distinct
  items : ∀ {text rest : List Char} {vs : List Json},
    parseItems lone n text = some (vs, rest) → ∀ v ∈ vs, v.Distinct
  members : ∀ {text rest : List Char} {read fields : Fields}, Json.Distinct (.obj read) →
    parseMembers lone n read text = some (fields, rest) → Json.Distinct (.obj fields)

theorem distinct_scanScalar {text rest : List Char} {v : Json}
    (h : scanScalar text = some (v, rest)) : v.Distinct := by
  unfold scanScalar at h
  split at h
  case h_7 =>
    unfold scanNumber at h
    split at h
    · cases h
    · split at h
      · split at h
        · cases h
          trivial
        · cases h
      · cases h
        trivial
  all_goals
    cases h
    trivial

theorem DistinctUpTo.parseValue {n : ℕ} (h : DistinctUpTo lone n) {text rest : List Char} {v : Json}
    (hparse : parseValue lone (n + 1) text = some (v, rest)) : v.Distinct := by
  unfold JsonText.parseValue at hparse
  split at hparse
  · obtain ⟨p, -, hp⟩ := Option.map_eq_some_iff.mp hparse
    cases hp
    trivial
  · split at hparse
    · cases hparse
      trivial
    · obtain ⟨p, hitems, hp⟩ := Option.map_eq_some_iff.mp hparse
      cases hp
      rw [Json.Distinct, distinctItems_iff]
      exact h.items hitems
  · split at hparse
    · cases hparse
      exact distinct_obj.mpr (by simp)
    · obtain ⟨p, hmembers, hp⟩ := Option.map_eq_some_iff.mp hparse
      cases hp
      exact h.members (distinct_obj.mpr (by simp)) hmembers
  · exact distinct_scanScalar hparse

theorem DistinctUpTo.parseItems {n : ℕ} (h : DistinctUpTo lone n) {text rest : List Char}
    {vs : List Json} (hparse : parseItems lone (n + 1) text = some (vs, rest)) :
    ∀ v ∈ vs, v.Distinct := by
  unfold JsonText.parseItems at hparse
  split at hparse
  · cases hparse
  · next x after hvalue =>
    have hx := h.value hvalue
    split at hparse
    · cases hparse
      simpa using hx
    · obtain ⟨p, hitems, hp⟩ := Option.map_eq_some_iff.mp hparse
      cases hp
      exact List.forall_mem_cons.mpr ⟨hx, h.items hitems⟩
    · cases hparse

theorem DistinctUpTo.parseMembers {n : ℕ} (h : DistinctUpTo lone n) {text rest : List Char}
    {read fields : Fields} (hread : Json.Distinct (.obj read))
    (hparse : parseMembers lone (n + 1) read text = some (fields, rest)) :
    Json.Distinct (.obj fields) := by
  cases text with
  | nil => simp [JsonText.parseMembers] at hparse
  | cons c text =>
    by_cases hquote : c = '"'
    · subst hquote
      rw [JsonText.parseMembers] at hparse
      split at hparse
      · cases hparse
      · next key _ _ =>
        split at hparse
        · split at hparse
          · cases hparse
          · next hvalue =>
            have hset := distinct_set hread (String.ofList key) (h.value hvalue)
            dsimp only at hparse
            split at hparse
            · cases hparse
              exact hset
            · exact h.members hset hparse
            · cases hparse
        · cases hparse
    · rw [JsonText.parseMembers] at hparse
      · cases hparse
      · intro text' htext
        cases htext
        exact hquote rfl

theorem distinctUpTo (lone : ℕ → Option Char) (n : ℕ) : DistinctUpTo lone n := by
  induction n with
  | zero =>
    constructor
    · intro text rest v h
      simp [JsonText.parseValue] at h
    · intro text rest vs h
      simp [JsonText.parseItems] at h
    · intro text rest read fields _ h
      simp [JsonText.parseMembers] at h
  | succ n ih => exact ⟨ih.parseValue, ih.parseItems, ih.parseMembers⟩

/-- No decoded value repeats a key. -/
theorem distinct_loadsWith {text : List Char} {value : Json}
    (h : loadsWith lone text = some value) : value.Distinct := by
  unfold loadsWith at h
  split at h
  · next hparse =>
    split at h
    · cases h
      exact (distinctUpTo lone _).value hparse
    · cases h
  · cases h

theorem distinct_loads {text : List Char} {value : Json} (h : loads text = some value) :
    value.Distinct := distinct_loadsWith h

end Decoded

end FailureResolver.JsonRoundTrip
