import FailureResolver.JsonRoundTrip

/-!
What the decoder reads from a text it also reads from every longer text, as long
as the continuation does not extend a number. Hence a proper prefix of a printed
value is no JSON text when the printed value goes on with a blank character: a
value cut inside one of its strings is not decoded.
-/

namespace FailureResolver.JsonPrefix

open DecimalText JsonRoundTrip JsonText JsonValue PyText

def Detached (rest : List Char) : Prop :=
  ∀ c, rest.head? = some c → ¬ c.isDigit ∧ c ∉ ['.', 'e', 'E', '+', '-']

section Numbers

variable {text rest tail : List Char}

theorem Detached.stops (h : Detached rest) : Stops rest := by
  intro c hc
  obtain ⟨hdigit, hother⟩ := h c hc
  simp only [List.mem_cons, List.not_mem_nil, or_false, not_or] at hother
  exact ⟨hdigit, hother.1, hother.2.1, hother.2.2.1⟩

theorem takeWhile_extend (hrest : Detached rest) (text : List Char) :
    (text ++ rest).takeWhile Char.isDigit = text.takeWhile Char.isDigit ∧
      (text ++ rest).dropWhile Char.isDigit = text.dropWhile Char.isDigit ++ rest := by
  induction text with
  | nil =>
    cases rest with
    | nil => exact ⟨rfl, rfl⟩
    | cons c tail => simp [(hrest c rfl).1]
  | cons c text ih =>
    by_cases hc : c.isDigit = true
    · simp [hc, ih]
    · simp [hc]

theorem scanWhole_extend {whole : List Char} (hrest : Detached rest)
    (h : scanWhole text = some (whole, tail)) :
    scanWhole (text ++ rest) = some (whole, tail ++ rest) := by
  cases text with
  | nil => cases h
  | cons c text =>
    have hdigits := takeWhile_extend hrest (c :: text)
    rw [List.cons_append] at hdigits ⊢
    unfold scanWhole at h ⊢
    dsimp only at h ⊢
    rw [hdigits.1, hdigits.2]
    split at h
    · next hzero =>
      rw [if_pos hzero]
      cases h
      rfl
    · next hzero =>
      rw [if_neg hzero]
      split at h
      · next hdigit =>
        rw [if_pos hdigit]
        cases h
        rfl
      · cases h

theorem scanFraction_extend (hrest : Detached rest) (text : List Char) :
    scanFraction (text ++ rest) = ((scanFraction text).1, (scanFraction text).2 ++ rest) := by
  have hplain : ∀ whole : List Char, (∀ tail, whole ≠ '.' :: tail) →
      scanFraction whole = ([], whole) := by
    intro whole hwhole
    unfold scanFraction
    split
    · exact absurd rfl (hwhole _)
    · rfl
  cases text with
  | nil =>
    rw [List.nil_append, hplain rest, hplain [] (by simp)]
    · rfl
    · rintro tail rfl
      simpa using (hrest '.' rfl).2
  | cons c text =>
    by_cases hc : c = '.'
    · subst hc
      obtain ⟨htake, hdrop⟩ := takeWhile_extend hrest text
      rw [List.cons_append]
      simp only [scanFraction, htake, hdrop]
      split <;> rfl
    · rw [List.cons_append, hplain (c :: (text ++ rest)), hplain (c :: text)]
      · rfl
      · rintro tail ⟨⟩
        exact hc rfl
      · rintro tail ⟨⟩
        exact hc rfl

theorem scanExponentDigits_extend (hrest : Detached rest) (negative : Bool)
    (digits whole : List Char) :
    scanExponentDigits negative (digits ++ rest) (whole ++ rest) =
      ((scanExponentDigits negative digits whole).1,
        (scanExponentDigits negative digits whole).2 ++ rest) := by
  obtain ⟨htake, hdrop⟩ := takeWhile_extend hrest digits
  simp only [scanExponentDigits, htake, hdrop]
  split <;> rfl

theorem scanExponent_extend (hrest : Detached rest) (text : List Char) :
    scanExponent (text ++ rest) = ((scanExponent text).1, (scanExponent text).2 ++ rest) := by
  cases text with
  | nil =>
    cases rest with
    | nil => rfl
    | cons c tail =>
      have hc := (hrest c rfl).2
      simp only [List.mem_cons, List.not_mem_nil, or_false, not_or] at hc
      simp [scanExponent, hc]
  | cons c text =>
    by_cases hc : c = 'e' ∨ c = 'E'
    · have hmark : ∀ negative sign digits, sign = (if negative then '-' else '+') →
          scanExponent (c :: sign :: digits) =
            scanExponentDigits negative digits (c :: sign :: digits) := by
        intro negative sign digits hsign
        subst hsign
        unfold scanExponent
        refine (if_pos hc).trans ?_
        cases negative <;> rfl
      have hdigits : ∀ whole, (∀ d ∈ whole.head?, d ≠ '-' ∧ d ≠ '+') →
          scanExponent (c :: whole) = scanExponentDigits false whole (c :: whole) := by
        intro whole hhead
        unfold scanExponent
        refine (if_pos hc).trans ?_
        split
        · exact absurd rfl (hhead _ rfl).1
        · exact absurd rfl (hhead _ rfl).2
        · rfl
      rw [List.cons_append]
      cases text with
      | nil =>
        have hhead : ∀ d ∈ rest.head?, d ≠ '-' ∧ d ≠ '+' := by
          intro d hd
          have hfree := (hrest d hd).2
          simp only [List.mem_cons, List.not_mem_nil, or_false, not_or] at hfree
          exact ⟨hfree.2.2.2.2, hfree.2.2.2.1⟩
        rw [List.nil_append, hdigits rest hhead, hdigits [] (by simp)]
        exact scanExponentDigits_extend hrest false [] [c]
      | cons d text =>
        by_cases hminus : d = '-'
        · rw [List.cons_append, hmark true d _ hminus, hmark true d _ hminus]
          exact scanExponentDigits_extend hrest true text (c :: d :: text)
        · by_cases hplus : d = '+'
          · rw [List.cons_append, hmark false d _ hplus, hmark false d _ hplus]
            exact scanExponentDigits_extend hrest false text (c :: d :: text)
          · have hhead : ∀ e ∈ (d :: text).head?, e ≠ '-' ∧ e ≠ '+' := by
              intro e he
              cases he
              exact ⟨hminus, hplus⟩
            rw [hdigits (d :: text) hhead, hdigits (d :: text ++ rest) hhead]
            exact scanExponentDigits_extend hrest false (d :: text) (c :: d :: text)
    · have hplain : ∀ whole, scanExponent (c :: whole) = (none, c :: whole) := by
        intro whole
        unfold scanExponent
        dsimp only
        rw [if_neg hc]
      rw [List.cons_append, hplain, hplain]
      rfl

theorem scanSign_extend (htext : text ≠ []) (rest : List Char) :
    scanSign (text ++ rest) = ((scanSign text).1, (scanSign text).2 ++ rest) := by
  cases text with
  | nil => exact absurd rfl htext
  | cons c text =>
    by_cases hc : c = '-'
    · subst hc
      rfl
    · have hplain : ∀ whole, scanSign (c :: whole) = (false, c :: whole) := by
        intro whole
        unfold scanSign
        split
        · next heq => exact absurd (List.cons.inj heq).1 hc
        · rfl
      rw [List.cons_append, hplain, hplain]
      rfl

theorem scan_extend {l : Literal} (hrest : Detached rest) (h : scan text = some (l, tail)) :
    scan (text ++ rest) = some (l, tail ++ rest) := by
  have htext : text ≠ [] := by
    rintro rfl
    cases h
  unfold scan at h ⊢
  dsimp only at h ⊢
  rw [scanSign_extend htext]
  split at h
  · cases h
  · next whole afterWhole hwhole =>
    rw [scanWhole_extend hrest hwhole]
    dsimp only
    rw [scanFraction_extend hrest, scanExponent_extend hrest]
    cases h
    rfl

theorem scanNumber_extend {value : Json} (hrest : Detached rest)
    (h : scanNumber text = some (value, tail)) :
    scanNumber (text ++ rest) = some (value, tail ++ rest) := by
  unfold scanNumber at h ⊢
  split at h
  · cases h
  · next l after hscan =>
    rw [scan_extend hrest hscan]
    dsimp only
    split at h
    · next hinteger =>
      rw [if_pos hinteger]
      split at h
      · next hlength =>
        rw [if_pos hlength]
        cases h
        rfl
      · cases h
    · next hfloat =>
      rw [if_neg hfloat]
      cases h
      rfl

end Numbers

section Strings

variable {text tail : List Char} (rest : List Char)

theorem scanHex_extend {n : ℕ} (h : scanHex text = some (n, tail)) :
    scanHex (text ++ rest) = some (n, tail ++ rest) := by
  rcases text with _ | ⟨a, _ | ⟨b, _ | ⟨c, _ | ⟨d, text⟩⟩⟩⟩
  · cases h
  · cases h
  · cases h
  · cases h
  · simp only [scanHex, List.cons_append] at h ⊢
    split at h
    · cases h
      rfl
    · cases h

theorem scanUnicode_extend {c : Char} (h : scanUnicode noLone text = some (c, tail)) :
    scanUnicode noLone (text ++ rest) = some (c, tail ++ rest) := by
  unfold scanUnicode at h ⊢
  split at h
  · cases h
  · next n after hhex =>
    rw [scanHex_extend rest hhex]
    dsimp only
    split at h
    · next hhigh =>
      rw [if_pos hhigh]
      split at h
      · next low =>
        rw [List.cons_append, List.cons_append]
        split at h
        · next m after hlow =>
          simp only [scanHex_extend rest hlow]
          split at h
          · next hpair =>
            rw [if_pos hpair]
            rw [Option.some.injEq, Prod.mk.injEq] at h
            rw [h.1, h.2]
          · cases h
        · cases h
      · cases h
    · next hhigh =>
      rw [if_neg hhigh]
      split at h
      · cases h
      · next hlone =>
        rw [if_neg hlone]
        cases h
        rfl

/-- One item of a string body goes on reading the same. -/
theorem scanStringItem_extend : (∀ c, scanStringItem noLone text = .char c tail →
      scanStringItem noLone (text ++ rest) = .char c (tail ++ rest)) ∧
    (scanStringItem noLone text = .close tail →
      scanStringItem noLone (text ++ rest) = .close (tail ++ rest)) := by
  rcases text with _ | ⟨c, text⟩
  · exact ⟨fun _ h => (by cases h), fun h => by cases h⟩
  by_cases hquote : c = '"'
  · subst hquote
    refine ⟨fun _ h => (by cases h), fun h => ?_⟩
    cases h
    rfl
  by_cases hslash : c = '\\'
  · subst hslash
    rcases text with _ | ⟨e, text⟩
    · exact ⟨fun _ h => (by cases h), fun h => by cases h⟩
    by_cases hu : e = 'u'
    · subst hu
      simp only [scanStringItem, List.cons_append]
      cases hscan : scanUnicode noLone text with
      | none => exact ⟨fun _ h => (by cases h), fun h => by cases h⟩
      | some p =>
        obtain ⟨d, after⟩ := p
        rw [scanUnicode_extend rest hscan]
        refine ⟨fun _ h => ?_, fun h => by cases h⟩
        cases h
        rfl
    · have hescape : ∀ whole, scanStringItem noLone ('\\' :: e :: whole) =
          (simpleEscape e).elim .bad fun c => .char c whole := by
        intro whole
        refine (scanStringItem.eq_4 noLone e whole fun heq => hu heq).trans ?_
        cases simpleEscape e <;> rfl
      rw [List.cons_append, List.cons_append, hescape, hescape]
      cases simpleEscape e with
      | none => exact ⟨fun _ h => (by cases h), fun h => by cases h⟩
      | some c =>
        refine ⟨fun _ h => ?_, fun h => by cases h⟩
        cases h
        rfl
  · have hplain : ∀ whole, scanStringItem noLone (c :: whole) =
        if c.toNat < 32 then .bad else .char c whole := by
      intro whole
      rw [scanStringItem.eq_def]
      split
      · next heq => cases heq
      · next heq => exact absurd (List.cons.inj heq).1 hquote
      · next heq => exact absurd (List.cons.inj heq).1 hslash
      · next heq => exact absurd (List.cons.inj heq).1 hslash
      · next heq => exact absurd (List.cons.inj heq).1 hslash
      · next heq =>
        obtain ⟨rfl, rfl⟩ := List.cons.inj heq
        rfl
    rw [List.cons_append, hplain, hplain]
    split
    · exact ⟨fun _ h => (by cases h), fun h => by cases h⟩
    · refine ⟨fun _ h => ?_, fun h => by cases h⟩
      cases h
      rfl

theorem scanString_extend {n m : ℕ} (hm : n ≤ m) {body : List Char}
    (h : scanString noLone n text = some (body, tail)) :
    scanString noLone m (text ++ rest) = some (body, tail ++ rest) := by
  induction n generalizing m text body with
  | zero => cases h
  | succ n ih =>
    obtain ⟨m, rfl⟩ := Nat.exists_eq_add_of_lt hm
    rw [scanString] at h
    have hm' : n ≤ n + m := by omega
    rw [show n + m + 1 = (n + m) + 1 by rfl, scanString]
    split at h
    · next after hitem =>
      cases h
      rw [(scanStringItem_extend rest).2 hitem]
    · next c after hitem =>
      obtain ⟨p, hp, heq⟩ := Option.map_eq_some_iff.mp h
      cases heq
      rw [(scanStringItem_extend rest).1 c hitem]
      simp only [ih hm' hp, Option.map_some]
    · cases h

theorem skipSpace_extend {c : Char} (h : skipSpace text = c :: tail) :
    skipSpace (text ++ rest) = c :: (tail ++ rest) := by
  unfold skipSpace at h ⊢
  rw [List.dropWhile_append, h]
  rfl

theorem skipSpace_append (h : skipSpace text ≠ []) :
    skipSpace (text ++ rest) = skipSpace text ++ rest := by
  obtain ⟨c, tail, heq⟩ := List.exists_cons_of_ne_nil h
  rw [skipSpace_extend rest heq, heq]
  rfl

end Strings

section Values

variable {rest : List Char}

/-- The value of a text that starts no string and no container. -/
theorem parseValue_scan {text : List Char} (hquote : ∀ tail, text ≠ '"' :: tail)
    (hbracket : ∀ tail, text ≠ '[' :: tail) (hbrace : ∀ tail, text ≠ '\x7b' :: tail) (n : ℕ) :
    parseValue noLone (n + 1) text = scanScalar text := by
  rw [parseValue.eq_def]
  dsimp only
  split
  · exact absurd rfl (hquote _)
  · exact absurd rfl (hbracket _)
  · exact absurd rfl (hbrace _)
  · rfl

/-- A number does not start a word. -/
theorem scanNumber_head {text tail : List Char} {value : Json}
    (h : scanNumber text = some (value, tail)) :
    ∃ c after, text = c :: after ∧
      (c.isDigit ∨ c = '-' ∧ ∃ d rest, after = d :: rest ∧ d.isDigit) := by
  have hwhole : ∀ {text tail whole : List Char}, scanWhole text = some (whole, tail) →
      ∃ c after, text = c :: after ∧ c.isDigit := by
    intro text tail whole h
    cases text with
    | nil => cases h
    | cons c after =>
      refine ⟨c, after, rfl, ?_⟩
      unfold scanWhole at h
      dsimp only at h
      split at h
      · next hzero =>
        rw [hzero]
        decide
      · split at h
        · next hdigit => exact hdigit
        · cases h
  have hscan : ∃ l after, scan text = some (l, after) := by
    unfold scanNumber at h
    split at h
    · cases h
    · next l after hscan => exact ⟨l, after, hscan⟩
  obtain ⟨l, after, hscan⟩ := hscan
  unfold scan at hscan
  dsimp only at hscan
  split at hscan
  · cases hscan
  · next whole afterWhole hdigits =>
    obtain ⟨d, digits, heq, hd⟩ := hwhole hdigits
    unfold scanSign at heq
    split at heq
    · exact ⟨'-', _, rfl, .inr ⟨rfl, d, digits, heq, hd⟩⟩
    · exact ⟨d, digits, heq, .inl hd⟩

theorem scanScalar_extend {text tail : List Char} {value : Json} (hrest : Detached rest)
    (h : scanScalar text = some (value, tail)) :
    scanScalar (text ++ rest) = some (value, tail ++ rest) := by
  rw [scanScalar.eq_def] at h
  split at h
  · cases h
    rfl
  · cases h
    rfl
  · cases h
    rfl
  · cases h
    rfl
  · cases h
    rfl
  · cases h
    rfl
  · obtain ⟨c, after, rfl, hhead⟩ := scanNumber_head h
    have hextend := scanNumber_extend hrest h
    rw [List.cons_append] at hextend ⊢
    rw [scanScalar_number, hextend]
    rcases hhead with hdigit | ⟨rfl, d, tail, rfl, hdigit⟩
    · exact .inl hdigit
    · exact .inr ⟨rfl, d, _, rfl, hdigit⟩

/-- What the three readers do with more fuel and a longer text. -/
structure Extends (rest : List Char) (n : ℕ) : Prop where
  value : ∀ {m text value tail}, n ≤ m → parseValue noLone n text = some (value, tail) →
    parseValue noLone m (text ++ rest) = some (value, tail ++ rest)
  items : ∀ {m text items tail}, n ≤ m → parseItems noLone n text = some (items, tail) →
    parseItems noLone m (text ++ rest) = some (items, tail ++ rest)
  members : ∀ {m text start members tail}, n ≤ m →
    parseMembers noLone n start text = some (members, tail) →
    parseMembers noLone m start (text ++ rest) = some (members, tail ++ rest)

theorem parseValue_nil (n : ℕ) : parseValue noLone n [] = none := by
  cases n <;> rfl

theorem parseItems_nil (n : ℕ) : parseItems noLone n [] = none := by
  cases n with
  | zero => rfl
  | succ n => rw [parseItems, parseValue_nil]

theorem parseMembers_nil (n : ℕ) (members : Fields) : parseMembers noLone n members [] = none := by
  cases n <;> rfl

theorem parseItems_extend {n : ℕ} (ih : Extends rest n) {m : ℕ} {text tail : List Char}
    {items : List Json} (hm : n ≤ m) (h : parseItems noLone (n + 1) text = some (items, tail)) :
    parseItems noLone (m + 1) (text ++ rest) = some (items, tail ++ rest) := by
  rw [parseItems] at h ⊢
  split at h
  · cases h
  · next x after hvalue =>
    simp only [ih.value hm hvalue]
    split at h
    · next after' hskip =>
      cases h
      simp only [skipSpace_extend rest hskip]
    · next after' hskip =>
      obtain ⟨p, hp, heq⟩ := Option.map_eq_some_iff.mp h
      cases heq
      have hne : skipSpace after' ≠ [] := by
        intro hnil
        rw [hnil, parseItems_nil] at hp
        cases hp
      simp only [skipSpace_extend rest hskip, skipSpace_append rest hne, ih.items hm hp,
        Option.map_some]
    · cases h

theorem parseMembers_extend {n : ℕ} (ih : Extends rest n) {m : ℕ} {text tail : List Char}
    {start members : Fields} (hm : n ≤ m)
    (h : parseMembers noLone (n + 1) start text = some (members, tail)) :
    parseMembers noLone (m + 1) start (text ++ rest) = some (members, tail ++ rest) := by
  rw [parseMembers.eq_def] at h
  dsimp only at h
  split at h
  · cases h
  · next k start' body hfuel =>
    cases hfuel
    rw [List.cons_append, parseMembers]
    split at h
    · cases h
    · next key after hkey =>
      simp only [scanString_extend rest (Nat.succ_le_succ hm) hkey]
      split at h
      · next after' hskip =>
        simp only [skipSpace_extend rest hskip]
        split at h
        · cases h
        · next x last hvalue =>
          have hne : skipSpace after' ≠ [] := by
            intro hnil
            rw [hnil, parseValue_nil] at hvalue
            cases hvalue
          simp only [skipSpace_append rest hne, ih.value hm hvalue]
          split at h
          · next end' hskip' =>
            cases h
            simp only [skipSpace_extend rest hskip']
          · next more hskip' =>
            have hne' : skipSpace more ≠ [] := by
              intro hnil
              rw [hnil, parseMembers_nil] at h
              cases h
            simp only [skipSpace_extend rest hskip', skipSpace_append rest hne']
            exact ih.members hm h
          · cases h
      · cases h
  · cases h

theorem parseValue_extend {n : ℕ} (hrest : Detached rest) (ih : Extends rest n) {m : ℕ}
    {text tail : List Char} {value : Json} (hm : n ≤ m)
    (h : parseValue noLone (n + 1) text = some (value, tail)) :
    parseValue noLone (m + 1) (text ++ rest) = some (value, tail ++ rest) := by
  rw [parseValue.eq_def] at h
  dsimp only at h
  split at h
  · next body =>
    obtain ⟨p, hp, heq⟩ := Option.map_eq_some_iff.mp h
    cases heq
    rw [List.cons_append, parseValue]
    simp only [scanString_extend rest (Nat.succ_le_succ hm) hp, Option.map_some]
  · next body =>
    rw [List.cons_append, parseValue]
    split at h
    · next after hskip =>
      cases h
      simp only [skipSpace_extend rest hskip]
    · next hclose =>
      obtain ⟨p, hp, heq⟩ := Option.map_eq_some_iff.mp h
      cases heq
      have hne : skipSpace body ≠ [] := by
        intro hnil
        rw [hnil, parseItems_nil] at hp
        cases hp
      rw [skipSpace_append rest hne]
      split
      · next after hskip =>
        obtain ⟨c, inner, hcons⟩ := List.exists_cons_of_ne_nil hne
        rw [hcons, List.cons_append] at hskip
        cases hskip
        exact absurd hcons (hclose inner)
      · simp only [ih.items hm hp, Option.map_some]
  · next body =>
    rw [List.cons_append, parseValue]
    split at h
    · next after hskip =>
      cases h
      simp only [skipSpace_extend rest hskip]
    · next hclose =>
      obtain ⟨p, hp, heq⟩ := Option.map_eq_some_iff.mp h
      cases heq
      have hne : skipSpace body ≠ [] := by
        intro hnil
        rw [hnil, parseMembers_nil] at hp
        cases hp
      rw [skipSpace_append rest hne]
      split
      · next after hskip =>
        obtain ⟨c, inner, hcons⟩ := List.exists_cons_of_ne_nil hne
        rw [hcons, List.cons_append] at hskip
        cases hskip
        exact absurd hcons (hclose inner)
      · simp only [ih.members hm hp, Option.map_some]
  · next hquote hbracket hbrace =>
    obtain ⟨c, inner, rfl⟩ : ∃ c inner, text = c :: inner := by
      cases text with
      | nil => cases h
      | cons c inner => exact ⟨c, inner, rfl⟩
    rw [parseValue_scan]
    · exact scanScalar_extend hrest h
    · rintro tail ⟨⟩
      exact hquote _ rfl
    · rintro tail ⟨⟩
      exact hbracket _ rfl
    · rintro tail ⟨⟩
      exact hbrace _ rfl

theorem extends_all (hrest : Detached rest) (n : ℕ) : Extends rest n := by
  induction n with
  | zero =>
    refine ⟨fun _ h => ?_, fun _ h => ?_, fun _ h => ?_⟩
    · cases h
    · cases h
    · cases h
  | succ n ih =>
    refine ⟨fun hm h => ?_, fun hm h => ?_, fun hm h => ?_⟩
    · obtain ⟨k, rfl⟩ := Nat.exists_eq_add_of_lt hm
      exact parseValue_extend hrest ih (by omega) h
    · obtain ⟨k, rfl⟩ := Nat.exists_eq_add_of_lt hm
      exact parseItems_extend ih (by omega) h
    · obtain ⟨k, rfl⟩ := Nat.exists_eq_add_of_lt hm
      exact parseMembers_extend ih (by omega) h

/-- A proper prefix of a printed value is no JSON text. -/
theorem loads_prefix (rest : List Char) {style : Style} (hstyle : Blank style) {value : Json}
    {text : List Char} (hdistinct : value.Distinct) (hprintable : printable value = true)
    (hprint : print style 0 value = text ++ rest) (hne : rest ≠ []) (hrest : Detached rest) :
    loads text = none := by
  cases htext : text with
  | nil => rfl
  | cons c after =>
    obtain ⟨d, whole, hhead, hspace, -⟩ := print_head style 0 hprintable
    have hfirst : c = d := by
      rw [hprint, htext] at hhead
      exact (List.cons.inj hhead).1
    rw [← htext]
    unfold loads loadsWith
    have hskip : skipSpace text = text := by
      rw [htext, hfirst]
      exact skipSpace_cons hspace after
    rw [hskip]
    split
    · next w tail hparse =>
      have hwhole : parseValue noLone ((print style 0 value).length + 1)
          (print style 0 value ++ []) = some (value, []) :=
        parseValue_print hstyle value 0 _ [] hdistinct hprintable (by simp [Stops]) (by omega)
      have hlonger := (extends_all hrest (text.length + 1)).value
        (m := (print style 0 value).length + 1) (by simp [hprint]) hparse
      rw [List.append_nil, hprint] at hwhole
      rw [hprint] at hlonger
      rw [hwhole] at hlonger
      have hempty : [] = tail ++ rest := by
        have := Option.some.inj hlonger
        exact (Prod.mk.inj this).2
      exact absurd (List.append_eq_nil_iff.mp hempty.symm).2 hne
    · rfl

end Values

end FailureResolver.JsonPrefix
