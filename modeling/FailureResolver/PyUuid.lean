import FailureResolver.PyNumber

/-!
UUIDs as the source language reads and writes them. Reading is lenient: a URN
marker, braces and hyphens anywhere are dropped and what is left has to be a
number of 32 hexadecimal digits. Writing is canonical, and what was written is
read back.
-/

namespace FailureResolver.PyUuid

open PyText PyNumber

/-- `text.replace(word, "")`, from the left; `skip` characters are part of a word
already found. -/
def dropWord (word : List Char) : ℕ → List Char → List Char
  | _, [] => []
  | skip + 1, _ :: rest => dropWord word skip rest
  | 0, c :: rest =>
      if word.isPrefixOf (c :: rest) then dropWord word (word.length - 1) rest
      else c :: dropWord word 0 rest

def isBrace (c : Char) : Bool := c = '\x7b' || c = '\x7d'

/-- `UUID(text).int`; `none` is the error. -/
def parseUuid (s : String) : Option ℕ :=
  let text := dropWord "uuid:".toList 0 (dropWord "urn:".toList 0 s.toList)
  let bare := ((text.dropWhile isBrace).reverse.dropWhile isBrace).reverse
  let digits := bare.filter (fun c => c ≠ '-')
  if digits.length ≠ 32 then none
  else match parseHex (String.ofList digits) with
    | some n => if 0 ≤ n ∧ n < 2 ^ 128 then some n.toNat else none
    | none => none

def formatUuid (n : ℕ) : String :=
  let digits := hexFixed 32 n
  String.ofList (digits.take 8 ++ '-' :: ((digits.drop 8).take 4 ++
    '-' :: ((digits.drop 12).take 4 ++ '-' :: ((digits.drop 16).take 4 ++
      '-' :: digits.drop 20))))

theorem parseUuid_lt {s : String} {n : ℕ} (h : parseUuid s = some n) : n < 2 ^ 128 := by
  unfold parseUuid at h
  dsimp only at h
  split at h
  · cases h
  · split at h
    · next m hparse =>
      rw [Option.ite_none_right_eq_some, Option.some.injEq] at h
      obtain ⟨⟨hlow, hhigh⟩, rfl⟩ := h
      exact (Int.toNat_lt hlow).mpr (by exact_mod_cast hhigh)
    · cases h

theorem dropWord_plain {word text : List Char} {c : Char} (hword : c ∈ word)
    (htext : c ∉ text) : dropWord word 0 text = text := by
  induction text with
  | nil => rfl
  | cons d rest ih =>
    rw [dropWord, if_neg, ih fun hc => htext (List.mem_cons_of_mem _ hc)]
    intro hstarts
    exact htext ((List.isPrefixOf_iff_prefix.mp hstarts).subset hword)

/-- The characters of a written UUID. -/
theorem mem_formatUuid {n : ℕ} {c : Char} (h : c ∈ (formatUuid n).toList) :
    c = '-' ∨ ∃ d < 16, c = hexDigit d := by
  unfold formatUuid at h
  simp only [String.toList_ofList, List.mem_append, List.mem_cons] at h
  have hdigit : c ∈ hexFixed 32 n → c = '-' ∨ ∃ d < 16, c = hexDigit d :=
    fun hc => .inr (mem_hexFixed hc)
  rcases h with h | h | h | h | h | h | h | h | h
  · exact hdigit (List.mem_of_mem_take h)
  · exact .inl h
  · exact hdigit (List.mem_of_mem_drop (List.mem_of_mem_take h))
  · exact .inl h
  · exact hdigit (List.mem_of_mem_drop (List.mem_of_mem_take h))
  · exact .inl h
  · exact hdigit (List.mem_of_mem_drop (List.mem_of_mem_take h))
  · exact .inl h
  · exact hdigit (List.mem_of_mem_drop h)

theorem filter_formatUuid (n : ℕ) :
    (formatUuid n).toList.filter (fun c => c ≠ '-') = hexFixed 32 n := by
  have hkeep : ∀ digits : List Char, (∀ c ∈ digits, c ∈ hexFixed 32 n) →
      digits.filter (fun c => c ≠ '-') = digits := by
    intro digits hdigits
    rw [List.filter_eq_self]
    intro c hc
    obtain ⟨d, hd, rfl⟩ := mem_hexFixed (hdigits c hc)
    simpa using (hexDigit_plain d hd).2.2.2.2.1
  have hsplit : ∀ k m, (hexFixed 32 n).drop k =
      ((hexFixed 32 n).drop k).take m ++ (hexFixed 32 n).drop (k + m) := by
    intro k m
    rw [← List.drop_drop, List.take_append_drop]
  have hwhole : hexFixed 32 n = (hexFixed 32 n).take 8 ++ (((hexFixed 32 n).drop 8).take 4 ++
      (((hexFixed 32 n).drop 12).take 4 ++ (((hexFixed 32 n).drop 16).take 4 ++
        (hexFixed 32 n).drop 20))) := by
    rw [← hsplit 16 4, ← hsplit 12 4, ← hsplit 8 4, List.take_append_drop]
  unfold formatUuid
  simp only [String.toList_ofList, List.filter_append, ne_eq, decide_not, List.filter_cons]
  simp only [decide_true, Bool.not_true, Bool.false_eq_true, if_false]
  simp only [ne_eq, decide_not] at hkeep
  rw [hkeep _ fun c hc => List.mem_of_mem_take hc,
    hkeep _ fun c hc => List.mem_of_mem_drop (List.mem_of_mem_take hc),
    hkeep _ fun c hc => List.mem_of_mem_drop (List.mem_of_mem_take hc),
    hkeep _ fun c hc => List.mem_of_mem_drop (List.mem_of_mem_take hc),
    hkeep _ fun c hc => List.mem_of_mem_drop hc]
  exact hwhole.symm

/-- What no character of a written UUID is. -/
theorem hexDigit_uuid : ∀ d < 16, hexDigit d ≠ ':' ∧ isBrace (hexDigit d) = false ∧
    isSpace (hexDigit d) = false ∧ isLineBreak (hexDigit d) = false := by
  decide

theorem formatUuid_plain {n : ℕ} {c : Char} (h : c ∈ (formatUuid n).toList) :
    c ≠ ':' ∧ isBrace c = false ∧ isSpace c = false ∧ isLineBreak c = false := by
  rcases mem_formatUuid h with rfl | ⟨d, hd, rfl⟩
  · decide
  · exact hexDigit_uuid d hd

/-- What was written is read back. -/
theorem parseUuid_formatUuid {n : ℕ} (hn : n < 2 ^ 128) : parseUuid (formatUuid n) = some n := by
  have hcolon : ':' ∉ (formatUuid n).toList := fun h => (formatUuid_plain h).1 rfl
  have hbrace : ∀ c ∈ (formatUuid n).toList, isBrace c = false := fun c hc => (formatUuid_plain hc).2.1
  unfold parseUuid
  rw [dropWord_plain (c := ':') (by decide) hcolon, dropWord_plain (c := ':') (by decide) hcolon]
  simp only
  rw [dropWhile_of_head fun c hc => hbrace c (List.mem_of_mem_head? hc), dropWhile_of_head,
    List.reverse_reverse, filter_formatUuid, length_hexFixed, parseHex_hexFixed (by omega)]
  · simp only [ne_eq, not_true_eq_false, if_false]
    rw [if_pos ⟨by omega, by exact_mod_cast hn⟩, Int.toNat_natCast]
  · intro c hc
    exact hbrace c (List.mem_reverse.mp (List.mem_of_mem_head? hc))

theorem strip_formatUuid (n : ℕ) : strip (formatUuid n) = formatUuid n := by
  unfold strip
  rw [stripChars_of_ends, String.ofList_toList]
  · exact fun c hc => (formatUuid_plain (List.mem_of_mem_head? hc)).2.2.1
  · exact fun c hc => (formatUuid_plain (List.mem_of_getLast? hc)).2.2.1

end FailureResolver.PyUuid
