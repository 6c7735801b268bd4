import Mathlib.Algebra.BigOperators.Group.Finset.Piecewise
import Mathlib.Data.List.TakeWhile
import Mathlib.Tactic.Basic

/-!
Laws about lists of events. Some events send a command, some are accepted; a
list issues a plan of commands when it sends a prefix of the plan and sends
nothing behind a command that was not accepted. Some events open a segment; the
segments of a list are what stands between two openings, and a reading that every
event may renew is kept for each of them. Every law composes over appending lists.
-/

namespace FailureResolver.TraceLaws

variable {E C R : Type}

section Sending

variable (sent : E → Option C) (guard accepted : E → Prop)

def Silent (t : List E) : Prop := ∀ e ∈ t, sent e = none

/-- A prefix of the plan is sent, each command under its guard and only when
every earlier one was accepted. -/
def Issues (plan : List C) (t : List E) : Prop :=
  t.filterMap sent <+: plan ∧
    ∀ before e behind, t = before ++ e :: behind → (sent e).isSome →
      guard e ∧ ∀ e' ∈ before, (sent e').isSome → accepted e'

/-- The whole plan is sent, and every command was accepted. -/
def Completes (plan : List C) (t : List E) : Prop :=
  t.filterMap sent = plan ∧ ∀ e ∈ t, (sent e).isSome → guard e ∧ accepted e

def StopsAfter (bad : E → Prop) (t : List E) : Prop :=
  ∀ before e behind, t = before ++ e :: behind → bad e → Silent sent behind

variable {sent guard accepted} {bad : E → Prop} {t u : List E} {plan rest : List C}

theorem Silent.filterMap_eq (h : Silent sent t) : t.filterMap sent = [] :=
  List.filterMap_eq_nil_iff.mpr h

theorem silent_append : Silent sent (t ++ u) ↔ Silent sent t ∧ Silent sent u := by
  simp only [Silent, List.mem_append, or_imp, forall_and]

theorem Silent.issues (h : Silent sent t) : Issues sent guard accepted plan t := by
  refine ⟨by simp [h.filterMap_eq], ?_⟩
  intro before e behind ht hsent
  have hnone := h e (by simp [ht])
  simp [hnone] at hsent

theorem Completes.issues (h : Completes sent guard accepted plan t) :
    Issues sent guard accepted plan t := by
  refine ⟨by simp [h.1], ?_⟩
  intro before e behind ht hsent
  refine ⟨(h.2 e (by simp [ht]) hsent).1, fun e' he' hsent' => ?_⟩
  exact (h.2 e' (by simp [ht, he']) hsent').2

theorem Silent.completes (h : Silent sent t) : Completes sent guard accepted [] t := by
  refine ⟨h.filterMap_eq, fun e he hsent => ?_⟩
  simp [h e he] at hsent

theorem Completes.append (h : Completes sent guard accepted plan t)
    (h' : Completes sent guard accepted rest u) :
    Completes sent guard accepted (plan ++ rest) (t ++ u) := by
  refine ⟨by simp [h.1, h'.1], fun e he hsent => ?_⟩
  rcases List.mem_append.mp he with he | he
  · exact h.2 e he hsent
  · exact h'.2 e he hsent

/-- Where an appended list is split: in its first part or in its second. -/
theorem append_split {before behind : List E} {e : E} (h : t ++ u = before ++ e :: behind) :
    (∃ mid, t = before ++ e :: mid ∧ behind = mid ++ u) ∨
      ∃ mid, before = t ++ mid ∧ u = mid ++ e :: behind := by
  rcases List.append_eq_append_iff.mp h with ⟨mid, hbefore, hu⟩ | ⟨mid, ht, hmid⟩
  · exact .inr ⟨mid, hbefore, hu⟩
  · cases mid with
    | nil => exact .inr ⟨[], by simpa using ht.symm, by simpa using hmid.symm⟩
    | cons x mid =>
      obtain ⟨rfl, rfl⟩ := List.cons.inj hmid
      exact .inl ⟨mid, ht, rfl⟩

/-- After a completed part the rest of the plan may be issued. -/
theorem Completes.append_issues (h : Completes sent guard accepted plan t)
    (h' : Issues sent guard accepted rest u) :
    Issues sent guard accepted (plan ++ rest) (t ++ u) := by
  refine ⟨?_, ?_⟩
  · rw [List.filterMap_append, h.1]
    exact (List.prefix_append_right_inj plan).mpr h'.1
  · intro before e behind hsplit hsent
    rcases append_split hsplit with ⟨mid, ht, -⟩ | ⟨mid, hbefore, hu⟩
    · refine ⟨(h.2 e (by simp [ht]) hsent).1, fun e' he' hsent' => ?_⟩
      exact (h.2 e' (by simp [ht, he']) hsent').2
    · obtain ⟨hguard, haccepted⟩ := h'.2 mid e behind hu hsent
      refine ⟨hguard, fun e' he' hsent' => ?_⟩
      rw [hbefore] at he'
      rcases List.mem_append.mp he' with he' | he'
      · exact (h.2 e' he' hsent').2
      · exact haccepted e' he' hsent'

theorem Issues.append_silent (h : Issues sent guard accepted plan t) (hu : Silent sent u) :
    Issues sent guard accepted plan (t ++ u) := by
  refine ⟨by simpa [hu.filterMap_eq] using h.1, ?_⟩
  intro before e behind hsplit hsent
  rcases append_split hsplit with ⟨mid, ht, -⟩ | ⟨mid, -, hmid⟩
  · exact h.2 before e mid ht hsent
  · have hnone := hu e (by simp [hmid])
    simp [hnone] at hsent

theorem Issues.mono (h : Issues sent guard accepted plan t) (hstarts : plan <+: rest) :
    Issues sent guard accepted rest t :=
  ⟨h.1.trans hstarts, h.2⟩

/-- One command under its guard. -/
theorem issues_singleton {e : E} {c : C} (hsent : sent e = some c) (hguard : guard e) :
    Issues sent guard accepted [c] [e] := by
  refine ⟨by simp [hsent], ?_⟩
  intro before e' behind hsplit _
  rcases List.append_eq_singleton_iff.mp hsplit.symm with ⟨hbefore, htail⟩ | ⟨-, htail⟩
  · obtain ⟨rfl, -⟩ := List.cons.inj htail
    refine ⟨hguard, fun e'' he'' => ?_⟩
    simp [hbefore] at he''
  · simp at htail

theorem completes_singleton {e : E} {c : C} (hsent : sent e = some c) (hguard : guard e)
    (haccepted : accepted e) : Completes sent guard accepted [c] [e] := by
  refine ⟨by simp [hsent], fun e' he' _ => ?_⟩
  rw [List.mem_singleton.mp he']
  exact ⟨hguard, haccepted⟩

theorem Silent.stopsAfter (h : Silent sent t) : StopsAfter sent bad t := by
  intro before e behind ht _ e' he'
  exact h e' (by simp [ht, he'])

theorem stopsAfter_singleton (e : E) : StopsAfter sent bad [e] := by
  intro before e' behind hsplit _
  rcases List.append_eq_singleton_iff.mp hsplit.symm with ⟨-, htail⟩ | ⟨-, htail⟩
  · rw [(List.cons.inj htail).2]
    exact fun e'' he'' => by simp at he''
  · simp at htail

/-- Nothing bad happened in the first part. -/
theorem StopsAfter.append (ht : ∀ e ∈ t, ¬ bad e) (h : StopsAfter sent bad u) :
    StopsAfter sent bad (t ++ u) := by
  intro before e behind hsplit hbad
  rcases append_split hsplit with ⟨mid, hmid, -⟩ | ⟨mid, -, hu⟩
  · exact absurd hbad (ht e (by simp [hmid]))
  · exact h mid e behind hu hbad

theorem StopsAfter.append_silent (h : StopsAfter sent bad t) (hu : Silent sent u) :
    StopsAfter sent bad (t ++ u) := by
  intro before e behind hsplit hbad
  rcases append_split hsplit with ⟨mid, ht, rfl⟩ | ⟨mid, -, hmid⟩
  · exact silent_append.mpr ⟨h before e mid ht hbad, hu⟩
  · exact fun e' he' => hu e' (by simp [hmid, he'])

end Sending

section Segments

variable (opens : E → Option R)

def prologue (t : List E) : List E := t.takeWhile (fun e => (opens e).isNone)

/-- The openings, each with the events up to the next one. -/
def segments : List E → List (R × List E)
  | [] => []
  | e :: t =>
      match opens e with
      | some r => (r, prologue opens t) :: segments t
      | none => segments t

variable {opens} {t u : List E}

theorem prologue_append_closed (h : ∀ e ∈ t, opens e = none) :
    prologue opens (t ++ u) = t ++ prologue opens u := by
  unfold prologue
  rw [List.takeWhile_append_of_pos]
  intro e he
  simp [h e he]

theorem prologue_closed (h : ∀ e ∈ t, opens e = none) : prologue opens t = t := by
  have happend := prologue_append_closed (u := []) h
  simpa [prologue] using happend

theorem silent_prologue_append {sent : E → Option C} (ht : Silent sent (prologue opens t))
    (hu : Silent sent u) : Silent sent (prologue opens (t ++ u)) := by
  unfold prologue at ht ⊢
  rw [List.takeWhile_append]
  split
  · next hlength =>
    have hwhole := (List.takeWhile_prefix _).eq_of_length hlength
    rw [hwhole] at ht
    exact silent_append.mpr ⟨ht, fun e he => hu e ((List.takeWhile_sublist _).mem he)⟩
  · exact ht

theorem segments_append_closed (h : ∀ e ∈ t, opens e = none) :
    segments opens (t ++ u) = segments opens u := by
  induction t with
  | nil => rfl
  | cons e t ih =>
    rw [List.cons_append, segments, h e (List.mem_cons_self ..)]
    exact ih fun e' he' => h e' (List.mem_cons_of_mem _ he')

theorem segments_closed (h : ∀ e ∈ t, opens e = none) : segments opens t = [] := by
  have happend := segments_append_closed (u := []) h
  simpa [segments] using happend

/-- An opening, what follows it without another one, and the rest. -/
theorem segments_open {e : E} {r : R} (he : opens e = some r) (h : ∀ e ∈ t, opens e = none) :
    segments opens (e :: (t ++ u)) = (r, t ++ prologue opens u) :: segments opens u := by
  rw [segments, he]
  simp only [prologue_append_closed h, segments_append_closed h]

theorem map_segments (opens : E → Option R) (t : List E) :
    (segments opens t).map Prod.fst = t.filterMap opens := by
  induction t with
  | nil => rfl
  | cons e t ih =>
    rw [segments]
    cases he : opens e <;> simp [he, ih]

/-- Events behind everything belong to the last segment. -/
theorem segments_append_closed_right (t : List E) (h : ∀ e ∈ u, opens e = none) :
    segments opens (t ++ u) = [] ∧ segments opens t = [] ∨
      ∃ before r last, segments opens t = before ++ [(r, last)] ∧
        segments opens (t ++ u) = before ++ [(r, last ++ u)] := by
  induction t with
  | nil => exact .inl ⟨by simpa using segments_closed h, rfl⟩
  | cons e t ih =>
    rw [List.cons_append, segments, segments]
    cases he : opens e with
    | none => simpa using ih
    | some r =>
      refine .inr ?_
      rcases ih with ⟨hlong, hshort⟩ | ⟨before, r', last, hshort, hlong⟩
      · have hclosed : ∀ e ∈ t, opens e = none := by
          have hmap := map_segments opens t
          rw [hshort] at hmap
          exact List.filterMap_eq_nil_iff.mp hmap.symm
        refine ⟨[], r, prologue opens t, by simp [hshort], ?_⟩
        simp [hlong, prologue_append_closed hclosed, prologue_closed hclosed, prologue_closed h]
      · have hopen : ∃ e ∈ t, opens e ≠ none := by
          by_contra hnone
          have hclosed : ∀ e ∈ t, opens e = none :=
            fun e' he' => by_contra fun hne => hnone ⟨e', he', hne⟩
          simp [segments_closed hclosed] at hshort
        have hprologue : prologue opens (t ++ u) = prologue opens t := by
          obtain ⟨e', he', hne⟩ := hopen
          unfold prologue
          rw [List.takeWhile_append, if_neg]
          intro hlength
          have heq := List.takeWhile_prefix (fun e => (opens e).isNone) |>.eq_of_length hlength
          have hall := List.takeWhile_eq_self_iff.mp heq e' he'
          exact hne (by simpa using hall)
        exact ⟨(r, prologue opens t) :: before, r', last, by simp [hshort], by
          simp [hlong, hprologue]⟩

end Segments

section Readings

variable {S : Type} (opens : E → Option R) (reads : S → E → S)

/-- The openings, each with what was read last before it and the events up to the
next one. -/
def readings : S → List E → List (R × S × List E)
  | _, [] => []
  | s, e :: t =>
      match opens e with
      | some r => (r, s, prologue opens t) :: readings (reads s e) t
      | none => readings (reads s e) t

variable {opens} {t u : List E}

theorem readings_append_closed (s : S) (h : ∀ e ∈ t, opens e = none) :
    readings opens reads s (t ++ u) = readings opens reads (t.foldl reads s) u := by
  induction t generalizing s with
  | nil => rfl
  | cons e t ih =>
    rw [List.cons_append, readings, h e (List.mem_cons_self ..)]
    exact ih (reads s e) fun e' he' => h e' (List.mem_cons_of_mem _ he')

theorem readings_closed (s : S) (h : ∀ e ∈ t, opens e = none) : readings opens reads s t = [] := by
  have happend := readings_append_closed reads (u := []) s h
  simpa [readings] using happend

theorem readings_open {e : E} {r : R} (s : S) (he : opens e = some r)
    (h : ∀ e ∈ t, opens e = none) :
    readings opens reads s (e :: (t ++ u)) = (r, s, t ++ prologue opens u) ::
      readings opens reads (t.foldl reads (reads s e)) u := by
  rw [readings, he]
  simp only [prologue_append_closed h, readings_append_closed _ _ h]

/-- Without what was read they are the segments. -/
theorem map_readings (s : S) (t : List E) :
    (readings opens reads s t).map (fun x => (x.1, x.2.2)) = segments opens t := by
  induction t generalizing s with
  | nil => rfl
  | cons e t ih =>
    rw [readings, segments]
    cases opens e with
    | none => exact ih _
    | some r => rw [List.map_cons, ih]

end Readings

section Projections

/-- The events of one task in an interleaving of several. -/
def projection (i : ℕ) (h : List (ℕ × E)) : List E :=
  (h.filter (fun x => x.1 = i)).map Prod.snd

/-- Counting task by task counts no event twice. -/
theorem sum_countP_projection_le (p : E → Bool) (h : List (ℕ × E)) (n : ℕ) :
    ∑ i ∈ Finset.range n, (projection i h).countP p ≤ (h.map Prod.snd).countP p := by
  induction h with
  | nil => simp [projection]
  | cons x h ih =>
    have hcons : ∀ i, (projection i (x :: h)).countP p =
        (projection i h).countP p + if x.1 = i then (if p x.2 then 1 else 0) else 0 := by
      intro i
      by_cases hi : x.1 = i
      · simp [projection, hi, List.countP_cons]
      · simp [projection, hi]
    simp only [hcons, Finset.sum_add_distrib, Finset.sum_ite_eq, List.map_cons, List.countP_cons]
    refine Nat.add_le_add ih ?_
    split <;> omega

end Projections

end FailureResolver.TraceLaws
