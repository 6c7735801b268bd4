import Mathlib.Data.List.Basic
import Mathlib.Logic.Function.Basic

/-!
One directory on a disk that may lose its power. The text of a file survives a crash
once the file was synced; a name may stand, after a crash, for any file it stood for
since the directory was last synced. A change that only adds a synced file to what
one name may stand for leaves, after any crash, that file there or what an earlier
crash could have left.
-/

namespace FailureResolver.CrashableDirectory

variable {Name Text : Type}

section Directory

/-- The text of a file, whether it is on the disk, and what its writer still holds back. -/
structure File (Text : Type) where
  text : Text
  synced : Bool
  buffer : Option Text

/-- What every name stands for, and what else it stood for since the last sync. -/
structure Directory (Name Text : Type) where
  file : ℕ → File Text
  entry : Name → Option ℕ
  earlier : Name → List (Option ℕ)

namespace Directory

variable (d : Directory Name Text)

def read (name : Name) : Option Text := (d.entry name).map fun i => (d.file i).text

def MayStand (name : Name) (e : Option ℕ) : Prop := e = d.entry name ∨ e ∈ d.earlier name

/-- No name stands for the file, and none may after a crash. -/
def Unused (i : ℕ) : Prop := ∀ name, ¬ d.MayStand name (some i)

def store (i : ℕ) (file : File Text) : Directory Name Text :=
  { d with file := Function.update d.file i file }

def sync (i : ℕ) : Directory Name Text := d.store i { d.file i with synced := true }

def syncEntries : Directory Name Text := { d with earlier := fun _ => [] }

variable [DecidableEq Name]

def point (name : Name) (e : Option ℕ) : Directory Name Text :=
  { d with
    entry := Function.update d.entry name e
    earlier := Function.update d.earlier name (d.entry name :: d.earlier name) }

def rename (source target : Name) : Directory Name Text :=
  (d.point target (d.entry source)).point source none

end Directory

structure Crashes (d d' : Directory Name Text) : Prop where
  entry : ∀ name, d.MayStand name (d'.entry name)
  text : ∀ i, (d.file i).synced = true → (d'.file i).text = (d.file i).text

end Directory

section Frame

variable {d : Directory Name Text} {name other : Name} {e e' : Option ℕ}

theorem mayStand_syncEntries (h : d.syncEntries.MayStand name e) : d.MayStand name e := by
  rcases h with heq | hmem
  · exact .inl heq
  · cases hmem

variable [DecidableEq Name]

theorem mayStand_point_other (h : other ≠ name) :
    (d.point name e).MayStand other e' ↔ d.MayStand other e' := by
  unfold Directory.MayStand Directory.point
  dsimp only
  rw [Function.update_of_ne h, Function.update_of_ne h]

theorem mayStand_point (h : (d.point name e).MayStand name e') : e' = e ∨ d.MayStand name e' := by
  unfold Directory.MayStand Directory.point at h
  simp only [Function.update_self, List.mem_cons] at h
  rcases h with heq | heq | hmem
  · exact .inl heq
  · exact .inr (.inl heq)
  · exact .inr (.inr hmem)

end Frame

section Added

variable {d₀ d d' : Directory Name Text} {kept : Name → Prop} {target : Name}
  {text : Text} {i : ℕ}

/-- Apart from one file that was not there before, and that the target may stand for
once it is on the disk with this text, the kept names are as they were. -/
structure Added (d₀ : Directory Name Text) (kept : Name → Prop) (target : Name) (text : Text)
    (i : ℕ) (d : Directory Name Text) : Prop where
  unused : d₀.Unused i
  files : ∀ j, j ≠ i → d.file j = d₀.file j
  entry : ∀ name, kept name → d.entry name = d₀.entry name ∨ name = target ∧ d.entry name = some i
  stands : ∀ name e, kept name → d.MayStand name e →
    d₀.MayStand name e ∨ name = target ∧ e = some i
  stored : d.MayStand target (some i) → d.file i = ⟨text, true, none⟩

theorem ne_of_kept {name other : Name} (hother : kept other) (hname : ¬ kept name) :
    other ≠ name := by
  rintro rfl
  exact hname hother

theorem Added.read (h : Added d₀ kept target text i d) (htarget : kept target) :
    (∀ name, kept name → d.read name = d₀.read name) ∨
      (d.read target = some text ∧
        ∀ name, kept name → name ≠ target → d.read name = d₀.read name) := by
  have hsame : ∀ name, kept name → d.entry name = d₀.entry name → d.read name = d₀.read name := by
    intro name hname heq
    unfold Directory.read
    rw [heq]
    cases hentry : d₀.entry name with
    | none => rfl
    | some j =>
      have hne : j ≠ i := by
        rintro rfl
        exact h.unused name (.inl hentry.symm)
      rw [Option.map_some, Option.map_some, h.files j hne]
  rcases h.entry target htarget with heq | ⟨-, hnew⟩
  · left
    intro name hname
    rcases h.entry name hname with hold | ⟨rfl, -⟩
    · exact hsame name hname hold
    · exact hsame name hname heq
  · right
    refine ⟨?_, fun name hname hne => ?_⟩
    · unfold Directory.read
      rw [hnew, Option.map_some, h.stored (.inl hnew.symm)]
    · rcases h.entry name hname with hold | ⟨heq, -⟩
      · exact hsame name hname hold
      · exact absurd heq hne

/-- What a crash leaves, an earlier crash could have left, or the new file is there. -/
theorem Added.crash (h : Added d₀ kept target text i d) (hcrash : Crashes d d') :
    ∃ d₁, Crashes d₀ d₁ ∧ ∀ name, kept name →
      d'.read name = d₁.read name ∨ name = target ∧ d'.read name = some text := by
  classical
  refine ⟨{ file := Function.update d'.file i (d₀.file i)
            entry := fun name => if d₀.MayStand name (d'.entry name) then d'.entry name
              else d₀.entry name
            earlier := d'.earlier }, ⟨fun name => ?_, fun j hsynced => ?_⟩, fun name hname => ?_⟩
  · by_cases hold : d₀.MayStand name (d'.entry name)
    · simpa only [if_pos hold] using hold
    · simp only [if_neg hold]
      exact .inl rfl
  · dsimp only
    by_cases hj : j = i
    · subst hj
      rw [Function.update_self]
    · rw [← h.files j hj] at hsynced
      rw [Function.update_of_ne hj, hcrash.text j hsynced, h.files j hj]
  · rcases h.stands name _ hname (hcrash.entry name) with hold | ⟨rfl, hnew⟩
    · left
      unfold Directory.read
      simp only [if_pos hold]
      cases hentry : d'.entry name with
      | none => rfl
      | some j =>
        have hne : j ≠ i := by
          rintro rfl
          exact h.unused name (hentry ▸ hold)
        rw [Option.map_some, Option.map_some, Function.update_of_ne hne]
    · right
      refine ⟨rfl, ?_⟩
      have hstored := h.stored (hnew ▸ hcrash.entry name)
      have htext := hcrash.text i (by rw [hstored])
      unfold Directory.read
      rw [hnew, Option.map_some, htext, hstored]

theorem Added.store (h : Added d₀ kept target text i d) {file : File Text}
    (hfree : ¬ d.MayStand target (some i)) : Added d₀ kept target text i (d.store i file) where
  unused := h.unused
  files j hj := (Function.update_of_ne hj _ _).trans (h.files j hj)
  entry := h.entry
  stands := h.stands
  stored hstands := absurd hstands hfree

theorem Added.syncEntries (h : Added d₀ kept target text i d) :
    Added d₀ kept target text i d.syncEntries where
  unused := h.unused
  files := h.files
  entry := h.entry
  stands name e hname hstands := h.stands name e hname (mayStand_syncEntries hstands)
  stored hstands := h.stored (mayStand_syncEntries hstands)

variable [DecidableEq Name]

theorem Added.point (h : Added d₀ kept target text i d) {name : Name} {e : Option ℕ}
    (hname : ¬ kept name) (htarget : kept target) :
    Added d₀ kept target text i (d.point name e) where
  unused := h.unused
  files := h.files
  entry other hother := by
    have hne : other ≠ name := ne_of_kept hother hname
    have heq : (d.point name e).entry other = d.entry other := Function.update_of_ne hne _ _
    rw [heq]
    exact h.entry other hother
  stands other e' hother hstands := by
    have hne : other ≠ name := ne_of_kept hother hname
    exact h.stands other e' hother ((mayStand_point_other hne).mp hstands)
  stored hstands := by
    have hne : target ≠ name := ne_of_kept htarget hname
    exact h.stored ((mayStand_point_other hne).mp hstands)

/-- The target takes the new file once it is on the disk. -/
theorem Added.take (h : Added d₀ kept target text i d) (hfile : d.file i = ⟨text, true, none⟩) :
    Added d₀ kept target text i (d.point target (some i)) where
  unused := h.unused
  files := h.files
  entry other hother := by
    by_cases heq : other = target
    · subst heq
      exact .inr ⟨rfl, Function.update_self _ _ _⟩
    · have hsame : (d.point target (some i)).entry other = d.entry other :=
        Function.update_of_ne heq _ _
      rw [hsame]
      exact h.entry other hother
  stands other e hother hstands := by
    by_cases heq : other = target
    · subst heq
      rcases mayStand_point hstands with hnew | hold
      · exact .inr ⟨rfl, hnew⟩
      · exact h.stands other e hother hold
    · exact h.stands other e hother ((mayStand_point_other heq).mp hstands)
  stored _ := hfile

end Added

end FailureResolver.CrashableDirectory
