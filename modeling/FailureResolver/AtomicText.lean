import FailureResolver.CrashableDirectory
import FailureResolver.GitMemoryStore
import FailureResolver.Guarded

/-!
How a memory file gets its text. The text goes to a temporary file, which is synced
and only then takes the place of the memory file. Every call to the system may fail,
before or after its effect or halfway through a write, and the process or the machine
may stop at any of them: a reader finds the old text or the whole new one, and the
other memory files as they were.
-/

namespace FailureResolver.AtomicText

open CrashableDirectory GitHistory GitMemoryStore Program PyException

section Operations

abbrev Folder := Directory String (List Char)

def memoryName (stem : String) : String := stem ++ ".md"

/-- What `glob("*.md")` finds. -/
def IsMemory (name : String) : Prop := ∃ stem, name = memoryName stem

/-- A name that `mkstemp` makes up for this stem. -/
def IsTemporary (stem name : String) : Prop :=
  ∃ random, name = "." ++ stem ++ "." ++ random ++ ".tmp"

structure Temporary where
  descriptor : ℕ
  name : String

inductive FileOp
  | mkstemp (stem : String)
  | fdopen (file : ℕ)
  | write (file : ℕ) (content : List Char)
  | flush (file : ℕ)
  | fsync (file : ℕ)
  | close (file : ℕ)
  | chmod (name : String)
  | replace (source target : String)
  | openDirectory
  | fsyncDirectory
  | closeDirectory
  | unlink (name : String)

@[reducible] def FileOp.Reply : FileOp → Type
  | .mkstemp _ => Temporary
  | _ => Unit

abbrev files : Interface where
  State := Folder
  Op := FileOp
  Reply := FileOp.Reply
  Exc := PyExc

def flushed (d : Folder) (i : ℕ) : Folder :=
  match (d.file i).buffer with
  | none => d
  | some held => d.store i ⟨held, false, none⟩

def Succeeds (d : Folder) : (op : FileOp) → op.Reply → Folder → Prop
  | .mkstemp stem, temporary, d' => IsTemporary stem temporary.name ∧
      d.entry temporary.name = none ∧ d.Unused temporary.descriptor ∧
      d' = (d.store temporary.descriptor ⟨[], false, none⟩).point temporary.name
        (some temporary.descriptor)
  | .write i content, _, d' => ∃ written, d' = d.store i ⟨written, false, some content⟩
  | .flush i, _, d' => d' = flushed d i
  | .fsync i, _, d' => d' = d.sync i
  | .close i, _, d' => d' = flushed d i
  | .replace source target, _, d' => d' = d.rename source target
  | .fsyncDirectory, _, d' => d' = d.syncEntries
  | .unlink name, _, d' => d' = d.point name none
  | _, _, d' => d' = d

def Tears (d : Folder) (op : FileOp) (d' : Folder) : Prop :=
  match op with
  | .write i content => ∃ written, d' = d.store i ⟨written, false, some content⟩
  | .flush i => ∃ held written, (d.file i).buffer = some held ∧
      d' = d.store i ⟨written, false, some held⟩
  | .close i => ∃ held written, (d.file i).buffer = some held ∧
      d' = d.store i ⟨written, false, none⟩
  | _ => False

def fileEnvironment : Environment files := fun d op r d' =>
  match r with
  | .ok reply => Succeeds d op reply d'
  | .error _ => d' = d ∨ (∃ reply, Succeeds d op reply d') ∨ Tears d op d'

def isOsError (e : PyExc) : Bool :=
  match e.cls with
  | .timeout => true
  | .connection => true
  | .other name => name ∈ ["OSError", "BlockingIOError", "ChildProcessError", "FileExistsError",
      "FileNotFoundError", "InterruptedError", "IsADirectoryError", "NotADirectoryError",
      "PermissionError", "ProcessLookupError"]
  | _ => false

def isFileNotFound (e : PyExc) : Bool := e.cls = .other "FileNotFoundError"

end Operations

section Writing

abbrev call (op : FileOp) : Prog files op.Reply := Prog.call (σ := files) op

/-- The text of the temporary file, on the disk before its file object is closed. -/
def writeTemporary (temporary : Temporary) (content : List Char) : Prog files Unit := do
  call (.fdopen temporary.descriptor)
  Prog.finallyDo (do
      call (.write temporary.descriptor content)
      call (.flush temporary.descriptor)
      call (.fsync temporary.descriptor))
    (call (.close temporary.descriptor))

def syncParent : Prog files Unit :=
  Prog.tryCatch (do
      call .openDirectory
      Prog.finallyDo (call .fsyncDirectory) (call .closeDirectory))
    fun e => if isOsError e then .ret () else .raise e

def removeTemporary (temporary : Temporary) : Prog files Unit :=
  (call (.unlink temporary.name)).tryCatch fun e => if isFileNotFound e then .ret () else .raise e

/-- `_atomic_write_text` of the memory file with this stem. -/
def atomicWriteText (stem : String) (content : List Char) : Prog files Unit := do
  let temporary : Temporary ← call (.mkstemp stem)
  Prog.finallyDo (do
      writeTemporary temporary content
      call (.chmod temporary.name)
      call (.replace temporary.name (memoryName stem))
      syncParent)
    (removeTemporary temporary)

end Writing

section Names

theorem isMemory_memoryName (stem : String) : IsMemory (memoryName stem) := ⟨stem, rfl⟩

theorem not_isMemory {stem name : String} (h : IsTemporary stem name) : ¬ IsMemory name := by
  obtain ⟨random, rfl⟩ := h
  rintro ⟨other, heq⟩
  have hlast := congrArg (fun name : String => name.toList.reverse.head?) heq
  simp [memoryName] at hlast

/-- The temporary file never has the memory's own name. -/
theorem memoryName_ne {stem name : String} (h : IsTemporary stem name) :
    memoryName stem ≠ name := by
  intro heq
  exact not_isMemory h (heq ▸ isMemory_memoryName stem)

theorem memoryName_injective : Function.Injective memoryName := by
  intro stem other h
  have hlists := congrArg String.toList h
  unfold memoryName at hlists
  rw [String.toList_append, String.toList_append] at hlists
  exact String.toList_inj.mp (List.append_cancel_right hlists)

theorem memoryPath_injective : Function.Injective memoryPath := by
  intro stem other h
  have hlists := congrArg String.toList h
  simp only [memoryPath, String.toList_append] at hlists
  exact String.toList_inj.mp (List.append_cancel_left (List.append_cancel_right hlists))

end Names

section Phases

variable (d₀ : Folder) (stem : String) (content : List Char)

def Whole (d : Folder) : Prop :=
  d = d₀ ∨ ∃ i, Added d₀ IsMemory (memoryName stem) content i d

/-- The temporary file is there, and no crash makes it the memory file. -/
structure Private (temporary : Temporary) (d : Folder) : Prop where
  added : Added d₀ IsMemory (memoryName stem) content temporary.descriptor d
  apart : ¬ d.MayStand (memoryName stem) (some temporary.descriptor)
  named : d.entry temporary.name = some temporary.descriptor

structure Replaced (temporary : Temporary) (d : Folder) : Prop where
  added : Added d₀ IsMemory (memoryName stem) content temporary.descriptor d
  placed : d.entry (memoryName stem) = some temporary.descriptor

variable {d₀ stem content} {d d' : Folder} {temporary : Temporary}

theorem Private.whole (h : Private d₀ stem content temporary d) : Whole d₀ stem content d :=
  .inr ⟨_, h.added⟩

theorem Replaced.whole (h : Replaced d₀ stem content temporary d) : Whole d₀ stem content d :=
  .inr ⟨_, h.added⟩

theorem Replaced.read (h : Replaced d₀ stem content temporary d) :
    d.read (memoryName stem) = some content := by
  unfold Directory.read
  rw [h.placed, Option.map_some, h.added.stored (.inl h.placed.symm)]

theorem Private.store (h : Private d₀ stem content temporary d) (file : File (List Char)) :
    Private d₀ stem content temporary (d.store temporary.descriptor file) :=
  ⟨h.added.store h.apart, h.apart, h.named⟩

theorem private_created (hname : IsTemporary stem temporary.name)
    (hunused : d₀.Unused temporary.descriptor) :
    Private d₀ stem content temporary ((d₀.store temporary.descriptor ⟨[], false, none⟩).point
      temporary.name (some temporary.descriptor)) := by
  have hstored : Added d₀ IsMemory (memoryName stem) content temporary.descriptor
      (d₀.store temporary.descriptor ⟨[], false, none⟩) :=
    { unused := hunused
      files := fun j hj => Function.update_of_ne hj _ _
      entry := fun name _ => .inl rfl
      stands := fun name e _ hstands => .inl hstands
      stored := fun hstands => absurd hstands (hunused _) }
  refine ⟨hstored.point (not_isMemory hname) (isMemory_memoryName stem), fun hstands => ?_,
    Function.update_self _ _ _⟩
  exact hunused _ ((mayStand_point_other (memoryName_ne hname)).mp hstands)

/-- Flushing and closing change the temporary file alone, and nothing once it is flushed. -/
theorem Private.flushed (h : Private d₀ stem content temporary d) :
    Private d₀ stem content temporary (flushed d temporary.descriptor) := by
  unfold AtomicText.flushed
  split
  · exact h
  · exact h.store _

theorem Private.replaced (h : Private d₀ stem content temporary d)
    (hname : IsTemporary stem temporary.name)
    (hfile : d.file temporary.descriptor = ⟨content, true, none⟩) :
    Replaced d₀ stem content temporary (d.rename temporary.name (memoryName stem)) := by
  unfold Directory.rename
  rw [h.named]
  refine ⟨(h.added.take hfile).point (not_isMemory hname) (isMemory_memoryName stem), ?_⟩
  show Function.update _ _ _ _ = _
  rw [Function.update_of_ne (memoryName_ne hname)]
  exact Function.update_self _ _ _

theorem Replaced.removed (h : Replaced d₀ stem content temporary d)
    (hname : IsTemporary stem temporary.name) :
    Replaced d₀ stem content temporary (d.point temporary.name none) := by
  refine ⟨h.added.point (not_isMemory hname) (isMemory_memoryName stem), ?_⟩
  show Function.update _ _ _ _ = _
  rw [Function.update_of_ne (memoryName_ne hname)]
  exact h.placed

/-- What holds before a call and after each of its effects holds however it ends. -/
theorem keeps {P : Folder → Prop} {op : FileOp} {r : Except PyExc op.Reply} (hd : P d)
    (hok : ∀ reply d', Succeeds d op reply d' → P d') (htears : ∀ d', Tears d op d' → P d')
    (hstep : fileEnvironment d op r d') : P d' := by
  cases r with
  | ok reply => exact hok reply d' hstep
  | error e =>
    rcases hstep with rfl | ⟨reply, hstep⟩ | htorn
    · exact hd
    · exact hok reply d' hstep
    · exact htears d' htorn

def Before (temporary : Temporary) : FileOp → Prop
  | .fdopen _ => True
  | .write i _ => i = temporary.descriptor
  | .flush i => i = temporary.descriptor
  | .fsync i => i = temporary.descriptor
  | .close i => i = temporary.descriptor
  | .chmod _ => True
  | _ => False

theorem Private.step {op : FileOp} {r : Except PyExc op.Reply}
    (h : Private d₀ stem content temporary d) (hop : Before temporary op)
    (hstep : fileEnvironment d op r d') : Private d₀ stem content temporary d' := by
  refine keeps h (fun reply d' hsucceeds => ?_) (fun d' htorn => ?_) hstep
  · cases op with
    | fdopen i => exact hsucceeds ▸ h
    | chmod name => exact hsucceeds ▸ h
    | write i text =>
      obtain ⟨written, rfl⟩ := hsucceeds
      exact (show i = temporary.descriptor from hop) ▸ h.store _
    | flush i => exact hsucceeds ▸ (show i = temporary.descriptor from hop) ▸ h.flushed
    | close i => exact hsucceeds ▸ (show i = temporary.descriptor from hop) ▸ h.flushed
    | fsync i => exact hsucceeds ▸ (show i = temporary.descriptor from hop) ▸ h.store _
    | _ => exact hop.elim
  · cases op with
    | write i text =>
      obtain ⟨written, rfl⟩ := htorn
      exact (show i = temporary.descriptor from hop) ▸ h.store _
    | flush i =>
      obtain ⟨held, written, -, rfl⟩ := htorn
      exact (show i = temporary.descriptor from hop) ▸ h.store _
    | close i =>
      obtain ⟨held, written, -, rfl⟩ := htorn
      exact (show i = temporary.descriptor from hop) ▸ h.store _
    | _ => exact htorn.elim

def After : FileOp → Prop
  | .openDirectory => True
  | .fsyncDirectory => True
  | .closeDirectory => True
  | _ => False

theorem Replaced.step {op : FileOp} {r : Except PyExc op.Reply}
    (h : Replaced d₀ stem content temporary d) (hop : After op)
    (hstep : fileEnvironment d op r d') : Replaced d₀ stem content temporary d' := by
  refine keeps h (fun reply d' hsucceeds => ?_) (fun d' htorn => ?_) hstep
  · cases op with
    | openDirectory => exact hsucceeds ▸ h
    | closeDirectory => exact hsucceeds ▸ h
    | fsyncDirectory => exact hsucceeds ▸ ⟨h.added.syncEntries, h.placed⟩
    | _ => exact hop.elim
  · cases op with
    | openDirectory => exact htorn.elim
    | closeDirectory => exact htorn.elim
    | fsyncDirectory => exact htorn.elim
    | _ => exact hop.elim

end Phases

section Verified

variable {d₀ d : Folder} {stem : String} {content : List Char} {temporary : Temporary}

theorem guarded_file (op : FileOp) {I : Folder → Prop}
    {Q : Except PyExc op.Reply → Folder → Prop} (hI : I d)
    (hstep : ∀ r d', fileEnvironment d op r d' → I d' ∧ Q r d') :
    Guarded fileEnvironment I Q (call op) d :=
  guarded_call.mpr ⟨hI, hstep⟩

theorem guarded_before (op : FileOp) (h : Private d₀ stem content temporary d)
    (hop : Before temporary op) :
    Guarded fileEnvironment (Whole d₀ stem content)
      (fun r d' => Private d₀ stem content temporary d' ∧ fileEnvironment d op r d')
      (call op) d := by
  refine guarded_file op h.whole fun r d' hstep => ?_
  have hnext := h.step hop hstep
  exact ⟨hnext.whole, hnext, hstep⟩

theorem guarded_after (op : FileOp) (h : Replaced d₀ stem content temporary d) (hop : After op) :
    Guarded fileEnvironment (Whole d₀ stem content)
      (fun _ d' => Replaced d₀ stem content temporary d') (call op) d := by
  refine guarded_file op h.whole fun r d' hstep => ?_
  have hnext := h.step hop hstep
  exact ⟨hnext.whole, hnext⟩

def Stored (content : List Char) (temporary : Temporary) (d : Folder) : Prop :=
  d.file temporary.descriptor = ⟨content, true, none⟩

/-- A file object that holds nothing back is closed without a change. -/
theorem close_stored {r : Except PyExc Unit} {d' : Folder} (h : Stored content temporary d)
    (hstep : fileEnvironment d (.close temporary.descriptor) r d') : d' = d := by
  have hnone : (d.file temporary.descriptor).buffer = none := by rw [h]
  refine keeps (P := fun d' => d' = d) rfl (fun reply d' hsucceeds => ?_)
    (fun d' htorn => ?_) hstep
  · have hflushed : d' = flushed d temporary.descriptor := hsucceeds
    unfold flushed at hflushed
    rw [hnone] at hflushed
    exact hflushed
  · obtain ⟨held, written, hheld, -⟩ := htorn
    rw [hnone] at hheld
    cases hheld

theorem guarded_writeSynced (h : Private d₀ stem content temporary d) :
    Guarded fileEnvironment (Whole d₀ stem content)
      (fun r d' => Private d₀ stem content temporary d' ∧
        (r = .ok () → Stored content temporary d'))
      (do
        call (.write temporary.descriptor content)
        call (.flush temporary.descriptor)
        call (.fsync temporary.descriptor)) d := by
  refine (guarded_before (.write _ content) h rfl).bind (fun _ d₁ hwritten => ?_)
    fun e d₁ hfailed => ⟨hfailed.1, fun hok => by cases hok⟩
  obtain ⟨hprivate, written, rfl⟩ := hwritten
  refine (guarded_before (.flush _) hprivate rfl).bind (fun _ d₂ hheld => ?_)
    fun e d₂ hfailed => ⟨hfailed.1, fun hok => by cases hok⟩
  obtain ⟨hprivate₂, hflushed⟩ := hheld
  refine (guarded_before (.fsync _) hprivate₂ rfl).mono fun r d₃ hsynced =>
    ⟨hsynced.1, fun hok => ?_⟩
  subst hok
  have hfile : d₂.file temporary.descriptor = ⟨content, false, none⟩ := by
    rw [show d₂ = _ from hflushed, flushed]
    simp only [Directory.store, Function.update_self]
  have hd₃ : d₃ = d₂.sync temporary.descriptor := hsynced.2
  show d₃.file temporary.descriptor = _
  rw [hd₃, Directory.sync, Directory.store, hfile]
  exact Function.update_self _ _ _

theorem guarded_writeTemporary (h : Private d₀ stem content temporary d) :
    Guarded fileEnvironment (Whole d₀ stem content)
      (fun r d' => Private d₀ stem content temporary d' ∧
        (r = .ok () → Stored content temporary d'))
      (writeTemporary temporary content) d := by
  unfold writeTemporary
  refine (guarded_before (.fdopen _) h trivial).bind (fun _ d₁ hopened => ?_)
    fun e d₁ hfailed => ⟨hfailed.1, fun hok => by cases hok⟩
  refine (guarded_writeSynced hopened.1).finallyDo fun r d₂ hwritten => ?_
  refine (guarded_before (.close _) hwritten.1 rfl).mono fun ended d₃ hclosed => ?_
  cases ended with
  | error e => exact ⟨hclosed.1, fun hok => by cases hok⟩
  | ok _ =>
    refine ⟨hclosed.1, fun hok => ?_⟩
    rw [close_stored (hwritten.2 hok) hclosed.2]
    exact hwritten.2 hok

theorem guarded_syncParent (h : Replaced d₀ stem content temporary d) :
    Guarded fileEnvironment (Whole d₀ stem content)
      (fun _ d' => Replaced d₀ stem content temporary d') syncParent d := by
  unfold syncParent
  refine Guarded.tryCatch (R := fun _ d' => Replaced d₀ stem content temporary d') ?_
    (fun _ _ hok => hok) fun e d' hfailed => ?_
  · refine (guarded_after .openDirectory h trivial).bind (fun _ d₁ hopened => ?_)
      fun _ _ hfailed => hfailed
    refine (guarded_after .fsyncDirectory hopened trivial).finallyDo fun r d₂ hsynced => ?_
    refine (guarded_after .closeDirectory hsynced trivial).mono fun ended d₃ hclosed => ?_
    cases ended with
    | ok _ => exact hclosed
    | error e => exact hclosed
  · dsimp only
    split
    · exact hfailed
    · exact hfailed

/-- The temporary file has the new text and its place, or has not taken it. -/
def Settles (d₀ : Folder) (stem : String) (content : List Char) (temporary : Temporary)
    (r : Except PyExc Unit) (d : Folder) : Prop :=
  (Private d₀ stem content temporary d ∧ r ≠ .ok ()) ∨ Replaced d₀ stem content temporary d

theorem guarded_replace (h : Private d₀ stem content temporary d)
    (hname : IsTemporary stem temporary.name) :
    Guarded fileEnvironment (Whole d₀ stem content) (Settles d₀ stem content temporary)
      (do
        writeTemporary temporary content
        call (.chmod temporary.name)
        call (.replace temporary.name (memoryName stem))
        syncParent) d := by
  refine (guarded_writeTemporary h).bind (fun _ d₁ hwritten => ?_) fun e d₁ hfailed =>
    .inl ⟨hfailed.1, fun hok => by cases hok⟩
  obtain ⟨hprivate, hstored⟩ := hwritten
  refine (guarded_before (.chmod _) hprivate trivial).bind (fun _ d₂ hmode => ?_)
    fun e d₂ hfailed => .inl ⟨hfailed.1, fun hok => by cases hok⟩
  obtain ⟨-, hsame⟩ := hmode
  have hsame : d₂ = d₁ := hsame
  subst hsame
  have hreplaced := hprivate.replaced hname (hstored rfl)
  refine Guarded.bind (R := Settles d₀ stem content temporary) ?_ (fun _ d₃ hplaced => ?_)
    fun e d₃ hfailed => ?_
  · refine guarded_file (.replace _ _) hprivate.whole fun r d₃ hstep => ?_
    cases r with
    | ok _ =>
      have hd₃ : d₃ = _ := hstep
      exact hd₃ ▸ ⟨hreplaced.whole, .inr hreplaced⟩
    | error e =>
      rcases hstep with rfl | ⟨_, hstep⟩ | htorn
      · exact ⟨hprivate.whole, .inl ⟨hprivate, fun hok => by cases hok⟩⟩
      · have hd₃ : d₃ = _ := hstep
        exact hd₃ ▸ ⟨hreplaced.whole, .inr hreplaced⟩
      · exact htorn.elim
  · rcases hplaced with ⟨-, hne⟩ | hplaced
    · exact absurd rfl hne
    · exact (guarded_syncParent hplaced).mono fun _ _ hsynced => .inr hsynced
  · rcases hfailed with ⟨hleft, -⟩ | hplaced
    · exact .inl ⟨hleft, fun hok => by cases hok⟩
    · exact .inr hplaced

/-- What the write ends with: a return has put the text there. -/
def Ends (d₀ : Folder) (stem : String) (content : List Char) (r : Except PyExc Unit)
    (d : Folder) : Prop :=
  Whole d₀ stem content d ∧ (r = .ok () → d.read (memoryName stem) = some content)

theorem Settles.ends {r : Except PyExc Unit} (h : Settles d₀ stem content temporary r d) :
    Ends d₀ stem content r d := by
  rcases h with ⟨hprivate, hne⟩ | hreplaced
  · exact ⟨hprivate.whole, fun hok => absurd hok hne⟩
  · exact ⟨hreplaced.whole, fun _ => hreplaced.read⟩

theorem Settles.removed {r : Except PyExc Unit} (h : Settles d₀ stem content temporary r d)
    (hname : IsTemporary stem temporary.name) :
    Ends d₀ stem content r (d.point temporary.name none) := by
  rcases h with ⟨hprivate, hne⟩ | hreplaced
  · exact ⟨.inr ⟨_, hprivate.added.point (not_isMemory hname) (isMemory_memoryName stem)⟩,
      fun hok => absurd hok hne⟩
  · have hremoved := hreplaced.removed hname
    exact ⟨hremoved.whole, fun _ => hremoved.read⟩

/-- Removing what is left of the temporary file changes no memory. -/
theorem guarded_removeTemporary {r : Except PyExc Unit}
    (h : Settles d₀ stem content temporary r d) (hname : IsTemporary stem temporary.name) :
    Guarded fileEnvironment (Whole d₀ stem content) (fun _ d' => Ends d₀ stem content r d')
      (removeTemporary temporary) d := by
  unfold removeTemporary
  refine Guarded.tryCatch (R := fun _ d' => Ends d₀ stem content r d') ?_ (fun _ _ hok => hok)
    fun e d' hfailed => ?_
  · refine guarded_file (.unlink _) h.ends.1 fun r' d' hstep => ?_
    have hends : Ends d₀ stem content r d' := by
      refine keeps h.ends (fun reply d' hsucceeds => ?_) (fun d' htorn => ?_) hstep
      · have hd' : d' = _ := hsucceeds
        exact hd' ▸ h.removed hname
      · exact htorn.elim
    exact ⟨hends.1, hends⟩
  · dsimp only
    split
    · exact hfailed
    · exact hfailed

def Created (d₀ : Folder) (stem : String) (content : List Char) :
    Except PyExc Temporary → Folder → Prop
  | .ok temporary, d => IsTemporary stem temporary.name ∧ Private d₀ stem content temporary d
  | .error _, d => Whole d₀ stem content d

theorem guarded_atomicWriteText (d₀ : Folder) (stem : String) (content : List Char) :
    Guarded fileEnvironment (Whole d₀ stem content) (Ends d₀ stem content)
      (atomicWriteText stem content) d₀ := by
  unfold atomicWriteText
  refine Guarded.bind (R := Created d₀ stem content) ?_ (fun temporary d hcreated => ?_)
    fun e d hfailed => ⟨hfailed, fun hok => by cases hok⟩
  · refine guarded_file (.mkstemp stem) (.inl rfl) fun r d hstep => ?_
    cases r with
    | ok temporary =>
      obtain ⟨hname, -, hunused, rfl⟩ := hstep
      have hprivate : Private d₀ stem content temporary _ := private_created hname hunused
      exact ⟨hprivate.whole, hname, hprivate⟩
    | error e =>
      have hwhole : Whole d₀ stem content d := by
        rcases hstep with rfl | ⟨temporary, hname, -, hunused, rfl⟩ | htorn
        · exact .inl rfl
        · have hcreated : Private d₀ stem content temporary _ := private_created hname hunused
          exact hcreated.whole
        · exact htorn.elim
      exact ⟨hwhole, hwhole⟩
  · obtain ⟨hname, hprivate⟩ := hcreated
    refine (guarded_replace hprivate hname).finallyDo fun r d' hsettles => ?_
    refine (guarded_removeTemporary hsettles hname).mono fun ended d'' hends => ?_
    cases ended with
    | ok _ => exact hends
    | error e => exact ⟨hends.1, fun hok => by cases hok⟩

end Verified

section Readers

variable {d₀ d : Folder} {stem : String} {content : List Char}

/-- The memories a reader of the directory finds, by their stems. -/
def texts (d : Folder) (stem : String) : Option (List Char) := d.read (memoryName stem)

/-- What a reader finds after a crash of what one directory or another may leave. -/
def CrashTexts (d₀ : Folder) (stem : String) (content : List Char) (d : Folder) : Prop :=
  ∀ d', Crashes d d' → ∃ d₁, Crashes d₀ d₁ ∧
    ∀ other, texts d' other = texts d₁ other ∨ other = stem ∧ texts d' other = some content

theorem Whole.texts (h : Whole d₀ stem content d) :
    texts d = texts d₀ ∨ texts d = Function.update (texts d₀) stem (some content) := by
  rcases h with rfl | ⟨i, hadded⟩
  · exact .inl rfl
  · rcases hadded.read (isMemory_memoryName stem) with hsame | ⟨hnew, hothers⟩
    · exact .inl (funext fun other => hsame _ (isMemory_memoryName other))
    · right
      funext other
      by_cases heq : other = stem
      · subst heq
        rw [Function.update_self]
        exact hnew
      · rw [Function.update_of_ne heq]
        exact hothers _ (isMemory_memoryName other) fun hname =>
          heq (memoryName_injective hname)

theorem Whole.crash (h : Whole d₀ stem content d) : CrashTexts d₀ stem content d := by
  intro d' hcrash
  rcases h with rfl | ⟨i, hadded⟩
  · exact ⟨d', hcrash, fun other => .inl rfl⟩
  · obtain ⟨d₁, hold, hread⟩ := hadded.crash hcrash
    refine ⟨d₁, hold, fun other => ?_⟩
    rcases hread _ (isMemory_memoryName other) with hsame | ⟨heq, hnew⟩
    · exact .inl hsame
    · exact .inr ⟨memoryName_injective heq, hnew⟩

/-- A write that returns has put the text there. -/
theorem texts_returned {t : List (Event files)}
    (hrun : Runs fileEnvironment (atomicWriteText stem content) d₀ t (.returned () d)) :
    texts d = Function.update (texts d₀) stem (some content) := by
  obtain ⟨hwhole, hread⟩ := ((guarded_atomicWriteText d₀ stem content).run hrun).2.1 () d rfl
  have hnew : texts d stem = some content := hread rfl
  rcases hwhole.texts with hsame | hreplaced
  · rw [← hnew, hsame, Function.update_eq_self]
  · exact hreplaced

theorem whole_of_leaves (h : Leaves fileEnvironment (atomicWriteText stem content) d₀ d) :
    Whole d₀ stem content d :=
  (guarded_atomicWriteText d₀ stem content).leaves (fun _ _ hends => hends.1) h

/-- Wherever a write is cut, and whatever call of it fails, a reader finds the old text
or the whole new one, and the other memories unchanged; after a crash a memory is as a
crash could have left it before, or the new one; a write that returns has put it there. -/
theorem memory_replaced_whole (d₀ : Folder) (stem : String) (content : List Char) :
    (∀ d, Leaves fileEnvironment (atomicWriteText stem content) d₀ d →
      (texts d = texts d₀ ∨ texts d = Function.update (texts d₀) stem (some content)) ∧
        CrashTexts d₀ stem content d) ∧
    ∀ t d, Runs fileEnvironment (atomicWriteText stem content) d₀ t (.returned () d) →
      texts d = Function.update (texts d₀) stem (some content) := by
  refine ⟨fun d hleaves => ?_, fun t d hrun => texts_returned hrun⟩
  have hwhole := whole_of_leaves hleaves
  exact ⟨hwhole.texts, hwhole.crash⟩

end Readers

section Refinement

variable {d₀ d : Folder} {stem : String} {content : List Char} {remote : Sha}
variable {c : Checkout String (List Char)}

/-- The checkout and the directory show the same memories. -/
def Shows (c : Checkout String (List Char)) (d : Folder) : Prop :=
  ∀ stem, c.worktree (memoryPath stem) = texts d stem

theorem shows_write (h : Shows c d₀)
    (htexts : texts d = Function.update (texts d₀) stem (some content)) :
    Shows (c.write (memoryPath stem) content) d := by
  intro other
  rw [htexts]
  by_cases heq : other = stem
  · subst heq
    rw [worktree_write, Function.update_self]
  · have hpath : memoryPath other ≠ memoryPath stem := fun hpath =>
      heq (memoryPath_injective hpath)
    rw [worktree_write_other hpath, Function.update_of_ne heq]
    exact h other

/-- To the store the write is one step: it is done or not, wherever it is cut. -/
theorem replaceFile_leaves (h : Shows c d₀)
    (hleaves : Leaves fileEnvironment (atomicWriteText stem content) d₀ d) :
    ∃ c', Shows c' d ∧
      (c' = c ∨ CheckoutStep c remote (.replaceFile (memoryPath stem) content) () c') := by
  rcases (whole_of_leaves hleaves).texts with hsame | hnew
  · refine ⟨c, fun other => ?_, .inl rfl⟩
    rw [hsame]
    exact h other
  · exact ⟨_, shows_write h hnew, .inr rfl⟩

theorem replaceFile_returned (h : Shows c d₀) {t : List (Event files)}
    (hrun : Runs fileEnvironment (atomicWriteText stem content) d₀ t (.returned () d)) :
    ∃ c', Shows c' d ∧
      CheckoutStep c remote (.replaceFile (memoryPath stem) content) () c' :=
  ⟨_, shows_write h (texts_returned hrun), rfl⟩

end Refinement

end FailureResolver.AtomicText
