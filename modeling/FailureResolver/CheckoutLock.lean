import FailureResolver.GitMemoryStore
import FailureResolver.TaskTable

/-!
The two locks of the memory store. An operation takes the lock that its process keeps
for the checkout, then the lock of a file that every operation opens anew, and gives
both back on every way out. Any number of operations run in the threads of any number
of processes, none of which is killed; every call may fail before or after its effect,
and the remote branch changes at any time. One operation at a time is at a git command,
and no other operation comes between two of its commands.
-/

namespace FailureResolver.CheckoutLock

open GitHistory GitMemoryStore JsonValue Program PyException ResolutionMemory TaskPool TaskTable
open Transitions

variable {α : Type}

section Operations

structure Caller where
  process : ℕ
  thread : ℕ

/-- The thread that has the lock of its process, and how often it took it again. -/
structure Hold where
  thread : ℕ
  again : ℕ

/-- The checkout; the lock of each process; the open lock file that has the lock of the
file; and every lock file that was opened. -/
structure Machine where
  store : Store
  threadLock : ℕ → Option Hold
  fileLock : Option ℕ
  opened : List ℕ

inductive LockOp
  | acquireThreadLock (caller : Caller)
  | releaseThreadLock (caller : Caller)
  | makeParent
  | openLockFile
  | fdopen (file : ℕ)
  | flock (file : ℕ)
  | unlock (file : ℕ)
  | closeLockFile (file : ℕ)
  | git (op : GitOp)

@[reducible] def LockOp.Reply : LockOp → Type
  | .openLockFile => ℕ
  | .git op => op.Reply
  | _ => Unit

abbrev machine : Interface where
  State := Machine
  Op := LockOp
  Reply := LockOp.Reply
  Exc := PyExc

def Hold.released (hold : Hold) : Option Hold :=
  if hold.again = 0 then none else some { hold with again := hold.again - 1 }

def Machine.setThreadLock (m : Machine) (process : ℕ) (hold : Option Hold) : Machine :=
  { m with threadLock := Function.update m.threadLock process hold }

def Machine.unlocked (m : Machine) (file : ℕ) : Machine :=
  if m.fileLock = some file then { m with fileLock := none } else m

def Succeeds (m : Machine) : (op : LockOp) → op.Reply → Machine → Prop
  | .acquireThreadLock caller, _, m' =>
      (m.threadLock caller.process = none ∧
        m' = m.setThreadLock caller.process (some ⟨caller.thread, 0⟩)) ∨
      ∃ again, m.threadLock caller.process = some ⟨caller.thread, again⟩ ∧
        m' = m.setThreadLock caller.process (some ⟨caller.thread, again + 1⟩)
  | .releaseThreadLock caller, _, m' =>
      ∃ hold, m.threadLock caller.process = some hold ∧ hold.thread = caller.thread ∧
        m' = m.setThreadLock caller.process hold.released
  | .openLockFile, file, m' => file ∉ m.opened ∧ m' = { m with opened := file :: m.opened }
  | .flock file, _, m' =>
      (m.fileLock = none ∨ m.fileLock = some file) ∧ m' = { m with fileLock := some file }
  | .unlock file, _, m' => m' = m.unlocked file
  | .closeLockFile file, _, m' => m' = m.unlocked file
  | .git op, reply, m' =>
      ∃ store, GitMemoryStore.Succeeds m.store op reply store ∧ m' = { m with store := store }
  | _, _, m' => m' = m

/-- A call succeeds, or fails before or after it had its effect. -/
def Awaited : Environment machine := fun m op r m' =>
  match r with
  | .ok reply => Succeeds m op reply m'
  | .error _ => m' = m ∨ ∃ reply, Succeeds m op reply m'

/-- The remote branch is everyone's, the checkout and the locks are the operations' own. -/
def Elsewhere (m m' : Machine) : Prop :=
  ∃ remote, m' = { m with store := { m.store with remote := remote } }

end Operations

section Locking

abbrev call (op : LockOp) : Prog machine op.Reply := Prog.call (σ := machine) op

/-- The git commands of an operation, on the checkout of the machine. -/
def onCheckout : Prog git α → Prog machine α
  | .ret a => .ret a
  | .raise e => .raise e
  | .halt => .halt
  | .get k => .get fun m => onCheckout (k m.store)
  | .set store next => .get fun m => .set { m with store := store } (onCheckout next)
  | .await op k => .await (.git op) fun r => onCheckout (k r)

def processLock (body : Prog git α) : Prog machine α := do
  call .makeParent
  let file : ℕ ← call .openLockFile
  call (.fdopen file)
  Prog.finallyDo (do
      call (.flock file)
      onCheckout body)
    (Prog.finallyDo (call (.unlock file)) (call (.closeLockFile file)))

/-- `with self._thread_lock, self._process_lock()` -/
def withLocks (caller : Caller) (body : Prog git α) : Prog machine α := do
  call (.acquireThreadLock caller)
  Prog.finallyDo (processLock body) (call (.releaseThreadLock caller))

def discard (p : Prog machine α) : Prog machine Unit := p.bind fun _ => .ret ()

inductive Operation : Prog machine Unit → Prop
  | writeMemory (caller : Caller) (config : Config) (strOf : Json → String)
      (draft : DraftFields) :
      Operation (discard (withLocks caller (writeMemory config strOf draft)))
  | rebuildIndex (caller : Caller) (config : Config) (refresh : Bool) :
      Operation (discard (withLocks caller (rebuildIndex config refresh)))
  | latestMemoryCommit (caller : Caller) (config : Config) (resolutionId : String)
      (refresh : Bool) :
      Operation (discard (withLocks caller (latestMemoryCommit config resolutionId refresh)))

abbrev Operations := Pool machine Unit Unit

abbrev MachineStep : Operations → Label machine → Operations → Prop :=
  Step (fun p _ => Operation p) (fun m _ _ => m) Awaited Elsewhere

def AtGit (P : Operations) (i : ℕ) : Prop := ∃ op k, P.task i = some (.await (.git op) k)

def gitTask : Label machine → Option ℕ
  | .resume i (.git _) _ => some i
  | _ => none

def gitTasks (t : List (Label machine)) : List ℕ := t.filterMap gitTask

/-- No other task comes between two commands of one. -/
def Uninterrupted (tasks : List ℕ) : Prop :=
  ∀ before i after, tasks = before ++ i :: after → i ∈ before → before.getLast? = some i

end Locking

section Modes

/-- Where a task is with the lock file: it has none, has opened one, is inside, and
is leaving. -/
inductive Mode
  | waiting
  | opened (file : ℕ)
  | inside (file : ℕ)
  | leaving (file : ℕ)

def Mode.file : Mode → Option ℕ
  | .waiting => none
  | .opened file => some file
  | .inside file => some file
  | .leaving file => some file

def Mode.Early : Mode → Prop
  | .waiting => True
  | .opened _ => True
  | _ => False

def Mode.after : Mode → (op : LockOp) → Except PyExc op.Reply → Mode
  | .waiting, .openLockFile, .ok file => .opened file
  | .opened file, .flock _, .ok _ => .inside file
  | .opened file, .flock _, .error _ => .leaving file
  | .inside file, .unlock _, _ => .leaving file
  | m, _, _ => m

def Permitted (g : Mode) : LockOp → Prop
  | .openLockFile => g = .waiting
  | .flock file => g = .opened file
  | .unlock file => g = .inside file ∨ g = .leaving file
  | .closeLockFile file => g = .leaving file
  | .git _ => ∃ file, g = .inside file
  | _ => True

def locking : Discipline machine Mode where
  rely _ _ := True
  act _ _ _ _ := False
  request g _ op := Permitted g op
  answer g op r g' := g' = g.after op r

variable {m m' : Machine} {file : ℕ} {g : Mode}

def IsGit : LockOp → Prop
  | .git _ => True
  | _ => False

theorem awaits_onCheckout {body : Prog git α} (h : body.Awaits fun _ => True) :
    (onCheckout body).Awaits IsGit := by
  induction body with
  | ret a => trivial
  | raise e => trivial
  | halt => trivial
  | get k ih => exact fun m => ih m.store (h m.store)
  | set store next ih => exact h.elim
  | await op k ih => exact ⟨trivial, fun r => ih r (h.2 r)⟩

theorem locking_onCheckout {body : Prog git α} (h : body.Awaits fun _ => True) :
    Obeys locking (fun _ g _ => g = .inside file) (onCheckout body) (.inside file) m := by
  refine Obeys.of_awaits (awaits_onCheckout h) (fun _ op hop => ?_) fun op r g' hop hanswer => ?_
  · cases op with
    | git op => exact ⟨file, rfl⟩
    | _ => exact hop.elim
  · cases op with
    | git op => exact hanswer
    | _ => exact hop.elim

/-- A call that leaves the mode as it is; if it fails the program ends there. -/
theorem locking_call_bind {op : LockOp} {f : op.Reply → Prog machine α}
    (hop : Permitted g op) (hafter : ∀ r, g.after op r = g)
    (hf : ∀ reply m, Obeys locking (fun _ _ _ => True) (f reply) g m) :
    Obeys locking (fun _ _ _ => True) ((call op).bind f) g m := by
  rw [obeys_bind]
  refine obeys_call.mpr ⟨hop, fun r g' m' hanswer _ => ?_⟩
  cases r with
  | error e => trivial
  | ok reply =>
    have hsame : g' = g := Eq.trans hanswer (hafter _)
    subst hsame
    exact hf reply m'

/-- The lock file is given back and closed. -/
theorem locking_leave (h : g = .inside file ∨ g = .leaving file) :
    Obeys locking (fun _ _ _ => True)
      (Prog.finallyDo (call (.unlock file)) (call (.closeLockFile file))) g m := by
  rw [obeys_finallyDo]
  refine obeys_call.mpr ⟨h, fun r g' m' hanswer _ => ?_⟩
  have hleaving : g' = .leaving file := by
    rcases h with rfl | rfl <;> exact hanswer
  refine obeys_call.mpr ⟨hleaving, fun r' g'' m'' _ _ => ?_⟩
  cases r' <;> trivial

theorem locking_processLock {body : Prog git α} (h : body.Awaits fun _ => True) :
    Obeys locking (fun _ _ _ => True) (processLock body) .waiting m := by
  unfold processLock
  simp only [Prog.bind_eq]
  refine locking_call_bind trivial (fun _ => rfl) fun _ m => ?_
  rw [obeys_bind]
  refine obeys_call.mpr ⟨rfl, fun r g m hanswer _ => ?_⟩
  cases r with
  | error e => trivial
  | ok file =>
    have hopened : g = .opened file := hanswer
    subst hopened
    refine locking_call_bind trivial (fun _ => rfl) fun _ m => ?_
    rw [obeys_finallyDo, obeys_bind]
    refine obeys_call.mpr ⟨rfl, fun r g m hanswer _ => ?_⟩
    cases r with
    | error e =>
      refine (locking_leave (.inr hanswer)).mono fun ended _ _ _ => ?_
      cases ended <;> trivial
    | ok _ =>
      have hinside : g = .inside file := hanswer
      subst hinside
      refine (locking_onCheckout h).mono fun r g m hg => ?_
      refine (locking_leave (.inl hg)).mono fun ended _ _ _ => ?_
      cases ended <;> trivial

theorem locking_withLocks {caller : Caller} {body : Prog git α}
    (h : body.Awaits fun _ => True) :
    Obeys locking (fun _ _ _ => True) (withLocks caller body) .waiting m := by
  unfold withLocks
  simp only [Prog.bind_eq]
  refine locking_call_bind trivial (fun _ => rfl) fun _ m => ?_
  rw [obeys_finallyDo]
  refine (locking_processLock h).mono fun r g m _ => ?_
  refine obeys_call.mpr ⟨trivial, fun ended _ _ _ _ => ?_⟩
  cases ended <;> trivial

theorem locking_discard {p : Prog machine α}
    (h : Obeys locking (fun _ _ _ => True) p .waiting m) :
    Obeys locking (fun _ _ _ => True) (discard p) .waiting m := by
  unfold discard
  rw [obeys_bind]
  refine h.mono fun r _ _ _ => ?_
  cases r <;> trivial

theorem awaits_ensureCheckout (config : Config) :
    (ensureCheckout config).Awaits fun _ => True := by
  have hraiseIf : ∀ condition e, (raiseIf condition e).Awaits fun _ => True := by
    intro condition e
    unfold raiseIf
    split <;> trivial
  have hclone : cloneIfMissing.Awaits fun _ => True := by
    intro store
    show (if store.checkout.isNone then command .clone else .ret ()).Awaits _
    split
    · exact .call trivial
    · trivial
  unfold ensureCheckout
  refine .bind hclone fun _ => .bind (.call trivial) fun _ => .bind (hraiseIf _ _) fun _ => ?_
  refine .bind (.call trivial) fun _ => .bind (hraiseIf _ _) fun _ => ?_
  exact .bind (.call trivial) fun _ => hraiseIf _ _

theorem awaits_pullIf (refresh : Bool) : (pullIf refresh).Awaits fun _ => True := by
  unfold pullIf
  split
  · exact .call trivial
  · trivial

theorem awaits_writeMemory (config : Config) (strOf : Json → String) (draft : DraftFields) :
    (writeMemory config strOf draft).Awaits fun _ => True := by
  have hplace : ∀ path content, (placeContent path content).Awaits fun _ => True := by
    intro path content store
    show (if readTarget store path ≠ some content then command (.replaceFile path content)
      else .ret ()).Awaits _
    split
    · exact .call trivial
    · trivial
  have hcommit : ∀ changed path message, (commitIf changed path message).Awaits fun _ => True := by
    intro changed path message
    unfold commitIf
    split
    · exact .bind (.call trivial) fun _ => .bind (.call trivial) fun _ => trivial
    · trivial
  unfold writeMemory
  refine .bind (awaits_ensureCheckout config) fun _ => .bind (.call trivial) fun _ => ?_
  refine .bind (.call trivial) fun _ => .bind (hplace _ _) fun _ => ?_
  refine .bind (.call trivial) fun _ => .bind (.call trivial) fun _ => ?_
  exact .bind (hcommit _ _ _) fun _ => .bind (.call trivial) fun _ => trivial

theorem awaits_rebuildIndex (config : Config) (refresh : Bool) :
    (rebuildIndex config refresh).Awaits fun _ => True := by
  unfold rebuildIndex
  refine .bind (awaits_ensureCheckout config) fun _ => .bind (awaits_pullIf refresh) fun _ => ?_
  exact .bind (.call trivial) fun _ => .settle _

theorem awaits_latestMemoryCommit (config : Config) (resolutionId : String) (refresh : Bool) :
    (latestMemoryCommit config resolutionId refresh).Awaits fun _ => True := by
  unfold latestMemoryCommit
  refine .bind (awaits_ensureCheckout config) fun _ => .bind (awaits_pullIf refresh) fun _ => ?_
  refine .bind (.call trivial) fun _ => fun store => ?_
  show Prog.Awaits _ (if (readTarget store (memoryPath resolutionId)).isNone then _ else _)
  split
  · trivial
  · exact .bind (.call trivial) fun _ => .call trivial

theorem locking_operation {p : Prog machine Unit} (h : Operation p) :
    Obeys locking (fun _ _ _ => True) p .waiting m := by
  cases h with
  | writeMemory caller config strOf draft =>
    exact locking_discard (locking_withLocks (awaits_writeMemory _ _ _))
  | rebuildIndex caller config refresh =>
    exact locking_discard (locking_withLocks (awaits_rebuildIndex _ _))
  | latestMemoryCommit caller config resolutionId refresh =>
    exact locking_discard (locking_withLocks (awaits_latestMemoryCommit _ _ _))

end Modes

section Interleaving

theorem Uninterrupted.concat {tasks : List ℕ} {i : ℕ} (h : Uninterrupted tasks)
    (hlast : i ∈ tasks → tasks.getLast? = some i) : Uninterrupted (tasks ++ [i]) := by
  intro before j after heq hmem
  rcases List.eq_nil_or_concat after with rfl | ⟨after, last, rfl⟩
  · obtain ⟨rfl, hij⟩ := List.append_inj' heq rfl
    obtain ⟨rfl, -⟩ := List.cons.inj hij
    exact hlast hmem
  · rw [List.concat_eq_append, ← List.cons_append, ← List.append_assoc] at heq
    exact h before j after (List.append_inj' heq rfl).1 hmem

theorem gitTasks_append {t : List (Label machine)} {l : Label machine} (h : gitTask l = none) :
    gitTasks (t ++ [l]) = gitTasks t := by
  unfold gitTasks
  rw [List.filterMap_append, List.filterMap_cons_none h, List.filterMap_nil, List.append_nil]

theorem gitTasks_git {t : List (Label machine)} {i : ℕ} {op : GitOp}
    {r : Except PyExc op.Reply} :
    gitTasks (t ++ [.resume i (.git op) r]) = gitTasks t ++ [i] := by
  unfold gitTasks
  rw [List.filterMap_append]
  rfl

end Interleaving

section Table

variable {m m' : Machine} {file other : ℕ} {op : LockOp} {r : Except PyExc op.Reply}

theorem awaited_cases (h : Awaited m op r m') : m' = m ∨ ∃ reply, Succeeds m op reply m' := by
  cases r with
  | ok reply => exact .inr ⟨reply, h⟩
  | error e => exact h

/-- Neither the lock of the file nor the opened files change. -/
structure SameFiles (m m' : Machine) : Prop where
  fileLock : m'.fileLock = m.fileLock
  opened : m'.opened = m.opened

theorem SameFiles.refl (m : Machine) : SameFiles m m := ⟨rfl, rfl⟩

def Plain : LockOp → Prop
  | .openLockFile => False
  | .flock _ => False
  | .unlock _ => False
  | .closeLockFile _ => False
  | _ => True

theorem awaited_plain (h : Awaited m op r m') (hop : Plain op) : SameFiles m m' := by
  rcases awaited_cases h with rfl | ⟨reply, hsucceeds⟩
  · exact .refl _
  · cases op with
    | acquireThreadLock caller =>
      obtain ⟨-, rfl⟩ | ⟨again, -, rfl⟩ := hsucceeds <;> exact ⟨rfl, rfl⟩
    | releaseThreadLock caller =>
      obtain ⟨hold, -, -, rfl⟩ := hsucceeds
      exact ⟨rfl, rfl⟩
    | makeParent =>
      have hsame : m' = m := hsucceeds
      exact hsame ▸ .refl _
    | fdopen file =>
      have hsame : m' = m := hsucceeds
      exact hsame ▸ .refl _
    | git op =>
      obtain ⟨store, -, rfl⟩ := hsucceeds
      exact ⟨rfl, rfl⟩
    | _ => exact hop.elim

@[simp] theorem opened_unlocked : (m.unlocked file).opened = m.opened := by
  unfold Machine.unlocked
  split <;> rfl

theorem fileLock_unlocked (h : m.fileLock = some other) (hne : other ≠ file) :
    (m.unlocked file).fileLock = some other := by
  unfold Machine.unlocked
  rw [if_neg fun heq => hne (Option.some.inj (h.symm.trans heq))]
  exact h

@[simp] theorem store_unlocked : (m.unlocked file).store = m.store := by
  unfold Machine.unlocked
  split <;> rfl

/-- Only git commands change the checkout. -/
theorem awaited_store (h : Awaited m op r m') (hop : ¬ IsGit op) : m'.store = m.store := by
  rcases awaited_cases h with rfl | ⟨reply, hsucceeds⟩
  · rfl
  · cases op with
    | acquireThreadLock caller =>
      obtain ⟨-, rfl⟩ | ⟨again, -, rfl⟩ := hsucceeds <;> rfl
    | releaseThreadLock caller =>
      obtain ⟨hold, -, -, rfl⟩ := hsucceeds
      rfl
    | openLockFile =>
      obtain ⟨-, rfl⟩ := hsucceeds
      rfl
    | flock file =>
      obtain ⟨-, rfl⟩ := hsucceeds
      rfl
    | unlock file => exact (congrArg Machine.store hsucceeds).trans store_unlocked
    | closeLockFile file => exact (congrArg Machine.store hsucceeds).trans store_unlocked
    | makeParent => exact congrArg Machine.store hsucceeds
    | fdopen file => exact congrArg Machine.store hsucceeds
    | git op => exact absurd trivial hop

/-- One operation is inside, with the lock of the file, and it alone gives git commands. -/
structure Table (t : List (Label machine)) (mode : ℕ → Mode) (_ : ℕ → Unit) (m : Machine) :
    Prop where
  held : ∀ i file, mode i = .inside file → m.fileLock = some file
  own : ∀ i j file, (mode i).file = some file → (mode j).file = some file → i = j
  opened : ∀ i file, (mode i).file = some file → file ∈ m.opened
  early : ∀ i, (mode i).Early → i ∉ gitTasks t
  last : ∀ i file, mode i = .inside file → i ∈ gitTasks t → (gitTasks t).getLast? = some i
  uninterrupted : Uninterrupted (gitTasks t)

variable {t : List (Label machine)} {mode : ℕ → Mode} {record record' : ℕ → Unit} {i j : ℕ}
variable {g : Mode} {l : Label machine}

theorem Table.sole (h : Table t mode record m) (hi : mode i = .inside file)
    (hj : mode j = .inside other) : i = j := by
  have heq : file = other := Option.some.inj ((h.held i file hi).symm.trans (h.held j other hj))
  subst heq
  exact h.own i j file (by rw [hi]; rfl) (by rw [hj]; rfl)

/-- One task moves on, with no git command. -/
theorem Table.move (h : Table t mode record m) (hl : gitTask l = none)
    (hopened : ∀ file ∈ m.opened, file ∈ m'.opened)
    (hothers : ∀ j file, j ≠ i → mode j = .inside file → m'.fileLock = some file)
    (hinside : ∀ file, g = .inside file →
      m'.fileLock = some file ∧ (mode i = g ∨ (mode i).Early))
    (hfile : ∀ file, g.file = some file →
      (mode i).file = some file ∨ file ∉ m.opened ∧ file ∈ m'.opened)
    (hearly : g.Early → (mode i).Early) :
    Table (t ++ [l]) (Function.update mode i g) record' m' := by
  have hother : ∀ j, j ≠ i → Function.update mode i g j = mode j := fun j hj =>
    Function.update_of_ne hj ..
  have hself : Function.update mode i g i = g := Function.update_self ..
  have hnew : ∀ j file, j ≠ i → (mode j).file = some file → g.file = some file → False := by
    intro j file hj hjfile hgfile
    rcases hfile file hgfile with hmine | ⟨hfresh, -⟩
    · exact hj (h.own j i file hjfile hmine)
    · exact hfresh (h.opened j file hjfile)
  refine ⟨fun j file hj => ?_, fun j k file hj hk => ?_, fun j file hj => ?_, fun j hj => ?_,
    fun j file hj hmem => ?_, ?_⟩
  · by_cases hij : j = i
    · subst hij
      rw [hself] at hj
      exact (hinside file hj).1
    · rw [hother j hij] at hj
      exact hothers j file hij hj
  · by_cases hij : j = i
    · by_cases hik : k = i
      · exact hij.trans hik.symm
      · rw [hij, hself] at hj
        rw [hother k hik] at hk
        exact (hnew k file hik hk hj).elim
    · rw [hother j hij] at hj
      by_cases hik : k = i
      · rw [hik, hself] at hk
        exact (hnew j file hij hj hk).elim
      · rw [hother k hik] at hk
        exact h.own j k file hj hk
  · by_cases hij : j = i
    · rw [hij, hself] at hj
      rcases hfile file hj with hmine | ⟨-, hadded⟩
      · exact hopened file (h.opened i file hmine)
      · exact hadded
    · rw [hother j hij] at hj
      exact hopened file (h.opened j file hj)
  · rw [gitTasks_append hl]
    by_cases hij : j = i
    · rw [hij, hself] at hj
      rw [hij]
      exact h.early i (hearly hj)
    · rw [hother j hij] at hj
      exact h.early j hj
  · rw [gitTasks_append hl] at hmem ⊢
    by_cases hij : j = i
    · subst hij
      rw [hself] at hj
      rcases (hinside file hj).2 with hsame | hbefore
      · exact h.last j file (hsame.trans hj) hmem
      · exact absurd hmem (h.early j hbefore)
    · rw [hother j hij] at hj
      exact h.last j file hj hmem
  · rw [gitTasks_append hl]
    exact h.uninterrupted

/-- A task goes on in its mode, with no git command. -/
theorem Table.stay (h : Table t mode record m) (hl : gitTask l = none)
    (hopened : ∀ file ∈ m.opened, file ∈ m'.opened)
    (hheld : ∀ j file, mode j = .inside file → m'.fileLock = some file) :
    Table (t ++ [l]) mode record' m' where
  held := hheld
  own := h.own
  opened j file hj := hopened file (h.opened j file hj)
  early j hj := by
    rw [gitTasks_append hl]
    exact h.early j hj
  last j file hj := by
    rw [gitTasks_append hl]
    exact h.last j file hj
  uninterrupted := by
    rw [gitTasks_append hl]
    exact h.uninterrupted

theorem Table.same (h : Table t mode record m) (hl : gitTask l = none) (hm : SameFiles m m') :
    Table (t ++ [l]) mode record' m' :=
  h.stay hl (fun _ hmem => hm.opened ▸ hmem) fun j file hj => hm.fileLock.trans (h.held j file hj)

/-- The task that is inside gives a git command. -/
theorem Table.git (h : Table t mode record m) (hi : mode i = .inside file)
    (hm : SameFiles m m') {gitOp : GitOp} {r : Except PyExc gitOp.Reply} :
    Table (t ++ [.resume i (.git gitOp) r]) mode record' m' where
  held j file hj := hm.fileLock.trans (h.held j file hj)
  own := h.own
  opened j file hj := hm.opened ▸ h.opened j file hj
  early j hj := by
    rw [gitTasks_git, List.mem_append, List.mem_singleton]
    rintro (hmem | rfl)
    · exact h.early j hj hmem
    · rw [hi] at hj
      exact hj
  last j other hj _ := by
    rw [gitTasks_git, List.getLast?_concat, h.sole hi hj]
  uninterrupted := by
    rw [gitTasks_git]
    exact h.uninterrupted.concat fun hmem => h.last i file hi hmem

end Table

section Exclusion

variable {m m' : Machine} {file : ℕ} {t : List (Label machine)} {mode : ℕ → Mode}
variable {record record' : ℕ → Unit} {i : ℕ}

/-- A task opens the lock file. -/
theorem Table.answer_open (h : Table t mode record m) (hi : mode i = .waiting)
    {r : Except PyExc ℕ} (hawait : Awaited m .openLockFile r m') :
    Table (t ++ [.resume i .openLockFile r])
      (Function.update mode i ((mode i).after .openLockFile r)) record' m' := by
  cases r with
  | ok file =>
    obtain ⟨hfresh, rfl⟩ := hawait
    rw [hi]
    refine h.move rfl (fun _ hmem => List.mem_cons_of_mem _ hmem)
      (fun j file _ hj => h.held j file hj) (fun file hg => by cases hg)
      (fun other hg => .inr ?_) (fun _ => by rw [hi]; trivial)
    obtain rfl : file = other := Option.some.inj hg
    exact ⟨hfresh, List.mem_cons_self ..⟩
  | error e =>
    have hsame : (mode i).after .openLockFile (.error e) = mode i := by
      rw [hi]
      rfl
    rw [hsame, Function.update_eq_self]
    rcases hawait with rfl | ⟨other, -, rfl⟩
    · exact h.same rfl (.refl _)
    · exact h.stay rfl (fun _ hmem => List.mem_cons_of_mem _ hmem) h.held

/-- Whoever is inside keeps a task from the lock of the file. -/
theorem Table.alone (h : Table t mode record m) (hi : mode i = .opened file)
    (hfree : m.fileLock = none ∨ m.fileLock = some file) {j other : ℕ}
    (hj : mode j = .inside other) : False := by
  have hheld := h.held j other hj
  rcases hfree with hnone | hmine
  · rw [hnone] at hheld
    cases hheld
  · obtain rfl : file = other := Option.some.inj (hmine.symm.trans hheld)
    have heq : i = j := h.own i j file (by rw [hi]; rfl) (by rw [hj]; rfl)
    rw [← heq, hi] at hj
    cases hj

/-- A task is given the lock of the file, or its call fails. -/
theorem Table.answer_flock (h : Table t mode record m) (hi : mode i = .opened file)
    {r : Except PyExc Unit} (hawait : Awaited m (.flock file) r m') :
    Table (t ++ [.resume i (.flock file) r])
      (Function.update mode i ((mode i).after (.flock file) r)) record' m' := by
  have hmine : ∀ {other}, some file = some other → (mode i).file = some other := by
    intro other heq
    rw [hi]
    exact heq
  rw [hi]
  cases r with
  | ok _ =>
    obtain ⟨hfree, rfl⟩ := hawait
    refine h.move rfl (fun _ hmem => hmem) (fun j other _ hj => (h.alone hi hfree hj).elim)
      (fun other hg => ?_) (fun other hg => .inl (hmine hg)) fun hearly => hearly.elim
    obtain rfl : file = other := Mode.inside.inj hg
    exact ⟨rfl, .inr (by rw [hi]; trivial)⟩
  | error e =>
    rcases hawait with rfl | ⟨_, hfree, rfl⟩
    · exact h.move rfl (fun _ hmem => hmem) (fun j other _ hj => h.held j other hj)
        (fun other hg => by cases hg) (fun other hg => .inl (hmine hg)) fun hearly => hearly.elim
    · exact h.move rfl (fun _ hmem => hmem) (fun j other _ hj => (h.alone hi hfree hj).elim)
        (fun other hg => by cases hg) (fun other hg => .inl (hmine hg)) fun hearly => hearly.elim

/-- A task gives back the lock of the file, if it has it. -/
theorem Table.answer_leave (h : Table t mode record m)
    (hi : mode i = .inside file ∨ mode i = .leaving file) {op : LockOp}
    {r : Except PyExc op.Reply} (hop : gitTask (.resume i op r) = none)
    (hafter : (mode i).after op r = .leaving file) (hm : m' = m ∨ m' = m.unlocked file) :
    Table (t ++ [.resume i op r]) (Function.update mode i ((mode i).after op r)) record' m' := by
  have hfile : (mode i).file = some file := by
    rcases hi with hi | hi <;> rw [hi] <;> rfl
  have hopened : m'.opened = m.opened := by
    rcases hm with rfl | rfl
    · rfl
    · exact opened_unlocked
  rw [hafter]
  refine h.move hop (fun _ hmem => hopened ▸ hmem) (fun j other hj hinside => ?_)
    (fun other hg => by cases hg) (fun other hg => .inl ?_) fun hearly => hearly.elim
  · have hheld := h.held j other hinside
    rcases hm with rfl | rfl
    · exact hheld
    · refine fileLock_unlocked hheld fun heq => hj (h.own j i file ?_ hfile)
      rw [hinside, heq]
      rfl
  · rw [hfile]
    exact hg

theorem Table.answer (h : Table t mode record m) {op : LockOp} {r : Except PyExc op.Reply}
    (hop : Permitted (mode i) op) (hawait : Awaited m op r m') :
    Table (t ++ [.resume i op r]) (Function.update mode i ((mode i).after op r)) record' m' := by
  have hplain : Plain op → (mode i).after op r = mode i := by
    intro hplain
    cases op with
    | openLockFile => exact hplain.elim
    | flock file => exact hplain.elim
    | unlock file => exact hplain.elim
    | closeLockFile file => exact hplain.elim
    | _ => cases mode i <;> rfl
  cases op with
  | openLockFile => exact h.answer_open hop hawait
  | flock file => exact h.answer_flock hop hawait
  | unlock file =>
    refine h.answer_leave hop rfl ?_ ?_
    · rcases hop with hi | hi <;> rw [hi] <;> rfl
    · rcases awaited_cases hawait with hsame | ⟨_, hunlocked⟩
      · exact .inl hsame
      · exact .inr hunlocked
  | closeLockFile file =>
    have hleaving : mode i = .leaving file := hop
    refine h.answer_leave (.inr hleaving) rfl ?_ ?_
    · rw [hleaving]
      rfl
    · rcases awaited_cases hawait with hsame | ⟨_, hunlocked⟩
      · exact .inl hsame
      · exact .inr hunlocked
  | git op =>
    obtain ⟨file, hi⟩ := hop
    rw [hplain trivial, Function.update_eq_self]
    exact h.git hi (awaited_plain hawait trivial)
  | _ =>
    rw [hplain trivial, Function.update_eq_self]
    exact h.same rfl (awaited_plain hawait trivial)

/-- While no git command was given since then, the checkout is still this one. -/
def Kept (c : Option (Checkout String (List Char))) (t u : List (Label machine)) (m : Machine) :
    Prop :=
  ∃ since, u = t ++ since ∧ (gitTasks since = [] → m.store.checkout = c)

variable {c : Option (Checkout String (List Char))} {u : List (Label machine)}

theorem Kept.step (h : Kept c t u m) {l : Label machine}
    (hl : gitTask l = none → m'.store.checkout = m.store.checkout) : Kept c t (u ++ [l]) m' := by
  obtain ⟨since, rfl, hkept⟩ := h
  refine ⟨since ++ [l], List.append_assoc .., fun hnone => ?_⟩
  obtain ⟨hsince, hlast⟩ := List.append_eq_nil_iff.mp ((List.filterMap_append ..).symm.trans hnone)
  have hgit : gitTask l = none := by
    cases hgit : gitTask l with
    | none => rfl
    | some i =>
      rw [List.filterMap_cons_some hgit] at hlast
      cases hlast
  exact (hl hgit).trans (hkept hsince)

theorem rules (c : Option (Checkout String (List Char))) (t : List (Label machine)) :
    Rules locking (fun _ _ => True) Mode.waiting (fun p _ => Operation p) (fun m _ _ => m) Awaited
      Elsewhere fun u mode record m => Table u mode record m ∧ Kept c t u m where
  steady _ _ _ _ hop := hop
  act _ _ _ _ _ _ _ _ _ hact := hact.elim
  start u mode record i m p _ h hrest hspawn := by
    refine ⟨.waiting, locking_operation hspawn, ?_, h.2.step fun _ => rfl⟩
    rw [← hrest, Function.update_eq_self]
    exact h.1.same rfl (.refl _)
  answer u mode record i m op r m' h hrequest hawait := by
    refine ⟨_, rfl, trivial, h.1.answer hrequest hawait, h.2.step fun hl => ?_⟩
    rw [awaited_store hawait fun hop => ?_]
    cases op with
    | git op => cases hl
    | _ => exact hop.elim
  outside u mode record m m' h helsewhere := by
    obtain ⟨remote, rfl⟩ := helsewhere
    exact ⟨h.1.same rfl ⟨rfl, rfl⟩, h.2.step fun _ => rfl⟩

abbrev Ruled (t : List (Label machine)) (P : Operations) (mode : ℕ → Mode) : Prop :=
  Governed locking (fun _ _ => True) Mode.waiting Table t P mode

theorem Ruled.inside {P : Operations} (h : Ruled t P mode) (hi : AtGit P i) :
    ∃ file, mode i = .inside file := by
  obtain ⟨op, k, htask⟩ := hi
  exact h.requests htask

/-- What a run adds to another, with what it keeps of the checkout. -/
theorem Ruled.run {P P' : Operations} (h : Ruled t P mode) (hrun : Run MachineStep P u P') :
    ∃ mode', Ruled (t ++ u) P' mode' ∧
      (gitTasks u = [] → P'.state.store.checkout = P.state.store.checkout) := by
  have hstart : Kept P.state.store.checkout t t P.state :=
    ⟨[], (List.append_nil t).symm, fun _ => rfl⟩
  obtain ⟨mode', hmode'⟩ := governed_run (rules P.state.store.checkout t)
    ⟨mode, h.obeys, h.unstarted, h.table, hstart⟩ hrun
  refine ⟨mode', ⟨hmode'.obeys, hmode'.unstarted, hmode'.table.1⟩, ?_⟩
  obtain ⟨since, heq, hkept⟩ := hmode'.table.2
  rw [List.append_cancel_left heq]
  exact hkept

theorem ruled_initial : Ruled [] (Pool.initial m ()) fun _ => .waiting :=
  governed_initial ⟨fun _ _ hi => (by cases hi), fun _ _ _ hi => (by cases hi),
    fun _ _ hi => (by cases hi), fun _ _ hi => (by cases hi), fun _ _ hi => (by cases hi),
    fun before _ _ heq => (by cases before <;> cases heq)⟩

/-- The operation that gave the last git command finds the checkout as it left it. -/
theorem Ruled.finds {P P' : Operations} (h : Ruled t P mode)
    (hlast : (gitTasks t).getLast? = some i) (hrun : Run MachineStep P u P')
    (hnone : i ∉ gitTasks u) (hi : AtGit P' i) :
    P'.state.store.checkout = P.state.store.checkout := by
  obtain ⟨mode', hmode', hkept⟩ := h.run hrun
  obtain ⟨file, hinside⟩ := hmode'.inside hi
  have happend : gitTasks (t ++ u) = gitTasks t ++ gitTasks u := List.filterMap_append ..
  have hmem : i ∈ gitTasks (t ++ u) := by
    rw [happend]
    exact List.mem_append_left _ (List.mem_of_getLast? hlast)
  have hmine := hmode'.table.last i file hinside hmem
  refine hkept (by_contra fun hne => hnone ?_)
  rw [happend, List.getLast?_append_of_ne_nil _ hne] at hmine
  exact List.mem_of_getLast? hmine

/-- However many operations run in however many processes, whatever calls fail: at most
one operation stands at a git command, no command of another operation comes between two
of its own, and it finds the checkout as its last command left it. -/
theorem operations_uninterrupted {t : List (Label machine)} {P : Operations}
    (hrun : Run MachineStep (Pool.initial m ()) t P) :
    (∀ i j, AtGit P i → AtGit P j → i = j) ∧ Uninterrupted (gitTasks t) ∧
      ∀ i u P', (gitTasks t).getLast? = some i → Run MachineStep P u P' → i ∉ gitTasks u →
        AtGit P' i → P'.state.store.checkout = P.state.store.checkout := by
  obtain ⟨mode, hmode, -⟩ := ruled_initial.run hrun
  refine ⟨fun i j hi hj => ?_, hmode.table.uninterrupted, fun i u P' hlast hrest hnone hi =>
    hmode.finds hlast hrest hnone hi⟩
  obtain ⟨file, hi⟩ := hmode.inside hi
  obtain ⟨other, hj⟩ := hmode.inside hj
  exact hmode.table.sole hi hj

def idle : Machine := ⟨⟨none, []⟩, fun _ => none, none, []⟩

/-- An operation of the first process is at a git command; one of the second has begun. -/
theorem operations_uninterrupted_twoProcesses : ∃ t P,
    Run MachineStep (Pool.initial idle ()) t P ∧ AtGit P 0 ∧ ∀ j, AtGit P j → 0 = j := by
  let config : Config := ⟨"main", fun _ => true⟩
  let waiting : Machine := idle.setThreadLock 0 (some ⟨0, 0⟩)
  let opened : Machine := { waiting with opened := [0] }
  let locked : Machine := { opened with fileLock := some 0 }
  have hstart : Run MachineStep (Pool.initial idle ()) [] (Pool.initial idle ()) := .start
  have hfirst := Run.next hstart (.start (i := 0) (m := ()) rfl
    (.rebuildIndex ⟨0, 0⟩ config true))
  have hsecond := Run.next hfirst (.start (i := 1) (m := ()) rfl
    (.rebuildIndex ⟨1, 0⟩ config true))
  have hacquired : Awaited idle (.acquireThreadLock ⟨0, 0⟩) (.ok ()) waiting := .inl ⟨rfl, rfl⟩
  have hthread := Run.next hsecond (.resume (i := 0) rfl hacquired)
  have hmade : Awaited waiting .makeParent (.ok ()) waiting := rfl
  have hparent := Run.next hthread (.resume (i := 0) rfl hmade)
  have hopened : Awaited waiting .openLockFile (.ok 0) opened := ⟨List.not_mem_nil, rfl⟩
  have hopen := Run.next hparent (.resume (i := 0) rfl hopened)
  have hwrapped : Awaited opened (.fdopen 0) (.ok ()) opened := rfl
  have hfile := Run.next hopen (.resume (i := 0) rfl hwrapped)
  have hgiven : Awaited opened (.flock 0) (.ok ()) locked := ⟨.inl rfl, rfl⟩
  have hlocked := Run.next hfile (.resume (i := 0) rfl hgiven)
  refine ⟨_, _, hlocked, ⟨.clone, _, rfl⟩, fun j hj => ?_⟩
  exact (operations_uninterrupted hlocked).1 0 j ⟨.clone, _, rfl⟩ hj

end Exclusion

end FailureResolver.CheckoutLock
