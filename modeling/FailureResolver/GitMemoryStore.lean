import FailureResolver.GitHistory
import FailureResolver.MemoryIndex
import FailureResolver.Program

/-!
The memory store over a git checkout. Every operation runs under two locks, so
the only other actors are the git commands themselves: each of them may fail, and
one that fails may have done its work before. The process may also stop at any of
them.
-/

namespace FailureResolver.GitMemoryStore

open GitHistory Program PyException JsonValue ResolutionMemory MemoryMarkdown MemoryIndex

abbrev Texts := Tree String (List Char)
abbrev Store := Repository String (List Char)
abbrev Sha := History String (List Char)

def memoriesDirectory : String := "memories"

def memoryPath (resolutionId : String) : String := memoriesDirectory ++ "/" ++ resolutionId ++ ".md"

section Operations

inductive GitOp
  | clone
  | insideWorkTree
  | currentBranch
  | originUrl
  | pull
  | safePath (path : String)
  | replaceFile (path : String) (text : List Char)
  | add (path : String)
  | diffCached (path : String)
  | commitOnly (path message : String)
  | revParseHead
  | push
  | listMemories
  | logLatest (path : String)

abbrev GitOp.Reply : GitOp → Type
  | .insideWorkTree => String
  | .currentBranch => String
  | .originUrl => String
  | .diffCached _ => Bool
  | .revParseHead => Sha
  | .listMemories => Files
  | .logLatest _ => Option Sha
  | _ => Unit

abbrev git : Interface where
  State := Store
  Op := GitOp
  Reply := GitOp.Reply
  Exc := PyExc

/-- The newest commit whose file at the path differs from that of its parent. -/
def LatestCommit (path : String) : Sha → Option Sha → Prop
  | [], found => found = none
  | commit :: rest, found =>
      (commit.tree path ≠ headTree rest path ∧ found = some (commit :: rest)) ∨
        (commit.tree path = headTree rest path ∧ LatestCommit path rest found)

def CheckoutStep (c : Checkout String (List Char)) (remote : Sha) :
    (op : GitOp) → op.Reply → Checkout String (List Char) → Prop
  | .clone, _, _ => False
  | .pull, _, c' => Pulls c remote c'
  | .replaceFile path text, _, c' => c' = c.write path text
  | .add path, _, c' => c' = c.add path
  | .diffCached path, changed, c' => c' = c ∧ (changed = true ↔ c.Staged path)
  | .commitOnly path message, _, c' =>
      c.worktree path ≠ headTree c.history path ∧ c' = c.commitOnly path message
  | .revParseHead, sha, c' => c' = c ∧ sha = c.history
  | .push, _, c' => c' = c ∧ remote <:+ c.history
  | .listMemories, files, c' => c' = c ∧ (stems files).Nodup ∧
      ∀ stem, files.lookup stem = c.worktree (memoryPath stem)
  | .logLatest path, found, c' => c' = c ∧ LatestCommit path c.history found
  | _, _, c' => c' = c

def Succeeds (s : Store) (op : GitOp) (reply : op.Reply) (s' : Store) : Prop :=
  match op with
  | .clone => s.checkout = none ∧ s' = ⟨some (GitHistory.clone s.remote), s.remote⟩
  | .push => ∃ c, s.checkout = some c ∧ CheckoutStep c s.remote .push () c ∧
      s' = ⟨some c, c.history⟩
  | op => ∃ c c', s.checkout = some c ∧ CheckoutStep c s.remote op reply c' ∧
      s' = ⟨some c', s.remote⟩

/-- All a command can do to a checkout. -/
theorem checkoutStep_cases {c c' : Checkout String (List Char)} {remote : Sha} {op : GitOp}
    {reply : op.Reply} (h : CheckoutStep c remote op reply c') :
    c' = c ∨ (op = .pull ∧ Pulls c remote c') ∨
      (∃ path text, op = .replaceFile path text ∧ c' = c.write path text) ∨
      (∃ path, op = .add path ∧ c' = c.add path) ∨
      ∃ path message, op = .commitOnly path message ∧
        c.worktree path ≠ headTree c.history path ∧ c' = c.commitOnly path message := by
  cases op with
  | clone => exact h.elim
  | pull => exact .inr (.inl ⟨rfl, h⟩)
  | replaceFile path text => exact .inr (.inr (.inl ⟨path, text, rfl, h⟩))
  | add path => exact .inr (.inr (.inr (.inl ⟨path, rfl, h⟩)))
  | commitOnly path message => exact .inr (.inr (.inr (.inr ⟨path, message, rfl, h.1, h.2⟩)))
  | diffCached path => exact .inl h.1
  | revParseHead => exact .inl h.1
  | push => exact .inl h.1
  | listMemories => exact .inl h.1
  | logLatest path => exact .inl h.1
  | _ => exact .inl h

/-- All a command can do to the repository. -/
theorem succeeds_cases {s s' : Store} {op : GitOp} {reply : op.Reply}
    (h : Succeeds s op reply s') :
    (s.checkout = none ∧ s' = ⟨some (GitHistory.clone s.remote), s.remote⟩) ∨
      (∃ c, s.checkout = some c ∧ s.remote <:+ c.history ∧ s' = ⟨some c, c.history⟩) ∨
      ∃ c c', s.checkout = some c ∧ CheckoutStep c s.remote op reply c' ∧
        s' = ⟨some c', s.remote⟩ := by
  cases op with
  | clone => exact .inl h
  | push =>
    obtain ⟨c, hc, ⟨-, hahead⟩, hs'⟩ := h
    exact .inr (.inl ⟨c, hc, hahead, hs'⟩)
  | _ => exact .inr (.inr h)

/-- A command succeeds, or fails before or after it had its effect. -/
def gitEnvironment : Environment git := fun s op r s' =>
  match r with
  | .ok reply => Succeeds s op reply s'
  | .error _ => s' = s ∨ ∃ reply, Succeeds s op reply s'

end Operations

section Store

structure Config where
  branch : String
  sameOrigin : String → Bool

def configurationError (message : String) : PyExc := gitMemoryError message

def raiseIf (condition : Bool) (e : PyExc) : Prog git Unit :=
  if condition then .raise e else .ret ()

abbrev command (op : GitOp) : Prog git op.Reply := Prog.call (σ := git) op

def cloneIfMissing : Prog git Unit := do
  let store ← Prog.observe
  if store.checkout.isNone then command .clone else .ret ()

def ensureCheckout (config : Config) : Prog git Unit := do
  cloneIfMissing
  let inside : String ← command .insideWorkTree
  raiseIf (decide (inside ≠ "true")) (configurationError "Repository root is not a Git worktree")
  let branch : String ← command .currentBranch
  raiseIf (decide (branch ≠ config.branch))
    (configurationError "Checkout is on a different branch")
  let origin : String ← command .originUrl
  raiseIf (!config.sameOrigin origin)
    (configurationError "Checkout origin does not match configured repository")

structure MemoryWriteResult where
  resolutionId : String
  relativePath : String
  changed : Bool
  commitSha : Option Sha

def kindText : MemoryKind → String
  | .positive => "positive"
  | .negative => "negative"

def commitMessage (draft : DraftFields) : String :=
  let failureId := draft.source.failureId.getD "none"
  s!"Record resolution memory {draft.source.resolutionId}\n\n" ++
    "Agent: failure-resolver\n" ++ s!"Source-Table: {sourceTable}\n" ++
    s!"Source-Hash: {draft.source.sourceHash}\n" ++
    s!"Memory-Kind: {kindText draft.memoryKind}\n" ++
    s!"Resolution-ID: {draft.source.resolutionId}\n" ++
    s!"Failure-ID: {failureId}\n"

def readTarget (store : Store) (path : String) : Option (List Char) :=
  (store.checkout.bind fun c => c.worktree path).map universalNewlines

/-- Replace the file unless it already reads as the content. -/
def placeContent (path : String) (content : List Char) : Prog git Unit := do
  let store ← Prog.observe
  if readTarget store path ≠ some content then command (.replaceFile path content)
  else .ret ()

/-- Commit a staged change and read the name of the commit. -/
def commitIf (changed : Bool) (path message : String) : Prog git (Option Sha) :=
  if changed then do
    command (.commitOnly path message)
    let sha : Sha ← command .revParseHead
    return some sha
  else .ret none

def writeMemory (config : Config) (strOf : Json → String) (draft : DraftFields) :
    Prog git MemoryWriteResult := do
  let path := memoryPath draft.source.resolutionId
  ensureCheckout config
  command .pull
  command (.safePath path)
  placeContent path (renderMemory strOf draft)
  command (.add path)
  let changed : Bool ← command (.diffCached path)
  let commitSha ← commitIf changed path (commitMessage draft)
  command .push
  return { resolutionId := draft.source.resolutionId, relativePath := path, changed, commitSha }

def pullIf (refresh : Bool) : Prog git Unit := if refresh then command .pull else .ret ()

def rebuildIndex (config : Config) (refresh : Bool) : Prog git Index := do
  ensureCheckout config
  pullIf refresh
  let files ← command .listMemories
  Prog.settle (scanMemories files)

/-- Push before the name of the latest commit is handed out. -/
def latestMemoryCommit (config : Config) (resolutionId : String) (refresh : Bool) :
    Prog git (Option Sha) := do
  let path := memoryPath resolutionId
  ensureCheckout config
  pullIf refresh
  command (.safePath path)
  let store ← Prog.observe
  if (readTarget store path).isNone then return none
  else
    command .push
    command (.logLatest path)

end Store

end FailureResolver.GitMemoryStore
