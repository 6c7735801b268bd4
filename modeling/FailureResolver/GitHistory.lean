import Mathlib.Data.List.Infix
import Mathlib.Logic.Function.Basic

/-!
A version-controlled directory next to one remote branch. A checkout has a
working tree, an index of what the next commit would contain, and the history of
its branch. A commit of one path leaves everything else of the index and of the
last commit as it was; a pull only moves a branch forward along its history, and
so does a push.
-/

namespace FailureResolver.GitHistory

variable {P T : Type}

abbrev Tree (P T : Type) := P → Option T

structure Commit (P T : Type) where
  tree : Tree P T
  message : String

/-- A commit with all its ancestors, the newest first; it names the commit. -/
abbrev History (P T : Type) := List (Commit P T)

def headTree : History P T → Tree P T
  | [] => fun _ => none
  | commit :: _ => commit.tree

structure Checkout (P T : Type) where
  history : History P T
  index : Tree P T
  worktree : Tree P T

structure Repository (P T : Type) where
  checkout : Option (Checkout P T)
  remote : History P T

def clone (remote : History P T) : Checkout P T := ⟨remote, headTree remote, headTree remote⟩

namespace Checkout

variable [DecidableEq P] (c : Checkout P T) (path : P)

def write (text : T) : Checkout P T :=
  { c with worktree := Function.update c.worktree path (some text) }

def add : Checkout P T := { c with index := Function.update c.index path (c.worktree path) }

/-- `git diff --cached -- path` shows a difference. -/
def Staged (c : Checkout P T) (path : P) : Prop := c.index path ≠ headTree c.history path

/-- `git commit --only -- path`: the last commit with this path from the working
tree, and the path staged as it was committed. -/
def commitOnly (message : String) : Checkout P T where
  history := ⟨Function.update (headTree c.history) path (c.worktree path), message⟩ :: c.history
  index := Function.update c.index path (c.worktree path)
  worktree := c.worktree

end Checkout

/-- `git pull --ff-only`: nothing to do when the remote head is an ancestor, a
move along the remote history when the local head is one and no file that
changes was touched, and an error otherwise. -/
inductive Pulls (c : Checkout P T) (remote : History P T) : Checkout P T → Prop
  | upToDate (h : remote <:+ c.history) : Pulls c remote c
  | fastForward (c' : Checkout P T) (hbehind : ¬ remote <:+ c.history)
      (h : c.history <:+ remote) (hhead : c'.history = remote)
      (hchanged : ∀ path, headTree remote path ≠ headTree c.history path →
        c.index path = headTree c.history path ∧ c.worktree path = c.index path ∧
          c'.index path = headTree remote path ∧ c'.worktree path = headTree remote path)
      (hkept : ∀ path, headTree remote path = headTree c.history path →
        c'.index path = c.index path ∧ c'.worktree path = c.worktree path) : Pulls c remote c'

/-- A remote head that is an ancestor is not moved to. -/
theorem Pulls.eq_of_ancestor {c c' : Checkout P T} {remote : History P T}
    (h : Pulls c remote c') (hancestor : remote <:+ c.history) : c' = c := by
  cases h with
  | upToDate => rfl
  | fastForward _ hbehind => exact absurd hancestor hbehind

section Frame

variable [DecidableEq P] {c : Checkout P T} {path other : P} {text : T} {message : String}

theorem worktree_write : (c.write path text).worktree path = some text :=
  Function.update_self path _ _

theorem worktree_write_other (h : other ≠ path) :
    (c.write path text).worktree other = c.worktree other :=
  Function.update_of_ne h _ _

theorem index_add : (c.add path).index path = c.worktree path := Function.update_self path _ _

theorem index_add_other (h : other ≠ path) : (c.add path).index other = c.index other :=
  Function.update_of_ne h _ _

theorem headTree_commitOnly :
    headTree (c.commitOnly path message).history path = c.worktree path :=
  Function.update_self path _ _

theorem headTree_commitOnly_other (h : other ≠ path) :
    headTree (c.commitOnly path message).history other = headTree c.history other :=
  Function.update_of_ne h _ _

theorem index_commitOnly : (c.commitOnly path message).index path = c.worktree path :=
  Function.update_self path _ _

theorem index_commitOnly_other (h : other ≠ path) :
    (c.commitOnly path message).index other = c.index other :=
  Function.update_of_ne h _ _

end Frame

end FailureResolver.GitHistory
