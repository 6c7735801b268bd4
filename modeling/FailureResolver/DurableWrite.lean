import FailureResolver.GitMemoryStore
import FailureResolver.Interruption

/-!
A write of the memory store, from every state that earlier operations can leave,
cut at any git step. Earlier operations leave a local branch that is at or ahead
of the remote one and memory files that read as they are; from such a state a
write that returns has put exactly its text on the remote branch, in at most one
commit of at most one path.
-/

namespace FailureResolver.DurableWrite

open GitHistory Program PyException JsonValue ResolutionMemory MemoryMarkdown MemorySections
open MemoryIndex GitMemoryStore

section Invariant

/-- The memory files of a tree have the line ends of a reader in text mode. -/
def Readable (tree : Texts) : Prop :=
  ∀ id text, tree (memoryPath id) = some text → universalNewlines text = text

/-- The local branch is not behind the remote one, and memory files read as they
are; without a checkout, those of the remote branch do. -/
def Settled (s : Store) : Prop :=
  match s.checkout with
  | none => Readable (headTree s.remote)
  | some c => s.remote <:+ c.history ∧ Readable c.worktree

/-- A file replacement writes a text with such line ends. -/
def WritesReadable : GitOp → Prop
  | .replaceFile _ text => universalNewlines text = text
  | _ => True

theorem settled_some {c : Checkout String (List Char)} {remote : Sha} :
    Settled ⟨some c, remote⟩ ↔ remote <:+ c.history ∧ Readable c.worktree := Iff.rfl

theorem readable_update {tree : Texts} (h : Readable tree) {path : String} {text : List Char}
    (htext : universalNewlines text = text) : Readable (Function.update tree path (some text)) := by
  intro id other hother
  by_cases hid : memoryPath id = path
  · rw [hid, Function.update_self, Option.some.injEq] at hother
    rw [← hother]
    exact htext
  · rw [Function.update_of_ne hid] at hother
    exact h id other hother

/-- A command keeps the checkout ahead of the remote branch and its files readable. -/
theorem checkoutStep_keeps {c c' : Checkout String (List Char)} {remote : Sha} {op : GitOp}
    {reply : op.Reply} (hop : WritesReadable op) (hahead : remote <:+ c.history)
    (hreadable : Readable c.worktree) (h : CheckoutStep c remote op reply c') :
    remote <:+ c'.history ∧ Readable c'.worktree := by
  rcases checkoutStep_cases h with rfl | ⟨-, hpulls⟩ | ⟨path, text, rfl, rfl⟩ | ⟨path, -, rfl⟩ |
    ⟨path, message, -, -, rfl⟩
  · exact ⟨hahead, hreadable⟩
  · rw [Pulls.eq_of_ancestor hpulls hahead]
    exact ⟨hahead, hreadable⟩
  · exact ⟨hahead, readable_update hreadable hop⟩
  · exact ⟨hahead, hreadable⟩
  · exact ⟨hahead.trans (List.suffix_cons _ _), hreadable⟩

theorem succeeds_keeps {s s' : Store} {op : GitOp} {reply : op.Reply} (hop : WritesReadable op)
    (hs : Settled s) (h : Succeeds s op reply s') : Settled s' := by
  obtain ⟨checkout, remote⟩ := s
  rcases succeeds_cases h with ⟨hnone, rfl⟩ | ⟨c, hc, -, rfl⟩ | ⟨c, c', hc, hstep, rfl⟩
  · dsimp only at hnone
    subst hnone
    exact ⟨List.suffix_refl remote, hs⟩
  · dsimp only at hc
    subst hc
    exact ⟨List.suffix_refl c.history, hs.2⟩
  · dsimp only at hc
    subst hc
    obtain ⟨hahead, hreadable⟩ := hs
    exact checkoutStep_keeps hop hahead hreadable hstep

/-- Whether a command succeeds or fails, before or after its effect. -/
theorem step_keeps {s s' : Store} {op : GitOp} {r : Except PyExc op.Reply}
    (hop : WritesReadable op) (hs : Settled s) (h : gitEnvironment s op r s') : Settled s' := by
  cases r with
  | ok reply => exact succeeds_keeps hop hs h
  | error e =>
    rcases h with rfl | ⟨reply, h⟩
    · exact hs
    · exact succeeds_keeps hop hs h

end Invariant

section Asks

variable {config : Config} {strOf : Json → String} {P : GitOp → Prop}

def ReadsOnly : GitOp → Prop
  | .replaceFile .. => False
  | .add _ => False
  | .commitOnly .. => False
  | _ => True

/-- Of all files it touches this one, and puts this text in it. -/
def WritesOnly (path : String) (content : List Char) : GitOp → Prop
  | .replaceFile other text => other = path ∧ text = content
  | .add other => other = path
  | .commitOnly other _ => other = path
  | _ => True

theorem writesOnly_of_readsOnly {path : String} {content : List Char} {op : GitOp}
    (h : ReadsOnly op) : WritesOnly path content op := by
  cases op with
  | replaceFile other text => exact h.elim
  | add other => exact h.elim
  | commitOnly other message => exact h.elim
  | _ => trivial

theorem asks_raiseIf {condition : Bool} {e : PyExc} : (raiseIf condition e).Asks P := by
  cases condition <;> trivial

theorem asks_ensureCheckout (h : ∀ op, ReadsOnly op → P op) : (ensureCheckout config).Asks P := by
  refine .bind (.bind .observe fun store => .ite (.call (h _ trivial)) (.ret _)) fun _ => ?_
  refine .bind (.call (h _ trivial)) fun inside => .bind asks_raiseIf fun _ => ?_
  refine .bind (.call (h _ trivial)) fun branch => .bind asks_raiseIf fun _ => ?_
  exact .bind (.call (h _ trivial)) fun origin => asks_raiseIf

theorem asks_pullIf {refresh : Bool} (h : ∀ op, ReadsOnly op → P op) :
    (pullIf refresh).Asks P := by
  cases refresh
  · trivial
  · exact .call (h _ trivial)

/-- A write touches the file of its draft and nothing else. -/
theorem asks_writeMemory (draft : DraftFields)
    (h : ∀ op, WritesOnly (memoryPath draft.source.resolutionId) (renderMemory strOf draft) op →
      P op) : (writeMemory config strOf draft).Asks P := by
  refine .bind (asks_ensureCheckout fun op hop => h op (writesOnly_of_readsOnly hop)) fun _ => ?_
  refine .bind (.call (h _ trivial)) fun _ => .bind (.call (h _ trivial)) fun _ => ?_
  refine .bind ?_ fun _ => .bind (.call (h _ rfl)) fun _ => ?_
  · exact .bind .observe fun store => .ite (.call (h _ ⟨rfl, rfl⟩)) (.ret _)
  · refine .bind (.call (h _ trivial)) fun changed => .bind ?_ fun _ => ?_
    · cases changed
      · trivial
      · exact .bind (.call (h _ rfl)) fun _ => .bind (.call (h _ trivial)) fun _ => trivial
    · exact .bind (.call (h _ trivial)) fun _ => trivial

theorem asks_rebuildIndex {refresh : Bool} (h : ∀ op, ReadsOnly op → P op) :
    (rebuildIndex config refresh).Asks P := by
  refine .bind (asks_ensureCheckout h) fun _ => .bind (asks_pullIf h) fun _ => ?_
  exact .bind (.call (h _ trivial)) fun files => .settle _

theorem asks_latestMemoryCommit {id : String} {refresh : Bool} (h : ∀ op, ReadsOnly op → P op) :
    (latestMemoryCommit config id refresh).Asks P := by
  refine .bind (asks_ensureCheckout h) fun _ => .bind (asks_pullIf h) fun _ => ?_
  refine .bind (.call (h _ trivial)) fun _ => .bind .observe fun store => .ite (.ret _) ?_
  exact .bind (.call (h _ trivial)) fun _ => .call (h _ trivial)

theorem writesReadable_of_writesOnly (draft : MemoryDraft) (op : GitOp)
    (h : WritesOnly (memoryPath draft.source.resolutionId)
      (renderMemory strOf draft.toDraftFields) op) : WritesReadable op := by
  cases op with
  | replaceFile path text =>
    obtain ⟨-, rfl⟩ := h
    exact universalNewlines_renderMemory strOf draft.genuine
  | _ => trivial

theorem writesReadable_of_readsOnly (op : GitOp) (h : ReadsOnly op) : WritesReadable op := by
  cases op with
  | replaceFile path text => exact h.elim
  | _ => trivial

end Asks

section Runs

variable {config : Config} {strOf : Json → String}

/-- The states that store operations leave, each of them cut anywhere, while
other files are edited and staged beside them. A branch starts with documents
that stores have written. -/
inductive Reachable (config : Config) (strOf : Json → String) : Store → Prop
  | start {remote : Sha} (h : ∀ id text, headTree remote (memoryPath id) = some text →
      ∃ draft : MemoryDraft, text = renderMemory strOf draft.toDraftFields) :
      Reachable config strOf ⟨none, remote⟩
  | write {s s' : Store} (draft : MemoryDraft) (hs : Reachable config strOf s)
      (h : Leaves gitEnvironment (writeMemory config strOf draft.toDraftFields) s s') :
      Reachable config strOf s'
  | rebuild {s s' : Store} {refresh : Bool} (hs : Reachable config strOf s)
      (h : Leaves gitEnvironment (rebuildIndex config refresh) s s') : Reachable config strOf s'
  | latest {s s' : Store} {id : String} {refresh : Bool} (hs : Reachable config strOf s)
      (h : Leaves gitEnvironment (latestMemoryCommit config id refresh) s s') :
      Reachable config strOf s'
  | edit {c c' : Checkout String (List Char)} {remote : Sha}
      (hs : Reachable config strOf ⟨some c, remote⟩) (hhistory : c'.history = c.history)
      (hmemories : ∀ id, c'.worktree (memoryPath id) = c.worktree (memoryPath id)) :
      Reachable config strOf ⟨some c', remote⟩

/-- Every reachable state is settled. -/
theorem reachable_settled {s : Store} (h : Reachable config strOf s) : Settled s := by
  induction h with
  | start h =>
    intro id text htext
    obtain ⟨draft, rfl⟩ := h id text htext
    exact universalNewlines_renderMemory strOf draft.genuine
  | write draft _ h ih =>
    exact h.keep (asks_writeMemory draft.toDraftFields (writesReadable_of_writesOnly draft))
      (fun _ _ _ _ hop hs hstep => step_keeps hop hs hstep) ih
  | rebuild _ h ih =>
    exact h.keep (asks_rebuildIndex writesReadable_of_readsOnly)
      (fun _ _ _ _ hop hs hstep => step_keeps hop hs hstep) ih
  | latest _ h ih =>
    exact h.keep (asks_latestMemoryCommit writesReadable_of_readsOnly)
      (fun _ _ _ _ hop hs hstep => step_keeps hop hs hstep) ih
  | edit _ hhistory hmemories ih =>
    obtain ⟨hahead, hreadable⟩ := settled_some.mp ih
    refine settled_some.mpr ⟨hhistory ▸ hahead, fun id text htext => ?_⟩
    rw [hmemories] at htext
    exact hreadable id text htext

end Runs

/-- The checkout an operation works in: the one at hand, or a fresh one. -/
def localCheckout (s : Store) : Checkout String (List Char) :=
  s.checkout.getD (GitHistory.clone s.remote)

section Progress

variable {env : Environment git} {config : Config} {strOf : Json → String} {origin : String}
variable {s s' : Store} {path : String} {content : List Char} {message : String}
variable {c : Checkout String (List Char)} {remote : Sha}

def CommitsAhead (s : Store) (op : GitOp) : Prop := ∀ c, s.checkout = some c →
  ∀ path message, op = .commitOnly path message → s.remote <:+ c.history

/-- The environment admits what git does while nobody else pushes. -/
def Quiet (env : Environment git) : Prop :=
  ∀ s op r s', CommitsAhead s op → gitEnvironment s op r s' → env s op r s'

theorem quiet_git : Quiet gitEnvironment := fun _ _ _ _ _ h => h

theorem may_command (hquiet : Quiet env) {op : GitOp} {reply : op.Reply}
    (hop : ∀ path message, op ≠ .commitOnly path message) (h : Succeeds s op reply s') :
    May env (command op) s (.returned reply s') := by
  apply may_call
  apply hquiet
  · intro c _ path message heq
    exact absurd heq (hop path message)
  · exact h

theorem may_pass {condition : Bool} {e : PyExc} (h : condition = false) :
    May env (raiseIf condition e) s (.returned () s) := by
  rw [h]
  exact may_ret

theorem may_ensureCheckout (hquiet : Quiet env) (horigin : config.sameOrigin origin = true)
    (s : Store) :
    May env (ensureCheckout config) s (.returned () ⟨some (localCheckout s), s.remote⟩) := by
  have hclone : May env cloneIfMissing s (.returned () ⟨some (localCheckout s), s.remote⟩) := by
    refine .bind may_observe ?_
    unfold localCheckout
    cases hcheckout : s.checkout with
    | none =>
      rw [if_pos (by rfl)]
      exact may_command hquiet (by simp) ⟨hcheckout, rfl⟩
    | some c =>
      rw [if_neg (by simp), Option.getD_some, ← hcheckout]
      exact may_ret
  generalize localCheckout s = c at hclone ⊢
  refine hclone.bind ?_
  have hinside : Succeeds ⟨some c, s.remote⟩ .insideWorkTree "true" ⟨some c, s.remote⟩ :=
    ⟨c, c, rfl, rfl, rfl⟩
  refine (may_command hquiet (by simp) hinside).bind ?_
  refine (may_pass (by simp)).bind ?_
  have hbranch : Succeeds ⟨some c, s.remote⟩ .currentBranch config.branch ⟨some c, s.remote⟩ :=
    ⟨c, c, rfl, rfl, rfl⟩
  refine (may_command hquiet (by simp) hbranch).bind ?_
  refine (may_pass (by simp)).bind ?_
  have hurl : Succeeds ⟨some c, s.remote⟩ .originUrl origin ⟨some c, s.remote⟩ :=
    ⟨c, c, rfl, rfl, rfl⟩
  refine (may_command hquiet (by simp) hurl).bind ?_
  exact may_pass (by simp [horigin])

/-- The content comes into the working tree, and nothing else changes. -/
theorem may_placeContent {r : Sha} (hquiet : Quiet env) (path : String) (content : List Char) :
    ∃ c', c'.history = c.history ∧ c'.worktree path ≠ none ∧
      May env (placeContent path content) ⟨some c, r⟩ (.returned () ⟨some c', r⟩) := by
  by_cases hread : readTarget ⟨some c, r⟩ path = some content
  · refine ⟨c, rfl, ?_, .bind may_observe ?_⟩
    · intro hnone
      rw [readTarget, Option.bind_some, hnone] at hread
      cases hread
    · rw [if_neg (not_not.mpr hread)]
      exact may_ret
  · refine ⟨c.write path content, rfl, ?_, .bind may_observe ?_⟩
    · rw [worktree_write]
      exact Option.some_ne_none content
    · rw [if_pos hread]
      exact may_command hquiet (by simp) ⟨c, _, rfl, rfl, rfl⟩

/-- A staged file is committed, unless the last commit has it. -/
theorem may_commitIf (hquiet : Quiet env) (message : String) (hahead : remote <:+ c.history)
    (hindex : c.index path = c.worktree path) (hpresent : c.worktree path ≠ none) :
    ∃ c' changed sha, headTree c'.history path ≠ none ∧
      (c'.history = c.history ∨ ∃ commit, c'.history = commit :: c.history) ∧
      May env (command (.diffCached path)) ⟨some c, remote⟩
        (.returned changed ⟨some c, remote⟩) ∧
      May env (commitIf changed path message) ⟨some c, remote⟩
        (.returned sha ⟨some c', remote⟩) := by
  by_cases hstaged : c.Staged path
  · have hdiffers : c.worktree path ≠ headTree c.history path := hindex ▸ hstaged
    have hcommitted : Succeeds ⟨some c, remote⟩ (.commitOnly path message) ()
        ⟨some (c.commitOnly path message), remote⟩ := ⟨c, _, rfl, ⟨hdiffers, rfl⟩, rfl⟩
    refine ⟨c.commitOnly path message, true, some (c.commitOnly path message).history, ?_,
      .inr ⟨_, rfl⟩, ?_, ?_⟩
    · rw [headTree_commitOnly]
      exact hpresent
    · exact may_command hquiet (by simp)
        ⟨c, c, rfl, ⟨rfl, fun _ => hstaged, fun _ => rfl⟩, rfl⟩
    · unfold commitIf
      rw [if_pos rfl]
      have hcommit : env ⟨some c, remote⟩ (.commitOnly path message) (.ok ())
          ⟨some (c.commitOnly path message), remote⟩ := by
        apply hquiet
        · intro c₀ hc _ _ _
          cases hc
          exact hahead
        · exact hcommitted
      refine (may_call hcommit).bind ((may_command hquiet (by simp) ?_).bind may_ret)
      exact ⟨_, _, rfl, ⟨rfl, rfl⟩, rfl⟩
  · refine ⟨c, false, none, ?_, .inl rfl, ?_, ?_⟩
    · have hsame : c.index path = headTree c.history path := not_not.mp hstaged
      rw [← hsame, hindex]
      exact hpresent
    · exact may_command hquiet (by simp)
        ⟨c, c, rfl, ⟨rfl, fun h => absurd h Bool.false_ne_true, fun h => absurd h hstaged⟩, rfl⟩
    · unfold commitIf
      rw [if_neg Bool.false_ne_true]
      exact may_ret

/-- A write comes to its push with the file committed on a branch that has the remote head. -/
theorem may_writeMemory (hquiet : Quiet env) (horigin : config.sameOrigin origin = true)
    (strOf : Json → String) (draft : DraftFields) (hpull : Pulls (localCheckout s) s.remote c)
    (hahead : s.remote <:+ c.history) :
    ∃ c' result, headTree c'.history (memoryPath draft.source.resolutionId) ≠ none ∧
      (c'.history = c.history ∨ ∃ commit, c'.history = commit :: c.history) ∧
      ∀ o, May env ((command .push).bind fun _ => .ret result) ⟨some c', s.remote⟩ o →
        May env (writeMemory config strOf draft) s o := by
  generalize hpath : memoryPath draft.source.resolutionId = path
  obtain ⟨placed, hhistory, hpresent, hplace⟩ := may_placeContent (c := c) (r := s.remote) hquiet
    path (renderMemory strOf draft)
  have hindex : (placed.add path).index path = (placed.add path).worktree path := index_add
  obtain ⟨c', changed, sha, hhead, hgrown, hdiff, hcommit⟩ :=
    may_commitIf hquiet (commitMessage draft) (hhistory ▸ hahead) hindex hpresent
  have hpulled : Succeeds ⟨some (localCheckout s), s.remote⟩ .pull () ⟨some c, s.remote⟩ :=
    ⟨_, c, rfl, hpull, rfl⟩
  have hsafe : Succeeds ⟨some c, s.remote⟩ (.safePath path) () ⟨some c, s.remote⟩ :=
    ⟨c, c, rfl, rfl, rfl⟩
  have hadded : Succeeds ⟨some placed, s.remote⟩ (.add path) ()
      ⟨some (placed.add path), s.remote⟩ := ⟨placed, _, rfl, rfl, rfl⟩
  refine ⟨c', ⟨draft.source.resolutionId, path, changed, sha⟩, hhead, ?_, fun o hpush => ?_⟩
  · rw [← hhistory]
    exact hgrown
  · unfold GitMemoryStore.writeMemory
    rw [hpath]
    refine (may_ensureCheckout hquiet horigin s).bind ?_
    refine (may_command hquiet (by simp) hpulled).bind ?_
    refine (may_command hquiet (by simp) hsafe).bind (hplace.bind ?_)
    refine (may_command hquiet (by simp) hadded).bind (hdiff.bind (hcommit.bind ?_))
    exact hpush

/-- A write that can pull can come to its end. -/
theorem may_finish (horigin : config.sameOrigin origin = true) (draft : DraftFields)
    (hpull : Pulls (localCheckout s) s.remote c) (hahead : s.remote <:+ c.history) :
    ∃ result s', May gitEnvironment (writeMemory config strOf draft) s
      (.returned result s') := by
  obtain ⟨c', result, -, hgrown, hwrite⟩ :=
    may_writeMemory quiet_git horigin strOf draft hpull hahead
  have hahead' : s.remote <:+ c'.history := by
    rcases hgrown with hsame | ⟨commit, hnew⟩
    · rw [hsame]
      exact hahead
    · rw [hnew]
      exact hahead.trans (List.suffix_cons _ _)
  refine ⟨result, ⟨some c', c'.history⟩, hwrite _ ?_⟩
  have hpushed : Succeeds ⟨some c', s.remote⟩ .push () ⟨some c', c'.history⟩ :=
    ⟨c', rfl, ⟨rfl, hahead'⟩, rfl⟩
  exact (may_command quiet_git (by simp) hpushed).bind may_ret

end Progress

section Write

variable {config : Config} {strOf : Json → String} {P : GitOp → Prop}
  {c : Checkout String (List Char)} {remote : Sha} {path : String} {content : List Char}

def NoCommit : GitOp → Prop
  | .commitOnly _ _ => False
  | _ => True

theorem does_raiseIf {condition : Bool} {e : PyExc} {s : Store} :
    Ensures gitEnvironment (raiseIf condition e) s (Does P fun _ s' => s' = s) := by
  cases condition
  · exact does_ret rfl
  · exact does_raise

/-- A command that leaves the checkout as it is leaves everything as it is. -/
theorem look {s s' : Store}
    (h : ∃ c c', s.checkout = some c ∧ c' = c ∧ s' = ⟨some c', s.remote⟩) : s' = s := by
  obtain ⟨c, c', hc, rfl, rfl⟩ := h
  rw [← hc]

theorem does_ensureCheckout (hP : ∀ op, NoCommit op → P op) (s : Store) :
    Ensures gitEnvironment (ensureCheckout config) s
      (Does P fun _ s' => s' = ⟨some (localCheckout s), s.remote⟩) := by
  have hclone : Ensures gitEnvironment cloneIfMissing s
      (Does P fun _ s' => s' = ⟨some (localCheckout s), s.remote⟩) := by
    refine does_bind (does_observe (Q := fun (seen s' : Store) => seen = s ∧ s' = s) ⟨rfl, rfl⟩) ?_
    intro seen s' hseen
    rw [hseen.1, hseen.2]
    unfold localCheckout
    cases hcheckout : s.checkout with
    | none =>
      rw [if_pos (by rfl)]
      refine does_call (hP .clone trivial) fun reply s' hstep => ?_
      have hcloned : Succeeds s .clone reply s' := hstep
      exact hcloned.2
    | some c =>
      rw [if_neg (by simp)]
      refine does_ret ?_
      rw [Option.getD_some, ← hcheckout]
  refine does_bind hclone fun _ s' hs' => ?_
  subst hs'
  refine does_bind (does_call (hP .insideWorkTree trivial) fun _ _ h => look h) ?_
  intro inside s' hs'
  subst hs'
  refine does_bind does_raiseIf fun _ s' hs' => ?_
  subst hs'
  refine does_bind (does_call (hP .currentBranch trivial) fun _ _ h => look h) ?_
  intro branch s' hs'
  subst hs'
  refine does_bind does_raiseIf fun _ s' hs' => ?_
  subst hs'
  refine does_bind (does_call (hP .originUrl trivial) fun _ _ h => look h) ?_
  intro origin s' hs'
  subst hs'
  exact does_raiseIf

/-- After placing its content, only the file itself may differ. -/
theorem does_placeContent (hP : ∀ op, NoCommit op → P op) (hreadable : Readable c.worktree)
    (hpath : ∃ id, path = memoryPath id) :
    Ensures gitEnvironment (placeContent path content) ⟨some c, remote⟩
      (Does P fun _ s' => ∃ c', s' = ⟨some c', remote⟩ ∧ c'.history = c.history ∧
        c'.index = c.index ∧ c'.worktree path = some content) := by
  refine does_bind (does_observe (Q := fun (seen s' : Store) => seen = ⟨some c, remote⟩ ∧
    s' = ⟨some c, remote⟩) ⟨rfl, rfl⟩) ?_
  intro seen s' hseen
  rw [hseen.1, hseen.2]
  by_cases hread : readTarget ⟨some c, remote⟩ path = some content
  · rw [if_neg (not_not.mpr hread)]
    refine does_ret ⟨c, rfl, rfl, rfl, ?_⟩
    obtain ⟨id, rfl⟩ := hpath
    obtain ⟨text, htext, hsame⟩ := Option.map_eq_some_iff.mp hread
    rw [← hsame, hreadable id text htext]
    exact htext
  · rw [if_pos hread]
    refine does_call (hP (.replaceFile path content) trivial) fun reply s' hstep => ?_
    have hplaced : Succeeds ⟨some c, remote⟩ (.replaceFile path content) reply s' := hstep
    obtain ⟨c₀, c', hc, rfl, rfl⟩ := hplaced
    cases hc
    exact ⟨c.write path content, rfl, rfl, rfl, worktree_write⟩

/-- A pull finds nothing that the local branch does not have. -/
theorem does_pull (hop : P .pull) (hahead : remote <:+ c.history) :
    Ensures gitEnvironment (command .pull) ⟨some c, remote⟩
      (Does P fun _ s' => s' = ⟨some c, remote⟩) := by
  refine does_call hop fun reply s' hstep => ?_
  have hpulled : Succeeds ⟨some c, remote⟩ .pull reply s' := hstep
  obtain ⟨c₀, c', hc, hpulls, rfl⟩ := hpulled
  cases hc
  rw [Pulls.eq_of_ancestor hpulls hahead]

theorem does_add (hop : P (.add path)) :
    Ensures gitEnvironment (command (.add path)) ⟨some c, remote⟩
      (Does P fun _ s' => s' = ⟨some (c.add path), remote⟩) := by
  refine does_call hop fun reply s' hstep => ?_
  have hadded : Succeeds ⟨some c, remote⟩ (.add path) reply s' := hstep
  obtain ⟨c₀, c', hc, rfl, rfl⟩ := hadded
  cases hc
  rfl

theorem does_diffCached (hop : P (.diffCached path)) :
    Ensures gitEnvironment (command (.diffCached path)) ⟨some c, remote⟩
      (Does P fun (changed : Bool) s' => s' = ⟨some c, remote⟩ ∧
        (changed = true ↔ c.Staged path)) := by
  refine does_call hop fun changed s' hstep => ?_
  have hseen : Succeeds ⟨some c, remote⟩ (.diffCached path) changed s' := hstep
  obtain ⟨c₀, c', hc, ⟨rfl, hchanged⟩, rfl⟩ := hseen
  cases hc
  exact ⟨rfl, hchanged⟩

/-- A push that succeeds has put the local branch on the remote one. -/
theorem does_push (hop : P .push) :
    Ensures gitEnvironment (command .push) ⟨some c, remote⟩
      (Does P fun _ s' => s' = ⟨some c, c.history⟩) := by
  refine does_call hop fun reply s' hstep => ?_
  have hpushed : Succeeds ⟨some c, remote⟩ .push reply s' := hstep
  obtain ⟨c', hc, -, rfl⟩ := hpushed
  cases hc
  rfl

/-- What a write that returns has done, from one checkout to the next. -/
structure Durable (path : String) (content : List Char)
    (before after : Checkout String (List Char)) (remote : Sha) (result : MemoryWriteResult) :
    Prop where
  durable : headTree remote path = some content
  grown : after.history = before.history ∨ ∃ commit, after.history = commit :: before.history ∧
    ∀ other, other ≠ path → commit.tree other = headTree before.history other
  staged : ∀ other, other ≠ path → after.index other = before.index other
  uncommitted : ∀ other, other ≠ path →
    headTree after.history other = headTree before.history other
  changed : result.changed = true ↔ after.history ≠ before.history

/-- The file is committed, staged and placed with the content, and pushed. -/
structure Clean (path : String) (content : List Char) (s : Store)
    (c : Checkout String (List Char)) : Prop where
  checkout : s = ⟨some c, c.history⟩
  worktree : c.worktree path = some content
  index : c.index path = some content
  head : headTree c.history path = some content

/-- The file has been committed with this content, unless the last commit has it. -/
structure Committed (path : String) (content : List Char)
    (before after : Checkout String (List Char)) (changed : Bool) : Prop where
  worktree : after.worktree path = some content
  index : after.index path = some content
  head : headTree after.history path = some content
  staged : ∀ other, other ≠ path → after.index other = before.index other
  history : (changed = true ∧ ∃ commit, after.history = commit :: before.history ∧
      ∀ other, other ≠ path → commit.tree other = headTree before.history other) ∨
    (changed = false ∧ after.history = before.history)

/-- Staging the file and writing it are no part of what is compared. -/
theorem Committed.of_staged {before placed after : Checkout String (List Char)} {changed : Bool}
    (h : Committed path content placed after changed) (hhistory : placed.history = before.history)
    (hindex : ∀ other, other ≠ path → placed.index other = before.index other) :
    Committed path content before after changed where
  worktree := h.worktree
  index := h.index
  head := h.head
  staged := fun other hother => (h.staged other hother).trans (hindex other hother)
  history := hhistory ▸ h.history

theorem Committed.durable {before after : Checkout String (List Char)}
    {result : MemoryWriteResult}
    (h : Committed path content before after result.changed) :
    Durable path content before after after.history result where
  durable := h.head
  staged := h.staged
  grown := by
    rcases h.history with ⟨-, commit, hhistory, htree⟩ | ⟨-, hhistory⟩
    · exact .inr ⟨commit, hhistory, htree⟩
    · exact .inl hhistory
  uncommitted := by
    intro other hother
    rcases h.history with ⟨-, commit, hhistory, htree⟩ | ⟨-, hhistory⟩
    · rw [hhistory]
      exact htree other hother
    · rw [hhistory]
  changed := by
    rcases h.history with ⟨hchanged, commit, hhistory, -⟩ | ⟨hchanged, hhistory⟩
    · rw [hchanged, hhistory]
      exact ⟨fun _ hsame => List.cons_ne_self commit _ hsame, fun _ => rfl⟩
    · rw [hchanged, hhistory]
      exact ⟨fun h => absurd h Bool.false_ne_true, fun h => absurd rfl h⟩

/-- The commit of a staged file, if it differs from the last one. -/
theorem does_commitIf {message : String} {changed : Bool}
    (hchanged : changed = true ↔ c.Staged path) (hindex : c.index path = c.worktree path)
    (hworktree : c.worktree path = some content) :
    Ensures gitEnvironment (commitIf changed path message) ⟨some c, remote⟩
      (Does (fun _ => True) fun _ s' => ∃ c', s' = ⟨some c', remote⟩ ∧
        Committed path content c c' changed) := by
  unfold commitIf
  cases changed with
  | true =>
    rw [if_pos rfl]
    refine does_bind (does_call (Q := fun _ (s' : Store) => s' =
      ⟨some (c.commitOnly path message), remote⟩) trivial fun reply s' hstep => ?_) ?_
    · have hcommitted : Succeeds ⟨some c, remote⟩ (.commitOnly path message) reply s' := hstep
      obtain ⟨c₀, c', hc, ⟨-, rfl⟩, rfl⟩ := hcommitted
      cases hc
      rfl
    · intro _ s' hs'
      subst hs'
      refine does_bind (does_call (Q := fun _ (s' : Store) => s' =
        ⟨some (c.commitOnly path message), remote⟩) trivial fun sha s' hstep => ?_) ?_
      · have hread : Succeeds _ .revParseHead sha s' := hstep
        obtain ⟨c₀, c', hc, ⟨rfl, -⟩, rfl⟩ := hread
        exact look ⟨c', c', hc, rfl, rfl⟩
      · intro sha s' hs'
        subst hs'
        refine does_ret ⟨c.commitOnly path message, rfl, ?_⟩
        exact ⟨hworktree, index_commitOnly.trans hworktree, headTree_commitOnly.trans hworktree,
          fun other hother => index_commitOnly_other hother,
          .inl ⟨rfl, _, rfl, fun other hother => headTree_commitOnly_other hother⟩⟩
  | false =>
    rw [if_neg (by simp)]
    have hsame : c.index path = headTree c.history path := by
      by_contra hstaged
      exact Bool.false_ne_true (hchanged.mpr hstaged)
    rw [hworktree] at hindex
    exact does_ret ⟨c, rfl, hworktree, hindex, hsame ▸ hindex, fun _ _ => rfl, .inr ⟨rfl, rfl⟩⟩

/-- A write that returns has put its text on the remote branch. -/
theorem does_writeMemory {s : Store} (hs : Settled s) (draft : MemoryDraft) :
    Ensures gitEnvironment (writeMemory config strOf draft.toDraftFields) s
      (Does (fun _ => True) fun result s' => ∃ c',
        Clean (memoryPath draft.source.resolutionId)
          (renderMemory strOf draft.toDraftFields) s' c' ∧
        Durable (memoryPath draft.source.resolutionId)
          (renderMemory strOf draft.toDraftFields) (localCheckout s) c' s'.remote result) := by
  have hlocal : s.remote <:+ (localCheckout s).history ∧ Readable (localCheckout s).worktree := by
    obtain ⟨checkout, remote⟩ := s
    cases checkout with
    | none => exact ⟨List.suffix_refl remote, hs⟩
    | some c => exact hs
  refine does_bind (does_ensureCheckout (fun _ _ => trivial) s) ?_
  generalize localCheckout s = c at hlocal ⊢
  generalize s.remote = remote at hlocal ⊢
  obtain ⟨hahead, hreadable⟩ := hlocal
  generalize hpath : memoryPath draft.source.resolutionId = path
  generalize renderMemory strOf draft.toDraftFields = content
  intro _ s' hs'
  subst hs'
  refine does_bind (does_pull trivial hahead) fun _ s' hs' => ?_
  subst hs'
  refine does_bind (does_call trivial fun _ _ h => look h) fun _ s' hs' => ?_
  subst hs'
  refine does_bind (does_placeContent (fun _ _ => trivial) hreadable ⟨_, hpath.symm⟩) ?_
  rintro _ _ ⟨placed, rfl, hhistory, hindex, hworktree⟩
  refine does_bind (does_add trivial) fun _ s' hs' => ?_
  subst hs'
  refine does_bind (does_diffCached trivial) ?_
  rintro changed _ ⟨rfl, hchanged⟩
  refine does_bind (does_commitIf hchanged index_add hworktree) ?_
  rintro sha _ ⟨c', rfl, hcommitted⟩
  have hfrom : Committed path content c c' changed :=
    hcommitted.of_staged hhistory fun other hother => by rw [index_add_other hother, hindex]
  refine does_bind (does_push trivial) fun _ s' hs' => ?_
  subst hs'
  exact does_ret ⟨c', ⟨rfl, hfrom.worktree, hfrom.index, hfrom.head⟩, hfrom.durable⟩

/-- A second write of a text that is committed and pushed makes no commit. -/
theorem again_commits_nothing (draft : MemoryDraft)
    (h : Clean (memoryPath draft.source.resolutionId)
      (renderMemory strOf draft.toDraftFields) ⟨some c, remote⟩ c) :
    Ensures gitEnvironment (writeMemory config strOf draft.toDraftFields) ⟨some c, remote⟩
      (Does NoCommit fun _ _ => True) := by
  obtain ⟨hcheckout, hworktree, hindex, hhead⟩ := h
  have hahead : remote <:+ c.history := by
    cases hcheckout
    exact List.suffix_refl c.history
  have hunchanged : readTarget ⟨some c, remote⟩ (memoryPath draft.source.resolutionId) =
      some (renderMemory strOf draft.toDraftFields) := by
    show (c.worktree _).map universalNewlines = _
    rw [hworktree, Option.map_some, universalNewlines_renderMemory strOf draft.genuine]
  refine does_bind (does_ensureCheckout (fun _ h => h) _) fun _ s' hs' => ?_
  subst hs'
  refine does_bind (does_pull trivial hahead) fun _ s' hs' => ?_
  subst hs'
  refine does_bind (does_call trivial fun _ _ h => look h) fun _ s' hs' => ?_
  subst hs'
  have hplace : Ensures gitEnvironment (placeContent (memoryPath draft.source.resolutionId)
      (renderMemory strOf draft.toDraftFields)) ⟨some c, remote⟩
      (Does NoCommit fun _ s' => s' = ⟨some c, remote⟩) := by
    refine does_bind (does_observe (Q := fun (seen s' : Store) => seen = ⟨some c, remote⟩ ∧
      s' = ⟨some c, remote⟩) ⟨rfl, rfl⟩) ?_
    intro seen s' hseen
    rw [hseen.1, hseen.2, if_neg (not_not.mpr hunchanged)]
    exact does_ret rfl
  refine does_bind hplace fun _ s' hs' => ?_
  subst hs'
  refine does_bind (does_add trivial) fun _ s' hs' => ?_
  subst hs'
  refine does_bind (does_diffCached trivial) ?_
  rintro changed _ ⟨rfl, hchanged⟩
  have hclean : ¬ (c.add (memoryPath draft.source.resolutionId)).Staged
      (memoryPath draft.source.resolutionId) := by
    show ¬ _ ≠ _
    rw [not_not, index_add, hworktree]
    exact hhead.symm
  rw [Bool.eq_false_iff.mpr fun h => hclean (hchanged.mp h)]
  refine does_bind (Q := fun _ s' => s' = _) (does_ret rfl) fun _ s' hs' => ?_
  subst hs'
  refine does_bind (does_push trivial) fun _ s' _ => ?_
  exact does_ret trivial

/-- A store that earlier operations, any of them interrupted, have left. -/
structure LeftStore (config : Config) (strOf : Json → String) where
  store : Store
  reached : Reachable config strOf store

/-- From any store that earlier operations have left, a write that returns is
durable and minimal, and writing the same draft again makes no commit. -/
theorem write_durable (left : LeftStore config strOf) (draft : MemoryDraft) :
    Ensures gitEnvironment (writeMemory config strOf draft.toDraftFields) left.store fun _ o =>
      ∀ result s', o = .returned result s' →
        (∃ after, s'.checkout = some after ∧
          Durable (memoryPath draft.source.resolutionId)
            (renderMemory strOf draft.toDraftFields) (localCheckout left.store) after s'.remote
            result) ∧
        Ensures gitEnvironment (writeMemory config strOf draft.toDraftFields) s' fun t _ =>
          ∀ e ∈ t, NoCommit e.op := by
  refine (does_writeMemory (reachable_settled left.reached) draft).mono fun t o ho => ?_
  intro result s' hreturned
  obtain ⟨after, hclean, hdurable⟩ := ho.2 result s' hreturned
  obtain rfl := hclean.checkout
  exact ⟨⟨after, rfl, hdurable⟩, (again_commits_nothing draft hclean).mono fun _ _ h => h.1⟩

end Write

section First

def sampleRemote : Sha := [⟨fun _ => none, "Start the branch"⟩]

def sampleConfig : Config := ⟨"main", fun origin => origin = "memory.git"⟩

theorem sampleConfig_origin : sampleConfig.sameOrigin "memory.git" = true := rfl

theorem exists_draft : Nonempty MemoryDraft := by
  cases hrow : resolutionSourceFromRow brokenRow with
  | error e =>
    have hsite := brokenRow_site
    rw [hrow] at hsite
    cases hsite
  | ok source =>
    have hgenuine := resolutionSourceFromRow_genuine decoded_brokenRow.distinct (by decide) hrow
    exact ⟨noteOn source, hgenuine, ⟨fun _ h => (by cases h), fun h => by cases h⟩⟩

def emptyStore : LeftStore sampleConfig (fun _ => "") where
  store := ⟨none, sampleRemote⟩
  reached := .start fun id text h => by cases h

/-- A first write is durable. -/
theorem write_durable_first : ∃ (draft : MemoryDraft) (t : List (Event git))
    (result : MemoryWriteResult) (s' : Store) (after : Checkout String (List Char)),
    Runs gitEnvironment (writeMemory sampleConfig (fun _ => "") draft.toDraftFields)
      emptyStore.store t (.returned result s') ∧
      s'.checkout = some after ∧
      Durable (memoryPath draft.source.resolutionId)
        (renderMemory (fun _ => "") draft.toDraftFields) (localCheckout emptyStore.store) after
        s'.remote result := by
  obtain ⟨draft⟩ := exists_draft
  have hfresh : Pulls (localCheckout emptyStore.store) sampleRemote
      (GitHistory.clone sampleRemote) := .upToDate (List.suffix_refl _)
  obtain ⟨result, s', t, hrun⟩ := may_finish (s := emptyStore.store) sampleConfig_origin
    draft.toDraftFields hfresh (List.suffix_refl _)
  obtain ⟨after, hcheckout, hdurable⟩ := (write_durable emptyStore draft t _ hrun result s' rfl).1
  exact ⟨draft, t, result, s', after, hrun, hcheckout, hdurable⟩

end First

end FailureResolver.DurableWrite
