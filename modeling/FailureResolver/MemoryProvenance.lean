import FailureResolver.SharedBranch

/-!
What the answers of the memory store say of the remote branch while others push
whatever they like. A hash that is found is that of the file in the working tree,
the latest commit of a file is on the remote branch by the time it is named, and a
write that names a commit has pushed its text with it.
-/

namespace FailureResolver.MemoryProvenance

open DurableWrite GitHistory Program PyException JsonValue ResolutionMemory MemoryMarkdown
open MemoryIndex GitMemoryStore SharedBranch

section Steps

variable {own : Own} {timing : Timing} {s s' : Store} {α : Type}

theorem succeeds_grows {op : GitOp} {reply : op.Reply} (h : Succeeds s op reply s') :
    s.remote <:+ s'.remote := by
  rcases succeeds_cases h with ⟨-, rfl⟩ | ⟨c, -, hahead, rfl⟩ | ⟨c, c', -, -, rfl⟩
  · exact List.suffix_refl _
  · exact hahead
  · exact List.suffix_refl _

/-- Nobody takes a commit off the remote branch. -/
theorem step_grows {op : GitOp} {r : Except PyExc op.Reply}
    (h : sharedEnvironment own timing s op r s') : s.remote <:+ s'.remote := by
  obtain ⟨remote, hpush, -, hstep⟩ := h
  cases r with
  | ok reply => exact hpush.suffix.trans (succeeds_grows hstep)
  | error e =>
    rcases hstep with rfl | ⟨reply, hstep⟩
    · exact hpush.suffix
    · exact hpush.suffix.trans (succeeds_grows hstep)

theorem leaves_grows {p : Prog git α} (hp : p.Asks fun _ => True)
    (h : Leaves (sharedEnvironment own timing) p s s') : s.remote <:+ s'.remote :=
  h.keep (I := fun store : Store => s.remote <:+ store.remote) hp
    (fun _ _ _ _ _ hs hstep => hs.trans (step_grows hstep)) (List.suffix_refl _)

theorem does_anything {p : Prog git α} :
    Ensures (sharedEnvironment own timing) p s (Does (fun _ => True) fun _ _ => True) :=
  fun _ _ _ => ⟨fun _ _ => trivial, fun _ _ _ => trivial⟩

/-- A command other than a clone or a push works on the checkout at hand. -/
theorem shared_checkout {op : GitOp} {reply : op.Reply} (hclone : op ≠ .clone)
    (hpush : op ≠ .push) (h : sharedEnvironment own timing s op (.ok reply) s') :
    ∃ c c' remote, s.checkout = some c ∧ CheckoutStep c remote op reply c' ∧
      s' = ⟨some c', remote⟩ ∧ s.remote <:+ remote := by
  obtain ⟨remote, hothers, -, hstep⟩ := h
  have hsucceeds : Succeeds ⟨s.checkout, remote⟩ op reply s' := hstep
  cases op with
  | clone => exact absurd rfl hclone
  | push => exact absurd rfl hpush
  | _ =>
    obtain ⟨c, c', hc, hc', rfl⟩ := hsucceeds
    exact ⟨c, c', remote, hc, hc', rfl, hothers.suffix⟩

/-- What a command of this kind does is known from what it does to the checkout. -/
theorem does_checkout {op : GitOp} {Q : op.Reply → Store → Prop} (hclone : op ≠ .clone)
    (hpush : op ≠ .push)
    (h : ∀ reply c c' remote, s.checkout = some c → s.remote <:+ remote →
      CheckoutStep c remote op reply c' → Q reply ⟨some c', remote⟩) :
    Ensures (sharedEnvironment own timing) (command op) s (Does (fun _ => True) Q) := by
  refine does_call trivial fun reply s' hstep => ?_
  obtain ⟨c, c', remote, hc, hc', rfl, hgrown⟩ := shared_checkout hclone hpush hstep
  exact h reply c c' remote hc hgrown hc'

/-- A push that succeeds leaves the remote branch at the branch head. -/
theorem does_push {c : Checkout String (List Char)} (hc : s.checkout = some c) :
    Ensures (sharedEnvironment own timing) (command .push) s
      (Does (fun _ => True) fun _ s' => s' = ⟨some c, c.history⟩) := by
  refine does_call trivial fun reply s' hstep => ?_
  obtain ⟨remote, -, -, hstep⟩ := hstep
  have hpushed : Succeeds ⟨s.checkout, remote⟩ .push reply s' := hstep
  obtain ⟨c', hc', -, rfl⟩ := hpushed
  rw [hc] at hc'
  cases hc'
  rfl

end Steps

section Answers

variable {own : Own} {timing : Timing} {config : Config} {strOf : Json → String} {s s' : Store}
variable {c : Checkout String (List Char)} {path id sourceHash : String}

/-- The store finds this hash in the memory of the resolution. -/
def indexHash (index : Index) (resolutionId sourceHash : String) : Bool :=
  (index.lookup resolutionId).any fun document => document.sourceHash = sourceHash

def hasSourceHash (config : Config) (resolutionId sourceHash : String) (refresh : Bool) :
    Prog git Bool := do
  let index ← rebuildIndex config refresh
  return indexHash index resolutionId sourceHash

/-- The text is read as a memory with this hash. -/
def ReadsHash (text : List Char) (sourceHash : String) : Prop :=
  ∃ document, parseMemoryDocument text = .ok document ∧ document.sourceHash = sourceHash

/-- The text is the memory of a source with this hash, or reads as it. -/
def ShowsHash (strOf : Json → String) (text : List Char) (sourceHash : String) : Prop :=
  ∃ draft : DraftFields, draft.source.sourceHash = sourceHash ∧
    (text = renderMemory strOf draft ∨ universalNewlines text = renderMemory strOf draft)

/-- The text has this hash, as the store reads it or as it has written it. -/
def HasHash (strOf : Json → String) (text : List Char) (sourceHash : String) : Prop :=
  ReadsHash text sourceHash ∨ ShowsHash strOf text sourceHash

/-- A scan has read every file of the working tree. -/
theorem does_rebuildIndex {refresh : Bool} :
    Ensures (sharedEnvironment own timing) (rebuildIndex config refresh) s
      (Does (fun _ => True) fun (index : Index) (s' : Store) => ∃ c files, s'.checkout = some c ∧
        (stems files).Nodup ∧ (∀ stem, files.lookup stem = c.worktree (memoryPath stem)) ∧
        scanMemories files = .ok index) := by
  refine does_bind does_anything fun _ s₁ _ => does_bind does_anything fun _ s₂ _ => ?_
  refine does_bind (Q := fun (files : Files) (s' : Store) => ∃ c, s'.checkout = some c ∧
    (stems files).Nodup ∧ ∀ stem, files.lookup stem = c.worktree (memoryPath stem))
    (does_checkout (by simp) (by simp) ?_) ?_
  · intro files c c' remote _ _ hlisted
    obtain ⟨rfl, hnodup, hfiles⟩ := hlisted
    exact ⟨c', rfl, hnodup, hfiles⟩
  · rintro files s' ⟨c, hc, hnodup, hfiles⟩
    cases hscan : scanMemories files with
    | error e => exact does_raise
    | ok index => exact does_ret ⟨c, files, hc, hnodup, hfiles, hscan⟩

/-- A hash that is found is read from the file in the working tree. -/
theorem does_hasSourceHash {refresh : Bool} :
    Ensures (sharedEnvironment own timing) (hasSourceHash config id sourceHash refresh) s
      (Does (fun _ => True) fun (found : Bool) (s' : Store) => found = true →
        ∃ c text, s'.checkout = some c ∧ c.worktree (memoryPath id) = some text ∧
          ReadsHash text sourceHash) := by
  refine does_bind does_rebuildIndex ?_
  rintro index s' ⟨c, files, hc, hnodup, hfiles, hscan⟩
  refine does_ret fun hfound => ?_
  obtain ⟨document, hlookup, hhash⟩ := (Option.any_eq_true _ _).mp hfound
  have hentry : (id, document) ∈ index := by
    obtain ⟨before, after, rfl, -⟩ := List.lookup_eq_some_iff.mp hlookup
    simp
  have hscanned := (scanMemories_eq_ok hnodup).mp hscan
  obtain ⟨⟨stem, text⟩, hfile, hparse, hname, -⟩ := (forall₂_mem hscanned).1 _ hentry
  have hmem : (id, text) ∈ files := by
    rw [show id = stem from hname]
    exact (perm_sortedFiles files).mem_iff.mp hfile
  refine ⟨c, text, hc, ?_, document, hparse, of_decide_eq_true hhash⟩
  rw [← hfiles, lookup_eq_some_iff hnodup]
  exact hmem

/-- The latest commit of a path is in the history and has the file of its head. -/
theorem latestCommit_spec {path : String} {history : Sha} {commit : Sha}
    (h : LatestCommit path history (some commit)) :
    commit <:+ history ∧ headTree commit path = headTree history path := by
  induction history with
  | nil => cases h
  | cons newest rest ih =>
    rcases h with ⟨-, hfound⟩ | ⟨hsame, hlater⟩
    · cases hfound
      exact ⟨List.suffix_refl _, rfl⟩
    · obtain ⟨hsuffix, htree⟩ := ih hlater
      exact ⟨hsuffix.trans (List.suffix_cons _ _), htree.trans hsame.symm⟩

/-- The checks before an operation leave a checkout as it is. -/
theorem does_ensureCheckout (hc : s.checkout = some c) :
    Ensures (sharedEnvironment own timing) (ensureCheckout config) s
      (Does (fun _ => True) fun _ s' => s'.checkout = some c) := by
  have hlook : ∀ {op : GitOp} {s : Store}, s.checkout = some c → op ≠ .clone → op ≠ .push →
      (∀ reply c' remote, CheckoutStep c remote op reply c' → c' = c) →
      Ensures (sharedEnvironment own timing) (command op) s
        (Does (fun _ => True) fun _ s' => s'.checkout = some c) := by
    intro op s hc hclone hpush hsame
    refine does_checkout hclone hpush fun reply c₀ c' remote hc₀ _ hstep => ?_
    rw [hc] at hc₀
    cases hc₀
    exact congrArg some (hsame reply c' remote hstep)
  have hpass : ∀ {condition : Bool} {e : PyExc} {s : Store}, s.checkout = some c →
      Ensures (sharedEnvironment own timing) (raiseIf condition e) s
        (Does (fun _ => True) fun _ s' => s'.checkout = some c) := by
    intro condition e s hc
    cases condition with
    | true => exact does_raise
    | false => exact does_ret hc
  have hclone : Ensures (sharedEnvironment own timing) cloneIfMissing s
      (Does (fun _ => True) fun _ s' => s'.checkout = some c) := by
    refine does_bind (does_observe (Q := fun (seen s' : Store) => seen = s ∧ s' = s)
      ⟨rfl, rfl⟩) ?_
    rintro _ _ ⟨rfl, rfl⟩
    rw [if_neg (by simp [hc])]
    exact does_ret hc
  refine does_bind hclone fun _ s hc => ?_
  refine does_bind (hlook hc (by simp) (by simp) fun _ _ _ h => h) fun _ s hc => ?_
  refine does_bind (hpass hc) fun _ s hc => ?_
  refine does_bind (hlook hc (by simp) (by simp) fun _ _ _ h => h) fun _ s hc => ?_
  refine does_bind (hpass hc) fun _ s hc => ?_
  refine does_bind (hlook hc (by simp) (by simp) fun _ _ _ h => h) fun _ s hc => ?_
  exact hpass hc

/-- A latest commit that is named is on the remote branch and has the file of the
branch head. -/
theorem does_latestMemoryCommit (hc : s.checkout = some c) :
    Ensures (sharedEnvironment own timing) (latestMemoryCommit config id false) s
      (Does (fun _ => True) fun (found : Option Sha) (s' : Store) => ∀ commit, found = some commit →
        commit <:+ s'.remote ∧
          headTree commit (memoryPath id) = headTree c.history (memoryPath id)) := by
  refine does_bind (does_ensureCheckout hc) fun _ s hc => ?_
  refine does_bind (Q := fun _ (s' : Store) => s'.checkout = some c) (does_ret hc)
    fun _ s hc => ?_
  refine does_bind (Q := fun _ (s' : Store) => s'.checkout = some c)
    (does_checkout (by simp) (by simp) fun _ c₀ c' remote hc₀ _ hsafe => ?_) fun _ s hc => ?_
  · rw [hc] at hc₀
    cases hc₀
    exact congrArg some hsafe
  · refine does_bind (does_observe (Q := fun (seen s' : Store) => seen = s ∧ s' = s)
      ⟨rfl, rfl⟩) ?_
    rintro _ _ ⟨rfl, rfl⟩
    split
    · exact does_ret fun commit hnone => nomatch hnone
    · refine does_bind (does_push hc) fun _ s' hs' => ?_
      subst hs'
      refine does_checkout (by simp) (by simp) fun found c₀ c' remote hc₀ hgrown hfound => ?_
      intro commit hcommit
      cases hc₀
      obtain ⟨-, hlatest⟩ := hfound
      rw [hcommit] at hlatest
      obtain ⟨hsuffix, htree⟩ := latestCommit_spec hlatest
      exact ⟨hsuffix.trans hgrown, htree⟩

/-- The file has the content, or a text that reads as it. -/
def Placed (c : Checkout String (List Char)) (path : String) (content : List Char) : Prop :=
  ∃ text, c.worktree path = some text ∧ (text = content ∨ universalNewlines text = content)

theorem does_placeContent {content : List Char} (hc : s.checkout = some c) :
    Ensures (sharedEnvironment own timing) (placeContent path content) s
      (Does (fun _ => True) fun _ s' => ∃ c', s'.checkout = some c' ∧ Placed c' path content) := by
  refine does_bind (does_observe (Q := fun (seen s' : Store) => seen = s ∧ s' = s)
    ⟨rfl, rfl⟩) ?_
  intro seen s' hseen
  rw [hseen.1, hseen.2]
  by_cases hread : readTarget s path = some content
  · rw [if_neg (not_not.mpr hread)]
    rw [readTarget, hc, Option.bind_some, Option.map_eq_some_iff] at hread
    obtain ⟨text, htext, hsame⟩ := hread
    exact does_ret ⟨c, hc, text, htext, .inr hsame⟩
  · rw [if_pos hread]
    refine does_checkout (by simp) (by simp) fun _ c₀ c' remote _ _ hplaced => ?_
    cases hplaced
    exact ⟨_, rfl, content, worktree_write, .inl rfl⟩

/-- The store stages only files that differ from the last commit. -/
def stagesChanges : Timing := fun s op _ => ∀ c path, s.checkout = some c →
  op = some (.add path) → c.worktree path ≠ headTree c.history path

/-- A file that is staged, and what staging it has to show. -/
structure Staging (timing : Timing) (c : Checkout String (List Char)) (path : String)
    (content : List Char) : Prop where
  placed : Placed c path content
  index : c.index path = c.worktree path
  changed : timing = stagesChanges → c.Staged path

theorem does_add {content : List Char} (hc : s.checkout = some c)
    (hplaced : Placed c path content) :
    Ensures (sharedEnvironment own timing) (command (.add path)) s
      (Does (fun _ => True) fun _ s' => ∃ c', s'.checkout = some c' ∧
        Staging timing c' path content) := by
  refine does_call trivial fun reply s' hstep => ?_
  obtain ⟨remote, -, htiming, hstep⟩ := hstep
  have hadded : Succeeds ⟨s.checkout, remote⟩ (.add path) reply s' := hstep
  obtain ⟨c₀, c', hc₀, rfl, rfl⟩ := hadded
  rw [hc] at hc₀
  cases hc₀
  refine ⟨_, rfl, hplaced, index_add, fun hstages => ?_⟩
  rw [hstages] at htiming
  have hdiffers := htiming c path hc rfl
  rw [Checkout.Staged, index_add]
  exact hdiffers

/-- A commit that a write names is the branch head and has the content; a write that
stages a change names one. -/
structure Named (timing : Timing) (path : String) (content : List Char) (sha : Option Sha)
    (history : Sha) : Prop where
  head : ∀ commit, sha = some commit → commit = history ∧ ∃ text,
    headTree commit path = some text ∧ (text = content ∨ universalNewlines text = content)
  named : timing = stagesChanges → sha ≠ none

theorem does_commitIf {content : List Char} {message : String} {changed : Bool}
    (hc : s.checkout = some c) (hstaging : Staging timing c path content)
    (hchanged : changed = true ↔ c.Staged path) :
    Ensures (sharedEnvironment own timing) (commitIf changed path message) s
      (Does (fun _ => True) fun (sha : Option Sha) (s' : Store) => ∃ c', s'.checkout = some c' ∧
        Named timing path content sha c'.history) := by
  unfold commitIf
  cases changed with
  | false =>
    rw [if_neg Bool.false_ne_true]
    refine does_ret ⟨c, hc, ⟨fun commit hnone => (nomatch hnone), fun hstages => ?_⟩⟩
    exact absurd (hchanged.mpr (hstaging.changed hstages)) Bool.false_ne_true
  | true =>
    rw [if_pos rfl]
    obtain ⟨text, htext, hsame⟩ := hstaging.placed
    refine does_bind (Q := fun _ (s' : Store) => ∃ c', s'.checkout = some c' ∧
      headTree c'.history path = some text) (does_checkout (by simp) (by simp) ?_) ?_
    · intro _ c₀ c' remote hc₀ _ hcommitted
      rw [hc] at hc₀
      cases hc₀
      obtain ⟨-, rfl⟩ := hcommitted
      exact ⟨_, rfl, headTree_commitOnly.trans htext⟩
    · rintro _ s' ⟨c', hc', hhead⟩
      refine does_bind (Q := fun (sha : Sha) (s'' : Store) => s''.checkout = some c' ∧
        sha = c'.history) (does_checkout (by simp) (by simp) ?_) ?_
      · intro sha c₀ c'' remote hc₀ _ hread
        rw [hc'] at hc₀
        cases hc₀
        exact ⟨congrArg some hread.1, hread.2⟩
      · rintro sha s'' ⟨hc'', rfl⟩
        refine does_ret ⟨c', hc'', ⟨fun commit hcommit => ?_, fun _ hnone => nomatch hnone⟩⟩
        cases hcommit
        exact ⟨rfl, text, hhead, hsame⟩

/-- A commit that a write names is on the remote branch with the text of the draft. -/
theorem does_writeMemory (draft : DraftFields) :
    Ensures (sharedEnvironment own timing) (GitMemoryStore.writeMemory config strOf draft) s
      (Does (fun _ => True) fun (result : GitMemoryStore.MemoryWriteResult) (s' : Store) =>
        Named timing (memoryPath draft.source.resolutionId) (renderMemory strOf draft)
          result.commitSha s'.remote) := by
  refine does_bind does_anything fun _ s _ => ?_
  refine does_bind (Q := fun _ (s' : Store) => ∃ c, s'.checkout = some c)
    (does_checkout (by simp) (by simp) fun _ _ c' _ _ _ _ => ⟨c', rfl⟩) ?_
  rintro _ s ⟨c, hc⟩
  refine does_bind (Q := fun _ (s' : Store) => s'.checkout = some c)
    (does_checkout (by simp) (by simp) fun _ c₀ c' remote hc₀ _ hsafe => ?_) fun _ s hc => ?_
  · rw [hc] at hc₀
    cases hc₀
    exact congrArg some hsafe
  refine does_bind (does_placeContent hc) ?_
  rintro _ s ⟨c, hc, hplaced⟩
  refine does_bind (does_add hc hplaced) ?_
  rintro _ s ⟨c, hc, hstaging⟩
  refine does_bind (Q := fun (changed : Bool) (s' : Store) => s'.checkout = some c ∧
    (changed = true ↔ c.Staged (memoryPath draft.source.resolutionId)))
    (does_checkout (by simp) (by simp) ?_) ?_
  · intro changed c₀ c' remote hc₀ _ hdiff
    rw [hc] at hc₀
    cases hc₀
    exact ⟨congrArg some hdiff.1, hdiff.2⟩
  rintro changed s ⟨hc, hchanged⟩
  refine does_bind (does_commitIf hc hstaging hchanged) ?_
  rintro sha s ⟨c, hc, hnamed⟩
  refine does_bind (does_push hc) fun _ s' hs' => ?_
  subst hs'
  exact does_ret hnamed

end Answers

section Possible

variable {own : Own} {timing : Timing} {config : Config} {strOf : Json → String}
variable {origin : String} {c c₁ : Checkout String (List Char)} {r : Sha} {s s' : Store}
variable {path : String} {content : List Char}

/-- Others may push before every command but the staging of a file. -/
def Lenient (timing : Timing) : Prop :=
  ∀ s op remote, (∀ path, op ≠ .add path) → timing s (some op) remote

theorem lenient_anyTime : Lenient anyTime := fun _ _ _ _ => trivial

theorem lenient_stagesChanges : Lenient stagesChanges := by
  intro s op remote hop c path hc hadd
  exact absurd (Option.some.inj hadd) (hop path)

theorem may_alone {op : GitOp} {reply : op.Reply} (htiming : timing s (some op) s.remote)
    (h : Succeeds s op reply s') :
    May (sharedEnvironment own timing) (command op) s (.returned reply s') :=
  may_call ⟨s.remote, .nothing, htiming, h⟩

/-- A command other than the staging of a file works on the checkout at hand. -/
theorem may_act (hlenient : Lenient timing) {op : GitOp} {reply : op.Reply}
    (hop : ∀ path, op ≠ .add path) (h : Succeeds s op reply s') :
    May (sharedEnvironment own timing) (command op) s (.returned reply s') :=
  may_alone (hlenient s op s.remote hop) h

theorem may_checked (hlenient : Lenient timing) (horigin : config.sameOrigin origin = true)
    (s : Store) : May (sharedEnvironment own timing) (ensureCheckout config) s
      (.returned () ⟨some (localCheckout s), s.remote⟩) := by
  have hchecked : May (sharedEnvironment own anyTime) (ensureCheckout config) s
      (.returned () ⟨some (localCheckout s), s.remote⟩) :=
    may_ensureCheckout quiet_anyTime horigin s
  refine hchecked.of_asks (asks_ensureCheckout fun op h => h) ?_
  rintro s op r s' hop ⟨remote, hpush, -, hstep⟩
  refine ⟨remote, hpush, hlenient s op remote ?_, hstep⟩
  rintro path rfl
  exact hop

/-- On a branch without memories no hash is found. -/
theorem may_hasSourceHash {id sourceHash : String} (horigin : config.sameOrigin origin = true)
    (hempty : ∀ stem, headTree r (memoryPath stem) = none) :
    May (sharedEnvironment own anyTime) (hasSourceHash config id sourceHash true) ⟨none, r⟩
      (.returned false ⟨some (GitHistory.clone r), r⟩) := by
  have hpulled : Succeeds ⟨some (GitHistory.clone r), r⟩ .pull ()
      ⟨some (GitHistory.clone r), r⟩ := ⟨_, _, rfl, .upToDate (List.suffix_refl _), rfl⟩
  have hlisted : Succeeds ⟨some (GitHistory.clone r), r⟩ .listMemories []
      ⟨some (GitHistory.clone r), r⟩ :=
    ⟨_, _, rfl, ⟨rfl, List.nodup_nil, fun stem => (hempty stem).symm⟩, rfl⟩
  have hrebuilt : May (sharedEnvironment own anyTime) (rebuildIndex config true) ⟨none, r⟩
      (.returned ([] : Index) ⟨some (GitHistory.clone r), r⟩) := by
    refine (may_checked lenient_anyTime horigin _).bind ?_
    refine (may_act lenient_anyTime (by simp) hpulled).bind ?_
    exact (may_act lenient_anyTime (by simp) hlisted).bind may_ret
  exact hrebuilt.bind may_ret

/-- The content comes into the working tree. -/
theorem may_place (hlenient : Lenient timing)
    (hfile : c.worktree path = none ∨ c.worktree path = some content) :
    May (sharedEnvironment own timing) (placeContent path content) ⟨some c, r⟩
      (.returned () ⟨some (c.write path content), r⟩) := by
  refine .bind may_observe ?_
  by_cases hread : readTarget ⟨some c, r⟩ path = some content
  · rw [if_neg (not_not.mpr hread)]
    have hsame : c.write path content = c := by
      rcases hfile with hnone | hsome
      · rw [readTarget, Option.bind_some, hnone] at hread
        cases hread
      · unfold Checkout.write
        rw [← hsome, Function.update_eq_self]
    rw [hsame]
    exact may_ret
  · rw [if_pos hread]
    exact may_act hlenient (by simp) ⟨c, _, rfl, rfl, rfl⟩

/-- A write comes to the file that it has staged. -/
theorem may_stage (hlenient : Lenient timing) (horigin : config.sameOrigin origin = true)
    {draft : DraftFields} (hpath : memoryPath draft.source.resolutionId = path)
    (hcontent : renderMemory strOf draft = content) (hpull : Pulls c r c₁)
    (hfile : c₁.worktree path = none ∨ c₁.worktree path = some content)
    (hadd : timing ⟨some (c₁.write path content), r⟩ (some (.add path)) r)
    {o : Outcome git GitMemoryStore.MemoryWriteResult}
    (hrest : May (sharedEnvironment own timing)
      ((command (.diffCached path)).bind fun changed : Bool =>
        (commitIf changed path (commitMessage draft)).bind fun commitSha =>
          (command .push).bind fun _ =>
            .ret ⟨draft.source.resolutionId, path, changed, commitSha⟩)
      ⟨some ((c₁.write path content).add path), r⟩ o) :
    May (sharedEnvironment own timing) (GitMemoryStore.writeMemory config strOf draft)
      ⟨some c, r⟩ o := by
  have hsafe : Succeeds ⟨some c₁, r⟩ (.safePath path) () ⟨some c₁, r⟩ := ⟨c₁, c₁, rfl, rfl, rfl⟩
  have hadded : Succeeds ⟨some (c₁.write path content), r⟩ (.add path) ()
      ⟨some ((c₁.write path content).add path), r⟩ := ⟨_, _, rfl, rfl, rfl⟩
  have hpulled : Succeeds ⟨some c, r⟩ .pull () ⟨some c₁, r⟩ := ⟨c, c₁, rfl, hpull, rfl⟩
  unfold GitMemoryStore.writeMemory
  rw [hpath, hcontent]
  refine (may_checked hlenient horigin ⟨some c, r⟩).bind ?_
  refine (may_act hlenient (by simp) hpulled).bind ?_
  refine (may_act hlenient (by simp) hsafe).bind ?_
  exact (may_place hlenient hfile).bind ((may_alone hadd hadded).bind hrest)

/-- A write of what the branch already has names no commit. -/
theorem may_writeNothing (horigin : config.sameOrigin origin = true) (draft : DraftFields)
    (hpath : memoryPath draft.source.resolutionId = path)
    (hcontent : renderMemory strOf draft = content) (hpull : Pulls c r c₁)
    (hahead : r <:+ c₁.history) (hfile : c₁.worktree path = some content)
    (hhead : headTree c₁.history path = some content) :
    ∃ s', May (sharedEnvironment own anyTime) (GitMemoryStore.writeMemory config strOf draft)
      ⟨some c, r⟩ (.returned ⟨draft.source.resolutionId, path, false, none⟩ s') := by
  obtain ⟨staged, hstaged⟩ : ∃ staged, staged = (c₁.write path content).add path := ⟨_, rfl⟩
  have hindex : staged.index path = headTree staged.history path := by
    rw [hstaged, index_add, worktree_write]
    exact hhead.symm
  have hhistory : r <:+ staged.history := by
    rw [hstaged]
    exact hahead
  have hdiff : Succeeds ⟨some staged, r⟩ (.diffCached path) false ⟨some staged, r⟩ := by
    refine ⟨_, _, rfl, ⟨rfl, ?_⟩, rfl⟩
    rw [Checkout.Staged, hindex]
    simp
  have hpushed : Succeeds ⟨some staged, r⟩ .push () ⟨some staged, staged.history⟩ :=
    ⟨_, rfl, ⟨rfl, hhistory⟩, rfl⟩
  refine ⟨⟨some staged, staged.history⟩,
    may_stage lenient_anyTime horigin hpath hcontent hpull (.inr hfile) trivial ?_⟩
  rw [← hstaged]
  refine (may_act lenient_anyTime (by simp) hdiff).bind (May.bind may_ret ?_)
  exact (may_act lenient_anyTime (by simp) hpushed).bind may_ret

/-- A write of a memory that the branch does not have stages a change. -/
theorem may_writeNews (horigin : config.sameOrigin origin = true) (draft : DraftFields)
    (hpath : memoryPath draft.source.resolutionId = path)
    (hcontent : renderMemory strOf draft = content) (hahead : r <:+ c.history)
    (hfile : c.worktree path = none) (hhead : headTree c.history path = none) :
    ∃ result s', May (sharedEnvironment own stagesChanges)
      (GitMemoryStore.writeMemory config strOf draft) ⟨some c, r⟩ (.returned result s') := by
  obtain ⟨staged, hstaged⟩ : ∃ staged, staged = (c.write path content).add path := ⟨_, rfl⟩
  have hdiffers : some content ≠ headTree staged.history path := by
    rw [hstaged]
    exact fun h => Option.some_ne_none content (h.trans hhead)
  have hindex : staged.index path = some content := by
    rw [hstaged, index_add, worktree_write]
  have hworktree : staged.worktree path = some content := by
    rw [hstaged]
    exact worktree_write
  have hdiff : Succeeds ⟨some staged, r⟩ (.diffCached path) true ⟨some staged, r⟩ := by
    refine ⟨_, _, rfl, ⟨rfl, fun _ => ?_, fun _ => rfl⟩, rfl⟩
    rw [Checkout.Staged, hindex]
    exact hdiffers
  obtain ⟨committed, hcommitted⟩ :
      ∃ committed, committed = staged.commitOnly path (commitMessage draft) := ⟨_, rfl⟩
  have hcommit : Succeeds ⟨some staged, r⟩ (.commitOnly path (commitMessage draft)) ()
      ⟨some committed, r⟩ := ⟨_, _, rfl, ⟨hworktree ▸ hdiffers, hcommitted⟩, rfl⟩
  have hread : Succeeds ⟨some committed, r⟩ .revParseHead committed.history
      ⟨some committed, r⟩ := ⟨_, _, rfl, ⟨rfl, rfl⟩, rfl⟩
  have hhistory : r <:+ committed.history := by
    rw [hcommitted, hstaged]
    exact hahead.trans (List.suffix_cons _ _)
  have hpushed : Succeeds ⟨some committed, r⟩ .push () ⟨some committed, committed.history⟩ :=
    ⟨_, rfl, ⟨rfl, hhistory⟩, rfl⟩
  refine ⟨⟨draft.source.resolutionId, path, true, some committed.history⟩,
    ⟨some committed, committed.history⟩,
    may_stage lenient_stagesChanges horigin hpath hcontent (.upToDate hahead) (.inl hfile) ?_ ?_⟩
  · intro c' path' hc' hop
    cases hc'
    cases hop
    rw [worktree_write]
    exact fun h => Option.some_ne_none content (h.trans hhead)
  · rw [← hstaged]
    refine (may_act lenient_stagesChanges (by simp) hdiff).bind ?_
    have hnamed : May (sharedEnvironment own stagesChanges)
        (commitIf true path (commitMessage draft)) ⟨some staged, r⟩
        (.returned (some committed.history) ⟨some committed, r⟩) := by
      unfold commitIf
      rw [if_pos rfl]
      refine (may_act lenient_stagesChanges (by simp) hcommit).bind ?_
      exact (may_act lenient_stagesChanges (by simp) hread).bind may_ret
    exact hnamed.bind ((may_act lenient_stagesChanges (by simp) hpushed).bind may_ret)

end Possible

end FailureResolver.MemoryProvenance
