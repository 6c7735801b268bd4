import FailureResolver.DurableWrite

/-!
The memory branch with other writers, who push commits of other files at any time.
The heads of the branch and of its remote stay comparable as long as nobody else
pushes while the store has a commit of its own to push or makes one. A push
between the pull of a write and its own push sets the heads apart, and then no
later pull of the store succeeds.
-/

namespace FailureResolver.SharedBranch

open DurableWrite GitHistory Program PyException JsonValue ResolutionMemory MemoryMarkdown
open MemoryIndex GitMemoryStore

section Writers

abbrev Own := String → Prop

/-- Others push commits that leave the memory files of the store as they are. -/
inductive OthersPush (own : Own) (remote : Sha) : Sha → Prop
  | nothing : OthersPush own remote remote
  | commit {remote' : Sha} {commit : Commit String (List Char)} : OthersPush own remote remote' →
      (∀ id, own id → commit.tree (memoryPath id) = headTree remote' (memoryPath id)) →
      OthersPush own remote (commit :: remote')

/-- When others may push: in a store, before a command or between two operations,
up to this head of the remote branch. -/
abbrev Timing := Store → Option GitOp → Sha → Prop

def sharedEnvironment (own : Own) (timing : Timing) : Environment git := fun s op r s' =>
  ∃ remote, OthersPush own s.remote remote ∧ timing s (some op) remote ∧
    gitEnvironment ⟨s.checkout, remote⟩ op r s'

def anyTime : Timing := fun _ _ _ => True

/-- Others push only while the store has nothing of its own to push, and the store
makes a commit only on a branch that has the remote head. -/
def inTurn : Timing := fun s op remote => ∀ c, s.checkout = some c →
  (remote ≠ s.remote → c.history <:+ s.remote) ∧
    ∀ path message, op = some (.commitOnly path message) → remote <:+ c.history

/-- The states between two operations of the store, with others pushing. -/
inductive Reached (config : Config) (strOf : Json → String) (own : Own) (timing : Timing)
    (first : Store) : Store → Prop
  | start : Reached config strOf own timing first first
  | write {s s' : Store} (draft : MemoryDraft) (hown : own draft.source.resolutionId)
      (hs : Reached config strOf own timing first s)
      (h : Leaves (sharedEnvironment own timing) (writeMemory config strOf draft.toDraftFields)
        s s') :
      Reached config strOf own timing first s'
  | rebuild {s s' : Store} {refresh : Bool} (hs : Reached config strOf own timing first s)
      (h : Leaves (sharedEnvironment own timing) (rebuildIndex config refresh) s s') :
      Reached config strOf own timing first s'
  | latest {s s' : Store} {id : String} {refresh : Bool}
      (hs : Reached config strOf own timing first s)
      (h : Leaves (sharedEnvironment own timing) (latestMemoryCommit config id refresh) s s') :
      Reached config strOf own timing first s'
  | others {s : Store} {remote : Sha} (hs : Reached config strOf own timing first s)
      (h : OthersPush own s.remote remote) (htiming : timing s none remote) :
      Reached config strOf own timing first ⟨s.checkout, remote⟩

/-- One of the two heads is an ancestor of the other. -/
def Comparable (s : Store) : Prop :=
  ∀ c, s.checkout = some c → s.remote <:+ c.history ∨ c.history <:+ s.remote

end Writers

section Invariant

variable {own : Own} {c c' : Checkout String (List Char)} {remote remote' : Sha} {s s' : Store}

theorem OthersPush.suffix (h : OthersPush own remote remote') : remote <:+ remote' := by
  induction h with
  | nothing => exact List.suffix_refl remote
  | commit _ _ ih => exact ih.trans (List.suffix_cons _ _)

theorem OthersPush.memories (h : OthersPush own remote remote') {id : String} (hid : own id) :
    headTree remote' (memoryPath id) = headTree remote (memoryPath id) := by
  induction h with
  | nothing => rfl
  | commit _ hkept ih => exact (hkept id hid).trans ih

def Untouched (c : Checkout String (List Char)) (path : String) : Prop :=
  c.index path = headTree c.history path ∧ c.worktree path = c.index path

def Foreign (own : Own) (path : String) : Prop := ∀ id, own id → path ≠ memoryPath id

/-- The heads are comparable, only memory files of the store are touched, and a branch
that is behind has these files of the remote one. -/
structure InStep (own : Own) (c : Checkout String (List Char)) (remote : Sha) : Prop where
  comparable : remote <:+ c.history ∨ c.history <:+ remote
  clean : ∀ path, Foreign own path → Untouched c path
  behind : ¬ remote <:+ c.history →
    ∀ id, own id → headTree remote (memoryPath id) = headTree c.history (memoryPath id)

def Sound (own : Own) (s : Store) : Prop := ∀ c, s.checkout = some c → InStep own c s.remote

def TouchesOwn (own : Own) : GitOp → Prop
  | .replaceFile path _ => ∃ id, own id ∧ path = memoryPath id
  | .add path => ∃ id, own id ∧ path = memoryPath id
  | .commitOnly path _ => ∃ id, own id ∧ path = memoryPath id
  | _ => True

/-- A branch that has the remote head. -/
theorem InStep.ahead (hahead : remote <:+ c.history)
    (hclean : ∀ path, Foreign own path → Untouched c path) : InStep own c remote :=
  ⟨.inl hahead, hclean, fun hbehind => absurd hahead hbehind⟩

/-- Others push onto a remote head that is not behind the branch. -/
theorem InStep.others (h : InStep own c remote) (hpush : OthersPush own remote remote')
    (hturn : remote' ≠ remote → c.history <:+ remote) : InStep own c remote' := by
  by_cases hsame : remote' = remote
  · rw [hsame]
    exact h
  · have hancestor := hturn hsame
    refine ⟨.inr (hancestor.trans hpush.suffix), h.clean, fun _ id hid => ?_⟩
    rw [hpush.memories hid]
    by_cases hahead : remote <:+ c.history
    · rw [hahead.eq_of_length (le_antisymm hahead.length_le hancestor.length_le)]
    · exact h.behind hahead id hid

/-- A pull leaves a branch that has the remote head. -/
theorem InStep.pulled (h : InStep own c remote) (hpulls : Pulls c remote c') :
    InStep own c' remote := by
  cases hpulls with
  | upToDate => exact h
  | fastForward _ hbehind hancestor hhead hchanged hkept =>
    apply InStep.ahead
    · rw [hhead]
    · intro path hother
      obtain ⟨hindex, hworktree⟩ := h.clean path hother
      by_cases hsame : headTree remote path = headTree c.history path
      · obtain ⟨hindex', hworktree'⟩ := hkept path hsame
        rw [Untouched, hhead, hindex', hworktree', hsame]
        exact ⟨hindex, hworktree⟩
      · obtain ⟨-, -, hindex', hworktree'⟩ := hchanged path hsame
        rw [Untouched, hhead, hindex', hworktree']
        exact ⟨rfl, rfl⟩

/-- A command of the store keeps its branch in step; a commit is made with the remote head. -/
theorem InStep.step {op : GitOp} {reply : op.Reply} (h : InStep own c remote)
    (hop : TouchesOwn own op)
    (hturn : ∀ path message, op = .commitOnly path message → remote <:+ c.history)
    (hstep : CheckoutStep c remote op reply c') : InStep own c' remote := by
  rcases checkoutStep_cases hstep with rfl | ⟨rfl, hpulls⟩ | ⟨path, text, rfl, rfl⟩ |
    ⟨path, rfl, rfl⟩ | ⟨path, message, rfl, -, rfl⟩
  · exact h
  · exact h.pulled hpulls
  · obtain ⟨id, hid, rfl⟩ := hop
    refine ⟨h.comparable, fun other hother => ?_, h.behind⟩
    obtain ⟨hindex, hworktree⟩ := h.clean other hother
    exact ⟨hindex, (worktree_write_other (hother id hid)).trans hworktree⟩
  · obtain ⟨id, hid, rfl⟩ := hop
    refine ⟨h.comparable, fun other hother => ?_, h.behind⟩
    rw [Untouched, index_add_other (hother id hid)]
    exact h.clean other hother
  · obtain ⟨id, hid, rfl⟩ := hop
    apply InStep.ahead
    · exact (hturn _ message rfl).trans (List.suffix_cons _ _)
    · intro other hother
      rw [Untouched, index_commitOnly_other (hother id hid),
        headTree_commitOnly_other (hother id hid)]
      exact h.clean other hother

theorem sound_succeeds {op : GitOp} {reply : op.Reply} (hs : Sound own s) (hop : TouchesOwn own op)
    (hturn : ∀ c, s.checkout = some c →
      ∀ path message, op = .commitOnly path message → s.remote <:+ c.history)
    (h : Succeeds s op reply s') : Sound own s' := by
  rcases succeeds_cases h with ⟨-, rfl⟩ | ⟨c, hc, -, rfl⟩ | ⟨c, c', hc, hstep, rfl⟩
  · intro c hc
    cases hc
    exact InStep.ahead (List.suffix_refl _) fun _ _ => ⟨rfl, rfl⟩
  · intro c' hc'
    cases hc'
    exact InStep.ahead (List.suffix_refl _) (hs c hc).clean
  · intro c'' hc''
    cases hc''
    exact (hs c hc).step hop (hturn c hc) hstep

theorem sound_step {op : GitOp} {r : Except PyExc op.Reply} (hs : Sound own s)
    (hop : TouchesOwn own op) (h : sharedEnvironment own inTurn s op r s') : Sound own s' := by
  obtain ⟨remote, hpush, htiming, hstep⟩ := h
  have hpushed : Sound own ⟨s.checkout, remote⟩ :=
    fun c hc => (hs c hc).others hpush (htiming c hc).1
  have hturn : ∀ c, s.checkout = some c →
      ∀ path message, op = .commitOnly path message → remote <:+ c.history :=
    fun c hc path message hop => (htiming c hc).2 path message (congrArg some hop)
  cases r with
  | ok reply => exact sound_succeeds hpushed hop hturn hstep
  | error e =>
    rcases hstep with rfl | ⟨reply, hstep⟩
    · exact hpushed
    · exact sound_succeeds hpushed hop hturn hstep

/-- What the operations of the store touch. -/
theorem touches_writesOnly {id : String} {content : List Char} (hid : own id) (op : GitOp)
    (h : WritesOnly (memoryPath id) content op) : TouchesOwn own op := by
  cases op with
  | replaceFile path text => exact ⟨id, hid, h.1⟩
  | add path => exact ⟨id, hid, h⟩
  | commitOnly path message => exact ⟨id, hid, h⟩
  | _ => trivial

theorem touches_readsOnly (op : GitOp) (h : ReadsOnly op) : TouchesOwn own op := by
  cases op with
  | replaceFile path text => exact h.elim
  | add path => exact h.elim
  | commitOnly path message => exact h.elim
  | _ => trivial

variable {config : Config} {strOf : Json → String}

theorem reached_sound {first : Store} (hfirst : first.checkout = none)
    (h : Reached config strOf own inTurn first s) : Sound own s := by
  induction h with
  | start =>
    intro c hc
    rw [hfirst] at hc
    cases hc
  | write draft hown _ h ih =>
    exact h.keep (asks_writeMemory draft.toDraftFields (touches_writesOnly hown))
      (fun _ _ _ _ hop hs hstep => sound_step hs hop hstep) ih
  | rebuild _ h ih =>
    exact h.keep (asks_rebuildIndex touches_readsOnly)
      (fun _ _ _ _ hop hs hstep => sound_step hs hop hstep) ih
  | latest _ h ih =>
    exact h.keep (asks_latestMemoryCommit touches_readsOnly)
      (fun _ _ _ _ hop hs hstep => sound_step hs hop hstep) ih
  | others _ h htiming ih => exact fun c hc => (ih c hc).others h (htiming c hc).1

end Invariant

section Proceeding

variable {own : Own} {c c' : Checkout String (List Char)} {remote : Sha}

/-- The files of a branch that was moved forward to the remote head. -/
def moved (c : Checkout String (List Char)) (remote : Sha) : Checkout String (List Char) where
  history := remote
  index path := if headTree remote path = headTree c.history path then c.index path
    else headTree remote path
  worktree path := if headTree remote path = headTree c.history path then c.worktree path
    else headTree remote path

/-- A branch in step can be pulled, and then has the remote head. -/
theorem InStep.exists_pull (h : InStep own c remote) :
    ∃ c', Pulls c remote c' ∧ remote <:+ c'.history := by
  by_cases hahead : remote <:+ c.history
  · exact ⟨c, .upToDate hahead, hahead⟩
  · have hancestor := h.comparable.resolve_left hahead
    refine ⟨moved c remote, .fastForward _ hahead hancestor rfl ?_ ?_, List.suffix_refl _⟩
    · intro path hchanged
      have hother : Foreign own path := by
        intro id hid hpath
        rw [hpath] at hchanged
        exact hchanged (h.behind hahead id hid)
      obtain ⟨hindex, hworktree⟩ := h.clean path hother
      exact ⟨hindex, hworktree, if_neg hchanged, if_neg hchanged⟩
    · intro path hsame
      exact ⟨if_pos hsame, if_pos hsame⟩

variable {env : Environment git} {config : Config} {strOf : Json → String} {origin : String}
variable {s s' : Store} {path : String} {content : List Char} {message : String}

theorem quiet_shared {timing : Timing}
    (h : ∀ s op, CommitsAhead s op → timing s (some op) s.remote) :
    Quiet (sharedEnvironment own timing) :=
  fun s op _ _ hop hstep => ⟨s.remote, .nothing, h s op hop, hstep⟩

theorem quiet_inTurn : Quiet (sharedEnvironment own inTurn) := by
  refine quiet_shared fun s op hop c hc => ⟨fun hmoved => absurd rfl hmoved, ?_⟩
  intro path message heq
  exact hop c hc path message (Option.some.inj heq)

theorem quiet_anyTime : Quiet (sharedEnvironment own anyTime) :=
  quiet_shared fun _ _ _ => trivial

/-- Every write can come to its end from a branch in step. -/
theorem may_write (horigin : config.sameOrigin origin = true) (draft : DraftFields)
    (h : InStep own (localCheckout s) s.remote) :
    ∃ result s', May gitEnvironment (writeMemory config strOf draft) s
      (.returned result s') := by
  obtain ⟨c, hpull, hahead⟩ := h.exists_pull
  exact may_finish horigin draft hpull hahead

/-- A checkout is in step, and a fresh one is too. -/
theorem Sound.localCheckout (h : Sound own s) : InStep own (localCheckout s) s.remote := by
  unfold DurableWrite.localCheckout
  cases hcheckout : s.checkout with
  | none => exact InStep.ahead (List.suffix_refl _) fun _ _ => ⟨rfl, rfl⟩
  | some c => exact h c hcheckout

/-- While others push in turn, the two heads are comparable between any two operations,
the next pull succeeds and leaves a branch that can be pushed, and every write can
come to its end. -/
theorem never_wedged {first : Store} (hfirst : first.checkout = none)
    (h : Reached config strOf own inTurn first s) :
    Comparable s ∧
      (∀ c, s.checkout = some c → ∃ c', Pulls c s.remote c' ∧ s.remote <:+ c'.history) ∧
      ∀ origin draft, config.sameOrigin origin = true →
        ∃ result s', May gitEnvironment (writeMemory config strOf draft) s
          (.returned result s') := by
  have hsound := reached_sound hfirst h
  refine ⟨fun c hc => (hsound c hc).comparable, fun c hc => (hsound c hc).exists_pull, ?_⟩
  intro origin draft horigin
  exact may_write horigin draft hsound.localCheckout

end Proceeding

section Diverged

variable {α : Type} {config : Config} {strOf : Json → String} {own : Own} {timing : Timing}
variable {s s' : Store}

def Diverged (s : Store) : Prop :=
  ∃ c, s.checkout = some c ∧ ¬ s.remote <:+ c.history ∧ ¬ c.history <:+ s.remote

theorem Diverged.not_comparable (h : Diverged s) : ¬ Comparable s := by
  obtain ⟨c, hc, hahead, hbehind⟩ := h
  intro hcomparable
  rcases hcomparable c hc with h | h
  · exact hahead h
  · exact hbehind h

/-- Later pushes of others do not bring the heads together. -/
theorem Diverged.others {remote : Sha} (h : Diverged s) (hpush : OthersPush own s.remote remote) :
    Diverged ⟨s.checkout, remote⟩ := by
  obtain ⟨c, hc, hahead, hbehind⟩ := h
  refine ⟨c, hc, fun h => hahead (hpush.suffix.trans h), fun h => ?_⟩
  rcases List.suffix_or_suffix_of_suffix hpush.suffix h with h | h
  · exact hahead h
  · exact hbehind h

/-- A command that succeeds leaves the heads apart, and is neither a pull nor a push. -/
theorem Diverged.succeeds {op : GitOp} {reply : op.Reply} (h : Diverged s)
    (hstep : Succeeds s op reply s') : Diverged s' ∧ op ≠ .pull ∧ op ≠ .push := by
  obtain ⟨c, hc, hahead, hbehind⟩ := h
  have hpull : op ≠ .pull := by
    rintro rfl
    obtain ⟨c₀, c', hc₀, hpulls, -⟩ := hstep
    rw [hc] at hc₀
    cases hc₀
    have hpulls : Pulls c s.remote c' := hpulls
    cases hpulls with
    | upToDate h => exact hahead h
    | fastForward _ _ h => exact hbehind h
  have hpush : op ≠ .push := by
    rintro rfl
    obtain ⟨c₀, hc₀, ⟨-, h⟩, -⟩ := hstep
    rw [hc] at hc₀
    cases hc₀
    exact hahead h
  refine ⟨?_, hpull, hpush⟩
  rcases succeeds_cases hstep with ⟨hnone, -⟩ | ⟨c₀, hc₀, h, -⟩ | ⟨c₀, c', hc₀, hstep, rfl⟩
  · rw [hc] at hnone
    cases hnone
  · rw [hc] at hc₀
    cases hc₀
    exact absurd h hahead
  · rw [hc] at hc₀
    cases hc₀
    rcases checkoutStep_cases hstep with rfl | ⟨h, -⟩ | ⟨path, text, -, rfl⟩ | ⟨path, -, rfl⟩ |
      ⟨path, message, -, -, rfl⟩
    · exact ⟨c', rfl, hahead, hbehind⟩
    · exact absurd h hpull
    · exact ⟨_, rfl, hahead, hbehind⟩
    · exact ⟨_, rfl, hahead, hbehind⟩
    · refine ⟨_, rfl, fun h => ?_, fun h => hbehind ((List.suffix_cons _ _).trans h)⟩
      rcases List.suffix_cons_iff.mp h with h | h
      · exact hbehind (h ▸ List.suffix_cons _ _)
      · exact hahead h

theorem Diverged.step {op : GitOp} {r : Except PyExc op.Reply} (h : Diverged s)
    (hstep : sharedEnvironment own timing s op r s') : Diverged s' := by
  obtain ⟨remote, hpush, -, hstep⟩ := hstep
  have hpushed := h.others hpush
  cases r with
  | ok reply => exact (hpushed.succeeds hstep).1
  | error e =>
    rcases hstep with rfl | ⟨reply, hstep⟩
    · exact hpushed
    · exact (hpushed.succeeds hstep).1

/-- What begins with a pull does not return. -/
theorem Diverged.no_return {f : Unit → Unit → Prog git α} (h : Diverged s) :
    Ensures (sharedEnvironment own timing)
      ((ensureCheckout config).bind fun a => (command .pull).bind (f a)) s
      (Does (fun _ => True) fun _ _ => False) := by
  have hchecked : Ensures (sharedEnvironment own timing) (ensureCheckout config) s
      (Does (fun _ => True) fun _ s' => Diverged s') := by
    intro t o hrun
    obtain ⟨-, hreturned, -⟩ := hrun.keep (asks_ensureCheckout fun _ _ => trivial)
      (fun _ _ _ _ _ hs hstep => Diverged.step hs hstep) h
    exact ⟨fun _ _ => trivial, hreturned⟩
  refine does_bind hchecked fun _ s' hs' => ?_
  refine does_bind (Q := fun _ _ => False) (does_call trivial fun reply s'' hstep => ?_) ?_
  · obtain ⟨remote, hpush, -, hstep⟩ := hstep
    have hpulled : Succeeds ⟨s'.checkout, remote⟩ .pull reply s'' := hstep
    exact ((hs'.others hpush).succeeds hpulled).2.1 rfl
  · intro _ _ hfalse
    exact hfalse.elim

theorem Diverged.reached {first : Store} (h : Diverged first)
    (hreached : Reached config strOf own timing first s) : Diverged s := by
  have hstep : ∀ (s : Store) (op : GitOp) (r : Except PyExc op.Reply) (s' : Store), True →
      Diverged s → sharedEnvironment own timing s op r s' → Diverged s' :=
    fun _ _ _ _ _ hs hstep => hs.step hstep
  induction hreached with
  | start => exact h
  | write draft _ _ h ih => exact h.keep (asks_writeMemory _ fun _ _ => trivial) hstep ih
  | rebuild _ h ih => exact h.keep (asks_rebuildIndex fun _ _ => trivial) hstep ih
  | latest _ h ih => exact h.keep (asks_latestMemoryCommit fun _ _ => trivial) hstep ih
  | others _ h _ ih => exact ih.others h

/-- Once the heads have diverged they stay so, whatever the store and the others do,
and no operation that refreshes ever returns again. -/
theorem diverged_wedged {first : Store} (h : Diverged first)
    (hreached : Reached config strOf own timing first s) :
    Diverged s ∧
      (∀ draft, Ensures (sharedEnvironment own timing) (writeMemory config strOf draft) s
        fun _ o => ∀ result s', o ≠ .returned result s') ∧
      (Ensures (sharedEnvironment own timing) (rebuildIndex config true) s
        fun _ o => ∀ index s', o ≠ .returned index s') ∧
      ∀ id, Ensures (sharedEnvironment own timing) (latestMemoryCommit config id true) s
        fun _ o => ∀ found s', o ≠ .returned found s' := by
  have hdiverged := h.reached hreached
  exact ⟨hdiverged,
    fun draft => hdiverged.no_return.mono fun _ _ ho result s' hreturn => ho.2 result s' hreturn,
    hdiverged.no_return.mono fun _ _ ho index s' hreturn => ho.2 index s' hreturn,
    fun id => hdiverged.no_return.mono fun _ _ ho found s' hreturn => ho.2 found s' hreturn⟩

end Diverged

section Samples

variable {config : Config} {origin : String}

def sampleOther : Commit String (List Char) :=
  ⟨Function.update (fun _ => none) "README.md" (some "Memories".toList), "Describe the branch"⟩

theorem memoryPath_ne_readme (id : String) : memoryPath id ≠ "README.md" := by
  intro h
  have hhead : (memoryPath id).toList.head? = "README.md".toList.head? := by rw [h]
  simp [memoryPath, memoriesDirectory] at hhead

theorem sampleOther_memories (id : String) : sampleOther.tree (memoryPath id) = none :=
  Function.update_of_ne (memoryPath_ne_readme id) (some "Memories".toList) fun _ => none

theorem sampleOther_push (own : Own) :
    OthersPush own sampleRemote (sampleOther :: sampleRemote) :=
  .commit .nothing fun id _ => sampleOther_memories id

/-- A first write commits its memory, and its push fails. -/
theorem may_fail_push {env : Environment git} (hquiet : Quiet env)
    (horigin : config.sameOrigin origin = true) (strOf : Json → String) (draft : DraftFields)
    (e : PyExc) (remote : Sha)
    (hpush : ∀ c, env ⟨some c, sampleRemote⟩ .push (.error e) ⟨some c, remote⟩) :
    ∃ c, May env (writeMemory config strOf draft) ⟨none, sampleRemote⟩
        (.raised e ⟨some c, remote⟩) ∧
      (∃ commit, c.history = commit :: sampleRemote) ∧
      headTree c.history (memoryPath draft.source.resolutionId) ≠ none := by
  have hfresh : Pulls (localCheckout ⟨none, sampleRemote⟩) sampleRemote
      (GitHistory.clone sampleRemote) := .upToDate (List.suffix_refl _)
  obtain ⟨c, result, hhead, hgrown, hwrite⟩ := may_writeMemory (s := ⟨none, sampleRemote⟩)
    hquiet horigin strOf draft hfresh (List.suffix_refl _)
  refine ⟨c, hwrite _ (may_fail (hpush c)), ?_, hhead⟩
  rcases hgrown with hsame | hnew
  · rw [hsame] at hhead
    exact absurd rfl hhead
  · exact hnew

/-- A failed push of the store alone leaves a branch that the next pull and push accept. -/
theorem never_wedged_sample : ∃ own s c commit,
    Reached sampleConfig (fun _ => "") own inTurn ⟨none, sampleRemote⟩ s ∧ s.checkout = some c ∧
      c.history = commit :: s.remote ∧ Comparable s ∧
      ∃ c', Pulls c s.remote c' ∧ s.remote <:+ c'.history := by
  obtain ⟨draft⟩ := exists_draft
  obtain ⟨c, ⟨t, hrun⟩, ⟨commit, hnew⟩, -⟩ := may_fail_push quiet_inTurn sampleConfig_origin
    (fun _ => "") draft.toDraftFields (gitMemoryError "push failed") sampleRemote
    fun c => ⟨sampleRemote, .nothing, fun _ _ => ⟨fun h => absurd rfl h, fun _ _ h => nomatch h⟩,
      .inl rfl⟩
  have hreached : Reached sampleConfig (fun _ => "") (· = draft.source.resolutionId) inTurn
      ⟨none, sampleRemote⟩ ⟨some c, sampleRemote⟩ := .write draft rfl .start (.raised hrun)
  obtain ⟨hcomparable, hpull, -⟩ := never_wedged rfl hreached
  exact ⟨_, _, c, commit, hreached, rfl, hnew, hcomparable, hpull c rfl⟩

/-- A push of somebody else between the pull and the push of a first write sets the
heads apart. -/
theorem push_race : ¬ ∀ config strOf own first s, first.checkout = none →
    Reached config strOf own anyTime first s → Comparable s := by
  intro hclaim
  obtain ⟨draft⟩ := exists_draft
  obtain ⟨c, ⟨t, hrun⟩, ⟨commit, hnew⟩, hhead⟩ := may_fail_push quiet_anyTime
    sampleConfig_origin (fun _ => "") draft.toDraftFields (gitMemoryError "push failed")
    (sampleOther :: sampleRemote)
    fun c => ⟨_, sampleOther_push _, trivial, .inl rfl⟩
  have hreached : Reached sampleConfig (fun _ => "") (· = draft.source.resolutionId) anyTime
      ⟨none, sampleRemote⟩ ⟨some c, sampleOther :: sampleRemote⟩ :=
    .write draft rfl .start (.raised hrun)
  rw [hnew] at hhead
  have hother : sampleOther ≠ commit := by
    rintro rfl
    exact hhead (sampleOther_memories _)
  have hdiverged : Diverged ⟨some c, sampleOther :: sampleRemote⟩ := by
    refine ⟨c, rfl, ?_, ?_⟩
    · rw [hnew]
      intro h
      exact hother (List.cons.inj (h.eq_of_length rfl)).1
    · rw [hnew]
      intro h
      exact hother (List.cons.inj (h.eq_of_length rfl)).1.symm
  exact hdiverged.not_comparable (hclaim _ _ _ _ _ rfl hreached)

end Samples

end FailureResolver.SharedBranch
