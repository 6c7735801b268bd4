import FailureResolver.IngestionDiscipline

/-!
A call of `learnResolution` as a contender for a failure row. It claims a row only
while it holds none, acknowledges only the row it holds, and refreshes a commit
only against the row it has read. It ends holding nothing, if no await is
cancelled and its acknowledgements go through.
-/

namespace FailureResolver.ClaimDiscipline

open IngestionDiscipline JsonValue LearnResolution Program PyException ResolutionEpisode
open ResolutionMemory RowText TaskPool

section Modes

/-- The claim a call has not acknowledged yet, and the failure row it read last. -/
structure Mode where
  held : Option Claim
  read : Option (String × Fields)

def Mode.idle : Mode := ⟨none, none⟩

def acknowledged : Op → Option String
  | .markMemoryIngested failureId _ _ => some failureId
  | .markMemoryFailed failureId _ => some failureId
  | _ => none

def Mode.after (m : Mode) : (op : Op) → Except PyExc op.Reply → Mode
  | .claimMemory failureId _ resolutionId, .ok true =>
      { m with held := some ⟨failureId, resolutionId⟩ }
  | .fetchFailure failureId, .ok (some row) => { m with read := some (failureId, row) }
  | .markMemoryIngested .., _ => { m with held := none }
  | .markMemoryFailed .., _ => { m with held := none }
  | _, _ => m

def Permitted (m : Mode) : Op → Prop
  | .claimMemory _ status _ => m.held = none ∧ status ∈ claimableStatuses
  | .markMemoryIngested failureId _ _ => ∃ resolutionId, m.held = some ⟨failureId, resolutionId⟩
  | .markMemoryFailed failureId _ => ∃ resolutionId, m.held = some ⟨failureId, resolutionId⟩
  | .refreshMemoryIngested failureId resolutionId _ expected =>
      ∃ row, m.read = some (failureId, row) ∧
        isIngestedMemoryAck (some row) resolutionId = true ∧ expected = memoryAckCommit (some row)
  | _ => True

/-- The call is not cancelled, and its acknowledgement goes through. -/
structure Answered (op : Op) (r : Except PyExc op.Reply) : Prop where
  exception : ∀ e, r = .error e → e.isException = true
  sent : acknowledged op ≠ none → ∃ a, r = .ok a

/-- A call that holds a row finds the client connected when it goes on. -/
def contention (Repository : Type) : Discipline (learning Repository) Mode where
  rely m w := m.held ≠ none → w.clientSet = true
  act m w m' w' := m' = m ∧ w'.failures = w.failures ∧ w'.clientSet = w.clientSet
  request m _ op := Permitted m op
  answer m op r m' := Answered op r ∧ m' = m.after op r

variable {Repository : Type}

abbrev Connected (m : Mode) (w : World Repository) : Prop := (contention Repository).rely m w

end Modes

section Parts

variable {Repository α β : Type} {m : Mode} {w : World Repository}
variable {p : Learning Repository α} {f : α → Learning Repository β} {op : Op}

/-- Neither a claim, a read of a failure row nor an update of one. -/
def isQuiet : Op → Bool
  | .claimMemory .. => false
  | .fetchFailure .. => false
  | .markMemoryIngested .. => false
  | .markMemoryFailed .. => false
  | .refreshMemoryIngested .. => false
  | _ => true

theorem after_quiet (h : isQuiet op = true) (r : Except PyExc op.Reply) : m.after op r = m := by
  cases op with
  | claimMemory => contradiction
  | fetchFailure => contradiction
  | markMemoryIngested => contradiction
  | markMemoryFailed => contradiction
  | _ => rfl

theorem permitted_quiet (h : isQuiet op = true) : Permitted m op := by
  cases op with
  | claimMemory => contradiction
  | markMemoryIngested => contradiction
  | markMemoryFailed => contradiction
  | refreshMemoryIngested => contradiction
  | _ => trivial

/-- A part that changes neither what is held nor what was read. -/
structure Kept (m : Mode) (r : Except PyExc α) (m' : Mode) (w : World Repository) : Prop where
  mode : m' = m
  connected : Connected m w
  exception : ∀ e, r = .error e → e.isException = true

/-- A part that ends with nothing held, or with an error that changes nothing. -/
structure Closed (m : Mode) (r : Except PyExc α) (m' : Mode) (w : World Repository) : Prop where
  returned : ∀ a, r = .ok a → m'.held = none
  failed : ∀ e, r = .error e → Kept m r m' w

theorem kept_ok (h : Connected m w) (a : α) : Kept m (.ok a) m w :=
  ⟨rfl, h, fun _ he => (nomatch he)⟩

theorem kept_error (h : Connected m w) {e : PyExc} (he : e.isException = true) :
    Kept m (.error e : Except PyExc α) m w := by
  refine ⟨rfl, h, fun e' he' => ?_⟩
  rw [Except.error.injEq] at he'
  exact he' ▸ he

theorem closed_ok (h : m.held = none) {m' : Mode} (a : α) :
    Closed m' (.ok a : Except PyExc α) m w :=
  ⟨fun _ _ => h, fun _ he => (nomatch he)⟩

theorem Kept.closed {e : PyExc} {m' : Mode} (h : Kept m (.error e : Except PyExc α) m' w) :
    Closed m (.error e : Except PyExc β) m' w := by
  refine ⟨fun a ha => (nomatch ha), fun e' he' => ⟨h.mode, h.connected, fun e'' he'' => ?_⟩⟩
  rw [Except.error.injEq] at he''
  exact h.exception e'' (congrArg Except.error he'')

/-- Two parts that keep the mode. -/
theorem obeys_kept_bind (hp : Obeys (contention Repository) (Kept m) p m w)
    (hf : ∀ a w', Connected m w' → Obeys (contention Repository) (Kept m) (f a) m w') :
    Obeys (contention Repository) (Kept m) (p.bind f) m w := by
  rw [obeys_bind]
  refine hp.mono fun r m' w' hkept => ?_
  obtain ⟨rfl, hconnected, hexception⟩ := hkept
  cases r with
  | ok a => exact hf a w' hconnected
  | error e => exact kept_error hconnected (hexception e rfl)

/-- A part that keeps the mode before one that closes. -/
theorem obeys_closed_bind (hp : Obeys (contention Repository) (Kept m) p m w)
    (hf : ∀ a w', Connected m w' → Obeys (contention Repository) (Closed m) (f a) m w') :
    Obeys (contention Repository) (Closed m) (p.bind f) m w := by
  rw [obeys_bind]
  refine hp.mono fun r m' w' hkept => ?_
  cases r with
  | ok a =>
    obtain ⟨rfl, hconnected, -⟩ := hkept
    exact hf a w' hconnected
  | error e => exact hkept.closed

theorem obeys_settled_bind {x : Except PyExc α} (hx : ErrorOnly x) (hconnected : Connected m w)
    (hf : ∀ a, Obeys (contention Repository) (Closed m) (f a) m w) :
    Obeys (contention Repository) (Closed m) ((Prog.settle x).bind f) m w := by
  cases x with
  | ok a => exact hf a
  | error e => exact (kept_error (α := α) hconnected (hx e rfl)).closed

theorem obeys_quiet_call (h : isQuiet op = true) :
    Obeys (contention Repository) (Kept m) (Prog.call (σ := learning Repository) op) m w := by
  refine obeys_call.mpr ⟨permitted_quiet h, fun r m' w' hanswer hconnected => ?_⟩
  obtain ⟨hanswered, rfl⟩ := hanswer
  rw [after_quiet h] at hconnected ⊢
  exact ⟨rfl, hconnected, hanswered.exception⟩

/-- A call through the client; without one it fails, if the call holds nothing. -/
theorem obeys_query {Q : Except PyExc op.Reply → Mode → World Repository → Prop}
    (hconnected : Connected m w) (hpermitted : Permitted m op)
    (hanswered : ∀ r w', Answered op r → Connected (m.after op r) w' → Q r (m.after op r) w')
    (hdown : m.held = none → Q (.error clientUnavailable) m w) :
    Obeys (contention Repository) Q (query op) m w := by
  apply obeys_client_query (fun _ => hpermitted)
  · rintro r m' w' ⟨hthere, rfl⟩ hconnected'
    exact hanswered r w' hthere hconnected'
  · intro hclient
    apply hdown
    by_contra hheld
    exact hclient (hconnected hheld)

theorem obeys_quiet_query (h : isQuiet op = true) (hconnected : Connected m w) :
    Obeys (contention Repository) (Kept m) (query op) m w := by
  refine obeys_query hconnected (permitted_quiet h) (fun r w' hanswered hconnected' => ?_)
    fun _ => kept_error hconnected rfl
  rw [after_quiet h] at hconnected' ⊢
  exact ⟨rfl, hconnected', hanswered.exception⟩

/-- An acknowledgement of the row that is held. -/
theorem obeys_acknowledgement (hconnected : Connected m w) (hheld : m.held ≠ none)
    (hpermitted : Permitted m op) (hack : acknowledged op ≠ none) :
    Obeys (contention Repository) (fun r m' _ => m'.held = none ∧ ∃ a, r = .ok a) (query op)
      m w := by
  refine obeys_query hconnected hpermitted (fun r w' hanswered _ => ⟨?_, hanswered.sent hack⟩)
    fun hnone => absurd hnone hheld
  cases op with
  | markMemoryIngested => rfl
  | markMemoryFailed => rfl
  | _ => exact absurd rfl hack

end Parts

section Ingest

variable {Repository : Type} {m : Mode} {w : World Repository} {c : Ingestion}
variable {source : ResolutionSource} {store : StoreName}

/-- A claimed ingestion holds its row, any other holds none, and the linked row is
the one that was read. -/
structure Ready (c : Ingestion) (m : Mode) : Prop where
  claimed : c.acknowledgement = .claimed →
    ∃ failureId, c.failureId = some failureId ∧ m.held = some ⟨failureId, c.resolutionId⟩
  other : c.acknowledgement ≠ .claimed → m.held = none
  linked : ∀ row, c.linkedFailure = some row →
    ∃ failureId, c.failureId = some failureId ∧ m.read = some (failureId, row)

theorem obeys_storeFor (devMemoryStore : Bool) (row : Fields) (hconnected : Connected m w) :
    Obeys (contention Repository) (Kept m) (storeFor devMemoryStore row) m w := by
  unfold storeFor
  simp only [Prog.pure_eq, Prog.bind_eq]
  by_cases hstore : devMemoryStore = true
  · rw [if_neg (by simp [hstore])]
    by_cases hsysid : rowSysid row = ""
    · rw [if_pos hsysid]
      exact kept_ok hconnected _
    · rw [if_neg hsysid]
      exact obeys_kept_bind (obeys_quiet_query rfl hconnected)
        fun _ _ hconnected' => kept_ok hconnected' _
  · rw [if_pos (by simp [hstore])]
    exact kept_ok hconnected _

theorem obeys_existingCommit (resolutionId : String) (hconnected : Connected m w) :
    Obeys (contention Repository) (Kept m) (existingCommit store resolutionId) m w := by
  unfold existingCommit
  rw [obeys_get]
  split
  · split
    · exact obeys_quiet_call rfl
    · exact kept_ok hconnected _
  · exact obeys_quiet_call rfl

/-- The acknowledgement of an ingested memory lets the row go. -/
theorem obeys_markMemoryIngested (hready : Ready c m) (hclaimed : c.acknowledgement = .claimed)
    (commitSha : Option String) (hconnected : Connected m w) {α : Type} (a : α) :
    Obeys (contention Repository) (Closed m)
      ((markMemoryIngested c.failureId source.resolutionId commitSha).bind fun _ => .ret a)
      m w := by
  obtain ⟨failureId, hfailure, hheld⟩ := hready.claimed hclaimed
  have hpermitted : Permitted m (.markMemoryIngested failureId source.resolutionId commitSha) :=
    ⟨c.resolutionId, hheld⟩
  rw [obeys_bind, hfailure]
  refine (obeys_acknowledgement hconnected (by simp [hheld]) hpermitted
    (by simp [acknowledged])).mono fun r m' w' hsent => ?_
  obtain ⟨hnone, b, rfl⟩ := hsent
  exact closed_ok hnone a

/-- A refresh against the commit of the row that was read. -/
theorem obeys_refreshMemoryIngested (hready : Ready c m) (hother : c.acknowledgement ≠ .claimed)
    {resolutionId : String} (hack : isIngestedMemoryAck c.linkedFailure resolutionId = true)
    (commitSha : String) (hconnected : Connected m w) {α : Type} (a : α) :
    Obeys (contention Repository) (Closed m)
      ((refreshMemoryIngested c.failureId resolutionId commitSha
        (memoryAckCommit c.linkedFailure)).bind fun _ => .ret a) m w := by
  have hnone := hready.other hother
  cases hlinked : c.linkedFailure with
  | none =>
    rw [hlinked] at hack
    contradiction
  | some row =>
    obtain ⟨failureId, hfailure, hread⟩ := hready.linked row hlinked
    rw [hlinked] at hack
    rw [hfailure]
    unfold refreshMemoryIngested
    simp only [Prog.bind_eq]
    rw [obeys_bind, obeys_bind]
    have hpermitted : Permitted m (.refreshMemoryIngested failureId resolutionId commitSha
        (memoryAckCommit (some row))) := ⟨row, hread, hack, rfl⟩
    refine obeys_query hconnected hpermitted (fun r w' hanswered hconnected' => ?_)
      fun _ => (kept_error (α := α) hconnected rfl).closed
    cases r with
    | ok updated => exact closed_ok hnone a
    | error e => exact (kept_error (α := α) hconnected' (hanswered.exception e rfl)).closed

theorem obeys_acknowledgeExisting (hready : Ready c m) (hconnected : Connected m w) :
    Obeys (contention Repository) (Closed m) (acknowledgeExisting c store source) m w := by
  unfold acknowledgeExisting
  rw [Prog.bind_eq]
  refine obeys_closed_bind (obeys_existingCommit _ hconnected) fun commitSha w' hconnected' => ?_
  cases commitSha with
  | none =>
    have hexception : (agentError "Existing memory has no Git commit provenance").isException =
        true := rfl
    exact (kept_error (α := Unit) hconnected' hexception).closed
  | some commitSha =>
    dsimp only
    by_cases hclaimed : c.acknowledgement = .claimed
    · rw [if_pos hclaimed]
      exact obeys_markMemoryIngested hready hclaimed _ hconnected' none
    · rw [if_neg hclaimed]
      by_cases hneeds : memoryAckNeedsCommitRefresh c.linkedFailure source.resolutionId
          commitSha = true
      · have hack : isIngestedMemoryAck c.linkedFailure source.resolutionId = true := by
          rw [memoryAckNeedsCommitRefresh, Bool.and_eq_true] at hneeds
          exact hneeds.1
        rw [if_pos hneeds]
        exact obeys_refreshMemoryIngested hready hclaimed hack commitSha hconnected' none
      · rw [if_neg hneeds]
        exact closed_ok (hready.other hclaimed) none

theorem obeys_acknowledgeWritten (hready : Ready c m) (result : MemoryWriteResult)
    (hconnected : Connected m w) :
    Obeys (contention Repository) (Closed m) (acknowledgeWritten c source result) m w := by
  unfold acknowledgeWritten
  by_cases hclaimed : c.acknowledgement = .claimed
  · rw [if_pos hclaimed]
    exact obeys_markMemoryIngested hready hclaimed _ hconnected (some result)
  · rw [if_neg hclaimed]
    cases result.commitSha with
    | none => exact closed_ok (hready.other hclaimed) (some result)
    | some commitSha =>
      dsimp only
      by_cases hchanged : (result.changed &&
          isIngestedMemoryAck c.linkedFailure source.resolutionId) = true
      · have hack := (Bool.and_eq_true _ _).mp hchanged
        rw [if_pos hchanged]
        exact obeys_refreshMemoryIngested hready hclaimed hack.2 commitSha hconnected (some result)
      · rw [if_neg hchanged]
        exact closed_ok (hready.other hclaimed) (some result)

theorem obeys_generalizeAndWrite (hready : Ready c m) (memoryRow : Fields) :
    Obeys (contention Repository) (Closed m) (generalizeAndWrite c store source memoryRow)
      m w := by
  unfold generalizeAndWrite
  simp only [Prog.bind_eq]
  refine obeys_closed_bind (obeys_quiet_call rfl) fun generalized w' hconnected => ?_
  by_cases hactions : Json.pyEqItems source.dispatchedActions generalized.demonstratedActions =
      false
  · rw [if_pos hactions]
    have hexception : (agentError
        "Generalized action evidence differs from the source").isException = true := rfl
    exact (kept_error (α := Unit) hconnected hexception).closed
  · rw [if_neg hactions]
    refine obeys_settled_bind (errorOnly_postInit _) hconnected fun draft => ?_
    refine obeys_closed_bind (obeys_quiet_call rfl) fun result w'' hconnected' => ?_
    obtain ⟨hfailures, hclient⟩ := learnCommit_failures source.resolutionId result w''
    have hlearned : Connected m (w''.learnCommit source.resolutionId result) := by
      intro hheld
      rw [hclient]
      exact hconnected' hheld
    have hacts : (contention Repository).act m w'' m
        (w''.learnCommit source.resolutionId result) := ⟨rfl, hfailures, hclient⟩
    exact ⟨m, hacts, obeys_acknowledgeWritten hready result hlearned⟩

/-- The part after the claim lets the row go, or ends with an error. -/
theorem obeys_ingest (devMemoryStore : Bool) (hready : Ready c m) (hconnected : Connected m w) :
    Obeys (contention Repository) (Closed m) (ingest c devMemoryStore) m w := by
  unfold ingest
  simp only [Prog.bind_eq]
  refine obeys_settled_bind (errorOnly_memoryRow _ _) hconnected fun row => ?_
  refine obeys_closed_bind (obeys_storeFor devMemoryStore row hconnected)
    fun store w' hconnected' => ?_
  refine obeys_settled_bind (errorOnly_resolutionSourceFromRow row) hconnected' fun source => ?_
  refine obeys_closed_bind (obeys_quiet_call rfl) fun present w'' hconnected'' => ?_
  by_cases hpresent : present = true
  · rw [if_pos hpresent]
    exact obeys_acknowledgeExisting hready hconnected''
  · rw [if_neg hpresent]
    exact obeys_generalizeAndWrite hready row

abbrev Ends (Repository α : Type) (_ : Except PyExc α) (m : Mode) (_ : World Repository) : Prop :=
  m.held = none

/-- The handler records the failed ingestion, and with it lets the row go. -/
theorem obeys_ingestHandler {e : PyExc} (hready : Ready c m) (hconnected : Connected m w)
    (hexception : e.isException = true) :
    Obeys (contention Repository) (Ends Repository _) (ingestHandler c e) m w := by
  have hcls : e.cls ≠ .cancelled := by
    intro hcancelled
    simp [PyExc.isException, hcancelled] at hexception
  unfold ingestHandler
  rw [if_neg hcls]
  by_cases hclaimed : c.acknowledgement = .claimed
  · obtain ⟨failureId, hfailure, hheld⟩ := hready.claimed hclaimed
    have hpermitted : Permitted m (.markMemoryFailed failureId c.resolutionId) :=
      ⟨c.resolutionId, hheld⟩
    rw [if_pos hclaimed, Prog.bind_eq, obeys_bind, obeys_tryCatch, hfailure]
    refine (obeys_acknowledgement hconnected (by simp [hheld]) hpermitted
      (by simp [acknowledged])).mono fun r m' w' hsent => ?_
    obtain ⟨hnone, b, rfl⟩ := hsent
    exact hnone
  · rw [if_neg hclaimed]
    exact hready.other hclaimed

end Ingest

section Calls

variable {Repository : Type} {m : Mode} {w : World Repository}

structure ClaimEnds (failureId : Option String) (resolutionId : String) (linked : Option Fields)
    (m : Mode) (r : Except PyExc Acknowledgement) (m' : Mode) (w : World Repository) : Prop where
  connected : Connected m' w
  exception : ∀ e, r = .error e → e.isException = true
  read : linked ≠ none → m'.read = m.read
  claimed : r = .ok .claimed →
    ∃ claimedId, failureId = some claimedId ∧ m'.held = some ⟨claimedId, resolutionId⟩
  other : r ≠ .ok .claimed → m'.held = none

theorem claimEnds_unclaimed {failureId : Option String} {resolutionId : String}
    {linked : Option Fields} {r : Except PyExc Acknowledgement} {m' : Mode}
    (hheld : m'.held = none) (hread : linked ≠ none → m'.read = m.read) (hr : r ≠ .ok .claimed)
    (hexception : ∀ e, r = .error e → e.isException = true) :
    ClaimEnds failureId resolutionId linked m r m' w :=
  ⟨fun h => absurd hheld h, hexception, hread, fun h => absurd h hr, fun _ => hheld⟩

theorem claimEnds_ret {failureId : Option String} {resolutionId : String}
    {linked : Option Fields} {m' : Mode} {a : Acknowledgement} (hheld : m'.held = none)
    (hread : linked ≠ none → m'.read = m.read) (ha : a ≠ .claimed) :
    ClaimEnds failureId resolutionId linked m (.ok a) m' w :=
  claimEnds_unclaimed hheld hread (fun h => ha (Except.ok.inj h)) fun _ he => nomatch he

/-- The compare-and-set of a claim. -/
theorem obeys_claimQuery {failureId status : String} (resolutionId : String)
    {linked : Option Fields} {m' : Mode} (hheld : m'.held = none)
    (hstatus : status ∈ claimableStatuses) (hread : linked ≠ none → m'.read = m.read) :
    Obeys (contention Repository) (ClaimEnds (some failureId) resolutionId linked m)
      ((query (.claimMemory failureId status resolutionId)).bind fun updated : Bool =>
        .ret (if updated then Acknowledgement.claimed else .ownedElsewhere)) m' w := by
  have hpermitted : Permitted m' (.claimMemory failureId status resolutionId) := ⟨hheld, hstatus⟩
  have hconnected : Connected m' w := fun h => absurd hheld h
  rw [obeys_bind]
  refine obeys_query hconnected hpermitted (fun r w' hanswered hconnected' => ?_) fun _ => ?_
  · cases r with
    | error e =>
      refine claimEnds_unclaimed hheld hread (fun h => nomatch h) fun e' he' => ?_
      exact hanswered.exception e' (congrArg Except.error (Except.error.inj he'))
    | ok updated =>
      cases updated with
      | false => exact claimEnds_ret hheld hread (by decide)
      | true =>
        exact ⟨hconnected', fun _ he => (nomatch he), hread, fun _ => ⟨failureId, rfl, rfl⟩,
          fun h => absurd rfl h⟩
  · refine claimEnds_unclaimed hheld hread (fun h => nomatch h) fun e he => ?_
    rw [← Except.error.inj he]
    rfl

/-- What is claimed of the row as it was found. -/
theorem obeys_claimFound {failureId : String} (resolutionId : String) {linked : Option Fields}
    {m' : Mode} (hheld : m'.held = none) (hread : linked ≠ none → m'.read = m.read)
    (current : Option Fields) :
    Obeys (contention Repository) (ClaimEnds (some failureId) resolutionId linked m)
      (match current with
        | none => Prog.ret Acknowledgement.untracked
        | some current =>
          if safeIdentifier (Fields.get current "memory_resolution_id") = some resolutionId ∧
              normalizedText (Fields.get current "memory_status") ∈ claimableStatuses then
            (query (.claimMemory failureId
                (normalizedText (Fields.get current "memory_status")) resolutionId)).bind
              fun updated : Bool =>
                .ret (if updated then Acknowledgement.claimed else .ownedElsewhere)
          else if safeIdentifier (Fields.get current "memory_resolution_id") =
              some resolutionId ∧
              normalizedText (Fields.get current "memory_status") = "ingesting" then
            .ret .ownedElsewhere
          else .ret .untracked) m' w := by
  cases current with
  | none => exact claimEnds_ret hheld hread (by decide)
  | some current =>
    dsimp only
    split
    · rename_i hclaimable
      exact obeys_claimQuery resolutionId hheld hclaimable.2 hread
    · split
      · exact claimEnds_ret hheld hread (by decide)
      · exact claimEnds_ret hheld hread (by decide)

theorem obeys_claimMemoryIngestion (failureId : Option String) (resolutionId : String)
    (linked : Option Fields) (hheld : m.held = none) :
    Obeys (contention Repository) (ClaimEnds failureId resolutionId linked m)
      (claimMemoryIngestion failureId resolutionId linked) m w := by
  unfold claimMemoryIngestion
  cases failureId with
  | none => exact claimEnds_ret hheld (fun _ => rfl) (by decide)
  | some failureId =>
    simp only [Prog.bind_eq, Prog.pure_eq]
    unfold currentFailureRow
    cases linked with
    | some row => exact obeys_claimFound resolutionId hheld (fun _ => rfl) (some row)
    | none =>
      -- the row is read again; what was read then is not the linked row
      rw [obeys_bind]
      have hconnected : Connected m w := fun h => absurd hheld h
      have hpermitted : Permitted m (.fetchFailure failureId) := trivial
      refine obeys_query hconnected hpermitted (fun r w' hanswered _ => ?_) fun _ => ?_
      · have hstill : (m.after (.fetchFailure failureId) r).held = none := by
          cases r with
          | error e => exact hheld
          | ok found => cases found <;> exact hheld
        cases r with
        | ok found => exact obeys_claimFound resolutionId hstill (fun h => absurd rfl h) found
        | error e =>
          refine claimEnds_unclaimed hstill (fun h => absurd rfl h) (fun h => nomatch h)
            fun e' he' => ?_
          exact hanswered.exception e' (congrArg Except.error (Except.error.inj he'))
      · refine claimEnds_unclaimed hheld (fun h => absurd rfl h) (fun h => nomatch h)
          fun e he => ?_
        rw [← Except.error.inj he]
        rfl

/-- The part under the handler of errors, from where the claim left the call. -/
theorem obeys_ingestClaimed {c : Ingestion} (devMemoryStore : Bool) (hready : Ready c m)
    (hconnected : Connected m w) :
    Obeys (contention Repository) (Ends Repository _) (ingestClaimed c devMemoryStore) m w := by
  unfold ingestClaimed
  by_cases helsewhere : c.acknowledgement = .ownedElsewhere
  · rw [if_pos helsewhere]
    apply hready.other
    rw [helsewhere]
    decide
  · rw [if_neg helsewhere, obeys_tryCatch]
    refine (obeys_ingest devMemoryStore hready hconnected).mono fun r m' w' hclosed => ?_
    cases r with
    | ok result => exact hclosed.returned result rfl
    | error e =>
      obtain ⟨rfl, hconnected', hexception⟩ := hclosed.failed e rfl
      exact obeys_ingestHandler hready hconnected' (hexception e rfl)

/-- The claim and what follows, once the linked failure row was looked up. -/
theorem obeys_claimAndIngest (devMemoryStore : Bool) (resolutionId : String) (row : Fields)
    (failureId : Option String) (linked : Option Fields) (hheld : m.held = none)
    (hlinked : ∀ found, linked = some found →
      ∃ claimedId, failureId = some claimedId ∧ m.read = some (claimedId, found)) :
    Obeys (contention Repository) (Ends Repository _)
      ((claimMemoryIngestion failureId resolutionId linked).bind fun acknowledgement =>
        ingestClaimed ⟨resolutionId, row, failureId, linked, acknowledgement⟩ devMemoryStore)
      m w := by
  rw [obeys_bind]
  refine (obeys_claimMemoryIngestion failureId resolutionId linked hheld).mono
    fun r m' w' hends => ?_
  cases r with
  | error e => exact hends.other fun h => nomatch h
  | ok acknowledgement =>
    refine obeys_ingestClaimed devMemoryStore ⟨fun hclaimed => ?_, fun hother => ?_,
      fun found hfound => ?_⟩ hends.connected
    · exact hends.claimed (congrArg Except.ok hclaimed)
    · exact hends.other fun h => hother (Except.ok.inj h)
    · obtain ⟨claimedId, hid, hread⟩ := hlinked found hfound
      have hsame := hends.read (fun hnone => by rw [hnone] at hfound; cases hfound)
      exact ⟨claimedId, hid, hsame.trans hread⟩

theorem obeys_learnRow (devMemoryStore : Bool) (resolutionId : String) (row : Fields)
    (hheld : m.held = none) :
    Obeys (contention Repository) (Ends Repository _)
      (learnRow devMemoryStore resolutionId row) m w := by
  unfold learnRow
  simp only [Prog.bind_eq, Prog.pure_eq]
  by_cases hpositive : isPositiveDemonstration row = false
  · rw [if_pos hpositive]
    exact hheld
  · rw [if_neg hpositive]
    unfold linkedFailureRow
    cases safeIdentifier (Fields.get row "failure_id") with
    | none =>
      exact obeys_claimAndIngest devMemoryStore resolutionId row none none hheld
        fun _ h => nomatch h
    | some failureId =>
      rw [obeys_bind]
      have hconnected : Connected m w := fun h => absurd hheld h
      have hpermitted : Permitted m (.fetchFailure failureId) := trivial
      refine obeys_query hconnected hpermitted (fun r w' _ _ => ?_) fun _ => hheld
      cases r with
      | error e => exact hheld
      | ok linked =>
        cases linked with
        | none =>
          exact obeys_claimAndIngest devMemoryStore resolutionId row (some failureId) none hheld
            fun _ h => nomatch h
        | some found =>
          refine obeys_claimAndIngest devMemoryStore resolutionId row (some failureId) (some found)
            hheld fun found' hfound => ⟨failureId, rfl, ?_⟩
          rw [Option.some.inj hfound]
          rfl

/-- A call of `learnResolution` contends as it may, and ends holding nothing. -/
theorem obeys_learnResolution (devMemoryStore : Bool) (resolutionId : String)
    (w : World Repository) :
    Obeys (contention Repository) (Ends Repository _)
      (learnResolution devMemoryStore resolutionId) Mode.idle w := by
  unfold learnResolution
  rw [Prog.bind_eq, obeys_bind]
  have hconnected : Connected Mode.idle w := fun h => absurd rfl h
  refine (obeys_quiet_query rfl hconnected).mono fun r m w' hkept => ?_
  obtain ⟨rfl, -, -⟩ := hkept
  cases r with
  | error e => rfl
  | ok found =>
    cases found with
    | none => rfl
    | some row => exact obeys_learnRow devMemoryStore resolutionId row rfl

end Calls

end FailureResolver.ClaimDiscipline
