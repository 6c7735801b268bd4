import FailureResolver.LearnResolution
import FailureResolver.TaskPool

/-!
What one call of `learnResolution` owes. A call that has claimed a row for
ingestion owes it an acknowledgement, and ends owing nothing, unless it is
cancelled before it sends the acknowledgement.
-/

namespace FailureResolver.IngestionDiscipline

open JsonValue LearnResolution Program PyException PyText PyUuid ResolutionEpisode
open ResolutionMemory RowText TaskPool Transitions

section Claims

variable {Repository : Type}

/-- A claim held by a call: the failure row and the resolution. -/
structure Claim where
  failureId : String
  resolutionId : String
  deriving DecidableEq

/-- The operation acknowledges the claim, as ingested or as failed. -/
def acknowledges (claim : Claim) : Op → Bool
  | .markMemoryIngested failureId resolutionId _ =>
      failureId = claim.failureId && resolutionId = claim.resolutionId
  | .markMemoryFailed failureId resolutionId =>
      failureId = claim.failureId && resolutionId = claim.resolutionId
  | _ => false

/-- The claim a call owes an acknowledgement for, from what it has awaited. -/
def owes (owed : Option Claim) : (op : Op) → Except PyExc op.Reply → Option Claim
  | .claimMemory failureId _ resolutionId, .ok true => some ⟨failureId, resolutionId⟩
  | op, _ => owed.filter fun claim => !acknowledges claim op

/-- The id is not blank and, where it reads as a UUID, is written as sources write it. -/
def CanonicalId (resolutionId : String) : Prop :=
  strip resolutionId ≠ "" ∧
    ∀ uuid, canonicalUuid (.str resolutionId) "resolution_id" = .ok uuid → uuid = resolutionId

end Claims

section Discipline

variable {Repository α β : Type} {owed : Option Claim} {w : World Repository}

/-- An answer that does not lose a claim: a call that owes an acknowledgement is
not cancelled before it sends it, and claims are made under canonical ids. -/
structure Undisturbed (owed : Option Claim) (op : Op) (r : Except PyExc op.Reply) : Prop where
  cancelled : ∀ claim, owed = some claim → ∀ e, r = .error e → e.isException = false →
    acknowledges claim op = true
  canonical : ∀ failureId status resolutionId, op = .claimMemory failureId status resolutionId →
    CanonicalId resolutionId

/-- A row that was fetched is the row that was asked for. -/
def Fetched : (op : Op) → Except PyExc op.Reply → Prop
  | .fetchResolution resolutionId, .ok (some row) =>
      Fields.get row "resolution_id" = .str resolutionId
  | _, _ => True

def isClaim : Op → Bool
  | .claimMemory .. => true
  | _ => false

/-- A call that owes an acknowledgement can send it, claims nothing else, and
leaves the columns of the rows alone. -/
def ingestion (Repository : Type) : Discipline (learning Repository) (Option Claim) where
  rely owed w := owed ≠ none → w.clientSet = true
  act owed w owed' w' :=
    owed' = owed ∧ w'.failures = w.failures ∧ w'.clientSet = w.clientSet
  request owed _ op := isClaim op = true → owed = none
  answer owed op r owed' := Undisturbed owed op r ∧ Fetched op r ∧ owed' = owes owed op r

abbrev Sendable (owed : Option Claim) (w : World Repository) : Prop :=
  (ingestion Repository).rely owed w

/-- The claim is still owed, and the part has not been cancelled. -/
def Carried (owed : Option Claim) (r : Except PyExc α) (owed' : Option Claim)
    (w : World Repository) : Prop :=
  owed' = owed ∧ Sendable owed w ∧ (owed ≠ none → ∀ e, r = .error e → e.isException = true)

/-- Nothing is owed any more, or the part has failed and the claim is still owed. -/
def Released (owed : Option Claim) (r : Except PyExc α) (owed' : Option Claim)
    (w : World Repository) : Prop :=
  owed' = none ∨ owed' = owed ∧ Sendable owed w ∧ ∃ e, r = .error e ∧ e.isException = true

def isPlain : Op → Bool
  | .claimMemory .. => false
  | .markMemoryIngested .. => false
  | .markMemoryFailed .. => false
  | _ => true

theorem not_isClaim_of_plain {op : Op} (h : isPlain op = true) : isClaim op = false := by
  cases op with
  | claimMemory => cases h
  | _ => rfl

theorem owes_plain {op : Op} (h : isPlain op = true) (r : Except PyExc op.Reply) :
    owes owed op r = owed := by
  cases op with
  | claimMemory => cases h
  | markMemoryIngested => cases h
  | markMemoryFailed => cases h
  | _ => cases owed <;> rfl

theorem acknowledges_plain {op : Op} (h : isPlain op = true) (claim : Claim) :
    acknowledges claim op = false := by
  cases op with
  | claimMemory => cases h
  | markMemoryIngested => cases h
  | markMemoryFailed => cases h
  | _ => rfl

theorem owes_none {op : Op} (h : isClaim op = false) (r : Except PyExc op.Reply) :
    owes none op r = none := by
  cases op with
  | claimMemory => cases h
  | _ => rfl

theorem owes_acknowledged {claim : Claim} {op : Op} (h : acknowledges claim op = true)
    (r : Except PyExc op.Reply) : owes (some claim) op r = none := by
  cases op with
  | markMemoryIngested => simp [owes, Option.filter, h]
  | markMemoryFailed => simp [owes, Option.filter, h]
  | _ => cases h

end Discipline

section Parts

variable {Repository α β : Type} {owed : Option Claim} {w : World Repository}
variable {p : Learning Repository α} {f : α → Learning Repository β} {op : Op}

/-- A part that carries the claim, and the rest. -/
theorem obeys_carried_bind {Q : Except PyExc β → Option Claim → World Repository → Prop}
    (hp : Obeys (ingestion Repository) (Carried owed) p owed w)
    (hf : ∀ a w', Sendable owed w' → Obeys (ingestion Repository) Q (f a) owed w')
    (herror : ∀ e w', Carried owed (.error e : Except PyExc α) owed w' → Q (.error e) owed w') :
    Obeys (ingestion Repository) Q (p.bind f) owed w := by
  rw [obeys_bind]
  refine hp.mono fun r owed' w' hcarried => ?_
  obtain ⟨rfl, hsend, hcancel⟩ := hcarried
  cases r with
  | ok a => exact hf a w' hsend
  | error e => exact herror e w' ⟨rfl, hsend, hcancel⟩

/-- A part that carries the claim before a part that releases it. -/
theorem obeys_released_bind (hp : Obeys (ingestion Repository) (Carried owed) p owed w)
    (hf : ∀ a w', Sendable owed w' →
      Obeys (ingestion Repository) (Released owed) (f a) owed w') :
    Obeys (ingestion Repository) (Released owed) (p.bind f) owed w := by
  refine obeys_carried_bind hp hf fun e w' hcarried => ?_
  by_cases hnone : owed = none
  · exact .inl hnone
  · exact .inr ⟨rfl, hcarried.2.1, e, rfl, hcarried.2.2 hnone e rfl⟩

theorem obeys_carried (hp : Obeys (ingestion Repository) (Carried owed) p owed w)
    (hf : ∀ a w', Sendable owed w' →
      Obeys (ingestion Repository) (Carried owed) (f a) owed w') :
    Obeys (ingestion Repository) (Carried owed) (p.bind f) owed w :=
  obeys_carried_bind hp hf fun _ _ hcarried =>
    ⟨rfl, hcarried.2.1, fun hsome e h => by cases h; exact hcarried.2.2 hsome _ rfl⟩

theorem obeys_carried_ret (hsend : Sendable owed w) (a : α) :
    Obeys (ingestion Repository) (Carried owed) (.ret a) owed w :=
  ⟨rfl, hsend, fun _ e h => by cases h⟩

/-- A computation between the claim and its release. -/
theorem obeys_settle_bind {x : Except PyExc α} (hx : ErrorOnly x) (hsend : Sendable owed w)
    (hf : ∀ a, x = .ok a → Obeys (ingestion Repository) (Released owed) (f a) owed w) :
    Obeys (ingestion Repository) (Released owed) ((Prog.settle x).bind f) owed w := by
  cases x with
  | ok a => exact hf a rfl
  | error e => exact .inr ⟨rfl, hsend, e, rfl, hx e rfl⟩

theorem obeys_carried_call (h : isPlain op = true) :
    Obeys (ingestion Repository) (Carried owed)
      (Prog.call (σ := learning Repository) op) owed w := by
  have hclaim : isClaim op = true → owed = none := by simp [not_isClaim_of_plain h]
  refine obeys_call.mpr ⟨hclaim, fun r owed' w' hanswer hsend => ?_⟩
  obtain ⟨hundisturbed, -, rfl⟩ := hanswer
  rw [owes_plain h] at hsend ⊢
  refine ⟨rfl, hsend, fun hsome e he => ?_⟩
  obtain ⟨claim, hclaim⟩ := Option.ne_none_iff_exists'.mp hsome
  cases hexception : e.isException with
  | true => rfl
  | false =>
    have hack := hundisturbed.cancelled claim hclaim e he hexception
    rw [acknowledges_plain h] at hack
    cases hack

theorem obeys_requiredClient (hsend : Sendable owed w) :
    Obeys (ingestion Repository) (Carried owed) requiredClient owed w := by
  unfold requiredClient
  show Obeys _ _ (if w.clientSet then _ else _) _ _
  by_cases hclient : w.clientSet = true
  · rw [if_pos hclient]
    exact obeys_carried_ret hsend ()
  · rw [if_neg hclient]
    exact ⟨rfl, hsend, fun hsome => absurd (hsend hsome) hclient⟩

theorem obeys_carried_query (h : isPlain op = true) (hsend : Sendable owed w) :
    Obeys (ingestion Repository) (Carried owed) (query op) owed w :=
  obeys_carried (obeys_requiredClient hsend) fun _ _ _ => obeys_carried_call h

/-- A call that owes nothing owes nothing as long as it does not claim. -/
theorem obeys_idle_query (h : isClaim op = false) :
    Obeys (ingestion Repository) (fun _ owed' _ => owed' = none) (query op) none w := by
  refine obeys_client_query (fun _ _ => rfl) (fun r owed' w' hanswer _ => ?_) fun _ => rfl
  rw [hanswer.2.2, owes_none h]

/-- An acknowledgement that can be sent releases the claim. -/
theorem obeys_acknowledge {claim : Claim} (h : acknowledges claim op = true)
    (hsend : Sendable (some claim) w) :
    Obeys (ingestion Repository) (fun _ owed' _ => owed' = none) (query op) (some claim) w := by
  have hclient : w.clientSet = true := hsend (by simp)
  have hclaim : isClaim op = true → some claim = none := by
    cases op with
    | markMemoryIngested => simp [isClaim]
    | markMemoryFailed => simp [isClaim]
    | _ => cases h
  refine obeys_client_query (fun _ => hclaim) (fun r owed' w' hanswer _ => ?_)
    fun hdown => absurd hclient hdown
  rw [hanswer.2.2, owes_acknowledged h]

end Parts

section Ingest

variable {Repository : Type} {owed : Option Claim} {w : World Repository} {c : Ingestion}
variable {source : ResolutionSource} {store : StoreName}

/-- A claimed ingestion owes the acknowledgement of its claim, any other nothing. -/
structure Tracks (c : Ingestion) (owed : Option Claim) : Prop where
  claimed : c.acknowledgement = .claimed →
    ∃ failureId, c.failureId = some failureId ∧ owed = some ⟨failureId, c.resolutionId⟩
  other : c.acknowledgement ≠ .claimed → owed = none

theorem released_none {α : Type} {r : Except PyExc α} : Released none r none w := .inl rfl

theorem obeys_storeFor (devMemoryStore : Bool) (row : Fields) (hsend : Sendable owed w) :
    Obeys (ingestion Repository) (Carried owed) (storeFor devMemoryStore row) owed w := by
  unfold storeFor
  simp only [Prog.pure_eq, Prog.bind_eq]
  by_cases hstore : devMemoryStore = true
  · rw [if_neg (by simp [hstore])]
    by_cases hsysid : rowSysid row = ""
    · rw [if_pos hsysid]
      exact obeys_carried_ret hsend _
    · rw [if_neg hsysid]
      exact obeys_carried (obeys_carried_query rfl hsend)
        fun _ _ hsend' => obeys_carried_ret hsend' _
  · rw [if_pos (by simp [hstore])]
    exact obeys_carried_ret hsend _

theorem obeys_existingCommit (resolutionId : String) (hsend : Sendable owed w) :
    Obeys (ingestion Repository) (Carried owed) (existingCommit store resolutionId) owed w := by
  unfold existingCommit
  rw [obeys_get]
  split
  · split
    · exact obeys_carried_call rfl
    · exact obeys_carried_ret hsend _
  · exact obeys_carried_call rfl

/-- The acknowledgement of an ingested memory releases the claim. -/
theorem obeys_markMemoryIngested (htracks : Tracks c owed) (hclaimed : c.acknowledgement = .claimed)
    (hid : source.resolutionId = c.resolutionId) (commitSha : Option String)
    (hsend : Sendable owed w) {α : Type} (a : α) :
    Obeys (ingestion Repository) (Released owed)
      ((markMemoryIngested c.failureId source.resolutionId commitSha).bind fun _ => .ret a)
      owed w := by
  obtain ⟨failureId, hfailure, rfl⟩ := htracks.claimed hclaimed
  have hack : acknowledges ⟨failureId, c.resolutionId⟩
      (.markMemoryIngested failureId c.resolutionId commitSha) = true := by
    simp [acknowledges]
  rw [obeys_bind, hfailure, hid]
  refine (obeys_acknowledge hack hsend).mono fun r owed' w' hnone => ?_
  cases r with
  | ok _ => exact .inl hnone
  | error e => exact .inl hnone

theorem obeys_refreshMemoryIngested (failureId : Option String)
    (resolutionId commitSha : String) (expected : Option String) {α : Type} (a : α) :
    Obeys (ingestion Repository) (Released none)
      ((refreshMemoryIngested failureId resolutionId commitSha expected).bind fun _ => .ret a)
      none w := by
  unfold refreshMemoryIngested
  cases failureId with
  | none => exact released_none
  | some failureId =>
    simp only [Prog.bind_eq]
    rw [obeys_bind, obeys_bind]
    refine (obeys_idle_query rfl).mono fun r owed' w' hnone => ?_
    subst hnone
    cases r with
    | ok _ => exact released_none
    | error e => exact released_none

theorem obeys_acknowledgeExisting (htracks : Tracks c owed)
    (hid : c.acknowledgement = .claimed → source.resolutionId = c.resolutionId)
    (hsend : Sendable owed w) :
    Obeys (ingestion Repository) (Released owed) (acknowledgeExisting c store source) owed w := by
  unfold acknowledgeExisting
  rw [Prog.bind_eq]
  refine obeys_released_bind (obeys_existingCommit _ hsend) fun commitSha w' hsend' => ?_
  cases commitSha with
  | none => exact .inr ⟨rfl, hsend', _, rfl, rfl⟩
  | some commitSha =>
    dsimp only
    by_cases hclaimed : c.acknowledgement = .claimed
    · rw [if_pos hclaimed]
      exact obeys_markMemoryIngested htracks hclaimed (hid hclaimed) _ hsend' none
    · rw [if_neg hclaimed, htracks.other hclaimed]
      split
      · exact obeys_refreshMemoryIngested _ _ _ _ none
      · exact released_none

theorem obeys_acknowledgeWritten (htracks : Tracks c owed)
    (hid : c.acknowledgement = .claimed → source.resolutionId = c.resolutionId)
    (result : MemoryWriteResult) (hsend : Sendable owed w) :
    Obeys (ingestion Repository) (Released owed) (acknowledgeWritten c source result) owed w := by
  unfold acknowledgeWritten
  by_cases hclaimed : c.acknowledgement = .claimed
  · rw [if_pos hclaimed]
    exact obeys_markMemoryIngested htracks hclaimed (hid hclaimed) _ hsend (some result)
  · rw [if_neg hclaimed, htracks.other hclaimed]
    split
    · split
      · exact obeys_refreshMemoryIngested _ _ _ _ (some result)
      · exact released_none
    · exact released_none

theorem learnCommit_failures (resolutionId : String) (result : MemoryWriteResult)
    (w : World Repository) : (w.learnCommit resolutionId result).failures = w.failures ∧
      (w.learnCommit resolutionId result).clientSet = w.clientSet := by
  unfold World.learnCommit
  split
  · split <;> exact ⟨rfl, rfl⟩
  · exact ⟨rfl, rfl⟩

theorem obeys_generalizeAndWrite (htracks : Tracks c owed)
    (hid : c.acknowledgement = .claimed → source.resolutionId = c.resolutionId)
    (memoryRow : Fields) :
    Obeys (ingestion Repository) (Released owed)
      (generalizeAndWrite c store source memoryRow) owed w := by
  unfold generalizeAndWrite
  simp only [Prog.bind_eq]
  refine obeys_released_bind (obeys_carried_call rfl) fun generalized w' hsend => ?_
  split
  · exact .inr ⟨rfl, hsend, _, rfl, rfl⟩
  · refine obeys_settle_bind (errorOnly_postInit _) hsend fun draft _ => ?_
    refine obeys_released_bind (obeys_carried_call rfl) fun result w' hsend => ?_
    obtain ⟨hfailures, hclient⟩ := learnCommit_failures source.resolutionId result w'
    refine obeys_released_bind ⟨owed, ⟨rfl, hfailures, hclient⟩, rfl, ?_, ?_⟩
      fun _ w'' hsend' => obeys_acknowledgeWritten htracks hid result hsend'
    · intro hsome
      rw [hclient]
      exact hsend hsome
    · intro _ e h
      cases h

/-- The part after the claim ends with the claim released, or with an error. -/
theorem obeys_ingest (devMemoryStore : Bool) (htracks : Tracks c owed)
    (hid : c.acknowledgement = .claimed →
      Fields.get c.row "resolution_id" = .str c.resolutionId ∧ CanonicalId c.resolutionId)
    (hsend : Sendable owed w) :
    Obeys (ingestion Repository) (Released owed) (ingest c devMemoryStore) owed w := by
  unfold ingest
  simp only [Prog.bind_eq]
  refine obeys_settle_bind (errorOnly_memoryRow _ _) hsend fun row hrow => ?_
  refine obeys_released_bind (obeys_storeFor devMemoryStore row hsend) fun store w' hsend' => ?_
  refine obeys_settle_bind (errorOnly_resolutionSourceFromRow row) hsend' fun source hsource => ?_
  have hsame : c.acknowledgement = .claimed → source.resolutionId = c.resolutionId := by
    intro hclaimed
    obtain ⟨hrowId, hcanonical⟩ := hid hclaimed
    have hthere : isMissingContextValue (Fields.get c.row "resolution_id") = false := by
      rw [hrowId]
      simpa [isMissingContextValue] using hcanonical.1
    have hsourceId := resolutionSourceFromRow_resolutionId hsource
    rw [get_memoryRow hrow (by decide) hthere, hrowId] at hsourceId
    exact hcanonical.2 _ hsourceId
  refine obeys_released_bind (obeys_carried_call rfl) fun present w'' hsend'' => ?_
  split
  · exact obeys_acknowledgeExisting htracks hsame hsend''
  · exact obeys_generalizeAndWrite htracks hsame row

/-- The handler records a failed ingestion, and with it releases the claim. -/
theorem obeys_ingestHandler {e : PyExc} {owed' : Option Claim} (htracks : Tracks c owed)
    (hreleased : owed' = none ∨ owed' = owed ∧ Sendable owed w ∧ e.isException = true) :
    Obeys (ingestion Repository) (fun _ owed' _ => owed' = none) (ingestHandler c e) owed' w := by
  have hidle : ∀ w' : World Repository,
      Obeys (ingestion Repository) (fun (_ : Except PyExc (Option MemoryWriteResult)) owed' _ =>
        owed' = none) (.raise e) none w' := fun _ => rfl
  have hrecord : ∀ owed'' : Option Claim, (owed'' = none ∨ owed'' = owed ∧ Sendable owed w) →
      c.acknowledgement = .claimed →
      Obeys (ingestion Repository) (fun _ owed' _ => owed' = none)
        (markMemoryFailed c.failureId c.resolutionId) owed'' w := by
    intro owed'' hcase hclaimed
    obtain ⟨failureId, hfailure, hsome⟩ := htracks.claimed hclaimed
    have hack : acknowledges ⟨failureId, c.resolutionId⟩
        (.markMemoryFailed failureId c.resolutionId) = true := by
      simp [acknowledges]
    rw [hfailure]
    have hclaim : isClaim (.markMemoryFailed failureId c.resolutionId) = false := rfl
    rcases hcase with rfl | ⟨rfl, hsend⟩
    · exact obeys_idle_query hclaim
    · rw [hsome] at hsend ⊢
      exact obeys_acknowledge hack hsend
  unfold ingestHandler
  by_cases hcancelled : e.cls = .cancelled
  · rw [if_pos hcancelled]
    rcases hreleased with rfl | ⟨-, -, hexception⟩
    · exact hidle w
    · simp [PyExc.isException, hcancelled] at hexception
  · rw [if_neg hcancelled]
    by_cases hclaimed : c.acknowledgement = .claimed
    · rw [if_pos hclaimed, Prog.bind_eq, obeys_bind, obeys_tryCatch]
      refine (hrecord owed' (hreleased.imp_right fun h => ⟨h.1, h.2.1⟩) hclaimed).mono
        fun r owed'' w' hnone => ?_
      subst hnone
      cases r with
      | ok _ => exact hidle w'
      | error e' =>
        show Obeys _ _ (if e'.isException then _ else _) _ _
        split
        · exact hidle w'
        · rfl
    · rw [if_neg hclaimed]
      rcases hreleased with rfl | ⟨rfl, -, -⟩
      · exact hidle w
      · rw [htracks.other hclaimed]
        exact hidle w

end Ingest

section Calls

variable {Repository : Type} {w : World Repository}

abbrev Ends (Repository : Type) (_ : Except PyExc (Option MemoryWriteResult))
    (owed : Option Claim) (_ : World Repository) : Prop := owed = none

/-- A part before the claim. -/
theorem obeys_idle_bind {α : Type} {op : Op} {f : op.Reply → Learning Repository α}
    {Q : Except PyExc α → Option Claim → World Repository → Prop} (h : isPlain op = true)
    (hf : ∀ a w', Fetched op (.ok a) → Obeys (ingestion Repository) Q (f a) none w')
    (herror : ∀ e w', Q (.error e) none w') :
    Obeys (ingestion Repository) Q ((query op).bind f) none w := by
  rw [obeys_bind]
  refine obeys_client_query (fun _ _ => rfl) (fun r owed' w' hanswer _ => ?_)
    fun _ => herror _ w
  rw [hanswer.2.2, owes_plain h]
  cases r with
  | ok a => exact hf a w' hanswer.2.1
  | error e => exact herror e w'

def ClaimEnds (failureId : Option String) (resolutionId : String)
    (r : Except PyExc Acknowledgement) (owed : Option Claim) (w : World Repository) : Prop :=
  owed = none ∧ r ≠ .ok .claimed ∨
    r = .ok .claimed ∧ CanonicalId resolutionId ∧ Sendable owed w ∧
      ∃ claimedId, failureId = some claimedId ∧ owed = some ⟨claimedId, resolutionId⟩

/-- The compare-and-set of a claim. -/
theorem obeys_claimQuery (failureId status resolutionId : String) :
    Obeys (ingestion Repository) (ClaimEnds (some failureId) resolutionId)
      ((query (.claimMemory failureId status resolutionId)).bind fun updated : Bool =>
        .ret (if updated then Acknowledgement.claimed else .ownedElsewhere)) none w := by
  rw [obeys_bind]
  refine obeys_client_query (fun _ _ => rfl) (fun r owed' w' hanswer hsend => ?_)
    fun _ => .inl ⟨rfl, by simp⟩
  obtain ⟨hundisturbed, -, rfl⟩ := hanswer
  cases r with
  | error e => exact .inl ⟨rfl, by simp⟩
  | ok updated =>
    cases updated with
    | false => exact .inl ⟨rfl, by simp⟩
    | true =>
      have hcanonical := hundisturbed.canonical failureId status resolutionId rfl
      exact .inr ⟨rfl, hcanonical, hsend, failureId, rfl, rfl⟩

theorem obeys_claimMemoryIngestion (failureId : Option String) (resolutionId : String)
    (currentFailure : Option Fields) :
    Obeys (ingestion Repository) (ClaimEnds failureId resolutionId)
      (claimMemoryIngestion failureId resolutionId currentFailure) none w := by
  have hunclaimed : ∀ (w' : World Repository) (a : Acknowledgement), a ≠ .claimed →
      ClaimEnds failureId resolutionId (.ok a) none w' := by
    intro w' a ha
    exact .inl ⟨rfl, by simpa using ha⟩
  unfold claimMemoryIngestion
  cases failureId with
  | none => exact hunclaimed w _ (by decide)
  | some failureId =>
    have hread : Obeys (ingestion Repository) (fun _ owed _ => owed = none)
        (currentFailureRow failureId currentFailure) none w := by
      unfold currentFailureRow
      cases currentFailure with
      | some row => rfl
      | none =>
        have hread : isClaim (.fetchFailure failureId) = false := rfl
        exact obeys_idle_query hread
    simp only [Prog.bind_eq, Prog.pure_eq]
    rw [obeys_bind]
    refine hread.mono fun r owed w' howed => ?_
    subst howed
    cases r with
    | error e => exact .inl ⟨rfl, by simp⟩
    | ok current =>
      cases current with
      | none => exact hunclaimed w' _ (by decide)
      | some current =>
        dsimp only
        split
        · exact obeys_claimQuery failureId _ resolutionId
        · split
          · exact hunclaimed w' _ (by decide)
          · exact hunclaimed w' _ (by decide)

/-- The part under the handler of errors, from where the claim left the call. -/
theorem obeys_ingestClaimed {c : Ingestion} {owed : Option Claim} (devMemoryStore : Bool)
    (hends : ClaimEnds c.failureId c.resolutionId (.ok c.acknowledgement) owed w)
    (hrow : Fields.get c.row "resolution_id" = .str c.resolutionId) :
    Obeys (ingestion Repository) (Ends Repository) (ingestClaimed c devMemoryStore) owed w := by
  have htracks : Tracks c owed ∧ Sendable owed w ∧
      (c.acknowledgement = .claimed → CanonicalId c.resolutionId) := by
    rcases hends with ⟨rfl, hother⟩ | ⟨hclaimed, hcanonical, hsend, claimedId, hid, howed⟩
    · have hne : c.acknowledgement ≠ .claimed := by simpa using hother
      exact ⟨⟨fun h => absurd h hne, fun _ => rfl⟩, fun h => absurd rfl h,
        fun h => absurd h hne⟩
    · rw [Except.ok.injEq] at hclaimed
      exact ⟨⟨fun _ => ⟨claimedId, hid, howed⟩, fun h => absurd hclaimed h⟩, hsend,
        fun _ => hcanonical⟩
  obtain ⟨htracks, hsend, hcanonical⟩ := htracks
  unfold ingestClaimed
  by_cases helsewhere : c.acknowledgement = .ownedElsewhere
  · rw [if_pos helsewhere]
    have hne : c.acknowledgement ≠ .claimed := by
      rw [helsewhere]
      decide
    exact htracks.other hne
  · rw [if_neg helsewhere, obeys_tryCatch]
    refine (obeys_ingest devMemoryStore htracks
      (fun hclaimed => ⟨hrow, hcanonical hclaimed⟩) hsend).mono fun r owed' w' hreleased => ?_
    cases r with
    | ok result =>
      rcases hreleased with hnone | ⟨-, -, e, he, -⟩
      · exact hnone
      · cases he
    | error e =>
      refine obeys_ingestHandler htracks (hreleased.imp_right fun h => ?_)
      obtain ⟨hsame, hsend', e', he', hexception⟩ := h
      cases he'
      exact ⟨hsame, hsend', hexception⟩

theorem obeys_learnRow (devMemoryStore : Bool) {resolutionId : String} {row : Fields}
    (hrow : Fields.get row "resolution_id" = .str resolutionId) :
    Obeys (ingestion Repository) (Ends Repository)
      (learnRow devMemoryStore resolutionId row) none w := by
  have htail : ∀ (failureId : Option String) (linkedFailure : Option Fields)
      (w' : World Repository), Obeys (ingestion Repository) (Ends Repository)
        ((claimMemoryIngestion failureId resolutionId linkedFailure).bind fun acknowledgement =>
          ingestClaimed ⟨resolutionId, row, failureId, linkedFailure, acknowledgement⟩
            devMemoryStore) none w' := by
    intro failureId linkedFailure w'
    rw [obeys_bind]
    refine (obeys_claimMemoryIngestion failureId resolutionId linkedFailure).mono
      fun r owed w'' hends => ?_
    cases r with
    | error e =>
      rcases hends with ⟨hnone, -⟩ | ⟨hclaimed, -⟩
      · exact hnone
      · cases hclaimed
    | ok acknowledgement =>
      exact obeys_ingestClaimed devMemoryStore hends hrow
  unfold learnRow
  simp only [Prog.bind_eq, Prog.pure_eq]
  split
  · rfl
  · unfold linkedFailureRow
    cases hfailureId : safeIdentifier (Fields.get row "failure_id") with
    | none => exact htail none none w
    | some failureId =>
      have hfailure : isPlain (.fetchFailure failureId) = true := rfl
      exact obeys_idle_bind hfailure
        (fun linkedFailure w' _ => htail (some failureId) linkedFailure w') fun e w' => rfl

/-- A call that is not disturbed ends owing nothing. -/
theorem obeys_learnResolution (devMemoryStore : Bool) (resolutionId : String) :
    Obeys (ingestion Repository) (Ends Repository)
      (learnResolution devMemoryStore resolutionId) none w := by
  have hplain : isPlain (.fetchResolution resolutionId) = true := rfl
  unfold learnResolution
  simp only [Prog.bind_eq, Prog.pure_eq]
  refine obeys_idle_bind hplain (fun row w' hfetched => ?_) fun e w' => rfl
  cases row with
  | none => rfl
  | some row => exact obeys_learnRow devMemoryStore hfetched

end Calls

end FailureResolver.IngestionDiscipline
