/-!
The exceptions of the resolver, each with its message. Two of the recovery
errors refine the contract error, so a handler of the contract error catches
all three. `cancelled` is not an error: no handler of errors catches it.
-/

namespace FailureResolver.PyException

inductive ExcClass
  | recoveryContract
  | recoveryNonExecutable
  | recoveryLiveStateChanged
  | recoveryDatabaseUnavailable
  | robotCommandNotSent
  | robotCommandRejected
  | robotCommandOutcomeUnknown
  | agentReasoning
  | retrieval
  | gitMemory
  | timeout
  | connection
  | value
  | type
  | overflow
  | assertion
  | cancelled
  | other (name : String)
  deriving DecidableEq

structure PyExc where
  cls : ExcClass
  message : String
  deriving DecidableEq

namespace PyExc

/-- What `except RecoveryContractError` catches. -/
def isContract (e : PyExc) : Bool :=
  e.cls = .recoveryContract || e.cls = .recoveryNonExecutable ||
    e.cls = .recoveryLiveStateChanged

/-- What `except Exception` catches. -/
def isException (e : PyExc) : Bool := e.cls ≠ .cancelled

/-- The command or its outcome was lost: not sent, unknown, or timed out. -/
def isLostConfirmation (e : PyExc) : Bool :=
  e.cls = .robotCommandNotSent || e.cls = .robotCommandOutcomeUnknown || e.cls = .timeout

end PyExc

def contractError (message : String) : PyExc := ⟨.recoveryContract, message⟩

def nonExecutableError (message : String) : PyExc := ⟨.recoveryNonExecutable, message⟩

def liveStateChanged (message : String) : PyExc := ⟨.recoveryLiveStateChanged, message⟩

def reject {α : Type} (message : String) : Except PyExc α := .error (contractError message)

/-- `if condition: raise RecoveryContractError(message)`. -/
def rejectIf (condition : Bool) (message : String) : Except PyExc Unit :=
  if condition then reject message else .ok ()

/-- `except RecoveryContractError as error: raise RecoveryNonExecutableError(...)`. -/
def nonExecutable {α : Type} : Except PyExc α → Except PyExc α
  | .ok a => .ok a
  | .error e => if e.isContract then .error (nonExecutableError e.message) else .error e

@[simp] theorem rejectIf_eq_ok {condition : Bool} {message : String} :
    rejectIf condition message = .ok () ↔ condition = false := by
  cases condition <;> simp [rejectIf, reject]

@[simp] theorem reject_ne_ok {α : Type} {message : String} {a : α} :
    (reject message : Except PyExc α) ≠ .ok a := by
  simp [reject]

@[simp] theorem nonExecutable_eq_ok {α : Type} {r : Except PyExc α} {a : α} :
    nonExecutable r = .ok a ↔ r = .ok a := by
  cases r with
  | ok b => simp [nonExecutable]
  | error e =>
    simp only [nonExecutable]
    split <;> simp

theorem bind_eq_ok {α β : Type} {x : Except PyExc α} {f : α → Except PyExc β} {b : β} :
    (x >>= f) = .ok b ↔ ∃ a, x = .ok a ∧ f a = .ok b := by
  cases x <;> simp [bind, Except.bind]

@[simp] theorem bind_unit_eq_ok {β : Type} {x : Except PyExc Unit} {f : Unit → Except PyExc β}
    {b : β} : (x >>= f) = .ok b ↔ x = .ok () ∧ f () = .ok b := by
  rw [bind_eq_ok]
  constructor
  · rintro ⟨⟨⟩, hx, hf⟩
    exact ⟨hx, hf⟩
  · rintro ⟨hx, hf⟩
    exact ⟨(), hx, hf⟩

theorem forM_eq_ok {α : Type} {f : α → Except PyExc Unit} {xs : List α} :
    xs.forM f = .ok () ↔ ∀ x ∈ xs, f x = .ok () := by
  induction xs with
  | nil => simp [List.forM, pure, Except.pure]
  | cons x xs ih =>
    change (f x >>= fun _ => xs.forM f) = .ok () ↔ _
    rw [bind_unit_eq_ok, ih, List.forall_mem_cons]

theorem exists_of_isOk {ε α : Type} {x : Except ε α} (h : x.isOk = true) : ∃ a, x = .ok a := by
  cases x with
  | ok a => exact ⟨a, rfl⟩
  | error e => cases h

/-- A list is mapped if each of its items is. -/
theorem mapM_ok_iff {α β : Type} {f : α → Except PyExc β} {xs : List α} :
    (∃ ys, xs.mapM f = .ok ys) ↔ ∀ x ∈ xs, ∃ y, f x = .ok y := by
  induction xs with
  | nil => simp [pure, Except.pure]
  | cons x xs ih =>
    rw [List.forall_mem_cons, ← ih, List.mapM_cons]
    constructor
    · rintro ⟨ys, h⟩
      obtain ⟨y, hy, h⟩ := bind_eq_ok.mp h
      obtain ⟨ys', hys, -⟩ := bind_eq_ok.mp h
      exact ⟨⟨y, hy⟩, ys', hys⟩
    · rintro ⟨⟨y, hy⟩, ys, hys⟩
      exact ⟨y :: ys, bind_eq_ok.mpr ⟨y, hy, bind_eq_ok.mpr ⟨ys, hys, rfl⟩⟩⟩

section ContractOnly

variable {α β : Type}

def ContractOnly (x : Except PyExc α) : Prop := ∀ e, x = .error e → e.isContract = true

theorem contractOnly_ok (a : α) : ContractOnly (.ok a) := by
  intro e h
  cases h

theorem contractOnly_reject (message : String) : ContractOnly (reject message : Except PyExc α) := by
  intro e h
  cases h
  rfl

theorem contractOnly_rejectIf (condition : Bool) (message : String) :
    ContractOnly (rejectIf condition message) := by
  unfold rejectIf
  split
  · exact contractOnly_reject message
  · exact contractOnly_ok ()

theorem ContractOnly.bind {x : Except PyExc α} {f : α → Except PyExc β} (hx : ContractOnly x)
    (hf : ∀ a, x = .ok a → ContractOnly (f a)) : ContractOnly (x >>= f) := by
  cases x with
  | ok a => exact hf a rfl
  | error e =>
    intro e' h
    cases h
    exact hx e rfl

theorem ContractOnly.map {x : Except PyExc α} (h : ContractOnly x) (f : α → β) :
    ContractOnly (x.map f) := by
  cases x with
  | ok a => exact contractOnly_ok (f a)
  | error e =>
    intro e' he
    cases he
    exact h e rfl

theorem ContractOnly.forM {f : α → Except PyExc Unit} {xs : List α}
    (h : ∀ x ∈ xs, ContractOnly (f x)) : ContractOnly (xs.forM f) := by
  induction xs with
  | nil => exact contractOnly_ok ()
  | cons x xs ih =>
    exact .bind (h x (List.mem_cons_self ..)) fun _ _ =>
      ih fun y hy => h y (List.mem_cons_of_mem _ hy)

theorem ContractOnly.foldlM {f : β → α → Except PyExc β} {xs : List α}
    (h : ∀ b, ∀ x ∈ xs, ContractOnly (f b x)) (b : β) : ContractOnly (xs.foldlM f b) := by
  induction xs generalizing b with
  | nil => exact contractOnly_ok b
  | cons x xs ih =>
    exact .bind (h b x (List.mem_cons_self ..)) fun b' _ =>
      ih (fun b y hy => h b y (List.mem_cons_of_mem _ hy)) b'

/-- A non-executable error is one of the contract. -/
theorem ContractOnly.nonExecutable {x : Except PyExc α} (h : ContractOnly x) :
    ContractOnly (nonExecutable x) := by
  intro e he
  cases x with
  | ok a => cases he
  | error e' =>
    rw [PyException.nonExecutable, if_pos (h e' rfl)] at he
    cases he
    rfl

end ContractOnly

section ErrorOnly

variable {α β : Type}

def ErrorOnly (x : Except PyExc α) : Prop := ∀ e, x = .error e → e.isException = true

theorem errorOnly_ok (a : α) : ErrorOnly (.ok a) := by
  intro e h
  cases h

theorem errorOnly_error {e : PyExc} (he : e.isException = true) :
    ErrorOnly (.error e : Except PyExc α) := by
  intro e' h
  cases h
  exact he

theorem ErrorOnly.bind {x : Except PyExc α} {f : α → Except PyExc β} (hx : ErrorOnly x)
    (hf : ∀ a, ErrorOnly (f a)) : ErrorOnly (x >>= f) := by
  cases x with
  | ok a => exact hf a
  | error e =>
    intro e' h
    cases h
    exact hx e rfl

theorem ErrorOnly.map {x : Except PyExc α} (h : ErrorOnly x) (f : α → β) :
    ErrorOnly (x.map f) := by
  cases x with
  | ok a => exact errorOnly_ok (f a)
  | error e =>
    intro e' he
    cases he
    exact h e rfl

theorem ErrorOnly.ite {p : Prop} [Decidable p] {x y : Except PyExc α} (hx : ErrorOnly x)
    (hy : ErrorOnly y) : ErrorOnly (if p then x else y) := by
  split
  · exact hx
  · exact hy

theorem ErrorOnly.mapM {f : α → Except PyExc β} {xs : List α} (h : ∀ x, ErrorOnly (f x)) :
    ErrorOnly (xs.mapM f) := by
  induction xs with
  | nil => exact errorOnly_ok []
  | cons x rest ih =>
    rw [List.mapM_cons]
    exact (h x).bind fun y => ih.bind fun ys => errorOnly_ok (y :: ys)

end ErrorOnly

end FailureResolver.PyException
