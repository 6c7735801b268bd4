import FailureResolver.Interruption

/-!
Verifying a program command by command together with every state it may be cut in.
An invariant holds at every await and after whatever the awaited operation does; a
postcondition holds where the program ends. Sequencing, handlers and cleanups are
verified part by part.
-/

namespace FailureResolver.Program

variable {σ : Interface} {α β : Type} {env : Environment σ} {I : σ.State → Prop}
  {s s' : σ.State}

/-- The invariant holds at every await and after it, and the postcondition at the end. -/
def Guarded (env : Environment σ) (I : σ.State → Prop) (Q : Except σ.Exc α → σ.State → Prop) :
    Prog σ α → σ.State → Prop
  | .ret a, s => Q (.ok a) s
  | .raise e, s => Q (.error e) s
  | .halt, _ => True
  | .get k, s => Guarded env I Q (k s) s
  | .set s' next, _ => Guarded env I Q next s'
  | .await op k, s => I s ∧ ∀ r s', env s op r s' → I s' ∧ Guarded env I Q (k r) s'

section Rules

variable {p : Prog σ α} {Q R : Except σ.Exc α → σ.State → Prop}

theorem Guarded.mono (h : Guarded env I Q p s) (hQ : ∀ r s, Q r s → R r s) :
    Guarded env I R p s := by
  induction p generalizing s with
  | ret a => exact hQ _ _ h
  | raise e => exact hQ _ _ h
  | halt => trivial
  | get k ih => exact ih s h
  | set s' next ih => exact ih h
  | await op k ih =>
    refine ⟨h.1, fun r s' hstep => ?_⟩
    obtain ⟨hI, hrest⟩ := h.2 r s' hstep
    exact ⟨hI, ih r hrest⟩

theorem guarded_bind {f : α → Prog σ β} {Q : Except σ.Exc β → σ.State → Prop} :
    Guarded env I Q (p.bind f) s ↔
      Guarded env I (fun r s => match r with
        | .ok a => Guarded env I Q (f a) s
        | .error e => Q (.error e) s) p s := by
  induction p generalizing s with
  | ret a => exact Iff.rfl
  | raise e => exact Iff.rfl
  | halt => exact Iff.rfl
  | get k ih => exact ih s
  | set s' next ih => exact ih
  | await op k ih =>
    exact and_congr_right fun _ => forall_congr' fun r => forall_congr' fun s' =>
      imp_congr_right fun _ => and_congr_right fun _ => ih r

theorem guarded_attempt {Q : Except σ.Exc (Except σ.Exc α) → σ.State → Prop} :
    Guarded env I Q p.attempt s ↔ Guarded env I (fun r => Q (.ok r)) p s := by
  induction p generalizing s with
  | ret a => exact Iff.rfl
  | raise e => exact Iff.rfl
  | halt => exact Iff.rfl
  | get k ih => exact ih s
  | set s' next ih => exact ih
  | await op k ih =>
    exact and_congr_right fun _ => forall_congr' fun r => forall_congr' fun s' =>
      imp_congr_right fun _ => and_congr_right fun _ => ih r

theorem guarded_settle {r : Except σ.Exc α} : Guarded env I Q (Prog.settle r) s ↔ Q r s := by
  cases r <;> rfl

theorem guarded_call {op : σ.Op} {Q : Except σ.Exc (σ.Reply op) → σ.State → Prop} :
    Guarded env I Q (Prog.call op) s ↔ I s ∧ ∀ r s', env s op r s' → I s' ∧ Q r s' := by
  refine and_congr_right fun _ => forall_congr' fun r => forall_congr' fun s' =>
    imp_congr_right fun _ => and_congr_right fun _ => ?_
  exact guarded_settle

/-- A sequence whose first part may fail into the postcondition. -/
theorem Guarded.bind {f : α → Prog σ β} {Q : Except σ.Exc β → σ.State → Prop}
    (hp : Guarded env I R p s) (hok : ∀ a s, R (.ok a) s → Guarded env I Q (f a) s)
    (herror : ∀ e s, R (.error e) s → Q (.error e) s) : Guarded env I Q (p.bind f) s := by
  rw [guarded_bind]
  refine hp.mono fun r s hr => ?_
  cases r with
  | ok a => exact hok a s hr
  | error e => exact herror e s hr

theorem Guarded.tryCatch {handler : σ.Exc → Prog σ α} (hp : Guarded env I R p s)
    (hok : ∀ a s, R (.ok a) s → Q (.ok a) s)
    (herror : ∀ e s, R (.error e) s → Guarded env I Q (handler e) s) :
    Guarded env I Q (p.tryCatch handler) s := by
  rw [Prog.tryCatch, guarded_bind, guarded_attempt]
  refine hp.mono fun r s hr => ?_
  cases r with
  | ok a => exact hok a s hr
  | error e => exact herror e s hr

theorem Guarded.finallyDo {cleanup : Prog σ Unit} (hp : Guarded env I R p s)
    (hcleanup : ∀ r s, R r s → Guarded env I
      (fun ended s => match ended with
        | .ok _ => Q r s
        | .error e => Q (.error e) s) cleanup s) :
    Guarded env I Q (p.finallyDo cleanup) s := by
  rw [Prog.finallyDo, guarded_bind, guarded_attempt]
  refine hp.mono fun r s hr => ?_
  show Guarded env I Q (cleanup.bind fun _ => Prog.settle r) s
  rw [guarded_bind]
  refine (hcleanup r s hr).mono fun ended s hended => ?_
  cases ended with
  | ok _ => exact guarded_settle.mpr hended
  | error e => exact hended

end Rules

section Runs

variable {p : Prog σ α} {Q : Except σ.Exc α → σ.State → Prop} {t : List (Event σ)}

theorem Guarded.run {o : Outcome σ α} (h : Guarded env I Q p s) (hrun : Runs env p s t o) :
    (∀ e ∈ t, I e.before ∧ ∀ r s', env e.before e.op r s' → I s') ∧
      (∀ a s', o = .returned a s' → Q (.ok a) s') ∧
        ∀ e s', o = .raised e s' → Q (.error e) s' := by
  induction hrun with
  | ret a s =>
    refine ⟨List.forall_mem_nil _, fun a' s' heq => ?_, fun e s' heq => ?_⟩
    · cases heq
      exact h
    · cases heq
  | raise e s =>
    refine ⟨List.forall_mem_nil _, fun a' s' heq => ?_, fun e s' heq => ?_⟩
    · cases heq
    · cases heq
      exact h
  | halt s =>
    refine ⟨List.forall_mem_nil _, fun a' s' heq => ?_, fun e s' heq => ?_⟩
    · cases heq
    · cases heq
  | get _ ih => exact ih h
  | set _ ih => exact ih h
  | suspend k s =>
    refine ⟨fun e he => ?_, fun a' s' heq => ?_, fun e s' heq => ?_⟩
    · rw [List.mem_singleton.mp he]
      exact ⟨h.1, fun r s' hstep => (h.2 r s' hstep).1⟩
    · cases heq
    · cases heq
  | resume henv _ ih =>
    obtain ⟨hevents, hends⟩ := ih (h.2 _ _ henv).2
    refine ⟨fun e he => ?_, hends⟩
    rcases List.mem_cons.mp he with rfl | he
    · exact ⟨h.1, fun r s' hstep => (h.2 r s' hstep).1⟩
    · exact hevents e he

/-- Whatever a run leaves satisfies the invariant, if the postcondition implies it. -/
theorem Guarded.leaves (h : Guarded env I Q p s) (hQ : ∀ r s, Q r s → I s)
    (hleaves : Leaves env p s s') : I s' := by
  cases hleaves with
  | returned hrun => exact hQ _ _ ((h.run hrun).2.1 _ _ rfl)
  | raised hrun => exact hQ _ _ ((h.run hrun).2.2 _ _ rfl)
  | cutBefore hrun he => exact ((h.run hrun).1 _ he).1
  | cutAfter hrun he hstep => exact ((h.run hrun).1 _ he).2 _ _ hstep

end Runs

end FailureResolver.Program
