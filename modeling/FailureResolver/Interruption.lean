import FailureResolver.Program

/-!
Programs that never write the shared state themselves, and the states they leave
when they end or are cut at an await. What every step of the environment keeps
holds of each of these states; what a program returns with is verified command by
command.
-/

namespace FailureResolver.Program

variable {σ : Interface} {α β : Type} {env : Environment σ} {s s' : σ.State}

section Asking

/-- Every await of the program is one of these operations, and it writes nothing. -/
def Prog.Asks (P : σ.Op → Prop) : Prog σ α → Prop
  | .ret _ => True
  | .raise _ => True
  | .halt => True
  | .get k => ∀ s, (k s).Asks P
  | .set _ _ => False
  | .await op k => P op ∧ ∀ r, (k r).Asks P

variable {P : σ.Op → Prop}

theorem Prog.Asks.bind {p : Prog σ α} {f : α → Prog σ β} (hp : p.Asks P)
    (hf : ∀ a, (f a).Asks P) : (p.bind f).Asks P := by
  induction p with
  | ret a => exact hf a
  | raise e => trivial
  | halt => trivial
  | get k ih => exact fun s => ih s (hp s)
  | set s next => exact hp.elim
  | await op k ih => exact ⟨hp.1, fun r => ih r (hp.2 r)⟩

theorem Prog.Asks.settle (r : Except σ.Exc α) : (Prog.settle r : Prog σ α).Asks P := by
  cases r <;> trivial

theorem Prog.Asks.ret (a : α) : (Prog.ret a : Prog σ α).Asks P := trivial

theorem Prog.Asks.call {op : σ.Op} (hop : P op) : (Prog.call op).Asks P :=
  ⟨hop, fun r => Prog.Asks.settle r⟩

theorem Prog.Asks.observe : (Prog.observe : Prog σ σ.State).Asks P := fun _ => trivial

theorem Prog.Asks.ite {c : Prop} [Decidable c] {p q : Prog σ α} (hp : p.Asks P)
    (hq : q.Asks P) : (if c then p else q).Asks P := by
  split
  · exact hp
  · exact hq

/-- A run that ended in this state, or was cut at an await before or after the
awaited operation had its effect. -/
inductive Leaves (env : Environment σ) (p : Prog σ α) (s : σ.State) : σ.State → Prop
  | returned {t : List (Event σ)} {a : α} {s' : σ.State} (h : Runs env p s t (.returned a s')) :
      Leaves env p s s'
  | raised {t : List (Event σ)} {e : σ.Exc} {s' : σ.State} (h : Runs env p s t (.raised e s')) :
      Leaves env p s s'
  | cutBefore {t : List (Event σ)} {e : Event σ} (h : Runs env p s t .suspended) (he : e ∈ t) :
      Leaves env p s e.before
  | cutAfter {t : List (Event σ)} {e : Event σ} {r : Except σ.Exc (σ.Reply e.op)} {s' : σ.State}
      (h : Runs env p s t .suspended) (he : e ∈ t) (hstep : env e.before e.op r s') :
      Leaves env p s s'

variable {I : σ.State → Prop}

/-- What every step keeps holds before every await and at the end. -/
theorem Runs.keep {p : Prog σ α} {t : List (Event σ)} {o : Outcome σ α} (h : Runs env p s t o)
    (hp : p.Asks P) (hstep : ∀ s op r s', P op → I s → env s op r s' → I s') (hs : I s) :
    (∀ e ∈ t, P e.op ∧ I e.before) ∧ (∀ a s', o = .returned a s' → I s') ∧
      ∀ e s', o = .raised e s' → I s' := by
  induction h with
  | ret a s =>
    refine ⟨List.forall_mem_nil _, fun a' s' heq => ?_, fun e s' heq => ?_⟩
    · cases heq
      exact hs
    · cases heq
  | raise e s =>
    refine ⟨List.forall_mem_nil _, fun a' s' heq => ?_, fun e s' heq => ?_⟩
    · cases heq
    · cases heq
      exact hs
  | halt s =>
    refine ⟨List.forall_mem_nil _, fun a' s' heq => ?_, fun e s' heq => ?_⟩
    · cases heq
    · cases heq
  | get _ ih => exact ih (hp _) hs
  | set _ _ => exact hp.elim
  | suspend k s =>
    refine ⟨fun e he => ?_, fun a' s' heq => ?_, fun e s' heq => ?_⟩
    · rw [List.mem_singleton.mp he]
      exact ⟨hp.1, hs⟩
    · cases heq
    · cases heq
  | resume henv _ ih =>
    obtain ⟨hevents, hends⟩ := ih (hp.2 _) (hstep _ _ _ _ hp.1 hs henv)
    refine ⟨fun e he => ?_, hends⟩
    rcases List.mem_cons.mp he with rfl | he
    · exact ⟨hp.1, hs⟩
    · exact hevents e he

/-- What every step keeps holds of whatever a run leaves. -/
theorem Leaves.keep {p : Prog σ α} (h : Leaves env p s s') (hp : p.Asks P)
    (hstep : ∀ s op r s', P op → I s → env s op r s' → I s') (hs : I s) : I s' := by
  cases h with
  | returned h => exact (h.keep hp hstep hs).2.1 _ _ rfl
  | raised h => exact (h.keep hp hstep hs).2.2 _ _ rfl
  | cutBefore h he => exact ((h.keep hp hstep hs).1 _ he).2
  | cutAfter h he henv =>
    obtain ⟨hop, hbefore⟩ := (h.keep hp hstep hs).1 _ he
    exact hstep _ _ _ _ hop hbefore henv

end Asking

section Returning

/-- Every await is one of these operations, and a return satisfies this. -/
def Does (P : σ.Op → Prop) (Q : α → σ.State → Prop) (t : List (Event σ)) (o : Outcome σ α) :
    Prop :=
  (∀ e ∈ t, P e.op) ∧ ∀ a s', o = .returned a s' → Q a s'

variable {P : σ.Op → Prop} {p : Prog σ α} {f : α → Prog σ β} {Q : α → σ.State → Prop}
  {R : β → σ.State → Prop}

theorem does_bind (hp : Ensures env p s (Does P Q))
    (hf : ∀ a s', Q a s' → Ensures env (f a) s' (Does P R)) :
    Ensures env (p.bind f) s (Does P R) := by
  rw [ensures_bind]
  refine hp.mono fun t o ho => ?_
  obtain ⟨hevents, hreturn⟩ := ho
  cases o with
  | returned a s' =>
    refine (hf a s' (hreturn a s' rfl)).mono fun u o hu => ⟨fun e he => ?_, hu.2⟩
    rcases List.mem_append.mp he with he | he
    · exact hevents e he
    · exact hu.1 e he
  | raised e s' => exact ⟨hevents, fun b s'' hb => by cases hb⟩
  | suspended => exact ⟨hevents, fun b s'' hb => by cases hb⟩
  | outOfFuel => exact ⟨hevents, fun b s'' hb => by cases hb⟩

theorem does_ret {a : α} (h : Q a s) : Ensures env (.ret a) s (Does P Q) := by
  rw [ensures_ret]
  refine ⟨List.forall_mem_nil _, fun b s' hb => ?_⟩
  cases hb
  exact h

theorem does_raise {e : σ.Exc} : Ensures env (.raise e : Prog σ α) s (Does P Q) := by
  rw [ensures_raise]
  exact ⟨List.forall_mem_nil _, fun b s' hb => by cases hb⟩

theorem does_call {op : σ.Op} {Q : σ.Reply op → σ.State → Prop} (hop : P op)
    (h : ∀ a s', env s op (.ok a) s' → Q a s') : Ensures env (Prog.call op) s (Does P Q) := by
  rw [ensures_call]
  refine ⟨⟨fun e he => ?_, fun b s' hb => by cases hb⟩, fun a s' henv => ⟨fun e he => ?_, ?_⟩,
    fun e s' henv => ⟨fun e' he => ?_, fun b s' hb => by cases hb⟩⟩
  · rw [List.mem_singleton.mp he]
    exact hop
  · rw [List.mem_singleton.mp he]
    exact hop
  · intro b s'' hb
    cases hb
    exact h a s' henv
  · rw [List.mem_singleton.mp he]
    exact hop

theorem does_observe {Q : σ.State → σ.State → Prop} (h : Q s s) :
    Ensures env Prog.observe s (Does P Q) := by
  rw [ensures_observe]
  refine ⟨List.forall_mem_nil _, fun b s' hb => ?_⟩
  cases hb
  exact h

end Returning

section Possible

def May (env : Environment σ) (p : Prog σ α) (s : σ.State) (o : Outcome σ α) : Prop :=
  ∃ t, Runs env p s t o

variable {a : α} {p : Prog σ α} {f : α → Prog σ β} {o : Outcome σ β}

theorem May.bind (hp : May env p s (.returned a s')) (hf : May env (f a) s' o) :
    May env (p.bind f) s o := by
  obtain ⟨t, hp⟩ := hp
  obtain ⟨u, hf⟩ := hf
  generalize hend : Outcome.returned a s' = first at hp
  suffices key : ∃ v, Runs env (p.bind f) s v o from key
  induction hp with
  | ret b s₁ =>
    cases hend
    exact ⟨u, hf⟩
  | raise e s₁ => cases hend
  | halt s₁ => cases hend
  | get _ ih =>
    obtain ⟨v, hv⟩ := ih hend
    exact ⟨v, .get hv⟩
  | set _ ih =>
    obtain ⟨v, hv⟩ := ih hend
    exact ⟨v, .set hv⟩
  | suspend k s₁ => cases hend
  | resume hanswer _ ih =>
    obtain ⟨v, hv⟩ := ih hend
    exact ⟨_, .resume hanswer hv⟩

/-- Where the operations of a program may be answered the same way, it may end the same way. -/
theorem May.of_asks {env' : Environment σ} {P : σ.Op → Prop} {o : Outcome σ α}
    (h : May env p s o) (hp : p.Asks P)
    (hstep : ∀ s op r s', P op → env s op r s' → env' s op r s') : May env' p s o := by
  obtain ⟨t, hrun⟩ := h
  refine ⟨t, ?_⟩
  induction hrun with
  | ret a s => exact .ret a s
  | raise e s => exact .raise e s
  | halt s => exact .halt s
  | get _ ih => exact .get (ih (hp _))
  | set _ _ => exact hp.elim
  | suspend k s => exact .suspend k s
  | resume hanswer _ ih => exact .resume (hstep _ _ _ _ hp.1 hanswer) (ih (hp.2 _))

theorem may_ret : May env (.ret a) s (.returned a s) := ⟨[], .ret a s⟩

theorem may_observe : May env Prog.observe s (.returned s s) := ⟨[], .get (.ret s s)⟩

theorem may_call {op : σ.Op} {reply : σ.Reply op} (h : env s op (.ok reply) s') :
    May env (Prog.call op) s (.returned reply s') := ⟨_, .resume h (.ret reply s')⟩

/-- An await that fails ends the program. -/
theorem may_fail {op : σ.Op} {f : σ.Reply op → Prog σ β} {e : σ.Exc}
    (h : env s op (.error e) s') : May env ((Prog.call op).bind f) s (.raised e s') :=
  ⟨_, .resume h (.raise e s')⟩

end Possible

end FailureResolver.Program
