import Mathlib.Data.List.Basic
import Mathlib.Order.MinMax
import Mathlib.Tactic.Basic

/-!
A first-in first-out queue of bounded size that drops what it has no room for.
Offering a list keeps as long a prefix of it as there is room for, so the queue
after any number of offers is a prefix of everything that was ever offered.
-/

namespace FailureResolver.BoundedQueue

variable {α : Type} {bound : ℕ}

structure Queue (α : Type) (bound : ℕ) where
  items : List α
  bounded : items.length ≤ bound

def Queue.empty : Queue α bound := ⟨[], Nat.zero_le _⟩

theorem length_concat_le {items : List α} (h : items.length < bound) (x : α) :
    (items ++ [x]).length ≤ bound := by
  rw [List.length_append, List.length_singleton]
  omega

/-- Put an item without waiting; a full queue stays as it is. -/
def Queue.offer (q : Queue α bound) (x : α) : Queue α bound :=
  if h : q.items.length < bound then ⟨q.items ++ [x], length_concat_le h x⟩ else q

def Queue.offerAll (q : Queue α bound) (xs : List α) : Queue α bound := xs.foldl Queue.offer q

def Queue.poll (q : Queue α bound) : Option (α × Queue α bound) :=
  match q with
  | ⟨[], _⟩ => none
  | ⟨x :: rest, h⟩ => some (x, ⟨rest, Nat.le_of_succ_le h⟩)

variable {q : Queue α bound}

theorem items_poll {q' : Queue α bound} {x : α} (h : q.poll = some (x, q')) :
    q.items = x :: q'.items := by
  obtain ⟨items, hbounded⟩ := q
  cases items with
  | nil => cases h
  | cons y rest =>
    cases h
    rfl

@[simp] theorem offerAll_nil : q.offerAll [] = q := rfl

@[simp] theorem offerAll_cons (x : α) (xs : List α) :
    q.offerAll (x :: xs) = (q.offer x).offerAll xs := rfl

theorem items_offer (x : α) : (q.offer x).items = (q.items ++ [x]).take bound := by
  have hbounded := q.bounded
  unfold Queue.offer
  by_cases hroom : q.items.length < bound
  · rw [dif_pos hroom, List.take_of_length_le]
    rw [List.length_append, List.length_singleton]
    omega
  · have hfull : q.items.length = bound := by omega
    rw [dif_neg hroom, List.take_left' hfull]

/-- What does not fit is not missed by a list that is cut anyway. -/
theorem take_append_take (xs ys : List α) :
    ((xs.take bound) ++ ys).take bound = (xs ++ ys).take bound := by
  by_cases hlength : xs.length ≤ bound
  · rw [List.take_of_length_le hlength]
  · have hcut : (xs.take bound).length = bound := by
      rw [List.length_take]
      omega
    rw [List.take_left' hcut, List.take_append_of_le_length (by omega)]

/-- What a queue holds after offers is the first part of all that was offered. -/
theorem items_offerAll (xs : List α) : (q.offerAll xs).items = (q.items ++ xs).take bound := by
  induction xs generalizing q with
  | nil => rw [offerAll_nil, List.append_nil, List.take_of_length_le q.bounded]
  | cons x rest ih =>
    rw [offerAll_cons, ih, items_offer, take_append_take, List.append_assoc,
      List.singleton_append]

/-- An item of a list stands at a position that is still within the bound. -/
def Reaches (bound before : ℕ) (xs : List α) (P : α → Prop) : Prop :=
  ∃ i x, xs[i]? = some x ∧ P x ∧ before + i < bound

theorem mem_take_append {xs ys : List α} {P : α → Prop} :
    (∃ x ∈ (xs ++ ys).take bound, P x) ↔
      (∃ x ∈ xs.take bound, P x) ∨ Reaches bound xs.length ys P := by
  rw [List.take_append]
  simp only [List.mem_append, or_and_right, exists_or]
  refine or_congr_right ⟨fun h => ?_, fun h => ?_⟩
  · obtain ⟨x, hx, hP⟩ := h
    obtain ⟨i, hi, rfl⟩ := List.mem_take_iff_getElem.mp hx
    rw [lt_min_iff] at hi
    exact ⟨i, _, List.getElem?_eq_getElem hi.2, hP, by omega⟩
  · obtain ⟨i, x, hget, hP, hroom⟩ := h
    obtain ⟨hi, rfl⟩ := List.getElem?_eq_some_iff.mp hget
    exact ⟨_, List.mem_take_iff_getElem.mpr ⟨i, lt_min (by omega) hi, rfl⟩, hP⟩

end FailureResolver.BoundedQueue
