import Mathlib

/-!
# Taking turns

Claimants take turns, round after round, in an order that is the same in every round.  Each
claimant has a list of wishes, which depends on its label alone, and takes the first wish that
nobody has yet.

What is owned stays with its owner (`owner_round`), only what somebody wished for is owned
(`of_owner_rounds`), and where every wish is owned nothing changes any more (`rounds_eq_of_le`).
-/

namespace Pixiu.Turns

variable {ι α β : Type*}

/-- Who owns what, and how often each claimant got something. -/
structure State (ι α β : Type*) where
  owner : α → Option β
  hits : ι → ℕ

/-- Nobody owns anything. -/
def start : State ι α β := ⟨fun _ => none, fun _ => 0⟩

section Defs

variable (wish : β → List α) (label : ι → β)

/-- The first wish that nobody has. -/
def choice (s : State ι α β) (i : ι) : Option α :=
  (wish (label i)).find? fun x => (s.owner x).isNone

variable [DecidableEq ι] [DecidableEq α]

/-- A claimant gets something. -/
def State.give (s : State ι α β) (x : α) (i : ι) (h : β) : State ι α β :=
  ⟨Function.update s.owner x (some h), Function.update s.hits i (s.hits i + 1)⟩

/-- One turn. -/
def visit (s : State ι α β) (i : ι) : State ι α β :=
  match choice wish label s i with
  | some x => s.give x i (label i)
  | none => s

/-- Every claimant has one turn. -/
def round (order : List ι) (s : State ι α β) : State ι α β := order.foldl (visit wish label) s

/-- Some rounds. -/
def rounds (order : List ι) : ℕ → State ι α β
  | 0 => start
  | n + 1 => round wish label order (rounds order n)

end Defs

/-! ## One round -/

section Round

variable {wish : β → List α} {label : ι → β} {s : State ι α β} {order : List ι}

theorem owner_of_choice {i : ι} {x : α} (h : choice wish label s i = some x) :
    s.owner x = none := by
  have := List.find?_some h
  simpa using this

variable [DecidableEq ι] [DecidableEq α]

@[simp] theorem owner_give_self {x : α} {i : ι} {h : β} : (s.give x i h).owner x = some h :=
  Function.update_self ..

theorem owner_give_of_ne {x y : α} {i : ι} {h : β} (hne : x ≠ y) :
    (s.give y i h).owner x = s.owner x :=
  Function.update_of_ne hne ..

@[simp] theorem hits_give_self {x : α} {i : ι} {h : β} : (s.give x i h).hits i = s.hits i + 1 :=
  Function.update_self ..

theorem hits_give_of_ne {x : α} {i j : ι} {h : β} (hne : j ≠ i) :
    (s.give x i h).hits j = s.hits j :=
  Function.update_of_ne hne ..

theorem visit_of_choice {i : ι} {x : α} (h : choice wish label s i = some x) :
    visit wish label s i = s.give x i (label i) := by
  rw [visit, h]

theorem visit_of_none {i : ι} (h : choice wish label s i = none) : visit wish label s i = s := by
  rw [visit, h]

/-- What is owned stays with its owner. -/
theorem owner_visit {i : ι} {x : α} {h : β} (hx : s.owner x = some h) :
    (visit wish label s i).owner x = some h := by
  cases hc : choice wish label s i with
  | none => rwa [visit_of_none hc]
  | some y =>
    have hne : x ≠ y := by
      rintro rfl
      rw [owner_of_choice hc] at hx
      cases hx
    rw [visit_of_choice hc, owner_give_of_ne hne, hx]

theorem owner_round {x : α} {h : β} (hx : s.owner x = some h) :
    (round wish label order s).owner x = some h := by
  induction order generalizing s with
  | nil => exact hx
  | cons i order ih => exact ih (owner_visit hx)

/-- Only what somebody wished for is owned. -/
theorem wished_of_owner_round {P : α → β → Prop} (hs : ∀ x h, s.owner x = some h → P x h)
    (hwish : ∀ i ∈ order, ∀ x ∈ wish (label i), P x (label i)) {x : α} {h : β}
    (hx : (round wish label order s).owner x = some h) : P x h := by
  induction order generalizing s with
  | nil => exact hs x h hx
  | cons i order ih =>
    refine ih (fun y g hy => ?_) (fun j hj => hwish j (List.mem_cons_of_mem _ hj)) hx
    cases hc : choice wish label s i with
    | none =>
      rw [visit_of_none hc] at hy
      exact hs y g hy
    | some z =>
      rw [visit_of_choice hc] at hy
      by_cases hyz : y = z
      · subst hyz
        rw [owner_give_self, Option.some_inj] at hy
        exact hy ▸ hwish i List.mem_cons_self y (List.mem_of_find?_eq_some hc)
      · rw [owner_give_of_ne hyz] at hy
        exact hs y g hy

theorem of_owner_rounds {P : α → β → Prop}
    (hwish : ∀ i ∈ order, ∀ x ∈ wish (label i), P x (label i)) {n : ℕ}
    {x : α} {h : β} (hx : (rounds wish label order n).owner x = some h) : P x h := by
  induction n generalizing x h with
  | zero => cases hx
  | succ n ih => exact wished_of_owner_round (fun _ _ => ih) hwish hx

/-- Where every wish is owned, nothing changes any more. -/
theorem round_eq_self (h : ∀ i ∈ order, ∀ x ∈ wish (label i), (s.owner x).isSome) :
    round wish label order s = s := by
  induction order with
  | nil => rfl
  | cons i order ih =>
    have hnone : choice wish label s i = none := by
      rw [choice, List.find?_eq_none]
      intro x hx
      simpa using Option.isSome_iff_ne_none.1 (h i List.mem_cons_self x hx)
    rw [round, List.foldl_cons, visit_of_none hnone]
    exact ih fun j hj => h j (List.mem_cons_of_mem _ hj)

theorem rounds_eq_of_le {n m : ℕ}
    (h : ∀ i ∈ order, ∀ x ∈ wish (label i), ((rounds wish label order n).owner x).isSome)
    (hle : n ≤ m) :
    rounds wish label order m = rounds wish label order n := by
  induction hle with
  | refl => rfl
  | step _ ih => rw [rounds, ih, round_eq_self h]

theorem hits_visit_of_ne {i j : ι} (hne : j ≠ i) : (visit wish label s i).hits j = s.hits j := by
  cases hc : choice wish label s i with
  | none => rw [visit_of_none hc]
  | some y => rw [visit_of_choice hc, hits_give_of_ne hne]

theorem hits_round_of_notMem {j : ι} (hj : j ∉ order) :
    (round wish label order s).hits j = s.hits j := by
  induction order generalizing s with
  | nil => rfl
  | cons i order ih =>
    rw [List.mem_cons, not_or] at hj
    exact (ih hj.2).trans (hits_visit_of_ne hj.1)

end Round

/-! ## Who got the least -/

/-- The first claimant of those that got the least. -/
def IsFirstMin (hits : ι → ℕ) (order : List ι) (m : ι) : Prop :=
  ∃ before after, order = before ++ m :: after ∧ (∀ i ∈ before, hits m < hits i) ∧
    ∀ i ∈ after, hits m ≤ hits i

theorem IsFirstMin.mem {hits : ι → ℕ} {order : List ι} {m : ι} (h : IsFirstMin hits order m) :
    m ∈ order := by
  obtain ⟨before, after, rfl, -, -⟩ := h
  simp

end Pixiu.Turns
