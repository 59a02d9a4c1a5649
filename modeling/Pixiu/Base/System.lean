import Mathlib

/-!
# Transition systems and their invariants

The rules every safety argument of this project ends with: a property of the start that each
step keeps holds after every run.  Runs are `Relation.ReflTransGen R` for the relation `R` of one
step.
-/

namespace Pixiu.System

variable {σ : Type*} {R : σ → σ → Prop} {P : σ → Prop} {s s' : σ}

/-- A property that each step keeps holds after every run from a state where it holds. -/
theorem invariant_run (hrun : Relation.ReflTransGen R s s') (h : P s)
    (hstep : ∀ s s', P s → R s s' → P s') : P s' := by
  induction hrun with
  | refl => exact h
  | tail _ hlast ih => exact hstep _ _ ih hlast

/-- A quantity that no step changes, where an invariant holds, is the same after every run. -/
theorem eq_of_run {α : Type*} (f : σ → α) (hrun : Relation.ReflTransGen R s s') (h : P s)
    (hstep : ∀ s s', P s → R s s' → P s' ∧ f s' = f s) : f s' = f s := by
  have hkept : P s' ∧ f s' = f s :=
    invariant_run (P := fun s' => P s' ∧ f s' = f s) hrun ⟨h, rfl⟩ fun s₁ s₂ h₁ hlast =>
      have h₂ := hstep s₁ s₂ h₁.1 hlast
      ⟨h₂.1, h₂.2.trans h₁.2⟩
  exact hkept.2

/-- A property that each round of a loop keeps holds when the loop ends without an error. -/
theorem invariant_foldlM {α ε : Type*} {step : σ → α → Except ε σ} {l : List α}
    (hrun : l.foldlM step s = .ok s') (h : P s)
    (hstep : ∀ s a s', a ∈ l → P s → step s a = .ok s' → P s') : P s' := by
  induction l generalizing s with
  | nil =>
    obtain rfl : s = s' := by simpa [pure, Except.pure] using hrun
    exact h
  | cons a l ih =>
    rw [List.foldlM_cons] at hrun
    cases hfirst : step s a with
    | error err => rw [hfirst] at hrun; cases hrun
    | ok s₁ =>
      rw [hfirst] at hrun
      exact ih hrun (hstep s a s₁ (List.mem_cons_self ..) h hfirst) fun s a s' ha =>
        hstep s a s' (List.mem_cons_of_mem _ ha)

theorem bind_eq_ok.{u, v} {ε : Type v} {α β : Type u} {x : Except ε α} {f : α → Except ε β}
    {b : β} :
    (x >>= f) = .ok b ↔ ∃ a, x = .ok a ∧ f a = .ok b := by
  cases x with
  | error err => exact ⟨nofun, nofun⟩
  | ok a => exact ⟨fun h => ⟨a, rfl, h⟩, fun ⟨_, ha, h⟩ => Except.ok.inj ha ▸ h⟩

/-- What a loop that stops at the first error has computed. -/
theorem forall₂_of_mapM_ok.{u, v, w} {α : Type w} {ε : Type v} {β : Type u} {f : α → Except ε β}
    {l : List α}
    {l' : List β} (h : l.mapM f = .ok l') : List.Forall₂ (fun a b => f a = .ok b) l l' := by
  induction l generalizing l' with
  | nil =>
    obtain rfl : [] = l' := Except.ok.inj h
    exact .nil
  | cons a l ih =>
    rw [List.mapM_cons] at h
    cases ha : f a with
    | error err => rw [ha] at h; cases h
    | ok b' =>
      cases hl : l.mapM f with
      | error err => rw [ha, hl] at h; cases h
      | ok rest =>
        rw [ha, hl] at h
        obtain rfl : b' :: rest = l' := Except.ok.inj h
        exact .cons ha (ih hl)

/-- A condition on the elements of a list, each with what comes before it, by their places. -/
theorem forall_split_iff {α : Type*} {l : List α} {P : List α → α → Prop} :
    (∀ before a after, l = before ++ a :: after → P before a) ↔
      ∀ k (hk : k < l.length), P (l.take k) l[k] := by
  constructor
  · intro h k hk
    exact h _ _ (l.drop (k + 1)) (by rw [← List.drop_eq_getElem_cons hk, List.take_append_drop])
  · rintro h before a after rfl
    simpa using h before.length (by simp)

/-- The places of a list with one more element at its end. -/
theorem concat_eq_append_cons {α : Type*} {l before after : List α} {a b : α} :
    l ++ [b] = before ++ a :: after ↔ (after = [] ∧ l = before ∧ b = a) ∨
      ∃ after', after = after' ++ [b] ∧ l = before ++ a :: after' := by
  rcases List.eq_nil_or_concat' after with rfl | ⟨after, last, rfl⟩
  · simp
  · constructor
    · intro h
      rw [← List.cons_append, ← List.append_assoc] at h
      obtain ⟨rfl, hlast⟩ := List.append_inj' h rfl
      cases hlast
      exact Or.inr ⟨after, rfl, rfl⟩
    · rintro (⟨hnil, -⟩ | ⟨after', hafter, rfl⟩)
      · exact absurd hnil (by simp)
      · rw [hafter, ← List.cons_append, ← List.append_assoc]

section Along

variable {α : Type*} (step : σ → α → Option σ)

/-- A property holds of every state that a run passes through. -/
def StatesAlong (P : σ → Prop) : σ → List α → Prop
  | s, [] => P s
  | s, a :: l => P s ∧ ∀ s', step s a = some s' → StatesAlong P s' l

/-- A condition is met by every step of a run, in the state it is made in. -/
def StepsAlong (C : σ → α → Prop) : σ → List α → Prop
  | _, [] => True
  | s, a :: l => C s a ∧ ∀ s', step s a = some s' → StepsAlong C s' l

instance decidableStepsAlong {C : σ → α → Prop} [∀ s a, Decidable (C s a)] :
    ∀ s l, Decidable (StepsAlong step C s l)
  | _, [] => isTrue trivial
  | s, a :: l =>
    match h : step s a with
    | none => decidable_of_iff (C s a) (by simp [StepsAlong, h])
    | some s' =>
      have : Decidable (StepsAlong step C s' l) := decidableStepsAlong s' l
      decidable_of_iff (C s a ∧ StepsAlong step C s' l) (by simp [StepsAlong, h])

variable {step} {C : σ → α → Prop} {l : List α}

/-- If steps keep a property exactly under a condition, in the states that have an invariant, a run
has the property throughout exactly if all its steps meet the condition. -/
theorem statesAlong_iff_stepsAlong_of_invariant {I : σ → Prop}
    (hinv : ∀ s a s', I s → step s a = some s' → I s')
    (hstep : ∀ s a s', I s → P s → step s a = some s' → (P s' ↔ C s a))
    (hrun : l.foldlM step s = some s')
    (hI : I s) (h : P s) : StatesAlong step P s l ↔ StepsAlong step C s l := by
  induction l generalizing s with
  | nil => exact ⟨fun _ => trivial, fun _ => h⟩
  | cons a l ih =>
    rw [List.foldlM_cons] at hrun
    obtain ⟨s₁, hfirst, hrest⟩ := Option.bind_eq_some_iff.1 hrun
    have hI₁ := hinv s a s₁ hI hfirst
    constructor
    · rintro ⟨-, hall⟩
      have hstates := hall s₁ hfirst
      have h₁ : P s₁ := by
        cases l with
        | nil => exact hstates
        | cons b l => exact hstates.1
      refine ⟨(hstep s a s₁ hI h hfirst).1 h₁, fun s₂ h₂ => ?_⟩
      obtain rfl : s₁ = s₂ := Option.some.inj (hfirst.symm.trans h₂)
      exact (ih hrest hI₁ h₁).1 hstates
    · rintro ⟨hcond, hall⟩
      refine ⟨h, fun s₂ h₂ => ?_⟩
      obtain rfl : s₁ = s₂ := Option.some.inj (hfirst.symm.trans h₂)
      exact (ih hrest hI₁ ((hstep s a s₁ hI h hfirst).2 hcond)).2 (hall s₁ hfirst)

/-- A property that steps keep under a condition holds at the end of every run whose steps all meet
it. -/
theorem invariant_stepsAlong (hstep : ∀ s a s', P s → C s a → step s a = some s' → P s')
    (hrun : l.foldlM step s = some s') (h : P s) (hcond : StepsAlong step C s l) : P s' := by
  induction l generalizing s with
  | nil =>
    obtain rfl := Option.some.inj hrun
    exact h
  | cons a l ih =>
    rw [List.foldlM_cons] at hrun
    obtain ⟨s₁, hfirst, hrest⟩ := Option.bind_eq_some_iff.1 hrun
    exact ih hrest (hstep s a s₁ h hcond.1 hfirst) (hcond.2 s₁ hfirst)

/-- A property that each step keeps holds at the end of every run. -/
theorem invariant_steps (hstep : ∀ s a s', P s → step s a = some s' → P s')
    (hrun : l.foldlM step s = some s')
    (h : P s) : P s' := by
  induction l generalizing s with
  | nil =>
    obtain rfl := Option.some.inj hrun
    exact h
  | cons a l ih =>
    rw [List.foldlM_cons] at hrun
    obtain ⟨s₁, hfirst, hrest⟩ := Option.bind_eq_some_iff.1 hrun
    exact ih hrest (hstep s a s₁ h hfirst)

/-- Steps that meet a condition meet another one that follows from it where an invariant holds. -/
theorem StepsAlong.mono {C' : σ → α → Prop}
    (hstep : ∀ s a s', P s → C s a → step s a = some s' → P s')
    (himp : ∀ s a, P s → C s a → C' s a) (h : P s) (hcond : StepsAlong step C s l) :
    StepsAlong step C' s l := by
  induction l generalizing s with
  | nil => trivial
  | cons a l ih =>
    exact ⟨himp s a h hcond.1, fun s' hs' => ih (hstep s a s' h hcond.1 hs') (hcond.2 s' hs')⟩

/-- If steps of a kind go through exactly under a condition, a run of such steps goes through
exactly if all of them meet it. -/
theorem isSome_foldlM_iff_stepsAlong {Q : α → Prop}
    (hstep : ∀ s a, Q a → ((step s a).isSome ↔ C s a))
    (hQ : ∀ a ∈ l, Q a) : (l.foldlM step s).isSome ↔ StepsAlong step C s l := by
  induction l generalizing s with
  | nil => exact ⟨fun _ => trivial, fun _ => rfl⟩
  | cons a l ih =>
    obtain ⟨ha, hl⟩ := List.forall_mem_cons.1 hQ
    rw [List.foldlM_cons, StepsAlong, ← hstep s a ha]
    cases hs : step s a with
    | none => simp
    | some s₁ =>
      have := ih hl (s := s₁)
      simpa using this

end Along

end Pixiu.System
