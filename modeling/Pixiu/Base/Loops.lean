import Mathlib

/-!
# Loops over lists

Loops that change the first element they find and stop, loops whose rounds may fail, the search for
a name that is not taken, and searches that can be stopped.
-/

namespace Pixiu

/-! ## The first element that passes a test

Where all keys differ, a key is found at most once, so that the order of the list does not
matter. -/

section First

variable {α : Type*} {p : α → Bool} {f : α → α} {l : List α}

/-- Change the first element that passes a test; nothing if there is none. -/
def updateFirst (p : α → Bool) (f : α → α) : List α → Option (List α)
  | [] => none
  | a :: l => if p a then some (f a :: l) else (updateFirst p f l).map (a :: ·)

/-- Where all keys differ, a key is found at most once. -/
theorem countP_key_le_one {κ : Type*} [DecidableEq κ] {key : α → κ} (h : (l.map key).Nodup)
    (k : κ) :
    l.countP (fun a => decide (key a = k)) ≤ 1 := by
  have hcount := List.nodup_iff_count_le_one.1 h k
  rw [List.count, List.countP_map] at hcount
  refine le_of_eq_of_le (List.countP_congr fun a _ => ?_) hcount
  rw [decide_eq_true_iff, Function.comp, beq_iff_eq]

theorem filter_key_eq_singleton {κ : Type*} [DecidableEq κ] {key : α → κ} (h : (l.map key).Nodup)
    {a : α}
    (ha : a ∈ l) : l.filter (fun b => decide (key b = key a)) = [a] := by
  have hmem : a ∈ l.filter fun b => decide (key b = key a) :=
    List.mem_filter.2 ⟨ha, decide_eq_true rfl⟩
  have hle := countP_key_le_one h (key a)
  rw [List.countP_eq_length_filter] at hle
  obtain ⟨b, hb⟩ := List.length_eq_one_iff.1 (le_antisymm hle (List.length_pos_of_mem hmem))
  rw [hb, List.mem_singleton] at hmem
  rw [hb, hmem]

end First

/-! ## Loops that may fail

Such a loop succeeds if every round does, and then has their results in order. -/

section Partial

variable {α β : Type} {f : α → Option β} {l : List α} {l' : List β}

theorem mapM_eq_some_iff : l.mapM f = some l' ↔ List.Forall₂ (fun a b => f a = some b) l l' := by
  induction l generalizing l' with
  | nil => cases l' <;> simp
  | cons a l ih =>
    rw [List.mapM_cons, Option.bind_eq_bind, Option.bind_eq_some_iff]
    constructor
    · rintro ⟨b, hb, hrest⟩
      rw [Option.bind_eq_bind, Option.bind_eq_some_iff] at hrest
      obtain ⟨rest, hrest, hl⟩ := hrest
      obtain rfl : b :: rest = l' := Option.some.inj hl
      exact .cons hb (ih.1 hrest)
    · intro h
      cases h with
      | cons hb hrest => exact ⟨_, hb, by rw [ih.2 hrest]; rfl⟩

/-- What a loop gives, one of its rounds gave. -/
theorem exists_of_mem_mapM {b : β} (h : l.mapM f = some l') (hb : b ∈ l') :
    ∃ a ∈ l, f a = some b := by
  rw [mapM_eq_some_iff] at h
  induction h with
  | nil => cases hb
  | cons hhead _ ih =>
    rcases List.mem_cons.1 hb with rfl | hb
    · exact ⟨_, List.mem_cons_self .., hhead⟩
    · obtain ⟨a, ha, hfa⟩ := ih hb
      exact ⟨a, List.mem_cons_of_mem _ ha, hfa⟩

theorem mapM_eq_none_iff : l.mapM f = none ↔ ∃ a ∈ l, f a = none := by
  induction l with
  | nil => simp
  | cons a l ih =>
    rw [List.mapM_cons, Option.bind_eq_bind, Option.bind_eq_none_iff, List.exists_mem_cons_iff,
      ← ih]
    cases ha : f a with
    | none => simp
    | some b => cases l.mapM f <;> simp

end Partial

/-! ## A name that is not taken

The search that appends a counter to a name until the result is new: `firstFree` looks
through as many candidates as there are taken names, and one more.  For candidates that
never repeat this is enough (`firstFree_isSome`), so the search behaves like the unbounded
loop it stands for: what it returns is not taken (`firstFree_notMem`). -/

namespace Fresh

variable {α : Type*} [DecidableEq α]

/-- The first of `f k, f (k + 1), …` that is not taken. -/
def firstFree (f : ℕ → α) (taken : List α) (k : ℕ) : Option α :=
  ((List.range (taken.length + 1)).map fun i => f (k + i)).find? fun a => decide (a ∉ taken)

theorem firstFree_notMem {f : ℕ → α} {taken : List α} {k : ℕ} {a : α}
    (h : firstFree f taken k = some a) : a ∉ taken := by
  have hfound := List.find?_some h
  exact of_decide_eq_true hfound

/-- What is found is a candidate, and all candidates before it are taken. -/
theorem firstFree_least {f : ℕ → α} {taken : List α} {k : ℕ} {a : α}
    (h : firstFree f taken k = some a) :
    ∃ i, a = f (k + i) ∧ ∀ j < i, f (k + j) ∈ taken := by
  rw [firstFree, List.find?_map, Option.map_eq_some_iff] at h
  obtain ⟨i, hi, rfl⟩ := h
  refine ⟨i, rfl, fun j hj => ?_⟩
  have hrange := List.find?_range_eq_some.1 hi
  simpa using hrange.2.2 j hj

/-- One more candidate than taken names is enough. -/
theorem firstFree_isSome {f : ℕ → α} (hf : Function.Injective f) (taken : List α) (k : ℕ) :
    (firstFree f taken k).isSome := by
  rw [Option.isSome_iff_ne_none]
  intro hnone
  have hmem : ∀ a ∈ (List.range (taken.length + 1)).map (fun i => f (k + i)), a ∈ taken := by
    intro a ha
    have := List.find?_eq_none.1 hnone a ha
    simpa using this
  have hnodup : ((List.range (taken.length + 1)).map fun i => f (k + i)).Nodup :=
    List.nodup_range.map fun i j hij => Nat.add_left_cancel (hf hij)
  have hlen := (hnodup.subperm hmem).length_le
  simp only [List.length_map, List.length_range] at hlen
  omega

end Fresh

/-! ## Searches that can be stopped

A search walks a list and stops at the first element of interest.  Some elements
answer it (`good`), some end it without an answer (`bad`).  `FindsBefore` says that
the walk comes to an answer first; the lemmas compare it with `List.find?`, say when
it is plain membership, and how it moves when answers and stops are added. -/

namespace Search

variable {α : Type*} {good bad good' bad' : α → Prop}

/-- The walk comes to a good element before it comes to a bad one. -/
def FindsBefore (good bad : α → Prop) : List α → Prop
  | [] => False
  | a :: as => good a ∨ (¬ bad a ∧ FindsBefore good bad as)

/-- The answer is the first element of interest, if that one is good. -/
theorem findsBefore_iff_find? {p : α → Bool} {l : List α}
    (hp : ∀ a ∈ l, p a = true ↔ good a ∨ bad a) (hdisj : ∀ a ∈ l, good a → ¬ bad a) :
    FindsBefore good bad l ↔ ∃ a, l.find? p = some a ∧ good a := by
  induction l with
  | nil => simp [FindsBefore]
  | cons a as ih =>
    have ih := ih (fun b hb => hp b (List.mem_cons_of_mem _ hb))
      (fun b hb => hdisj b (List.mem_cons_of_mem _ hb))
    have hpa := hp a (List.mem_cons_self ..)
    have hda := hdisj a (List.mem_cons_self ..)
    rw [FindsBefore, List.find?_cons, ih]
    cases h : p a with
    | true =>
      have hgb := hpa.1 h
      simp only [Option.some.injEq, exists_eq_left']
      refine ⟨fun hf => ?_, Or.inl⟩
      rcases hf with hg | ⟨hb, -⟩
      · exact hg
      · exact hgb.resolve_right hb
    | false =>
      have hgb : ¬ (good a ∨ bad a) := fun hc => by simp [hpa.2 hc] at h
      simp only [not_or] at hgb
      simp [hgb.1, hgb.2]

/-- With nothing to stop it, the walk finds whatever is there. -/
theorem findsBefore_iff_exists {l : List α} (h : ∀ a ∈ l, (∃ b ∈ l, good b) → ¬ bad a) :
    FindsBefore good bad l ↔ ∃ a ∈ l, good a := by
  induction l with
  | nil => simp [FindsBefore]
  | cons a as ih =>
    have ih := ih fun b hb ⟨c, hc, hg⟩ =>
      h b (List.mem_cons_of_mem _ hb) ⟨c, List.mem_cons_of_mem _ hc, hg⟩
    rw [FindsBefore, ih, List.exists_mem_cons_iff]
    refine or_congr_right ⟨And.right, fun hex => ⟨?_, hex⟩⟩
    obtain ⟨b, hb, hg⟩ := hex
    exact h a (List.mem_cons_self ..) ⟨b, List.mem_cons_of_mem _ hb, hg⟩

theorem FindsBefore.exists {l : List α} (h : FindsBefore good bad l) : ∃ a ∈ l, good a := by
  induction l with
  | nil => exact h.elim
  | cons a as ih =>
    rcases h with hg | ⟨-, h⟩
    · exact ⟨a, List.mem_cons_self .., hg⟩
    · obtain ⟨b, hb, hg⟩ := ih h
      exact ⟨b, List.mem_cons_of_mem _ hb, hg⟩

/-- More answers and fewer stops help. -/
theorem FindsBefore.mono {l : List α} (h : FindsBefore good bad l)
    (hgood : ∀ a ∈ l, good a → good' a) (hbad : ∀ a ∈ l, bad' a → bad a) :
    FindsBefore good' bad' l := by
  induction l with
  | nil => exact h
  | cons a as ih =>
    rcases h with hg | ⟨hb, h⟩
    · exact Or.inl (hgood a (List.mem_cons_self ..) hg)
    · exact Or.inr ⟨fun hc => hb (hbad a (List.mem_cons_self ..) hc),
        ih h (fun b hb => hgood b (List.mem_cons_of_mem _ hb))
          (fun b hb => hbad b (List.mem_cons_of_mem _ hb))⟩

end Search

end Pixiu
