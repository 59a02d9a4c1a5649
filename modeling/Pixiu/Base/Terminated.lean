import Mathlib.Data.List.Basic
import Mathlib.Data.List.Infix

/-!
# Texts with a terminator

Texts written one after another, each followed by a terminator that may also occur inside a text.
Two different lists of texts are written alike exactly when, at the first place where they differ,
the text of one is the text of the other continued by the terminator and by what follows there
(`Absorbs`).
-/

namespace Pixiu

variable {α : Type*} {sep : α}

/-- The texts, each with the terminator after it. -/
def terminated (sep : α) (texts : List (List α)) : List α := texts.flatMap (· ++ [sep])

/-- A text of `ys` contains the corresponding text of `xs` and some of what is written after
that. -/
def Absorbs (sep : α) (xs ys : List (List α)) : Prop :=
  ∃ common text rest more rest', xs = common ++ text :: rest ∧
    ys = common ++ (text ++ sep :: more) :: rest' ∧
    terminated sep rest = more ++ sep :: terminated sep rest'

@[simp] theorem terminated_nil : terminated sep [] = [] := rfl

theorem terminated_cons (text : List α) (rest : List (List α)) :
    terminated sep (text :: rest) = text ++ sep :: terminated sep rest := by
  rw [terminated, List.flatMap_cons, List.append_assoc]
  rfl

theorem terminated_append (xs ys : List (List α)) :
    terminated sep (xs ++ ys) = terminated sep xs ++ terminated sep ys :=
  List.flatMap_append

theorem Absorbs.cons {xs ys : List (List α)} (h : Absorbs sep xs ys) (text : List α) :
    Absorbs sep (text :: xs) (text :: ys) := by
  obtain ⟨common, first, rest, more, rest', rfl, rfl, hrest⟩ := h
  exact ⟨text :: common, first, rest, more, rest', rfl, rfl, hrest⟩

theorem Absorbs.terminated_eq {xs ys : List (List α)} (h : Absorbs sep xs ys) :
    terminated sep xs = terminated sep ys := by
  obtain ⟨common, text, rest, more, rest', rfl, rfl, hrest⟩ := h
  rw [terminated_append, terminated_append, terminated_cons, terminated_cons, hrest,
    List.append_assoc]
  rfl

theorem Absorbs.ne {xs ys : List (List α)} (h : Absorbs sep xs ys) : xs ≠ ys := by
  obtain ⟨common, text, rest, more, rest', rfl, rfl, -⟩ := h
  intro heq
  have hhead := (List.cons.inj (List.append_cancel_left heq)).1
  have hlength := congrArg List.length hhead
  rw [List.length_append, List.length_cons] at hlength
  omega

/-- Lists that are written alike are equal, or one absorbs the other. -/
theorem eq_or_absorbs : ∀ {xs ys : List (List α)}, terminated sep xs = terminated sep ys →
    xs = ys ∨ Absorbs sep xs ys ∨ Absorbs sep ys xs
  | [], [], _ => .inl rfl
  | [], y :: ys, h => by
      rw [terminated_nil, terminated_cons] at h
      exact absurd h.symm (List.append_ne_nil_of_right_ne_nil _ (List.cons_ne_nil _ _))
  | x :: xs, [], h => by
      rw [terminated_nil, terminated_cons] at h
      exact absurd h (List.append_ne_nil_of_right_ne_nil _ (List.cons_ne_nil _ _))
  | x :: xs, y :: ys, h => by
      rw [terminated_cons, terminated_cons] at h
      rcases List.append_eq_append_iff.1 h with ⟨more, hy, hrest⟩ | ⟨more, hx, hrest⟩
      · cases more with
        | nil =>
          rw [List.append_nil] at hy
          subst hy
          rcases eq_or_absorbs (List.cons.inj hrest).2 with rfl | habsorbs | habsorbs
          · exact .inl rfl
          · exact .inr (.inl (habsorbs.cons _))
          · exact .inr (.inr (habsorbs.cons _))
        | cons c more =>
          -- the second text goes on with the terminator of the first
          obtain ⟨rfl, hmore⟩ := List.cons.inj hrest
          exact .inr (.inl ⟨[], x, xs, more, ys, rfl, by rw [hy]; rfl, hmore⟩)
      · cases more with
        | nil =>
          rw [List.append_nil] at hx
          subst hx
          rcases eq_or_absorbs (List.cons.inj hrest).2.symm with rfl | habsorbs | habsorbs
          · exact .inl rfl
          · exact .inr (.inl (habsorbs.cons _))
          · exact .inr (.inr (habsorbs.cons _))
        | cons c more =>
          obtain ⟨rfl, hmore⟩ := List.cons.inj hrest
          exact .inr (.inr ⟨[], y, ys, more, xs, rfl, by rw [hx]; rfl, hmore⟩)

/-- Up to the first terminator the texts are the same. -/
theorem append_sep_inj {x y r s : List α} (hx : sep ∉ x) (hy : sep ∉ y)
    (h : x ++ sep :: r = y ++ sep :: s) :
    x = y ∧ r = s := by
  rcases List.append_eq_append_iff.1 h with ⟨more, rfl, hrest⟩ | ⟨more, rfl, hrest⟩
  · cases more with
    | nil => exact ⟨(List.append_nil _).symm, (List.cons.inj hrest).2⟩
    | cons c more =>
      obtain ⟨rfl, -⟩ := List.cons.inj hrest
      exact absurd (List.mem_append_right _ List.mem_cons_self) hy
  · cases more with
    | nil => exact ⟨List.append_nil _, (List.cons.inj hrest).2.symm⟩
    | cons c more =>
      obtain ⟨rfl, -⟩ := List.cons.inj hrest
      exact absurd (List.mem_append_right _ List.mem_cons_self) hx

end Pixiu
