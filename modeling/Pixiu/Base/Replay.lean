import Mathlib

/-!
# Replaying a log of keys that come and go

An event says that a key is there from now on, or that it is gone.  `replay` applies events to a
set of keys.  What becomes of one key depends on the events of that key alone
(`mem_replay_filter`); so events that arrive out of order can be put in order by their versions,
as long as no key has two events of the same version (`replay_of_perm`).
-/

namespace Pixiu.Replay

variable {ε κ : Type*} [DecidableEq κ] (key : ε → κ) (present : ε → Bool)

/-- The keys that are there after some events. -/
def replay (s : Finset κ) (l : List ε) : Finset κ :=
  l.foldl (fun s e => if present e then insert (key e) s else s.erase (key e)) s

variable {key present} {s : Finset κ} {l : List ε}

theorem replay_append (l l' : List ε) :
    replay key present s (l ++ l') = replay key present (replay key present s l) l' :=
  List.foldl_append

theorem mem_replay_append_singleton {e : ε} {k : κ} :
    k ∈ replay key present s (l ++ [e]) ↔
      if key e = k then present e = true else k ∈ replay key present s l := by
  rw [replay_append]
  simp only [replay, List.foldl_cons, List.foldl_nil]
  by_cases he : key e = k
  · subst he
    cases present e <;> simp
  · have hne : k ≠ key e := fun h => he h.symm
    cases present e <;> simp [he, hne]

/-- The events of other keys do not matter. -/
theorem mem_replay_filter {k : κ} :
    k ∈ replay key present s l ↔ k ∈ replay key present s (l.filter (key · = k)) := by
  induction l using List.reverseRecOn with
  | nil => rfl
  | append_singleton l e ih =>
    rw [mem_replay_append_singleton, List.filter_append]
    by_cases he : key e = k
    · rw [if_pos he, List.filter_singleton, decide_eq_true he, cond_true,
        mem_replay_append_singleton,
        if_pos he]
    · rw [if_neg he, List.filter_singleton, decide_eq_false he, cond_false, List.append_nil, ih]

/-- Where no key has two events, its event decides, and the start if there is none. -/
theorem mem_replay_of_pairwise (h : l.Pairwise fun a b => key a ≠ key b) {k : κ} :
    k ∈ replay key present s l ↔
      (∃ e ∈ l, key e = k ∧ present e = true) ∨ (k ∈ s ∧ ∀ e ∈ l, key e ≠ k) := by
  induction l using List.reverseRecOn with
  | nil => simp [replay]
  | append_singleton l e ih =>
    obtain ⟨hl, -, hlast⟩ := List.pairwise_append.1 h
    rw [mem_replay_append_singleton]
    by_cases he : key e = k
    · -- no event before is of this key
      have hbefore : ∀ e' ∈ l, key e' ≠ k := fun e' he' => he ▸ hlast e' he' e List.mem_cons_self
      rw [if_pos he]
      constructor
      · intro hpresent
        exact .inl ⟨e, by simp, he, hpresent⟩
      · rintro (⟨e', he', hk, hpresent⟩ | ⟨-, hall⟩)
        · rcases List.mem_append.1 he' with he' | he'
          · exact absurd hk (hbefore e' he')
          · rwa [List.mem_singleton.1 he'] at hpresent
        · exact absurd he (hall e (by simp))
    · rw [if_neg he, ih hl]
      simp [or_and_right, exists_or, he, or_imp, forall_and]

/-- **Events in the order of their versions**: whatever the order in which they came, the result
is that of the log. -/
theorem replay_of_perm {v : ε → ℕ} {log : List ε} (hlog : log.Pairwise fun a b => v a ≤ v b)
    (hkey : log.Pairwise fun a b => key a = key b → v a ≠ v b) (hperm : l.Perm log)
    (hsorted : l.Pairwise fun a b => v a ≤ v b) :
    replay key present s l = replay key present s log := by
  ext k
  rw [mem_replay_filter, mem_replay_filter (l := log)]
  suffices h : l.filter (key · = k) = log.filter (key · = k) by rw [h]
  refine List.Perm.eq_of_pairwise (fun a b ha hb hab hba => ?_) (hsorted.filter _) (hlog.filter _)
    (hperm.filter _)
  obtain ⟨ha, hka⟩ := List.mem_filter.1 ha
  obtain ⟨hb, hkb⟩ := List.mem_filter.1 hb
  by_contra hne
  have : Std.Symm fun a b : ε => key a = key b → v a ≠ v b :=
    ⟨fun a b h hk heq => h hk.symm heq.symm⟩
  exact hkey.forall (hperm.mem_iff.1 ha) hb hne
    ((of_decide_eq_true hka).trans (of_decide_eq_true hkb).symm) (le_antisymm hab hba)

end Pixiu.Replay
