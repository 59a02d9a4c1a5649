import Mathlib

/-!
# Announcements

A listener is told that things appear and disappear.  `live` is what it knows after some notices:
everything that was added and not removed since.
-/

namespace Pixiu

/-- Something appears or disappears. -/
inductive Notice (α : Type*) where
  | add (a : α)
  | remove (a : α)
  deriving DecidableEq, Repr

namespace Notice

variable {α : Type*} [DecidableEq α] {s : Finset α} {a : α}

/-- What the notice is about. -/
def subject : Notice α → α
  | add a => a
  | remove a => a

/-- What a notice does to what is there. -/
def apply (s : Finset α) : Notice α → Finset α
  | add a => insert a s
  | remove a => s.erase a

/-- What is there after some notices. -/
def live (s : Finset α) (notices : List (Notice α)) : Finset α := notices.foldl apply s

@[simp] theorem live_nil : live s [] = s := rfl

theorem live_append (l l' : List (Notice α)) : live s (l ++ l') = live (live s l) l' :=
  List.foldl_append

/-- What no notice is about stays as it is. -/
theorem mem_live_of_forall_ne {l : List (Notice α)} (h : ∀ n ∈ l, n.subject ≠ a) :
    a ∈ live s l ↔ a ∈ s := by
  induction l generalizing s with
  | nil => rfl
  | cons n l ih =>
    rw [live, List.foldl_cons, ← live, ih fun n' hn' => h n' (List.mem_cons_of_mem _ hn')]
    have hne : n.subject ≠ a := h n (List.mem_cons_self ..)
    cases n with
    | add b => simp [apply, show a ≠ b from Ne.symm hne]
    | remove b => simp [apply, show a ≠ b from Ne.symm hne]

theorem mem_live_adds {l : List α} : a ∈ live s (l.map add) ↔ a ∈ s ∨ a ∈ l := by
  induction l generalizing s with
  | nil => simp
  | cons b l ih =>
    rw [List.map_cons, live, List.foldl_cons, ← live, ih, apply, Finset.mem_insert, List.mem_cons]
    tauto

theorem mem_live_removes {l : List α} : a ∈ live s (l.map remove) ↔ a ∈ s ∧ a ∉ l := by
  induction l generalizing s with
  | nil => simp
  | cons b l ih =>
    rw [List.map_cons, live, List.foldl_cons, ← live, ih, apply, Finset.mem_erase, List.mem_cons]
    tauto

/-! ## Keeping in step -/

/-- The listed services offer something, given the instances of each. -/
def Offered {κ ι : Type*} (offers : ι → List α) (listed : κ → Prop) (latest : κ → List ι)
    (a : α) : Prop :=
  ∃ k, listed k ∧ ∃ i ∈ latest k, a ∈ offers i

instance {κ ι : Type*} (offers : ι → List α) (keys : Finset κ) (p : κ → Prop) [DecidablePred p]
    (latest : κ → List ι) (a : α) : Decidable (Offered offers (fun k => k ∈ keys ∧ p k) latest a) :=
  decidable_of_iff (∃ k ∈ keys, p k ∧ ∃ i ∈ latest k, a ∈ offers i) (by simp [Offered, and_assoc])

section Replaces

variable {ι κ : Type*} (offers : ι → List α) (key : ι → κ) (others : α → Prop)
  (old new : List ι)

/-- A list of instances can take the place of another one if all that is announced are the
instances that are new or changed, and all that is withdrawn are those whose key is gone. -/
structure Replaces : Prop where
  /-- No two instances have the same key. -/
  distinct : (new.map key).Nodup
  /-- What an instance has offered is still offered when another one takes over its key. -/
  keeps : ∀ o ∈ old, ∀ i ∈ new, key o = key i →
    ∀ a ∈ offers o, others a ∨ ∃ j ∈ new, a ∈ offers j
  /-- What an instance whose key is gone has offered is offered by nothing else. -/
  apart : ∀ o ∈ old, (∀ i ∈ new, key i ≠ key o) →
    ∀ a ∈ offers o, ¬others a ∧ ∀ i ∈ new, a ∉ offers i

instance [DecidableEq κ] [DecidablePred others] : Decidable (Replaces offers key others old new) :=
  decidable_of_iff ((new.map key).Nodup ∧
      (∀ o ∈ old, ∀ i ∈ new, key o = key i → ∀ a ∈ offers o, others a ∨ ∃ j ∈ new, a ∈ offers j) ∧
      ∀ o ∈ old, (∀ i ∈ new, key i ≠ key o) →
        ∀ a ∈ offers o, ¬others a ∧ ∀ i ∈ new, a ∉ offers i)
    ⟨fun h => ⟨h.1, h.2.1, h.2.2⟩, fun h => ⟨h.distinct, h.keeps, h.apart⟩⟩

/-- An instance that is new, or not as it was, offers something. -/
def Fresh (a : α) : Prop := ∃ i ∈ new, i ∉ old ∧ a ∈ offers i

/-- An instance whose key is gone has offered something. -/
def Gone (a : α) : Prop := ∃ o ∈ old, (∀ i ∈ new, key i ≠ key o) ∧ a ∈ offers o

variable {offers key others old new}

omit [DecidableEq α] in
/-- After the announcements, what is there is what the others and the new instances offer. -/
theorem Replaces.mem_iff (h : Replaces offers key others old new) {s' : Finset α}
    {added readded : α → Prop} (hbefore : ∀ a, a ∈ s ↔ others a ∨ ∃ o ∈ old, a ∈ offers o)
    (hafter : ∀ a, a ∈ s' ↔ readded a ∨ (a ∈ s ∨ added a) ∧ ¬Gone offers key old new a)
    (hfresh : ∀ a, Fresh offers old new a ↔ added a ∨ readded a) (a : α) :
    a ∈ s' ↔ others a ∨ ∃ i ∈ new, a ∈ offers i := by
  rw [hafter, hbefore]
  constructor
  · have hoffered : added a ∨ readded a → ∃ i ∈ new, a ∈ offers i := by
      intro hadded
      obtain ⟨i, hi, -, ha⟩ := (hfresh a).2 hadded
      exact ⟨i, hi, ha⟩
    rintro (hreadded | ⟨(hother | ⟨o, ho, ha⟩) | hadded, hgone⟩)
    · exact .inr (hoffered (.inr hreadded))
    · exact .inl hother
    · by_cases hkey : ∃ i ∈ new, key o = key i
      · obtain ⟨i, hi, heq⟩ := hkey
        exact h.keeps o ho i hi heq a ha
      · exact absurd ⟨o, ho, fun i hi heq => hkey ⟨i, hi, heq.symm⟩, ha⟩ hgone
    · exact .inr (hoffered (.inl hadded))
  · rintro (hother | ⟨i, hi, ha⟩)
    · refine .inr ⟨.inl (.inl hother), ?_⟩
      rintro ⟨o, ho, hkey, ha⟩
      exact (h.apart o ho hkey a ha).1 hother
    · have hgone : ¬Gone offers key old new a := by
        rintro ⟨o, ho, hkey, hoffers⟩
        exact (h.apart o ho hkey a hoffers).2 i hi ha
      by_cases hold : i ∈ old
      · exact .inr ⟨.inl (.inr ⟨i, hold, ha⟩), hgone⟩
      · rcases (hfresh a).1 ⟨i, hi, hold, ha⟩ with hadded | hreadded
        · exact .inr ⟨.inr hadded, hgone⟩
        · exact .inl hreadded

end Replaces

section Offered

variable {ι κ : Type*} {offers : ι → List α} {listed : κ → Prop} {latest : κ → List ι} {k : κ}

omit [DecidableEq α] in
/-- What is offered, split into one service and the others. -/
theorem offered_iff (h : listed k) (a : α) : Offered offers listed latest a ↔
    Offered offers (fun k' => listed k' ∧ k' ≠ k) latest a ∨ ∃ i ∈ latest k, a ∈ offers i := by
  constructor
  · rintro ⟨k', hk', hoffers⟩
    by_cases heq : k' = k
    · exact .inr (heq ▸ hoffers)
    · exact .inl ⟨k', ⟨hk', heq⟩, hoffers⟩
  · rintro (⟨k', hk', hoffers⟩ | hoffers)
    · exact ⟨k', hk'.1, hoffers⟩
    · exact ⟨k, h, hoffers⟩

omit [DecidableEq α] in
theorem offered_update_iff [DecidableEq κ] (h : listed k) (new : List ι) (a : α) :
    Offered offers listed (Function.update latest k new) a ↔
      Offered offers (fun k' => listed k' ∧ k' ≠ k) latest a ∨ ∃ i ∈ new, a ∈ offers i := by
  rw [offered_iff h, Function.update_self]
  refine or_congr_left (exists_congr fun k' => and_congr_right fun hk' => ?_)
  rw [Function.update_of_ne hk'.2]

omit [DecidableEq α] in
/-- A new list of services offers the same if what a dropped service offers is offered by one that
stays, and if a service that comes in has no instances. -/
theorem offered_relist {listed' : κ → Prop} (hnew : ∀ k, listed' k → ¬listed k → latest k = [])
    (hdropped : ∀ k, listed k → ¬listed' k → ∀ i ∈ latest k, ∀ a ∈ offers i,
      Offered offers (fun k' => listed k' ∧ listed' k') latest a) (a : α) :
    Offered offers listed latest a ↔ Offered offers listed' latest a := by
  constructor
  · rintro ⟨k, hk, i, hi, ha⟩
    by_cases hk' : listed' k
    · exact ⟨k, hk', i, hi, ha⟩
    · obtain ⟨k', hboth, hoffers⟩ := hdropped k hk hk' i hi a ha
      exact ⟨k', hboth.2, hoffers⟩
  · rintro ⟨k, hk', i, hi, ha⟩
    by_cases hk : listed k
    · exact ⟨k, hk, i, hi, ha⟩
    · rw [hnew k hk' hk] at hi
      cases hi

end Offered

end Notice

end Pixiu
