import Mathlib

/-!
# Sequences of writes

A store is a partial function.  A write puts or deletes one entry; a sequence of writes is applied
one after another.  What is found under a key afterwards depends only on the writes to this key:
`applyAll_of_forall_ne` where there are none, `applyAll_of_forall_eq` where all of them leave the
same behind.
-/

namespace Pixiu

/-- One entry is put or deleted. -/
inductive Write (κ ν : Type*) where
  | put (key : κ) (value : ν)
  | del (key : κ)
  deriving DecidableEq, Repr

namespace Write

variable {κ ν : Type*} {k : κ} {store : κ → Option ν} {writes : List (Write κ ν)}

/-- The key that is written. -/
def target : Write κ ν → κ
  | put key _ => key
  | del key => key

/-- What is under the key afterwards. -/
def leaves : Write κ ν → Option ν
  | put _ value => some value
  | del _ => none

variable [DecidableEq κ]

/-- The store after one write. -/
def apply (store : κ → Option ν) (write : Write κ ν) : κ → Option ν :=
  Function.update store write.target write.leaves

/-- The store after a sequence of writes. -/
def applyAll (store : κ → Option ν) (writes : List (Write κ ν)) : κ → Option ν :=
  writes.foldl apply store

theorem applyAll_cons (write : Write κ ν) :
    applyAll store (write :: writes) = applyAll (apply store write) writes := rfl

theorem applyAll_append (writes' : List (Write κ ν)) :
    applyAll store (writes ++ writes') = applyAll (applyAll store writes) writes' :=
  List.foldl_append

theorem applyAll_of_forall_ne (h : ∀ write ∈ writes, write.target ≠ k) :
    applyAll store writes k = store k := by
  induction writes generalizing store with
  | nil => rfl
  | cons write writes ih =>
    rw [List.forall_mem_cons] at h
    rw [applyAll_cons, ih h.2, apply, Function.update_of_ne h.1.symm]

theorem applyAll_of_forall_eq {left : Option ν}
    (h : ∀ write ∈ writes, write.target = k → write.leaves = left)
    (hwritten : ∃ write ∈ writes, write.target = k) : applyAll store writes k = left := by
  induction writes generalizing store with
  | nil => obtain ⟨write, hmem, -⟩ := hwritten; cases hmem
  | cons write writes ih =>
    rw [List.forall_mem_cons] at h
    rw [applyAll_cons]
    by_cases hlater : ∃ write ∈ writes, write.target = k
    · exact ih h.2 hlater
    -- the first write is the last one to this key
    · obtain ⟨write', hmem, htarget⟩ := hwritten
      have hfirst : write' = write := by
        rcases List.mem_cons.1 hmem with heq | hmem
        · exact heq
        · exact absurd ⟨write', hmem, htarget⟩ hlater
      subst hfirst
      rw [applyAll_of_forall_ne fun w hw hk => hlater ⟨w, hw, hk⟩, apply, ← htarget,
        Function.update_self,
        h.1 htarget]

end Write

end Pixiu
