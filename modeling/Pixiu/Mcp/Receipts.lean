import Pixiu.Mcp.Calls

/-!
# Receipts are spent once

A receipt is open from the moment it is issued until it is spent, or until the plan it was issued
from is replaced, removed or expanded (`IssuedFrom`).  From this follow the two facts about
counting: a receipt raises a call count at most once, and only while the plan generation it was
issued from is current.

The call count of an entry is the number of receipts that were finalised as succeeded *with a
positive threshold* since the last reset.  A receipt that `FinalizeReceipt` spends with `expandAfter
≤ 0`, as a selector without progressive disclosure does, is consumed but not counted.
-/

namespace Pixiu.Mcp

variable {V : Type}

namespace SessionPlanStore

/-! ## What is counted -/

/-- The call raises the call count of a key. -/
def Increases (s : SessionPlanStore V) (c : Call V) (k : PlanKey) : Prop :=
  s.callCount k < (s.next c).callCount k

/-- The call creates the entry of a key or changes its identity or progressive hash. -/
def resets (s : SessionPlanStore V) (c : Call V) (k : PlanKey) : Bool :=
  match s.entries.lookup k, (s.next c).entries.lookup k with
  | none, some _ => true
  | some e, some e' => e.identityHash != e'.identityHash || e.progressiveHash != e'.progressiveHash
  | _, none => false

/-- The call finalises a receipt of a key as succeeded, with a threshold that passes a test. -/
def finalises (threshold : ℤ → Bool) (s : SessionPlanStore V) (c : Call V) (k : PlanKey) : Bool :=
  match s.finalised c k with
  | some (.succeeded, expandAfter) => threshold expandAfter
  | _ => false

/-- The number of receipts of a key that a run finalises as succeeded after its last reset; `n` is
the number before the run. -/
def tally (threshold : ℤ → Bool) (k : PlanKey) : SessionPlanStore V → ℕ → List (Call V) → ℕ
  | _, n, [] => n
  | s, n, c :: calls =>
    tally threshold k (s.next c)
      (if s.resets c k then 0 else if s.finalises threshold c k then n + 1 else n) calls

/-- The call reports `Transitioned` for a key. -/
def Transitions (s : SessionPlanStore V) (c : Call V) (k : PlanKey) : Prop :=
  ∃ receipt outcome expandAfter result, c.spends = some (receipt, outcome, expandAfter) ∧
    k = newPlanKey receipt.routerInstanceID receipt.sessionID ∧ s.reply c = .result result ∧
    result.transitioned = true

/-- Some call of a run resets a key. -/
def ResetWithin (s : SessionPlanStore V) (calls : List (Call V)) (k : PlanKey) : Prop :=
  ∃ before c after, calls = before ++ c :: after ∧ (s.run before).resets c k = true

/-- A receipt with this address was asked of `k` and issued during the run, from the generation `g`
of the plan of `k`, and the entry of `k` has had that generation ever since. -/
def IssuedFrom (s : SessionPlanStore V) (calls : List (Call V)) (k : PlanKey) (g state : ℕ) :
    Prop :=
  ∃ before c after r, calls = before ++ c :: after ∧ c.receiptKey = some k ∧
    (s.run before).Issues c r ∧ r.state = some state ∧ r.planGeneration = g ∧
      r.sessionID = k.sessionID ∧
    ∀ part, part <+: after → ∃ e, (s.run (before ++ c :: part)).entries.lookup k = some e ∧
      e.generation = g

variable {s : SessionPlanStore V} {c : Call V} {k : PlanKey} {calls : List (Call V)}

theorem callCount_eq {e : SessionEntry V} (he : s.entries.lookup k = some e) :
    s.callCount k = e.callCount := by
  rw [callCount, he]

/-! ## The entry after a write -/

theorem activeReceipts_written (stored : SelectionPlan) (sc : SelectionContext V) (id : ℕ) :
    (s.written k stored sc).activeReceipts id = none := by
  obtain ⟨_, _, _, _, h⟩ := exists_written_eq_write (s := s) k stored sc
  rw [h]
  rfl

theorem plan_generation_written (stored : SelectionPlan) (sc : SelectionContext V) :
    (s.written k stored sc).plan.generation = (s.written k stored sc).generation := by
  obtain ⟨_, _, _, _, h⟩ := exists_written_eq_write (s := s) k stored sc
  rw [h]
  rfl

/-- A write either starts the count again, where the store resets the key, or keeps it. -/
theorem callCount_written {e : SessionEntry V} (he : s.entries.lookup k = some e)
    (stored : SelectionPlan)
    (sc : SelectionContext V) :
    ((s.written k stored sc).callCount = e.callCount ∧
      (s.written k stored sc).expanded = e.expanded ∧
        (s.written k stored sc).identityHash = e.identityHash ∧
        (s.written k stored sc).progressiveHash = e.progressiveHash) ∨
      ((s.written k stored sc).callCount = 0 ∧
        (e.identityHash ≠ (s.written k stored sc).identityHash ∨
        e.progressiveHash ≠ (s.written k stored sc).progressiveHash)) := by
  rw [written_of_some he, SessionEntry.replace]
  split_ifs with hreset
  · rw [SessionEntry.resetBy, Bool.or_eq_true, bne_iff_ne, bne_iff_ne] at hreset
    exact .inr ⟨rfl, hreset⟩
  · rw [Bool.not_eq_true, SessionEntry.resetBy, Bool.or_eq_false_iff, bne_eq_false_iff_eq,
      bne_eq_false_iff_eq]
      at hreset
    exact .inl ⟨rfl, rfl, hreset.1.symm, hreset.2.symm⟩

/-! ## Open receipts -/

theorem IssuedFrom.snoc {g state : ℕ} {e : SessionEntry V} (h : s.IssuedFrom calls k g state)
    (he : (s.run (calls ++ [c])).entries.lookup k = some e) (hg : e.generation = g) :
    s.IssuedFrom (calls ++ [c]) k g state := by
  obtain ⟨before, issue, after, r, rfl, hkey, hissues, hstate, hgeneration, hsession, hsince⟩ := h
  refine ⟨before, issue, after ++ [c], r, by simp, hkey, hissues, hstate, hgeneration, hsession,
    fun part hpart => ?_⟩
  rcases List.prefix_concat_iff.1 hpart with rfl | hpart
  · refine ⟨e, ?_, hg⟩
    simpa using he
  · exact hsince part hpart

/-- Plans know their generation, and open receipts were issued from the plan that is in force. -/
structure Tracked (s : SessionPlanStore V) (calls : List (Call V)) (k : PlanKey)
    (e : SessionEntry V) : Prop where
  generation : e.plan.generation = e.generation
  receipts : ∀ id state, e.activeReceipts id = some state → s.IssuedFrom calls k e.generation state

theorem tracked_snoc (hbefore : ∀ e, (s.run calls).entries.lookup k = some e → s.Tracked calls k e)
    {e' : SessionEntry V} (he' : (s.run (calls ++ [c])).entries.lookup k = some e') :
    s.Tracked (calls ++ [c]) k e' := by
  have heffect := (s.run calls).effect c k
  rw [← run_snoc, he'] at heffect
  generalize (s.run calls).finalised c k = f at heffect
  -- the entry as a call that writes leaves it, before a receipt is issued from it
  have hheld : ∀ e, (s.run calls).Held c k e → e.generation = e'.generation →
      s.Tracked (calls ++ [c]) k e := by
    intro e hheld hgeneration
    cases hheld with
    | kept he =>
      refine ⟨(hbefore e he).generation, fun id state hopen => ?_⟩
      exact ((hbefore e he).receipts id state hopen).snoc he' hgeneration.symm
    | written h =>
      refine ⟨plan_generation_written .., fun id state hopen => ?_⟩
      rw [activeReceipts_written] at hopen
      cases hopen
  cases heffect with
  | held h => exact hheld _ h rfl
  | @issued e requested routerID hc h hissues =>
    have htracked := hheld e h rfl
    refine ⟨htracked.generation, fun id state hopen => ?_⟩
    simp only [SessionEntry.issueReceipt, Function.update_apply] at hopen
    split_ifs at hopen with hid
    · obtain rfl := Option.some.inj hopen
      refine ⟨calls, c, [], _, rfl, hc, hissues, rfl, htracked.generation, rfl, fun part hpart =>
        ?_⟩
      rw [List.prefix_nil.1 hpart]
      exact ⟨_, he', rfl⟩
    · exact htracked.receipts id state hopen
  | released h hk _ =>
    subst hk
    have htracked := hheld _ (.kept h.entry) rfl
    refine ⟨htracked.generation, fun id state hopen => ?_⟩
    simp only [SessionEntry.release, Function.update_apply] at hopen
    split_ifs at hopen
    exact htracked.receipts id state hopen
  | @counted receipt expandAfter e _ h hk _ _ =>
    subst hk
    rcases countCall_cases (e.release receipt.receiptID) expandAfter with hcount | hcount
    · rw [hcount] at he' hheld ⊢
      have htracked := hheld e (.kept h.entry) rfl
      refine ⟨htracked.generation, fun id state hopen => ?_⟩
      simp only [SessionEntry.release, Function.update_apply] at hopen
      split_ifs at hopen
      exact htracked.receipts id state hopen
    · rw [hcount.2]
      exact ⟨rfl, nofun⟩

/-- In every run from a store without entries, open receipts were issued from the plan that is in
force. -/
theorem tracked_run (hempty : s.entries = .empty) (calls : List (Call V)) :
    ∀ {k e}, (s.run calls).entries.lookup k = some e → s.Tracked calls k e := by
  induction calls using List.reverseRecOn with
  | nil =>
    intro k e he
    rw [run_nil, hempty] at he
    cases he
  | append_singleton calls c ih => exact fun he' => tracked_snoc (fun _ he => ih he) he'

/-! ## Counting -/

/-- What progressive disclosure remembers of an entry. -/
def progress (e : SessionEntry V) : ℕ × Bool × String × String :=
  (e.callCount, e.expanded, e.identityHash, e.progressiveHash)

theorem finalises_of_none {threshold : ℤ → Bool} (h : s.finalised c k = none) :
    s.finalises threshold c k = false := by
  rw [finalises, h]

/-- A new entry has no calls. -/
theorem callCount_of_created {e' : SessionEntry V} (hbefore : s.entries.lookup k = none)
    (he' : (s.next c).entries.lookup k = some e') : e'.callCount = 0 := by
  have hheld : ∀ e, s.Held c k e → e.callCount = 0 := by
    intro e h
    cases h with
    | kept he =>
      rw [hbefore] at he
      cases he
    | written h =>
      rw [written_of_none hbefore]
      rfl
  have heffect := s.effect c k
  rw [he'] at heffect
  generalize s.finalised c k = f at heffect
  cases heffect with
  | held h => exact hheld _ h
  | @issued e _ _ _ h _ => exact hheld e h
  | released h hk _ =>
    have hentry := h.entry
    rw [← hk, hbefore] at hentry
    cases hentry
  | counted h hk _ _ =>
    have hentry := h.entry
    rw [← hk, hbefore] at hentry
    cases hentry

/-- What a call does to the progress of an entry that was there before: it keeps it, resets it or
counts one call. -/
theorem progress_next {e e' : SessionEntry V} (he : s.entries.lookup k = some e)
    (he' : (s.next c).entries.lookup k = some e') :
    (s.finalises (0 < ·) c k = false ∧ progress e' = progress e) ∨
      (s.finalises (0 < ·) c k = false ∧ e'.callCount = 0 ∧
        (e.identityHash ≠ e'.identityHash ∨ e.progressiveHash ≠ e'.progressiveHash)) ∨
      (s.finalises (0 < ·) c k = true ∧ e'.callCount = e.callCount + 1 ∧
        e'.identityHash = e.identityHash ∧
        e'.progressiveHash = e.progressiveHash ∧ (e.expanded = true → e'.expanded = true)) := by
  have hheld : ∀ e₁, s.Held c k e₁ → progress e₁ = progress e ∨ e₁.callCount = 0 ∧
      (e.identityHash ≠ e₁.identityHash ∨ e.progressiveHash ≠ e₁.progressiveHash) := by
    intro e₁ h
    cases h with
    | kept he₁ =>
      rw [he] at he₁
      exact .inl (Option.some.inj he₁ ▸ rfl)
    | @written stored sc h =>
      rcases callCount_written he stored sc with ⟨hcount, hexpanded, hidentity, hprogressive⟩ |
        hreset
      · left
        simp only [progress, hcount, hexpanded, hidentity, hprogressive]
      · exact .inr hreset
  have heffect := s.effect c k
  rw [he'] at heffect
  generalize hf : s.finalised c k = f at heffect
  cases heffect with
  | held h =>
    rcases hheld _ h with hsame | hreset
    · exact .inl ⟨finalises_of_none hf, hsame⟩
    · exact .inr (.inl ⟨finalises_of_none hf, hreset⟩)
  | @issued e₁ _ _ _ h _ =>
    rcases hheld e₁ h with hsame | hreset
    · exact .inl ⟨finalises_of_none hf, hsame⟩
    · exact .inr (.inl ⟨finalises_of_none hf, hreset⟩)
  | @released receipt outcome expandAfter e₁ state h hk hnot =>
    have hentry := h.entry
    rw [← hk, he] at hentry
    obtain rfl := Option.some.inj hentry
    refine .inl ⟨?_, rfl⟩
    cases outcome with
    | aborted => simp only [finalises, hf]
    | succeeded =>
      have hle : ¬ 0 < expandAfter := fun hpos => hnot ⟨rfl, hpos⟩
      simp only [finalises, hf, decide_eq_false hle]
  | @counted receipt expandAfter e₁ state h hk hpos _ =>
    have hentry := h.entry
    rw [← hk, he] at hentry
    obtain rfl := Option.some.inj hentry
    have hfinalises : s.finalises (0 < ·) c k = true := by
      simp only [finalises, hf, decide_eq_true hpos]
    refine .inr (.inr ⟨hfinalises, ?_⟩)
    rcases countCall_cases (e.release receipt.receiptID) expandAfter with hcount | hcount
    · rw [hcount]
      exact ⟨rfl, rfl, rfl, id⟩
    · rw [hcount.2]
      exact ⟨rfl, rfl, rfl, fun _ => rfl⟩

theorem resets_of_some {e e' : SessionEntry V} (he : s.entries.lookup k = some e)
    (he' : (s.next c).entries.lookup k = some e') :
    s.resets c k = true ↔ e.identityHash ≠ e'.identityHash ∨
      e.progressiveHash ≠ e'.progressiveHash := by
  rw [resets, he, he', Bool.or_eq_true, bne_iff_ne, bne_iff_ne]

theorem resets_of_created {e' : SessionEntry V} (hbefore : s.entries.lookup k = none)
    (he' : (s.next c).entries.lookup k = some e') : s.resets c k = true := by
  rw [resets, hbefore, he']

/-- The call count of an entry after one call. -/
theorem callCount_next {e' : SessionEntry V} (he' : (s.next c).entries.lookup k = some e') :
    e'.callCount =
      if s.resets c k then 0 else if s.finalises (0 < ·) c k then
        s.callCount k + 1 else s.callCount k := by
  cases hbefore : s.entries.lookup k with
  | none =>
    rw [if_pos (resets_of_created hbefore he')]
    exact callCount_of_created hbefore he'
  | some e =>
    have hresets := resets_of_some hbefore he'
    rw [callCount_eq hbefore]
    rcases progress_next hbefore he' with ⟨hquiet, hsame⟩ | ⟨-, hzero, hreset⟩ |
      ⟨hcounts, hcount, hid, hprog, -⟩
    · simp only [progress, Prod.mk.injEq] at hsame
      obtain ⟨hcount, -, hid, hprog⟩ := hsame
      have hnot : ¬ s.resets c k = true := by simp [hresets, hid, hprog]
      rw [if_neg hnot, hquiet, hcount]
      rfl
    · rw [if_pos (hresets.2 hreset), hzero]
    · have hnot : ¬ s.resets c k = true := by simp [hresets, hid, hprog]
      rw [if_neg hnot, if_pos hcounts, hcount]

/-- The call count of an entry is the number of receipts that were finalised since its last
reset. -/
theorem callCount_eq_tally {n : ℕ} {e : SessionEntry V}
    (hn : ∀ e, s.entries.lookup k = some e → e.callCount = n)
    (he : (s.run calls).entries.lookup k = some e) : e.callCount = tally (0 < ·) k s n calls := by
  induction calls generalizing s n with
  | nil => exact hn e he
  | cons c calls ih =>
    refine ih (fun e' he' => ?_) he
    rw [callCount_next he']
    cases hbefore : s.entries.lookup k with
    | none => rw [if_pos (resets_of_created hbefore he'), if_pos (resets_of_created hbefore he')]
    | some e₀ => rw [callCount_eq hbefore, hn e₀ hbefore]

/-! ## Spending -/

theorem consumed_next {state : ℕ} (h : s.consumed state = true) :
    (s.next c).consumed state = true := by
  have hstep := s.step_spec c
  generalize s.next c = s' at hstep
  generalize s.reply c = r at hstep
  cases hstep with
  | release | count =>
    simp only [spend, Function.update_apply, h, ite_self]
  | deleteSession sessionID hid =>
    rw [deleteSession, if_neg hid]
    exact h
  | _ => exact h

/-- A receipt that is consumed stays so. -/
theorem consumed_run {state : ℕ} (h : s.consumed state = true) (calls : List (Call V)) :
    (s.run calls).consumed state = true := by
  induction calls generalizing s with
  | nil => exact h
  | cons c calls ih => exact ih (consumed_next h)

theorem consumed_of_finalised {receipt : AuthorizationReceipt} {outcome : ReceiptOutcome}
    {expandAfter : ℤ}
    {e : SessionEntry V} {state : ℕ} {f : ReceiptOutcome × ℤ}
    (h : s.Spends c receipt outcome expandAfter e state)
    (hf : s.finalised c k = some f) : (s.next c).consumed state = true := by
  simp only [finalised, h.call, h.state_eq] at hf
  split_ifs at hf with hconsumed
  have hboth := hconsumed.2
  simp only [Option.any_some, Bool.and_eq_true] at hboth
  exact hboth.2

/-- Only a receipt that is open raises a call count, and it is consumed then. -/
theorem exists_spends_of_increases (h : s.Increases c k) :
    ∃ receipt expandAfter e state, s.Spends c receipt .succeeded expandAfter e state ∧
      k = newPlanKey receipt.routerInstanceID receipt.sessionID ∧
      (s.next c).consumed state = true := by
  rw [Increases] at h
  -- an entry that is only written or kept has at most the calls it had
  have hheld : ∀ e, s.Held c k e → e.callCount ≤ s.callCount k := by
    intro e hheld
    cases hheld with
    | kept he => rw [callCount_eq he]
    | @written stored sc _ =>
      cases hbefore : s.entries.lookup k with
      | none =>
        rw [written_of_none hbefore]
        exact Nat.zero_le _
      | some e =>
        rw [callCount_eq hbefore]
        rcases callCount_written hbefore stored sc with ⟨hcount, -⟩ | ⟨hcount, -⟩ <;> omega
  have heffect := s.effect c k
  generalize hf : s.finalised c k = f at heffect
  generalize he' : (s.next c).entries.lookup k = o at heffect
  cases heffect with
  | gone =>
    rw [callCount.eq_1 (s.next c), he'] at h
    exact absurd h (Nat.not_lt_zero _)
  | @held e hsame =>
    rw [callCount_eq he'] at h
    exact absurd h (not_lt.2 (hheld e hsame))
  | @issued e _ _ _ hsame _ =>
    rw [callCount_eq he'] at h
    exact absurd h (not_lt.2 (hheld e hsame))
  | @released receipt outcome expandAfter e state hspends hk _ =>
    rw [callCount_eq he'] at h
    exact absurd h (not_lt.2 (hheld e (.kept (hk ▸ hspends.entry))))
  | @counted receipt expandAfter e state hspends hk _ _ =>
    exact ⟨receipt, expandAfter, e, state, hspends, hk, consumed_of_finalised hspends hf⟩

/-! ## Expanding -/

/-- A call that reports a transition expands an entry that was not expanded. -/
theorem expanded_of_transitions (h : s.Transitions c k) :
    (∃ e, s.entries.lookup k = some e ∧ e.expanded = false) ∧
      ∃ e', (s.next c).entries.lookup k = some e' ∧ e'.expanded = true := by
  obtain ⟨receipt, outcome, expandAfter, result, hspends, rfl, hreply, htransitioned⟩ := h
  have hstep := s.step_spec c
  generalize s.next c = s' at hstep
  rw [hreply] at hstep
  cases hstep with
  | idle _ _ hr =>
    rcases hr with hr | hr | hr | hr <;> cases hr
    cases htransitioned
  | write _ _ hr => rcases hr with hr | hr <;> cases hr
  | release => cases htransitioned
  | @count _ receipt' expandAfter' e state hspent hpos =>
    have hcall := hspent.call
    rw [hspends] at hcall
    cases hcall
    rcases countCall_cases (e.release receipt.receiptID) expandAfter with hcount | hcount
    · rw [hcount] at htransitioned
      cases htransitioned
    · refine ⟨⟨e, hspent.entry, hcount.1⟩, _, FinMap.lookup_insert_self, ?_⟩
      rw [hcount.2]

theorem expanded_next (h : ∀ e, s.entries.lookup k = some e → e.expanded = true)
    (hnot : ¬ s.resets c k = true)
    {e' : SessionEntry V} (he' : (s.next c).entries.lookup k = some e') : e'.expanded = true := by
  cases hbefore : s.entries.lookup k with
  | none => exact absurd (resets_of_created hbefore he') hnot
  | some e =>
    rcases progress_next hbefore he' with ⟨-, hsame⟩ | ⟨-, -, hreset⟩ | ⟨-, -, -, -, hexpanded⟩
    · simp only [progress, Prod.mk.injEq] at hsame
      exact hsame.2.1.trans (h e hbefore)
    · exact absurd ((resets_of_some hbefore he').2 hreset) hnot
    · exact hexpanded (h e hbefore)

/-- An expanded entry stays expanded as long as it is not reset. -/
theorem expanded_run (h : ∀ e, s.entries.lookup k = some e → e.expanded = true)
    (hnot : ¬ s.ResetWithin calls k) {e' : SessionEntry V}
    (he' : (s.run calls).entries.lookup k = some e') :
    e'.expanded = true := by
  induction calls generalizing s with
  | nil => exact h e' he'
  | cons c calls ih =>
    have hstep : ¬ s.resets c k = true := fun hreset => hnot ⟨[], c, calls, rfl, hreset⟩
    refine ih (fun e he => expanded_next h hstep he) (fun hlater => hnot ?_) he'
    obtain ⟨before, c', after, rfl, hreset⟩ := hlater
    exact ⟨c :: before, c', after, rfl, hreset⟩

/-! ## The whole run -/

/-- In every run: a call that raises a call count spends a receipt that was issued in this run, from
the generation of the plan that is still in force, and no later call raises a count with that
receipt; the call count of an entry is the number of receipts finalised as succeeded with a positive
threshold since its last reset; and an entry that a call expands stays expanded, with no further
transition, until it is reset. -/
theorem receipts_spent_once (maxEntries : ℤ) (calls : List (Call V)) (c : Call V) (k : PlanKey) :
    (((newSessionPlanStoreWithMaxEntries maxEntries).run calls).Increases c k →
      ∃ receipt outcome expandAfter state, c.spends = some (receipt, outcome, expandAfter) ∧
        receipt.state = some state ∧
        (newSessionPlanStoreWithMaxEntries maxEntries).IssuedFrom calls k receipt.planGeneration
          state ∧
        ∀ later c' k' receipt' outcome' expandAfter', c'.spends =
          some (receipt', outcome', expandAfter') →
          receipt'.state = some state →
          ¬ ((newSessionPlanStoreWithMaxEntries maxEntries).run (calls ++ c :: later)).Increases c'
            k') ∧
    (∀ e, ((newSessionPlanStoreWithMaxEntries maxEntries).run calls).entries.lookup k = some e →
      e.callCount = tally (0 < ·) k (newSessionPlanStoreWithMaxEntries maxEntries) 0 calls) ∧
    (((newSessionPlanStoreWithMaxEntries maxEntries).run calls).Transitions c k →
      ∀ later,
        (∀ e,
          ((newSessionPlanStoreWithMaxEntries maxEntries).run (calls ++ c :: later)).entries.lookup
            k = some e →
          ¬ (((newSessionPlanStoreWithMaxEntries maxEntries).run calls).next c).ResetWithin later
            k →
          e.expanded = true) ∧
        ∀ c', ((newSessionPlanStoreWithMaxEntries maxEntries).run (calls ++ c :: later)).Transitions
          c' k →
          (((newSessionPlanStoreWithMaxEntries maxEntries).run calls).next c).ResetWithin later
            k) := by
  generalize hstart : (newSessionPlanStoreWithMaxEntries maxEntries : SessionPlanStore V) = s
  have hempty : s.entries = .empty := by rw [← hstart]; rfl
  have hrun : ∀ later, s.run (calls ++ c :: later) = ((s.run calls).next c).run later :=
    fun later => run_append _ _
  refine ⟨fun hincreases => ?_, fun e he => ?_, fun htransitions later => ?_⟩
  · obtain ⟨receipt, expandAfter, e, state, hspends, rfl, hconsumed⟩ :=
      exists_spends_of_increases hincreases
    have hgeneration : e.generation = receipt.planGeneration := by
      have hcurrent := hspends.current
      simp only [SessionEntry.current, Bool.and_eq_true, beq_iff_eq] at hcurrent
      exact hcurrent.1.1.1.1.1
    have hissued := (tracked_run hempty calls hspends.entry).receipts _ _ hspends.held
    rw [hgeneration] at hissued
    refine ⟨receipt, .succeeded, expandAfter, state, hspends.call, hspends.state_eq, hissued, ?_⟩
    intro later c' k' receipt' outcome' expandAfter' hc' hstate' hagain
    rw [hrun later] at hagain
    obtain ⟨receipt₂, _, e₂, state₂, hspends₂, -, -⟩ := exists_spends_of_increases hagain
    obtain ⟨rfl, -⟩ : receipt' = receipt₂ ∧ _ := by
      have hcall := hspends₂.call
      rw [hc'] at hcall
      exact Prod.mk.inj (Option.some.inj hcall)
    obtain rfl : state = state₂ := Option.some.inj (hstate'.symm.trans hspends₂.state_eq)
    have hspent := consumed_run hconsumed later
    rw [hspends₂.unconsumed] at hspent
    cases hspent
  · refine callCount_eq_tally (fun e he => ?_) he
    rw [hempty] at he
    cases he
  · obtain ⟨-, e₁, he₁, hexpanded⟩ := expanded_of_transitions htransitions
    have hall : ∀ e, ((s.run calls).next c).entries.lookup k = some e → e.expanded = true := by
      intro e he
      rw [he₁] at he
      exact Option.some.inj he ▸ hexpanded
    rw [hrun later]
    refine ⟨fun e he hnot => expanded_run hall hnot he, fun c' hagain => by_contra fun hnot => ?_⟩
    obtain ⟨⟨e, he, hfresh⟩, -⟩ := expanded_of_transitions hagain
    rw [expanded_run hall hnot he] at hfresh
    cases hfresh

/-- One receipt, spent with a threshold of one call, is counted and expands the entry. -/
theorem receipts_spent_once_expanding :
    let calls : List (Call Unit) := [.commit Sample.key (some (Sample.plan "v")) (Sample.context 0),
      .issueReceipt Sample.key "t" (some (Sample.plan "v")) "router-1"]
    let c : Call Unit := .finalizeReceipt Sample.receipt .succeeded 1
    ((newSessionPlanStoreWithMaxEntries 0).run calls).Increases c Sample.key ∧
      ((newSessionPlanStoreWithMaxEntries 0).run calls).Transitions c Sample.key ∧
      (newSessionPlanStoreWithMaxEntries 0).IssuedFrom calls Sample.key 1 0 := by
  have hincreases : ((newSessionPlanStoreWithMaxEntries 0).run
      [.commit Sample.key (some (Sample.plan "v")) (Sample.context 0),
        .issueReceipt Sample.key "t" (some (Sample.plan "v")) "router-1"]).Increases
      (.finalizeReceipt Sample.receipt .succeeded 1) Sample.key := by
    unfold Increases
    decide +kernel
  refine ⟨hincreases, ⟨Sample.receipt, .succeeded, 1, { count := 1, transitioned := true }, rfl,
    rfl, rfl, rfl⟩, ?_⟩
  obtain ⟨receipt, outcome, expandAfter, state, hspends, hstate, hissued, -⟩ :=
    (receipts_spent_once 0 _ _ Sample.key).1 hincreases
  cases hspends
  cases hstate
  exact hissued

/-- A receipt that is finalised as succeeded without a threshold is not counted. -/
theorem callCount_ne_tally_noThreshold :
    let calls : List (Call Unit) := [.commit Sample.key (some (Sample.plan "v")) (Sample.context 0),
      .issueReceipt Sample.key "t" (some (Sample.plan "v")) "router-1",
      .finalizeReceipt Sample.receipt .succeeded 0]
    (((newSessionPlanStoreWithMaxEntries 0).run calls).entries.lookup Sample.key).map
      (·.callCount) = some 0 ∧
      tally (fun _ => true) Sample.key (newSessionPlanStoreWithMaxEntries 0) 0 calls = 1 := by
  decide +kernel

end SessionPlanStore

end Pixiu.Mcp
