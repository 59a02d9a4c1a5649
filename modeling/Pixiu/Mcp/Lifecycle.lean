import Pixiu.Mcp.Calls

/-!
# Sessions that are deleted

Once a session is deleted its generation should be dead: no call that carries it succeeds and no
entry carries it.  This holds in every run in which `ActivateSession` uses fresh generations
(`Dead`, `dead_run`).  So does that a call which fails leaves the entries as they were.

That the entries with a positive generation belong to an active session of the same generation does
not hold in general: `ActivateSession` with a new generation leaves the entries of the old one where
they are (`not_owned_reactivated`).  And `SetMaxEntries` can put the capacity below the number of
entries.  In runs without these two (`Careful`) both hold.
-/

namespace Pixiu.Mcp

variable {V : Type}

/-- Every `ActivateSession` of a run uses a generation that was not used before. -/
def FreshActivations (calls : List (Call V)) : Prop :=
  ∀ before sessionID generation after, calls = before ++
    .activateSession sessionID generation :: after →
    ∀ sessionID', .activateSession sessionID' generation ∉ before

theorem FreshActivations.of_append {calls calls' : List (Call V)}
    (h : FreshActivations (calls ++ calls')) :
    FreshActivations calls := by
  intro before sessionID generation after heq
  exact h before sessionID generation (after ++ calls') (by simp [heq])

/-- In a run with fresh generations a generation belongs to one session. -/
theorem FreshActivations.sessionID_unique {calls : List (Call V)} (h : FreshActivations calls)
    {generation : ℕ}
    {sessionID sessionID' : String}
    (hmem : .activateSession sessionID generation ∈ calls)
    (hmem' : .activateSession sessionID' generation ∈ calls) :
    sessionID = sessionID' := by
  obtain ⟨before, after, rfl⟩ := List.append_of_mem hmem
  rcases List.mem_append.1 hmem' with hbefore | hafter
  · exact absurd hbefore (h before sessionID generation after rfl sessionID')
  · rcases List.mem_cons.1 hafter with heq | hlater
    · injection heq with hid
      exact hid.symm
    · obtain ⟨mid, last, rfl⟩ := List.append_of_mem hlater
      refine absurd ?_
        (h (before ++ .activateSession sessionID generation :: mid) sessionID' generation last
        (by simp) sessionID)
      exact List.mem_append_right _ List.mem_cons_self

namespace SessionPlanStore

/-- The call succeeds in what it is for: to store a plan or to issue a receipt. -/
def Succeeds (s : SessionPlanStore V) (c : Call V) : Prop :=
  (∃ plan, s.reply c = .plan plan) ∨ ∃ r, s.Issues c r

/-- The session generation that a call carries: the one of its context, or the one of the plan that
it asks a receipt of. -/
def Carries (s : SessionPlanStore V) (generation : ℕ) : Call V → Prop
  | .commit _ _ sc => sc.sessionGeneration = generation
  | .setIfCurrent base _ => base.context.sessionGeneration = generation
  | .commitAndIssueReceipt _ _ sc _ _ => sc.sessionGeneration = generation
  | .issueReceipt key _ _ _ =>
    ∃ e, s.entries.lookup key = some e ∧ e.context.sessionGeneration = generation
  | .issueReceiptForVersion req =>
    ∃ e, s.entries.lookup req.key = some e ∧ e.context.sessionGeneration = generation
  | _ => False

/-- No session is active under a generation and no entry carries it. -/
structure Dead (s : SessionPlanStore V) (generation : ℕ) : Prop where
  inactive : ∀ sessionID, s.activeSessions sessionID ≠ some generation
  entries : ∀ k e, s.entries.lookup k = some e → e.context.sessionGeneration ≠ generation

/-- Every entry with a positive session generation belongs to an active session of the same
generation. -/
def Owned (s : SessionPlanStore V) : Prop :=
  ∀ k e, s.entries.lookup k = some e → 0 < e.context.sessionGeneration →
    e.context.sessionID = k.sessionID ∧
      s.activeSessions k.sessionID = some e.context.sessionGeneration

/-- A call that does not activate a session over entries of another generation, nor put the capacity
below the number of entries. -/
def Careful (s : SessionPlanStore V) : Call V → Prop
  | .activateSession sessionID generation =>
    ∀ k e, s.entries.lookup k = some e → k.sessionID = sessionID →
      e.context.sessionGeneration = 0 ∨ e.context.sessionGeneration = generation
  | .setMaxEntries maxEntries => s.entries.size ≤ capacity maxEntries
  | _ => True

/-- Every call of a run is careful where it is made. -/
def CarefulRun (s : SessionPlanStore V) (calls : List (Call V)) : Prop :=
  ∀ before c after, calls = before ++ c :: after → (s.run before).Careful c

variable {s : SessionPlanStore V} {c : Call V} {k : PlanKey} {calls : List (Call V)}
  {generation : ℕ}
  {sessionID : String}

/-! ## Active sessions -/

/-- What a call can do to the active sessions. -/
theorem activeSessions_next (s : SessionPlanStore V) (c : Call V) (sessionID : String) :
    (s.next c).activeSessions sessionID = s.activeSessions sessionID ∨
      (∃ generation, c = .activateSession sessionID generation ∧ sessionID ≠ "" ∧
        (s.next c).activeSessions sessionID = some generation) ∨
      ((c = .deleteSession sessionID ∧ sessionID ≠ "" ∨ c = .stop) ∧
        (s.next c).activeSessions sessionID = none) := by
  have hstep := s.step_spec c
  generalize hnext : s.next c = s' at hstep
  generalize s.reply c = r at hstep
  cases hstep with
  | activate sessionID' generation hid _ =>
    rcases eq_or_ne sessionID sessionID' with rfl | hne
    · exact .inr (.inl ⟨generation, rfl, hid, Function.update_self ..⟩)
    · exact .inl (Function.update_of_ne hne ..)
  | deleteSession sessionID' hid =>
    rw [deleteSession, if_neg hid]
    rcases eq_or_ne sessionID sessionID' with rfl | hne
    · exact .inr (.inr ⟨.inl ⟨rfl, hid⟩, Function.update_self ..⟩)
    · exact .inl (Function.update_of_ne hne ..)
  | stop => exact .inr (.inr ⟨.inr rfl, rfl⟩)
  | _ => exact .inl rfl

theorem activeSessions_deleteSession (hid : sessionID ≠ "") :
    (s.next (.deleteSession sessionID)).activeSessions sessionID = none := by
  have hnext : s.next (.deleteSession sessionID) = s.deleteSession sessionID := rfl
  rw [hnext, deleteSession, if_neg hid]
  exact Function.update_self ..

theorem lookup_deleteSession (hid : sessionID ≠ "") (hk : k.sessionID = sessionID) :
    (s.next (.deleteSession sessionID)).entries.lookup k = none := by
  have hnext : s.next (.deleteSession sessionID) = s.deleteSession sessionID := rfl
  rw [hnext, deleteSession, if_neg hid, FinMap.lookup_filter, hk, bne_self_eq_false]
  rfl

/-- A write under a positive generation finds it active. -/
theorem Admits.activeSessions_eq {sc : SelectionContext V} (h : s.Admits k sc)
    (hpos : 0 < sc.sessionGeneration) :
    s.activeSessions sc.sessionID = some sc.sessionGeneration := by
  have hactive := h.active
  rw [sessionActiveLocked, Bool.or_eq_true, beq_iff_eq, beq_iff_eq] at hactive
  exact hactive.resolve_left hpos.ne'

/-! ## Dead generations -/

theorem dead_next (h : s.Dead generation) (hpos : 0 < generation)
    (hfresh : ∀ sessionID, c ≠ .activateSession sessionID generation) :
    (s.next c).Dead generation := by
  refine ⟨fun sessionID hactive => ?_, fun k e' he' hsame => ?_⟩
  · rcases s.activeSessions_next c sessionID with hkeep | ⟨g, hc, -, hset⟩ | ⟨-, hnone⟩
    · exact h.inactive sessionID (hkeep ▸ hactive)
    · rw [hset] at hactive
      exact hfresh sessionID (Option.some.inj hactive ▸ hc)
    · rw [hnone] at hactive
      cases hactive
  · rcases context_next he' with ⟨e, he, hcontext⟩ | ⟨stored, hwrites⟩
    · exact h.entries k e he (hcontext ▸ hsame)
    · have hactive := hwrites.admits.activeSessions_eq (hsame ▸ hpos)
      rw [hsame] at hactive
      exact h.inactive _ hactive

/-- Every generation that is active or carried by an entry was activated for its session. -/
structure Activated (s : SessionPlanStore V) (calls : List (Call V)) : Prop where
  nameless : s.activeSessions "" = none
  active : ∀ sessionID generation, s.activeSessions sessionID = some generation →
    .activateSession sessionID generation ∈ calls
  entries : ∀ k e, s.entries.lookup k = some e → 0 < e.context.sessionGeneration →
    .activateSession k.sessionID e.context.sessionGeneration ∈ calls ∧
      e.context.sessionID = k.sessionID

/-- The session of a write under a positive generation is the one of its key. -/
theorem Admits.sessionID_eq {sc : SelectionContext V} (h : s.Admits k sc)
    (hpos : 0 < sc.sessionGeneration)
    (hnameless : s.activeSessions "" = none) : sc.sessionID = k.sessionID := by
  refine h.session.resolve_left fun hempty => ?_
  have hactive := h.activeSessions_eq hpos
  rw [hempty, hnameless] at hactive
  cases hactive

theorem activated_next (h : s.Activated calls) : (s.next c).Activated (calls ++ [c]) := by
  refine ⟨?_, fun sessionID generation hactive => ?_, fun k e' he' hpos => ?_⟩
  · rcases s.activeSessions_next c "" with hkeep | ⟨_, _, hid, _⟩ | ⟨_, hnone⟩
    · exact hkeep.trans h.nameless
    · exact absurd rfl hid
    · exact hnone
  · rcases s.activeSessions_next c sessionID with hkeep | ⟨g, rfl, -, hset⟩ | ⟨-, hnone⟩
    · exact List.mem_append_left _ (h.active sessionID generation (hkeep ▸ hactive))
    · rw [hset] at hactive
      obtain rfl := Option.some.inj hactive
      exact List.mem_append_right _ (List.mem_singleton_self _)
    · rw [hnone] at hactive
      cases hactive
  · rcases context_next he' with ⟨e, he, hcontext⟩ | ⟨stored, hwrites⟩
    · rw [hcontext] at hpos ⊢
      exact ⟨List.mem_append_left _ (h.entries k e he hpos).1, (h.entries k e he hpos).2⟩
    · have hsession := hwrites.admits.sessionID_eq hpos h.nameless
      have hactive := hwrites.admits.activeSessions_eq hpos
      rw [hsession] at hactive
      exact ⟨List.mem_append_left _ (h.active _ _ hactive), hsession⟩

theorem activated_run (maxEntries : ℤ) (calls : List (Call V)) :
    ((newSessionPlanStoreWithMaxEntries maxEntries).run calls).Activated calls := by
  induction calls using List.reverseRecOn with
  | nil => exact ⟨rfl, nofun, fun _ _ he => absurd he.symm (Option.some_ne_none _)⟩
  | append_singleton calls c ih =>
    rw [run_snoc]
    exact activated_next ih

/-- From its deletion on, the generation of a session is dead. -/
theorem dead_run (maxEntries : ℤ) {before after : List (Call V)} (hid : sessionID ≠ "")
    (hpos : 0 < generation)
    (hfresh : FreshActivations (before ++ .deleteSession sessionID :: after))
    (hmem : .activateSession sessionID generation ∈ before) :
    ((newSessionPlanStoreWithMaxEntries maxEntries).run
      (before ++ .deleteSession sessionID :: after)).Dead
      generation := by
  induction after using List.reverseRecOn with
  | nil =>
    have hactivated := activated_run maxEntries before
    rw [run_snoc]
    generalize (newSessionPlanStoreWithMaxEntries maxEntries).run before = s at hactivated
    refine ⟨fun sessionID' hactive => ?_, fun k e' he' hsame => ?_⟩
    · rcases s.activeSessions_next (.deleteSession sessionID) sessionID' with hkeep | ⟨_, hc, _⟩ |
        ⟨-, hnone⟩
      · have hbefore := hactivated.active sessionID' generation (hkeep ▸ hactive)
        obtain rfl := hfresh.of_append.sessionID_unique hmem hbefore
        rw [activeSessions_deleteSession hid] at hactive
        cases hactive
      · cases hc
      · rw [hnone] at hactive
        cases hactive
    · rcases context_next he' with ⟨e, he, hcontext⟩ | ⟨stored, hwrites⟩
      · have hbefore := hactivated.entries k e he (by rw [← hcontext, hsame]; exact hpos)
        rw [← hcontext, hsame] at hbefore
        have hk := hfresh.of_append.sessionID_unique hmem hbefore.1
        rw [lookup_deleteSession hid hk.symm] at he'
        cases he'
      · cases hwrites
  | append_singleton after c ih =>
    have hsplit : before ++ .deleteSession sessionID :: (after ++ [c]) =
        (before ++ .deleteSession sessionID :: after) ++ [c] := by simp
    rw [hsplit] at hfresh ⊢
    rw [run_snoc]
    refine dead_next (ih hfresh.of_append) hpos fun sessionID' hc => ?_
    subst hc
    exact hfresh _ sessionID' generation [] rfl sessionID (List.mem_append_left _ hmem)

/-- A call that succeeds writes a plan, unless it asks for a receipt of a stored one. -/
theorem exists_writes_of_succeeds (h : s.Succeeds c) (hasks : c.asks = none) :
    ∃ k stored sc, s.Writes c k stored sc := by
  have hreply : ∃ r, s.reply c = r ∧ ((∃ plan, r = .plan plan) ∨ (∃ receipt, r = .receipt receipt) ∨
      ∃ plan receipt, r = .committed plan receipt) := by
    rcases h with ⟨plan, h⟩ | ⟨r, h | ⟨plan, h⟩⟩
    · exact ⟨_, h, .inl ⟨plan, rfl⟩⟩
    · exact ⟨_, h, .inr (.inl ⟨r, rfl⟩)⟩
    · exact ⟨_, h, .inr (.inr ⟨plan, r, rfl⟩)⟩
  obtain ⟨r, hr, hsuccess⟩ := hreply
  have hstep := s.step_spec c
  rw [hr] at hstep
  generalize s.next c = s' at hstep
  cases hstep with
  | write _ hwrites _ => exact ⟨_, _, _, hwrites⟩
  | writeIssue _ _ _ hwrites _ => exact ⟨_, _, _, hwrites⟩
  | issue _ _ _ hc _ _ =>
    rw [hasks] at hc
    cases hc
  | idle _ _ hidle =>
    rcases hidle with rfl | rfl | rfl | rfl <;> rcases hsuccess with ⟨_, h⟩ | ⟨_, h⟩ | ⟨_, _, h⟩ <;>
      cases h
  | _ => rcases hsuccess with ⟨_, h⟩ | ⟨_, h⟩ | ⟨_, _, h⟩ <;> cases h

/-- A call that carries a dead generation does not succeed. -/
theorem not_succeeds_of_dead (h : s.Dead generation) (hpos : 0 < generation)
    (hc : s.Carries generation c) :
    ¬ s.Succeeds c := by
  -- a plan is stored only under an active generation
  have hwrites : ∀ k stored sc, s.Writes c k stored sc → sc.sessionGeneration ≠ generation := by
    intro k stored sc hwrites hsame
    have hactive := hwrites.admits.activeSessions_eq (hsame ▸ hpos)
    rw [hsame] at hactive
    exact h.inactive _ hactive
  intro hsucceeds
  cases c with
  | commit key plan sc =>
    obtain ⟨k, stored, sc', hw⟩ := exists_writes_of_succeeds hsucceeds rfl
    have hne := hwrites k stored sc' hw
    cases hw
    exact hne hc
  | setIfCurrent base plan =>
    obtain ⟨k, stored, sc', hw⟩ := exists_writes_of_succeeds hsucceeds rfl
    have hne := hwrites k stored sc' hw
    cases hw
    exact hne hc
  | commitAndIssueReceipt key plan sc requested routerID =>
    obtain ⟨k, stored, sc', hw⟩ := exists_writes_of_succeeds hsucceeds rfl
    have hne := hwrites k stored sc' hw
    cases hw
    exact hne hc
  | issueReceipt key requested plan routerID =>
    obtain ⟨e, he, hsame⟩ := hc
    exact h.entries key e he hsame
  | issueReceiptForVersion req =>
    obtain ⟨e, he, hsame⟩ := hc
    exact h.entries req.key e he hsame
  | _ => exact hc

/-! ## Active sessions and their entries -/

theorem owned_next (h : s.Owned) (hnameless : s.activeSessions "" = none) (hc : s.Careful c) :
    (s.next c).Owned := by
  intro k e' he' hpos
  rcases context_next he' with ⟨e, he, hcontext⟩ | ⟨stored, hwrites⟩
  · rw [hcontext] at hpos ⊢
    obtain ⟨hsession, hactive⟩ := h k e he hpos
    refine ⟨hsession, ?_⟩
    rcases s.activeSessions_next c k.sessionID with hkeep | ⟨g, rfl, -, hset⟩ | ⟨hc | rfl, -⟩
    · exact hkeep.trans hactive
    · rcases hc k e he rfl with hzero | hsame
      · exact absurd hzero hpos.ne'
      · rw [hset, hsame]
    · obtain ⟨rfl, hid⟩ := hc
      rw [lookup_deleteSession hid rfl] at he'
      cases he'
    · cases he'
  · have hsession := hwrites.admits.sessionID_eq hpos hnameless
    have hactive := hwrites.admits.activeSessions_eq hpos
    rw [hsession] at hactive
    refine ⟨hsession, ?_⟩
    rcases s.activeSessions_next c k.sessionID with hkeep | ⟨g, rfl, -⟩ | ⟨⟨rfl, -⟩ | rfl, -⟩
    · exact hkeep.trans hactive
    all_goals cases hwrites

theorem size_next (h : s.entries.size ≤ s.max) (hc : s.Careful c) :
    (s.next c).entries.size ≤ (s.next c).max := by
  -- a write needs room for a new entry
  have hput : ∀ k stored sc, s.Writes c k stored sc →
      (s.put k (s.written k stored sc)).entries.size ≤ s.max := by
    intro k stored sc hwrites
    cases hbefore : s.entries.lookup k with
    | none =>
      have hsize := FinMap.size_insert_of_none (v := s.written k stored sc) hbefore
      exact hsize.trans_le (hwrites.admits.room hbefore)
    | some e => exact (FinMap.size_insert_of_some hbefore).trans_le h
  have hstep := s.step_spec c
  generalize s.next c = s' at hstep
  generalize s.reply c = r at hstep
  cases hstep with
  | fail | idle | activate => exact h
  | write _ hwrites _ => exact hput _ _ _ hwrites
  | issue _ _ _ _ he _ => exact (FinMap.size_insert_of_some he).trans_le h
  | writeIssue _ _ _ hwrites _ =>
    exact (FinMap.size_insert_of_some FinMap.lookup_insert_self).trans_le (hput _ _ _ hwrites)
  | release hspends _ => exact (FinMap.size_insert_of_some hspends.entry).trans_le h
  | count hspends _ => exact (FinMap.size_insert_of_some hspends.entry).trans_le h
  | delete key _ => exact FinMap.size_erase_le.trans h
  | deleteSession sessionID hid =>
    rw [deleteSession, if_neg hid]
    exact (FinMap.size_filter_le _).trans h
  | setMaxEntries maxEntries => exact hc
  | stop => exact Nat.zero_le _

theorem CarefulRun.of_snoc (h : s.CarefulRun (calls ++ [c])) : s.CarefulRun calls := by
  intro before c' after heq
  exact h before c' (after ++ [c]) (by simp [heq])

theorem owned_run (maxEntries : ℤ)
    (hcareful : (newSessionPlanStoreWithMaxEntries maxEntries).CarefulRun calls) :
    ((newSessionPlanStoreWithMaxEntries maxEntries).run calls).Owned ∧
      ((newSessionPlanStoreWithMaxEntries maxEntries).run calls).entries.size ≤
        ((newSessionPlanStoreWithMaxEntries maxEntries).run calls).max := by
  induction calls using List.reverseRecOn with
  | nil => exact ⟨fun _ _ he => absurd he.symm (Option.some_ne_none _), Nat.zero_le _⟩
  | append_singleton calls c ih =>
    have hc := hcareful calls c [] rfl
    rw [run_snoc]
    exact ⟨owned_next (ih hcareful.of_snoc).1 (activated_run maxEntries calls).nameless hc,
      size_next (ih hcareful.of_snoc).2 hc⟩

/-- A call that fails because the store is full, the session is not active or the base is stale
changes nothing. -/
theorem next_of_failed
    (h : s.reply c = .failed .planStoreFull ∨ s.reply c = .failed .sessionPlanNotActive ∨
    s.reply c = .failed .sessionPlanStale ∨ s.reply c = .notCommitted) : s.next c = s := by
  have hstep := s.step_spec c
  generalize s.next c = s' at hstep
  generalize s.reply c = r at hstep h
  cases hstep with
  | fail | idle => rfl
  | write _ _ hr =>
    rcases hr with rfl | rfl <;> rcases h with h | h | h | h <;> cases h
  | _ => rcases h with h | h | h | h <;> cases h

/-! ## The whole run -/

/-- In every run with fresh generations: after a session is deleted no call that carries one of its
generations succeeds and no entry carries it, and a call that fails changes no entry.  In such runs
with careful calls, the entries with a positive generation belong to active sessions of the same
generation, and there are never more entries than the capacity. -/
theorem sessions_stay_dead (maxEntries : ℤ) (calls : List (Call V))
    (hfresh : FreshActivations calls) :
    (∀ before sessionID after generation, calls = before ++ .deleteSession sessionID :: after →
      sessionID ≠ "" →
      0 < generation → .activateSession sessionID generation ∈ before →
      (∀ k e, ((newSessionPlanStoreWithMaxEntries maxEntries).run calls).entries.lookup k = some e →
        e.context.sessionGeneration ≠ generation) ∧
      ∀ c, ((newSessionPlanStoreWithMaxEntries maxEntries).run calls).Carries generation c →
        ¬ ((newSessionPlanStoreWithMaxEntries maxEntries).run calls).Succeeds c) ∧
    (∀ c, ((newSessionPlanStoreWithMaxEntries maxEntries).run calls).reply c =
      .failed .planStoreFull ∨
        ((newSessionPlanStoreWithMaxEntries maxEntries).run calls).reply c =
          .failed .sessionPlanNotActive ∨
        ((newSessionPlanStoreWithMaxEntries maxEntries).run calls).reply c =
          .failed .sessionPlanStale ∨
        ((newSessionPlanStoreWithMaxEntries maxEntries).run calls).reply c = .notCommitted →
      (((newSessionPlanStoreWithMaxEntries maxEntries).run calls).next c).entries =
        ((newSessionPlanStoreWithMaxEntries maxEntries).run calls).entries) ∧
    ((newSessionPlanStoreWithMaxEntries maxEntries).CarefulRun calls →
      ((newSessionPlanStoreWithMaxEntries maxEntries).run calls).Owned ∧
      ((newSessionPlanStoreWithMaxEntries maxEntries).run calls).entries.size ≤
        ((newSessionPlanStoreWithMaxEntries maxEntries).run calls).max) := by
  refine ⟨?_, fun c hfailed => congrArg entries (next_of_failed hfailed), owned_run maxEntries⟩
  rintro before sessionID after generation rfl hid hpos hmem
  have hdead := dead_run maxEntries hid hpos hfresh hmem
  exact ⟨hdead.entries, fun c hc => not_succeeds_of_dead hdead hpos hc⟩

/-- A session that is activated, used and deleted. -/
theorem sessions_stay_dead_deleted :
    let calls : List (Call Unit) := [.activateSession "s" 1,
      .commit Sample.key (some (Sample.plan "v")) (Sample.context 1), .deleteSession "s"]
    ¬ ((newSessionPlanStoreWithMaxEntries 0).run calls).Succeeds
      (.commit Sample.key (some (Sample.plan "v")) (Sample.context 1)) := by
  have hfresh : FreshActivations ([.activateSession "s" 1,
      .commit Sample.key (some (Sample.plan "v")) (Sample.context 1), .deleteSession "s"] :
      List (Call Unit)) := by
    rintro (_ | ⟨c₁, _ | ⟨c₂, _ | ⟨c₃, before⟩⟩⟩) sessionID generation after heq sessionID' hmem
    · cases hmem
    · cases heq
    · cases heq
    · have hlength := congrArg List.length heq
      simp at hlength
  exact ((sessions_stay_dead 0 _ hfresh).1 [.activateSession "s" 1,
    .commit Sample.key (some (Sample.plan "v")) (Sample.context 1)] "s" [] 1 rfl
    (by decide) Nat.one_pos
    List.mem_cons_self).2 _ rfl

/-- Activating a session again, with a fresh generation, leaves the entry of its old generation. -/
theorem not_owned_reactivated :
    let calls : List (Call Unit) := [.activateSession "s" 1,
      .commit Sample.key (some (Sample.plan "v")) (Sample.context 1), .activateSession "s" 2]
    FreshActivations calls ∧ ¬ ((newSessionPlanStoreWithMaxEntries 0).run calls).Owned := by
  refine ⟨?_, fun howned => ?_⟩
  · rintro (_ | ⟨c₁, _ | ⟨c₂, _ | ⟨c₃, before⟩⟩⟩) sessionID generation after heq sessionID' hmem
    · cases hmem
    · cases heq
    · cases heq
      rcases hmem with _ | ⟨_, _ | ⟨_, hmem⟩⟩
      cases hmem
    · have hlength := congrArg List.length heq
      simp at hlength
  · obtain ⟨-, hactive⟩ := howned Sample.key _ rfl Nat.one_pos
    cases hactive

end SessionPlanStore

end Pixiu.Mcp
