import Pixiu.Mcp.Calls

/-!
# Background refresh and newer plans

`SetIfCurrent` should commit only over the very plan that its base was taken from.  It judges this
by the generation of the entry and the generation of the session, and the first starts again when an
entry is deleted and created anew: a base of the deleted entry then passes for one of the new entry,
and the refresh overwrites a plan it has never seen (`setIfCurrent_over_recreated`).

This needs a commit under a session generation that a deleted entry of the same key had (`Reuses`).
In runs without such commits `SetIfCurrent` is what it should be (`setIfCurrent_replaces_base`).
-/

namespace Pixiu.Mcp

variable {V : Type}

/-- The key and the context of a call that commits without a base. -/
def Call.commits : Call V → Option (PlanKey × SelectionContext V)
  | .commit key _ sc => some (key, sc)
  | .commitAndIssueReceipt key _ sc _ _ => some (key, sc)
  | _ => none

namespace SessionPlanStore

/-- The plan of a key is the same in every state of a run. -/
def Unreplaced (s : SessionPlanStore V) (calls : List (Call V)) (key : PlanKey)
    (plan : SelectionPlan) : Prop :=
  ∀ part, part <+: calls → ∃ e, (s.run part).entries.lookup key = some e ∧ e.plan = plan

/-- A commit, after a run, under a session generation that an entry of the same key had before it
was deleted. -/
def Reuses (s : SessionPlanStore V) (calls : List (Call V)) (c : Call V) : Prop :=
  ∃ key sc early late, c.commits = some (key, sc) ∧ early ++ late <+: calls ∧
    (∃ e, (s.run early).entries.lookup key = some e ∧
      e.context.sessionGeneration = sc.sessionGeneration) ∧
    (s.run (early ++ late)).entries.lookup key = none

/-- No commit of a run reuses the session generation of a deleted entry. -/
def NoReuse (s : SessionPlanStore V) (calls : List (Call V)) : Prop :=
  ∀ before c after, calls = before ++ c :: after → ¬ s.Reuses before c

variable {s : SessionPlanStore V} {before calls : List (Call V)} {c : Call V} {k : PlanKey}

theorem NoReuse.of_snoc (h : s.NoReuse (calls ++ [c])) : s.NoReuse calls := by
  intro before c' after heq
  exact h before c' (after ++ [c]) (by simp [heq])

theorem NoReuse.last (h : s.NoReuse (calls ++ [c])) : ¬ s.Reuses calls c :=
  h calls c [] rfl

theorem Unreplaced.snoc {plan : SelectionPlan} {e : SessionEntry V} (h : s.Unreplaced calls k plan)
    (he : (s.run (calls ++ [c])).entries.lookup k = some e) (hplan : e.plan = plan) :
    s.Unreplaced (calls ++ [c]) k plan := by
  intro part hpart
  rcases List.prefix_concat_iff.1 hpart with rfl | hpart
  · exact ⟨e, he, hplan⟩
  · exact h part hpart

/-- A session generation other than `g` stays away from an entry that has another one, unless a call
commits under `g`. -/
theorem sessionGeneration_next {g : ℕ}
    (h : ∀ e, s.entries.lookup k = some e → e.context.sessionGeneration ≠ g)
    (hcommits : ∀ sc, c.commits = some (k, sc) → sc.sessionGeneration ≠ g) {e' : SessionEntry V}
    (he' : (s.next c).entries.lookup k = some e') : e'.context.sessionGeneration ≠ g := by
  rcases context_next he' with ⟨e, he, hsame⟩ | ⟨stored, hwrites⟩
  · rw [hsame]
    exact h e he
  · generalize e'.context = sc at hwrites
    cases hwrites with
    | commit => exact hcommits _ rfl
    | commitAndIssueReceipt => exact hcommits _ rfl
    | setIfCurrent base plan e _ he _ hsession =>
      rw [← hsession]
      exact h e he

/-- After a run from a state where the key has the entry `e`: the plan of `e` is still there, or it
was replaced and the generation has gone up, or the entry was deleted in between and the session
generation of `e` is gone. -/
theorem entry_run {e : SessionEntry V} (he : (s.run before).entries.lookup k = some e)
    (hreuse : s.NoReuse (before ++ calls)) :
    ((s.run before).Unreplaced calls k e.plan ∧
        ∃ e', (s.run (before ++ calls)).entries.lookup k = some e' ∧ e'.generation = e.generation) ∨
      (∃ e', (s.run (before ++ calls)).entries.lookup k = some e' ∧ e.generation < e'.generation) ∨
      ((∃ part, part <+: calls ∧ (s.run (before ++ part)).entries.lookup k = none) ∧
        ∀ e', (s.run (before ++ calls)).entries.lookup k = some e' →
          e'.context.sessionGeneration ≠ e.context.sessionGeneration) := by
  induction calls using List.reverseRecOn with
  | nil =>
    refine .inl ⟨fun part hpart => ?_, e, by simpa using he, rfl⟩
    rw [List.prefix_nil.1 hpart]
    exact ⟨e, he, rfl⟩
  | append_singleton calls c ih =>
    rw [← List.append_assoc] at hreuse ⊢
    rw [run_snoc]
    cases hnext : ((s.run (before ++ calls)).next c).entries.lookup k with
    | none =>
      refine .inr (.inr ⟨⟨calls ++ [c], List.prefix_rfl, ?_⟩,
        fun _ he => absurd he.symm (Option.some_ne_none _)⟩)
      rw [← List.append_assoc, run_snoc]
      exact hnext
    | some e₂ =>
      rcases ih hreuse.of_snoc with ⟨hsame, e₁, he₁, hgeneration⟩ | ⟨e₁, he₁, hlt⟩ |
        ⟨habsent, hgone⟩
      · rcases generation_next he₁ hnext with ⟨hsame₂, hplan⟩ | hlt
        · left
          have hplan₁ : e₁.plan = e.plan := by
            obtain ⟨e₀, he₀, hplan₀⟩ := hsame calls List.prefix_rfl
            rw [← run_append, he₁] at he₀
            exact Option.some.inj he₀ ▸ hplan₀
          refine ⟨hsame.snoc ?_ (hplan.trans hplan₁), e₂, rfl, hsame₂.trans hgeneration⟩
          rw [run_snoc, ← run_append]
          exact hnext
        · exact .inr (.inl ⟨e₂, rfl, hgeneration ▸ hlt⟩)
      · have hle : e₁.generation ≤ e₂.generation := by
          rcases generation_next he₁ hnext with ⟨hsame, -⟩ | hlt
          · exact hsame.ge
          · exact hlt.le
        exact .inr (.inl ⟨e₂, rfl, hlt.trans_le hle⟩)
      · obtain ⟨part, hpart, hnone⟩ := habsent
        refine .inr (.inr ⟨⟨part, hpart.trans (List.prefix_append ..), hnone⟩, ?_⟩)
        rintro e' ⟨⟩
        refine sessionGeneration_next hgone (fun sc hcommits hsame => ?_) hnext
        exact hreuse.last
          ⟨k, sc, before, part, hcommits, List.prefix_append_right_inj before |>.2 hpart,
          ⟨e, he, hsame.symm⟩, hnone⟩

/-- `SetIfCurrent` that commits has found the generations of its base. -/
theorem entry_of_committed {base : SessionPlanContext V} {plan : Option SelectionPlan}
    {p : SelectionPlan}
    (h : s.reply (.setIfCurrent base plan) = .plan p) :
    ∃ e, s.entries.lookup base.key = some e ∧ e.generation = base.planGeneration ∧
      e.context.sessionGeneration = base.context.sessionGeneration := by
  have hstep := s.step_spec (.setIfCurrent base plan)
  rw [h] at hstep
  generalize s.next (.setIfCurrent base plan) = s' at hstep
  cases hstep with
  | idle _ _ hr => rcases hr with hr | hr | hr | hr <;> cases hr
  | write _ hwrites _ =>
    cases hwrites with
    | setIfCurrent base plan e _ he hgeneration hsession => exact ⟨e, he, hgeneration, hsession⟩

/-- `SetIfCurrent` creates no entry. -/
theorem setIfCurrent_of_none {base : SessionPlanContext V} (plan : Option SelectionPlan)
    (h : s.entries.lookup base.key = none) : s.next (.setIfCurrent base plan) = s := by
  simp only [next, step, setIfCurrent]
  cases validatePlanWrite base.key (plan.map (clonePlan · false)) base.context with
  | error err => rfl
  | ok stored =>
    dsimp only
    split_ifs
    · rfl
    · rfl
    · rw [h]
      rfl

/-- In every run without a commit under the session generation of a deleted entry: if a base was
taken and `SetIfCurrent` later commits with it, the plan it replaces was there all the time, and it
is the plan of the base; and `SetIfCurrent` never creates an entry. -/
theorem setIfCurrent_replaces_base (maxEntries : ℤ) (before calls : List (Call V))
    (b base : SessionPlanContext V)
    (plan : Option SelectionPlan)
    (hb : ((newSessionPlanStoreWithMaxEntries maxEntries).run before).sessionPlanContext base.key =
      some b)
    (hgeneration : base.planGeneration = b.planGeneration)
    (hsession : base.context.sessionGeneration = b.context.sessionGeneration)
    (hreuse : (newSessionPlanStoreWithMaxEntries maxEntries).NoReuse (before ++ calls)) :
    (∀ p, ((newSessionPlanStoreWithMaxEntries maxEntries).run (before ++ calls)).reply
      (.setIfCurrent base plan) =
        .plan p →
      ∃ replaced, clonePlan replaced false = b.plan ∧
        ((newSessionPlanStoreWithMaxEntries maxEntries).run before).Unreplaced calls base.key
          replaced) ∧
    (((newSessionPlanStoreWithMaxEntries maxEntries).run (before ++ calls)).entries.lookup
      base.key = none →
      (((newSessionPlanStoreWithMaxEntries maxEntries).run (before ++ calls)).next
        (.setIfCurrent base plan)).entries.lookup base.key = none) := by
  refine ⟨fun p hcommit => ?_, fun hnone => ?_⟩
  · obtain ⟨e, he, hbe⟩ := Option.map_eq_some_iff.1 hb
    obtain ⟨e', he', hgeneration', hsession'⟩ := entry_of_committed hcommit
    rw [hgeneration, ← hbe] at hgeneration'
    rw [hsession, ← hbe] at hsession'
    rcases entry_run he hreuse with ⟨hsame, -⟩ | ⟨e₁, he₁, hlt⟩ | ⟨-, hgone⟩
    · exact ⟨e.plan, congrArg SessionPlanContext.plan hbe, hsame⟩
    · obtain rfl := Option.some.inj (he'.symm.trans he₁)
      exact absurd hgeneration' hlt.ne'
    · exact absurd hsession' (hgone e' he')
  · rw [setIfCurrent_of_none plan hnone]
    exact hnone

/-- What a refresh takes from the first plan of the session. -/
def sampleBase (sessionGeneration : ℕ) : SessionPlanContext Unit where
  key := Sample.key
  plan := { Sample.plan "v1" with generation := 1 }
  context := Sample.context sessionGeneration
  planGeneration := 1
  sessionGeneration := sessionGeneration

/-- The calls of a run that commit under the session generation of a deleted entry can be found by
looking at every two states before each of them. -/
theorem noReuse_of_forall_take (h : ∀ k < calls.length, ∀ j ≤ k, ∀ i ≤ j,
    (calls[k]?.bind Call.commits).all fun commit =>
      !(((s.run (calls.take i)).entries.lookup commit.1).any fun e =>
          decide (e.context.sessionGeneration = commit.2.sessionGeneration)) ||
        ((s.run (calls.take j)).entries.lookup commit.1).isSome) : s.NoReuse calls := by
  rintro before c after rfl ⟨key, sc, early, late, hcommits, hpart, ⟨e, he, hgeneration⟩, hnone⟩
  obtain ⟨rest, rfl⟩ := hpart
  have hearly : (early ++ late ++ rest ++ c :: after).take early.length = early := by simp
  have hlate : (early ++ late ++ rest ++ c :: after).take (early ++ late).length =
      early ++ late := by
    rw [List.append_assoc (early ++ late), List.take_left]
  have hcall : (early ++ late ++ rest ++ c :: after)[(early ++ late ++ rest).length]? = some c := by
    simp
  have hcheck := h (early ++ late ++ rest).length (by simp) (early ++ late).length (by simp)
    early.length (by simp)
  rw [hearly, hlate, hcall, Option.bind_some, hcommits] at hcheck
  simp [he, hgeneration, hnone] at hcheck

/-- The second plan of a session that was closed and opened again. -/
def reopened : List (Call Unit) :=
  [.activateSession "s" 1, .commit Sample.key (some (Sample.plan "v1")) (Sample.context 1),
    .deleteSession "s", .activateSession "s" 2,
    .commit Sample.key (some (Sample.plan "v1")) (Sample.context 2)]

/-- What others do until the refresh is ready. -/
def meanwhile : List (Call Unit) :=
  [.commit ⟨"router-2", "s"⟩ (some (Sample.plan "w")) (Sample.context 2),
    .issueReceipt Sample.key "t" (some (Sample.plan "v1")) "router-1", .delete ⟨"router-2", "s"⟩]

/-- A refresh of the reopened session commits over the plan it was made from. -/
theorem setIfCurrent_replaces_base_reopened :
    ((newSessionPlanStoreWithMaxEntries 0).run reopened).sessionPlanContext Sample.key =
      some (sampleBase 2) ∧
    (∃ p, ((newSessionPlanStoreWithMaxEntries 0).run (reopened ++ meanwhile)).reply
      (.setIfCurrent (sampleBase 2) (some (Sample.plan "v2"))) = .plan p) ∧
    ∃ replaced, clonePlan replaced false = (sampleBase 2).plan ∧
      ((newSessionPlanStoreWithMaxEntries 0).run reopened).Unreplaced meanwhile Sample.key
        replaced := by
  refine ⟨rfl, ⟨_, rfl⟩, ?_⟩
  exact (setIfCurrent_replaces_base 0 reopened meanwhile (sampleBase 2) (sampleBase 2)
    (some (Sample.plan "v2")) rfl rfl rfl (noReuse_of_forall_take (by decide +kernel))).1 _ rfl

/-- A base of a deleted entry passes for one of the entry that was created after it. -/
theorem setIfCurrent_over_recreated :
    let before : List (Call Unit) := [.activateSession "s" 1,
      .commit Sample.key (some (Sample.plan "v1")) (Sample.context 1)]
    let calls : List (Call Unit) := [.delete Sample.key,
      .commit Sample.key (some (Sample.plan "v2")) (Sample.context 1)]
    ((newSessionPlanStoreWithMaxEntries 0).run before).sessionPlanContext Sample.key =
      some (sampleBase 1) ∧
      (((newSessionPlanStoreWithMaxEntries 0).run (before ++ calls)).get Sample.key).map
        (·.version) = some "v2" ∧
      ∃ p, ((newSessionPlanStoreWithMaxEntries 0).run (before ++ calls)).reply
        (.setIfCurrent (sampleBase 1) (some (Sample.plan "v3"))) = .plan p ∧ p.version = "v3" :=
  ⟨rfl, rfl, _, rfl, rfl⟩

end SessionPlanStore

end Pixiu.Mcp
