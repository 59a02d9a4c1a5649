import Pixiu.Base.System
import Pixiu.Server.Replace

/-!
# Replacing listeners is all or nothing

What each phase of `ReplaceXDSListeners` does, and from it what the whole call does: a call that
fails leaves the table, the ownership and the configs as they were and closes what it made, a call
that succeeds installs exactly the requested listeners.  One thing can go wrong: a listener that was
there and did not serve before the call, because it could not be restored after an earlier failure,
is refreshed but not started again.
-/

namespace Pixiu.Server

/-! ## Tables that differ in what serves -/

/-- The same entries, up to whether they serve. -/
def Alike (m m' : FinMap String WrapListenerService) : Prop :=
  ∀ key, (m.lookup key = none → m'.lookup key = none) ∧ ∀ w, m.lookup key = some w →
    ∃ w', m'.lookup key = some w' ∧ w'.config = w.config ∧ w.service.Same w'.service

namespace Alike

variable {m m' m'' : FinMap String WrapListenerService}

theorem refl : Alike m m := fun _ => ⟨id, fun w hw => ⟨w, hw, rfl, .refl⟩⟩

theorem trans (h : Alike m m') (h' : Alike m' m'') : Alike m m'' := by
  intro key
  refine ⟨fun hnone => (h' key).1 ((h key).1 hnone), fun w hw => ?_⟩
  obtain ⟨w', hw', hconfig, hsame⟩ := (h key).2 w hw
  obtain ⟨w'', hw'', hconfig', hsame'⟩ := (h' key).2 w' hw'
  exact ⟨w'', hw'', hconfig'.trans hconfig, hsame.trans hsame'⟩

theorem modify {key : String} {f : Service → Service} (hf : ∀ s : Service, s.Same (f s)) :
    Alike m (m.modify key (·.onService f)) := by
  intro key'
  rw [FinMap.lookup_modify]
  split_ifs with hkey
  · subst hkey
    refine ⟨fun hnone => by rw [hnone]; rfl, fun w hw => ?_⟩
    exact ⟨w.onService f, by rw [hw]; rfl, rfl, hf w.service⟩
  · exact ⟨id, fun w hw => ⟨w, hw, rfl, .refl⟩⟩

theorem foldl {l : List String}
    {step : FinMap String WrapListenerService → String → FinMap String WrapListenerService}
    (hstep : ∀ m key, Alike m (step m key)) : Alike m (l.foldl step m) := by
  induction l generalizing m with
  | nil => exact refl
  | cons key l ih => exact (hstep m key).trans ih

/-- An entry after the change stems from one before it. -/
theorem exists_of_lookup (h : Alike m m') {key : String} {w' : WrapListenerService}
    (hw' : m'.lookup key = some w') :
    ∃ w, m.lookup key = some w ∧ w'.config = w.config ∧ w.service.Same w'.service := by
  cases hw : m.lookup key with
  | none => rw [(h key).1 hw] at hw'; cases hw'
  | some w =>
    obtain ⟨w₁, hw₁, hconfig, hsame⟩ := (h key).2 w hw
    obtain rfl := Option.some.inj (hw₁.symm.trans hw')
    exact ⟨w, rfl, hconfig, hsame⟩

end Alike

/-! ## Staging -/

/-- What was prepared and created so far. -/
structure Staged (lm : ListenerManager) (st : Staging) : Prop where
  refreshes : ∀ target ∈ st.refreshes, target.key ∈ st.newManaged ∧ target.key ∈ lm.xdsManaged ∧
    (∃ w, lm.activeListenerService.lookup target.key = some w) ∧ target.prepared = ⟨target.next, 0⟩
  nodup : (st.refreshes.map RefreshTarget.key).Nodup
  staged : ∀ key w, st.staged.lookup key = some w → key ∈ st.newManaged ∧
    lm.activeListenerService.lookup key = none ∧ w.service.closes = 0 ∧
      w.service.chain = ⟨w.config, 0⟩ ∧
    w.service.origin = .xds

/-- The listeners that were staged without an error. -/
structure Covers (st : Staging) (listeners : List (Option Listener)) : Prop where
  newManaged : ∀ key, key ∈ st.newManaged ↔ ∃ config, some config ∈ listeners ∧
    resolveListenerName config = key
  requested : ∀ config, some config ∈ listeners →
    (∃ target ∈ st.refreshes, target.key = resolveListenerName config ∧ target.next = config) ∨
    ∃ w, st.staged.lookup (resolveListenerName config) = some w ∧ w.config = config

variable {lm : ListenerManager} {orders : Orders} {b : Behaviour} {st st' : Staging}

/-- What one round of the loop over the requested listeners does. -/
inductive StageStep (lm : ListenerManager) (st : Staging) : Option Listener → Staging →
    Option ReplaceError → Prop
  | failed {listener : Option Listener} {newManaged : Finset String} {err : ReplaceError}
      (hsub : st.newManaged ⊆ newManaged) : StageStep lm st listener { st with newManaged }
        (some err)
  | refresh {config : Listener} {w : WrapListenerService}
      (hnew : resolveListenerName config ∉ st.newManaged)
      (hw : lm.activeListenerService.lookup (resolveListenerName config) = some w)
      (howned : resolveListenerName config ∈ lm.xdsManaged) :
      StageStep lm st (some config)
        { st with
          newManaged := insert (resolveListenerName config) st.newManaged
          refreshes := st.refreshes ++ [⟨resolveListenerName config, config, ⟨config, 0⟩⟩] } none
  | create {config : Listener} {capabilities : Capabilities}
      (hnew : resolveListenerName config ∉ st.newManaged)
      (hw : lm.activeListenerService.lookup (resolveListenerName config) = none) :
      StageStep lm st (some config)
        { st with
          newManaged := insert (resolveListenerName config) st.newManaged
          staged := st.staged.insert (resolveListenerName config)
            ⟨config, (Service.create .xds capabilities config).setListenerActive false⟩ } none

theorem stageListener_step (listener : Option Listener) :
    StageStep lm st listener (lm.stageListener b st listener).1
      (lm.stageListener b st listener).2 := by
  cases listener with
  | none => exact .failed subset_rfl
  | some config =>
    rw [ListenerManager.stageListener]
    by_cases hdup : resolveListenerName config ∈ st.newManaged
    · simp only [if_pos hdup]
      exact .failed subset_rfl
    simp only [if_neg hdup]
    cases hw : lm.activeListenerService.lookup (resolveListenerName config) with
    | some w =>
      simp only
      by_cases howned : resolveListenerName config ∈ lm.xdsManaged
      · simp only [howned, not_true_eq_false, if_false]
        split_ifs
        · exact .refresh hdup hw howned
        · exact .failed (Finset.subset_insert _ _)
      · simp only [howned, not_false_eq_true, if_true]
        exact .failed (Finset.subset_insert _ _)
    | none =>
      simp only
      split
      · exact .failed (Finset.subset_insert _ _)
      · exact .create hdup hw

theorem Staged.step {listener : Option Listener} {err : Option ReplaceError} (h : Staged lm st)
    (hstep : StageStep lm st listener st' err) : Staged lm st' := by
  cases hstep with
  | failed hsub =>
    refine ⟨fun target htarget => ?_, h.nodup, fun key w hw => ?_⟩
    · exact (h.refreshes target htarget).imp_left (hsub ·)
    · exact (h.staged key w hw).imp_left (hsub ·)
  | @refresh config w hnew hw howned =>
    refine ⟨fun target htarget => ?_, ?_, fun key w hw => ?_⟩
    · rcases List.mem_append.1 htarget with htarget | htarget
      · exact (h.refreshes target htarget).imp_left (Finset.mem_insert_of_mem ·)
      · obtain rfl := List.mem_singleton.1 htarget
        exact ⟨Finset.mem_insert_self _ _, howned, ⟨w, hw⟩, rfl⟩
    · rw [List.map_append, List.map_singleton, List.nodup_append]
      refine ⟨h.nodup, List.nodup_singleton _, ?_⟩
      intro key hkey key' hlast heq
      obtain ⟨target, htarget, rfl⟩ := List.mem_map.1 hkey
      have hkey' : key' = resolveListenerName config := List.mem_singleton.1 hlast
      apply hnew
      rw [← hkey', ← heq]
      exact (h.refreshes target htarget).1
    · exact (h.staged key w hw).imp_left (Finset.mem_insert_of_mem ·)
  | @create config capabilities hnew hnone =>
    refine ⟨fun target htarget => ?_, h.nodup, fun key w hw => ?_⟩
    · exact (h.refreshes target htarget).imp_left (Finset.mem_insert_of_mem ·)
    · rw [FinMap.lookup_insert] at hw
      split_ifs at hw with hkey
      · obtain rfl := Option.some.inj hw
        have hsame :=
          Service.same_setListenerActive (s := Service.create .xds capabilities config) false
        rw [hkey]
        exact ⟨Finset.mem_insert_self _ _, hnone, hsame.closes, hsame.chain, hsame.origin⟩
      · exact (h.staged key w hw).imp_left (Finset.mem_insert_of_mem ·)

theorem Covers.step {listener : Option Listener} {listeners : List (Option Listener)}
    (h : Covers st listeners) (hstaged : Staged lm st) (hstep : StageStep lm st listener st' none) :
    Covers st' (listeners ++ [listener]) := by
  have hkeys : ∀ config, ∀ key, key ∈ insert (resolveListenerName config) st.newManaged ↔
      ∃ config', some config' ∈ listeners ++ [some config] ∧ resolveListenerName config' = key := by
    intro config key
    rw [Finset.mem_insert, h.newManaged]
    constructor
    · rintro (rfl | ⟨config', hmem, rfl⟩)
      · exact ⟨config, by simp, rfl⟩
      · exact ⟨config', by simp [hmem], rfl⟩
    · rintro ⟨config', hmem, rfl⟩
      rcases List.mem_append.1 hmem with hmem | hmem
      · exact .inr ⟨config', hmem, rfl⟩
      · obtain rfl : config' = config := by simpa using hmem
        exact .inl rfl
  cases hstep with
  | @refresh config w hnew hw howned =>
    refine ⟨hkeys config, fun config' hmem => ?_⟩
    rcases List.mem_append.1 hmem with hmem | hmem
    · rcases h.requested config' hmem with ⟨target, htarget, heq⟩ | hstaged
      · exact .inl ⟨target, List.mem_append_left _ htarget, heq⟩
      · exact .inr hstaged
    · obtain rfl : config' = config := by simpa using hmem
      exact .inl ⟨_, List.mem_append_right _ (List.mem_singleton_self _), rfl, rfl⟩
  | @create config capabilities hnew hnone =>
    refine ⟨hkeys config, fun config' hmem => ?_⟩
    rcases List.mem_append.1 hmem with hmem | hmem
    · rcases h.requested config' hmem with htarget | ⟨w, hw, heq⟩
      · exact .inl htarget
      · refine .inr ⟨w, ?_, heq⟩
        have hne : resolveListenerName config' ≠ resolveListenerName config :=
          fun hkey => hnew (hkey ▸ (hstaged.staged _ w hw).1)
        rw [FinMap.lookup_insert_of_ne hne, hw]
    · obtain rfl : config' = config := by simpa using hmem
      exact .inr ⟨_, FinMap.lookup_insert_self, rfl⟩

theorem staged_stageListeners {listeners : List (Option Listener)} (h : Staged lm st) :
    Staged lm (lm.stageListeners b st listeners).1 := by
  induction listeners generalizing st with
  | nil => exact h
  | cons listener listeners ih =>
    have hstep := h.step (stageListener_step (b := b) listener)
    rw [ListenerManager.stageListeners]
    cases hlistener : lm.stageListener b st listener with
    | mk st₁ err =>
      rw [hlistener] at hstep
      cases err with
      | some err => exact hstep
      | none => exact ih hstep

theorem covers_stageListeners {done listeners : List (Option Listener)} (hstaged : Staged lm st)
    (h : Covers st done) (hnone : (lm.stageListeners b st listeners).2 = none) :
    Covers (lm.stageListeners b st listeners).1 (done ++ listeners) := by
  induction listeners generalizing st done with
  | nil => simpa [ListenerManager.stageListeners] using h
  | cons listener listeners ih =>
    have hstep : StageStep lm st listener (lm.stageListener b st listener).1 _ :=
      stageListener_step listener
    rw [ListenerManager.stageListeners] at hnone ⊢
    cases hlistener : lm.stageListener b st listener with
    | mk st₁ err =>
      rw [hlistener] at hnone hstep
      cases err with
      | some err => cases hnone
      | none => simpa using ih (hstaged.step hstep) (h.step hstaged hstep) hnone

theorem staged_start : Staged lm ⟨∅, .empty, []⟩ :=
  ⟨fun _ h => absurd h List.not_mem_nil, List.nodup_nil, fun _ _ h => by cases h⟩

theorem covers_start : Covers ⟨∅, .empty, []⟩ [] :=
  ⟨fun key => by simp, fun _ h => absurd h List.not_mem_nil⟩

/-! ## Hand-overs -/

/-- Sockets are handed over from listeners of xDS that are removed to listeners that are new. -/
def HandoffsFrom (lm : ListenerManager) (st : Staging) (handoffs : FinMap String String) : Prop :=
  ∀ oldKey newKey, handoffs.lookup oldKey = some newKey →
    oldKey ∈ lm.xdsManaged ∧ oldKey ∉ st.newManaged ∧ ∃ w, st.staged.lookup newKey = some w

theorem handoffsFrom_addHandoff {handoffs handoffs' : FinMap String String} {oldKey newKey : String}
    (h : HandoffsFrom lm st handoffs) (howned : oldKey ∈ lm.xdsManaged)
    (hadd : lm.addHandoff st newKey handoffs oldKey = .ok handoffs') :
    HandoffsFrom lm st handoffs' := by
  rw [ListenerManager.addHandoff] at hadd
  by_cases hkept : oldKey ∈ st.newManaged
  · rw [if_pos hkept] at hadd
    obtain rfl := Except.ok.inj hadd
    exact h
  rw [if_neg hkept] at hadd
  split at hadd
  · next old next hold hnext =>
    split_ifs at hadd
    · obtain rfl := Except.ok.inj hadd
      exact h
    · obtain rfl := Except.ok.inj hadd
      intro oldKey' newKey' hlookup
      rw [FinMap.lookup_insert] at hlookup
      split_ifs at hlookup with heq
      · obtain rfl := Option.some.inj hlookup
        rw [heq]
        exact ⟨howned, hkept, next, hnext⟩
      · exact h oldKey' newKey' hlookup
  · obtain rfl := Except.ok.inj hadd
    exact h

theorem handoffsFrom_findHandoffs {handoffs : FinMap String String}
    (hfind : lm.findHandoffs orders st = .ok handoffs) : HandoffsFrom lm st handoffs := by
  refine System.invariant_foldlM hfind (P := HandoffsFrom lm st)
    (fun _ _ hnone => by cases hnone) ?_
  intro handoffs₁ newKey handoffs₂ _ h₁ hinner
  refine System.invariant_foldlM hinner h₁ fun handoffs₃ oldKey handoffs₄ hmem h₃ hadd => ?_
  exact handoffsFrom_addHandoff h₃ (((orders.managed newKey).mem_list _ _).1 hmem) hadd

theorem isHandoffNew_iff {handoffs : FinMap String String} {newKey : String} :
    isHandoffNew handoffs newKey = true ↔ ∃ oldKey, handoffs.lookup oldKey = some newKey := by
  simp only [isHandoffNew, decide_eq_true_eq]
  constructor
  · rintro ⟨oldKey, -, hlookup⟩
    exact ⟨oldKey, hlookup⟩
  · rintro ⟨oldKey, hlookup⟩
    exact ⟨oldKey, (handoffs.mem_keys _).2 (by rw [hlookup]; rfl), hlookup⟩

/-! ## Starting the new services -/

section Start

variable {handoffs : FinMap String String} {staged : FinMap String WrapListenerService}
  {keys : List String}

theorem alike_startStaged : Alike staged (startStaged b handoffs staged keys).1 := by
  induction keys generalizing staged with
  | nil => exact .refl
  | cons key keys ih =>
    rw [startStaged]
    split_ifs
    · exact ih
    · exact .modify fun s => Service.same_start _
    · exact (Alike.modify fun s => Service.same_start _).trans ih

theorem startStaged_of_notMem {key : String} (hkey : key ∉ keys) :
    (startStaged b handoffs staged keys).1.lookup key = staged.lookup key := by
  induction keys generalizing staged with
  | nil => rfl
  | cons key' keys ih =>
    rw [List.mem_cons, not_or] at hkey
    have hmodify : (staged.modify key' (·.onService (·.start (b.start key')))).lookup key =
        staged.lookup key := by
      rw [FinMap.lookup_modify, if_neg hkey.1]
    rw [startStaged]
    split_ifs
    · exact ih hkey.2
    · exact hmodify
    · exact (ih hkey.2).trans hmodify

/-- When the loop ends without an error, each service it did not skip accepts connections. -/
theorem accepting_of_startStaged (hnodup : keys.Nodup)
    (hnone : (startStaged b handoffs staged keys).2 = none)
    {key : String} (hkey : key ∈ keys) (hnew : isHandoffNew handoffs key = false)
    {w : WrapListenerService}
    (hw : (startStaged b handoffs staged keys).1.lookup key = some w) :
    w.service.accepting = true := by
  induction keys generalizing staged with
  | nil => cases hkey
  | cons key' keys ih =>
    rw [List.nodup_cons] at hnodup
    rw [startStaged] at hnone hw
    split_ifs at hnone hw with hskip hfailed
    · rcases List.mem_cons.1 hkey with rfl | hkey
      · rw [hnew] at hskip
        cases hskip
      · exact ih hnodup.2 hnone hkey hw
    · rcases List.mem_cons.1 hkey with rfl | hkey
      · rw [startStaged_of_notMem hnodup.1, FinMap.lookup_modify, if_pos rfl] at hw
        obtain ⟨w₀, -, rfl⟩ := Option.map_eq_some_iff.1 hw
        cases houtcome : b.start key with
        | done => rfl
        | failed accepting => rw [houtcome] at hfailed; exact absurd rfl hfailed
      · exact ih hnodup.2 hnone hkey hw

end Start

/-! ## Handing sockets over -/

section HandOver

variable {handoffs : FinMap String String} {h h' : Handing} {keys : List String}

/-- What hand-overs do to the table and to the new services, whether they fail or not. -/
structure HandedOver (h h' : Handing) : Prop where
  active : Alike h.active h'.active
  staged : Alike h.staged h'.staged
  closed : ∀ key ∈ h.closed, key ∈ h'.closed
  untouched : ∀ key, key ∉ h'.closed → h'.active.lookup key = h.active.lookup key

theorem HandedOver.refl : HandedOver h h := ⟨.refl, .refl, fun _ => id, fun _ _ => rfl⟩

theorem HandedOver.trans {h'' : Handing} (h₁ : HandedOver h h') (h₂ : HandedOver h' h'') :
    HandedOver h h'' where
  active := h₁.active.trans h₂.active
  staged := h₁.staged.trans h₂.staged
  closed key hkey := h₂.closed key (h₁.closed key hkey)
  untouched key hkey :=
    (h₂.untouched key hkey).trans (h₁.untouched key fun hclosed => hkey (h₂.closed key hclosed))

theorem handedOver_handOver (oldKey newKey : String) :
    HandedOver h (handOver b h oldKey newKey).1 := by
  have hold : ∀ s : Service,
      s.Same ((s.setListenerActive false).stopAccepting (b.stopOld oldKey)) :=
    fun s => (Service.same_setListenerActive false).trans (Service.same_stopAccepting _)
  have hclosed : HandedOver h { h with
      active := h.active.modify oldKey
        (·.onService fun s => (s.setListenerActive false).stopAccepting (b.stopOld oldKey))
      closed := h.closed ++ [oldKey] } := by
    refine ⟨.modify hold, .refl, fun key => List.mem_append_left _, fun key hkey => ?_⟩
    rw [List.mem_append, List.mem_singleton, not_or] at hkey
    rw [FinMap.lookup_modify, if_neg hkey.2]
  rw [handOver]
  split_ifs
  · exact hclosed
  all_goals
    exact hclosed.trans ⟨.refl, .modify fun s => Service.same_start _, fun _ => id, fun _ _ => rfl⟩

theorem handedOver_handOverAll : HandedOver h (handOverAll b handoffs h keys).1 := by
  induction keys generalizing h with
  | nil => exact .refl
  | cons oldKey keys ih =>
    have hfirst := handedOver_handOver (b := b) (h := h) oldKey ((handoffs.lookup oldKey).getD "")
    rw [handOverAll]
    cases hstep : handOver b h oldKey ((handoffs.lookup oldKey).getD "") with
    | mk h₁ err =>
      rw [hstep] at hfirst
      cases err with
      | some err => exact hfirst
      | none => exact hfirst.trans ih

theorem closed_handOver (oldKey newKey : String) :
    (handOver b h oldKey newKey).1.closed = h.closed ++ [oldKey] := by
  rw [handOver]
  split_ifs <;> rfl

theorem mem_closed_handOverAll {key : String}
    (hkey : key ∈ (handOverAll b handoffs h keys).1.closed) :
    key ∈ h.closed ∨ key ∈ keys := by
  induction keys generalizing h with
  | nil => exact .inl hkey
  | cons oldKey keys ih =>
    have hclosed := closed_handOver (b := b) (h := h) oldKey ((handoffs.lookup oldKey).getD "")
    rw [handOverAll] at hkey
    cases hstep : handOver b h oldKey ((handoffs.lookup oldKey).getD "") with
    | mk h₁ err =>
      rw [hstep] at hclosed hkey
      have hmem : key ∈ h₁.closed → key ∈ h.closed ∨ key ∈ oldKey :: keys := by
        intro hkey
        rw [show h₁.closed = h.closed ++ [oldKey] from hclosed, List.mem_append, List.mem_singleton]
          at hkey
        rcases hkey with hkey | rfl
        · exact .inl hkey
        · exact .inr (List.mem_cons_self ..)
      cases err with
      | some err => exact hmem hkey
      | none =>
        rcases ih hkey with hkey | hkey
        · exact hmem hkey
        · exact .inr (List.mem_cons_of_mem _ hkey)

/-- A hand-over that succeeds starts its new listener. -/
theorem accepting_of_handOver {oldKey newKey : String}
    (hnone : (handOver b h oldKey newKey).2 = none)
    {key : String} {w : WrapListenerService}
    (hw : (handOver b h oldKey newKey).1.staged.lookup key = some w) :
    (key = newKey → w.service.accepting = true) ∧
      (key ≠ newKey → h.staged.lookup key = some w) := by
  rw [handOver] at hnone hw
  split_ifs at hnone hw with hstop hstart
  simp only [FinMap.lookup_modify] at hw
  split_ifs at hw with hkey
  · refine ⟨fun _ => ?_, fun hne => absurd hkey hne⟩
    obtain ⟨w₀, -, rfl⟩ := Option.map_eq_some_iff.1 hw
    cases houtcome : b.startNew oldKey with
    | done => rfl
    | failed accepting => rw [houtcome] at hstart; exact absurd rfl hstart
  · exact ⟨fun heq => absurd heq hkey, fun _ => hw⟩

/-- When all hand-overs succeed, the new listeners accept connections, and so do those that did
before. -/
theorem accepting_of_handOverAll (hnone : (handOverAll b handoffs h keys).2 = none) {key : String}
    (hkey : (∃ oldKey ∈ keys, (handoffs.lookup oldKey).getD "" = key) ∨
      ∀ w, h.staged.lookup key = some w → w.service.accepting = true)
    {w : WrapListenerService} (hw : (handOverAll b handoffs h keys).1.staged.lookup key = some w) :
    w.service.accepting = true := by
  induction keys generalizing h with
  | nil =>
    rcases hkey with ⟨oldKey, hmem, -⟩ | haccepting
    · cases hmem
    · exact haccepting w hw
  | cons oldKey keys ih =>
    rw [handOverAll] at hnone hw
    have hfirst : (handOver b h oldKey ((handoffs.lookup oldKey).getD "")).2 = none → ∀ w,
        (handOver b h oldKey ((handoffs.lookup oldKey).getD "")).1.staged.lookup key = some w → _ :=
      fun hnone w hw => accepting_of_handOver hnone hw
    cases hstep : handOver b h oldKey ((handoffs.lookup oldKey).getD "") with
    | mk h₁ err =>
      rw [hstep] at hnone hw hfirst
      cases err with
      | some err => cases hnone
      | none =>
        refine ih hnone ?_ hw
        by_cases hnew : key = (handoffs.lookup oldKey).getD ""
        · exact .inr fun w hw => (hfirst rfl w hw).1 hnew
        rcases hkey with ⟨oldKey', hmem, heq⟩ | haccepting
        · rcases List.mem_cons.1 hmem with rfl | hmem
          · exact absurd heq.symm hnew
          · exact .inl ⟨oldKey', hmem, heq⟩
        · exact .inr fun w hw => haccepting w ((hfirst rfl w hw).2 hnew)

end HandOver

/-! ## Undoing hand-overs -/

section Rollback

variable {handoffs : FinMap String String} {h : Handing} {cause : HandoffError}

theorem alike_restoreListener (active : FinMap String WrapListenerService) (oldKey : String) :
    Alike active (restoreListener b active oldKey) := by
  refine .modify fun s => ?_
  split_ifs
  · exact Service.same_start _
  · exact (Service.same_start _).trans (Service.same_setListenerActive _)

theorem alike_rollbackHandoffs_active :
    Alike h.active (rollbackHandoffs b handoffs orders h cause).1.active :=
  .foldl alike_restoreListener

theorem alike_rollbackHandoffs_staged :
    Alike h.staged (rollbackHandoffs b handoffs orders h cause).1.staged :=
  .foldl fun _ _ => .modify fun _ => Service.same_stopAccepting _

theorem rollbackHandoffs_of_notMem {key : String} (hkey : key ∉ h.closed) :
    (rollbackHandoffs b handoffs orders h cause).1.active.lookup key = h.active.lookup key := by
  refine FinMap.lookup_foldl_modify_of_notMem id _ fun hmem => hkey ?_
  rw [List.map_id, orders.restore.mem_list, List.mem_toFinset] at hmem
  exact hmem

/-- A listener that was closed for a hand-over serves again, unless it could not be restored. -/
theorem serving_of_rollbackHandoffs {key : String} (hkey : key ∈ h.closed) {w : WrapListenerService}
    (hw : (rollbackHandoffs b handoffs orders h cause).1.active.lookup key = some w) :
    key ∈ (rollbackHandoffs b handoffs orders h cause).2.notRestored ∨
      w.service.serving = true := by
  have hmem : key ∈ orders.restore.list h.closed.toFinset := by
    rw [orders.restore.mem_list, List.mem_toFinset]
    exact hkey
  have hnodup : ((orders.restore.list h.closed.toFinset).map id).Nodup := by
    rw [List.map_id]
    exact orders.restore.nodup _
  have hlookup : (rollbackHandoffs b handoffs orders h cause).1.active.lookup key = _ :=
    FinMap.lookup_foldl_modify_of_mem id _ hnodup hmem
  rw [hlookup] at hw
  obtain ⟨w₀, -, rfl⟩ := Option.map_eq_some_iff.1 hw
  cases houtcome : b.restore key with
  | failed accepting =>
    refine .inl (List.mem_filter.2 ⟨hmem, ?_⟩)
    rw [houtcome]
    rfl
  | done =>
    refine .inr ?_
    simp only [WrapListenerService.onService]
    exact Service.serving_setListenerActive

end Rollback

/-! ## The whole call -/

/-- A listener with this key is requested. -/
def Requested (listeners : List (Option Listener)) (key : String) : Prop :=
  ∃ config, some config ∈ listeners ∧ resolveListenerName config = key

/-- A call that failed: the table, its configs and the ownership are as before, what was made is
closed once, and the listeners serve as before, except for those that could not be restored. -/
structure Rejected (lm : ListenerManager) (r : Replacement) (err : ReplaceError) : Prop where
  owned : r.manager.xdsManaged = lm.xdsManaged
  table : Alike lm.activeListenerService r.manager.activeListenerService
  created : ∀ key w, r.created.lookup key = some w → w.service.closes = 1
  prepared : ∀ target ∈ r.prepared, target.prepared.closes = 1
  serving : ∀ key w, lm.activeListenerService.lookup key = some w →
    ∃ w', r.manager.activeListenerService.lookup key = some w' ∧
      (w' = w ∨ key ∈ err.notRestored ∨ w'.service.serving = true)
  others : ∀ key, key ∉ lm.xdsManaged →
    r.manager.activeListenerService.lookup key = lm.activeListenerService.lookup key

/-- A call that succeeded: xDS owns the requested listeners, they have the requested configs and
filter chains, the listeners it did not own are untouched, those it does not own any more are gone
and closed once, and so are the filter chains that were replaced. -/
structure Installed (lm : ListenerManager) (listeners : List (Option Listener)) (r : Replacement) :
    Prop where
  owned : ∀ key, key ∈ r.manager.xdsManaged ↔ Requested listeners key
  requested : ∀ config, some config ∈ listeners →
    ∃ w, r.manager.activeListenerService.lookup (resolveListenerName config) = some w ∧
      w.config = config ∧
      w.service.chain = ⟨config, 0⟩ ∧ (w.service.origin = .xds ∨
        ∃ w₀, lm.activeListenerService.lookup (resolveListenerName config) = some w₀ ∧
          resolveListenerName config ∈ lm.xdsManaged ∧ w.service.origin = w₀.service.origin)
  others : ∀ key w, lm.activeListenerService.lookup key = some w → key ∉ lm.xdsManaged →
    r.manager.activeListenerService.lookup key = some w
  nothingElse : ∀ key w, r.manager.activeListenerService.lookup key = some w →
    Requested listeners key ∨ (lm.activeListenerService.lookup key = some w ∧ key ∉ lm.xdsManaged)
  removed : ∀ key w, lm.activeListenerService.lookup key = some w → key ∈ lm.xdsManaged →
    ¬ Requested listeners key →
    ∃ w', r.removed.lookup key = some w' ∧ w'.service.closes = w.service.closes + 1
  retired : ∀ key w, lm.activeListenerService.lookup key = some w → Requested listeners key →
    (key, w.service.chain.close) ∈ r.retired
  retiredOnce : (r.retired.map Prod.fst).Nodup

section Call

variable {active staged : FinMap String WrapListenerService} {err : ReplaceError}

theorem rejected_reject (hst : Staged lm st) (hactive : Alike lm.activeListenerService active)
    (hstaged : Alike st.staged staged)
    (hserving : ∀ key w, lm.activeListenerService.lookup key = some w →
      ∃ w', active.lookup key = some w' ∧
      (w' = w ∨ key ∈ err.notRestored ∨ w'.service.serving = true))
    (hothers : ∀ key, key ∉ lm.xdsManaged → active.lookup key = lm.activeListenerService.lookup
      key) :
    Rejected lm (lm.reject st active staged err) err where
  owned := rfl
  table := hactive
  created := by
    intro key w hw
    obtain ⟨w₁, hw₁, rfl⟩ := Option.map_eq_some_iff.1 hw
    obtain ⟨w₀, hw₀, -, hsame⟩ := hstaged.exists_of_lookup hw₁
    change w₁.service.closes + 1 = 1
    rw [hsame.closes, (hst.staged key w₀ hw₀).2.2.1]
  prepared := by
    intro target htarget
    obtain ⟨target₀, htarget₀, rfl⟩ := List.mem_map.1 htarget
    change target₀.prepared.closes + 1 = 1
    rw [(hst.refreshes target₀ htarget₀).2.2.2]
  serving := hserving
  others := hothers

/-- A call that fails before the hand-over does not touch the table. -/
theorem rejected_untouched (hst : Staged lm st) (hstaged : Alike st.staged staged) :
    Rejected lm (lm.reject st lm.activeListenerService staged err) err :=
  rejected_reject hst .refl hstaged (fun _ w hw => ⟨w, hw, .inl rfl⟩) fun _ _ => rfl

variable {listeners : List (Option Listener)}

/-- What the phases before the commit have achieved. -/
structure Ready (lm : ListenerManager) (st : Staging) (listeners : List (Option Listener))
    (active staged : FinMap String WrapListenerService) : Prop where
  isStaged : Staged lm st
  covers : Covers st listeners
  alike : Alike lm.activeListenerService active
  untouched : ∀ key, key ∉ lm.xdsManaged ∨ key ∈ st.newManaged →
    active.lookup key = lm.activeListenerService.lookup key
  alikeStaged : Alike st.staged staged
  accepting : ∀ key w, staged.lookup key = some w → w.service.accepting = true

/-- A key that is taken or not requested has no new service. -/
theorem Ready.staged_eq_none (h : Ready lm st listeners active staged) {key : String}
    (hkey : (∃ w, lm.activeListenerService.lookup key = some w) ∨ key ∉ st.newManaged) :
    staged.lookup key = none := by
  cases hlookup : staged.lookup key with
  | none => rfl
  | some w₁ =>
    obtain ⟨w₀, hw₀, -⟩ := h.alikeStaged.exists_of_lookup hlookup
    obtain ⟨hnew, hfree, -⟩ := h.isStaged.staged _ w₀ hw₀
    rcases hkey with ⟨w, hw⟩ | hkey
    · rw [hfree] at hw
      cases hw
    · exact absurd hnew hkey

/-- The refreshes do not touch other entries. -/
def refreshed (lm : ListenerManager) (st : Staging) (active : FinMap String WrapListenerService) :
    FinMap String WrapListenerService :=
  st.refreshes.foldl
    (fun active target => active.modify target.key fun w =>
      ⟨target.next, w.service.commitRefresh target.prepared⟩)
    (active.filter fun key => key ∉ lm.xdsManaged || key ∈ st.newManaged)

theorem lookup_commit (key : String) :
    (lm.commit st active staged).manager.activeListenerService.lookup key =
      ((staged.lookup key).map (·.onService (·.setListenerActive true))).or
        ((refreshed lm st active).lookup key) :=
  rfl

/-- An entry that was there before and is not refreshed stays or goes as it is. -/
theorem Ready.lookup_refreshed_of_notMem {key : String}
    (hkey : key ∉ st.refreshes.map RefreshTarget.key) :
    (refreshed lm st active).lookup key =
      if key ∉ lm.xdsManaged ∨ key ∈ st.newManaged then active.lookup key else none := by
  rw [refreshed, FinMap.lookup_foldl_modify_of_notMem _ _ hkey, FinMap.lookup_filter]
  simp

/-- A listener that is refreshed has the new config and filter chain, and serves as it did. -/
theorem Ready.lookup_refresh (h : Ready lm st listeners active staged) {target : RefreshTarget}
    (htarget : target ∈ st.refreshes) :
    ∃ w, lm.activeListenerService.lookup target.key = some w ∧
      (lm.commit st active staged).manager.activeListenerService.lookup target.key =
        some ⟨target.next, w.service.commitRefresh ⟨target.next, 0⟩⟩ := by
  obtain ⟨hnew, -, ⟨w, hw⟩, hprepared⟩ := h.isStaged.refreshes target htarget
  have hstaged := h.staged_eq_none (.inl ⟨w, hw⟩)
  refine ⟨w, hw, ?_⟩
  rw [lookup_commit, hstaged, Option.map_none, Option.none_or, refreshed,
    FinMap.lookup_foldl_modify_of_mem _ _ h.isStaged.nodup htarget, FinMap.lookup_filter, hprepared]
  simp [hnew, h.untouched target.key (.inr hnew), hw]

/-- A listener that is new serves. -/
theorem Ready.lookup_staged (h : Ready lm st listeners active staged) {key : String}
    {w : WrapListenerService}
    (hw : st.staged.lookup key = some w) :
    ∃ w', (lm.commit st active staged).manager.activeListenerService.lookup key = some w' ∧
      w'.config = w.config ∧ w'.service.chain = ⟨w.config, 0⟩ ∧ w'.service.origin = .xds ∧
      w'.service.serving = true := by
  obtain ⟨w₁, hw₁, hconfig, hsame⟩ := (h.alikeStaged key).2 w hw
  obtain ⟨-, -, -, hchain, horigin⟩ := h.isStaged.staged key w hw
  refine ⟨w₁.onService (·.setListenerActive true), by rw [lookup_commit, hw₁]; rfl, hconfig, ?_, ?_,
    ?_⟩
  · change (w₁.service.setListenerActive true).chain = _
    rw [(Service.same_setListenerActive true).chain, hsame.chain, hchain]
  · change (w₁.service.setListenerActive true).origin = _
    rw [(Service.same_setListenerActive true).origin, hsame.origin, horigin]
  · exact Service.serving_setListenerActive.trans (h.accepting key w₁ hw₁)

theorem sublist_map_filterMap {α β γ : Type*} {f : α → Option β} {g : β → γ} {key : α → γ}
    {l : List α}
    (h : ∀ a b, f a = some b → g b = key a) : ((l.filterMap f).map g).Sublist (l.map key) := by
  induction l with
  | nil => exact .slnil
  | cons a l ih =>
    cases hf : f a with
    | none =>
      rw [List.filterMap_cons_none hf]
      exact ih.cons _
    | some b =>
      rw [List.filterMap_cons_some hf, List.map_cons, List.map_cons, h a b hf]
      exact ih.cons_cons _

theorem Ready.installed (h : Ready lm st listeners active staged) :
    Installed lm listeners (lm.commit st active staged) where
  owned := h.covers.newManaged
  requested := by
    intro config hconfig
    rcases h.covers.requested config hconfig with ⟨target, htarget, hkey, rfl⟩ | ⟨w, hw, rfl⟩
    · obtain ⟨w, hw, hlookup⟩ := h.lookup_refresh htarget
      have howned := (h.isStaged.refreshes target htarget).2.1
      rw [hkey] at hw hlookup howned
      exact ⟨_, hlookup, rfl, rfl, .inr ⟨w, hw, howned, rfl⟩⟩
    · obtain ⟨w', hlookup, hconfig', hchain, horigin, -⟩ := h.lookup_staged hw
      exact ⟨w', hlookup, hconfig', hchain, .inl horigin⟩
  others := by
    intro key w hw howned
    have hstaged := h.staged_eq_none (.inl ⟨w, hw⟩)
    have hrefresh : key ∉ st.refreshes.map RefreshTarget.key := by
      intro hmem
      obtain ⟨target, htarget, rfl⟩ := List.mem_map.1 hmem
      exact howned (h.isStaged.refreshes target htarget).2.1
    rw [lookup_commit, hstaged, Option.map_none, Option.none_or,
      Ready.lookup_refreshed_of_notMem hrefresh,
      if_pos (.inl howned), h.untouched key (.inl howned), hw]
  nothingElse := by
    intro key w hw
    rw [lookup_commit] at hw
    by_cases hnew : key ∈ st.newManaged
    · exact .inl ((h.covers.newManaged key).1 hnew)
    -- a key that is not requested is neither staged nor refreshed
    have hstaged := h.staged_eq_none (.inr hnew)
    have hrefresh : key ∉ st.refreshes.map RefreshTarget.key := by
      intro hmem
      obtain ⟨target, htarget, rfl⟩ := List.mem_map.1 hmem
      exact hnew (h.isStaged.refreshes target htarget).1
    rw [hstaged, Option.map_none, Option.none_or, Ready.lookup_refreshed_of_notMem hrefresh] at hw
    split_ifs at hw with howned
    have howned : key ∉ lm.xdsManaged := howned.resolve_right hnew
    rw [h.untouched key (.inl howned)] at hw
    exact .inr ⟨hw, howned⟩
  removed := by
    intro key w hw howned hrequested
    have hnew : key ∉ st.newManaged := fun hnew => hrequested ((h.covers.newManaged key).1 hnew)
    obtain ⟨w₁, hw₁, -, hsame⟩ := (h.alike key).2 w hw
    refine ⟨w₁.onService fun s => (s.setListenerActive false).close, ?_, ?_⟩
    · change ((active.filter _).lookup key).map _ = _
      rw [FinMap.lookup_filter, hw₁]
      simp [howned, hnew]
    · change (w₁.service.setListenerActive false).closes + 1 = _
      rw [(Service.same_setListenerActive false).closes, hsame.closes]
  retired := by
    rintro key w hw ⟨config, hconfig, rfl⟩
    rcases h.covers.requested config hconfig with ⟨target, htarget, hkey, rfl⟩ | ⟨w₀, hw₀, rfl⟩
    · have hnew := (h.isStaged.refreshes target htarget).1
      refine List.mem_filterMap.2 ⟨target, htarget, ?_⟩
      rw [h.untouched target.key (.inr hnew), hkey, hw]
      rfl
    · rw [(h.isStaged.staged _ w₀ hw₀).2.1] at hw
      cases hw
  retiredOnce := by
    refine List.Nodup.sublist (sublist_map_filterMap fun target chain hchain => ?_) h.isStaged.nodup
    obtain ⟨w, -, rfl⟩ := Option.map_eq_some_iff.1 hchain
    rfl

/-- After a successful call, the requested listeners serve exactly if those that were there did
before. -/
theorem Ready.serving_iff (h : Ready lm st listeners active staged) :
    (∀ config, some config ∈ listeners →
      ∀ w, (lm.commit st active staged).manager.activeListenerService.lookup
        (resolveListenerName config) = some w → w.service.serving = true) ↔
      ∀ config, some config ∈ listeners → ∀ w,
        lm.activeListenerService.lookup (resolveListenerName config) = some w →
        w.service.serving = true := by
  constructor
  · intro hserving config hconfig w hw
    rcases h.covers.requested config hconfig with ⟨target, htarget, hkey, rfl⟩ | ⟨w₀, hw₀, rfl⟩
    · obtain ⟨w', hw', hlookup⟩ := h.lookup_refresh htarget
      rw [hkey] at hw' hlookup
      obtain rfl := Option.some.inj (hw'.symm.trans hw)
      have hserves := hserving target.next hconfig _ hlookup
      exact hserves
    · rw [(h.isStaged.staged _ w₀ hw₀).2.1] at hw
      cases hw
  · intro hserving config hconfig w hw
    rcases h.covers.requested config hconfig with ⟨target, htarget, hkey, rfl⟩ | ⟨w₀, hw₀, rfl⟩
    · obtain ⟨w', hw', hlookup⟩ := h.lookup_refresh htarget
      rw [hkey] at hw' hlookup
      obtain rfl := Option.some.inj (hlookup.symm.trans hw)
      exact hserving target.next hconfig w' hw'
    · obtain ⟨w', hlookup, -, -, -, hserving'⟩ := h.lookup_staged hw₀
      obtain rfl := Option.some.inj (hlookup.symm.trans hw)
      exact hserving'

variable {handoffs : FinMap String String}

/-- Only listeners that hand their socket over are closed for it. -/
theorem notMem_closed (hfrom : HandoffsFrom lm st handoffs) {h : Handing}
    {cause : Option HandoffError}
    (hover :
    handOverAll b handoffs ⟨lm.activeListenerService, staged, []⟩ (handoffs.keys.sort (· ≤ ·)) =
      (h, cause))
    {key : String} (hkey : key ∉ lm.xdsManaged ∨ key ∈ st.newManaged) : key ∉ h.closed := by
  intro hclosed
  rw [← congrArg (fun p => p.1.closed) hover] at hclosed
  rcases mem_closed_handOverAll hclosed with hnil | hmem
  · cases hnil
  · rw [Finset.mem_sort, handoffs.mem_keys, Option.isSome_iff_exists] at hmem
    obtain ⟨newKey, hlookup⟩ := hmem
    obtain ⟨howned, hnew, -⟩ := hfrom key newKey hlookup
    rcases hkey with hkey | hkey
    · exact hkey howned
    · exact hnew hkey

theorem handedOver_of_eq {h h' : Handing} {keys : List String} {cause : Option HandoffError}
    (hover : handOverAll b handoffs h keys = (h', cause)) : HandedOver h h' := by
  have hhanded : HandedOver h (handOverAll b handoffs h keys).1 := handedOver_handOverAll
  rwa [hover] at hhanded

theorem ready_of_handOverAll (hst : Staged lm st) (hcovers : Covers st listeners)
    (hfrom : HandoffsFrom lm st handoffs) (halike : Alike st.staged staged)
    (hstarted : ∀ key w, isHandoffNew handoffs key = false → staged.lookup key = some w →
      w.service.accepting = true)
    {h : Handing}
    (hover :
    handOverAll b handoffs ⟨lm.activeListenerService, staged, []⟩ (handoffs.keys.sort (· ≤ ·)) =
      (h, none)) :
    Ready lm st listeners h.active h.staged := by
  have hhanded := handedOver_of_eq hover
  refine ⟨hst, hcovers, hhanded.active, fun key hkey => ?_, halike.trans hhanded.staged,
    fun key w hw => ?_⟩
  · exact hhanded.untouched key (notMem_closed hfrom hover hkey)
  · rw [← congrArg (fun p => p.1.staged.lookup key) hover] at hw
    refine accepting_of_handOverAll (congrArg Prod.snd hover) ?_ hw
    cases hnew : isHandoffNew handoffs key with
    | true =>
      obtain ⟨oldKey, hlookup⟩ := isHandoffNew_iff.1 hnew
      refine .inl ⟨oldKey, ?_, by rw [hlookup]; rfl⟩
      rw [Finset.mem_sort, handoffs.mem_keys, hlookup]
      rfl
    | false => exact .inr fun w₁ hw₁ => hstarted key w₁ hnew hw₁

/-- A call that fails during the hand-over is undone. -/
theorem rejected_rollback (hst : Staged lm st) (hfrom : HandoffsFrom lm st handoffs)
    (halike : Alike st.staged staged) {h : Handing} {cause : HandoffError}
    (hover :
    handOverAll b handoffs ⟨lm.activeListenerService, staged, []⟩ (handoffs.keys.sort (· ≤ ·)) =
      (h, some cause)) :
    Rejected lm
      (lm.reject st (rollbackHandoffs b handoffs orders h cause).1.active
        (rollbackHandoffs b handoffs orders h cause).1.staged
          (rollbackHandoffs b handoffs orders h cause).2)
      (rollbackHandoffs b handoffs orders h cause).2 := by
  have hhanded := handedOver_of_eq hover
  have hactive : Alike lm.activeListenerService
      (rollbackHandoffs b handoffs orders h cause).1.active :=
    hhanded.active.trans alike_rollbackHandoffs_active
  refine rejected_reject hst hactive
    ((halike.trans hhanded.staged).trans alike_rollbackHandoffs_staged) ?_ ?_
  · intro key w hw
    obtain ⟨w', hw', -⟩ := (hactive key).2 w hw
    refine ⟨w', hw', ?_⟩
    by_cases hclosed : key ∈ h.closed
    · exact .inr (serving_of_rollbackHandoffs hclosed hw')
    · rw [rollbackHandoffs_of_notMem hclosed, hhanded.untouched key hclosed, hw] at hw'
      exact .inl (Option.some.inj hw').symm
  · intro key howned
    have hclosed := notMem_closed hfrom hover (.inl howned)
    rw [rollbackHandoffs_of_notMem hclosed, hhanded.untouched key hclosed]

/-- The part of a call under the gate ends rejected, or with the commit of what is ready. -/
theorem publish_ends (hst : Staged lm st) (hcovers : Covers st listeners)
    (hfrom : HandoffsFrom lm st handoffs) :
    (∃ err, (lm.publish orders b st handoffs).result = .error err ∧
      Rejected lm (lm.publish orders b st handoffs) err) ∨
    ∃ st' active staged, Ready lm st' listeners active staged ∧
      lm.publish orders b st handoffs = lm.commit st' active staged := by
  have halike :
      Alike st.staged (startStaged b handoffs st.staged (orders.start.list st.staged.keys)).1 :=
    alike_startStaged
  have hstarted : (startStaged b handoffs st.staged (orders.start.list st.staged.keys)).2 = none →
      ∀ key w, isHandoffNew handoffs key = false →
        (startStaged b handoffs st.staged (orders.start.list st.staged.keys)).1.lookup key =
          some w →
        w.service.accepting = true := by
    intro hnone key w hnew hw
    refine accepting_of_startStaged (orders.start.nodup _) hnone ?_ hnew hw
    obtain ⟨w₀, hw₀, -⟩ := halike.exists_of_lookup hw
    rw [orders.start.mem_list, FinMap.mem_keys, hw₀]
    rfl
  rw [ListenerManager.publish]
  cases hstart : startStaged b handoffs st.staged (orders.start.list st.staged.keys) with
  | mk staged err =>
    rw [hstart] at halike hstarted
    cases err with
    | some err => exact .inl ⟨err, rfl, rejected_untouched hst halike⟩
    | none =>
      simp only
      cases hover : handOverAll b handoffs ⟨lm.activeListenerService, staged, []⟩
        (handoffs.keys.sort (· ≤ ·)) with
      | mk h cause =>
        cases cause with
        | some cause => exact .inl ⟨_, rfl, rejected_rollback hst hfrom halike hover⟩
        | none =>
          exact .inr ⟨st, _, _, ready_of_handOverAll hst hcovers hfrom halike (hstarted rfl) hover,
            rfl⟩

/-- A call ends in one of two ways: rejected, or with the commit of what is ready. -/
theorem replaceXDSListeners_ends (lm : ListenerManager) (orders : Orders) (b : Behaviour)
    (listeners : List (Option Listener)) :
    (∃ err, (lm.replaceXDSListeners orders b listeners).result = .error err ∧
      Rejected lm (lm.replaceXDSListeners orders b listeners) err) ∨
    ∃ st active staged, Ready lm st listeners active staged ∧
      lm.replaceXDSListeners orders b listeners = lm.commit st active staged := by
  have hst : Staged lm (lm.stageListeners b ⟨∅, .empty, []⟩ listeners).1 :=
    staged_stageListeners staged_start
  have hcovers : (lm.stageListeners b ⟨∅, .empty, []⟩ listeners).2 = none →
      Covers (lm.stageListeners b ⟨∅, .empty, []⟩ listeners).1 listeners :=
    fun hnone => covers_stageListeners staged_start covers_start hnone
  rw [ListenerManager.replaceXDSListeners]
  cases hstage : lm.stageListeners b ⟨∅, .empty, []⟩ listeners with
  | mk st err =>
    rw [hstage] at hst hcovers
    cases err with
    | some err => exact .inl ⟨err, rfl, rejected_untouched hst .refl⟩
    | none =>
      simp only
      cases hfind : lm.findHandoffs orders st with
      | error err => exact .inl ⟨err, rfl, rejected_untouched hst .refl⟩
      | ok handoffs => exact publish_ends hst (hcovers rfl) (handoffsFrom_findHandoffs hfind)

/-- Every call either fails and leaves things as they were, or succeeds and installs exactly the
requested listeners; then they serve exactly if those of them that were there before the call
served. -/
theorem replaceXDSListeners_all_or_nothing (lm : ListenerManager) (orders : Orders) (b : Behaviour)
    (listeners : List (Option Listener)) :
    (∀ err, (lm.replaceXDSListeners orders b listeners).result = .error err →
      Rejected lm (lm.replaceXDSListeners orders b listeners) err) ∧
    ((lm.replaceXDSListeners orders b listeners).result = .ok () →
      Installed lm listeners (lm.replaceXDSListeners orders b listeners) ∧
      ((∀ config, some config ∈ listeners →
          ∀ w, (lm.replaceXDSListeners orders b listeners).manager.activeListenerService.lookup
            (resolveListenerName config) = some w → w.service.serving = true) ↔
        ∀ config, some config ∈ listeners →
          ∀ w, lm.activeListenerService.lookup (resolveListenerName config) = some w →
            w.service.serving = true)) := by
  rcases replaceXDSListeners_ends lm orders b listeners with ⟨err, hresult, hrejected⟩ |
    ⟨st, active, staged, hready, heq⟩
  · refine ⟨fun err' herr => ?_, fun hok => ?_⟩
    · obtain rfl := Except.error.inj (hresult.symm.trans herr)
      exact hrejected
    · rw [hresult] at hok
      cases hok
  · rw [heq]
    exact ⟨nofun, fun _ => ⟨hready.installed, hready.serving_iff⟩⟩

end Call

/-! ## A listener that stays down -/

namespace Sample

/-- Every map is ranged over by key. -/
def sortedOrders : Orders := ⟨sorted, fun _ => sorted, sorted, sorted, sorted⟩

/-- A listener for HTTP/1. -/
def httpListener : Listener := ⟨"http", "0.0.0.0", 80, "HTTP", .http, ""⟩

/-- The same port for HTTP/2. -/
def http2Listener : Listener := ⟨"http2", "0.0.0.0", 80, "HTTP2", .http2, ""⟩

/-- A service that can do everything. -/
def allCapabilities : Capabilities := ⟨true, true, true⟩

/-- One HTTP listener of xDS that serves. -/
def oneListener : ListenerManager where
  activeListenerService := FinMap.empty.insert (resolveListenerName httpListener)
    ⟨httpListener, (Service.create .xds allCapabilities httpListener).start .done⟩
  xdsManaged := {resolveListenerName httpListener}

/-- Everything works. -/
def willing : Behaviour where
  prepare _ := true
  create _ := some allCapabilities
  start _ := .done
  stopOld _ := .done
  startNew _ := .done
  stopNew _ := .done
  restore _ := .done

/-- The new listener of a hand-over cannot be started, and then the old one neither. -/
def portLost : Behaviour := { willing with startNew _ := .failed false, restore _ := .failed false }

end Sample

open Sample

/-- The hand-over of the HTTP listener fails, and it cannot be restored.  A second call that asks
for the same HTTP listener succeeds, and the listener still does not serve. -/
theorem refreshed_listener_stays_down :
    ∃ lm, lm =
      (oneListener.replaceXDSListeners sortedOrders portLost [some http2Listener]).manager ∧
      (lm.replaceXDSListeners sortedOrders willing [some httpListener]).result = .ok () ∧
      ∃ w,
      (lm.replaceXDSListeners sortedOrders willing
        [some httpListener]).manager.activeListenerService.lookup
          (resolveListenerName httpListener) = some w ∧ w.service.serving = false := by
  refine ⟨_, rfl, by decide +kernel, ?_⟩
  have hdown : (((oneListener.replaceXDSListeners sortedOrders portLost
      [some http2Listener]).manager.replaceXDSListeners sortedOrders willing
        [some httpListener]).manager.activeListenerService.lookup
        (resolveListenerName httpListener)).map
          (fun w => w.service.serving) = some false := by decide +kernel
  exact Option.map_eq_some_iff.1 hdown

end Pixiu.Server
