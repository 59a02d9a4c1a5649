import Pixiu.Server.Transaction

/-!
# Who owns a listener

The six operations of the listener manager.  `xdsManaged` is a table beside the listener table: the
operations of xDS keep it, `AddListener` and `RemoveListener` do not look at it.

`listener_ownership`: in a run, the managed keys are at all times exactly the listeners that xDS has
created if and only if no listener is added or removed under a key that is managed.  Then no
operation of xDS touches a listener that it did not create.
-/

namespace Pixiu.Server

/-- How a refresh ends; one that fails may have replaced the filter chain already. -/
inductive RefreshOutcome where
  | done
  | failed (replaced : Bool)
  deriving DecidableEq, Repr

/-- The calls, with the outcomes of the services they use: the capabilities of a service that could
be created, how its start ends, how a refresh ends. -/
inductive ManagerCall where
  | addListener (config : Listener) (created : Option Capabilities) (started : Outcome)
  | updateListener (config : Option Listener) (refresh : RefreshOutcome)
  | removeListener (names : List String)
  | upsertXDSListener (config : Option Listener) (refresh : RefreshOutcome)
      (created : Option Capabilities)
      (started : Outcome)
  | replaceXDSListeners (listeners : List (Option Listener)) (orders : Orders) (b : Behaviour)
  | removeXDSListeners (names : List String)

/-- The operations that work on behalf of xDS. -/
def ManagerCall.isXDS : ManagerCall → Bool
  | .upsertXDSListener .. | .replaceXDSListeners .. | .removeXDSListeners .. => true
  | _ => false

/-- The filter chain after a refresh. -/
def Service.refresh (s : Service) (config : Listener) : RefreshOutcome → Service
  | .done | .failed true => { s with chain := ⟨config, 0⟩ }
  | .failed false => s

theorem Service.origin_refresh {s : Service} {config : Listener} (outcome : RefreshOutcome) :
    (s.refresh config outcome).origin = s.origin := by
  rcases outcome with _ | (_ | _) <;> rfl

namespace ListenerManager

/-- The static listeners whose service can be created; the later one of two with the same key
counts. -/
def createDefaultListenerManager (statics : List (Listener × Option Capabilities)) :
    ListenerManager where
  activeListenerService := statics.foldl (fun listeners static =>
    match static.2 with
    | none => listeners
    | some capabilities =>
      listeners.insert (resolveListenerName static.1)
        ⟨static.1, Service.create .static capabilities static.1⟩) .empty
  xdsManaged := ∅

variable (lm : ListenerManager)

/-- `AddListener`. -/
def addListener (config : Listener) (created : Option Capabilities) (started : Outcome) :
    ListenerManager :=
  match created with
  | none => lm
  | some capabilities => { lm with
    activeListenerService := lm.activeListenerService.insert (resolveListenerName config)
      ⟨config, (Service.create .static capabilities config).start started⟩ }

/-- The new config is recorded before the refresh, and stays when that fails. -/
def updateListener (config : Option Listener) (refresh : RefreshOutcome) : ListenerManager :=
  match config with
  | none => lm
  | some config => { lm with
    activeListenerService := lm.activeListenerService.modify (resolveListenerName config) fun w =>
      ⟨config, w.service.refresh config refresh⟩ }

/-- The services are closed, and the names leave the table whether that fails or not. -/
def removeListener (names : List String) : ListenerManager :=
  { lm with activeListenerService := lm.activeListenerService.filter fun key => key ∉ names }

/-- `UpsertXDSListener`. -/
def upsertXDSListener (config : Option Listener) (refresh : RefreshOutcome)
    (created : Option Capabilities)
    (started : Outcome) : ListenerManager :=
  match config with
  | none => lm
  | some config =>
    let key := resolveListenerName config
    match lm.activeListenerService.lookup key with
    | some active =>
      if key ∉ lm.xdsManaged then lm
      else
        let service := active.service.refresh config refresh
        -- the config is recorded only after a refresh that succeeds
        { lm with
          activeListenerService := lm.activeListenerService.insert key
            (if refresh = .done then ⟨config, service⟩ else ⟨active.config, service⟩) }
    | none =>
      match created with
      | none => lm
      | some capabilities =>
        if started.isFailed then lm
        else
          let service :=
            ((Service.create .xds capabilities config).setListenerActive false).start started
          { activeListenerService :=
              lm.activeListenerService.insert key ⟨config, service.setListenerActive true⟩
            xdsManaged := insert key lm.xdsManaged }

/-- `RemoveXDSListeners`. -/
def removeXDSListeners (names : List String) : ListenerManager where
  activeListenerService :=
    lm.activeListenerService.filter fun key => !(key ∈ names && key ∈ lm.xdsManaged)
  xdsManaged := lm.xdsManaged.filter (· ∉ names)

/-- One call. -/
def step : ManagerCall → ListenerManager
  | .addListener config created started => lm.addListener config created started
  | .updateListener config refresh => lm.updateListener config refresh
  | .removeListener names => lm.removeListener names
  | .upsertXDSListener config refresh created started =>
    lm.upsertXDSListener config refresh created started
  | .replaceXDSListeners listeners orders b => (lm.replaceXDSListeners orders b listeners).manager
  | .removeXDSListeners names => lm.removeXDSListeners names

/-- The state after some calls. -/
def run (calls : List ManagerCall) : ListenerManager := calls.foldl step lm

/-- The managed keys are exactly the active listeners that xDS has created. -/
def Owned : Prop :=
  ∀ key, key ∈ lm.xdsManaged ↔ ∃ w, lm.activeListenerService.lookup key = some w ∧
    w.service.origin = .xds

/-- The call neither adds nor removes a listener under a managed key. -/
def Respects : ManagerCall → Prop
  | .addListener config created _ => created.isSome → resolveListenerName config ∉ lm.xdsManaged
  | .removeListener names => ∀ name ∈ names, name ∉ lm.xdsManaged
  | _ => True

variable {lm}

theorem owned_iff_of_lookup {lm' : ListenerManager} {key : String}
    (h : lm'.activeListenerService.lookup key = lm.activeListenerService.lookup key)
    (hmanaged : key ∈ lm'.xdsManaged ↔ key ∈ lm.xdsManaged) (howned : lm.Owned) :
    key ∈ lm'.xdsManaged ↔ ∃ w, lm'.activeListenerService.lookup key = some w ∧
      w.service.origin = .xds := by
  rw [hmanaged, h, howned key]

/-- A static listener is not managed. -/
theorem Owned.notMem (h : lm.Owned) {key : String} {w : WrapListenerService}
    (hw : lm.activeListenerService.lookup key = some w) (hstatic : w.service.origin = .static) :
    key ∉ lm.xdsManaged := by
  intro hmem
  obtain ⟨w', hw', horigin⟩ := (h key).1 hmem
  obtain rfl := Option.some.inj (hw.symm.trans hw')
  rw [hstatic] at horigin
  cases horigin

/-! ## One call -/

theorem owned_addListener (h : lm.Owned) {config : Listener} {created : Option Capabilities}
    {started : Outcome} :
    (lm.addListener config created started).Owned ↔
      (created.isSome → resolveListenerName config ∉ lm.xdsManaged) := by
  cases created with
  | none => exact ⟨fun _ hsome => Bool.noConfusion hsome, fun _ => h⟩
  | some capabilities =>
    have horigin : ((Service.create .static capabilities config).start started).origin = .static :=
      (Service.same_start started).origin
    refine ⟨fun howned _ => howned.notMem FinMap.lookup_insert_self horigin, fun hnew key => ?_⟩
    rcases eq_or_ne key (resolveListenerName config) with rfl | hne
    · refine iff_of_false (hnew rfl) ?_
      rintro ⟨w, hw, hxds⟩
      obtain rfl := Option.some.inj (FinMap.lookup_insert_self.symm.trans hw)
      rw [horigin] at hxds
      cases hxds
    · exact owned_iff_of_lookup (FinMap.lookup_insert_of_ne hne) Iff.rfl h

theorem owned_updateListener (h : lm.Owned) {config : Option Listener} {refresh : RefreshOutcome} :
    (lm.updateListener config refresh).Owned := by
  cases config with
  | none => exact h
  | some config =>
    intro key
    change key ∈ lm.xdsManaged ↔ ∃ w, (lm.activeListenerService.modify _ _).lookup key = some w ∧ _
    rw [h key, FinMap.lookup_modify]
    split_ifs with hkey
    · subst hkey
      constructor
      · rintro ⟨w, hw, horigin⟩
        exact ⟨_, by rw [hw]; rfl, by rw [Service.origin_refresh, horigin]⟩
      · rintro ⟨w', hw', horigin⟩
        obtain ⟨w, hw, rfl⟩ := Option.map_eq_some_iff.1 hw'
        rw [Service.origin_refresh] at horigin
        exact ⟨w, hw, horigin⟩
    · rfl

theorem owned_removeListener (h : lm.Owned) {names : List String} :
    (lm.removeListener names).Owned ↔ ∀ name ∈ names, name ∉ lm.xdsManaged := by
  have hlookup : ∀ key, (lm.removeListener names).activeListenerService.lookup key =
      if key ∉ names then lm.activeListenerService.lookup key else none := by
    intro key
    rw [removeListener, FinMap.lookup_filter]
    simp
  constructor
  · intro howned name hname hmanaged
    obtain ⟨w, hw, -⟩ := (howned name).1 hmanaged
    rw [hlookup, if_neg (not_not.2 hname)] at hw
    cases hw
  · intro hnames key
    by_cases hkey : key ∈ names
    · refine iff_of_false (hnames key hkey) ?_
      rintro ⟨w, hw, -⟩
      rw [hlookup, if_neg (not_not.2 hkey)] at hw
      cases hw
    · have hsame := (hlookup key).trans (if_pos hkey)
      exact owned_iff_of_lookup hsame Iff.rfl h

/-- What an upsert does: nothing, a refresh of a listener that is managed, or a new listener under a
free key. -/
inductive Upserts (lm : ListenerManager) : ListenerManager → Prop
  | same : Upserts lm lm
  | refresh {key : String} {w w' : WrapListenerService}
      (hw : lm.activeListenerService.lookup key = some w)
      (hmanaged : key ∈ lm.xdsManaged) (horigin : w'.service.origin = w.service.origin) :
      Upserts lm { lm with activeListenerService := lm.activeListenerService.insert key w' }
  | create {key : String} {w : WrapListenerService}
      (hnone : lm.activeListenerService.lookup key = none)
      (horigin : w.service.origin = .xds) :
      Upserts lm ⟨lm.activeListenerService.insert key w, insert key lm.xdsManaged⟩

theorem upsertXDSListener_upserts (config : Option Listener) (refresh : RefreshOutcome)
    (created : Option Capabilities) (started : Outcome) :
    Upserts lm (lm.upsertXDSListener config refresh created started) := by
  cases config with
  | none => exact .same
  | some config =>
    rw [upsertXDSListener.eq_def]
    simp only
    cases hw : lm.activeListenerService.lookup (resolveListenerName config) with
    | some active =>
      simp only
      by_cases hmanaged : resolveListenerName config ∈ lm.xdsManaged
      · simp only [hmanaged, not_true_eq_false, if_false]
        refine .refresh hw hmanaged ?_
        split_ifs <;> exact Service.origin_refresh _
      · simp only [hmanaged, not_false_eq_true, if_true]
        exact .same
    | none =>
      simp only
      cases created with
      | none => exact .same
      | some capabilities =>
        simp only
        split_ifs
        · exact .same
        · refine .create hw ?_
          change (Service.setListenerActive _ true).origin = _
          rw [(Service.same_setListenerActive _).origin, (Service.same_start _).origin,
            (Service.same_setListenerActive _).origin]
          rfl

theorem Upserts.owned {lm' : ListenerManager} (hupserts : Upserts lm lm') (h : lm.Owned) :
    lm'.Owned := by
  cases hupserts with
  | same => exact h
  | @refresh key w w' hw hmanaged horigin =>
    intro key'
    rcases eq_or_ne key' key with rfl | hne
    · refine iff_of_true hmanaged ⟨w', FinMap.lookup_insert_self, ?_⟩
      obtain ⟨w₀, hw₀, hxds⟩ := (h key').1 hmanaged
      obtain rfl := Option.some.inj (hw.symm.trans hw₀)
      rw [horigin, hxds]
    · exact owned_iff_of_lookup (FinMap.lookup_insert_of_ne hne) Iff.rfl h
  | @create key w hnone horigin =>
    intro key'
    rcases eq_or_ne key' key with rfl | hne
    · exact iff_of_true (Finset.mem_insert_self ..) ⟨w, FinMap.lookup_insert_self, horigin⟩
    · exact owned_iff_of_lookup (FinMap.lookup_insert_of_ne hne)
        (Finset.mem_insert.trans (or_iff_right hne)) h

theorem owned_replaceXDSListeners (h : lm.Owned) {listeners : List (Option Listener)}
    {orders : Orders}
    {b : Behaviour} : (lm.replaceXDSListeners orders b listeners).manager.Owned := by
  intro key
  rcases replaceXDSListeners_ends lm orders b listeners with ⟨err, -, hrejected⟩ |
    ⟨st, active, staged, hready, heq⟩
  · rw [hrejected.owned, h key]
    constructor
    · rintro ⟨w, hw, horigin⟩
      obtain ⟨w', hw', -, hsame⟩ := (hrejected.table key).2 w hw
      exact ⟨w', hw', by rw [hsame.origin, horigin]⟩
    · rintro ⟨w', hw', horigin⟩
      obtain ⟨w, hw, -, hsame⟩ := hrejected.table.exists_of_lookup hw'
      exact ⟨w, hw, by rw [← hsame.origin, horigin]⟩
  · have hinstalled := hready.installed
    rw [heq, hinstalled.owned]
    constructor
    · rintro ⟨config, hconfig, rfl⟩
      obtain ⟨w, hw, -, -, horigin⟩ := hinstalled.requested config hconfig
      refine ⟨w, hw, ?_⟩
      rcases horigin with horigin | ⟨w₀, hw₀, hmanaged, horigin⟩
      · exact horigin
      · obtain ⟨w₁, hw₁, hxds⟩ := (h _).1 hmanaged
        obtain rfl := Option.some.inj (hw₀.symm.trans hw₁)
        rw [horigin, hxds]
    · rintro ⟨w, hw, hxds⟩
      rcases hinstalled.nothingElse key w hw with hrequested | ⟨hw', hmanaged⟩
      · exact hrequested
      · exact absurd ((h key).2 ⟨w, hw', hxds⟩) hmanaged

theorem lookup_removeXDSListeners {names : List String} {key : String} :
    (lm.removeXDSListeners names).activeListenerService.lookup key =
      if key ∈ names ∧ key ∈ lm.xdsManaged then none else lm.activeListenerService.lookup key := by
  rw [removeXDSListeners, FinMap.lookup_filter]
  by_cases hkey : key ∈ names ∧ key ∈ lm.xdsManaged
  · simp [hkey]
  · have hkept : key ∉ names ∨ key ∉ lm.xdsManaged := not_and_or.1 hkey
    rw [if_neg hkey, if_pos]
    simpa using hkept

theorem owned_removeXDSListeners (h : lm.Owned) {names : List String} :
    (lm.removeXDSListeners names).Owned := by
  intro key
  have hmanaged : key ∈ (lm.removeXDSListeners names).xdsManaged ↔ key ∈ lm.xdsManaged ∧
      key ∉ names :=
    Finset.mem_filter
  by_cases hkey : key ∈ names ∧ key ∈ lm.xdsManaged
  · refine iff_of_false (fun hmem => (hmanaged.1 hmem).2 hkey.1) ?_
    rintro ⟨w, hw, -⟩
    rw [lookup_removeXDSListeners, if_pos hkey] at hw
    cases hw
  · refine owned_iff_of_lookup (by rw [lookup_removeXDSListeners, if_neg hkey]) ?_ h
    rw [hmanaged]
    exact ⟨And.left, fun hmem => ⟨hmem, fun hname => hkey ⟨hname, hmem⟩⟩⟩

/-- Where the managed keys are the listeners of xDS, a call keeps this exactly if it respects
them. -/
theorem owned_step_iff (h : lm.Owned) (call : ManagerCall) : (lm.step call).Owned ↔
    lm.Respects call := by
  cases call with
  | addListener config created started => exact owned_addListener h
  | updateListener config refresh => exact iff_of_true (owned_updateListener h) trivial
  | removeListener names => exact owned_removeListener h
  | upsertXDSListener config refresh created started =>
    exact iff_of_true ((upsertXDSListener_upserts config refresh created started).owned h) trivial
  | replaceXDSListeners listeners orders b =>
    exact iff_of_true (owned_replaceXDSListeners h) trivial
  | removeXDSListeners names => exact iff_of_true (owned_removeXDSListeners h) trivial

/-- An operation of xDS does not touch the listeners that xDS has not created. -/
theorem static_untouched (h : lm.Owned) {call : ManagerCall} (hxds : call.isXDS = true)
    {key : String}
    {w : WrapListenerService} (hw : lm.activeListenerService.lookup key = some w)
    (hstatic : w.service.origin = .static) :
    (lm.step call).activeListenerService.lookup key = some w := by
  have hmanaged := h.notMem hw hstatic
  cases call with
  | addListener | updateListener | removeListener => cases hxds
  | upsertXDSListener config refresh created started =>
    change (lm.upsertXDSListener config refresh created started).activeListenerService.lookup key =
      some w
    generalize hupsert : lm.upsertXDSListener config refresh created started = lm'
    have hupserts : Upserts lm lm' :=
      hupsert ▸ upsertXDSListener_upserts config refresh created started
    cases hupserts with
    | same => exact hw
    | @refresh key' w₀ w' hw₀ hmanaged' horigin =>
      have hne : key ≠ key' := fun heq => hmanaged (heq ▸ hmanaged')
      exact (FinMap.lookup_insert_of_ne hne).trans hw
    | @create key' w' hnone horigin =>
      have hne : key ≠ key' := by
        rintro rfl
        rw [hnone] at hw
        cases hw
      exact (FinMap.lookup_insert_of_ne hne).trans hw
  | replaceXDSListeners listeners orders b =>
    change (lm.replaceXDSListeners orders b listeners).manager.activeListenerService.lookup key =
      some w
    rcases replaceXDSListeners_ends lm orders b listeners with ⟨err, -, hrejected⟩ |
      ⟨st, active, staged, hready, heq⟩
    · rw [hrejected.others key hmanaged, hw]
    · rw [heq]
      exact hready.installed.others key w hw hmanaged
  | removeXDSListeners names =>
    change (lm.removeXDSListeners names).activeListenerService.lookup key = some w
    rw [lookup_removeXDSListeners, if_neg fun hkey => hmanaged hkey.2, hw]

/-! ## Whole runs -/

theorem static_createDefaultListenerManager (statics : List (Listener × Option Capabilities)) :
    ∀ key w, (createDefaultListenerManager statics).activeListenerService.lookup key = some w →
      w.service.origin = .static := by
  induction statics using List.reverseRecOn with
  | nil => intro key w hw; cases hw
  | append_singleton statics static ih =>
    intro key w hw
    rw [createDefaultListenerManager, List.foldl_append, List.foldl_cons, List.foldl_nil] at hw
    obtain ⟨config, _ | capabilities⟩ := static
    · exact ih key w hw
    · simp only [FinMap.lookup_insert] at hw
      split_ifs at hw
      · obtain rfl := Option.some.inj hw
        rfl
      · exact ih key w hw

theorem owned_createDefaultListenerManager (statics : List (Listener × Option Capabilities)) :
    (createDefaultListenerManager statics).Owned := by
  intro key
  refine iff_of_false (Finset.notMem_empty _) ?_
  rintro ⟨w, hw, hxds⟩
  rw [static_createDefaultListenerManager statics key w hw] at hxds
  cases hxds

theorem run_append_singleton (calls : List ManagerCall) (call : ManagerCall) :
    lm.run (calls ++ [call]) = (lm.run calls).step call := by
  rw [run, List.foldl_append]
  rfl

theorem owned_run (h : lm.Owned) {calls : List ManagerCall}
    (hrespects : ∀ before call after, calls = before ++ call :: after →
      (lm.run before).Respects call) :
    (lm.run calls).Owned := by
  induction calls using List.reverseRecOn with
  | nil => exact h
  | append_singleton calls call ih =>
    rw [run_append_singleton, owned_step_iff]
    · exact hrespects calls call [] rfl
    · exact ih fun before call' after hsplit => hrespects before call' (after ++ [call])
        (by rw [hsplit]; simp)

/-- In a run from the static listeners, the managed keys are in every state exactly the active
listeners that xDS has created if and only if no call adds or removes a listener under a key that is
managed then.  In such a run no operation of xDS touches a listener that xDS has not created. -/
theorem listener_ownership (statics : List (Listener × Option Capabilities))
    (calls : List ManagerCall) :
    ((∀ before after, calls = before ++ after →
      ((createDefaultListenerManager statics).run before).Owned) ↔
      ∀ before call after, calls = before ++ call :: after →
        ((createDefaultListenerManager statics).run before).Respects call) ∧
    ((∀ before call after, calls = before ++ call :: after →
        ((createDefaultListenerManager statics).run before).Respects call) →
      ∀ before call after, calls = before ++ call :: after → call.isXDS = true →
        ∀ key w, ((createDefaultListenerManager statics).run before).activeListenerService.lookup
          key = some w →
          w.service.origin = .static →
          (((createDefaultListenerManager statics).run before).step
            call).activeListenerService.lookup key = some w) := by
  have howned : (∀ before call after, calls = before ++ call :: after →
      ((createDefaultListenerManager statics).run before).Respects call) →
      ∀ before after, calls = before ++ after →
        ((createDefaultListenerManager statics).run before).Owned := by
    intro hrespects before after hsplit
    refine owned_run (owned_createDefaultListenerManager statics) fun before' call after' hsplit' =>
      ?_
    exact hrespects before' call (after' ++ after) (by rw [hsplit, hsplit']; simp)
  refine ⟨⟨fun hall before call after hsplit => ?_, howned⟩,
    fun hrespects before call after hsplit hxds => ?_⟩
  · rw [← owned_step_iff (hall before (call :: after) hsplit), ← run_append_singleton]
    exact hall (before ++ [call]) after (by rw [hsplit]; simp)
  · intro key w hw hstatic
    exact static_untouched (howned hrespects before (call :: after) hsplit) hxds hw hstatic

open Sample in
/-- A listener of xDS is removed by `RemoveListener`, a static one is added under its key, and the
next operation of xDS removes it. -/
theorem static_listener_removed_by_xds :
    ∃ lm, lm = (createDefaultListenerManager []).run
        [.upsertXDSListener (some httpListener) .done (some allCapabilities) .done,
         .removeListener [resolveListenerName httpListener],
         .addListener httpListener (some allCapabilities) .done] ∧
      (∃ w, lm.activeListenerService.lookup (resolveListenerName httpListener) = some w ∧
        w.service.origin = .static) ∧
      resolveListenerName httpListener ∈ lm.xdsManaged ∧
      (lm.step
        (.removeXDSListeners [resolveListenerName httpListener])).activeListenerService.lookup
        (resolveListenerName httpListener) = none := by
  refine ⟨_, rfl, ?_, by decide +kernel, by decide +kernel⟩
  have hstatic : (((createDefaultListenerManager []).run
      [.upsertXDSListener (some httpListener) .done (some allCapabilities) .done,
       .removeListener [resolveListenerName httpListener],
       .addListener httpListener (some allCapabilities) .done]).activeListenerService.lookup
        (resolveListenerName httpListener)).map (fun w => w.service.origin) = some .static :=
        by decide +kernel
  exact Option.map_eq_some_iff.1 hstatic

end ListenerManager

end Pixiu.Server
