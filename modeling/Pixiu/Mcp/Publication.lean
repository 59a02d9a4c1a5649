import Pixiu.Mcp.Endpoints

/-!
# Publishing a server config

An event of a registry centre changes two stores, one after the other: the tool catalog of the
runtime, through its dynamic consumer, and the endpoints of the cluster manager, through the
reconciler.  Each store has a lock of its own, and there is none around both, so the steps of
several events for one source can come in any order.

`publication_of_one_event`: when no event of a source touches the catalog while another one has only
done half of its work, catalog and endpoints end with the same event.
`catalog_and_endpoints_of_two_events` shows what happens otherwise.
-/

namespace Pixiu.Mcp

open EndpointReconciler (Operation)

/-- An event: the config of a server, or `none` when the server is gone. -/
structure ServerConfigEvent where
  registryName : String
  serverId : String
  cfg : Option McpServerConfig

namespace ServerConfigEvent

/-- The source of an event. -/
def source (event : ServerConfigEvent) : ServerSource :=
  ServerSource.normalize ⟨event.registryName, event.serverId⟩

theorem normalize_source (event : ServerConfigEvent) : event.source.normalize = event.source :=
  ServerSource.normalize_normalize _

/-- What an event asks of the reconciler. -/
def operation (event : ServerConfigEvent) (previousOrder desiredOrder : List String) : Operation :=
  match event.cfg with
  | some cfg => .applyServerConfig event.source cfg previousOrder desiredOrder
  | none => .removeSource event.source previousOrder

end ServerConfigEvent

/-- How far the handling of an event is. -/
inductive EventPhase where
  | waiting
  | catalogApplied
  | finished
  | failed
  deriving DecidableEq, Repr

/-- The steps of `applyServerConfigEvent` that others can see: the runtime has no publication sink,
the catalog is changed, the endpoints are changed. -/
inductive Turn where
  | unbound (i : ℕ)
  | catalog (i : ℕ) (order : List ServerSource)
  | endpoints (i : ℕ) (previousOrder desiredOrder : List String)

/-- The two stores, and how far the events are. -/
structure Adapter where
  consumer : DynamicConsumer
  endpoints : EndpointReconciler
  phase : ℕ → EventPhase

namespace Adapter

/-- No event has been handled. -/
def start (registry : ToolCatalogSnapshot) (governance : Bool) : Adapter :=
  ⟨.newDynamicConsumer registry governance, .newEndpointReconciler, fun _ => .waiting⟩

section

variable (fp : Fingerprinter) (parseHostPortFromURL : String → Except String HostPort)
  (events : List ServerConfigEvent) (a : Adapter)

/-- An event goes on. -/
def setPhase (i : ℕ) (phase : EventPhase) : Adapter :=
  { a with phase := Function.update a.phase i phase }

/-- The endpoints are prepared, then the catalog is changed. -/
def applyCatalog (i : ℕ) (event : ServerConfigEvent) (order : List ServerSource) : Option Adapter :=
  match EndpointReconciler.prepareServerConfig parseHostPortFromURL event.source event.cfg with
  | .error _ => some (a.setPhase i .failed)
  | .ok _ =>
    (a.consumer.applyMcpServerConfigBySource fp order event.source event.cfg).map fun
      | (consumer, .error _) => { a with consumer }.setPhase i .failed
      | (consumer, .ok _) => { a with consumer }.setPhase i .catalogApplied

/-- The endpoints are changed. -/
def applyEndpoints (i : ℕ) (event : ServerConfigEvent) (previousOrder desiredOrder : List String) :
    Option Adapter :=
  (a.endpoints.step parseHostPortFromURL (event.operation previousOrder desiredOrder)).map
    fun endpoints =>
    { a with endpoints }.setPhase i .finished

/-- One step of one event; `none` when the event is not at this step. -/
def step : Turn → Option Adapter
  | .unbound i =>
    if i < events.length ∧ a.phase i = .waiting then some (a.setPhase i .failed) else none
  | .catalog i order => events[i]?.bind fun event =>
    if a.phase i = .waiting then a.applyCatalog fp parseHostPortFromURL i event order else none
  | .endpoints i previousOrder desiredOrder => events[i]?.bind fun event =>
    if a.phase i = .catalogApplied then
      a.applyEndpoints parseHostPortFromURL i event previousOrder desiredOrder
    else none

/-- The state after some turns, if they can happen. -/
def run (turns : List Turn) : Option Adapter := turns.foldlM (step fp parseHostPortFromURL events) a

/-- The call of the reconciler that a turn makes. -/
def operationOf : Turn → Option Operation
  | .endpoints i previousOrder desiredOrder =>
    events[i]?.map (·.operation previousOrder desiredOrder)
  | _ => none

/-- The event with this number is one of the source. -/
def EventOf (source : ServerSource) (i : ℕ) (event : ServerConfigEvent) : Prop :=
  events[i]? = some event ∧ event.source = source

/-- A catalog is changed while no other event of the source has changed it and not yet the
endpoints. -/
def Alone : Turn → Prop
  | .catalog i _ => ∀ source event, EventOf events source i event →
    ∀ j event', EventOf events source j event' → a.phase j ≠ .catalogApplied
  | _ => True

instance : ∀ turn, Decidable (Alone events a turn)
  | .unbound _ => isTrue trivial
  | .endpoints .. => isTrue trivial
  | .catalog i _ =>
    decidable_of_iff (∀ event ∈ events[i]?, ∀ j < events.length, ∀ event' ∈ events[j]?,
      event'.source = event.source → a.phase j ≠ .catalogApplied) <| by
      constructor
      · rintro h source event ⟨hevent, rfl⟩ j event' ⟨hevent', hsource⟩
        exact h event hevent j (List.getElem?_eq_some_iff.1 hevent').1 event' hevent' hsource
      · intro h event hevent j _ event' hevent' hsource
        exact h event.source event ⟨hevent, rfl⟩ j event' ⟨hevent', hsource⟩

/-- Events of a source with the same catalog fingerprint desire the same endpoints. -/
def FingerprintsTell : Prop :=
  ∀ source i event j event', EventOf events source i event → EventOf events source j event' →
    (DynamicConsumer.entryOf fp event.cfg).map ServerToolConfig.fingerprint =
      (DynamicConsumer.entryOf fp event'.cfg).map ServerToolConfig.fingerprint →
    buildDesiredEndpoints parseHostPortFromURL source event.cfg =
      buildDesiredEndpoints parseHostPortFromURL source event'.cfg

end

variable {fp : Fingerprinter} {parseHostPortFromURL : String → Except String HostPort}
  {events : List ServerConfigEvent} {a a' : Adapter}

/-! ## What a step does -/

/-- The three things that a step can do. -/
inductive Moves (fp : Fingerprinter) (parseHostPortFromURL : String → Except String HostPort)
    (events : List ServerConfigEvent) (a : Adapter) : Turn → Adapter → Prop
  | failed {turn : Turn} {i : ℕ} (hwaiting : a.phase i = .waiting)
      (hturn : operationOf events turn = none) :
      Moves fp parseHostPortFromURL events a turn (a.setPhase i .failed)
  | catalog {i : ℕ} {event : ServerConfigEvent} {order : List ServerSource}
      {consumer : DynamicConsumer}
      {outcome : ApplyOutcome} {desired : FinMap String PublishedEndpoint}
        (hevent : events[i]? = some event)
      (hwaiting : a.phase i = .waiting)
      (hbuild : buildDesiredEndpoints parseHostPortFromURL event.source event.cfg = .ok desired)
      (happly : a.consumer.applyMcpServerConfigBySource fp order event.source event.cfg =
        some (consumer, .ok outcome)) :
      Moves fp parseHostPortFromURL events a (.catalog i order)
        ({ a with consumer }.setPhase i .catalogApplied)
  | endpoints {i : ℕ} {event : ServerConfigEvent} {previousOrder desiredOrder : List String}
      {endpoints : EndpointReconciler} (hevent : events[i]? = some event)
        (happlied : a.phase i = .catalogApplied)
      (hstep : a.endpoints.step parseHostPortFromURL (event.operation previousOrder desiredOrder) =
        some endpoints) :
      Moves fp parseHostPortFromURL events a (.endpoints i previousOrder desiredOrder)
        ({ a with endpoints }.setPhase i .finished)

theorem step_moves {turn : Turn} (h : a.step fp parseHostPortFromURL events turn = some a') :
    Moves fp parseHostPortFromURL events a turn a' := by
  cases turn with
  | unbound i =>
    obtain ⟨⟨-, hwaiting⟩, heq⟩ := Option.ite_none_right_eq_some.1 h
    obtain rfl := Option.some.inj heq
    exact .failed hwaiting rfl
  | catalog i order =>
    obtain ⟨event, hevent, h⟩ := Option.bind_eq_some_iff.1 h
    obtain ⟨hwaiting, h⟩ := Option.ite_none_right_eq_some.1 h
    rw [applyCatalog, EndpointReconciler.prepareServerConfig,
      EndpointReconciler.buildDesiredEndpoints_normalize] at h
    cases hbuild : buildDesiredEndpoints parseHostPortFromURL event.source event.cfg with
    | error err =>
      rw [hbuild] at h
      obtain rfl := Option.some.inj h
      exact .failed hwaiting rfl
    | ok desired =>
      rw [hbuild] at h
      obtain ⟨⟨consumer, result⟩, happly, heq⟩ := Option.map_eq_some_iff.1 h
      cases result with
      | error err =>
        have hstep : a.consumer.step fp
            (.applyMcpServerConfigBySource event.source event.cfg order) =
            some (consumer, .error err) := happly
        cases DynamicConsumer.step_ends hstep
        obtain rfl := heq
        exact .failed hwaiting rfl
      | ok outcome =>
        obtain rfl := heq
        exact .catalog hevent hwaiting hbuild happly
  | endpoints i previousOrder desiredOrder =>
    obtain ⟨event, hevent, h⟩ := Option.bind_eq_some_iff.1 h
    obtain ⟨happlied, h⟩ := Option.ite_none_right_eq_some.1 h
    obtain ⟨endpoints, hstep, rfl⟩ := Option.map_eq_some_iff.1 h
    exact .endpoints hevent happlied hstep

/-- The endpoints of an event become those of its source, and no other source gets new ones. -/
theorem publishedBy_operation {event : ServerConfigEvent} {r r' : EndpointReconciler}
    {desired : FinMap String PublishedEndpoint} {previousOrder desiredOrder : List String}
    (hbuild : buildDesiredEndpoints parseHostPortFromURL event.source event.cfg = .ok desired)
    (hstep : r.step parseHostPortFromURL (event.operation previousOrder desiredOrder) = some r')
    (source : ServerSource) :
    r'.publishedBy source = if source = event.source then desired else r.publishedBy source := by
  have happly : ∃ desiredOrder', r.applyServerConfig parseHostPortFromURL event.source event.cfg
      previousOrder
      desiredOrder' = some r' := by
    rw [ServerConfigEvent.operation] at hstep
    cases hcfg : event.cfg with
    | none =>
      simp only [hcfg, EndpointReconciler.step, EndpointReconciler.removeSource] at hstep
      exact ⟨_, hstep⟩
    | some cfg =>
      simp only [hcfg, EndpointReconciler.step] at hstep
      exact ⟨_, hstep⟩
  obtain ⟨desiredOrder', happly⟩ := happly
  rw [EndpointReconciler.publishedBy_applyServerConfig hbuild happly, event.normalize_source]

/-! ## One source in any run -/

/-- The event has changed the catalog. -/
def Begun (a : Adapter) (i : ℕ) : Prop := a.phase i = .catalogApplied ∨ a.phase i = .finished

/-- The catalog entry of a source is that of one config: that of an event, or none as long as no
event has begun. The endpoints are those of this config too, except while an event still has to
change them, which will then make them so. -/
structure OneConfig (fp : Fingerprinter) (parseHostPortFromURL : String → Except String HostPort)
    (events : List ServerConfigEvent) (a : Adapter) (source : ServerSource)
    (cfg : Option McpServerConfig) :
    Prop where
  entry : a.consumer.serverConfigs.lookup source = DynamicConsumer.entryOf fp cfg
  event : (cfg = none ∧ ∀ i event, EventOf events source i event → ¬ a.Begun i) ∨
    ∃ i event, EventOf events source i event ∧ event.cfg = cfg
  coming : ∀ i event, EventOf events source i event → a.phase i = .catalogApplied →
    ∃ desired, buildDesiredEndpoints parseHostPortFromURL source event.cfg = .ok desired ∧
      buildDesiredEndpoints parseHostPortFromURL source cfg = .ok desired
  endpoints : (∀ i event, EventOf events source i event → a.phase i ≠ .catalogApplied) →
    buildDesiredEndpoints parseHostPortFromURL source cfg = .ok (a.endpoints.publishedBy source)

theorem oneConfig_start (registry : ToolCatalogSnapshot) (governance : Bool)
    (source : ServerSource) :
    OneConfig fp parseHostPortFromURL events (start registry governance) source none where
  entry := rfl
  event := .inl ⟨rfl, fun i event _ hbegun => by rcases hbegun with h | h <;> cases h⟩
  coming := by
    intro i event _ hphase
    cases hphase
  endpoints := by
    intro _
    rw [buildDesiredEndpoints]
    rfl

theorem phase_setPhase {i j : ℕ} {phase : EventPhase} :
    (a.setPhase i phase).phase j = if j = i then phase else a.phase j := Function.update_apply ..

section Step

variable {source : ServerSource} {cfg : Option McpServerConfig} {i : ℕ} {event : ServerConfigEvent}

theorem OneConfig.failed (h : OneConfig fp parseHostPortFromURL events a source cfg)
    (hwaiting : a.phase i = .waiting) :
    OneConfig fp parseHostPortFromURL events (a.setPhase i .failed) source cfg := by
  have happlied : ∀ j, (a.setPhase i .failed).phase j = .catalogApplied ↔
      a.phase j = .catalogApplied := by
    intro j
    rw [phase_setPhase]
    split_ifs with hj <;> simp [hj, hwaiting]
  have hfinished : ∀ j, (a.setPhase i .failed).phase j = .finished ↔ a.phase j = .finished := by
    intro j
    rw [phase_setPhase]
    split_ifs with hj <;> simp [hj, hwaiting]
  refine ⟨h.entry, ?_, fun j event' hevent' => ?_, fun hnone => ?_⟩
  · rcases h.event with ⟨hcfg, hnone⟩ | hevent'
    · refine .inl ⟨hcfg, fun j event' hevent' hbegun => hnone j event' hevent' ?_⟩
      rwa [Begun, happlied, hfinished] at hbegun
    · exact .inr hevent'
  · rw [happlied]
    exact h.coming j event' hevent'
  · exact h.endpoints fun j event' hevent' hj => hnone j event' hevent' ((happlied j).2 hj)

/-- A change of the catalog by an event of the source leaves the entry of this event, or of one
before it with the same fingerprint. -/
theorem OneConfig.catalog (h : OneConfig fp parseHostPortFromURL events a source cfg)
    (htell : FingerprintsTell fp parseHostPortFromURL events) {order : List ServerSource}
    {consumer : DynamicConsumer} {outcome : ApplyOutcome}
    {desired : FinMap String PublishedEndpoint}
    (hevent : EventOf events source i event)
    (halone : ∀ j event', EventOf events source j event' → a.phase j ≠ .catalogApplied)
    (hbuild : buildDesiredEndpoints parseHostPortFromURL source event.cfg = .ok desired)
    (happly :
    a.consumer.applyMcpServerConfigBySource fp order source event.cfg =
      some (consumer, .ok outcome))
    (hnormal : source.normalize = source) :
    ∃ cfg', OneConfig fp parseHostPortFromURL events
      ({ a with consumer }.setPhase i .catalogApplied) source cfg' := by
  -- only this event is between its two steps
  have hself : ∀ j, ({ a with consumer }.setPhase i .catalogApplied).phase j = .catalogApplied →
      ∀ event', EventOf events source j event' → event' = event := by
    intro j hj event' hevent'
    rw [phase_setPhase] at hj
    split_ifs at hj with hji
    · subst hji
      exact Option.some.inj (hevent'.1.symm.trans hevent.1)
    · exact absurd hj (halone j event' hevent')
  have hbusy : ¬ ∀ j event', EventOf events source j event' →
      ({ a with consumer }.setPhase i .catalogApplied).phase j ≠ .catalogApplied :=
    fun hnone => hnone i event hevent (by rw [phase_setPhase, if_pos rfl])
  obtain ⟨-, hentry⟩ := DynamicConsumer.entry_of_ok happly
  rw [hnormal] at hentry
  rcases hentry with hentry | ⟨rfl, hfingerprint⟩
  · refine ⟨event.cfg, hentry, .inr ⟨i, event, hevent, rfl⟩, fun j event' hevent' hj => ?_,
      fun hnone => absurd hnone hbusy⟩
    rw [hself j hj event' hevent']
    exact ⟨desired, hbuild, hbuild⟩
  -- the entry has the fingerprint of this event already
  · rw [h.entry] at hfingerprint
    have hsame : buildDesiredEndpoints parseHostPortFromURL source cfg =
        buildDesiredEndpoints parseHostPortFromURL source event.cfg ∧
        ∃ k event', EventOf events source k event' ∧ event'.cfg = cfg := by
      rcases h.event with ⟨rfl, -⟩ | ⟨k, event', hevent', rfl⟩
      · have hnone : event.cfg = none := by simpa [DynamicConsumer.entryOf] using hfingerprint.symm
        exact ⟨by rw [hnone], i, event, hevent, hnone⟩
      · exact ⟨htell source k event' i event hevent' hevent hfingerprint, k, event', hevent', rfl⟩
    refine ⟨cfg, h.entry, .inr hsame.2, fun j event' hevent' hj => ?_,
      fun hnone => absurd hnone hbusy⟩
    rw [hself j hj event' hevent', hsame.1]
    exact ⟨desired, hbuild, hbuild⟩

/-- When an event of the source changes the endpoints, they become those of the catalog entry. -/
theorem OneConfig.endpoints_of_event (h : OneConfig fp parseHostPortFromURL events a source cfg)
    {previousOrder desiredOrder : List String} {endpoints : EndpointReconciler}
    (hevent : EventOf events source i event) (happlied : a.phase i = .catalogApplied)
    (hstep : a.endpoints.step parseHostPortFromURL (event.operation previousOrder desiredOrder) =
      some endpoints) :
    OneConfig fp parseHostPortFromURL events ({ a with endpoints }.setPhase i .finished) source
      cfg := by
  obtain ⟨desired, hbuild, hcfg⟩ := h.coming i event hevent happlied
  have hpublished : endpoints.publishedBy source = desired := by
    rw [← hevent.2] at hbuild ⊢
    rw [publishedBy_operation hbuild hstep, if_pos rfl]
  refine ⟨h.entry, ?_, fun j event' hevent' hj => ?_, fun _ => ?_⟩
  · rcases h.event with ⟨-, hnone⟩ | hevent'
    · exact absurd (.inl happlied) (hnone i event hevent)
    · exact .inr hevent'
  · rw [phase_setPhase] at hj
    split_ifs at hj with hji
    exact h.coming j event' hevent' hj
  · exact hcfg.trans (congrArg _ hpublished.symm)

/-- The steps of the events of other sources are not noticed. -/
theorem OneConfig.of_eq (h : OneConfig fp parseHostPortFromURL events a source cfg)
    (hentry : a'.consumer.serverConfigs.lookup source = a.consumer.serverConfigs.lookup source)
    (hendpoints : a'.endpoints.publishedBy source = a.endpoints.publishedBy source)
    (hphase : ∀ j event', EventOf events source j event' → a'.phase j = a.phase j) :
    OneConfig fp parseHostPortFromURL events a' source cfg := by
  refine ⟨hentry.trans h.entry, ?_, fun j event' hevent' => ?_, fun hnone => ?_⟩
  · rcases h.event with ⟨hcfg, hnone⟩ | hevent'
    · refine .inl ⟨hcfg, fun j event' hevent' => ?_⟩
      rw [Begun, hphase j event' hevent']
      exact hnone j event' hevent'
    · exact .inr hevent'
  · rw [hphase j event' hevent']
    exact h.coming j event' hevent'
  · rw [hendpoints]
    refine h.endpoints fun j event' hevent' => ?_
    rw [← hphase j event' hevent']
    exact hnone j event' hevent'

/-- The number of an event of another source is not that of one of this source. -/
theorem phase_setPhase_of_source {a : Adapter} {phase : EventPhase}
    (hevent : events[i]? = some event)
    (hsource : event.source ≠ source) (j : ℕ) (event' : ServerConfigEvent)
    (hevent' : EventOf events source j event') :
    (a.setPhase i phase).phase j = a.phase j := by
  rw [phase_setPhase, if_neg]
  rintro rfl
  obtain rfl := Option.some.inj (hevent.symm.trans hevent'.1)
  exact hsource hevent'.2

/-- An event that changes the catalog has prepared its endpoints. -/
def Built (parseHostPortFromURL : String → Except String HostPort) (events : List ServerConfigEvent)
    (a : Adapter) :
    Prop :=
  ∀ i event, events[i]? = some event → a.phase i = .catalogApplied →
    ∃ desired, buildDesiredEndpoints parseHostPortFromURL event.source event.cfg = .ok desired

theorem OneConfig.step (h : OneConfig fp parseHostPortFromURL events a source cfg)
    (htell : FingerprintsTell fp parseHostPortFromURL events) {turn : Turn}
    (halone : Alone events a turn)
    (hbuilt : Built parseHostPortFromURL events a)
    (hstep : a.step fp parseHostPortFromURL events turn = some a') :
    ∃ cfg', OneConfig fp parseHostPortFromURL events a' source cfg' := by
  cases step_moves hstep with
  | failed hwaiting hturn => exact ⟨cfg, h.failed hwaiting⟩
  | @catalog i event order consumer outcome desired hevent hwaiting hbuild happly =>
    by_cases hsource : event.source = source
    · subst hsource
      exact h.catalog htell ⟨hevent, rfl⟩ (halone _ _ ⟨hevent, rfl⟩) hbuild happly
        event.normalize_source
    · have hother := (DynamicConsumer.entry_of_ok happly).1 source
        (by rw [event.normalize_source]; exact fun heq => hsource heq.symm)
      exact ⟨cfg, h.of_eq hother rfl (phase_setPhase_of_source hevent hsource)⟩
  | @endpoints i event previousOrder desiredOrder endpoints hevent happlied hoperation =>
    by_cases hsource : event.source = source
    · subst hsource
      exact ⟨cfg, h.endpoints_of_event ⟨hevent, rfl⟩ happlied hoperation⟩
    · obtain ⟨desired, hbuild⟩ := hbuilt i event hevent happlied
      have hother := publishedBy_operation hbuild hoperation source
      rw [if_neg fun heq => hsource heq.symm] at hother
      exact ⟨cfg, h.of_eq rfl hother (phase_setPhase_of_source hevent hsource)⟩

end Step

/-! ## Whole runs -/

theorem Built.step (h : Built parseHostPortFromURL events a) {turn : Turn}
    (hstep : a.step fp parseHostPortFromURL events turn = some a') :
    Built parseHostPortFromURL events a' := by
  intro j event' hevent' hj
  cases step_moves hstep with
  | failed =>
    rw [phase_setPhase] at hj
    split_ifs at hj
    exact h j event' hevent' hj
  | @catalog i event order consumer outcome desired hevent hwaiting hbuild happly =>
    rw [phase_setPhase] at hj
    split_ifs at hj with hji
    · subst hji
      obtain rfl := Option.some.inj (hevent.symm.trans hevent')
      exact ⟨desired, hbuild⟩
    · exact h j event' hevent' hj
  | endpoints =>
    rw [phase_setPhase] at hj
    split_ifs at hj
    exact h j event' hevent' hj

theorem run_append_singleton {turns : List Turn} {turn : Turn} {a₀ : Adapter}
    (hrun : a₀.run fp parseHostPortFromURL events (turns ++ [turn]) = some a') :
    ∃ a, a₀.run fp parseHostPortFromURL events turns = some a ∧
      a.step fp parseHostPortFromURL events turn = some a' := by
  rw [run, List.foldlM_append] at hrun
  obtain ⟨a, hbefore, hlast⟩ := Option.bind_eq_some_iff.1 hrun
  exact ⟨a, hbefore, by simpa using hlast⟩

variable {registry : ToolCatalogSnapshot} {governance : Bool} {turns : List Turn}

theorem built_run
    (hrun : (start registry governance).run fp parseHostPortFromURL events turns = some a) :
    Built parseHostPortFromURL events a := by
  induction turns using List.reverseRecOn generalizing a with
  | nil =>
    obtain rfl := Option.some.inj hrun
    intro i event _ hphase
    cases hphase
  | append_singleton turns turn ih =>
    obtain ⟨a₁, hbefore, hstep⟩ := run_append_singleton hrun
    exact (ih hbefore).step hstep

theorem oneConfig_run (htell : FingerprintsTell fp parseHostPortFromURL events)
    (source : ServerSource)
    (hrun : (start registry governance).run fp parseHostPortFromURL events turns = some a)
    (halone : ∀ before turn after a₁, turns = before ++ turn :: after →
      (start registry governance).run fp parseHostPortFromURL events before = some a₁ →
      Alone events a₁ turn) :
    ∃ cfg, OneConfig fp parseHostPortFromURL events a source cfg := by
  induction turns using List.reverseRecOn generalizing a with
  | nil =>
    obtain rfl := Option.some.inj hrun
    exact ⟨none, oneConfig_start registry governance source⟩
  | append_singleton turns turn ih =>
    obtain ⟨a₁, hbefore, hstep⟩ := run_append_singleton hrun
    obtain ⟨cfg, hone⟩ := ih hbefore fun before turn' after a₂ hsplit =>
      halone before turn' (after ++ [turn]) a₂ (by rw [hsplit]; simp)
    exact hone.step htell (halone turns turn [] a₁ rfl hbefore) (built_run hbefore) hstep

/-- The reconciler has made the calls of the turns that change endpoints. -/
theorem endpoints_run
    (hrun : (start registry governance).run fp parseHostPortFromURL events turns = some a) :
    EndpointReconciler.newEndpointReconciler.run parseHostPortFromURL
      (turns.filterMap (operationOf events)) =
      some a.endpoints := by
  induction turns using List.reverseRecOn generalizing a with
  | nil =>
    obtain rfl := Option.some.inj hrun
    rfl
  | append_singleton turns turn ih =>
    obtain ⟨a₁, hbefore, hstep⟩ := run_append_singleton hrun
    rw [List.filterMap_append, EndpointReconciler.run, List.foldlM_append]
    have hprevious := ih hbefore
    rw [EndpointReconciler.run] at hprevious
    rw [hprevious]
    cases step_moves hstep with
    | failed hwaiting hturn => simp [hturn, setPhase]
    | @catalog i event order consumer =>
      have hturn : operationOf events (.catalog i order) = none := rfl
      simp [hturn, setPhase]
    | endpoints hevent happlied hoperation => simp [operationOf, hevent, hoperation, setPhase]

/-- The events of a source are handled one after another, as far as their two steps are concerned.
Once all of them have finished, the catalog entry of the source and its endpoints are those of one
and the same event; and where the endpoint IDs are distinct, the cluster manager has exactly the
endpoints that are published. -/
theorem publication_of_one_event (registry : ToolCatalogSnapshot) (governance : Bool)
    (turns : List Turn)
    (hrun : (start registry governance).run fp parseHostPortFromURL events turns = some a)
    (halone : ∀ before turn after a₁, turns = before ++ turn :: after →
      (start registry governance).run fp parseHostPortFromURL events before = some a₁ →
      Alone events a₁ turn)
    (htell : FingerprintsTell fp parseHostPortFromURL events) (source : ServerSource)
    (hsome : ∃ i event, EventOf events source i event)
    (hfinished : ∀ i event, EventOf events source i event → a.phase i = .finished) :
    (∃ i event, EventOf events source i event ∧
      (a.consumer.serverConfigs.lookup source).map ServerToolConfig.tools =
        event.cfg.map McpServerConfig.tools ∧
      buildDesiredEndpoints parseHostPortFromURL source event.cfg =
        .ok (a.endpoints.publishedBy source)) ∧
    ((∀ before operation after, turns.filterMap (operationOf events) = before ++
      operation :: after →
        operation.Distinct (EndpointReconciler.latestConfigs parseHostPortFromURL before)) →
      a.endpoints.Mirrored) := by
  refine ⟨?_, fun hdistinct =>
    (EndpointReconciler.follows_run (endpoints_run hrun) hdistinct).mirrored⟩
  obtain ⟨cfg, hone⟩ := oneConfig_run htell source hrun halone
  have hendpoints := hone.endpoints fun i event hevent => by rw [hfinished i event hevent]; decide
  rcases hone.event with ⟨-, hnone⟩ | ⟨i, event, hevent, rfl⟩
  · obtain ⟨i, event, hevent⟩ := hsome
    exact absurd (.inr (hfinished i event hevent)) (hnone i event hevent)
  · refine ⟨i, event, hevent, ?_, hendpoints⟩
    rw [hone.entry, DynamicConsumer.entryOf, Option.map_map]
    rfl

end Adapter

namespace Sample

/-- An event with one tool at a URL. -/
def eventAt (url : String) : ServerConfigEvent :=
  ⟨"nacos", "server", some ⟨[toolAt "a" url], false⟩⟩

end Sample

namespace Adapter

open Sample

/-- Two updates of one source, the second of which runs between the two steps of the first: the
catalog is that of the second, the endpoint that of the first. -/
theorem catalog_and_endpoints_of_two_events :
    ∃ a, (start newToolRegistry false).run fingerprinter parseHost [eventAt "one", eventAt "two"]
        [.catalog 0 [source], .catalog 1 [source], .endpoints 1 [] ["a"], .endpoints 0 ["a"]
          ["a"]] = some a ∧
      a.phase 0 = .finished ∧ a.phase 1 = .finished ∧
      (a.consumer.serverConfigs.lookup source).map ServerToolConfig.tools =
        some [toolAt "a" "two"] ∧
      a.endpoints.sink ("backend", stableEndpointID source "a") = some ⟨"one", 8080⟩ := by
  have hrun :
      ((start newToolRegistry false).run fingerprinter parseHost [eventAt "one", eventAt "two"]
      [.catalog 0 [source], .catalog 1 [source], .endpoints 1 [] ["a"], .endpoints 0 ["a"]
        ["a"]]).map
        (fun a =>
          (a.phase 0, a.phase 1,
            (a.consumer.serverConfigs.lookup source).map ServerToolConfig.tools,
          a.endpoints.sink ("backend", stableEndpointID source "a"))) =
      some (.finished, .finished, some [toolAt "a" "two"], some ⟨"one", 8080⟩) := by decide +kernel
  obtain ⟨a, hrun, hstate⟩ := Option.map_eq_some_iff.1 hrun
  exact ⟨a, hrun, by simpa using hstate⟩

/-- Two updates of a source, and one of another source next to both. -/
def threeEvents : List ServerConfigEvent :=
  [eventAt "one", ⟨"nacos", "sibling", some ⟨[toolAt "c" "three"], false⟩⟩, eventAt "two"]

/-- The two updates one after the other. -/
def inTurn : List Turn :=
  [.catalog 0 [source], .catalog 1 [source, ⟨"nacos", "sibling"⟩], .endpoints 0 [] ["a"],
    .catalog 2 [source, ⟨"nacos", "sibling"⟩], .endpoints 1 [] ["c"], .endpoints 2 ["a"] ["a"]]

theorem publication_of_one_event_inTurn :
    ∃ a, (start newToolRegistry false).run fingerprinter parseHost threeEvents inTurn = some a ∧
      ∃ i event, EventOf threeEvents source i event ∧
        (a.consumer.serverConfigs.lookup source).map ServerToolConfig.tools =
          event.cfg.map McpServerConfig.tools ∧
        buildDesiredEndpoints parseHost source event.cfg =
          .ok (a.endpoints.publishedBy source) := by
  have hphases : ((start newToolRegistry false).run fingerprinter parseHost threeEvents inTurn).map
      (fun a => (a.phase 0, a.phase 2)) = some (.finished, .finished) := by decide +kernel
  obtain ⟨a, hrun, hphase⟩ := Option.map_eq_some_iff.1 hphases
  have hplace : ∀ {source' i event}, EventOf threeEvents source' i event → i < 3 :=
    fun h => (List.getElem?_eq_some_iff.1 h.1).1
  refine ⟨a, hrun,
    (publication_of_one_event _ _ _ hrun ?_ ?_ source ⟨0, eventAt "one", rfl, by decide⟩ ?_).1⟩
  · intro before turn after a₁ hsplit hbefore
    have hall := System.forall_split_iff (P := fun before turn =>
      ((start newToolRegistry false).run fingerprinter parseHost threeEvents before).all fun a =>
        decide (Alone threeEvents a turn)) |>.2 (by decide +kernel) before turn after hsplit
    simpa [hbefore] using hall
  · -- the fingerprints of different events of the source are different
    intro source' i event j event' hi hj hsame
    have hdiffer : ∀ i < 3, ∀ j < 3, ∀ event ∈ threeEvents[i]?, ∀ event' ∈ threeEvents[j]?,
        event'.source = event.source →
        (DynamicConsumer.entryOf fingerprinter event.cfg).map ServerToolConfig.fingerprint =
          (DynamicConsumer.entryOf fingerprinter event'.cfg).map ServerToolConfig.fingerprint →
            i = j := by
      decide +kernel
    obtain rfl :=
      hdiffer i (hplace hi) j (hplace hj) event hi.1 event' hj.1 (hj.2.trans hi.2.symm) hsame
    obtain rfl := Option.some.inj (hi.1.symm.trans hj.1)
    rfl
  · intro i event hi
    have hlt := hplace hi
    interval_cases i
    · exact congrArg Prod.fst hphase
    · exact absurd hi.2 (Option.some.inj hi.1 ▸ by decide)
    · exact congrArg Prod.snd hphase

end Adapter

end Pixiu.Mcp
