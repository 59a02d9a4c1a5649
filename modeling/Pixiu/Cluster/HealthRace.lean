import Pixiu.Base.System
import Pixiu.Cluster.Snapshot

/-!
# Health updates, refreshes and replacement race on one snapshot pointer

The runtime of a cluster publishes its snapshot through one atomic pointer.  Three kinds of
goroutines work on it: refreshes rebuild the snapshot from the configuration, address health
updates change one health in it, and a freeze hands the last snapshot to the runtime that
replaces this one.  Refreshes and updates are compare-and-swap loops; updates and the freeze
also hold `healthMu`.

`Step` is one atomic step of one goroutine, with the steps of different goroutines interleaved
in any way; the configuration may change at any time.  A snapshot is a new object each time it
is published, so the pointer is modelled by the list of everything published so far, and a
loaded pointer by the length of that list.

`no_verdict_lost` is the outcome: endpoints that stay keep the last verdict on their address
through every interleaving, into the replacement as well, and a frozen runtime accepts nothing.
-/

namespace Pixiu.Cluster

open Pixiu Relation

/-! ## What the constructors do to health -/

section Health

variable {s next : EndpointSnapshot} {order endpointIDs : List String} {healthy : Bool}

theorem health_newEndpointSnapshot (sum : String → String) (config : ClusterConfig)
    (previous : Option EndpointSnapshot) (inheritRuntimeHealth : Bool) :
    ∀ e ∈
      (EndpointSnapshot.newEndpointSnapshot sum (some config) previous inheritRuntimeHealth).all,
      ∃ e₀ : Endpoint, e₀.id = e.id ∧ (!e.unHealthy) = EndpointSnapshot.endpointSnapshotHealth e₀
        e.address.getAddress previous inheritRuntimeHealth := by
  rw [EndpointSnapshot.newEndpointSnapshot]
  generalize hbase : ({ lbPolicy := config.lbStr, consistentHashConfig := config.consistentHash } :
    EndpointSnapshot) = base
  have hall : ∀ e ∈ base.all, ∃ e₀ : Endpoint, e₀.id = e.id ∧ (!e.unHealthy) =
      EndpointSnapshot.endpointSnapshotHealth e₀ e.address.getAddress previous
        inheritRuntimeHealth := by
    simp [← hbase]
  clear hbase
  induction config.endpoints.filterMap id generalizing base with
  | nil => exact hall
  | cons e es ih =>
    refine ih _ fun e' he' => ?_
    rcases List.mem_append.1 he' with he' | he'
    · exact hall e' he'
    · rw [List.mem_singleton.1 he']
      refine ⟨{ e with id := stableUniqueEndpointID sum config.name e (base.all.map (·.id)) }, rfl,
        ?_⟩
      exact Bool.not_not _

/-- A rebuilt snapshot keeps the health of an endpoint that keeps its ID and its address. -/
theorem newEndpointSnapshot_inherits (sum : String → String) (config : ClusterConfig)
    (h : Indexed s) {id address : String} (hold : s.addressByID id = some address)
    (hnew : (EndpointSnapshot.newEndpointSnapshot sum (some config) (some s) true).addressByID id =
      some address) :
    (EndpointSnapshot.newEndpointSnapshot sum (some config) (some s) true).healthyByID id =
      s.healthyByID id := by
  have hindex := indexed_newEndpointSnapshot sum (some config) (some s) true
  obtain ⟨e, he, rfl, haddress⟩ := (hindex.wellFormed.addressByID_iff id address).1 hnew
  obtain ⟨e₀, hid, hhealth⟩ := health_newEndpointSnapshot sum config (some s) true e he
  simp only [EndpointSnapshot.endpointSnapshotHealth, hid, haddress, hold, if_true] at hhealth
  obtain ⟨old, hmem, holdid, -⟩ := (h.wellFormed.addressByID_iff e.id address).1 hold
  have hsome : s.healthyByID e.id = some (!old.unHealthy) :=
    (h.wellFormed.healthyByID_iff _ _).2 ⟨old, hmem, holdid, by simp⟩
  rw [hsome, Option.getD_some] at hhealth
  rw [hsome, hindex.wellFormed.healthyByID_iff]
  exact ⟨e, he, rfl, by rw [← hhealth, Bool.not_not]⟩

theorem foldl_addNextEndpoint_byID (l : List Endpoint) (base : EndpointSnapshot) :
    (l.foldl (EndpointSnapshot.addNextEndpoint endpointIDs healthy) base).addressByID =
        base.addressByID ∧
      (l.foldl (EndpointSnapshot.addNextEndpoint endpointIDs healthy) base).healthyByID =
        base.healthyByID := by
  induction l generalizing base with
  | nil => exact ⟨rfl, rfl⟩
  | cons e l ih =>
    obtain ⟨haddress, hhealth⟩ := ih (base.addNextEndpoint endpointIDs healthy e)
    rw [List.foldl_cons, haddress, hhealth]
    simp only [EndpointSnapshot.addNextEndpoint]
    split_ifs <;> exact ⟨rfl, rfl⟩

/-- A change of health moves no endpoint and changes the health it was asked to change. -/
theorem withEndpointHealthForIDs_byID (horder : Enumerates order s.healthyByID)
    (hnext : s.withEndpointHealthForIDs order endpointIDs healthy = some (some next)) :
    next.addressByID = s.addressByID ∧ ∀ id, next.healthyByID id =
      (s.healthyByID id).map fun was => if id ∈ endpointIDs then healthy else was := by
  rw [EndpointSnapshot.withEndpointHealthForIDs, nextHealth_eq] at hnext
  split_ifs at hnext
  · simp at hnext
  simp only [Option.some.injEq] at hnext
  subst hnext
  refine ⟨(foldl_addNextEndpoint_byID _ _).1, fun id => ?_⟩
  rw [(foldl_addNextEndpoint_byID _ _).2]
  dsimp only
  by_cases hid : id ∈ order
  · rw [if_pos hid]
  · rw [if_neg hid]
    rw [horder.mem_iff, Option.not_isSome_iff_eq_none] at hid
    rw [hid, Option.map_none]

variable {addressOrder : List String} {endpointAddress : String}

/-- An update of an address sets the health of the endpoints there and of no other. -/
theorem withEndpointAddressHealth_health (h : Indexed s)
    (haddressOrder : Enumerates addressOrder s.addressByID)
    (horder : Enumerates order s.healthyByID)
    (hnext : s.withEndpointAddressHealth addressOrder order endpointAddress healthy =
      some (some next)) {id address : String} (hid : s.addressByID id = some address) :
    next.healthyByID id = if address = endpointAddress then some healthy else s.healthyByID id := by
  obtain ⟨e, he, heid, -⟩ := (h.wellFormed.addressByID_iff id address).1 hid
  have hsome : s.healthyByID id = some (!e.unHealthy) :=
    (h.wellFormed.healthyByID_iff _ _).2 ⟨e, he, heid, by simp⟩
  have hmem : id ∈ addressOrder.filter (fun id => s.addressByID id == some endpointAddress) ↔
      address = endpointAddress := by
    rw [List.mem_filter, haddressOrder.mem_iff, hid]
    simp
  rw [(withEndpointHealthForIDs_byID horder hnext).2, hsome, Option.map_some]
  simp only [hmem]
  split_ifs <;> rfl

/-- An update that changes nothing found every endpoint of the address as it should be. -/
theorem withEndpointAddressHealth_unchanged (h : Indexed s)
    (haddressOrder : Enumerates addressOrder s.addressByID)
    (hsame : s.withEndpointAddressHealth addressOrder order endpointAddress healthy = some none)
    {id : String} (hid : s.addressByID id = some endpointAddress) :
    s.healthyByID id = some healthy := by
  obtain ⟨e, he, heid, -⟩ := (h.wellFormed.addressByID_iff id endpointAddress).1 hid
  have hsome : s.healthyByID id = some (!e.unHealthy) :=
    (h.wellFormed.healthyByID_iff _ _).2 ⟨e, he, heid, by simp⟩
  rw [EndpointSnapshot.withEndpointAddressHealth, EndpointSnapshot.withEndpointHealthForIDs]
    at hsame
  split_ifs at hsame with _ hall
  case neg => simp at hsame
  have hmem : id ∈ addressOrder.filter (fun id => s.addressByID id == some endpointAddress) := by
    rw [List.mem_filter, haddressOrder.mem_iff, hid]
    simp
  have := List.all_eq_true.1 hall id hmem
  rw [hsome] at this ⊢
  simpa using this

end Health

/-! ## One runtime and its goroutines -/

namespace HealthRace

/-- A published snapshot, with the number of health updates accepted before it was there. -/
structure Publication where
  snapshot : EndpointSnapshot
  accepted : ℕ

/-- Where a goroutine stands.  A loaded pointer is the number of snapshots published before the
load, `0` for `nil`. -/
inductive Thread where
  | idle
  /-- `RefreshEndpointsFrom`, at the load. -/
  | refreshLoad (previous : Option EndpointSnapshot)
  /-- `RefreshEndpointsFrom`, before `newEndpointSnapshot`. -/
  | refreshBuild (previous : Option EndpointSnapshot) (current : ℕ)
  /-- `RefreshEndpointsFrom`, at the compare-and-swap. -/
  | refreshSwap (previous : Option EndpointSnapshot) (current : ℕ) (next : EndpointSnapshot)
  /-- `UpdateEndpointAddressHealth`, waiting for `healthMu`. -/
  | updateLock (endpointAddress : String) (healthy : Bool)
  /-- `UpdateEndpointAddressHealth`, at the load. -/
  | updateLoad (endpointAddress : String) (healthy : Bool)
  /-- `UpdateEndpointAddressHealth`, at the compare-and-swap. -/
  | updateSwap (endpointAddress : String) (healthy : Bool) (current : ℕ) (next : EndpointSnapshot)
  /-- `SnapshotForRuntimeReplacement`, waiting for `healthMu`. -/
  | freezeLock
  /-- `SnapshotForRuntimeReplacement`, before it stops health events. -/
  | freezeStop
  /-- `SnapshotForRuntimeReplacement`, at the load. -/
  | freezeLoad
  /-- A function that is about to release `healthMu` and return. -/
  | unlock

/-- A runtime cluster and its goroutines; `log` is the list of the health updates that were
accepted, and `handed` has, for each freeze, what had been published when it loaded its result. -/
structure Runtime where
  config : ClusterConfig
  published : List Publication
  acceptHealthEvents : Bool := true
  healthMu : Option ℕ := none
  threads : ℕ → Thread := fun _ => .idle
  log : List (String × Bool) := []
  handed : List (List Publication) := []

namespace Runtime

/-- `endpoints.Load()`, for the pointer that was stored when so much was published. -/
def load (s : Runtime) (current : ℕ) : Option EndpointSnapshot :=
  match current with
  | 0 => none
  | n + 1 => (s.published[n]?).map (·.snapshot)

/-- One goroutine moves on. -/
def goto (s : Runtime) (t : ℕ) (thread : Thread) : Runtime :=
  { s with threads := Function.update s.threads t thread }

/-- A compare-and-swap that succeeds. -/
def publish (s : Runtime) (next : EndpointSnapshot) : Runtime :=
  { s with published := s.published ++ [⟨next, s.log.length⟩] }

/-- A health update is accepted. -/
def accept (s : Runtime) (endpointAddress : String) (healthy : Bool) : Runtime :=
  { s with log := s.log ++ [(endpointAddress, healthy)] }

end Runtime

/-- `NewClusterWithEndpointSnapshot`: nothing else runs before the first snapshot is there. -/
def newClusterWithEndpointSnapshot (sum : String → String) (clusterConfig : ClusterConfig)
    (previous : Option EndpointSnapshot) : Runtime where
  config := clusterConfig
  published := [⟨.newEndpointSnapshot sum (some clusterConfig) previous
    (clusterConfig.healthChecks != []), 0⟩]

/-- One atomic step.  A goroutine that is idle may call any of the three functions. -/
inductive Step (sum : String → String) : Runtime → Runtime → Prop where
  /-- `SyncConfigEndpoints`. -/
  | sync {s} (endpoints : List (Option Endpoint)) :
      Step sum s { s with config := { s.config with endpoints } }
  | refresh {s t} (previous : Option EndpointSnapshot) : s.threads t = .idle →
      Step sum s (s.goto t (.refreshLoad previous))
  | update {s t} (endpointAddress : String) (healthy : Bool) : s.threads t = .idle →
      Step sum s (s.goto t (.updateLock endpointAddress healthy))
  | freeze {s t} : s.threads t = .idle → Step sum s (s.goto t .freezeLock)
  | refreshLoad {s t previous} : s.threads t = .refreshLoad previous →
      Step sum s (s.goto t (.refreshBuild previous s.published.length))
  /-- The source is the loaded snapshot, and `previous` only when nothing was loaded. -/
  | refreshBuild {s t previous current} : s.threads t = .refreshBuild previous current →
      Step sum s (s.goto t (.refreshSwap previous current
        (.newEndpointSnapshot sum (some s.config) ((s.load current).or previous)
          (s.config.healthChecks != []))))
  | refreshSwap {s t previous current next} : s.threads t = .refreshSwap previous current next →
      s.published.length = current → Step sum s ((s.publish next).goto t .idle)
  | refreshRetry {s t previous current next} : s.threads t = .refreshSwap previous current next →
      s.published.length ≠ current → Step sum s (s.goto t (.refreshLoad previous))
  | updateLock {s t a healthy} : s.threads t = .updateLock a healthy → s.healthMu = none →
      s.acceptHealthEvents = true →
      Step sum s ({ s with healthMu := some t }.goto t (.updateLoad a healthy))
  | updateReject {s t a healthy} : s.threads t = .updateLock a healthy → s.healthMu = none →
      s.acceptHealthEvents = false → Step sum s ({ s with healthMu := some t }.goto t .unlock)
  | updateNil {s t a healthy} : s.threads t = .updateLoad a healthy →
      s.load s.published.length = none → Step sum s (s.goto t .unlock)
  | updateMiss {s t a healthy current addressOrder order} : s.threads t = .updateLoad a healthy →
      s.load s.published.length = some current → Enumerates addressOrder current.addressByID →
      Enumerates order current.healthyByID →
      current.withEndpointAddressHealth addressOrder order a healthy = none →
      Step sum s (s.goto t .unlock)
  /-- `next == current`: the update is accepted without a swap. -/
  | updateSame {s t a healthy current addressOrder order} : s.threads t = .updateLoad a healthy →
      s.load s.published.length = some current → Enumerates addressOrder current.addressByID →
      Enumerates order current.healthyByID →
      current.withEndpointAddressHealth addressOrder order a healthy = some none →
      Step sum s ((s.accept a healthy).goto t .unlock)
  | updateBuild {s t a healthy current addressOrder order next} :
      s.threads t = .updateLoad a healthy →
      s.load s.published.length = some current → Enumerates addressOrder current.addressByID →
      Enumerates order current.healthyByID →
      current.withEndpointAddressHealth addressOrder order a healthy = some (some next) →
      Step sum s (s.goto t (.updateSwap a healthy s.published.length next))
  | updateSwap {s t a healthy current next} : s.threads t = .updateSwap a healthy current next →
      s.published.length = current → Step sum s (((s.accept a healthy).publish next).goto t .unlock)
  | updateRetry {s t a healthy current next} : s.threads t = .updateSwap a healthy current next →
      s.published.length ≠ current → Step sum s (s.goto t (.updateLoad a healthy))
  | freezeLock {s t} : s.threads t = .freezeLock → s.healthMu = none →
      Step sum s ({ s with healthMu := some t }.goto t .freezeStop)
  | freezeStop {s t} : s.threads t = .freezeStop →
      Step sum s ({ s with acceptHealthEvents := false }.goto t .freezeLoad)
  | freezeLoad {s t} : s.threads t = .freezeLoad →
      Step sum s ({ s with handed := s.handed ++ [s.published] }.goto t .unlock)
  | unlock {s t} : s.threads t = .unlock →
      Step sum s ({ s with healthMu := none }.goto t .idle)

/-! ## What should hold -/

/-- The last verdict on an address in a list of accepted updates. -/
def lastVerdict (log : List (String × Bool)) (address : String) : Option Bool :=
  log.foldl (fun verdict update => if update.1 = address then some update.2 else verdict) none

/-- An endpoint that was there, with its address, in all these publications. -/
def Present (published : List Publication) (id address : String) : Prop :=
  ∀ p ∈ published, p.snapshot.addressByID id = some address

/-- In the last snapshot, an endpoint that has been there since some publication has the health
of the last verdict accepted since, and otherwise the health it had in that publication. -/
def Settled (published : List Publication) (log : List (String × Bool)) : Prop :=
  ∀ i p last id address, published[i]? = some p → published.getLast? = some last →
    Present (published.drop i) id address →
    last.snapshot.healthyByID id =
      (lastVerdict (log.drop p.accepted) address).or (p.snapshot.healthyByID id)

theorem lastVerdict_append (log log' : List (String × Bool)) (address : String) :
    lastVerdict (log ++ log') address = (lastVerdict log' address).or
      (lastVerdict log address) := by
  induction log' using List.reverseRecOn with
  | nil => rw [List.append_nil]; rfl
  | append_singleton log' update ih =>
    simp only [lastVerdict] at ih ⊢
    rw [← List.append_assoc, List.foldl_append, List.foldl_append (l := log'), ih]
    simp only [List.foldl_cons, List.foldl_nil]
    split_ifs <;> rfl

theorem lastVerdict_singleton (endpointAddress : String) (healthy : Bool) (address : String) :
    lastVerdict [(endpointAddress, healthy)] address =
      if endpointAddress = address then some healthy else none := rfl

/-! ## The lock

Whoever is between taking and releasing `healthMu` is the one who holds it, and once health
events are stopped no update is on its way. -/

/-- The goroutine has `healthMu`. -/
def Thread.locked : Thread → Prop
  | .updateLoad .. | .updateSwap .. | .freezeStop | .freezeLoad | .unlock => True
  | _ => False

/-- The goroutine may still accept its update. -/
def Thread.updating : Thread → Prop
  | .updateLoad .. | .updateSwap .. => True
  | _ => False

/-- The discipline of the lock. -/
structure Locking (s : Runtime) : Prop where
  holder : ∀ t, (s.threads t).locked → s.healthMu = some t
  stopped : s.acceptHealthEvents = false → ∀ t, ¬ (s.threads t).updating
  loading : ∀ t, s.threads t = .freezeLoad → s.acceptHealthEvents = false

section Steps

variable {sum : String → String} {s s' : Runtime}

theorem Thread.locked_of_updating {thread : Thread} (h : thread.updating) : thread.locked := by
  cases thread <;> simp_all [Thread.updating, Thread.locked]

/-- The other goroutines stand where they stood. -/
theorem threads_goto (s : Runtime) (t t' : ℕ) (thread : Thread) :
    (s.goto t thread).threads t' = if t' = t then thread else s.threads t' := by
  simp only [Runtime.goto, Function.update_apply]

/-- A step that neither takes nor releases the lock. -/
theorem Locking.goto (h : Locking s) {t : ℕ} {thread : Thread}
    (hlocked : thread.locked → (s.threads t).locked)
    (hupdating : thread.updating → (s.threads t).updating)
    (hloading : thread = .freezeLoad → s.acceptHealthEvents = false) :
    Locking (s.goto t thread) where
  holder t' ht' := by
    rw [threads_goto] at ht'
    split_ifs at ht' with heq
    · exact h.holder t' (heq ▸ hlocked ht')
    · exact h.holder t' ht'
  stopped hstop t' ht' := by
    rw [threads_goto] at ht'
    split_ifs at ht' with heq
    · exact h.stopped hstop t (hupdating ht')
    · exact h.stopped hstop t' ht'
  loading t' ht' := by
    rw [threads_goto] at ht'
    split_ifs at ht' with heq
    · exact hloading ht'
    · exact h.loading t' ht'

theorem Locking.publish (h : Locking s) (next : EndpointSnapshot) : Locking (s.publish next) :=
  ⟨h.holder, h.stopped, h.loading⟩

theorem Locking.accept (h : Locking s) (endpointAddress : String) (healthy : Bool) :
    Locking (s.accept endpointAddress healthy) :=
  ⟨h.holder, h.stopped, h.loading⟩

/-- A step that takes the lock. -/
theorem Locking.lock (h : Locking s) {t : ℕ} {thread : Thread} (hmu : s.healthMu = none)
    (hupdating : thread.updating → s.acceptHealthEvents = true) (hloading : thread ≠ .freezeLoad) :
    Locking ({ s with healthMu := some t }.goto t thread) where
  holder t' ht' := by
    rw [threads_goto] at ht'
    split_ifs at ht' with heq
    · exact congrArg some heq.symm
    · have := h.holder t' ht'
      rw [hmu] at this
      cases this
  stopped hstop t' ht' := by
    rw [threads_goto] at ht'
    split_ifs at ht' with heq
    · exact Bool.false_ne_true (hstop.symm.trans (hupdating ht'))
    · exact h.stopped hstop t' ht'
  loading t' ht' := by
    rw [threads_goto] at ht'
    split_ifs at ht' with heq
    · exact absurd ht' hloading
    · exact h.loading t' ht'

/-- Nobody but the holder has the lock. -/
theorem Locking.unique (h : Locking s) {t t' : ℕ} (ht : (s.threads t).locked)
    (ht' : (s.threads t').locked) : t' = t :=
  Option.some_inj.1 ((h.holder t' ht').symm.trans (h.holder t ht))

theorem locking_step (h : Locking s) (hstep : Step sum s s') : Locking s' := by
  cases hstep with
  | sync endpoints => exact ⟨h.holder, h.stopped, h.loading⟩
  | updateLock ht hmu haccept => exact h.lock hmu (fun _ => haccept) nofun
  | updateReject ht hmu haccept => exact h.lock hmu nofun nofun
  | freezeLock ht hmu => exact h.lock hmu nofun nofun
  | @freezeStop t ht =>
    have hlocked : (s.threads t).locked := ht ▸ trivial
    refine ⟨fun t' ht' => ?_, fun _ t' ht' => ?_, fun _ _ => rfl⟩
    · rw [threads_goto] at ht'
      split_ifs at ht' with heq
      · exact heq ▸ h.holder t hlocked
      · exact h.holder t' ht'
    · -- an update on its way would have the lock that the freeze has
      rw [threads_goto] at ht'
      split_ifs at ht' with heq
      · exact ht'
      · exact heq (h.unique hlocked (Thread.locked_of_updating ht'))
  | @unlock t ht =>
    have hlocked : (s.threads t).locked := ht ▸ trivial
    refine ⟨fun t' ht' => ?_, fun hstop t' ht' => ?_, fun t' ht' => ?_⟩
    · rw [threads_goto] at ht'
      split_ifs at ht' with heq
      · exact ht'.elim
      · exact absurd (h.unique hlocked ht') heq
    · rw [threads_goto] at ht'
      split_ifs at ht' with heq
      · exact ht'
      · exact h.stopped hstop t' ht'
    · rw [threads_goto] at ht'
      split_ifs at ht' with heq
      exact h.loading t' ht'
  | refresh previous ht => exact h.goto nofun nofun nofun
  | update a healthy ht => exact h.goto nofun nofun nofun
  | freeze ht => exact h.goto nofun nofun nofun
  | refreshLoad ht => exact h.goto nofun nofun nofun
  | refreshBuild ht => exact h.goto nofun nofun nofun
  | refreshSwap ht hlength => exact (h.publish _).goto nofun nofun nofun
  | refreshRetry ht hlength => exact h.goto nofun nofun nofun
  | updateNil ht => exact h.goto (fun _ => ht ▸ trivial) nofun nofun
  | updateMiss ht => exact h.goto (fun _ => ht ▸ trivial) nofun nofun
  | @updateSame t _ _ _ _ _ ht =>
    have hlocked : (s.threads t).locked := ht ▸ trivial
    exact (h.accept _ _).goto (fun _ => hlocked) nofun nofun
  | updateBuild ht => exact h.goto (fun _ => ht ▸ trivial) (fun _ => ht ▸ trivial) nofun
  | @updateSwap t _ _ _ _ ht =>
    have hlocked : (s.threads t).locked := ht ▸ trivial
    exact ((h.accept _ _).publish _).goto (fun _ => hlocked) nofun nofun
  | updateRetry ht => exact h.goto (fun _ => ht ▸ trivial) (fun _ => ht ▸ trivial) nofun
  | @freezeLoad t ht =>
    have hlocked : (s.threads t).locked := ht ▸ trivial
    have hhanded : Locking { s with handed := s.handed ++ [s.published] } :=
      ⟨h.holder, h.stopped, h.loading⟩
    exact hhanded.goto (fun _ => hlocked) nofun nofun

end Steps

/-! ## The journal of publications -/

/-- What the published snapshots and the accepted updates have to do with each other. -/
structure Journal (published : List Publication) (log : List (String × Bool)) : Prop where
  indexed : ∀ p ∈ published, Indexed p.snapshot
  accepted : ∀ p ∈ published, p.accepted ≤ log.length
  settled : Settled published log

section Journal

variable {published : List Publication} {log n : List (String × Bool)} {last : Publication}
  {next : EndpointSnapshot}

theorem mem_drop_of_getLast? (hlast : published.getLast? = some last) {i : ℕ}
    (hi : i < published.length) : last ∈ published.drop i := by
  refine List.mem_of_getLast? ?_
  rw [List.getLast?_drop, if_neg (by omega), hlast]

/-- **One publication**: a snapshot is swapped in for the last one, together with the updates that
this accepts. -/
theorem Journal.publish (h : Journal published log) (hlast : published.getLast? = some last)
    (hindex : Indexed next)
    (hnext : ∀ id address, last.snapshot.addressByID id = some address →
      next.addressByID id = some address → next.healthyByID id =
        (lastVerdict n address).or (last.snapshot.healthyByID id)) :
    Journal (published ++ [⟨next, (log ++ n).length⟩]) (log ++ n) where
  indexed p hp := by
    rcases List.mem_append.1 hp with hp | hp
    · exact h.indexed p hp
    · rwa [List.mem_singleton.1 hp]
  accepted p hp := by
    rcases List.mem_append.1 hp with hp | hp
    · exact (h.accepted p hp).trans (by simp)
    · rw [List.mem_singleton.1 hp]
  settled i p last' id address hp hlast' hpresent := by
    rw [List.getLast?_append] at hlast'
    obtain rfl : (⟨next, (log ++ n).length⟩ : Publication) = last' := Option.some_inj.1 hlast'
    rcases lt_or_ge i published.length with hi | hi
    · -- the endpoint was in the last snapshot as well, whose health is known
      rw [List.getElem?_append_left hi] at hp
      rw [List.drop_append_of_le_length hi.le] at hpresent
      have hpresent' : Present (published.drop i) id address := fun q hq =>
        hpresent q (List.mem_append_left _ hq)
      have hold := hpresent' last (mem_drop_of_getLast? hlast hi)
      have hnew := hpresent ⟨next, (log ++ n).length⟩ (by simp)
      rw [hnext id address hold hnew, h.settled i p last id address hp hlast hpresent',
        List.drop_append_of_le_length (h.accepted p (List.mem_of_getElem? hp)), lastVerdict_append,
        Option.or_assoc]
    · rw [List.getElem?_append_right hi] at hp
      rw [List.mem_singleton.1 (List.mem_of_getElem? hp), List.drop_length]
      rfl

/-- **An update that changes nothing** is accepted. -/
theorem Journal.accept (h : Journal published log) (hlast : published.getLast? = some last)
    (hsame : ∀ id address, last.snapshot.addressByID id = some address →
      last.snapshot.healthyByID id = (lastVerdict n address).or (last.snapshot.healthyByID id)) :
    Journal published (log ++ n) where
  indexed := h.indexed
  accepted p hp := (h.accepted p hp).trans (by simp)
  settled i p last' id address hp hlast' hpresent := by
    obtain rfl : last = last' := Option.some_inj.1 (hlast.symm.trans hlast')
    have hi : i < published.length := (List.getElem?_eq_some_iff.1 hp).1
    have hold := hpresent last (mem_drop_of_getLast? hlast hi)
    rw [hsame id address hold, h.settled i p last id address hp hlast hpresent,
      List.drop_append_of_le_length (h.accepted p (List.mem_of_getElem? hp)), lastVerdict_append,
      Option.or_assoc]

end Journal

/-! ## The journal along a run -/

/-- What a goroutine has built from a snapshot that is still the last one. -/
def Built (sum : String → String) (published : List Publication) : Thread → Prop
  | .refreshBuild _ current => current ≤ published.length
  | .refreshSwap _ current next => current ≤ published.length ∧
      (published.length = current → ∃ config last, published.getLast? = some last ∧
        next = .newEndpointSnapshot sum (some config) (some last.snapshot) true)
  | .updateSwap a healthy current next => current ≤ published.length ∧
      (published.length = current → ∃ last addressOrder order, published.getLast? = some last ∧
        Enumerates addressOrder last.snapshot.addressByID ∧
        Enumerates order last.snapshot.healthyByID ∧
        last.snapshot.withEndpointAddressHealth addressOrder order a healthy = some (some next))
  | _ => True

/-- The invariant of a run from a runtime whose first publication is `first`. -/
structure Sound (sum : String → String) (first : Publication) (s : Runtime) : Prop where
  checks : s.config.healthChecks ≠ []
  head : s.published.head? = some first
  journal : Journal s.published s.log
  built : ∀ t, Built sum s.published (s.threads t)

section Runs

variable {sum : String → String} {first : Publication} {s s' : Runtime}

theorem Sound.getLast? (h : Sound sum first s) : ∃ last, s.published.getLast? = some last := by
  rw [← Option.isSome_iff_exists, List.getLast?_isSome]
  rintro hnil
  have := h.head
  rw [hnil] at this
  cases this

/-- The pointer that is loaded now is the last publication. -/
theorem load_length {last : Publication} (h : s.published.getLast? = some last) :
    s.load s.published.length = some last.snapshot := by
  rw [List.getLast?_eq_getElem?] at h
  cases hlength : s.published.length with
  | zero => simp [List.length_eq_zero_iff.1 hlength] at h
  | succ n =>
    rw [hlength, Nat.add_sub_cancel] at h
    simp [Runtime.load, h]

/-- Whatever was built from what is no longer the last publication does not matter. -/
theorem Built.publish {published : List Publication} {thread : Thread} (p : Publication)
    (h : Built sum published thread) : Built sum (published ++ [p]) thread := by
  cases thread with
  | refreshBuild previous current =>
    simp only [Built, List.length_append, List.length_singleton] at h ⊢
    omega
  | refreshSwap previous current next =>
    simp only [Built, List.length_append, List.length_singleton] at h ⊢
    exact ⟨by omega, fun heq => absurd h.1 (by omega)⟩
  | updateSwap a healthy current next =>
    simp only [Built, List.length_append, List.length_singleton] at h ⊢
    exact ⟨by omega, fun heq => absurd h.1 (by omega)⟩
  | _ => trivial

theorem Sound.goto (h : Sound sum first s) {t : ℕ} {thread : Thread}
    (hthread : Built sum s.published thread) : Sound sum first (s.goto t thread) where
  checks := h.checks
  head := h.head
  journal := h.journal
  built t' := by
    rw [threads_goto]
    split_ifs
    · exact hthread
    · exact h.built t'

/-- The lock and the results of the freezes play no part. -/
theorem Sound.setLock (h : Sound sum first s) (healthMu : Option ℕ) (acceptHealthEvents : Bool)
    (handed : List (List Publication)) :
    Sound sum first { s with healthMu, acceptHealthEvents, handed } :=
  ⟨h.checks, h.head, h.journal, h.built⟩

theorem Sound.accept (h : Sound sum first s) {a : String} {healthy : Bool}
    (hjournal : Journal s.published (s.log ++ [(a, healthy)])) :
    Sound sum first (s.accept a healthy) :=
  ⟨h.checks, h.head, hjournal, h.built⟩

theorem Sound.publish (h : Sound sum first s) {log : List (String × Bool)} {next : EndpointSnapshot}
    (hjournal : Journal (s.published ++ [⟨next, log.length⟩]) log) :
    Sound sum first ({ s with log }.publish next) where
  checks := h.checks
  head := by
    rw [Runtime.publish, List.head?_append, h.head]
    rfl
  journal := hjournal
  built t := (h.built t).publish _

theorem sound_step (h : Sound sum first s) (hstep : Step sum s s') : Sound sum first s' := by
  obtain ⟨last, hlast⟩ := h.getLast?
  have hindex := h.journal.indexed last (List.mem_of_getLast? hlast)
  cases hstep with
  | sync endpoints => exact ⟨h.checks, h.head, h.journal, h.built⟩
  | refreshLoad ht => exact h.goto (le_refl _)
  | @refreshBuild t previous current ht =>
    have hle : Built sum s.published (.refreshBuild previous current) := ht ▸ h.built t
    refine h.goto ⟨hle, fun heq => ⟨s.config, last, hlast, ?_⟩⟩
    rw [← heq, load_length hlast, bne_iff_ne.2 h.checks]
    rfl
  | @refreshSwap t previous current next ht hlength =>
    have hbuilt : Built sum s.published (.refreshSwap previous current next) := ht ▸ h.built t
    obtain ⟨config, last', hlast', rfl⟩ := hbuilt.2 hlength
    obtain rfl : last = last' := Option.some_inj.1 (hlast.symm.trans hlast')
    have hjournal := h.journal.publish (n := []) hlast (indexed_newEndpointSnapshot ..)
      fun id address hold hnew => newEndpointSnapshot_inherits sum config hindex hold hnew
    rw [List.append_nil] at hjournal
    exact (h.publish hjournal).goto trivial
  | @updateSame t a healthy current addressOrder order ht hload haddressOrder horder hsame =>
    obtain rfl : last.snapshot = current := Option.some_inj.1 ((load_length hlast).symm.trans hload)
    refine (h.accept (h.journal.accept hlast ?_)).goto trivial
    intro id address hid
    rw [lastVerdict_singleton]
    split_ifs with heq
    · rw [withEndpointAddressHealth_unchanged hindex haddressOrder hsame (heq ▸ hid)]
      rfl
    · rfl
  | @updateBuild t a healthy current addressOrder order next ht hload haddressOrder horder hnext =>
    obtain rfl : last.snapshot = current := Option.some_inj.1 ((load_length hlast).symm.trans hload)
    exact h.goto ⟨le_refl _, fun _ => ⟨last, _, _, hlast, haddressOrder, horder, hnext⟩⟩
  | @updateSwap t a healthy current next ht hlength =>
    have hbuilt : Built sum s.published (.updateSwap a healthy current next) := ht ▸ h.built t
    obtain ⟨last', addressOrder, order, hlast', haddressOrder, horder, hnext⟩ := hbuilt.2 hlength
    obtain rfl : last = last' := Option.some_inj.1 (hlast.symm.trans hlast')
    refine (h.publish (h.journal.publish hlast
      (hindex.withEndpointHealthForIDs horder hnext) ?_)).goto trivial
    intro id address hold _
    rw [withEndpointAddressHealth_health hindex haddressOrder horder hnext hold,
      lastVerdict_singleton]
    by_cases heq : address = a
    · rw [if_pos heq, if_pos heq.symm]
      rfl
    · rw [if_neg heq, if_neg fun hsymm => heq hsymm.symm]
      rfl
  | refresh previous ht => exact h.goto trivial
  | update a healthy ht => exact h.goto trivial
  | freeze ht => exact h.goto trivial
  | refreshRetry ht => exact h.goto trivial
  | updateNil ht => exact h.goto trivial
  | updateMiss ht => exact h.goto trivial
  | updateRetry ht => exact h.goto trivial
  | updateLock ht => exact (h.setLock _ _ _).goto trivial
  | updateReject ht => exact (h.setLock _ _ _).goto trivial
  | freezeLock ht => exact (h.setLock _ _ _).goto trivial
  | freezeStop ht => exact (h.setLock _ _ _).goto trivial
  | freezeLoad ht => exact (h.setLock _ _ _).goto trivial
  | unlock ht => exact (h.setLock _ _ _).goto trivial

/-- **A frozen runtime** stays frozen and accepts no update. -/
theorem frozen_step (h : Locking s) (hstop : s.acceptHealthEvents = false) (hstep : Step sum s s') :
    s'.acceptHealthEvents = false ∧ s'.log = s.log := by
  cases hstep with
  | @updateSame t _ _ _ _ _ ht =>
    have hupdating : (s.threads t).updating := ht ▸ trivial
    exact absurd hupdating (h.stopped hstop t)
  | @updateSwap t _ _ _ _ ht =>
    have hupdating : (s.threads t).updating := ht ▸ trivial
    exact absurd hupdating (h.stopped hstop t)
  | freezeStop ht => exact ⟨rfl, rfl⟩
  | _ => exact ⟨hstop, rfl⟩

theorem handed_step (h : Locking s) (hstep : Step sum s s') : s'.handed = s.handed ∨
    s'.handed = s.handed ++ [s.published] ∧ s.acceptHealthEvents = false := by
  cases hstep with
  | @freezeLoad t ht => exact .inr ⟨rfl, h.loading t ht⟩
  | _ => exact .inl rfl

/-- Everything that is kept along a run. -/
structure Invariant (sum : String → String) (first : Publication) (s : Runtime) : Prop where
  locking : Locking s
  sound : Sound sum first s
  handed : ∀ h ∈ s.handed, s.acceptHealthEvents = false ∧ Journal h s.log ∧
    ∃ last, h.getLast? = some last

theorem invariant_step (h : Invariant sum first s) (hstep : Step sum s s') :
    Invariant sum first s' := by
  refine ⟨locking_step h.locking hstep, sound_step h.sound hstep, fun published hmem => ?_⟩
  rcases handed_step h.locking hstep with hhanded | ⟨hhanded, hstop⟩
  · rw [hhanded] at hmem
    obtain ⟨hstop, hjournal, hlast⟩ := h.handed published hmem
    obtain ⟨hstop', hlog⟩ := frozen_step h.locking hstop hstep
    exact ⟨hstop', hlog ▸ hjournal, hlast⟩
  · obtain ⟨hstop', hlog⟩ := frozen_step h.locking hstop hstep
    rw [hhanded] at hmem
    rcases List.mem_append.1 hmem with hmem | hmem
    · obtain ⟨-, hjournal, hlast⟩ := h.handed published hmem
      exact ⟨hstop', hlog ▸ hjournal, hlast⟩
    · rw [List.mem_singleton.1 hmem]
      exact ⟨hstop', hlog ▸ h.sound.journal, h.sound.getLast?⟩

theorem invariant_start {config : ClusterConfig} (hchecks : config.healthChecks ≠ [])
    (previous : Option EndpointSnapshot) :
    Invariant sum ⟨.newEndpointSnapshot sum (some config) previous true, 0⟩
      (newClusterWithEndpointSnapshot sum config previous) := by
  have hinherit : (config.healthChecks != []) = true := bne_iff_ne.2 hchecks
  rw [newClusterWithEndpointSnapshot, hinherit]
  generalize hfirst : EndpointSnapshot.newEndpointSnapshot sum (some config) previous true = first
  have hindex : Indexed first := hfirst ▸ indexed_newEndpointSnapshot ..
  refine ⟨⟨nofun, nofun, nofun⟩, ⟨hchecks, rfl, ⟨?_, ?_, ?_⟩, fun _ => trivial⟩, nofun⟩
  · intro p hp
    rwa [List.mem_singleton.1 hp]
  · intro p hp
    rw [List.mem_singleton.1 hp]
    exact le_refl _
  · intro i p last id address hp hlast _
    obtain rfl := List.mem_singleton.1 (List.mem_of_getElem? hp)
    obtain rfl := List.mem_singleton.1 (List.mem_of_getLast? hlast)
    rfl

theorem invariant_of_run {config : ClusterConfig} (hchecks : config.healthChecks ≠ [])
    {previous : Option EndpointSnapshot}
    (hrun : ReflTransGen (Step sum) (newClusterWithEndpointSnapshot sum config previous) s) :
    Invariant sum ⟨.newEndpointSnapshot sum (some config) previous true, 0⟩ s :=
  System.invariant_run hrun (invariant_start hchecks previous) fun _ _ h hstep =>
    invariant_step h hstep

/-- A publication of the replacement, in the time of both runtimes. -/
def Publication.after (p : Publication) (accepted : ℕ) : Publication :=
  { p with accepted := accepted + p.accepted }

/-- The history of a runtime goes on in the runtime that replaces it. -/
theorem Journal.replace {published : List Publication} {log : List (String × Bool)}
    {last first : Publication} (h : Journal published log) (hlast : published.getLast? = some last)
    (hinherit : ∀ id address, last.snapshot.addressByID id = some address →
      first.snapshot.addressByID id = some address →
      first.snapshot.healthyByID id = last.snapshot.healthyByID id) (haccepted : first.accepted = 0)
    {published' : List Publication} {log' : List (String × Bool)} (h' : Journal published' log')
    (hfirst : published'.head? = some first) :
    Settled (published ++ published'.map (·.after log.length)) (log ++ log') := by
  intro i p final id address hp hfinal hpresent
  obtain ⟨rest, rfl⟩ := List.head?_eq_some_iff.1 hfirst
  obtain ⟨final', hfinal'⟩ : ∃ final', (first :: rest).getLast? = some final' :=
    ⟨_, List.getLast?_eq_some_getLast (List.cons_ne_nil _ _)⟩
  rw [List.getLast?_append, List.getLast?_map, hfinal'] at hfinal
  obtain rfl : final'.after log.length = final := Option.some_inj.1 hfinal
  rw [Present, List.drop_append] at hpresent
  rcases lt_or_ge i published.length with hi | hi
  · -- the endpoint came over from the replaced runtime
    rw [List.getElem?_append_left hi] at hp
    rw [Nat.sub_eq_zero_of_le hi.le, List.drop_zero] at hpresent
    have hold : Present (published.drop i) id address := fun q hq =>
      hpresent q (List.mem_append_left _ hq)
    have hnew : Present ((first :: rest).drop 0) id address := fun q hq =>
      hpresent (q.after log.length) (List.mem_append_right _ (List.mem_map_of_mem hq))
    have hverdict := h'.settled 0 first final' id address rfl hfinal' hnew
    rw [haccepted, List.drop_zero, hinherit id address (hold last (mem_drop_of_getLast? hlast hi))
      (hnew first (by simp)), h.settled i p last id address hp hlast hold, ← Option.or_assoc,
      ← lastVerdict_append, ← List.drop_append_of_le_length
        (h.accepted p (List.mem_of_getElem? hp))] at hverdict
    exact hverdict
  · rw [List.getElem?_append_right hi, List.getElem?_map, Option.map_eq_some_iff] at hp
    obtain ⟨q, hq, rfl⟩ := hp
    rw [List.drop_eq_nil_of_le hi, List.nil_append] at hpresent
    have hnew : Present ((first :: rest).drop (i - published.length)) id address := by
      intro q hq
      refine hpresent (q.after log.length) ?_
      rw [← List.map_drop]
      exact List.mem_map_of_mem hq
    have hverdict := h'.settled _ q final' id address hq hfinal' hnew
    simp only [Publication.after, List.drop_length_add_append]
    exact hverdict

/-- **No verdict is lost.**  In every interleaving of refreshes, address health updates and freezes:
the last snapshot shows the last accepted verdict on every endpoint that has been there; once
health events are stopped, no update is accepted; and the snapshot that a freeze hands over
shows every update that was accepted, and so does every snapshot of the runtime that replaces
this one. -/
theorem no_verdict_lost (sum : String → String) {config : ClusterConfig}
    (hchecks : config.healthChecks ≠ []) (previous : Option EndpointSnapshot) {s : Runtime}
    (hrun : ReflTransGen (Step sum) (newClusterWithEndpointSnapshot sum config previous) s) :
    Settled s.published s.log ∧
      (s.acceptHealthEvents = false → ∀ s', ReflTransGen (Step sum) s s' → s'.log = s.log) ∧
      ∀ published ∈ s.handed, s.acceptHealthEvents = false ∧ Settled published s.log ∧
        ∃ last, published.getLast? = some last ∧
          ∀ config' : ClusterConfig, config'.healthChecks ≠ [] → ∀ s', ReflTransGen (Step sum)
            (newClusterWithEndpointSnapshot sum config' (some last.snapshot)) s' →
            Settled (published ++ s'.published.map (·.after s.log.length)) (s.log ++ s'.log) := by
  have hinv := invariant_of_run hchecks hrun
  refine ⟨hinv.sound.journal.settled, fun hstop s' hrun' => ?_, fun published hmem => ?_⟩
  · refine System.eq_of_run (P := fun s => Locking s ∧ s.acceptHealthEvents = false) (·.log) hrun'
      ⟨hinv.locking, hstop⟩ fun s₁ s₂ h hstep => ?_
    obtain ⟨hstop', hlog⟩ := frozen_step h.1 h.2 hstep
    exact ⟨⟨locking_step h.1 hstep, hstop'⟩, hlog⟩
  · obtain ⟨hstop, hjournal, last, hlast⟩ := hinv.handed published hmem
    refine ⟨hstop, hjournal.settled, last, hlast, fun config' hchecks' s' hrun' => ?_⟩
    have hinv' := invariant_of_run hchecks' hrun'
    have hindex := hjournal.indexed last (List.mem_of_getLast? hlast)
    exact hjournal.replace hlast
      (fun id address hold hnew => newEndpointSnapshot_inherits sum config' hindex hold hnew) rfl
      hinv'.sound.journal hinv'.sound.head

/-- A cluster of two endpoints that share an address, with a health check. -/
def checkedAddress : ClusterConfig := { sharedAddress with healthChecks := [{}] }

/-- One goroutine marks the address as down, then another one freezes the runtime: the endpoint
is down in what is handed over. -/
theorem no_verdict_lost_checkedAddress : ∃ s last, ReflTransGen (Step id)
    (newClusterWithEndpointSnapshot id checkedAddress none) s ∧ s.log = [("h", false)] ∧
    (∃ published ∈ s.handed, published.getLast? = some last) ∧
    last.snapshot.healthyByID "a" = some false := by
  have hnew := indexed_newEndpointSnapshot id (some checkedAddress) none true
  have hall : ["a", "b"] = (EndpointSnapshot.newEndpointSnapshot id (some checkedAddress) none
      true).all.map (·.id) := rfl
  obtain ⟨haddressOrder, horder⟩ := hnew.enumerates (List.Perm.of_eq hall)
  have hrun := ((((((((((ReflTransGen.refl
    (a := newClusterWithEndpointSnapshot id checkedAddress none) (r := Step id)).tail
    (.update (t := 0) "h" false rfl)).tail (.updateLock (t := 0) rfl rfl rfl)).tail
    (.updateBuild (t := 0) rfl rfl haddressOrder horder rfl)).tail
      (.updateSwap (t := 0) rfl rfl)).tail
    (.unlock (t := 0) rfl)).tail (.freeze (t := 1) rfl)).tail (.freezeLock (t := 1) rfl rfl)).tail
    (.freezeStop (t := 1) rfl)).tail (.freezeLoad (t := 1) rfl)).tail (.unlock (t := 1) rfl)
  obtain ⟨-, -, hhanded⟩ := no_verdict_lost id (by decide) none hrun
  obtain ⟨-, hsettled, last, hlast, -⟩ := hhanded _ (List.mem_singleton.2 rfl)
  refine ⟨_, last, hrun, rfl, ⟨_, List.mem_singleton.2 rfl, hlast⟩, ?_⟩
  exact hsettled 0 _ last "a" "h" rfl hlast (by
    intro p hp
    rcases List.mem_cons.1 hp with rfl | hp
    · rfl
    · rw [List.mem_singleton.1 hp]
      rfl)

end Runs

end HealthRace

end Pixiu.Cluster
