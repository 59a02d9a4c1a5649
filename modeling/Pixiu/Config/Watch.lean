import Pixiu.Base.System
import Pixiu.Config.ApiConfig

/-!
# Reading and watching

`LoadAPIConfig` reads the entries of etcd and starts `listenResourceAndMethodEvent`, which creates a
watch, receives one batch of events from it, handles them and creates the next watch.  Others write
to etcd all the time.

etcd is a log of writes.  A watch delivers the writes that are committed after it was created, in
order; a batch is any number of them.  `handled` has the places in the log of the writes that were
handled.

* `Watcher.handledOnce_step_iff` — when one step keeps all writes handled once, or to be delivered.
* `writes_handled_once_iff` — the same for whole runs.
-/

namespace Pixiu.Config

variable {ρ μ : Type}

/-- Where the loader or the loop is: before the entries are read, at the top of the loop, with a
watch that was created when so many writes were in the log, with a batch that starts at a place in
the log, or at the end. -/
inductive Phase where
  | loading
  | top
  | watching (since : ℕ)
  | received (first count : ℕ)
  | stopped
  deriving DecidableEq, Repr

/-- The loader and the loop, with the log of etcd. -/
structure Watcher (ρ μ : Type) where
  log : List Event
  /-- How many writes were in the log when the entries were read. -/
  read : Option ℕ
  phase : Phase
  handled : List ℕ
  conf : APIConfig ρ μ

/-- A step of the loader, of the loop or of a writer. -/
inductive WatchOp where
  | write (event : Event)
  | getChildren
  | watchWithPrefix (err : Bool)
  | receive (count : ℕ)
  | receiveErr
  /-- The client has stopped, or the channel is closed. -/
  | done
  | handleBatch

namespace Watcher

/-- Before the entries are read. -/
def start (log : List Event) : Watcher ρ μ := ⟨log, none, .loading, [], {}⟩

/-- One step, if it can be made. -/
def step (yaml : Yaml ρ μ) (s : Watcher ρ μ) : WatchOp → Option (Watcher ρ μ)
  | .write event => some { s with log := s.log ++ [event] }
  | .getChildren =>
    match s.phase with
    | .loading =>
      match initAPIConfigFromKVList yaml (s.log.foldl Event.apply []) with
      | none => some { s with read := some s.log.length, phase := .stopped }
      | some conf => some { s with read := some s.log.length, phase := .top, conf }
    | _ => none
  | .watchWithPrefix err =>
    match s.phase with
    | .top => some { s with phase := if err then .stopped else .watching s.log.length }
    | _ => none
  | .receive count =>
    match s.phase with
    | .watching since =>
      if 0 < count ∧ since + count ≤ s.log.length then
        some { s with phase := .received since count } else none
    | _ => none
  | .receiveErr =>
    match s.phase with
    | .watching _ => some { s with phase := .top }
    | _ => none
  | .done =>
    match s.phase with
    | .watching _ => some { s with phase := .stopped }
    | _ => none
  | .handleBatch =>
    match s.phase with
    | .received first count =>
      some { s with
        phase := .top
        handled := s.handled ++ List.range' first count
        conf := ((s.log.drop first).take count).foldl (handle yaml) s.conf }
    | _ => none

/-- The state after some steps, if they can be made. -/
def run (yaml : Yaml ρ μ) (log : List Event) (ops : List WatchOp) : Option (Watcher ρ μ) :=
  ops.foldlM (step yaml) (start log)

/-! ## Every write once -/

/-- A write that the watch will deliver, or that is in the batch. -/
def Pending (s : Watcher ρ μ) (place : ℕ) : Prop :=
  match s.phase with
  | .watching since => since ≤ place
  | .received first count => first ≤ place ∧ place < first + count
  | _ => False

/-- Every write since the entries were read was handled once, or was not and is pending. -/
def HandledOnce (s : Watcher ρ μ) : Prop :=
  ∀ first ∈ s.read, ∀ place, first ≤ place → place < s.log.length →
    s.handled.count place = 1 ∨ s.handled.count place = 0 ∧ s.Pending place

/-- The steps after which nothing is lost: writes that are committed before the entries are read or
while there is a watch, batches of all there is to deliver, and an end of the watch with nothing to
deliver. -/
def Keeps (s : Watcher ρ μ) : WatchOp → Prop
  | .write _ => s.phase = .loading ∨ ∃ since, s.phase = .watching since
  | .receive count => ∀ since, s.phase = .watching since → since + count = s.log.length
  | .receiveErr => s.phase = .watching s.log.length
  | .done => s.phase = .watching s.log.length
  | _ => True

instance (s : Watcher ρ μ) : ∀ op, Decidable (s.Keeps op)
  | .write _ =>
    match h : s.phase with
    | .loading => isTrue (.inl h)
    | .watching since => isTrue (.inr ⟨since, h⟩)
    | .top | .received .. | .stopped => isFalse (by simp [Keeps, h])
  | .receive count =>
    match h : s.phase with
    | .watching since => decidable_of_iff (since + count = s.log.length) (by simp [Keeps, h])
    | .loading | .top | .received .. | .stopped => isTrue (by simp [Keeps, h])
  | .receiveErr | .done => inferInstanceAs (Decidable (_ = _))
  | .getChildren | .watchWithPrefix _ | .handleBatch => inferInstanceAs (Decidable True)

/-- What was handled was so once and is not pending, and the places are in order. -/
structure Valid (s : Watcher ρ μ) : Prop where
  once : s.handled.Nodup
  before : ∀ place ∈ s.handled, place < s.log.length ∧ ¬s.Pending place
  loading : s.phase = .loading ↔ s.read = none
  read : ∀ first ∈ s.read, first ≤ s.log.length
  since : ∀ since, s.phase = .watching since → since ≤ s.log.length ∧
    ∀ first ∈ s.read, first ≤ since
  batch : ∀ first count, s.phase = .received first count → first + count ≤ s.log.length

/-- Phases without anything pending. -/
def Idle (phase : Phase) : Prop := phase = .top ∨ phase = .stopped

/-- What a step can do. -/
inductive Moves (yaml : Yaml ρ μ) (s : Watcher ρ μ) : WatchOp → Watcher ρ μ → Prop
  | load (phase : Phase) (conf : APIConfig ρ μ) (hphase : s.phase = .loading) (hnew : Idle phase) :
    Moves yaml s .getChildren { s with read := some s.log.length, phase, conf }
  | watch (hphase : s.phase = .top) : Moves yaml s (.watchWithPrefix false)
      { s with phase := .watching s.log.length }
  | unwatched (hphase : s.phase = .top) : Moves yaml s (.watchWithPrefix true)
      { s with phase := .stopped }
  | receive {since count : ℕ} (hphase : s.phase = .watching since)
      (hcount : since + count ≤ s.log.length) :
    Moves yaml s (.receive count) { s with phase := .received since count }
  | receiveErr {since : ℕ} (hphase : s.phase = .watching since) : Moves yaml s .receiveErr
      { s with phase := .top }
  | done {since : ℕ} (hphase : s.phase = .watching since) : Moves yaml s .done
      { s with phase := .stopped }
  | handleBatch {first count : ℕ} (conf : APIConfig ρ μ)
      (hphase : s.phase = .received first count) :
    Moves yaml s .handleBatch
      { s with phase := .top, handled := s.handled ++ List.range' first count, conf }
  | write (event : Event) : Moves yaml s (.write event) { s with log := s.log ++ [event] }

variable {yaml : Yaml ρ μ} {s s' : Watcher ρ μ} {op : WatchOp}

theorem moves_of_step (h : s.step yaml op = some s') : s.Moves yaml op s' := by
  cases op with
  | write event =>
    obtain rfl := Option.some.inj h
    exact .write event
  | getChildren =>
    simp only [step] at h
    split at h
    · rename_i hphase
      split at h
      · obtain rfl := Option.some.inj h
        exact .load .stopped s.conf hphase (.inr rfl)
      · rename_i conf _
        obtain rfl := Option.some.inj h
        exact .load .top conf hphase (.inl rfl)
    · cases h
  | watchWithPrefix err =>
    simp only [step] at h
    split at h
    · rename_i hphase
      obtain rfl := Option.some.inj h
      cases err with
      | false => exact .watch hphase
      | true => exact .unwatched hphase
    · cases h
  | receive count =>
    simp only [step] at h
    split at h
    · rename_i since hphase
      split_ifs at h with hcount
      obtain rfl := Option.some.inj h
      exact .receive hphase hcount.2
    · cases h
  | receiveErr =>
    simp only [step] at h
    split at h
    · rename_i since hphase
      obtain rfl := Option.some.inj h
      exact .receiveErr hphase
    · cases h
  | done =>
    simp only [step] at h
    split at h
    · rename_i since hphase
      obtain rfl := Option.some.inj h
      exact .done hphase
    · cases h
  | handleBatch =>
    simp only [step] at h
    split at h
    · rename_i first count hphase
      obtain rfl := Option.some.inj h
      exact .handleBatch _ hphase
    · cases h

theorem Valid.isSome_read (h : s.Valid) (hphase : s.phase ≠ .loading) :
    ∃ first, s.read = some first := by
  cases hread : s.read with
  | none => exact (hphase (h.loading.2 hread)).elim
  | some first => exact ⟨first, rfl⟩

theorem valid_start (log : List Event) : (start log : Watcher ρ μ).Valid where
  once := List.nodup_nil
  before := nofun
  loading := ⟨fun _ => rfl, fun _ => rfl⟩
  read := nofun
  since := nofun
  batch := nofun

theorem pending_watching {since : ℕ} (h : s.phase = .watching since) (place : ℕ) :
    s.Pending place ↔ since ≤ place := by
  rw [Pending, h]

theorem pending_received {first count : ℕ} (h : s.phase = .received first count) (place : ℕ) :
    s.Pending place ↔ first ≤ place ∧ place < first + count := by
  rw [Pending, h]

theorem not_pending_of_idle (h : Idle s.phase) (place : ℕ) : ¬s.Pending place := by
  rcases h with h | h <;> rw [Pending, h] <;> exact id

/-- The loop goes idle. -/
theorem Valid.idle (h : s.Valid) (hphase : s.phase ≠ .loading) {phase : Phase}
    (hidle : Idle phase) :
    Valid { s with phase } where
  once := h.once
  before place hplace := ⟨(h.before place hplace).1, not_pending_of_idle hidle place⟩
  loading := by
    refine ⟨fun hloading => ?_, fun hread => (hphase (h.loading.2 hread)).elim⟩
    rcases hidle with rfl | rfl <;> cases hloading
  read := h.read
  since := by rcases hidle with rfl | rfl <;> exact nofun
  batch := by rcases hidle with rfl | rfl <;> exact nofun

theorem Valid.moves (h : s.Valid) (hmoves : s.Moves yaml op s') : s'.Valid := by
  cases hmoves with
  | load phase conf hphase hnew =>
    refine ⟨h.once, fun place hplace => ⟨(h.before place hplace).1, not_pending_of_idle hnew place⟩,
      ?_, ?_, ?_, ?_⟩
    · rcases hnew with rfl | rfl <;> exact ⟨nofun, nofun⟩
    · rintro _ ⟨⟩
      exact le_rfl
    · rcases hnew with rfl | rfl <;> exact nofun
    · rcases hnew with rfl | rfl <;> exact nofun
  | watch hphase =>
    refine ⟨h.once, fun place hplace => ?_, ⟨nofun, fun hread => ?_⟩, h.read, ?_, nofun⟩
    · have hlt := (h.before place hplace).1
      exact ⟨hlt, Nat.not_le.2 hlt⟩
    · rw [h.loading.2 hread] at hphase
      cases hphase
    · rintro _ ⟨⟩
      exact ⟨le_rfl, h.read⟩
  | unwatched hphase => exact h.idle (by simp [hphase]) (.inr rfl)
  | @receive since count hphase hcount =>
    refine ⟨h.once, fun place hplace => ?_, ⟨nofun, fun hread => ?_⟩, h.read, nofun, ?_⟩
    · obtain ⟨hlt, hnot⟩ := h.before place hplace
      exact ⟨hlt, fun hpending => hnot ((pending_watching hphase place).2 hpending.1)⟩
    · rw [h.loading.2 hread] at hphase
      cases hphase
    · rintro _ _ ⟨⟩
      exact hcount
  | receiveErr hphase => exact h.idle (by simp [hphase]) (.inl rfl)
  | done hphase => exact h.idle (by simp [hphase]) (.inr rfl)
  | @handleBatch first count conf hphase =>
    have hbatch := h.batch first count hphase
    refine ⟨?_, fun place hplace => ⟨?_, id⟩, ⟨nofun, fun hread => ?_⟩, h.read, nofun, nofun⟩
    · refine h.once.append List.nodup_range' fun place hplace hnew => (h.before place hplace).2 ?_
      rw [List.mem_range'_1] at hnew
      exact (pending_received hphase place).2 hnew
    · rcases List.mem_append.1 hplace with hplace | hplace
      · exact (h.before place hplace).1
      · rw [List.mem_range'_1] at hplace
        exact hplace.2.trans_le hbatch
    · rw [h.loading.2 hread] at hphase
      cases hphase
  | write event =>
    have hlength : (s.log ++ [event]).length = s.log.length + 1 := by simp
    refine ⟨h.once, fun place hplace => ⟨?_, (h.before place hplace).2⟩, h.loading,
      fun first hfirst => ?_,
      fun since hphase => ⟨?_, (h.since since hphase).2⟩, fun first count hphase => ?_⟩
    · rw [hlength]
      exact Nat.lt_succ_of_lt (h.before place hplace).1
    · rw [hlength]
      exact (h.read first hfirst).trans (Nat.le_succ _)
    · rw [hlength]
      exact (h.since since hphase).1.trans (Nat.le_succ _)
    · rw [hlength]
      exact (h.batch first count hphase).trans (Nat.le_succ _)

theorem count_eq_zero_of_pending (h : s.Valid) {place : ℕ} (hpending : s.Pending place) :
    s.handled.count place = 0 :=
  List.count_eq_zero.2 fun hplace => (h.before place hplace).2 hpending

/-- Going idle loses exactly what is pending. -/
theorem handledOnce_idle_iff (h : s.Valid) {since : ℕ} (hphase : s.phase = .watching since)
    (honce : s.HandledOnce)
    {phase : Phase} (hidle : Idle phase) :
    HandledOnce { s with phase } ↔ s.phase = .watching s.log.length := by
  obtain ⟨first, hread⟩ := h.isSome_read (by simp [hphase])
  obtain ⟨hsince, hfirst⟩ := h.since since hphase
  constructor
  · intro hall
    rw [hphase]
    by_contra hne
    have hlt : since < s.log.length := lt_of_le_of_ne hsince fun heq => hne (by rw [heq])
    have hzero := count_eq_zero_of_pending h ((pending_watching hphase since).2 le_rfl)
    rcases hall first hread since (hfirst first hread) hlt with hone | ⟨-, hpending⟩
    · rw [show s.handled.count since = 1 from hone] at hzero
      cases hzero
    · exact not_pending_of_idle hidle since hpending
  · intro hall first' hfirst' place hle hlt
    rcases honce first' hfirst' place hle hlt with hone | ⟨-, hpending⟩
    · exact .inl hone
    · rw [pending_watching hall] at hpending
      exact (Nat.not_le.2 hlt hpending).elim

/-- One step leaves every write handled once or pending exactly if it is one of those that do. -/
theorem handledOnce_step_iff (h : s.Valid) (honce : s.HandledOnce)
    (hstep : s.step yaml op = some s') :
    s'.HandledOnce ↔ s.Keeps op := by
  cases moves_of_step hstep with
  | load phase conf hphase hnew =>
    refine ⟨fun _ => trivial, fun _ => ?_⟩
    rintro _ ⟨⟩ place hle hlt
    exact (Nat.not_lt.2 hle hlt).elim
  | watch hphase =>
    refine ⟨fun _ => trivial, fun _ first hfirst place hle hlt => ?_⟩
    rcases honce first hfirst place hle hlt with hone | ⟨-, hpending⟩
    · exact .inl hone
    · exact (not_pending_of_idle (.inl hphase) place hpending).elim
  | unwatched hphase =>
    refine ⟨fun _ => trivial, fun _ first hfirst place hle hlt => ?_⟩
    rcases honce first hfirst place hle hlt with hone | ⟨-, hpending⟩
    · exact .inl hone
    · exact (not_pending_of_idle (.inl hphase) place hpending).elim
  | @receive since count hphase hcount =>
    obtain ⟨first, hread⟩ := h.isSome_read (by simp [hphase])
    constructor
    · rintro hall since' hphase'
      obtain rfl : since = since' := Phase.watching.inj (hphase.symm.trans hphase')
      by_contra hne
      have hpending := (pending_watching hphase (since + count)).2 (Nat.le_add_right ..)
      have hzero := count_eq_zero_of_pending h hpending
      have hfirst := ((h.since since hphase).2 first hread).trans (Nat.le_add_right since count)
      rcases hall first hread (since + count) hfirst (lt_of_le_of_ne hcount hne) with hone |
        ⟨-, hbatch⟩
      · rw [show s.handled.count (since + count) = 1 from hone] at hzero
        cases hzero
      · exact lt_irrefl _ hbatch.2
    · intro hall first' hfirst' place hle hlt
      rcases honce first' hfirst' place hle hlt with hone | ⟨hzero, hpending⟩
      · exact .inl hone
      · exact .inr ⟨hzero, (pending_watching hphase place).1 hpending,
          (hall since hphase).symm ▸ hlt⟩
  | receiveErr hphase => exact handledOnce_idle_iff h hphase honce (.inl rfl)
  | done hphase => exact handledOnce_idle_iff h hphase honce (.inr rfl)
  | @handleBatch first count conf hphase =>
    refine ⟨fun _ => trivial, fun _ first' hfirst' place hle hlt => .inl ?_⟩
    have hbatch : place ∈ List.range' first count ↔ s.Pending place := by
      rw [List.mem_range'_1, pending_received hphase]
    show (s.handled ++ List.range' first count).count place = 1
    rw [List.count_append]
    by_cases hpending : s.Pending place
    · rw [count_eq_zero_of_pending h hpending, List.count_eq_one_of_mem List.nodup_range'
        (hbatch.2 hpending)]
    · rcases honce first' hfirst' place hle hlt with hone | ⟨-, hpending'⟩
      · rw [hone, List.count_eq_zero.2 fun hmem => hpending (hbatch.1 hmem)]
      · exact (hpending hpending').elim
  | write event =>
    have hlength : (s.log ++ [event]).length = s.log.length + 1 := by simp
    have hzero : s.handled.count s.log.length = 0 :=
      List.count_eq_zero.2 fun hmem => lt_irrefl _ (h.before _ hmem).1
    constructor
    · intro hall
      by_contra hnot
      rw [Keeps, not_or, not_exists] at hnot
      obtain ⟨first, hread⟩ := h.isSome_read hnot.1
      rcases hall first hread s.log.length (h.read first hread) (by simp) with hone | ⟨-, hpending⟩
      · rw [show s.handled.count s.log.length = 1 from hone] at hzero
        cases hzero
      · -- Only a watch can have the new write pending.
        replace hpending : s.Pending s.log.length := hpending
        cases hphase : s.phase with
        | watching since => exact hnot.2 since hphase
        | received first' count =>
          rw [pending_received hphase] at hpending
          exact (hpending.2.trans_le (h.batch first' count hphase)).false
        | loading => exact hnot.1 hphase
        | top => exact not_pending_of_idle (.inl hphase) _ hpending
        | stopped => exact not_pending_of_idle (.inr hphase) _ hpending
    · rintro hkeeps first hfirst place hle hlt
      replace hlt : place < (s.log ++ [event]).length := hlt
      rw [hlength, Nat.lt_succ_iff_lt_or_eq] at hlt
      rcases hlt with hlt | rfl
      · exact honce first hfirst place hle hlt
      · rcases hkeeps with hloading | ⟨since, hphase⟩
        · rw [h.loading.1 hloading] at hfirst
          cases hfirst
        · exact .inr ⟨hzero, (pending_watching hphase _).2 (h.since since hphase).1⟩

end Watcher

/-- In a run from any log, every write since the entries were read is handled once or still to be
delivered, in every state, exactly if every step is one that loses nothing. -/
theorem writes_handled_once_iff {yaml : Yaml ρ μ} {log : List Event} {ops : List WatchOp}
    {s : Watcher ρ μ}
    (hrun : Watcher.run yaml log ops = some s) :
    System.StatesAlong (Watcher.step yaml) Watcher.HandledOnce (Watcher.start log) ops ↔
      System.StepsAlong (Watcher.step yaml) Watcher.Keeps (Watcher.start log) ops :=
  System.statesAlong_iff_stepsAlong_of_invariant
    (fun _ _ _ hvalid hstep => hvalid.moves (Watcher.moves_of_step hstep))
    (fun _ _ _ hvalid honce hstep => Watcher.handledOnce_step_iff hvalid honce hstep) hrun
      (Watcher.valid_start log)
    nofun

namespace Sample

/-- The value of a resource is its path, that of a method its verb. -/
def yaml : Yaml Unit Unit where
  properties _ := some []
  resource value := some ⟨0, value, [], ()⟩
  method value := some ⟨0, "", value, ()⟩
  zero := ()

/-- A method is written. -/
def getUsers : Event := .put "/pixiu/resources/1/method/2" "GET"

/-- A write before the reading, one in a first watch and two in a second. -/
def rounds : List WatchOp :=
  [.write getUsers, .getChildren, .watchWithPrefix false, .write getUsers, .receive 1, .handleBatch,
    .watchWithPrefix false, .write getUsers, .write getUsers, .receive 2, .handleBatch]

end Sample

theorem writes_handled_once_iff_rounds : System.StatesAlong (Watcher.step Sample.yaml)
    Watcher.HandledOnce (Watcher.start []) Sample.rounds := by
  have hsome : (Watcher.run Sample.yaml [] Sample.rounds).isSome = true := by decide +kernel
  obtain ⟨s, hrun⟩ := Option.isSome_iff_exists.1 hsome
  exact (writes_handled_once_iff hrun).2 (by decide +kernel)

/-- A write between the reading and the watch is not handled, though one after it is. -/
theorem write_before_watch_lost : ∃ s : Watcher Unit Unit,
    Watcher.run Sample.yaml []
      [.getChildren, .write Sample.getUsers, .watchWithPrefix false, .write Sample.getUsers,
      .receive 1, .handleBatch] = some s ∧ s.read = some 0 ∧ s.log.length = 2 ∧ s.handled = [1] :=
  ⟨_, rfl, rfl, rfl, rfl⟩

end Pixiu.Config

