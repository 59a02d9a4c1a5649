import Pixiu.Base.System

/-!
# The circuit breaker of the KV cache filter

`Execute` asks `allow`, runs the operation and hands its outcome to `recordResult`.  Both take the
mutex, the operation does not, so calls overlap and a result may arrive in another state than the
one its operation was admitted in.

`admission` says in which steps of a run the breaker does what it is for.  No operation starts in an
open breaker before the recovery timeout has passed.  The call that finds the timeout over starts
its operation without counting it, so one more than `HalfOpenMaxCalls` may start; and a success
closes the breaker whenever its operation started.
-/

namespace Pixiu.KvCache

/-- `CircuitState`. -/
inductive CircuitState where
  | circuitClosed
  | circuitOpen
  | circuitHalfOpen
  deriving DecidableEq, Repr

/-- `CircuitBreakerConfig`. -/
structure CircuitBreakerConfig where
  failureThreshold : ℕ
  recoveryTimeout : ℤ
  halfOpenMaxCalls : ℕ
  deriving DecidableEq, Repr

/-- `CircuitBreaker`. -/
structure CircuitBreaker where
  state : CircuitState := .circuitClosed
  failureCount : ℕ := 0
  lastFailTime : ℤ := 0
  halfOpenCalls : ℕ := 0
  deriving DecidableEq, Repr

namespace CircuitBreaker

/-- `allow`. -/
def allow (config : CircuitBreakerConfig) (cb : CircuitBreaker) (now : ℤ) : CircuitBreaker × Bool :=
  match cb.state with
  | .circuitOpen =>
    if config.recoveryTimeout ≤ now - cb.lastFailTime then
      ({ cb with state := .circuitHalfOpen, halfOpenCalls := 0 }, true)
    else (cb, false)
  | .circuitHalfOpen =>
    if config.halfOpenMaxCalls ≤ cb.halfOpenCalls then (cb, false)
    else ({ cb with halfOpenCalls := cb.halfOpenCalls + 1 }, true)
  | .circuitClosed => (cb, true)

/-- `ok` says that the operation returned no error. -/
def recordResult (config : CircuitBreakerConfig) (cb : CircuitBreaker) (ok : Bool) (now : ℤ) :
    CircuitBreaker :=
  if ok then
    if cb.state = .circuitHalfOpen ∨ cb.state = .circuitOpen then
      { cb with failureCount := 0, state := .circuitClosed, halfOpenCalls := 0 }
    else { cb with failureCount := 0 }
  else
    let failed := { cb with failureCount := cb.failureCount + 1, lastFailTime := now }
    if config.failureThreshold ≤ failed.failureCount then { failed with state := .circuitOpen } else
      failed

end CircuitBreaker

/-! ## Overlapping calls -/

/-- A breaker in use.  An operation that is running is known by how often the breaker had opened
when it started; `started` counts the operations since a recovery, up to the next result. -/
structure Calls where
  cb : CircuitBreaker := {}
  clock : ℤ
  openings : ℕ := 0
  running : List ℕ := []
  started : Option ℕ := none
  lastFailure : Option ℤ := none
  deriving DecidableEq, Repr

/-- A call of the breaker. -/
inductive Event where
  | allow (now : ℤ)
  | recordResult (start : ℕ) (ok : Bool) (now : ℤ)
  deriving DecidableEq, Repr

namespace Calls

/-- An operation was admitted. -/
def letThrough (s : Calls) : Calls :=
  { s with
    running := s.openings :: s.running
    started := if s.cb.state = .circuitOpen then some 1 else s.started.map (· + 1) }

/-- One step; the clock does not go back, and only an operation that is running has a result. -/
def step (config : CircuitBreakerConfig) (s : Calls) : Event → Option Calls
  | .allow now =>
    if s.clock ≤ now then
      let (cb, ok) := s.cb.allow config now
      some { (if ok then s.letThrough else s) with cb, clock := now }
    else none
  | .recordResult start ok now =>
    if s.clock ≤ now ∧ start ∈ s.running then
      let cb := s.cb.recordResult config ok now
      some { cb, clock := now, running := s.running.erase start, started := none,
             openings :=
               if s.cb.state ≠ .circuitOpen ∧
                 cb.state = .circuitOpen then s.openings + 1 else s.openings,
             lastFailure := if ok then s.lastFailure else some now }
    else none

/-- The state after some events, if they can happen. -/
def run (config : CircuitBreakerConfig) (clock : ℤ) (events : List Event) : Option Calls :=
  events.foldlM (step config) { clock }

/-- What the fields that are only for the record have to do with the breaker. -/
structure Kept (s : Calls) : Prop where
  failed : s.cb.state = .circuitOpen → s.lastFailure = some s.cb.lastFailTime
  counted : ∀ n, s.started = some n → s.cb.state = .circuitHalfOpen ∧ n = s.cb.halfOpenCalls + 1

section Steps

variable {config : CircuitBreakerConfig} {s s' : Calls} {now : ℤ} {start : ℕ} {ok : Bool}

/-- What `allow` does, by the state it finds. -/
theorem step_allow_cases (h : s.step config (.allow now) = some s') :
    ((s.cb.state = .circuitHalfOpen → config.halfOpenMaxCalls ≤ s.cb.halfOpenCalls) ∧
      s' = { s with clock := now }) ∨
    (s.cb.state = .circuitOpen ∧ config.recoveryTimeout ≤ now - s.cb.lastFailTime ∧
      s' =
        { s.letThrough with cb := { s.cb with state := .circuitHalfOpen, halfOpenCalls := 0 },
                            clock := now }) ∨
    (s.cb.state = .circuitHalfOpen ∧ s.cb.halfOpenCalls < config.halfOpenMaxCalls ∧
      s' =
        { s.letThrough with cb := { s.cb with halfOpenCalls := s.cb.halfOpenCalls + 1 },
                            clock := now }) ∨
    (s.cb.state = .circuitClosed ∧ s' = { s.letThrough with clock := now }) := by
  simp only [step, Option.ite_none_right_eq_some, Option.some.injEq] at h
  obtain ⟨-, rfl⟩ := h
  unfold CircuitBreaker.allow
  cases hstate : s.cb.state with
  | circuitOpen =>
    by_cases hover : config.recoveryTimeout ≤ now - s.cb.lastFailTime
    · exact .inr (.inl (by simp [hover]))
    · exact .inl (by simp [hover])
  | circuitHalfOpen =>
    by_cases hfull : config.halfOpenMaxCalls ≤ s.cb.halfOpenCalls
    · exact .inl (by simp [hfull])
    · exact .inr (.inr (.inl (by simp [hfull, not_le.1 hfull, hstate])))
  | circuitClosed => exact .inr (.inr (.inr (by simp [Calls.letThrough])))

theorem kept_step {event : Event} (h : s.Kept) (hstep : s.step config event = some s') :
    s'.Kept := by
  cases event with
  | allow now =>
    obtain ⟨-, rfl⟩ | ⟨hstate, -, rfl⟩ | ⟨hstate, -, rfl⟩ | ⟨hstate, rfl⟩ := step_allow_cases hstep
    · exact ⟨h.failed, h.counted⟩
    · refine ⟨nofun, fun n hn => ⟨rfl, ?_⟩⟩
      simpa [letThrough, hstate, eq_comm] using hn
    · refine ⟨fun hopen => by simp_all, fun n hn => ⟨hstate, ?_⟩⟩
      obtain ⟨m, hm, rfl⟩ : ∃ m, s.started = some m ∧ m + 1 = n :=
        by simpa [letThrough, hstate] using hn
      rw [(h.counted m hm).2]
    · refine ⟨fun hopen => by simp_all [letThrough], fun n hn => ?_⟩
      obtain ⟨m, hm, rfl⟩ : ∃ m, s.started = some m ∧ m + 1 = n :=
        by simpa [letThrough, hstate] using hn
      rw [(h.counted m hm).1] at hstate
      cases hstate
  | recordResult start ok now =>
    simp only [step, Option.ite_none_right_eq_some, Option.some.injEq] at hstep
    obtain ⟨-, rfl⟩ := hstep
    refine ⟨fun hopen => ?_, nofun⟩
    cases ok with
    | true =>
      simp only [CircuitBreaker.recordResult, if_true] at hopen
      split_ifs at hopen with hstate
      exact absurd (.inr hopen) hstate
    | false =>
      simp only [CircuitBreaker.recordResult, Bool.false_eq_true, if_false]
      split_ifs <;> rfl

theorem kept_run {clock : ℤ} {events : List Event} (hrun : run config clock events = some s) :
    s.Kept :=
  System.invariant_steps (fun _ _ _ h hstep => kept_step h hstep) hrun ⟨nofun, nofun⟩

end Steps

/-- What the breaker is for, in one step: an operation that starts in an open breaker starts after
the timeout, no more than the maximum start between a recovery and the next result, and a result of
an operation from before the opening does not close the breaker. -/
structure Admission (config : CircuitBreakerConfig) (s : Calls) (event : Event) (s' : Calls) :
    Prop where
  waits : ∀ now, event = .allow now → s'.running ≠ s.running → s.cb.state = .circuitOpen →
    ∀ t, s.lastFailure = some t → config.recoveryTimeout ≤ now - t
  limited : ∀ now, event = .allow now → s'.running ≠ s.running → ∀ n, s'.started = some n →
    n ≤ config.halfOpenMaxCalls
  current : ∀ start ok now, event = .recordResult start ok now → start < s.openings →
    s.cb.state ≠ .circuitClosed → s'.cb.state ≠ .circuitClosed

/-- No call comes when the maximum has started since the recovery, and no success of an operation
from before the opening while the breaker is open or half open. -/
def Timely (config : CircuitBreakerConfig) (s : Calls) : Event → Prop
  | .allow _ => s.started ≠ some config.halfOpenMaxCalls
  | .recordResult start ok _ => ok = true → start < s.openings → s.cb.state = .circuitClosed

end Calls

open Calls

/-- **Admission.**  After every run, the next step does what the breaker is for exactly if it is
timely. -/
theorem admission {config : CircuitBreakerConfig} (hmax : 1 ≤ config.halfOpenMaxCalls) {clock : ℤ}
    {events : List Event}
    {s s' : Calls} {event : Event} (hrun : run config clock events = some s)
    (hstep : s.step config event = some s') :
    Admission config s event s' ↔ Timely config s event := by
  have hkept := kept_run hrun
  cases event with
  | allow now =>
    obtain ⟨hfull, rfl⟩ | ⟨hstate, hover, rfl⟩ | ⟨hstate, hfree, rfl⟩ | ⟨hstate, rfl⟩ :=
      step_allow_cases hstep
    · refine iff_of_true ⟨fun _ _ h => absurd rfl h, fun _ _ h => absurd rfl h, nofun⟩
        fun hstarted => ?_
      obtain ⟨hhalf, hcount⟩ := hkept.counted _ hstarted
      have := hfull hhalf
      omega
    · refine iff_of_true ⟨?_, ?_, nofun⟩ fun hstarted => ?_
      · rintro now' ⟨⟩ - - t ht
        obtain rfl : s.cb.lastFailTime = t := Option.some.inj ((hkept.failed hstate).symm.trans ht)
        exact hover
      · rintro now' - - n hn
        obtain rfl : 1 = n := by simpa [letThrough, hstate] using hn
        exact hmax
      · rw [(hkept.counted _ hstarted).1] at hstate
        cases hstate
    · constructor
      · intro h hstarted
        have hle :=
          h.limited now rfl (by simp [letThrough]) (config.halfOpenMaxCalls + 1)
            (by simp [letThrough, hstate, hstarted])
        omega
      · intro hfew
        refine ⟨fun _ _ _ hopen => absurd (hstate.symm.trans hopen) (by decide), ?_, nofun⟩
        rintro now' - - n hn
        obtain ⟨m, hm, rfl⟩ : ∃ m, s.started = some m ∧ m + 1 = n :=
          by simpa [letThrough, hstate] using hn
        obtain ⟨-, rfl⟩ := hkept.counted m hm
        have hne : s.cb.halfOpenCalls + 1 ≠ config.halfOpenMaxCalls := fun heq => hfew (heq ▸ hm)
        omega
    · have hnone : s.started = none := by
        cases hstarted : s.started with
        | none => rfl
        | some n =>
          rw [(hkept.counted n hstarted).1] at hstate
          cases hstate
      refine iff_of_true ⟨fun _ _ _ hopen => absurd (hstate.symm.trans hopen) (by decide), ?_,
        nofun⟩ ?_
      · rintro now' - - n hn
        simp [letThrough, hstate, hnone] at hn
      · simp [Timely, hnone]
  | recordResult start ok now =>
    simp only [step, Option.ite_none_right_eq_some, Option.some.injEq] at hstep
    obtain ⟨-, rfl⟩ := hstep
    constructor
    · rintro h rfl hlate
      by_contra hstate
      refine h.current start true now rfl hlate hstate ?_
      simp only [CircuitBreaker.recordResult, if_true]
      split_ifs with hother
      · rfl
      · cases hcb : s.cb.state <;> simp_all
    · intro h
      refine ⟨nofun, nofun, ?_⟩
      rintro start' ok' now' ⟨⟩ hlate hstate
      cases ok with
      | true => exact absurd (h rfl hlate) hstate
      | false =>
        simp only [CircuitBreaker.recordResult, Bool.false_eq_true, if_false]
        split_ifs
        · exact nofun
        · exact hstate

namespace Sample

/-- One failure opens the breaker. -/
def config : CircuitBreakerConfig :=
  { failureThreshold := 1, recoveryTimeout := 10, halfOpenMaxCalls := 1 }

/-- Two operations start, the second one fails, and after the timeout a third one starts. -/
def overlapping : List Event := [.allow 0, .allow 0, .recordResult 0 false 0, .allow 10]

end Sample

theorem admission_overlapping : ∃ s s', run Sample.config 0 Sample.overlapping = some s ∧
    s.step Sample.config (.recordResult 1 true 11) = some s' ∧
      Admission Sample.config s (.recordResult 1 true 11) s' := by
  have h :
      ((run Sample.config 0 Sample.overlapping).bind
        (·.step Sample.config (.recordResult 1 true 11))) = some _ := rfl
  obtain ⟨s, hrun, hstep⟩ := Option.bind_eq_some_iff.1 h
  refine ⟨s, _, hrun, hstep, (admission (by decide) hrun hstep).2 fun _ hlate => ?_⟩
  obtain rfl := Option.some.inj hrun
  exact absurd hlate (by decide)

/-- The first operation, which started before the breaker opened, closes it; and a second one starts
after a recovery where one is allowed. -/
theorem late_success_closes : ∃ s, run Sample.config 0 Sample.overlapping = some s ∧
    (∃ s', s.step Sample.config (.recordResult 0 true 11) = some s' ∧ 0 < s.openings ∧
      s.cb.state = .circuitHalfOpen ∧ s'.cb.state = .circuitClosed) ∧
    ∃ s', s.step Sample.config (.allow 11) = some s' ∧ s'.started = some 2 :=
  ⟨_, rfl, ⟨_, rfl, by decide, rfl, rfl⟩, ⟨_, rfl, rfl⟩⟩

end Pixiu.KvCache
