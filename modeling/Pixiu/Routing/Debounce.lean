import Pixiu.Base.System
import Pixiu.Routing.Snapshot

/-!
# Publishing routes with a delay

`RouterCoordinator` changes its list of routes at once and publishes a snapshot of it when a timer
expires.  The first change sets a timer and starts `awaitAndPublish`, the waiter; later ones stop
the timer, empty its channel and reset it.

The steps are those between which the timer or the waiter may act.  The lock is free, or held by a
change that is at one of three places of `schedulePublishLocked`; the section that the waiter holds
it for is one step.  Since Go 1.23 `Stop` takes back a tick that was not received; both ways are
modelled (`sync`).

* `Inv` — what holds between any two steps.
* `debounce_loses_nothing` — nothing that was changed stays unpublished.
-/

namespace Pixiu.Routing

/-- A timer is armed, or its channel holds a tick. -/
structure Timer where
  armed : Bool := true
  tick : Bool := false
  deriving DecidableEq, Repr

/-- The goroutine of `awaitAndPublish`. -/
inductive Waiter where
  | none
  | waiting
  /-- It has received its tick and takes the lock next. -/
  | received
  deriving DecidableEq, Repr

/-- Where the change is that holds the lock: before `Stop`, the `select` or `Reset`. -/
inductive Holder where
  | free
  | stop
  | drain
  | reset
  deriving DecidableEq, Repr

/-- The fields of `RouterCoordinator` that matter here. -/
structure RouterCoordinator where
  nextSnapshot : List Router
  mainSnapshot : RouteSnapshot
  timer : Option Timer := none
  waiter : Waiter := .none
  holder : Holder := .free

/-- A call, or a step of the timer. -/
inductive CoordinatorEvent where
  | onAddRouter (r : Router)
  | onDeleteRouter (r : Router)
  | stop (sync : Bool)
  | drain
  | reset
  | expire
  | receive
  | publish

namespace RouterCoordinator

variable (compile : String → Option (String → Bool))

/-- The snapshot that `publishLocked` builds. -/
def built (routes : List Router) : RouteSnapshot :=
  toSnapshot compile (buildRouteConfiguration compile routes).routes

/-- `CreateRouterCoordinator`. -/
def createRouterCoordinator (routes : List Router) : RouterCoordinator :=
  ⟨routes, built compile routes, none, .none, .free⟩

/-- `publishLocked`. -/
def publishLocked (s : RouterCoordinator) : RouterCoordinator :=
  { s with mainSnapshot := built compile s.nextSnapshot }

/-- `schedulePublishLocked` up to `Stop`; `debounce` says whether there is a delay. -/
def schedulePublishLocked (debounce : Bool) (s : RouterCoordinator) : RouterCoordinator :=
  if !debounce then s.publishLocked compile
  else match s.timer with
    | none => { s with timer := some {}, waiter := .waiting }
    | some _ => { s with holder := .stop }

/-- One step; `none` if it cannot be made. -/
def step (debounce : Bool) (s : RouterCoordinator) : CoordinatorEvent → Option RouterCoordinator
  | .onAddRouter r =>
    if s.holder = .free then
      some (schedulePublishLocked compile debounce { s with nextSnapshot := s.nextSnapshot ++ [r] })
    else none
  | .onDeleteRouter r =>
    if s.holder = .free then
      if s.nextSnapshot = [] then some s
      else some (schedulePublishLocked compile debounce
        { s with nextSnapshot := s.nextSnapshot.filter (·.id ≠ r.id) })
    else none
  | .stop sync =>
    match s.holder, s.timer with
    | .stop, some t =>
      if t.armed || (sync && t.tick) then
        some { s with timer := some ⟨false, t.tick && !sync⟩, holder := .reset }
      else some { s with holder := .drain }
    | _, _ => none
  | .drain =>
    match s.holder, s.timer with
    | .drain, some t => some { s with timer := some ⟨t.armed, false⟩, holder := .reset }
    | _, _ => none
  | .reset =>
    match s.holder, s.timer with
    | .reset, some t => some { s with timer := some ⟨true, t.tick⟩, holder := .free }
    | _, _ => none
  | .expire =>
    match s.timer with
    | some ⟨true, _⟩ => some { s with timer := some ⟨false, true⟩ }
    | _ => none
  | .receive =>
    match s.waiter, s.timer with
    | .waiting, some ⟨armed, true⟩ =>
      some { s with timer := some ⟨armed, false⟩, waiter := .received }
    | _, _ => none
  | .publish =>
    if s.waiter = .received ∧ s.holder = .free then
      some { s.publishLocked compile with timer := none, waiter := .none }
    else none

/-- The state after some events, if they can happen. -/
def run (debounce : Bool) (s : RouterCoordinator) (events : List CoordinatorEvent) :
    Option RouterCoordinator :=
  events.foldlM (step compile debounce) s

/-- The waiter will still get a tick, or has got one. -/
def WillPublish (s : RouterCoordinator) : Prop :=
  ∃ t, s.timer = some t ∧
    (s.waiter = .received ∨ s.waiter = .waiting ∧ (t.armed = true ∨ t.tick = true))

/-- Without a timer everything is published; with one there is a waiter, and while the lock is free
it will publish. -/
structure Inv (s : RouterCoordinator) : Prop where
  published : s.timer = none → s.holder = .free ∧ s.mainSnapshot = built compile s.nextSnapshot
  willPublish : s.timer ≠ none → s.waiter ≠ .none ∧ (s.holder = .free → s.WillPublish)

variable {compile} {debounce : Bool} {s s' : RouterCoordinator}

theorem inv_schedulePublishLocked (h : s.Inv compile) (hfree : s.holder = .free)
    (routes : List Router) :
    (schedulePublishLocked compile debounce { s with nextSnapshot := routes }).Inv compile := by
  unfold schedulePublishLocked publishLocked
  cases debounce with
  | false =>
    exact ⟨fun _ => ⟨hfree, rfl⟩,
      fun htimer => ⟨(h.willPublish htimer).1, fun _ => (h.willPublish htimer).2 hfree⟩⟩
  | true =>
    cases htimer : s.timer with
    | none => exact ⟨by simp, fun _ => ⟨by simp, fun _ => ⟨{}, rfl, by simp⟩⟩⟩
    | some t =>
      have hwaiter := (h.willPublish (by simp [htimer])).1
      exact ⟨by simp, fun _ => ⟨by simpa using hwaiter, by simp⟩⟩

/-- Every step keeps the invariant. -/
theorem Inv.step {e : CoordinatorEvent} (h : s.Inv compile)
    (hstep : s.step compile debounce e = some s') :
    s'.Inv compile := by
  cases e with
  | onAddRouter r =>
    simp only [RouterCoordinator.step, Option.ite_none_right_eq_some, Option.some.injEq] at hstep
    obtain ⟨hfree, rfl⟩ := hstep
    exact inv_schedulePublishLocked h hfree _
  | onDeleteRouter r =>
    simp only [RouterCoordinator.step, Option.ite_none_right_eq_some] at hstep
    obtain ⟨hfree, hstep⟩ := hstep
    split_ifs at hstep <;> obtain rfl := Option.some.inj hstep
    · exact h
    · exact inv_schedulePublishLocked h hfree _
  | stop sync =>
    simp only [RouterCoordinator.step] at hstep
    split at hstep
    · rename_i t _ htimer
      have hwaiter := (h.willPublish (by simp [htimer])).1
      split_ifs at hstep <;> obtain rfl := Option.some.inj hstep
      · exact ⟨by simp, fun _ => ⟨hwaiter, by simp⟩⟩
      · exact ⟨by simp [htimer], fun _ => ⟨hwaiter, by simp⟩⟩
    · cases hstep
  | drain =>
    simp only [RouterCoordinator.step] at hstep
    split at hstep
    · rename_i t _ htimer
      obtain rfl := Option.some.inj hstep
      exact ⟨by simp, fun _ => ⟨(h.willPublish (by simp [htimer])).1, by simp⟩⟩
    · cases hstep
  | reset =>
    simp only [RouterCoordinator.step] at hstep
    split at hstep
    · rename_i t _ htimer
      obtain rfl := Option.some.inj hstep
      have hwaiter := (h.willPublish (by simp [htimer])).1
      refine ⟨by simp, fun _ => ⟨hwaiter, fun _ => ⟨_, rfl, ?_⟩⟩⟩
      cases hs : s.waiter with
      | none => exact absurd hs hwaiter
      | waiting => simp
      | received => simp
    · cases hstep
  | expire =>
    simp only [RouterCoordinator.step] at hstep
    split at hstep
    · rename_i tick htimer
      obtain rfl := Option.some.inj hstep
      obtain ⟨hwaiter, hwill⟩ := h.willPublish (by simp [htimer])
      refine ⟨by simp, fun _ => ⟨hwaiter, fun hfree => ⟨_, rfl, ?_⟩⟩⟩
      obtain ⟨t, -, hreceived | ⟨hwaiting, -⟩⟩ := hwill hfree
      · exact Or.inl hreceived
      · exact Or.inr ⟨hwaiting, Or.inr rfl⟩
    · cases hstep
  | receive =>
    simp only [RouterCoordinator.step] at hstep
    split at hstep
    · obtain rfl := Option.some.inj hstep
      exact ⟨by simp, fun _ => ⟨by simp, fun _ => ⟨_, rfl, Or.inl rfl⟩⟩⟩
    · cases hstep
  | publish =>
    simp only [RouterCoordinator.step, Option.ite_none_right_eq_some, Option.some.injEq] at hstep
    obtain ⟨⟨-, hfree⟩, rfl⟩ := hstep
    exact ⟨fun _ => ⟨hfree, rfl⟩, by simp⟩

/-- The timer and the waiter alone publish what was changed. -/
theorem WillPublish.run (h : s.WillPublish) (hfree : s.holder = .free) : ∃ events s',
    (∀ e ∈ events, e = .expire ∨ e = .receive ∨ e = .publish) ∧
      s.run compile debounce events = some s' ∧
      s'.nextSnapshot = s.nextSnapshot ∧ s'.mainSnapshot = built compile s.nextSnapshot := by
  suffices hrun : ∃ events, (∀ e ∈ events, e = .expire ∨ e = .receive ∨ e = .publish) ∧
      s.run compile debounce events =
      some ⟨s.nextSnapshot, built compile s.nextSnapshot, none, .none, .free⟩ by
    obtain ⟨events, hevents, hrun⟩ := hrun
    exact ⟨events, _, hevents, hrun, rfl, rfl⟩
  obtain ⟨⟨armed, tick⟩, htimer, hwaiter | ⟨hwaiter, htick⟩⟩ := h
  · refine ⟨[.publish], by simp, ?_⟩
    simp [RouterCoordinator.run, RouterCoordinator.step, publishLocked, hwaiter, hfree]
  · cases tick with
    | true =>
      refine ⟨[.receive, .publish], by simp, ?_⟩
      simp [RouterCoordinator.run, RouterCoordinator.step, publishLocked, hwaiter, htimer, hfree]
    | false =>
      obtain rfl : armed = true := by simpa using htick
      refine ⟨[.expire, .receive, .publish], by simp, ?_⟩
      simp [RouterCoordinator.run, RouterCoordinator.step, publishLocked, hwaiter, htimer, hfree]

end RouterCoordinator

open RouterCoordinator

/-- **Nothing stays unpublished**: after any steps, with the lock free, the snapshot is that of the
current routes if no timer is set, and otherwise a waiter will publish it. -/
theorem debounce_loses_nothing (compile : String → Option (String → Bool)) (debounce : Bool)
    (routes : List Router)
    (events : List CoordinatorEvent) (s : RouterCoordinator)
    (hrun : run compile debounce (createRouterCoordinator compile routes) events = some s)
    (hfree : s.holder = .free) :
    (s.timer = none → s.mainSnapshot = built compile s.nextSnapshot) ∧
      (s.mainSnapshot ≠ built compile s.nextSnapshot → s.WillPublish) ∧
      (s.WillPublish → ∃ events s', (∀ e ∈ events, e = .expire ∨ e = .receive ∨ e = .publish) ∧
        run compile debounce s events = some s' ∧ s'.nextSnapshot = s.nextSnapshot ∧
        s'.mainSnapshot = built compile s.nextSnapshot) := by
  have hinv : s.Inv compile :=
    System.invariant_steps (fun _ _ _ => Inv.step) hrun
      ⟨fun _ => ⟨rfl, rfl⟩, by simp [createRouterCoordinator]⟩
  refine ⟨fun htimer => (hinv.published htimer).2, fun hne => ?_, fun hwill => hwill.run hfree⟩
  exact (hinv.willPublish fun htimer => hne (hinv.published htimer).2).2 hfree

/-- A route is added while the waiter has its tick. -/
def Sample.lateRoute : List CoordinatorEvent :=
  [.onAddRouter ⟨"a", {}, ⟨"a", 0⟩⟩, .expire, .receive, .onAddRouter ⟨"b", {}, ⟨"b", 0⟩⟩,
    .stop true, .drain, .reset]

theorem debounce_loses_nothing_lateRoute : ∃ s,
    run (fun _ => none) true (createRouterCoordinator (fun _ => none) []) Sample.lateRoute =
      some s ∧ s.holder = .free ∧
      (s.mainSnapshot ≠ built (fun _ => none) s.nextSnapshot → s.WillPublish) := by
  have hrun : run (fun _ => none) true (createRouterCoordinator (fun _ => none) [])
      Sample.lateRoute = some _ := rfl
  exact ⟨_, hrun, rfl, (debounce_loses_nothing _ _ _ _ _ hrun rfl).2.1⟩

end Pixiu.Routing
