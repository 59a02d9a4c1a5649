import Pixiu.Base.System
import Pixiu.Controller.Attachment

/-!
# Counting the routes of a listener

`getAttachedRoutesForListener` counts, for the status of a listener, the HTTPRoutes that list its
Gateway as a parent.  It asks `checkRouteAcceptedByListener` for every parent reference of such a
route, also for those that name another Gateway, and gives up at the first error; and a route that
`allowedRoutes` forbids is an error.

`counts_iff` says when the count is the number of attached routes.
-/

namespace Pixiu.Controller

/-- An HTTPRoute as it is listed, with the parents of its status. -/
structure ListedRoute extends HTTPRoute where
  statusParents : List ParentReference := []

section Count

variable {σ ν : Type} (getNamespace : String → Option ν) (selects : σ → ν → Bool)
variable (gateway : Gateway) (listener : GatewayListener σ)

/-- `acceptedByGateway`. -/
def ListedRoute.acceptedByGateway (route : ListedRoute) : Bool :=
  route.statusParents.any fun parentRef => parentRef.namesGateway gateway route.toHTTPRoute

/-- One round of the loop over the parent references. -/
def countParentRef (route : ListedRoute) (attachedRoutes : ℕ) (parentRef : ParentReference) :
    Except String ℕ :=
  match checkRouteAcceptedByListener getNamespace selects route.toHTTPRoute gateway listener
    parentRef with
  | (_, _, some err) => .error err
  | (ok, _, none) => .ok (if ok then attachedRoutes + 1 else attachedRoutes)

/-- One round of the loop over the routes. -/
def countRoute (attachedRoutes : ℕ) (route : ListedRoute) : Except String ℕ :=
  if route.acceptedByGateway gateway then
    route.parentRefs.foldlM (countParentRef getNamespace selects gateway listener route)
      attachedRoutes
  else .ok attachedRoutes

/-- `getAttachedRoutesForListener`, of the routes that `List` gave. -/
def getAttachedRoutesForListener (items : List ListedRoute) : Except String ℕ :=
  items.foldlM (countRoute getNamespace selects gateway listener) 0

/-- The listener accepts the route for the reference. -/
def ListedRoute.acceptedFor (route : ListedRoute) (parentRef : ParentReference) : Bool :=
  (checkRouteAcceptedByListener getNamespace selects route.toHTTPRoute gateway listener parentRef).1

/-- The route lists the Gateway, and the listener accepts it for a reference that names the
Gateway. -/
def ListedRoute.attached (route : ListedRoute) : Bool :=
  route.acceptedByGateway gateway && route.parentRefs.any fun parentRef =>
    parentRef.namesGateway gateway route.toHTTPRoute && route.acceptedFor getNamespace selects
      gateway listener parentRef

/-- Nothing of the route is forbidden, and it is accepted for one reference at most, which names the
Gateway. -/
structure ListedRoute.Proper (route : ListedRoute) : Prop where
  allowed : ∀ parentRef ∈ route.parentRefs,
    (checkRouteAcceptedByListener getNamespace selects route.toHTTPRoute gateway listener
      parentRef).2.2 = none
  named : ∀ parentRef ∈ route.parentRefs, route.acceptedFor getNamespace selects gateway listener
    parentRef = true →
    parentRef.namesGateway gateway route.toHTTPRoute = true
  once : route.parentRefs.countP (route.acceptedFor getNamespace selects gateway listener) ≤ 1

end Count

section Loops

variable {σ ν : Type} {getNamespace : String → Option ν} {selects : σ → ν → Bool}
variable {gateway : Gateway} {listener : GatewayListener σ} {route : ListedRoute} {n m : ℕ}

/-- The loop over the parent references counts those that are accepted, unless one of them is
forbidden. -/
theorem foldlM_countParentRef_eq_ok_iff {refs : List ParentReference} :
    refs.foldlM (countParentRef getNamespace selects gateway listener route) n = .ok m ↔
      (∀ parentRef ∈ refs,
        (checkRouteAcceptedByListener getNamespace selects route.toHTTPRoute gateway listener
          parentRef).2.2 = none) ∧
        m = n + refs.countP (route.acceptedFor getNamespace selects gateway listener) := by
  induction refs generalizing n with
  | nil => exact ⟨fun h => ⟨nofun, (Except.ok.inj h).symm⟩, fun h => congrArg Except.ok h.2.symm⟩
  | cons ref refs ih =>
    rw [List.foldlM_cons, List.forall_mem_cons, List.countP_cons]
    unfold countParentRef ListedRoute.acceptedFor at *
    obtain ⟨ok, reason, err⟩ :=
      checkRouteAcceptedByListener getNamespace selects route.toHTTPRoute gateway listener ref
    cases err with
    | some err => simp [bind, Except.bind]
    | none =>
      simp only [bind, Except.bind, true_and]
      rw [ih]
      cases ok
      · simp
      · simp only [if_true, and_congr_right_iff]
        omega

/-- What a route adds to the count. -/
def ListedRoute.weight (getNamespace : String → Option ν) (selects : σ → ν → Bool)
    (gateway : Gateway)
    (listener : GatewayListener σ) (route : ListedRoute) : ℕ :=
  if route.acceptedByGateway gateway then
    route.parentRefs.countP (route.acceptedFor getNamespace selects gateway listener)
  else 0

theorem foldlM_countRoute_eq_ok_iff {items : List ListedRoute} :
    items.foldlM (countRoute getNamespace selects gateway listener) n = .ok m ↔
      (∀ route ∈ items, route.acceptedByGateway gateway = true → ∀ parentRef ∈ route.parentRefs,
        (checkRouteAcceptedByListener getNamespace selects route.toHTTPRoute gateway listener
          parentRef).2.2 = none) ∧
        m = n + (items.map (·.weight getNamespace selects gateway listener)).sum := by
  induction items generalizing n with
  | nil => exact ⟨fun h => ⟨nofun, (Except.ok.inj h).symm⟩, fun h => congrArg Except.ok h.2.symm⟩
  | cons route items ih =>
    rw [List.foldlM_cons, System.bind_eq_ok, List.forall_mem_cons, List.map_cons, List.sum_cons]
    unfold countRoute ListedRoute.weight at *
    by_cases hlisted : route.acceptedByGateway gateway
    · simp only [hlisted, if_true, foldlM_countParentRef_eq_ok_iff, forall_true_left]
      constructor
      · rintro ⟨k, ⟨hallowed, rfl⟩, hrest⟩
        obtain ⟨hothers, rfl⟩ := ih.1 hrest
        exact ⟨⟨hallowed, hothers⟩, Nat.add_assoc _ _ _⟩
      · rintro ⟨⟨hallowed, hothers⟩, rfl⟩
        exact ⟨_, ⟨hallowed, rfl⟩, ih.2 ⟨hothers, (Nat.add_assoc _ _ _).symm⟩⟩
    · simp only [hlisted, if_false, Except.ok.injEq, exists_eq_left', ih, Bool.false_eq_true,
        false_implies, true_and,
        zero_add]

/-- A sum of weights that are at least those of a count is the count only where each of them is. -/
theorem sum_eq_countP_iff {α : Type} {l : List α} {f : α → ℕ} {p : α → Bool}
    (h : ∀ a ∈ l, (p a).toNat ≤ f a) :
    l.countP p ≤ (l.map f).sum ∧ ((l.map f).sum = l.countP p ↔ ∀ a ∈ l, f a = (p a).toNat) := by
  induction l with
  | nil => simp
  | cons a l ih =>
    obtain ⟨ha, hl⟩ := List.forall_mem_cons.1 h
    obtain ⟨hle, hiff⟩ := ih hl
    rw [List.map_cons, List.sum_cons, List.countP_cons, List.forall_mem_cons, ← hiff]
    cases hp : p a <;> rw [hp] at ha <;> simp at ha ⊢ <;> omega

section Weight

variable {α : Type} {l : List α} {ok names : α → Bool}

theorem toNat_any_le_countP : (l.any fun a => names a && ok a).toNat ≤ l.countP ok := by
  cases h : l.any fun a => names a && ok a with
  | false => exact Nat.zero_le _
  | true =>
    obtain ⟨a, ha, hok⟩ := List.any_eq_true.1 h
    exact List.countP_pos_iff.2 ⟨a, ha, (Bool.and_eq_true_iff.1 hok).2⟩

/-- What is counted is one or nothing: one if something is named. -/
theorem countP_eq_toNat_any_iff : l.countP ok = (l.any fun a => names a && ok a).toNat ↔
    (∀ a ∈ l, ok a = true → names a = true) ∧ l.countP ok ≤ 1 := by
  constructor
  · intro heq
    have hle : l.countP ok ≤ 1 := heq ▸ Bool.toNat_le _
    refine ⟨fun a ha hok => ?_, hle⟩
    by_contra hname
    -- another one is named, so at least two are counted
    have hpos : 0 < l.countP ok := List.countP_pos_iff.2 ⟨a, ha, hok⟩
    have hany : (l.any fun a => names a && ok a) = true := by
      by_contra hnone
      rw [heq, Bool.eq_false_of_not_eq_true hnone] at hpos
      exact absurd hpos (by decide)
    obtain ⟨b, hb, hbok⟩ := List.any_eq_true.1 hany
    obtain ⟨hbname, hbok⟩ := Bool.and_eq_true_iff.1 hbok
    have hnamed : 0 < (l.filter names).countP ok :=
      List.countP_pos_iff.2 ⟨b, List.mem_filter.2 ⟨hb, hbname⟩, hbok⟩
    have hother : 0 < (l.filter (¬ names ·)).countP ok :=
      List.countP_pos_iff.2 ⟨a, List.mem_filter.2 ⟨ha, by simpa using hname⟩, hok⟩
    have hsum := List.countP_eq_countP_filter_add l ok names
    simp only [decide_not, Bool.decide_eq_true] at hother hsum
    omega
  · rintro ⟨hnames, hle⟩
    refine le_antisymm ?_ toNat_any_le_countP
    rcases Nat.eq_zero_or_pos (l.countP ok) with hzero | hpos
    · rw [hzero]
      exact Nat.zero_le _
    · obtain ⟨a, ha, hok⟩ := List.countP_pos_iff.1 hpos
      rw [List.any_eq_true.2 ⟨a, ha, Bool.and_eq_true_iff.2 ⟨hnames a ha hok, hok⟩⟩]
      exact hle

end Weight

theorem weight_eq_iff : route.weight getNamespace selects gateway listener =
      (route.attached getNamespace selects gateway listener).toNat ↔
    (route.acceptedByGateway gateway = true →
      (∀ parentRef ∈ route.parentRefs, route.acceptedFor getNamespace selects gateway listener
        parentRef = true →
        parentRef.namesGateway gateway route.toHTTPRoute = true) ∧
      route.parentRefs.countP (route.acceptedFor getNamespace selects gateway listener) ≤ 1) := by
  unfold ListedRoute.weight ListedRoute.attached
  by_cases hlisted : route.acceptedByGateway gateway
  · simp only [hlisted, if_true, Bool.true_and, forall_true_left]
    exact countP_eq_toNat_any_iff
  · simp [hlisted]

theorem attached_le_weight : (route.attached getNamespace selects gateway listener).toNat ≤
    route.weight getNamespace selects gateway listener := by
  unfold ListedRoute.weight ListedRoute.attached
  by_cases hlisted : route.acceptedByGateway gateway
  · simp only [hlisted, if_true, Bool.true_and]
    exact toNat_any_le_countP
  · simp [hlisted]

end Loops

/-- **The count** is the number of attached routes exactly if every route that lists the Gateway is
proper. -/
theorem counts_iff {σ ν : Type} (getNamespace : String → Option ν) (selects : σ → ν → Bool)
    (gateway : Gateway)
    (listener : GatewayListener σ) (items : List ListedRoute) :
    getAttachedRoutesForListener getNamespace selects gateway listener items =
        .ok (items.countP (·.attached getNamespace selects gateway listener)) ↔
      ∀ route ∈ items, route.acceptedByGateway gateway = true →
      route.Proper getNamespace selects gateway listener := by
  rw [getAttachedRoutesForListener, foldlM_countRoute_eq_ok_iff, zero_add, eq_comm,
    (sum_eq_countP_iff fun route _ => attached_le_weight).2]
  simp only [weight_eq_iff]
  constructor
  · rintro ⟨hallowed, hweight⟩ route hroute hlisted
    obtain ⟨hnamed, honce⟩ := hweight route hroute hlisted
    exact ⟨hallowed route hroute hlisted, hnamed, honce⟩
  · intro hproper
    exact ⟨fun route hroute hlisted => (hproper route hroute hlisted).allowed,
      fun route hroute hlisted =>
        ⟨(hproper route hroute hlisted).named, (hproper route hroute hlisted).once⟩⟩

/-- A route of the namespace of the Gateway that the listener accepts. -/
def ownRoute : ListedRoute :=
  { nameSpace := "infra", name := "pay", parentRefs := [{ name := "edge" }],
    statusParents := [{ name := "edge" }] }

/-- The route that the listener forbids, with the status its controller has written. -/
def forbiddenRoute : ListedRoute :=
  { foreignRoute with statusParents := [{ nameSpace := some "infra", name := "edge" }] }

/-- One forbidden route, and no route of the listener is counted. -/
theorem forbidden_route_uncounts :
    (∃ err, getAttachedRoutesForListener (fun _ => some ()) (fun _ _ => false)
      { nameSpace := "infra", name := "edge" }
      guardedListener [forbiddenRoute, ownRoute] = .error err) ∧
    [forbiddenRoute, ownRoute].countP (·.attached (fun _ => some ()) (fun _ _ => false)
      { nameSpace := "infra", name := "edge" } guardedListener) = 1 :=
  ⟨⟨_, rfl⟩, by decide⟩

end Pixiu.Controller
