import Pixiu.Base.System
import Pixiu.Dubbo.Provider

/-!
# Dubbo services in ZooKeeper

`serviceListener` reads the providers of one service whenever their node changes, and from time to
time.  It adds the methods of the first provider, and on an error it has the whole service removed.

`live` is not part of the source: the APIs that were added and not removed since.

* `ServiceListener.register_eq_none_iff`, `ServiceListener.mem_live_register` — what the loop over
  the methods does.
* `providers_served_iff` — when a sequence of calls serves all the providers it reads.
-/

namespace Pixiu.Dubbo.Zookeeper

/-- `registryMethod` has a key for each method that was added. -/
structure ServiceListener where
  url : Url
  registryMethod : Finset String
  live : Finset Triple

/-- What reading the children gives; an empty list is an error. -/
inductive Read where
  | error
  | children (first : String) (rest : List String)

/-- The key of an API in `registryMethod`. -/
def key (api : API) : String := api.urlPattern ++ ":" ++ "POST"

namespace ServiceListener

/-- An API that was added. -/
def add (s : ServiceListener) (api : API) : ServiceListener :=
  { s with registryMethod := insert (key api) s.registryMethod, live := insert api.triple s.live }

/-- The loop over the methods, each with its API; nothing if a call panics. -/
def register (s : ServiceListener) : List API → Option ServiceListener
  | [] => some s
  | api :: apis =>
    -- A method that is known ends the loop.
    if key api ∈ s.registryMethod then some s
    else
      match onAddAPI api with
      | none => none
      | some true => (s.add api).register apis
      | some false => s.register apis

/-- `OnDeleteRouter`: everything under a pattern is removed. -/
def deleteRouter (s : ServiceListener) (apiPattern : String) : ServiceListener :=
  { s with live := s.live.filter fun t => t.1 ≠ apiPattern }

/-- `handleEvent`. -/
def handleEvent (lib : UrlLib) (s : ServiceListener) : Read → Option ServiceListener
  | .error =>
    -- The error of the parser is ignored, and what is known stays known.
    let bkConf := ((parseDubboString lib (lib.text s.url)).map (·.1)).getD {}
    some (s.deleteRouter (getAPIPattern bkConf))
  | .children first _ =>
    let s := { s with url := (lib.newURL first).1 }
    match parseDubboString lib first with
    | none => some s
    | some (bkConfig, methods, location) =>
      if bkConfig.applicationName = "" ∨ bkConfig.interface = "" then some s
      else s.register (methods.map (createAPIConfig (getAPIPattern bkConfig) location bkConfig))

/-! ## Serving the providers -/

/-- A provider that can be parsed and has names. -/
def Named (lib : UrlLib) (child : String) : Prop :=
  ∃ bkConfig methods location, parseDubboString lib child = some (bkConfig, methods, location) ∧
    bkConfig.applicationName ≠ "" ∧ bkConfig.interface ≠ ""

/-- A call does not panic, and if it reads providers that are all named, the APIs of all of them are
there. -/
def Served (lib : UrlLib) (s : ServiceListener) (read : Read) : Prop :=
  ∃ s', s.handleEvent lib read = some s' ∧ ∀ first rest, read = .children first rest →
    (∀ child ∈ first :: rest, Named lib child) →
      ∀ child ∈ first :: rest, ∀ api ∈ apisOf lib child, api.triple ∈ s'.live

/-- An API that the loop comes to: neither it nor one before it is known or comes twice, and the
port is a number. -/
def Fresh (s : ServiceListener) (apis : List API) (t : Triple) : Prop :=
  ∃ before api after, apis = before ++ api :: after ∧ api.triple = t ∧
    (∀ a ∈ before ++ [api], key a ∉ s.registryMethod) ∧ ((before ++ [api]).map key).Nodup ∧
      onAddAPI api = some true

/-- The calls that serve the providers: the address of the first has a colon unless its first method
is known, and what is listed is there already or fresh among the methods of the first. -/
def Serves (lib : UrlLib) (s : ServiceListener) : Read → Prop
  | .error => True
  | .children first rest =>
    (Named lib first → ∀ api ∈ (apisOf lib first).head?, key api ∈ s.registryMethod ∨
      onAddAPI api ≠ none) ∧
    ((∀ child ∈ first :: rest, Named lib child) → ∀ child ∈ first :: rest, ∀ api ∈ apisOf lib child,
      api.triple ∈ s.live ∨ s.Fresh (apisOf lib first) api.triple)

variable {lib : UrlLib} {s s' : ServiceListener} {apis : List API} {api : API} {t : Triple}

theorem fresh_cons_of_known (hknown : key api ∈ s.registryMethod) : ¬s.Fresh (api :: apis) t := by
  rintro ⟨before, a, after, hsplit, -, hnew, -⟩
  cases before with
  | nil =>
    obtain ⟨rfl, rfl⟩ := List.cons.inj hsplit
    exact hnew api (by simp) hknown
  | cons b before =>
    obtain ⟨rfl, rfl⟩ := List.cons.inj hsplit
    exact hnew api (by simp) hknown

theorem fresh_cons_iff (hnew : key api ∉ s.registryMethod) (hadd : onAddAPI api = some true) :
    s.Fresh (api :: apis) t ↔ t = api.triple ∨ (s.add api).Fresh apis t := by
  constructor
  · rintro ⟨before, a, after, hsplit, rfl, hnone, hnodup, hport⟩
    cases before with
    | nil =>
      obtain ⟨rfl, rfl⟩ := List.cons.inj hsplit
      exact .inl rfl
    | cons b before =>
      obtain ⟨rfl, rfl⟩ := List.cons.inj hsplit
      rw [List.cons_append, List.map_cons, List.nodup_cons] at hnodup
      refine .inr ⟨before, a, after, rfl, rfl, fun a' ha' => ?_, hnodup.2, hport⟩
      rw [add, Finset.mem_insert, not_or]
      exact ⟨fun heq => hnodup.1 (heq ▸ List.mem_map_of_mem ha'),
        hnone a' (List.mem_cons_of_mem _ ha')⟩
  · rintro (rfl | ⟨before, a, after, rfl, rfl, hnone, hnodup, hport⟩)
    · exact ⟨[], api, apis, rfl, rfl, by simpa using hnew, by simp, hadd⟩
    · refine ⟨api :: before, a, after, rfl, rfl, ?_, ?_, hport⟩
      · rintro a' (_ | ⟨_, ha'⟩)
        · exact hnew
        · exact fun hknown => hnone a' ha' (Finset.mem_insert_of_mem hknown)
      · rw [List.cons_append, List.map_cons, List.nodup_cons]
        refine ⟨fun hmem => ?_, hnodup⟩
        obtain ⟨a', ha', heq⟩ := List.mem_map.1 hmem
        exact hnone a' ha' (heq ▸ Finset.mem_insert_self ..)

/-- The methods of one provider have one address, so the first of them tells whether the loop
panics. -/
theorem register_eq_none_iff (hsame : ∀ a ∈ apis, ∀ a' ∈ apis, onAddAPI a = onAddAPI a') :
    s.register apis = none ↔ ∃ api ∈ apis.head?, key api ∉ s.registryMethod ∧
      onAddAPI api = none := by
  have hsome : ∀ (apis : List API) (s : ServiceListener), (∀ a ∈ apis, onAddAPI a ≠ none) →
      s.register apis ≠ none := by
    intro apis
    induction apis with
    | nil => exact fun _ _ => nofun
    | cons a apis ih =>
      intro s hcolon
      have hrest := fun s => ih s fun a' ha' => hcolon a' (List.mem_cons_of_mem _ ha')
      rw [register]
      by_cases hknown : key a ∈ s.registryMethod
      · rw [if_pos hknown]
        nofun
      · rw [if_neg hknown]
        cases hadd : onAddAPI a with
        | none => exact (hcolon a (List.mem_cons_self ..) hadd).elim
        | some added => cases added <;> exact hrest _
  cases apis with
  | nil => simp [register]
  | cons a apis =>
    by_cases hknown : key a ∈ s.registryMethod
    · simp [register, hknown]
    · cases hadd : onAddAPI a with
      | none => simp [register, hknown, hadd]
      | some added =>
        have hcolon : ∀ a' ∈ a :: apis, onAddAPI a' ≠ none := fun a' ha' hnone => by
          rw [hsame a' ha' a (List.mem_cons_self ..), hadd] at hnone
          cases hnone
        simp [hsome (a :: apis) s hcolon, hknown, hadd]

/-- What the loop adds. -/
theorem mem_live_register (hsame : ∀ a ∈ apis, ∀ a' ∈ apis, onAddAPI a = onAddAPI a')
    (h : s.register apis = some s') : t ∈ s'.live ↔ t ∈ s.live ∨ s.Fresh apis t := by
  induction apis generalizing s with
  | nil =>
    obtain rfl := Option.some.inj h
    exact ⟨.inl, fun h => h.elim id fun ⟨before, _, _, hsplit, _⟩ => by
      cases before <;> cases hsplit⟩
  | cons a apis ih =>
    replace ih := fun {s} => ih (s := s) fun a' ha' a'' ha'' =>
      hsame a' (List.mem_cons_of_mem _ ha') a'' (List.mem_cons_of_mem _ ha'')
    rw [register] at h
    by_cases hknown : key a ∈ s.registryMethod
    · rw [if_pos hknown] at h
      obtain rfl := Option.some.inj h
      simp [fresh_cons_of_known hknown]
    · rw [if_neg hknown] at h
      cases hadd : onAddAPI a with
      | none =>
        rw [hadd] at h
        cases h
      | some added =>
        rw [hadd] at h
        cases added with
        | true =>
          rw [ih h, fresh_cons_iff hknown hadd, add, Finset.mem_insert]
          tauto
        | false =>
          -- No method has a port that is a number.
          have hnone : ∀ apis', (∀ a' ∈ apis', a' ∈ a :: apis) → ¬s.Fresh apis' t := by
            rintro apis' hsub ⟨before, a', after, rfl, -, -, -, hport⟩
            rw [hsame a' (hsub a' (by simp)) a (List.mem_cons_self ..), hadd] at hport
            cases hport
          rw [ih h]
          simp [hnone (a :: apis) fun _ => id, hnone apis fun _ => List.mem_cons_of_mem _]

theorem handleEvent_of_named {first : String} {rest : List String} (hnamed : Named lib first) :
    s.handleEvent lib (.children first rest) =
      register { s with url := (lib.newURL first).1 } (apisOf lib first) := by
  obtain ⟨bkConfig, methods, location, hparse, happlication, hinterface⟩ := hnamed
  simp [handleEvent, apisOf, hparse, happlication, hinterface]

theorem handleEvent_of_not_named {first : String} {rest : List String} (hnamed : ¬Named lib first) :
    s.handleEvent lib (.children first rest) = some { s with url := (lib.newURL first).1 } := by
  rw [handleEvent]
  cases hparse : parseDubboString lib first with
  | none => rfl
  | some parsed =>
    obtain ⟨bkConfig, methods, location⟩ := parsed
    by_cases hempty : bkConfig.applicationName = "" ∨ bkConfig.interface = ""
    · exact if_pos hempty
    · rw [not_or] at hempty
      exact (hnamed ⟨bkConfig, methods, location, hparse, hempty⟩).elim

theorem onAddAPI_eq_of_mem_apisOf {child : String} :
    ∀ a ∈ apisOf lib child, ∀ a' ∈ apisOf lib child, onAddAPI a = onAddAPI a' := by
  rw [apisOf]
  cases parseDubboString lib child with
  | none => exact nofun
  | some parsed =>
    intro a ha a' ha'
    obtain ⟨m, -, rfl⟩ := List.mem_map.1 ha
    obtain ⟨m', -, rfl⟩ := List.mem_map.1 ha'
    rfl

/-- A call serves its providers exactly if it is one of those that do. -/
theorem served_iff (s : ServiceListener) (read : Read) : s.Served lib read ↔ s.Serves lib read := by
  cases read with
  | error => exact ⟨fun _ => trivial, fun _ => ⟨_, rfl, nofun⟩⟩
  | children first rest =>
    by_cases hnamed : Named lib first
    · rw [Served, Serves, handleEvent_of_named hnamed]
      cases hregister : register { s with url := (lib.newURL first).1 } (apisOf lib first) with
      | none =>
        obtain ⟨api, hhead, hnew, hpanic⟩ :=
          (register_eq_none_iff onAddAPI_eq_of_mem_apisOf).1 hregister
        refine ⟨fun ⟨_, hnone, _⟩ => (Option.some_ne_none _ hnone.symm).elim, fun ⟨hcolon, _⟩ => ?_⟩
        exact (hcolon hnamed api hhead).elim (fun hknown => (hnew hknown).elim) fun h =>
          (h hpanic).elim
      | some s' =>
        have hlive := fun t => mem_live_register (t := t) onAddAPI_eq_of_mem_apisOf hregister
        have hcolon : ∀ api ∈ (apisOf lib first).head?, key api ∈ s.registryMethod ∨
            onAddAPI api ≠ none := by
          by_contra hpanic
          push Not at hpanic
          have hnone : register { s with url := (lib.newURL first).1 } (apisOf lib first) = none :=
            (register_eq_none_iff onAddAPI_eq_of_mem_apisOf).2 hpanic
          rw [hregister] at hnone
          cases hnone
        constructor
        · rintro ⟨s'', hs, hall⟩
          obtain rfl := Option.some.inj hs
          exact ⟨fun _ => hcolon, fun hnames child hchild api hapi =>
            (hlive _).1 (hall first rest rfl hnames child hchild api hapi)⟩
        · rintro ⟨-, hall⟩
          refine ⟨s', rfl, ?_⟩
          rintro _ _ ⟨⟩ hnames child hchild api hapi
          exact (hlive _).2 (hall hnames child hchild api hapi)
    · rw [Served, Serves, handleEvent_of_not_named hnamed]
      refine ⟨fun _ =>
        ⟨fun h => (hnamed h).elim, fun h => (hnamed (h first (List.mem_cons_self ..))).elim⟩,
        fun _ => ⟨_, rfl, ?_⟩⟩
      rintro _ _ ⟨⟩ hnames
      exact (hnamed (hnames first (List.mem_cons_self ..))).elim

end ServiceListener

/-- In a sequence of calls none panics and each that reads named providers leaves all their APIs in
place, exactly if every call is one that serves its providers. -/
theorem providers_served_iff (lib : UrlLib) (s : ServiceListener) (reads : List Read) :
    System.StepsAlong (ServiceListener.handleEvent lib) (ServiceListener.Served lib) s reads ↔
      System.StepsAlong (ServiceListener.handleEvent lib) (ServiceListener.Serves lib) s reads := by
  have hpointwise : ServiceListener.Served lib = ServiceListener.Serves lib :=
    funext fun s => funext fun read => propext (s.served_iff read)
  rw [hpointwise]

/-- Of two providers only the first is added; after an error and a recovery nothing is there; and an
address without a colon makes the call panic. -/
theorem providers_not_served :
    let s : ServiceListener := ⟨⟨"", "", "", []⟩, ∅, ∅⟩
    ((s.handleEvent Sample.lib (.children "get@a:1" ["get@b:2"])).map fun s' =>
      (decide (("/app/Users", "get", "a:1") ∈ s'.live),
        decide (("/app/Users", "get", "b:2") ∈ s'.live))) =
        some (true, false) ∧
    (([.children "get@a:1" [], .error, .children "get@a:1" []].foldlM
      (ServiceListener.handleEvent Sample.lib) s).map
      fun s' => decide (("/app/Users", "get", "a:1") ∈ s'.live)) = some false ∧
    (s.handleEvent Sample.lib (.children "get@a" [])).isNone = true := by
  decide +kernel

end Pixiu.Dubbo.Zookeeper
