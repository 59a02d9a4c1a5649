import Pixiu.Api.Route
import Pixiu.Base.Loops

/-!
# Path parameters

A request is matched by the trie, on the lower-case path; its parameters are read by
`wildcardMatch`, a second walk along the pattern that the trie node holds.  That pattern was put in
lower case as well, its parameter names included.

`delivers_iff` says when the parameters of a matched request are the segments of its path, under the
names of the pattern as it was written.  `strings.ToLower` maps characters, and `strings.EqualFold`
is a parameter.
-/

namespace Pixiu.Api

open Pixiu Routing

/-- `strings.ToLower`, by what it does to a character. -/
structure Lower where
  char : Char → Char
  idem : ∀ c, char (char c) = char c
  slash : ∀ c, char c = '/' ↔ c = '/'
  colon : ∀ c, char c = ':' ↔ c = ':'

/-- A text in lower case. -/
def Lower.text (lower : Lower) (s : String) : String := String.ofList (s.toList.map lower.char)

/-- The segments that `wildcardMatch` walks along. -/
def segments (path : String) : List String := Text.split '/' (Text.trimLeft '/' path)

/-- A segment such as `:id`. -/
def isParam (segment : String) : Bool := segment.toList.head? = some ':'

/-- The segment without its first character. -/
def paramName (segment : String) : String := String.ofList segment.toList.tail

/-- The loop of `wildcardMatch`; what is added to the values is listed in order. -/
def matchSegments (equalFold : String → String → Bool) : List String → List String →
    Option (List (String × String))
  | [], [] => some []
  | c :: cPaths, w :: wPaths =>
    if !equalFold c w && !isParam w then none
    else (matchSegments equalFold cPaths wPaths).map fun result =>
      if isParam w then (paramName w, c) :: result else result
  | _, _ => none

/-- `wildcardMatch`. -/
def wildcardMatch (equalFold : String → String → Bool) (wildcardPath checkPath : String) :
    Option (List (String × String)) :=
  matchSegments equalFold (segments checkPath) (segments wildcardPath)

/-- `GetURIParams`. -/
def getURIParams (equalFold : String → String → Bool) (api : API) (path : String) :
    Option (List (String × String)) :=
  wildcardMatch equalFold api.urlPattern path

/-- The names of the parameters, as they are written. -/
def paramNames (pattern : String) : List String := ((segments pattern).filter isParam).map paramName

/-- What `url.Values` has under a name; a nil map has nothing. -/
def valuesOf (values : Option (List (String × String))) (name : String) : List String :=
  ((values.getD []).filter fun e => decide (e.1 = name)).map Prod.snd

/-- Every parameter of the pattern has the segment of the path at its position, and nothing else. -/
def Delivers (values : Option (List (String × String))) (pattern path : String) : Prop :=
  ∀ (i : ℕ) segment, (segments pattern)[i]? = some segment → isParam segment = true →
    ∃ value, (segments path)[i]? = some value ∧ valuesOf values (paramName segment) = [value]

/-- Pattern and path have the same segments, up to case, where the pattern has no parameter. -/
def Aligned (equalFold : String → String → Bool) (lower : Lower) (pattern path : String) : Prop :=
  List.Forall₂ (fun w c => isParam w = true ∨ equalFold c (lower.text w) = true) (segments pattern)
    (segments path)

section Segments

variable {equalFold : String → String → Bool} {lower : Lower} {ws cs : List String}
  {values : List (String × String)}

theorem Lower.text_text (lower : Lower) (s : String) :
    lower.text (lower.text s) = lower.text s := by
  simp [Lower.text, Function.comp_def, lower.idem]

theorem isParam_text (w : String) : isParam (lower.text w) = isParam w := by
  unfold isParam Lower.text
  cases w.toList with
  | nil => simp
  | cons c cs => simp [lower.colon]

theorem paramName_text (w : String) : paramName (lower.text w) = lower.text (paramName w) := by
  simp [paramName, Lower.text]

theorem segments_text (path : String) :
    segments (lower.text path) = (segments path).map lower.text := by
  have htrim : Text.trimLeft '/' (lower.text path) = lower.text (Text.trimLeft '/' path) := by
    have hslash : ((· == '/') ∘ lower.char) = (· == '/') := by
      funext c
      simp [beq_eq_beq, lower.slash]
    simp [Text.trimLeft, Lower.text, List.dropWhile_map, hslash]
  rw [segments, htrim, segments, Lower.text, Text.split_map lower.slash]
  rfl

/-- What the walk adds. -/
def collect (ws cs : List String) : List (String × String) :=
  (ws.zip cs).filterMap fun (w, c) => if isParam w then some (paramName w, c) else none

theorem matchSegments_eq_some_iff : matchSegments equalFold cs ws = some values ↔
    List.Forall₂ (fun w c => isParam w = true ∨ equalFold c w = true) ws cs ∧
      values = collect ws cs := by
  induction cs generalizing ws values with
  | nil =>
    cases ws with
    | nil => exact ⟨fun h => ⟨.nil, (Option.some.inj h).symm⟩, fun h => congrArg some h.2.symm⟩
    | cons w ws => simp [matchSegments]
  | cons c cs ih =>
    cases ws with
    | nil => simp [matchSegments]
    | cons w ws =>
      rw [matchSegments, List.forall₂_cons]
      have hcollect : collect (w :: ws) (c :: cs) =
          if isParam w then (paramName w, c) :: collect ws cs else collect ws cs := by
        cases hw : isParam w <;> simp [collect, hw]
      by_cases hsame : isParam w = true ∨ equalFold c w = true
      · have hpass : ¬ (!equalFold c w && !isParam w) = true := by
          rcases hsame with hw | hc
          · simp [hw]
          · simp [hc]
        rw [if_neg hpass]
        rw [Option.map_eq_some_iff, hcollect]
        simp only [hsame, true_and]
        constructor
        · rintro ⟨rest, hrest, rfl⟩
          obtain ⟨hall, rfl⟩ := ih.1 hrest
          exact ⟨hall, rfl⟩
        · rintro ⟨hall, rfl⟩
          exact ⟨_, ih.2 ⟨hall, rfl⟩, rfl⟩
      · have hstop : (!equalFold c w && !isParam w) = true := by simpa [and_comm] using hsame
        simp [hstop, hsame]

theorem map_fst_collect (h : ws.length = cs.length) :
    (collect ws cs).map Prod.fst = (ws.filter isParam).map paramName := by
  induction ws generalizing cs with
  | nil => rfl
  | cons w ws ih =>
    cases cs with
    | nil => cases h
    | cons c cs =>
      have htail := ih (Nat.succ.inj h)
      unfold collect at htail ⊢
      cases hw : isParam w <;> simp [hw, htail]

theorem mem_collect {i : ℕ} {w c : String} (hw : ws[i]? = some w) (hc : cs[i]? = some c)
    (hparam : isParam w = true) :
    (paramName w, c) ∈ collect ws cs := by
  refine List.mem_filterMap.2 ⟨(w, c), ?_, if_pos hparam⟩
  exact List.mem_of_getElem? (List.getElem?_zip_eq_some.2 ⟨hw, hc⟩)

/-- Lower-case names are kept. -/
theorem collect_map_text (h : ∀ w ∈ ws, isParam w = true → lower.text (paramName w) = paramName w) :
    collect (ws.map lower.text) cs = collect ws cs := by
  induction ws generalizing cs with
  | nil => rfl
  | cons w ws ih =>
    cases cs with
    | nil => rfl
    | cons c cs =>
      have htail := @ih cs fun v hv => h v (List.mem_cons_of_mem _ hv)
      unfold collect at htail ⊢
      cases hw : isParam w with
      | false => simpa [isParam_text, hw] using htail
      | true => simpa [isParam_text, hw, paramName_text, h w List.mem_cons_self hw] using htail

theorem wildcardMatch_text_eq_some_iff {pattern path : String} :
    wildcardMatch equalFold (lower.text pattern) path = some values ↔
      Aligned equalFold lower pattern path ∧
      values = collect ((segments pattern).map lower.text) (segments path) := by
  rw [wildcardMatch, matchSegments_eq_some_iff, segments_text, List.forall₂_map_left_iff]
  simp only [isParam_text, Aligned]

theorem mem_paramNames {pattern name : String} :
    name ∈ paramNames pattern ↔ ∃ w ∈ segments pattern, isParam w = true ∧ paramName w = name := by
  simp [paramNames, and_assoc]

end Segments

section Requests

variable {equalFold : String → String → Bool} {lower : Lower} {rt : Route} {api : API}
  {path verb : String}

/-- A name under which there is something is a name of the stored pattern. -/
theorem text_eq_of_valuesOf {pattern name : String} {value : String}
    (h : valuesOf (wildcardMatch equalFold (lower.text pattern) path) name = [value]) :
    Aligned equalFold lower pattern path ∧ lower.text name = name := by
  cases hmatch : wildcardMatch equalFold (lower.text pattern) path with
  | none => simp [hmatch, valuesOf] at h
  | some values =>
    obtain ⟨haligned, hvalues⟩ := wildcardMatch_text_eq_some_iff.1 hmatch
    have hlength : ((segments pattern).map lower.text).length = (segments path).length := by
      rw [List.length_map]
      exact haligned.length_eq
    have hmem : name ∈ values.map Prod.fst := by
      rw [hmatch, valuesOf] at h
      obtain ⟨e, he, -⟩ := List.mem_map.1 (h ▸ List.mem_singleton_self value)
      obtain ⟨he, hname⟩ := List.mem_filter.1 he
      exact List.mem_map.2 ⟨e, he, of_decide_eq_true hname⟩
    rw [hvalues, map_fst_collect hlength] at hmem
    obtain ⟨w, hw, rfl⟩ := List.mem_map.1 hmem
    obtain ⟨v, -, rfl⟩ := List.mem_map.1 (List.mem_of_mem_filter hw)
    rw [paramName_text, lower.text_text]
    exact ⟨haligned, rfl⟩

theorem delivers_of_aligned {pattern : String} (hdistinct : (paramNames pattern).Nodup)
    (haligned : Aligned equalFold lower pattern path)
    (hlower : ∀ name ∈ paramNames pattern, lower.text name = name) :
    Delivers (wildcardMatch equalFold (lower.text pattern) path) pattern path := by
  intro i w hw hparam
  have hnames : ∀ w ∈ segments pattern, isParam w = true → lower.text (paramName w) = paramName w :=
    fun w hmem h => hlower _ (mem_paramNames.2 ⟨w, hmem, h, rfl⟩)
  have hlength : (segments pattern).length = (segments path).length := haligned.length_eq
  obtain ⟨hi, -⟩ := List.getElem?_eq_some_iff.1 hw
  have hbound : i < (segments path).length := hlength ▸ hi
  have hc : (segments path)[i]? = some (segments path)[i] := List.getElem?_eq_getElem hbound
  refine ⟨_, hc, ?_⟩
  rw [wildcardMatch_text_eq_some_iff.2 ⟨haligned, rfl⟩, collect_map_text hnames, valuesOf]
  have hkeys : ((collect (segments pattern) (segments path)).map Prod.fst).Nodup := by
    rw [map_fst_collect hlength]
    exact hdistinct
  rw [Option.getD_some, filter_key_eq_singleton hkeys (mem_collect hw hc hparam)]
  rfl

/-- The parameters of a matched request are its segments exactly when the pattern has none, or its
names are in lower case and the path has a segment for each of its segments, the same up to case
where there is no parameter: a wildcard, or a slash at the end, leaves nothing. -/
theorem delivers_iff
    (hmatch : rt.matchAPI lower.text path verb = some (Route.nodeOf lower.text api).api)
    (hdistinct : (paramNames api.urlPattern).Nodup) :
    Delivers ((rt.matchAPI lower.text path verb).bind (getURIParams equalFold · path))
      api.urlPattern path ↔
      paramNames api.urlPattern = [] ∨ Aligned equalFold lower api.urlPattern path ∧
        ∀ name ∈ paramNames api.urlPattern, lower.text name = name := by
  rw [hmatch, Option.bind_some]
  change Delivers (wildcardMatch equalFold (lower.text api.urlPattern) path) _ _ ↔ _
  constructor
  · intro h
    have hname : ∀ name ∈ paramNames api.urlPattern,
        Aligned equalFold lower api.urlPattern path ∧ lower.text name = name := by
      intro name hname
      obtain ⟨w, hw, hparam, rfl⟩ := mem_paramNames.1 hname
      obtain ⟨i, hi⟩ := List.mem_iff_getElem?.1 hw
      obtain ⟨value, -, hvalue⟩ := h i w hi hparam
      exact text_eq_of_valuesOf hvalue
    rcases List.eq_nil_or_concat (paramNames api.urlPattern) with hnil | ⟨_, name, hcons⟩
    · exact .inl hnil
    · have hfirst : name ∈ paramNames api.urlPattern := by simp [hcons]
      exact .inr ⟨(hname name hfirst).1, fun name h => (hname name h).2⟩
  · rintro (hnil | ⟨haligned, hlower⟩)
    · intro i w hw hparam
      have : paramName w ∈ paramNames api.urlPattern :=
        mem_paramNames.2 ⟨w, List.mem_of_getElem? hw, hparam, rfl⟩
      simp [hnil] at this
    · exact delivers_of_aligned hdistinct haligned hlower

/-- Only `I` has another lower case: enough for one name. -/
def lowerI : Lower where
  char c := if c = 'I' then 'i' else c
  idem c := by
    by_cases h : c = 'I'
    · simp [h]
    · simp [h]
  slash c := by split_ifs with h <;> simp [h]
  colon c := by split_ifs with h <;> simp [h]

/-- The APIs of users, with a parameter. -/
def users (name : String) : API :=
  ⟨"/users/:" ++ name, { httpVerb := "GET", url := "users" }, none, none⟩

/-- A table with one API. -/
def usersRoute (name : String) : Route := (newRoute.putAPI lowerI.text (users name)).1

theorem delivers_iff_lowerCase :
    (usersRoute "id").matchAPI lowerI.text "/users/7" "GET" =
      some (Route.nodeOf lowerI.text (users "id")).api ∧
      Delivers
        (((usersRoute "id").matchAPI lowerI.text "/users/7" "GET").bind
          (getURIParams (· == ·) · "/users/7"))
        (users "id").urlPattern "/users/7" := by
  have hmatch : (usersRoute "id").matchAPI lowerI.text "/users/7" "GET" =
    some (Route.nodeOf lowerI.text (users "id")).api := by decide +kernel
  refine ⟨hmatch, (delivers_iff hmatch (by decide)).2 (.inr ⟨?_, by decide⟩)⟩
  have hpattern : segments (users "id").urlPattern = ["users", ":id"] := by decide
  have hpath : segments "/users/7" = ["users", "7"] := by decide
  rw [Aligned, hpattern, hpath]
  exact .cons (by decide) (.cons (by decide) .nil)

/-- The parameter that is written `userId` is delivered as `userid`. -/
theorem name_in_lower_case :
    (usersRoute "userId").matchAPI lowerI.text "/users/7" "GET" =
        some (Route.nodeOf lowerI.text (users "userId")).api ∧
      (paramNames (users "userId").urlPattern).Nodup ∧
      ¬ Delivers (((usersRoute "userId").matchAPI lowerI.text "/users/7" "GET").bind
          (getURIParams (· == ·) · "/users/7")) (users "userId").urlPattern "/users/7" := by
  refine ⟨by decide +kernel, by decide, fun h => ?_⟩
  obtain ⟨value, -, hvalue⟩ := h 1 ":userId" (by decide) (by decide)
  have hnothing : valuesOf (((usersRoute "userId").matchAPI lowerI.text "/users/7" "GET").bind
    (getURIParams (· == ·) · "/users/7")) (paramName ":userId") = [] := by decide +kernel
  rw [hnothing] at hvalue
  cases hvalue

end Requests

end Pixiu.Api
