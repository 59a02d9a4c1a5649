import Pixiu.Routing.Snapshot

/-!
# The shared array of compiled headers

`compileHeaders` allocates one array for the values of all its plain matchers, and every compiled
header gets a slice of it.  `Pixiu.Routing.Snapshot` gives each header a list of its own; here the
array is kept, together with the offset that only plain matchers move, and a slice that does not fit
is a panic.

What the loop writes lies behind the offset, and what it has handed out lies before it; so a slice
still reads what was copied to it when the loop is done (`compileLoop_eq`).  Hence the two models
agree, nothing panics, and every matcher that is kept has its name, and its values or its expression
(`compiled_of_kept`).
-/

namespace Pixiu.Routing

/-- A compiled header whose values are a slice of the shared array: where it starts, and its
length. -/
structure SlicedHeader where
  name : String
  regex : Option (String → Bool) := none
  start : ℕ := 0
  length : ℕ := 0

/-- The header as it reads in an array. -/
def SlicedHeader.read (array : List String) (c : SlicedHeader) : CompiledHeader where
  name := c.name
  regex := c.regex
  values := (array.drop c.start).take c.length

/-- `copy` to the array from an offset. -/
def copyInto (array : List String) (offset : ℕ) (values : List String) : List String :=
  array.take offset ++ (values ++ array.drop (offset + values.length))

/-- `headerValueCount`. -/
def headerValueCount : List HeaderMatcher → ℕ
  | [] => 0
  | h :: headers => (if h.regex then 0 else h.values.length) + headerValueCount headers

section Compile

variable (compile : String → Option (String → Bool))

/-- `compileHeader` on the slice of the array from an offset: the array, and the header if it is
kept.  Nothing if a slice goes past the array. -/
def compileHeaderInto (array : List String) (valueOffset : ℕ) (h : HeaderMatcher) :
    Option (List String × Option SlicedHeader) :=
  if array.length < valueOffset then none
  else if h.regex then
    some (array, (compileRegexHeader compile h).map fun c => { name := c.name, regex := c.regex })
  else if h.values = [] then some (array, some { name := h.name })
  else if array.length < valueOffset + h.values.length then none
  else some (copyInto array valueOffset h.values,
    some { name := h.name, start := valueOffset, length := h.values.length })

/-- The loop of `compileHeaders`. -/
def compileLoop : List String → ℕ → List HeaderMatcher → Option (List String × List SlicedHeader)
  | array, _, [] => some (array, [])
  | array, valueOffset, h :: headers => do
      let (array, c) ← compileHeaderInto compile array valueOffset h
      match c with
      | none => compileLoop array valueOffset headers
      | some c => do
          let rest ← compileLoop array (valueOffset + c.length) headers
          pure (rest.1, c :: rest.2)

/-- `compileHeaders`, with the array, as its result reads in the end. -/
def compileHeadersShared (headers : List HeaderMatcher) : Option (List CompiledHeader) :=
  (compileLoop compile (List.replicate (headerValueCount headers) "") 0 headers).map fun done =>
    done.2.map (SlicedHeader.read done.1)

/-- `compileHeaders` keeps a matcher: a plain one, or one whose expression is there or can be
compiled. -/
def Kept (h : HeaderMatcher) : Prop :=
  h.regex = false ∨ h.valueRE.isSome ∨ ∀ v ∈ h.values.head?, v = "" ∨ (compile v).isSome

instance : DecidablePred (Kept compile) := fun _ => inferInstanceAs (Decidable (_ ∨ _ ∨ _))

/-- The expression of a regex matcher. -/
def HeaderMatcher.compiledRegex (h : HeaderMatcher) : Option (String → Bool) :=
  match h.valueRE, h.values with
  | some re, _ => some re
  | none, [] => none
  | none, v :: _ => if v = "" then none else compile v

/-- A compiled header is what a plain matcher says, or what a regex matcher does. -/
def Compiles (h : HeaderMatcher) (c : CompiledHeader) : Prop :=
  c.name = h.name ∧ if h.regex then c.values = [] ∧ c.regex = h.compiledRegex compile
    else c.values = h.values ∧ c.regex = none

/-- A compiled header has the name and the values of its matcher. -/
def Carries (h : HeaderMatcher) (c : CompiledHeader) : Prop := c.name = h.name ∧ c.values = h.values

end Compile

/-! ## The array -/

section Array

variable {array : List String} {offset : ℕ} {values : List String}

theorem length_copyInto (h : offset + values.length ≤ array.length) :
    (copyInto array offset values).length = array.length := by
  simp only [copyInto, List.length_append, List.length_take, List.length_drop]
  omega

/-- What stands before the offset is not touched. -/
theorem take_copyInto (h : offset ≤ array.length) :
    (copyInto array offset values).take offset = array.take offset := by
  have hlength : (array.take offset).length = offset := by
    rw [List.length_take, Nat.min_eq_left h]
  rw [copyInto, List.take_append_of_le_length (by omega), List.take_take, Nat.min_self]

/-- What is copied can be read in every array that is the same up to its end. -/
theorem read_copied {array' : List String} (h : offset + values.length ≤ array.length)
    (hsame :
    array'.take (offset + values.length) = (copyInto array offset values).take
      (offset + values.length)) :
    (array'.drop offset).take values.length = values := by
  have hlength : (array.take offset).length = offset := by
    rw [List.length_take]
    omega
  have hdrop := congrArg (List.drop offset) hsame
  rw [List.drop_take, List.drop_take, Nat.add_sub_cancel_left, copyInto,
    List.drop_append_of_le_length (by omega),
    List.drop_take, Nat.sub_self, List.take_zero, List.nil_append, List.take_left] at hdrop
  exact hdrop

end Array

/-! ## The loop -/

section Loop

variable (compile : String → Option (String → Bool))

/-- One matcher, with room for its values: the array keeps what was there, and as long as nothing is
changed before the new offset the header reads as in the model without an array. -/
theorem compileHeaderInto_eq {array : List String} {offset : ℕ} {h : HeaderMatcher} {more : ℕ}
    (hroom : offset + ((if h.regex then 0 else h.values.length) + more) ≤ array.length) :
    ∃ array₁ c, compileHeaderInto compile array offset h = some (array₁, c) ∧
      array₁.length = array.length ∧
      array₁.take offset = array.take offset ∧
      offset + ((c.map (·.length)).getD 0 + more) ≤ array.length ∧
      ∀ array' : List String, array'.take (offset + (c.map (·.length)).getD 0) =
          array₁.take (offset + (c.map (·.length)).getD 0) →
        c.map (·.read array') = compileHeader compile h := by
  have hoffset : ¬ array.length < offset := by omega
  rw [compileHeaderInto, if_neg hoffset, compileHeader]
  by_cases hregex : h.regex = true
  · rw [if_pos hregex, if_pos hregex]
    rw [if_pos hregex] at hroom
    refine ⟨array, _, rfl, rfl, rfl, ?_, fun array' _ => ?_⟩
    · cases compileRegexHeader compile h with
      | none => exact hroom
      | some c => exact hroom
    · -- a regex header has no values in either model
      rw [Option.map_map, compileRegexHeader]
      cases h.valueRE with
      | some re => rfl
      | none =>
        cases h.values with
        | nil => rfl
        | cons v values =>
          by_cases hv : v = ""
          · simp [hv, SlicedHeader.read]
          · simp [hv, SlicedHeader.read, Function.comp_def]
  · rw [if_neg hregex, if_neg hregex]
    rw [if_neg hregex] at hroom
    by_cases hvalues : h.values = []
    · rw [if_pos hvalues]
      refine ⟨array, _, rfl, rfl, rfl, ?_, fun array' _ => ?_⟩
      · change offset + (0 + more) ≤ array.length
        omega
      · simp [SlicedHeader.read, hvalues]
    · rw [if_neg hvalues, if_neg (by omega)]
      refine ⟨_, _, rfl, length_copyInto (by omega), take_copyInto (by omega), hroom,
        fun array' hsame => ?_⟩
      have hread := read_copied (by omega) hsame
      simp [SlicedHeader.read, hread]

/-- The loop goes through when there is room for the values to come, leaves what stands before its
offset, and its headers read as those of the model without an array. -/
theorem compileLoop_eq (headers : List HeaderMatcher) (array : List String) (offset : ℕ)
    (hroom : offset + headerValueCount headers ≤ array.length) :
    ∃ array' compiled, compileLoop compile array offset headers = some (array', compiled) ∧
      array'.take offset = array.take offset ∧
      compiled.map (SlicedHeader.read array') = compileHeaders compile headers := by
  induction headers generalizing array offset with
  | nil => exact ⟨array, [], rfl, rfl, rfl⟩
  | cons h headers ih =>
    obtain ⟨array₁, c, hfirst, hlength, hkeep, hroom₁, hread⟩ := compileHeaderInto_eq compile hroom
    rw [← hlength, ← Nat.add_assoc] at hroom₁
    cases c with
    | none =>
      obtain ⟨array', compiled, hrest, hkeep', hcompiled⟩ := ih array₁ offset hroom₁
      have hskip : compileHeader compile h = none := (hread array' hkeep').symm
      refine ⟨array', compiled, ?_, hkeep'.trans hkeep, ?_⟩
      · simpa [compileLoop, hfirst] using hrest
      · rw [hcompiled, compileHeaders, compileHeaders, List.filterMap_cons_none hskip]
    | some c =>
      obtain ⟨array', compiled, hrest, hkeep', hcompiled⟩ := ih array₁ (offset + c.length) hroom₁
      have hhead : compileHeader compile h = some (c.read array') := (hread array' hkeep').symm
      refine ⟨array', c :: compiled, ?_, ?_, ?_⟩
      · simp [compileLoop, hfirst, hrest]
      · -- the rest leaves even more alone than what stands before this offset
        have htake := congrArg (List.take offset) hkeep'
        rw [List.take_take, List.take_take, Nat.min_eq_left (Nat.le_add_right _ _)] at htake
        exact htake.trans hkeep
      · rw [List.map_cons, hcompiled, compileHeaders, compileHeaders,
          List.filterMap_cons_some hhead]

/-- The model with the array and the one without agree. -/
theorem compileHeadersShared_eq (headers : List HeaderMatcher) :
    compileHeadersShared compile headers = some (compileHeaders compile headers) := by
  have hroom : 0 + headerValueCount headers ≤
      (List.replicate (headerValueCount headers) "").length := by
    rw [List.length_replicate, Nat.zero_add]
  obtain ⟨array, compiled, hloop, -, hread⟩ := compileLoop_eq compile headers _ 0 hroom
  rw [compileHeadersShared, hloop, Option.map_some, hread]

end Loop

/-! ## What is kept -/

section Kept

variable (compile : String → Option (String → Bool))

/-- A matcher that is kept is compiled to what it says, and no other is kept. -/
theorem compileHeader_cases (h : HeaderMatcher) :
    (Kept compile h ∧ ∃ c, compileHeader compile h = some c ∧ Compiles compile h c) ∨
      (¬ Kept compile h ∧ compileHeader compile h = none) := by
  rcases h with ⟨name, values, regex, valueRE⟩
  cases regex with
  | false => exact .inl ⟨.inl rfl, _, rfl, rfl, rfl, rfl⟩
  | true =>
    cases valueRE with
    | some re => exact .inl ⟨.inr (.inl rfl), _, rfl, rfl, rfl, rfl⟩
    | none =>
      cases values with
      | nil => exact .inl ⟨.inr (.inr fun _ hv => nomatch hv), _, rfl, rfl, rfl, rfl⟩
      | cons v values =>
        by_cases hv : v = ""
        · refine .inl ⟨.inr (.inr ?_), { name }, ?_, ?_⟩
          · simp [hv]
          · simp [compileHeader, compileRegexHeader, hv]
          · simp [Compiles, HeaderMatcher.compiledRegex, hv]
        · cases hre : compile v with
          | none =>
            refine .inr ⟨?_, ?_⟩
            · simp [Kept, hv, hre]
            · simp [compileHeader, compileRegexHeader, hv, hre]
          | some re =>
            refine .inl ⟨.inr (.inr ?_), { name, regex := some re }, ?_, ?_⟩
            · simp [hre]
            · simp [compileHeader, compileRegexHeader, hv, hre]
            · simp [Compiles, HeaderMatcher.compiledRegex, hv, hre]

/-- **Compiled headers.**  `compileHeaders` does not panic, and its result has, in the order of the
matchers, one header for each matcher that is kept: with its name, and with its values if it is
plain, with its expression if it is not. -/
theorem compiled_of_kept (headers : List HeaderMatcher) :
    ∃ compiled, compileHeadersShared compile headers = some compiled ∧
      List.Forall₂ (Compiles compile) (headers.filter (Kept compile ·)) compiled := by
  refine ⟨_, compileHeadersShared_eq compile headers, ?_⟩
  induction headers with
  | nil => exact .nil
  | cons h headers ih =>
    rcases compileHeader_cases compile h with ⟨hkept, c, hc, hcompiles⟩ | ⟨hkept, hnone⟩
    · rw [List.filter_cons_of_pos (by simpa using hkept), compileHeaders,
        List.filterMap_cons_some hc]
      exact .cons hcompiles ih
    · rw [List.filter_cons_of_neg (by simpa using hkept), compileHeaders,
        List.filterMap_cons_none hnone]
      exact ih

end Kept

/-- A regex matcher keeps its expression only: its values are not those of the matcher. -/
theorem regex_without_values :
    ∃ compiled, compileHeadersShared (fun _ => some fun _ => true)
      [{ name := "X-Env", values := ["^prod$"], regex := true }] = some compiled ∧
      ¬ List.Forall₂ Carries [{ name := "X-Env", values := ["^prod$"], regex := true }]
        compiled := by
  refine ⟨_, compileHeadersShared_eq _ _, fun h => ?_⟩
  cases h with
  | cons hfirst _ => exact List.cons_ne_nil _ _ hfirst.2.symm

end Pixiu.Routing
