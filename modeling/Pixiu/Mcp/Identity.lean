import Pixiu.Base.Terminated
import Pixiu.Mcp.SessionPlan

/-!
# The fingerprint of an identity

`ClaimsFingerprint` of `router/claims.go` hashes a user, a tenant and claims, and `matcher` of
`router/match.go` asks a policy's question about them.  A plan is reused for the same fingerprint,
so two identities that a policy can tell apart should not be written alike.

`separated_iff`: they are told apart exactly when neither identity has a text that absorbs, after a
NUL, what the other one has in texts of its own.
-/

namespace Pixiu.Mcp

/-- The byte after every text. -/
def nul : Char := Char.ofNat 0

/-- `json.Marshal` and `fmt.Sprintf("%v")` for the values that JSON has. -/
structure JsonLib (V : Type) where
  marshal : V → String
  sprint : V → String
  marshal_injective : Function.Injective marshal
  /-- Control characters are escaped. -/
  nul_not_mem : ∀ v, nul ∉ (marshal v).toList

/-- `fingerprint.Builder`: what has been written to the hash. -/
structure Builder where
  written : List Char := []

/-- `AddString`. -/
def Builder.addString (b : Builder) (value : String) : Builder :=
  { written := b.written ++ (value.toList ++ [nul]) }

variable {V : Type} (lib : JsonLib V)

/-- `AddJSON`. -/
def Builder.addJSON (b : Builder) (value : V) : Builder := b.addString (lib.marshal value)

/-- The claims that `ClaimsFingerprint` skips, because the user and the tenant stand for them. -/
def SelectionContext.promoted (sc : SelectionContext V) (k : String) : Bool :=
  (k = "sub" && sc.userID ≠ "") || (k = "tenant" && sc.tenant ≠ "")

/-- `ClaimsFingerprint`: the builder whose sum is taken. -/
def claimsFingerprint (sc : SelectionContext V) : Builder :=
  let b : Builder := {}
  let b := if sc.userID ≠ "" then b.addString ("sub:" ++ sc.userID) else b
  let b := if sc.tenant ≠ "" then b.addString ("tenant:" ++ sc.tenant) else b
  sc.claims.entries.foldl (fun b entry =>
    if sc.promoted entry.1 then b else (b.addString ("claim:" ++ entry.1)).addJSON lib entry.2) b

/-! ## Matchers -/

/-- `PolicyMatch`. -/
structure PolicyMatch where
  claim : String := ""
  equals : String := ""
  in_ : List String := []
  regex : String := ""
  missingClaim : String := ""

/-- The errors of `newMatcher`. -/
inductive PolicyMatchError where
  | missingClaimCombined
  | severalOperators
  | claimRequired
  | invalidRegex (regex : String)

/-- `matcher`, with its expression compiled. -/
structure Matcher where
  policyMatch : PolicyMatch
  re : Option (String → Bool) := none

/-- `validatePolicyMatch`. -/
def validatePolicyMatch (m : PolicyMatch) : Except PolicyMatchError Unit :=
  let operators :=
    (if m.equals ≠ "" then 1 else 0) + (if m.in_ ≠ [] then 1 else 0) +
      (if m.regex ≠ "" then 1 else 0)
  if m.missingClaim ≠ "" then
    if m.claim ≠ "" || 0 < operators then .error .missingClaimCombined else .ok ()
  else if 1 < operators then .error .severalOperators
  else if 0 < operators && m.claim = "" then .error .claimRequired
  else .ok ()

/-- `newMatcher`; `compile` is `regexp.Compile`. -/
def newMatcher (compile : String → Option (String → Bool)) (m : PolicyMatch) :
    Except PolicyMatchError Matcher := do
  validatePolicyMatch m
  if m.regex ≠ "" then
    match compile m.regex with
    | some re => pure { policyMatch := m, re := some re }
    | none => throw (.invalidRegex m.regex)
  else pure { policyMatch := m }

/-- `claimString`. -/
def claimString (sc : SelectionContext V) (key : String) : Option String :=
  if key = "sub" ∧ sc.userID ≠ "" then some sc.userID
  else if key = "tenant" ∧ sc.tenant ≠ "" then some sc.tenant
  else (sc.claims.entries.lookup key).map lib.sprint

/-- `hasClaim`. -/
def hasClaim (sc : SelectionContext V) (key : String) : Bool :=
  (claimString lib sc key).any (· ≠ "")

/-- `matcher.matches`. -/
def Matcher.matches (m : Matcher) (sc : SelectionContext V) : Bool :=
  if m.policyMatch.missingClaim ≠ "" then !hasClaim lib sc m.policyMatch.missingClaim
  else if m.policyMatch.claim = "" then true
  else
    match claimString lib sc m.policyMatch.claim with
    | none => false
    | some val =>
        if m.policyMatch.equals ≠ "" then val = m.policyMatch.equals
        else if m.policyMatch.in_ ≠ [] then m.policyMatch.in_.contains val
        else
          match m.re with
          | some re => re val
          | none => val ≠ ""

/-- Two identities with the same fingerprint are the same to every matcher. -/
def Separated (compile : String → Option (String → Bool)) (sc₁ sc₂ : SelectionContext V) : Prop :=
  (claimsFingerprint lib sc₁).written = (claimsFingerprint lib sc₂).written →
    ∀ m matcher, newMatcher compile m = .ok matcher →
      matcher.matches lib sc₁ = matcher.matches lib sc₂

/-! ## What is written -/

/-- The text of the user or the tenant, if there is one. -/
def tagged (tag value : String) : List (List Char) :=
  if value ≠ "" then [tag.toList ++ value.toList] else []

/-- The texts of claims: a name and a value each. -/
def claimTexts (entries : List (String × V)) : List (List Char) :=
  entries.flatMap fun entry => ["claim:".toList ++ entry.1.toList, (lib.marshal entry.2).toList]

/-- The claims that are not promoted. -/
def SelectionContext.visible (sc : SelectionContext V) : List (String × V) :=
  sc.claims.entries.filter fun entry => !sc.promoted entry.1

/-- The texts of an identity: the user, the tenant, and the names and values of the other claims. -/
def SelectionContext.texts (sc : SelectionContext V) : List (List Char) :=
  tagged "sub:" sc.userID ++ (tagged "tenant:" sc.tenant ++ claimTexts lib sc.visible)

variable {lib}

theorem claimTexts_cons (entry : String × V) (rest : List (String × V)) :
    claimTexts lib (entry :: rest) =
      ("claim:".toList ++ entry.1.toList) :: (lib.marshal entry.2).toList :: claimTexts lib rest :=
  rfl

theorem Builder.written_addString_tagged (b : Builder) (tag value : String) :
    (if value ≠ "" then b.addString (tag ++ value) else b).written = b.written ++
      terminated nul (tagged tag value) := by
  unfold tagged
  split
  · rw [terminated_cons, terminated_nil, Builder.addString, String.toList_append]
  · rw [terminated_nil, List.append_nil]

/-- The loop writes the claims that it does not skip. -/
theorem written_foldl (skip : String → Bool) (entries : List (String × V)) (b : Builder) :
    (entries.foldl (fun b entry =>
        if skip entry.1 then b else (b.addString ("claim:" ++ entry.1)).addJSON lib entry.2)
          b).written =
      b.written ++ terminated nul (claimTexts lib (entries.filter fun entry => !skip entry.1)) := by
  induction entries generalizing b with
  | nil => exact (List.append_nil _).symm
  | cons entry rest ih =>
    rw [List.foldl_cons, ih]
    by_cases hskip : skip entry.1
    · rw [if_pos hskip, List.filter_cons_of_neg (by simp [hskip])]
    · rw [if_neg hskip, List.filter_cons_of_pos (by simp [hskip]), claimTexts_cons, terminated_cons,
        terminated_cons,
        Builder.addJSON, Builder.addString, Builder.addString, String.toList_append]
      simp only [List.append_assoc, List.cons_append, List.nil_append]

theorem written_eq (sc : SelectionContext V) :
    (claimsFingerprint lib sc).written = terminated nul (sc.texts lib) := by
  rw [claimsFingerprint, written_foldl, Builder.written_addString_tagged,
    Builder.written_addString_tagged,
    SelectionContext.texts, terminated_append, terminated_append, SelectionContext.visible]
  simp only [List.nil_append, List.append_assoc]

/-! ## The user and the tenant -/

theorem tagged_of_eq {tag value : String} (h : value = "") : tagged tag value = [] :=
  if_neg (not_not.2 h)

theorem tagged_of_ne {tag value : String} (h : value ≠ "") :
    tagged tag value = [tag.toList ++ value.toList] := if_pos h

theorem head?_tagged {tag value : String} {c : Char} {cs : List Char} (htag : tag.toList = c :: cs)
    (h : value ≠ "")
    (rest : List (List Char)) : (terminated nul (tagged tag value ++ rest)).head? = some c := by
  rw [tagged_of_ne h, htag]
  rfl

theorem head?_claimTexts {c : Char} (hc : c ≠ 'c') (entries : List (String × V)) :
    (terminated nul (claimTexts lib entries)).head? ≠ some c := by
  cases entries with
  | nil => simp [claimTexts]
  | cons entry rest =>
    rw [claimTexts_cons, terminated_cons]
    exact fun h => hc (Option.some_inj.1 h).symm

/-- The first character says whether there is a text with this tag. -/
theorem tagged_eq_empty {tag v₁ v₂ : String} {c : Char} {cs : List Char}
    {rest₁ rest₂ : List (List Char)}
    (htag : tag.toList = c :: cs) (hrest : (terminated nul rest₁).head? ≠ some c)
    (h : terminated nul (tagged tag v₁ ++ rest₁) = terminated nul (tagged tag v₂ ++ rest₂))
    (hv : v₁ = "") :
    v₂ = "" := by
  by_contra hne
  rw [tagged_of_eq hv, List.nil_append] at h
  exact hrest (h ▸ head?_tagged htag hne rest₂)

theorem tagged_eq_empty_iff {tag v₁ v₂ : String} {c : Char} {cs : List Char}
    {rest₁ rest₂ : List (List Char)}
    (htag : tag.toList = c :: cs) (hrest₁ : (terminated nul rest₁).head? ≠ some c)
    (hrest₂ : (terminated nul rest₂).head? ≠ some c)
    (h : terminated nul (tagged tag v₁ ++ rest₁) = terminated nul (tagged tag v₂ ++ rest₂)) :
    v₁ = "" ↔ v₂ = "" :=
  ⟨tagged_eq_empty htag hrest₁ h, tagged_eq_empty htag hrest₂ h.symm⟩

/-- Neither the tenant nor a claim is written like a user. -/
theorem head?_tenant (tenant : String) (entries : List (String × V)) :
    (terminated nul (tagged "tenant:" tenant ++ claimTexts lib entries)).head? ≠ some 's' := by
  by_cases h : tenant = ""
  · rw [tagged_of_eq h]
    exact head?_claimTexts (by decide) entries
  · rw [head?_tagged (c := 't') rfl h]
    decide

variable {sc₁ sc₂ : SelectionContext V}

theorem userID_eq_empty_iff (h : terminated nul (sc₁.texts lib) = terminated nul (sc₂.texts lib)) :
    sc₁.userID = "" ↔ sc₂.userID = "" :=
  tagged_eq_empty_iff (c := 's') rfl (head?_tenant _ _) (head?_tenant _ _) h

theorem tenant_eq_empty_iff
    (h : terminated nul (tagged "tenant:" sc₁.tenant ++ claimTexts lib sc₁.visible) =
      terminated nul (tagged "tenant:" sc₂.tenant ++ claimTexts lib sc₂.visible)) :
    sc₁.tenant = "" ↔ sc₂.tenant = "" :=
  tagged_eq_empty_iff (c := 't') rfl (head?_claimTexts (by decide) _)
    (head?_claimTexts (by decide) _) h

/-! ## The claims -/

theorem promoted_congr (huser : sc₁.userID = sc₂.userID) (htenant : sc₁.tenant = sc₂.tenant)
    (key : String) :
    sc₁.promoted key = sc₂.promoted key := by
  rw [SelectionContext.promoted, SelectionContext.promoted, huser, htenant]

theorem lookup_visible {sc : SelectionContext V} {key : String} (h : sc.promoted key = false) :
    sc.visible.lookup key = sc.claims.entries.lookup key := by
  rw [SelectionContext.visible]
  induction sc.claims.entries with
  | nil => rfl
  | cons entry rest ih =>
    obtain ⟨k, v⟩ := entry
    rw [List.filter_cons]
    by_cases hkey : key = k
    · subst hkey
      simp [h]
    · have hbeq : (key == k) = false := by simpa using hkey
      split
      · simp only [List.lookup_cons, hbeq, ih]
      · simp only [List.lookup_cons, hbeq, ih]

/-- A claim that is not promoted is looked up among the visible ones. -/
theorem claimString_of_not_promoted {sc : SelectionContext V} {key : String}
    (h : sc.promoted key = false) :
    claimString lib sc key = (sc.visible.lookup key).map lib.sprint := by
  simp only [SelectionContext.promoted, Bool.or_eq_false_iff, Bool.and_eq_false_iff,
    decide_eq_false_iff_not] at h
  rw [claimString, if_neg (by tauto), if_neg (by tauto), lookup_visible]
  simp only [SelectionContext.promoted, Bool.or_eq_false_iff, Bool.and_eq_false_iff,
    decide_eq_false_iff_not]
  exact h

/-- A promoted claim is the user or the tenant. -/
theorem claimString_of_promoted (huser : sc₁.userID = sc₂.userID)
    (htenant : sc₁.tenant = sc₂.tenant) {key : String}
    (h : sc₁.promoted key = true) : claimString lib sc₁ key = claimString lib sc₂ key := by
  simp only [SelectionContext.promoted, Bool.or_eq_true, Bool.and_eq_true, decide_eq_true_eq] at h
  rw [claimString, claimString, ← huser, ← htenant]
  rcases h with ⟨rfl, hne⟩ | ⟨rfl, hne⟩
  · rw [if_pos ⟨rfl, hne⟩, if_pos ⟨rfl, hne⟩]
  · have hsub : ¬ ("tenant" = "sub" ∧ sc₁.userID ≠ "") := fun h => absurd h.1 (by decide)
    rw [if_neg hsub, if_neg hsub, if_pos ⟨rfl, hne⟩, if_pos ⟨rfl, hne⟩]

theorem visible_eq_of_claimTexts_eq : ∀ {entries₁ entries₂ : List (String × V)},
    claimTexts lib entries₁ = claimTexts lib entries₂ → entries₁ = entries₂
  | [], [], _ => rfl
  | [], _ :: _, h => nomatch h
  | _ :: _, [], h => nomatch h
  | (k₁, v₁) :: rest₁, (k₂, v₂) :: rest₂, h => by
      rw [claimTexts_cons, claimTexts_cons] at h
      obtain ⟨hkey, htail⟩ := List.cons.inj h
      obtain ⟨hvalue, hrest⟩ := List.cons.inj htail
      have hk : k₁ = k₂ := String.toList_inj.1 (List.append_cancel_left hkey)
      have hv : v₁ = v₂ := lib.marshal_injective (String.toList_inj.1 hvalue)
      rw [hk, hv, visible_eq_of_claimTexts_eq hrest]

/-- The same texts are the same to every policy. -/
theorem claimString_eq_of_texts_eq (h : sc₁.texts lib = sc₂.texts lib) (key : String) :
    claimString lib sc₁ key = claimString lib sc₂ key := by
  have huser : sc₁.userID = sc₂.userID := by
    have hempty := userID_eq_empty_iff (congrArg (terminated nul) h)
    by_cases hne : sc₁.userID = ""
    · rw [hne, hempty.1 hne]
    · rw [SelectionContext.texts, SelectionContext.texts, tagged_of_ne hne,
        tagged_of_ne (hempty.not.1 hne)] at h
      exact String.toList_inj.1 (List.append_cancel_left (List.cons.inj h).1)
  rw [SelectionContext.texts, SelectionContext.texts, huser] at h
  have hrest := List.append_cancel_left h
  have htenant : sc₁.tenant = sc₂.tenant := by
    have hempty := tenant_eq_empty_iff (congrArg (terminated nul) hrest)
    by_cases hne : sc₁.tenant = ""
    · rw [hne, hempty.1 hne]
    · rw [tagged_of_ne hne, tagged_of_ne (hempty.not.1 hne)] at hrest
      exact String.toList_inj.1 (List.append_cancel_left (List.cons.inj hrest).1)
  rw [htenant] at hrest
  have hvisible := visible_eq_of_claimTexts_eq (List.append_cancel_left hrest)
  cases hpromoted : sc₁.promoted key with
  | true => exact claimString_of_promoted huser htenant hpromoted
  | false =>
    rw [claimString_of_not_promoted hpromoted, hvisible,
      claimString_of_not_promoted (promoted_congr huser htenant key ▸ hpromoted)]

/-! ## The same bytes and the same answers -/

/-- The names of the visible claims. -/
def SelectionContext.names (sc : SelectionContext V) : List String := sc.visible.map Prod.fst

theorem pairwise_names (sc : SelectionContext V) : sc.names.Pairwise (· < ·) :=
  List.pairwise_map.2 (sc.claims.sorted.sublist List.filter_sublist)

theorem not_promoted_of_mem_names {sc : SelectionContext V} {key : String} (h : key ∈ sc.names) :
    sc.promoted key = false := by
  obtain ⟨entry, hentry, rfl⟩ := List.mem_map.1 h
  simpa using (List.mem_filter.1 hentry).2

variable (lib) in
theorem isSome_claimString_iff {sc : SelectionContext V} {key : String}
    (h : sc.promoted key = false) :
    (claimString lib sc key).isSome ↔ key ∈ sc.names := by
  rw [claimString_of_not_promoted h, Option.isSome_map, List.lookup_isSome_iff,
    SelectionContext.names, List.mem_map]
  constructor
  · rintro ⟨entry, hentry, hkey⟩
    exact ⟨entry, hentry, (beq_iff_eq.1 hkey).symm⟩
  · rintro ⟨entry, hentry, rfl⟩
    exact ⟨entry, hentry, beq_self_eq_true _⟩

/-- How many NULs the names of claims bring. -/
theorem count_claimTexts (entries : List (String × V)) :
    (terminated nul (claimTexts lib entries)).count nul =
      ((entries.map Prod.fst).map fun key => key.toList.count nul + 2).sum := by
  induction entries with
  | nil => rfl
  | cons entry rest ih =>
    have htag : "claim:".toList.count nul = 0 := by decide
    have hvalue : (lib.marshal entry.2).toList.count nul = 0 :=
      List.count_eq_zero_of_not_mem (lib.nul_not_mem _)
    rw [claimTexts_cons, terminated_cons, terminated_cons, List.map_cons, List.map_cons,
      List.sum_cons, ← ih]
    simp only [List.count_append, List.count_cons_self, htag, hvalue]
    omega

/-- If one of two lists of names has the empty name besides the names of the other, it has more
NULs. -/
theorem count_lt_of_empty_mem {names₁ names₂ : List String} (hnodup₁ : names₁.Nodup)
    (hnodup₂ : names₂.Nodup)
    (hmem : ∀ key ≠ "", key ∈ names₁ ↔ key ∈ names₂) (h₁ : "" ∈ names₁) (h₂ : "" ∉ names₂) :
    (names₂.map fun key => key.toList.count nul + 2).sum <
      (names₁.map fun key => key.toList.count nul + 2).sum := by
  have herase : (names₁.erase "").Perm names₂ := by
    refine (List.perm_ext_iff_of_nodup (hnodup₁.erase _) hnodup₂).2 fun key => ?_
    rw [hnodup₁.mem_erase_iff]
    constructor
    · exact fun h => (hmem key h.1).1 h.2
    · intro h
      have hne : key ≠ "" := fun heq => h₂ (heq ▸ h)
      exact ⟨hne, (hmem key hne).2 h⟩
  have hperm :=
    ((List.perm_cons_erase h₁).trans (herase.cons "")).map fun key : String =>
      key.toList.count nul + 2
  rw [hperm.sum_eq, List.map_cons, List.sum_cons]
  omega

theorem claimTexts_eq_of_keys : ∀ {entries₁ entries₂ : List (String × V)},
    entries₁.map Prod.fst = entries₂.map Prod.fst →
    terminated nul (claimTexts lib entries₁) = terminated nul (claimTexts lib entries₂) →
    claimTexts lib entries₁ = claimTexts lib entries₂
  | [], [], _, _ => rfl
  | [], _ :: _, hkeys, _ => nomatch hkeys
  | _ :: _, [], hkeys, _ => nomatch hkeys
  | (k₁, v₁) :: rest₁, (k₂, v₂) :: rest₂, hkeys, h => by
      obtain ⟨hk, hrestKeys⟩ := List.cons.inj hkeys
      obtain rfl : k₁ = k₂ := hk
      simp only [claimTexts_cons, terminated_cons] at h
      have hvalues := (List.cons.inj (List.append_cancel_left h)).2
      obtain ⟨hvalue, hrest⟩ := append_sep_inj (lib.nul_not_mem _) (lib.nul_not_mem _) hvalues
      rw [claimTexts_cons, claimTexts_cons, hvalue, claimTexts_eq_of_keys hrestKeys hrest]

/-- Claims with the same bytes and the same names, as far as a policy can name them, are the
same. -/
theorem claimTexts_eq
    (h : terminated nul (claimTexts lib sc₁.visible) = terminated nul (claimTexts lib sc₂.visible))
    (hmem : ∀ key ≠ "", key ∈ sc₁.names ↔ key ∈ sc₂.names) :
    claimTexts lib sc₁.visible = claimTexts lib sc₂.visible := by
  have hnodup₁ := (pairwise_names sc₁).nodup
  have hnodup₂ := (pairwise_names sc₂).nodup
  have hcount := congrArg (List.count nul) h
  rw [count_claimTexts, count_claimTexts] at hcount
  have hempty : "" ∈ sc₁.names ↔ "" ∈ sc₂.names := by
    constructor
    · intro h₁
      by_contra h₂
      exact absurd hcount (count_lt_of_empty_mem hnodup₁ hnodup₂ hmem h₁ h₂).ne'
    · intro h₂
      by_contra h₁
      exact absurd hcount
        (count_lt_of_empty_mem hnodup₂ hnodup₁ (fun key hne => (hmem key hne).symm) h₂ h₁).ne
  refine claimTexts_eq_of_keys ((pairwise_names sc₁).eq_of_mem_iff (pairwise_names sc₂) fun {key} =>
    ?_) h
  by_cases hne : key = ""
  · subst hne
    exact hempty
  · exact hmem key hne

theorem claimString_sub {sc : SelectionContext V} (h : sc.userID ≠ "") :
    claimString lib sc "sub" = some sc.userID :=
  if_pos ⟨rfl, h⟩

theorem claimString_tenant {sc : SelectionContext V} (h : sc.tenant ≠ "") :
    claimString lib sc "tenant" = some sc.tenant := by
  rw [claimString, if_neg (fun h => absurd h.1 (by decide)), if_pos ⟨rfl, h⟩]

/-- The same bytes and the same answers come from the same texts. -/
theorem texts_eq_of_claimString_eq
    (h : terminated nul (sc₁.texts lib) = terminated nul (sc₂.texts lib))
    (hsame : ∀ key ≠ "", claimString lib sc₁ key = claimString lib sc₂ key) :
    sc₁.texts lib = sc₂.texts lib := by
  have huser : sc₁.userID = sc₂.userID := by
    have hempty := userID_eq_empty_iff h
    by_cases hne : sc₁.userID = ""
    · rw [hne, hempty.1 hne]
    · have hsub := hsame "sub" (by decide)
      rwa [claimString_sub hne, claimString_sub (hempty.not.1 hne), Option.some_inj] at hsub
  rw [SelectionContext.texts, SelectionContext.texts, huser, terminated_append (tagged "sub:" _),
    terminated_append (tagged "sub:" _)] at h
  have hrest := List.append_cancel_left h
  have htenant : sc₁.tenant = sc₂.tenant := by
    have hempty := tenant_eq_empty_iff hrest
    by_cases hne : sc₁.tenant = ""
    · rw [hne, hempty.1 hne]
    · have htenant := hsame "tenant" (by decide)
      rwa [claimString_tenant hne, claimString_tenant (hempty.not.1 hne), Option.some_inj]
        at htenant
  rw [htenant, terminated_append, terminated_append] at hrest
  have hclaims := claimTexts_eq (List.append_cancel_left hrest) fun key hne => by
    cases hpromoted : sc₁.promoted key with
    | true =>
      have hpromoted₂ : sc₂.promoted key = true := promoted_congr huser htenant key ▸ hpromoted
      constructor
      · intro hmem
        rw [not_promoted_of_mem_names hmem] at hpromoted
        cases hpromoted
      · intro hmem
        rw [not_promoted_of_mem_names hmem] at hpromoted₂
        cases hpromoted₂
    | false =>
      have hpromoted₂ : sc₂.promoted key = false := promoted_congr huser htenant key ▸ hpromoted
      rw [← isSome_claimString_iff lib hpromoted, ← isSome_claimString_iff lib hpromoted₂,
        hsame key hne]
  rw [SelectionContext.texts, SelectionContext.texts, huser, htenant, hclaims]

/-! ## Matchers -/

theorem matches_congr (hsame : ∀ key, claimString lib sc₁ key = claimString lib sc₂ key)
    (matcher : Matcher) :
    matcher.matches lib sc₁ = matcher.matches lib sc₂ := by
  simp only [Matcher.matches, hasClaim, hsame]

variable {compile : String → Option (String → Bool)}

/-- The matcher that asks for one value. -/
theorem newMatcher_in {key : String} (hkey : key ≠ "") (val : String) :
    newMatcher compile { claim := key, in_ := [val] } =
      .ok { policyMatch := { claim := key, in_ := [val] } } := by
  have hvalid : validatePolicyMatch { claim := key, in_ := [val] } = .ok () := by
    simp [validatePolicyMatch, hkey]
  rw [newMatcher, hvalid]
  rfl

theorem matches_in {key val : String} (hkey : key ≠ "") (sc : SelectionContext V) :
    Matcher.matches lib { policyMatch := { claim := key, in_ := [val] } } sc =
      decide (claimString lib sc key = some val) := by
  simp only [Matcher.matches, ne_eq, not_true_eq_false, if_false, hkey]
  cases claimString lib sc key with
  | none => simp
  | some val' => simp

/-- What no matcher tells apart has the same claims. -/
theorem claimString_eq_of_matches
    (h : ∀ m matcher, newMatcher compile m = .ok matcher →
      matcher.matches lib sc₁ = matcher.matches lib sc₂)
    {key : String} (hkey : key ≠ "") : claimString lib sc₁ key = claimString lib sc₂ key := by
  refine Option.ext fun val => ?_
  have hval := h _ _ (newMatcher_in hkey val)
  rwa [matches_in hkey, matches_in hkey, decide_eq_decide] at hval

/-- What absorbs another identity is told apart from it by a matcher. -/
theorem not_separated_of_absorbs (h : Absorbs nul (sc₁.texts lib) (sc₂.texts lib)) :
    ¬ Separated lib compile sc₁ sc₂ := by
  intro hseparated
  have hwritten : (claimsFingerprint lib sc₁).written = (claimsFingerprint lib sc₂).written := by
    rw [written_eq, written_eq, h.terminated_eq]
  exact h.ne (texts_eq_of_claimString_eq h.terminated_eq fun key hkey =>
    claimString_eq_of_matches (hseparated hwritten) hkey)

theorem separated_of_not_absorbs (h₁ : ¬ Absorbs nul (sc₁.texts lib) (sc₂.texts lib))
    (h₂ : ¬ Absorbs nul (sc₂.texts lib) (sc₁.texts lib)) : Separated lib compile sc₁ sc₂ := by
  intro hwritten m matcher _
  rw [written_eq, written_eq] at hwritten
  have htexts := (eq_or_absorbs hwritten).resolve_right (not_or.2 ⟨h₁, h₂⟩)
  exact matches_congr (claimString_eq_of_texts_eq htexts) matcher

theorem Separated.symm (h : Separated lib compile sc₁ sc₂) : Separated lib compile sc₂ sc₁ :=
  fun hwritten m matcher hnew => (h hwritten.symm m matcher hnew).symm

/-- **The fingerprint separates what policies can see** exactly where no text of one identity
absorbs texts of the other. -/
theorem separated_iff : Separated lib compile sc₁ sc₂ ↔
    ¬ Absorbs nul (sc₁.texts lib) (sc₂.texts lib) ∧
      ¬ Absorbs nul (sc₂.texts lib) (sc₁.texts lib) := by
  constructor
  · exact fun h => ⟨fun habsorbs => not_separated_of_absorbs habsorbs h,
      fun habsorbs => not_separated_of_absorbs habsorbs h.symm⟩
  · exact fun h => separated_of_not_absorbs h.1 h.2

/-- The values `true` and `false`. -/
def boolLib : JsonLib Bool where
  marshal value := if value then "true" else "false"
  sprint value := if value then "true" else "false"
  marshal_injective := by decide
  nul_not_mem := by decide

/-- An identity without claims. -/
def identity (userID tenant : String) : SelectionContext Bool where
  sessionID := ""
  sessionGeneration := 0
  method := ""
  userID := userID
  tenant := tenant
  claims := { entries := [], sorted := .nil }
  requested := ""
  catalogVersion := ""

/-- A user whose name goes on, after a NUL, like a tenant is written like a user and a tenant; the
matcher that asks for the user tells them apart. -/
theorem not_separated_user :
    ∃ matcher, newMatcher (fun _ => none) { claim := "sub", equals := "a" } = .ok matcher ∧
      matcher.matches boolLib (identity "a" "b") = true ∧
      matcher.matches boolLib (identity (String.ofList ('a' :: nul :: "tenant:b".toList)) "") =
        false ∧
      ¬ Separated boolLib (fun _ => none) (identity "a" "b")
        (identity (String.ofList ('a' :: nul :: "tenant:b".toList)) "") := by
  refine ⟨_, rfl, by decide, by decide, not_separated_of_absorbs ?_⟩
  exact ⟨[], "sub:a".toList, ["tenant:b".toList], "tenant:b".toList, [], by decide, by decide,
    by decide⟩

end Pixiu.Mcp
