import Pixiu.Base.FinMap

/-!
# JWT admission

The filter of `pkg/filter/auth/jwt`.  A request whose URI is under the prefix of a rule is let
through if one of these rules finds a token.  On the way every provider that is tried writes its
issuer into a header, before it reads the header its own token should be in.

Key sets and what they accept are parameters: `valid keys token` says whether the token is valid
under the keys.  So is the canonical form of a header name.

* `Filter.decodeRules_eq` — the nested loops try one list of providers, in order, until one has a
  token.
* `decode_continues_iff` — when a request is let through, for all rules, providers, headers and
  tokens.
-/

namespace Pixiu.Jwt

/-! ## Configuration -/

/-- `FromHeaders`. -/
structure FromHeaders where
  name : String
  valuePrefix : String
  deriving DecidableEq, Repr

/-- `setDefault`. -/
def FromHeaders.setDefault (h : FromHeaders) : FromHeaders where
  name := if h.name = "" then "Authorization" else h.name
  valuePrefix := if h.valuePrefix = "" then "Bearer " else h.valuePrefix

/-- `Requires`. -/
structure Requires where
  requiresAny : String
  requiresAll : List String
  deriving DecidableEq, Repr

/-- `Rules`. -/
structure Rules where
  matchPrefix : String
  requires : Requires
  deriving DecidableEq, Repr

/-- A provider of the configuration.  The key sets are `none` if they are not configured, and `some
none` if they cannot be loaded. -/
structure Providers (K : Type) where
  name : String
  forwardPayloadHeader : String
  fromHeaders : FromHeaders
  issuer : String
  localJwks : Option (Option K)
  remoteJwks : Option (Option K)

/-- `Provider`. -/
structure Provider (K : Type) where
  jwk : K
  issuer : String
  forwardPayloadHeader : String
  headers : FromHeaders

/-- `Config`. -/
structure Config (K : Type) where
  errMsg : String
  rules : List Rules
  providers : List (Providers K)

/-- `Filter`. -/
structure Filter (K : Type) where
  rules : List Rules
  errMsg : String
  providerJwks : FinMap String (Provider K)

/-- The error of `Apply`. -/
inductive ApplyError where
  | providersIsNull
  deriving DecidableEq, Repr

variable {K : Type}

/-- The keys of a provider: the local ones, or if there are none the remote ones. -/
def Providers.jwks (p : Providers K) : Option K := (p.localJwks.join).or p.remoteJwks.join

/-- A provider with its keys. -/
def Providers.toProvider (p : Providers K) (jwk : K) : Provider K where
  jwk := jwk
  issuer := p.issuer
  forwardPayloadHeader := p.forwardPayloadHeader
  headers := p.fromHeaders.setDefault

/-- One round of the loop of `Apply`. -/
def addProvider (providerJwks : FinMap String (Provider K)) (p : Providers K) :
    FinMap String (Provider K) :=
  match p.jwks with
  | some jwk => providerJwks.insert p.name (p.toProvider jwk)
  | none => providerJwks

/-- `FilterFactory.Apply` and the filter that is made of the factory. -/
def apply (cfg : Config K) : Except ApplyError (Filter K) :=
  if cfg.providers = [] then .error .providersIsNull
  else
    let providerJwks := cfg.providers.foldl addProvider .empty
    if providerJwks.size = 0 then .error .providersIsNull
    else
      .ok { rules := cfg.rules, errMsg := if cfg.errMsg = "" then "token invalid" else cfg.errMsg,
               providerJwks := providerJwks }

/-! ## Requests -/

/-- Header values by the canonical name. -/
abbrev Header := String → List String

section Headers

variable (canonical : String → String)

/-- `Header.Get`. -/
def Header.get (h : Header) (name : String) : String := (h (canonical name)).headD ""

/-- `Header.Set`. -/
def Header.set (h : Header) (name value : String) : Header :=
  Function.update h (canonical name) [value]

end Headers

/-- `strings.HasPrefix`. -/
def hasPrefix (s start : String) : Bool := start.toList.isPrefixOf s.toList

/-- `FilterStatus`. -/
inductive FilterStatus where
  | continues
  | stops
  deriving DecidableEq, Repr

/-- What `Decode` ends with: the local reply, if there is one, and the headers of the request. -/
structure Outcome where
  status : FilterStatus
  localReply : Option (ℕ × String)
  header : Header

/-! ## The filter -/

variable (canonical : String → String) (valid : K → String → Bool)

/-- `checkToken`. -/
def checkToken (value : String) (provider : Provider K) : Bool :=
  hasPrefix value provider.headers.valuePrefix &&
    valid provider.jwk (String.ofList (value.toList.drop provider.headers.valuePrefix.length))

/-- The header that a provider reads carries a valid token of it. -/
def Provider.carries (provider : Provider K) (h : Header) : Bool :=
  let key := Header.get canonical h provider.headers.name
  decide (key ≠ "") && checkToken valid key provider

namespace Filter

/-- The header after a provider has written its issuer, if it is configured. -/
def forward (f : Filter K) (h : Header) (name : String) : Header :=
  match f.providerJwks.lookup name with
  | some provider => Header.set canonical h provider.forwardPayloadHeader provider.issuer
  | none => h

/-- The provider is configured and has a token. -/
def finds (f : Filter K) (h : Header) (name : String) : Bool :=
  match f.providerJwks.lookup name with
  | some provider => provider.carries canonical valid h
  | none => false

/-- `validAny`. -/
def validAny (f : Filter K) (rule : Rules) (h : Header) : Bool × Header :=
  let h := f.forward canonical h rule.requires.requiresAny
  (f.finds canonical valid h rule.requires.requiresAny, h)

/-- The loop of `validAll` over the requirements that are left. -/
def validAllFrom (f : Filter K) : List String → Header → Bool × Header
  | [], h => (false, h)
  | name :: names, h =>
    let h := f.forward canonical h name
    if f.finds canonical valid h name then (true, h) else validAllFrom f names h

/-- `validAll`. -/
def validAll (f : Filter K) (rule : Rules) (h : Header) : Bool × Header :=
  f.validAllFrom canonical valid rule.requires.requiresAll h

/-- The loop of `Decode` over the rules that are left: whether the request is held back. -/
def decodeRules (f : Filter K) (path : String) : List Rules → Bool → Header → Bool × Header
  | [], router, h => (router, h)
  | rule :: rules, router, h =>
    if hasPrefix path rule.matchPrefix then
      let (any, h) := f.validAny canonical valid rule h
      if any then (false, h)
      else
        let (all, h) := f.validAll canonical valid rule h
        if all then (false, h) else decodeRules f path rules true h
    else decodeRules f path rules router h

/-- `Decode`. -/
def decode (f : Filter K) (path : String) (h : Header) : Outcome :=
  let (router, h) := f.decodeRules canonical valid path f.rules false h
  if router then { status := .stops, localReply := some (401, f.errMsg), header := h }
  else { status := .continues, localReply := none, header := h }

/-! ## The providers that are tried -/

/-- The rules that are for a path. -/
def matching (f : Filter K) (path : String) : List Rules :=
  f.rules.filter (hasPrefix path ·.matchPrefix)

end Filter

/-- The providers a rule names, in the order they are tried. -/
def Rules.names (rule : Rules) : List String :=
  rule.requires.requiresAny :: rule.requires.requiresAll

namespace Filter

variable {canonical valid} {f : Filter K}

theorem validAllFrom_cons_of_finds {name : String} {names : List String} {h : Header}
    (hfinds : f.finds canonical valid (f.forward canonical h name) name) :
    f.validAllFrom canonical valid (name :: names) h = (true, f.forward canonical h name) :=
  if_pos hfinds

theorem validAllFrom_cons_of_not_finds {name : String} {names : List String} {h : Header}
    (hfinds : ¬f.finds canonical valid (f.forward canonical h name) name) :
    f.validAllFrom canonical valid (name :: names) h =
      f.validAllFrom canonical valid names (f.forward canonical h name) := if_neg hfinds

theorem validAllFrom_append (names names' : List String) (h : Header) :
    f.validAllFrom canonical valid (names ++ names') h =
      if (f.validAllFrom canonical valid names h).1 then f.validAllFrom canonical valid names h
      else f.validAllFrom canonical valid names' (f.validAllFrom canonical valid names h).2 := by
  induction names generalizing h with
  | nil => rfl
  | cons name names ih =>
    rw [List.cons_append]
    by_cases hfinds : f.finds canonical valid (f.forward canonical h name) name
    · simp only [validAllFrom_cons_of_finds hfinds, if_true]
    · simp only [validAllFrom_cons_of_not_finds hfinds, ih]

/-- The checks of a rule try the providers that it names. -/
theorem decodeRules_cons_of_matching {path : String} {rule : Rules}
    (hmatch : hasPrefix path rule.matchPrefix)
    (rules : List Rules) (router : Bool) (h : Header) :
    f.decodeRules canonical valid path (rule :: rules) router h =
      if (f.validAllFrom canonical valid rule.names h).1 then
        (false, (f.validAllFrom canonical valid rule.names h).2)
      else f.decodeRules canonical valid path rules true
        (f.validAllFrom canonical valid rule.names h).2 := by
  rw [decodeRules, if_pos hmatch]
  simp only [validAny, validAll, Rules.names]
  by_cases hany : f.finds canonical valid (f.forward canonical h rule.requires.requiresAny)
    rule.requires.requiresAny
  · simp only [validAllFrom_cons_of_finds hany, hany, if_true]
  · simp only [validAllFrom_cons_of_not_finds hany, Bool.eq_false_of_not_eq_true hany,
      Bool.false_eq_true, if_false]
    rfl

/-- All the loops of `Decode` together try the providers of the matching rules, one after the
other. -/
theorem decodeRules_eq (path : String) (rules : List Rules) (router : Bool) (h : Header) :
    (f.decodeRules canonical valid path rules router h).1 =
      ((router || rules.any (hasPrefix path ·.matchPrefix)) &&
        !(f.validAllFrom canonical valid
          ((rules.filter (hasPrefix path ·.matchPrefix)).flatMap Rules.names) h).1) := by
  induction rules generalizing router h with
  | nil => simp [decodeRules, validAllFrom]
  | cons rule rules ih =>
    by_cases hmatch : hasPrefix path rule.matchPrefix
    · rw [decodeRules_cons_of_matching hmatch, List.filter_cons_of_pos (by simpa using hmatch),
        List.flatMap_cons,
        validAllFrom_append]
      by_cases hrule : (f.validAllFrom canonical valid rule.names h).1
      · rw [if_pos hrule, if_pos hrule, hrule]
        simp
      · rw [if_neg hrule, if_neg hrule, ih]
        simp [hmatch]
    · rw [decodeRules, if_neg hmatch, ih, List.filter_cons_of_neg (by simpa using hmatch)]
      simp [hmatch]

theorem validAllFrom_iff (names : List String) (h : Header) :
    (f.validAllFrom canonical valid names h).1 ↔
      ∃ before name after, names = before ++ name :: after ∧
      f.finds canonical valid ((before ++ [name]).foldl (f.forward canonical) h) name := by
  induction names generalizing h with
  | nil => simp [validAllFrom]
  | cons name names ih =>
    by_cases hfinds : f.finds canonical valid (f.forward canonical h name) name
    · rw [validAllFrom_cons_of_finds hfinds]
      exact ⟨fun _ => ⟨[], name, names, rfl, hfinds⟩, fun _ => rfl⟩
    · rw [validAllFrom_cons_of_not_finds hfinds, ih]
      constructor
      · rintro ⟨before, name', after, rfl, hfound⟩
        exact ⟨name :: before, name', after, rfl, hfound⟩
      · rintro ⟨before, name', after, heq, hfound⟩
        cases before with
        | nil =>
          obtain ⟨rfl, rfl⟩ := List.cons.inj heq
          exact absurd hfound hfinds
        | cons first before =>
          obtain ⟨rfl, rfl⟩ := List.cons.inj heq
          exact ⟨before, name', after, rfl, hfound⟩

theorem any_hasPrefix (path : String) :
    f.rules.any (hasPrefix path ·.matchPrefix) ↔ f.matching path ≠ [] := by
  rw [List.any_eq_true, matching, ne_eq, List.filter_eq_nil_iff]
  push Not
  rfl

theorem status_decode (path : String) (h : Header) :
    (f.decode canonical valid path h).status = .continues ↔
      f.matching path = [] ∨
      (f.validAllFrom canonical valid ((f.matching path).flatMap Rules.names) h).1 := by
  have hrouter : (f.decodeRules canonical valid path f.rules false h).1 ↔ f.matching path ≠ [] ∧
      ¬(f.validAllFrom canonical valid ((f.matching path).flatMap Rules.names) h).1 := by
    rw [decodeRules_eq, Bool.false_or, Bool.and_eq_true, any_hasPrefix, Bool.not_eq_true',
      Bool.not_eq_true]
    rfl
  have hstatus : (f.decode canonical valid path h).status = .continues ↔
      ¬(f.decodeRules canonical valid path f.rules false h).1 := by
    rw [decode]
    dsimp only
    split_ifs with hheld <;> simp [hheld]
  rw [hstatus, hrouter, not_and_not_right, or_iff_not_imp_left]

end Filter

/-- A rule is satisfied by the headers of a request, as one would read its two requirements. -/
def Rules.Satisfied (canonical : String → String) (valid : K → String → Bool) (f : Filter K)
    (h : Header)
    (rule : Rules) : Prop :=
  f.finds canonical valid h rule.requires.requiresAny ∨
    (rule.requires.requiresAll ≠ [] ∧
      ∀ name ∈ rule.requires.requiresAll, f.finds canonical valid h name)

instance (f : Filter K) (h : Header) (rule : Rules) :
    Decidable (rule.Satisfied canonical valid f h) :=
  inferInstanceAs (Decidable (_ ∨ _))

/-- A request is let through exactly if no rule is for it, or if one of the providers that the rules
for it name, in `requires_any` or in `requires_all`, is configured and finds a valid token in its
header, as that header is after the providers up to this one have written their issuers. -/
theorem decode_continues_iff (canonical : String → String) (valid : K → String → Bool)
    (f : Filter K) (path : String)
    (h : Header) :
    (f.decode canonical valid path h).status = .continues ↔
      (∀ rule ∈ f.rules, ¬hasPrefix path rule.matchPrefix) ∨
      ∃ before name after, (f.matching path).flatMap Rules.names = before ++ name :: after ∧
        f.finds canonical valid ((before ++ [name]).foldl (f.forward canonical) h) name := by
  rw [Filter.status_decode, Filter.validAllFrom_iff, Filter.matching, List.filter_eq_nil_iff]

namespace Sample

/-- A provider whose keys are its name. -/
def keysOf (name : String) : Providers String :=
  { name := name, forwardPayloadHeader := "X-Issuer", fromHeaders := ⟨"X-" ++ name, ""⟩,
    issuer := "issuer",
    localJwks := some (some name), remoteJwks := none }

/-- Two providers, and one rule that requires both. -/
def both : Config String :=
  { errMsg := "", rules := [⟨"/", ⟨"", ["a", "b"]⟩⟩], providers := [keysOf "a", keysOf "b"] }

/-- The token of the first provider only. -/
def tokenOfA : Header := fun name => if name = "X-a" then ["Bearer a"] else []

end Sample

/-- A rule that requires two providers lets a request through that has the token of one of them. -/
theorem requires_all_with_one_token :
    ∃ f, apply Sample.both = .ok f ∧
      (f.decode id (fun keys token => keys == token) "/orders" Sample.tokenOfA).status =
        .continues ∧
      ¬((∀ rule ∈ f.rules, ¬hasPrefix "/orders" rule.matchPrefix) ∨ ∃ rule ∈ f.rules,
        hasPrefix "/orders" rule.matchPrefix ∧
          rule.Satisfied id (fun keys token => keys == token) f Sample.tokenOfA) :=
  ⟨_, rfl, by decide +kernel, by decide +kernel⟩

end Pixiu.Jwt
