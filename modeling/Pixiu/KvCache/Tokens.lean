import Pixiu.Base.System
import Pixiu.Base.Text

/-!
# The token cache of the KV cache filter

`GetTokens` sends the body of a request to the tokenizer and keeps the tokens under a hash of the
model and the prompt that `extractPromptAndModel` has found in the body.  What else the body says
(the roles of the messages, where one message ends and the next begins, the options of the
tokenizer) is not in the key.

`transparent_iff` says what a cached answer is: the tokens of an earlier request with the same model
and prompt.  They are the tokens of this request exactly if the tokenizer makes no difference
between the two bodies.
-/

namespace Pixiu.KvCache

/-! ## Model and prompt -/

/-- A decoded value; `null`, booleans and numbers are told apart nowhere. -/
inductive Json where
  | other
  | string (s : String)
  | array (items : List Json)
  | object (fields : List (String × Json))

/-- What is sent to the tokenizer. -/
inductive TokenizeBody where
  | raw (body : String)
  | request (model prompt : String)
  deriving DecidableEq, Repr

/-- The functions from outside: `json.Unmarshal` into a map, SHA-256 and the tokenizer, which
answers the same to the same body. -/
structure Lib where
  unmarshal : String → Option (List (String × Json))
  hash : String → String
  hash_injective : Function.Injective hash
  tokenizer : TokenizeBody → Option (List ℕ)

/-- A JSON string. -/
def Json.text? : Json → Option String
  | .string s => some s
  | _ => none

/-- `coercePrompt`. -/
def coercePrompt : Option Json → String
  | some (.string s) => s
  | some (.array items) => Text.join '\n' (items.filterMap Json.text?)
  | _ => ""

/-- `extractPromptFromMessages`. -/
def extractPromptFromMessages : Option Json → String
  | some (.array msgs) =>
    Text.join '\n' (msgs.filterMap fun msg =>
      match msg with
      | .object fields => (fields.lookup "content").bind Json.text?
      | _ => none)
  | _ => ""

/-- The prompt and the model. -/
def extractPromptAndModel (lib : Lib) (body : String) : Option (String × String) :=
  if body = "" then some ("", "")
  else (lib.unmarshal body).map fun payload =>
    let model := ((payload.lookup "model").bind Json.text?).getD ""
    let prompt := coercePrompt (payload.lookup "prompt")
    let prompt :=
      if prompt = "" then extractPromptFromMessages (payload.lookup "messages") else prompt
    (Text.trimSpace prompt, model)

/-! ## The manager -/

/-- `TokenCacheConfig`. -/
structure TokenCacheConfig where
  enabled : Bool := true
  maxSize : ℕ := 0
  ttl : ℤ := 0
  deriving DecidableEq, Repr

/-- `source` is the body that the tokens were made from. -/
structure TokenCacheEntry where
  tokens : List ℕ
  expiresAt : ℤ
  source : String
  deriving DecidableEq, Repr

/-- A manager, with the bodies of the calls that wait for the tokenizer and those of all calls so
far. -/
structure TokenManager where
  cache : List (String × TokenCacheEntry) := []
  waiting : List String := []
  seen : List String := []
  deriving DecidableEq, Repr

/-- A call of `GetTokens` looks into the cache; one that found nothing gets the answer of the
tokenizer, or none where the tokenizer is not reached; `InvalidateCache`. -/
inductive Call where
  | getTokens (body : String) (now : ℤ)
  | tokenized (body : String) (reached : Bool) (now : ℤ) (victims : List String)
  | invalidateCache (model prompt : String)

section

variable (lib : Lib) (config : TokenCacheConfig)

/-- What is hashed. -/
def keyText (model prompt : String) : String := model ++ "\x00" ++ prompt

/-- `cacheKey`. -/
def cacheKey (model prompt : String) : String := lib.hash (keyText model prompt)

/-- The key of a request, if its body can be decoded. -/
def bodyKey (body : String) : Option String :=
  (extractPromptAndModel lib body).map fun (prompt, model) => cacheKey lib model prompt

/-- `buildTokenizeBody`. -/
def buildTokenizeBody (model prompt rawBody : String) : TokenizeBody :=
  if rawBody ≠ "" then .raw rawBody else .request model prompt

/-- The tokens of a request of its own. -/
def tokenize (body : String) : Option (List ℕ) :=
  (extractPromptAndModel lib body).bind fun (prompt, model) =>
    lib.tokenizer (buildTokenizeBody model prompt body)

namespace TokenManager

/-- `deleteCache`. -/
def deleteCache (tm : TokenManager) (key : String) : TokenManager :=
  { tm with cache := tm.cache.filter (·.1 ≠ key) }

/-- The entry that `loadCache` returns the tokens of. -/
def live (tm : TokenManager) (key : String) (now : ℤ) : Option TokenCacheEntry :=
  (tm.cache.lookup key).filter fun entry => ¬ (0 < config.ttl ∧ entry.expiresAt < now)

/-- The loop that makes room; `victims` are the keys that `Range` visits first. -/
def makeRoom (tm : TokenManager) : List String → TokenManager
  | [] => tm
  | key :: victims =>
    if config.maxSize ≤ tm.cache.length then makeRoom (tm.deleteCache key) victims else tm

/-- `storeCache`. -/
def storeCache (tm : TokenManager) (key : String) (entry : TokenCacheEntry)
    (victims : List String) : TokenManager :=
  let tm := if 0 < config.maxSize then makeRoom config tm victims else tm
  if (tm.cache.lookup key).isSome then tm else { tm with cache := (key, entry) :: tm.cache }

/-- One step; a call that hits the cache is over. -/
def step (tm : TokenManager) : Call → Option TokenManager
  | .getTokens body now =>
    (bodyKey lib body).map fun key =>
      let tm := { tm with seen := body :: tm.seen }
      if config.enabled then
        match tm.live config key now with
        | some _ => tm
        | none => { tm.deleteCache key with waiting := body :: tm.waiting }
      else { tm with waiting := body :: tm.waiting }
  | .tokenized body reached now victims =>
    if body ∈ tm.waiting then
      (bodyKey lib body).map fun key =>
        let tm := { tm with waiting := tm.waiting.erase body }
        match if reached then tokenize lib body else none with
        | none => tm
        | some tokens =>
          if config.enabled then
            tm.storeCache config key ⟨tokens, now + config.ttl, body⟩ victims else tm
    else none
  | .invalidateCache model prompt => some (tm.deleteCache (cacheKey lib model prompt))

/-- The state after some calls, if they can happen. -/
def run (calls : List Call) : Option TokenManager := calls.foldlM (step lib config) {}

/-- What a call of `GetTokens` returns, with the tokenizer reached or not. -/
def getTokens (tm : TokenManager) (body : String) (now : ℤ) (reached : Bool) : Option (List ℕ) :=
  (bodyKey lib body).bind fun key =>
    match if config.enabled then tm.live config key now else none with
    | some entry => some entry.tokens
    | none => if reached then tokenize lib body else none

/-- Every entry has the tokens of a request of before, under the key of that request. -/
structure Sourced (tm : TokenManager) : Prop where
  entries : ∀ key entry, (key, entry) ∈ tm.cache →
    tokenize lib entry.source = some entry.tokens ∧ bodyKey lib entry.source = some key ∧
      entry.source ∈ tm.seen
  waiting : ∀ body ∈ tm.waiting, body ∈ tm.seen

end TokenManager

end

namespace TokenManager

variable {lib : Lib} {config : TokenCacheConfig} {tm tm' : TokenManager}

theorem Sourced.of_subset (h : tm.Sourced lib) (hcache : tm'.cache ⊆ tm.cache)
    (hseen : tm.seen ⊆ tm'.seen)
    (hwaiting : ∀ body ∈ tm'.waiting, body ∈ tm'.seen) : tm'.Sourced lib where
  entries key entry hentry := by
    obtain ⟨htokens, hkey, hsource⟩ := h.entries key entry (hcache hentry)
    exact ⟨htokens, hkey, hseen hsource⟩
  waiting := hwaiting

theorem Sourced.deleteCache (h : tm.Sourced lib) (key : String) :
    (tm.deleteCache key).Sourced lib :=
  h.of_subset (List.filter_subset_self _) (List.Subset.refl _) h.waiting

theorem Sourced.makeRoom (h : tm.Sourced lib) (victims : List String) :
    (tm.makeRoom config victims).Sourced lib := by
  induction victims generalizing tm with
  | nil => exact h
  | cons key victims ih =>
    unfold TokenManager.makeRoom
    split_ifs
    · exact ih (h.deleteCache key)
    · exact h

theorem seen_makeRoom (victims : List String) : (tm.makeRoom config victims).seen = tm.seen := by
  induction victims generalizing tm with
  | nil => rfl
  | cons key victims ih =>
    unfold TokenManager.makeRoom
    split_ifs
    · exact ih
    · rfl

theorem Sourced.storeCache (h : tm.Sourced lib) {key : String} {entry : TokenCacheEntry}
    {victims : List String}
    (hentry : tokenize lib entry.source = some entry.tokens ∧ bodyKey lib entry.source = some key ∧
      entry.source ∈ tm.seen) : (tm.storeCache config key entry victims).Sourced lib := by
  have hroom : ∀ room : TokenManager, room.Sourced lib → room.seen = tm.seen →
      (if (room.cache.lookup key).isSome then
        room else { room with cache := (key, entry) :: room.cache }).Sourced lib := by
    intro room hroom hseen
    split_ifs
    · exact hroom
    · refine ⟨fun key' entry' hmem => ?_, hroom.waiting⟩
      rcases List.mem_cons.1 hmem with heq | hmem
      · obtain ⟨rfl, rfl⟩ := Prod.mk.inj heq
        exact hseen ▸ hentry
      · exact hroom.entries key' entry' hmem
  unfold TokenManager.storeCache
  by_cases hmax : 0 < config.maxSize
  · rw [if_pos hmax]
    exact hroom _ (h.makeRoom victims) (seen_makeRoom victims)
  · rw [if_neg hmax]
    exact hroom tm h rfl

theorem Sourced.step {call : Call} (h : tm.Sourced lib)
    (hstep : tm.step lib config call = some tm') : tm'.Sourced lib := by
  cases call with
  | getTokens body now =>
    obtain ⟨key, -, rfl⟩ := Option.map_eq_some_iff.1 hstep
    have hseen : tm.seen ⊆ body :: tm.seen := List.subset_cons_self _ _
    have hwaiting : ∀ b ∈ body :: tm.waiting, b ∈ body :: tm.seen := by
      intro b hb
      rcases List.mem_cons.1 hb with rfl | hb
      · exact List.mem_cons_self ..
      · exact hseen (h.waiting b hb)
    dsimp only
    split_ifs
    · split
      · exact h.of_subset (List.Subset.refl _) hseen fun b hb => hseen (h.waiting b hb)
      · exact h.of_subset (List.filter_subset_self _) hseen hwaiting
    · exact h.of_subset (List.Subset.refl _) hseen hwaiting
  | tokenized body reached now victims =>
    simp only [TokenManager.step, Option.ite_none_right_eq_some] at hstep
    obtain ⟨hwaits, hstep⟩ := hstep
    obtain ⟨key, hkey, rfl⟩ := Option.map_eq_some_iff.1 hstep
    have hrest : { tm with waiting := tm.waiting.erase body }.Sourced lib :=
      h.of_subset (List.Subset.refl _) (List.Subset.refl _) fun b hb =>
        h.waiting b (List.mem_of_mem_erase hb)
    split
    · exact hrest
    · next tokens htokens =>
      split_ifs
      · refine hrest.storeCache ⟨?_, hkey, h.waiting body hwaits⟩
        exact (Option.ite_none_right_eq_some.1 htokens).2
      · exact hrest
  | invalidateCache model prompt =>
    obtain rfl := Option.some.inj hstep
    exact h.deleteCache _

theorem sourced_run {calls : List Call} (hrun : run lib config calls = some tm) : tm.Sourced lib :=
  System.invariant_steps (fun _ _ _ h hstep => Sourced.step h hstep) hrun ⟨nofun, nofun⟩

theorem mem_of_live {key : String} {now : ℤ} {entry : TokenCacheEntry}
    (h : tm.live config key now = some entry) :
    (key, entry) ∈ tm.cache := by
  obtain ⟨before, after, hcache, -⟩ := List.lookup_eq_some_iff.1 (Option.filter_eq_some_iff.1 h).1
  rw [hcache]
  exact List.mem_append_right _ (List.mem_cons_self ..)

end TokenManager

open TokenManager

/-- **The cache is not seen**, in a request after any history, exactly if the tokenizer answers the
same to the request of before whose tokens are cached; that one has the same model and prompt. -/
theorem transparent_iff {lib : Lib} {config : TokenCacheConfig} {calls : List Call}
    {tm : TokenManager}
    (hrun : run lib config calls = some tm) {body prompt model : String}
    (hbody : extractPromptAndModel lib body = some (prompt, model)) (now : ℤ) :
    (∀ entry, tm.live config (cacheKey lib model prompt) now = some entry → entry.source ∈ tm.seen ∧
      ∃ prompt' model', extractPromptAndModel lib entry.source = some (prompt', model') ∧
        keyText model' prompt' = keyText model prompt) ∧
    ((∀ reached tokens, tm.getTokens lib config body now reached = some tokens →
      tokenize lib body = some tokens) ↔
      (config.enabled = true → ∀ entry, tm.live config (cacheKey lib model prompt) now =
        some entry →
        tokenize lib entry.source = tokenize lib body)) := by
  have h := sourced_run hrun
  constructor
  · intro entry hlive
    obtain ⟨-, hkey, hseen⟩ := h.entries _ _ (mem_of_live hlive)
    obtain ⟨⟨prompt', model'⟩, hsource, hhash⟩ := Option.map_eq_some_iff.1 hkey
    exact ⟨hseen, prompt', model', hsource, lib.hash_injective hhash⟩
  · have hkey : bodyKey lib body = some (cacheKey lib model prompt) :=
      by rw [bodyKey, hbody, Option.map_some]
    simp only [getTokens, hkey, Option.bind_some]
    cases henabled : config.enabled with
    | false =>
      refine iff_of_true (fun reached tokens hreturn => ?_) nofun
      exact (Option.ite_none_right_eq_some.1 hreturn).2
    | true =>
      cases hlive : tm.live config (cacheKey lib model prompt) now with
      | none =>
        refine iff_of_true (fun reached tokens hreturn => ?_) fun _ => nofun
        exact (Option.ite_none_right_eq_some.1 hreturn).2
      | some entry =>
        obtain ⟨htokens, -, -⟩ := h.entries _ _ (mem_of_live hlive)
        constructor
        · rintro hsame - entry' ⟨⟩
          rw [htokens, hsame true entry.tokens rfl]
        · rintro hsame reached tokens ⟨⟩
          rw [← hsame rfl entry rfl, htokens]

namespace Sample

/-- One message of two lines, and two messages of one line each. -/
def oneMessage : String := "messages: hello, world"

/-- The text of two messages in one. -/
def twoMessages : String := "messages: hello; world"

/-- A message with its content. -/
def message (content : String) : Json := .object [("content", .string content)]

/-- A tokenizer that counts messages. -/
def lib : Lib where
  unmarshal body :=
    if body = oneMessage then some [("messages", .array [message "hello\nworld"])]
    else some [("messages", .array [message "hello", message "world"])]
  hash := id
  hash_injective := fun _ _ h => h
  tokenizer body := some (if body = .raw oneMessage then [1] else [2])

/-- The tokens of the one message are cached. -/
def calls : List Call := [.getTokens oneMessage 0, .tokenized oneMessage true 0 []]

end Sample

theorem transparent_iff_oneMessage : ∃ tm, run Sample.lib {} Sample.calls = some tm ∧
    ∀ reached tokens, tm.getTokens Sample.lib {} Sample.oneMessage 1 reached = some tokens →
      tokenize Sample.lib Sample.oneMessage = some tokens := by
  have hrun : run Sample.lib {} Sample.calls = some _ := rfl
  have hbody : extractPromptAndModel Sample.lib Sample.oneMessage = some ("hello\nworld", "") :=
    by rfl
  refine ⟨_, hrun, (transparent_iff hrun hbody 1).2.2 fun _ entry hlive => ?_⟩
  obtain rfl := Option.some.inj hlive
  rfl

/-- Two messages get the tokens of one. -/
theorem tokens_of_another_request : ∃ tm, run Sample.lib {} Sample.calls = some tm ∧
    tm.getTokens Sample.lib {} Sample.twoMessages 1 true = some [1] ∧
    tokenize Sample.lib Sample.twoMessages = some [2] :=
  ⟨_, rfl, rfl, rfl⟩

end Pixiu.KvCache
