import Pixiu.Base.Text

/-!
# Trie keys

The key-building half of the router (`pkg/common/util/stringutil/stringutil.go`):
a route or a request becomes one slash-separated text, the method first, and
that text is split into the segments the trie is walked by.

* `split`, `isPathVariableOrWildcard`, `isMatchAll` — how a key is cut and how
  each segment is read.  `edge` packages the reading: a segment is a literal, a
  parameter (`:x` or `*`) or the rest wildcard `**`.
* `getTrieKey`, `getTrieKeyWithPrefix` — how a key is written.
* `pathSegments` — what a path means to the router: the text before `?`, without
  scheme and authority, with one leading and one trailing slash ignored, cut at
  slashes.  `split_getTrieKey` says that this is what key building amounts to
  when the method is a plain word.
-/

namespace Pixiu.Routing

open Pixiu

/-! ## Segments -/

/-- `stringutil.Split`. -/
def split (path : String) : List String := Text.split '/' (Text.trimLeft '/' path)

/-- `stringutil.IsWildcard`. -/
def isWildcard (key : String) : Bool := key == "*"

/-- `stringutil.IsMatchAll`. -/
def isMatchAll (key : String) : Bool := key == "**"

/-- `stringutil.IsPathVariableOrWildcard`. -/
def isPathVariableOrWildcard (key : String) : Bool :=
  if key == "" then false
  else if key.toList.head? == some ':' then true
  else isWildcard key

/-- How the trie reads one segment of a key. -/
inductive Edge where
  /-- A segment matched letter by letter. -/
  | lit (s : String)
  /-- `:x` or `*`: any one segment. -/
  | var
  /-- `**`: the rest of the path. -/
  | all
  deriving DecidableEq, Repr

/-- The case split `put`, `Get` and `internalPut` make on a segment, in their order. -/
def edge (key : String) : Edge :=
  if isPathVariableOrWildcard key then .var
  else if isMatchAll key then .all
  else .lit key

/-! ## Writing keys -/

/-- The characters `[A-Za-z0-9+.-]` of a URL scheme after its first letter. -/
def isSchemeChar (c : Char) : Bool := c.isAlphanum || c == '+' || c == '.' || c == '-'

/-- What follows a leading `://`, if there is one. -/
def stripColonSlashes : List Char → Option (List Char)
  | ':' :: '/' :: '/' :: rest => some rest
  | _ => none

/-- What follows a leading `scheme://` (`urlSchemePrefix`), if there is one. -/
def stripScheme : List Char → Option (List Char)
  | [] => none
  | c :: cs => if c.isAlpha then stripColonSlashes (cs.dropWhile isSchemeChar) else none

/-- The path of a URL: scheme, authority and the slash after them are dropped. -/
def stripAuthority (p : List Char) : List Char :=
  match stripScheme p with
  | none => p
  | some rest => (rest.dropWhile (· != '/')).tail

/-- Drop one trailing slash. -/
def dropTrailingSlash (p : List Char) : List Char :=
  if p.getLast? = some '/' then p.dropLast else p

/-- `stringutil.GetTrieKey`. -/
def getTrieKey (method path : String) : String :=
  let path := stripAuthority (Text.before '?' path).toList
  let ret :=
    if path.head? = some '/' then method.toList ++ path else method.toList ++ '/' :: path
  String.ofList (dropTrailingSlash ret)

/-- The prefix text that `stringutil.GetTrieKeyWithPrefix` turns into a key. -/
def prefixPattern (pre : String) : String :=
  if pre ≠ "" ∧ pre.toList.getLast? ≠ some '/' then pre ++ "/" ++ "**" else pre ++ "**"

/-- `stringutil.GetTrieKeyWithPrefix`. -/
def getTrieKeyWithPrefix (method path pre : String) (isPrefix : Bool) : String :=
  if isPrefix then getTrieKey method (prefixPattern pre) else getTrieKey method path

/-! ## What a path means -/

/-- Drop one leading slash. -/
def dropLeadingSlash (p : List Char) : List Char :=
  if p.head? = some '/' then p.tail else p

/-- The segments of a path once query, scheme and authority are gone. -/
def segmentsOf (p : List Char) : List String :=
  if dropLeadingSlash p = [] then []
  else Text.split '/' (String.ofList (dropTrailingSlash (dropLeadingSlash p)))

/-- The segments of a path, as the router understands it. -/
def pathSegments (path : String) : List String :=
  segmentsOf (stripAuthority (Text.before '?' path).toList)

/-- A word that can stand alone as the first segment of a key. -/
def IsWord (m : String) : Prop := m ≠ "" ∧ '/' ∉ m.toList

theorem IsWord.head_ne {m : String} (h : IsWord m) : m.toList.head? ≠ some '/' := by
  intro hm
  exact h.2 (List.mem_of_mem_head? hm)

theorem IsWord.toList_ne_nil {m : String} (h : IsWord m) : m.toList ≠ [] := by
  simpa using h.1

/-! ## Cutting a key short -/

theorem split_ne_nil (path : String) : split path ≠ [] := Text.split_ne_nil _ _

/-- The first segments of a key are the segments of a shorter key. -/
theorem exists_split_eq_take (path : String) {n : ℕ} (hn : n ≠ 0) :
    ∃ path', split path' = (split path).take n := by
  set t := Text.trimLeft '/' path with ht
  have hsplit : split path = Text.split '/' t := rfl
  have hsep : ∀ q ∈ (split path).take n, '/' ∉ q.toList :=
    fun q hq => Text.not_mem_of_mem_split (List.mem_of_mem_take hq)
  have hne : (split path).take n ≠ [] := by simp [split_ne_nil, hn]
  -- the joined text has no leading slash, so trimming it changes nothing
  have hhead : (Text.join '/' ((split path).take n)).toList.head? ≠ some '/' := by
    have htrim : t.toList.head? ≠ some '/' := Text.head_trimLeft_ne '/' path
    rw [← Text.join_split '/' t, ← hsplit] at htrim
    obtain ⟨p, ps, hps⟩ := List.exists_cons_of_ne_nil (split_ne_nil path)
    obtain ⟨n, rfl⟩ := Nat.exists_eq_succ_of_ne_zero hn
    rw [hps] at htrim ⊢
    rw [Text.head?_join_cons] at htrim
    rw [List.take_succ_cons, Text.head?_join_cons]
    cases hp : p.toList.head? with
    | some c => simpa [hp] using htrim
    | none =>
      have hnil : ps = [] := by
        by_contra hps'
        simp [hp, hps'] at htrim
      simp [hnil]
  refine ⟨Text.join '/' ((split path).take n), ?_⟩
  rw [split, Text.trimLeft_of_head_ne hhead, Text.split_join hne hsep]

/-! ## Edges -/

theorem edge_eq_lit {k s : String} (h : edge k = .lit s) : s = k := by
  unfold edge at h
  split_ifs at h
  exact (Edge.lit.inj h).symm

theorem edge_eq_all {k : String} : edge k = .all ↔ k = "**" := by
  constructor
  · intro h
    unfold edge at h
    split_ifs at h with _ hall
    simpa [isMatchAll] using hall
  · rintro rfl
    rfl

/-! ## Reading back what key building writes -/

/-- A key is its method, a slash and the path without its leading slash. -/
theorem getTrieKey_eq (method path : String) :
    getTrieKey method path = String.ofList (dropTrailingSlash
      (method.toList ++ '/' :: dropLeadingSlash (stripAuthority (Text.before '?' path).toList))) :=
  by
  unfold getTrieKey dropLeadingSlash
  cases hp : stripAuthority (Text.before '?' path).toList with
  | nil => simp
  | cons c cs =>
    by_cases hc : c = '/'
    · simp [hc]
    · simp [hc]

theorem dropTrailingSlash_append_slash {m p : List Char} :
    dropTrailingSlash (m ++ '/' :: p) =
      if p = [] then m else m ++ '/' :: dropTrailingSlash p := by
  unfold dropTrailingSlash
  by_cases hp : p = []
  · subst hp
    simp
  · have hlast : (m ++ '/' :: p).getLast? = p.getLast? := by
      rw [List.getLast?_append, List.getLast?_cons]
      cases h : p.getLast? with
      | none => exact absurd (List.getLast?_eq_none_iff.1 h) hp
      | some c => simp
    rw [hlast, if_neg hp]
    by_cases hl : p.getLast? = some '/'
    · rw [if_pos hl, if_pos hl, List.dropLast_append_of_ne_nil (by simp),
        List.dropLast_cons_of_ne_nil hp]
    · rw [if_neg hl, if_neg hl]

/-- The segments of a key: those of the method text, then those of the path. -/
theorem textSplit_getTrieKey (m path : String) :
    Text.split '/' (getTrieKey m path) = Text.split '/' m ++ pathSegments path := by
  rw [getTrieKey_eq, dropTrailingSlash_append_slash, pathSegments, segmentsOf]
  by_cases hp : dropLeadingSlash (stripAuthority (Text.before '?' path).toList) = []
  · rw [if_pos hp, if_pos hp, String.ofList_toList, List.append_nil]
  · rw [if_neg hp, if_neg hp, Text.split_append_sep, String.ofList_toList]

/-- A key whose method is a plain word begins with that word. -/
theorem split_getTrieKey {m : String} (hm : IsWord m) (path : String) :
    split (getTrieKey m path) = m :: pathSegments path := by
  have hhead : (getTrieKey m path).toList.head? ≠ some '/' := by
    rw [getTrieKey_eq, dropTrailingSlash_append_slash, String.toList_ofList]
    split_ifs
    · exact hm.head_ne
    · rw [List.head?_append_of_ne_nil _ hm.toList_ne_nil]
      exact hm.head_ne
  rw [split, Text.trimLeft_of_head_ne hhead, textSplit_getTrieKey, Text.split_of_not_mem hm.2,
    List.singleton_append]

/-! ## What a prefix means -/

theorem dropLeadingSlash_append {u : List Char} (hu : u ≠ []) (t : List Char) :
    dropLeadingSlash (u ++ t) = dropLeadingSlash u ++ t := by
  obtain ⟨c, cs, rfl⟩ := List.exists_cons_of_ne_nil hu
  by_cases hc : c = '/' <;> simp [dropLeadingSlash, hc]

theorem segmentsOf_of_wildcard {u w : List Char} (h : dropLeadingSlash u = w ++ ['/', '*', '*']) :
    segmentsOf u = Text.split '/' (String.ofList w) ++ ["**"] := by
  have hlast : (w ++ ['/', '*', '*']).getLast? = some '*' := by
    rw [List.getLast?_append_of_ne_nil _ (by simp)]
    rfl
  rw [segmentsOf, h, if_neg (by simp), dropTrailingSlash, hlast, if_neg (by decide),
    Text.split_append_sep]
  rfl

/-- What key building appends to a prefix text: the slash it lacks, and `**`. -/
def IsWildcardTail (u t : List Char) : Prop :=
  (t = ['/', '*', '*'] ∧ u.getLast? ≠ some '/') ∨
    (t = ['*', '*'] ∧ (u = [] ∨ u.getLast? = some '/'))

/-- Adding `**` below a path adds one segment. -/
theorem segmentsOf_append {u t : List Char} (h : IsWildcardTail u t) :
    segmentsOf (u ++ t) = segmentsOf u ++ ["**"] := by
  by_cases hu : u = []
  · subst hu
    obtain ⟨rfl, -⟩ | ⟨rfl, -⟩ := h <;> decide
  · obtain ⟨rfl, hlast⟩ | ⟨rfl, hlast⟩ := h
    · -- the text has no trailing slash of its own
      have hd : (dropLeadingSlash u).getLast? = u.getLast? ∧ dropLeadingSlash u ≠ [] := by
        obtain ⟨c, cs, rfl⟩ := List.exists_cons_of_ne_nil hu
        by_cases hc : c = '/'
        · have hcs : cs ≠ [] := by
            rintro rfl
            exact hlast (by simp [hc])
          obtain ⟨d, ds, rfl⟩ := List.exists_cons_of_ne_nil hcs
          simp [dropLeadingSlash, hc]
        · simp [dropLeadingSlash, hc]
      rw [segmentsOf_of_wildcard (dropLeadingSlash_append hu _), segmentsOf, if_neg hd.2,
        dropTrailingSlash, hd.1, if_neg hlast]
    · obtain ⟨v, rfl⟩ : ∃ v, u = v ++ ['/'] :=
        ⟨u.dropLast, (List.dropLast_append_getLast? _ (hlast.resolve_left hu)).symm⟩
      by_cases hv : v = []
      · subst hv
        decide
      · have hw : dropLeadingSlash (v ++ ['/'] ++ ['*', '*']) = dropLeadingSlash v ++
            ['/', '*', '*'] := by
          rw [List.append_assoc, dropLeadingSlash_append hv]
          rfl
        rw [segmentsOf_of_wildcard hw, segmentsOf, dropLeadingSlash_append hv, if_neg (by simp)]
        simp [dropTrailingSlash]

theorem IsWildcardTail.suffix {u v t : List Char} (h : IsWildcardTail u t) (hv : v <:+ u) :
    IsWildcardTail v t := by
  by_cases hne : v = []
  · subst hne
    exact h.imp (fun h => ⟨h.1, by simp⟩) (fun h => ⟨h.1, Or.inl rfl⟩)
  · obtain ⟨w, rfl⟩ := hv
    rw [IsWildcardTail, List.getLast?_append_of_ne_nil _ hne] at h
    exact h.imp_right fun h => ⟨h.1, Or.inr (h.2.resolve_left (by simp [hne]))⟩

theorem stripColonSlashes_append {d t : List Char} (h : IsWildcardTail d t) :
    stripColonSlashes (d ++ t) = (stripColonSlashes d).map (· ++ t) := by
  rcases d with - | ⟨x, - | ⟨y, - | ⟨z, rest⟩⟩⟩
  · obtain ⟨rfl, -⟩ | ⟨rfl, -⟩ := h <;> rfl
  · obtain ⟨rfl, -⟩ | ⟨rfl, -⟩ := h <;> simp [stripColonSlashes]
  · obtain ⟨rfl, hlast⟩ | ⟨rfl, -⟩ := h
    · have hy : y ≠ '/' := by simpa using hlast
      simp [stripColonSlashes, hy]
    · simp [stripColonSlashes]
  · by_cases hxyz : x = ':' ∧ y = '/' ∧ z = '/'
    · obtain ⟨rfl, rfl, rfl⟩ := hxyz
      rfl
    · have hnone : ∀ l, stripColonSlashes (x :: y :: z :: l) = none := by
        intro l
        unfold stripColonSlashes
        split
        · rename_i heq
          simp only [List.cons.injEq] at heq
          exact absurd ⟨heq.1, heq.2.1, heq.2.2.1⟩ hxyz
        · rfl
      simp [hnone]

/-- A scheme is recognised by the text before the wildcard. -/
theorem stripScheme_append {u t : List Char} (hu : u ≠ []) (h : IsWildcardTail u t) :
    stripScheme (u ++ t) = (stripScheme u).map (· ++ t) := by
  obtain ⟨c, cs, rfl⟩ := List.exists_cons_of_ne_nil hu
  have htail : t.dropWhile isSchemeChar = t := by
    obtain ⟨rfl, -⟩ | ⟨rfl, -⟩ := h <;> decide
  have hdrop : (cs ++ t).dropWhile isSchemeChar = cs.dropWhile isSchemeChar ++ t := by
    rw [List.dropWhile_append]
    split_ifs with he
    · rw [htail, List.isEmpty_iff.1 he, List.nil_append]
    · rfl
  have hsuffix : cs.dropWhile isSchemeChar <:+ c :: cs :=
    (List.dropWhile_suffix _).trans (List.suffix_cons c cs)
  by_cases hc : c.isAlpha = true
  · simp only [List.cons_append, stripScheme, hc, if_true, hdrop,
      stripColonSlashes_append (h.suffix hsuffix)]
  · simp [stripScheme, hc]

theorem suffix_of_stripScheme {u rest : List Char} (h : stripScheme u = some rest) :
    rest <:+ u := by
  cases u with
  | nil => simp [stripScheme] at h
  | cons c cs =>
    rw [stripScheme] at h
    split_ifs at h
    have hrest : rest <:+ cs.dropWhile isSchemeChar := by
      unfold stripColonSlashes at h
      split at h
      · rename_i r heq
        rw [heq, ← Option.some.inj h]
        exact ⟨[':', '/', '/'], rfl⟩
      · simp at h
    exact hrest.trans ((List.dropWhile_suffix _).trans (List.suffix_cons c cs))

theorem stripAuthority_suffix (u : List Char) : stripAuthority u <:+ u := by
  rw [stripAuthority]
  cases hs : stripScheme u with
  | none => exact List.suffix_refl u
  | some rest =>
    exact (List.tail_suffix _).trans ((List.dropWhile_suffix _).trans (suffix_of_stripScheme hs))

/-- A request key holds no query delimiter. -/
theorem query_notMem_getTrieKey {m : String} (hm : '?' ∉ m.toList) (path : String) :
    '?' ∉ (getTrieKey m path).toList := by
  rw [getTrieKey_eq, String.toList_ofList]
  intro h
  have hlead : ∀ {u : List Char}, '?' ∈ dropLeadingSlash u → '?' ∈ u := by
    intro u hu
    rw [dropLeadingSlash] at hu
    split_ifs at hu
    · exact List.mem_of_mem_tail hu
    · exact hu
  have htrail : ∀ {u : List Char}, '?' ∈ dropTrailingSlash u → '?' ∈ u := by
    intro u hu
    rw [dropTrailingSlash] at hu
    split_ifs at hu
    · exact List.mem_of_mem_dropLast hu
    · exact hu
  rcases List.mem_append.1 (htrail h) with h | h
  · exact hm h
  · rcases List.mem_cons.1 h with h | h
    · exact absurd h (by decide)
    · exact Text.not_mem_before '?' path ((stripAuthority_suffix _).mem (hlead h))

/-- `**` after a path, behind an authority or not: one more segment, unless the text has
nothing but an authority for `**` to be part of. -/
theorem segmentsOf_stripAuthority_append {u t : List Char} (hu : u ≠ []) (h : IsWildcardTail u t) :
    segmentsOf (stripAuthority (u ++ t)) = segmentsOf (stripAuthority u) ++ ["**"] ∨
      segmentsOf (stripAuthority (u ++ t)) = segmentsOf (stripAuthority u) := by
  simp only [stripAuthority, stripScheme_append hu h]
  cases hs : stripScheme u with
  | none => exact Or.inl (segmentsOf_append h)
  | some rest =>
    simp only [Option.map_some, List.dropWhile_append]
    by_cases hslash : rest.dropWhile (· != '/') = []
    · rw [hslash]
      obtain ⟨rfl, -⟩ | ⟨rfl, -⟩ := h
      · exact Or.inl (by decide)
      · exact Or.inr rfl
    · rw [if_neg (by simpa using hslash), List.tail_append_of_ne_nil hslash]
      have hsuffix := stripAuthority_suffix u
      simp only [stripAuthority, hs] at hsuffix
      exact Or.inl (segmentsOf_append (h.suffix hsuffix))

/-- The text of a prefix with its wildcard. -/
theorem toList_prefixPattern (pre : String) : ∃ t, (prefixPattern pre).toList = pre.toList ++ t ∧
    IsWildcardTail pre.toList t ∧ '?' ∉ t := by
  by_cases h : pre ≠ "" ∧ pre.toList.getLast? ≠ some '/'
  · refine ⟨['/', '*', '*'], ?_, Or.inl ⟨rfl, h.2⟩, by decide⟩
    rw [prefixPattern, if_pos h, String.toList_append, String.toList_append, List.append_assoc]
    rfl
  · refine ⟨['*', '*'], ?_, Or.inr ⟨rfl, ?_⟩, by decide⟩
    · rw [prefixPattern, if_neg h, String.toList_append]
      rfl
    · by_cases he : pre = ""
      · exact Or.inl (by simp [he])
      · exact Or.inr (by_contra fun hl => h ⟨he, hl⟩)

/-- The key of a prefix route ends in `**` below the prefix, unless the text of the prefix
swallows the wildcard: a `?` cuts it off, and after a bare `scheme://` it is the authority. -/
theorem pathSegments_prefixPattern {pre : String} (hpre : pre ≠ "") :
    pathSegments (prefixPattern pre) = pathSegments pre ++ ["**"] ∨
      pathSegments (prefixPattern pre) = pathSegments pre := by
  obtain ⟨t, htext, htail, ht⟩ := toList_prefixPattern pre
  by_cases hq : '?' ∈ pre.toList
  · exact Or.inr (by rw [pathSegments, pathSegments, Text.before_append_of_mem htext hq])
  · have hq' : '?' ∉ (prefixPattern pre).toList := by
      rw [htext, List.mem_append]
      tauto
    rw [pathSegments, pathSegments, Text.before_of_not_mem hq, Text.before_of_not_mem hq', htext]
    exact segmentsOf_stripAuthority_append (by simpa using hpre) htail

-- later files reason about segments, never about the characters behind them
attribute [irreducible] split pathSegments

end Pixiu.Routing
