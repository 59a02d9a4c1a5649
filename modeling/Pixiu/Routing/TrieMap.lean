import Pixiu.Routing.Traversal

/-!
# The trie as a map of live patterns

`Put`, `PutOrUpdate` and `Remove` are meant to make the trie a finite map whose
keys are patterns, up to parameter names (`Pattern.addr`).  `IsMapOf` is that
contract; `History` is the abstract account of a sequence of calls, and
`tracks_run` says how much of it the trie keeps: which nodes exist, and that a
node carries the `endOfPath` flag exactly when its key is live, except a `**`
node that was once removed (`History.worn`), whose flag never comes back.

`isMapOf_run_iff` is the outcome: the contract holds after a sequence of calls
exactly when every literal or `**` node that exists is live (`Get` looks at the
flag of parameters only) and no live `**` key was ever removed before.
-/

namespace Pixiu.Routing

variable {β : Type}

/-! ## Patterns and calls -/

/-- A key text that uses `**` at most as its last segment. -/
structure Pattern where
  /-- The text handed to the trie. -/
  text : String
  /-- `**` occurs at most at the end. -/
  real : IsReal (split text)

/-- The identity of a pattern: its address, which forgets parameter names. -/
def Pattern.addr (p : Pattern) : List Edge := Routing.addr (split p.text)

/-- A mutating call on the trie. -/
inductive TrieOp (β : Type) where
  | put (p : Pattern) (bizInfo : Option β)
  | putOrUpdate (p : Pattern) (bizInfo : Option β)
  | remove (p : Pattern)

/-- The trie after a call. -/
def TrieOp.apply (t : Trie β) : TrieOp β → Trie β
  | .put p b => (t.put p.text b).1
  | .putOrUpdate p b => (t.putOrUpdate p.text b).1
  | .remove p => (t.remove p.text).1

/-- The trie after a sequence of calls. -/
def runTrie (ops : List (TrieOp β)) : Trie β := ops.foldl TrieOp.apply Trie.newTrie

/-- **The contract**: the trie behaves as a finite map with the given live keys. -/
structure IsMapOf (t : Trie β) (live : Finset (List Edge)) : Prop where
  /-- `Put` returns true exactly when the key is not live. -/
  put_iff : ∀ (p : Pattern) (b : β), (t.put p.text (some b)).2 = .ok true ↔ p.addr ∉ live
  /-- `Contains` is true exactly when the key is live. -/
  contains_iff : ∀ p : Pattern, t.contains p.text = (decide (p.addr ∈ live), none)
  /-- The node `MatchWithPredicate` returns is the one it stopped at, and that is a live key's. -/
  match_live : ∀ (request : String) (predicate : Node β → Bool) (r : Node β × List String),
    t.matchWithPredicate request predicate = some r →
      ∃ a ∈ live, t.matchAddr request predicate = some a ∧ t.root.at? a = some r.1

/-! ## The abstract account of a sequence of calls -/

/-- What a sequence of calls amounts to. -/
structure History where
  /-- The live keys: put and not removed since. -/
  live : Finset (List Edge)
  /-- Every key that was ever put. -/
  planted : Finset (List Edge)
  /-- Every key that was removed after it had been put. -/
  worn : Finset (List Edge)

namespace History

/-- Nothing has happened. -/
def start : History := ⟨∅, ∅, ∅⟩

/-- A put that is not rejected for `nil` data. -/
def plant (h : History) (a : List Edge) : History :=
  { h with live := insert a h.live, planted := insert a h.planted }

/-- A removal. -/
def remove (h : History) (a : List Edge) : History :=
  { h with live := h.live.erase a, worn := if a ∈ h.planted then insert a h.worn else h.worn }

/-- The account after one more call; a call with `nil` data is rejected. -/
def record (h : History) : TrieOp β → History
  | .put p (some _) => h.plant p.addr
  | .putOrUpdate p (some _) => (h.remove p.addr).plant p.addr
  | .put _ none => h
  | .putOrUpdate _ none => h
  | .remove p => h.remove p.addr

/-- The account of a sequence of calls. -/
def ofOps (ops : List (TrieOp β)) : History := ops.foldl record start

/-- The nodes that exist: the non-empty beginnings of the keys ever put. -/
def Touched (h : History) (a : List Edge) : Prop := a ≠ [] ∧ ∃ p ∈ h.planted, a <+: p

theorem touched_plant {h : History} {a b : List Edge} :
    (h.plant a).Touched b ↔ h.Touched b ∨ (b ≠ [] ∧ b <+: a) := by
  simp only [Touched, plant, Finset.mem_insert, exists_eq_or_imp, ← and_or_left, or_comm]

theorem touched_remove {h : History} {a b : List Edge} : (h.remove a).Touched b ↔ h.Touched b :=
  Iff.rfl

theorem mem_worn_remove {h : History} {a b : List Edge} :
    b ∈ (h.remove a).worn ↔ b ∈ h.worn ∨ (b = a ∧ a ∈ h.planted) := by
  simp only [remove]
  split_ifs with ha <;> simp [ha, or_comm]

/-- What holds of every account. -/
structure Sound (h : History) : Prop where
  /-- The keys are patterns. -/
  pattern : ∀ a ∈ h.planted, ∃ p : Pattern, p.addr = a
  /-- A live key was put. -/
  live_planted : h.live ⊆ h.planted
  /-- A removed key was put. -/
  worn_planted : h.worn ⊆ h.planted
  /-- A key that was put is live unless it was removed. -/
  planted_live : ∀ a ∈ h.planted, a ∈ h.live ∨ a ∈ h.worn

theorem sound_start : start.Sound :=
  ⟨by simp [start], by simp [start], by simp [start], by simp [start]⟩

theorem Sound.plant {h : History} (hs : h.Sound) (p : Pattern) : (h.plant p.addr).Sound where
  pattern := by
    intro a ha
    rcases Finset.mem_insert.1 ha with heq | ha
    · exact ⟨p, heq.symm⟩
    · exact hs.pattern a ha
  live_planted := Finset.insert_subset_insert _ hs.live_planted
  worn_planted := hs.worn_planted.trans (Finset.subset_insert _ _)
  planted_live := by
    intro a ha
    rcases Finset.mem_insert.1 ha with heq | ha
    · exact Or.inl (heq ▸ Finset.mem_insert_self _ _)
    · exact (hs.planted_live a ha).imp_left (Finset.mem_insert_of_mem ·)

theorem Sound.remove {h : History} (hs : h.Sound) (a : List Edge) : (h.remove a).Sound where
  pattern := hs.pattern
  live_planted := (Finset.erase_subset _ _).trans hs.live_planted
  worn_planted := by
    intro b hb
    rcases mem_worn_remove.1 hb with hb | ⟨rfl, hb⟩
    · exact hs.worn_planted hb
    · exact hb
  planted_live := by
    intro b hb
    by_cases hba : b = a
    · exact Or.inr (mem_worn_remove.2 (Or.inr ⟨hba, hba ▸ hb⟩))
    · exact (hs.planted_live b hb).imp (Finset.mem_erase_of_ne_of_mem hba)
        fun hw => mem_worn_remove.2 (Or.inl hw)

end History

/-! ## Addresses of patterns -/

theorem Pattern.addr_eq (p : Pattern) : p.addr = (split p.text).map edge := addr_of_isReal p.real

theorem Pattern.addr_ne_nil (p : Pattern) : p.addr ≠ [] := Routing.addr_ne_nil (split_ne_nil p.text)

/-- Every non-empty beginning of a pattern is a pattern. -/
theorem Pattern.exists_of_beginning (p : Pattern) {a : List Edge} (hne : a ≠ [])
    (h : a <+: p.addr) :
    ∃ q : Pattern, q.addr = a := by
  have htake : a = ((split p.text).take a.length).map edge := by
    rw [List.map_take, ← p.addr_eq]
    exact List.prefix_iff_eq_take.1 h
  obtain ⟨text, htext⟩ := exists_split_eq_take p.text (n := a.length) (by simpa using hne)
  have hreal : IsReal (split text) := htext ▸ p.real.take _
  refine ⟨⟨text, hreal⟩, ?_⟩
  rw [Pattern.addr_eq, htext, ← htake]

/-! ## How much of the account the trie keeps -/

/-- The trie has exactly the touched nodes, and flags exactly the live ones, except a
`**` that was once removed. -/
structure Tracks (t : Trie β) (h : History) : Prop where
  /-- Which nodes exist. -/
  exists_iff : ∀ a, a ≠ [] → ((t.root.look a).isSome ↔ h.Touched a)
  /-- Which nodes are flagged. -/
  endOfPath_iff : ∀ a m, a ≠ [] → t.root.look a = some m →
    (m.endOfPath = true ↔ a ∈ h.live ∧ (a.getLast? = some .all → a ∉ h.worn))

theorem tracks_newTrie : Tracks (β := β) Trie.newTrie History.start where
  exists_iff := by
    intro a ha
    obtain ⟨e, es, rfl⟩ := List.exists_cons_of_ne_nil ha
    simp [Trie.newTrie, Node.look_fresh_cons, History.Touched, History.start]
  endOfPath_iff := by
    intro a m ha hm
    obtain ⟨e, es, rfl⟩ := List.exists_cons_of_ne_nil ha
    simp [Trie.newTrie, Node.look_fresh_cons] at hm

/-- The `**` nodes of the trie are keys themselves. -/
theorem History.Sound.planted_of_touched {h : History} (hs : h.Sound) {a : List Edge}
    (ha : h.Touched a) (hlast : a.getLast? = some .all) : a ∈ h.planted := by
  obtain ⟨-, b, hb, hab⟩ := ha
  obtain ⟨p, rfl⟩ := hs.pattern b hb
  rwa [eq_addr_of_prefix_all hab hlast]

theorem Tracks.not_planted {t : Trie β} {h : History} (ht : Tracks t h) {a : List Edge}
    (hne : a ≠ []) (hlook : t.root.look a = none) : a ∉ h.planted := by
  intro ha
  have hsome := (ht.exists_iff a hne).2 ⟨hne, a, ha, List.prefix_refl a⟩
  rw [hlook] at hsome
  simp at hsome

/-- A `**` node without the flag was removed once. -/
theorem Tracks.worn_of_unflagged {t : Trie β} {h : History} (ht : Tracks t h) (hs : h.Sound)
    {a : List Edge} {m : Mark β} (hne : a ≠ []) (hm : t.root.look a = some m)
    (hflag : m.endOfPath = false) (hlast : a.getLast? = some .all) : a ∈ h.worn := by
  have htouched : h.Touched a := (ht.exists_iff a hne).1 (by simp [hm])
  rcases hs.planted_live a (hs.planted_of_touched htouched hlast) with hlive | hworn
  · by_contra hworn
    have := (ht.endOfPath_iff a m hne hm).2 ⟨hlive, fun _ => hworn⟩
    rw [hflag] at this
    exact Bool.false_ne_true this
  · exact hworn

/-- What a put leaves at its own key. -/
theorem Tracks.endOfPath_plant {t : Trie β} {h : History} (ht : Tracks t h) (hs : h.Sound)
    (p : Pattern) (b : β) {m : Mark β} (hm : (t.put p.text (some b)).1.root.look p.addr = some m) :
    m.endOfPath = true ↔ (p.addr.getLast? = some .all → p.addr ∉ h.worn) := by
  rw [Trie.look_put, Pattern.addr, Node.putLook_addr p.real, ← Pattern.addr] at hm
  cases hold : t.root.look p.addr with
  | none =>
    have hworn : p.addr ∉ h.worn :=
      fun hw => ht.not_planted p.addr_ne_nil hold (hs.worn_planted hw)
    rw [hold] at hm
    obtain rfl : (⟨true, some b⟩ : Mark β) = m := by simpa [Node.plantMark] using hm
    simp [hworn]
  | some old =>
    rw [hold] at hm
    by_cases hflag : old.endOfPath = true
    · obtain rfl : old = m := by simpa [Node.plantMark, hflag] using hm
      exact iff_of_true hflag ((ht.endOfPath_iff _ _ p.addr_ne_nil hold).1 hflag).2
    · have hfalse : old.endOfPath = false := by simpa using hflag
      have hm' : m.endOfPath = (p.addr.getLast?.getD .all != .all) := by
        have := congrArg (Option.map Mark.endOfPath) hm
        simpa [Node.plantMark, hfalse] using this.symm
      rw [hm']
      by_cases hlast : p.addr.getLast? = some .all
      · have hworn := ht.worn_of_unflagged hs p.addr_ne_nil hold hfalse hlast
        simp [hlast, hworn]
      · have hsome : p.addr.getLast? ≠ none := by simp [p.addr_ne_nil]
        obtain ⟨e, he⟩ := Option.ne_none_iff_exists'.1 hsome
        rw [he, Option.some_inj] at hlast
        simp [he, hlast]

/-- A put moves the trie as it moves the account. -/
theorem Tracks.plant {t : Trie β} {h : History} (ht : Tracks t h) (hs : h.Sound) (p : Pattern)
    (b : β) : Tracks (t.put p.text (some b)).1 (h.plant p.addr) where
  exists_iff := by
    intro a hne
    rw [Trie.look_put, History.touched_plant, ← ht.exists_iff a hne]
    by_cases hpre : a <+: p.addr
    · exact iff_of_true (Node.putLook_isSome hne hpre _ _) (Or.inr ⟨hne, hpre⟩)
    · rw [Node.putLook_off_path hpre]
      simp [hpre]
  endOfPath_iff := by
    intro a m hne hm
    by_cases ha : a = p.addr
    · rw [ha] at hm ⊢
      rw [ht.endOfPath_plant hs p b hm]
      simp [History.plant]
    · rw [Trie.look_put] at hm
      have hlive : a ∈ (h.plant p.addr).live ↔ a ∈ h.live := by simp [History.plant, ha]
      rw [hlive]
      by_cases hpre : a <+: p.addr
      · rw [Node.putLook_on_path hne hpre ha] at hm
        cases hold : t.root.look a with
        | none =>
          have hnot : a ∉ h.live := fun hl => ht.not_planted hne hold (hs.live_planted hl)
          obtain rfl : (Mark.blank : Mark β) = m := by simpa [hold] using hm
          simp [Mark.blank, hnot]
        | some old =>
          obtain rfl : old = m := by simpa [hold] using hm
          exact ht.endOfPath_iff a old hne hold
      · rw [Node.putLook_off_path hpre] at hm
        exact ht.endOfPath_iff a m hne hm

/-- A removal moves the trie as it moves the account. -/
theorem Tracks.remove {t : Trie β} {h : History} (ht : Tracks t h) (p : Pattern) :
    Tracks (t.remove p.text).1 (h.remove p.addr) where
  exists_iff := by
    intro a hne
    rw [Trie.look_remove p.real, History.touched_remove, ← ht.exists_iff a hne]
    split_ifs <;> simp
  endOfPath_iff := by
    intro a m hne hm
    rw [Trie.look_remove p.real, ← Pattern.addr] at hm
    by_cases ha : a = p.addr
    · rw [if_pos ha] at hm
      obtain ⟨m', -, rfl⟩ := Option.map_eq_some_iff.1 hm
      simp [History.remove, ha]
    · rw [if_neg ha] at hm
      rw [ht.endOfPath_iff a m hne hm, History.mem_worn_remove]
      simp [History.remove, ha]

/-- One call moves the trie as it moves the account. -/
theorem Tracks.apply {t : Trie β} {h : History} (ht : Tracks t h) (hs : h.Sound) (op : TrieOp β) :
    Tracks (op.apply t) (h.record op) ∧ (h.record op).Sound := by
  cases op with
  | put p b =>
    cases b with
    | none => exact ⟨ht, hs⟩
    | some b => exact ⟨ht.plant hs p b, hs.plant p⟩
  | putOrUpdate p b =>
    cases b with
    | none => exact ⟨ht, hs⟩
    | some b => exact ⟨(ht.remove p).plant (hs.remove _) p b, (hs.remove _).plant p⟩
  | remove p => exact ⟨ht.remove p, hs.remove _⟩

/-- **After any sequence of calls** the trie keeps track of the account. -/
theorem tracks_run (ops : List (TrieOp β)) :
    Tracks (runTrie ops) (History.ofOps ops) ∧ (History.ofOps ops).Sound := by
  suffices ∀ (t : Trie β) (h : History), Tracks t h → h.Sound →
      Tracks (ops.foldl TrieOp.apply t) (ops.foldl History.record h) ∧
        (ops.foldl History.record h).Sound from
    this _ _ tracks_newTrie History.sound_start
  induction ops with
  | nil => exact fun t h ht hs => ⟨ht, hs⟩
  | cons op ops ih =>
    intro t h ht hs
    obtain ⟨ht', hs'⟩ := ht.apply hs op
    exact ih _ _ ht' hs'

/-! ## When the contract holds -/

theorem Trie.put_snd (t : Trie β) (p : Pattern) (b : β) :
    (t.put p.text (some b)).2 = .ok true ↔
      ¬ ∃ m, t.root.look p.addr = some m ∧ m.endOfPath = true := by
  have hfail := Node.internalPut_snd (split_ne_nil p.text) b t.root
  simp only [p.real, true_and] at hfail
  rw [Pattern.addr, ← hfail, Trie.put]
  simp

/-- `Contains` sees the live keys and every literal or `**` node. -/
theorem Tracks.contains_iff {t : Trie β} {h : History} (ht : Tracks t h) (hs : h.Sound)
    (p : Pattern) : (t.contains p.text).1 = true ↔
      p.addr ∈ h.live ∨ (h.Touched p.addr ∧ p.addr.getLast? ≠ some .var) := by
  rw [Trie.contains_real p.real, ← Pattern.addr, ← ht.exists_iff _ p.addr_ne_nil]
  simp only [Trie.seen]
  cases hlook : t.root.look p.addr with
  | none =>
    have hnot : p.addr ∉ h.live :=
      fun hl => ht.not_planted p.addr_ne_nil hlook (hs.live_planted hl)
    simp [hnot]
  | some m =>
    have hflag := ht.endOfPath_iff p.addr m p.addr_ne_nil hlook
    by_cases hlast : p.addr.getLast? = some .var
    · have hflag' : m.endOfPath = true ↔ p.addr ∈ h.live := by simpa [hlast] using hflag
      simp [hlast, Option.filter, ← hflag']
    · simp [hlast, Option.filter]

/-- A visited node is live or a `**` that exists. -/
theorem Tracks.live_of_visit {t : Trie β} {h : History} (ht : Tracks t h) {a : List Edge}
    (hne : a ≠ []) {predicate : Node β → Bool} (hv : (t.root.visit predicate a).isSome) :
    a ∈ h.live ∨ (h.Touched a ∧ a.getLast? = some .all) := by
  obtain ⟨c, hc⟩ := Option.isSome_iff_exists.1 hv
  obtain ⟨hat, hacc⟩ := Option.filter_eq_some_iff.1 hc
  have hlook : t.root.look a = some c.mark := by simp [Node.look, hat]
  simp only [eligible, Bool.and_eq_true, Bool.or_eq_true, beq_iff_eq] at hacc
  rcases hacc.1 with hlast | hflag
  · exact Or.inr ⟨(ht.exists_iff a hne).1 (by simp [hlook]), hlast⟩
  · exact Or.inl ((ht.endOfPath_iff a _ hne hlook).1 hflag).1

/-- **The trie is a map of its live patterns exactly when** every literal or `**` node
that exists is live and no live `**` pattern was removed before. -/
theorem isMapOf_run_iff [Inhabited β] (ops : List (TrieOp β)) :
    IsMapOf (runTrie ops) (History.ofOps ops).live ↔
      (∀ a, (History.ofOps ops).Touched a → a.getLast? ≠ some .var → a ∈ (History.ofOps ops).live) ∧
      (∀ a ∈ (History.ofOps ops).live, a.getLast? = some .all → a ∉ (History.ofOps ops).worn) := by
  obtain ⟨ht, hs⟩ := tracks_run ops
  set t := runTrie ops
  set h := History.ofOps ops
  constructor
  · intro hmap
    constructor
    · intro a ha hlast
      obtain ⟨hne, b, hb, hab⟩ := id ha
      obtain ⟨p, rfl⟩ := hs.pattern b hb
      obtain ⟨q, rfl⟩ := p.exists_of_beginning hne hab
      have hcont : (t.contains q.text).1 = true := (ht.contains_iff hs q).2 (Or.inr ⟨ha, hlast⟩)
      rw [hmap.contains_iff q] at hcont
      simpa using hcont
    · intro a ha hlast hworn
      obtain ⟨p, rfl⟩ := hs.pattern a (hs.live_planted ha)
      -- the worn node is not flagged, so `Put` accepts the key a second time
      have hput : (t.put p.text (some default)).2 = .ok true := by
        rw [Trie.put_snd]
        rintro ⟨m, hm, hflag⟩
        exact ((ht.endOfPath_iff _ m p.addr_ne_nil hm).1 hflag).2 hlast hworn
      exact (hmap.put_iff p default).1 hput ha
  · rintro ⟨hlive, hworn⟩
    refine ⟨?_, ?_, ?_⟩
    · intro p b
      rw [Trie.put_snd]
      refine not_congr ⟨?_, ?_⟩
      · rintro ⟨m, hm, hflag⟩
        exact ((ht.endOfPath_iff _ m p.addr_ne_nil hm).1 hflag).1
      · intro hl
        have hsome : (t.root.look p.addr).isSome :=
          (ht.exists_iff _ p.addr_ne_nil).2 ⟨p.addr_ne_nil, _, hs.live_planted hl,
            List.prefix_refl _⟩
        obtain ⟨m, hm⟩ := Option.isSome_iff_exists.1 hsome
        exact ⟨m, hm, (ht.endOfPath_iff _ m p.addr_ne_nil hm).2 ⟨hl, hworn _ hl⟩⟩
    · intro p
      have hiff : (t.contains p.text).1 = true ↔ p.addr ∈ h.live := by
        rw [ht.contains_iff hs p]
        exact ⟨fun hc => hc.elim id fun hc => hlive _ hc.1 hc.2, Or.inl⟩
      refine Prod.ext ?_ (by rw [Trie.contains_real p.real])
      rw [Bool.eq_iff_iff, hiff, decide_eq_true_iff]
    · intro request predicate r hr
      rw [Trie.matchWithPredicate_eq] at hr
      obtain ⟨a, haddr, hat⟩ := Option.bind_eq_some_iff.1 hr
      obtain ⟨c, hc, rfl⟩ := Option.map_eq_some_iff.1 hat
      refine ⟨a, ?_, haddr, hc⟩
      obtain ⟨hmem, hvisit⟩ := Trie.visit_matchAddr haddr
      rcases ht.live_of_visit (ne_nil_of_mem_traversal hmem) hvisit with hl | ⟨htouched, hlast⟩
      · exact hl
      · exact hlive a htouched (by simp [hlast])

/-- A sequence after which the contract fails: a literal key is put and removed. -/
def putThenRemove : List (TrieOp Nat) :=
  [.put ⟨"/GET/a", by decide +kernel⟩ (some 1), .remove ⟨"/GET/a", by decide +kernel⟩]

/-- `Contains` still reports the removed key. -/
theorem not_isMapOf_putThenRemove :
    ¬ IsMapOf (runTrie putThenRemove) (History.ofOps putThenRemove).live := by
  intro h
  exact absurd (h.contains_iff ⟨"/GET/a", by decide +kernel⟩) (by decide +kernel)

end Pixiu.Routing
