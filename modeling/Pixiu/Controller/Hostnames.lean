import Pixiu.Controller.Attachment

/-!
# When hostname patterns intersect

A pattern is a list of labels whose first one may be `*`, for one or more labels.  `HostnamesMatch`
walks along the labels of both patterns and, after the `*`, goes on with the first label that equals
the next one of the mask.

* `labelsMatch_star_iff` — behind a `*`, the rest of the mask must follow at the first place where
  it may begin.
* `intersects_iff` — so `HostnamesIntersect` misses a host where the label behind the `*` occurs
  once more before.
-/

namespace Pixiu.Controller

/-- A label that stands for itself. -/
def Plain (label : String) : Prop := label ≠ "" ∧ '*' ∉ label.toList ∧ '.' ∉ label.toList

/-- The labels of a valid pattern. -/
def ValidLabels (labels : List String) : Prop :=
  (∃ rest, labels = "*" :: rest ∧ ∀ label ∈ rest, Plain label) ∨ labels ≠ [] ∧
    ∀ label ∈ labels, Plain label

/-- A hostname as the Gateway API allows it. -/
def ValidHostname (hostname : String) : Prop := ValidLabels (Text.split '.' hostname)

/-- A hostname without a wildcard. -/
def ConcreteHostname (host : String) : Prop := ∀ label ∈ Text.split '.' host, Plain label

/-- The labels of a host match those of a pattern. -/
def LabelsMatched (pattern host : List String) : Prop :=
  match pattern with
  | "*" :: rest => ∃ begin, begin ≠ [] ∧ host = begin ++ rest
  | labels => host = labels

/-- A pattern covers a host. -/
def HostnameMatched (pattern host : String) : Prop :=
  LabelsMatched (Text.split '.' pattern) (Text.split '.' host)

/-- The labels behind the `*` of the mask are the last ones of the other pattern, but their first
one occurs before, or there are none. -/
def Missed (mask other : List String) : Prop :=
  (∃ label rest begin, mask = "*" :: label :: rest ∧ other.tail = begin ++ label :: rest ∧
    label ∈ begin) ∨
    mask = ["*"] ∧ other.tail ≠ []

section Labels

variable {label : String} {as bs rest labels : List String}

theorem Plain.ne_star (h : Plain label) : label ≠ "*" := by
  rintro rfl
  exact h.2.1 (by decide)

theorem labelsMatch_plain_iff (h : ∀ label ∈ as, Plain label) : labelsMatch false as bs = true ↔
    as = bs := by
  induction as generalizing bs with
  | nil => cases bs <;> simp [labelsMatch]
  | cons a as ih =>
    have ha := (h a (List.mem_cons_self ..)).ne_star
    cases bs with
    | nil => simp [labelsMatch]
    | cons b bs =>
      rw [labelsMatch, if_neg ha, List.cons.injEq]
      split_ifs with hab
      · rw [ih fun label hlabel => h label (List.mem_cons_of_mem _ hlabel), and_iff_right hab]
      · simp [hab]

/-- After a wildcard, a label that is not the next one is skipped. -/
theorem labelsMatch_true_cons {b : String} (hb : b ≠ label) :
    labelsMatch true (label :: rest) (b :: bs) = labelsMatch true (label :: rest) bs := by
  cases bs with
  | nil => simp [labelsMatch, hb]
  | cons c bs => simp [labelsMatch, hb]

theorem labelsMatch_true_iff (h : ∀ x ∈ label :: rest, Plain x) :
    labelsMatch true (label :: rest) bs = true ↔ ∃ begin, bs = begin ++ label :: rest ∧
      label ∉ begin := by
  induction bs with
  | nil => simp [labelsMatch]
  | cons b bs ih =>
    by_cases hb : b = label
    · subst hb
      have hstar := (h b (List.mem_cons_self ..)).ne_star
      have hrest : labelsMatch false rest bs = true ↔ rest = bs :=
        labelsMatch_plain_iff fun x hx => h x (List.mem_cons_of_mem _ hx)
      simp only [labelsMatch, bne_self_eq_false, List.dropWhile_cons, Bool.false_eq_true, if_false,
        beq_eq_false_iff_ne.2 hstar, hrest]
      constructor
      · rintro rfl
        exact ⟨[], rfl, List.not_mem_nil⟩
      · rintro ⟨begin, hbegin, hnot⟩
        cases begin with
        | nil => exact (List.cons.inj hbegin).2.symm
        | cons c begin => exact absurd (List.mem_cons.2 (.inl (List.cons.inj hbegin).1)) hnot
    · rw [labelsMatch_true_cons hb, ih]
      constructor
      · rintro ⟨begin, rfl, hnot⟩
        exact ⟨b :: begin, rfl, List.not_mem_cons_of_ne_of_not_mem (Ne.symm hb) hnot⟩
      · rintro ⟨begin, hbegin, hnot⟩
        cases begin with
        | nil => exact absurd (List.cons.inj hbegin).1 hb
        | cons c begin =>
          exact ⟨begin, (List.cons.inj hbegin).2, fun hmem => hnot (List.mem_cons_of_mem _ hmem)⟩

/-- The mask without its `*` follows at the first place. -/
def Follows (rest labels : List String) : Prop :=
  match rest with
  | [] => labels = []
  | label :: rest => ∃ begin, labels = begin ++ label :: rest ∧ label ∉ begin

theorem labelsMatch_star_iff (h : ∀ x ∈ rest, Plain x) (hbs : bs ≠ []) :
    labelsMatch false ("*" :: rest) bs = true ↔ Follows rest bs.tail := by
  obtain ⟨b, bs, rfl⟩ := List.exists_cons_of_ne_nil hbs
  simp only [labelsMatch, if_true, List.tail_cons]
  cases rest with
  | nil => cases bs <;> simp [labelsMatch, Follows]
  | cons label rest => exact labelsMatch_true_iff h

theorem Follows.suffix (h : Follows rest labels) : rest <:+ labels := by
  cases rest with
  | nil => exact List.nil_suffix
  | cons label rest =>
    obtain ⟨begin, rfl, -⟩ := h
    exact List.suffix_append _ _

/-- A mask that is at the end is found there, or it is missed. -/
theorem follows_or_missed (h : rest <:+ bs.tail) : Follows rest bs.tail ∨
    Missed ("*" :: rest) bs := by
  cases rest with
  | nil =>
    by_cases htail : bs.tail = []
    · exact .inl htail
    · exact .inr (.inr ⟨rfl, htail⟩)
  | cons label rest =>
    obtain ⟨begin, hbegin⟩ := h
    by_cases hmem : label ∈ begin
    · exact .inr (.inl ⟨label, rest, begin, rfl, hbegin.symm, hmem⟩)
    · exact .inl ⟨begin, hbegin.symm, hmem⟩

theorem Missed.suffix (h : Missed ("*" :: rest) bs) : rest <:+ bs.tail ∧
    rest.length < bs.tail.length := by
  rcases h with ⟨label, rest', begin, heq, htail, hmem⟩ | ⟨heq, hne⟩
  · obtain rfl := (List.cons.inj heq).2
    have := List.length_pos_of_mem hmem
    rw [htail]
    exact ⟨List.suffix_append _ _, by simp; omega⟩
  · obtain rfl := (List.cons.inj heq).2
    exact ⟨List.nil_suffix, List.length_pos_of_ne_nil hne⟩

theorem Missed.not_follows (h : Missed ("*" :: rest) bs) : ¬ Follows rest bs.tail := by
  rcases h with ⟨label, rest', begin, heq, htail, hmem⟩ | ⟨heq, hne⟩
  · obtain rfl := (List.cons.inj heq).2
    rintro ⟨begin', htail', hnot⟩
    obtain ⟨rfl, -⟩ := List.append_inj' (htail.symm.trans htail') rfl
    exact hnot hmem
  · obtain rfl := (List.cons.inj heq).2
    exact hne

theorem not_missed_of_plain (h : ∀ label ∈ as, Plain label) : ¬ Missed as bs := by
  have hstar : ∀ rest, as ≠ "*" :: rest := by
    rintro rest rfl
    exact (h "*" (List.mem_cons_self ..)).ne_star rfl
  rintro (⟨label, rest, begin, heq, -⟩ | ⟨heq, -⟩)
  · exact hstar _ heq
  · exact hstar _ heq

end Labels

/-! ## Hosts in common -/

/-- Some host matches both. -/
def Common (as bs : List String) : Prop :=
  ∃ host, host ≠ [] ∧ (∀ label ∈ host, Plain label) ∧ LabelsMatched as host ∧ LabelsMatched bs host

/-- The two directions of `HostnamesMatch` answer whether there is a host in common. -/
def Decides (as bs : List String) : Prop :=
  labelsMatch false as bs = true ∨ labelsMatch false bs as = true ↔ Common as bs

section Common

variable {as bs rest rest' : List String}

theorem labelsMatched_plain (h : ∀ label ∈ as, Plain label) {host : List String} :
    LabelsMatched as host ↔ host = as := by
  unfold LabelsMatched
  split
  · next rest => exact absurd rfl (h "*" (List.mem_cons_self ..)).ne_star
  · exact Iff.rfl

theorem common_star_plain_iff (hbs : bs ≠ []) (h : ∀ label ∈ bs, Plain label) :
    Common ("*" :: rest) bs ↔ rest <:+ bs.tail := by
  obtain ⟨b, bs, rfl⟩ := List.exists_cons_of_ne_nil hbs
  simp only [Common, labelsMatched_plain h]
  constructor
  · rintro ⟨host, -, -, ⟨begin, hne, hbegin⟩, rfl⟩
    obtain ⟨c, begin, rfl⟩ := List.exists_cons_of_ne_nil hne
    exact ⟨begin, (List.cons.inj hbegin).2.symm⟩
  · rintro ⟨begin, rfl⟩
    exact ⟨_, hbs, h, ⟨b :: begin, List.cons_ne_nil _ _, rfl⟩, rfl⟩

theorem common_star_star_iff (h : ∀ label ∈ rest, Plain label) (h' : ∀ label ∈ rest', Plain label) :
    Common ("*" :: rest) ("*" :: rest') ↔ rest <:+ rest' ∨ rest' <:+ rest := by
  constructor
  · rintro ⟨host, -, -, ⟨begin, -, hbegin⟩, ⟨begin', -, hbegin'⟩⟩
    exact List.suffix_or_suffix_of_suffix ⟨begin, hbegin.symm⟩ ⟨begin', hbegin'.symm⟩
  · have hplain : Plain "a" := ⟨by decide, by decide, by decide⟩
    have hcommon : ∀ {short long : List String}, (∀ label ∈ long, Plain label) → short <:+ long →
        ∃ host, host ≠ [] ∧ (∀ label ∈ host, Plain label) ∧ LabelsMatched ("*" :: long) host ∧
          LabelsMatched ("*" :: short) host := by
      rintro short long hlong ⟨begin, rfl⟩
      exact ⟨"a" :: (begin ++ short), List.cons_ne_nil _ _, List.forall_mem_cons.2 ⟨hplain, hlong⟩,
        ⟨["a"], List.cons_ne_nil _ _, rfl⟩, ⟨"a" :: begin, List.cons_ne_nil _ _, rfl⟩⟩
    rintro (hsuffix | hsuffix)
    · obtain ⟨host, hne, hhost, hlong, hshort⟩ := hcommon h' hsuffix
      exact ⟨host, hne, hhost, hshort, hlong⟩
    · exact hcommon h hsuffix

theorem decides_comm : Decides as bs ↔ Decides bs as := by
  have hcommon : ∀ {as bs}, Common as bs → Common bs as :=
    fun ⟨host, hne, hhost, h, h'⟩ => ⟨host, hne, hhost, h', h⟩
  unfold Decides
  rw [or_comm, show Common as bs ↔ Common bs as from ⟨hcommon, hcommon⟩]

theorem decides_star_iff (h : ∀ label ∈ rest, Plain label) (hbs : ValidLabels bs) :
    Decides ("*" :: rest) bs ↔ ¬ Missed ("*" :: rest) bs ∧ ¬ Missed bs ("*" :: rest) := by
  rcases hbs with ⟨rest', rfl, h'⟩ | ⟨hne, h'⟩
  · unfold Decides
    rw [labelsMatch_star_iff h (List.cons_ne_nil _ _),
      labelsMatch_star_iff h' (List.cons_ne_nil _ _),
      common_star_star_iff h h', List.tail_cons, List.tail_cons]
    constructor
    · intro hdecides
      refine ⟨fun hmissed => ?_, fun hmissed => ?_⟩
      · obtain ⟨hsuffix, hlt⟩ := hmissed.suffix
        rcases hdecides.2 (.inl hsuffix) with hfollows | hfollows
        · exact hmissed.not_follows hfollows
        · exact absurd hfollows.suffix.length_le (not_le.2 hlt)
      · obtain ⟨hsuffix, hlt⟩ := hmissed.suffix
        rcases hdecides.2 (.inr hsuffix) with hfollows | hfollows
        · exact absurd hfollows.suffix.length_le (not_le.2 hlt)
        · exact hmissed.not_follows hfollows
    · rintro ⟨hmissed, hmissed'⟩
      refine ⟨Or.imp Follows.suffix Follows.suffix, Or.imp (fun hsuffix => ?_) fun hsuffix => ?_⟩
      · exact (follows_or_missed (show rest <:+ ("*" :: rest').tail from hsuffix)).resolve_right
          hmissed
      · exact (follows_or_missed (show rest' <:+ ("*" :: rest).tail from hsuffix)).resolve_right
          hmissed'
  · unfold Decides
    rw [labelsMatch_star_iff h hne, common_star_plain_iff hne h', labelsMatch_plain_iff h',
      or_iff_left (by rintro rfl; exact (h' _ (List.mem_cons_self ..)).ne_star rfl),
      and_iff_left (not_missed_of_plain h')]
    constructor
    · exact fun hdecides hmissed => hmissed.not_follows (hdecides.2 hmissed.suffix.1)
    · exact fun hmissed =>
        ⟨Follows.suffix, fun hsuffix => (follows_or_missed hsuffix).resolve_right hmissed⟩

theorem decides_iff (has : ValidLabels as) (hbs : ValidLabels bs) : Decides as bs ↔ ¬ Missed as bs ∧
    ¬ Missed bs as := by
  rcases has with ⟨rest, rfl, h⟩ | ⟨hne, h⟩
  · exact decides_star_iff h hbs
  rcases hbs with ⟨rest', rfl, h'⟩ | ⟨-, h'⟩
  · rw [decides_comm, decides_star_iff h' (.inr ⟨hne, h⟩), and_comm]
  · refine iff_of_true ?_ ⟨not_missed_of_plain h, not_missed_of_plain h'⟩
    unfold Decides
    rw [labelsMatch_plain_iff h, labelsMatch_plain_iff h']
    simp only [Common, labelsMatched_plain h, labelsMatched_plain h']
    constructor
    · rintro (rfl | rfl) <;> exact ⟨_, hne, h, rfl, rfl⟩
    · rintro ⟨host, -, -, rfl, heq⟩
      exact .inl heq

end Common

/-- **`HostnamesIntersect`** answers whether two patterns have a host in common, exactly if neither
misses the other. -/
theorem intersects_iff {a b : String} (ha : ValidHostname a) (hb : ValidHostname b) :
    (hostnamesIntersect a b = true ↔ ∃ host, ConcreteHostname host ∧ HostnameMatched a host ∧
      HostnameMatched b host) ↔
      ¬ Missed (Text.split '.' a) (Text.split '.' b) ∧
      ¬ Missed (Text.split '.' b) (Text.split '.' a) := by
  rw [← decides_iff ha hb, Decides, hostnamesIntersect, hostnamesMatch, hostnamesMatch,
    Bool.or_eq_true]
  have hhosts : (∃ host, ConcreteHostname host ∧ HostnameMatched a host ∧ HostnameMatched b host) ↔
      Common (Text.split '.' a) (Text.split '.' b) := by
    constructor
    · rintro ⟨host, hconcrete, hmatched, hmatched'⟩
      exact ⟨Text.split '.' host, Text.split_ne_nil _ _, hconcrete, hmatched, hmatched'⟩
    · rintro ⟨labels, hne, hplain, hmatched, hmatched'⟩
      have hsplit := Text.split_join hne fun label hlabel => (hplain label hlabel).2.2
      refine ⟨Text.join '.' labels, ?_, ?_, ?_⟩
      · rwa [ConcreteHostname, hsplit]
      · rwa [HostnameMatched, hsplit]
      · rwa [HostnameMatched, hsplit]
  rw [hhosts]

instance (label : String) : Decidable (Plain label) :=
  inferInstanceAs (Decidable (label ≠ "" ∧ '*' ∉ label.toList ∧ '.' ∉ label.toList))

theorem intersects_iff_wildcard : ValidHostname "*.example.com" ∧ ValidHostname "shop.example.com" ∧
    (hostnamesIntersect "*.example.com" "shop.example.com" = true ↔
      ∃ host, ConcreteHostname host ∧ HostnameMatched "*.example.com" host ∧
      HostnameMatched "shop.example.com" host) := by
  have ha : ValidHostname "*.example.com" := .inl ⟨["example", "com"], by decide, by decide⟩
  have hb : ValidHostname "shop.example.com" := .inr ⟨by decide, by decide⟩
  refine ⟨ha, hb, (intersects_iff ha hb).2 ⟨?_, not_missed_of_plain (by decide)⟩⟩
  intro hmissed
  exact hmissed.not_follows ⟨[], by decide, by decide⟩

/-- The label behind the wildcard occurs twice: the host is missed. -/
theorem repeated_label_missed : ValidHostname "*.dev.example.com" ∧
    ValidHostname "eu.dev.dev.example.com" ∧
    hostnamesIntersect "*.dev.example.com" "eu.dev.dev.example.com" = false ∧
    ConcreteHostname "eu.dev.dev.example.com" ∧
    HostnameMatched "*.dev.example.com" "eu.dev.dev.example.com" ∧
    HostnameMatched "eu.dev.dev.example.com" "eu.dev.dev.example.com" :=
  ⟨.inl ⟨["dev", "example", "com"], by decide, by decide⟩, .inr ⟨by decide, by decide⟩, by decide,
    (by decide : ∀ label ∈ Text.split '.' "eu.dev.dev.example.com", Plain label),
      ⟨["eu", "dev"], by decide, by decide⟩, rfl⟩

end Pixiu.Controller
