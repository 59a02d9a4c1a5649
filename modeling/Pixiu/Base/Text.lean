import Mathlib

/-!
# Text helpers: splitting, joining and trimming

A small library of the one-character text operations that path handling and
list-valued strings rest on: splitting on a separator, joining with it, cutting
at its first occurrence, trimming it from the left and testing for a substring.
Every operation is defined on the characters of a `String`, so it evaluates in
the kernel, and comes with the lemmas that let later files reason about
components instead of characters: `join_split` and `split_join` are the two
halves of the round trip, `split_append_sep` cuts a text at a known separator.
-/

namespace Pixiu.Text

/-! ## Operations -/

/-- Split on a separator, keeping empty components; the result is never empty. -/
def split (sep : Char) (s : String) : List String :=
  (s.toList.splitOn sep).map String.ofList

/-- Join components with a separator between them. -/
def join (sep : Char) (parts : List String) : String :=
  String.ofList ([sep].intercalate (parts.map String.toList))

/-- Everything before the first `sep`, or the whole text. -/
def before (sep : Char) (s : String) : String :=
  String.ofList (s.toList.takeWhile (· != sep))

/-- Drop every leading `c`. -/
def trimLeft (c : Char) (s : String) : String :=
  String.ofList (s.toList.dropWhile (· == c))

/-- Drop one `c` at the end. -/
def trimSuffix (c : Char) (s : String) : String :=
  if s.toList.getLast? = some c then String.ofList s.toList.dropLast else s

/-- White space: the six ASCII blanks and the blanks of Unicode. -/
def isSpace (c : Char) : Bool :=
  let n := c.toNat
  (0x9 ≤ n && n ≤ 0xd) || n == 0x20 || n == 0x85 || n == 0xa0 || n == 0x1680 ||
    (0x2000 ≤ n && n ≤ 0x200a) ||
    n == 0x2028 || n == 0x2029 || n == 0x202f || n == 0x205f || n == 0x3000

/-- Drop white space at both ends. -/
def trimSpace (s : String) : String :=
  String.ofList ((s.toList.dropWhile isSpace).rdropWhile isSpace)

/-- The number that some digits are. -/
def digits (cs : List Char) : Option ℕ :=
  if cs ≠ [] ∧
    cs.all Char.isDigit then some (cs.foldl (fun n c => 10 * n + (c.toNat - '0'.toNat)) 0) else none

/-- The number in a text: digits after an optional sign, in the range of a machine integer. -/
def atoi (s : String) : Option ℤ :=
  let n : Option ℤ := match s.toList with
    | '-' :: cs => (digits cs).map fun n => -(n : ℤ)
    | '+' :: cs => (digits cs).map fun n => (n : ℤ)
    | cs => (digits cs).map fun n => (n : ℤ)
  n.filter fun n => -2 ^ 63 ≤ n ∧ n < 2 ^ 63

/-! ## Splitting -/

theorem split_ne_nil (sep : Char) (s : String) : split sep s ≠ [] := by
  simp [split]

theorem not_mem_of_mem_splitOn {sep : Char} :
    ∀ {l q : List Char}, q ∈ l.splitOn sep → sep ∉ q := by
  intro l
  induction l with
  | nil => intro q hq; simp at hq; simp [hq]
  | cons c cs ih =>
    intro q hq
    rw [List.splitOn_cons_eq_if_modifyHead] at hq
    by_cases hc : c = sep
    · simp only [hc, beq_self_eq_true, if_true, List.mem_cons] at hq
      rcases hq with rfl | hq
      · simp
      · exact ih hq
    · simp only [beq_iff_eq, hc, if_false] at hq
      cases hcs : cs.splitOn sep with
      | nil => exact absurd hcs (List.splitOn_ne_nil sep cs)
      | cons p ps =>
        rw [hcs] at hq ih
        simp only [List.modifyHead_cons, List.mem_cons] at hq
        rcases hq with rfl | hq
        · simp only [List.mem_cons, not_or]
          exact ⟨fun h => hc h.symm, ih (List.mem_cons_self ..)⟩
        · exact ih (List.mem_cons_of_mem _ hq)

/-- No component of a split text holds the separator. -/
theorem not_mem_of_mem_split {sep : Char} {s p : String} (h : p ∈ split sep s) :
    sep ∉ p.toList := by
  obtain ⟨q, hq, rfl⟩ := List.mem_map.1 h
  rw [String.toList_ofList]
  exact not_mem_of_mem_splitOn hq

theorem split_of_not_mem {sep : Char} {s : String} (h : sep ∉ s.toList) : split sep s = [s] := by
  simp [split, List.splitOn_eq_singleton h, String.ofList_toList]

/-- Changing characters, the separator apart, keeps the components apart. -/
theorem split_map {sep : Char} {f : Char → Char} (hf : ∀ c, f c = sep ↔ c = sep) (s : String) :
    split sep (String.ofList (s.toList.map f)) = (split sep s).map fun p =>
      String.ofList (p.toList.map f) := by
  have hsplit : ∀ l : List Char, (l.map f).splitOn sep = (l.splitOn sep).map (List.map f) := by
    intro l
    induction l with
    | nil => simp
    | cons c l ih =>
      rw [List.map_cons, List.splitOn_cons_eq_if_modifyHead, List.splitOn_cons_eq_if_modifyHead, ih]
      by_cases hc : c = sep
      · simp [hc, (hf sep).2 rfl]
      · have hfc : f c ≠ sep := fun h => hc ((hf c).1 h)
        cases hl : l.splitOn sep with
        | nil => exact absurd hl (List.splitOn_ne_nil sep l)
        | cons p ps => simp [hc, hfc]
  simp [split, hsplit]

/-- Splitting at a known separator. -/
theorem split_append_sep {sep : Char} (a b : List Char) :
    split sep (String.ofList (a ++ sep :: b)) =
      split sep (String.ofList a) ++ split sep (String.ofList b) := by
  simp [split, String.toList_ofList, List.splitOn_append_cons_self]

/-! ## Joining -/

@[simp] theorem join_split (sep : Char) (s : String) : join sep (split sep s) = s := by
  have hmap : (split sep s).map String.toList = s.toList.splitOn sep := by
    simp only [split, List.map_map]
    exact List.map_id'' (fun l => String.toList_ofList) _
  rw [join, hmap, List.intercalate_splitOn, String.ofList_toList]

theorem split_join {sep : Char} {parts : List String} (hne : parts ≠ [])
    (h : ∀ p ∈ parts, sep ∉ p.toList) : split sep (join sep parts) = parts := by
  have hls : ∀ l ∈ parts.map String.toList, sep ∉ l := by
    intro l hl
    obtain ⟨p, hp, rfl⟩ := List.mem_map.1 hl
    exact h p hp
  rw [split, join, String.toList_ofList, List.splitOn_intercalate sep hls (by simpa using hne),
    List.map_map]
  exact List.map_id'' (fun p => String.ofList_toList) _

/-- A text is determined by its components. -/
theorem split_inj {sep : Char} {s t : String} : split sep s = split sep t ↔ s = t := by
  refine ⟨fun h => ?_, fun h => by rw [h]⟩
  rw [← join_split sep s, h, join_split]

theorem join_singleton (sep : Char) (p : String) : join sep [p] = p := by
  simp [join, String.ofList_toList]

theorem join_cons (sep : Char) (p : String) {ps : List String} (hne : ps ≠ []) :
    (join sep (p :: ps)).toList = p.toList ++ sep :: (join sep ps).toList := by
  obtain ⟨q, qs, rfl⟩ := List.exists_cons_of_ne_nil hne
  simp [join, String.toList_ofList, List.intercalate]

/-- A joined text begins with its first component, or with the separator after an
empty one. -/
theorem head?_join_cons (sep : Char) (p : String) (ps : List String) :
    (join sep (p :: ps)).toList.head? = p.toList.head?.or (if ps = [] then none else some sep) := by
  by_cases hps : ps = []
  · rw [hps, join_singleton]
    simp
  · rw [join_cons sep p hps]
    cases p.toList <;> simp [hps]

/-! ## Cutting and trimming -/

theorem before_of_not_mem {sep : Char} {s : String} (h : sep ∉ s.toList) : before sep s = s := by
  rw [before, List.takeWhile_eq_self_iff.2, String.ofList_toList]
  intro c hc
  simp only [bne_iff_ne, ne_eq]
  rintro rfl
  exact h hc

theorem before_append_of_mem {sep : Char} {s s' : String} {t : List Char}
    (hs : s'.toList = s.toList ++ t) (h : sep ∈ s.toList) : before sep s' = before sep s := by
  have hne : s.toList.takeWhile (· != sep) ≠ s.toList := by
    rw [Ne, List.takeWhile_eq_self_iff]
    intro hall
    simpa using hall sep h
  rw [before, before, hs, List.takeWhile_append]
  rw [if_neg]
  intro hlen
  exact hne ((List.takeWhile_prefix _).eq_of_length hlen)

theorem not_mem_before (sep : Char) (s : String) : sep ∉ (before sep s).toList := by
  intro h
  rw [before, String.toList_ofList] at h
  simpa using List.mem_takeWhile_imp h

theorem trimLeft_of_head_ne {c : Char} {s : String} (h : s.toList.head? ≠ some c) :
    trimLeft c s = s := by
  rw [trimLeft]
  cases hs : s.toList with
  | nil => rw [List.dropWhile_nil, ← hs, String.ofList_toList]
  | cons d ds =>
    have hd : (d == c) = false := by
      rw [hs] at h
      simpa using h
    rw [List.dropWhile_cons, hd, if_neg (by simp), ← hs, String.ofList_toList]

/-- Trimming leaves no leading `c`. -/
theorem head_trimLeft_ne (c : Char) (s : String) : (trimLeft c s).toList.head? ≠ some c := by
  rw [trimLeft, String.toList_ofList]
  intro h
  cases hd : s.toList.dropWhile (· == c) with
  | nil => rw [hd] at h; simp at h
  | cons d ds =>
    rw [hd] at h
    have hne : s.toList.dropWhile (· == c) ≠ [] := by rw [hd]; simp
    have hnot := List.head_dropWhile_not (· == c) hne
    simp only [hd, List.head_cons, beq_eq_false_iff_ne, ne_eq] at hnot
    simp only [List.head?_cons, Option.some.injEq] at h
    exact hnot h

/-- Trimming leaves no blanks to trim. -/
@[simp] theorem trimSpace_trimSpace (s : String) : trimSpace (trimSpace s) = trimSpace s := by
  have hleft : ∀ l : List Char, ((l.dropWhile isSpace).rdropWhile isSpace).dropWhile isSpace =
      (l.dropWhile isSpace).rdropWhile isSpace := by
    intro l
    rw [List.dropWhile_eq_self_iff]
    intro hlength
    -- what is left of the text starts as the text without its leading blanks
    have hpre := List.rdropWhile_prefix isSpace (l.dropWhile isSpace)
    have hstart : 0 < (l.dropWhile isSpace).length := hlength.trans_le hpre.length_le
    rw [hpre.getElem hlength]
    exact List.dropWhile_eq_self_iff.1 (List.dropWhile_idempotent isSpace l) hstart
  rw [trimSpace, trimSpace, String.toList_ofList, hleft, List.rdropWhile_idempotent]

end Pixiu.Text
