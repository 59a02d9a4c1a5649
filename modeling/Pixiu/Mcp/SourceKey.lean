import Pixiu.Base.Terminated
import Pixiu.Mcp.Catalog

/-!
# Keys of server sources

`ServerSource.Key` writes a character that may not stand for itself as a percent sign and its code
in hexadecimal, with nothing after the code.  Digits that follow such a character therefore read as
more of its code: `/1` and U+02F1 are both written `%2f1`.

* `sanitize_eq_iff` — which texts are written alike.
* `key_separates_iff` — which sources have different keys.
-/

namespace Pixiu.Mcp.ServerSource

/-- How one character is written. -/
def sanitizeChar (c : Char) : List Char :=
  if plainChar c then [c] else '%' :: Nat.toDigits 16 c.toNat

theorem sanitizeChar_of_plain {c : Char} (h : plainChar c = true) : sanitizeChar c = [c] := if_pos h

theorem sanitizeChar_of_not_plain {c : Char} (h : ¬ plainChar c = true) :
    sanitizeChar c = '%' :: Nat.toDigits 16 c.toNat := if_neg h

theorem plainChar_of_mem_toDigits (n : ℕ) : ∀ c ∈ Nat.toDigits 16 n, plainChar c = true := by
  induction n using Nat.strong_induction_on with
  | _ n ih =>
    intro c hc
    by_cases hlt : n < 16
    · rw [Nat.toDigits_of_lt_base hlt, List.mem_singleton] at hc
      subst hc
      interval_cases n <;> decide
    · rw [← Nat.div_add_mod n 16, ← Nat.toDigits_append_toDigits (by decide) (by omega)
        (Nat.mod_lt n (by decide)),
        List.mem_append] at hc
      rcases hc with hc | hc
      · exact ih (n / 16) (by omega) c hc
      · have hmod : n % 16 < 16 := Nat.mod_lt n (by decide)
        exact ih (n % 16) (by omega) c hc

/-- Texts that are the same but for characters and digits that together are written as one other
character. -/
inductive Confused : List Char → List Char → Prop where
  | nil : Confused [] []
  | same (c : Char) {a b : List Char} : Confused a b → Confused (c :: a) (c :: b)
  | left {c d : Char} {digits a b : List Char} (hc : ¬ plainChar c = true)
      (hd : ¬ plainChar d = true)
      (hcode : Nat.toDigits 16 c.toNat ++ digits = Nat.toDigits 16 d.toNat) :
      Confused a b → Confused (c :: (digits ++ a)) (d :: b)
  | right {c d : Char} {digits a b : List Char} (hc : ¬ plainChar c = true)
      (hd : ¬ plainChar d = true)
      (hcode : Nat.toDigits 16 c.toNat = Nat.toDigits 16 d.toNat ++ digits) :
      Confused a b → Confused (c :: a) (d :: (digits ++ b))

theorem flatMap_sanitizeChar_of_plain {text : List Char} (h : ∀ c ∈ text, plainChar c = true) :
    text.flatMap sanitizeChar = text := by
  induction text with
  | nil => rfl
  | cons c text ih =>
    rw [List.flatMap_cons, sanitizeChar_of_plain (h c List.mem_cons_self), ih fun d hd =>
      h d (List.mem_cons_of_mem _ hd),
      List.singleton_append]

/-- Characters that stand for themselves in what is written were there before. -/
theorem exists_append_of_flatMap {digits : List Char} (hplain : ∀ c ∈ digits, plainChar c = true) :
    ∀ {text rest : List Char}, text.flatMap sanitizeChar = digits ++ rest →
      ∃ text', text = digits ++ text' ∧ text'.flatMap sanitizeChar = rest := by
  induction digits with
  | nil => exact fun {text _} h => ⟨text, rfl, h⟩
  | cons digit digits ih =>
    intro text rest h
    cases text with
    | nil => simp at h
    | cons c text =>
      have hdigit := hplain digit List.mem_cons_self
      rw [List.flatMap_cons, List.cons_append] at h
      by_cases hc : plainChar c = true
      · rw [sanitizeChar_of_plain hc, List.singleton_append, List.cons.injEq] at h
        obtain ⟨text', rfl, hrest⟩ := ih (fun d hd => hplain d (List.mem_cons_of_mem _ hd)) h.2
        exact ⟨text', by rw [h.1, List.cons_append], hrest⟩
      · rw [sanitizeChar_of_not_plain hc, List.cons_append, List.cons.injEq] at h
        rw [← h.1] at hdigit
        exact absurd hdigit (by decide)

theorem flatMap_of_confused {a b : List Char} (h : Confused a b) :
    a.flatMap sanitizeChar = b.flatMap sanitizeChar := by
  induction h with
  | nil => rfl
  | same c _ ih => rw [List.flatMap_cons, List.flatMap_cons, ih]
  | @left c d digits a b hc hd hcode _ ih =>
    have hdigits : ∀ x ∈ digits, plainChar x = true := fun x hx =>
      plainChar_of_mem_toDigits d.toNat x (hcode ▸ List.mem_append_right _ hx)
    simp [sanitizeChar_of_not_plain hc, sanitizeChar_of_not_plain hd,
      flatMap_sanitizeChar_of_plain hdigits, ← hcode, ih]
  | @right c d digits a b hc hd hcode _ ih =>
    have hdigits : ∀ x ∈ digits, plainChar x = true := fun x hx =>
      plainChar_of_mem_toDigits c.toNat x (hcode ▸ List.mem_append_right _ hx)
    simp [sanitizeChar_of_not_plain hc, sanitizeChar_of_not_plain hd,
      flatMap_sanitizeChar_of_plain hdigits, hcode, ih]

/-- By induction on both texts: where they first differ, one of two codes continues the other. -/
theorem confused_of_flatMap : ∀ (n : ℕ) (a b : List Char), a.length + b.length ≤ n →
    a.flatMap sanitizeChar = b.flatMap sanitizeChar → Confused a b := by
  have hne : ∀ (c : Char) (text : List Char), (c :: text).flatMap sanitizeChar ≠ [] := by
    intro c text h
    simp only [List.flatMap_cons, List.append_eq_nil_iff, sanitizeChar] at h
    split_ifs at h <;> simp at h
  intro n
  induction n with
  | zero =>
    intro a b hlen _
    obtain ⟨rfl, rfl⟩ : a = [] ∧ b = [] :=
      by constructor <;> (apply List.eq_nil_of_length_eq_zero; omega)
    exact .nil
  | succ n ih =>
    intro a b hlen h
    match a, b with
    | [], [] => exact .nil
    | [], d :: b => exact absurd h.symm (hne d b)
    | c :: a, [] => exact absurd h (hne c a)
    | c :: a, d :: b =>
      simp only [List.length_cons] at hlen
      rw [List.flatMap_cons, List.flatMap_cons] at h
      by_cases hc : plainChar c = true <;> by_cases hd : plainChar d = true
      · rw [sanitizeChar_of_plain hc, sanitizeChar_of_plain hd, List.singleton_append,
          List.singleton_append,
          List.cons.injEq] at h
        rw [h.1]
        exact .same d (ih a b (by omega) h.2)
      · rw [sanitizeChar_of_plain hc, sanitizeChar_of_not_plain hd, List.singleton_append,
          List.cons_append,
          List.cons.injEq] at h
        rw [h.1] at hc
        exact absurd hc (by decide)
      · rw [sanitizeChar_of_not_plain hc, sanitizeChar_of_plain hd, List.singleton_append,
          List.cons_append,
          List.cons.injEq] at h
        rw [← h.1] at hd
        exact absurd hd (by decide)
      · rw [sanitizeChar_of_not_plain hc, sanitizeChar_of_not_plain hd, List.cons_append,
          List.cons_append,
          List.cons.injEq, List.append_eq_append_iff] at h
        rcases h.2 with ⟨digits, hcode, hrest⟩ | ⟨digits, hcode, hrest⟩
        · obtain ⟨a', rfl, htail⟩ := exists_append_of_flatMap
            (fun x hx => plainChar_of_mem_toDigits d.toNat x (hcode ▸ List.mem_append_right _ hx))
              hrest
          rw [List.length_append] at hlen
          exact .left hc hd hcode.symm (ih a' b (by omega) htail)
        · obtain ⟨b', rfl, htail⟩ := exists_append_of_flatMap
            (fun x hx => plainChar_of_mem_toDigits c.toNat x (hcode ▸ List.mem_append_right _ hx))
              hrest
          rw [List.length_append] at hlen
          exact .right hc hd hcode (ih a b' (by omega) htail.symm)

theorem toList_sanitizeSourcePart {value : String} (h : value ≠ "") :
    (sanitizeSourcePart value).toList = value.toList.flatMap sanitizeChar := by
  rw [sanitizeSourcePart, if_neg h, String.toList_ofList]
  rfl

theorem sanitize_eq_iff {a b : String} (ha : a ≠ "") (hb : b ≠ "") :
    sanitizeSourcePart a = sanitizeSourcePart b ↔ Confused a.toList b.toList := by
  rw [← String.toList_inj, toList_sanitizeSourcePart ha, toList_sanitizeSourcePart hb]
  exact ⟨confused_of_flatMap _ _ _ le_rfl, flatMap_of_confused⟩

theorem slash_not_mem_sanitizeSourcePart {value : String} (h : value ≠ "") :
    '/' ∉ (sanitizeSourcePart value).toList := by
  rw [toList_sanitizeSourcePart h, List.mem_flatMap]
  rintro ⟨c, -, hc⟩
  by_cases hplain : plainChar c = true
  · rw [sanitizeChar_of_plain hplain, List.mem_singleton] at hc
    rw [← hc] at hplain
    exact absurd hplain (by decide)
  · rw [sanitizeChar_of_not_plain hplain, List.mem_cons] at hc
    rcases hc with hc | hc
    · exact absurd hc (by decide)
    · exact absurd (plainChar_of_mem_toDigits _ _ hc) (by decide)

theorem normalizePart_ne_empty {name : String} (hname : name ≠ "") (part : String) :
    normalizePart name part ≠ "" := by
  unfold normalizePart
  split_ifs with h
  · exact hname
  · exact h

theorem key_eq_iff (s t : ServerSource) : s.key = t.key ↔
    Confused s.normalize.registry.toList t.normalize.registry.toList ∧
      Confused s.normalize.serverID.toList t.normalize.serverID.toList := by
  have hdefaults : defaultRegistryName ≠ "" ∧ defaultServerID ≠ "" := by decide
  have hreg : ∀ u : ServerSource, u.normalize.registry ≠ "" := by
    intro u
    simp only [normalize]
    exact normalizePart_ne_empty hdefaults.1 _
  have hid : ∀ u : ServerSource, u.normalize.serverID ≠ "" := by
    intro u
    simp only [normalize]
    exact normalizePart_ne_empty hdefaults.2 _
  rw [← sanitize_eq_iff (hreg s) (hreg t), ← sanitize_eq_iff (hid s) (hid t)]
  constructor
  · intro h
    have hlist := congrArg String.toList h
    simp only [key, String.toList_append, List.append_assoc] at hlist
    obtain ⟨hregistry, hserverID⟩ := append_sep_inj (slash_not_mem_sanitizeSourcePart (hreg s))
      (slash_not_mem_sanitizeSourcePart (hreg t)) hlist
    exact ⟨String.toList_inj.1 hregistry, String.toList_inj.1 hserverID⟩
  · rintro ⟨hregistry, hserverID⟩
    rw [key, key, hregistry, hserverID]

/-- Sources that differ have different keys, exactly if their parts are not confused. -/
theorem key_separates_iff (s t : ServerSource) : (s.normalize ≠ t.normalize → s.key ≠ t.key) ↔
    (s.normalize ≠ t.normalize →
      ¬ (Confused s.normalize.registry.toList t.normalize.registry.toList ∧
      Confused s.normalize.serverID.toList t.normalize.serverID.toList)) := by
  rw [ne_eq s.key, key_eq_iff]

/-- `/1` and U+02F1 are written alike. -/
theorem key_of_two_servers : normalize ⟨"nacos", "/1"⟩ ≠ normalize ⟨"nacos", "˱"⟩ ∧
    key ⟨"nacos", "/1"⟩ = key ⟨"nacos", "˱"⟩ := by
  decide +kernel

end Pixiu.Mcp.ServerSource
