import Mathlib

/-!
# Token counts of event streams

`processStreamResponse` of `pkg/filter/llm/tokenizer/tokenizer.go` looks for token usage in a
stream of server-sent events.  It collects the bytes it reads in a buffer, cuts off whatever
stands before two line feeds in a row, drops `data:` from the beginning of the piece and white
space from both ends, and takes the rest for JSON.

The grammar of such streams is another one: a line ends with a line feed, which a carriage
return may precede; a blank line ends an event; lines may be comments or other fields; and the
data of an event are the values of all its data fields.  `dispatch` reads a stream in this way.

The JSON decoder is a parameter: a `Decoder` carries the two facts about JSON that the proofs
rest on.

* `processStreamResponse_eq`: how a stream is cut into reads makes no difference.
* `plain_or_completed`: the stretches in which the filter finds a record.
* `countsRight_iff`: which streams are counted right.
-/

namespace Pixiu.Llm.EventStream

/-- The bytes of an ASCII text. -/
def ascii (s : String) : List UInt8 := s.toList.map Char.toUInt8

/-- The line feed. -/
def newline : UInt8 := 10

/-- The carriage return. -/
def carriageReturn : UInt8 := 13

/-! ## White space at the ends of a text -/

section Trim

/-- The white space of ASCII. -/
def blanks : List UInt8 := [9, 10, 11, 12, 13, 32]

/-- The encodings of the white space of Unicode (`unicode.IsSpace`). -/
def spaces : List (List UInt8) :=
  blanks.map ([·]) ++
    [[0xc2, 0x85], [0xc2, 0xa0], [0xe1, 0x9a, 0x80], [0xe2, 0x80, 0xa8], [0xe2, 0x80, 0xa9],
      [0xe2, 0x80, 0xaf], [0xe2, 0x81, 0x9f], [0xe3, 0x80, 0x80]] ++
    (List.range 11).map fun i => [0xe2, 0x80, 0x80 + UInt8.ofNat i]

/-- Drop the sequences of `S` that a text starts with. -/
def trimStart (S : List (List UInt8)) (t : List UInt8) : List UInt8 :=
  match _h : S.find? fun s => s ≠ [] ∧ s <+: t with
  | none => t
  | some s => trimStart S (t.drop s.length)
termination_by t.length
decreasing_by
  have hs := List.find?_some _h
  simp only [decide_eq_true_eq] at hs
  have hle := hs.2.length_le
  have hpos := List.length_pos_iff.2 hs.1
  rw [List.length_drop]
  omega

/-- `strings.TrimSpace`. -/
def trimSpace (t : List UInt8) : List UInt8 :=
  (trimStart (spaces.map List.reverse) (trimStart spaces t).reverse).reverse

/-- A byte that is neither white space nor part of an encoding of it. -/
def Ink (c : UInt8) : Prop := c < 128 ∧ c ∉ blanks

instance (c : UInt8) : Decidable (Ink c) := inferInstanceAs (Decidable (_ ∧ _))

/-- The white space of ASCII is in `S`, and its other sequences have no byte of ASCII. -/
structure Separate (S : List (List UInt8)) : Prop where
  blank : ∀ c ∈ blanks, [c] ∈ S
  alone : ∀ s ∈ S, ∀ c ∈ s, c < 128 → s = [c] ∧ c ∈ blanks

theorem separate_spaces : Separate spaces := ⟨by decide +kernel, by decide +kernel⟩

theorem separate_reverse : Separate (spaces.map List.reverse) :=
  ⟨by decide +kernel, by decide +kernel⟩

variable {S : List (List UInt8)} {c : UInt8}

theorem trimStart_of_none {t : List UInt8} (h : ∀ s ∈ S, s ≠ [] → ¬ s <+: t) :
    trimStart S t = t := by
  rw [trimStart]
  split
  · rfl
  · next s hs =>
    have hfound := List.find?_some hs
    simp only [decide_eq_true_eq] at hfound
    exact absurd hfound.2 (h s (List.mem_of_find?_eq_some hs) hfound.1)

theorem trimStart_nil : trimStart S [] = [] :=
  trimStart_of_none fun _ _ hne hs => hne (List.prefix_nil.1 hs)

/-- What a text starts with: nothing of `S`, or a sequence that is dropped. -/
theorem trimStart_cases (S : List (List UInt8)) (t : List UInt8) :
    trimStart S t = t ∨ ∃ s ∈ S, s ≠ [] ∧ s <+: t ∧
      trimStart S t = trimStart S (t.drop s.length) := by
  rw [trimStart]
  split
  · exact .inl rfl
  · next s hs =>
    have hfound := List.find?_some hs
    simp only [decide_eq_true_eq] at hfound
    exact .inr ⟨s, List.mem_of_find?_eq_some hs, hfound.1, hfound.2, rfl⟩

theorem blank_lt (hc : c ∈ blanks) : c < 128 :=
  (by decide +kernel : ∀ c ∈ blanks, c < 128) c hc

theorem trimStart_cons_of_blank (hS : Separate S) (hc : c ∈ blanks) (t : List UInt8) :
    trimStart S (c :: t) = trimStart S t := by
  rw [trimStart]
  split
  · next hnone =>
    have hfirst := List.find?_eq_none.1 hnone [c] (hS.blank c hc)
    simp at hfirst
  · next s hs =>
    have hfound := List.find?_some hs
    simp only [decide_eq_true_eq] at hfound
    obtain ⟨a, s', rfl⟩ := List.exists_cons_of_ne_nil hfound.1
    obtain ⟨rfl, -⟩ := List.cons_prefix_cons.1 hfound.2
    rw [(hS.alone _ (List.mem_of_find?_eq_some hs) a List.mem_cons_self (blank_lt hc)).1]
    rfl

/-- A byte that is not white space stays, with all that follows. -/
theorem exists_trimStart_append (hS : Separate S) (hc : Ink c) (u v : List UInt8) :
    ∃ u', u' <:+ u ∧ trimStart S (u ++ c :: v) = u' ++ c :: v := by
  induction hlength : u.length using Nat.strong_induction_on generalizing u with
  | _ n ih =>
    rcases trimStart_cases S (u ++ c :: v) with hself | ⟨s, hs, hne, hstart, heq⟩
    · exact ⟨u, List.suffix_rfl, hself⟩
    · -- the sequence does not reach the byte
      have hu : s <+: u := by
        rcases List.prefix_or_prefix_of_prefix hstart (List.prefix_append u (c :: v)) with hu |
          ⟨w, rfl⟩
        · exact hu
        · rw [List.prefix_append_right_inj] at hstart
          cases w with
          | nil => rw [List.append_nil]
          | cons a w =>
            obtain ⟨rfl, -⟩ := List.cons_prefix_cons.1 hstart
            exact absurd (hS.alone _ hs a (by simp) hc.1).2 hc.2
      have hpos := List.length_pos_iff.2 hne
      have hle := hu.length_le
      obtain ⟨u', hsuffix, hu'⟩ :=
        ih (u.drop s.length).length (by rw [List.length_drop]; omega) _ rfl
      refine ⟨u', hsuffix.trans (List.drop_suffix _ _), ?_⟩
      rw [heq, List.drop_append_of_le_length hle, hu']

theorem trimStart_concat_of_blank (hS : Separate S) (hc : c ∈ blanks) (t : List UInt8) :
    trimStart S (t ++ [c]) = if trimStart S t = [] then [] else trimStart S t ++ [c] := by
  induction hlength : t.length using Nat.strong_induction_on generalizing t with
  | _ n ih =>
    by_cases ht : t = []
    · rw [ht, List.nil_append, trimStart_cons_of_blank hS hc, trimStart_nil, if_pos rfl]
    · have hconcat : ∀ s ∈ S, s <+: t ++ [c] → s <+: t := by
        intro s hs hstart
        rcases List.prefix_concat_iff.1 hstart with rfl | hstart
        · obtain ⟨hone, -⟩ := hS.alone _ hs c (by simp) (blank_lt hc)
          exact absurd (by simpa using hone) ht
        · exact hstart
      have hfind : (S.find? fun s => s ≠ [] ∧ s <+: t ++ [c]) = S.find? fun s => s ≠ [] ∧
          s <+: t := by
        refine List.find?_congr fun s hs => ?_
        rw [decide_eq_decide]
        exact and_congr_right fun _ =>
          ⟨hconcat s hs, fun hstart => hstart.trans (List.prefix_append t [c])⟩
      rw [trimStart, trimStart, hfind]
      split
      · rw [if_neg ht]
      · next s hs =>
        have hfound := List.find?_some hs
        simp only [decide_eq_true_eq] at hfound
        have hpos := List.length_pos_iff.2 hfound.1
        have hle := hfound.2.length_le
        rw [List.drop_append_of_le_length hle]
        exact ih (t.drop s.length).length (by rw [List.length_drop]; omega) _ rfl

@[simp] theorem trimSpace_nil : trimSpace [] = [] := by
  rw [trimSpace, trimStart_nil, List.reverse_nil, trimStart_nil, List.reverse_nil]

theorem trimSpace_cons_of_blank (hc : c ∈ blanks) (t : List UInt8) :
    trimSpace (c :: t) = trimSpace t := by
  rw [trimSpace, trimStart_cons_of_blank separate_spaces hc, trimSpace]

theorem trimSpace_append_of_blanks {t u : List UInt8} (hu : ∀ c ∈ u, c ∈ blanks) :
    trimSpace (t ++ u) = trimSpace t := by
  induction u using List.reverseRecOn with
  | nil => rw [List.append_nil]
  | append_singleton u c ih =>
    rw [List.forall_mem_append, List.forall_mem_singleton] at hu
    rw [← List.append_assoc, ← ih hu.1, trimSpace, trimStart_concat_of_blank separate_spaces hu.2]
    split_ifs with hnil
    · rw [trimSpace, hnil]
    · rw [List.reverse_concat, trimStart_cons_of_blank separate_reverse hu.2, trimSpace]

/-- A byte that is not white space stays, and only what stands around it may be dropped. -/
theorem exists_trimSpace_append (hc : Ink c) (u v : List UInt8) :
    ∃ u' v', u' <:+ u ∧ trimSpace (u ++ c :: v) = u' ++ c :: v' := by
  obtain ⟨u', hu', heq⟩ := exists_trimStart_append separate_spaces hc u v
  obtain ⟨v', -, hv'⟩ := exists_trimStart_append separate_reverse hc v.reverse u'.reverse
  refine ⟨u', v'.reverse, hu', ?_⟩
  have hreverse : (u' ++ c :: v).reverse = v.reverse ++ c :: u'.reverse := by simp
  rw [trimSpace, heq, hreverse, hv']
  simp

theorem exists_trimSpace_cons (hc : Ink c) (v : List UInt8) :
    ∃ v', trimSpace (c :: v) = c :: v' := by
  obtain ⟨u', v', hu', heq⟩ := exists_trimSpace_append hc [] v
  obtain rfl := List.suffix_nil.1 hu'
  exact ⟨v', heq⟩

end Trim

/-! ## The filter -/

/-- `sseDataPrefix`. -/
def sseDataPrefix : List UInt8 := ascii "data:"

/-- `strings.TrimPrefix` for the prefix of data. -/
def trimData (t : List UInt8) : List UInt8 := if sseDataPrefix <+: t then t.drop 5 else t

/-- `splitSSEEvent`. -/
def splitSSEEvent : List UInt8 → Option (List UInt8 × List UInt8)
  | 10 :: 10 :: remaining => some ([], remaining)
  | c :: data => (splitSSEEvent data).map fun found => (c :: found.1, found.2)
  | [] => none

theorem eq_of_splitSSEEvent {t e r : List UInt8} (h : splitSSEEvent t = some (e, r)) :
    t = e ++ newline :: newline :: r := by
  induction t using splitSSEEvent.induct generalizing e with
  | case1 remaining =>
    obtain ⟨rfl, rfl⟩ := Prod.mk.inj (Option.some.inj h)
    rfl
  | case2 c data hne ih =>
    rw [splitSSEEvent.eq_2 _ _ hne, Option.map_eq_some_iff] at h
    obtain ⟨⟨e', r'⟩, hfound, heq⟩ := h
    obtain ⟨rfl, rfl⟩ := Prod.mk.inj heq
    rw [ih hfound, List.cons_append]
  | case3 => cases h

theorem length_of_splitSSEEvent {t e r : List UInt8} (h : splitSSEEvent t = some (e, r)) :
    r.length < t.length := by
  rw [eq_of_splitSSEEvent h]
  simp only [List.length_append, List.length_cons]
  omega

/-- The inner loop: the events in a buffer, and what remains of it. -/
def drain (buffer : List UInt8) : List (List UInt8) × List UInt8 :=
  match _h : splitSSEEvent buffer with
  | none => ([], buffer)
  | some (event, remaining) => (event :: (drain remaining).1, (drain remaining).2)
termination_by buffer.length
decreasing_by all_goals exact length_of_splitSSEEvent _h

/-- What stands between two reads: the buffer, and the events that have been looked at. -/
structure Reader where
  events : List (List UInt8) := []
  eventBuffer : List UInt8 := []

/-- One read. -/
def Reader.read (r : Reader) (buf : List UInt8) : Reader :=
  let drained := drain (r.eventBuffer ++ buf)
  ⟨r.events ++ drained.1, drained.2⟩

/-- The end of the stream: what is left in the buffer is an event as well. -/
def Reader.finish (r : Reader) : List (List UInt8) :=
  r.events ++ if r.eventBuffer = [] then [] else [r.eventBuffer]

/-- The text of an event that is taken for JSON. -/
def jsonData (event : List UInt8) : List UInt8 := trimSpace (trimData event)

/-- What `json.Unmarshal` and the look at `usage` make of a text.  A record is found in objects
only.  A string of JSON has no line feed, and none of the letters that the name of a field starts
with begins a token, so none follows a line feed in a text that is decoded. -/
structure Decoder (ρ : Type) where
  usage : List UInt8 → Option ρ
  object : ∀ {t r}, usage t = some r → (t.dropWhile (· ∈ blanks)).head? = some (0x7b : UInt8)
  token : ∀ {t r}, usage t = some r → ∀ c ∈ ascii "deir", ¬ [newline, c] <:+: t

/-- `parseAndReportTokens`, for what the decoder finds. -/
def parseAndReportTokens {ρ : Type} (decoder : Decoder ρ) (data : List UInt8) : Option ρ :=
  if data = [] ∨ data = ascii "[DONE]" then none else decoder.usage data

/-- `processStreamResponse`: the records it reports, in order. -/
def processStreamResponse {ρ : Type} (decoder : Decoder ρ) (reads : List (List UInt8)) : List ρ :=
  (reads.foldl Reader.read {}).finish.filterMap fun event =>
    parseAndReportTokens decoder (jsonData event)

/-! ## The grammar -/

/-- The lines of a text, with carriage returns. -/
def lines (t : List UInt8) : List (List UInt8) := t.splitOn newline

/-- A line without the carriage return at its end. -/
def stripCR (line : List UInt8) : List UInt8 :=
  if line.getLast? = some carriageReturn then line.dropLast else line

/-- A blank line. -/
def Blank (line : List UInt8) : Prop := line = [] ∨ line = [carriageReturn]

instance (line : List UInt8) : Decidable (Blank line) := inferInstanceAs (Decidable (_ ∨ _))

/-- A comment. -/
def Comment (line : List UInt8) : Prop := ascii ":" <+: line

instance (line : List UInt8) : Decidable (Comment line) := inferInstanceAs (Decidable (_ <+: _))

/-- The names of the fields. -/
def fieldNames : List (List UInt8) := [ascii "event:", ascii "id:", sseDataPrefix, ascii "retry:"]

/-- A stream consists of blank lines, comments and fields. -/
def WellFormed (lines : List (List UInt8)) : Prop :=
  ∀ line ∈ lines, Blank line ∨ Comment line ∨ ∃ name ∈ fieldNames, name <+: line

instance (lines : List (List UInt8)) : Decidable (WellFormed lines) :=
  inferInstanceAs (Decidable (∀ _ ∈ _, _))

/-- The value of a field: what follows the colon and at most one space. -/
def fieldValue (t : List UInt8) : List UInt8 := stripCR (if t.head? = some 32 then t.drop 1 else t)

/-- What a line adds to the data of its event. -/
def dataOf (line : List UInt8) : List (List UInt8) :=
  if sseDataPrefix <+: line then [fieldValue (line.drop 5)] else []

/-- The data of an event that is over. -/
def flush (data : List (List UInt8)) : List (List UInt8) :=
  if data = [] then [] else [[newline].intercalate data]

/-- The data of the events of a stream, after the data fields of the event under way. -/
def dispatch : List (List UInt8) → List (List UInt8) → List (List UInt8)
  | data, [] => flush data
  | data, line :: lines =>
      if Blank line then flush data ++ dispatch [] lines else dispatch (data ++ dataOf line) lines

section Streams

variable {ρ : Type} (decoder : Decoder ρ)

/-- The records in the data of the events of a stream. -/
def recordsOf (t : List UInt8) : List ρ :=
  (dispatch [] (lines t)).filterMap fun data => parseAndReportTokens decoder (trimSpace data)

/-- However a stream is read, the records that are reported are those in the data of its events. -/
def CountsRight (t : List UInt8) : Prop :=
  ∀ reads : List (List UInt8), reads.flatten = t →
    processStreamResponse decoder reads = recordsOf decoder t

/-- The stretches of a stream between two line feeds in a row. -/
def stretches (t : List UInt8) : List (List UInt8) := (drain t).1 ++ [(drain t).2]

/-- A stretch is one data line, with nothing but blank lines after it. -/
def Plain (b : List UInt8) : Prop :=
  ∃ value rest, lines b = (sseDataPrefix ++ value) :: rest ∧ ∀ line ∈ rest, Blank line

/-- Some lines, each after a line feed. -/
def unlines (ls : List (List UInt8)) : List UInt8 := ls.flatMap (newline :: ·)

/-- A stretch is a data line and comments, and these complete an object with a record that the data
line has begun. -/
def Completed (b : List UInt8) : Prop :=
  ∃ value rest, lines b = (sseDataPrefix ++ value) :: rest ∧
    (∀ line ∈ rest, Blank line ∨ Comment line) ∧
    (∃ line ∈ rest, Comment line) ∧ (decoder.usage (trimSpace (value ++ unlines rest))).isSome

/-! ## Reads -/

theorem drain_none {t : List UInt8} (h : splitSSEEvent t = none) : drain t = ([], t) := by
  rw [drain]
  split
  · rfl
  · next hsome => rw [h] at hsome; cases hsome

theorem drain_some {t e r : List UInt8} (h : splitSSEEvent t = some (e, r)) :
    drain t = (e :: (drain r).1, (drain r).2) := by
  rw [drain]
  split
  · next hnone => rw [h] at hnone; cases hnone
  · next hsome =>
    obtain ⟨rfl, rfl⟩ := Prod.mk.inj (Option.some.inj (h.symm.trans hsome))
    rfl

/-- The first two line feeds stay the first when more is read. -/
theorem splitSSEEvent_append {t e r : List UInt8} (h : splitSSEEvent t = some (e, r))
    (more : List UInt8) :
    splitSSEEvent (t ++ more) = some (e, r ++ more) := by
  induction t using splitSSEEvent.induct generalizing e with
  | case1 remaining =>
    obtain ⟨rfl, rfl⟩ := Prod.mk.inj (Option.some.inj h)
    rfl
  | case2 c data hne ih =>
    rw [splitSSEEvent.eq_2 _ _ hne, Option.map_eq_some_iff] at h
    obtain ⟨⟨e', r'⟩, hfound, heq⟩ := h
    obtain ⟨rfl, rfl⟩ := Prod.mk.inj heq
    have hne' : ∀ remaining, c = 10 → data ++ more = 10 :: remaining → False := by
      intro remaining hc hdata
      cases data with
      | nil => cases hfound
      | cons c' data => exact hne data hc (by rw [(List.cons.inj hdata).1])
    rw [List.cons_append, splitSSEEvent.eq_2 _ _ hne', ih hfound, Option.map_some]
  | case3 => cases h

/-- What is read later is looked at after what is there. -/
theorem drain_append (t more : List UInt8) :
    drain (t ++ more) =
      ((drain t).1 ++ (drain ((drain t).2 ++ more)).1, (drain ((drain t).2 ++ more)).2) := by
  induction hlength : t.length using Nat.strong_induction_on generalizing t with
  | _ n ih =>
    cases hsplit : splitSSEEvent t with
    | none =>
      rw [drain_none hsplit]
      rfl
    | some found =>
      obtain ⟨e, r⟩ := found
      rw [drain_some hsplit, drain_some (splitSSEEvent_append hsplit more),
        ih r.length (hlength ▸ length_of_splitSSEEvent hsplit) r rfl]
      rfl

theorem foldl_read (reads : List (List UInt8)) (t : List UInt8) (r : Reader)
    (hr : drain t = (r.events, r.eventBuffer)) :
    drain (t ++ reads.flatten) =
      ((reads.foldl Reader.read r).events, (reads.foldl Reader.read r).eventBuffer) := by
  induction reads generalizing t r with
  | nil =>
    rw [List.flatten_nil, List.append_nil]
    exact hr
  | cons buf reads ih =>
    rw [List.flatten_cons, ← List.append_assoc, List.foldl_cons]
    refine ih (t ++ buf) (r.read buf) ?_
    rw [drain_append, hr, Reader.read]

/-- How a stream is cut into reads makes no difference: what is looked at are its stretches. -/
theorem processStreamResponse_eq (reads : List (List UInt8)) :
    processStreamResponse decoder reads =
      (stretches reads.flatten).flatMap fun b =>
        (parseAndReportTokens decoder (jsonData b)).toList := by
  have hstart : drain [] = (({} : Reader).events, ({} : Reader).eventBuffer) := drain_none rfl
  have hdrain := foldl_read reads [] {} hstart
  rw [List.nil_append] at hdrain
  rw [← List.filterMap_eq_flatMap_toList, processStreamResponse, Reader.finish, stretches, hdrain,
    List.filterMap_append, List.filterMap_append]
  by_cases hbuffer : (reads.foldl Reader.read {}).eventBuffer = []
  · -- an empty rest is not looked at, and would have no record
    have hnone : parseAndReportTokens decoder (jsonData []) = none := by
      rw [jsonData, trimData, if_neg (by decide), trimSpace_nil, parseAndReportTokens,
        if_pos (.inl rfl)]
    rw [if_pos hbuffer, hbuffer]
    simp [hnone]
  · rw [if_neg hbuffer]

/-! ## Lines -/

variable {b line : List UInt8} {ls data : List (List UInt8)}

theorem blanks_of_blank (h : Blank line) : ∀ c ∈ newline :: line, c ∈ blanks := by
  rcases h with rfl | rfl <;> decide +kernel

theorem blanks_unlines (h : ∀ line ∈ ls, Blank line) : ∀ c ∈ unlines ls, c ∈ blanks := by
  intro c hc
  obtain ⟨line, hline, hc⟩ := List.mem_flatMap.1 hc
  exact blanks_of_blank (h line hline) c hc

theorem exists_head_of_comment (h : Comment line) : ∃ rest, line = 58 :: rest := by
  obtain ⟨rest, rfl⟩ := h
  exact ⟨rest, rfl⟩

theorem exists_head_of_field (h : ∃ name ∈ fieldNames, name <+: line) :
    ∃ c ∈ ascii "deir", ∃ rest, line = c :: rest := by
  obtain ⟨name, hname, rest, rfl⟩ := h
  simp only [fieldNames, List.mem_cons, List.not_mem_nil, or_false] at hname
  rcases hname with rfl | rfl | rfl | rfl <;> exact ⟨_, by decide, _, rfl⟩

theorem lines_append (e r : List UInt8) :
    lines (e ++ newline :: newline :: r) = lines e ++ [] :: lines r := by
  rw [lines, List.splitOn_append_cons_self, List.splitOn_cons_eq_if_modifyHead]
  rfl

/-- The first line of a text that starts with `data:` does so too. -/
theorem lines_data (t : List UInt8) :
    ∃ value ls, lines (sseDataPrefix ++ t) = (sseDataPrefix ++ value) :: ls := by
  cases ht : lines t with
  | nil => exact absurd ht (List.splitOn_ne_nil newline t)
  | cons value ls =>
    refine ⟨value, ls, ?_⟩
    have hname : sseDataPrefix = [100, 97, 116, 97, 58] := rfl
    rw [lines, newline] at ht
    simp [lines, hname, newline, List.splitOn_cons_eq_if_modifyHead, ht]

/-- A text is its first line and the others, each after a line feed. -/
theorem eq_of_lines (h : lines b = line :: ls) : b = line ++ unlines ls := by
  have hb : [newline].intercalate (lines b) = b := List.intercalate_splitOn newline
  rw [h] at hb
  rw [← hb]
  clear hb h
  induction ls generalizing line with
  | nil => simp [unlines]
  | cons l ls ih =>
    rw [List.intercalate_cons_cons, ih, List.append_assoc]
    rfl

/-- What is left of some lines starts like a comment or a field. -/
theorem trimSpace_unlines (h : WellFormed ls) :
    trimSpace (unlines ls) = [] ∨ ∃ c ∈ ascii ":deir", ∃ v, trimSpace (unlines ls) = c :: v := by
  induction ls with
  | nil => exact .inl trimSpace_nil
  | cons l ls ih =>
    obtain ⟨hl, hls⟩ := List.forall_mem_cons.1 h
    have hink : ∀ c ∈ ascii ":deir", Ink c := by decide +kernel
    have hfield : ∀ c ∈ ascii ":deir", ∀ rest, l = c :: rest →
        ∃ v, trimSpace (unlines (l :: ls)) = c :: v := by
      rintro c hc rest rfl
      rw [unlines, List.flatMap_cons, List.cons_append, trimSpace_cons_of_blank (by decide),
        List.cons_append]
      exact exists_trimSpace_cons (hink c hc) _
    rcases hl with hblank | hcomment | hname
    · rw [unlines, List.flatMap_cons]
      rcases hblank with rfl | rfl
      · rw [List.singleton_append, trimSpace_cons_of_blank (by decide)]
        exact ih hls
      · rw [List.cons_append, List.singleton_append, trimSpace_cons_of_blank (by decide),
          trimSpace_cons_of_blank (by decide)]
        exact ih hls
    · obtain ⟨rest, hrest⟩ := exists_head_of_comment hcomment
      exact .inr ⟨58, by decide, hfield 58 (by decide) rest hrest⟩
    · obtain ⟨c, hc, rest, hrest⟩ := exists_head_of_field hname
      have hmem : c ∈ ascii ":deir" := List.mem_cons_of_mem _ hc
      exact .inr ⟨c, hmem, hfield c hmem rest hrest⟩

/-! ## Data -/

theorem trimSpace_stripCR (t : List UInt8) : trimSpace (stripCR t) = trimSpace t := by
  rw [stripCR]
  split_ifs with hlast
  · obtain ⟨u, hu⟩ := List.getLast?_eq_some_iff.1 hlast
    rw [hu, List.dropLast_concat, trimSpace_append_of_blanks (by decide +kernel)]
  · rfl

theorem trimSpace_fieldValue (t : List UInt8) : trimSpace (fieldValue t) = trimSpace t := by
  rw [fieldValue, trimSpace_stripCR]
  split_ifs with hhead
  · obtain ⟨u, rfl⟩ := List.head?_eq_some_iff.1 hhead
    exact (trimSpace_cons_of_blank (by decide) u).symm
  · rfl

theorem dispatch_append (data ls ls' : List (List UInt8)) :
    dispatch data (ls ++ [] :: ls') = dispatch data ls ++ dispatch [] ls' := by
  induction ls generalizing data with
  | nil =>
    rw [List.nil_append, dispatch.eq_2, if_pos (show Blank [] from .inl rfl)]
    rfl
  | cons l ls ih =>
    rw [List.cons_append, dispatch, dispatch, ih, ih]
    split_ifs
    · rw [List.append_assoc]
    · rfl

theorem dispatch_blanks (h : ∀ l ∈ ls, Blank l) : dispatch data ls = flush data := by
  induction ls generalizing data with
  | nil => rfl
  | cons l ls ih =>
    obtain ⟨hl, hls⟩ := List.forall_mem_cons.1 h
    rw [dispatch, if_pos hl, ih hls]
    exact List.append_nil _

/-- The records of a stream are those of its stretches. -/
theorem recordsOf_stretches (t : List UInt8) :
    recordsOf decoder t = (stretches t).flatMap (recordsOf decoder) := by
  induction hlength : t.length using Nat.strong_induction_on generalizing t with
  | _ n ih =>
    cases hsplit : splitSSEEvent t with
    | none => rw [stretches, drain_none hsplit, List.nil_append, List.flatMap_singleton]
    | some found =>
      obtain ⟨e, r⟩ := found
      have hr := ih r.length (hlength ▸ length_of_splitSSEEvent hsplit) r rfl
      rw [stretches, drain_some hsplit, List.cons_append, List.flatMap_cons, ← stretches, ← hr]
      rw [eq_of_splitSSEEvent hsplit, recordsOf, lines_append, dispatch_append,
        List.filterMap_append]
      rfl

theorem mem_lines_of_stretch {t l : List UInt8} (hb : b ∈ stretches t) (hl : l ∈ lines b) :
    l ∈ lines t := by
  induction hlength : t.length using Nat.strong_induction_on generalizing t with
  | _ n ih =>
    cases hsplit : splitSSEEvent t with
    | none =>
      rw [stretches, drain_none hsplit, List.nil_append, List.mem_singleton] at hb
      obtain rfl : b = t := hb
      exact hl
    | some found =>
      obtain ⟨e, r⟩ := found
      rw [stretches, drain_some hsplit, List.cons_append, ← stretches] at hb
      rw [eq_of_splitSSEEvent hsplit, lines_append]
      rcases List.mem_cons.1 hb with rfl | hb
      · exact List.mem_append_left _ hl
      · exact List.mem_append_right _ (List.mem_cons_of_mem _
          (ih r.length (hlength ▸ length_of_splitSSEEvent hsplit) hb rfl))

/-! ## One stretch -/

theorem jsonData_of_lines {value : List UInt8} (h : lines b = (sseDataPrefix ++ value) :: ls) :
    jsonData b = trimSpace (value ++ unlines ls) := by
  have hb := eq_of_lines h
  rw [List.append_assoc] at hb
  rw [jsonData, trimData, hb, if_pos (List.prefix_append _ _)]
  rfl

/-- In a plain stretch the filter finds the record that is there. -/
theorem recordsOf_of_plain (h : Plain b) :
    recordsOf decoder b = (parseAndReportTokens decoder (jsonData b)).toList := by
  obtain ⟨value, rest, hlines, hrest⟩ := h
  have hdispatch : dispatch [] (lines b) = [fieldValue value] := by
    have hnot : ¬ Blank (sseDataPrefix ++ value) := by
      have hname : sseDataPrefix = [100, 97, 116, 97, 58] := rfl
      simp [Blank, hname]
    have hvalue : (sseDataPrefix ++ value).drop 5 = value := rfl
    rw [hlines, dispatch, if_neg hnot, dispatch_blanks hrest, dataOf,
      if_pos (List.prefix_append _ _), hvalue]
    simp [flush]
  rw [recordsOf, hdispatch, jsonData_of_lines hlines,
    trimSpace_append_of_blanks (blanks_unlines hrest),
    List.filterMap_eq_flatMap_toList, List.flatMap_singleton, trimSpace_fieldValue]

variable {decoder}

theorem usage_of_parse {t : List UInt8} {r : ρ} (h : parseAndReportTokens decoder t = some r) :
    t ≠ [] ∧ decoder.usage t = some r := by
  rw [parseAndReportTokens] at h
  split_ifs at h with hskip
  exact ⟨fun hnil => hskip (.inl hnil), h⟩

/-- No object starts like a comment or a field. -/
theorem usage_ne_of_head {c : UInt8} {v : List UInt8} {r : ρ} (hc : c ∈ ascii ":deir") :
    decoder.usage (c :: v) ≠ some r := by
  intro h
  have hbrace : ∀ c ∈ ascii ":deir", Ink c ∧ c ≠ 0x7b := by decide +kernel
  have hobject := decoder.object h
  rw [List.dropWhile_cons_of_neg (by simpa using (hbrace c hc).1.2), List.head?_cons] at hobject
  exact (hbrace c hc).2 (Option.some.inj hobject)

/-- No line of an object is a field. -/
theorem usage_ne_of_field {c : UInt8} {u v : List UInt8} {r : ρ} (hc : c ∈ ascii "deir") :
    decoder.usage (trimSpace (u ++ newline :: c :: v)) ≠ some r := by
  intro h
  have hink : ∀ c ∈ ascii "deir", Ink c := by decide +kernel
  obtain ⟨u', v', hu', heq⟩ := exists_trimSpace_append (hink c hc) (u ++ [newline]) v
  rw [List.append_assoc, List.singleton_append] at heq
  rw [heq] at h
  rcases List.suffix_concat_iff.1 hu' with rfl | ⟨u'', rfl, -⟩
  · exact usage_ne_of_head (List.mem_cons_of_mem _ hc) h
  · exact decoder.token h c hc ⟨u'', v', by simp⟩

/-- Where the filter finds a record, the stretch is plain, or comments complete an object. -/
theorem plain_or_completed (h : WellFormed (lines b)) {r : ρ}
    (hr : parseAndReportTokens decoder (jsonData b) = some r) : Plain b ∨ Completed decoder b := by
  obtain ⟨hne, husage⟩ := usage_of_parse hr
  by_cases hdata : sseDataPrefix <+: b
  · obtain ⟨t, rfl⟩ := hdata
    obtain ⟨value, ls, hlines⟩ := lines_data t
    rw [hlines] at h
    rw [jsonData_of_lines hlines] at husage
    have hrest : ∀ line ∈ ls, Blank line ∨ Comment line := by
      intro line hline
      rcases h line (List.mem_cons_of_mem _ hline) with hblank | hcomment | hfield
      · exact .inl hblank
      · exact .inr hcomment
      · obtain ⟨c, hc, rest, rfl⟩ := exists_head_of_field hfield
        obtain ⟨before, after, rfl⟩ := List.append_of_mem hline
        refine absurd husage ?_
        rw [unlines, List.flatMap_append, List.flatMap_cons, ← List.append_assoc, List.cons_append,
          List.cons_append]
        exact usage_ne_of_field hc
    by_cases hcomment : ∃ line ∈ ls, Comment line
    · exact .inr ⟨value, ls, hlines, hrest, hcomment, by rw [husage]; rfl⟩
    · refine .inl ⟨value, ls, hlines, fun line hline => ?_⟩
      exact (hrest line hline).resolve_right fun hc => hcomment ⟨line, hline, hc⟩
  · -- the text starts like the first line that is not blank
    obtain ⟨line, ls, hlines⟩ := List.exists_cons_of_ne_nil (List.splitOn_ne_nil newline b)
    have htext : jsonData b = trimSpace (unlines (lines b)) := by
      rw [jsonData, trimData, if_neg hdata, show lines b = line :: ls from hlines, unlines,
        List.flatMap_cons,
        List.cons_append, trimSpace_cons_of_blank (by decide), ← unlines, ← eq_of_lines hlines]
    rw [htext] at hne husage
    rcases trimSpace_unlines h with hnil | ⟨c, hc, v, hcons⟩
    · exact absurd hnil hne
    · rw [hcons] at husage
      exact absurd husage (usage_ne_of_head hc)

/-! ## Streams -/

/-- Lists that are put together from pieces, none longer than the other's, are the same only piece
by piece. -/
theorem flatMap_eq_iff {α β : Type*} {f g : α → List β} {l : List α}
    (h : ∀ a ∈ l, (f a).length ≤ (g a).length) :
    l.flatMap f = l.flatMap g ↔ ∀ a ∈ l, f a = g a := by
  refine ⟨fun heq => ?_, fun heq => List.flatMap_congr heq⟩
  induction l with
  | nil => exact fun a ha => nomatch ha
  | cons a l ih =>
    obtain ⟨ha, hl⟩ := List.forall_mem_cons.1 h
    have hrest : (l.flatMap f).length ≤ (l.flatMap g).length := by
      rw [List.length_flatMap, List.length_flatMap]
      exact List.sum_le_sum hl
    rw [List.flatMap_cons, List.flatMap_cons] at heq
    have hlength := congrArg List.length heq
    rw [List.length_append, List.length_append] at hlength
    obtain ⟨hfirst, htail⟩ := List.append_inj heq (by omega)
    exact List.forall_mem_cons.2 ⟨hfirst, ih hl htail⟩

/-- **Streaming token counts.**  A well-formed stream in which no comment completes an object is
counted right exactly if every stretch between two line feeds in a row that has a record is one data
line, with only blank lines after it. -/
theorem countsRight_iff (decoder : Decoder ρ) (t : List UInt8) (hformed : WellFormed (lines t))
    (hcompleted : ∀ b ∈ stretches t, ¬ Completed decoder b) :
    CountsRight decoder t ↔ ∀ b ∈ stretches t, recordsOf decoder b ≠ [] → Plain b := by
  have hplain : ∀ b ∈ stretches t, ∀ r, parseAndReportTokens decoder (jsonData b) = some r →
      Plain b :=
    fun b hb r hr =>
      (plain_or_completed (fun l hl => hformed l (mem_lines_of_stretch hb hl)) hr).resolve_right
      (hcompleted b hb)
  have hright : CountsRight decoder t ↔
      (stretches t).flatMap (fun b => (parseAndReportTokens decoder (jsonData b)).toList) =
        (stretches t).flatMap (recordsOf decoder) := by
    rw [← recordsOf_stretches]
    constructor
    · intro hright
      rw [← hright [t] (List.append_nil t), processStreamResponse_eq, List.flatten_singleton]
    · rintro heq reads rfl
      rw [processStreamResponse_eq, heq]
  rw [hright, flatMap_eq_iff]
  · refine forall₂_congr fun b hb => ⟨fun heq hrecord => ?_, fun hrecord => ?_⟩
    · rw [← heq] at hrecord
      cases hr : parseAndReportTokens decoder (jsonData b) with
      | none => exact absurd (by rw [hr]; rfl) hrecord
      | some r => exact hplain b hb r hr
    · by_cases hnil : recordsOf decoder b = []
      · cases hr : parseAndReportTokens decoder (jsonData b) with
        | none => exact hnil.symm
        | some r =>
          rw [recordsOf_of_plain decoder (hplain b hb r hr), hr] at hnil
          cases hnil
      · exact (recordsOf_of_plain decoder (hrecord hnil)).symm
  · intro b hb
    cases hr : parseAndReportTokens decoder (jsonData b) with
    | none => exact Nat.zero_le _
    | some r => rw [recordsOf_of_plain decoder (hplain b hb r hr), hr]

end Streams

/-- A decoder that knows one object. -/
def known : Decoder Unit where
  usage t := if t = ascii "\x7b\"usage\":\x7b\x7d\x7d" then some () else none
  object := by
    intro t r h
    split_ifs at h with ht
    rw [ht]
    decide +kernel
  token := by
    intro t r h
    split_ifs at h with ht
    rw [ht]
    decide +kernel

/-- An event with a name and no usage, and one with usage. -/
def twoEvents : List UInt8 :=
  ascii "event: delta\ndata: \x7b\"choices\":[]\x7d\n\ndata: \x7b\"usage\":\x7b\x7d\x7d\n\n"

theorem countsRight_iff_twoEvents : CountsRight known twoEvents ∧
    recordsOf known twoEvents = [()] := by
  have hstretches : stretches twoEvents =
      [ascii "event: delta\ndata: \x7b\"choices\":[]\x7d", ascii "data: \x7b\"usage\":\x7b\x7d\x7d",
        []] := by
    decide +kernel
  have hcomment : ∀ b ∈ stretches twoEvents, ∀ line ∈ lines b, ¬ Comment line := by decide +kernel
  refine ⟨(countsRight_iff known twoEvents (by decide +kernel) ?_).2 ?_, by decide +kernel⟩
  · rintro b hb ⟨value, rest, hlines, -, ⟨line, hline, hstart⟩, -⟩
    exact hcomment b hb line (by rw [hlines]; exact List.mem_cons_of_mem _ hline) hstart
  · rw [hstretches]
    intro b hb hrecord
    simp only [List.mem_cons, List.not_mem_nil, or_false] at hb
    rcases hb with rfl | rfl | rfl
    · exact absurd (by decide +kernel) hrecord
    · refine ⟨ascii " \x7b\"usage\":\x7b\x7d\x7d", [], by decide +kernel, ?_⟩
      intro line hline
      cases hline
    · exact absurd (by decide +kernel) hrecord

/-- Two events whose lines end with a carriage return and a line feed. -/
def carriageReturns : List UInt8 :=
  ascii "data: \x7b\"usage\":\x7b\x7d\x7d\r\n\r\ndata: [DONE]\r\n\r\n"

/-- Without two line feeds in a row the whole stream is taken for one event. -/
theorem carriageReturns_lost :
    WellFormed (lines carriageReturns) ∧ recordsOf known carriageReturns = [()] ∧
      processStreamResponse known [carriageReturns] = [] := by
  decide +kernel

end Pixiu.Llm.EventStream
