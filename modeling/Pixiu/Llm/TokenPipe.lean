import Pixiu.Base.System
import Mathlib.Data.List.Infix

/-!
# Token accounting and the client

`Filter.Encode` of `pkg/filter/llm/tokenizer/tokenizer.go` lets the client read a stream through a
`teeReadCloser`, which writes what it has read to a pipe before it returns it.  A goroutine reads
the other end of the pipe, decompresses it and counts tokens (`processStreamResponse`).  A write to
the pipe returns when all of it has been read, or when the reading end is closed; but the goroutine
never closes that end, since `Close` of a decompressing reader closes no more than the reader.

The two processes are a step relation on a shared state.  Decompression is outside of the model: a
`Decoder` says after which bytes it has come to its end or to an error.

* `neverBlocks_iff`: the client is never left waiting, and gets all bytes, exactly if the decoder
  does not stop before the last byte.
-/

namespace Pixiu.Llm.TokenPipe

/-- A reader on the pipe: how much it asks for at a time, and whether it stops, at an end or an
error, after the bytes it has read and, possibly, the end of the pipe. -/
structure Decoder where
  bufferSize : ℕ
  bufferSize_pos : 0 < bufferSize
  stops : List UInt8 → Bool → Bool

/-- `StreamBufferSIze`. -/
def streamBufferSize : ℕ := 4096

/-- `getDecompressedReader`; `io.NopCloser` stops at the end of the pipe. -/
def getDecompressedReader (gzip deflate : Decoder) (encoding : String) : Decoder :=
  if encoding = "gzip" then gzip
  else if encoding = "deflate" then deflate
  else ⟨streamBufferSize, by decide, fun _ eof => eof⟩

/-- The client, the pipe and the goroutine. -/
structure State where
  /-- What the client has not read from upstream. -/
  remaining : List UInt8
  /-- What its calls of `Read` have returned. -/
  delivered : List UInt8 := []
  /-- What the call of `Read` under way has read, if there is one. -/
  chunk : List UInt8 := []
  /-- What of that is still to be written to the pipe. -/
  rest : List UInt8 := []
  /-- What the goroutine has read from the pipe. -/
  consumed : List UInt8 := []
  closed : Bool := false
  eof : Bool := false
  returned : Bool := false
  deriving DecidableEq

/-- One step of the client or of the goroutine. -/
inductive Step (d : Decoder) (s : State) : State → Prop
  /-- `Read` gets some bytes from upstream and starts to write them. -/
  | read (n : ℕ) (hidle : s.chunk = []) (hopen : s.closed = false) (hn : 0 < n)
      (hle : n ≤ s.remaining.length) :
      Step d s
        { s with remaining := s.remaining.drop n, chunk := s.remaining.take n,
                 rest := s.remaining.take n }
  /-- The goroutine reads from the pipe what is being written. -/
  | transfer (hrest : s.rest ≠ []) (hrunning : s.returned = false)
      (hstops : d.stops s.consumed false = false) :
      Step d s
        { s with consumed := s.consumed ++ s.rest.take d.bufferSize,
                 rest := s.rest.drop d.bufferSize }
  /-- The write returns, and so does `Read`. -/
  | written (hchunk : s.chunk ≠ []) (hrest : s.rest = []) :
      Step d s { s with delivered := s.delivered ++ s.chunk, chunk := [] }
  /-- The client closes the stream, and with it the writing end. -/
  | close (hidle : s.chunk = []) : Step d s { s with closed := true }
  /-- The goroutine comes to the end of the pipe. -/
  | eof (hclosed : s.closed = true) (hrunning : s.returned = false)
      (hstops : d.stops s.consumed false = false) :
      Step d s { s with eof := true }
  /-- The goroutine returns. -/
  | finish (hrunning : s.returned = false) (hstops : d.stops s.consumed s.eof = true) :
      Step d s { s with returned := true }

/-- The states that can be reached when a stream starts. -/
def Reachable (d : Decoder) (upstream : List UInt8) (s : State) : Prop :=
  Relation.ReflTransGen (Step d) { remaining := upstream } s

/-- The goroutine has returned while a `Read` waits for the reader of the pipe. -/
def Blocked (s : State) : Prop := s.returned = true ∧ s.rest ≠ []

/-- No client is ever blocked, and from every state a client that has not closed its stream can come
to have exactly the bytes of upstream. -/
structure NeverBlocks (d : Decoder) (upstream : List UInt8) : Prop where
  not_blocked : ∀ s, Reachable d upstream s → ¬ Blocked s
  receives : ∀ s, Reachable d upstream s → s.closed = false →
    ∃ s', Relation.ReflTransGen (Step d) s s' ∧ s'.delivered = upstream

/-- The decoder does not stop before it has seen the last byte. -/
def ReadsAll (d : Decoder) (upstream : List UInt8) : Prop :=
  ∀ c, c <+: upstream → c ≠ upstream → d.stops c false = false

/-! ## Invariants -/

/-- What all steps keep. -/
structure Kept (d : Decoder) (upstream : List UInt8) (s : State) : Prop where
  written : s.consumed ++ (s.rest ++ s.remaining) = upstream
  read : s.delivered ++ (s.chunk ++ s.remaining) = upstream
  rest_of_chunk : s.chunk = [] → s.rest = []
  closed : s.closed = true → s.chunk = []
  eof : s.eof = true → s.closed = true
  returned : s.returned = true → d.stops s.consumed s.eof = true

variable {d : Decoder} {upstream : List UInt8} {s s' : State}

theorem Kept.step (h : Kept d upstream s) (hstep : Step d s s') : Kept d upstream s' := by
  cases hstep with
  | read n hidle hopen hn hle =>
    have hrest : s.rest = [] := h.rest_of_chunk hidle
    refine ⟨?_, ?_, fun hchunk => hchunk, fun hclosed => ?_, h.eof, h.returned⟩
    · simpa [hrest] using h.written
    · simpa [hidle] using h.read
    · rw [hopen] at hclosed
      cases hclosed
  | transfer hrest hrunning hstops =>
    refine ⟨?_, h.read, fun hchunk => ?_, h.closed, h.eof, fun hreturned => ?_⟩
    · rw [List.append_assoc, ← List.append_assoc (s.rest.take _), List.take_append_drop]
      exact h.written
    · exact absurd (h.rest_of_chunk hchunk) hrest
    · rw [hrunning] at hreturned
      cases hreturned
  | written hchunk hrest =>
    refine ⟨h.written, ?_, fun _ => hrest, fun _ => rfl, h.eof, h.returned⟩
    rw [List.nil_append, List.append_assoc]
    exact h.read
  | close hidle =>
    exact ⟨h.written, h.read, h.rest_of_chunk, fun _ => hidle, fun _ => rfl, h.returned⟩
  | eof hclosed hrunning hstops =>
    refine ⟨h.written, h.read, h.rest_of_chunk, h.closed, fun _ => hclosed, fun hreturned => ?_⟩
    rw [hrunning] at hreturned
    cases hreturned
  | finish hrunning hstops =>
    exact ⟨h.written, h.read, h.rest_of_chunk, h.closed, h.eof, fun _ => hstops⟩

theorem Reachable.kept (h : Reachable d upstream s) : Kept d upstream s :=
  System.invariant_run h ⟨rfl, rfl, fun _ => rfl, fun _ => rfl, fun h => h, fun h => nomatch h⟩
    fun _ _ h hstep => h.step hstep

/-- While something is left to write, the goroutine has not seen all bytes. -/
theorem Kept.stops_eq (h : Kept d upstream s) (hall : ReadsAll d upstream) (hrest : s.rest ≠ []) :
    d.stops s.consumed false = false := by
  refine hall s.consumed ⟨_, h.written⟩ fun heq => hrest ?_
  have hwritten := h.written
  rw [heq] at hwritten
  exact (List.append_eq_nil_iff.1
    (List.append_cancel_left (hwritten.trans (List.append_nil upstream).symm))).1

theorem Kept.not_blocked (h : Kept d upstream s) (hall : ReadsAll d upstream) : ¬ Blocked s := by
  rintro ⟨hreturned, hrest⟩
  have hstops := h.returned hreturned
  have heof : s.eof = false := by
    -- at the end of the pipe nothing is left to write
    by_contra heof
    exact hrest (h.rest_of_chunk (h.closed (h.eof (by simpa using heof))))
  rw [heof, h.stops_eq hall hrest] at hstops
  cases hstops

/-! ## The client gets everything -/

/-- A write that is under way can be finished. -/
theorem exists_drained (hall : ReadsAll d upstream) (h : Kept d upstream s) :
    ∃ s', Relation.ReflTransGen (Step d) s s' ∧ Kept d upstream s' ∧ s'.rest = [] ∧
      s'.chunk = s.chunk ∧
      s'.delivered = s.delivered ∧ s'.remaining = s.remaining ∧ s'.closed = s.closed := by
  induction hlength : s.rest.length using Nat.strong_induction_on generalizing s with
  | _ n ih =>
    by_cases hrest : s.rest = []
    · exact ⟨s, .refl, h, hrest, rfl, rfl, rfl, rfl⟩
    have hrunning : s.returned = false := by
      by_contra hreturned
      exact h.not_blocked hall ⟨by simpa using hreturned, hrest⟩
    have hstep := Step.transfer (d := d) hrest hrunning (h.stops_eq hall hrest)
    have hless : (s.rest.drop d.bufferSize).length < n := by
      have hpos := List.length_pos_iff.2 hrest
      have hbuffer := d.bufferSize_pos
      rw [List.length_drop]
      omega
    obtain ⟨s', hrun, hkept, hdone, hchunk, hdelivered, hremaining, hclosed⟩ :=
      ih _ hless (h.step hstep) rfl
    exact ⟨s', .head hstep hrun, hkept, hdone, hchunk, hdelivered, hremaining, hclosed⟩

/-- The call of `Read` under way, if there is one, can return. -/
theorem exists_idle (hall : ReadsAll d upstream) (h : Kept d upstream s) :
    ∃ s', Relation.ReflTransGen (Step d) s s' ∧ Kept d upstream s' ∧ s'.chunk = [] ∧
      s'.remaining = s.remaining ∧ s'.closed = s.closed := by
  obtain ⟨s₁, hrun, hkept, hrest, hchunk, -, hremaining, hclosed⟩ := exists_drained hall h
  by_cases hidle : s₁.chunk = []
  · exact ⟨s₁, hrun, hkept, hidle, hremaining, hclosed⟩
  · have hstep := Step.written (d := d) hidle hrest
    exact ⟨_, hrun.tail hstep, hkept.step hstep, rfl, hremaining, hclosed⟩

theorem exists_received (hall : ReadsAll d upstream) (h : Kept d upstream s)
    (hopen : s.closed = false) :
    ∃ s', Relation.ReflTransGen (Step d) s s' ∧ s'.delivered = upstream := by
  obtain ⟨s₁, hrun₁, hkept₁, hidle₁, -, hclosed₁⟩ := exists_idle hall h
  by_cases hremaining : s₁.remaining = []
  · have hread := hkept₁.read
    rw [hidle₁, hremaining, List.append_nil, List.append_nil] at hread
    exact ⟨s₁, hrun₁, hread⟩
  · -- one more `Read` gets all the rest
    have hstep := Step.read (d := d) s₁.remaining.length hidle₁ (hclosed₁.trans hopen)
      (List.length_pos_iff.2 hremaining) (Nat.le_refl _)
    obtain ⟨s₂, hrun₂, hkept₂, hidle₂, hremaining₂, -⟩ := exists_idle hall (hkept₁.step hstep)
    have hread := hkept₂.read
    rw [hidle₂, hremaining₂, List.drop_length, List.append_nil, List.append_nil] at hread
    exact ⟨s₂, (hrun₁.tail hstep).trans hrun₂, hread⟩

/-! ## A client that is blocked -/

/-- The client has read and the goroutine has consumed some bytes, and both go on. -/
def between (c remaining : List UInt8) : State := { remaining, delivered := c, consumed := c }

/-- One byte through the pipe. -/
theorem pass_byte {c remaining : List UInt8} {b : UInt8} (hstops : d.stops c false = false) :
    Relation.ReflTransGen (Step d) (between c (b :: remaining)) (between (c ++ [b]) remaining) := by
  have hread := Step.read (d := d) (s := between c (b :: remaining)) 1 rfl rfl Nat.one_pos
    (Nat.succ_le_succ (Nat.zero_le _))
  refine .head hread (.head (Step.transfer (List.cons_ne_nil b []) rfl hstops) ?_)
  have htake : [b].take d.bufferSize = [b] := List.take_of_length_le d.bufferSize_pos
  have hdrop : [b].drop d.bufferSize = [] := List.drop_of_length_le d.bufferSize_pos
  have hwritten :=
    Step.written (d := d) (s := { between (c ++ [b]) remaining with delivered := c, chunk := [b] })
    (List.cons_ne_nil b []) rfl
  refine .head ?_ .refl
  simpa [between, htake, hdrop] using hwritten

/-- Where the decoder stops, the next byte has no reader. -/
theorem blocked_at_stop {c remaining : List UInt8} {b : UInt8} (hstops : d.stops c false = true)
    (hreach : Reachable d upstream (between c (b :: remaining))) : ∃ s, Reachable d upstream s ∧
      Blocked s := by
  have hfinish := Step.finish (d := d) (s := between c (b :: remaining)) rfl hstops
  have hread :=
    Step.read (d := d) (s := { between c (b :: remaining) with returned := true }) 1 rfl rfl
      Nat.one_pos
    (Nat.succ_le_succ (Nat.zero_le _))
  exact ⟨_, (hreach.tail hfinish).tail hread, rfl, List.cons_ne_nil b []⟩

/-- A decoder that stops early leaves the client waiting. -/
theorem exists_blocked (c : List UInt8) (b : UInt8) (rest : List UInt8)
    (hc : c ++ b :: rest = upstream)
    (hstops : d.stops c false = true) : ∃ s, Reachable d upstream s ∧ Blocked s := by
  -- up to the first place where the decoder stops, bytes go through one by one
  have key : ∀ done todo : List UInt8, done ++ todo = c →
      Reachable d upstream (between done (todo ++ b :: rest)) →
      ∃ s, Reachable d upstream s ∧ Blocked s := by
    intro done todo
    induction todo generalizing done with
    | nil =>
      intro hdone hreach
      rw [List.append_nil] at hdone
      exact blocked_at_stop (hdone ▸ hstops) hreach
    | cons a todo ih =>
      intro hdone hreach
      cases hstop : d.stops done false with
      | false =>
        have hsplit : done ++ [a] ++ todo = c :=
          by rw [List.append_assoc, List.singleton_append, hdone]
        exact ih (done ++ [a]) hsplit (hreach.trans (pass_byte hstop))
      | true => exact blocked_at_stop hstop hreach
  exact key [] c rfl (hc ▸ .refl)

/-- **Token accounting and the client.**  For every encoding, whatever its decoder does, no client
is ever blocked and each can get all bytes exactly if the decoder reads on to the last byte. -/
theorem neverBlocks_iff (gzip deflate : Decoder) (encoding : String) (upstream : List UInt8) :
    NeverBlocks (getDecompressedReader gzip deflate encoding) upstream ↔
      ReadsAll (getDecompressedReader gzip deflate encoding) upstream := by
  constructor
  · intro h c hc hne
    obtain ⟨rest, rfl⟩ := hc
    by_contra hstops
    cases rest with
    | nil => exact hne (List.append_nil c).symm
    | cons b rest =>
      obtain ⟨s, hreach, hblocked⟩ := exists_blocked c b rest rfl (by simpa using hstops)
      exact h.not_blocked s hreach hblocked
  · intro hall
    exact ⟨fun s hreach => hreach.kept.not_blocked hall, fun s hreach hopen =>
      exists_received hall hreach.kept hopen⟩

/-- A decoder for `gzip` that looks at the ten bytes of a header first, and gives up if they do not
start with the two of the format. -/
def headerFirst : Decoder where
  bufferSize := 4096
  bufferSize_pos := by decide
  stops c eof := eof || (10 ≤ c.length && c.take 2 ≠ [31, 139])

/-- Eleven bytes that are not compressed, although the response says so. -/
theorem blocked_by_plain_body :
    ∃ s, Reachable (getDecompressedReader headerFirst headerFirst "gzip")
      (List.replicate 11 123) s ∧ Blocked s :=
  exists_blocked (List.replicate 10 123) 123 [] rfl rfl

end Pixiu.Llm.TokenPipe
