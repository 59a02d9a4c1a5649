import Pixiu.Mcp.SessionManager

/-!
# Delivering tools/list_changed

A session counts the changes of its visible tools and remembers up to which one the client has been
told.  A flush loop of `notification.go` reads the latest version, writes a notification to the
attached stream and acknowledges the version it has read, each in a critical section of its own;
`session_manager.go` takes the stream in one section, writes to its pipe outside of it, and replaces
or removes streams in others, closing their pipes later.

`Step` has one constructor per critical section, so a list of steps is an interleaving of any number
of changes, flush loops and stream replacements.  `toolsListChanged_delivery`: a version counts as
notified only when a notification was written after it had been created, to the stream attached
then; and a latest version that nobody has acknowledged is reported as pending.

The counters are 64 bits wide and only count up, so they are numbers here.
-/

namespace Pixiu.Mcp

/-- The number of a stream of one session. -/
abbrev StreamToken := ℕ

/-- A session, as far as its stream and the changes of its tool list are concerned. -/
structure StreamSession where
  closed : Bool := false
  toolListChangeVersion : ℕ := 0
  lastNotifiedToolListVersion : ℕ := 0
  streamSeq : StreamToken := 0
  stream : Option StreamToken := none
  deriving DecidableEq, Repr

namespace StreamSession

/-- `MarkToolsListChangedPending`. -/
def markToolsListChangedPending (s : StreamSession) : StreamSession × ℕ :=
  if s.closed then (s, 0)
  else
    let version := s.toolListChangeVersion + 1
    ({ s with toolListChangeVersion := version }, version)

/-- `PendingToolsListChangedVersion`. -/
def pendingToolsListChangedVersion (s : StreamSession) : Option ℕ :=
  if s.toolListChangeVersion ≤ s.lastNotifiedToolListVersion then
    none else some s.toolListChangeVersion

/-- `MarkToolsListChangedNotified`. -/
def markToolsListChangedNotified (s : StreamSession) (version : ℕ) : StreamSession :=
  if s.lastNotifiedToolListVersion < version then
    { s with lastNotifiedToolListVersion := version } else s

/-- The critical section of `AttachStream`: the session, the new token and the stream it has
replaced. -/
def attachStream (s : StreamSession) :
    Except SessionError (StreamSession × StreamToken × Option StreamToken) :=
  if s.closed then .error .managerStopped
  else
    let token := s.streamSeq + 1
    .ok ({ s with streamSeq := token, stream := some token }, token, s.stream)

/-- The critical section of `DetachStream`: the session and the stream it has removed. -/
def detachStream (s : StreamSession) (token : StreamToken) : StreamSession × Option StreamToken :=
  if s.stream = some token then ({ s with stream := none }, s.stream) else (s, none)

/-- The critical section of `close`, which is entered once. -/
def close (s : StreamSession) : StreamSession × Option StreamToken :=
  if s.closed then (s, none) else ({ s with closed := true, stream := none }, s.stream)

/-- `HasPipeWriter`. -/
def hasPipeWriter (s : StreamSession) : Bool := s.stream.isSome

end StreamSession

/-- Where a run of `flushToolsListChangedNotification` stands, and what it has read. -/
inductive Flush where
  /-- before `PendingToolsListChangedVersion` -/
  | reading
  /-- before the loop's `HasPipeWriter` -/
  | checking (version : ℕ)
  /-- before the `HasPipeWriter` of `SendSSEMessage` -/
  | sending (version : ℕ)
  /-- before `WriteSSEData` takes the stream -/
  | taking (version : ℕ)
  /-- before the write to the pipe of the stream taken -/
  | writing (version : ℕ) (stream : StreamToken)
  /-- before `MarkToolsListChangedNotified` -/
  | acknowledging (version : ℕ)
  | returned (err : Option String)
  deriving DecidableEq, Repr

/-- A session with the pipes that are closed, the streams whose pipes are about to be closed by the
calls that removed them, and the flush loops. -/
structure Delivery where
  session : StreamSession := {}
  closing : List StreamToken := []
  closedPipes : List StreamToken := []
  flushes : List Flush := []
  deriving DecidableEq, Repr

/-- A call, or the next section of one. -/
inductive DeliveryStep where
  | markToolsListChangedPending
  | flushToolsListChangedNotification
  /-- the next section of a flush loop; `failure` is the error of a write that the reader does not
  take -/
  | advance (flush : ℕ) (failure : Option String)
  | attachStream
  | detachStream (token : StreamToken)
  | close
  | closeStream (token : StreamToken)
  deriving DecidableEq, Repr

namespace Delivery

/-- Where a flush loop stands after its next section. -/
def next (d : Delivery) (failure : Option String) : Flush → Flush
  | .reading =>
      match d.session.pendingToolsListChangedVersion with
      | none => .returned none
      | some version => .checking version
  | .checking version => if d.session.hasPipeWriter then .sending version else .returned none
  | .sending version =>
      if d.session.hasPipeWriter then
        .taking version else .returned (some "SSE pipe not established")
  | .taking version =>
      match d.session.stream with
      | none => .returned (some "failed to write to SSE pipe: SSE pipe not established")
      | some stream => .writing version stream
  | .writing version stream =>
      if stream ∈ d.closedPipes then
        .returned (some "failed to write to SSE pipe: io: read/write on closed pipe")
      else
        match failure with
        | none => .acknowledging version
        | some err => .returned (some ("failed to write to SSE pipe: " ++ err))
  | .acknowledging _ => .reading
  | .returned err => .returned err

/-- What the next section of a flush loop does to the session. -/
def acknowledge (s : StreamSession) : Flush → StreamSession
  | .acknowledging version => s.markToolsListChangedNotified version
  | _ => s

/-- A session in which a call has removed a stream and is about to close its pipe. -/
def removed (d : Delivery) (r : StreamSession × Option StreamToken) : Delivery :=
  { d with session := r.1, closing := r.2.toList ++ d.closing }

/-- One step. -/
def step (d : Delivery) : DeliveryStep → Delivery
  | .markToolsListChangedPending => { d with session := d.session.markToolsListChangedPending.1 }
  | .flushToolsListChangedNotification => { d with flushes := d.flushes ++ [.reading] }
  | .advance i failure =>
      match d.flushes[i]? with
      | none => d
      | some flush =>
          { d with session := acknowledge d.session flush,
                   flushes := d.flushes.set i (d.next failure flush) }
  | .attachStream =>
      match d.session.attachStream with
      | .error _ => d
      | .ok (session, _, old) => d.removed (session, old)
  | .detachStream token => d.removed (d.session.detachStream token)
  | .close => d.removed d.session.close
  | .closeStream token =>
      if token ∈ d.closing then
        { d with closing := d.closing.erase token, closedPipes := token :: d.closedPipes }
      else d

/-- A new session after some steps. -/
def run (steps : List DeliveryStep) : Delivery := steps.foldl step {}

@[simp] theorem run_concat (steps : List DeliveryStep) (next : DeliveryStep) :
    run (steps ++ [next]) = (run steps).step next := by
  simp [run]

/-! ## What has happened in a run -/

/-- A change has created the version. -/
def Created (steps : List DeliveryStep) (version : ℕ) : Prop :=
  ∃ before, before ++ [.markToolsListChangedPending] <+: steps ∧
    (run before).session.markToolsListChangedPending.2 = version

/-- After the version was created, a flush loop that sends `sent` has taken the attached stream. -/
def Taken (steps : List DeliveryStep) (version i sent : ℕ) (token : StreamToken) : Prop :=
  ∃ before failure, before ++ [.advance i failure] <+: steps ∧ Created before version ∧
    (run before).flushes[i]? = some (.taking sent) ∧ (run before).session.stream = some token

/-- After the version was created, a flush loop has taken the attached stream and its write to that
stream has succeeded, while the stream was attached or the call removing it had not closed its pipe
yet. -/
def Delivered (steps : List DeliveryStep) (version : ℕ) : Prop :=
  ∃ before i sent token, before ++ [.advance i none] <+: steps ∧ Taken before version i sent token ∧
    (run before).flushes[i]? = some (.writing sent token) ∧ token ∉ (run before).closedPipes ∧
    ((run before).session.stream = some token ∨ token ∈ (run before).closing)

/-- A flush loop has acknowledged the version. -/
def Acknowledged (steps : List DeliveryStep) (version : ℕ) : Prop :=
  ∃ before i failure, before ++ [.advance i failure] <+: steps ∧
    (run before).flushes[i]? = some (.acknowledging version)

variable {steps later : List DeliveryStep} {version i sent : ℕ} {token : StreamToken}

theorem Created.mono (h : Created steps version) (hlater : steps <+: later) :
    Created later version := by
  obtain ⟨before, hbefore, hversion⟩ := h
  exact ⟨before, hbefore.trans hlater, hversion⟩

theorem Taken.mono (h : Taken steps version i sent token) (hlater : steps <+: later) :
    Taken later version i sent token := by
  obtain ⟨before, failure, hbefore, htaken⟩ := h
  exact ⟨before, failure, hbefore.trans hlater, htaken⟩

theorem Delivered.mono (h : Delivered steps version) (hlater : steps <+: later) :
    Delivered later version := by
  obtain ⟨before, i, sent, token, hbefore, hdelivered⟩ := h
  exact ⟨before, i, sent, token, hbefore.trans hlater, hdelivered⟩

theorem Acknowledged.mono (h : Acknowledged steps version) (hlater : steps <+: later) :
    Acknowledged later version := by
  obtain ⟨before, i, failure, hbefore, hacknowledged⟩ := h
  exact ⟨before, i, failure, hbefore.trans hlater, hacknowledged⟩

/-! ## What a step can do -/

variable {d d' : Delivery}

/-- The stream is attached, or the call that removed it has closed its pipe or is about to. -/
def Known (d : Delivery) (token : StreamToken) : Prop :=
  d.session.stream = some token ∨ token ∈ d.closing ∨ token ∈ d.closedPipes

/-- What no step of a session or its flush loops undoes. -/
structure Later (d d' : Delivery) : Prop where
  version_le : d.session.toolListChangeVersion ≤ d'.session.toolListChangeVersion
  known : ∀ token, d.Known token → d'.Known token

theorem acknowledge_fields (s : StreamSession) (flush : Flush) :
    (acknowledge s flush).toolListChangeVersion = s.toolListChangeVersion ∧
      (acknowledge s flush).stream = s.stream := by
  unfold acknowledge StreamSession.markToolsListChangedNotified
  split
  · split <;> exact ⟨rfl, rfl⟩
  · exact ⟨rfl, rfl⟩

theorem later_of_fields
    (hversion : d.session.toolListChangeVersion ≤ d'.session.toolListChangeVersion)
    (hstream : d'.session.stream = d.session.stream) (hclosing : d'.closing = d.closing)
    (hclosed : d'.closedPipes = d.closedPipes) : Later d d' := by
  refine ⟨hversion, fun token h => ?_⟩
  unfold Known
  rw [hstream, hclosing, hclosed]
  exact h

theorem later_removed {r : StreamSession × Option StreamToken}
    (hversion : r.1.toolListChangeVersion = d.session.toolListChangeVersion)
    (hstream : r.1.stream = d.session.stream ∨ r.2 = d.session.stream) : Later d (d.removed r) := by
  refine ⟨hversion.ge, fun token h => ?_⟩
  rcases h with hattached | hclosing | hclosed
  · rcases hstream with hkept | hremoved
    · exact .inl (hkept.trans hattached)
    · refine .inr (.inl (List.mem_append_left _ ?_))
      rw [hremoved, hattached]
      exact List.mem_singleton_self token
  · exact .inr (.inl (List.mem_append_right _ hclosing))
  · exact .inr (.inr hclosed)

theorem later_step (d : Delivery) (st : DeliveryStep) : Later d (d.step st) := by
  cases st with
  | markToolsListChangedPending =>
    by_cases hclosed : d.session.closed
    · exact later_of_fields (by simp [step, StreamSession.markToolsListChangedPending, hclosed])
        (by simp [step, StreamSession.markToolsListChangedPending, hclosed]) rfl rfl
    · exact later_of_fields (by simp [step, StreamSession.markToolsListChangedPending, hclosed])
        (by simp [step, StreamSession.markToolsListChangedPending, hclosed]) rfl rfl
  | flushToolsListChangedNotification => exact later_of_fields le_rfl rfl rfl rfl
  | advance i failure =>
    cases hflush : d.flushes[i]? with
    | none =>
      simp only [step, hflush]
      exact later_of_fields le_rfl rfl rfl rfl
    | some flush =>
      simp only [step, hflush]
      obtain ⟨hversion, hstream⟩ := acknowledge_fields d.session flush
      exact later_of_fields hversion.ge hstream rfl rfl
  | attachStream =>
    by_cases hclosed : d.session.closed
    · simp only [step, StreamSession.attachStream, hclosed, if_true]
      exact later_of_fields le_rfl rfl rfl rfl
    · simp only [step, StreamSession.attachStream, hclosed]
      exact later_removed rfl (.inr rfl)
  | detachStream token =>
    by_cases htoken : d.session.stream = some token
    · simp only [step, StreamSession.detachStream, htoken, if_true]
      exact later_removed rfl (.inr htoken.symm)
    · simp only [step, StreamSession.detachStream, htoken, if_false]
      exact later_removed rfl (.inl rfl)
  | close =>
    by_cases hclosed : d.session.closed
    · simp only [step, StreamSession.close, hclosed, if_true]
      exact later_removed rfl (.inl rfl)
    · simp only [step, StreamSession.close, hclosed]
      exact later_removed rfl (.inr rfl)
  | closeStream token =>
    by_cases hmem : token ∈ d.closing
    · simp only [step, hmem, if_true]
      refine ⟨le_rfl, fun other h => ?_⟩
      rcases h with hattached | hclosing | hclosed
      · exact .inl hattached
      · by_cases heq : other = token
        · exact .inr (.inr (heq ▸ List.mem_cons_self))
        · exact .inr (.inl ((List.mem_erase_of_ne heq).2 hclosing))
      · exact .inr (.inr (List.mem_cons_of_mem _ hclosed))
    · simp only [step, hmem, if_false]
      exact later_of_fields le_rfl rfl rfl rfl

/-! ## What holds in every run -/

/-- What a flush loop knows about the version that it has read. -/
def Sound (steps : List DeliveryStep) (i : ℕ) : Flush → Prop
  | .reading | .returned _ => True
  | .checking sent | .sending sent | .taking sent =>
    sent ≤ (run steps).session.toolListChangeVersion
  | .writing sent token =>
      sent ≤ (run steps).session.toolListChangeVersion ∧ (run steps).Known token ∧
        ∀ version, 0 < version → version ≤ sent → Taken steps version i sent token
  | .acknowledging sent =>
      sent ≤ (run steps).session.toolListChangeVersion ∧
        ∀ version, 0 < version → version ≤ sent → Delivered steps version

/-- What holds after every run. -/
structure Inv (steps : List DeliveryStep) : Prop where
  created : ∀ version, 0 < version → version ≤ (run steps).session.toolListChangeVersion →
    Created steps version
  sound : ∀ i flush, (run steps).flushes[i]? = some flush → Sound steps i flush
  delivered : ∀ version, 0 < version → version ≤ (run steps).session.lastNotifiedToolListVersion →
    Delivered steps version
  notified_le : (run steps).session.lastNotifiedToolListVersion ≤
    (run steps).session.toolListChangeVersion
  acknowledged : (run steps).session.lastNotifiedToolListVersion = 0 ∨
    Acknowledged steps (run steps).session.lastNotifiedToolListVersion

/-- What a flush loop knows stays true while others take steps. -/
theorem Sound.concat {flush : Flush} (h : Sound steps i flush) (st : DeliveryStep) :
    Sound (steps ++ [st]) i flush := by
  have hlater : Later (run steps) (run (steps ++ [st])) := by
    rw [run_concat]
    exact later_step _ _
  have hsteps : steps <+: steps ++ [st] := List.prefix_append _ _
  cases flush with
  | reading => trivial
  | returned err => trivial
  | checking sent => exact le_trans h hlater.version_le
  | sending sent => exact le_trans h hlater.version_le
  | taking sent => exact le_trans h hlater.version_le
  | writing sent token =>
    obtain ⟨hle, hknown, htaken⟩ := h
    exact ⟨hle.trans hlater.version_le, hlater.known token hknown,
      fun version hpos hversion => (htaken version hpos hversion).mono hsteps⟩
  | acknowledging sent =>
    obtain ⟨hle, hdelivered⟩ := h
    exact ⟨hle.trans hlater.version_le, fun version hpos hversion =>
      (hdelivered version hpos hversion).mono hsteps⟩

/-- The next section of a flush loop knows what the one after it needs. -/
theorem Inv.sound_next (h : Inv steps) {flush : Flush}
    (hflush : (run steps).flushes[i]? = some flush)
    (failure : Option String) :
    Sound (steps ++ [.advance i failure]) i ((run steps).next failure flush) := by
  have hlater : Later (run steps) (run (steps ++ [.advance i failure])) := by
    rw [run_concat]
    exact later_step _ _
  have hsound := h.sound i flush hflush
  cases flush with
  | reading =>
    by_cases hle : (run steps).session.toolListChangeVersion ≤
      (run steps).session.lastNotifiedToolListVersion
    · simp only [next, StreamSession.pendingToolsListChangedVersion, hle, if_true]; trivial
    · simp only [next, StreamSession.pendingToolsListChangedVersion, hle, if_false]
      exact hlater.version_le
  | checking sent =>
    cases hwriter : (run steps).session.hasPipeWriter with
    | false => simp only [next, hwriter]; trivial
    | true =>
      simp only [next, hwriter, if_true]
      exact le_trans hsound hlater.version_le
  | sending sent =>
    cases hwriter : (run steps).session.hasPipeWriter with
    | false => simp only [next, hwriter]; trivial
    | true =>
      simp only [next, hwriter, if_true]
      exact le_trans hsound hlater.version_le
  | taking sent =>
    cases hstream : (run steps).session.stream with
    | none => simp only [next, hstream]; trivial
    | some token =>
      simp only [next, hstream]
      refine ⟨le_trans hsound hlater.version_le, hlater.known token (.inl hstream),
        fun version hpos hversion => ?_⟩
      exact ⟨steps, failure, List.prefix_rfl, h.created version hpos (hversion.trans hsound),
        hflush, hstream⟩
  | writing sent token =>
    obtain ⟨hle, hknown, htaken⟩ := hsound
    by_cases hclosed : token ∈ (run steps).closedPipes
    · simp only [next, hclosed, if_true]; trivial
    cases failure with
    | some err => simp only [next, hclosed, if_false]; trivial
    | none =>
      simp only [next, hclosed, if_false]
      refine ⟨hle.trans hlater.version_le, fun version hpos hversion => ?_⟩
      -- the pipe is still open, so the call that removes the stream has not closed it
      have hopen : (run steps).session.stream = some token ∨ token ∈ (run steps).closing :=
        hknown.imp_right fun hremoved => hremoved.resolve_right hclosed
      exact ⟨steps, i, sent, token, List.prefix_rfl, htaken version hpos hversion, hflush, hclosed,
        hopen⟩
  | acknowledging sent => trivial
  | returned err => trivial

/-- What a step has to keep: new versions are created by it, and flush loops that it moves and a
version that it records know what they need. -/
theorem Inv.concat (h : Inv steps) {st : DeliveryStep} (hrun : (run steps).step st = d)
    (hcreated : ∀ version, (run steps).session.toolListChangeVersion < version →
      version ≤ d.session.toolListChangeVersion → Created (steps ++ [st]) version)
    (hflushes : ∀ i flush, d.flushes[i]? = some flush →
      (run steps).flushes[i]? = some flush ∨ Sound (steps ++ [st]) i flush)
    (hnotified :
    d.session.lastNotifiedToolListVersion = (run steps).session.lastNotifiedToolListVersion ∨
      Sound steps i (.acknowledging d.session.lastNotifiedToolListVersion) ∧
        Acknowledged (steps ++ [st]) d.session.lastNotifiedToolListVersion) :
    Inv (steps ++ [st]) := by
  obtain rfl := hrun
  have hsteps : steps <+: steps ++ [st] := List.prefix_append _ _
  have hversion := (later_step (run steps) st).version_le
  constructor
  · intro version hpos hle
    rw [run_concat] at hle
    rcases le_or_gt version (run steps).session.toolListChangeVersion with hold | hnew
    · exact (h.created version hpos hold).mono hsteps
    · exact hcreated version hnew hle
  · intro i flush hflush
    rw [run_concat] at hflush
    rcases hflushes i flush hflush with hold | hmoved
    · exact (h.sound i flush hold).concat st
    · exact hmoved
  · intro version hpos hle
    rw [run_concat] at hle
    rcases hnotified with hold | ⟨⟨_, hdelivered⟩, _⟩
    · exact (h.delivered version hpos (hold ▸ hle)).mono hsteps
    · exact (hdelivered version hpos hle).mono hsteps
  · rw [run_concat]
    rcases hnotified with hold | ⟨⟨hle, _⟩, _⟩
    · exact hold ▸ h.notified_le.trans hversion
    · exact hle.trans hversion
  · rw [run_concat]
    rcases hnotified with hold | ⟨_, hacknowledged⟩
    · rw [hold]
      exact h.acknowledged.imp_right fun hacknowledged => hacknowledged.mono hsteps
    · exact .inr hacknowledged

/-- Steps that leave the counters and the flush loops as they are. -/
theorem Inv.concat_of_eq (h : Inv steps) {st : DeliveryStep} (hrun : (run steps).step st = d)
    (hversion : d.session.toolListChangeVersion = (run steps).session.toolListChangeVersion)
    (hnotified :
    d.session.lastNotifiedToolListVersion = (run steps).session.lastNotifiedToolListVersion)
    (hflushes : d.flushes = (run steps).flushes) : Inv (steps ++ [st]) :=
  h.concat (i := 0) hrun (fun _ hlt hle => absurd (hversion ▸ hle) hlt.not_ge)
    (fun _ _ hflush => .inl (hflushes ▸ hflush)) (.inl hnotified)

theorem Inv.concat_mark (h : Inv steps) : Inv (steps ++ [.markToolsListChangedPending]) := by
  by_cases hclosed : (run steps).session.closed
  · refine h.concat_of_eq rfl ?_ ?_ rfl <;>
      simp [step, StreamSession.markToolsListChangedPending, hclosed]
  have hmark : (run steps).session.markToolsListChangedPending =
      ({ (run steps).session with
        toolListChangeVersion := (run steps).session.toolListChangeVersion + 1 },
        (run steps).session.toolListChangeVersion + 1) := by
    simp [StreamSession.markToolsListChangedPending, hclosed]
  have hrun : (run steps).step .markToolsListChangedPending =
      { run steps with session := (run steps).session.markToolsListChangedPending.1 } := rfl
  rw [hmark] at hrun
  refine h.concat (i := 0) hrun (fun version hlt hle => ?_) (fun i flush hflush => .inl hflush)
    (.inl rfl)
  have hversion : version = (run steps).session.toolListChangeVersion + 1 := le_antisymm hle hlt
  exact ⟨steps, List.prefix_rfl, by rw [hmark, hversion]⟩

theorem Inv.concat_flush (h : Inv steps) : Inv (steps ++ [.flushToolsListChangedNotification]) := by
  refine h.concat (i := 0) rfl (fun version hlt hle => absurd hle hlt.not_ge)
    (fun i flush hflush => ?_) (.inl rfl)
  rcases lt_or_ge i (run steps).flushes.length with hlt | hge
  · exact .inl (List.getElem?_append_left hlt ▸ hflush)
  · simp only [step] at hflush
    rw [List.getElem?_append_right hge] at hflush
    obtain rfl := List.mem_singleton.1 (List.mem_of_getElem? hflush)
    exact .inr trivial

theorem Inv.concat_advance (h : Inv steps) (i : ℕ) (failure : Option String) :
    Inv (steps ++ [.advance i failure]) := by
  cases hflush : (run steps).flushes[i]? with
  | none => exact h.concat_of_eq (d := run steps) (by simp only [step, hflush]) rfl rfl rfl
  | some flush =>
    have hrun : (run steps).step (.advance i failure) =
        { run steps with
          session := acknowledge (run steps).session flush
          flushes := (run steps).flushes.set i ((run steps).next failure flush) } := by
      simp only [step, hflush]
    refine h.concat (i := i) hrun (fun version hlt hle => ?_) (fun j other hother => ?_) ?_
    · rw [(acknowledge_fields _ flush).1] at hle
      exact absurd hle hlt.not_ge
    · by_cases hij : i = j
      · subst hij
        rw [List.getElem?_set_self (List.getElem?_eq_some_iff.1 hflush).1] at hother
        obtain rfl := Option.some.inj hother
        exact .inr (h.sound_next hflush failure)
      · rw [List.getElem?_set_ne hij] at hother
        exact .inl hother
    · cases flush with
      | acknowledging sent =>
        by_cases hnew : (run steps).session.lastNotifiedToolListVersion < sent
        · simp only [acknowledge, StreamSession.markToolsListChangedNotified, hnew, if_true]
          exact .inr ⟨h.sound i _ hflush, steps, i, failure, List.prefix_rfl, hflush⟩
        · left
          simp only [acknowledge, StreamSession.markToolsListChangedNotified, hnew, if_false]
      | _ => exact .inl rfl

theorem inv_concat (h : Inv steps) (st : DeliveryStep) : Inv (steps ++ [st]) := by
  cases st with
  | markToolsListChangedPending => exact h.concat_mark
  | flushToolsListChangedNotification => exact h.concat_flush
  | advance i failure => exact h.concat_advance i failure
  | attachStream =>
    by_cases hclosed : (run steps).session.closed
    · exact h.concat_of_eq (d := run steps) (by simp [step, StreamSession.attachStream, hclosed])
        rfl rfl rfl
    · refine h.concat_of_eq rfl ?_ ?_ ?_ <;>
        simp [step, StreamSession.attachStream, removed, hclosed]
  | detachStream token =>
    refine h.concat_of_eq rfl ?_ ?_ rfl <;>
      · simp only [step, StreamSession.detachStream, removed]
        split <;> rfl
  | close =>
    refine h.concat_of_eq rfl ?_ ?_ rfl <;>
      · simp only [step, StreamSession.close, removed]
        split <;> rfl
  | closeStream token =>
    refine h.concat_of_eq rfl ?_ ?_ ?_ <;>
      · simp only [step]
        split <;> rfl

theorem inv_run (steps : List DeliveryStep) : Inv steps := by
  induction steps using List.reverseRecOn with
  | nil =>
    refine ⟨fun version hpos hle => ?_, fun i flush hflush => ?_, fun version hpos hle => ?_,
      le_rfl, .inl rfl⟩
    · exact absurd hle hpos.not_ge
    · exact absurd hflush nofun
    · exact absurd hle hpos.not_ge
  | append_singleton steps st ih => exact inv_concat ih st

/-- **Changes of the tool list are delivered.**  Whatever the changes, flush loops, replacements of
the stream and failing writes do to one session, a version counts as notified only after a
notification was written, after the version had been created, to the stream attached then; and a
latest version that no flush loop has acknowledged is pending. -/
theorem toolsListChanged_delivery (steps : List DeliveryStep) :
    (∀ version, 0 < version → version ≤ (run steps).session.lastNotifiedToolListVersion →
      Delivered steps version) ∧
      ((run steps).session.toolListChangeVersion ≠ 0 →
        ¬ Acknowledged steps (run steps).session.toolListChangeVersion →
        (run steps).session.pendingToolsListChangedVersion =
          some (run steps).session.toolListChangeVersion) := by
  have h := inv_run steps
  refine ⟨h.delivered, fun hversion hnot => ?_⟩
  have hlt : (run steps).session.lastNotifiedToolListVersion <
      (run steps).session.toolListChangeVersion := by
    refine lt_of_le_of_ne h.notified_le fun heq => ?_
    rcases h.acknowledged with hzero | hacknowledged
    · exact hversion (heq ▸ hzero)
    · exact hnot (heq ▸ hacknowledged)
  unfold StreamSession.pendingToolsListChangedVersion
  rw [if_neg hlt.not_ge]

/-- One change is flushed to an attached stream; a second one comes while the first is being
written. -/
def sampleSteps : List DeliveryStep :=
  [.attachStream, .markToolsListChangedPending, .flushToolsListChangedNotification, .advance 0 none,
    .advance 0 none,
    .advance 0 none, .advance 0 none, .markToolsListChangedPending, .advance 0 none,
      .advance 0 none]

theorem toolsListChanged_delivery_sampleSteps :
    Delivered sampleSteps 1 ∧ (run sampleSteps).session.pendingToolsListChangedVersion =
      some 2 := by
  refine ⟨(toolsListChanged_delivery sampleSteps).1 1 (by decide) (by decide), ?_⟩
  refine (toolsListChanged_delivery sampleSteps).2 (by decide) fun hacknowledged => ?_
  obtain ⟨before, i, failure, hbefore, hflush⟩ := hacknowledged
  have hnone : ∀ before ∈ sampleSteps.inits, .acknowledging 2 ∉ (run before).flushes := by decide
  exact hnone before ((List.mem_inits ..).2 ((List.prefix_append ..).trans hbefore))
    (List.mem_of_getElem? hflush)

end Delivery

end Pixiu.Mcp
