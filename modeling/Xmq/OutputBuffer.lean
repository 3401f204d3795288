import Xmq.BufferedWriter
import Xmq.Frames
import Xmq.Runs

/-!
# The output buffer of a client

Responses, errors and heartbeats are flushed as they are sent; messages wait in the buffer, so that a
busy channel is written in large pieces. The reader of the commands and the message pump both write,
each frame under the write lock, and `IDENTIFY` puts new writers in the place of the old one without a
flush. Nothing is lost or out of order for all that, and a message does not wait forever: where the
pump goes to sleep with something in the buffer, it listens to the flush ticker.

* A layer over the connection hands on what it takes. The buffer of the deflate writer, which `Flush`
  empties after this one, is left out.
* Whether the client is ready for messages is open; so is the order of all that happens.
-/

namespace Xmq.Output

open BigEndian BufferedWriter Runs

/-! ### The connection and the two that write to it -/

/-- Where the pump is: `flusherChan` and the message channels are nil, or it listens to them. -/
inductive PumpPC where
  | top
  | blocked (flusherChan listening : Bool)
  | exited
  deriving DecidableEq

/-- `stateInit` is the state of the client before `SUB`, `ioLoop` says that commands are read, `sent`
has the frames that `Send` was called with. -/
structure State where
  writer : Writer UInt8
  outputBufferSize : ℕ
  stateInit : Bool
  ioLoop : Bool
  subEventChan : Bool
  subChannel : Bool
  flushed : Bool
  pc : PumpPC
  sent : List (Int32 × List UInt8)

def defaultBufferSize : ℕ := 16 * 1024

def init : State where
  writer := newWriterSize defaultBufferSize [] 0
  outputBufferSize := defaultBufferSize
  stateInit := true
  ioLoop := true
  subEventChan := false
  subChannel := false
  flushed := true
  pc := .top
  sent := []

/-- The three writes of `SendFramedResponse`. -/
def sendFramedResponse (answer : Answers) (frameType : Int32) (data : List UInt8)
    (w : Writer UInt8) : Writer UInt8 :=
  let w := w.write answer (toBytes 4 (UInt32.ofNat data.length + 4).toNat)
  if w.err ≠ none then w
  else
    let w := w.write answer (toBytes 4 frameType.toUInt32.toNat)
    if w.err ≠ none then w else w.write answer data

namespace State

/-- `Send`; its error is the writer's. -/
def send (answer : Answers) (s : State) (frameType : Int32) (data : List UInt8) : State :=
  let w := sendFramedResponse answer frameType data s.writer
  { s with
    writer := if w.err = none ∧ frameType ≠ frameTypeMessage then w.flush answer else w
    sent := s.sent ++ [(frameType, data)] }

/-- A new writer over a layer; what is in the old one is not looked at. -/
def upgrade (s : State) : State :=
  { s with writer := newWriterSize s.outputBufferSize s.writer.written s.writer.calls }

/-- `SetOutputBuffer`, with the size it has settled on. -/
def setOutputBuffer (answer : Answers) (s : State) (size : ℕ) : State :=
  let w := s.writer.flush answer
  if w.err ≠ none then { s with writer := w, outputBufferSize := size }
  else
    { s with writer := newWriterSize size w.written w.calls, outputBufferSize := size }

/-- The head of the pump's loop. -/
def top (answer : Answers) (s : State) (ready : Bool) : State :=
  if s.subChannel = false ∨ ready = false then
    let w := s.writer.flush answer
    if w.err ≠ none then { s with writer := w, pc := .exited }
    else { s with writer := w, flushed := true, pc := .blocked false false }
  else if s.flushed then { s with pc := .blocked false true }
  else { s with pc := .blocked true true }

/-- `case <-flusherChan`. -/
def tick (answer : Answers) (s : State) : State :=
  let w := s.writer.flush answer
  if w.err ≠ none then { s with writer := w, pc := .exited }
  else { s with writer := w, flushed := true, pc := .top }

def heartbeatBytes : List UInt8 := [95, 104, 101, 97, 114, 116, 98, 101, 97, 116, 95]

def heartbeat (answer : Answers) (s : State) : State :=
  let s := s.send answer frameTypeResponse heartbeatBytes
  { s with pc := if s.writer.err ≠ none then .exited else .top }

/-- The two message cases; a message that is sampled out or cannot be decoded is passed over. -/
def message (answer : Answers) (s : State) (m : Message) (skip : Bool) : State :=
  if skip then { s with pc := .top }
  else
    let s := s.send answer frameTypeMessage m.writeTo
    if s.writer.err ≠ none then { s with pc := .exited } else { s with flushed := false, pc := .top }

end State

inductive Act where
  /-- The loop that reads commands answers one: a response or an error. -/
  | respond (frameType : Int32) (data : List UInt8)
  /-- Parts of `IDENTIFY`. -/
  | setOutputBuffer (size : ℕ)
  | upgrade
  | sub
  | closeExitChan
  | top (ready : Bool)
  | tick
  | readyState
  | subEvent
  | identifyEvent
  | heartbeat
  | message (m : Message) (skip : Bool)
  | exit

/-- `none` where the act is not possible. -/
def step (answer : Answers) (s : State) : Act → Option State
  | .respond frameType data =>
    if s.ioLoop ∧ frameType ≠ frameTypeMessage then some (s.send answer frameType data) else none
  | .setOutputBuffer size =>
    if s.ioLoop ∧ s.stateInit then some (s.setOutputBuffer answer size) else none
  | .upgrade => if s.ioLoop ∧ s.stateInit then some s.upgrade else none
  | .sub =>
    if s.ioLoop ∧ s.stateInit then some { s with stateInit := false, subEventChan := true } else none
  | .closeExitChan => if s.ioLoop then some { s with ioLoop := false } else none
  | .top ready =>
    match s.pc with
    | .top => some (s.top answer ready)
    | _ => none
  | .tick =>
    match s.pc with
    | .blocked true _ => some (s.tick answer)
    | _ => none
  | .readyState =>
    match s.pc with
    | .blocked _ _ => some { s with pc := .top }
    | _ => none
  | .subEvent =>
    match s.pc, s.subEventChan with
    | .blocked _ _, true => some { s with pc := .top, subEventChan := false, subChannel := true }
    | _, _ => none
  | .identifyEvent =>
    match s.pc with
    | .blocked _ _ => some { s with pc := .top }
    | _ => none
  | .heartbeat =>
    match s.pc with
    | .blocked _ _ => some (s.heartbeat answer)
    | _ => none
  | .message m skip =>
    match s.pc with
    | .blocked _ true => some (s.message answer m skip)
    | _ => none
  | .exit =>
    match s.pc, s.ioLoop with
    | .blocked _ _, false => some { s with pc := .exited }
    | _, _ => none

/-! ### The invariant -/

/-- Everything sent so far is on its way, and what may still be in the buffer is messages. -/
structure Streamed (answer : Answers) (w : Writer UInt8) (sent : List (Int32 × List UInt8)) : Prop where
  stream : w.Healthy answer → w.err = none ∧ w.stream = frameStream sent
  tail : ∃ older tail, sent = older ++ tail ∧ (∀ f ∈ tail, f.1 = frameTypeMessage) ∧
    (w.Healthy answer → frameStream older <+: w.written)

/-- **The invariant.** `flushed` is true only when nothing waits. -/
structure Inv (answer : Answers) (s : State) : Prop where
  streamed : Streamed answer s.writer s.sent
  calm : s.flushed = true → s.writer.err = none → s.writer.buf = []
  early : s.stateInit = true → s.subChannel = false ∧ s.subEventChan = false
  unsubscribed : s.subChannel = false → s.flushed = true
  asleep : ∀ flusherChan listening, s.pc = .blocked flusherChan listening →
    (flusherChan = false → s.flushed = true) ∧ (listening = true → s.subChannel = true)

variable {answer : Answers} {s s' : State} {w w' : Writer UInt8} {sent : List (Int32 × List UInt8)}
variable {frameType : Int32} {data : List UInt8}

theorem frameStream_append (l l' : List (Int32 × List UInt8)) :
    frameStream (l ++ l') = frameStream l ++ frameStream l' := List.flatMap_append

/-- The three writes give the writer one frame. -/
theorem sendFramedResponse_goes (answer : Answers) (frameType : Int32) (data : List UInt8)
    (w : Writer UInt8) :
    Writer.Goes answer (frameStream [(frameType, data)]) w
      (sendFramedResponse answer frameType data w) := by
  have hframe : frameStream [(frameType, data)] =
      toBytes 4 (UInt32.ofNat data.length + 4).toNat ++
        (toBytes 4 frameType.toUInt32.toNat ++ data) := by
    rw [frameStream, List.flatMap_cons, List.flatMap_nil, List.append_nil, Xmq.sendFramedResponse,
      List.append_assoc]
  rw [hframe, sendFramedResponse]
  obtain ⟨w₁, hw₁⟩ : ∃ w₁, w₁ = w.write answer (toBytes 4 (UInt32.ofNat data.length + 4).toNat) :=
    ⟨_, rfl⟩
  have h₁ := Writer.write_goes answer (toBytes 4 (UInt32.ofNat data.length + 4).toNat) w
  rw [← hw₁] at h₁ ⊢
  refine h₁.trans ?_
  show Writer.Goes answer _ w₁ (if w₁.err ≠ none then w₁ else _)
  split
  · rename_i herr
    obtain ⟨err, herr⟩ := Option.ne_none_iff_exists'.mp herr
    exact Writer.goes_of_err herr
  · obtain ⟨w₂, hw₂⟩ : ∃ w₂, w₂ = w₁.write answer (toBytes 4 frameType.toUInt32.toNat) := ⟨_, rfl⟩
    have h₂ := Writer.write_goes answer (toBytes 4 frameType.toUInt32.toNat) w₁
    rw [← hw₂] at h₂ ⊢
    refine h₂.trans ?_
    show Writer.Goes answer _ w₂ (if w₂.err ≠ none then w₂ else _)
    split
    · rename_i herr
      obtain ⟨err, herr⟩ := Option.ne_none_iff_exists'.mp herr
      exact Writer.goes_of_err herr
    · exact Writer.write_goes answer data w₂

/-! ### What the parts of a step do -/

/-- A writer that goes on without being given anything. -/
theorem Streamed.goes (h : Streamed answer w sent) (hw : Writer.Goes answer [] w w') :
    Streamed answer w' sent where
  stream hh := by
    obtain ⟨herr, hs⟩ := h.stream (hh.mono hw.calls)
    obtain ⟨herr', hs'⟩ := hw.sound hh herr
    exact ⟨herr', by rw [hs', List.append_nil, hs]⟩
  tail := by
    obtain ⟨older, tail, hsent, htail, hpre⟩ := h.tail
    exact ⟨older, tail, hsent, htail, fun hh => (hpre (hh.mono hw.calls)).trans hw.written⟩

/-- A frame that is flushed as it is sent: nothing waits after it. -/
theorem Streamed.flushed (h : Streamed answer w sent)
    (hw : Writer.Goes answer (frameStream [(frameType, data)]) w w')
    (hbuf : w'.err = none → w'.buf = []) : Streamed answer w' (sent ++ [(frameType, data)]) := by
  have hstream : w'.Healthy answer →
      w'.err = none ∧ w'.stream = frameStream (sent ++ [(frameType, data)]) := by
    intro hh
    obtain ⟨herr, hs⟩ := h.stream (hh.mono hw.calls)
    obtain ⟨herr', hs'⟩ := hw.sound hh herr
    exact ⟨herr', by rw [hs', hs, frameStream_append]⟩
  refine ⟨hstream, sent ++ [(frameType, data)], [], (List.append_nil _).symm,
    fun f hf => (by cases hf), fun hh => ?_⟩
  obtain ⟨herr, hs⟩ := hstream hh
  rw [Writer.stream, hbuf herr, List.append_nil] at hs
  rewrite [← hs]
  exact List.prefix_rfl

/-- A message frame may wait. -/
theorem Streamed.message (h : Streamed answer w sent)
    (hw : Writer.Goes answer (frameStream [(frameTypeMessage, data)]) w w') :
    Streamed answer w' (sent ++ [(frameTypeMessage, data)]) where
  stream hh := by
    obtain ⟨herr, hs⟩ := h.stream (hh.mono hw.calls)
    obtain ⟨herr', hs'⟩ := hw.sound hh herr
    exact ⟨herr', by rw [hs', hs, frameStream_append]⟩
  tail := by
    obtain ⟨older, tail, hsent, htail, hpre⟩ := h.tail
    refine ⟨older, tail ++ [(frameTypeMessage, data)], ?_, fun f hf => ?_,
      fun hh => (hpre (hh.mono hw.calls)).trans hw.written⟩
    · rw [hsent, List.append_assoc]
    · rcases List.mem_append.mp hf with hf | hf
      · exact htail f hf
      · rw [List.mem_singleton.mp hf]

/-- An empty writer is replaced, and nothing is lost. -/
theorem Streamed.replace (h : Streamed answer w sent) (size : ℕ) (hbuf : w.err = none → w.buf = []) :
    Streamed answer (newWriterSize size w.written w.calls) sent where
  stream hh := by
    obtain ⟨herr, hs⟩ := h.stream hh
    rw [Writer.stream, hbuf herr] at hs
    exact ⟨rfl, hs⟩
  tail := h.tail

/-- `Send` of anything but a message. -/
theorem Streamed.send (h : Streamed answer s.writer s.sent) (ht : frameType ≠ frameTypeMessage)
    (data : List UInt8) :
    ∃ w, s.send answer frameType data =
        { s with writer := w, sent := s.sent ++ [(frameType, data)] } ∧
      Streamed answer w (s.sent ++ [(frameType, data)]) ∧ (w.err = none → w.buf = []) := by
  obtain ⟨w₁, hw₁⟩ : ∃ w₁, w₁ = sendFramedResponse answer frameType data s.writer := ⟨_, rfl⟩
  obtain ⟨w, hw⟩ : ∃ w, w = if w₁.err = none ∧ frameType ≠ frameTypeMessage then w₁.flush answer
    else w₁ := ⟨_, rfl⟩
  have hgoes : Writer.Goes answer (frameStream [(frameType, data)]) s.writer w := by
    have h₁ := sendFramedResponse_goes answer frameType data s.writer
    rw [← hw₁] at h₁
    rw [hw]
    split
    · have h₂ := h₁.trans (Writer.flush_goes answer w₁)
      rwa [List.append_nil] at h₂
    · exact h₁
  have hbuf : w.err = none → w.buf = [] := by
    intro herr
    rw [hw] at herr ⊢
    split at herr
    · rename_i hcond
      rw [if_pos hcond]
      exact Writer.flush_buf herr
    · rename_i hcond
      exact absurd ⟨herr, ht⟩ hcond
  exact ⟨w, by rw [State.send, ← hw₁, ← hw], h.flushed hgoes hbuf, hbuf⟩

theorem Streamed.sendMessage (h : Streamed answer s.writer s.sent) (m : Message) :
    ∃ w, s.send answer frameTypeMessage m.writeTo =
        { s with writer := w, sent := s.sent ++ [(frameTypeMessage, m.writeTo)] } ∧
      Streamed answer w (s.sent ++ [(frameTypeMessage, m.writeTo)]) := by
  refine ⟨sendFramedResponse answer frameTypeMessage m.writeTo s.writer, ?_,
    h.message (sendFramedResponse_goes answer frameTypeMessage m.writeTo s.writer)⟩
  rw [State.send]
  simp only [ne_eq, not_true_eq_false, and_false, if_false]

theorem init_inv (answer : Answers) : Inv answer init where
  streamed := ⟨fun _ => ⟨rfl, rfl⟩, [], [], rfl, fun f hf => (by cases hf), fun _ => List.prefix_rfl⟩
  calm _ _ := rfl
  early _ := ⟨rfl, rfl⟩
  unsubscribed _ := rfl
  asleep flusherChan listening h := by cases h

/-- A response, an error or a heartbeat, wherever the pump is then. -/
theorem Inv.send (h : Inv answer s) (ht : frameType ≠ frameTypeMessage) :
    Inv answer (s.send answer frameType data) := by
  obtain ⟨w, hsend, hstream, hbuf⟩ := h.streamed.send ht data
  rw [hsend]
  exact ⟨hstream, fun _ => hbuf, h.early, h.unsubscribed, h.asleep⟩

/-- The pump is at its head again, or has exited. -/
theorem Inv.awake (h : Inv answer s) {pc : PumpPC} (hpc : pc = .top ∨ pc = .exited) :
    Inv answer { s with pc := pc } := by
  refine ⟨h.streamed, h.calm, h.early, h.unsubscribed, fun flusherChan listening hb => ?_⟩
  have hb : pc = .blocked flusherChan listening := hb
  rcases hpc with rfl | rfl
  · cases hb
  · cases hb

theorem Inv.flush (h : Inv answer s) {pc : PumpPC} (herr : (s.writer.flush answer).err = none)
    (hpc : ∀ flusherChan listening, pc = .blocked flusherChan listening → listening = false) :
    Inv answer { s with writer := s.writer.flush answer, flushed := true, pc := pc } where
  streamed := h.streamed.goes (Writer.flush_goes answer _)
  calm _ _ := Writer.flush_buf herr
  early := h.early
  unsubscribed _ := rfl
  asleep flusherChan listening hb := by
    refine ⟨fun _ => rfl, fun hl => ?_⟩
    rw [hpc flusherChan listening hb] at hl
    cases hl

theorem Inv.failed (h : Inv answer s) (herr : (s.writer.flush answer).err ≠ none) :
    Inv answer { s with writer := s.writer.flush answer, pc := .exited } where
  streamed := h.streamed.goes (Writer.flush_goes answer _)
  calm _ hnone := absurd hnone herr
  early := h.early
  unsubscribed := h.unsubscribed
  asleep flusherChan listening hb := by cases hb

theorem Inv.top (h : Inv answer s) (ready : Bool) : Inv answer (s.top answer ready) := by
  unfold State.top
  split
  · simp only
    split
    · rename_i herr
      exact h.failed herr
    · rename_i herr
      exact h.flush (not_not.mp herr) fun flusherChan listening hb => by cases hb; rfl
  · rename_i hready
    have hsub : s.subChannel = true := by
      cases hs : s.subChannel with
      | false => exact absurd (Or.inl hs) hready
      | true => rfl
    split
    · rename_i hflushed
      refine ⟨h.streamed, h.calm, h.early, h.unsubscribed, fun flusherChan listening hb => ?_⟩
      exact ⟨fun _ => hflushed, fun _ => hsub⟩
    · refine ⟨h.streamed, h.calm, h.early, h.unsubscribed, fun flusherChan listening hb => ?_⟩
      cases hb
      exact ⟨fun hf => (by cases hf), fun _ => hsub⟩

theorem Inv.tick (h : Inv answer s) : Inv answer (s.tick answer) := by
  unfold State.tick
  simp only
  split
  · rename_i herr
    exact h.failed herr
  · rename_i herr
    exact h.flush (not_not.mp herr) fun flusherChan listening hb => by cases hb

theorem Inv.message (h : Inv answer s) {flusherChan : Bool} (hpc : s.pc = .blocked flusherChan true)
    (m : Message) (skip : Bool) : Inv answer (s.message answer m skip) := by
  unfold State.message
  split
  · exact h.awake (.inl rfl)
  · obtain ⟨w, hsend, hstream⟩ := h.streamed.sendMessage m
    have hsub := (h.asleep _ _ hpc).2 rfl
    simp only [hsend]
    split
    · rename_i herr
      exact ⟨hstream, fun _ hnone => absurd hnone herr, h.early, h.unsubscribed,
        fun _ _ hb => (by cases hb)⟩
    · refine ⟨hstream, fun hf => (by cases hf), h.early, fun hs => ?_, fun _ _ hb => (by cases hb)⟩
      rw [hsub] at hs
      cases hs

theorem Inv.setOutputBuffer (h : Inv answer s) (size : ℕ) :
    Inv answer (s.setOutputBuffer answer size) := by
  have hgoes := h.streamed.goes (Writer.flush_goes answer s.writer)
  unfold State.setOutputBuffer
  simp only
  split
  · rename_i herr
    exact ⟨hgoes, fun _ hnone => absurd hnone herr, h.early, h.unsubscribed, h.asleep⟩
  · exact ⟨hgoes.replace size Writer.flush_buf, fun _ _ => rfl, h.early, h.unsubscribed, h.asleep⟩

/-- Before `SUB` nothing waits, so that a writer can be replaced without a flush. -/
theorem Inv.upgrade (h : Inv answer s) (hinit : s.stateInit = true) : Inv answer s.upgrade where
  streamed := h.streamed.replace s.outputBufferSize (h.calm (h.unsubscribed (h.early hinit).1))
  calm _ _ := rfl
  early := h.early
  unsubscribed := h.unsubscribed
  asleep := h.asleep

/-- **The step.** -/
theorem step_inv {a : Act} (h : Inv answer s) (hs : step answer s a = some s') : Inv answer s' := by
  cases a with
  | respond frameType data =>
      obtain ⟨hcond, hs⟩ := Option.ite_none_right_eq_some.mp hs
      cases hs
      exact h.send hcond.2
  | setOutputBuffer size =>
      obtain ⟨-, hs⟩ := Option.ite_none_right_eq_some.mp hs
      cases hs
      exact h.setOutputBuffer size
  | upgrade =>
      obtain ⟨hcond, hs⟩ := Option.ite_none_right_eq_some.mp hs
      cases hs
      exact h.upgrade hcond.2
  | sub =>
      obtain ⟨hcond, hs⟩ := Option.ite_none_right_eq_some.mp hs
      cases hs
      exact ⟨h.streamed, h.calm, fun hi => (by cases hi), h.unsubscribed, h.asleep⟩
  | closeExitChan =>
      obtain ⟨-, hs⟩ := Option.ite_none_right_eq_some.mp hs
      cases hs
      exact ⟨h.streamed, h.calm, h.early, h.unsubscribed, h.asleep⟩
  | top ready =>
      simp only [step] at hs
      split at hs
      · cases hs
        exact h.top ready
      · cases hs
  | tick =>
      simp only [step] at hs
      split at hs
      · cases hs
        exact h.tick
      · cases hs
  | readyState =>
      simp only [step] at hs
      split at hs
      · cases hs
        exact h.awake (.inl rfl)
      · cases hs
  | subEvent =>
      simp only [step] at hs
      split at hs
      · rename_i hevent
        cases hs
        refine ⟨h.streamed, h.calm, fun hi => ?_, fun hsub => (by cases hsub),
          fun _ _ hb => (by cases hb)⟩
        rw [(h.early hi).2] at hevent
        cases hevent
      · cases hs
  | identifyEvent =>
      simp only [step] at hs
      split at hs
      · cases hs
        exact h.awake (.inl rfl)
      · cases hs
  | heartbeat =>
      simp only [step] at hs
      split at hs
      · cases hs
        refine (h.send (by decide)).awake ?_
        split
        · exact .inr rfl
        · exact .inl rfl
      · cases hs
  | message m skip =>
      simp only [step] at hs
      split at hs
      · rename_i hpc
        cases hs
        exact h.message hpc m skip
      · cases hs
  | exit =>
      simp only [step] at hs
      split at hs
      · cases hs
        exact h.awake (.inr rfl)
      · cases hs

/-! ### Runs -/

/-- A client that reads what has arrived has every frame. -/
theorem Inv.readFrames (h : Inv answer s) (hh : s.writer.Healthy answer) (hf : s.flushed = true)
    (hfit : FramesFit s.sent) : readFrames s.writer.written = some s.sent := by
  obtain ⟨herr, hs⟩ := h.streamed.stream hh
  rw [Writer.stream, h.calm hf herr, List.append_nil] at hs
  rw [hs]
  exact readFrames_frameStream s.sent hfit

/-- An upgraded connection with a small buffer, a response, and a message that waits for the ticker. -/
def oneMessage : List Act :=
  [.top true, .setOutputBuffer 64, .upgrade, .respond frameTypeResponse [79, 75], .sub, .subEvent,
    .top true, .message (newMessage (Vector.replicate 16 1) [7] 0) false, .top true]

theorem oneMessage_run : (run (step fun _ => none) init oneMessage).isSome := by
  decide +kernel

end Xmq.Output
