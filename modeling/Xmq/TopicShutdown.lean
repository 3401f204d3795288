import Mathlib.Data.List.Basic
import Mathlib.Logic.Function.Basic
import Xmq.ChannelModel
import Xmq.Runs

/-!
# Closing a topic while clients and publishers work

`Topic.exit(false)` ends the pump of the topic, closes the channels one by one and flushes what is
left in memory. Publishers that have passed the check of the exit flag, the pumps of the clients and
their requeues go on meanwhile: each of them has a message in a variable of its own for a time, in
which a flush may pass.

* Every message has an ID of its own, which stands for it and for its copies in the channels. The
  channels are there from the beginning and are not ephemeral; clients take no samples.
* A section under `exitMutex` is one step. Where a message goes into memory or to the backend by
  what room there is, both are possible. `Put` of a backend succeeds until `Close`.
-/

namespace Xmq.Shutdown

/-! ### Channels -/

/-- How far `Channel.exit(false)` has got. -/
inductive Phase where
  | opened
  | exiting
  | memoryFlushed
  | inFlightFlushed
  | deferredFlushed
  | closed
  deriving DecidableEq

namespace Phase

/-- The flush has still to come to the end of the memory queue. -/
def flushesMemory : Phase → Bool
  | opened | exiting => true
  | memoryFlushed | inFlightFlushed | deferredFlushed | closed => false

/-- The flush has still to write what is in flight. -/
def flushesInFlight : Phase → Bool
  | opened | exiting | memoryFlushed => true
  | inFlightFlushed | deferredFlushed | closed => false

/-- The flush has still to write what is deferred. -/
def flushesDeferred : Phase → Bool
  | opened | exiting | memoryFlushed | inFlightFlushed => true
  | deferredFlushed | closed => false

end Phase

/-- A channel. The messages in `starting` were taken by a pump or a TOUCH and are about to be put in
flight; those in `requeueing` were popped by a REQ. -/
structure Chan where
  phase : Phase
  memoryMsgChan : List ℕ
  inFlightMessages : List ℕ
  deferredMessages : List ℕ
  backend : List ℕ
  starting : List ℕ
  requeueing : List ℕ
  finished : List ℕ
  deriving DecidableEq

namespace Chan

def new : Chan := ⟨.opened, [], [], [], [], [], [], []⟩

def put (c : Chan) (m : ℕ) (memory : Bool) : Chan :=
  if memory then { c with memoryMsgChan := c.memoryMsgChan ++ [m] }
  else { c with backend := c.backend ++ [m] }

/-- `PutMessage`, which refuses when the channel is exiting. -/
def putMessage (c : Chan) (m : ℕ) (memory : Bool) : Chan :=
  if c.phase = .opened then c.put m memory else c

/-- `StartDeferredTimeout`; nothing is done about an ID that is already deferred. -/
def startDeferredTimeout (c : Chan) (m : ℕ) : Chan :=
  { c with deferredMessages := c.deferredMessages.insert m }

/-- The next step of `exit(false)`. The in-flight and the deferred messages are each written in one
critical section, and stay in their maps. -/
def exit (c : Chan) : Option Chan :=
  match c.phase with
  | .opened => some { c with phase := .exiting }
  | .exiting =>
    match c.memoryMsgChan with
    | m :: rest => some { c with memoryMsgChan := rest, backend := c.backend ++ [m] }
    | [] => some { c with phase := .memoryFlushed }
  | .memoryFlushed =>
    some { c with phase := .inFlightFlushed, backend := c.backend ++ c.inFlightMessages }
  | .inFlightFlushed =>
    some { c with phase := .deferredFlushed, backend := c.backend ++ c.deferredMessages }
  | .deferredFlushed => some { c with phase := .closed }
  | .closed => none

end Chan

/-- What the clients of a channel and its scans do. -/
inductive ClientAct where
  | takeMemory
  | takeBackend
  | startInFlight (m : ℕ)
  | touch (m : ℕ)
  | finish (m : ℕ)
  | popRequeue (m : ℕ)
  | requeueNow (m : ℕ) (memory : Bool)
  | requeueLater (m : ℕ)
  | timeOut (m : ℕ) (memory : Bool)
  | due (m : ℕ) (memory : Bool)

namespace Chan

/-- `startInFlight` drops a message whose ID is in flight, and `requeueNow` one that comes when the
channel is exiting. -/
def step (c : Chan) : ClientAct → Option Chan
  | .takeMemory =>
    match c.memoryMsgChan with
    | m :: rest => some { c with memoryMsgChan := rest, starting := m :: c.starting }
    | [] => none
  | .takeBackend =>
    match c.backend with
    | m :: rest =>
      if c.phase = .closed then none
      else some { c with backend := rest, starting := m :: c.starting }
    | [] => none
  | .startInFlight m =>
    if m ∈ c.starting then
      some { c with
        starting := c.starting.erase m
        inFlightMessages := c.inFlightMessages.insert m }
    else none
  | .touch m =>
    if m ∈ c.inFlightMessages then
      some { c with inFlightMessages := c.inFlightMessages.erase m, starting := m :: c.starting }
    else none
  | .finish m =>
    if m ∈ c.inFlightMessages then
      some { c with inFlightMessages := c.inFlightMessages.erase m, finished := m :: c.finished }
    else none
  | .popRequeue m =>
    if m ∈ c.inFlightMessages then
      some { c with inFlightMessages := c.inFlightMessages.erase m, requeueing := m :: c.requeueing }
    else none
  | .requeueNow m memory =>
    if m ∈ c.requeueing then
      some ({ c with requeueing := c.requeueing.erase m }.putMessage m memory)
    else none
  | .requeueLater m =>
    if m ∈ c.requeueing then
      some ({ c with requeueing := c.requeueing.erase m }.startDeferredTimeout m)
    else none
  | .timeOut m memory =>
    if m ∈ c.inFlightMessages ∧ c.phase = .opened then
      some ({ c with inFlightMessages := c.inFlightMessages.erase m }.put m memory)
    else none
  | .due m memory =>
    if m ∈ c.deferredMessages ∧ c.phase = .opened then
      some ({ c with deferredMessages := c.deferredMessages.erase m }.put m memory)
    else none

/-- A message that is put in flight or back on a queue comes before the flush has passed there, or is
in the backend anyway. -/
def InTime (c : Chan) : ClientAct → Prop
  | .startInFlight m => c.phase.flushesInFlight = true ∨ m ∈ c.backend
  | .requeueNow m _ => c.phase = .opened ∨ m ∈ c.backend
  | .requeueLater m => c.phase.flushesDeferred = true ∨ m ∈ c.backend
  | _ => True

instance (c : Chan) : ∀ a, Decidable (c.InTime a)
  | .startInFlight _ | .requeueNow _ _ | .requeueLater _ => inferInstanceAs (Decidable (_ ∨ _))
  | .takeMemory | .takeBackend | .touch _ | .finish _ | .popRequeue _ | .timeOut _ _ | .due _ _ =>
    isTrue trivial

end Chan

/-! ### The topic -/

/-- How far `Topic.exit(false)` has got; `closing` names the channel that is being closed. -/
inductive TopicPhase where
  | running
  | exiting
  | cancelled
  | closing (current : Option String)
  | flushing
  | flushed
  | closed
  deriving DecidableEq

/-- The pump of the topic waits, or brings a message to the channels in `todo`, or has ended. -/
inductive Pump where
  | waiting
  | delivering (m : ℕ) (deferred : Bool) (todo : List String)
  | ended
  deriving DecidableEq

/-- `publishing` holds the messages of the `PutMessage` calls that have passed the check of the exit
flag, `acked` those of the calls that put theirs. -/
structure State where
  names : List String
  chan : String → Chan
  memoryMsgChan : List (ℕ × Bool)
  backend : List ℕ
  phase : TopicPhase
  pump : Pump
  publishing : List (ℕ × Bool)
  nextId : ℕ
  acked : List ℕ

inductive Act where
  | publish (deferred : Bool)
  | put (m : ℕ) (deferred memory : Bool)
  | pumpMemory
  | pumpBackend
  | deliver (name : String) (memory : Bool)
  | delivered
  | pumpExit
  | client (name : String) (a : ClientAct)
  | closeChannel (name : String)
  | exit

def init (names : List String) : State :=
  ⟨names, fun _ => Chan.new, [], [], .running, .waiting, [], 0, []⟩

namespace State

def setChan (s : State) (name : String) (c : Chan) : State :=
  { s with chan := Function.update s.chan name c }

/-- The pump has `m` for all channels; without channels it takes nothing. -/
def deliverAll (s : State) (m : ℕ) (deferred : Bool) : Option State :=
  if s.names = [] then none else some { s with pump := .delivering m deferred s.names }

/-- `Topic.put`, and the answer to the publisher. -/
def put (s : State) (m : ℕ) (deferred memory : Bool) : State :=
  let s := { s with publishing := s.publishing.erase (m, deferred) }
  if memory then
    { s with memoryMsgChan := s.memoryMsgChan ++ [(m, deferred)], acked := m :: s.acked }
  else if s.phase = .closed then s
  else { s with backend := s.backend ++ [m], acked := m :: s.acked }

/-- The next step of `Topic.exit(false)`, but for the choice of the next channel to close. -/
def exit (s : State) : Option State :=
  match s.phase with
  | .running => some { s with phase := .exiting }
  | .exiting => some { s with phase := .cancelled }
  | .cancelled => if s.pump = .ended then some { s with phase := .closing none } else none
  | .closing (some name) =>
    match (s.chan name).exit with
    | some c =>
      some ({ s with phase := .closing (if c.phase = Phase.closed then none else some name) }.setChan
        name c)
    | none => none
  | .closing none =>
    if ∀ name ∈ s.names, (s.chan name).phase = .closed then some { s with phase := .flushing }
    else none
  | .flushing =>
    match s.memoryMsgChan with
    | (m, _) :: rest => some { s with memoryMsgChan := rest, backend := s.backend ++ [m] }
    | [] => some { s with phase := .flushed }
  | .flushed => some { s with phase := .closed }
  | .closed => none

end State

def step (s : State) : Act → Option State
  | .publish deferred =>
    if s.phase = .running then
      some { s with publishing := s.publishing ++ [(s.nextId, deferred)], nextId := s.nextId + 1 }
    else none
  | .put m deferred memory =>
    if (m, deferred) ∈ s.publishing then some (s.put m deferred memory) else none
  | .pumpMemory =>
    match s.pump, s.memoryMsgChan with
    | .waiting, (m, deferred) :: rest => { s with memoryMsgChan := rest }.deliverAll m deferred
    | _, _ => none
  | .pumpBackend =>
    match s.pump, s.backend with
    | .waiting, m :: rest => { s with backend := rest }.deliverAll m false
    | _, _ => none
  | .deliver name memory =>
    match s.pump with
    | .delivering m deferred todo =>
      if name ∈ todo then
        some ({ s with pump := .delivering m deferred (todo.erase name) }.setChan name
          (if deferred then (s.chan name).startDeferredTimeout m
            else (s.chan name).putMessage m memory))
      else none
    | _ => none
  | .delivered =>
    match s.pump with
    | .delivering _ _ [] => some { s with pump := .waiting }
    | _ => none
  | .pumpExit =>
    if s.phase = .cancelled ∧ s.pump = .waiting then some { s with pump := .ended } else none
  | .client name a =>
    match (s.chan name).step a with
    | some c => some (s.setChan name c)
    | none => none
  | .closeChannel name =>
    if s.phase = .closing none ∧ name ∈ s.names ∧ (s.chan name).phase = .opened then
      some ({ s with phase := .closing (some name) }.setChan name
        { s.chan name with phase := .exiting })
    else none
  | .exit => s.exit

/-- The exit is over, and so are the calls that were under way. -/
def Quiet (s : State) : Prop :=
  s.phase = .closed ∧ s.publishing = [] ∧
    ∀ name ∈ s.names, (s.chan name).starting = [] ∧ (s.chan name).requeueing = []

instance (s : State) : Decidable (Quiet s) := inferInstanceAs (Decidable (_ ∧ _ ∧ _))

/-- **Nothing is lost.** What was acknowledged and no client finished is in the backend of the topic,
or in that of each channel. -/
def NothingLost (s : State) : Prop :=
  ∀ m ∈ s.acked, (∀ name ∈ s.names, m ∉ (s.chan name).finished) →
    m ∈ s.backend ∨ ∀ name ∈ s.names, m ∈ (s.chan name).backend

instance (s : State) : Decidable (NothingLost s) :=
  inferInstanceAs (Decidable (∀ m ∈ s.acked, _ → _))

/-- No publisher puts its message in the memory of the topic after the flush, and no client is late
in its channel. -/
def InTime (s : State) : Act → Prop
  | .put _ _ memory => memory = true → s.phase ≠ .flushed ∧ s.phase ≠ .closed
  | .client name a => (s.chan name).InTime a
  | _ => True

instance (s : State) : ∀ a, Decidable (InTime s a)
  | .put _ _ _ => inferInstanceAs (Decidable (_ → _))
  | .client name a => inferInstanceAs (Decidable ((s.chan name).InTime a))
  | .publish _ | .pumpMemory | .pumpBackend | .deliver _ _ | .delivered | .pumpExit
  | .closeChannel _ | .exit => isTrue trivial

/-! ### Where the messages of a channel are -/

namespace Chan

/-- The message is finished, or in the backend, or somewhere from where it will yet get there. -/
inductive Safe (c : Chan) (m : ℕ) : Prop
  | finished (h : m ∈ c.finished)
  | backend (h : m ∈ c.backend)
  | starting (h : m ∈ c.starting)
  | requeueing (h : m ∈ c.requeueing)
  | memory (hp : c.phase.flushesMemory = true) (h : m ∈ c.memoryMsgChan)
  | inFlight (hp : c.phase.flushesInFlight = true) (h : m ∈ c.inFlightMessages)
  | deferred (hp : c.phase.flushesDeferred = true) (h : m ∈ c.deferredMessages)

variable {c c' : Chan} {m k : ℕ}

/-- The message stays where it is, and the exit too. -/
theorem Safe.stay (h : c.Safe m) (hphase : c'.phase = c.phase)
    (hfinished : m ∈ c.finished → m ∈ c'.finished) (hbackend : m ∈ c.backend → m ∈ c'.backend)
    (hstarting : m ∈ c.starting → m ∈ c'.starting)
    (hrequeueing : m ∈ c.requeueing → m ∈ c'.requeueing)
    (hmemory : m ∈ c.memoryMsgChan → m ∈ c'.memoryMsgChan)
    (hinFlight : m ∈ c.inFlightMessages → m ∈ c'.inFlightMessages)
    (hdeferred : m ∈ c.deferredMessages → m ∈ c'.deferredMessages) : c'.Safe m := by
  cases h with
  | finished h => exact .finished (hfinished h)
  | backend h => exact .backend (hbackend h)
  | starting h => exact .starting (hstarting h)
  | requeueing h => exact .requeueing (hrequeueing h)
  | memory hp h => exact .memory (hphase ▸ hp) (hmemory h)
  | inFlight hp h => exact .inFlight (hphase ▸ hp) (hinFlight h)
  | deferred hp h => exact .deferred (hphase ▸ hp) (hdeferred h)

theorem put_phase (c : Chan) (k : ℕ) (memory : Bool) : (c.put k memory).phase = c.phase := by
  cases memory <;> rfl

theorem Safe.put (h : c.Safe m) (k : ℕ) (memory : Bool) : (c.put k memory).Safe m := by
  cases memory with
  | true => exact h.stay rfl id id id id (List.mem_append_left _) id id
  | false => exact h.stay rfl id (List.mem_append_left _) id id id id id

theorem safe_put (hp : c.phase = .opened) (m : ℕ) (memory : Bool) : (c.put m memory).Safe m := by
  cases memory with
  | true =>
      exact .memory (by rw [put_phase, hp]; rfl) (List.mem_append_right _ (List.mem_singleton_self m))
  | false => exact .backend (List.mem_append_right _ (List.mem_singleton_self m))

theorem Safe.putMessage (h : c.Safe m) (k : ℕ) (memory : Bool) : (c.putMessage k memory).Safe m := by
  rw [Chan.putMessage]
  split
  · exact h.put k memory
  · exact h

theorem safe_putMessage (hp : c.phase = .opened) (m : ℕ) (memory : Bool) :
    (c.putMessage m memory).Safe m := by
  rw [Chan.putMessage, if_pos hp]
  exact safe_put hp m memory

theorem Safe.startDeferredTimeout (h : c.Safe m) (k : ℕ) : (c.startDeferredTimeout k).Safe m :=
  h.stay rfl id id id id id id List.mem_insert_of_mem

theorem safe_startDeferredTimeout (hp : c.phase.flushesDeferred = true) (m : ℕ) :
    (c.startDeferredTimeout m).Safe m :=
  .deferred hp List.mem_insert_self

/-- What another message does when it leaves a list. -/
theorem mem_erase_imp (hne : m ≠ k) (l : List ℕ) : m ∈ l → m ∈ l.erase k :=
  (List.mem_erase_of_ne hne).mpr

theorem mem_of_cons (hne : m ≠ k) {l : List ℕ} (h : m ∈ k :: l) : m ∈ l :=
  List.mem_of_ne_of_mem hne h

/-- A step of the exit takes every message along. -/
theorem Safe.exit (h : c.Safe m) (hc : c.exit = some c') : c'.Safe m := by
  rw [Chan.exit] at hc
  split at hc
  next hphase =>
      cases hc
      cases h with
      | finished h => exact .finished h
      | backend h => exact .backend h
      | starting h => exact .starting h
      | requeueing h => exact .requeueing h
      | memory _ h => exact .memory rfl h
      | inFlight _ h => exact .inFlight rfl h
      | deferred _ h => exact .deferred rfl h
  next hphase =>
      cases hl : c.memoryMsgChan with
      | cons k rest =>
          rw [hl] at hc
          cases hc
          rcases eq_or_ne m k with rfl | hne
          · exact .backend (List.mem_append_right _ (List.mem_singleton_self m))
          · exact h.stay rfl id (List.mem_append_left _) id id (fun hm => mem_of_cons hne (hl ▸ hm))
              id id
      | nil =>
          rw [hl] at hc
          cases hc
          cases h with
          | finished h => exact .finished h
          | backend h => exact .backend h
          | starting h => exact .starting h
          | requeueing h => exact .requeueing h
          | memory _ h => rw [hl] at h; cases h
          | inFlight _ h => exact .inFlight rfl h
          | deferred _ h => exact .deferred rfl h
  next hphase =>
      cases hc
      cases h with
      | finished h => exact .finished h
      | backend h => exact .backend (List.mem_append_left _ h)
      | starting h => exact .starting h
      | requeueing h => exact .requeueing h
      | memory hp _ => rw [hphase] at hp; cases hp
      | inFlight _ h => exact .backend (List.mem_append_right _ h)
      | deferred _ h => exact .deferred rfl h
  next hphase =>
      cases hc
      cases h with
      | finished h => exact .finished h
      | backend h => exact .backend (List.mem_append_left _ h)
      | starting h => exact .starting h
      | requeueing h => exact .requeueing h
      | memory hp _ => rw [hphase] at hp; cases hp
      | inFlight hp _ => rw [hphase] at hp; cases hp
      | deferred _ h => exact .backend (List.mem_append_right _ h)
  next hphase =>
      cases hc
      cases h with
      | finished h => exact .finished h
      | backend h => exact .backend h
      | starting h => exact .starting h
      | requeueing h => exact .requeueing h
      | memory hp _ => rw [hphase] at hp; cases hp
      | inFlight hp _ => rw [hphase] at hp; cases hp
      | deferred hp _ => rw [hphase] at hp; cases hp
  next => cases hc

/-- **The step lemma of a channel.** A step in time leaves every safe message safe. -/
theorem Safe.step {a : ClientAct} (h : c.Safe m) (hin : c.InTime a) (hc : c.step a = some c') :
    c'.Safe m := by
  cases a with
  | takeMemory =>
      cases hl : c.memoryMsgChan with
      | nil => rw [Chan.step, hl] at hc; cases hc
      | cons k rest =>
          rw [Chan.step, hl] at hc
          cases hc
          rcases eq_or_ne m k with rfl | hne
          · exact .starting List.mem_cons_self
          · exact h.stay rfl id id (List.mem_cons_of_mem k) id (fun hm => mem_of_cons hne (hl ▸ hm))
              id id
  | takeBackend =>
      cases hl : c.backend with
      | nil => rw [Chan.step, hl] at hc; cases hc
      | cons k rest =>
          simp only [Chan.step, hl, Option.ite_none_left_eq_some, Option.some.injEq] at hc
          obtain ⟨_, rfl⟩ := hc
          rcases eq_or_ne m k with rfl | hne
          · exact .starting List.mem_cons_self
          · exact h.stay rfl id (fun hm => mem_of_cons hne (hl ▸ hm)) (List.mem_cons_of_mem k) id id
              id id
  | startInFlight k =>
      simp only [Chan.step, Option.ite_none_right_eq_some, Option.some.injEq] at hc
      obtain ⟨_, rfl⟩ := hc
      rcases eq_or_ne m k with rfl | hne
      · rcases hin with hp | hb
        · exact .inFlight hp List.mem_insert_self
        · exact .backend hb
      · exact h.stay rfl id id (mem_erase_imp hne _) id id List.mem_insert_of_mem id
  | touch k =>
      simp only [Chan.step, Option.ite_none_right_eq_some, Option.some.injEq] at hc
      obtain ⟨_, rfl⟩ := hc
      rcases eq_or_ne m k with rfl | hne
      · exact .starting List.mem_cons_self
      · exact h.stay rfl id id (List.mem_cons_of_mem k) id id (mem_erase_imp hne _) id
  | finish k =>
      simp only [Chan.step, Option.ite_none_right_eq_some, Option.some.injEq] at hc
      obtain ⟨_, rfl⟩ := hc
      rcases eq_or_ne m k with rfl | hne
      · exact .finished List.mem_cons_self
      · exact h.stay rfl (List.mem_cons_of_mem k) id id id id (mem_erase_imp hne _) id
  | popRequeue k =>
      simp only [Chan.step, Option.ite_none_right_eq_some, Option.some.injEq] at hc
      obtain ⟨_, rfl⟩ := hc
      rcases eq_or_ne m k with rfl | hne
      · exact .requeueing List.mem_cons_self
      · exact h.stay rfl id id id (List.mem_cons_of_mem k) id (mem_erase_imp hne _) id
  | requeueNow k memory =>
      simp only [Chan.step, Option.ite_none_right_eq_some, Option.some.injEq] at hc
      obtain ⟨_, rfl⟩ := hc
      rcases eq_or_ne m k with rfl | hne
      · rcases hin with hp | hb
        · refine safe_putMessage ?_ m memory
          exact hp
        · refine Safe.putMessage ?_ m memory
          exact .backend hb
      · refine Safe.putMessage ?_ k memory
        exact h.stay rfl id id id (mem_erase_imp hne _) id id id
  | requeueLater k =>
      simp only [Chan.step, Option.ite_none_right_eq_some, Option.some.injEq] at hc
      obtain ⟨_, rfl⟩ := hc
      rcases eq_or_ne m k with rfl | hne
      · rcases hin with hp | hb
        · refine safe_startDeferredTimeout ?_ m
          exact hp
        · exact .backend hb
      · refine Safe.startDeferredTimeout ?_ k
        exact h.stay rfl id id id (mem_erase_imp hne _) id id id
  | timeOut k memory =>
      simp only [Chan.step, Option.ite_none_right_eq_some, Option.some.injEq] at hc
      obtain ⟨⟨_, hp⟩, rfl⟩ := hc
      rcases eq_or_ne m k with rfl | hne
      · refine safe_put ?_ m memory
        exact hp
      · refine Safe.put ?_ k memory
        exact h.stay rfl id id id id id (mem_erase_imp hne _) id
  | due k memory =>
      simp only [Chan.step, Option.ite_none_right_eq_some, Option.some.injEq] at hc
      obtain ⟨⟨_, hp⟩, rfl⟩ := hc
      rcases eq_or_ne m k with rfl | hne
      · refine safe_put ?_ m memory
        exact hp
      · refine Safe.put ?_ k memory
        exact h.stay rfl id id id id id id (mem_erase_imp hne _)

/-- In a closed channel without calls under way, every safe message is finished or in the backend. -/
theorem Safe.stored (h : c.Safe m) (hphase : c.phase = .closed) (hstarting : c.starting = [])
    (hrequeueing : c.requeueing = []) : m ∈ c.finished ∨ m ∈ c.backend := by
  cases h with
  | finished h => exact Or.inl h
  | backend h => exact Or.inr h
  | starting h => rw [hstarting] at h; cases h
  | requeueing h => rw [hrequeueing] at h; cases h
  | memory hp _ => rw [hphase] at hp; cases hp
  | inFlight hp _ => rw [hphase] at hp; cases hp
  | deferred hp _ => rw [hphase] at hp; cases hp

/-! ### An exit that nobody interferes with -/

/-- The memory queue is emptied message by message. -/
theorem run_exit_memory (c : Chan) (hphase : c.phase = .exiting) :
    Runs.run (fun c (_ : Unit) => c.exit) c (c.memoryMsgChan.map fun _ => ()) =
      some { c with memoryMsgChan := [], backend := c.backend ++ c.memoryMsgChan } := by
  obtain ⟨phase, memory, inFlight, deferred, backend, starting, requeueing, finished⟩ := c
  cases hphase
  induction memory generalizing backend with
  | nil =>
      rw [List.map_nil, Runs.run_nil, List.append_nil]
  | cons m rest ih =>
      have hstep : Chan.exit ⟨.exiting, m :: rest, inFlight, deferred, backend, starting, requeueing,
          finished⟩ = some ⟨.exiting, rest, inFlight, deferred, backend ++ [m], starting,
          requeueing, finished⟩ := rfl
      rw [List.map_cons, Runs.run_cons _ _ _ hstep, ih, List.append_assoc, List.singleton_append]

theorem run_exit (c : Chan) (hphase : c.phase = .opened) :
    ∃ acts, Runs.run (fun c (_ : Unit) => c.exit) c acts = some { c with
      phase := .closed
      memoryMsgChan := []
      backend := c.backend ++ c.memoryMsgChan ++ c.inFlightMessages ++ c.deferredMessages } := by
  refine ⟨() :: ((c.memoryMsgChan.map fun _ => ()) ++ [(), (), (), ()]), ?_⟩
  have hstep : c.exit = some { c with phase := .exiting } := by rw [Chan.exit, hphase]
  rw [Runs.run_cons _ _ _ hstep, Runs.run_append, run_exit_memory _ rfl]
  rfl

/-- The queues of a channel, with its maps ranged over in the given orders. -/
def ofChannel (c : Channel) (inFlight : List MsgPtr) (deferred : List ItemPtr) : Chan where
  phase := .opened
  memoryMsgChan := c.memoryMsgChan
  inFlightMessages := inFlight
  deferredMessages := deferred.map fun i => (c.deferred.items.obj i).value
  backend := []
  starting := []
  requeueing := []
  finished := []

/-- On its own, the exit writes to the backend what `Channel.exit` writes in one go. -/
theorem exit_ofChannel (c : Channel) (hexit : c.exitFlag = 0) (inFlight : List MsgPtr)
    (deferred : List ItemPtr) :
    ∃ acts t, Runs.run (fun c (_ : Unit) => c.exit) (ofChannel c inFlight deferred) acts = some t ∧
      (c.exit false inFlight deferred).2.backend =
        (Channel.writeAll c.backend (t.backend.map c.msgs.obj)).close := by
  obtain ⟨acts, hrun⟩ := run_exit (ofChannel c inFlight deferred) rfl
  refine ⟨acts, _, hrun, ?_⟩
  rw [Channel.exit, if_neg (not_not_intro hexit)]
  rfl

end Chan

/-! ### The invariant of the topic -/

/-- The message is in the topic, or on its way to the channels that do not have it yet. -/
inductive Accounted (s : State) (m : ℕ) : Prop
  | memory (deferred : Bool) (h : (m, deferred) ∈ s.memoryMsgChan)
  | backend (h : m ∈ s.backend)
  | delivering (deferred : Bool) (todo : List String) (hpump : s.pump = .delivering m deferred todo)
    (h : ∀ name ∈ s.names, name ∈ todo ∨ (s.chan name).Safe m)
  | channels (h : ∀ name ∈ s.names, (s.chan name).Safe m)

/-- The exit of the topic has waited for the pump. -/
def TopicPhase.pumpOver : TopicPhase → Bool
  | running | exiting | cancelled => false
  | closing _ | flushing | flushed | closed => true

def TopicPhase.channelsClosed : TopicPhase → Bool
  | running | exiting | cancelled | closing _ => false
  | flushing | flushed | closed => true

/-- The flush of the topic is over. -/
def TopicPhase.memoryFlushed : TopicPhase → Bool
  | running | exiting | cancelled | closing _ | flushing => false
  | flushed | closed => true

structure Inv (s : State) : Prop where
  acked : ∀ m ∈ s.acked, Accounted s m
  pumping : s.pump ≠ .ended → ∀ name, (s.chan name).phase = .opened
  pumpOver : s.phase.pumpOver = true → s.pump = .ended
  closed : s.phase.channelsClosed = true → ∀ name ∈ s.names, (s.chan name).phase = .closed
  flushed : s.phase.memoryFlushed = true → s.memoryMsgChan = []

theorem inv_init (names : List String) : Inv (init names) where
  acked := fun m h => by cases h
  pumping := fun _ _ => rfl
  pumpOver := fun h => by cases h
  closed := fun h => by cases h
  flushed := fun h => by cases h

/-! ### What a step does to the messages -/

section Steps

variable {s t : State} {m k : ℕ} {name : String}

theorem chan_setChan_self (s : State) (name : String) (c : Chan) : (s.setChan name c).chan name = c :=
  Function.update_self ..

theorem chan_setChan_of_ne (s : State) {name other : String} (hne : other ≠ name) (c : Chan) :
    (s.setChan name c).chan other = s.chan other :=
  Function.update_of_ne hne ..

theorem safe_setChan {c : Chan} (hc : (s.chan name).Safe m → c.Safe m) (other : String)
    (h : (s.chan other).Safe m) : ((s.setChan name c).chan other).Safe m := by
  rcases eq_or_ne other name with rfl | hne
  · rw [chan_setChan_self]
    exact hc h
  · rwa [chan_setChan_of_ne s hne]

/-- The pump does not move, and no message gets lost. -/
theorem Accounted.stay (h : Accounted s m) (hnames : t.names = s.names) (hpump : t.pump = s.pump)
    (hmemory : ∀ d, (m, d) ∈ s.memoryMsgChan → (m, d) ∈ t.memoryMsgChan ∨ m ∈ t.backend)
    (hbackend : m ∈ s.backend → m ∈ t.backend)
    (hsafe : ∀ name, (s.chan name).Safe m → (t.chan name).Safe m) : Accounted t m := by
  cases h with
  | memory d h => exact (hmemory d h).elim (.memory d) .backend
  | backend h => exact .backend (hbackend h)
  | delivering d todo hp h =>
      exact .delivering d todo (hpump ▸ hp) fun name hn =>
        (h name (hnames ▸ hn)).imp_right (hsafe name)
  | channels h => exact .channels fun name hn => hsafe name (h name (hnames ▸ hn))

/-- The pump takes `k`, from the memory queue or from the backend. -/
theorem Accounted.take (h : Accounted s m) (hwaiting : s.pump = .waiting) (d : Bool)
    (hnames : t.names = s.names) (hchan : t.chan = s.chan) (hpump : t.pump = .delivering k d s.names)
    (hmemory : ∀ e, m ≠ k → (m, e) ∈ s.memoryMsgChan → (m, e) ∈ t.memoryMsgChan)
    (hbackend : m ≠ k → m ∈ s.backend → m ∈ t.backend) : Accounted t m := by
  rcases eq_or_ne m k with rfl | hne
  · exact .delivering d s.names hpump fun name hn => Or.inl (hnames ▸ hn)
  · cases h with
    | memory e h => exact .memory e (hmemory e hne h)
    | backend h => exact .backend (hbackend hne h)
    | delivering _ _ hp _ => rw [hwaiting] at hp; cases hp
    | channels h => exact .channels fun name hn => hchan ▸ h name (hnames ▸ hn)

/-- The pump brings its message to one channel. -/
theorem Accounted.deliver (h : Accounted s m) {d : Bool} {todo : List String}
    (hpump : s.pump = .delivering k d todo) {c : Chan} (hput : c.Safe k)
    (hc : (s.chan name).Safe m → c.Safe m) :
    Accounted ({ s with pump := .delivering k d (todo.erase name) }.setChan name c) m := by
  have hsafe := safe_setChan (s := { s with pump := .delivering k d (todo.erase name) }) hc
  cases h with
  | memory e h => exact .memory e h
  | backend h => exact .backend h
  | delivering e todo' hp h =>
      rw [hpump] at hp
      cases hp
      refine .delivering d (todo.erase name) rfl fun other hn => ?_
      rcases eq_or_ne other name with rfl | hne
      · exact Or.inr (by rwa [chan_setChan_self])
      · exact (h other hn).imp (List.mem_erase_of_ne hne).mpr (hsafe other)
  | channels h => exact .channels fun other hn => hsafe other (h other hn)

/-- The pump stops, with no channel to go. -/
theorem Accounted.stop (h : Accounted s m) (hpump : ∀ k d todo, s.pump = .delivering k d todo →
    todo = []) (pump : Pump) : Accounted { s with pump := pump } m := by
  cases h with
  | memory e h => exact .memory e h
  | backend h => exact .backend h
  | delivering e todo hp h =>
      refine .channels fun name hn => (h name hn).resolve_left ?_
      rw [hpump _ _ _ hp]
      exact List.not_mem_nil
  | channels h => exact .channels h

theorem Inv.publish (h : Inv s) (d : Bool) (ht : step s (.publish d) = some t) : Inv t := by
  simp only [step, Option.ite_none_right_eq_some, Option.some.injEq] at ht
  obtain ⟨_, rfl⟩ := ht
  exact ⟨fun m hm => (h.acked m hm).stay rfl rfl (fun _ => Or.inl) id fun _ => id, h.pumping,
    h.pumpOver, h.closed, h.flushed⟩

/-- A message put in memory is acknowledged before the flush, or one put in the backend. -/
theorem Inv.put (h : Inv s) {d memory : Bool} (hin : InTime s (.put k d memory)) :
    Inv (s.put k d memory) := by
  cases memory with
  | true =>
      refine ⟨fun m hm => ?_, h.pumping, h.pumpOver, h.closed, fun hf => ?_⟩
      · rcases List.mem_cons.mp hm with rfl | hm
        · exact .memory d (List.mem_append_right _ (List.mem_singleton_self _))
        · exact (h.acked m hm).stay rfl rfl (fun _ hx => Or.inl (List.mem_append_left _ hx)) id
            fun _ => id
      · obtain ⟨hflushed, hclosed⟩ := hin rfl
        have hf : s.phase.memoryFlushed = true := hf
        cases hp : s.phase with
        | flushed => exact absurd hp hflushed
        | closed => exact absurd hp hclosed
        | running | exiting | cancelled | closing _ | flushing => rw [hp] at hf; cases hf
  | false =>
      simp only [State.put, Bool.false_eq_true, if_false]
      split
      · exact ⟨fun m hm => (h.acked m hm).stay rfl rfl (fun _ => Or.inl) id fun _ => id, h.pumping,
          h.pumpOver, h.closed, h.flushed⟩
      · refine ⟨fun m hm => ?_, h.pumping, h.pumpOver, h.closed, h.flushed⟩
        rcases List.mem_cons.mp hm with rfl | hm
        · exact .backend (List.mem_append_right _ (List.mem_singleton_self _))
        · exact (h.acked m hm).stay rfl rfl (fun _ => Or.inl) (List.mem_append_left _) fun _ => id

theorem Inv.pumpMemory (h : Inv s) (ht : step s .pumpMemory = some t) : Inv t := by
  cases hp : s.pump with
  | delivering _ _ _ => rw [step, hp] at ht; cases ht
  | ended => rw [step, hp] at ht; cases ht
  | waiting =>
      have hne : s.pump ≠ .ended := by rw [hp]; exact nofun
      cases hl : s.memoryMsgChan with
      | nil => rw [step, hp, hl] at ht; cases ht
      | cons x rest =>
          obtain ⟨k, d⟩ := x
          simp only [step, hp, hl, State.deliverAll, Option.ite_none_left_eq_some,
            Option.some.injEq] at ht
          obtain ⟨_, rfl⟩ := ht
          refine ⟨fun m hm => (h.acked m hm).take hp d rfl rfl rfl (fun e hmk hx => ?_) fun _ => id,
            fun _ => h.pumping hne, fun hover => absurd (h.pumpOver hover) hne, h.closed,
            fun hf => ?_⟩
          · rw [hl] at hx
            exact List.mem_of_ne_of_mem (fun he => hmk (congrArg Prod.fst he)) hx
          · have hnil := h.flushed hf
            rw [hl] at hnil
            cases hnil

theorem Inv.pumpBackend (h : Inv s) (ht : step s .pumpBackend = some t) : Inv t := by
  cases hp : s.pump with
  | delivering _ _ _ => rw [step, hp] at ht; cases ht
  | ended => rw [step, hp] at ht; cases ht
  | waiting =>
      have hne : s.pump ≠ .ended := by rw [hp]; exact nofun
      cases hl : s.backend with
      | nil => rw [step, hp, hl] at ht; cases ht
      | cons k rest =>
          simp only [step, hp, hl, State.deliverAll, Option.ite_none_left_eq_some,
            Option.some.injEq] at ht
          obtain ⟨_, rfl⟩ := ht
          refine ⟨fun m hm => (h.acked m hm).take hp false rfl rfl rfl (fun _ _ => id)
            (fun hmk hx => ?_), fun _ => h.pumping hne, fun hover => absurd (h.pumpOver hover) hne,
            h.closed, h.flushed⟩
          rw [hl] at hx
          exact List.mem_of_ne_of_mem hmk hx

/-- While the pump works, no channel is being closed. -/
theorem Inv.early (h : Inv s) (hpump : s.pump ≠ .ended) :
    s.phase.pumpOver ≠ true ∧ s.phase.channelsClosed ≠ true := by
  have hover : s.phase.pumpOver ≠ true := fun ho => hpump (h.pumpOver ho)
  refine ⟨hover, fun hc => hover ?_⟩
  cases hp : s.phase with
  | running | exiting | cancelled | closing _ => rw [hp] at hc; cases hc
  | flushing | flushed | closed => rfl

/-- The pump brings its message to a channel, which has it then. -/
theorem Inv.setChan (h : Inv s) {d : Bool} {todo : List String} (hpump : s.pump = .delivering k d todo)
    {c : Chan} (hphase : c.phase = .opened) (hput : c.Safe k)
    (hc : ∀ m, (s.chan name).Safe m → c.Safe m) :
    Inv ({ s with pump := .delivering k d (todo.erase name) }.setChan name c) := by
  have hne : s.pump ≠ .ended := by rw [hpump]; exact nofun
  obtain ⟨hover, hclosed⟩ := h.early hne
  refine ⟨fun m hm => (h.acked m hm).deliver hpump hput (hc m), fun _ other => ?_,
    fun ho => absurd ho hover, fun hf => absurd hf hclosed, h.flushed⟩
  rcases eq_or_ne other name with rfl | hne'
  · rwa [chan_setChan_self]
  · rw [chan_setChan_of_ne _ hne']
    exact h.pumping hne other

theorem Inv.deliver (h : Inv s) {memory : Bool} (ht : step s (.deliver name memory) = some t) :
    Inv t := by
  cases hp : s.pump with
  | waiting => rw [step, hp] at ht; cases ht
  | ended => rw [step, hp] at ht; cases ht
  | delivering k d todo =>
      have hopen : (s.chan name).phase = .opened := h.pumping (by rw [hp]; exact nofun) name
      simp only [step, hp, Option.ite_none_right_eq_some, Option.some.injEq] at ht
      obtain ⟨_, rfl⟩ := ht
      cases d with
      | true =>
          exact h.setChan hp hopen (Chan.safe_startDeferredTimeout (by rw [hopen]; rfl) k)
            fun m hs => hs.startDeferredTimeout k
      | false =>
          refine h.setChan hp ?_ (Chan.safe_putMessage hopen k memory) fun m hs =>
            hs.putMessage k memory
          rw [if_neg nofun, Chan.putMessage, if_pos hopen, Chan.put_phase, hopen]

theorem Inv.delivered (h : Inv s) (ht : step s .delivered = some t) : Inv t := by
  cases hp : s.pump with
  | waiting => rw [step, hp] at ht; cases ht
  | ended => rw [step, hp] at ht; cases ht
  | delivering k d todo =>
      have hne : s.pump ≠ .ended := by rw [hp]; exact nofun
      cases todo with
      | cons _ _ => rw [step, hp] at ht; cases ht
      | nil =>
          rw [step, hp] at ht
          cases ht
          refine ⟨fun m hm => (h.acked m hm).stop (fun k' d' todo' he => ?_) _,
            fun _ => h.pumping hne, fun ho => absurd (h.pumpOver ho) hne, h.closed, h.flushed⟩
          rw [hp] at he
          cases he
          rfl

theorem Inv.pumpExit (h : Inv s) (ht : step s .pumpExit = some t) : Inv t := by
  simp only [step, Option.ite_none_right_eq_some, Option.some.injEq] at ht
  obtain ⟨⟨_, hp⟩, rfl⟩ := ht
  refine ⟨fun m hm => (h.acked m hm).stop (fun k d todo he => ?_) _, fun hne => absurd rfl hne,
    fun _ => rfl, h.closed, h.flushed⟩
  rw [hp] at he
  cases he

/-- A step inside one channel. -/
theorem Inv.chan (h : Inv s) {c : Chan} (hc : ∀ m, (s.chan name).Safe m → c.Safe m)
    (hpumping : s.pump ≠ .ended → c.phase = (s.chan name).phase)
    (hclosed : (s.chan name).phase = .closed → c.phase = .closed) : Inv (s.setChan name c) := by
  refine ⟨fun m hm => (h.acked m hm).stay rfl rfl (fun _ => Or.inl) id (safe_setChan (hc m)),
    fun hne other => ?_, h.pumpOver, fun hf other hn => ?_, h.flushed⟩
  · rcases eq_or_ne other name with rfl | hne'
    · rw [chan_setChan_self, hpumping hne]
      exact h.pumping hne other
    · rw [chan_setChan_of_ne s hne']
      exact h.pumping hne other
  · rcases eq_or_ne other name with rfl | hne'
    · rw [chan_setChan_self]
      exact hclosed (h.closed hf other hn)
    · rw [chan_setChan_of_ne s hne']
      exact h.closed hf other hn

/-- Clients do not move the exit of their channel. -/
theorem step_phase {c c' : Chan} {a : ClientAct} (hc : c.step a = some c') : c'.phase = c.phase := by
  cases a with
  | takeMemory =>
      rw [Chan.step] at hc
      split at hc
      · cases hc; rfl
      · cases hc
  | takeBackend =>
      rw [Chan.step] at hc
      split at hc
      · obtain ⟨_, hc⟩ := Option.ite_none_left_eq_some.mp hc
        cases hc
        rfl
      · cases hc
  | startInFlight k | touch k | finish k | popRequeue k | requeueLater k =>
      obtain ⟨_, hc⟩ := Option.ite_none_right_eq_some.mp hc
      cases hc
      rfl
  | timeOut k memory | due k memory =>
      obtain ⟨_, hc⟩ := Option.ite_none_right_eq_some.mp hc
      cases hc
      exact Chan.put_phase _ k memory
  | requeueNow k memory =>
      obtain ⟨_, hc⟩ := Option.ite_none_right_eq_some.mp hc
      cases hc
      rw [Chan.putMessage]
      split
      · exact Chan.put_phase _ k memory
      · rfl

theorem Inv.client (h : Inv s) {a : ClientAct} (hin : InTime s (.client name a))
    (ht : step s (.client name a) = some t) : Inv t := by
  rw [step] at ht
  split at ht
  · rename_i c hc
    cases ht
    exact h.chan (fun m hs => hs.step hin hc) (fun _ => step_phase hc) fun hp =>
      (step_phase hc).trans hp
  · cases ht

/-- Another phase of the exit, in which nothing else changes. -/
theorem Inv.setPhase (h : Inv s) {phase : TopicPhase} (hover : phase.pumpOver = true → s.pump = .ended)
    (hclosed : phase.channelsClosed = true → ∀ name ∈ s.names, (s.chan name).phase = .closed)
    (hflushed : phase.memoryFlushed = true → s.memoryMsgChan = []) : Inv { s with phase := phase } :=
  ⟨fun m hm => (h.acked m hm).stay rfl rfl (fun _ => Or.inl) id fun _ => id, h.pumping, hover, hclosed,
    hflushed⟩

theorem Inv.closeChannel (h : Inv s) (ht : step s (.closeChannel name) = some t) : Inv t := by
  simp only [step, Option.ite_none_right_eq_some, Option.some.injEq] at ht
  obtain ⟨⟨hphase, _, hopen⟩, rfl⟩ := ht
  have hover : s.pump = .ended := h.pumpOver (by rw [hphase]; rfl)
  have hexit : (s.chan name).exit = some { s.chan name with phase := .exiting } := by
    rw [Chan.exit, hopen]
  have hs : Inv { s with phase := .closing (some name) } := h.setPhase (fun _ => hover) nofun nofun
  refine hs.chan (fun m hs => hs.exit hexit) (fun hne => absurd hover hne) fun hc => ?_
  have hc : (s.chan name).phase = .closed := hc
  rw [hopen] at hc
  cases hc

/-- A closed channel takes no further step of its exit. -/
theorem exit_of_closed {c : Chan} (hc : c.phase = .closed) : c.exit = none := by
  rw [Chan.exit, hc]

theorem Inv.exit (h : Inv s) (ht : s.exit = some t) : Inv t := by
  cases hp : s.phase with
  | running =>
      rw [State.exit, hp] at ht
      cases ht
      exact h.setPhase nofun nofun nofun
  | exiting =>
      rw [State.exit, hp] at ht
      cases ht
      exact h.setPhase nofun nofun nofun
  | cancelled =>
      simp only [State.exit, hp, Option.ite_none_right_eq_some, Option.some.injEq] at ht
      obtain ⟨hended, rfl⟩ := ht
      exact h.setPhase (fun _ => hended) nofun nofun
  | closing current =>
      have hover : s.pump = .ended := h.pumpOver (by rw [hp]; rfl)
      cases current with
      | none =>
          simp only [State.exit, hp, Option.ite_none_right_eq_some, Option.some.injEq] at ht
          obtain ⟨hclosed, rfl⟩ := ht
          exact h.setPhase (fun _ => hover) (fun _ => hclosed) nofun
      | some name =>
          cases hc : (s.chan name).exit with
          | none =>
              simp only [State.exit, hp, hc] at ht
              cases ht
          | some c =>
              simp only [State.exit, hp, hc, Option.some.injEq] at ht
              subst ht
              have hs : Inv { s with
                  phase := .closing (if c.phase = Phase.closed then none else some name) } :=
                h.setPhase (fun _ => hover) nofun nofun
              refine hs.chan (fun m hs => hs.exit hc) (fun hne => absurd hover hne) fun hcl => ?_
              rw [exit_of_closed hcl] at hc
              cases hc
  | flushing =>
      have hover : s.pump = .ended := h.pumpOver (by rw [hp]; rfl)
      have hclosed := h.closed (by rw [hp]; rfl)
      rw [State.exit, hp] at ht
      dsimp only at ht
      split at ht
      · rename_i k d rest hl
        cases ht
        refine ⟨fun m hm => (h.acked m hm).stay rfl rfl (fun e hx => ?_) (List.mem_append_left _)
          fun _ => id, h.pumping, fun _ => hover, fun _ => hclosed, nofun⟩
        rw [hl] at hx
        rcases List.mem_cons.mp hx with hx | hx
        · cases hx
          exact Or.inr (List.mem_append_right _ (List.mem_singleton_self k))
        · exact Or.inl hx
      · rename_i hl
        cases ht
        exact h.setPhase (fun _ => hover) (fun _ => hclosed) fun _ => hl
  | flushed =>
      rw [State.exit, hp] at ht
      cases ht
      exact h.setPhase (fun _ => h.pumpOver (by rw [hp]; rfl))
        (fun _ => h.closed (by rw [hp]; rfl)) fun _ => h.flushed (by rw [hp]; rfl)
  | closed =>
      rw [State.exit, hp] at ht
      cases ht

/-- **The step lemma.** -/
theorem inv_step (s : State) (a : Act) (t : State) (h : Inv s) (hin : InTime s a)
    (ht : step s a = some t) : Inv t := by
  cases a with
  | publish d => exact h.publish d ht
  | put k d memory =>
      obtain ⟨_, ht⟩ := Option.ite_none_right_eq_some.mp ht
      cases ht
      exact h.put hin
  | pumpMemory => exact h.pumpMemory ht
  | pumpBackend => exact h.pumpBackend ht
  | deliver name memory => exact h.deliver ht
  | delivered => exact h.delivered ht
  | pumpExit => exact h.pumpExit ht
  | client name a => exact h.client hin ht
  | closeChannel name => exact h.closeChannel ht
  | exit => exact h.exit ht

/-- When all is over, every acknowledged message is stored, or finished where it is not. -/
theorem Inv.quiet (h : Inv s) (hquiet : Quiet s) (hm : m ∈ s.acked) :
    m ∈ s.backend ∨ ∀ name ∈ s.names, m ∈ (s.chan name).finished ∨ m ∈ (s.chan name).backend := by
  obtain ⟨hphase, _, hcalls⟩ := hquiet
  cases h.acked m hm with
  | memory d hmem =>
      rw [h.flushed (by rw [hphase]; rfl)] at hmem
      cases hmem
  | backend hb => exact Or.inl hb
  | delivering d todo hp _ =>
      rw [h.pumpOver (by rw [hphase]; rfl)] at hp
      cases hp
  | channels hsafe =>
      refine Or.inr fun name hn => ?_
      obtain ⟨hstarting, hrequeueing⟩ := hcalls name hn
      exact (hsafe name hn).stored (h.closed (by rw [hphase]; rfl) name hn) hstarting hrequeueing

end Steps

/-- **Nothing acknowledged is lost at shutdown**, in every run in which no call is late: the publishers
come to the memory queue of the topic, the pumps of the clients to the in-flight messages and the
requeues to the queues of the channel before the flush has passed there. -/
theorem nothing_lost {names : List String} {acts : List Act} {s : State}
    (hin : Runs.Along step InTime (init names) acts)
    (hrun : Runs.run step (init names) acts = some s) (hquiet : Quiet s) : NothingLost s := by
  intro m hm hunfinished
  have hinv := Runs.invariant_along inv_step acts (init names) s (inv_init names) hin hrun
  exact (hinv.quiet hquiet hm).imp_right fun hall name hn =>
    (hall name hn).resolve_left (hunfinished name hn)

/-! ### Runs of one channel -/

/-- A message goes to the channel and to a client before the exit, and a requeue of it in time. -/
def calmExit : List Act :=
  [.publish false, .put 0 false true, .pumpMemory, .deliver "ch" true, .delivered,
    .client "ch" .takeMemory, .client "ch" (.startInFlight 0), .publish false, .exit, .exit,
    .pumpExit, .put 1 false true, .client "ch" (.popRequeue 0), .client "ch" (.requeueLater 0),
    .exit, .closeChannel "ch", .exit, .exit, .exit, .exit, .exit, .exit, .exit, .exit]

theorem nothing_lost_calm : ∃ s, Runs.run step (init ["ch"]) calmExit = some s ∧
    s.acked = [1, 0] ∧ Quiet s ∧ NothingLost s := by
  obtain ⟨s, hrun, hacked, hquiet⟩ := Runs.exists_of_run step (init ["ch"]) calmExit
    (fun s => s.acked = [1, 0] ∧ Quiet s) (by decide)
  exact ⟨s, hrun, hacked, hquiet, nothing_lost (by decide) hrun hquiet⟩

/-- A publisher that has passed the check of the exit flag puts its message after the exit. -/
def latePublisher : List Act :=
  [.publish false, .exit, .exit, .pumpExit, .exit, .closeChannel "ch", .exit, .exit, .exit, .exit,
    .exit, .exit, .exit, .put 0 false true]

/-- The pump of a client has a message in its hands while the channel is flushed. -/
def lateDelivery : List Act :=
  [.publish false, .put 0 false true, .pumpMemory, .deliver "ch" true, .delivered, .exit, .exit,
    .pumpExit, .exit, .client "ch" .takeMemory, .closeChannel "ch", .exit, .exit, .exit, .exit,
    .client "ch" (.startInFlight 0), .exit, .exit, .exit]

/-- A requeue finds the channel exiting. -/
def lateRequeue : List Act :=
  [.publish false, .put 0 false true, .pumpMemory, .deliver "ch" true, .delivered,
    .client "ch" .takeMemory, .client "ch" (.startInFlight 0), .exit, .exit, .pumpExit, .exit,
    .client "ch" (.popRequeue 0), .closeChannel "ch", .client "ch" (.requeueNow 0 true), .exit,
    .exit, .exit, .exit, .exit, .exit, .exit]

/-- The run comes to its end, and an acknowledged message is nowhere. -/
def Loses (acts : List Act) : Prop :=
  ∃ s, Runs.run step (init ["ch"]) acts = some s ∧ Quiet s ∧ ¬ NothingLost s

theorem shutdown_loses : Loses latePublisher ∧ Loses lateDelivery ∧ Loses lateRequeue :=
  ⟨Runs.exists_of_run step (init ["ch"]) latePublisher _ (by decide),
    Runs.exists_of_run step (init ["ch"]) lateDelivery _ (by decide),
    Runs.exists_of_run step (init ["ch"]) lateRequeue _ (by decide)⟩

end Xmq.Shutdown
