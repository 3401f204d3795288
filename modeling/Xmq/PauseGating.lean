import Xmq.Runs
import Xmq.TopicPump

/-!
# Pausing a topic

`Pause` and `UnPause` store the flag, submit what they then read in it, and tell the pump. The pump
looks at the flag when it is told, and keeps what it decided in its own variables. This module runs
any number of these calls, and of `GetChannel`, against the pump.

* The node leads, and an entry is applied before its submission returns. Each access to the flag is
  a step of its own: the store, the read for the submission, the write by the applied entry, and the
  look of the pump, which comes after the send that made it look has returned.
* The pump is that of the fan-out, with the moment made visible between being told and having
  looked.
-/

namespace Xmq.PauseGate

open Runs
open Pump (Topic PumpAct)

/-! ### Calls -/

/-- `Pause` or `UnPause`, or `GetChannel`. -/
inductive Call where
  | doPause (pause : Bool)
  | getChannel (name : String)
  deriving DecidableEq

/-- Where a call is: at its begin, before it reads the flag, with an entry that holds what it read
or that creates its channel, before its send to the pump, or back. -/
inductive PC where
  | begin
  | read
  | submit (value : Bool)
  | create
  | notify
  | returned
  deriving DecidableEq

structure CallState where
  call : Call
  pc : PC
  deriving DecidableEq

/-- `checking` says that the pump has been told of a change, or has read the channels, and has not
yet looked at the flag. -/
structure State where
  topic : Topic
  checking : Bool
  calls : List CallState

/-- A topic whose pump has not started, and nobody who calls. -/
def init (topic : Topic) : State where
  topic := { topic with pump := .waiting, chans := [], sources := false, taken := [] }
  checking := false
  calls := []

inductive Act where
  | call (c : Call)
  | go (k : ℕ)
  | notify (k : ℕ)
  | start
  | publish (memQueueSize : ℕ) (m : Message)
  | pump (a : PumpAct)
  | check

/-- The acts in which the pump takes a message. -/
def Act.Takes : Act → Prop
  | .pump .takeMemory => True
  | .pump .takeBackend => True
  | _ => False

namespace State

def setPC (s : State) (k : ℕ) (c : CallState) (pc : PC) : State :=
  { s with calls := s.calls.set k { c with pc := pc } }

def setPaused (s : State) (paused : Bool) : State :=
  { s with topic := s.topic.setPaused paused }

/-- What `ClusterNewChannel` does; it refuses an empty name. -/
def newChannel (s : State) (name : String) : State :=
  if name = "" then s else { s with topic := s.topic.newChannel name }

/-- The next step of a call, up to its send. -/
def go (s : State) (k : ℕ) (c : CallState) : Option State :=
  match c.call, c.pc with
  | .doPause pause, .begin => some ((s.setPaused pause).setPC k c .read)
  | .doPause _, .read => some (s.setPC k c (.submit s.topic.paused))
  | .doPause _, .submit value => some ((s.setPaused value).setPC k c .notify)
  | .getChannel name, .begin =>
    some (s.setPC k c (if (s.topic.channels.lookup name).isSome then .notify else .create))
  | .getChannel name, .create => some ((s.newChannel name).setPC k c .notify)
  | _, _ => none

/-- The pump is told, by a send on `pauseChan` or on `channelUpdateChan`. -/
def receive (s : State) (call : Call) : Option State :=
  if s.checking then none
  else
    match s.topic.pump, call with
    | .waiting, _ => some s
    | .selecting, .doPause _ => some { s with checking := true }
    | .selecting, .getChannel _ => some { s with topic := { s.topic with pump := .loading } }
    | _, _ => none

def notify (s : State) (k : ℕ) (c : CallState) : Option State :=
  if c.pc = .notify then (s.receive c.call).map fun s => s.setPC k c .returned else none

/-- The pump reads the channels, and has still to look at the flag. -/
def load (s : State) (order : List Pump.ChannelPtr) : Option State :=
  if s.topic.pump = .loading ∧ order.Perm s.topic.channels.values then
    some { s with topic := { s.topic with chans := order, pump := .selecting }, checking := true }
  else none

def Calm (s : State) : Prop := ∀ c ∈ s.calls, c.pc = .returned

instance (s : State) : Decidable s.Calm :=
  inferInstanceAs (Decidable (∀ c ∈ s.calls, c.pc = .returned))

/-- A step of the pump of the fan-out. -/
def pumpStep (s : State) (a : PumpAct) : Option State :=
  if s.checking then none
  else (s.topic.pumpStep (decide s.Calm) a).map fun t => { s with topic := t }

def pump (s : State) (a : PumpAct) : Option State :=
  match a with
  | .load order => s.load order
  | a => s.pumpStep a

end State

def step (s : State) : Act → Option State
  | .call c => some { s with calls := s.calls ++ [⟨c, .begin⟩] }
  | .go k => (s.calls[k]?).bind (s.go k)
  | .notify k => (s.calls[k]?).bind (s.notify k)
  | .start => some { s with topic := s.topic.start }
  | .publish memQueueSize m => some { s with topic := s.topic.put memQueueSize m }
  | .pump a => s.pump a
  | .check =>
    if s.checking then some { s with topic := s.topic.evalSources, checking := false } else none

/-! ### What pausing promises -/

/-- The sources that the pump has in its next `select`. -/
def State.nextSources (s : State) : Bool :=
  if s.topic.pump = .loading then !s.topic.channels.values.isEmpty && !s.topic.paused
  else if s.checking then s.topic.evalSources.sources
  else s.topic.sources

/-- **At rest**: when all calls are back and the pump has started, it takes messages exactly when
the topic is not paused and has a channel. -/
def GatedAtRest (s₀ : State) : Prop :=
  ∀ acts s, run step s₀ acts = some s → s.Calm → s.topic.pump ≠ .waiting →
    (s.nextSources = true ↔ s.topic.paused = false ∧ s.topic.channels.values ≠ [])

/-- An `UnPause` that is not back. -/
def UnPausing (c : CallState) : Prop := c.call = .doPause false ∧ c.pc ≠ .returned

/-- A `Pause` that has read 0, and submits it. -/
def Withdrawing (c : CallState) : Prop := c.call = .doPause true ∧ c.pc = .submit false

instance (c : CallState) : Decidable (UnPausing c) := inferInstanceAs (Decidable (_ ∧ _))

instance (c : CallState) : Decidable (Withdrawing c) := inferInstanceAs (Decidable (_ ∧ _))

def NoUnPause (s : State) : Prop := ∀ c ∈ s.calls, ¬ UnPausing c

instance (s : State) : Decidable (NoUnPause s) :=
  inferInstanceAs (Decidable (∀ c ∈ s.calls, ¬ UnPausing c))

/-- No `UnPause` is under way, and no `Pause` that writes 0. -/
def Quiet (s : State) : Prop := ∀ c ∈ s.calls, ¬ UnPausing c ∧ ¬ Withdrawing c

/-- The pump takes no message now. -/
def TakesNothing (s : State) : Prop := ∀ a : Act, a.Takes → step s a = none

/-- From the return of a `Pause` on, for as long as no `UnPause` is under way, nothing is taken. -/
def GatedFromReturn (s₀ : State) : Prop :=
  ∀ (acts : List Act) (s : State) (k : ℕ) (s' : State), run step s₀ acts = some s →
    s.calls[k]? = some (CallState.mk (.doPause true) .notify) →
    step s (.notify k) = some s' →
    ∀ (more : List Act) (t : State), run step s' more = some t →
      Along step (fun s _ => NoUnPause s) s' more →
      NoUnPause t → TakesNothing t

/-- **By a pause**: for as long as all is quiet from the begin of a `Pause` on, nothing is taken
after its return. -/
def GatedFromBegin (s₀ : State) : Prop :=
  ∀ (acts : List Act) (s : State) (k : ℕ), run step s₀ acts = some s →
    s.calls[k]? = some (CallState.mk (.doPause true) .begin) →
    ∀ (more : List Act) (t : State), run step s more = some t →
      Along step (fun s _ => Quiet s) s more →
      t.calls[k]? = some (CallState.mk (.doPause true) .returned) → TakesNothing t

/-! ### Steps -/

section Steps

variable {s s' : State} {k : ℕ} {c : CallState}

/-- The steps of a call up to its send, with all that they change. -/
inductive Went (s : State) (k : ℕ) : CallState → State → Prop where
  | store (pause : Bool) :
      Went s k ⟨.doPause pause, .begin⟩ ((s.setPaused pause).setPC k ⟨.doPause pause, .begin⟩ .read)
  | read (pause : Bool) :
      Went s k ⟨.doPause pause, .read⟩
        (s.setPC k ⟨.doPause pause, .read⟩ (.submit s.topic.paused))
  | apply (pause value : Bool) :
      Went s k ⟨.doPause pause, .submit value⟩
        ((s.setPaused value).setPC k ⟨.doPause pause, .submit value⟩ .notify)
  | look (name : String) (pc : PC) (hpc : pc = .notify ∨ pc = .create) :
      Went s k ⟨.getChannel name, .begin⟩ (s.setPC k ⟨.getChannel name, .begin⟩ pc)
  | create (name : String) :
      Went s k ⟨.getChannel name, .create⟩
        ((s.newChannel name).setPC k ⟨.getChannel name, .create⟩ .notify)

theorem go_cases (h : s.go k c = some s') : Went s k c s' := by
  obtain ⟨call, pc⟩ := c
  cases call with
  | doPause pause =>
      cases pc with
      | begin =>
          cases h
          exact .store pause
      | read =>
          cases h
          exact .read pause
      | submit value =>
          cases h
          exact .apply pause value
      | create => cases h
      | notify => cases h
      | returned => cases h
  | getChannel name =>
      cases pc with
      | begin =>
          cases h
          refine .look name _ ?_
          split
          · exact .inl rfl
          · exact .inr rfl
      | create =>
          cases h
          exact .create name
      | read => cases h
      | submit value => cases h
      | notify => cases h
      | returned => cases h

/-- What a send to the pump can do. -/
theorem receive_cases {call : Call} (h : s.receive call = some s') :
    s.topic.pump = .waiting ∧ s' = s ∨
      s.checking = false ∧ s.topic.pump = .selecting ∧
        ((∃ pause, call = .doPause pause) ∧ s' = { s with checking := true } ∨
          (∃ name, call = .getChannel name) ∧
            s' = { s with topic := { s.topic with pump := .loading } }) := by
  unfold State.receive at h
  split at h
  · cases h
  · rename_i hcheck
    rw [Bool.not_eq_true] at hcheck
    split at h
    · rename_i hpump
      cases h
      exact .inl ⟨hpump, rfl⟩
    · rename_i hpump
      cases h
      exact .inr ⟨hcheck, hpump, .inl ⟨⟨_, rfl⟩, rfl⟩⟩
    · rename_i hpump
      cases h
      exact .inr ⟨hcheck, hpump, .inr ⟨⟨_, rfl⟩, rfl⟩⟩
    · cases h

theorem notify_cases (h : s.notify k c = some s') :
    c.pc = .notify ∧ ∃ t, s.receive c.call = some t ∧ s' = t.setPC k c .returned := by
  unfold State.notify at h
  split at h
  · rename_i hpc
    obtain ⟨t, ht, rfl⟩ := Option.map_eq_some_iff.mp h
    exact ⟨hpc, t, ht, rfl⟩
  · cases h

theorem pumpStep_cases {a : PumpAct} (h : s.pumpStep a = some s') :
    s.checking = false ∧ ∃ t, Pump.PumpStep (decide s.Calm) s.topic t ∧
      s' = { s with topic := t } := by
  unfold State.pumpStep at h
  split at h
  · cases h
  · rename_i hcheck
    obtain ⟨t, ht, rfl⟩ := Option.map_eq_some_iff.mp h
    exact ⟨Bool.eq_false_iff.mpr hcheck, t, Pump.pumpStep_cases ht, rfl⟩

/-- What the pump does by itself. -/
theorem pump_cases {a : PumpAct} (h : s.pump a = some s') :
    (∃ order, s.topic.pump = .loading ∧ order.Perm s.topic.channels.values ∧
      s' = { s with
        topic := { s.topic with chans := order, pump := .selecting }, checking := true }) ∨
    s.checking = false ∧ ∃ t, Pump.PumpStep (decide s.Calm) s.topic t ∧
      s' = { s with topic := t } := by
  cases a with
  | load order =>
      have hload : s.load order = some s' := h
      unfold State.load at hload
      split at hload
      · rename_i hok
        cases hload
        exact .inl ⟨order, hok.1, hok.2, rfl⟩
      · cases hload
  | start => exact .inr (pumpStep_cases h)
  | takeMemory => exact .inr (pumpStep_cases h)
  | takeBackend => exact .inr (pumpStep_cases h)
  | put now => exact .inr (pumpStep_cases h)

end Steps

/-! ### Calls that still have to tell the pump -/

/-- Some call is in a state with `P`. -/
def Owing (P : CallState → Prop) (calls : List CallState) : Prop :=
  ∃ j : ℕ, ∃ c, calls[j]? = some c ∧ P c

/-- A call of `Pause` or `UnPause` that has written the flag. -/
def OwesLook (c : CallState) : Prop :=
  (∃ pause, c.call = .doPause pause) ∧ c.pc ≠ .begin ∧ c.pc ≠ .returned

/-- A call of `GetChannel` whose channel is there. -/
def OwesLoad (c : CallState) : Prop := (∃ name, c.call = .getChannel name) ∧ c.pc = .notify

section Owings

variable {P : CallState → Prop} {calls : List CallState} {k : ℕ} {c d : CallState}

theorem Owing.append (h : Owing P calls) (more : List CallState) : Owing P (calls ++ more) := by
  obtain ⟨j, c, hj, hc⟩ := h
  exact ⟨j, c, (List.getElem?_append_left (List.getElem?_eq_some_iff.mp hj).1).trans hj, hc⟩

theorem owing_set (hk : calls[k]? = some c) (hd : P d) : Owing P (calls.set k d) :=
  ⟨k, d, List.getElem?_set_self (List.getElem?_eq_some_iff.mp hk).1, hd⟩

/-- A call that goes on is the only one whose state changes. -/
theorem Owing.set (h : Owing P calls) (hk : calls[k]? = some c) (hcd : P c → P d) :
    Owing P (calls.set k d) := by
  obtain ⟨j, e, hj, he⟩ := h
  by_cases hjk : k = j
  · subst hjk
    rw [hk] at hj
    cases hj
    exact owing_set hk (hcd he)
  · exact ⟨j, e, (List.getElem?_set_ne hjk).trans hj, he⟩

theorem not_owing (hcalm : ∀ c ∈ calls, c.pc = .returned) (hP : ∀ c, P c → c.pc ≠ .returned) :
    ¬ Owing P calls := by
  rintro ⟨j, c, hj, hc⟩
  exact hP c hc (hcalm c (List.mem_of_getElem? hj))

end Owings

/-! ### At rest -/

/-- The pump's list and its decision are those of the topic, or some call will tell it. -/
structure RestInv (s : State) : Prop where
  chans : s.topic.pump ≠ .waiting → s.topic.pump ≠ .loading →
    s.topic.chans.Perm s.topic.channels.values ∨ Owing OwesLoad s.calls
  sources : s.topic.pump ≠ .waiting → s.topic.pump ≠ .loading → s.checking = false →
    s.topic.sources = s.topic.evalSources.sources ∨ Owing OwesLook s.calls

section Rest

variable {s s' : State} {k : ℕ} {c : CallState}

/-- A pump that keeps its list and its decision, on a topic that changes only through calls. -/
theorem RestInv.keep (h : RestInv s)
    (hpump : s'.topic.pump ≠ .waiting → s'.topic.pump ≠ .loading →
      s.topic.pump ≠ .waiting ∧ s.topic.pump ≠ .loading)
    (hchecking : s'.checking = s.checking) (hchans : s'.topic.chans = s.topic.chans)
    (hsources : s'.topic.sources = s.topic.sources)
    (hchannels : s'.topic.channels = s.topic.channels ∨ Owing OwesLoad s'.calls)
    (hpaused : s'.topic.paused = s.topic.paused ∨ Owing OwesLook s'.calls)
    (hload : Owing OwesLoad s.calls → Owing OwesLoad s'.calls)
    (hlook : Owing OwesLook s.calls → Owing OwesLook s'.calls) : RestInv s' where
  chans hw hl := by
    obtain ⟨hw, hl⟩ := hpump hw hl
    rcases hchannels with hchannels | howes
    · rw [hchans, hchannels]
      exact (h.chans hw hl).imp_right hload
    · exact .inr howes
  sources hw hl hc := by
    obtain ⟨hw, hl⟩ := hpump hw hl
    rcases hpaused with hpaused | howes
    · have hsame : s'.topic.evalSources.sources = s.topic.evalSources.sources := by
        simp only [Topic.evalSources, hchans, hpaused]
      rw [hsources, hsame]
      exact (h.sources hw hl (hchecking ▸ hc)).imp_right hlook
    · exact .inr howes

theorem RestInv.go (h : RestInv s) (hk : s.calls[k]? = some c) (hw : Went s k c s') :
    RestInv s' := by
  cases hw with
  | store pause =>
      have howes : OwesLook ⟨.doPause pause, .read⟩ := ⟨⟨_, rfl⟩, nofun, nofun⟩
      exact h.keep (fun hw hl => ⟨hw, hl⟩) rfl rfl rfl (.inl rfl) (.inr (owing_set hk howes))
        (fun ho => ho.set hk fun hc => by cases hc.2) fun _ => owing_set hk howes
  | read pause =>
      have howes : OwesLook ⟨.doPause pause, .submit s.topic.paused⟩ := ⟨⟨_, rfl⟩, nofun, nofun⟩
      exact h.keep (fun hw hl => ⟨hw, hl⟩) rfl rfl rfl (.inl rfl) (.inl rfl)
        (fun ho => ho.set hk fun hc => by cases hc.2) fun _ => owing_set hk howes
  | apply pause value =>
      have howes : OwesLook ⟨.doPause pause, .notify⟩ := ⟨⟨_, rfl⟩, nofun, nofun⟩
      exact h.keep (fun hw hl => ⟨hw, hl⟩) rfl rfl rfl (.inl rfl) (.inr (owing_set hk howes))
        (fun ho => ho.set hk fun hc => by cases hc.2) fun _ => owing_set hk howes
  | look name pc hpc =>
      exact h.keep (fun hw hl => ⟨hw, hl⟩) rfl rfl rfl (.inl rfl) (.inl rfl)
        (fun ho => ho.set hk fun hc => by cases hc.2) fun ho => ho.set hk fun hc =>
          absurd rfl hc.2.1
  | create name =>
      have howes : OwesLoad ⟨.getChannel name, .notify⟩ := ⟨⟨_, rfl⟩, rfl⟩
      have hkeep : ∀ t : State, (s.newChannel name).setPC k ⟨.getChannel name, .create⟩ .notify =
        t →
          t.topic.pump = s.topic.pump ∧ t.checking = s.checking ∧ t.topic.chans = s.topic.chans ∧
            t.topic.sources = s.topic.sources ∧ t.topic.paused = s.topic.paused ∧
            t.calls = s.calls.set k ⟨.getChannel name, .notify⟩ := by
        rintro t rfl
        unfold State.newChannel
        split <;> exact ⟨rfl, rfl, rfl, rfl, rfl, rfl⟩
      obtain ⟨hpump, hchecking, hchans, hsources, hpaused, hcalls⟩ := hkeep _ rfl
      have hload : Owing OwesLoad ((s.newChannel name).setPC k ⟨.getChannel name, .create⟩
          .notify).calls := hcalls ▸ owing_set hk howes
      refine h.keep (fun hw hl => ⟨hpump ▸ hw, hpump ▸ hl⟩) hchecking hchans hsources (.inr hload)
        (.inl hpaused) (fun _ => hload) fun ho => ?_
      rw [hcalls]
      exact ho.set hk fun hc => by
        obtain ⟨pause, hcall⟩ := hc.1
        cases hcall

theorem RestInv.notify (h : RestInv s) (hk : s.calls[k]? = some c) (hs : s.notify k c = some s') :
    RestInv s' := by
  obtain ⟨hpc, t, ht, rfl⟩ := notify_cases hs
  rcases receive_cases ht with ⟨hpump, rfl⟩ | ⟨-, hpump, ⟨⟨pause, hcall⟩, rfl⟩ | ⟨-, rfl⟩⟩
  · exact ⟨fun hw => absurd hpump hw, fun hw => absurd hpump hw⟩
  · have hnot : ¬ OwesLoad c := by
      rintro ⟨⟨name, hname⟩, -⟩
      rw [hcall] at hname
      cases hname
    refine ⟨fun hw hl => ?_, fun _ _ hc => by cases hc⟩
    exact (h.chans hw hl).imp_right fun ho => ho.set hk fun hc => absurd hc hnot
  · exact ⟨fun _ hl => absurd rfl hl, fun _ hl => absurd rfl hl⟩

theorem RestInv.pump (h : RestInv s) {a : PumpAct} (hs : s.pump a = some s') : RestInv s' := by
  rcases pump_cases hs with ⟨order, -, hperm, rfl⟩ | ⟨-, t, hstep, rfl⟩
  · exact ⟨fun _ _ => .inl hperm, fun _ _ hc => by cases hc⟩
  · cases hstep with
    | start hpump => exact ⟨fun _ hl => absurd rfl hl, fun _ hl => absurd rfl hl⟩
    | load order hpump hperm => exact ⟨fun _ _ => .inl hperm, fun _ _ _ => .inl rfl⟩
    | takeMemory m rest hpump hsources =>
        exact h.keep (fun _ _ => by rw [hpump]; exact ⟨nofun, nofun⟩) rfl rfl rfl (.inl rfl)
          (.inl rfl)
          id id
    | takeBackend m backend hpump hsources =>
        exact h.keep (fun _ _ => by rw [hpump]; exact ⟨nofun, nofun⟩) rfl rfl rfl (.inl rfl)
          (.inl rfl)
          id id
    | badRecord backend hpump =>
        exact h.keep (fun hw hl => ⟨hw, hl⟩) rfl rfl rfl (.inl rfl) (.inl rfl) id id
    | put take p todo m hpump hm =>
        exact h.keep (fun _ _ => by rw [hpump]; exact ⟨nofun, nofun⟩) rfl rfl rfl (.inl rfl)
          (.inl rfl)
          id id
    | putAll take hpump =>
        exact h.keep (fun _ _ => by rw [hpump]; exact ⟨nofun, nofun⟩) rfl rfl rfl (.inl rfl)
          (.inl rfl)
          id id

theorem RestInv.step (h : RestInv s) {a : Act} (hs : step s a = some s') : RestInv s' := by
  cases a with
  | call c =>
      cases hs
      exact h.keep (fun hw hl => ⟨hw, hl⟩) rfl rfl rfl (.inl rfl) (.inl rfl) (fun ho => ho.append _)
        fun ho => ho.append _
  | go k =>
      obtain ⟨c, hk, hgo⟩ := Option.bind_eq_some_iff.mp hs
      exact h.go hk (go_cases hgo)
  | notify k =>
      obtain ⟨c, hk, hn⟩ := Option.bind_eq_some_iff.mp hs
      exact h.notify hk hn
  | start =>
      cases hs
      exact h.keep (fun hw hl => ⟨hw, hl⟩) rfl rfl rfl (.inl rfl) (.inl rfl) id id
  | publish memQueueSize m =>
      cases hs
      have hsame : ∃ (q : List Message) (b : BackendQueue), s.topic.put memQueueSize m =
          { s.topic with memoryMsgChan := q, backend := b } := by
        unfold Topic.put
        split
        · exact ⟨_, _, rfl⟩
        · exact ⟨_, _, rfl⟩
      obtain ⟨q, b, hput⟩ := hsame
      rw [hput]
      exact h.keep (fun hw hl => ⟨hw, hl⟩) rfl rfl rfl (.inl rfl) (.inl rfl) id id
  | pump a => exact h.pump hs
  | check =>
      simp only [PauseGate.step] at hs
      split at hs
      · cases hs
        exact ⟨h.chans, fun _ _ _ => .inl rfl⟩
      · cases hs

theorem evalSources_iff {t : Topic} (h : t.chans.Perm t.channels.values) :
    t.evalSources.sources = true ↔ t.paused = false ∧ t.channels.values ≠ [] := by
  have hnil : t.chans = [] ↔ t.channels.values = [] :=
    ⟨fun hc => List.nil_perm.mp (hc ▸ h), fun hc => List.perm_nil.mp (hc ▸ h)⟩
  simp only [Topic.evalSources, Bool.and_eq_true, Bool.not_eq_true', List.isEmpty_eq_false_iff,
    ne_eq, hnil]
  exact and_comm

theorem gatedAtRest (topic : Topic) : GatedAtRest (init topic) := by
  intro acts s hrun hcalm hstarted
  have hinit : RestInv (init topic) := ⟨fun hw => absurd rfl hw, fun hw => absurd rfl hw⟩
  have hinv := invariant_run (I := RestInv) (fun _ _ _ h hs => h.step hs) acts _ s hinit hrun
  have hload : ¬ Owing OwesLoad s.calls := not_owing hcalm fun c hc => by
    rw [hc.2]
    exact nofun
  have hlook : ¬ Owing OwesLook s.calls := not_owing hcalm fun c hc => hc.2.2
  unfold State.nextSources
  by_cases hl : s.topic.pump = .loading
  · simp only [hl, if_true, Bool.and_eq_true, Bool.not_eq_true', List.isEmpty_eq_false_iff]
    exact and_comm
  · have hchans := (hinv.chans hstarted hl).resolve_right hload
    rw [if_neg hl]
    cases hc : s.checking with
    | true => exact evalSources_iff hchans
    | false =>
        rw [if_neg (by simp), (hinv.sources hstarted hl hc).resolve_right hlook]
        exact evalSources_iff hchans

end Rest

/-! ### From a pause on -/

/-- The pump has no sources, or it has still to look at the flag. -/
def Off (s : State) : Prop :=
  s.topic.pump = .waiting ∨ s.topic.pump = .loading ∨ s.checking = true ∨ s.topic.sources = false

/-- What the call `k` of `Pause` has achieved: the flag is set once it has begun, and the pump has
nothing to take from once it is back. -/
structure PauseInv (k : ℕ) (s : State) : Prop where
  call : ∃ pc, s.calls[k]? = some ⟨.doPause true, pc⟩ ∧ (pc ≠ .begin → s.topic.paused = true) ∧
    (pc = .returned → Off s)

section Pausing

variable {s s' : State} {k j : ℕ} {c : CallState}

/-- A step of another call, or of the pump, after which the flag is still set and the pump is not
worse off. -/
theorem PauseInv.keep (h : PauseInv k s) (hcalls : ∀ pc, s.calls[k]? = some ⟨.doPause true, pc⟩ →
      s'.calls[k]? = some ⟨.doPause true, pc⟩)
    (hpaused : s.topic.paused = true → s'.topic.paused = true)
    (hpump : s.topic.paused = true → Off s → Off s') : PauseInv k s' := by
  obtain ⟨pc, hk, hset, hback⟩ := h.call
  refine ⟨pc, hcalls pc hk, fun hpc => hpaused (hset hpc), fun hpc => ?_⟩
  exact hpump (hset (by rw [hpc]; exact nofun)) (hback hpc)

/-- In a quiet state a call sets the flag if it changes it at all. -/
theorem Went.paused (hw : Went s j c s') (hquiet : ¬ UnPausing c ∧ ¬ Withdrawing c)
    (hset : s.topic.paused = true) : s'.topic.paused = true := by
  cases hw with
  | store pause =>
      cases pause with
      | true => rfl
      | false => exact absurd ⟨rfl, nofun⟩ hquiet.1
  | read pause => exact hset
  | apply pause value =>
      cases pause with
      | false => exact absurd ⟨rfl, nofun⟩ hquiet.1
      | true =>
          cases value with
          | true => rfl
          | false => exact absurd ⟨rfl, rfl⟩ hquiet.2
  | look name pc hpc => exact hset
  | create name =>
      unfold State.newChannel
      split <;> exact hset

/-- The pump is where it was, and only the call `j` has moved. -/
theorem Went.frame (hw : Went s j c s') : s'.topic.pump = s.topic.pump ∧ s'.checking = s.checking ∧
    s'.topic.sources = s.topic.sources ∧ ∃ pc, s'.calls = s.calls.set j ⟨c.call, pc⟩ ∧
      pc ≠ .returned := by
  cases hw with
  | store pause => exact ⟨rfl, rfl, rfl, _, rfl, nofun⟩
  | read pause => exact ⟨rfl, rfl, rfl, _, rfl, nofun⟩
  | apply pause value => exact ⟨rfl, rfl, rfl, _, rfl, nofun⟩
  | look name pc hpc =>
      refine ⟨rfl, rfl, rfl, pc, rfl, ?_⟩
      rcases hpc with rfl | rfl
      · exact nofun
      · exact nofun
  | create name =>
      unfold State.newChannel
      split
      · exact ⟨rfl, rfl, rfl, _, rfl, nofun⟩
      · exact ⟨rfl, rfl, rfl, _, rfl, nofun⟩

theorem PauseInv.go (h : PauseInv k s) (hj : s.calls[j]? = some c)
    (hquiet : ¬ UnPausing c ∧ ¬ Withdrawing c) (hw : Went s j c s') : PauseInv k s' := by
  obtain ⟨hpump, hchecking, hsources, pc', hcalls, hpc'⟩ := hw.frame
  by_cases hjk : j = k
  · subst hjk
    obtain ⟨pc, hk, hset, -⟩ := h.call
    rw [hj] at hk
    cases hk
    refine ⟨pc', ?_, fun _ => ?_, fun hpc => absurd hpc hpc'⟩
    · rw [hcalls, List.getElem?_set_self (List.getElem?_eq_some_iff.mp hj).1]
    · by_cases hbegin : pc = .begin
      · subst hbegin
        cases hw
        rfl
      · exact hw.paused hquiet (hset hbegin)
  · refine h.keep (fun pc hk => ?_) (hw.paused hquiet) fun _ hoff => ?_
    · rw [hcalls, List.getElem?_set_ne hjk]
      exact hk
    · unfold Off
      rw [hpump, hchecking, hsources]
      exact hoff

/-- A send leaves the pump with the flag still to look at. -/
theorem off_of_receive {call : Call} {t : State} (ht : s.receive call = some t) :
    Off t ∧ t.topic.paused = s.topic.paused ∧ t.calls = s.calls := by
  rcases receive_cases ht with ⟨hpump, rfl⟩ | ⟨-, hpump, ⟨-, rfl⟩ | ⟨-, rfl⟩⟩
  · exact ⟨.inl hpump, rfl, rfl⟩
  · exact ⟨.inr (.inr (.inl rfl)), rfl, rfl⟩
  · exact ⟨.inr (.inl rfl), rfl, rfl⟩

theorem PauseInv.notify (h : PauseInv k s) (hj : s.calls[j]? = some c)
    (hs : s.notify j c = some s') :
    PauseInv k s' := by
  obtain ⟨hpc, t, ht, rfl⟩ := notify_cases hs
  obtain ⟨hoff, hpaused, hcalls⟩ := off_of_receive ht
  obtain ⟨pc, hk, hset, -⟩ := h.call
  by_cases hjk : j = k
  · subst hjk
    rw [hj] at hk
    cases hk
    refine ⟨.returned, ?_, fun _ => ?_, fun _ => hoff⟩
    · show (t.calls.set j _)[j]? = _
      rw [hcalls, List.getElem?_set_self (List.getElem?_eq_some_iff.mp hj).1]
    · show t.topic.paused = true
      rw [hpaused]
      exact hset (by rw [show pc = .notify from hpc]; exact nofun)
  · refine h.keep (fun pc hk => ?_) (fun hset => hpaused.trans hset) fun _ _ => hoff
    show (t.calls.set j _)[k]? = _
    rw [hcalls, List.getElem?_set_ne hjk]
    exact hk

/-- A pump without sources takes nothing, and looks at a flag that is set. -/
theorem Off.pumpStep {calm : Bool} {t : Topic} (h : Off s) (hcheck : s.checking = false)
    (hset : s.topic.paused = true) (hstep : Pump.PumpStep calm s.topic t) :
    Off { s with topic := t } ∧ t.paused = true := by
  have hon : s.topic.pump = .selecting → s.topic.sources = false := by
    intro hpump
    simpa [Off, hpump, hcheck] using h
  have hputting : ∀ take todo, s.topic.pump = .putting take todo → s.topic.sources = false := by
    intro take todo hpump
    simpa [Off, hpump, hcheck] using h
  cases hstep with
  | start hpump => exact ⟨.inr (.inl rfl), hset⟩
  | load order hpump hperm =>
      refine ⟨.inr (.inr (.inr ?_)), hset⟩
      simp [Topic.evalSources, hset]
  | takeMemory m rest hpump hsources =>
      rw [hon hpump] at hsources
      cases hsources
  | takeBackend m backend hpump hsources =>
      rw [hon hpump] at hsources
      cases hsources
  | badRecord backend hpump => exact ⟨.inr (.inr (.inr (hon hpump))), hset⟩
  | put take p todo m hpump hm => exact ⟨.inr (.inr (.inr (hputting _ _ hpump))), hset⟩
  | putAll take hpump => exact ⟨.inr (.inr (.inr (hputting _ _ hpump))), hset⟩

theorem pumpStep_paused {calm : Bool} {t t' : Topic} (h : Pump.PumpStep calm t t') :
    t'.paused = t.paused := by
  cases h <;> rfl

theorem PauseInv.pump (h : PauseInv k s) {a : PumpAct}
    (hs : s.pump a = some s') : PauseInv k s' := by
  rcases pump_cases hs with ⟨order, -, hperm, rfl⟩ | ⟨hcheck, t, hstep, rfl⟩
  · exact h.keep (fun _ hk => hk) id fun _ _ => .inr (.inr (.inl rfl))
  · exact h.keep (fun _ hk => hk) (fun hset => (pumpStep_paused hstep).trans hset)
      fun hset hoff => (hoff.pumpStep hcheck hset hstep).1

theorem PauseInv.step (h : PauseInv k s) {a : Act} (hquiet : Quiet s) (hs : step s a = some s') :
    PauseInv k s' := by
  cases a with
  | call c =>
      cases hs
      refine h.keep (fun pc hk => ?_) id fun _ hoff => hoff
      exact (List.getElem?_append_left (List.getElem?_eq_some_iff.mp hk).1).trans hk
  | go j =>
      obtain ⟨c, hj, hgo⟩ := Option.bind_eq_some_iff.mp hs
      exact h.go hj (hquiet c (List.mem_of_getElem? hj)) (go_cases hgo)
  | notify j =>
      obtain ⟨c, hj, hn⟩ := Option.bind_eq_some_iff.mp hs
      exact h.notify hj hn
  | start =>
      cases hs
      exact h.keep (fun _ hk => hk) id fun _ hoff => hoff
  | publish memQueueSize m =>
      cases hs
      unfold Topic.put
      split
      · exact h.keep (fun _ hk => hk) id fun _ hoff => hoff
      · exact h.keep (fun _ hk => hk) id fun _ hoff => hoff
  | pump a => exact h.pump hs
  | check =>
      simp only [PauseGate.step] at hs
      split at hs
      · cases hs
        refine h.keep (fun _ hk => hk) id fun hset _ => .inr (.inr (.inr ?_))
        simp [Topic.evalSources, hset]
      · cases hs

/-- A message is taken in `select`, from the sources. -/
theorem takes_cases {a : Act} (ha : a.Takes) (hs : step s a = some s') :
    s.checking = false ∧ s.topic.pump = .selecting ∧ s.topic.sources = true := by
  obtain ⟨b, rfl, hb⟩ : ∃ b, a = .pump b ∧ (b = .takeMemory ∨ b = .takeBackend) := by
    cases a with
    | pump b =>
        cases b with
        | takeMemory => exact ⟨_, rfl, .inl rfl⟩
        | takeBackend => exact ⟨_, rfl, .inr rfl⟩
        | start => cases ha
        | load order => cases ha
        | put now => cases ha
    | call c => cases ha
    | go j => cases ha
    | notify j => cases ha
    | start => cases ha
    | publish n m => cases ha
    | check => cases ha
  have hpump : s.pumpStep b = some s' := by
    rcases hb with rfl | rfl
    · exact hs
    · exact hs
  unfold State.pumpStep at hpump
  split at hpump
  · cases hpump
  · rename_i hcheck
    obtain ⟨t, ht, -⟩ := Option.map_eq_some_iff.mp hpump
    refine ⟨Bool.eq_false_iff.mpr hcheck, ?_⟩
    rcases hb with rfl | rfl
    · simp only [Topic.pumpStep] at ht
      split at ht
      · rename_i hsel hm
        exact ⟨hsel, (Option.ite_none_right_eq_some.mp ht).1⟩
      · cases ht
    · simp only [Topic.pumpStep] at ht
      split at ht
      · rename_i hsel hb
        exact ⟨hsel, (Option.ite_none_right_eq_some.mp ht).1⟩
      · cases ht

theorem Off.takesNothing (h : Off s) : TakesNothing s := by
  intro a ha
  by_contra hstep
  obtain ⟨s', hs⟩ := Option.ne_none_iff_exists'.mp hstep
  obtain ⟨hcheck, hpump, hsources⟩ := takes_cases ha hs
  simp [Off, hcheck, hpump, hsources] at h

theorem gatedFromBegin (topic : Topic) : GatedFromBegin (init topic) := by
  intro acts s k _ hk more t hrun hquiet hback
  have hbegin : PauseInv k s := ⟨.begin, hk, fun h => absurd rfl h, nofun⟩
  have hinv := invariant_along (I := PauseInv k) (fun _ _ _ h hq hs => h.step hq hs) more s t hbegin
    hquiet hrun
  obtain ⟨pc, hpc, -, hoff⟩ := hinv.call
  rw [hback] at hpc
  cases hpc
  exact (hoff rfl).takesNothing

end Pausing

/-- **Pausing a topic**: at rest the pump takes messages exactly when the topic is not paused and
has a channel, and a `Pause` holds from its return on while no `UnPause` is under way since its
begin. -/
theorem pause_gating (topic : Topic) : GatedAtRest (init topic) ∧ GatedFromBegin (init topic) :=
  ⟨gatedAtRest topic, gatedFromBegin topic⟩

/-- A channel, a pump with sources, a message, and a `Pause` that has submitted its flag; an
`UnPause` comes and goes before the `Pause` tells the pump. -/
def overtaken : List Act :=
  [.call (.getChannel "c"), .go 0, .go 0, .notify 0, .pump .start, .pump (.load [0]), .check,
    .publish 1 (newMessage (Vector.replicate 16 1) [1] 0), .call (.doPause true), .go 1, .go 1,
      .go 1,
    .call (.doPause false), .go 2, .go 2, .go 2, .notify 2, .check]

/-- **A pause that does not hold.** The `UnPause` is back before the `Pause` is, and the pump takes
a message after that. -/
theorem pause_overtaken :
    ¬ GatedFromReturn (init (Pump.newTopic (BackendQueue.diskQueue fun _ => none))) := by
  intro h
  obtain ⟨s, hs, hk, hafter⟩ := exists_of_run step
    (init (Pump.newTopic (BackendQueue.diskQueue fun _ => none))) overtaken
    (fun s => s.calls[1]? = some ⟨.doPause true, .notify⟩ ∧
      ((step s (.notify 1)).any fun s' => decide (NoUnPause s') &&
        (step s' .check).any fun t => decide (NoUnPause t) &&
          (step t (.pump .takeMemory)).isSome) = true) (by decide)
  obtain ⟨s', hs', hafter⟩ := (Option.any_eq_true _ _).mp hafter
  obtain ⟨hquiet, hafter⟩ := Bool.and_eq_true_iff.mp hafter
  obtain ⟨t, ht, hafter⟩ := (Option.any_eq_true _ _).mp hafter
  obtain ⟨hquiet', htake⟩ := Bool.and_eq_true_iff.mp hafter
  have hrun : run step s' [.check] = some t := (run_cons Act.check [] t ht).mpr rfl
  have halong : Along step (fun s _ => NoUnPause s) s' [.check] := by
    refine ⟨of_decide_eq_true hquiet, ?_⟩
    rw [ht]
    trivial
  have hnone := h overtaken s 1 s' hs hk hs' [.check] t hrun halong (of_decide_eq_true hquiet')
    (.pump .takeMemory) trivial
  rw [hnone] at htake
  cases htake

end Xmq.PauseGate
