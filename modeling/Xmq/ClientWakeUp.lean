import Xmq.Runs

/-!
# The ready state of a client and the pump that waits for it

The message pump of a client reads the pause flag of the channel, `ReadyCount` and `InFlightCount`,
one after the other, and takes no messages while they say that the client is not ready. Who writes one
of the three then sends on `ReadyStateChan` without waiting, and where the buffer is full the send is
dropped. A pump that went to sleep too early still has a token to find.

* Every read, write and send is a step of its own, and any number of writers are under way.
* A token that is handed to a waiting pump is a send that the pump receives at once.
-/

namespace Xmq.WakeUp

/-! ### The ready state -/

/-- What writes the ready state: `SetReadyCount`, `FinishedMessage`, `RequeuedMessage`,
`TimedOutMessage` and `Empty` of the client, and `Pause` and `UnPause` of the channel. -/
inductive Write where
  | setReadyCount (count : Int64)
  | finishedMessage
  | requeuedMessage
  | timedOutMessage
  | empty
  | doPause (pause : Bool)
  deriving DecidableEq

/-- How far a writer has come. `doPause` reaches the client by way of the channel's clients. -/
inductive Writer where
  | write (w : Write)
  | send (viaChannel : Bool)
  | done
  deriving DecidableEq

inductive PumpPC where
  | top
  | notPaused
  | readReadyCount (readyCount : Int64)
  | blocked (enabled : Bool)
  | taken
  | exited
  deriving DecidableEq

/-- `SUB`: adds the client to the channel, then tells the pump. -/
inductive SubPC where
  | before
  | added
  | done
  deriving DecidableEq

/-- `subscribed` is the pump's own: it has got the channel. `member` says that the channel's clients
hold the client, `exiting` that `ExitChan` is closed. -/
structure State where
  paused : Bool
  readyCount : Int64
  inFlightCount : Int64
  readyStateChan : Bool
  subEventChan : Bool
  member : Bool
  exiting : Bool
  sub : SubPC
  subscribed : Bool
  pump : PumpPC
  writers : List Writer
  deriving DecidableEq

/-- A new client on a channel that is paused or not. -/
def init (paused : Bool) : State where
  paused := paused
  readyCount := 0
  inFlightCount := 0
  readyStateChan := false
  subEventChan := false
  member := false
  exiting := false
  sub := .before
  subscribed := false
  pump := .top
  writers := []

/-- The last two tests of `IsReadyForMessages`. -/
def countsReady (inFlightCount readyCount : Int64) : Bool :=
  !(decide (inFlightCount ≥ readyCount) || decide (readyCount ≤ 0))

/-- What `IsReadyForMessages` says when nothing changes meanwhile. -/
def State.isReadyForMessages (s : State) : Bool :=
  !s.paused && countsReady s.inFlightCount s.readyCount

/-! ### Steps -/

inductive Act where
  | call (w : Write)
  | writer (k : ℕ)
  | addClient
  | sendSub
  | close
  | removeClient
  | eval
  | receiveToken
  | receiveSub
  | otherEvent
  | takeMessage
  | sendingMessage
  | exit
  deriving DecidableEq

def State.setWriter (s : State) (k : ℕ) (w : Writer) : State :=
  { s with writers := s.writers.set k w }

/-- The write, and whether and how the writer sends. `SetReadyCount` sends only a change. -/
def State.write (s : State) : Write → State × Writer
  | .setReadyCount count =>
    ({ s with readyCount := count }, if s.readyCount ≠ count then .send false else .done)
  | .finishedMessage => ({ s with inFlightCount := s.inFlightCount - 1 }, .send false)
  | .requeuedMessage => ({ s with inFlightCount := s.inFlightCount - 1 }, .send false)
  | .timedOutMessage => ({ s with inFlightCount := s.inFlightCount - 1 }, .send false)
  | .empty => ({ s with inFlightCount := 0 }, .send false)
  | .doPause pause => ({ s with paused := pause }, .send true)

/-- `tryUpdateReadyState`, of the client or of every client of the channel. -/
def State.tryUpdateReadyState (s : State) (viaChannel : Bool) : State :=
  if viaChannel && !s.member then s else { s with readyStateChan := true }

def State.stepWriter (s : State) (k : ℕ) : Option State :=
  match s.writers[k]? with
  | some (.write w) => some ((s.write w).1.setWriter k (s.write w).2)
  | some (.send viaChannel) => some ((s.tryUpdateReadyState viaChannel).setWriter k .done)
  | some .done => none
  | none => none

/-- The next read at the top of the loop. -/
def State.eval (s : State) : Option State :=
  match s.pump with
  | .top =>
    if !s.subscribed || s.paused then some { s with pump := .blocked false }
    else some { s with pump := .notPaused }
  | .notPaused => some { s with pump := .readReadyCount s.readyCount }
  | .readReadyCount readyCount =>
    some { s with pump := .blocked (countsReady s.inFlightCount readyCount) }
  | .blocked _ => none
  | .taken => none
  | .exited => none

def step (s : State) : Act → Option State
  | .call w => some { s with writers := s.writers ++ [.write w] }
  | .writer k => s.stepWriter k
  | .addClient =>
    if s.sub = .before then some { s with sub := .added, member := true } else none
  | .sendSub =>
    if s.sub = .added then some { s with sub := .done, subEventChan := true } else none
  -- The loop that reads commands ends between two commands.
  | .close => if s.sub = .added then none else some { s with exiting := true }
  | .removeClient =>
    if s.exiting ∧ s.sub = .done then some { s with member := false } else none
  | .eval => s.eval
  | .receiveToken =>
    if s.pump = .blocked true ∨ s.pump = .blocked false then
      if s.readyStateChan then some { s with readyStateChan := false, pump := .top } else none
    else none
  | .receiveSub =>
    if s.pump = .blocked true ∨ s.pump = .blocked false then
      if s.subEventChan then
        some { s with subEventChan := false, subscribed := true, pump := .top }
      else none
    else none
  -- A tick of the flusher or the heartbeat, IDENTIFY's event, or a message that is not sent.
  | .otherEvent =>
    if s.pump = .blocked true ∨ s.pump = .blocked false then some { s with pump := .top } else none
  | .takeMessage => if s.pump = .blocked true then some { s with pump := .taken } else none
  | .sendingMessage =>
    if s.pump = .taken then some { s with inFlightCount := s.inFlightCount + 1, pump := .top }
    else none
  | .exit => if s.pump = .exited then none else some { s with pump := .exited }

/-- The pump's own steps. -/
def Act.ofPump : Act → Prop
  | .eval | .receiveToken | .receiveSub | .otherEvent | .takeMessage | .sendingMessage | .exit => True
  | .call _ | .writer _ | .addClient | .sendSub | .close | .removeClient => False

/-! ### What a sleeping pump still has to find -/

/-- A writer has written and will send to the client. -/
def State.sendPending (s : State) : Prop :=
  ∃ viaChannel, .send viaChannel ∈ s.writers

/-- A token, or a writer that will put one there. -/
def State.signalled (s : State) : Prop := s.readyStateChan ∨ s.sendPending

/-- What holds at each place of the pump that has the channel: what it read is still so, or it will be
told. -/
def Watched (s : State) : Prop :=
  match s.pump with
  | .readReadyCount readyCount => readyCount = s.readyCount ∨ s.signalled
  | .blocked false => s.isReadyForMessages = true → s.signalled
  | .blocked true => True
  | .top => True
  | .notPaused => True
  | .taken => True
  | .exited => True

structure Inv (s : State) : Prop where
  /-- The client is in the channel from before the pump has it until the connection closes. -/
  member : s.sub ≠ .before → s.member ∨ s.exiting
  waiting : s.sub = .done → s.subscribed ∨ s.subEventChan
  early : s.sub ≠ .done → s.subscribed = false ∧ s.subEventChan = false
  before : s.sub = .before → s.member = false
  watched : s.subscribed → s.member → Watched s

theorem init_inv (paused : Bool) : Inv (init paused) where
  member := fun h => absurd rfl h
  waiting := nofun
  early := fun _ => ⟨rfl, rfl⟩
  before := fun _ => rfl
  watched := nofun

section Steps

variable {s t : State}

/-- A signal is enough at every place. -/
theorem watched_of_signalled (h : s.signalled) : Watched s := by
  unfold Watched
  split
  · exact Or.inr h
  · exact fun _ => h
  all_goals trivial

/-- Steps that leave the ready state and the pump alone and take no signal away. -/
theorem Watched.mono (h : Watched s) (hpump : t.pump = s.pump) (hpaused : t.paused = s.paused)
    (hready : t.readyCount = s.readyCount) (hflight : t.inFlightCount = s.inFlightCount)
    (hsig : s.signalled → t.signalled) : Watched t := by
  unfold Watched at h ⊢
  rw [hpump]
  split at h
  · rw [hready]
    exact h.imp_right hsig
  · rw [State.isReadyForMessages, hpaused, hready, hflight]
    exact fun hr => hsig (h hr)
  all_goals trivial

theorem watched_top (h : t.pump = .top) : Watched t := by
  rw [Watched, h]
  trivial

/-- Writing over a writer that does not send loses no pending send. -/
theorem sendPending_setWriter {k : ℕ} {w w' : Writer} (hk : s.writers[k]? = some w)
    (hw : ∀ v, w ≠ .send v) (h : s.sendPending) : (s.setWriter k w').sendPending := by
  obtain ⟨v, hv⟩ := h
  obtain ⟨j, hj⟩ := List.mem_iff_getElem?.mp hv
  have hjk : k ≠ j := by
    rintro rfl
    rw [hk] at hj
    exact hw v (Option.some.inj hj)
  refine ⟨v, List.mem_iff_getElem?.mpr ⟨j, ?_⟩⟩
  show (s.writers.set k w')[j]? = some (.send v)
  rw [List.getElem?_set_ne hjk, hj]

theorem sendPending_of_setWriter {k : ℕ} {w : Writer} {v : Bool} (hk : s.writers[k]? = some w) :
    (s.setWriter k (.send v)).sendPending := by
  obtain ⟨hlt, -⟩ := List.getElem?_eq_some_iff.mp hk
  exact ⟨v, List.mem_iff_getElem?.mpr ⟨k, List.getElem?_set_self hlt⟩⟩

/-- A write either changes nothing, or will be followed by a send. -/
theorem write_cases (s : State) (w : Write) :
    s.write w = (s, .done) ∨ ∃ v, (s.write w).2 = .send v := by
  cases w with
  | setReadyCount count =>
      by_cases h : s.readyCount = count
      · left
        subst h
        simp [State.write]
      · right
        exact ⟨false, if_pos h⟩
  | finishedMessage => exact Or.inr ⟨false, rfl⟩
  | requeuedMessage => exact Or.inr ⟨false, rfl⟩
  | timedOutMessage => exact Or.inr ⟨false, rfl⟩
  | empty => exact Or.inr ⟨false, rfl⟩
  | doPause pause => exact Or.inr ⟨true, rfl⟩

/-- A write concerns the ready state only. -/
theorem write_frame (s : State) (w : Write) :
    (s.write w).1.pump = s.pump ∧ (s.write w).1.sub = s.sub ∧ (s.write w).1.member = s.member ∧
      (s.write w).1.exiting = s.exiting ∧ (s.write w).1.subscribed = s.subscribed ∧
      (s.write w).1.subEventChan = s.subEventChan ∧ (s.write w).1.writers = s.writers := by
  cases w <;> exact ⟨rfl, rfl, rfl, rfl, rfl, rfl, rfl⟩

theorem tryUpdateReadyState_frame (s : State) (v : Bool) :
    (s.tryUpdateReadyState v).pump = s.pump ∧ (s.tryUpdateReadyState v).sub = s.sub ∧
      (s.tryUpdateReadyState v).member = s.member ∧
      (s.tryUpdateReadyState v).exiting = s.exiting ∧
      (s.tryUpdateReadyState v).subscribed = s.subscribed ∧
      (s.tryUpdateReadyState v).subEventChan = s.subEventChan := by
  rw [State.tryUpdateReadyState]
  split <;> exact ⟨rfl, rfl, rfl, rfl, rfl, rfl⟩

/-- What a writer's step can be. -/
theorem stepWriter_cases {k : ℕ} (h : s.stepWriter k = some t) :
    (∃ w, s.writers[k]? = some (.write w) ∧ t = (s.write w).1.setWriter k (s.write w).2) ∨
      ∃ v, s.writers[k]? = some (.send v) ∧ t = (s.tryUpdateReadyState v).setWriter k .done := by
  unfold State.stepWriter at h
  split at h
  · rename_i w hk
    exact Or.inl ⟨w, hk, (Option.some.inj h).symm⟩
  · rename_i v hk
    exact Or.inr ⟨v, hk, (Option.some.inj h).symm⟩
  · cases h
  · cases h

theorem stepWriter_watched {k : ℕ} (h : s.stepWriter k = some t) (hmember : t.member)
    (hw : Watched s) : Watched t := by
  rcases stepWriter_cases h with ⟨w, hk, rfl⟩ | ⟨v, hk, rfl⟩
  · rcases write_cases s w with hsame | ⟨v, hsend⟩
    · rw [hsame]
      refine hw.mono rfl rfl rfl rfl fun hsig => hsig.imp_right ?_
      exact sendPending_setWriter hk (fun v hv => by cases hv)
    · rw [hsend]
      refine watched_of_signalled (Or.inr (sendPending_of_setWriter (w := .write w) ?_))
      rw [(write_frame s w).2.2.2.2.2.2, hk]
  · have hmem : s.member = true := by
      rw [← (tryUpdateReadyState_frame s v).2.2.1]
      exact hmember
    refine watched_of_signalled (Or.inl ?_)
    show (s.tryUpdateReadyState v).readyStateChan = true
    rw [State.tryUpdateReadyState, hmem, Bool.not_true, Bool.and_false]
    rfl

/-- The reads of the pump. -/
theorem eval_watched (h : s.eval = some t) (hsub : s.subscribed) (hw : Watched s) : Watched t := by
  unfold State.eval at h
  split at h
  · rw [hsub] at h
    split at h
    · rename_i hpaused
      cases h
      have hpaused : s.paused = true := hpaused
      intro hr
      rw [State.isReadyForMessages, hpaused] at hr
      cases hr
    · cases h
      trivial
  · cases h
    exact Or.inl rfl
  · rename_i r hpc
    cases h
    rw [Watched, hpc] at hw
    rw [Watched]
    cases hc : countsReady s.inFlightCount r with
    | true => trivial
    | false =>
        intro hr
        rcases hw with rfl | hsig
        · rw [State.isReadyForMessages, hc, Bool.and_false] at hr
          cases hr
        · exact hsig
  · cases h
  · cases h
  · cases h

/-- A step that only the ready state, the pump or the writers can tell. -/
theorem Inv.of_frame (hi : Inv s) (hsub : t.sub = s.sub) (hmember : t.member = s.member)
    (hexit : t.exiting = s.exiting) (hsubscribed : t.subscribed = s.subscribed)
    (hevent : t.subEventChan = s.subEventChan)
    (hw : s.subscribed → s.member → Watched s → Watched t) : Inv t where
  member := by
    rw [hsub, hmember, hexit]
    exact hi.member
  waiting := by
    rw [hsub, hsubscribed, hevent]
    exact hi.waiting
  early := by
    rw [hsub, hsubscribed, hevent]
    exact hi.early
  before := by
    rw [hsub, hmember]
    exact hi.before
  watched := by
    rw [hsubscribed, hmember]
    exact fun h1 h2 => hw h1 h2 (hi.watched h1 h2)

theorem Inv.writer {k : ℕ} (h : s.stepWriter k = some t) (hi : Inv s) : Inv t := by
  have hw : s.member → Watched s → Watched t := by
    intro hmem
    apply stepWriter_watched h
    rcases stepWriter_cases h with ⟨w, -, rfl⟩ | ⟨v, -, rfl⟩
    · exact (write_frame s w).2.2.1.trans hmem
    · exact (tryUpdateReadyState_frame s v).2.2.1.trans hmem
  rcases stepWriter_cases h with ⟨w, -, rfl⟩ | ⟨v, -, rfl⟩
  · obtain ⟨-, hsub, hmember, hexit, hsubscribed, hevent, -⟩ := write_frame s w
    exact hi.of_frame hsub hmember hexit hsubscribed hevent fun _ => hw
  · obtain ⟨-, hsub, hmember, hexit, hsubscribed, hevent⟩ := tryUpdateReadyState_frame s v
    exact hi.of_frame hsub hmember hexit hsubscribed hevent fun _ => hw

theorem Inv.eval (h : s.eval = some t) (hi : Inv s) : Inv t := by
  have hw : s.subscribed → s.member → Watched s → Watched t := fun hsub _ => eval_watched h hsub
  unfold State.eval at h
  split at h
  · split at h
    · cases h
      exact hi.of_frame rfl rfl rfl rfl rfl hw
    · cases h
      exact hi.of_frame rfl rfl rfl rfl rfl hw
  · cases h
    exact hi.of_frame rfl rfl rfl rfl rfl hw
  · cases h
    exact hi.of_frame rfl rfl rfl rfl rfl hw
  · cases h
  · cases h
  · cases h

/-- The steps that send the pump to the top of its loop. -/
theorem Inv.of_top (hi : Inv s) (hsub : t.sub = s.sub) (hmember : t.member = s.member)
    (hexit : t.exiting = s.exiting) (hsubscribed : t.subscribed = s.subscribed)
    (hevent : t.subEventChan = s.subEventChan) (hpump : t.pump = .top) : Inv t :=
  hi.of_frame hsub hmember hexit hsubscribed hevent fun _ _ _ => watched_top hpump

theorem Inv.receiveSub (hi : Inv s) (hevent : s.subEventChan = true) :
    Inv { s with subEventChan := false, subscribed := true, pump := .top } := by
  have hdone : s.sub = .done := by
    by_contra hne
    rw [(hi.early hne).2] at hevent
    cases hevent
  exact
    { member := hi.member
      waiting := fun _ => Or.inl rfl
      early := fun hne => absurd hdone hne
      before := hi.before
      watched := fun _ _ => watched_top rfl }

theorem Inv.addClient (hi : Inv s) (h : s.sub = .before) :
    Inv { s with sub := .added, member := true } := by
  have hearly := hi.early (by rw [h]; decide)
  exact
    { member := fun _ => Or.inl rfl
      waiting := nofun
      early := fun _ => hearly
      before := nofun
      watched := fun hsub => by
        rw [hearly.1] at hsub
        cases hsub }

theorem Inv.sendSub (hi : Inv s) (h : s.sub = .added) :
    Inv { s with sub := .done, subEventChan := true } := by
  have hearly := hi.early (by rw [h]; decide)
  exact
    { member := fun _ => hi.member (by rw [h]; decide)
      waiting := fun _ => Or.inr rfl
      early := fun hne => absurd rfl hne
      before := nofun
      watched := fun hsub => by
        rw [hearly.1] at hsub
        cases hsub }

theorem Inv.step {a : Act} (h : step s a = some t) (hi : Inv s) : Inv t := by
  cases a with
  | call w =>
      cases h
      refine hi.of_frame rfl rfl rfl rfl rfl fun _ _ hw => hw.mono rfl rfl rfl rfl fun hsig => ?_
      exact hsig.imp_right fun ⟨v, hv⟩ => ⟨v, List.mem_append_left _ hv⟩
  | writer k => exact hi.writer h
  | addClient =>
      obtain ⟨hsub, ht⟩ := Option.ite_none_right_eq_some.mp h
      cases ht
      exact hi.addClient hsub
  | sendSub =>
      obtain ⟨hsub, ht⟩ := Option.ite_none_right_eq_some.mp h
      cases ht
      exact hi.sendSub hsub
  | close =>
      obtain ⟨-, ht⟩ := Option.ite_none_left_eq_some.mp h
      cases ht
      exact
        { member := fun _ => Or.inr rfl
          waiting := hi.waiting
          early := hi.early
          before := hi.before
          watched := hi.watched }
  | removeClient =>
      obtain ⟨hguard, ht⟩ := Option.ite_none_right_eq_some.mp h
      cases ht
      exact
        { member := fun _ => Or.inr hguard.1
          waiting := hi.waiting
          early := hi.early
          before := fun _ => rfl
          watched := fun _ hmem => by cases hmem }
  | eval => exact hi.eval h
  | receiveToken =>
      obtain ⟨-, h⟩ := Option.ite_none_right_eq_some.mp h
      obtain ⟨-, ht⟩ := Option.ite_none_right_eq_some.mp h
      cases ht
      exact hi.of_top rfl rfl rfl rfl rfl rfl
  | receiveSub =>
      obtain ⟨-, h⟩ := Option.ite_none_right_eq_some.mp h
      obtain ⟨hevent, ht⟩ := Option.ite_none_right_eq_some.mp h
      cases ht
      exact hi.receiveSub hevent
  | otherEvent =>
      obtain ⟨-, ht⟩ := Option.ite_none_right_eq_some.mp h
      cases ht
      exact hi.of_top rfl rfl rfl rfl rfl rfl
  | takeMessage =>
      obtain ⟨-, ht⟩ := Option.ite_none_right_eq_some.mp h
      cases ht
      exact hi.of_frame rfl rfl rfl rfl rfl fun _ _ _ => trivial
  | sendingMessage =>
      obtain ⟨-, ht⟩ := Option.ite_none_right_eq_some.mp h
      cases ht
      exact hi.of_top rfl rfl rfl rfl rfl rfl
  | exit =>
      obtain ⟨-, ht⟩ := Option.ite_none_left_eq_some.mp h
      cases ht
      exact hi.of_frame rfl rfl rfl rfl rfl fun _ _ _ => trivial

end Steps

/-! ### No lost wake-up -/

theorem run_inv {paused : Bool} {acts : List Act} {s : State}
    (hr : Runs.run step (init paused) acts = some s) : Inv s :=
  Runs.invariant_run (fun _ _ _ hi h => hi.step h) acts _ s (init_inv paused) hr

/-- One of the cases of the `select` can be taken. -/
def State.selectable (s : State) : Prop :=
  s.readyStateChan ∨ s.subEventChan ∨ s.exiting

/-- A pump that waits takes a step when it can, and a writer that has written sends. -/
structure Fair {s : State} (e : Runs.Execution step s) : Prop where
  pump : ∀ n, (e.state n).pump = .blocked false → (e.state n).selectable →
    ∃ m, n ≤ m ∧ ∃ a ∈ e.act m, a.ofPump
  writer : ∀ n k v, (e.state n).writers[k]? = some (.send v) → ∃ m, n ≤ m ∧ .writer k ∈ e.act m

/-- While the writer `k` is about to send to a pump that waits. -/
def AboutToSend (k : ℕ) (v : Bool) (s : State) : Prop :=
  s.pump = .blocked false ∧ s.writers[k]? = some (.send v) ∧ (s.member ∨ s.exiting)

section Waking

variable {s t : State} {k : ℕ} {v : Bool}

/-- The steps of the others leave it about to send. -/
theorem AboutToSend.other {a : Act} (h : AboutToSend k v s) (hother : ¬ (a.ofPump ∨ a = .writer k))
    (ht : step s a = some t) : AboutToSend k v t := by
  obtain ⟨hpump, hk, hmember⟩ := h
  have hnot : ¬ a.ofPump := fun h => hother (Or.inl h)
  cases a with
  | call w =>
      cases ht
      obtain ⟨hlt, -⟩ := List.getElem?_eq_some_iff.mp hk
      exact ⟨hpump, by rw [List.getElem?_append_left hlt, hk], hmember⟩
  | writer j =>
      have hjk : j ≠ k := fun heq => hother (Or.inr (congrArg Act.writer heq))
      rcases stepWriter_cases ht with ⟨w, -, rfl⟩ | ⟨v', -, rfl⟩
      · obtain ⟨hp, -, hm, he, -, -, hws⟩ := write_frame s w
        refine ⟨hp.trans hpump, ?_, by rw [← hm, ← he] at hmember; exact hmember⟩
        show ((s.write w).1.writers.set j (s.write w).2)[k]? = _
        rw [List.getElem?_set_ne hjk, hws, hk]
      · obtain ⟨hp, -, hm, he, -, -⟩ := tryUpdateReadyState_frame s v'
        refine ⟨hp.trans hpump, ?_, by rw [← hm, ← he] at hmember; exact hmember⟩
        show ((s.tryUpdateReadyState v').writers.set j .done)[k]? = _
        have hws : (s.tryUpdateReadyState v').writers = s.writers := by
          rw [State.tryUpdateReadyState]
          split <;> rfl
        rw [List.getElem?_set_ne hjk, hws, hk]
  | addClient =>
      obtain ⟨-, ht⟩ := Option.ite_none_right_eq_some.mp ht
      cases ht
      exact ⟨hpump, hk, Or.inl rfl⟩
  | sendSub =>
      obtain ⟨-, ht⟩ := Option.ite_none_right_eq_some.mp ht
      cases ht
      exact ⟨hpump, hk, hmember⟩
  | close =>
      obtain ⟨-, ht⟩ := Option.ite_none_left_eq_some.mp ht
      cases ht
      exact ⟨hpump, hk, Or.inr rfl⟩
  | removeClient =>
      obtain ⟨hguard, ht⟩ := Option.ite_none_right_eq_some.mp ht
      cases ht
      exact ⟨hpump, hk, Or.inr hguard.1⟩
  | eval => exact absurd trivial hnot
  | receiveToken => exact absurd trivial hnot
  | receiveSub => exact absurd trivial hnot
  | otherEvent => exact absurd trivial hnot
  | takeMessage => exact absurd trivial hnot
  | sendingMessage => exact absurd trivial hnot
  | exit => exact absurd trivial hnot

/-- The send leaves a token, or the connection is closing. -/
theorem AboutToSend.send (h : AboutToSend k v s) (ht : step s (.writer k) = some t) :
    t.pump = .blocked false ∧ t.selectable := by
  obtain ⟨hpump, hk, hmember⟩ := h
  rcases stepWriter_cases ht with ⟨w, hk', -⟩ | ⟨v', -, rfl⟩
  · rw [hk] at hk'
    cases hk'
  · obtain ⟨hp, -, -, he, -, -⟩ := tryUpdateReadyState_frame s v'
    refine ⟨hp.trans hpump, ?_⟩
    rcases hmember with hmem | hexit
    · left
      show (s.tryUpdateReadyState v').readyStateChan = true
      rw [State.tryUpdateReadyState, hmem, Bool.not_true, Bool.and_false]
      rfl
    · exact Or.inr (Or.inr (he.trans hexit))

end Waking

section Fairness

variable {paused : Bool} (e : Runs.Execution step (init paused))

/-- A waiting pump that a writer is about to tell does not wait forever. -/
theorem wakes_of_pending (hfair : Fair e) {n k : ℕ} {v : Bool} (h : AboutToSend k v (e.state n)) :
    ∃ m, n ≤ m ∧ ∃ a ∈ e.act m, a.ofPump := by
  obtain ⟨m, hm, hsend⟩ := hfair.writer n k v h.2.1
  obtain ⟨d, rfl⟩ := Nat.exists_eq_add_of_le hm
  obtain ⟨j, hj, habout, a, ha, hstop⟩ :=
    e.exists_first (AboutToSend k v) (fun a => a.ofPump ∨ a = .writer k)
      (fun _ _ _ hP hstop ht => hP.other hstop ht) d h ⟨.writer k, hsend, Or.inr rfl⟩
  rcases hstop with hpump | rfl
  · exact ⟨j, hj, a, ha, hpump⟩
  · obtain ⟨hblocked, hselect⟩ := habout.send (e.next j _ ha)
    obtain ⟨i, hi, h⟩ := hfair.pump (j + 1) hblocked hselect
    exact ⟨i, by omega, h⟩

/-- **A subscribed client that is ready is not left waiting.** -/
theorem wakes (hfair : Fair e) {n : ℕ} (hsub : (e.state n).sub = .done)
    (hpump : (e.state n).pump = .blocked false) (hready : (e.state n).isReadyForMessages) :
    ∃ m, n ≤ m ∧ ∃ a ∈ e.act m, a.ofPump := by
  have hi : Inv (e.state n) := e.invariant (fun _ _ _ hi h => hi.step h) (init_inv paused) n
  rcases hi.member (by rw [hsub]; decide) with hmember | hexit
  · rcases hi.waiting hsub with hsubscribed | hevent
    · have hwatched := hi.watched hsubscribed hmember
      rw [Watched, hpump] at hwatched
      rcases hwatched hready with htoken | ⟨v, hv⟩
      · exact hfair.pump n hpump (Or.inl htoken)
      · obtain ⟨k, hk⟩ := List.mem_iff_getElem?.mp hv
        exact wakes_of_pending e hfair ⟨hpump, hk, Or.inl hmember⟩
    · exact hfair.pump n hpump (Or.inr (Or.inl hevent))
  · exact hfair.pump n hpump (Or.inr (Or.inr hexit))

end Fairness

/-- What the pump of a client of the channel can rely on after a run. -/
structure NoneLost (s : State) : Prop where
  /-- The pump has the channel and sleeps, and the client is ready. -/
  signalled : s.subscribed → s.member → s.pump = .blocked false → s.isReadyForMessages →
    s.readyStateChan ∨ s.sendPending
  /-- The pump does not have the channel yet. -/
  subscription : s.sub = .done → s.subscribed = false → s.subEventChan

theorem Inv.noneLost {s : State} (hi : Inv s) : NoneLost s where
  signalled := fun hsub hmember hpump hready => by
    have hwatched := hi.watched hsub hmember
    rw [Watched, hpump] at hwatched
    exact hwatched hready
  subscription := fun hdone hsub => by
    rcases hi.waiting hdone with h | h
    · rw [hsub] at h
      cases h
    · exact h

/-- **No wake-up is lost.** Whatever the writers and the pump do, a pump that sleeps while the client is
ready has a token or will get one; and in a fair execution it does not sleep forever. -/
theorem no_lost_wake_up (paused : Bool) :
    (∀ acts s, Runs.run step (init paused) acts = some s → NoneLost s) ∧
    ∀ e : Runs.Execution step (init paused), Fair e → ∀ n, (e.state n).sub = .done →
      (e.state n).pump = .blocked false → (e.state n).isReadyForMessages →
      ∃ m, n ≤ m ∧ ∃ a ∈ e.act m, a.ofPump :=
  ⟨fun _ _ hr => (run_inv hr).noneLost, fun e hfair _ => wakes e hfair⟩

/-- The pump sleeps on an old `ReadyCount`, and only the send of `SetReadyCount` is left to wake it. -/
theorem no_lost_wake_up_asleep : ∃ s, Runs.run step (init false)
    [.eval, .addClient, .sendSub, .receiveSub, .eval, .call (.setReadyCount 1), .eval, .writer 0,
      .eval] = some s ∧ s.readyStateChan = false ∧ (s.readyStateChan ∨ s.sendPending) := by
  obtain ⟨s, hr, hsub, hmember, hpump, hready, htoken⟩ := Runs.exists_of_run step (init false)
    [.eval, .addClient, .sendSub, .receiveSub, .eval, .call (.setReadyCount 1), .eval, .writer 0,
      .eval] (fun s => s.subscribed ∧ s.member ∧ s.pump = .blocked false ∧ s.isReadyForMessages ∧
      s.readyStateChan = false) (by decide)
  exact ⟨s, hr, htoken, ((no_lost_wake_up false).1 _ s hr).signalled hsub hmember hpump hready⟩

end Xmq.WakeUp
