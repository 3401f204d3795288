import Xmq.ChannelInvariant

/-!
# What each operation does to the account

The operations of a channel as one step function, and for each operation one lemma: from a sound
channel it does not index out of range, the result is sound, and the account changes as stated.
Where the account depends on the backend, `PutsOk c n` says that the next `n` messages find room in
memory or a backend that accepts them.
-/

namespace Xmq

open IndexedHeap

namespace Channel

/-- An operation on a channel, with the clock readings it makes. -/
inductive Op where
  | putMessage (m : Message)
  | putMessageDeferred (m : Message) (timeout now : ℤ)
  | deliverMemory (clientID : String) (timeout now : ℤ)
  | deliverBackend (clientID : String) (timeout now : ℤ)
  | touchMessage (clientID : String) (id : MessageID) (clientMsgTimeout now : ℤ)
  | finishMessage (clientID : String) (id : MessageID)
  | requeueMessage (clientID : String) (id : MessageID) (timeout now : ℤ)
  | processInFlightQueue (t : ℤ)
  | processDeferredQueue (t : ℤ)
  | empty

/-- One operation: its error and the channel after it, or `none` when it indexes out of range. -/
def step (c : Channel) : Op → Option (GoError × Channel)
  | .putMessage m => some ((c.alloc m).putMessage c.nextMsg)
  | .putMessageDeferred m timeout now =>
    some (none, (c.alloc m).putMessageDeferred c.nextMsg timeout now)
  | .deliverMemory clientID timeout now => some (none, c.deliverMemory clientID timeout now)
  | .deliverBackend clientID timeout now => some (none, c.deliverBackend clientID timeout now)
  | .touchMessage clientID id clientMsgTimeout now =>
    c.touchMessage clientID id clientMsgTimeout now
  | .finishMessage clientID id => c.finishMessage clientID id
  | .requeueMessage clientID id timeout now => c.requeueMessage clientID id timeout now
  | .processInFlightQueue t => some (none, (c.processInFlightQueue t).2)
  | .processDeferredQueue t => some (none, (c.processDeferredQueue t).2)
  | .empty => some (none, c.empty)

variable {c : Channel} {p : MsgPtr}

/-! ### The put -/

/-- The next `n` messages find room in memory or a backend that accepts them. -/
def PutsOk (c : Channel) (n : ℕ) : Prop :=
  c.backend.PutsSucceed (n - (c.opts.memQueueSize - c.memoryMsgChan.length))

instance (c : Channel) (n : ℕ) : Decidable (c.PutsOk n) :=
  inferInstanceAs (Decidable (c.backend.PutsSucceed _))

/-- A put in memory, or else a put in the backend. -/
theorem put_cases (c : Channel) (p : MsgPtr) :
    c.memoryMsgChan.length < c.opts.memQueueSize ∧
        c.put p = (none, { c with memoryMsgChan := c.memoryMsgChan ++ [p] }) ∨
      ¬ c.memoryMsgChan.length < c.opts.memQueueSize ∧
        c.put p = ((c.backend.put (c.msgs.obj p).writeTo).1,
          { c with
            backend := (c.backend.put (c.msgs.obj p).writeTo).2
            health := (c.backend.put (c.msgs.obj p).writeTo).1 }) := by
  by_cases h : c.memoryMsgChan.length < c.opts.memQueueSize
  · exact Or.inl ⟨h, if_pos h⟩
  · exact Or.inr ⟨h, if_neg h⟩

theorem backend_put_cases (q : BackendQueue) (b : List UInt8) :
    q.dummy = true ∧ q.put b = (none, { q with dropped := q.dropped ++ [b], puts := q.puts + 1 }) ∨
      q.dummy = false ∧ q.outcome q.puts = none ∧
        q.put b = (none, { q with records := q.records ++ [b], puts := q.puts + 1 }) ∨
      q.dummy = false ∧ ∃ err, q.outcome q.puts = some err ∧
        q.put b = (some err, { q with puts := q.puts + 1 }) := by
  unfold BackendQueue.put
  split
  · rename_i hd
    exact Or.inl ⟨hd, rfl⟩
  · rename_i hd
    have hd : q.dummy = false := Bool.eq_false_iff.mpr hd
    split
    · rename_i ho
      exact Or.inr (Or.inl ⟨hd, ho, rfl⟩)
    · rename_i err ho
      exact Or.inr (Or.inr ⟨hd, err, ho, rfl⟩)

theorem put_eq_none_iff : (c.put p).1 = none ↔ c.PutsOk 1 := by
  rcases put_cases c p with ⟨hlt, hput⟩ | ⟨hge, hput⟩
  · rw [hput, PutsOk, show 1 - (c.opts.memQueueSize - c.memoryMsgChan.length) = 0 by omega]
    simp [BackendQueue.PutsSucceed]
  · rw [hput, PutsOk, show 1 - (c.opts.memQueueSize - c.memoryMsgChan.length) = 1 by omega]
    rcases backend_put_cases c.backend (c.msgs.obj p).writeTo with
      ⟨hd, hb⟩ | ⟨hd, ho, hb⟩ | ⟨hd, err, ho, hb⟩
    · simp [BackendQueue.PutsSucceed, hb, hd]
    · simp [BackendQueue.PutsSucceed, hb, ho]
    · simp [BackendQueue.PutsSucceed, hb, hd, ho]

/-- A put uses up one place. -/
theorem putsOk_succ (c : Channel) (p : MsgPtr) (n : ℕ) :
    c.PutsOk (n + 1) ↔ c.PutsOk 1 ∧ (c.put p).2.PutsOk n := by
  rcases put_cases c p with ⟨hlt, hput⟩ | ⟨hge, hput⟩
  · have hroom : n - (c.opts.memQueueSize - (c.memoryMsgChan ++ [p]).length) =
        n + 1 - (c.opts.memQueueSize - c.memoryMsgChan.length) := by
      rw [List.length_append, List.length_singleton]
      omega
    rw [← put_eq_none_iff (p := p), hput]
    show _ ↔ _ ∧ c.backend.PutsSucceed _
    rw [hroom]
    exact ⟨fun h => ⟨rfl, h⟩, fun h => h.2⟩
  · have hfull : c.opts.memQueueSize - c.memoryMsgChan.length = 0 := by omega
    rw [← put_eq_none_iff (p := p), hput]
    show c.backend.PutsSucceed (n + 1 - _) ↔ _ ∧ BackendQueue.PutsSucceed _ (n - _)
    rw [hfull, Nat.sub_zero, Nat.sub_zero]
    rcases backend_put_cases c.backend (c.msgs.obj p).writeTo with
      ⟨hd, hb⟩ | ⟨hd, ho, hb⟩ | ⟨hd, err, ho, hb⟩
    · simp [BackendQueue.PutsSucceed, hb, hd]
    · simp only [BackendQueue.PutsSucceed, hb, hd, Bool.false_eq_true, false_or, true_and]
      constructor
      · intro h k hk
        rw [Nat.add_assoc, Nat.add_comm 1 k]
        exact h (k + 1) (by omega)
      · intro h k hk
        rcases Nat.eq_zero_or_pos k with rfl | hpos
        · exact ho
        · have hk' := h (k - 1) (by omega)
          rwa [show c.backend.puts + 1 + (k - 1) = c.backend.puts + k by omega] at hk'
    · simp only [BackendQueue.PutsSucceed, hb, hd, Bool.false_eq_true, false_or, reduceCtorEq,
        false_and, iff_false, not_forall]
      exact ⟨0, by omega, by rw [Nat.add_zero, ho]; exact Option.some_ne_none err⟩

/-- A message in hand that is put is held, and one that is not put is gone. -/
theorem Loose.put (h : Loose c p) :
    Sound (c.put p).2 ∧
      ((c.put p).1 = none ∧ (c.put p).2.account = c.idAt p ::ₘ c.account ∨
        (c.put p).1 ≠ none ∧ (c.put p).2.account = c.account) := by
  rcases put_cases c p with ⟨_, hput⟩ | ⟨_, hput⟩
  · rw [hput]
    exact ⟨h.queued.1, Or.inl ⟨rfl, h.queued.2⟩⟩
  · rcases backend_put_cases c.backend (c.msgs.obj p).writeTo with
      ⟨_, hb⟩ | ⟨_, _, hb⟩ | ⟨_, err, _, hb⟩
    · rw [hput, hb]
      refine ⟨h.toSound.setBackend h.stored, Or.inl ⟨rfl, ?_⟩⟩
      rw [← Multiset.singleton_add]
      refine account_setBackend ?_
      rw [idsOf_append, idsOf_writeTo, ← Multiset.coe_add, Multiset.coe_singleton]
      exact (add_assoc _ _ _).symm.trans (add_comm _ _)
    · rw [hput, hb]
      refine ⟨h.toSound.setBackend ?_, Or.inl ⟨rfl, ?_⟩⟩
      · intro b hmem
        rcases List.mem_append.mp hmem with hmem | hmem
        · exact h.stored b hmem
        · exact ⟨_, List.mem_singleton.mp hmem⟩
      · rw [← Multiset.singleton_add]
        refine account_setBackend ?_
        rw [idsOf_append, idsOf_writeTo, ← Multiset.coe_add, Multiset.coe_singleton,
          add_comm _ ({_} : Multiset MessageID), add_assoc]
        rfl
    · rw [hput, hb]
      exact ⟨h.toSound.setBackend h.stored, Or.inr ⟨Option.some_ne_none err, rfl⟩⟩

theorem Loose.putMessage (h : Loose c p) :
    Sound (c.putMessage p).2 ∧
      ((c.putMessage p).1 = none ∧ (c.putMessage p).2.account = c.idAt p ::ₘ c.account ∨
        (c.putMessage p).1 ≠ none ∧ (c.putMessage p).2.account = c.account) := by
  unfold Channel.putMessage
  split
  · exact ⟨h.toSound, Or.inr ⟨Option.some_ne_none _, rfl⟩⟩
  · obtain ⟨hs, hacc⟩ := h.put
    simp only
    split
    · rename_i err herr
      rw [herr] at hacc
      exact ⟨hs, Or.inr ⟨Option.some_ne_none err,
        (hacc.resolve_left fun h => Option.some_ne_none err h.1).2⟩⟩
    · rename_i hnone
      rw [hnone] at hacc
      have hsame : SameMessages (c.put p).2
          { (c.put p).2 with messageCount := (c.put p).2.messageCount + 1 } :=
        ⟨rfl, rfl, rfl, rfl, rfl, rfl⟩
      exact ⟨hsame.sound hs, Or.inl ⟨rfl, hsame.account.trans
        (hacc.resolve_right fun h => h.1 rfl).2⟩⟩

/-! ### Into the tracked parts -/

theorem notMem_inFlight_of_account {id : MessageID} (h : id ∉ c.account) :
    c.inFlight.inFlightMessages.lookup id = none := by
  rw [AList.lookup_eq_none]
  intro hm
  simp only [account, held, Multiset.mem_add, Multiset.mem_coe, not_or] at h
  exact h.1.1.2 hm

theorem notMem_deferred_of_account {id : MessageID} (h : id ∉ c.account) :
    c.deferred.deferredMessages.lookup id = none := by
  rw [AList.lookup_eq_none]
  intro hm
  simp only [account, held, Multiset.mem_add, Multiset.mem_coe, not_or] at h
  exact h.1.2 hm

theorem Loose.placeInFlight (h : Loose c p) :
    Sound { c with inFlight := (c.inFlight.placeInFlight p).2 } ∧
      (c.idAt p ∉ c.account → (c.inFlight.placeInFlight p).1 = none ∧
        account { c with inFlight := (c.inFlight.placeInFlight p).2 } = c.idAt p ::ₘ c.account) := by
  cases hl : c.inFlight.inFlightMessages.lookup (c.inFlight.msgs.obj p).id with
  | none =>
      obtain ⟨s', hs', hp⟩ := InFlight.placeInFlight_new h.inFlight h.notMem_inFlight hl
      rw [hs']
      exact ⟨(h.placed hp).1, fun _ => ⟨rfl, (h.placed hp).2⟩⟩
  | some q =>
      rw [InFlight.placeInFlight_dup hl]
      refine ⟨h.toSound, fun hid => ?_⟩
      have hnone := notMem_inFlight_of_account hid
      rw [show c.idAt p = (c.inFlight.msgs.obj p).id from rfl, hl] at hnone
      cases hnone

theorem Loose.startInFlightTimeout (h : Loose c p) (clientID : String) (timeout now : ℤ) :
    Sound (c.startInFlightTimeout p clientID timeout now).2 ∧
      (c.idAt p ∉ c.account →
        (c.startInFlightTimeout p clientID timeout now).1 = none ∧
        (c.startInFlightTimeout p clientID timeout now).2.account = c.idAt p ::ₘ c.account) := by
  obtain ⟨m, hm⟩ : ∃ m : Message, m = { c.msgs.obj p with
    clientID := clientID, deliveryTS := now, pri := now + timeout } := ⟨_, rfl⟩
  have hid : m.id = c.idAt p := by rw [hm]; rfl
  obtain ⟨hl, hacc⟩ := h.write hid
  have hidw : idAt { c with inFlight := c.inFlight.write p m } p = c.idAt p := by
    show ((c.inFlight.msgs.set p m).obj p).id = _
    rw [Msgs.set_self, hid]
  have hplace := hl.placeInFlight
  rw [hacc, hidw] at hplace
  rw [Channel.startInFlightTimeout, ← hm]
  exact hplace

theorem Loose.startDeferredTimeout (h : Loose c p) (timeout now : ℤ) :
    Sound (c.startDeferredTimeout p timeout now).2 ∧
      (c.idAt p ∉ c.account →
        (c.startDeferredTimeout p timeout now).1 = none ∧
        (c.startDeferredTimeout p timeout now).2.account = c.idAt p ::ₘ c.account) := by
  obtain ⟨d, hd⟩ : ∃ d : Deferred, d = { c.deferred with
    items := c.deferred.items.set c.nextItem
      { value := p, priority := now + timeout, index := 0 } } := ⟨_, rfl⟩
  have hnew : c.nextItem ∉ c.deferred.deferredPQ.slots :=
    fun hm => Nat.lt_irrefl _ (h.freshItems _ hm)
  have hval : (d.items.obj c.nextItem).value = p := by rw [hd]; simp
  have hslots : d.deferredPQ.slots = c.deferred.deferredPQ.slots := by rw [hd]
  have hmap : d.deferredMessages = c.deferred.deferredMessages := by rw [hd]
  have hvalues : d.values = c.deferred.values := by
    rw [hd]
    exact Deferred.values_write hnew _
  have hpointers : pointers { c with deferred := d, nextItem := c.nextItem + 1 } = c.pointers := by
    rw [pointers, pointers, hvalues]
  have hl : Loose { c with deferred := d, nextItem := c.nextItem + 1 } p := by
    refine ⟨⟨h.inFlight, ?_, by rw [hpointers]; exact h.nodup, by rw [hpointers]; exact h.fresh,
      ?_, h.stored⟩, by rw [hpointers]; exact h.notMem, h.lt⟩
    · rw [hd]
      exact h.deferred.write hnew _
    · intro i hi
      exact Nat.lt_succ_of_lt (h.freshItems i (hslots ▸ hi))
  have hacc : account { c with deferred := d, nextItem := c.nextItem + 1 } = c.account := by
    rw [account, account, held, held, hmap]
    rfl
  have heq : c.startDeferredTimeout p timeout now = ((d.placeDeferred c.msgs c.nextItem).1,
      { c with deferred := (d.placeDeferred c.msgs c.nextItem).2, nextItem := c.nextItem + 1 }) := by
    rw [Channel.startDeferredTimeout, ← hd]
  rw [heq]
  cases hlook : d.deferredMessages.lookup (d.idOf c.msgs c.nextItem) with
  | none =>
      obtain ⟨d', hd', hp⟩ := Deferred.placeDeferred_new hl.deferred
        (show c.nextItem ∉ d.deferredPQ.slots from hslots ▸ hnew) hlook
      have hd'' : d.placeDeferred c.msgs c.nextItem = (none, d') := hd'
      rw [hd'']
      obtain ⟨hs, hacc'⟩ := hl.placedDeferred hval (Nat.lt_succ_self _) hp
      rw [hacc] at hacc'
      exact ⟨hs, fun _ => ⟨rfl, hacc'⟩⟩
  | some j =>
      rw [Deferred.placeDeferred_dup hlook]
      refine ⟨hl.toSound, fun hid => ?_⟩
      have hnone := notMem_deferred_of_account hid
      rw [← hmap, show c.idAt p = d.idOf c.msgs c.nextItem by rw [Deferred.idOf, hval]; rfl,
        hlook] at hnone
      cases hnone

/-! ### Out of the in-flight part -/

/-- A client that does not own the message gets an error; one that does takes it in hand. -/
theorem Sound.takeInFlight (h : Sound c) (clientID : String) (id : MessageID) :
    (¬ c.inFlight.Owned clientID id ∧
        ∃ err, c.inFlight.takeInFlight clientID id = some (.error err)) ∨
      (c.inFlight.Owned clientID id ∧
        ∃ p s, c.inFlight.takeInFlight clientID id = some (.ok (p, s)) ∧
          Loose { c with inFlight := s } p ∧ idAt { c with inFlight := s } p = id ∧
          c.account = id ::ₘ account { c with inFlight := s }) := by
  by_cases ho : c.inFlight.Owned clientID id
  · obtain ⟨p, hl, hc⟩ := ho
    obtain ⟨s, hs, ht⟩ := InFlight.takeInFlight_owned h.inFlight hl hc
    obtain ⟨hloose, hacc⟩ := h.took ht
    have hid : c.idAt p = id := h.inFlight.keys id p hl
    rw [hid] at hacc
    exact Or.inr ⟨⟨p, hl, hc⟩, p, s, hs, hloose, (Msgs.id_eq ht.msgs p).trans hid, hacc⟩
  · exact Or.inl ⟨ho, InFlight.takeInFlight_not_owned ho⟩

section Equations

variable {clientID : String} {id : MessageID} {err : String} {s : InFlight} {timeout now : ℤ}

theorem finishMessage_error (h : c.inFlight.takeInFlight clientID id = some (.error err)) :
    c.finishMessage clientID id = some (some err, c) := by
  rw [finishMessage, h]
  rfl

theorem finishMessage_ok (h : c.inFlight.takeInFlight clientID id = some (.ok (p, s))) :
    c.finishMessage clientID id = some (none, { c with inFlight := s }) := by
  rw [finishMessage, h]
  rfl

/-- The message as `TouchMessage` puts it back. -/
def touched (c : Channel) (s : InFlight) (p : MsgPtr) (clientMsgTimeout now : ℤ) : Message :=
  { s.msgs.obj p with pri := touchedPri c.opts (s.msgs.obj p) clientMsgTimeout now }

theorem touchMessage_error (h : c.inFlight.takeInFlight clientID id = some (.error err)) :
    c.touchMessage clientID id timeout now = some (some err, c) := by
  rw [touchMessage, h]
  rfl

theorem touchMessage_ok (h : c.inFlight.takeInFlight clientID id = some (.ok (p, s))) :
    c.touchMessage clientID id timeout now =
      some (((s.write p (c.touched s p timeout now)).placeInFlight p).1,
        { c with inFlight := ((s.write p (c.touched s p timeout now)).placeInFlight p).2 }) := by
  rw [touchMessage, h]
  rfl

/-- The channel with the message in hand, as `RequeueMessage` goes on. -/
def requeued (c : Channel) (s : InFlight) : Channel :=
  { c with inFlight := s, requeueCount := c.requeueCount + 1 }

theorem requeueMessage_error (h : c.inFlight.takeInFlight clientID id = some (.error err)) :
    c.requeueMessage clientID id timeout now = some (some err, c) := by
  rw [requeueMessage, h]
  rfl

theorem requeueMessage_ok (h : c.inFlight.takeInFlight clientID id = some (.ok (p, s))) :
    c.requeueMessage clientID id timeout now =
      some (if timeout = 0 then
          if c.exiting then (some "exiting", c.requeued s) else (c.requeued s).put p
        else (c.requeued s).startDeferredTimeout p timeout now) := by
  rw [requeueMessage, h]
  rfl

theorem requeued_same (c : Channel) (s : InFlight) :
    SameMessages { c with inFlight := s } (c.requeued s) := ⟨rfl, rfl, rfl, rfl, rfl, rfl⟩

theorem requeued_putsOk (c : Channel) (s : InFlight) (n : ℕ) :
    (c.requeued s).PutsOk n ↔ c.PutsOk n := Iff.rfl

end Equations

theorem Sound.finishMessage (h : Sound c) (clientID : String) (id : MessageID) :
    ∃ r, c.finishMessage clientID id = some r ∧ Sound r.2 ∧
      (r.1 = none ∧ c.account = id ::ₘ r.2.account ∨ r.1 ≠ none ∧ r.2 = c) := by
  rcases h.takeInFlight clientID id with ⟨_, err, herr⟩ | ⟨_, p, s, hs, hl, _, hacc⟩
  · exact ⟨_, finishMessage_error herr, h, Or.inr ⟨Option.some_ne_none err, rfl⟩⟩
  · exact ⟨_, finishMessage_ok hs, hl.toSound, Or.inl ⟨rfl, hacc⟩⟩

theorem Sound.touchMessage (h : Sound c) (clientID : String) (id : MessageID)
    (clientMsgTimeout now : ℤ) :
    ∃ r, c.touchMessage clientID id clientMsgTimeout now = some r ∧ Sound r.2 ∧
      (c.account.Nodup → r.2.account = c.account) := by
  rcases h.takeInFlight clientID id with ⟨_, err, herr⟩ | ⟨_, p, s, hs, hl, hid, hacc⟩
  · exact ⟨_, touchMessage_error herr, h, fun _ => rfl⟩
  · refine ⟨_, touchMessage_ok hs, ?_⟩
    have hmid : (c.touched s p clientMsgTimeout now).id = idAt { c with inFlight := s } p := rfl
    generalize c.touched s p clientMsgTimeout now = m at hmid
    obtain ⟨hlw, haccw⟩ := hl.write hmid
    have hidw : idAt { c with inFlight := s.write p m } p = id := by
      show ((s.msgs.set p m).obj p).id = _
      rw [Msgs.set_self, hmid, hid]
    obtain ⟨hsound, hplace⟩ := hlw.placeInFlight
    rw [hidw, haccw] at hplace
    refine ⟨hsound, fun hnd => ?_⟩
    rw [hacc] at hnd ⊢
    exact (hplace (Multiset.nodup_cons.mp hnd).1).2

/-- **Requeueing at once.** The message is put unless the channel is exiting. -/
theorem Sound.requeueMessage_zero (h : Sound c) (clientID : String) (id : MessageID) (now : ℤ) :
    ∃ r, c.requeueMessage clientID id 0 now = some r ∧ Sound r.2 ∧
      (r.2.account = c.account ∧
          (c.inFlight.Owned clientID id → c.exiting = false ∧ c.PutsOk 1 ∧ r.1 = none) ∨
        c.account = id ::ₘ r.2.account ∧ c.inFlight.Owned clientID id ∧ r.1 ≠ none ∧
          (c.exiting = true ∨ ¬ c.PutsOk 1)) := by
  rcases h.takeInFlight clientID id with ⟨hno, err, herr⟩ | ⟨ho, p, s, hs, hl, hid, hacc⟩
  · exact ⟨_, requeueMessage_error herr, h, Or.inl ⟨rfl, fun ho => (hno ho).elim⟩⟩
  · refine ⟨_, requeueMessage_ok hs, ?_⟩
    have hl' := (requeued_same c s).loose hl
    have hacc' : c.account = id ::ₘ (c.requeued s).account := by
      rw [(requeued_same c s).account]
      exact hacc
    rw [if_pos rfl]
    cases hexit : c.exiting with
    | true => exact ⟨hl'.toSound, Or.inr ⟨hacc', ho, Option.some_ne_none _, Or.inl rfl⟩⟩
    | false =>
        rw [if_neg Bool.false_ne_true]
        obtain ⟨hsound, hput⟩ := hl'.put
        rw [show (c.requeued s).idAt p = id from hid, ← hacc'] at hput
        refine ⟨hsound, ?_⟩
        rcases hput with ⟨hnone, heq⟩ | ⟨hsome, heq⟩
        · have hok := (requeued_putsOk c s 1).mp (put_eq_none_iff.mp hnone)
          exact Or.inl ⟨heq, fun _ => ⟨rfl, hok, hnone⟩⟩
        · have hno : ¬ c.PutsOk 1 := fun hok =>
            hsome (put_eq_none_iff.mpr ((requeued_putsOk c s 1).mpr hok))
          refine Or.inr ⟨?_, ho, hsome, Or.inr hno⟩
          rw [heq]
          exact hacc'

theorem Sound.requeueMessage_deferred (h : Sound c) (clientID : String) (id : MessageID)
    {timeout : ℤ} (ht : timeout ≠ 0) (now : ℤ) :
    ∃ r, c.requeueMessage clientID id timeout now = some r ∧ Sound r.2 ∧
      (c.account.Nodup → r.2.account = c.account) := by
  rcases h.takeInFlight clientID id with ⟨_, err, herr⟩ | ⟨_, p, s, hs, hl, hid, hacc⟩
  · exact ⟨_, requeueMessage_error herr, h, fun _ => rfl⟩
  · refine ⟨_, requeueMessage_ok hs, ?_⟩
    obtain ⟨hsound, hplace⟩ := ((requeued_same c s).loose hl).startDeferredTimeout timeout now
    rw [if_neg ht]
    refine ⟨hsound, fun hnd => ?_⟩
    rw [show (c.requeued s).idAt p = id from hid, (requeued_same c s).account] at hplace
    rw [hacc] at hnd ⊢
    exact (hplace (Multiset.nodup_cons.mp hnd).1).2

/-! ### Delivery and emptying -/

theorem Loose.deliver (h : Loose c p) (clientID : String) (timeout now : ℤ) :
    Sound (c.deliver p clientID timeout now) ∧
      (c.idAt p ∉ c.account →
        (c.deliver p clientID timeout now).account = c.idAt p ::ₘ c.account) := by
  obtain ⟨m, hm⟩ : ∃ m : Message, m = { c.msgs.obj p with
    attempts := (c.msgs.obj p).attempts + 1 } := ⟨_, rfl⟩
  have hid : m.id = c.idAt p := by rw [hm]; rfl
  obtain ⟨hl, hacc⟩ := h.write hid
  have hidw : idAt { c with inFlight := c.inFlight.write p m } p = c.idAt p := by
    show ((c.inFlight.msgs.set p m).obj p).id = _
    rw [Msgs.set_self, hid]
  obtain ⟨hs, hstart⟩ := hl.startInFlightTimeout clientID timeout now
  rw [hacc, hidw] at hstart
  have hsame := updateClient_same
    (Channel.startInFlightTimeout { c with inFlight := c.inFlight.write p m } p clientID timeout
      now).2
    clientID fun client => { client with inFlightCount := client.inFlightCount + 1 }
  rw [Channel.deliver, ← hm]
  exact ⟨hsame.sound hs, fun h => hsame.account.trans (hstart h).2⟩

theorem Sound.deliverMemory (h : Sound c) (clientID : String) (timeout now : ℤ) :
    Sound (c.deliverMemory clientID timeout now) ∧
      (c.account.Nodup → (c.deliverMemory clientID timeout now).account = c.account) := by
  unfold Channel.deliverMemory
  split
  · rename_i p rest hm
    obtain ⟨hl, hacc⟩ := h.dequeued hm
    obtain ⟨hs, hdel⟩ := hl.deliver clientID timeout now
    refine ⟨hs, fun hnd => ?_⟩
    rw [hacc] at hnd ⊢
    exact hdel (Multiset.nodup_cons.mp hnd).1
  · exact ⟨h, fun _ => rfl⟩

/-- From the head of the backend into the caller's hands, still as a record. -/
theorem Sound.dequeuedBackend (h : Sound c) {m : Message} {rest : List (List UInt8)}
    (hr : c.backend.records = m.writeTo :: rest) :
    Sound { c with backend := { c.backend with records := rest } } ∧
      c.account = m.id ::ₘ account { c with backend := { c.backend with records := rest } } := by
  obtain ⟨q, hq⟩ : ∃ q : BackendQueue, q = { c.backend with records := rest } := ⟨_, rfl⟩
  rw [← hq]
  have hids : idsOf c.backend.records = m.id :: idsOf rest := by
    rw [hr, ← List.singleton_append, idsOf_append, idsOf_writeTo]
    rfl
  constructor
  · refine h.setBackend fun b hb => h.stored b ?_
    rw [hq] at hb
    rw [hr]
    exact List.mem_cons_of_mem _ hb
  · have hset := account_setBackend (c := { c with backend := q }) (q := c.backend)
      (e := c.health) (x := {m.id}) (by
        rw [hids, ← Multiset.cons_coe, Multiset.singleton_add, Multiset.cons_add, hq])
    rw [← Multiset.singleton_add]
    exact hset

theorem Sound.deliverBackend (h : Sound c) (clientID : String) (timeout now : ℤ) :
    Sound (c.deliverBackend clientID timeout now) ∧
      (c.account.Nodup → (c.deliverBackend clientID timeout now).account = c.account) := by
  unfold Channel.deliverBackend
  cases hr : c.backend.records with
  | nil =>
      rw [BackendQueue.read, hr]
      exact ⟨h, fun _ => rfl⟩
  | cons b rest =>
      obtain ⟨m, rfl⟩ := h.stored b (hr ▸ List.mem_cons_self)
      rw [BackendQueue.read, hr]
      simp only [decodeMessage_writeTo]
      obtain ⟨hsound, hacc⟩ := h.dequeuedBackend hr
      obtain ⟨hl, halloc, hid⟩ := hsound.alloc m.stored
      obtain ⟨hs, hdel⟩ := hl.deliver clientID timeout now
      rw [hid, halloc] at hdel
      refine ⟨hs, fun hnd => ?_⟩
      rw [hacc] at hnd ⊢
      exact hdel (Multiset.nodup_cons.mp hnd).1

theorem empty_sound (c : Channel) : Sound c.empty ∧ c.empty.held = 0 := by
  refine ⟨⟨InFlight.reset_sound _ _ _, Deferred.reset_sound _ _ _ _, List.nodup_nil, ?_, ?_, ?_⟩,
    rfl⟩
  · intro p hp
    cases hp
  · intro i hi
    cases hi
  · intro b hb
    cases hb

/-! ### New messages -/

theorem Sound.putMessage (h : Sound c) (m : Message) :
    Sound ((c.alloc m).putMessage c.nextMsg).2 ∧
      (((c.alloc m).putMessage c.nextMsg).1 = none ∧
          ((c.alloc m).putMessage c.nextMsg).2.account = m.id ::ₘ c.account ∨
        ((c.alloc m).putMessage c.nextMsg).1 ≠ none ∧
          ((c.alloc m).putMessage c.nextMsg).2.account = c.account) := by
  obtain ⟨hl, hacc, hid⟩ := h.alloc m
  have hput := hl.putMessage
  rwa [hacc, hid] at hput

theorem Sound.putMessageDeferred (h : Sound c) (m : Message) (timeout now : ℤ) :
    Sound ((c.alloc m).putMessageDeferred c.nextMsg timeout now) ∧
      (m.id ∉ c.account →
        ((c.alloc m).putMessageDeferred c.nextMsg timeout now).account = m.id ::ₘ c.account) := by
  obtain ⟨hl, hacc, hid⟩ := h.alloc m
  have hsame : SameMessages (c.alloc m)
      { c.alloc m with messageCount := (c.alloc m).messageCount + 1 } :=
    ⟨rfl, rfl, rfl, rfl, rfl, rfl⟩
  obtain ⟨hs, hstart⟩ := (hsame.loose hl).startDeferredTimeout timeout now
  have hid' : idAt { c.alloc m with messageCount := (c.alloc m).messageCount + 1 } c.nextMsg = m.id :=
    hid
  rw [hid', hsame.account, hacc] at hstart
  exact ⟨hs, fun hm => (hstart hm).2⟩

end Channel

end Xmq
