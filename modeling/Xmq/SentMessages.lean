import Xmq.ChannelConservation
import Xmq.Runs

/-!
# What a channel sends

A client that gets a message sees the body and the time stamp with which it was published, and how
often it was sent before. A message is sent from memory or from the disk, comes back when its client
requeues it or lets it time out, waits on a heap, and is written to the disk and read back as a new
object in between; a journal along the run has the messages that were put and those that were sent.

* Nothing is assumed about the disk: it may refuse, or be the one that keeps nothing.
* A message is compared in its stored form, which is the form that is sent.
-/

namespace Xmq

/-- The message as it is sent for the `n`-th time. -/
def Message.afterSends (m : Message) (n : ℕ) : Message :=
  { m.stored with attempts := m.attempts + UInt16.ofNat n }

namespace Channel

open IndexedHeap Runs

/-- A message that the channel holds: an object of its memory, or a record on its disk. -/
def Has (c : Channel) (m : Message) : Prop :=
  (∃ p ∈ c.pointers, (c.msgs.obj p).stored = m) ∨
    ∃ b ∈ c.backend.records, decodeMessage b = .ok m

/-- The message that an operation brings. -/
def Op.message : Op → Option Message
  | .putMessage m => some m
  | .putMessageDeferred m _ _ => some m
  | _ => none

/-- The message that is sent to the client, as the pump writes it once it is in flight. -/
def sent (c : Channel) : Op → Option Message
  | .deliverMemory clientID timeout now =>
    c.memoryMsgChan.head?.map fun p => ((c.deliverMemory clientID timeout now).msgs.obj p).stored
  | .deliverBackend clientID timeout now =>
    match c.backend.read with
    | some (b, _) =>
      match decodeMessage b with
      | .ok _ => some ((c.deliverBackend clientID timeout now).msgs.obj c.nextMsg).stored
      | .error _ => none
    | none => none
  | _ => none

/-- What happens to a channel: an operation, or that the node closes it, with the orders in which the
two maps are ranged over, and opens it again over its disk. -/
inductive JournalEvent where
  | operation (op : Op)
  | reopen (inFlight : List MsgPtr) (deferred : List ItemPtr) (clients : GoMap String Client)

/-- Nothing of an ephemeral channel is opened again. -/
def reopen (c : Channel) (inFlight : List MsgPtr) (deferred : List ItemPtr)
    (clients : GoMap String Client) : Option Channel :=
  if inFlight.Perm c.inFlight.inFlightMessages.values ∧
      deferred.Perm c.deferred.deferredMessages.values ∧ c.backend.dummy = false then
    some (newChannel c.opts { (c.exit false inFlight deferred).2.backend with closed := false } clients)
  else none

/-- The messages that were put, and those that were sent, the oldest first. -/
structure Journal where
  puts : List Message
  sends : List Message

namespace Journal

def record (j : Journal) (c : Channel) (op : Op) : Journal where
  puts := j.puts ++ op.message.toList
  sends := j.sends ++ (c.sent op).toList

end Journal

/-- How often a message was sent. -/
def timesSent (sends : List Message) (id : MessageID) : ℕ := (sends.map Message.id).count id

/-- One event, with the journal. -/
def journalStep (x : Channel × Journal) : JournalEvent → Option (Channel × Journal)
  | .operation op => (x.1.step op).map fun r => (r.2, x.2.record x.1 op)
  | .reopen inFlight deferred clients =>
    (x.1.reopen inFlight deferred clients).map fun c => (c, x.2)

/-- The message that an event brings. -/
def JournalEvent.message : JournalEvent → Option Message
  | .operation op => op.message
  | .reopen _ _ _ => none

/-- **What the journal says is what the clients saw**, and what they will see: every message sent is
one that was put, with the number of this delivery; every message held has the number of the last. -/
structure Faithful (c : Channel) (j : Journal) : Prop where
  sends : Each (fun before m => ∃ m₀ ∈ j.puts, m = m₀.afterSends (timesSent before m₀.id + 1)) j.sends
  has : ∀ m, Has c m → ∃ m₀ ∈ j.puts, m = m₀.afterSends (timesSent j.sends m₀.id)

/-- **The invariant.** An ID is in one place only, so that what is sent has left its old place. -/
structure Journaled (c : Channel) (j : Journal) : Prop extends Faithful c j where
  sound : Sound c
  once : c.account.Nodup
  issued : ∀ id ∈ c.account, id ∈ j.puts.map Message.id
  sentIssued : ∀ m ∈ j.sends, m.id ∈ j.puts.map Message.id
  putsOnce : (j.puts.map Message.id).Nodup

variable {c c' : Channel} {j : Journal} {p : MsgPtr} {m m' : Message}

/-! ### The moves -/

theorem stored_eq {s s' : Msgs} (h : Reindexed s s') (q : MsgPtr) :
    (s'.obj q).stored = (s.obj q).stored :=
  Msgs.field_eq Message.stored (fun _ _ => rfl) h q

/-- One pointer more is one message more. -/
theorem Has.of_pointers (h : Has c' m) (hp : ∀ q ∈ c'.pointers, q = p ∨ q ∈ c.pointers)
    (hobj : ∀ q ∈ c'.pointers, (c'.msgs.obj q).stored = (c.msgs.obj q).stored)
    (hr : ∀ b ∈ c'.backend.records, b ∈ c.backend.records) :
    Has c m ∨ (c.msgs.obj p).stored = m := by
  rcases h with ⟨q, hq, rfl⟩ | ⟨b, hb, hm⟩
  · rw [hobj q hq]
    rcases hp q hq with rfl | hc
    · exact .inr rfl
    · exact .inl (.inl ⟨q, hc, rfl⟩)
  · exact .inl (.inr ⟨b, hr b hb, hm⟩)

theorem Has.mono (h : Has c' m) (hp : ∀ q ∈ c'.pointers, q ∈ c.pointers)
    (hobj : ∀ q ∈ c'.pointers, (c'.msgs.obj q).stored = (c.msgs.obj q).stored)
    (hr : ∀ b ∈ c'.backend.records, b ∈ c.backend.records) : Has c m := by
  rcases h with ⟨q, hq, rfl⟩ | ⟨b, hb, hm⟩
  · exact .inl ⟨q, hp q hq, (hobj q hq).symm⟩
  · exact .inr ⟨b, hr b hb, hm⟩

theorem SameMessages.has (h : SameMessages c c') (hm : Has c' m) : Has c m := by
  refine hm.mono (fun q hq => h.pointers ▸ hq) (fun q _ => ?_) (fun b hb => h.backend ▸ hb)
  rw [msgs, msgs, h.inFlight]

/-- A held message is in the account. -/
theorem Sound.mem_account (h : Sound c) (hm : Has c m) : m.id ∈ c.account := by
  rw [h.account_eq, Multiset.mem_add, Multiset.mem_add, Multiset.mem_coe, Multiset.mem_coe]
  rcases hm with ⟨q, hq, rfl⟩ | ⟨b, hb, hm⟩
  · exact .inl (.inl (List.mem_map_of_mem hq))
  · refine .inl (.inr (List.mem_filterMap.mpr ⟨b, hb, ?_⟩))
    rw [hm]

theorem Loose.has_write (h : Loose c p) {n : Message}
    (hm : Has { c with inFlight := c.inFlight.write p n } m) : Has c m := by
  refine hm.mono (fun q hq => hq) (fun q hq => ?_) (fun b hb => hb)
  have hne : q ≠ p := fun e => h.notMem (e ▸ hq)
  show ((c.inFlight.msgs.set p n).obj q).stored = _
  rw [Msgs.set_ne _ _ hne]
  rfl

theorem Sound.has_alloc (h : Sound c) {n : Message} (hm : Has (c.alloc n) m) : Has c m := by
  refine hm.mono (fun q hq => hq) (fun q hq => ?_) (fun b hb => hb)
  have hne : q ≠ c.nextMsg := fun e => Nat.lt_irrefl _ (e ▸ h.fresh q hq)
  show ((c.inFlight.msgs.set c.nextMsg n).obj q).stored = _
  rw [Msgs.set_ne _ _ hne]
  rfl

theorem alloc_obj (c : Channel) (m : Message) : (c.alloc m).msgs.obj c.nextMsg = m :=
  Msgs.set_self _ _ _

theorem mem_pointers_of_perm {s : InFlight} {q : MsgPtr}
    (hs : s.inFlightPQ.slots.Perm (p :: c.inFlight.inFlightPQ.slots))
    (hq : q ∈ pointers { c with inFlight := s }) : q = p ∨ q ∈ c.pointers := by
  rw [mem_pointers] at hq ⊢
  rcases hq with hq | hq | hq
  · exact .inr (.inl hq)
  · rcases List.mem_cons.mp (hs.mem_iff.mp hq) with rfl | hq
    · exact .inl rfl
    · exact .inr (.inr (.inl hq))
  · exact .inr (.inr (.inr hq))

/-- Out of the in-flight part: the message was one of the channel, and nothing is new. -/
theorem Sound.has_took (_h : Sound c) {s : InFlight} (ht : c.inFlight.Took p s) :
    (∀ m, Has { c with inFlight := s } m → Has c m) ∧ Has c (s.msgs.obj p).stored := by
  constructor
  · intro m hm
    refine hm.mono (fun q hq => ?_) (fun q _ => stored_eq ht.msgs q) (fun b hb => hb)
    rw [mem_pointers] at hq ⊢
    rcases hq with hq | hq | hq
    · exact .inl hq
    · exact .inr (.inl (ht.slots.mem_iff.mpr (List.mem_cons_of_mem _ hq)))
    · exact .inr (.inr hq)
  · rw [stored_eq ht.msgs]
    exact .inl ⟨p, mem_pointers.mpr (.inr (.inl ht.mem)), rfl⟩

theorem has_placed {s : InFlight} (hp : c.inFlight.Placed p s)
    (hm : Has { c with inFlight := s } m) : Has c m ∨ (c.msgs.obj p).stored = m :=
  hm.of_pointers (fun _ hq => mem_pointers_of_perm hp.slots hq) (fun q _ => stored_eq hp.msgs q)
    fun _ hb => hb

/-- Into the in-flight part, or not, when one with its ID is there. -/
theorem Loose.has_placeInFlight (h : Loose c p)
    (hm : Has { c with inFlight := (c.inFlight.placeInFlight p).2 } m) :
    Has c m ∨ (c.msgs.obj p).stored = m := by
  cases hl : c.inFlight.inFlightMessages.lookup (c.inFlight.msgs.obj p).id with
  | none =>
      obtain ⟨s', hs', hp⟩ := InFlight.placeInFlight_new h.inFlight h.notMem_inFlight hl
      rw [hs'] at hm
      exact has_placed hp hm
  | some q =>
      rw [InFlight.placeInFlight_dup hl] at hm
      exact .inl hm

/-- To the end of the memory, to the disk, or nowhere. -/
theorem has_put (hm : Has (c.put p).2 m) : Has c m ∨ (c.msgs.obj p).stored = m := by
  rcases put_cases c p with ⟨_, hput⟩ | ⟨_, hput⟩
  · rw [hput] at hm
    refine hm.of_pointers (fun q hq => ?_) (fun q _ => rfl) (fun b hb => hb)
    rw [mem_pointers] at hq ⊢
    rcases hq with hq | hq
    · rcases List.mem_append.mp hq with hq | hq
      · exact .inr (.inl hq)
      · exact .inl (List.mem_singleton.mp hq)
    · exact .inr (.inr hq)
  · rw [hput] at hm
    rcases hm with ⟨q, hq, rfl⟩ | ⟨b, hb, hm⟩
    · exact .inl (.inl ⟨q, hq, rfl⟩)
    · rcases backend_put_cases c.backend (c.msgs.obj p).writeTo with
        ⟨_, heq⟩ | ⟨_, _, heq⟩ | ⟨_, err, _, heq⟩
      · rw [heq] at hb
        exact .inl (.inr ⟨b, hb, hm⟩)
      · rw [heq] at hb
        rcases List.mem_append.mp hb with hb | hb
        · exact .inl (.inr ⟨b, hb, hm⟩)
        · rw [List.mem_singleton.mp hb, decodeMessage_writeTo] at hm
          exact .inr (Except.ok.inj hm)
      · rw [heq] at hb
        exact .inl (.inr ⟨b, hb, hm⟩)

/-- Out of the deferred part. -/
theorem has_tookDeferred {d : Deferred} {i : ItemPtr} (ht : c.deferred.Took c.msgs i d) :
    (∀ m, Has { c with deferred := d } m → Has c m) ∧
      Has c (c.msgs.obj (c.deferred.items.obj i).value).stored := by
  constructor
  · intro m hm
    refine hm.mono (fun q hq => ?_) (fun q _ => rfl) (fun b hb => hb)
    rw [mem_pointers] at hq ⊢
    rcases hq with hq | hq | hq
    · exact .inl hq
    · exact .inr (.inl hq)
    · exact .inr (.inr (ht.values.mem_iff.mpr (List.mem_cons_of_mem _ hq)))
  · exact .inl ⟨_, mem_pointers.mpr (.inr (.inr (ht.values.mem_iff.mpr List.mem_cons_self))), rfl⟩

/-- Into the deferred part, or not, when one with its ID is there. -/
theorem Loose.has_startDeferredTimeout (h : Loose c p) {timeout now : ℤ}
    (hm : Has (c.startDeferredTimeout p timeout now).2 m) : Has c m ∨ (c.msgs.obj p).stored = m := by
  obtain ⟨d, hd⟩ : ∃ d : Deferred, d = { c.deferred with
    items := c.deferred.items.set c.nextItem
      { value := p, priority := now + timeout, index := 0 } } := ⟨_, rfl⟩
  have hnew : c.nextItem ∉ c.deferred.deferredPQ.slots :=
    fun hm => Nat.lt_irrefl _ (h.freshItems _ hm)
  have hval : (d.items.obj c.nextItem).value = p := by rw [hd]; simp
  have hvalues : d.values = c.deferred.values := by
    rw [hd]
    exact Deferred.values_write hnew _
  have hsound : d.Sound c.msgs := by
    rw [hd]
    exact h.deferred.write hnew _
  have heq : (c.startDeferredTimeout p timeout now).2 =
      { c with deferred := (d.placeDeferred c.msgs c.nextItem).2, nextItem := c.nextItem + 1 } := by
    rw [Channel.startDeferredTimeout, ← hd]
  rw [heq] at hm
  have hvals : ∀ q ∈ (d.placeDeferred c.msgs c.nextItem).2.values,
      q = p ∨ q ∈ c.deferred.values := by
    intro q hq
    cases hlook : d.deferredMessages.lookup (d.idOf c.msgs c.nextItem) with
    | none =>
        obtain ⟨d', hd', hp⟩ := Deferred.placeDeferred_new hsound
          (show c.nextItem ∉ d.deferredPQ.slots by rw [hd]; exact hnew) hlook
        rw [hd'] at hq
        rw [← hval, ← hvalues]
        exact List.mem_cons.mp (hp.values.mem_iff.mp hq)
    | some i =>
        rw [Deferred.placeDeferred_dup hlook] at hq
        exact .inr (hvalues ▸ hq)
  refine hm.of_pointers (fun q hq => ?_) (fun q _ => rfl) (fun b hb => hb)
  rw [mem_pointers] at hq ⊢
  rcases hq with hq | hq | hq
  · exact .inr (.inl hq)
  · exact .inr (.inr (.inl hq))
  · exact (hvals q hq).imp_right fun hq => .inr (.inr hq)

/-! ### Operations that bring and send nothing -/

/-- Nothing is new, though something may be gone. -/
structure Quiet (c c' : Channel) : Prop where
  sound : Sound c'
  account : c'.account ≤ c.account
  has : ∀ m, Has c' m → Has c m

theorem Sound.quiet (h : Sound c) : Quiet c c := ⟨h, le_refl _, fun _ hm => hm⟩

theorem Quiet.trans {c'' : Channel} (h : Quiet c c') (h' : Quiet c' c'') : Quiet c c'' :=
  ⟨h'.sound, h'.account.trans h.account, fun m hm => h.has m (h'.has m hm)⟩

/-- What was taken out of the in-flight part and is put back somewhere is not new. -/
theorem Sound.has_retook (h : Sound c) {s : InFlight} (ht : c.inFlight.Took p s)
    (hm : Has { c with inFlight := s } m ∨ (s.msgs.obj p).stored = m) : Has c m := by
  obtain ⟨hall, hp⟩ := h.has_took ht
  rcases hm with hm | rfl
  · exact hall m hm
  · exact hp

theorem Sound.took_of_takeInFlight (h : Sound c) {clientID : String} {id : MessageID} {s : InFlight}
    (hs : c.inFlight.takeInFlight clientID id = some (.ok (p, s))) : c.inFlight.Took p s := by
  by_cases ho : c.inFlight.Owned clientID id
  · obtain ⟨q, hl, hc⟩ := ho
    obtain ⟨s', hs', ht⟩ := InFlight.takeInFlight_owned h.inFlight hl hc
    rw [hs'] at hs
    cases hs
    exact ht
  · obtain ⟨err, herr⟩ := InFlight.takeInFlight_not_owned ho
    rw [herr] at hs
    cases hs

theorem Sound.has_finishMessage (h : Sound c) {clientID : String} {id : MessageID}
    {r : GoError × Channel} (hr : c.finishMessage clientID id = some r) (hm : Has r.2 m) :
    Has c m := by
  rcases h.takeInFlight clientID id with ⟨_, err, herr⟩ | ⟨_, p, s, hs, -⟩
  · rw [finishMessage_error herr] at hr
    cases hr
    exact hm
  · rw [finishMessage_ok hs] at hr
    cases hr
    exact (h.has_took (h.took_of_takeInFlight hs)).1 m hm

theorem Sound.has_touchMessage (h : Sound c) {clientID : String} {id : MessageID}
    {timeout now : ℤ} {r : GoError × Channel}
    (hr : c.touchMessage clientID id timeout now = some r) (hm : Has r.2 m) : Has c m := by
  rcases h.takeInFlight clientID id with ⟨_, err, herr⟩ | ⟨_, p, s, hs, hl, -⟩
  · rw [touchMessage_error herr] at hr
    cases hr
    exact hm
  · rw [touchMessage_ok hs] at hr
    cases hr
    refine h.has_retook (h.took_of_takeInFlight hs) ?_
    have hw := hl.write (m := c.touched s p timeout now) rfl
    rcases hw.1.has_placeInFlight hm with hm | hm
    · exact .inl (hl.has_write hm)
    · refine .inr ?_
      rw [← hm]
      show _ = ((s.msgs.set p (c.touched s p timeout now)).obj p).stored
      rw [Msgs.set_self]
      rfl

theorem Sound.has_requeueMessage (h : Sound c) {clientID : String} {id : MessageID}
    {timeout now : ℤ} {r : GoError × Channel}
    (hr : c.requeueMessage clientID id timeout now = some r) (hm : Has r.2 m) : Has c m := by
  rcases h.takeInFlight clientID id with ⟨_, err, herr⟩ | ⟨_, p, s, hs, hl, -⟩
  · rw [requeueMessage_error herr] at hr
    cases hr
    exact hm
  · rw [requeueMessage_ok hs] at hr
    cases hr
    have ht := h.took_of_takeInFlight hs
    have hsame := requeued_same c s
    have hback : Has (c.requeued s) m ∨ (s.msgs.obj p).stored = m → Has c m := fun hm =>
      h.has_retook ht (hm.imp_left hsame.has)
    split at hm
    · split at hm
      · exact hback (.inl hm)
      · exact hback (has_put hm)
    · exact hback ((hsame.loose hl).has_startDeferredTimeout hm)

theorem Sound.has_timedOut (h : Sound c) {s : InFlight} (ht : c.inFlight.Took p s)
    (hm : Has (c.timedOut p s) m) : Has c m := by
  have hsame₁ : SameMessages { c with inFlight := s }
      { c with inFlight := s, timeoutCount := c.timeoutCount + 1 } := ⟨rfl, rfl, rfl, rfl, rfl, rfl⟩
  have hsame₂ := updateClient_same { c with inFlight := s, timeoutCount := c.timeoutCount + 1 }
    (s.msgs.obj p).clientID fun client => { client with inFlightCount := client.inFlightCount - 1 }
  refine h.has_retook ht ?_
  rcases has_put hm with hm | hm
  · exact .inl (hsame₁.has (hsame₂.has hm))
  · rw [msgs, updateClient_inFlight] at hm
    exact .inr hm

theorem Sound.has_scanInFlight (h : Sound c) (t : ℤ) (dirty : Bool)
    (hm : Has (c.scanInFlight t dirty).2 m) : Has c m := by
  fun_induction Channel.scanInFlight c t dirty with
  | case1 c dirty hs => exact hm
  | case2 c dirty p s hs err hp =>
      obtain ⟨s', hok, _⟩ := InFlight.shiftInFlight_took h.inFlight hs
      rw [hok] at hp
      cases hp
  | case3 c dirty p s hs q s' hp ih =>
      obtain ⟨s'', hok, ht, -⟩ := InFlight.shiftInFlight_took h.inFlight hs
      rw [hok] at hp
      cases hp
      exact h.has_timedOut ht (ih (h.timedOut ht).sound hm)

theorem Sound.has_scanDeferred (h : Sound c) (t : ℤ) (dirty : Bool)
    (hm : Has (c.scanDeferred t dirty).2 m) : Has c m := by
  fun_induction Channel.scanDeferred c t dirty with
  | case1 c dirty hs => exact hm
  | case2 c dirty i d hs err hp =>
      obtain ⟨d', hok, _⟩ := Deferred.shiftDeferred_took h.deferred hs
      rw [hok] at hp
      cases hp
  | case3 c dirty i d hs j d' hp ih =>
      obtain ⟨d'', hok, ht, -⟩ := Deferred.shiftDeferred_took h.deferred hs
      rw [hok] at hp
      cases hp
      obtain ⟨hall, hp⟩ := has_tookDeferred ht
      rcases has_put (ih (h.reputDeferred ht).sound hm) with hm | rfl
      · exact hall _ hm
      · rw [Items.value_eq ht.items]
        exact hp

/-! ### Operations that bring a message -/

/-- The message may be there now; nothing else is new. -/
structure Brings (c c' : Channel) (m : Message) : Prop where
  sound : Sound c'
  account : c'.account ≤ m.id ::ₘ c.account
  has : ∀ m', Has c' m' → Has c m' ∨ m' = m.stored

theorem Sound.brings_put (h : Sound c) (m : Message) :
    Brings c ((c.alloc m).putMessage c.nextMsg).2 m := by
  obtain ⟨hs, hacc⟩ := h.putMessage m
  refine ⟨hs, ?_, fun m' hm => ?_⟩
  · rcases hacc with ⟨-, hacc⟩ | ⟨-, hacc⟩
    · exact hacc.le
    · rw [hacc]
      exact Multiset.le_cons_self _ _
  · have hput : Has (c.alloc m) m' ∨ ((c.alloc m).msgs.obj c.nextMsg).stored = m' := by
      unfold Channel.putMessage at hm
      split at hm
      · exact .inl hm
      · simp only at hm
        split at hm
        · exact has_put hm
        · exact has_put (SameMessages.has ⟨rfl, rfl, rfl, rfl, rfl, rfl⟩ hm)
    rcases hput with hm | hm
    · exact .inl (h.has_alloc hm)
    · rw [alloc_obj] at hm
      exact .inr hm.symm

theorem Sound.brings_putDeferred (h : Sound c) (hm : m.id ∉ c.account) (timeout now : ℤ) :
    Brings c ((c.alloc m).putMessageDeferred c.nextMsg timeout now) m := by
  obtain ⟨hs, hacc⟩ := h.putMessageDeferred m timeout now
  refine ⟨hs, (hacc hm).le, fun m' hm => ?_⟩
  have hsame : SameMessages (c.alloc m)
      { c.alloc m with messageCount := (c.alloc m).messageCount + 1 } :=
    ⟨rfl, rfl, rfl, rfl, rfl, rfl⟩
  rcases (hsame.loose (h.alloc m).1).has_startDeferredTimeout hm with hm | hm
  · exact .inl (h.has_alloc (hsame.has hm))
  · refine .inr (hm.symm.trans ?_)
    show ((c.alloc m).msgs.obj c.nextMsg).stored = _
    rw [alloc_obj]

/-! ### Deliveries -/

/-- The message as the pump sends it. -/
def bumped (m : Message) : Message := { m with attempts := m.attempts + 1 }

/-- A message of the channel is sent, and stays there as it was sent. -/
structure Sends (c c' : Channel) (s : Message) : Prop where
  sound : Sound c'
  account : c'.account = c.account
  held : ∃ m, Has c m ∧ s = bumped m
  has : ∀ m, Has c' m → m = s ∨ Has c m ∧ m.id ≠ s.id

theorem Loose.placeInFlight_obj (h : Loose c p) :
    ((c.inFlight.placeInFlight p).2.msgs.obj p).stored = (c.msgs.obj p).stored := by
  cases hl : c.inFlight.inFlightMessages.lookup (c.inFlight.msgs.obj p).id with
  | none =>
      obtain ⟨s', hs', hp⟩ := InFlight.placeInFlight_new h.inFlight h.notMem_inFlight hl
      rw [hs']
      exact stored_eq hp.msgs p
  | some q =>
      rw [InFlight.placeInFlight_dup hl]
      rfl

theorem Loose.has_deliver (h : Loose c p) (clientID : String) (timeout now : ℤ) :
    ((c.deliver p clientID timeout now).msgs.obj p).stored = bumped (c.msgs.obj p).stored ∧
      ∀ m, Has (c.deliver p clientID timeout now) m →
        Has c m ∨ m = bumped (c.msgs.obj p).stored := by
  obtain ⟨m₁, hm₁⟩ : ∃ m₁, m₁ = bumped (c.msgs.obj p) := ⟨_, rfl⟩
  obtain ⟨c₁, hc₁⟩ : ∃ c₁ : Channel, c₁ = { c with inFlight := c.inFlight.write p m₁ } := ⟨_, rfl⟩
  have hobj₁ : c₁.msgs.obj p = m₁ := by
    rw [hc₁]
    exact Msgs.set_self _ _ _
  have hl₁ : Loose c₁ p := hc₁ ▸ (h.write (by rw [hm₁]; rfl)).1
  obtain ⟨m₂, hm₂⟩ : ∃ m₂ : Message, m₂ = { c₁.msgs.obj p with
    clientID := clientID, deliveryTS := now, pri := now + timeout } := ⟨_, rfl⟩
  obtain ⟨c₂, hc₂⟩ : ∃ c₂ : Channel, c₂ = { c₁ with inFlight := c₁.inFlight.write p m₂ } := ⟨_, rfl⟩
  have hobj₂ : c₂.msgs.obj p = m₂ := by
    rw [hc₂]
    exact Msgs.set_self _ _ _
  have hl₂ : Loose c₂ p := hc₂ ▸ (hl₁.write (by rw [hm₂]; rfl)).1
  have hstored : (c₂.msgs.obj p).stored = bumped (c.msgs.obj p).stored := by
    rw [hobj₂, hm₂, hobj₁, hm₁]
    rfl
  have hdeliver : c.deliver p clientID timeout now =
      updateClient { c₂ with inFlight := (c₂.inFlight.placeInFlight p).2 } clientID
        fun client => { client with inFlightCount := client.inFlightCount + 1 } := by
    rw [hc₂, hm₂, hc₁, hm₁]
    rfl
  rw [hdeliver]
  constructor
  · rw [msgs, updateClient_inFlight]
    exact hl₂.placeInFlight_obj.trans hstored
  · intro m hm
    rcases hl₂.has_placeInFlight ((updateClient_same _ _ _).has hm) with hm | hm
    · rw [hc₂] at hm
      have hm := hl₁.has_write hm
      rw [hc₁] at hm
      exact .inl (h.has_write hm)
    · exact .inr (hm.symm.trans hstored)

/-- What is taken out of a channel and delivered. -/
theorem Loose.sends {c₁ : Channel} (h : Loose c₁ p) (hnd : c.account.Nodup)
    (hacc : c.account = c₁.idAt p ::ₘ c₁.account) (hmono : ∀ m, Has c₁ m → Has c m)
    (hheld : Has c (c₁.msgs.obj p).stored) (clientID : String) (timeout now : ℤ) :
    Sends c (c₁.deliver p clientID timeout now)
      ((c₁.deliver p clientID timeout now).msgs.obj p).stored := by
  obtain ⟨hs, hdel⟩ := h.deliver clientID timeout now
  obtain ⟨hobj, hhas⟩ := h.has_deliver clientID timeout now
  have hnot : c₁.idAt p ∉ c₁.account := by
    rw [hacc] at hnd
    exact (Multiset.nodup_cons.mp hnd).1
  rw [hobj]
  refine ⟨hs, (hdel hnot).trans hacc.symm, ⟨_, hheld, rfl⟩, fun m hm => ?_⟩
  rcases hhas m hm with hm | rfl
  · refine .inr ⟨hmono m hm, fun hid => hnot ?_⟩
    have hmem := h.toSound.mem_account hm
    rwa [hid] at hmem
  · exact .inl rfl

theorem Sound.deliverMemory_sends (h : Sound c) (hnd : c.account.Nodup) (clientID : String)
    (timeout now : ℤ) :
    (c.sent (.deliverMemory clientID timeout now) = none ∧ c.deliverMemory clientID timeout now = c) ∨
      ∃ s, c.sent (.deliverMemory clientID timeout now) = some s ∧
        Sends c (c.deliverMemory clientID timeout now) s := by
  cases hm : c.memoryMsgChan with
  | nil =>
      refine .inl ⟨?_, ?_⟩
      · rw [sent, hm]
        rfl
      · rw [Channel.deliverMemory, hm]
  | cons p rest =>
      refine .inr ⟨_, by rw [sent, hm]; rfl, ?_⟩
      obtain ⟨hl, hacc⟩ := h.dequeued hm
      have heq : c.deliverMemory clientID timeout now =
          deliver { c with memoryMsgChan := rest } p clientID timeout now := by
        rw [Channel.deliverMemory, hm]
      rw [heq]
      refine hl.sends hnd hacc (fun m hm' => ?_) (.inl ⟨p, ?_, rfl⟩) clientID timeout now
      · refine hm'.mono (fun q hq => ?_) (fun q _ => rfl) (fun b hb => hb)
        rw [mem_pointers] at hq ⊢
        refine hq.imp_left fun hq => ?_
        rw [hm]
        exact List.mem_cons_of_mem _ hq
      · rw [mem_pointers, hm]
        exact .inl List.mem_cons_self

theorem Sound.deliverBackend_sends (h : Sound c) (hnd : c.account.Nodup) (clientID : String)
    (timeout now : ℤ) :
    (c.sent (.deliverBackend clientID timeout now) = none ∧
        c.deliverBackend clientID timeout now = c) ∨
      ∃ s, c.sent (.deliverBackend clientID timeout now) = some s ∧
        Sends c (c.deliverBackend clientID timeout now) s := by
  cases hr : c.backend.records with
  | nil =>
      refine .inl ⟨?_, ?_⟩
      · rw [sent, BackendQueue.read, hr]
      · rw [Channel.deliverBackend, BackendQueue.read, hr]
  | cons b rest =>
      obtain ⟨m, rfl⟩ := h.stored b (hr ▸ List.mem_cons_self)
      have hsent : c.sent (.deliverBackend clientID timeout now) =
          some ((c.deliverBackend clientID timeout now).msgs.obj c.nextMsg).stored := by
        rw [sent, BackendQueue.read, hr]
        simp only [decodeMessage_writeTo]
      refine .inr ⟨_, hsent, ?_⟩
      obtain ⟨c₁, hc₁⟩ : ∃ c₁ : Channel,
        c₁ = { c with backend := { c.backend with records := rest } } := ⟨_, rfl⟩
      have heq : c.deliverBackend clientID timeout now =
          (c₁.alloc m.stored).deliver c.nextMsg clientID timeout now := by
        rw [Channel.deliverBackend, BackendQueue.read, hr]
        simp only [decodeMessage_writeTo]
        rw [hc₁]
      have hnext : c.nextMsg = c₁.nextMsg := by rw [hc₁]
      obtain ⟨hsound, hacc⟩ := h.dequeuedBackend hr
      rw [← hc₁] at hsound hacc
      obtain ⟨hl, halloc, hid⟩ := hsound.alloc m.stored
      rw [heq, hnext]
      refine hl.sends hnd ?_ (fun m' hm' => ?_) (.inr ⟨m.writeTo, ?_, ?_⟩) clientID timeout now
      · rw [hid, halloc]
        exact hacc
      · have hm' := hsound.has_alloc hm'
        rw [hc₁] at hm'
        refine hm'.mono (fun q hq => hq) (fun q _ => rfl) fun b hb => ?_
        rw [hr]
        exact List.mem_cons_of_mem _ hb
      · rw [hr]
        exact List.mem_cons_self
      · rw [decodeMessage_writeTo, alloc_obj]
        rfl

/-! ### One operation -/

/-- **What an operation can do**: it brings a message, it sends one, or nothing is new. -/
theorem Sound.step_cases (h : Sound c) (hnd : c.account.Nodup) {op : Op} {r : GoError × Channel}
    (hr : c.step op = some r) (hnew : ∀ m ∈ op.message, m.id ∉ c.account) :
    (op.message = none ∧ c.sent op = none ∧ Quiet c r.2) ∨
      (∃ m, op.message = some m ∧ c.sent op = none ∧ Brings c r.2 m) ∨
      ∃ s, op.message = none ∧ c.sent op = some s ∧ Sends c r.2 s := by
  cases op with
  | putMessage m =>
      cases hr
      exact .inr (.inl ⟨m, rfl, rfl, h.brings_put m⟩)
  | putMessageDeferred m timeout now =>
      cases hr
      exact .inr (.inl ⟨m, rfl, rfl, h.brings_putDeferred (hnew m rfl) timeout now⟩)
  | deliverMemory clientID timeout now =>
      cases hr
      rcases h.deliverMemory_sends hnd clientID timeout now with ⟨hs, heq⟩ | ⟨s, hs, hsends⟩
      · exact .inl ⟨rfl, hs, heq.symm ▸ h.quiet⟩
      · exact .inr (.inr ⟨s, rfl, hs, hsends⟩)
  | deliverBackend clientID timeout now =>
      cases hr
      rcases h.deliverBackend_sends hnd clientID timeout now with ⟨hs, heq⟩ | ⟨s, hs, hsends⟩
      · exact .inl ⟨rfl, hs, heq.symm ▸ h.quiet⟩
      · exact .inr (.inr ⟨s, rfl, hs, hsends⟩)
  | touchMessage clientID id clientMsgTimeout now =>
      obtain ⟨x, hx, hs, hacc⟩ := h.touchMessage clientID id clientMsgTimeout now
      cases hx.symm.trans hr
      exact .inl ⟨rfl, rfl, hs, (hacc hnd).le, fun _ hm => h.has_touchMessage hr hm⟩
  | finishMessage clientID id =>
      obtain ⟨x, hx, hs, hfin⟩ := h.finishMessage clientID id
      cases hx.symm.trans hr
      refine .inl ⟨rfl, rfl, hs, ?_, fun _ hm => h.has_finishMessage hr hm⟩
      rcases hfin with ⟨-, hacc⟩ | ⟨-, heq⟩
      · rw [hacc]
        exact Multiset.le_cons_self _ _
      · rw [heq]
  | requeueMessage clientID id timeout now =>
      by_cases ht : timeout = 0
      · subst ht
        obtain ⟨x, hx, hs, hreq⟩ := h.requeueMessage_zero clientID id now
        cases hx.symm.trans hr
        refine .inl ⟨rfl, rfl, hs, ?_, fun _ hm => h.has_requeueMessage hr hm⟩
        rcases hreq with ⟨hacc, -⟩ | ⟨hacc, -⟩
        · exact hacc.le
        · rw [hacc]
          exact Multiset.le_cons_self _ _
      · obtain ⟨x, hx, hs, hacc⟩ := h.requeueMessage_deferred clientID id ht now
        cases hx.symm.trans hr
        exact .inl ⟨rfl, rfl, hs, (hacc hnd).le, fun _ hm => h.has_requeueMessage hr hm⟩
  | processInFlightQueue t =>
      cases hr
      refine .inl ⟨rfl, rfl, ?_⟩
      show Quiet c (c.processInFlightQueue t).2
      unfold processInFlightQueue
      split
      · exact h.quiet
      · obtain ⟨hs, hle, -⟩ := h.scanInFlight t false
        exact ⟨hs, hle, fun _ hm => h.has_scanInFlight t false hm⟩
  | processDeferredQueue t =>
      cases hr
      refine .inl ⟨rfl, rfl, ?_⟩
      show Quiet c (c.processDeferredQueue t).2
      unfold processDeferredQueue
      split
      · exact h.quiet
      · obtain ⟨hs, hle, -⟩ := h.scanDeferred t false
        exact ⟨hs, hle, fun _ hm => h.has_scanDeferred t false hm⟩
  | empty =>
      cases hr
      obtain ⟨hs, hheld⟩ := empty_sound c
      refine .inl ⟨rfl, rfl, hs, ?_, fun m hm => ?_⟩
      · rw [account, hheld, zero_add]
        exact Multiset.le_add_left _ _
      · rcases hm with ⟨q, hq, -⟩ | ⟨b, hb, -⟩
        · cases hq
        · cases hb

/-! ### The journal -/

@[simp] theorem afterSends_id (m : Message) (n : ℕ) : (m.afterSends n).id = m.id := rfl

theorem afterSends_zero (m : Message) : m.afterSends 0 = m.stored := by
  rw [Message.afterSends, show m.attempts + UInt16.ofNat 0 = m.attempts from UInt16.add_zero _]
  rfl

theorem bumped_afterSends (m : Message) (n : ℕ) : bumped (m.afterSends n) = m.afterSends (n + 1) := by
  rw [Message.afterSends, Message.afterSends, UInt16.ofNat_add, ← UInt16.add_assoc]
  rfl

theorem timesSent_concat (sends : List Message) (s : Message) (id : MessageID) :
    timesSent (sends ++ [s]) id = timesSent sends id + if s.id = id then 1 else 0 := by
  rw [timesSent, List.map_append, List.count_append, List.map_singleton, List.count_singleton]
  simp only [beq_iff_eq, timesSent]

theorem Journaled.quiet (h : Journaled c j) (hq : Quiet c c') : Journaled c' j where
  sends := h.sends
  has m hm := h.has m (hq.has m hm)
  sound := hq.sound
  once := Multiset.nodup_of_le hq.account h.once
  issued id hid := h.issued id (Multiset.mem_of_le hq.account hid)
  sentIssued := h.sentIssued
  putsOnce := h.putsOnce

theorem Journaled.put (h : Journaled c j) (hb : Brings c c' m)
    (hnew : m.id ∉ j.puts.map Message.id) : Journaled c' { j with puts := j.puts ++ [m] } where
  sends before m' after heq := by
    obtain ⟨m₀, hm₀, hm'⟩ := h.sends before m' after heq
    exact ⟨m₀, List.mem_append_left _ hm₀, hm'⟩
  has m' hm' := by
    rcases hb.has m' hm' with hm' | rfl
    · obtain ⟨m₀, hm₀, hm'⟩ := h.has m' hm'
      exact ⟨m₀, List.mem_append_left _ hm₀, hm'⟩
    · -- a message that was not put before was not sent before
      have hzero : timesSent j.sends m.id = 0 := by
        refine List.count_eq_zero.mpr fun hid => ?_
        obtain ⟨s, hs, hid⟩ := List.mem_map.mp hid
        exact hnew (hid ▸ h.sentIssued s hs)
      refine ⟨m, List.mem_append_right _ (List.mem_singleton_self m), ?_⟩
      rw [hzero, afterSends_zero]
  sound := hb.sound
  once := by
    refine Multiset.nodup_of_le hb.account (Multiset.nodup_cons.mpr ⟨fun hid => ?_, h.once⟩)
    exact hnew (h.issued m.id hid)
  issued id hid := by
    rw [List.map_append, List.mem_append]
    rcases Multiset.mem_cons.mp (Multiset.mem_of_le hb.account hid) with rfl | hid
    · exact .inr (List.mem_singleton_self _)
    · exact .inl (h.issued id hid)
  sentIssued s hs := by
    rw [List.map_append, List.mem_append]
    exact .inl (h.sentIssued s hs)
  putsOnce := by
    rw [List.map_append]
    refine h.putsOnce.append (List.nodup_singleton _) fun id hid hid' => ?_
    rw [List.map_singleton, List.mem_singleton] at hid'
    exact hnew (hid' ▸ hid)

theorem Journaled.send (h : Journaled c j) {s : Message} (hs : Sends c c' s) :
    Journaled c' { j with sends := j.sends ++ [s] } := by
  obtain ⟨m, hm, hsm⟩ := hs.held
  obtain ⟨m₀, hm₀, rfl⟩ := h.has m hm
  rw [bumped_afterSends] at hsm
  have hid : s.id = m₀.id := by rw [hsm, afterSends_id]
  refine ⟨⟨(each_concat _ _ _).mpr ⟨h.sends, m₀, hm₀, hsm⟩, fun m' hm' => ?_⟩, hs.sound, ?_, ?_,
    fun s' hs' => ?_, h.putsOnce⟩
  · rcases hs.has m' hm' with rfl | ⟨hm', hne⟩
    · refine ⟨m₀, hm₀, ?_⟩
      rw [timesSent_concat, if_pos hid]
      exact hsm
    · obtain ⟨m₁, hm₁, rfl⟩ := h.has m' hm'
      refine ⟨m₁, hm₁, ?_⟩
      rw [afterSends_id] at hne
      rw [timesSent_concat, if_neg (Ne.symm hne), Nat.add_zero]
  · rw [hs.account]
    exact h.once
  · rw [hs.account]
    exact h.issued
  · rcases List.mem_append.mp hs' with hs' | hs'
    · exact h.sentIssued s' hs'
    · rw [List.mem_singleton.mp hs', hid]
      exact List.mem_map_of_mem hm₀

/-- **The step of an operation.** -/
theorem Journaled.step (h : Journaled c j) {op : Op} {r : GoError × Channel} (hr : c.step op = some r)
    (hnew : ∀ m ∈ op.message, m.id ∉ j.puts.map Message.id) : Journaled r.2 (j.record c op) := by
  rcases h.sound.step_cases h.once hr fun m hm hid => hnew m hm (h.issued m.id hid) with
    ⟨hm, hs, hq⟩ | ⟨m, hm, hs, hb⟩ | ⟨s, hm, hs, hsends⟩
  · have hrec : j.record c op = j := by simp [Journal.record, hm, hs]
    exact hrec.symm ▸ h.quiet hq
  · have hrec : j.record c op = { j with puts := j.puts ++ [m] } := by
      simp [Journal.record, hm, hs]
    exact hrec.symm ▸ h.put hb (hnew m hm)
  · have hrec : j.record c op = { j with sends := j.sends ++ [s] } := by
      simp [Journal.record, hm, hs]
    exact hrec.symm ▸ h.send hsends

/-! ### Closing and opening -/

/-- What a disk stores of the messages it is given, in order; it may refuse some. -/
theorem exists_writeAll_records {q : BackendQueue} (hd : q.dummy = false) (ms : List Message) :
    ∃ ms' : List Message, ms'.Sublist ms ∧
      (writeAll q ms).records = q.records ++ ms'.map Message.writeTo ∧
      (writeAll q ms).dropped = q.dropped := by
  induction ms generalizing q with
  | nil => exact ⟨[], .slnil, (List.append_nil _).symm, rfl⟩
  | cons m ms ih =>
      have hcons : writeAll q (m :: ms) = writeAll (q.put m.writeTo).2 ms := rfl
      rw [hcons]
      rcases backend_put_cases q m.writeTo with ⟨hd', -⟩ | ⟨-, -, hput⟩ | ⟨-, err, -, hput⟩
      · rw [hd] at hd'
        cases hd'
      · rw [hput]
        obtain ⟨ms', hsub, hrec, hdrop⟩ :=
          ih (q := { q with records := q.records ++ [m.writeTo], puts := q.puts + 1 }) hd
        refine ⟨m :: ms', hsub.cons_cons m, ?_, hdrop⟩
        rw [hrec, List.append_assoc]
        rfl
      · rw [hput]
        obtain ⟨ms', hsub, hrec, hdrop⟩ := ih (q := { q with puts := q.puts + 1 }) hd
        exact ⟨ms', hsub.cons m, hrec, hdrop⟩

theorem idsOf_map_writeTo (ms : List Message) : idsOf (ms.map Message.writeTo) = ms.map Message.id := by
  induction ms with
  | nil => rfl
  | cons m ms ih =>
      rw [List.map_cons, List.map_cons, ← List.singleton_append, idsOf_append, idsOf_writeTo, ih]
      rfl

theorem sound_newChannel {opts : ChannelOptions} {q : BackendQueue} {clients : GoMap String Client}
    (hq : ∀ b ∈ q.records, ∃ m : Message, b = m.writeTo) : Sound (newChannel opts q clients) where
  inFlight := Tracks.nil _
  deferred := Tracks.nil _
  nodup := List.nodup_nil
  fresh := fun p hp => by cases hp
  freshItems := fun i hi => by cases hi
  stored := hq

theorem newChannel_account (opts : ChannelOptions) (q : BackendQueue)
    (clients : GoMap String Client) : (newChannel opts q clients).account =
      (idsOf q.records : Multiset MessageID) + (idsOf q.dropped : Multiset MessageID) := by
  show (0 : Multiset MessageID) + (idsOf q.records : Multiset MessageID) + 0 + 0 +
    (idsOf q.dropped : Multiset MessageID) = _
  rw [zero_add, add_zero, add_zero]

/-- What is on the disk of a channel after it was closed: what was there, and messages of its memory. -/
theorem Sound.exists_exit_records (h : Sound c) {inFlight : List MsgPtr} {deferred : List ItemPtr}
    (hi : inFlight.Perm c.inFlight.inFlightMessages.values)
    (hd : deferred.Perm c.deferred.deferredMessages.values) (hdummy : c.backend.dummy = false) :
    ∃ ps : List MsgPtr, ps.Subperm c.pointers ∧
      (c.exit false inFlight deferred).2.backend.records =
        c.backend.records ++ (ps.map c.msgs.obj).map Message.writeTo ∧
      (c.exit false inFlight deferred).2.backend.dropped = c.backend.dropped := by
  by_cases hflag : c.exitFlag ≠ 0
  · refine ⟨[], List.nil_subperm, ?_, ?_⟩
    · rw [Channel.exit, if_pos hflag]
      exact (List.append_nil _).symm
    · rw [Channel.exit, if_pos hflag]
  · obtain ⟨ms, hms⟩ : ∃ ms, ms = c.memoryMsgChan ++ inFlight ++
      deferred.map fun i => (c.deferred.items.obj i).value := ⟨_, rfl⟩
    have hexit : (c.exit false inFlight deferred).2.backend =
        (writeAll c.backend (ms.map c.msgs.obj)).close := by
      rw [Channel.exit, if_neg hflag, if_neg Bool.false_ne_true, hms]
      rfl
    have hperm : ms.Perm c.pointers := by
      rw [hms]
      exact ((hi.trans h.inFlight.values).append_left _).append
        ((hd.trans h.deferred.values).map _)
    obtain ⟨ms', hsub, hrec, hdrop⟩ := exists_writeAll_records hdummy (ms.map c.msgs.obj)
    obtain ⟨ps, hps, rfl⟩ := List.sublist_map_iff.mp hsub
    rw [hexit]
    exact ⟨ps, hps.subperm.trans hperm.subperm, hrec, hdrop⟩

/-- **Opening again** brings nothing new. -/
theorem Sound.quiet_reopen (h : Sound c) {inFlight : List MsgPtr} {deferred : List ItemPtr}
    {clients : GoMap String Client} (hr : c.reopen inFlight deferred clients = some c') :
    Quiet c c' := by
  unfold reopen at hr
  split at hr
  · rename_i horders
    obtain ⟨hi, hd, hdummy⟩ := horders
    cases hr
    obtain ⟨ps, hps, hrec, hdrop⟩ := h.exists_exit_records hi hd hdummy
    refine ⟨sound_newChannel fun b hb => ?_, ?_, fun m hm => ?_⟩
    · change b ∈ (c.exit false inFlight deferred).2.backend.records at hb
      rw [hrec] at hb
      rcases List.mem_append.mp hb with hb | hb
      · exact h.stored b hb
      · obtain ⟨m, -, rfl⟩ := List.mem_map.mp hb
        exact ⟨m, rfl⟩
    · rw [newChannel_account]
      change (idsOf (c.exit false inFlight deferred).2.backend.records : Multiset MessageID) +
        (idsOf (c.exit false inFlight deferred).2.backend.dropped : Multiset MessageID) ≤ _
      rw [hrec, hdrop, idsOf_append, idsOf_map_writeTo, ← Multiset.coe_add, h.account_eq,
        List.map_map, add_comm (idsOf c.backend.records : Multiset MessageID)]
      have hle : (ps.map c.idAt : Multiset MessageID) ≤ (c.pointers.map c.idAt : Multiset MessageID) :=
        Multiset.map_le_map (Multiset.coe_le.mpr hps)
      exact add_le_add_left (add_le_add_left hle _) _
    · rcases hm with ⟨q, hq, -⟩ | ⟨b, hb, hm⟩
      · cases hq
      · change b ∈ (c.exit false inFlight deferred).2.backend.records at hb
        rw [hrec] at hb
        rcases List.mem_append.mp hb with hb | hb
        · exact .inr ⟨b, hb, hm⟩
        · obtain ⟨m', hm', rfl⟩ := List.mem_map.mp hb
          obtain ⟨q, hq, rfl⟩ := List.mem_map.mp hm'
          rw [decodeMessage_writeTo] at hm
          exact .inl ⟨q, hps.subset hq, Except.ok.inj hm⟩
  · cases hr

/-! ### Runs -/

theorem journalStep_journaled {x y : Channel × Journal} {e : JournalEvent} (h : Journaled x.1 x.2)
    (hs : journalStep x e = some y) (hnew : ∀ m ∈ e.message, m.id ∉ x.2.puts.map Message.id) :
    Journaled y.1 y.2 ∧ y.2.puts = x.2.puts ++ e.message.toList := by
  cases e with
  | operation op =>
      obtain ⟨r, hr, rfl⟩ := Option.map_eq_some_iff.mp hs
      exact ⟨h.step hr hnew, rfl⟩
  | reopen inFlight deferred clients =>
      obtain ⟨c', hc', rfl⟩ := Option.map_eq_some_iff.mp hs
      exact ⟨h.quiet (h.sound.quiet_reopen hc'), (List.append_nil _).symm⟩

theorem run_journaled (es : List JournalEvent) {x y : Channel × Journal} (h : Journaled x.1 x.2)
    (hrun : run journalStep x es = some y)
    (hnodup : ((x.2.puts ++ es.filterMap JournalEvent.message).map Message.id).Nodup) :
    Journaled y.1 y.2 ∧ y.2.puts = x.2.puts ++ es.filterMap JournalEvent.message := by
  induction es generalizing x with
  | nil =>
      cases hrun
      exact ⟨h, (List.append_nil _).symm⟩
  | cons e es ih =>
      obtain ⟨z, hz, hrun⟩ := run_cons_elim hrun
      have hsplit : x.2.puts ++ (e :: es).filterMap JournalEvent.message =
          x.2.puts ++ e.message.toList ++ es.filterMap JournalEvent.message := by
        rw [List.append_assoc, List.filterMap_cons]
        cases e.message <;> rfl
      rw [hsplit] at hnodup ⊢
      have hnew : ∀ m ∈ e.message, m.id ∉ x.2.puts.map Message.id := by
        intro m hm hid
        rw [List.map_append, List.map_append] at hnodup
        refine (List.nodup_append.mp (List.nodup_append.mp hnodup).1).2.2 m.id hid m.id ?_ rfl
        rw [hm]
        exact List.mem_singleton_self _
      obtain ⟨hj, hputs⟩ := journalStep_journaled h hz hnew
      rw [← hputs] at hnodup ⊢
      exact ih hj hrun hnodup

/-- **Every delivery is what was published, with its number.** Over a disk that may refuse any
record, through requeues, timeouts, deferrals, and closing and opening again, in any order: the `n`-th
time that a message is sent it has the body and the time stamp with which it was put, and `n` more
attempts; a message that the channel still holds has as many as it was sent. -/
theorem sends_faithful (opts : ChannelOptions) (outcome : ℕ → GoError) (clients : GoMap String Client)
    (es : List JournalEvent) (c : Channel) (j : Journal)
    (hnodup : ((es.filterMap JournalEvent.message).map Message.id).Nodup)
    (hrun : run journalStep (newChannel opts (BackendQueue.diskQueue outcome) clients, ⟨[], []⟩) es =
      some (c, j)) : Faithful c j ∧ j.puts = es.filterMap JournalEvent.message := by
  have hinit : Journaled (newChannel opts (BackendQueue.diskQueue outcome) clients) ⟨[], []⟩ := by
    refine ⟨⟨each_nil _, fun m hm => ?_⟩, sound_newChannel fun b hb => (by cases hb), ?_, fun id hid => ?_,
      fun m hm => (by cases hm), List.nodup_nil⟩
    · rcases hm with ⟨q, hq, -⟩ | ⟨b, hb, -⟩
      · cases hq
      · cases hb
    · rw [newChannel_account]
      exact Multiset.nodup_zero
    · rw [newChannel_account] at hid
      exact absurd hid (Multiset.notMem_zero id)
  obtain ⟨hj, hputs⟩ := run_journaled es hinit hrun (by exact hnodup)
  exact ⟨hj.toFaithful, hputs⟩

/-- Sent from memory, requeued, timed out, written to the disk on closing, and sent from there. -/
def sentThrice : List JournalEvent :=
  [.operation (.putMessage (newMessage (Vector.replicate 16 1) [7] 3)),
    .operation (.deliverMemory "a" 5 0), .operation (.requeueMessage "a" (Vector.replicate 16 1) 0 1),
    .operation (.deliverMemory "b" 5 2), .operation (.processInFlightQueue 7),
    .reopen [] [] ∅, .operation (.deliverBackend "c" 5 9)]

theorem sentThrice_run :
    ((run journalStep (newChannel ⟨1, 100⟩ (BackendQueue.diskQueue fun _ => none) ∅, ⟨[], []⟩)
      sentThrice).map fun x => x.2.sends.map Message.attempts) = some [1, 2, 3] := by
  decide +kernel

theorem sends_faithful_sentThrice : ∃ c j,
    run journalStep (newChannel ⟨1, 100⟩ (BackendQueue.diskQueue fun _ => none) ∅, ⟨[], []⟩)
      sentThrice = some (c, j) ∧ Faithful c j ∧ j.puts = sentThrice.filterMap JournalEvent.message := by
  obtain ⟨⟨c, j⟩, hx, -⟩ := Option.map_eq_some_iff.mp sentThrice_run
  exact ⟨c, j, hx, sends_faithful ⟨1, 100⟩ _ ∅ sentThrice c j (by decide) hx⟩

end Channel

end Xmq
