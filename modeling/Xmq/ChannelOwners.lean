import Xmq.ChannelConservation

/-!
# Whose messages are in flight

A client counts its messages in flight, and the channel has them in its map under the client's ID.
`Shift me c c' d` says that an operation moves both numbers of the client `me` by `d`. Each operation
has one lemma that says which shift it is; where messages have different IDs and the backend takes
every record, no operation moves one number alone.
-/

namespace Xmq

open IndexedHeap

namespace InFlight

/-- How many messages are in flight for the client. -/
def owned (s : InFlight) (me : String) : ℕ :=
  s.inFlightMessages.values.countP fun p => decide ((s.msgs.obj p).clientID = me)

/-- One for the owner of the message, and nothing for others. -/
def share (s : InFlight) (me : String) (p : MsgPtr) : ℕ :=
  if (s.msgs.obj p).clientID = me then 1 else 0

variable {s s' : InFlight} {p : MsgPtr} {me : String}

theorem owned_eq (hs : s.Sound) :
    s.owned me = s.inFlightPQ.slots.countP fun p => decide ((s.msgs.obj p).clientID = me) :=
  hs.values.countP_eq _

theorem countP_cons_share (s : InFlight) (me : String) (p : MsgPtr) (l : List MsgPtr) :
    ((p :: l).countP fun p => decide ((s.msgs.obj p).clientID = me)) =
      (l.countP fun p => decide ((s.msgs.obj p).clientID = me)) + s.share me p := by
  simp only [List.countP_cons, share, decide_eq_true_eq]

theorem countP_reindexed (h : Reindexed s.msgs s'.msgs) (l : List MsgPtr) :
    (l.countP fun p => decide ((s'.msgs.obj p).clientID = me)) =
      l.countP fun p => decide ((s.msgs.obj p).clientID = me) := by
  have hid : ∀ q, (s'.msgs.obj q).clientID = (s.msgs.obj q).clientID := fun q =>
    Msgs.field_eq Message.clientID (fun _ _ => rfl) h q
  simp only [hid]

variable (me) in
theorem Took.owned (hs : s.Sound) (ht : Took s p s') : s.owned me = s'.owned me + s.share me p := by
  rw [owned_eq hs, owned_eq ht.sound, ht.slots.countP_eq, countP_cons_share,
    countP_reindexed ht.msgs]

theorem Placed.owned (hs : s.Sound) (hp : Placed s p s') :
    s'.owned me = s.owned me + s.share me p := by
  rw [owned_eq hs, owned_eq hp.sound, hp.slots.countP_eq, countP_reindexed hp.msgs,
    countP_cons_share]

/-- Who has a message that is not in flight does not matter. -/
theorem owned_write (hs : s.Sound) (hp : p ∉ s.inFlightPQ.slots) (m : Message) :
    (s.write p m).owned me = s.owned me := by
  rw [owned_eq (hs.write hp m), owned_eq hs]
  apply List.countP_congr
  intro q hq
  have hobj : ((s.write p m).msgs.obj q) = s.msgs.obj q :=
    Msgs.set_ne s.msgs m fun e => hp (e ▸ hq)
  rw [hobj]

end InFlight

namespace Channel

/-- Both numbers of the client move by `d`. -/
structure Shift (me : String) (c c' : Channel) (d : ℤ) : Prop where
  owned : (c'.inFlight.owned me : ℤ) = c.inFlight.owned me + d
  count : ∀ client, c.clients.lookup me = some client →
    c'.clients.lookup me = some ⟨client.inFlightCount + d⟩

namespace Shift

variable {me : String} {c c' c'' : Channel} {d d' : ℤ}

/-- What concerns neither the clients nor the messages in flight. -/
theorem of_eq (hclients : c'.clients = c.clients)
    (howned : c'.inFlight.owned me = c.inFlight.owned me) : Shift me c c' 0 where
  owned := by rw [howned, add_zero]
  count := fun client h => by rw [hclients, h, add_zero]

theorem refl (me : String) (c : Channel) : Shift me c c 0 := of_eq rfl rfl

theorem trans (h : Shift me c c' d) (h' : Shift me c' c'' d') : Shift me c c'' (d + d') where
  owned := by rw [h'.owned, h.owned, add_assoc]
  count := fun client hc => by rw [h'.count _ (h.count client hc), add_assoc]

theorem after (h : Shift me c c' 0) (h' : Shift me c' c'' d) : Shift me c c'' d := by
  have htrans := h.trans h'
  rwa [zero_add] at htrans

end Shift

section Operations

variable {c : Channel} {p : MsgPtr} {me : String}

theorem lookup_updateClient_self {client : Client} (h : c.clients.lookup me = some client)
    (f : Client → Client) : (c.updateClient me f).clients.lookup me = some (f client) := by
  rw [updateClient, h]
  exact AList.lookup_insert _

theorem lookup_updateClient_ne {other : String} (hne : me ≠ other) (f : Client → Client) :
    (c.updateClient other f).clients.lookup me = c.clients.lookup me := by
  unfold updateClient
  split
  · exact AList.lookup_insert_ne hne
  · rfl

/-- The channel changes the messages of `who` and then its counter. -/
theorem Shift.of_update {c' : Channel} (who : String) (d : ℤ) (f : Client → Client)
    (hf : ∀ client, f client = ⟨client.inFlightCount + d⟩) (hclients : c'.clients = c.clients)
    (howned : (c'.inFlight.owned me : ℤ) = c.inFlight.owned me + if who = me then d else 0) :
    Shift me c (c'.updateClient who f) (if who = me then d else 0) where
  owned := by rw [updateClient_inFlight, howned]
  count := by
    intro client h
    rw [← hclients] at h
    by_cases hwho : who = me
    · subst hwho
      rw [lookup_updateClient_self h, hf, if_pos rfl]
    · rw [lookup_updateClient_ne (Ne.symm hwho), h, if_neg hwho, add_zero]

theorem put_clients (c : Channel) (p : MsgPtr) : (c.put p).2.clients = c.clients := by
  unfold put
  split <;> rfl

theorem put_shift (me : String) (c : Channel) (p : MsgPtr) : Shift me c (c.put p).2 0 :=
  Shift.of_eq (put_clients c p) (by rw [put_inFlight])

/-! ### New messages -/

variable (me) in
theorem Sound.alloc_shift (h : Sound c) (m : Message) : Shift me c (c.alloc m) 0 := by
  refine Shift.of_eq rfl (InFlight.owned_write h.inFlight ?_ m)
  exact fun hm => Nat.lt_irrefl _ (h.fresh _ (mem_pointers.mpr (Or.inr (Or.inl hm))))

theorem Sound.putMessage_shift (h : Sound c) (m : Message) :
    Shift me c ((c.alloc m).putMessage c.nextMsg).2 0 := by
  have halloc := h.alloc_shift me m
  unfold Channel.putMessage
  split
  · exact halloc
  · have hput := halloc.after (put_shift me (c.alloc m) c.nextMsg)
    simp only
    split
    · exact hput
    · exact ⟨hput.owned, hput.count⟩

theorem Sound.putMessageDeferred_shift (h : Sound c) (m : Message) (timeout now : ℤ) :
    Shift me c ((c.alloc m).putMessageDeferred c.nextMsg timeout now) 0 :=
  (h.alloc_shift me m).after (Shift.of_eq rfl rfl)

/-! ### Delivery -/

/-- A message whose ID is not in flight gets an owner. -/
theorem Loose.startInFlightTimeout_owned (h : Loose c p) (hid : c.idAt p ∉ c.account)
    (who : String) (timeout now : ℤ) :
    (c.startInFlightTimeout p who timeout now).2.inFlight.owned me =
      c.inFlight.owned me + if who = me then 1 else 0 := by
  obtain ⟨m, hm⟩ : ∃ m : Message, m = { c.msgs.obj p with
    clientID := who, deliveryTS := now, pri := now + timeout } := ⟨_, rfl⟩
  have hobj : (c.inFlight.write p m).msgs.obj p = m := Msgs.set_self _ _ _
  have hlookup : (c.inFlight.write p m).inFlightMessages.lookup
      ((c.inFlight.write p m).msgs.obj p).id = none := by
    rw [hobj, hm]
    exact notMem_inFlight_of_account hid
  have hsound := h.inFlight.write h.notMem_inFlight m
  obtain ⟨s', hs', hp⟩ := InFlight.placeInFlight_new hsound h.notMem_inFlight hlookup
  rw [Channel.startInFlightTimeout, ← hm, hs']
  show s'.owned me = _
  rw [hp.owned hsound, InFlight.owned_write h.inFlight h.notMem_inFlight, InFlight.share, hobj, hm]

theorem Loose.deliver_shift (h : Loose c p) (hid : c.idAt p ∉ c.account) (who : String)
    (timeout now : ℤ) :
    Shift me c (c.deliver p who timeout now) (if who = me then 1 else 0) := by
  obtain ⟨m, hm⟩ : ∃ m : Message, m = { c.msgs.obj p with
    attempts := (c.msgs.obj p).attempts + 1 } := ⟨_, rfl⟩
  have hmid : m.id = c.idAt p := by rw [hm]; rfl
  obtain ⟨hl, hacc⟩ := h.write hmid
  have hidw : idAt { c with inFlight := c.inFlight.write p m } p = c.idAt p := by
    show ((c.inFlight.msgs.set p m).obj p).id = _
    rw [Msgs.set_self, hmid]
  rw [Channel.deliver, ← hm]
  refine Shift.of_update who 1 _ (fun _ => rfl) rfl ?_
  rw [hl.startInFlightTimeout_owned (by rw [hacc, hidw]; exact hid),
    InFlight.owned_write h.inFlight h.notMem_inFlight]
  split <;> simp

variable (me) in
theorem Sound.deliverMemory_shift (h : Sound c) (hnd : c.account.Nodup) (who : String)
    (timeout now : ℤ) :
    ∃ d, 0 ≤ d ∧ d ≤ (if who = me then 1 else 0) ∧
      Shift me c (c.deliverMemory who timeout now) d := by
  rw [Channel.deliverMemory]
  cases hm : c.memoryMsgChan with
  | nil => exact ⟨0, le_rfl, by split <;> decide, Shift.refl me c⟩
  | cons p rest =>
      obtain ⟨hl, hacc⟩ := h.dequeued hm
      rw [hacc] at hnd
      have hfrom : Shift me c { c with memoryMsgChan := rest } 0 := Shift.of_eq rfl rfl
      exact ⟨_, by split <;> decide, le_rfl, hfrom.after
        (hl.deliver_shift (Multiset.nodup_cons.mp hnd).1 who timeout now)⟩

variable (me) in
theorem Sound.deliverBackend_shift (h : Sound c) (hnd : c.account.Nodup) (who : String)
    (timeout now : ℤ) :
    ∃ d, 0 ≤ d ∧ d ≤ (if who = me then 1 else 0) ∧
      Shift me c (c.deliverBackend who timeout now) d := by
  rw [Channel.deliverBackend]
  cases hr : c.backend.records with
  | nil =>
      rw [BackendQueue.read, hr]
      exact ⟨0, le_rfl, by split <;> decide, Shift.refl me c⟩
  | cons b rest =>
      obtain ⟨m, rfl⟩ := h.stored b (hr ▸ List.mem_cons_self)
      rw [BackendQueue.read, hr]
      simp only [decodeMessage_writeTo]
      obtain ⟨hsound, hacc⟩ := h.dequeuedBackend hr
      obtain ⟨hl, halloc, hid⟩ := hsound.alloc m.stored
      rw [hacc] at hnd
      have hfrom : Shift me c { c with backend := { c.backend with records := rest } } 0 :=
        Shift.of_eq rfl rfl
      have hnew : idAt (Channel.alloc { c with backend := { c.backend with records := rest } }
          m.stored) c.nextMsg ∉ (Channel.alloc { c with backend :=
            { c.backend with records := rest } } m.stored).account := by
        rw [hid, halloc]
        exact (Multiset.nodup_cons.mp hnd).1
      exact ⟨_, by split <;> decide, le_rfl, (hfrom.after (hsound.alloc_shift me m.stored)).after
        (hl.deliver_shift hnew who timeout now)⟩

/-! ### Finishing, requeueing, touching -/

variable (me) in
/-- Taking a message out of its owner's hands; there is one less. -/
theorem Sound.takeInFlight_owned (h : Sound c) {who : String} {id : MessageID}
    (ho : c.inFlight.Owned who id) :
    ∃ p s, c.inFlight.takeInFlight who id = some (.ok (p, s)) ∧ c.inFlight.Took p s ∧
      (s.msgs.obj p).clientID = who ∧
      (s.owned me : ℤ) = c.inFlight.owned me + if who = me then -1 else 0 := by
  obtain ⟨p, hl, hc⟩ := ho
  obtain ⟨s, hs, ht⟩ := InFlight.takeInFlight_owned h.inFlight hl hc
  have howned := ht.owned me h.inFlight
  rw [InFlight.share, hc] at howned
  refine ⟨p, s, hs, ht, ?_, ?_⟩
  · rw [Msgs.field_eq Message.clientID (fun _ _ => rfl) ht.msgs p, hc]
  · rw [howned]
    split <;> simp

/-- A successful FIN or REQ and its change of the client's counter. -/
def finishedMessage (c : Channel) (who : String) : Channel :=
  c.updateClient who fun client => { client with inFlightCount := client.inFlightCount - 1 }

/-- `FIN`. -/
def fin (c : Channel) (who : String) (id : MessageID) : Option (GoError × Channel) :=
  (c.finishMessage who id).map fun r =>
    (r.1, if r.1 = none then r.2.finishedMessage who else r.2)

/-- `REQ`. -/
def req (c : Channel) (who : String) (id : MessageID) (timeout now : ℤ) :
    Option (GoError × Channel) :=
  (c.requeueMessage who id timeout now).map fun r =>
    (r.1, if r.1 = none then r.2.finishedMessage who else r.2)

theorem finishedMessage_shift {c' : Channel} {who : String} (hclients : c'.clients = c.clients)
    (howned : (c'.inFlight.owned me : ℤ) = c.inFlight.owned me + if who = me then -1 else 0) :
    Shift me c (c'.finishedMessage who) (if who = me then -1 else 0) :=
  Shift.of_update who (-1) _ (fun _ => rfl) hclients howned

variable (me) in
theorem Sound.fin_shift (h : Sound c) (who : String) (id : MessageID) :
    ∃ r, c.fin who id = some r ∧ ∃ d ≤ 0, Shift me c r.2 d := by
  by_cases ho : c.inFlight.Owned who id
  · obtain ⟨p, s, hs, -, -, howned⟩ := h.takeInFlight_owned me ho
    have hshift : Shift me c (finishedMessage { c with inFlight := s } who)
        (if who = me then -1 else 0) := finishedMessage_shift rfl howned
    refine ⟨(none, finishedMessage { c with inFlight := s } who), ?_, _, ?_, hshift⟩
    · rw [fin, finishMessage_ok hs]
      rfl
    · split <;> decide
  · obtain ⟨err, herr⟩ := InFlight.takeInFlight_not_owned ho
    refine ⟨(some err, c), ?_, 0, le_rfl, Shift.refl me c⟩
    rw [fin, finishMessage_error herr]
    rfl

/-- Where the backend takes every record and IDs are different, a requeue of a message in flight does
not fail. -/
theorem Kept.requeued_ok {live : Multiset MessageID} {s : InFlight} (h : Kept c live)
    (ht : c.inFlight.Took p s) (timeout now : ℤ) :
    ∃ c', (if timeout = 0 then
        if c.exiting then (some "exiting", c.requeued s) else (c.requeued s).put p
      else (c.requeued s).startDeferredTimeout p timeout now) = (none, c') ∧
      c'.clients = c.clients ∧ c'.inFlight = s := by
  obtain ⟨hl, hacc⟩ := h.sound.took ht
  split
  · rw [h.reliable.exiting, if_neg Bool.false_ne_true]
    have hput : ((c.requeued s).put p).1 = none :=
      put_eq_none_iff.mpr ((requeued_putsOk c s 1).mpr (h.reliable.putsOk 1))
    exact ⟨((c.requeued s).put p).2, Prod.ext hput rfl, put_clients _ _, put_inFlight _ _⟩
  · have hnd : c.account.Nodup := h.account ▸ h.nodup
    rw [hacc] at hnd
    have hnew : (c.requeued s).idAt p ∉ (c.requeued s).account := by
      rw [(requeued_same c s).account]
      show idAt { c with inFlight := s } p ∉ _
      rw [show idAt { c with inFlight := s } p = c.idAt p from Msgs.id_eq ht.msgs p]
      exact (Multiset.nodup_cons.mp hnd).1
    obtain ⟨-, hstart⟩ := ((requeued_same c s).loose hl).startDeferredTimeout timeout now
    exact ⟨_, Prod.ext (hstart hnew).1 rfl, rfl, rfl⟩

variable (me) in
theorem Kept.req_shift {live : Multiset MessageID} (h : Kept c live) (who : String)
    (id : MessageID) (timeout now : ℤ) :
    ∃ r, c.req who id timeout now = some r ∧ ∃ d ≤ 0, Shift me c r.2 d := by
  by_cases ho : c.inFlight.Owned who id
  · obtain ⟨p, s, hs, ht, -, howned⟩ := h.sound.takeInFlight_owned me ho
    obtain ⟨c', hc', hclients, hin⟩ := h.requeued_ok ht timeout now
    rw [← hin] at howned
    refine ⟨(none, c'.finishedMessage who), ?_, _, ?_, finishedMessage_shift hclients howned⟩
    · rw [req, requeueMessage_ok hs, hc']
      rfl
    · split <;> decide
  · obtain ⟨err, herr⟩ := InFlight.takeInFlight_not_owned ho
    refine ⟨(some err, c), ?_, 0, le_rfl, Shift.refl me c⟩
    rw [req, requeueMessage_error herr]
    rfl

variable (me) in
/-- `TOUCH` gives the message back to its owner. -/
theorem Sound.touchMessage_shift (h : Sound c) (hnd : c.account.Nodup) (who : String)
    (id : MessageID) (clientMsgTimeout now : ℤ) :
    ∃ r, c.touchMessage who id clientMsgTimeout now = some r ∧ Shift me c r.2 0 := by
  by_cases ho : c.inFlight.Owned who id
  · obtain ⟨p, s, hs, ht, hwho, howned⟩ := h.takeInFlight_owned me ho
    obtain ⟨hl, hacc⟩ := h.took ht
    rw [hacc] at hnd
    have hsound : s.Sound := hl.inFlight
    have hp : p ∉ s.inFlightPQ.slots := hl.notMem_inFlight
    have hw := hsound.write hp (c.touched s p clientMsgTimeout now)
    have hobj : (s.write p (c.touched s p clientMsgTimeout now)).msgs.obj p =
        c.touched s p clientMsgTimeout now := Msgs.set_self _ _ _
    have hlookup : s.inFlightMessages.lookup
        ((s.write p (c.touched s p clientMsgTimeout now)).msgs.obj p).id = none := by
      rw [hobj]
      refine notMem_inFlight_of_account (c := { c with inFlight := s }) ?_
      show (s.msgs.obj p).id ∉ _
      rw [show (s.msgs.obj p).id = c.idAt p from Msgs.id_eq ht.msgs p]
      exact (Multiset.nodup_cons.mp hnd).1
    obtain ⟨s', hs', hplaced⟩ := InFlight.placeInFlight_new hw hp hlookup
    refine ⟨_, touchMessage_ok hs, ?_⟩
    rw [hs']
    refine Shift.of_eq rfl ?_
    have hback : s'.owned me = s.owned me + if who = me then 1 else 0 := by
      rw [hplaced.owned hw, InFlight.owned_write hsound hp, InFlight.share, hobj]
      show s.owned me + (if (s.msgs.obj p).clientID = me then 1 else 0) = _
      rw [hwho]
    show s'.owned me = _
    split at hback
    · rename_i hwho
      rw [if_pos hwho] at howned
      omega
    · rename_i hwho
      rw [if_neg hwho] at howned
      omega
  · obtain ⟨err, herr⟩ := InFlight.takeInFlight_not_owned ho
    exact ⟨_, touchMessage_error herr, Shift.refl me c⟩

/-! ### Scans -/

variable (me) in
theorem Sound.timedOut_shift (h : Sound c) {s : InFlight} (ht : c.inFlight.Took p s) :
    ∃ d ≤ 0, Shift me c (c.timedOut p s) d := by
  obtain ⟨who, hwho⟩ : ∃ who, who = (s.msgs.obj p).clientID := ⟨_, rfl⟩
  have howned := ht.owned me h.inFlight
  rw [InFlight.share, ← Msgs.field_eq Message.clientID (fun _ _ => rfl) ht.msgs p, ← hwho]
    at howned
  have hupdate : Shift me c (finishedMessage
      { c with inFlight := s, timeoutCount := c.timeoutCount + 1 } who)
      (if who = me then -1 else 0) := by
    refine finishedMessage_shift rfl ?_
    show (s.owned me : ℤ) = _
    rw [howned]
    split <;> simp
  have hput := hupdate.trans (put_shift me _ p)
  rw [add_zero] at hput
  rw [Channel.timedOut, ← hwho]
  exact ⟨_, by split <;> decide, hput⟩

/-- A scan takes messages away, and counts each of them. -/
theorem Sound.scanInFlight_shift (h : Sound c) (t : ℤ) (dirty : Bool) :
    ∃ d ≤ 0, Shift me c (c.scanInFlight t dirty).2 d := by
  fun_induction Channel.scanInFlight c t dirty with
  | case1 c dirty hs => exact ⟨0, le_rfl, Shift.refl me c⟩
  | case2 c dirty p s hs err hp =>
      obtain ⟨s', hok, _⟩ := InFlight.shiftInFlight_took h.inFlight hs
      rw [hok] at hp
      cases hp
  | case3 c dirty p s hs q s' hp ih =>
      obtain ⟨s'', hok, ht, -⟩ := InFlight.shiftInFlight_took h.inFlight hs
      rw [hok] at hp
      cases hp
      obtain ⟨d, hd, hshift⟩ := h.timedOut_shift me ht
      obtain ⟨d', hd', hshift'⟩ := ih (h.timedOut ht).sound
      exact ⟨d + d', by omega, hshift.trans hshift'⟩

theorem scanDeferred_shift (me : String) (c : Channel) (t : ℤ) (dirty : Bool) :
    Shift me c (c.scanDeferred t dirty).2 0 := by
  fun_induction Channel.scanDeferred c t dirty with
  | case1 c dirty hs => exact Shift.refl me c
  | case2 c dirty i d hs err hp => exact Shift.of_eq rfl rfl
  | case3 c dirty i d hs j d' hp ih =>
      have hfrom : Shift me c { c with deferred := d' } 0 := Shift.of_eq rfl rfl
      exact (hfrom.after (put_shift me _ _)).after ih

variable (me) in
theorem Sound.processInFlightQueue_shift (h : Sound c) (t : ℤ) :
    ∃ d ≤ 0, Shift me c (c.processInFlightQueue t).2 d := by
  unfold Channel.processInFlightQueue
  split
  · exact ⟨0, le_rfl, Shift.refl me c⟩
  · exact h.scanInFlight_shift t false

theorem processDeferredQueue_shift (me : String) (c : Channel) (t : ℤ) :
    Shift me c (c.processDeferredQueue t).2 0 := by
  unfold Channel.processDeferredQueue
  split
  · exact Shift.refl me c
  · exact scanDeferred_shift me c t false

end Operations

end Channel

end Xmq
