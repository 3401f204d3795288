import Mathlib.Algebra.Order.Group.Multiset
import Mathlib.Tactic.Abel
import Xmq.ChannelTracking

/-!
# Where the messages of a channel are

`held` is the multiset of the IDs in the four places of a channel, and `account` adds what a dummy
backend was given. `Sound` is the invariant: both tracked parts are sound, no message object is in
two places, and what the backend stores can be decoded.

Between two places a message is in the hands of the operation that moves it: `Loose c p` says that
the channel is sound without `p`. Every operation is a sequence of moves, and each move has one
lemma that says whether the result is sound and what it does to the account.
-/

namespace Xmq

open IndexedHeap

namespace Channel

/-- The ID of the message at `p`. -/
def idAt (c : Channel) (p : MsgPtr) : MessageID := (c.msgs.obj p).id

/-- The IDs of stored records; a record that cannot be decoded has none. -/
def idsOf (records : List (List UInt8)) : List MessageID :=
  records.filterMap fun b =>
    match decodeMessage b with
    | .ok m => some m.id
    | .error _ => none

/-- The IDs of the messages in memory, in the backend, in flight and deferred. -/
def held (c : Channel) : Multiset MessageID :=
  (c.memoryMsgChan.map c.idAt : Multiset MessageID) + (idsOf c.backend.records : Multiset MessageID) +
    (c.inFlight.inFlightMessages.keys : Multiset MessageID) +
    (c.deferred.deferredMessages.keys : Multiset MessageID)

/-- What the channel holds, and what its dummy backend accepted. -/
def account (c : Channel) : Multiset MessageID :=
  c.held + (idsOf c.backend.dropped : Multiset MessageID)

/-- The message objects the channel holds. -/
def pointers (c : Channel) : List MsgPtr :=
  c.memoryMsgChan ++ c.inFlight.inFlightPQ.slots ++ c.deferred.values

/-- The invariant of a channel. -/
structure Sound (c : Channel) : Prop where
  inFlight : c.inFlight.Sound
  deferred : c.deferred.Sound c.msgs
  nodup : c.pointers.Nodup
  fresh : ∀ p ∈ c.pointers, p < c.nextMsg
  freshItems : ∀ i ∈ c.deferred.deferredPQ.slots, i < c.nextItem
  stored : ∀ b ∈ c.backend.records, ∃ m : Message, b = m.writeTo

/-- Sound without `p`, which some operation has in its hands. -/
structure Loose (c : Channel) (p : MsgPtr) : Prop extends Sound c where
  notMem : p ∉ c.pointers
  lt : p < c.nextMsg

/-! ### Records -/

theorem idsOf_append (l₁ l₂ : List (List UInt8)) : idsOf (l₁ ++ l₂) = idsOf l₁ ++ idsOf l₂ :=
  List.filterMap_append

theorem idsOf_writeTo (m : Message) : idsOf [m.writeTo] = [m.id] := by
  rw [idsOf, List.filterMap_cons, decodeMessage_writeTo]
  rfl

/-! ### Membership -/

section Pointers

variable {c : Channel} {p : MsgPtr}

theorem mem_pointers :
    p ∈ c.pointers ↔
      p ∈ c.memoryMsgChan ∨ p ∈ c.inFlight.inFlightPQ.slots ∨ p ∈ c.deferred.values := by
  rw [pointers, List.mem_append, List.mem_append, or_assoc]

theorem Loose.notMem_inFlight (h : Loose c p) : p ∉ c.inFlight.inFlightPQ.slots :=
  fun hm => h.notMem (mem_pointers.mpr (Or.inr (Or.inl hm)))

/-- The account of a sound channel, message object by message object. -/
theorem Sound.account_eq (h : Sound c) :
    c.account = (c.pointers.map c.idAt : Multiset MessageID) +
      (idsOf c.backend.records : Multiset MessageID) +
      (idsOf c.backend.dropped : Multiset MessageID) := by
  have hif : (c.inFlight.inFlightMessages.keys : Multiset MessageID) =
      (c.inFlight.inFlightPQ.slots.map c.idAt : Multiset MessageID) :=
    Multiset.coe_eq_coe.mpr h.inFlight.ids
  have hdf : (c.deferred.deferredMessages.keys : Multiset MessageID) =
      (c.deferred.values.map c.idAt : Multiset MessageID) :=
    Multiset.coe_eq_coe.mpr h.deferred.ids
  rw [account, held, hif, hdf, pointers, List.map_append, List.map_append, ← Multiset.coe_add,
    ← Multiset.coe_add]
  abel

/-- One message object more is one ID more. -/
theorem Sound.account_cons {c' : Channel} (h : Sound c) (h' : Sound c') (hid : c'.idAt = c.idAt)
    (hb : c'.backend = c.backend) (hp : c'.pointers.Perm (p :: c.pointers)) :
    c'.account = c.idAt p ::ₘ c.account := by
  rw [h.account_eq, h'.account_eq, hid, hb, Multiset.coe_eq_coe.mpr (hp.map c.idAt),
    List.map_cons, ← Multiset.cons_coe, Multiset.cons_add, Multiset.cons_add]

end Pointers

/-! ### What does not touch the messages -/

/-- `c'` differs from `c` in counters, clients, options or health at most. -/
structure SameMessages (c c' : Channel) : Prop where
  memory : c'.memoryMsgChan = c.memoryMsgChan
  inFlight : c'.inFlight = c.inFlight
  deferred : c'.deferred = c.deferred
  backend : c'.backend = c.backend
  nextMsg : c'.nextMsg = c.nextMsg
  nextItem : c'.nextItem = c.nextItem

namespace SameMessages

variable {c c' : Channel}

theorem account (h : SameMessages c c') : c'.account = c.account := by
  have hid : c'.idAt = c.idAt := by
    funext p
    rw [idAt, idAt, msgs, msgs, h.inFlight]
  rw [Channel.account, Channel.account, held, held, h.memory, h.inFlight, h.deferred, h.backend,
    hid]

theorem pointers (h : SameMessages c c') : c'.pointers = c.pointers := by
  rw [Channel.pointers, Channel.pointers, h.memory, h.inFlight, h.deferred]

theorem sound (h : SameMessages c c') (hs : Sound c) : Sound c' where
  inFlight := h.inFlight ▸ hs.inFlight
  deferred := by
    rw [msgs, h.inFlight, h.deferred]
    exact hs.deferred
  nodup := h.pointers ▸ hs.nodup
  fresh := by
    rw [h.pointers, h.nextMsg]
    exact hs.fresh
  freshItems := by
    rw [h.deferred, h.nextItem]
    exact hs.freshItems
  stored := by
    rw [h.backend]
    exact hs.stored

theorem loose (h : SameMessages c c') {p : MsgPtr} (hl : Loose c p) : Loose c' p where
  toSound := h.sound hl.toSound
  notMem := h.pointers ▸ hl.notMem
  lt := h.nextMsg ▸ hl.lt

end SameMessages

theorem updateClient_same (c : Channel) (clientID : String) (f : Client → Client) :
    SameMessages c (c.updateClient clientID f) := by
  unfold updateClient
  split <;> exact ⟨rfl, rfl, rfl, rfl, rfl, rfl⟩

/-! ### The moves -/

section Moves

variable {c : Channel} {p : MsgPtr}

/-- Writing to a message in hand. -/
theorem Loose.write (h : Loose c p) {m : Message} (hm : m.id = c.idAt p) :
    Loose { c with inFlight := c.inFlight.write p m } p ∧
      account { c with inFlight := c.inFlight.write p m } = c.account := by
  have hid : idAt { c with inFlight := c.inFlight.write p m } = c.idAt := by
    funext q
    show ((c.inFlight.msgs.set p m).obj q).id = _
    by_cases hq : q = p
    · rw [hq, Msgs.set_self, hm]
    · rw [Msgs.set_ne _ _ hq]
      rfl
  refine ⟨⟨⟨h.inFlight.write h.notMem_inFlight m, ?_, h.nodup, h.fresh, h.freshItems, h.stored⟩,
    h.notMem, h.lt⟩, ?_⟩
  · exact h.deferred.congr fun q _ => congrFun hid q
  · rw [account, account, held, held, hid]
    rfl

/-- A new message object. -/
theorem Sound.alloc (h : Sound c) (m : Message) :
    Loose (c.alloc m) c.nextMsg ∧ (c.alloc m).account = c.account ∧
      (c.alloc m).idAt c.nextMsg = m.id := by
  have hnew : c.nextMsg ∉ c.pointers := fun hm => Nat.lt_irrefl _ (h.fresh _ hm)
  have hif : c.nextMsg ∉ c.inFlight.inFlightPQ.slots :=
    fun hm => hnew (mem_pointers.mpr (Or.inr (Or.inl hm)))
  have hid : ∀ q ∈ c.pointers, (c.alloc m).idAt q = c.idAt q := by
    intro q hq
    have hne : q ≠ c.nextMsg := fun e => hnew (e ▸ hq)
    show ((c.inFlight.msgs.set c.nextMsg m).obj q).id = _
    rw [Msgs.set_ne _ _ hne]
    rfl
  have hsound : Sound (c.alloc m) := by
    refine ⟨h.inFlight.write hif m, ?_, h.nodup, ?_, h.freshItems, h.stored⟩
    · exact h.deferred.congr fun q hq => hid q (mem_pointers.mpr (Or.inr (Or.inr hq)))
    · intro q hq
      exact Nat.lt_succ_of_lt (h.fresh q hq)
  refine ⟨⟨hsound, hnew, Nat.lt_succ_self _⟩, ?_, ?_⟩
  · rw [hsound.account_eq, h.account_eq]
    have hmap : (c.alloc m).pointers.map (c.alloc m).idAt = c.pointers.map c.idAt :=
      List.map_congr_left hid
    rw [hmap]
    rfl
  · show ((c.inFlight.msgs.set c.nextMsg m).obj c.nextMsg).id = _
    rw [Msgs.set_self]

/-- Out of the in-flight part, into the caller's hands. -/
theorem Sound.took (h : Sound c) {s : InFlight} (ht : c.inFlight.Took p s) :
    Loose { c with inFlight := s } p ∧
      c.account = c.idAt p ::ₘ account { c with inFlight := s } := by
  have hid : idAt { c with inFlight := s } = c.idAt := by
    funext q
    exact Msgs.id_eq ht.msgs q
  have hperm : c.pointers.Perm (p :: pointers { c with inFlight := s }) := by
    have h1 : (c.memoryMsgChan ++ c.inFlight.inFlightPQ.slots).Perm
        (p :: (c.memoryMsgChan ++ s.inFlightPQ.slots)) :=
      (ht.slots.append_left _).trans List.perm_middle
    exact h1.append_right c.deferred.values
  have hnd := hperm.nodup_iff.mp h.nodup
  have hsound : Sound { c with inFlight := s } := by
    refine ⟨ht.sound, ?_, (List.nodup_cons.mp hnd).2, ?_, h.freshItems, h.stored⟩
    · exact h.deferred.congr fun q _ => congrFun hid q
    · intro q hq
      exact h.fresh q (hperm.mem_iff.mpr (List.mem_cons_of_mem _ hq))
  refine ⟨⟨hsound, (List.nodup_cons.mp hnd).1, h.fresh p (hperm.mem_iff.mpr List.mem_cons_self)⟩,
    ?_⟩
  rw [← hid]
  exact hsound.account_cons h hid.symm rfl hperm

/-- Out of the deferred part, into the caller's hands. -/
theorem Sound.tookDeferred (h : Sound c) {d : Deferred} {i : ItemPtr}
    (ht : c.deferred.Took c.msgs i d) :
    Loose { c with deferred := d } (c.deferred.items.obj i).value ∧
      c.account = c.idAt (c.deferred.items.obj i).value ::ₘ account { c with deferred := d } := by
  have hperm : c.pointers.Perm
      ((c.deferred.items.obj i).value :: pointers { c with deferred := d }) :=
    (ht.values.append_left _).trans List.perm_middle
  have hnd := hperm.nodup_iff.mp h.nodup
  have hsound : Sound { c with deferred := d } := by
    refine ⟨h.inFlight, ht.sound, (List.nodup_cons.mp hnd).2, ?_, ?_, h.stored⟩
    · intro q hq
      exact h.fresh q (hperm.mem_iff.mpr (List.mem_cons_of_mem _ hq))
    · intro j hj
      exact h.freshItems j (ht.slots.mem_iff.mpr (List.mem_cons_of_mem _ hj))
  exact ⟨⟨hsound, (List.nodup_cons.mp hnd).1, h.fresh _ (hperm.mem_iff.mpr List.mem_cons_self)⟩,
    hsound.account_cons h rfl rfl hperm⟩

/-- From the caller's hands into the in-flight part. -/
theorem Loose.placed (h : Loose c p) {s : InFlight} (hp : c.inFlight.Placed p s) :
    Sound { c with inFlight := s } ∧
      account { c with inFlight := s } = c.idAt p ::ₘ c.account := by
  have hid : idAt { c with inFlight := s } = c.idAt := by
    funext q
    exact Msgs.id_eq hp.msgs q
  have hperm : (pointers { c with inFlight := s }).Perm (p :: c.pointers) := by
    have h1 : (c.memoryMsgChan ++ s.inFlightPQ.slots).Perm
        (p :: (c.memoryMsgChan ++ c.inFlight.inFlightPQ.slots)) :=
      (hp.slots.append_left _).trans List.perm_middle
    exact h1.append_right c.deferred.values
  have hsound : Sound { c with inFlight := s } := by
    refine ⟨hp.sound, ?_, hperm.nodup_iff.mpr (List.nodup_cons.mpr ⟨h.notMem, h.nodup⟩), ?_,
      h.freshItems, h.stored⟩
    · exact h.deferred.congr fun q _ => congrFun hid q
    · intro q hq
      rcases List.mem_cons.mp (hperm.mem_iff.mp hq) with rfl | hq
      · exact h.lt
      · exact h.fresh q hq
  exact ⟨hsound, h.account_cons hsound hid rfl hperm⟩

/-- From the caller's hands into the deferred part. -/
theorem Loose.placedDeferred (h : Loose c p) {d : Deferred} {i : ItemPtr}
    (hv : (c.deferred.items.obj i).value = p) (hi : i < c.nextItem)
    (hp : c.deferred.Placed c.msgs i d) :
    Sound { c with deferred := d } ∧
      account { c with deferred := d } = c.idAt p ::ₘ c.account := by
  have hperm : (pointers { c with deferred := d }).Perm (p :: c.pointers) :=
    hv ▸ (hp.values.append_left _).trans List.perm_middle
  have hsound : Sound { c with deferred := d } := by
    refine ⟨h.inFlight, hp.sound, hperm.nodup_iff.mpr (List.nodup_cons.mpr ⟨h.notMem, h.nodup⟩),
      ?_, ?_, h.stored⟩
    · intro q hq
      rcases List.mem_cons.mp (hperm.mem_iff.mp hq) with rfl | hq
      · exact h.lt
      · exact h.fresh q hq
    · intro j hj
      rcases List.mem_cons.mp (hp.slots.mem_iff.mp hj) with rfl | hj
      · exact hi
      · exact h.freshItems j hj
  exact ⟨hsound, h.account_cons hsound rfl rfl hperm⟩

/-- From the caller's hands to the end of the memory queue. -/
theorem Loose.queued (h : Loose c p) :
    Sound { c with memoryMsgChan := c.memoryMsgChan ++ [p] } ∧
      account { c with memoryMsgChan := c.memoryMsgChan ++ [p] } = c.idAt p ::ₘ c.account := by
  have hperm : (pointers { c with memoryMsgChan := c.memoryMsgChan ++ [p] }).Perm
      (p :: c.pointers) := by
    have h1 := (List.perm_append_singleton p c.memoryMsgChan).append_right
      c.inFlight.inFlightPQ.slots
    exact h1.append_right c.deferred.values
  have hsound : Sound { c with memoryMsgChan := c.memoryMsgChan ++ [p] } := by
    refine ⟨h.inFlight, h.deferred, hperm.nodup_iff.mpr (List.nodup_cons.mpr ⟨h.notMem, h.nodup⟩),
      ?_, h.freshItems, h.stored⟩
    intro q hq
    rcases List.mem_cons.mp (hperm.mem_iff.mp hq) with rfl | hq
    · exact h.lt
    · exact h.fresh q hq
  exact ⟨hsound, h.account_cons hsound rfl rfl hperm⟩

/-- From the head of the memory queue into the caller's hands. -/
theorem Sound.dequeued (h : Sound c) {rest : List MsgPtr} (hm : c.memoryMsgChan = p :: rest) :
    Loose { c with memoryMsgChan := rest } p ∧
      c.account = c.idAt p ::ₘ account { c with memoryMsgChan := rest } := by
  have heq : c.pointers = p :: pointers { c with memoryMsgChan := rest } := by
    rw [pointers, hm]
    rfl
  have hnd := h.nodup
  rw [heq] at hnd
  have hfresh := h.fresh
  rw [heq] at hfresh
  have hsound : Sound { c with memoryMsgChan := rest } :=
    ⟨h.inFlight, h.deferred, (List.nodup_cons.mp hnd).2,
      fun q hq => hfresh q (List.mem_cons_of_mem _ hq), h.freshItems, h.stored⟩
  exact ⟨⟨hsound, (List.nodup_cons.mp hnd).1, hfresh p List.mem_cons_self⟩,
    hsound.account_cons h rfl rfl (List.Perm.of_eq heq)⟩

/-- A change of the backend that stores whole messages only. -/
theorem Sound.setBackend (h : Sound c) {q : BackendQueue} {err : GoError}
    (hq : ∀ b ∈ q.records, ∃ m : Message, b = m.writeTo) :
    Sound { c with backend := q, health := err } :=
  ⟨h.inFlight, h.deferred, h.nodup, h.fresh, h.freshItems, hq⟩

/-- The records are one summand of the account. -/
theorem account_setBackend {q : BackendQueue} {e : GoError} {x : Multiset MessageID}
    (hx : (idsOf q.records : Multiset MessageID) + (idsOf q.dropped : Multiset MessageID) =
      x + ((idsOf c.backend.records : Multiset MessageID) +
        (idsOf c.backend.dropped : Multiset MessageID))) :
    account { c with backend := q, health := e } = x + c.account := by
  have hsum : ∀ M R R' K D E E' : Multiset MessageID, R' + E' = x + (R + E) →
      M + R' + K + D + E' = x + (M + R + K + D + E) := by
    intro M R R' K D E E' h
    calc M + R' + K + D + E' = M + K + D + (R' + E') := by abel
      _ = M + K + D + (x + (R + E)) := by rw [h]
      _ = x + (M + R + K + D + E) := by abel
  exact hsum _ _ _ _ _ _ _ hx

end Moves

end Channel

end Xmq
