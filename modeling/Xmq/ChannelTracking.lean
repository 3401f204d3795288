import Xmq.ChannelModel

/-!
# The in-flight and the deferred part keep map and heap together

`InFlight.Sound` and `Deferred.Sound` say that the map and the heap of a part track each other.
One lemma for each way in and out: `takeInFlight` and the shift of a scan take a message out of
both, `placeInFlight` puts one into both. The structures `Took` and `Placed` hold what a caller
needs to know about the part afterwards.
-/

namespace Xmq

open IndexedHeap

namespace InFlight

/-- The in-flight map and heap hold the same messages, and every position is right. -/
def Sound (s : InFlight) : Prop :=
  Tracks (fun p => (s.msgs.obj p).id) s.inFlightMessages s.heap

/-- Message `id` is in flight for the client. -/
def Owned (s : InFlight) (clientID : String) (id : MessageID) : Prop :=
  ∃ p, s.inFlightMessages.lookup id = some p ∧ (s.msgs.obj p).clientID = clientID

/-- `s'` is `s` with the message at `p` taken out of map and heap. -/
structure Took (s : InFlight) (p : MsgPtr) (s' : InFlight) : Prop where
  sound : s'.Sound
  slots : s.inFlightPQ.slots.Perm (p :: s'.inFlightPQ.slots)
  msgs : Reindexed s.msgs s'.msgs

/-- `s'` is `s` with the message at `p` put into map and heap. -/
structure Placed (s : InFlight) (p : MsgPtr) (s' : InFlight) : Prop where
  sound : s'.Sound
  slots : s'.inFlightPQ.slots.Perm (p :: s.inFlightPQ.slots)
  msgs : Reindexed s.msgs s'.msgs

variable {s s' : InFlight} {p : MsgPtr}

theorem Sound.nodup (hs : s.Sound) : s.inFlightPQ.slots.Nodup := hs.indexed.nodup

theorem Took.notMem (ht : Took s p s') (hs : s.Sound) : p ∉ s'.inFlightPQ.slots :=
  (List.nodup_cons.mp (ht.slots.nodup_iff.mp hs.nodup)).1

theorem Took.mem (ht : Took s p s') : p ∈ s.inFlightPQ.slots :=
  ht.slots.mem_iff.mpr List.mem_cons_self

/-- Writing to a message that is not in flight. -/
theorem Sound.write (hs : s.Sound) (hp : p ∉ s.inFlightPQ.slots) (m : Message) :
    (s.write p m).Sound := by
  have hobj : ∀ q ∈ s.inFlightPQ.slots, (s.msgs.set p m).obj q = s.msgs.obj q :=
    fun q hq => Msgs.set_ne s.msgs m fun e => hp (e ▸ hq)
  exact hs.congr (s := s.msgs.set p m) (fun q hq => congrArg Message.pri (hobj q hq))
    (fun q hq => congrArg Message.index (hobj q hq)) fun q hq => congrArg Message.id (hobj q hq)

theorem Sound.ids (hs : s.Sound) :
    s.inFlightMessages.keys.Perm (s.inFlightPQ.slots.map fun p => (s.msgs.obj p).id) :=
  hs.keys_perm

/-! ### Critical sections in terms of the heap -/

theorem removeFromInFlightPQ_of_neg (h : (s.msgs.obj p).index = -1) :
    s.removeFromInFlightPQ p = some s :=
  if_pos h

theorem removeFromInFlightPQ_eq {x : MsgPtr} {k : Heap Msgs MsgPtr}
    (h : (s.msgs.obj p).index ≠ -1)
    (hk : InFlightPqueue.remove s.heap (s.msgs.obj p).index = some (x, k)) :
    ∃ s', s.removeFromInFlightPQ p = some s' ∧ s'.heap = k ∧
      s'.inFlightMessages = s.inFlightMessages := by
  rw [removeFromInFlightPQ, if_neg h]
  split
  · rename_i y l hl
    rw [hk] at hl
    cases hl
    exact ⟨_, rfl, rfl, rfl⟩
  · rename_i hl
    rw [hk] at hl
    cases hl

theorem shiftInFlight_eq {t : ℤ} (h : s.shiftInFlight t = some (p, s')) :
    InFlightPqueue.peekAndShift s.heap t = some (p, s'.heap) ∧
      s'.inFlightMessages = s.inFlightMessages := by
  unfold shiftInFlight at h
  split at h
  · rename_i hl
    cases h
    exact ⟨hl, rfl⟩
  · cases h

theorem shiftInFlight_none {t : ℤ} (h : s.shiftInFlight t = none) :
    InFlightPqueue.peekAndShift s.heap t = none := by
  unfold shiftInFlight at h
  split at h
  · cases h
  · assumption

/-! ### Taking out and putting in -/

theorem popInFlightMessage_owned {clientID : String} {id : MessageID}
    (hl : s.inFlightMessages.lookup id = some p) (hc : (s.msgs.obj p).clientID = clientID) :
    s.popInFlightMessage clientID id =
      .ok (p, { s with inFlightMessages := s.inFlightMessages.erase id }) := by
  rw [popInFlightMessage, hl]
  exact if_neg (not_not.mpr hc)

theorem popInFlightMessage_not_owned {clientID : String} {id : MessageID}
    (h : ¬ s.Owned clientID id) : ∃ err, s.popInFlightMessage clientID id = .error err := by
  unfold popInFlightMessage
  split
  · exact ⟨_, rfl⟩
  · rename_i p hl
    rw [if_pos fun hc => h ⟨p, hl, hc⟩]
    exact ⟨_, rfl⟩

/-- What the map holds is in the heap, at the message's index. -/
theorem Sound.index_ne (hs : s.Sound) (hp : p ∈ s.inFlightPQ.slots) :
    (s.msgs.obj p).index ≠ -1 := by
  obtain ⟨i, _, _, hidx⟩ := hs.indexed.mem_index hp
  have hidx : (s.msgs.obj p).index = i := hidx
  omega

/-- **Taking a message out.** -/
theorem takeInFlight_owned (hs : s.Sound) {clientID : String} {id : MessageID}
    (hl : s.inFlightMessages.lookup id = some p) (hc : (s.msgs.obj p).clientID = clientID) :
    ∃ s', s.takeInFlight clientID id = some (.ok (p, s')) ∧ Took s p s' := by
  have hmem : p ∈ s.inFlightPQ.slots := hs.mem_of_lookup hl
  obtain ⟨k, hk, hr⟩ := InFlightPqueue.remove_removed hs.indexed hmem
  obtain ⟨s', hs', hheap, hmap⟩ := removeFromInFlightPQ_eq
    (s := { s with inFlightMessages := s.inFlightMessages.erase id }) (hs.index_ne hmem) hk
  subst hheap
  have hsound : s'.Sound := by
    rw [Sound, hmap]
    exact hs.removed hl hr (InFlightPqueue.remove_ordered hs.ordered hk) fun q _ =>
      Msgs.id_eq hr.reindexed q
  refine ⟨s', ?_, hsound, hr.perm, hr.reindexed⟩
  rw [takeInFlight, popInFlightMessage_owned hl hc]
  simp only [hs', Option.map_some]

theorem takeInFlight_not_owned {clientID : String} {id : MessageID}
    (h : ¬ s.Owned clientID id) : ∃ err, s.takeInFlight clientID id = some (.error err) := by
  obtain ⟨err, herr⟩ := popInFlightMessage_not_owned h
  exact ⟨err, by rw [takeInFlight, herr]⟩

/-- **Putting a message in**, when none with its ID is there. -/
theorem placeInFlight_new (hs : s.Sound) (hp : p ∉ s.inFlightPQ.slots)
    (hl : s.inFlightMessages.lookup (s.msgs.obj p).id = none) :
    ∃ s', s.placeInFlight p = (none, s') ∧ Placed s p s' := by
  have ha := InFlightPqueue.push_added (h := s.heap) hs.indexed hp
  have ho := InFlightPqueue.push_ordered (h := s.heap) hs.ordered p
  rw [← push_length s.heap p] at ho
  refine ⟨addToInFlightPQ
      { s with inFlightMessages := s.inFlightMessages.insert (s.msgs.obj p).id p } p,
    by rw [placeInFlight, pushInFlightMessage, hl], ?_, ha.perm, ha.reindexed⟩
  exact hs.added hl ha ho fun q _ => Msgs.id_eq ha.reindexed q

/-- With the ID already there, nothing changes. -/
theorem placeInFlight_dup {q : MsgPtr}
    (hl : s.inFlightMessages.lookup (s.msgs.obj p).id = some q) :
    s.placeInFlight p = (some "ID already in flight", s) := by
  rw [placeInFlight, pushInFlightMessage, hl]

/-- **One round of the scan.** The shifted message is also popped off the map. -/
theorem shiftInFlight_took (hs : s.Sound) {t : ℤ} (h : s.shiftInFlight t = some (p, s')) :
    ∃ s'', s'.popInFlightMessage (s'.msgs.obj p).clientID (s'.msgs.obj p).id = .ok (p, s'') ∧
      Took s p s'' ∧ (s.msgs.obj p).pri ≤ t := by
  obtain ⟨hshift, hmap⟩ := shiftInFlight_eq h
  obtain ⟨hr, hdue⟩ := InFlightPqueue.peekAndShift_removed hs.indexed hshift
  have hl : s.inFlightMessages.lookup (s.msgs.obj p).id = some p := hs.lookup_of_mem hr.mem
  have hid : (s'.msgs.obj p).id = (s.msgs.obj p).id := Msgs.id_eq hr.reindexed p
  refine ⟨_, popInFlightMessage_owned (by rw [hmap, hid, hl]) rfl, ?_, hdue⟩
  refine ⟨?_, hr.perm, hr.reindexed⟩
  show Tracks _ (s'.inFlightMessages.erase (s'.msgs.obj p).id) s'.heap
  rw [hmap, hid]
  exact hs.removed hl hr (InFlightPqueue.peekAndShift_ordered hs.ordered hshift) fun q _ =>
    Msgs.id_eq hr.reindexed q

theorem shiftInFlight_none_pri (hs : s.Sound) {t : ℤ} (h : s.shiftInFlight t = none) :
    ∀ q ∈ s.inFlightPQ.slots, t < (s.msgs.obj q).pri :=
  InFlightPqueue.peekAndShift_none hs.indexed hs.ordered (shiftInFlight_none h)

theorem reset_sound (s : InFlight) (n : ℕ) (h : 1 ≤ n) : (s.resetInFlight n h).Sound :=
  Tracks.nil s.msgs

end InFlight

namespace Deferred

/-- The deferred map and heap hold the same items, and every position is right. -/
def Sound (d : Deferred) (msgs : Msgs) : Prop :=
  Tracks (d.idOf msgs) d.deferredMessages d.heap

/-- The messages the items stand for. -/
def values (d : Deferred) : List MsgPtr :=
  d.deferredPQ.slots.map fun i => (d.items.obj i).value

/-- `d'` is `d` with item `i` taken out of map and heap. -/
structure Took (d : Deferred) (msgs : Msgs) (i : ItemPtr) (d' : Deferred) : Prop where
  sound : d'.Sound msgs
  slots : d.deferredPQ.slots.Perm (i :: d'.deferredPQ.slots)
  items : Reindexed d.items d'.items

/-- `d'` is `d` with item `i` put into map and heap. -/
structure Placed (d : Deferred) (msgs : Msgs) (i : ItemPtr) (d' : Deferred) : Prop where
  sound : d'.Sound msgs
  slots : d'.deferredPQ.slots.Perm (i :: d.deferredPQ.slots)
  items : Reindexed d.items d'.items

variable {d d' : Deferred} {msgs msgs' : Msgs} {i : ItemPtr}

theorem Sound.ids (hd : d.Sound msgs) :
    d.deferredMessages.keys.Perm (d.values.map fun p => (msgs.obj p).id) := by
  rw [values, List.map_map]
  exact hd.keys_perm

/-- Only the IDs of the deferred messages matter. -/
theorem Sound.congr (hd : d.Sound msgs)
    (h : ∀ p ∈ d.values, (msgs'.obj p).id = (msgs.obj p).id) : d.Sound msgs' :=
  Tracks.congr (s := d.items) hd (fun _ _ => rfl) (fun _ _ => rfl) fun _ hi =>
    h _ (List.mem_map_of_mem hi)

theorem values_eq (h : Reindexed d.items d'.items) (l : List ItemPtr) :
    (l.map fun i => (d'.items.obj i).value) = l.map fun i => (d.items.obj i).value :=
  List.map_congr_left fun i _ => Items.value_eq h i

theorem Took.values (ht : Took d msgs i d') :
    d.values.Perm ((d.items.obj i).value :: d'.values) := by
  rw [Deferred.values, Deferred.values, values_eq ht.items]
  exact ht.slots.map _

theorem Placed.values (hp : Placed d msgs i d') :
    d'.values.Perm ((d.items.obj i).value :: d.values) := by
  rw [Deferred.values, Deferred.values, values_eq hp.items]
  exact hp.slots.map _

/-- Writing to an item that is not deferred. -/
theorem Sound.write (hd : d.Sound msgs) (hi : i ∉ d.deferredPQ.slots) (item : Item) :
    Sound { d with items := d.items.set i item } msgs := by
  have hobj : ∀ j ∈ d.deferredPQ.slots, (d.items.set i item).obj j = d.items.obj j :=
    fun j hj => Items.set_ne d.items item fun e => hi (e ▸ hj)
  exact Tracks.congr (s := d.items.set i item) hd (fun j hj => congrArg Item.priority (hobj j hj))
    (fun j hj => congrArg Item.index (hobj j hj))
    fun j hj => congrArg (fun it : Item => (msgs.obj it.value).id) (hobj j hj)

theorem values_write (hi : i ∉ d.deferredPQ.slots) (item : Item) :
    Deferred.values { d with items := d.items.set i item } = d.values :=
  List.map_congr_left fun _ hj =>
    congrArg Item.value (Items.set_ne d.items item fun e => hi (e ▸ hj))

theorem idOf_eq (h : Reindexed d.items d'.items) (j : ItemPtr) :
    d'.idOf msgs j = d.idOf msgs j :=
  congrArg (fun p => (msgs.obj p).id) (Items.value_eq h j)

/-- **Putting an item in**, when none with its message's ID is there. -/
theorem placeDeferred_new (hd : d.Sound msgs) (hi : i ∉ d.deferredPQ.slots)
    (hl : d.deferredMessages.lookup (d.idOf msgs i) = none) :
    ∃ d', d.placeDeferred msgs i = (none, d') ∧ Placed d msgs i d' := by
  have ha := PriorityQueue.push_added (h := d.heap) hd.indexed hi
  have ho := PriorityQueue.push_ordered (h := d.heap) hd.ordered i
  rw [← push_length d.heap i] at ho
  refine ⟨addToDeferredPQ
      { d with deferredMessages := d.deferredMessages.insert (d.idOf msgs i) i } i,
    by rw [placeDeferred, pushDeferredMessage, hl], ?_, ha.perm, ha.reindexed⟩
  exact hd.added hl ha ho fun j _ => congrArg (fun p => (msgs.obj p).id)
    (Items.value_eq ha.reindexed j)

theorem placeDeferred_dup {j : ItemPtr}
    (hl : d.deferredMessages.lookup (d.idOf msgs i) = some j) :
    d.placeDeferred msgs i = (some "ID already deferred", d) := by
  rw [placeDeferred, pushDeferredMessage, hl]

theorem shiftDeferred_eq {t : ℤ} (h : d.shiftDeferred t = some (i, d')) :
    PriorityQueue.peekAndShift d.heap t = some (i, d'.heap) ∧
      d'.deferredMessages = d.deferredMessages := by
  unfold shiftDeferred at h
  split at h
  · rename_i hl
    cases h
    exact ⟨hl, rfl⟩
  · cases h

theorem shiftDeferred_none {t : ℤ} (h : d.shiftDeferred t = none) :
    PriorityQueue.peekAndShift d.heap t = none := by
  unfold shiftDeferred at h
  split at h
  · cases h
  · assumption

/-- **One round of the scan.** The shifted item is also popped off the map. -/
theorem shiftDeferred_took (hd : d.Sound msgs) {t : ℤ} (h : d.shiftDeferred t = some (i, d')) :
    ∃ d'', d'.popDeferredMessage (d'.idOf msgs i) = .ok (i, d'') ∧ Took d msgs i d'' ∧
      (d.items.obj i).priority ≤ t := by
  obtain ⟨hshift, hmap⟩ := shiftDeferred_eq h
  obtain ⟨hr, hdue⟩ := PriorityQueue.peekAndShift_removed hd.indexed hshift
  have hl : d.deferredMessages.lookup (d.idOf msgs i) = some i := hd.lookup_of_mem hr.mem
  have hid : ∀ j, d'.idOf msgs j = d.idOf msgs j := fun j => idOf_eq hr.reindexed j
  refine ⟨{ d' with deferredMessages := d'.deferredMessages.erase (d'.idOf msgs i) }, ?_, ?_, hdue⟩
  · rw [popDeferredMessage, hmap, hid, hl]
  · refine ⟨?_, hr.perm, hr.reindexed⟩
    show Tracks _ (d'.deferredMessages.erase (d'.idOf msgs i)) d'.heap
    rw [hmap, hid]
    exact hd.removed hl hr (PriorityQueue.peekAndShift_ordered hd.ordered hshift) fun j _ => hid j

theorem shiftDeferred_none_priority (hd : d.Sound msgs) {t : ℤ} (h : d.shiftDeferred t = none) :
    ∀ j ∈ d.deferredPQ.slots, t < (d.items.obj j).priority :=
  PriorityQueue.peekAndShift_none hd.indexed hd.ordered (shiftDeferred_none h)

theorem reset_sound (d : Deferred) (msgs : Msgs) (n : ℕ) (h : 1 ≤ n) :
    (d.resetDeferred n h).Sound msgs :=
  Tracks.nil d.items

end Deferred

end Xmq
