import Xmq.ChannelOwners
import Xmq.ChannelPutFailure

/-!
# What a timeout scan does

`processInFlightQueue t` takes the in-flight messages that are due at `t` out of map and heap and
puts them back in the queue; `processDeferredQueue t` does the same with the deferred items. For
each of the two there is a structure, `InFlightScan` and `DeferredScan`, that relates the channel
before to the result, by way of the list of what was due in the order of its deadlines.

The loops run until the heap's root is not due. That nothing due is left behind rests on the heap
order, which every removal restores; `PutBack` says where the messages go, those that find room in
memory first and the rest to the backend.
-/

namespace Xmq

open IndexedHeap

/-! ### What is due -/

/-- `due` was taken from `slots` in the order of its keys, and `rest` was left. -/
structure TakenDue {α : Type} (key : α → ℤ) (t : ℤ) (slots due rest : List α) : Prop where
  exactly : due.Perm (slots.filter fun x => key x ≤ t)
  once : due.Nodup
  order : due.Pairwise fun x y => key x ≤ key y
  heap : rest.Perm (slots.filter fun x => t < key x)

/-- Nothing is taken where nothing is due. -/
theorem TakenDue.nil {α : Type} {key : α → ℤ} {t : ℤ} {slots : List α}
    (hlate : ∀ x ∈ slots, t < key x) : TakenDue key t slots [] slots where
  exactly := by rw [List.filter_eq_nil_iff.mpr fun x hx => by simpa using hlate x hx]
  once := List.nodup_nil
  order := List.Pairwise.nil
  heap := by rw [List.filter_eq_self.mpr fun x hx => decide_eq_true (hlate x hx)]

/-- First a least element that is due, and then the others. -/
theorem TakenDue.cons {α : Type} {key : α → ℤ} {t : ℤ} {slots slots' due rest : List α} {x : α}
    (hslots : slots.Perm (x :: slots')) (hnodup : slots.Nodup) (hdue : key x ≤ t)
    (hleast : ∀ y ∈ slots, key x ≤ key y) (h : TakenDue key t slots' due rest) :
    TakenDue key t slots (x :: due) rest := by
  have hmem : ∀ y ∈ due, y ∈ slots' := by
    intro y hy
    exact (List.mem_filter.mp (h.exactly.mem_iff.mp hy)).1
  have hnot : x ∉ slots' := (List.nodup_cons.mp (hslots.nodup_iff.mp hnodup)).1
  constructor
  · refine (h.exactly.cons x).trans ((hslots.filter _).trans ?_).symm
    rw [List.filter_cons_of_pos (by simpa using hdue)]
  · exact List.nodup_cons.mpr ⟨fun hx => hnot (hmem x hx), h.once⟩
  · refine List.pairwise_cons.mpr ⟨fun y hy => hleast y ?_, h.order⟩
    exact hslots.mem_iff.mpr (List.mem_cons_of_mem x (hmem y hy))
  · refine h.heap.trans ((hslots.filter _).trans ?_).symm
    rw [List.filter_cons_of_neg (by simpa using hdue)]

namespace InFlight

variable {s s' : InFlight} {p : MsgPtr}

/-- The scan shifts a message with a least deadline. -/
theorem shiftInFlight_least (hs : s.Sound) {t : ℤ} (h : s.shiftInFlight t = some (p, s')) :
    ∀ q ∈ s.inFlightPQ.slots, (s.msgs.obj p).pri ≤ (s.msgs.obj q).pri :=
  InFlightPqueue.peekAndShift_least hs.indexed hs.ordered (shiftInFlight_eq h).1

end InFlight

namespace Deferred

variable {d d' : Deferred} {msgs : Msgs} {i : ItemPtr}

theorem shiftDeferred_least (hd : d.Sound msgs) {t : ℤ} (h : d.shiftDeferred t = some (i, d')) :
    ∀ j ∈ d.deferredPQ.slots, (d.items.obj i).priority ≤ (d.items.obj j).priority :=
  PriorityQueue.peekAndShift_least hd.indexed hd.ordered (shiftDeferred_eq h).1

end Deferred

namespace Channel

/-! ### Putting messages back -/

/-- Every `Put` of the backend succeeds. -/
def PutSucceeds (q : BackendQueue) : Prop := q.dummy = true ∨ ∀ k, q.outcome k = none

/-- The backend after it took the given records, in order; a dummy backend drops them. -/
def stored (q : BackendQueue) (bs : List (List UInt8)) : BackendQueue :=
  if q.dummy then { q with dropped := q.dropped ++ bs, puts := q.puts + bs.length }
  else { q with records := q.records ++ bs, puts := q.puts + bs.length }

/-- The free slots of `memoryMsgChan`. -/
def room (c : Channel) : ℕ := c.opts.memQueueSize - c.memoryMsgChan.length

/-- `c'` has the messages `ps` back in its queue: the first ones in memory, as long as there was
room, and the others in the backend. -/
structure PutBack (c c' : Channel) (ps : List MsgPtr) : Prop where
  memory : c'.memoryMsgChan = c.memoryMsgChan ++ ps.take c.room
  backend : c'.backend =
    stored c.backend ((ps.drop c.room).map fun p => (c.msgs.obj p).writeTo)

variable {c c' c'' : Channel} {p : MsgPtr}

theorem stored_nil (q : BackendQueue) : stored q [] = q := by
  unfold stored
  split <;> simp

theorem stored_append (q : BackendQueue) (as bs : List (List UInt8)) :
    stored (stored q as) bs = stored q (as ++ bs) := by
  cases h : q.dummy <;> simp [stored, h, Nat.add_assoc]

theorem PutSucceeds.put {q : BackendQueue} (hq : PutSucceeds q) (b : List UInt8) :
    (q.put b).2 = stored q [b] := by
  rcases backend_put_cases q b with ⟨hd, hb⟩ | ⟨hd, -, hb⟩ | ⟨hd, err, herr, -⟩
  · simp [hb, stored, hd]
  · simp [hb, stored, hd]
  · rcases hq with hq | hq
    · simp [hd] at hq
    · simp [hq] at herr

theorem PutSucceeds.stored {q : BackendQueue} (hq : PutSucceeds q) (bs : List (List UInt8)) :
    PutSucceeds (stored q bs) := by
  unfold Channel.stored
  split <;> exact hq

theorem PutBack.nil (c : Channel) : PutBack c c [] where
  memory := by simp
  backend := by simp [stored_nil]

theorem put_putBack (hq : PutSucceeds c.backend) (p : MsgPtr) : PutBack c (c.put p).2 [p] := by
  rcases put_cases c p with ⟨hlt, hput⟩ | ⟨hge, hput⟩
  · obtain ⟨n, hn⟩ : ∃ n, c.room = n + 1 := ⟨c.room - 1, by rw [room]; omega⟩
    constructor
    · simp [hput, hn]
    · simp [hput, hn, stored_nil]
  · have hzero : c.room = 0 := by rw [room]; omega
    constructor
    · simp [hput, hzero]
    · simp [hput, hzero, hq.put]

/-- One message back, and then the others. -/
theorem PutBack.cons {ps : List MsgPtr} (h : PutBack c c' [p]) (hopts : c'.opts = c.opts)
    (hmsgs : ∀ q, (c'.msgs.obj q).writeTo = (c.msgs.obj q).writeTo) (h' : PutBack c' c'' ps) :
    PutBack c c'' (p :: ps) := by
  have hroom : c'.room = c.room - 1 := by
    have hlen := congrArg List.length h.memory
    simp only [List.length_append, List.length_take, List.length_singleton] at hlen
    simp only [room, hopts] at hlen ⊢
    omega
  have hm := h'.memory
  have hb := h'.backend
  rw [h.memory, hroom] at hm
  rw [h.backend, hroom, stored_append] at hb
  simp only [hmsgs] at hb
  cases hn : c.room with
  | zero =>
      rw [hn] at hm hb
      constructor
      · simpa [hn] using hm
      · simpa [hn] using hb
  | succ n =>
      rw [hn] at hm hb
      constructor
      · simpa [hn] using hm
      · simpa [hn] using hb

/-- Only the queue and what the put reads of the channel matter. -/
theorem PutBack.of_eq {ps : List MsgPtr} {d : Channel} (h : PutBack d c' ps)
    (hm : d.memoryMsgChan = c.memoryMsgChan) (hb : d.backend = c.backend) (ho : d.opts = c.opts)
    (hmsgs : ∀ q, (d.msgs.obj q).writeTo = (c.msgs.obj q).writeTo) : PutBack c c' ps := by
  have hroom : d.room = c.room := by rw [room, room, hm, ho]
  constructor
  · rw [h.memory, hm, hroom]
  · simp only [h.backend, hb, hroom, hmsgs]

/-! ### The in-flight scan -/

/-- What a scan of the in-flight messages at `t` does, where `due` are those that are due in the
order of their deadlines. -/
structure InFlightScan (c : Channel) (t : ℤ) (due : List MsgPtr) (c' : Channel) : Prop where
  exactly : due.Perm (c.inFlight.inFlightPQ.slots.filter fun p => (c.msgs.obj p).pri ≤ t)
  once : due.Nodup
  order : due.Pairwise fun p q => (c.msgs.obj p).pri ≤ (c.msgs.obj q).pri
  putBack : PutBack c c' due
  heap : c'.inFlight.inFlightPQ.slots.Perm
    (c.inFlight.inFlightPQ.slots.filter fun p => t < (c.msgs.obj p).pri)
  map : ∀ id p, c'.inFlight.inFlightMessages.lookup id = some p ↔
    c.inFlight.inFlightMessages.lookup id = some p ∧ t < (c.msgs.obj p).pri
  sound : c'.inFlight.Sound
  messages : ∀ p, ∃ n, c'.msgs.obj p = { c.msgs.obj p with index := n }
  timeoutCount : c'.timeoutCount = c.timeoutCount + UInt64.ofNat due.length
  clients : ∀ id, c'.clients.lookup id = (c.clients.lookup id).map fun client =>
    ⟨client.inFlightCount - due.countP fun p => (c.msgs.obj p).clientID = id⟩
  others : c' =
    { c with
      inFlight := c'.inFlight, timeoutCount := c'.timeoutCount, clients := c'.clients,
      memoryMsgChan := c'.memoryMsgChan, backend := c'.backend, health := c'.health }

theorem lookup_updateClient (c : Channel) (who id : String) (f : Client → Client) :
    (c.updateClient who f).clients.lookup id =
      (c.clients.lookup id).map fun client => if who = id then f client else client := by
  by_cases h : who = id
  · subst h
    cases hc : c.clients.lookup who with
    | none => simp [updateClient, hc]
    | some client => simp [lookup_updateClient_self hc]
  · simp [lookup_updateClient_ne (Ne.symm h), h]

theorem InFlightScan.nil (hs : c.inFlight.Sound) {t : ℤ}
    (hlate : ∀ q ∈ c.inFlight.inFlightPQ.slots, t < (c.msgs.obj q).pri) :
    InFlightScan c t [] c := by
  have htaken := TakenDue.nil hlate
  constructor
  · exact htaken.exactly
  · exact htaken.once
  · exact htaken.order
  · exact PutBack.nil c
  · exact htaken.heap
  · exact fun _ _ => Tracks.lookup_filter hs hs htaken.heap fun _ => rfl
  · exact hs
  · intro p
    exact ⟨_, rfl⟩
  · simp
  · intro id
    cases c.clients.lookup id <;> simp
  · rfl

theorem put_others (c : Channel) (p : MsgPtr) : (c.put p).2 =
    { c with
      memoryMsgChan := (c.put p).2.memoryMsgChan, backend := (c.put p).2.backend,
      health := (c.put p).2.health } := by
  unfold put
  split <;> rfl

theorem timedOut_others (c : Channel) (p : MsgPtr) (s : InFlight) : c.timedOut p s =
    { c with
      inFlight := s, timeoutCount := c.timeoutCount + 1, clients := (c.timedOut p s).clients,
      memoryMsgChan := (c.timedOut p s).memoryMsgChan, backend := (c.timedOut p s).backend,
      health := (c.timedOut p s).health } := by
  rw [timedOut, put_others, updateClient]
  split <;> rfl

theorem timedOut_clients (c : Channel) (p : MsgPtr) (s : InFlight) (id : String) :
    (c.timedOut p s).clients.lookup id = (c.clients.lookup id).map fun client =>
      if (s.msgs.obj p).clientID = id then ⟨client.inFlightCount - 1⟩ else client := by
  rw [timedOut, put_clients]
  exact lookup_updateClient _ _ id _

theorem timedOut_putBack (hq : PutSucceeds c.backend) {s : InFlight}
    (hmsgs : Reindexed c.inFlight.msgs s.msgs) : PutBack c (c.timedOut p s) [p] := by
  obtain ⟨d, hd⟩ : ∃ d : Channel, d = updateClient
    { c with inFlight := s, timeoutCount := c.timeoutCount + 1 } (s.msgs.obj p).clientID
      fun client => { client with inFlightCount := client.inFlightCount - 1 } := ⟨_, rfl⟩
  have hsame : SameMessages { c with inFlight := s, timeoutCount := c.timeoutCount + 1 } d := by
    rw [hd]
    exact updateClient_same _ _ _
  have hopts : d.opts = c.opts := by
    rw [hd, updateClient]
    split <;> rfl
  rw [timedOut, ← hd]
  refine (put_putBack (c := d) ?_ p).of_eq hsame.memory hsame.backend hopts ?_
  · rw [hsame.backend]
    exact hq
  · intro q
    rw [msgs, hsame.inFlight]
    exact Msgs.field_eq Message.writeTo (fun _ _ => rfl) hmsgs q

/-- One round of the loop, and then the rest of the scan. -/
theorem InFlightScan.cons (hs : c.inFlight.Sound) (hq : PutSucceeds c.backend) {s : InFlight}
    {t : ℤ} {due : List MsgPtr} (ht : c.inFlight.Took p s) (hdue : (c.msgs.obj p).pri ≤ t)
    (hleast : ∀ q ∈ c.inFlight.inFlightPQ.slots, (c.msgs.obj p).pri ≤ (c.msgs.obj q).pri)
    (h : InFlightScan (c.timedOut p s) t due c') : InFlightScan c t (p :: due) c' := by
  have hin : (c.timedOut p s).inFlight = s := timedOut_inFlight c p s
  have hobj : ∀ {β : Type} (f : Message → β), (∀ m n, f { m with index := n } = f m) → ∀ q,
      f ((c.timedOut p s).msgs.obj q) = f (c.msgs.obj q) := by
    intro β f hf q
    rw [msgs, hin]
    exact Msgs.field_eq f hf ht.msgs q
  have hpri := hobj Message.pri fun _ _ => rfl
  have howner := hobj Message.clientID fun _ _ => rfl
  have hexactly := h.exactly
  have hheap := h.heap
  have horder := h.order
  have hclients := h.clients
  simp only [hpri, howner, hin] at hexactly hheap horder hclients
  have htaken := TakenDue.cons ht.slots hs.indexed.nodup hdue hleast
    ⟨hexactly, h.once, horder, hheap⟩
  constructor
  · exact htaken.exactly
  · exact htaken.once
  · exact htaken.order
  · refine (timedOut_putBack hq ht.msgs).cons ?_ (hobj Message.writeTo fun _ _ => rfl) h.putBack
    rw [timedOut_others]
  · exact htaken.heap
  · refine fun _ _ => Tracks.lookup_filter hs h.sound htaken.heap fun q => ?_
    obtain ⟨n, hn⟩ := h.messages q
    show (c'.msgs.obj q).id = _
    rw [hn]
    exact hobj Message.id (fun _ _ => rfl) q
  · exact h.sound
  · intro q
    obtain ⟨n, hn⟩ := h.messages q
    obtain ⟨k, hk⟩ := Msgs.obj_reindexed ht.msgs q
    refine ⟨n, ?_⟩
    rw [hn, msgs, hin, hk]
    rfl
  · have hcount : (c.timedOut p s).timeoutCount = c.timeoutCount + 1 := by rw [timedOut_others]
    have hone : UInt64.ofNat 1 = 1 := rfl
    rw [h.timeoutCount, hcount, List.length_cons, UInt64.ofNat_add, hone]
    ac_rfl
  · intro id
    rw [hclients, timedOut_clients, Option.map_map]
    congr 1
    funext client
    have hown : (s.msgs.obj p).clientID = (c.msgs.obj p).clientID :=
      Msgs.field_eq Message.clientID (fun _ _ => rfl) ht.msgs p
    by_cases hid : (c.msgs.obj p).clientID = id
    · simp [hown, hid]
      omega
    · simp [hown, hid]
  · rw [h.others, timedOut_others]

/-- **The loop of `processInFlightQueue`.** -/
theorem scanInFlight_spec (hs : c.inFlight.Sound) (hq : PutSucceeds c.backend) (t : ℤ)
    (dirty : Bool) : ∃ due, InFlightScan c t due (c.scanInFlight t dirty).2 ∧
      ((c.scanInFlight t dirty).1 = true ↔ dirty = true ∨ due ≠ []) := by
  fun_induction Channel.scanInFlight c t dirty with
  | case1 c dirty h =>
      exact ⟨[], InFlightScan.nil hs (InFlight.shiftInFlight_none_pri hs h), by simp⟩
  | case2 c dirty p s h err hp =>
      obtain ⟨s', hok, -⟩ := InFlight.shiftInFlight_took hs h
      rw [hok] at hp
      cases hp
  | case3 c dirty p s h q s' hp ih =>
      obtain ⟨s'', hok, ht, hdue⟩ := InFlight.shiftInFlight_took hs h
      rw [hok] at hp
      cases hp
      have hback := timedOut_putBack (p := p) hq ht.msgs
      obtain ⟨due, hscan, hflag⟩ := ih (by rw [timedOut_inFlight]; exact ht.sound)
        (by rw [hback.backend]; exact hq.stored _)
      refine ⟨p :: due, hscan.cons hs hq ht hdue (InFlight.shiftInFlight_least hs h), ?_⟩
      rw [hflag]
      simp

/-! ### The deferred scan -/

/-- What a scan of the deferred items at `t` does. -/
structure DeferredScan (c : Channel) (t : ℤ) (due : List ItemPtr) (c' : Channel) : Prop where
  exactly : due.Perm
    (c.deferred.deferredPQ.slots.filter fun i => (c.deferred.items.obj i).priority ≤ t)
  once : due.Nodup
  order : due.Pairwise fun i j =>
    (c.deferred.items.obj i).priority ≤ (c.deferred.items.obj j).priority
  putBack : PutBack c c' (due.map fun i => (c.deferred.items.obj i).value)
  heap : c'.deferred.deferredPQ.slots.Perm
    (c.deferred.deferredPQ.slots.filter fun i => t < (c.deferred.items.obj i).priority)
  map : ∀ id i, c'.deferred.deferredMessages.lookup id = some i ↔
    c.deferred.deferredMessages.lookup id = some i ∧ t < (c.deferred.items.obj i).priority
  sound : c'.deferred.Sound c.msgs
  items : ∀ i, ∃ n, c'.deferred.items.obj i = { c.deferred.items.obj i with index := n }
  others : c' =
    { c with
      deferred := c'.deferred, memoryMsgChan := c'.memoryMsgChan, backend := c'.backend,
      health := c'.health }

theorem DeferredScan.nil (hd : c.deferred.Sound c.msgs) {t : ℤ}
    (hlate : ∀ j ∈ c.deferred.deferredPQ.slots, t < (c.deferred.items.obj j).priority) :
    DeferredScan c t [] c := by
  have htaken := TakenDue.nil hlate
  constructor
  · exact htaken.exactly
  · exact htaken.once
  · exact htaken.order
  · exact PutBack.nil c
  · exact htaken.heap
  · exact fun _ _ => Tracks.lookup_filter hd hd htaken.heap fun _ => rfl
  · exact hd
  · intro i
    exact ⟨_, rfl⟩
  · rfl

/-- One round of the loop, and then the rest of the scan. -/
theorem DeferredScan.cons (hd : c.deferred.Sound c.msgs) (hq : PutSucceeds c.backend)
    {d : Deferred} {i : ItemPtr} {t : ℤ} {due : List ItemPtr} (ht : c.deferred.Took c.msgs i d)
    (hdue : (c.deferred.items.obj i).priority ≤ t)
    (hleast : ∀ j ∈ c.deferred.deferredPQ.slots,
      (c.deferred.items.obj i).priority ≤ (c.deferred.items.obj j).priority)
    (h : DeferredScan (put { c with deferred := d } (d.items.obj i).value).2 t due c') :
    DeferredScan c t (i :: due) c' := by
  have hvalue : ∀ j, (d.items.obj j).value = (c.deferred.items.obj j).value := fun j =>
    Items.value_eq ht.items j
  have hpri : ∀ j, (d.items.obj j).priority = (c.deferred.items.obj j).priority := fun j =>
    Items.field_eq Item.priority (fun _ _ => rfl) ht.items j
  obtain ⟨e, he⟩ : ∃ e : Channel, e = (put { c with deferred := d } (d.items.obj i).value).2 :=
    ⟨_, rfl⟩
  have hback : PutBack c e [(c.deferred.items.obj i).value] := by
    rw [he, hvalue]
    exact (put_putBack (c := { c with deferred := d }) hq _).of_eq rfl rfl rfl fun _ => rfl
  have hothers : e = { c with
      deferred := d, memoryMsgChan := e.memoryMsgChan, backend := e.backend,
      health := e.health } := by
    rw [he]
    exact put_others _ _
  have hdef : e.deferred = d := by rw [hothers]
  have hmsgs : e.msgs = c.msgs := by rw [hothers]; rfl
  rw [← he] at h
  have hexactly := h.exactly
  have hheap := h.heap
  have horder := h.order
  have hput := h.putBack
  simp only [hdef, hpri, hvalue] at hexactly hheap horder hput
  have hsound := h.sound
  rw [hmsgs] at hsound
  have htaken := TakenDue.cons ht.slots hd.indexed.nodup hdue hleast
    ⟨hexactly, h.once, horder, hheap⟩
  constructor
  · exact htaken.exactly
  · exact htaken.once
  · exact htaken.order
  · refine hback.cons ?_ (fun q => ?_) hput
    · rw [hothers]
    · rw [hmsgs]
  · exact htaken.heap
  · refine fun _ _ => Tracks.lookup_filter hd hsound htaken.heap fun j => ?_
    obtain ⟨n, hn⟩ := h.items j
    show (c.msgs.obj (c'.deferred.items.obj j).value).id = _
    rw [hn, hdef]
    exact congrArg (fun q => (c.msgs.obj q).id) (hvalue j)
  · exact hsound
  · intro j
    obtain ⟨n, hn⟩ := h.items j
    obtain ⟨k, hk⟩ := Items.obj_reindexed ht.items j
    refine ⟨n, ?_⟩
    rw [hn, hdef, hk]
  · rw [h.others, hothers]

/-- **The loop of `processDeferredQueue`.** -/
theorem scanDeferred_spec (hd : c.deferred.Sound c.msgs) (hq : PutSucceeds c.backend) (t : ℤ)
    (dirty : Bool) : ∃ due, DeferredScan c t due (c.scanDeferred t dirty).2 ∧
      ((c.scanDeferred t dirty).1 = true ↔ dirty = true ∨ due ≠ []) := by
  fun_induction Channel.scanDeferred c t dirty with
  | case1 c dirty h =>
      exact ⟨[], DeferredScan.nil hd (Deferred.shiftDeferred_none_priority hd h), by simp⟩
  | case2 c dirty i d h err hp =>
      obtain ⟨d', hok, -⟩ := Deferred.shiftDeferred_took hd h
      rw [hok] at hp
      cases hp
  | case3 c dirty i d h j d' hp ih =>
      obtain ⟨d'', hok, ht, hdue⟩ := Deferred.shiftDeferred_took hd h
      rw [hok] at hp
      cases hp
      have hback := put_putBack (c := { c with deferred := d' }) hq (d'.items.obj i).value
      obtain ⟨due, hscan, hflag⟩ := ih
        (by rw [put_deferred, msgs, put_inFlight]; exact ht.sound)
        (by rw [hback.backend]; exact PutSucceeds.stored hq _)
      refine ⟨i :: due, hscan.cons hd hq ht hdue (Deferred.shiftDeferred_least hd h), ?_⟩
      rw [hflag]
      simp

/-- **A timeout scan requeues exactly what is due.** -/
theorem scans_requeue_due (hc : c.exiting = false) (hs : c.inFlight.Sound)
    (hd : c.deferred.Sound c.msgs) (hq : PutSucceeds c.backend) (t : ℤ) :
    (∃ due, InFlightScan c t due (c.processInFlightQueue t).2 ∧
      ((c.processInFlightQueue t).1 = true ↔ due ≠ [])) ∧
    ∃ due, DeferredScan c t due (c.processDeferredQueue t).2 ∧
      ((c.processDeferredQueue t).1 = true ↔ due ≠ []) := by
  constructor
  · obtain ⟨due, hscan, hflag⟩ := scanInFlight_spec hs hq t false
    rw [processInFlightQueue, if_neg (by simp [hc])]
    exact ⟨due, hscan, by simpa using hflag⟩
  · obtain ⟨due, hscan, hflag⟩ := scanDeferred_spec hd hq t false
    rw [processDeferredQueue, if_neg (by simp [hc])]
    exact ⟨due, hscan, by simpa using hflag⟩

/-- A channel with one slot in memory: two messages in flight, the first due at 5 and the second at
6, and one deferred until 4. -/
def twoInFlight : Channel :=
  let c := newChannel ⟨1, 100⟩ (newBackend false fun _ => none)
    ((∅ : GoMap String Client).insert "a" ⟨0⟩)
  let c := ((c.alloc (newMessage (Vector.replicate 16 1) [7] 0)).putMessage c.nextMsg).2
  let c := ((c.alloc (newMessage (Vector.replicate 16 2) [8] 0)).putMessage c.nextMsg).2
  let c := (c.deliverMemory "a" 5 0).deliverBackend "a" 5 1
  (c.alloc (newMessage (Vector.replicate 16 3) [9] 0)).putMessageDeferred c.nextMsg 4 0

theorem twoInFlight_sound : Sound twoInFlight := by
  have h₀ := newChannel_sound ⟨1, 100⟩ false (fun _ => none)
    ((∅ : GoMap String Client).insert "a" ⟨0⟩)
  have h₁ := (h₀.putMessage (newMessage (Vector.replicate 16 1) [7] 0)).1
  have h₂ := (h₁.putMessage (newMessage (Vector.replicate 16 2) [8] 0)).1
  have h₃ := ((h₂.deliverMemory "a" 5 0).1.deliverBackend "a" 5 1).1
  exact (h₃.putMessageDeferred (newMessage (Vector.replicate 16 3) [9] 0) 4 0).1

/-- At 6 both are due: one goes to memory and one to the backend. -/
theorem scans_requeue_due_twoInFlight :
    twoInFlight.dueInFlight 6 = 2 ∧ twoInFlight.room = 1 ∧
    ((∃ due, InFlightScan twoInFlight 6 due (twoInFlight.processInFlightQueue 6).2 ∧
        ((twoInFlight.processInFlightQueue 6).1 = true ↔ due ≠ [])) ∧
      ∃ due, DeferredScan twoInFlight 6 due (twoInFlight.processDeferredQueue 6).2 ∧
        ((twoInFlight.processDeferredQueue 6).1 = true ↔ due ≠ [])) :=
  ⟨by decide +kernel, by decide +kernel,
    scans_requeue_due (by decide +kernel) twoInFlight_sound.inFlight twoInFlight_sound.deferred
      (.inr fun _ => rfl) 6⟩

end Channel

end Xmq
