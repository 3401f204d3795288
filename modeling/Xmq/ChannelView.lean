import Xmq.ChannelScans

/-!
# What a channel has available

The IDs that clients can get (in memory or in the backend), those in flight, and those that wait in
the deferred heap with their deadlines. Each operation has one lemma about this view of the channel;
what an operation may do at all is `Moves`.
-/

namespace Xmq

open IndexedHeap

namespace Channel

/-! ### The view -/

structure View where
  available : Multiset MessageID
  flying : Multiset MessageID
  waiting : Multiset (MessageID × ℤ)

/-- The ID and the deadline of a deferred item. -/
def waitingAt (c : Channel) (i : ItemPtr) : MessageID × ℤ :=
  (c.deferred.idOf c.msgs i, (c.deferred.items.obj i).priority)

def view (c : Channel) : View where
  available := (c.memoryMsgChan.map c.idAt : Multiset MessageID) +
    (idsOf c.backend.records : Multiset MessageID)
  flying := (c.inFlight.inFlightPQ.slots.map c.idAt : Multiset MessageID)
  waiting := (c.deferred.deferredPQ.slots.map c.waitingAt : Multiset (MessageID × ℤ))

namespace View

def addAvailable (v : View) (id : MessageID) : View := { v with available := id ::ₘ v.available }

def addFlying (v : View) (id : MessageID) : View := { v with flying := id ::ₘ v.flying }

def addWaiting (v : View) (x : MessageID × ℤ) : View := { v with waiting := x ::ₘ v.waiting }

theorem mem_addAvailable {v : View} {id x : MessageID} :
    x ∈ (v.addAvailable id).available ↔ x = id ∨ x ∈ v.available := Multiset.mem_cons

theorem mem_addWaiting {v : View} {x y : MessageID × ℤ} :
    y ∈ (v.addWaiting x).waiting ↔ y = x ∨ y ∈ v.waiting := Multiset.mem_cons

/-- The message is available or in flight, or waits and is due. -/
def Reached (due : ℤ → Prop) (v : View) (id : MessageID) : Prop :=
  id ∈ v.available ∨ id ∈ v.flying ∨ ∃ pri, due pri ∧ (id, pri) ∈ v.waiting

/-- The message is somewhere in the channel. -/
def Holds (v : View) (id : MessageID) : Prop :=
  id ∈ v.available ∨ id ∈ v.flying ∨ ∃ pri, (id, pri) ∈ v.waiting

/-- What an operation may do: it moves messages that it reaches, and the others go on waiting. -/
structure Moves (due : ℤ → Prop) (v v' : View) : Prop where
  available : ∀ id ∈ v'.available, Reached due v id
  flying : ∀ id ∈ v'.flying, Reached due v id
  waiting : ∀ x ∈ v'.waiting, x ∈ v.waiting ∨ Reached due v x.1
  kept : ∀ x ∈ v.waiting, ¬ due x.2 → x ∈ v'.waiting

variable {v v' v'' w : View} {due : ℤ → Prop} {id : MessageID}

theorem Moves.refl (due : ℤ → Prop) (v : View) : Moves due v v where
  available _ h := .inl h
  flying _ h := .inr (.inl h)
  waiting _ h := .inl h
  kept _ h _ := h

theorem Moves.reached (h : Moves due v v') (hid : Reached due v' id) : Reached due v id := by
  rcases hid with hid | hid | ⟨pri, hdue, hid⟩
  · exact h.available id hid
  · exact h.flying id hid
  · rcases h.waiting _ hid with hid | hid
    · exact .inr (.inr ⟨pri, hdue, hid⟩)
    · exact hid

theorem Reached.holds (h : Reached due v id) : v.Holds id :=
  h.imp_right fun h => h.imp_right fun ⟨pri, _, hid⟩ => ⟨pri, hid⟩

/-- No operation brings a message in. -/
theorem Moves.holds (h : Moves due v v') (hid : v'.Holds id) : v.Holds id := by
  rcases hid with hid | hid | ⟨pri, hid⟩
  · exact (h.available id hid).holds
  · exact (h.flying id hid).holds
  · rcases h.waiting _ hid with hid | hid
    · exact .inr (.inr ⟨pri, hid⟩)
    · exact hid.holds

theorem Moves.trans (h : Moves due v v') (h' : Moves due v' v'') : Moves due v v'' where
  available id hid := h.reached (h'.available id hid)
  flying id hid := h.reached (h'.flying id hid)
  waiting x hx := by
    rcases h'.waiting x hx with hx | hx
    · exact h.waiting x hx
    · exact .inr (h.reached hx)
  kept x hx hdue := h'.kept x (h.kept x hx hdue) hdue

/-- A message that was reached is in hand: it goes anywhere, or nowhere. -/
theorem Moves.of_hand (hid : Reached due v id) (hle : w.available ≤ v.available)
    (hflying : w.flying ≤ v.flying) (hwaiting : w.waiting ≤ v.waiting)
    (hkept : ∀ x ∈ v.waiting, ¬ due x.2 → x ∈ w.waiting) {d : ℤ}
    (h : v' = w ∨ v' = w.addAvailable id ∨ v' = w.addFlying id ∨ v' = w.addWaiting (id, d)) :
    Moves due v v' := by
  have hw : Moves due v w :=
    ⟨fun _ h => .inl (Multiset.mem_of_le hle h),
      fun _ h => .inr (.inl (Multiset.mem_of_le hflying h)),
      fun _ h => .inl (Multiset.mem_of_le hwaiting h), hkept⟩
  rcases h with rfl | rfl | rfl | rfl
  · exact hw
  · refine ⟨fun x hx => ?_, hw.flying, hw.waiting, hw.kept⟩
    rcases Multiset.mem_cons.mp hx with rfl | hx
    · exact hid
    · exact hw.available x hx
  · refine ⟨hw.available, fun x hx => ?_, hw.waiting, hw.kept⟩
    rcases Multiset.mem_cons.mp hx with rfl | hx
    · exact hid
    · exact hw.flying x hx
  · refine ⟨hw.available, hw.flying, fun x hx => ?_, fun x hx hdue => ?_⟩
    · rcases Multiset.mem_cons.mp hx with rfl | hx
      · exact .inr hid
      · exact hw.waiting x hx
    · exact Multiset.mem_cons_of_mem (hw.kept x hx hdue)

/-- A message that was available. -/
theorem Moves.of_available (hv : v = w.addAvailable id) {d : ℤ}
    (h : v' = w ∨ v' = w.addAvailable id ∨ v' = w.addFlying id ∨ v' = w.addWaiting (id, d)) :
    Moves due v v' := by
  subst hv
  exact Moves.of_hand (w := w) (.inl (Multiset.mem_cons_self _ _))
    (Multiset.le_cons_self _ _) le_rfl
    le_rfl (fun _ hx _ => hx) h

/-- A message that was in flight. -/
theorem Moves.of_flying (hv : v = w.addFlying id) {d : ℤ}
    (h : v' = w ∨ v' = w.addAvailable id ∨ v' = w.addFlying id ∨ v' = w.addWaiting (id, d)) :
    Moves due v v' := by
  subst hv
  exact Moves.of_hand (w := w) (.inr (.inl (Multiset.mem_cons_self _ _))) le_rfl
    (Multiset.le_cons_self _ _) le_rfl (fun _ hx _ => hx) h

/-- A message that waited and is due. -/
theorem Moves.of_waiting {x : MessageID × ℤ} (hdue : due x.2) (hv : v = w.addWaiting x)
    (h : v' = w ∨ v' = w.addAvailable x.1) : Moves due v v' := by
  subst hv
  refine Moves.of_hand (w := w) (d := 0)
    (.inr (.inr ⟨x.2, hdue, Multiset.mem_cons_self _ _⟩)) le_rfl
    le_rfl (Multiset.le_cons_self _ _) (fun y hy hnot => ?_) (h.imp_right .inl)
  rcases Multiset.mem_cons.mp hy with rfl | hy
  · exact absurd hdue hnot
  · exact hy

end View

variable {c : Channel} {p : MsgPtr}

/-! ### Moves of one message -/

theorem view_congr {c' : Channel} (hid : ∀ q ∈ c.pointers, c'.idAt q = c.idAt q)
    (hmemory : c'.memoryMsgChan = c.memoryMsgChan)
    (hslots : c'.inFlight.inFlightPQ.slots = c.inFlight.inFlightPQ.slots)
    (hdeferred : c'.deferred = c.deferred) (hrecords : c'.backend.records = c.backend.records) :
    c'.view = c.view := by
  have h₁ : c'.memoryMsgChan.map c'.idAt = c.memoryMsgChan.map c.idAt := by
    rw [hmemory]
    exact List.map_congr_left fun q hq => hid q (mem_pointers.mpr (.inl hq))
  have h₂ : c'.inFlight.inFlightPQ.slots.map c'.idAt = c.inFlight.inFlightPQ.slots.map c.idAt := by
    rw [hslots]
    exact List.map_congr_left fun q hq => hid q (mem_pointers.mpr (.inr (.inl hq)))
  have h₃ : c'.deferred.deferredPQ.slots.map c'.waitingAt =
      c.deferred.deferredPQ.slots.map c.waitingAt := by
    rw [hdeferred]
    refine List.map_congr_left fun i hi => ?_
    have hvalue : (c.deferred.items.obj i).value ∈ c.deferred.values :=
      List.mem_map_of_mem (f := fun i => (c.deferred.items.obj i).value) hi
    have hq := hid _ (mem_pointers.mpr (.inr (.inr hvalue)))
    simp only [waitingAt, Deferred.idOf, hdeferred]
    exact Prod.ext hq rfl
  rw [view, view, h₁, h₂, h₃, hrecords]

theorem SameMessages.view {c' : Channel} (h : SameMessages c c') : c'.view = c.view := by
  refine view_congr (fun q _ => ?_) h.memory (by rw [h.inFlight]) h.deferred (by rw [h.backend])
  rw [idAt, idAt, msgs, msgs, h.inFlight]

theorem Loose.view_write (_h : Loose c p) {m : Message} (hm : m.id = c.idAt p) :
    view { c with inFlight := c.inFlight.write p m } = c.view := by
  refine view_congr (fun q _ => ?_) rfl rfl rfl rfl
  show ((c.inFlight.msgs.set p m).obj q).id = _
  by_cases hq : q = p
  · rw [hq, Msgs.set_self, hm]
  · rw [Msgs.set_ne _ _ hq]
    rfl

theorem Sound.view_alloc (h : Sound c) (m : Message) : (c.alloc m).view = c.view := by
  refine view_congr (fun q hq => ?_) rfl rfl rfl rfl
  have hne : q ≠ c.nextMsg := by
    intro e
    exact Nat.lt_irrefl _ (e ▸ h.fresh q hq)
  show ((c.inFlight.msgs.set c.nextMsg m).obj q).id = _
  rw [Msgs.set_ne _ _ hne]
  rfl

/-- Where the message objects keep their IDs, only the slots of the in-flight heap matter. -/
theorem view_inFlight {s : InFlight} (h : Reindexed c.inFlight.msgs s.msgs) :
    view { c with inFlight := s } =
      { c.view with flying := (s.inFlightPQ.slots.map c.idAt : Multiset MessageID) } := by
  have hid : idAt { c with inFlight := s } = c.idAt := by
    funext q
    exact Msgs.id_eq h q
  have hwaiting : waitingAt { c with inFlight := s } = c.waitingAt := by
    funext i
    exact Prod.ext (Msgs.id_eq h _) rfl
  rw [view, view, hid, hwaiting]

theorem view_took {s : InFlight} (ht : c.inFlight.Took p s) :
    c.view = (view { c with inFlight := s }).addFlying (c.idAt p) := by
  rw [view_inFlight ht.msgs]
  have hslots := Multiset.coe_eq_coe.mpr (ht.slots.map c.idAt)
  simp only [view, View.addFlying, hslots, List.map_cons, Multiset.cons_coe]

theorem view_placed {s : InFlight} (hp : c.inFlight.Placed p s) :
    view { c with inFlight := s } = c.view.addFlying (c.idAt p) := by
  rw [view_inFlight hp.msgs]
  have hslots := Multiset.coe_eq_coe.mpr (hp.slots.map c.idAt)
  simp only [view, View.addFlying, hslots, List.map_cons, Multiset.cons_coe]

theorem view_deferred {d : Deferred} (h : Reindexed c.deferred.items d.items) :
    view { c with deferred := d } =
      { c.view with
        waiting := (d.deferredPQ.slots.map c.waitingAt : Multiset (MessageID × ℤ)) } := by
  have hid : idAt { c with deferred := d } = c.idAt := rfl
  have hwaiting : waitingAt { c with deferred := d } = c.waitingAt := by
    funext i
    exact Prod.ext (Deferred.idOf_eq h i) (Items.field_eq Item.priority (fun _ _ => rfl) h i)
  rw [view, view, hid, hwaiting]

theorem view_tookDeferred {d : Deferred} {i : ItemPtr} (ht : c.deferred.Took c.msgs i d) :
    c.view = (view { c with deferred := d }).addWaiting (c.waitingAt i) := by
  rw [view_deferred ht.items]
  have hslots := Multiset.coe_eq_coe.mpr (ht.slots.map c.waitingAt)
  simp only [view, View.addWaiting, hslots, List.map_cons, Multiset.cons_coe]

theorem view_placedDeferred {d : Deferred} {i : ItemPtr} (hp : c.deferred.Placed c.msgs i d) :
    view { c with deferred := d } = c.view.addWaiting (c.waitingAt i) := by
  rw [view_deferred hp.items]
  have hslots := Multiset.coe_eq_coe.mpr (hp.slots.map c.waitingAt)
  simp only [view, View.addWaiting, hslots, List.map_cons, Multiset.cons_coe]

theorem view_dequeued {rest : List MsgPtr} (hm : c.memoryMsgChan = p :: rest) :
    c.view = (view { c with memoryMsgChan := rest }).addAvailable (c.idAt p) := by
  simp only [view, View.addAvailable, hm, List.map_cons, ← Multiset.cons_coe, Multiset.cons_add]
  rfl

theorem view_dequeuedBackend {m : Message} {rest : List (List UInt8)}
    (hr : c.backend.records = m.writeTo :: rest) :
    c.view =
      (view { c with backend := { c.backend with records := rest } }).addAvailable m.id := by
  have hids : idsOf c.backend.records = m.id :: idsOf rest := by
    rw [hr, ← List.singleton_append, idsOf_append, idsOf_writeTo]
    rfl
  simp only [view, View.addAvailable, hids, ← Multiset.cons_coe, Multiset.add_cons]
  rfl

/-! ### The put -/

/-- The next `n` messages find room in memory, or a backend that stores them. -/
def Stores (c : Channel) (n : ℕ) : Prop :=
  c.PutsOk n ∧ (c.backend.dummy = true → n ≤ c.opts.memQueueSize - c.memoryMsgChan.length)

instance (c : Channel) (n : ℕ) : Decidable (c.Stores n) := inferInstanceAs (Decidable (_ ∧ _))

theorem stores_of_goodDisk {c : Channel} (hdummy : c.backend.dummy = false)
    (hgood : ∀ k, c.backend.outcome k = none) (n : ℕ) : c.Stores n := by
  refine ⟨.inr fun k _ => hgood _, fun h => ?_⟩
  rw [hdummy] at h
  cases h

/-- A message in hand that is put is available, or it is gone. -/
theorem view_put (c : Channel) (p : MsgPtr) :
    c.Stores 1 ∧ (c.put p).2.view = c.view.addAvailable (c.idAt p) ∨
      ¬ c.Stores 1 ∧ (c.put p).2.view = c.view := by
  rcases put_cases c p with ⟨hlt, hput⟩ | ⟨hge, hput⟩
  · refine .inl ⟨⟨?_, fun _ => by omega⟩, ?_⟩
    · rw [← put_eq_none_iff (p := p), hput]
    · rw [hput]
      simp only [view, View.addAvailable, List.map_append, List.map_cons, List.map_nil,
        ← Multiset.coe_add, Multiset.coe_singleton]
      rw [add_comm (_ : Multiset MessageID) {_}, add_assoc, Multiset.singleton_add]
      rfl
  · have hone := put_eq_none_iff (c := c) (p := p)
    rcases backend_put_cases c.backend (c.msgs.obj p).writeTo with
      ⟨hd, hb⟩ | ⟨hd, _, hb⟩ | ⟨hd, err, _, hb⟩
    · refine .inr ⟨?_, ?_⟩
      · rintro ⟨-, hroom⟩
        have := hroom hd
        omega
      · rw [hput, hb]
        rfl
    · rw [hput, hb] at hone
      refine .inl ⟨⟨hone.mp rfl, fun hd' => by rw [hd] at hd'; cases hd'⟩, ?_⟩
      rw [hput, hb]
      simp only [view, View.addAvailable, idsOf_append, idsOf_writeTo, ← Multiset.coe_add,
        Multiset.coe_singleton]
      rw [add_comm ((idsOf c.backend.records : List MessageID) : Multiset MessageID) {_},
        ← add_assoc, add_comm _ ({_} : Multiset MessageID), add_assoc, Multiset.singleton_add]
      rfl
    · rw [hput, hb] at hone
      refine .inr ⟨fun hs => Option.some_ne_none err (hone.mpr hs.1), ?_⟩
      rw [hput, hb]
      rfl

theorem Stores.succ {n : ℕ} (h : c.Stores (n + 1)) (p : MsgPtr) :
    c.Stores 1 ∧ (c.put p).2.Stores n := by
  obtain ⟨hok, hdummy⟩ := h
  obtain ⟨hone, hrest⟩ := (putsOk_succ c p n).mp hok
  refine ⟨⟨hone, fun hd => ?_⟩, hrest, ?_⟩
  · have := hdummy hd
    omega
  · rcases put_cases c p with ⟨hlt, hput⟩ | ⟨hge, hput⟩
    · rw [hput]
      intro hd
      have := hdummy hd
      simp only [List.length_append, List.length_singleton]
      omega
    · rw [hput]
      intro hd
      have hd' : c.backend.dummy = true := by
        rcases backend_put_cases c.backend (c.msgs.obj p).writeTo with
          ⟨hd', hb⟩ | ⟨_, _, hb⟩ | ⟨_, err, _, hb⟩
        · exact hd'
        · rw [hb] at hd
          exact hd
        · rw [hb] at hd
          exact hd
      have := hdummy hd'
      omega

/-! ### Into the tracked parts -/

theorem Loose.view_placeInFlight (h : Loose c p) :
    view { c with inFlight := (c.inFlight.placeInFlight p).2 } = c.view ∨
      view { c with inFlight := (c.inFlight.placeInFlight p).2 } = c.view.addFlying (c.idAt p) := by
  cases hl : c.inFlight.inFlightMessages.lookup (c.inFlight.msgs.obj p).id with
  | none =>
      obtain ⟨s', hs', hp⟩ := InFlight.placeInFlight_new h.inFlight h.notMem_inFlight hl
      rw [hs']
      exact .inr (view_placed hp)
  | some q =>
      rw [InFlight.placeInFlight_dup hl]
      exact .inl rfl

/-- A message in hand that is written to, and then put in flight. -/
theorem Loose.view_writePlace (h : Loose c p) {m : Message} (hm : m.id = c.idAt p) :
    view { c with inFlight := ((c.inFlight.write p m).placeInFlight p).2 } = c.view ∨
      view { c with inFlight := ((c.inFlight.write p m).placeInFlight p).2 } =
        c.view.addFlying (c.idAt p) := by
  have hl := (h.write hm).1
  have hid : idAt { c with inFlight := c.inFlight.write p m } p = c.idAt p := by
    show ((c.inFlight.msgs.set p m).obj p).id = _
    rw [Msgs.set_self, hm]
  have hplace := hl.view_placeInFlight
  rw [hid, h.view_write hm] at hplace
  exact hplace

/-- A message in hand that is deferred waits, unless one with its ID does. -/
theorem Loose.view_startDeferred (h : Loose c p) (timeout now : ℤ) :
    (c.startDeferredTimeout p timeout now).2.view = c.view.addWaiting (c.idAt p, now + timeout) ∨
      (∃ pri, (c.idAt p, pri) ∈ c.view.waiting) ∧
        (c.startDeferredTimeout p timeout now).2.view = c.view := by
  obtain ⟨d, hd⟩ : ∃ d : Deferred, d = { c.deferred with
    items := c.deferred.items.set c.nextItem
      { value := p, priority := now + timeout, index := 0 } } := ⟨_, rfl⟩
  have hnew : c.nextItem ∉ c.deferred.deferredPQ.slots :=
    fun hm => Nat.lt_irrefl _ (h.freshItems _ hm)
  have hslots : d.deferredPQ.slots = c.deferred.deferredPQ.slots := by rw [hd]
  have hitem : d.items.obj c.nextItem = { value := p, priority := now + timeout, index := 0 } := by
    rw [hd, Items.set_self]
  have hsound : d.Sound c.msgs := by
    rw [hd]
    exact h.deferred.write hnew _
  have hview : view { c with deferred := d, nextItem := c.nextItem + 1 } = c.view := by
    have hmap : d.deferredPQ.slots.map
        (waitingAt { c with deferred := d, nextItem := c.nextItem + 1 }) =
        c.deferred.deferredPQ.slots.map c.waitingAt := by
      rw [hslots]
      refine List.map_congr_left fun i hi => ?_
      have hne : i ≠ c.nextItem := fun e => hnew (e ▸ hi)
      have hobj : d.items.obj i = c.deferred.items.obj i := by
        rw [hd]
        exact Items.set_ne _ _ hne
      simp only [waitingAt, Deferred.idOf, hobj]
      rfl
    simp only [view, hmap]
    rfl
  have heq : c.startDeferredTimeout p timeout now = ((d.placeDeferred c.msgs c.nextItem).1,
      { c with deferred := (d.placeDeferred c.msgs c.nextItem).2, nextItem := c.nextItem + 1 }) := by
    rw [Channel.startDeferredTimeout, ← hd]
  rw [heq]
  have hid : d.idOf c.msgs c.nextItem = c.idAt p := by
    rw [Deferred.idOf, hitem]
    rfl
  cases hl : d.deferredMessages.lookup (d.idOf c.msgs c.nextItem) with
  | none =>
      obtain ⟨d', hd', hp⟩ := Deferred.placeDeferred_new hsound (hslots ▸ hnew) hl
      rw [hd']
      have hplaced :=
        view_placedDeferred (c := { c with deferred := d, nextItem := c.nextItem + 1 })
        (d := d') hp
      rw [hview] at hplaced
      have hat : waitingAt { c with deferred := d, nextItem := c.nextItem + 1 } c.nextItem =
          (c.idAt p, now + timeout) := by
        refine Prod.ext hid ?_
        show (d.items.obj c.nextItem).priority = _
        rw [hitem]
      rw [hat] at hplaced
      exact .inl hplaced
  | some j =>
      rw [Deferred.placeDeferred_dup hl]
      refine .inr ⟨⟨(c.deferred.items.obj j).priority, ?_⟩, hview⟩
      have hmem : j ∈ c.deferred.deferredPQ.slots := hslots ▸ hsound.mem_of_lookup hl
      have hj : c.deferred.idOf c.msgs j = c.idAt p := by
        have hne : j ≠ c.nextItem := fun e => hnew (e ▸ hmem)
        have hkey := hsound.keys _ _ hl
        rw [hid] at hkey
        rw [← hkey, hd]
        simp only [Deferred.idOf, Items.set_ne _ _ hne]
      simp only [view, Multiset.mem_coe, List.mem_map]
      exact ⟨j, hmem, Prod.ext hj rfl⟩

/-! ### The operations -/

/-- The deferred messages that an operation looks for. -/
def Op.due : Op → ℤ → Prop
  | .processDeferredQueue t, pri => pri ≤ t
  | .putMessage _, _ | .putMessageDeferred _ _ _, _ | .deliverMemory _ _ _, _
  | .deliverBackend _ _ _, _ | .touchMessage _ _ _ _, _ | .finishMessage _ _, _
  | .requeueMessage _ _ _ _, _ | .processInFlightQueue _, _ | .empty, _ => False

section Operations

variable {due : ℤ → Prop} {clientID : String} {id : MessageID} {timeout now : ℤ}

/-- Taking a message out of the in-flight part. -/
theorem Sound.takeInFlight_took (h : Sound c) (clientID : String) (id : MessageID) :
    (∃ err, c.inFlight.takeInFlight clientID id = some (.error err)) ∨
      ∃ p s, c.inFlight.takeInFlight clientID id = some (.ok (p, s)) ∧
        Loose { c with inFlight := s } p ∧
          c.view = (view { c with inFlight := s }).addFlying (idAt { c with inFlight := s } p) := by
  by_cases ho : c.inFlight.Owned clientID id
  · obtain ⟨p, hl, hc⟩ := ho
    obtain ⟨s, hs, ht⟩ := InFlight.takeInFlight_owned h.inFlight hl hc
    have hid : idAt { c with inFlight := s } p = c.idAt p := Msgs.id_eq ht.msgs p
    exact .inr ⟨p, s, hs, (h.took ht).1, hid ▸ view_took ht⟩
  · exact .inl (InFlight.takeInFlight_not_owned ho)

theorem Sound.finishMessage_moves (h : Sound c) {r : GoError × Channel}
    (hr : c.finishMessage clientID id = some r) : View.Moves due c.view r.2.view := by
  rcases h.takeInFlight_took clientID id with ⟨err, herr⟩ | ⟨p, s, hs, _, hview⟩
  · rw [finishMessage_error herr] at hr
    cases hr
    exact View.Moves.refl _ _
  · rw [finishMessage_ok hs] at hr
    cases hr
    exact View.Moves.of_flying (d := 0) hview (.inl rfl)

theorem Sound.touchMessage_moves (h : Sound c) {r : GoError × Channel}
    (hr : c.touchMessage clientID id timeout now = some r) : View.Moves due c.view r.2.view := by
  rcases h.takeInFlight_took clientID id with ⟨err, herr⟩ | ⟨p, s, hs, hl, hview⟩
  · rw [touchMessage_error herr] at hr
    cases hr
    exact View.Moves.refl _ _
  · rw [touchMessage_ok hs] at hr
    cases hr
    have hid : (c.touched s p timeout now).id = idAt { c with inFlight := s } p := rfl
    refine View.Moves.of_flying (d := 0) hview ?_
    exact (hl.view_writePlace hid).imp_right fun h => .inr (.inl h)

theorem Sound.requeueMessage_moves (h : Sound c) {r : GoError × Channel}
    (hr : c.requeueMessage clientID id timeout now = some r) : View.Moves due c.view r.2.view := by
  rcases h.takeInFlight_took clientID id with ⟨err, herr⟩ | ⟨p, s, hs, hl, hview⟩
  · rw [requeueMessage_error herr] at hr
    cases hr
    exact View.Moves.refl _ _
  · rw [requeueMessage_ok hs] at hr
    cases hr
    have hsame := requeued_same c s
    have hid : (c.requeued s).idAt p = idAt { c with inFlight := s } p := rfl
    refine View.Moves.of_flying (d := now + timeout) hview ?_
    rw [← hsame.view, ← hid]
    split
    · split
      · exact .inl rfl
      · rcases view_put (c.requeued s) p with ⟨-, hput⟩ | ⟨-, hput⟩
        · exact .inr (.inl hput)
        · exact .inl hput
    · rcases (hsame.loose hl).view_startDeferred timeout now with hput | ⟨-, hput⟩
      · exact .inr (.inr (.inr hput))
      · exact .inl hput

variable (clientID timeout now) in
theorem Loose.deliver_view (h : Loose c p) :
    (c.deliver p clientID timeout now).view = c.view ∨
      (c.deliver p clientID timeout now).view = c.view.addFlying (c.idAt p) := by
  obtain ⟨m, hm⟩ : ∃ m : Message, m = { c.msgs.obj p with
    attempts := (c.msgs.obj p).attempts + 1 } := ⟨_, rfl⟩
  have hmid : m.id = c.idAt p := by
    rw [hm]
    rfl
  obtain ⟨c₁, hc₁⟩ : ∃ c₁ : Channel, c₁ = { c with inFlight := c.inFlight.write p m } := ⟨_, rfl⟩
  have hl : Loose c₁ p := hc₁ ▸ (h.write hmid).1
  have hview : c₁.view = c.view := hc₁ ▸ h.view_write hmid
  have hid : c₁.idAt p = c.idAt p := by
    rw [hc₁]
    show ((c.inFlight.msgs.set p m).obj p).id = _
    rw [Msgs.set_self, hmid]
  rw [Channel.deliver, ← hm, ← hc₁, (updateClient_same _ _ _).view, Channel.startInFlightTimeout,
    ← hview, ← hid]
  exact hl.view_writePlace rfl

theorem Sound.deliverMemory_moves (h : Sound c) :
    View.Moves due c.view (c.deliverMemory clientID timeout now).view := by
  unfold Channel.deliverMemory
  split
  · rename_i p rest hm
    refine View.Moves.of_available (d := 0) (view_dequeued hm) ?_
    exact ((h.dequeued hm).1.deliver_view clientID timeout now).imp_right fun h => .inr (.inl h)
  · exact View.Moves.refl _ _

theorem Sound.deliverBackend_moves (h : Sound c) :
    View.Moves due c.view (c.deliverBackend clientID timeout now).view := by
  unfold Channel.deliverBackend
  cases hr : c.backend.records with
  | nil =>
      rw [BackendQueue.read, hr]
      exact View.Moves.refl _ _
  | cons b rest =>
      obtain ⟨m, rfl⟩ := h.stored b (hr ▸ List.mem_cons_self)
      rw [BackendQueue.read, hr]
      simp only [decodeMessage_writeTo]
      have hsound := (h.dequeuedBackend hr).1
      obtain ⟨hl, -, hid⟩ := hsound.alloc m.stored
      refine View.Moves.of_available (d := 0) (view_dequeuedBackend hr) ?_
      rw [← hsound.view_alloc m.stored]
      have hdeliver := hl.deliver_view clientID timeout now
      rw [hid] at hdeliver
      exact hdeliver.imp_right fun h => .inr (.inl h)

theorem Sound.scanInFlight_moves (h : Sound c) (t : ℤ) (dirty : Bool) :
    View.Moves due c.view (c.scanInFlight t dirty).2.view := by
  fun_induction Channel.scanInFlight c t dirty with
  | case1 c dirty hs => exact View.Moves.refl _ _
  | case2 c dirty p s hs err hp =>
      obtain ⟨s', hok, _⟩ := InFlight.shiftInFlight_took h.inFlight hs
      rw [hok] at hp
      cases hp
  | case3 c dirty p s hs q s' hp ih =>
      obtain ⟨s'', hok, ht, hdue⟩ := InFlight.shiftInFlight_took h.inFlight hs
      rw [hok] at hp
      cases hp
      refine View.Moves.trans ?_ (ih (h.timedOut ht).sound)
      refine View.Moves.of_flying (d := 0) (view_took ht) ?_
      obtain ⟨c₁, hc₁⟩ : ∃ c₁ : Channel, c₁ = updateClient
        { c with inFlight := s', timeoutCount := c.timeoutCount + 1 } (s'.msgs.obj p).clientID
          fun client => { client with inFlightCount := client.inFlightCount - 1 } := ⟨_, rfl⟩
      have hsame : SameMessages { c with inFlight := s', timeoutCount := c.timeoutCount + 1 }
        c₁ := by
        rw [hc₁]
        exact updateClient_same _ _ _
      have hview : c₁.view = view { c with inFlight := s' } := hsame.view
      have hid : c₁.idAt p = c.idAt p := by
        rw [idAt, msgs, hsame.inFlight]
        exact Msgs.id_eq ht.msgs p
      rw [Channel.timedOut, ← hc₁, ← hview, ← hid]
      rcases view_put c₁ p with ⟨-, hput⟩ | ⟨-, hput⟩
      · exact .inr (.inl hput)
      · exact .inl hput

/-- One round of the deferred scan. -/
theorem Sound.reputDeferred_moves {d : Deferred} {i : ItemPtr}
    (ht : c.deferred.Took c.msgs i d) (hdue : due (c.deferred.items.obj i).priority) :
    View.Moves due c.view (Channel.put { c with deferred := d } (d.items.obj i).value).2.view := by
  refine View.Moves.of_waiting (x := c.waitingAt i) hdue (view_tookDeferred ht) ?_
  have hid : idAt { c with deferred := d } (d.items.obj i).value = (c.waitingAt i).1 :=
    Deferred.idOf_eq ht.items i
  rw [← hid]
  rcases view_put { c with deferred := d } (d.items.obj i).value with ⟨-, hput⟩ | ⟨-, hput⟩
  · exact .inr hput
  · exact .inl hput

theorem Sound.scanDeferred_moves (h : Sound c) (t : ℤ) (dirty : Bool) :
    View.Moves (· ≤ t) c.view (c.scanDeferred t dirty).2.view := by
  fun_induction Channel.scanDeferred c t dirty with
  | case1 c dirty hs => exact View.Moves.refl _ _
  | case2 c dirty i d hs err hp =>
      obtain ⟨d', hok, _⟩ := Deferred.shiftDeferred_took h.deferred hs
      rw [hok] at hp
      cases hp
  | case3 c dirty i d hs j d' hp ih =>
      obtain ⟨d'', hok, ht, hdue⟩ := Deferred.shiftDeferred_took h.deferred hs
      rw [hok] at hp
      cases hp
      exact (Sound.reputDeferred_moves ht hdue).trans (ih (h.reputDeferred ht).sound)

/-- The operations of a channel that is there; what comes from the topic, and `Empty`, are not among
them. -/
def Op.inside : Op → Bool
  | .putMessage _ | .putMessageDeferred _ _ _ | .empty => false
  | .deliverMemory _ _ _ | .deliverBackend _ _ _ | .touchMessage _ _ _ _ | .finishMessage _ _
  | .requeueMessage _ _ _ _ | .processInFlightQueue _ | .processDeferredQueue _ => true

/-- **What an operation moves.** -/
theorem Sound.step_moves (h : Sound c) {op : Op} (hop : op.inside = true) {r : GoError × Channel}
    (hr : c.step op = some r) : View.Moves op.due c.view r.2.view := by
  cases op with
  | putMessage m => cases hop
  | putMessageDeferred m timeout now => cases hop
  | empty => cases hop
  | deliverMemory clientID timeout now =>
      cases hr
      exact h.deliverMemory_moves
  | deliverBackend clientID timeout now =>
      cases hr
      exact h.deliverBackend_moves
  | touchMessage clientID id clientMsgTimeout now => exact h.touchMessage_moves hr
  | finishMessage clientID id => exact h.finishMessage_moves hr
  | requeueMessage clientID id timeout now => exact h.requeueMessage_moves hr
  | processInFlightQueue t =>
      cases hr
      unfold Channel.processInFlightQueue
      split
      · exact View.Moves.refl _ _
      · exact h.scanInFlight_moves t false
  | processDeferredQueue t =>
      cases hr
      unfold Channel.processDeferredQueue
      split
      · exact View.Moves.refl _ _
      · exact h.scanDeferred_moves t false

end Operations

/-! ### The deferred scan, exactly -/

namespace View

/-- All that is due is available, and waits no more. -/
def release (v : View) (t : ℤ) : View where
  available := v.available + (v.waiting.filter fun x => x.2 ≤ t).map Prod.fst
  flying := v.flying
  waiting := v.waiting.filter fun x => ¬ x.2 ≤ t

theorem release_due {w : View} {t : ℤ} {x : MessageID × ℤ} (hdue : x.2 ≤ t) :
    (w.addWaiting x).release t = (w.addAvailable x.1).release t := by
  have hkeep : (x ::ₘ w.waiting).filter (fun x => ¬ x.2 ≤ t) =
    w.waiting.filter fun x => ¬ x.2 ≤ t :=
    Multiset.filter_cons_of_neg _ (not_not.mpr hdue)
  have hgo : (x ::ₘ w.waiting).filter (fun x => x.2 ≤ t) =
      x ::ₘ w.waiting.filter fun x => x.2 ≤ t := Multiset.filter_cons_of_pos _ hdue
  simp only [release, addWaiting, addAvailable, hkeep, hgo, Multiset.map_cons, Multiset.add_cons,
    Multiset.cons_add]

theorem release_of_none {v : View} {t : ℤ} (h : ∀ x ∈ v.waiting, t < x.2) : v.release t = v := by
  have hnone : v.waiting.filter (fun x => x.2 ≤ t) = 0 :=
    Multiset.filter_eq_nil.mpr fun x hx => not_le.mpr (h x hx)
  have hall : v.waiting.filter (fun x => ¬ x.2 ≤ t) = v.waiting :=
    Multiset.filter_eq_self.mpr fun x hx => not_le.mpr (h x hx)
  rw [release, hnone, hall, Multiset.map_zero, add_zero]

end View

theorem Sound.scanDeferred_view (h : Sound c) (t : ℤ) (dirty : Bool)
    (hstores : c.Stores (c.dueDeferred t)) :
    (c.scanDeferred t dirty).2.view = c.view.release t := by
  fun_induction Channel.scanDeferred c t dirty with
  | case1 c dirty hs =>
      rw [View.release_of_none]
      intro x hx
      simp only [view, Multiset.mem_coe, List.mem_map] at hx
      obtain ⟨i, hi, rfl⟩ := hx
      exact Deferred.shiftDeferred_none_priority h.deferred hs i hi
  | case2 c dirty i d hs err hp =>
      obtain ⟨d', hok, _⟩ := Deferred.shiftDeferred_took h.deferred hs
      rw [hok] at hp
      cases hp
  | case3 c dirty i d hs j d' hp ih =>
      obtain ⟨d'', hok, ht, hdue⟩ := Deferred.shiftDeferred_took h.deferred hs
      rw [hok] at hp
      cases hp
      rw [dueDeferred_reput ht hdue] at hstores
      have hd : Channel.Stores { c with deferred := d' } _ := hstores
      obtain ⟨hone, hrest⟩ := hd.succ (d'.items.obj i).value
      have hid : idAt { c with deferred := d' } (d'.items.obj i).value = (c.waitingAt i).1 :=
        Deferred.idOf_eq ht.items i
      have hput := (view_put { c with deferred := d' } (d'.items.obj i).value).resolve_right
        fun h => h.1 hone
      rw [ih (h.reputDeferred ht).sound hrest, hput.2, hid, view_tookDeferred ht,
        View.release_due (x := c.waitingAt i) hdue]

/-- No two deferred messages have one ID. -/
theorem Sound.waiting_nodup (h : Sound c) : (c.view.waiting.map Prod.fst).Nodup := by
  have hids : (c.deferred.deferredPQ.slots.map c.waitingAt).map Prod.fst =
      c.deferred.values.map fun p => (c.msgs.obj p).id := by
    rw [Deferred.values, List.map_map, List.map_map]
    rfl
  simp only [view, Multiset.map_coe, Multiset.coe_nodup, hids]
  exact h.deferred.ids.nodup_iff.mp c.deferred.deferredMessages.nodupKeys

/-- **Released once.** What waits and is due becomes available once. -/
theorem Sound.release_count (h : Sound c) {t : ℤ} {x : MessageID × ℤ} (hx : x ∈ c.view.waiting)
    (hdue : x.2 ≤ t) :
    (c.view.release t).available.count x.1 = c.view.available.count x.1 + 1 ∧
      ∀ pri, (x.1, pri) ∉ (c.view.release t).waiting := by
  have hmem : x ∈ c.view.waiting.filter fun x => x.2 ≤ t := Multiset.mem_filter.mpr ⟨hx, hdue⟩
  have hnodup : ((c.view.waiting.filter fun x => x.2 ≤ t).map Prod.fst).Nodup :=
    Multiset.nodup_of_le (Multiset.map_le_map (Multiset.filter_le _ _)) h.waiting_nodup
  have hone := Multiset.count_eq_one_of_mem hnodup (Multiset.mem_map_of_mem Prod.fst hmem)
  refine ⟨?_, fun pri hpri => ?_⟩
  · rw [View.release, Multiset.count_add, hone]
  · have hpri : (x.1, pri) ∈ c.view.waiting.filter fun x => ¬ x.2 ≤ t := hpri
    obtain ⟨hpri, hnot⟩ := Multiset.mem_filter.mp hpri
    have heq : (x.1, pri) = x :=
      Multiset.inj_on_of_nodup_map h.waiting_nodup _ hpri _ hx rfl
    exact hnot (by rw [heq]; exact hdue)

/-! ### What comes from the topic, and the end -/

theorem Sound.putMessage_view (h : Sound c) (m : Message) :
    ((c.alloc m).putMessage c.nextMsg).2.view = c.view ∨
      ((c.alloc m).putMessage c.nextMsg).2.view = c.view.addAvailable m.id := by
  have hid : (c.alloc m).idAt c.nextMsg = m.id := (h.alloc m).2.2
  have hput : ((c.alloc m).put c.nextMsg).2.view = c.view ∨
      ((c.alloc m).put c.nextMsg).2.view = c.view.addAvailable m.id := by
    rw [← h.view_alloc m, ← hid]
    rcases view_put (c.alloc m) c.nextMsg with ⟨-, hput⟩ | ⟨-, hput⟩
    · exact .inr hput
    · exact .inl hput
  unfold Channel.putMessage
  split
  · exact .inl (h.view_alloc m)
  · simp only
    split
    · exact hput
    · exact hput

theorem Sound.putMessageDeferred_view (h : Sound c) (m : Message) (timeout now : ℤ) :
    ((c.alloc m).putMessageDeferred c.nextMsg timeout now).view =
        c.view.addWaiting (m.id, now + timeout) ∨
      (∃ pri, (m.id, pri) ∈ c.view.waiting) ∧
        ((c.alloc m).putMessageDeferred c.nextMsg timeout now).view = c.view := by
  obtain ⟨hl, -, hid⟩ := h.alloc m
  have hsame : SameMessages (c.alloc m)
      { c.alloc m with messageCount := (c.alloc m).messageCount + 1 } :=
    ⟨rfl, rfl, rfl, rfl, rfl, rfl⟩
  have hstart := (hsame.loose hl).view_startDeferred timeout now
  have hid' : idAt { c.alloc m with messageCount := (c.alloc m).messageCount + 1 } c.nextMsg =
    m.id :=
    hid
  rw [hid', hsame.view, h.view_alloc] at hstart
  exact hstart

theorem empty_view (c : Channel) : c.empty.view = ⟨0, 0, 0⟩ := rfl

/-- What is written to a backend was there, or is one of the messages. -/
theorem mem_idsOf_writeAll {ms : List Message} {id : MessageID} : ∀ {q : BackendQueue},
    id ∈ idsOf (writeAll q ms).records → id ∈ idsOf q.records ∨ ∃ m ∈ ms, m.id = id := by
  induction ms with
  | nil =>
      intro q h
      exact .inl h
  | cons m ms ih =>
      intro q h
      rcases ih (q := (writeMessageToBackend m q).2) h with h | ⟨m', hm', rfl⟩
      · rcases backend_put_cases q m.writeTo with ⟨_, hb⟩ | ⟨_, _, hb⟩ | ⟨_, err, _, hb⟩
        · rw [writeMessageToBackend, hb] at h
          exact .inl h
        · rw [writeMessageToBackend, hb] at h
          simp only [idsOf_append, idsOf_writeTo, List.mem_append, List.mem_singleton] at h
          exact h.imp_right fun h => ⟨m, by simp, h.symm⟩
        · rw [writeMessageToBackend, hb] at h
          exact .inl h
      · exact .inr ⟨m', by simp [hm'], rfl⟩

/-- What a closed channel leaves in its backend. -/
theorem exit_closed_records (c : Channel) {inFlight : List MsgPtr} {deferred : List ItemPtr}
    (hin : ∀ p ∈ inFlight, p ∈ c.inFlight.inFlightPQ.slots)
    (hdef : ∀ i ∈ deferred, i ∈ c.deferred.deferredPQ.slots) {id : MessageID}
    (h : id ∈ idsOf (c.exit false inFlight deferred).2.backend.records) : c.view.Holds id := by
  unfold Channel.exit at h
  split at h
  · exact .inl (Multiset.mem_add.mpr (.inr h))
  · rcases mem_idsOf_writeAll h with h | ⟨m, hm, rfl⟩
    · exact .inl (Multiset.mem_add.mpr (.inr h))
    · obtain ⟨p, hp, rfl⟩ := List.mem_map.mp hm
      rcases List.mem_append.mp hp with hp | hp
      · rcases List.mem_append.mp hp with hp | hp
        · exact .inl (Multiset.mem_add.mpr (.inl (List.mem_map_of_mem (f := c.idAt) hp)))
        · exact .inr (.inl (List.mem_map_of_mem (f := c.idAt) (hin p hp)))
      · obtain ⟨i, hi, rfl⟩ := List.mem_map.mp hp
        exact .inr (.inr ⟨(c.deferred.items.obj i).priority,
          List.mem_map_of_mem (f := c.waitingAt) (hdef i hi)⟩)

end Channel

end Xmq
