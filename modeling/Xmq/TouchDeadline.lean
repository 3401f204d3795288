import Xmq.ChannelPutFailure

/-!
# How far a touch can move a deadline

`TouchMessage` takes a message out of map and heap, writes its new deadline and puts it back.
`Touched` is all that a touch changes, and `Within` is what it keeps of a message that was delivered
at `d`: the deadline is the one that a delivery or a touch at some earlier time asked for, but never
more than the maximum after `d`. A call by anybody else returns an error and changes nothing.
-/

namespace Xmq

open IndexedHeap

namespace InFlight

variable {s s' : InFlight} {p : MsgPtr}

/-- No other message has the ID of the one that was taken out. -/
theorem Took.lookup_none (ht : Took s p s') (hs : s.Sound) :
    s'.inFlightMessages.lookup (s'.msgs.obj p).id = none := by
  cases hl : s'.inFlightMessages.lookup (s'.msgs.obj p).id with
  | none => rfl
  | some q =>
      have hid : ∀ r, (s'.msgs.obj r).id = (s.msgs.obj r).id := Msgs.id_eq ht.msgs
      obtain ⟨hq, hname⟩ := (Tracks.lookup_iff ht.sound).mp hl
      have hq' : s.inFlightMessages.lookup (s.msgs.obj p).id = some q :=
        (Tracks.lookup_iff hs).mpr ⟨ht.slots.mem_iff.mpr (List.mem_cons_of_mem p hq),
          (hid q).symm.trans (hname.trans (hid p))⟩
      have hp' : s.inFlightMessages.lookup (s.msgs.obj p).id = some p :=
        (Tracks.lookup_iff hs).mpr ⟨ht.mem, rfl⟩
      rw [hp'] at hq'
      cases hq'
      exact absurd hq (ht.notMem hs)

/-- Sound parts with the same elements and the same IDs have the same map. -/
theorem lookup_congr (hs : s.Sound) (hs' : s'.Sound)
    (hslots : s'.inFlightPQ.slots.Perm s.inFlightPQ.slots)
    (hid : ∀ q, (s'.msgs.obj q).id = (s.msgs.obj q).id) (id : MessageID) :
    s'.inFlightMessages.lookup id = s.inFlightMessages.lookup id := by
  refine Option.ext fun q => ?_
  rw [Tracks.lookup_iff hs', Tracks.lookup_iff hs]
  show q ∈ s'.inFlightPQ.slots ∧ _ ↔ q ∈ s.inFlightPQ.slots ∧ _
  rw [hslots.mem_iff, hid]

end InFlight

namespace Channel

/-- A call of `TouchMessage`. -/
structure TouchCall where
  clientID : String
  id : MessageID
  clientMsgTimeout : ℤ
  now : ℤ

def touch (c : Channel) (a : TouchCall) : Option (GoError × Channel) :=
  c.touchMessage a.clientID a.id a.clientMsgTimeout a.now

/-- The same, when nobody looks at the error. -/
def touchStep (c : Channel) (a : TouchCall) : Option Channel := (c.touch a).map Prod.snd

/-- `c'` is `c` with another deadline for the message at `p`: the map, the contents of the heap and
the other fields of every message are the same. -/
structure Touched (c : Channel) (p : MsgPtr) (pri : ℤ) (c' : Channel) : Prop where
  sound : c'.inFlight.Sound
  slots : c'.inFlight.inFlightPQ.slots.Perm c.inFlight.inFlightPQ.slots
  map : ∀ id, c'.inFlight.inFlightMessages.lookup id = c.inFlight.inFlightMessages.lookup id
  message : ∃ n, c'.msgs.obj p = { c.msgs.obj p with pri := pri, index := n }
  other : ∀ q, q ≠ p → ∃ n, c'.msgs.obj q = { c.msgs.obj q with index := n }
  others : c' = { c with inFlight := c'.inFlight }

variable {c c' : Channel} {p : MsgPtr}

theorem touch_not_owned {a : TouchCall} (h : ¬ c.inFlight.Owned a.clientID a.id) :
    ∃ err, c.touch a = some (some err, c) := by
  obtain ⟨err, herr⟩ := InFlight.takeInFlight_not_owned h
  exact ⟨err, touchMessage_error herr⟩

/-- **A touch by the owner** succeeds and sets the deadline. -/
theorem touch_owned (hs : c.inFlight.Sound) {a : TouchCall}
    (hl : c.inFlight.inFlightMessages.lookup a.id = some p)
    (hc : (c.msgs.obj p).clientID = a.clientID) :
    ∃ c', c.touch a = some (none, c') ∧
      Touched c p (touchedPri c.opts (c.msgs.obj p) a.clientMsgTimeout a.now) c' := by
  obtain ⟨s, hs', ht⟩ := InFlight.takeInFlight_owned hs hl hc
  have hp : p ∉ s.inFlightPQ.slots := ht.notMem hs
  obtain ⟨n, hn⟩ := Msgs.obj_reindexed ht.msgs p
  obtain ⟨m, hm⟩ : ∃ m, m = c.touched s p a.clientMsgTimeout a.now := ⟨_, rfl⟩
  have hmid : m.id = (s.msgs.obj p).id := by rw [hm]; rfl
  have hobj : (s.write p m).msgs.obj p = m := Msgs.set_self _ _ _
  have hfree : (s.write p m).inFlightMessages.lookup ((s.write p m).msgs.obj p).id = none := by
    rw [hobj, hmid]
    exact ht.lookup_none hs
  obtain ⟨s', hplace, hplaced⟩ := InFlight.placeInFlight_new (ht.sound.write hp m) hp hfree
  have hslots : s'.inFlightPQ.slots.Perm c.inFlight.inFlightPQ.slots :=
    hplaced.slots.trans ht.slots.symm
  have hmessage : ∃ n, s'.msgs.obj p = { c.msgs.obj p with
      pri := touchedPri c.opts (c.msgs.obj p) a.clientMsgTimeout a.now, index := n } := by
    obtain ⟨k, hk⟩ := Msgs.obj_reindexed hplaced.msgs p
    rw [hobj, hm, touched, hn] at hk
    exact ⟨k, hk⟩
  have hother : ∀ q, q ≠ p → ∃ n, s'.msgs.obj q = { c.msgs.obj q with index := n } := by
    intro q hq
    obtain ⟨j, hj⟩ := Msgs.obj_reindexed ht.msgs q
    obtain ⟨k, hk⟩ := Msgs.obj_reindexed hplaced.msgs q
    rw [show (s.write p m).msgs.obj q = s.msgs.obj q from Msgs.set_ne _ _ hq, hj] at hk
    exact ⟨k, hk⟩
  have hid : ∀ q, (s'.msgs.obj q).id = (c.msgs.obj q).id := by
    intro q
    by_cases hq : q = p
    · obtain ⟨k, hk⟩ := hmessage
      rw [hq, hk]
    · obtain ⟨k, hk⟩ := hother q hq
      rw [hk]
  refine ⟨{ c with inFlight := s' }, ?_, hplaced.sound, hslots,
    InFlight.lookup_congr hs hplaced.sound hslots hid, hmessage, hother, rfl⟩
  rw [touch, touchMessage_ok hs', ← hm, hplace]

/-! ### Limits -/

/-- The message `id`, at `p`, was delivered to `who` at `d` and last asked to stay `T` from `τ`
on. -/
structure Within (c : Channel) (id : MessageID) (p : MsgPtr) (who : String) (d T τ : ℤ) : Prop where
  sound : c.inFlight.Sound
  inFlight : c.inFlight.inFlightMessages.lookup id = some p
  owner : (c.msgs.obj p).clientID = who
  deliveryTS : (c.msgs.obj p).deliveryTS = d
  pri : (c.msgs.obj p).pri = min (τ + T) (d + c.opts.maxMsgTimeout)

theorem touchedPri_eq (opts : ChannelOptions) (m : Message) (T now : ℤ) :
    touchedPri opts m T now = min (now + T) (m.deliveryTS + opts.maxMsgTimeout) := by
  unfold touchedPri
  split <;> omega

variable {id : MessageID} {who : String} {d T τ : ℤ}

/-- The delivery itself. -/
theorem within_delivered (hs : c.inFlight.Sound) (hT : T ≤ c.opts.maxMsgTimeout)
    (hd : c.startInFlightTimeout p who T d = (none, c')) :
    Within c' (c'.idAt p) p who d T d ∧ c'.opts = c.opts := by
  obtain ⟨m, hm⟩ : ∃ m : Message,
    m = { c.msgs.obj p with clientID := who, deliveryTS := d, pri := d + T } := ⟨_, rfl⟩
  have hobj : (c.inFlight.write p m).msgs.obj p = m := Msgs.set_self _ _ _
  rw [startInFlightTimeout, ← hm] at hd
  have hfree : (c.inFlight.write p m).inFlightMessages.lookup
      ((c.inFlight.write p m).msgs.obj p).id = none := by
    cases hl : (c.inFlight.write p m).inFlightMessages.lookup
        ((c.inFlight.write p m).msgs.obj p).id with
    | none => rfl
    | some q =>
        rw [InFlight.placeInFlight_dup hl] at hd
        cases hd
  have hid : ((c.inFlight.write p m).msgs.obj p).id = (c.msgs.obj p).id := by
    rw [hobj, hm]
  have hp : p ∉ c.inFlight.inFlightPQ.slots := by
    intro hp
    have hl : c.inFlight.inFlightMessages.lookup (c.msgs.obj p).id = some p :=
      (Tracks.lookup_iff hs).mpr ⟨hp, rfl⟩
    rw [hid] at hfree
    rw [show c.inFlight.inFlightMessages.lookup _ = _ from hfree] at hl
    cases hl
  obtain ⟨s, hplace, hplaced⟩ := InFlight.placeInFlight_new (hs.write hp m) hp hfree
  rw [hplace] at hd
  cases hd
  obtain ⟨n, hn⟩ := Msgs.obj_reindexed hplaced.msgs p
  rw [hobj] at hn
  refine ⟨⟨hplaced.sound, ?_, ?_, ?_, ?_⟩, rfl⟩
  · exact (Tracks.lookup_iff hplaced.sound).mpr
      ⟨hplaced.slots.mem_iff.mpr List.mem_cons_self, rfl⟩
  · rw [msgs, hn, hm]
  · rw [msgs, hn, hm]
  · rw [msgs, hn, hm]
    show d + T = min (d + T) (d + c.opts.maxMsgTimeout)
    omega

/-- The same messages are in flight, under the same IDs. -/
structure SameFlight (c c' : Channel) : Prop where
  slots : c'.inFlight.inFlightPQ.slots.Perm c.inFlight.inFlightPQ.slots
  map : ∀ id, c'.inFlight.inFlightMessages.lookup id = c.inFlight.inFlightMessages.lookup id
  opts : c'.opts = c.opts

theorem SameFlight.refl (c : Channel) : SameFlight c c := ⟨List.Perm.refl _, fun _ => rfl, rfl⟩

theorem SameFlight.trans {c'' : Channel} (h : SameFlight c c') (h' : SameFlight c' c'') :
    SameFlight c c'' :=
  ⟨h'.slots.trans h.slots, fun id => (h'.map id).trans (h.map id), h'.opts.trans h.opts⟩

/-- The call is one for message `id` by `who`. -/
def TouchCall.By (a : TouchCall) (who : String) (id : MessageID) : Prop :=
  a.clientID = who ∧ a.id = id

/-- **One touch**, by anybody and for any message. -/
theorem Within.touch (h : Within c id p who d T τ) (hid : (c.msgs.obj p).id = id) {a : TouchCall}
    (hsame : a.By who id → a.clientMsgTimeout = T) :
    ∃ err c' τ', c.touch a = some (err, c') ∧ SameFlight c c' ∧ Within c' id p who d T τ' ∧
      (τ' = τ ∨ τ' = a.now) ∧ (a.By who id → err = none ∧ τ' = a.now) := by
  by_cases hown : c.inFlight.Owned a.clientID a.id
  · obtain ⟨q, hl, hc⟩ := hown
    obtain ⟨c', hc', ht⟩ := touch_owned h.sound hl hc
    have hopts : c'.opts = c.opts := by rw [ht.others]
    have hflight : c'.inFlight.inFlightMessages.lookup id = some p := (ht.map id).trans h.inFlight
    refine ⟨none, c', ?_⟩
    by_cases hq : q = p
    · -- the call is for this message, so it is its owner's
      subst hq
      have haid : a.id = id :=
        ((Tracks.lookup_iff h.sound).mp hl).2.symm.trans hid
      have hwho : a.clientID = who := hc.symm.trans h.owner
      obtain ⟨n, hn⟩ := ht.message
      refine ⟨a.now, hc', ⟨ht.slots, ht.map, hopts⟩, ⟨ht.sound, hflight, ?_, ?_, ?_⟩, .inr rfl,
        fun _ => ⟨rfl, rfl⟩⟩
      · rw [hn]
        exact h.owner
      · rw [hn]
        exact h.deliveryTS
      · rw [hn, hopts]
        show touchedPri _ _ _ _ = _
        rw [touchedPri_eq, h.deliveryTS, hsame ⟨hwho, haid⟩]
    · obtain ⟨n, hn⟩ := ht.other p (Ne.symm hq)
      refine ⟨τ, hc', ⟨ht.slots, ht.map, hopts⟩, ⟨ht.sound, hflight, ?_, ?_, ?_⟩, .inl rfl, ?_⟩
      · rw [hn]
        exact h.owner
      · rw [hn]
        exact h.deliveryTS
      · rw [hn, hopts]
        exact h.pri
      · rintro ⟨-, haid⟩
        rw [haid, h.inFlight] at hl
        exact absurd (Option.some.inj hl).symm hq
  · obtain ⟨err, herr⟩ := touch_not_owned hown
    refine ⟨some err, c, τ, herr, SameFlight.refl c, h, .inl rfl, ?_⟩
    rintro ⟨rfl, rfl⟩
    exact absurd ⟨p, h.inFlight, h.owner⟩ hown

theorem Within.idAt (h : Within c id p who d T τ) : c.idAt p = id :=
  ((Tracks.lookup_iff h.sound).mp h.inFlight).2

theorem Within.le (h : Within c id p who d T τ) :
    (c.msgs.obj p).pri ≤ d + c.opts.maxMsgTimeout := by
  rw [h.pri]
  exact min_le_right _ _

/-- **Any number of touches** at times that do not go back. -/
theorem Within.touches (h : Within c id p who d T τ) {calls : List TouchCall}
    (hτ : ∀ a ∈ calls, τ ≤ a.now) (htimes : calls.Pairwise fun a b => a.now ≤ b.now)
    (hsame : ∀ a ∈ calls, a.By who id → a.clientMsgTimeout = T) :
    ∃ c' τ', Runs.run touchStep c calls = some c' ∧ SameFlight c c' ∧
      Within c' id p who d T τ' ∧ ∀ t, τ ≤ t → (∀ a ∈ calls, a.now ≤ t) → τ' ≤ t := by
  induction calls generalizing c τ with
  | nil => exact ⟨c, τ, rfl, SameFlight.refl c, h, fun t ht _ => ht⟩
  | cons a calls ih =>
      obtain ⟨hfirst, hrest⟩ := List.pairwise_cons.mp htimes
      obtain ⟨err, c₁, τ₁, htouch, hflight, hwithin, hlast, -⟩ :=
        h.touch h.idAt (hsame a List.mem_cons_self)
      have hτ₁ : ∀ b ∈ calls, τ₁ ≤ b.now := by
        intro b hb
        rcases hlast with rfl | rfl
        · exact hτ b (List.mem_cons_of_mem a hb)
        · exact hfirst b hb
      obtain ⟨c', τ', hrun, hflight', hwithin', hbound⟩ :=
        ih hwithin hτ₁ hrest fun b hb => hsame b (List.mem_cons_of_mem a hb)
      have hstep : touchStep c a = some c₁ := by rw [touchStep, htouch]; rfl
      refine ⟨c', τ', (Runs.run_cons a calls c' hstep).mpr hrun, hflight.trans hflight', hwithin',
        fun t ht hle => hbound t ?_ fun b hb => hle b (List.mem_cons_of_mem a hb)⟩
      rcases hlast with rfl | rfl
      · exact ht
      · exact hle a List.mem_cons_self

/-- **Touching keeps the deadline within its limits**: after a delivery to `who` at `d` and any
calls of `TouchMessage`, the next call `a`. Nobody but an owner changes anything in any channel. -/
theorem touches_within {c₀ : Channel} (hs : c₀.inFlight.Sound) (hT : T ≤ c₀.opts.maxMsgTimeout)
    (hd : c₀.startInFlightTimeout p who T d = (none, c)) (calls : List TouchCall) (a : TouchCall)
    (hfrom : ∀ b ∈ calls ++ [a], d ≤ b.now)
    (htimes : (calls ++ [a]).Pairwise fun b b' => b.now ≤ b'.now)
    (hsame : ∀ b ∈ calls ++ [a], b.By who (c.idAt p) → b.clientMsgTimeout = T) :
    (∃ c₁ err c₂, Runs.run touchStep c calls = some c₁ ∧ c₁.touch a = some (err, c₂) ∧
      (c₁.msgs.obj p).pri ≤ (c₂.msgs.obj p).pri ∧
      (c₂.msgs.obj p).pri ≤ d + c₀.opts.maxMsgTimeout ∧
      (a.By who (c.idAt p) →
        err = none ∧ (c₂.msgs.obj p).pri = min (a.now + T) (d + c₀.opts.maxMsgTimeout)) ∧
      (c₂.msgs.obj p).deliveryTS = d ∧ (c₂.msgs.obj p).clientID = who ∧
      (∀ id, c₂.inFlight.inFlightMessages.lookup id = c.inFlight.inFlightMessages.lookup id) ∧
      c₂.inFlight.inFlightPQ.slots.Perm c.inFlight.inFlightPQ.slots) ∧
    ∀ (e : Channel) (b : TouchCall), ¬ e.inFlight.Owned b.clientID b.id →
      ∃ err, e.touch b = some (some err, e) := by
  obtain ⟨hdel, hopts⟩ := within_delivered hs hT hd
  have hbefore : ∀ b ∈ calls, b ∈ calls ++ [a] := fun b hb => List.mem_append_left [a] hb
  have hlast : a ∈ calls ++ [a] := List.mem_append_right calls List.mem_cons_self
  obtain ⟨htimes', -, hcross⟩ := List.pairwise_append.mp htimes
  obtain ⟨c₁, τ₁, hrun, hflight, hwithin, hbound⟩ := hdel.touches
    (fun b hb => hfrom b (hbefore b hb)) htimes' fun b hb => hsame b (hbefore b hb)
  have hτ₁ : τ₁ ≤ a.now := hbound a.now (hfrom a hlast) fun b hb =>
    hcross b hb a List.mem_cons_self
  obtain ⟨err, c₂, τ₂, htouch, hflight₂, hwithin₂, hlater, hby⟩ :=
    hwithin.touch hwithin.idAt (hsame a hlast)
  have hall := hflight.trans hflight₂
  have hopts₂ : c₂.opts = c₀.opts := hall.opts.trans hopts
  have hopts₁ : c₁.opts = c₀.opts := hflight.opts.trans hopts
  refine ⟨⟨c₁, err, c₂, hrun, htouch, ?_, hopts₂ ▸ hwithin₂.le, fun ha => ?_, hwithin₂.deliveryTS,
    hwithin₂.owner, hall.map, hall.slots⟩, fun e b => touch_not_owned⟩
  · rw [hwithin.pri, hwithin₂.pri, hopts₁, hopts₂]
    rcases hlater with rfl | rfl <;> omega
  · obtain ⟨hnone, rfl⟩ := hby ha
    exact ⟨hnone, by rw [hwithin₂.pri, hopts₂]⟩

/-- A message in hand, in a channel with a maximum of 100. -/
def undelivered : Channel :=
  (newChannel ⟨0, 100⟩ (newBackend false fun _ => none) ∅).alloc
    (newMessage (Vector.replicate 16 1) [7] 0)

theorem undelivered_sound : undelivered.inFlight.Sound :=
  ((newChannel_sound ⟨0, 100⟩ false (fun _ => none) ∅).alloc _).1.inFlight

/-- Delivered at 0 with a timeout of 60, touched at 30 and then at 70. -/
theorem touches_within_undelivered :
    ∃ c c₁ err c₂, undelivered.startInFlightTimeout 0 "a" 60 0 = (none, c) ∧
      Runs.run touchStep c [⟨"a", Vector.replicate 16 1, 60, 30⟩] = some c₁ ∧
      c₁.touch ⟨"a", Vector.replicate 16 1, 60, 70⟩ = some (err, c₂) ∧
      (c₁.msgs.obj 0).pri ≤ (c₂.msgs.obj 0).pri ∧ (c₂.msgs.obj 0).pri = 100 := by
  have hd : undelivered.startInFlightTimeout 0 "a" 60 0 =
      (none, (undelivered.startInFlightTimeout 0 "a" 60 0).2) := Prod.ext (by decide +kernel) rfl
  obtain ⟨⟨c₁, err, c₂, hrun, htouch, hle, -, hown, -⟩, -⟩ := touches_within undelivered_sound
    (by decide) hd [⟨"a", Vector.replicate 16 1, 60, 30⟩] ⟨"a", Vector.replicate 16 1, 60, 70⟩
    (by decide) (by decide) (fun b hb _ => by simp at hb; rcases hb with rfl | rfl <;> rfl)
  refine ⟨_, c₁, err, c₂, hd, hrun, htouch, hle, ?_⟩
  rw [(hown ⟨rfl, by decide +kernel⟩).2]
  decide +kernel

end Channel

end Xmq
