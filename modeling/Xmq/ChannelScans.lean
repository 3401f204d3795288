import Xmq.ChannelOperations

/-!
# The timeout scans and the flush

The two scans take out one due message after another and put each back in the queue; the flush
writes what is left to the backend. For a scan, how many messages are due is known before it
starts, because the heap is ordered: it keeps the account exactly when that many puts succeed.
-/

namespace Xmq

open IndexedHeap

namespace Channel

variable {c : Channel} {p : MsgPtr}

/-- How many in-flight messages have timed out at `t`. -/
def dueInFlight (c : Channel) (t : ℤ) : ℕ :=
  c.inFlight.inFlightPQ.slots.countP fun p => decide ((c.msgs.obj p).pri ≤ t)

/-- How many deferred messages are due at `t`. -/
def dueDeferred (c : Channel) (t : ℤ) : ℕ :=
  c.deferred.deferredPQ.slots.countP fun i => decide ((c.deferred.items.obj i).priority ≤ t)

/-- One message taken out and put again, or lost. -/
structure Reput (c : Channel) (id : MessageID) (c' : Channel) : Prop where
  sound : Sound c'
  account : c.PutsOk 1 ∧ c'.account = c.account ∨
    ¬ c.PutsOk 1 ∧ c.account = id ::ₘ c'.account
  putsOk : ∀ n, c.PutsOk (n + 1) ↔ c.PutsOk 1 ∧ c'.PutsOk n

/-- The put of a message that has just been taken out of `c`. -/
theorem Loose.reput {c₀ : Channel} (h : Loose c₀ p) {id : MessageID} (hid : c₀.idAt p = id)
    (hacc : c.account = id ::ₘ c₀.account) (hok : ∀ n, c₀.PutsOk n ↔ c.PutsOk n) :
    Reput c id (c₀.put p).2 := by
  obtain ⟨hs, hput⟩ := h.put
  rw [hid, ← hacc] at hput
  refine ⟨hs, ?_, fun n => ?_⟩
  · rcases hput with ⟨hnone, heq⟩ | ⟨hsome, heq⟩
    · exact Or.inl ⟨(hok 1).mp (put_eq_none_iff.mp hnone), heq⟩
    · refine Or.inr ⟨fun h1 => hsome (put_eq_none_iff.mpr ((hok 1).mpr h1)), ?_⟩
      rw [heq]
      exact hacc
  · rw [← hok, ← hok]
    exact putsOk_succ c₀ p n

theorem updateClient_putsOk (c : Channel) (clientID : String) (f : Client → Client) (n : ℕ) :
    (c.updateClient clientID f).PutsOk n ↔ c.PutsOk n := by
  unfold updateClient
  split <;> exact Iff.rfl

theorem Sound.timedOut (h : Sound c) {s : InFlight} (ht : c.inFlight.Took p s) :
    Reput c (c.idAt p) (c.timedOut p s) := by
  obtain ⟨hl, hacc⟩ := h.took ht
  obtain ⟨c₁, hc₁⟩ : ∃ c₁ : Channel,
    c₁ = { c with inFlight := s, timeoutCount := c.timeoutCount + 1 } := ⟨_, rfl⟩
  have hsame₁ : SameMessages { c with inFlight := s } c₁ := by
    rw [hc₁]
    exact ⟨rfl, rfl, rfl, rfl, rfl, rfl⟩
  have hsame₂ := updateClient_same c₁ (s.msgs.obj p).clientID fun client =>
    { client with inFlightCount := client.inFlightCount - 1 }
  have hin : c₁.inFlight = s := hsame₁.inFlight
  rw [Channel.timedOut, ← hc₁]
  refine (hsame₂.loose (hsame₁.loose hl)).reput ?_ ?_ ?_
  · rw [idAt, msgs, updateClient_inFlight, hin]
    exact Msgs.id_eq ht.msgs p
  · rw [hsame₂.account, hsame₁.account]
    exact hacc
  · intro n
    rw [updateClient_putsOk, hc₁]
    exact Iff.rfl

/-- Taking out a due message leaves one less due. -/
theorem dueInFlight_timedOut {s : InFlight} {t : ℤ} (ht : c.inFlight.Took p s)
    (hdue : (c.inFlight.msgs.obj p).pri ≤ t) :
    c.dueInFlight t = (c.timedOut p s).dueInFlight t + 1 := by
  have hpri : ∀ q, (s.msgs.obj q).pri = (c.inFlight.msgs.obj q).pri := fun q =>
    Msgs.field_eq Message.pri (fun _ _ => rfl) ht.msgs q
  rw [dueInFlight, dueInFlight, msgs, msgs, timedOut_inFlight, ht.slots.countP_eq,
    List.countP_cons_of_pos (by simpa using hdue)]
  simp only [hpri]

/-- **The in-flight scan.** It keeps the account exactly when the puts of the due messages
succeed. -/
theorem Sound.scanInFlight (h : Sound c) (t : ℤ) (dirty : Bool) :
    Sound (c.scanInFlight t dirty).2 ∧ (c.scanInFlight t dirty).2.account ≤ c.account ∧
      ((c.scanInFlight t dirty).2.account = c.account ↔ c.PutsOk (c.dueInFlight t)) := by
  fun_induction Channel.scanInFlight c t dirty with
  | case1 c dirty hs =>
      have hzero : c.dueInFlight t = 0 := by
        rw [dueInFlight, List.countP_eq_zero]
        intro q hq
        have := InFlight.shiftInFlight_none_pri h.inFlight hs q hq
        rw [decide_eq_true_eq, not_le]
        exact this
      rw [hzero]
      exact ⟨h, le_refl _, fun _ => Or.inr fun k hk => by omega, fun _ => rfl⟩
  | case2 c dirty p s hs err hp =>
      obtain ⟨s', hok, _⟩ := InFlight.shiftInFlight_took h.inFlight hs
      rw [hok] at hp
      cases hp
  | case3 c dirty p s hs q s' hp ih =>
      obtain ⟨s'', hok, ht, hdue⟩ := InFlight.shiftInFlight_took h.inFlight hs
      rw [hok] at hp
      cases hp
      have hre := h.timedOut ht
      obtain ⟨hsound, hle, hiff⟩ := ih hre.sound
      refine ⟨hsound, ?_⟩
      rw [dueInFlight_timedOut ht hdue, hre.putsOk]
      rcases hre.account with ⟨hok1, heq⟩ | ⟨hno1, heq⟩
      · rw [heq] at hle hiff
        exact ⟨hle, hiff.trans ⟨fun h => ⟨hok1, h⟩, fun h => h.2⟩⟩
      · have hlt : (c.timedOut p s').account < c.account := by
          rw [heq]
          exact Multiset.lt_cons_self _ _
        exact ⟨hle.trans hlt.le, fun e => absurd (e ▸ hle.trans_lt hlt) (lt_irrefl _),
          fun h => absurd h.1 hno1⟩

theorem Sound.reputDeferred (h : Sound c) {d : Deferred} {i : ItemPtr}
    (ht : c.deferred.Took c.msgs i d) :
    Reput c (c.idAt (c.deferred.items.obj i).value)
      (Channel.put { c with deferred := d } (d.items.obj i).value).2 := by
  obtain ⟨hl, hacc⟩ := h.tookDeferred ht
  rw [Items.value_eq ht.items]
  exact hl.reput rfl hacc fun n => Iff.rfl

theorem dueDeferred_reput {d : Deferred} {i : ItemPtr} {t : ℤ} (ht : c.deferred.Took c.msgs i d)
    (hdue : (c.deferred.items.obj i).priority ≤ t) :
    c.dueDeferred t =
      (Channel.put { c with deferred := d } (d.items.obj i).value).2.dueDeferred t + 1 := by
  have hpri : ∀ j, (d.items.obj j).priority = (c.deferred.items.obj j).priority := fun j =>
    Items.field_eq Item.priority (fun _ _ => rfl) ht.items j
  rw [dueDeferred, dueDeferred, put_deferred, ht.slots.countP_eq,
    List.countP_cons_of_pos (by simpa using hdue)]
  simp only [hpri]

/-- **The deferred scan.** It keeps the account exactly when the puts of the due messages
succeed. -/
theorem Sound.scanDeferred (h : Sound c) (t : ℤ) (dirty : Bool) :
    Sound (c.scanDeferred t dirty).2 ∧ (c.scanDeferred t dirty).2.account ≤ c.account ∧
      ((c.scanDeferred t dirty).2.account = c.account ↔ c.PutsOk (c.dueDeferred t)) := by
  fun_induction Channel.scanDeferred c t dirty with
  | case1 c dirty hs =>
      have hzero : c.dueDeferred t = 0 := by
        rw [dueDeferred, List.countP_eq_zero]
        intro j hj
        have := Deferred.shiftDeferred_none_priority h.deferred hs j hj
        rw [decide_eq_true_eq, not_le]
        exact this
      rw [hzero]
      exact ⟨h, le_refl _, fun _ => Or.inr fun k hk => by omega, fun _ => rfl⟩
  | case2 c dirty i d hs err hp =>
      obtain ⟨d', hok, _⟩ := Deferred.shiftDeferred_took h.deferred hs
      rw [hok] at hp
      cases hp
  | case3 c dirty i d hs j d' hp ih =>
      obtain ⟨d'', hok, ht, hdue⟩ := Deferred.shiftDeferred_took h.deferred hs
      rw [hok] at hp
      cases hp
      have hre := h.reputDeferred ht
      obtain ⟨hsound, hle, hiff⟩ := ih hre.sound
      refine ⟨hsound, ?_⟩
      rw [dueDeferred_reput ht hdue, hre.putsOk]
      rcases hre.account with ⟨hok1, heq⟩ | ⟨hno1, heq⟩
      · rw [heq] at hle hiff
        exact ⟨hle, hiff.trans ⟨fun h => ⟨hok1, h⟩, fun h => h.2⟩⟩
      · have hlt := Multiset.lt_cons_self
          (Channel.put { c with deferred := d' } (d'.items.obj i).value).2.account
          (c.idAt (c.deferred.items.obj i).value)
        rw [← heq] at hlt
        exact ⟨hle.trans hlt.le, fun e => absurd (e ▸ hle.trans_lt hlt) (lt_irrefl _),
          fun h => absurd h.1 hno1⟩

/-! ### The flush -/

theorem writeAll_stored {q : BackendQueue} (hq : ∀ b ∈ q.records, ∃ m : Message, b = m.writeTo)
    (ms : List Message) : ∀ b ∈ (writeAll q ms).records, ∃ m : Message, b = m.writeTo := by
  induction ms generalizing q with
  | nil => exact hq
  | cons m ms ih =>
      refine ih (q := (writeMessageToBackend m q).2) ?_
      rcases backend_put_cases q m.writeTo with ⟨_, hb⟩ | ⟨_, _, hb⟩ | ⟨_, err, _, hb⟩
      · rw [writeMessageToBackend, hb]
        exact hq
      · rw [writeMessageToBackend, hb]
        intro b hmem
        rcases List.mem_append.mp hmem with hmem | hmem
        · exact hq b hmem
        · exact ⟨m, List.mem_singleton.mp hmem⟩
      · rw [writeMessageToBackend, hb]
        exact hq

/-- A disk queue that never fails stores every message it is given, in order. -/
theorem writeAll_records {q : BackendQueue} (hd : q.dummy = false) (ho : ∀ k, q.outcome k = none)
    (ms : List Message) : (writeAll q ms).records = q.records ++ ms.map Message.writeTo := by
  induction ms generalizing q with
  | nil => exact (List.append_nil _).symm
  | cons m ms ih =>
      have hput : (writeMessageToBackend m q).2 =
          { q with records := q.records ++ [m.writeTo], puts := q.puts + 1 } := by
        rcases backend_put_cases q m.writeTo with ⟨hd', _⟩ | ⟨_, _, hb⟩ | ⟨_, err, herr, _⟩
        · rw [hd] at hd'
          cases hd'
        · rw [writeMessageToBackend, hb]
        · rw [ho] at herr
          cases herr
      have hstep : writeAll q (m :: ms) = writeAll (writeMessageToBackend m q).2 ms := rfl
      rw [hstep, hput, ih (by exact hd) (by exact ho), List.map_cons]
      exact List.append_assoc _ [m.writeTo] _

theorem Sound.flush (h : Sound c) (inFlight : List MsgPtr) (deferred : List ItemPtr) :
    Sound (c.flush inFlight deferred) := by
  have hsub : (c.flush inFlight deferred).pointers.Sublist c.pointers := by
    rw [pointers, pointers, List.append_assoc, List.append_assoc]
    exact List.sublist_append_right c.memoryMsgChan _
  exact ⟨h.inFlight, h.deferred, h.nodup.sublist hsub, fun p hp => h.fresh p (hsub.subset hp),
    h.freshItems, writeAll_stored h.stored _⟩

theorem Sound.exit (h : Sound c) (deleted : Bool) (inFlight : List MsgPtr)
    (deferred : List ItemPtr) : Sound (c.exit deleted inFlight deferred).2 := by
  unfold Channel.exit
  split
  · exact h
  · split
    · exact (empty_sound _).1.setBackend fun b hb => by cases hb
    · have hs : Sound { c with exitFlag := 1 } :=
        ⟨h.inFlight, h.deferred, h.nodup, h.fresh, h.freshItems, h.stored⟩
      exact (hs.flush inFlight deferred).setBackend (hs.flush inFlight deferred).stored

/-! ### Settings -/

/-- What no operation but `exit` changes: the exit flag, the options and the backend's kind. -/
def settings (c : Channel) : Int32 × ChannelOptions × Bool × (ℕ → GoError) × List (List UInt8) :=
  (c.exitFlag, c.opts, c.backend.dummy, c.backend.outcome,
    if c.backend.dummy then [] else c.backend.dropped)

theorem put_settings (c : Channel) (p : MsgPtr) : (c.put p).2.settings = c.settings := by
  rcases put_cases c p with ⟨_, hput⟩ | ⟨_, hput⟩
  · rw [hput]
    rfl
  · rw [hput]
    rcases backend_put_cases c.backend (c.msgs.obj p).writeTo with
      ⟨hd, hb⟩ | ⟨_, _, hb⟩ | ⟨_, err, _, hb⟩
    · rw [hb, settings, settings, if_pos hd, if_pos hd]
    · rw [hb]
      rfl
    · rw [hb]
      rfl

theorem updateClient_settings (c : Channel) (clientID : String) (f : Client → Client) :
    (c.updateClient clientID f).settings = c.settings := by
  unfold updateClient
  split <;> rfl

theorem putMessage_settings (c : Channel) (p : MsgPtr) : (c.putMessage p).2.settings = c.settings := by
  unfold Channel.putMessage
  split
  · rfl
  · simp only
    split
    · exact put_settings c p
    · exact put_settings c p

theorem deliver_settings (c : Channel) (p : MsgPtr) (clientID : String) (timeout now : ℤ) :
    (c.deliver p clientID timeout now).settings = c.settings :=
  updateClient_settings _ _ _

theorem timedOut_settings (c : Channel) (p : MsgPtr) (s : InFlight) :
    (c.timedOut p s).settings = c.settings :=
  (put_settings _ _).trans (updateClient_settings _ _ _)

theorem scanInFlight_settings (c : Channel) (t : ℤ) (dirty : Bool) :
    (c.scanInFlight t dirty).2.settings = c.settings := by
  fun_induction Channel.scanInFlight c t dirty with
  | case1 c dirty hs => rfl
  | case2 c dirty p s hs err hp => rfl
  | case3 c dirty p s hs q s' hp ih => exact ih.trans (timedOut_settings c p s')

theorem scanDeferred_settings (c : Channel) (t : ℤ) (dirty : Bool) :
    (c.scanDeferred t dirty).2.settings = c.settings := by
  fun_induction Channel.scanDeferred c t dirty with
  | case1 c dirty hs => rfl
  | case2 c dirty i d hs err hp => rfl
  | case3 c dirty i d hs j d' hp ih =>
      exact ih.trans (put_settings { c with deferred := d' } _)

theorem step_settings (c : Channel) (op : Op) {r : GoError × Channel} (h : c.step op = some r) :
    r.2.settings = c.settings := by
  cases op with
  | putMessage m =>
      cases h
      exact putMessage_settings (c.alloc m) c.nextMsg
  | putMessageDeferred m timeout now =>
      cases h
      rfl
  | deliverMemory clientID timeout now =>
      cases h
      show (c.deliverMemory clientID timeout now).settings = c.settings
      unfold Channel.deliverMemory
      split
      · exact deliver_settings _ _ _ _ _
      · rfl
  | deliverBackend clientID timeout now =>
      cases h
      show (c.deliverBackend clientID timeout now).settings = c.settings
      unfold Channel.deliverBackend
      split
      · rfl
      · rename_i b q hq
        have hread : settings { c with backend := q } = c.settings := by
          unfold BackendQueue.read at hq
          split at hq
          · cases hq
            rfl
          · cases hq
        split
        · exact hread
        · exact (deliver_settings _ _ _ _ _).trans hread
  | touchMessage clientID id clientMsgTimeout now =>
      obtain ⟨x, _, rfl⟩ := Option.map_eq_some_iff.mp h
      split <;> rfl
  | finishMessage clientID id =>
      obtain ⟨x, _, rfl⟩ := Option.map_eq_some_iff.mp h
      split <;> rfl
  | requeueMessage clientID id timeout now =>
      obtain ⟨x, _, rfl⟩ := Option.map_eq_some_iff.mp h
      split
      · rfl
      · rename_i p s _
        show settings (if timeout = 0 then
          if c.exiting then (some "exiting", c.requeued s) else (c.requeued s).put p
          else (c.requeued s).startDeferredTimeout p timeout now).2 = _
        split
        · split
          · rfl
          · exact put_settings (c.requeued s) p
        · rfl
  | processInFlightQueue t =>
      cases h
      show (c.processInFlightQueue t).2.settings = c.settings
      unfold processInFlightQueue
      split
      · rfl
      · exact scanInFlight_settings c t false
  | processDeferredQueue t =>
      cases h
      show (c.processDeferredQueue t).2.settings = c.settings
      unfold processDeferredQueue
      split
      · rfl
      · exact scanDeferred_settings c t false
  | empty =>
      cases h
      rfl

end Channel

end Xmq
