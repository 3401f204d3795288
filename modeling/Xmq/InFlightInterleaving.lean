import Xmq.InFlightTokens

/-!
# The in-flight bookkeeping under interleaving

`Inv` is the invariant of the interleaved calls: positions are right, messages are filed under
their own IDs, and the tokens have the shape of the module before. Every good step keeps it, so in
every run of good steps no `removeFromInFlightPQ` indexes out of range or takes out a message other
than its own, and whenever no call is in progress the heap holds exactly what the map holds.

The condition cannot be dropped: in `lateFinish` the empty heap is indexed out of range, and after
`requeueInTouch` a queued message is still in the heap.
-/

namespace Xmq

open IndexedHeap

namespace Interleaving

/-- The tokens of the in-flight part. -/
def tokens (f : InFlight) : Tokens where
  mapped p := f.inFlightMessages.lookup (f.msgs.obj p).id = some p
  heap p := p ∈ f.inFlightPQ.slots
  popped p := (f.msgs.obj p).index = -1

/-- Positions are right and messages are filed under their IDs. -/
structure Filed (f : InFlight) : Prop where
  indexed : Indexed f.heap
  keys : ∀ id p, f.inFlightMessages.lookup id = some p → (f.msgs.obj p).id = id

/-- The invariant of the interleaved calls. -/
structure Inv (s : Sys) : Prop where
  filed : Filed s.inFlight
  shape : Shape (tokens s.inFlight) s.queue s.threads
  mappedLt : ∀ p, (tokens s.inFlight).mapped p → p < s.nextMsg
  queueLt : ∀ p ∈ s.queue, p < s.nextMsg
  heldLt : ∀ pc ∈ s.threads, ∀ p, pc.holds = some p → p < s.nextMsg

/-- `removeFromInFlightPQ` does not index out of range, and takes out `p` or nothing. -/
def RemovesOnly (f : InFlight) (p : MsgPtr) : Prop :=
  ∃ f', f.removeFromInFlightPQ p = some f' ∧
    (f'.inFlightPQ.slots = f.inFlightPQ.slots ∨
      f.inFlightPQ.slots.Perm (p :: f'.inFlightPQ.slots))

/-- What the calls rely on: every remove about to happen is right, and between calls the heap holds
exactly what the map holds, each message once and at its index, and nothing that is queued. -/
structure Bookkept (s : Sys) : Prop where
  remove : ∀ p after, PC.remove p after ∈ s.threads → RemovesOnly s.inFlight p
  tracked : (∀ pc ∈ s.threads, pc = .done) →
    s.inFlight.inFlightMessages.values.Perm s.inFlight.inFlightPQ.slots
  index : (∀ pc ∈ s.threads, pc = .done) → ∀ (i : ℕ) p, s.inFlight.inFlightPQ.slots[i]? = some p →
    (s.inFlight.msgs.obj p).index = i
  queued : (∀ pc ∈ s.threads, pc = .done) → ∀ p ∈ s.queue, p ∉ s.inFlight.inFlightPQ.slots

variable {f f' : InFlight} {p q : MsgPtr} {id : MessageID}

/-! ### What the critical sections do to the tokens -/

theorem Filed.mem_index (h : Filed f) (hp : p ∈ f.inFlightPQ.slots) :
    (f.msgs.obj p).index ≠ -1 := by
  obtain ⟨i, _, _, hidx⟩ := h.indexed.mem_index hp
  have hidx : (f.msgs.obj p).index = i := hidx
  omega

theorem mapped_insert (hl : f.inFlightMessages.lookup (f.msgs.obj p).id = none) (q : MsgPtr) :
    (tokens { f with inFlightMessages := f.inFlightMessages.insert (f.msgs.obj p).id p }).mapped q ↔
      q = p ∨ (tokens f).mapped q := by
  show AList.lookup (f.msgs.obj q).id (f.inFlightMessages.insert (f.msgs.obj p).id p) = some q ↔
    q = p ∨ f.inFlightMessages.lookup (f.msgs.obj q).id = some q
  rw [GoMap.lookup_insert_eq_some]
  constructor
  · rintro (⟨_, rfl⟩ | ⟨_, hq⟩)
    · exact Or.inl rfl
    · exact Or.inr hq
  · rintro (rfl | hq)
    · exact Or.inl ⟨rfl, rfl⟩
    · refine Or.inr ⟨fun he => ?_, hq⟩
      rw [he, hl] at hq
      cases hq

theorem mapped_erase (hk : Filed f) (hl : f.inFlightMessages.lookup id = some p) (q : MsgPtr) :
    (tokens { f with inFlightMessages := f.inFlightMessages.erase id }).mapped q ↔
      (tokens f).mapped q ∧ q ≠ p := by
  show AList.lookup (f.msgs.obj q).id (f.inFlightMessages.erase id) = some q ↔
    f.inFlightMessages.lookup (f.msgs.obj q).id = some q ∧ q ≠ p
  rw [GoMap.lookup_erase_eq_some]
  constructor
  · rintro ⟨hne, hq⟩
    exact ⟨hq, fun e => hne (e ▸ hk.keys id p hl)⟩
  · rintro ⟨hq, hne⟩
    refine ⟨fun he => hne ?_, hq⟩
    rw [he, hl] at hq
    exact (Option.some.inj hq).symm

theorem Filed.insert (h : Filed f) (p : MsgPtr) :
    Filed { f with inFlightMessages := f.inFlightMessages.insert (f.msgs.obj p).id p } where
  indexed := h.indexed
  keys l r hr := by
    rcases GoMap.lookup_insert_eq_some.mp hr with ⟨rfl, rfl⟩ | ⟨_, hr⟩
    · rfl
    · exact h.keys l r hr

theorem Filed.erase (h : Filed f) (id : MessageID) :
    Filed { f with inFlightMessages := f.inFlightMessages.erase id } where
  indexed := h.indexed
  keys l r hr := h.keys l r (GoMap.lookup_erase_eq_some.mp hr).2

/-- After a heap operation: the map and the IDs are the same. -/
theorem Filed.reindexed (h : Filed f) (hi : Indexed f'.heap)
    (hmap : f'.inFlightMessages = f.inFlightMessages) (hr : Reindexed f.msgs f'.msgs) :
    Filed f' where
  indexed := hi
  keys l r hl := by
    rw [Msgs.id_eq hr]
    exact h.keys l r (hmap ▸ hl)

theorem mapped_reindexed (hmap : f'.inFlightMessages = f.inFlightMessages)
    (hr : Reindexed f.msgs f'.msgs) (q : MsgPtr) :
    (tokens f').mapped q ↔ (tokens f).mapped q := by
  show f'.inFlightMessages.lookup (f'.msgs.obj q).id = some q ↔ _
  rw [hmap, Msgs.id_eq hr]
  rfl

/-- Assignments to a message that is not in the heap. -/
theorem Filed.write (h : Filed f) (hp : p ∉ f.inFlightPQ.slots)
    {m : Message} (hid : (tokens f).mapped p → m.id = (f.msgs.obj p).id) : Filed (f.write p m) where
  indexed := by
    intro i x hx
    have hne : x ≠ p := fun e => hp (e ▸ List.mem_of_getElem? hx)
    show ((f.msgs.set p m).obj x).index = i
    rw [Msgs.set_ne _ _ hne]
    exact h.indexed i x hx
  keys l r hl := by
    show ((f.msgs.set p m).obj r).id = l
    have hl : f.inFlightMessages.lookup l = some r := hl
    have hr := h.keys l r hl
    by_cases hrp : r = p
    · subst hrp
      rw [Msgs.set_self, hid (by show _ = _; rw [hr]; exact hl), hr]
    · rw [Msgs.set_ne _ _ hrp, hr]

theorem write_obj_ne {m : Message} (h : q ≠ p) : (f.write p m).msgs.obj q = f.msgs.obj q :=
  Msgs.set_ne _ _ h

theorem removeFromInFlightPQ_cases (h : Filed f)
    (hp : p ∈ f.inFlightPQ.slots ∨ (f.msgs.obj p).index = -1) :
    ∃ f', f.removeFromInFlightPQ p = some f' ∧ Filed f' ∧ Reindexed f.msgs f'.msgs ∧
      f'.inFlightMessages = f.inFlightMessages ∧
      (f'.inFlightPQ.slots = f.inFlightPQ.slots ∨
        f.inFlightPQ.slots.Perm (p :: f'.inFlightPQ.slots)) ∧
      (∀ q, q ∈ f'.inFlightPQ.slots ↔ q ∈ f.inFlightPQ.slots ∧ q ≠ p) ∧
      ∀ q ∉ f.inFlightPQ.slots, (f'.msgs.obj q).index = (f.msgs.obj q).index := by
  by_cases hpop : (f.msgs.obj p).index = -1
  · refine ⟨f, InFlight.removeFromInFlightPQ_of_neg hpop, h, Reindexed.refl _, rfl, Or.inl rfl,
      fun q => ?_, fun _ _ => rfl⟩
    exact ⟨fun hq => ⟨hq, fun e => h.mem_index (e ▸ hq) hpop⟩, fun hq => hq.1⟩
  · have hmem := hp.resolve_right hpop
    obtain ⟨k, hk, hr⟩ := InFlightPqueue.remove_removed (h := f.heap) h.indexed hmem
    obtain ⟨f', hf', hheap, hmap⟩ := InFlight.removeFromInFlightPQ_eq hpop hk
    subst hheap
    exact ⟨f', hf', h.reindexed hr.indexed hmap hr.reindexed, hr.reindexed, hmap, Or.inr hr.perm,
      fun q => hr.mem_iff h.indexed, hr.other⟩

/-! ### Steps -/

theorem Inv.perm {s : Sys} (h : Inv s) {threads : List PC} (hp : threads.Perm s.threads) :
    Inv { s with threads := threads } where
  filed := h.filed
  shape := h.shape.perm hp
  mappedLt := h.mappedLt
  queueLt := h.queueLt
  heldLt pc hpc := h.heldLt pc (hp.mem_iff.mp hpc)

/-- The new object of a message that enters the queue. -/
theorem Inv.enqueue {s : Sys} (h : Inv s) (m : Message) :
    Inv { s with
      inFlight := s.inFlight.write s.nextMsg m
      queue := s.queue ++ [s.nextMsg]
      nextMsg := s.nextMsg + 1 } := by
  have hmap : ¬ (tokens s.inFlight).mapped s.nextMsg := fun hm =>
    Nat.lt_irrefl _ (h.mappedLt _ hm)
  have hheap : s.nextMsg ∉ s.inFlight.inFlightPQ.slots := by
    intro hm
    rcases h.shape.heap _ hm with ⟨hm, _⟩ | ⟨after, ha⟩
    · exact hmap hm
    · exact Nat.lt_irrefl _ (h.heldLt _ ha _ rfl)
  have hheld : ∀ pc ∈ s.threads, pc.holds ≠ some s.nextMsg := fun pc hpc hh =>
    Nat.lt_irrefl _ (h.heldLt pc hpc _ hh)
  have hqueue : s.nextMsg ∉ s.queue := fun hq => Nat.lt_irrefl _ (h.queueLt _ hq)
  have hfiled := h.filed.write hheap (m := m) fun hm => (hmap hm).elim
  have hmapped : ∀ q, (tokens (s.inFlight.write s.nextMsg m)).mapped q ↔
      (tokens s.inFlight).mapped q := by
    intro q
    by_cases hq : q = s.nextMsg
    · subst hq
      refine ⟨fun hm => ?_, fun hm => (hmap hm).elim⟩
      -- a mapped message is filed under its ID, and this one was filed nowhere
      have hm : s.inFlight.inFlightMessages.lookup _ = some s.nextMsg := hm
      exact (hmap (by
        show s.inFlight.inFlightMessages.lookup _ = _
        rw [h.filed.keys _ _ hm]
        exact hm)).elim
    · show s.inFlight.inFlightMessages.lookup _ = _ ↔ _
      rw [write_obj_ne hq]
      rfl
  have hshape : Shape (tokens (s.inFlight.write s.nextMsg m)) s.queue s.threads := by
    refine h.shape.congr hmapped (fun q => Iff.rfl) fun q hq => ?_
    have hne : q ≠ s.nextMsg := by
      rintro rfl
      rcases hq with hm | ⟨after, ha⟩
      · exact hmap hm
      · exact hheld _ ha rfl
    show ((s.inFlight.write s.nextMsg m).msgs.obj q).index = -1 ↔ _
    rw [write_obj_ne hne]
    rfl
  refine ⟨hfiled, hshape.enqueue (fun hm => hmap ((hmapped _).mp hm)) hqueue hheld, ?_, ?_, ?_⟩
  · exact fun q hq => Nat.lt_succ_of_lt (h.mappedLt q ((hmapped q).mp hq))
  · intro q hq
    rcases List.mem_append.mp hq with hq | hq
    · exact Nat.lt_succ_of_lt (h.queueLt q hq)
    · rw [List.mem_singleton.mp hq]
      exact Nat.lt_succ_self _
  · exact fun pc hpc q hh => Nat.lt_succ_of_lt (h.heldLt pc hpc q hh)

theorem Inv.drop {s : Sys} (h : Inv s) (p : MsgPtr) : Inv { s with queue := s.queue.erase p } where
  filed := h.filed
  shape := h.shape.drop p
  mappedLt := h.mappedLt
  queueLt q hq := h.queueLt q (List.mem_of_mem_erase hq)
  heldLt := h.heldLt

/-- Assignments to a message in hand, or waiting, keep the invariant. -/
theorem Inv.write {s : Sys} (h : Inv s) {m : Message} (hid : m.id = (s.inFlight.msgs.obj p).id)
    (hm : ¬ (tokens s.inFlight).mapped p) (hr : ∀ after, PC.remove p after ∉ s.threads) :
    Inv { s with inFlight := s.inFlight.write p m } := by
  have hheap : p ∉ s.inFlight.inFlightPQ.slots := by
    intro hh
    rcases h.shape.heap p hh with ⟨hm', _⟩ | ⟨after, ha⟩
    · exact hm hm'
    · exact hr after ha
  have hmapped : ∀ q, (tokens (s.inFlight.write p m)).mapped q ↔ (tokens s.inFlight).mapped q := by
    intro q
    show s.inFlight.inFlightMessages.lookup ((s.inFlight.msgs.set p m).obj q).id = some q ↔
      s.inFlight.inFlightMessages.lookup (s.inFlight.msgs.obj q).id = some q
    by_cases hq : q = p
    · rw [hq, Msgs.set_self, hid]
    · rw [Msgs.set_ne _ _ hq]
  refine ⟨h.filed.write hheap fun _ => hid, h.shape.congr hmapped (fun q => Iff.rfl) ?_,
    fun q hq => h.mappedLt q ((hmapped q).mp hq), h.queueLt, h.heldLt⟩
  intro q hq
  have hne : q ≠ p := by
    rintro rfl
    rcases hq with hm' | ⟨after, ha⟩
    · exact hm hm'
    · exact hr after ha
  show ((s.inFlight.write p m).msgs.obj q).index = -1 ↔ _
  rw [write_obj_ne hne]
  rfl

/-- The invariant of a call's step, from what the step does to the in-flight part, to the shape and
to the pointers in use. -/
theorem Inv.advance {s : Sys} {pc pc' : PC} {rest : List PC} {queue : List MsgPtr}
    (h : Inv { s with threads := pc :: rest }) (hf : Filed f)
    (hs : Shape (tokens f) queue (pc' :: rest))
    (hm : ∀ q, (tokens f).mapped q → (tokens s.inFlight).mapped q ∨ pc.holds = some q)
    (hq : ∀ q ∈ queue, q ∈ s.queue ∨ pc.holds = some q)
    (hh : ∀ q, pc'.holds = some q → (tokens s.inFlight).mapped q ∨ pc.holds = some q) :
    Inv { s with inFlight := f, queue := queue, threads := pc' :: rest } where
  filed := hf
  shape := hs
  mappedLt q hq := (hm q hq).elim (h.mappedLt q) (h.heldLt pc List.mem_cons_self q)
  queueLt q hmem := (hq q hmem).elim (h.queueLt q) (h.heldLt pc List.mem_cons_self q)
  heldLt pc₁ hpc₁ q hq := by
    rcases List.mem_cons.mp hpc₁ with rfl | hpc₁
    · exact (hh q hq).elim (h.mappedLt q) (h.heldLt pc List.mem_cons_self q)
    · exact h.heldLt pc₁ (List.mem_cons_of_mem _ hpc₁) q hq

section Steps

variable {s : Sys} {rest : List PC}

theorem Inv.push (h : Inv { s with threads := .push p :: rest })
    {r : InFlight × List MsgPtr × PC}
    (hr : Sys.next s.opts s.inFlight s.queue (.push p) = some r) :
    Inv { s with inFlight := r.1, queue := r.2.1, threads := r.2.2 :: rest } := by
  have hshape : Shape (tokens s.inFlight) s.queue (.push p :: rest) := h.shape
  simp only [Sys.next, InFlight.pushInFlightMessage] at hr
  cases hl : s.inFlight.inFlightMessages.lookup (s.inFlight.msgs.obj p).id with
  | some q =>
      rw [hl] at hr
      cases hr
      exact h.advance h.filed (hshape.release (Or.inl rfl) (by simp) (by simp) (by simp))
        (fun _ => Or.inl) (fun _ => Or.inl) (by simp [PC.holds])
  | none =>
      rw [hl] at hr
      cases hr
      have hm := mapped_insert hl
      refine h.advance (h.filed.insert p) (hshape.push hm (fun _ => Iff.rfl) fun _ => Iff.rfl)
        ?_ (fun _ => Or.inl) fun _ => Or.inr
      exact fun q hq => ((hm q).mp hq).elim (fun e => Or.inr (congrArg some e.symm)) Or.inl

theorem Inv.add (h : Inv { s with threads := .add p :: rest }) :
    Inv { s with inFlight := s.inFlight.addToInFlightPQ p, threads := .done :: rest } := by
  have hshape : Shape (tokens s.inFlight) s.queue (.add p :: rest) := h.shape
  have hnot : p ∉ s.inFlight.inFlightPQ.slots := hshape.held_notHeap rfl (by simp)
  have ha := InFlightPqueue.push_added (h := s.inFlight.heap) h.filed.indexed hnot
  have hmap : (s.inFlight.addToInFlightPQ p).inFlightMessages = s.inFlight.inFlightMessages := rfl
  have hm := mapped_reindexed hmap ha.reindexed
  refine h.advance (h.filed.reindexed ha.indexed rfl ha.reindexed) ?_ (fun q hq => ?_)
    (fun _ => Or.inl) (by simp [PC.holds])
  · refine hshape.add hm (fun q => ha.mem_iff) fun q hq hne => ?_
    show ((s.inFlight.addToInFlightPQ p).msgs.obj q).index = -1 ↔ (s.inFlight.msgs.obj q).index = -1
    have hother : ((s.inFlight.addToInFlightPQ p).msgs.obj q).index =
      (s.inFlight.msgs.obj q).index := ha.other q hq hne
    rw [hother]
  · exact Or.inl ((hm q).mp hq)

theorem Inv.remove {after : After} (h : Inv { s with threads := .remove p after :: rest })
    {r : InFlight × List MsgPtr × PC}
    (hr : Sys.next s.opts s.inFlight s.queue (.remove p after) = some r) :
    Inv { s with inFlight := r.1, queue := r.2.1, threads := r.2.2 :: rest } := by
  have hshape : Shape (tokens s.inFlight) s.queue (.remove p after :: rest) := h.shape
  obtain ⟨f', hf', hfiled, hre, hmap, _, hmem, hidx⟩ :=
    removeFromInFlightPQ_cases h.filed (hshape.removing p after List.mem_cons_self)
  have hm := mapped_reindexed hmap hre
  have hnext : ∀ pc, pc = PC.push p ∨ pc = PC.put p ∨ pc = PC.done →
      Inv { s with inFlight := f', threads := pc :: rest } := by
    intro pc hpc
    refine h.advance hfiled (hshape.remove hpc hm hmem fun q hq => ?_)
      (fun q hq => Or.inl ((hm q).mp hq)) (fun _ => Or.inl) ?_
    · show (f'.msgs.obj q).index = -1 ↔ (s.inFlight.msgs.obj q).index = -1
      rw [hidx q hq]
    · rcases hpc with rfl | rfl | rfl
      · exact fun _ => Or.inr
      · exact fun _ => Or.inr
      · simp [PC.holds]
  simp only [Sys.next, hf'] at hr
  cases after with
  | touch clientMsgTimeout now =>
      cases hr
      have hpush := hnext (.push p) (Or.inl rfl)
      refine hpush.write rfl (hpush.shape.held p _ List.mem_cons_self rfl (by simp)) ?_
      intro after ha
      rcases List.mem_cons.mp ha with heq | ha
      · cases heq
      · exact (hshape.other (p := p) rfl).2 _ ha rfl
  | finish =>
      cases hr
      exact hnext .done (Or.inr (Or.inr rfl))
  | requeue =>
      cases hr
      exact hnext (.put p) (Or.inr (Or.inl rfl))

theorem Inv.scan {t : ℤ} (h : Inv { s with threads := .scan t :: rest })
    {r : InFlight × List MsgPtr × PC}
    (hr : Sys.next s.opts s.inFlight s.queue (.scan t) = some r) :
    Inv { s with inFlight := r.1, queue := r.2.1, threads := r.2.2 :: rest } := by
  have hshape : Shape (tokens s.inFlight) s.queue (.scan t :: rest) := h.shape
  simp only [Sys.next] at hr
  cases hs : s.inFlight.shiftInFlight t with
  | none =>
      rw [hs] at hr
      cases hr
      exact h.advance h.filed (hshape.release (Or.inl rfl) (by simp) (by simp) (by simp))
        (fun _ => Or.inl) (fun _ => Or.inl) (by simp [PC.holds])
  | some x =>
      obtain ⟨p, f'⟩ := x
      rw [hs] at hr
      cases hr
      obtain ⟨hshift, hmap⟩ := InFlight.shiftInFlight_eq hs
      obtain ⟨hrem, _⟩ := InFlightPqueue.peekAndShift_removed h.filed.indexed hshift
      have hm := mapped_reindexed hmap hrem.reindexed
      refine h.advance (h.filed.reindexed hrem.indexed hmap hrem.reindexed) ?_
        (fun q hq => Or.inl ((hm q).mp hq)) (fun _ => Or.inl) (by simp [PC.holds])
      refine hshape.shift hm (fun q => hrem.mem_iff h.filed.indexed) hrem.index_eq
        fun q hq => ?_
      show (f'.msgs.obj q).index = -1 ↔ (s.inFlight.msgs.obj q).index = -1
      have hother : (f'.msgs.obj q).index = (s.inFlight.msgs.obj q).index := hrem.other q hq
      rw [hother]

theorem Inv.scanPop {t : ℤ} (h : Inv { s with threads := .scanPop p t :: rest })
    (hg : Sys.ScanPopGood { s with threads := .scanPop p t :: rest } p)
    {r : InFlight × List MsgPtr × PC}
    (hr : Sys.next s.opts s.inFlight s.queue (.scanPop p t) = some r) :
    Inv { s with inFlight := r.1, queue := r.2.1, threads := r.2.2 :: rest } := by
  have hshape : Shape (tokens s.inFlight) s.queue (.scanPop p t :: rest) := h.shape
  simp only [Sys.next, InFlight.popInFlightMessage] at hr
  have hfail : ¬ (tokens s.inFlight).mapped p →
      Inv { s with threads := .done :: rest } := fun hnot =>
    h.advance h.filed
      (hshape.release (Or.inl rfl) (by simp) (by simp) fun q t' he => by cases he; exact hnot)
      (fun _ => Or.inl) (fun _ => Or.inl) (by simp [PC.holds])
  cases hl : s.inFlight.inFlightMessages.lookup (s.inFlight.msgs.obj p).id with
  | none =>
      rw [hl] at hr
      cases hr
      refine hfail fun hm => ?_
      have hm : s.inFlight.inFlightMessages.lookup (s.inFlight.msgs.obj p).id = some p := hm
      rw [hl] at hm
      cases hm
  | some q =>
      rw [hl] at hr
      by_cases hc : (s.inFlight.msgs.obj q).clientID = (s.inFlight.msgs.obj p).clientID
      · obtain ⟨rfl, hnot, hadd⟩ := hg q hl hc
        simp only [ne_eq, not_true_eq_false, if_false, Option.some.injEq] at hr
        subst hr
        have hm := mapped_erase h.filed hl
        refine h.advance (h.filed.erase _) ?_ (fun r hr => Or.inl ((hm r).mp hr).1)
          (fun _ => Or.inl) ?_
        · exact hshape.scanPop hl hnot (fun ha => hadd (List.mem_cons_of_mem _ ha)) hm
            (fun _ => Iff.rfl) fun _ => Iff.rfl
        · intro r hr
          cases hr
          exact Or.inl hl
      · simp only [ne_eq, hc, not_false_eq_true, if_true, Option.some.injEq] at hr
        subst hr
        refine hfail fun hm => hc ?_
        have hm : s.inFlight.inFlightMessages.lookup (s.inFlight.msgs.obj p).id = some p := hm
        rw [hl] at hm
        cases hm
        rfl

/-- **One step of a call.** -/
theorem Inv.next {pc : PC} (h : Inv { s with threads := pc :: rest })
    (hg : Sys.AdvanceGood { s with threads := pc :: rest } pc)
    {r : InFlight × List MsgPtr × PC} (hr : Sys.next s.opts s.inFlight s.queue pc = some r) :
    Inv { s with inFlight := r.1, queue := r.2.1, threads := r.2.2 :: rest } := by
  have hput : ∀ {pc pc' : PC} {p : MsgPtr}, Inv { s with threads := pc :: rest } →
      (pc = .put p ∧ pc' = .done ∨ ∃ t, pc = .scanPut p t ∧ pc' = .scan t) →
      Inv { s with queue := s.queue ++ [p], threads := pc' :: rest } := by
    intro pc pc' p h hpc
    have hp : pc.holds = some p := by rcases hpc with ⟨rfl, _⟩ | ⟨t, rfl, _⟩ <;> rfl
    refine h.advance h.filed (Shape.put (h := h.shape) hpc) (fun _ => Or.inl) (fun q hq => ?_)
      fun q hq => ?_
    · rcases List.mem_append.mp hq with hq | hq
      · exact Or.inl hq
      · rw [List.mem_singleton.mp hq]
        exact Or.inr hp
    · rcases hpc with ⟨_, rfl⟩ | ⟨t, _, rfl⟩ <;> cases hq
  cases pc with
  | push p => exact h.push hr
  | add p =>
      cases hr
      exact h.add
  | remove p after => exact h.remove hr
  | put p =>
      cases hr
      exact hput h (Or.inl ⟨rfl, rfl⟩)
  | scan t => exact h.scan hr
  | scanPop p t => exact h.scanPop hg hr
  | scanPut p t =>
      cases hr
      exact hput h (Or.inr ⟨t, rfl, rfl⟩)
  | drain =>
      cases hr
      exact h.advance h.filed (Shape.drain h.shape) (fun _ => Or.inl) (fun _ hq => by cases hq)
        (by simp [PC.holds])
  | done =>
      cases hr
      exact h

end Steps

/-! ### Acts -/

variable {s s' : Sys}

/-- A client's call begins. -/
theorem Inv.pop (h : Inv s) {clientID : String} {id : MessageID} (after : After)
    (hg : s.PopGood clientID id) : Inv (s.pop clientID id after) := by
  unfold Sys.pop InFlight.popInFlightMessage
  cases hl : s.inFlight.inFlightMessages.lookup id with
  | none => exact h
  | some p =>
      by_cases hc : (s.inFlight.msgs.obj p).clientID = clientID
      · simp only [ne_eq, hc, not_true_eq_false, if_false]
        have hm := mapped_erase h.filed hl
        have hmapped : (tokens s.inFlight).mapped p := by
          show s.inFlight.inFlightMessages.lookup _ = _
          rw [h.filed.keys id p hl]
          exact hl
        refine ⟨h.filed.erase id, h.shape.pop hmapped (hg p hl hc) after hm (fun _ => Iff.rfl)
          fun _ => Iff.rfl, fun q hq => h.mappedLt q ((hm q).mp hq).1, h.queueLt, ?_⟩
        intro pc hpc q hq
        rcases List.mem_cons.mp hpc with rfl | hpc
        · cases hq
          exact h.mappedLt _ hmapped
        · exact h.heldLt pc hpc q hq
      · simp only [ne_eq, hc, not_false_eq_true, if_true]
        exact h

theorem Inv.start (h : Inv s) {p : MsgPtr} (hp : p ∈ s.queue) {m : Message}
    (hid : m.id = (s.inFlight.msgs.obj p).id) :
    Inv { s with
      inFlight := s.inFlight.write p m
      queue := s.queue.erase p
      threads := .push p :: s.threads } := by
  have hw := h.write hid (h.shape.queued p hp) fun after ha => h.shape.notHeld hp _ ha rfl
  refine ⟨hw.filed, Shape.start hw.shape hp, hw.mappedLt,
    fun q hq => h.queueLt q (List.mem_of_mem_erase hq), ?_⟩
  intro pc hpc q hq
  rcases List.mem_cons.mp hpc with rfl | hpc
  · cases hq
    exact h.queueLt _ hp
  · exact h.heldLt pc hpc q hq

theorem Inv.reset (h : Inv s) (hg : ∀ pc ∈ s.threads, s.Settled pc) (n : ℕ) (hn : 1 ≤ n) :
    Inv { s with
      inFlight := s.inFlight.resetInFlight n hn
      threads := .drain :: s.threads } := by
  have hm : ∀ q, ¬ (tokens (s.inFlight.resetInFlight n hn)).mapped q := by
    intro q hq
    have hq : AList.lookup (s.inFlight.msgs.obj q).id (∅ : GoMap MessageID MsgPtr) = some q := hq
    rw [AList.lookup_empty] at hq
    cases hq
  refine ⟨⟨fun i x hx => by simp [InFlight.heap, InFlight.resetInFlight, Slice.new] at hx,
    fun l r hr => ?_⟩, ?_, fun q hq => (hm q hq).elim, h.queueLt, ?_⟩
  · have hr : AList.lookup l (∅ : GoMap MessageID MsgPtr) = some r := hr
    rw [AList.lookup_empty] at hr
    cases hr
  · refine h.shape.reset (fun q => ⟨fun ha => hg _ ha, fun after ha => hg _ ha⟩) hm
      (fun q hq => ?_) fun _ => Iff.rfl
    exact absurd (show q ∈ ([] : List MsgPtr) from hq) List.not_mem_nil
  · intro pc hpc q hq
    rcases List.mem_cons.mp hpc with rfl | hpc
    · cases hq
    · exact h.heldLt pc hpc q hq

/-- Replacing entry `i` of a list, up to order. -/
theorem set_perm {α : Type*} {l : List α} {i : ℕ} {a : α} (h : l[i]? = some a) :
    (a :: l.eraseIdx i).Perm l ∧ ∀ b, (l.set i b).Perm (b :: l.eraseIdx i) := by
  obtain ⟨hi, rfl⟩ := List.getElem?_eq_some_iff.mp h
  exact ⟨List.getElem_cons_eraseIdx_perm hi, fun b => List.set_perm_cons_eraseIdx hi b⟩

/-- **The step.** A good step keeps the invariant. -/
theorem Inv.step {a : Act} (h : Inv s) (hg : s.Good a) (hs : s.step a = some s') : Inv s' := by
  cases a with
  | publish m =>
      cases hs
      exact h.enqueue m
  | reload p =>
      simp only [Sys.step] at hs
      split at hs
      · cases hs
        exact (h.drop p).enqueue _
      · cases hs
  | startInFlightTimeout p clientID timeout now =>
      simp only [Sys.step] at hs
      split at hs
      · rename_i hp
        cases hs
        exact h.start hp rfl
      · cases hs
  | touchMessage clientID id clientMsgTimeout now =>
      cases hs
      exact h.pop _ hg
  | finishMessage clientID id =>
      cases hs
      exact h.pop _ hg
  | requeueMessage clientID id =>
      cases hs
      exact h.pop _ hg
  | processInFlightQueue t =>
      cases hs
      refine ⟨h.filed, h.shape.spawn_scan t, h.mappedLt, h.queueLt, fun pc hpc q hq => ?_⟩
      rcases List.mem_cons.mp hpc with rfl | hpc
      · cases hq
      · exact h.heldLt pc hpc q hq
  | empty =>
      cases hs
      exact h.reset hg _ _
  | advance i =>
      simp only [Sys.step] at hs
      split at hs
      · cases hs
      · rename_i pc hpc
        obtain ⟨r, hr, rfl⟩ := Option.map_eq_some_iff.mp hs
        obtain ⟨hfrom, hto⟩ := set_perm hpc
        have hgood : Sys.AdvanceGood { s with threads := pc :: s.threads.eraseIdx i } pc := by
          have hpcg := hg pc hpc
          cases pc with
          | scanPop p t =>
              intro q hq hc
              obtain ⟨hqp, hnot, hadd⟩ := hpcg q hq hc
              exact ⟨hqp, hnot, fun ha => hadd (hfrom.mem_iff.mp ha)⟩
          | _ => trivial
        exact ((h.perm hfrom).next hgood hr).perm (hto r.2.2)
  | fail i =>
      simp only [Sys.step] at hs
      split at hs
      · cases hs
      · rename_i pc hpc
        cases hs
        obtain ⟨hfrom, hto⟩ := set_perm hpc
        have h' := h.perm hfrom
        have hrel : ∀ pc', (pc' = .done ∨ ∃ t, pc' = .scan t) → (∀ q, pc ≠ .add q) →
            (∀ q after, pc ≠ .remove q after) → (∀ q t, pc ≠ .scanPop q t) →
            Inv { s with threads := s.threads.set i pc' } := by
          intro pc' hpc' hadd hrem hpop
          refine Inv.perm (s := { s with threads := pc' :: s.threads.eraseIdx i })
            (h'.advance h.filed (Shape.release h'.shape hpc' hadd hrem fun q t he => (hpop q t he).elim)
              (fun _ => Or.inl) (fun _ => Or.inl) ?_) (hto pc')
          rcases hpc' with rfl | ⟨t, rfl⟩ <;> simp [PC.holds]
        cases pc with
        | put p => exact hrel .done (Or.inl rfl) (by simp) (by simp) (by simp)
        | scanPut p t => exact hrel (.scan t) (Or.inr ⟨t, rfl⟩) (by simp) (by simp) (by simp)
        | _ => exact (h.perm hfrom).perm (hto _)

theorem init_inv (opts : ChannelOptions) : Inv (Sys.init opts) where
  filed :=
    { indexed := fun i x hx => by simp [InFlight.heap, Sys.init, Slice.new] at hx
      keys := fun l r hr => by
        have hr : AList.lookup l (∅ : GoMap MessageID MsgPtr) = some r := hr
        rw [AList.lookup_empty] at hr
        cases hr }
  shape :=
    { heap := fun q hq => absurd (show q ∈ ([] : List MsgPtr) from hq) List.not_mem_nil
      map := fun q hq => by
        have hq : AList.lookup (((Sys.init opts).inFlight.msgs.obj q).id)
          (∅ : GoMap MessageID MsgPtr) = some q := hq
        rw [AList.lookup_empty] at hq
        cases hq
      adding := fun q hq => by cases hq
      removing := fun q after hq => by cases hq
      held := fun q pc hpc => by cases hpc
      queued := fun q hq => by cases hq
      unique := List.nodup_nil }
  mappedLt q hq := by
    have hq : AList.lookup (((Sys.init opts).inFlight.msgs.obj q).id)
      (∅ : GoMap MessageID MsgPtr) = some q := hq
    rw [AList.lookup_empty] at hq
    cases hq
  queueLt q hq := by cases hq
  heldLt pc hpc := by cases hpc

theorem values_nodup {f : InFlight} (h : Filed f) : f.inFlightMessages.values.Nodup := by
  refine List.Nodup.of_map (fun p => (f.msgs.obj p).id) ?_
  have hkeys : f.inFlightMessages.values.map (fun p => (f.msgs.obj p).id) =
      f.inFlightMessages.keys := by
    rw [GoMap.values, AList.keys, List.keys, List.map_map]
    apply List.map_congr_left
    rintro ⟨k, p⟩ he
    exact h.keys k p (AList.mem_lookup_iff.mpr he)
  rw [hkeys]
  exact f.inFlightMessages.keys_nodup

theorem Inv.bookkept (h : Inv s) : Bookkept s where
  remove p after ha := by
    obtain ⟨f', hf', _, _, _, hslots, _⟩ :=
      removeFromInFlightPQ_cases h.filed (h.shape.removing p after ha)
    exact ⟨f', hf', hslots⟩
  tracked hidle := by
    refine (List.perm_ext_iff_of_nodup (values_nodup h.filed) h.filed.indexed.nodup).mpr fun p => ?_
    rw [GoMap.mem_values]
    constructor
    · rintro ⟨id, hl⟩
      have hm : (tokens s.inFlight).mapped p := by
        show s.inFlight.inFlightMessages.lookup _ = _
        rw [h.filed.keys id p hl]
        exact hl
      rcases h.shape.map p hm with hh | ha | ⟨_, t, ht⟩
      · exact hh
      · cases hidle _ ha
      · cases hidle _ ht
    · intro hp
      rcases h.shape.heap p hp with ⟨hm, _⟩ | ⟨after, ha⟩
      · exact ⟨_, hm⟩
      · cases hidle _ ha
  index _ := h.filed.indexed
  queued _ p hp := h.shape.queue_notHeap hp

/-- **Bookkeeping.** In every run whose steps are all good, every state is in order. -/
theorem in_flight_bookkeeping (opts : ChannelOptions) (acts : List Act) (s : Sys)
    (hg : Runs.Along Sys.step Sys.Good (Sys.init opts) acts)
    (hr : Runs.run Sys.step (Sys.init opts) acts = some s) : Bookkept s :=
  (Runs.invariant_along (fun _ _ _ h hg hs => h.step hg hs) acts _ _ (init_inv opts) hg hr).bookkept

/-! ### A good run and two bad ones -/

def options : ChannelOptions := ⟨10, 100⟩

def message : Message := newMessage (Vector.replicate 16 1) [7] 0

/-- Deliver, touch and finish one message while a scan runs and another message is delivered. -/
def goodActs : List Act :=
  [.publish message, .publish (newMessage (Vector.replicate 16 2) [] 0),
    .startInFlightTimeout 0 "a" 5 0, .startInFlightTimeout 1 "b" 5 0, .advance 1, .advance 0,
    .advance 1, .advance 0, .processInFlightQueue 3, .touchMessage "a" (Vector.replicate 16 1) 9 4,
    .advance 1, .advance 0, .advance 0, .advance 0, .finishMessage "a" (Vector.replicate 16 1),
    .advance 0]

theorem in_flight_bookkeeping_good :
    ∃ s, Runs.run Sys.step (Sys.init options) goodActs = some s ∧ Bookkept s :=
  ⟨(Runs.run Sys.step (Sys.init options) goodActs).get (by decide +kernel),
    (Option.some_get _).symm,
    in_flight_bookkeeping options goodActs _ (by decide +kernel) (Option.some_get _).symm⟩

/-- A message times out, goes through the backend and is delivered to the same client again, and
the client's `FIN` for the first delivery arrives between the push and the add. -/
def lateFinish : List Act :=
  [.publish message, .startInFlightTimeout 0 "a" 5 0, .advance 0, .advance 0,
    .processInFlightQueue 9, .advance 0, .advance 0, .advance 0, .advance 0, .reload 0,
    .startInFlightTimeout 1 "a" 5 10, .advance 0, .finishMessage "a" (Vector.replicate 16 1)]

/-- A client requeues a message while its own `TOUCH` stands between the push and the add. -/
def requeueInTouch : List Act :=
  [.publish message, .startInFlightTimeout 0 "a" 5 0, .advance 0, .advance 0,
    .touchMessage "a" (Vector.replicate 16 1) 5 1, .advance 0, .advance 0,
    .requeueMessage "a" (Vector.replicate 16 1), .advance 0, .advance 0, .advance 1]

/-- **The bookkeeping fails** without the condition. A late `FIN` indexes the empty heap out of
range; and after a `REQ` in the middle of a `TOUCH`, with no call in progress, the message is both
queued and in the heap. -/
theorem in_flight_bookkeeping_fails :
    (∃ s, Runs.run Sys.step (Sys.init options) lateFinish = some s ∧
      PC.remove 1 .finish ∈ s.threads ∧ ¬ RemovesOnly s.inFlight 1 ∧ ¬ Bookkept s) ∧
    (∃ s, Runs.run Sys.step (Sys.init options) requeueInTouch = some s ∧
      (∀ pc ∈ s.threads, pc = .done) ∧ 0 ∈ s.queue ∧ 0 ∈ s.inFlight.inFlightPQ.slots ∧
      ¬ Bookkept s) := by
  constructor
  · obtain ⟨s, hs, hmem, hnone⟩ := Runs.exists_of_run Sys.step (Sys.init options) lateFinish
      (fun s => PC.remove 1 .finish ∈ s.threads ∧
        (s.inFlight.removeFromInFlightPQ 1).isNone = true) (by decide +kernel)
    have hbad : ¬ RemovesOnly s.inFlight 1 := by
      rintro ⟨f', hf', _⟩
      rw [hf'] at hnone
      cases hnone
    exact ⟨s, hs, hmem, hbad, fun hb => hbad (hb.remove 1 .finish hmem)⟩
  · obtain ⟨s, hs, hidle, hqueue, hheap⟩ := Runs.exists_of_run Sys.step
      (Sys.init options) requeueInTouch
      (fun s => (∀ pc ∈ s.threads, pc = .done) ∧ 0 ∈ s.queue ∧
        0 ∈ s.inFlight.inFlightPQ.slots) (by decide +kernel)
    exact ⟨s, hs, hidle, hqueue, hheap, fun hb => hb.queued hidle 0 hqueue hheap⟩

end Interleaving

end Xmq
