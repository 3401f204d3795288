import Xmq.InFlightSteps

/-!
# Who has each message

Seen from far enough, the interleaving of the in-flight calls moves tokens: a message is mapped or
not, in the heap or not, popped (its index is `-1`) or not, and it waits in the queue or is in the
hands of one call. `Shape` says which combinations occur; there is one lemma for each kind of step.
That the code's steps are such moves is shown in the module after this one.
-/

namespace Xmq

namespace Interleaving

/-- Which messages are in the map, which in the heap, and which have left the heap. -/
structure Tokens where
  mapped : MsgPtr → Prop
  heap : MsgPtr → Prop
  popped : MsgPtr → Prop

/-- The map and the heap agree up to the calls in progress. -/
structure Shape (k : Tokens) (queue : List MsgPtr) (threads : List PC) : Prop where
  /-- What the heap holds is mapped, or a call is about to remove it. -/
  heap : ∀ p, k.heap p → k.mapped p ∧ .add p ∉ threads ∨ ∃ after, .remove p after ∈ threads
  /-- What is mapped is in the heap, or a call is about to add it, or a scan has shifted it. -/
  map : ∀ p, k.mapped p →
    k.heap p ∨ .add p ∈ threads ∨ k.popped p ∧ ∃ t, .scanPop p t ∈ threads
  adding : ∀ p, .add p ∈ threads → k.mapped p
  removing : ∀ p after, .remove p after ∈ threads → k.heap p ∨ k.popped p
  held : ∀ p pc, pc ∈ threads → pc.holds = some p → pc ≠ .add p → ¬ k.mapped p
  queued : ∀ p ∈ queue, ¬ k.mapped p
  /-- No message waits twice, is in two calls' hands, or both. -/
  unique : (queue ++ threads.filterMap PC.holds).Nodup

variable {k k' : Tokens} {queue : List MsgPtr} {threads rest : List PC} {p : MsgPtr}

theorem Shape.perm (h : Shape k queue threads) {threads' : List PC} (hp : threads'.Perm threads) :
    Shape k queue threads' where
  heap q hq := by
    simp only [hp.mem_iff]
    exact h.heap q hq
  map q hq := by
    simp only [hp.mem_iff]
    exact h.map q hq
  adding q hq := h.adding q (hp.mem_iff.mp hq)
  removing q after hq := h.removing q after (hp.mem_iff.mp hq)
  held q pc hpc := h.held q pc (hp.mem_iff.mp hpc)
  queued := h.queued
  unique := ((hp.filterMap PC.holds).append_left queue).nodup_iff.mpr h.unique

/-- The message a call holds does not wait, and no other call holds it. -/
theorem Shape.other {pc : PC} (h : Shape k queue (pc :: rest)) (hp : pc.holds = some p) :
    p ∉ queue ∧ ∀ pc' ∈ rest, pc'.holds ≠ some p := by
  have hu := h.unique
  rw [List.filterMap_cons_some hp] at hu
  have hn := List.nodup_append.mp hu
  refine ⟨fun hq => hn.2.2 p hq p List.mem_cons_self rfl, fun pc' hpc' hh => ?_⟩
  exact (List.nodup_cons.mp hn.2.1).1 (List.mem_filterMap.mpr ⟨pc', hpc', hh⟩)

/-- No call holds a message that waits. -/
theorem Shape.notHeld (h : Shape k queue threads) (hq : p ∈ queue) :
    ∀ pc ∈ threads, pc.holds ≠ some p := fun pc hpc hh =>
  (List.nodup_append.mp h.unique).2.2 p hq p (List.mem_filterMap.mpr ⟨pc, hpc, hh⟩) rfl

/-- A waiting message is not in the heap. -/
theorem Shape.queue_notHeap (h : Shape k queue threads) (hq : p ∈ queue) : ¬ k.heap p := by
  intro hh
  rcases h.heap p hh with ⟨hm, _⟩ | ⟨after, ha⟩
  · exact h.queued p hq hm
  · exact h.notHeld hq _ ha rfl

/-- A message in a call's hands is in the heap only when the call is about to remove it. -/
theorem Shape.held_notHeap {pc : PC} (h : Shape k queue (pc :: rest)) (hp : pc.holds = some p)
    (hr : ∀ after, pc ≠ .remove p after) : ¬ k.heap p := by
  obtain ⟨_, ho⟩ := h.other hp
  intro hh
  rcases h.heap p hh with ⟨hm, hadd⟩ | ⟨after, ha⟩
  · by_cases hpc : pc = .add p
    · exact hadd (hpc ▸ List.mem_cons_self)
    · exact h.held p pc List.mem_cons_self hp hpc hm
  · rcases List.mem_cons.mp ha with heq | hrest
    · exact hr after heq.symm
    · exact ho _ hrest rfl

/-! ### Calls and messages that come and go -/

/-- A call that files nothing and removes nothing is over. -/
theorem Shape.finish {pc : PC} (h : Shape k queue (pc :: rest)) (hadd : ∀ q, pc ≠ .add q)
    (hrem : ∀ q after, pc ≠ .remove q after)
    (hpop : ∀ q t, pc = .scanPop q t → ¬ k.mapped q) : Shape k queue rest where
  heap q hq := by
    rcases h.heap q hq with ⟨hm, ha⟩ | ⟨after, ha⟩
    · exact .inl ⟨hm, fun hin => ha (List.mem_cons_of_mem _ hin)⟩
    · exact .inr ⟨after, (List.mem_cons.mp ha).resolve_left fun heq => hrem q after heq.symm⟩
  map q hq := by
    rcases h.map q hq with hh | ha | ⟨hg, t, ht⟩
    · exact .inl hh
    · exact .inr (.inl ((List.mem_cons.mp ha).resolve_left fun heq => hadd q heq.symm))
    · have hin := (List.mem_cons.mp ht).resolve_left fun heq => hpop q t heq.symm hq
      exact .inr (.inr ⟨hg, t, hin⟩)
  adding q hq := h.adding q (List.mem_cons_of_mem _ hq)
  removing q after hq := h.removing q after (List.mem_cons_of_mem _ hq)
  held q pc' hpc' := h.held q pc' (List.mem_cons_of_mem _ hpc')
  queued := h.queued
  unique := by
    have hsub : (rest.filterMap PC.holds).Sublist ((pc :: rest).filterMap PC.holds) :=
      (List.sublist_cons_self pc rest).filterMap PC.holds
    exact h.unique.sublist (List.Sublist.append_left hsub queue)

/-- A call joins that neither files nor removes; what it holds is not mapped. -/
theorem Shape.join {pc : PC} (h : Shape k queue threads) (hadd : ∀ q, pc ≠ .add q)
    (hrem : ∀ q after, pc ≠ .remove q after) (hheld : ∀ q, pc.holds = some q → ¬ k.mapped q)
    (hunique : (queue ++ (pc :: threads).filterMap PC.holds).Nodup) :
    Shape k queue (pc :: threads) where
  heap q hq := by
    rcases h.heap q hq with ⟨hm, ha⟩ | ⟨after, ha⟩
    · refine .inl ⟨hm, fun hin => ?_⟩
      exact ha ((List.mem_cons.mp hin).resolve_left fun heq => hadd q heq.symm)
    · exact .inr ⟨after, List.mem_cons_of_mem _ ha⟩
  map q hq := by
    rcases h.map q hq with hh | ha | ⟨hg, t, ht⟩
    · exact .inl hh
    · exact .inr (.inl (List.mem_cons_of_mem _ ha))
    · exact .inr (.inr ⟨hg, t, List.mem_cons_of_mem _ ht⟩)
  adding q hq := h.adding q ((List.mem_cons.mp hq).resolve_left fun heq => hadd q heq.symm)
  removing q after hq :=
    h.removing q after ((List.mem_cons.mp hq).resolve_left fun heq => hrem q after heq.symm)
  held q pc' hpc' hh hne := by
    rcases List.mem_cons.mp hpc' with rfl | hpc'
    · exact hheld q hh
    · exact h.held q pc' hpc' hh hne
  queued := h.queued
  unique := hunique

theorem Shape.drop (h : Shape k queue threads) (p : MsgPtr) : Shape k (queue.erase p) threads where
  heap := h.heap
  map := h.map
  adding := h.adding
  removing := h.removing
  held := h.held
  queued q hq := h.queued q (List.mem_of_mem_erase hq)
  unique := h.unique.sublist (List.Sublist.append_right (List.erase_sublist) _)

/-- A message that nobody has joins the queue. -/
theorem Shape.enqueue (h : Shape k queue threads) (hm : ¬ k.mapped p) (hq : p ∉ queue)
    (ho : ∀ pc ∈ threads, pc.holds ≠ some p) : Shape k (queue ++ [p]) threads where
  heap := h.heap
  map := h.map
  adding := h.adding
  removing := h.removing
  held := h.held
  queued q hmem := by
    rcases List.mem_append.mp hmem with hmem | hmem
    · exact h.queued q hmem
    · rw [List.mem_singleton.mp hmem]
      exact hm
  unique := by
    rw [List.append_assoc, List.singleton_append]
    refine List.nodup_middle.mpr (List.nodup_cons.mpr ⟨?_, h.unique⟩)
    rw [List.mem_append, List.mem_filterMap]
    rintro (hmem | ⟨pc, hpc, hh⟩)
    · exact hq hmem
    · exact ho pc hpc hh

/-! ### Steps of a call -/

/-- `pushInFlightMessage` files the message. -/
theorem Shape.push (h : Shape k queue (.push p :: rest))
    (hm : ∀ q, k'.mapped q ↔ q = p ∨ k.mapped q) (hh : ∀ q, k'.heap q ↔ k.heap q)
    (hg : ∀ q, k'.popped q ↔ k.popped q) : Shape k' queue (.add p :: rest) := by
  obtain ⟨hq, ho⟩ := h.other (p := p) rfl
  have hnh := h.held_notHeap (p := p) rfl (fun after => by simp)
  obtain ⟨heap, map, adding, removing, held, queued, unique⟩ := h
  exact ⟨by grind [PC.holds], by grind, by grind, by grind, by grind [PC.holds], by grind,
    unique⟩

/-- `addToInFlightPQ` puts the message into the heap. -/
theorem Shape.add (h : Shape k queue (.add p :: rest)) (hm : ∀ q, k'.mapped q ↔ k.mapped q)
    (hh : ∀ q, k'.heap q ↔ q = p ∨ k.heap q)
    (hg : ∀ q, ¬ k.heap q → q ≠ p → (k'.popped q ↔ k.popped q)) : Shape k' queue (.done :: rest) := by
  obtain ⟨hq, ho⟩ := h.other (p := p) rfl
  obtain ⟨heap, map, adding, removing, held, queued, unique⟩ := h
  refine ⟨by grind [PC.holds], by grind, by grind, by grind, by grind [PC.holds], by grind, ?_⟩
  exact unique.sublist (List.Sublist.append_left (List.sublist_cons_self _ _) queue)

/-- `popInFlightMessage`, by a client, of a message that no call is about to add. -/
theorem Shape.pop (h : Shape k queue threads) (hp : k.mapped p) (ha : .add p ∉ threads)
    (after : After) (hm : ∀ q, k'.mapped q ↔ k.mapped q ∧ q ≠ p)
    (hh : ∀ q, k'.heap q ↔ k.heap q) (hg : ∀ q, k'.popped q ↔ k.popped q) :
    Shape k' queue (.remove p after :: threads) := by
  obtain ⟨heap, map, adding, removing, held, queued, unique⟩ := h
  refine ⟨by grind, by grind, by grind, by grind, by grind [PC.holds], by grind, ?_⟩
  -- the message was mapped, so nobody else had it
  show (queue ++ p :: threads.filterMap PC.holds).Nodup
  refine List.nodup_middle.mpr (List.nodup_cons.mpr ⟨?_, unique⟩)
  rw [List.mem_append, List.mem_filterMap]
  grind [PC.holds]

/-- `removeFromInFlightPQ` takes the message out of the heap, if it is still there. -/
theorem Shape.remove {after : After} (h : Shape k queue (.remove p after :: rest)) {pc : PC}
    (hpc : pc = .push p ∨ pc = .put p ∨ pc = .done) (hm : ∀ q, k'.mapped q ↔ k.mapped q)
    (hh : ∀ q, k'.heap q ↔ k.heap q ∧ q ≠ p)
    (hg : ∀ q, ¬ k.heap q → (k'.popped q ↔ k.popped q)) : Shape k' queue (pc :: rest) := by
  obtain ⟨hq, ho⟩ := h.other (p := p) rfl
  have hnm : ¬ k.mapped p := h.held p _ List.mem_cons_self rfl (by simp)
  obtain ⟨heap, map, adding, removing, held, queued, unique⟩ := h
  refine ⟨by grind [PC.holds], by grind, by grind, by grind [PC.holds], by grind [PC.holds],
    by grind, ?_⟩
  have hu := unique
  rcases hpc with rfl | rfl | rfl
  · exact hu
  · exact hu
  · exact hu.sublist (List.Sublist.append_left (List.sublist_cons_self _ _) queue)

/-- A put ends with the message in the queue. -/
theorem Shape.put {pc pc' : PC} (h : Shape k queue (pc :: rest))
    (hpc : pc = .put p ∧ pc' = .done ∨ ∃ t, pc = .scanPut p t ∧ pc' = .scan t) :
    Shape k (queue ++ [p]) (pc' :: rest) := by
  have hp : pc.holds = some p := by rcases hpc with ⟨rfl, _⟩ | ⟨t, rfl, _⟩ <;> rfl
  have hnm : ¬ k.mapped p := by
    refine h.held p pc List.mem_cons_self hp ?_
    rcases hpc with ⟨rfl, _⟩ | ⟨t, rfl, _⟩ <;> nofun
  obtain ⟨hq, ho⟩ := h.other hp
  have hrest : Shape k queue rest := by
    rcases hpc with ⟨rfl, _⟩ | ⟨t, rfl, _⟩ <;> exact h.finish nofun nofun nofun
  have hput := hrest.enqueue hnm hq ho
  rcases hpc with ⟨_, rfl⟩ | ⟨t, _, rfl⟩ <;> exact hput.join nofun nofun nofun hput.unique

/-- A step after which the call has nothing in its hands, and the map and heap are as before. -/
theorem Shape.release {pc pc' : PC} (h : Shape k queue (pc :: rest))
    (hpc' : pc' = .done ∨ ∃ t, pc' = .scan t) (hadd : ∀ q, pc ≠ .add q)
    (hrem : ∀ q after, pc ≠ .remove q after)
    (hpop : ∀ q t, pc = .scanPop q t → ¬ k.mapped q) : Shape k queue (pc' :: rest) := by
  have hrest := h.finish hadd hrem hpop
  rcases hpc' with rfl | ⟨t, rfl⟩ <;> exact hrest.join nofun nofun nofun hrest.unique

/-- `PeekAndShift` takes a message out of the heap and leaves it mapped. -/
theorem Shape.shift {t : ℤ} (h : Shape k queue (.scan t :: rest))
    (hm : ∀ q, k'.mapped q ↔ k.mapped q) (hh : ∀ q, k'.heap q ↔ k.heap q ∧ q ≠ p)
    (hself : k'.popped p) (hg : ∀ q, ¬ k.heap q → (k'.popped q ↔ k.popped q)) :
    Shape k' queue (.scanPop p t :: rest) := by
  obtain ⟨heap, map, adding, removing, held, queued, unique⟩ := h
  exact ⟨by grind, by grind, by grind, by grind, by grind [PC.holds], by grind, unique⟩

/-- The pop of a scan, when the shifted message is still mapped and has not been put back. -/
theorem Shape.scanPop {t : ℤ} (h : Shape k queue (.scanPop p t :: rest)) (hp : k.mapped p)
    (hn : ¬ k.heap p) (ha : .add p ∉ rest) (hm : ∀ q, k'.mapped q ↔ k.mapped q ∧ q ≠ p)
    (hh : ∀ q, k'.heap q ↔ k.heap q) (hg : ∀ q, k'.popped q ↔ k.popped q) :
    Shape k' queue (.scanPut p t :: rest) := by
  obtain ⟨heap, map, adding, removing, held, queued, unique⟩ := h
  refine ⟨by grind, by grind, by grind, by grind, by grind [PC.holds], by grind, ?_⟩
  have hu := unique
  rw [List.filterMap_cons_none rfl] at hu
  show (queue ++ p :: rest.filterMap PC.holds).Nodup
  refine List.nodup_middle.mpr (List.nodup_cons.mpr ⟨?_, hu⟩)
  rw [List.mem_append, List.mem_filterMap]
  grind [PC.holds]

theorem Shape.drain (h : Shape k queue (.drain :: rest)) : Shape k [] (.done :: rest) := by
  have hrest : Shape k [] rest :=
    { h.finish nofun nofun nofun with
      queued := nofun
      unique := (List.nodup_append.mp h.unique).2.1 }
  exact hrest.join nofun nofun nofun hrest.unique

/-! ### New calls and new messages -/

theorem Shape.spawn_scan (h : Shape k queue threads) (t : ℤ) :
    Shape k queue (.scan t :: threads) :=
  h.join nofun nofun nofun h.unique

/-- `initPQ` empties the map and the heap, when no call stands between the two. -/
theorem Shape.reset (h : Shape k queue threads)
    (hs : ∀ q, (.add q ∉ threads) ∧ ∀ after, .remove q after ∈ threads → k.popped q)
    (hm : ∀ q, ¬ k'.mapped q) (hh : ∀ q, ¬ k'.heap q) (hg : ∀ q, k'.popped q ↔ k.popped q) :
    Shape k' queue (.drain :: threads) where
  heap q hq := (hh q hq).elim
  map q hq := (hm q hq).elim
  adding q hq := ((hs q).1 (by simpa using hq)).elim
  removing q after hq := Or.inr ((hg q).mpr ((hs q).2 after (by simpa using hq)))
  held q pc _ _ _ hq := hm q hq
  queued q _ hq := hm q hq
  unique := h.unique

/-- `StartInFlightTimeout` takes a message out of the queue. -/
theorem Shape.start (h : Shape k queue threads) (hp : p ∈ queue) :
    Shape k (queue.erase p) (.push p :: threads) := by
  refine (h.drop p).join nofun nofun (fun q hq => ?_) ?_
  · cases hq
    exact h.queued p hp
  · have hperm : (queue.erase p ++ p :: threads.filterMap PC.holds).Perm
        (queue ++ threads.filterMap PC.holds) :=
      List.perm_middle.trans ((List.perm_cons_erase hp).symm.append_right _)
    exact hperm.nodup_iff.mpr h.unique

/-- The tokens enter the shape only through what they say of each message. -/
theorem Shape.congr (h : Shape k queue threads) (hm : ∀ q, k'.mapped q ↔ k.mapped q)
    (hh : ∀ q, k'.heap q ↔ k.heap q)
    (hg : ∀ q, k.mapped q ∨ (∃ after, .remove q after ∈ threads) → (k'.popped q ↔ k.popped q)) :
    Shape k' queue threads := by
  obtain ⟨heap, map, adding, removing, held, queued, unique⟩ := h
  exact ⟨by grind, by grind, by grind, by grind, by grind, by grind, unique⟩

end Interleaving

end Xmq
