import Mathlib.Data.List.Nodup
import Mathlib.Data.List.Perm.Basic
import Mathlib.Data.List.Range
import Xmq.Runs

/-!
# Scanning the queues

`queueScanLoop` wakes up, hands some channels to a pool of workers and waits for as many answers.
Now and then it looks at the channels again and resizes the pool, one worker at a time. The loop,
the workers and the two buffered Go channels between them are one machine; a step is one operation
on a Go channel, or one round of the loop that resizes.

* `dirtyPercent` is the comparison of the two numbers of a round with the option, in floating point.
* Whoever waits for a Go channel just has no step. Both have room for `QueueScanSelectionCount`
  entries, and `make` panics if that is negative.
* The pool has no worker if the largest size that is allowed is zero, and the loop waits forever for
  a worker to close if it is negative. Otherwise nothing is ever waited for in vain.
-/

namespace Xmq.QueueScan

/-! ### `UniqRands` -/

/-- The loop, from position `i` on, for `n` positions: each is exchanged with one of the `maxval`
positions from there on. -/
def shuffle (rand : ℕ → ℕ) : ℕ → ℕ → ℕ → Array ℕ → Array ℕ
  | _, _, 0, intSlice => intSlice
  | i, maxval, n + 1, intSlice =>
    shuffle rand (i + 1) (maxval - 1) n (intSlice.swapIfInBounds i (rand i % maxval + i))

def uniqRands (rand : ℕ → ℕ) (quantity maxval : ℕ) : List ℕ :=
  let quantity := if maxval < quantity then maxval else quantity
  (shuffle rand 0 maxval quantity (Array.range maxval)).toList.take quantity

theorem swapIfInBounds_perm (a : Array ℕ) (i j : ℕ) :
    (a.swapIfInBounds i j).toList.Perm a.toList := by
  rw [Array.swapIfInBounds_def]
  split
  · split
    · exact (Array.swap_perm _ _).toList
    · exact List.Perm.refl _
  · exact List.Perm.refl _

theorem shuffle_perm (rand : ℕ → ℕ) (i maxval n : ℕ) (a : Array ℕ) :
    (shuffle rand i maxval n a).toList.Perm a.toList := by
  induction n generalizing i maxval a with
  | zero => exact List.Perm.refl _
  | succ n ih => exact (ih _ _ _).trans (swapIfInBounds_perm a _ _)

/-- As many different numbers below `maxval` as there can be, up to `quantity`. -/
theorem uniqRands_spec (rand : ℕ → ℕ) (quantity maxval : ℕ) :
    (uniqRands rand quantity maxval).length = min quantity maxval ∧
      (uniqRands rand quantity maxval).Nodup ∧
      ∀ i ∈ uniqRands rand quantity maxval, i < maxval := by
  have hperm : (shuffle rand 0 maxval (if maxval < quantity then maxval else quantity)
      (Array.range maxval)).toList.Perm (List.range maxval) := by
    have h := shuffle_perm rand 0 maxval (if maxval < quantity then maxval else quantity)
      (Array.range maxval)
    rwa [Array.toList_range] at h
  refine ⟨?_, ?_, fun i hi => ?_⟩
  · rw [uniqRands, List.length_take, hperm.length_eq, List.length_range]
    split <;> omega
  · exact (hperm.nodup_iff.mpr List.nodup_range).sublist (List.take_sublist _ _)
  · exact List.mem_range.mp (hperm.subset (List.mem_of_mem_take hi))

/-! ### The machine -/

structure Options where
  queueScanSelectionCount : ℤ
  queueScanWorkerPoolMax : ℤ
  /-- Whether the share of dirty channels exceeds the option. -/
  dirtyPercent : ℕ → ℕ → Bool

/-- A `queueScanWorker` waits for work or for its end, or is busy with a channel. -/
inductive Worker where
  | idle
  | busy (c : ℕ)
  deriving DecidableEq

/-- Where `queueScanLoop` is: in `resizePool`, in the `select`, handing out the channels of a round,
waiting for response `i` of a round, or behind its end. -/
inductive Stage where
  | resizing (idealPoolSize : ℤ)
  | waiting
  | handing (num : ℕ) (todo : List ℕ) (handed : ℕ)
  | receiving (num handed i numDirty : ℕ)
  | exited
  deriving DecidableEq

/-- `channels` is the number of channels that the loop knows. -/
structure State where
  channels : ℕ
  poolSize : ℤ
  workers : List Worker
  workCh : List ℕ
  responseCh : List Bool
  stage : Stage

/-- `int(float64(num) * 0.25)`, between the bounds. -/
def idealPoolSize (opts : Options) (num : ℕ) : ℤ :=
  if num / 4 < 1 then 1
  else if opts.queueScanWorkerPoolMax < (num / 4 : ℕ) then opts.queueScanWorkerPoolMax
  else (num / 4 : ℕ)

/-- The room in `workCh` and in `responseCh`. -/
def Options.capacity (opts : Options) : ℕ := opts.queueScanSelectionCount.toNat

/-- The number of channels in a round. -/
def Options.num (opts : Options) (channels : ℕ) : ℕ :=
  if channels < opts.capacity then channels else opts.capacity

/-- The two Go channels, and the first call of `resizePool`. -/
def start (opts : Options) (channels : ℕ) : Option State :=
  if opts.queueScanSelectionCount < 0 then none
  else some ⟨channels, 0, [], [], [], .resizing (idealPoolSize opts channels)⟩

inductive Act where
  | expand
  | contract (w : ℕ)
  | resized
  | workTick (rand : ℕ → ℕ)
  | refreshTick (channels : ℕ)
  | done
  | hand
  | handedOut
  | take (w : ℕ)
  | answer (w : ℕ) (dirty : Bool)
  | collect
  | roundEnd (rand : ℕ → ℕ)
  | close (w : ℕ)

/-- A round: `num` channels are to be handed out. -/
def State.round (s : State) (num : ℕ) (rand : ℕ → ℕ) : State :=
  { s with stage := .handing num (uniqRands rand num s.channels) 0 }

def step (opts : Options) (s : State) : Act → Option State
  | .expand =>
    match s.stage with
    | .resizing ideal =>
      if s.poolSize < ideal then
        some { s with workers := s.workers ++ [.idle], poolSize := s.poolSize + 1 }
      else none
    | _ => none
  | .contract w =>
    match s.stage with
    | .resizing ideal =>
      if ideal < s.poolSize ∧ s.workers[w]? = some .idle then
        some { s with workers := s.workers.eraseIdx w, poolSize := s.poolSize - 1 }
      else none
    | _ => none
  | .resized =>
    match s.stage with
    | .resizing ideal => if ideal = s.poolSize then some { s with stage := .waiting } else none
    | _ => none
  | .workTick rand =>
    match s.stage with
    | .waiting => if s.channels = 0 then some s else some (s.round (opts.num s.channels) rand)
    | _ => none
  | .refreshTick channels =>
    match s.stage with
    | .waiting =>
      some { s with channels := channels, stage := .resizing (idealPoolSize opts channels) }
    | _ => none
  | .done =>
    match s.stage with
    | .waiting => some { s with stage := .exited }
    | _ => none
  | .hand =>
    match s.stage with
    | .handing num (c :: todo) handed =>
      if s.workCh.length < opts.capacity then
        some { s with workCh := s.workCh ++ [c], stage := .handing num todo (handed + 1) }
      else none
    | _ => none
  | .handedOut =>
    match s.stage with
    | .handing num [] handed => some { s with stage := .receiving num handed 0 0 }
    | _ => none
  | .take w =>
    match s.workers[w]?, s.workCh with
    | some .idle, c :: rest => some { s with workers := s.workers.set w (.busy c), workCh := rest }
    | _, _ => none
  | .answer w dirty =>
    match s.workers[w]? with
    | some (.busy _) =>
      if s.responseCh.length < opts.capacity then
        some { s with workers := s.workers.set w .idle, responseCh := s.responseCh ++ [dirty] }
      else none
    | _ => none
  | .collect =>
    match s.stage, s.responseCh with
    | .receiving num handed i numDirty, dirty :: rest =>
      if i < num then
        some { s with
          responseCh := rest
          stage := .receiving num handed (i + 1) (numDirty + if dirty then 1 else 0) }
      else none
    | _, _ => none
  | .roundEnd rand =>
    match s.stage with
    | .receiving num _ i numDirty =>
      if i = num then
        -- goto loop
        if opts.dirtyPercent numDirty num then some (s.round num rand)
        else some { s with stage := .waiting }
      else none
    | _ => none
  | .close w =>
    match s.stage with
    | .exited =>
      if s.workers[w]? = some .idle then some { s with workers := s.workers.eraseIdx w } else none
    | _ => none

/-! ### Every channel is answered -/

def Worker.isBusy : Worker → Bool
  | idle => false
  | busy _ => true

/-- The channels that were handed out and not yet answered for, and the answers not yet received. -/
def State.inFlight (s : State) : ℕ :=
  s.workCh.length + s.workers.countP Worker.isBusy + s.responseCh.length

/-- What the loop has handed out and not received. -/
def Stage.outstanding : Stage → ℕ
  | handing _ _ handed => handed
  | receiving _ handed i _ => handed - i
  | _ => 0

/-- The size that a pool for so many channels may have. -/
def PoolBounds (channels : ℕ) (p : ℤ) : Prop := 1 ≤ p ∧ p ≤ max 1 (channels / 4 : ℕ)

/-- A round has no more channels than there are, and no more than there is room for. -/
def State.StageOk (opts : Options) (s : State) : Prop :=
  match s.stage with
  | .resizing ideal => PoolBounds s.channels ideal
  | .waiting => PoolBounds s.channels s.poolSize
  | .handing num todo handed =>
    PoolBounds s.channels s.poolSize ∧ num ≤ s.channels ∧ num ≤ opts.capacity ∧
      handed + todo.length = num
  | .receiving num handed i _ =>
    PoolBounds s.channels s.poolSize ∧ num ≤ s.channels ∧ num ≤ opts.capacity ∧
      handed = num ∧ i ≤ num
  | .exited => True

structure Inv (opts : Options) (s : State) : Prop where
  workers : s.stage ≠ .exited → (s.workers.length : ℤ) = s.poolSize
  flow : s.inFlight = s.stage.outstanding
  stage : s.StageOk opts

/-- No call of `resizePool` finds four channels and no worker allowed. -/
def CanResize (opts : Options) (channels : ℕ) : Prop :=
  1 ≤ opts.queueScanWorkerPoolMax ∨ channels < 4

def Good (opts : Options) (a : Act) : Prop :=
  ∀ channels, a = .refreshTick channels → CanResize opts channels

theorem countP_append_idle (l : List Worker) :
    (l ++ [Worker.idle]).countP Worker.isBusy = l.countP Worker.isBusy := by
  rw [List.countP_append]
  rfl

theorem countP_eraseIdx_idle {l : List Worker} {w : ℕ} (h : l[w]? = some .idle) :
    (l.eraseIdx w).countP Worker.isBusy = l.countP Worker.isBusy := by
  obtain ⟨hlt, hget⟩ := List.getElem?_eq_some_iff.mp h
  rw [← (List.getElem_cons_eraseIdx_perm hlt).countP_eq, hget]
  rfl

theorem countP_set_busy {l : List Worker} {w c : ℕ} (h : l[w]? = some .idle) :
    (l.set w (.busy c)).countP Worker.isBusy = l.countP Worker.isBusy + 1 := by
  obtain ⟨hlt, hget⟩ := List.getElem?_eq_some_iff.mp h
  rw [List.countP_set hlt, hget]
  rfl

theorem countP_set_idle {l : List Worker} {w c : ℕ} (h : l[w]? = some (.busy c)) :
    (l.set w .idle).countP Worker.isBusy + 1 = l.countP Worker.isBusy := by
  obtain ⟨hlt, hget⟩ := List.getElem?_eq_some_iff.mp h
  have hpos : 0 < l.countP Worker.isBusy :=
    List.countP_pos_iff.mpr ⟨l[w], List.getElem_mem hlt, by rw [hget]; rfl⟩
  rw [List.countP_set hlt, hget]
  simp only [Worker.isBusy, if_true, Bool.false_eq_true, if_false]
  omega

section Steps

variable {opts : Options} {s t : State}

theorem idealPoolSize_pos_iff (channels : ℕ) :
    1 ≤ idealPoolSize opts channels ↔ CanResize opts channels := by
  unfold idealPoolSize CanResize
  split
  · omega
  · split <;> omega

theorem poolBounds_ideal {channels : ℕ} (h : CanResize opts channels) :
    PoolBounds channels (idealPoolSize opts channels) := by
  refine ⟨(idealPoolSize_pos_iff channels).mpr h, ?_⟩
  unfold idealPoolSize
  split
  · omega
  · split <;> omega

/-- A round is as many channels as its responses. -/
theorem round_ok (hi : Inv opts s) (hempty : s.inFlight = 0) (hexit : s.stage ≠ .exited)
    (hpool : PoolBounds s.channels s.poolSize) {num : ℕ} (hnum : num ≤ s.channels)
    (hcap : num ≤ opts.capacity) (rand : ℕ → ℕ) : Inv opts (s.round num rand) := by
  refine ⟨fun _ => hi.workers hexit, hempty, hpool, hnum, hcap, ?_⟩
  rw [(uniqRands_spec rand num s.channels).1, Nat.zero_add]
  exact min_eq_left hnum

/-! What the operations do. -/

theorem expand_eq (h : step opts s .expand = some t) :
    ∃ ideal, s.stage = .resizing ideal ∧ s.poolSize < ideal ∧
      t = { s with workers := s.workers ++ [.idle], poolSize := s.poolSize + 1 } := by
  unfold step at h
  dsimp only at h
  split at h
  · rename_i ideal hs
    obtain ⟨hlt, h⟩ := Option.ite_none_right_eq_some.mp h
    exact ⟨ideal, hs, hlt, (Option.some.inj h).symm⟩
  · cases h

theorem contract_eq {w : ℕ} (h : step opts s (.contract w) = some t) :
    ∃ ideal, s.stage = .resizing ideal ∧ ideal < s.poolSize ∧ s.workers[w]? = some .idle ∧
      t = { s with workers := s.workers.eraseIdx w, poolSize := s.poolSize - 1 } := by
  unfold step at h
  dsimp only at h
  split at h
  · rename_i ideal hs
    obtain ⟨⟨hlt, hw⟩, h⟩ := Option.ite_none_right_eq_some.mp h
    exact ⟨ideal, hs, hlt, hw, (Option.some.inj h).symm⟩
  · cases h

theorem hand_eq (h : step opts s .hand = some t) :
    ∃ num c todo handed, s.stage = .handing num (c :: todo) handed ∧
      t = { s with workCh := s.workCh ++ [c], stage := .handing num todo (handed + 1) } := by
  unfold step at h
  dsimp only at h
  split at h
  · rename_i num c todo handed hs
    obtain ⟨-, h⟩ := Option.ite_none_right_eq_some.mp h
    exact ⟨num, c, todo, handed, hs, (Option.some.inj h).symm⟩
  · cases h

theorem handedOut_eq (h : step opts s .handedOut = some t) :
    ∃ num handed, s.stage = .handing num [] handed ∧
      t = { s with stage := .receiving num handed 0 0 } := by
  unfold step at h
  dsimp only at h
  split at h
  · rename_i num handed hs
    exact ⟨num, handed, hs, (Option.some.inj h).symm⟩
  · cases h

theorem take_eq {w : ℕ} (h : step opts s (.take w) = some t) :
    ∃ c rest, s.workers[w]? = some .idle ∧ s.workCh = c :: rest ∧
      t = { s with workers := s.workers.set w (.busy c), workCh := rest } := by
  unfold step at h
  dsimp only at h
  split at h
  · rename_i c rest hw hch
    exact ⟨c, rest, hw, hch, (Option.some.inj h).symm⟩
  · cases h

theorem answer_eq {w : ℕ} {dirty : Bool} (h : step opts s (.answer w dirty) = some t) :
    ∃ c, s.workers[w]? = some (.busy c) ∧
      t = { s with workers := s.workers.set w .idle, responseCh := s.responseCh ++ [dirty] } := by
  unfold step at h
  dsimp only at h
  split at h
  · rename_i c hw
    obtain ⟨-, h⟩ := Option.ite_none_right_eq_some.mp h
    exact ⟨c, hw, (Option.some.inj h).symm⟩
  · cases h

theorem collect_eq (h : step opts s .collect = some t) :
    ∃ num handed i numDirty dirty rest, s.stage = .receiving num handed i numDirty ∧
      s.responseCh = dirty :: rest ∧ i < num ∧
      t = { s with
        responseCh := rest
        stage := .receiving num handed (i + 1) (numDirty + if dirty then 1 else 0) } := by
  unfold step at h
  dsimp only at h
  split at h
  · rename_i num handed i numDirty dirty rest hs hch
    obtain ⟨hlt, h⟩ := Option.ite_none_right_eq_some.mp h
    exact ⟨num, handed, i, numDirty, dirty, rest, hs, hch, hlt, (Option.some.inj h).symm⟩
  · cases h

theorem resized_eq (h : step opts s .resized = some t) :
    s.stage = .resizing s.poolSize ∧ t = { s with stage := .waiting } := by
  unfold step at h
  dsimp only at h
  split at h
  · rename_i ideal hs
    obtain ⟨hideal, h⟩ := Option.ite_none_right_eq_some.mp h
    exact ⟨hideal ▸ hs, (Option.some.inj h).symm⟩
  · cases h

theorem workTick_eq {rand : ℕ → ℕ} (h : step opts s (.workTick rand) = some t) :
    s.stage = .waiting ∧ (t = s ∨ t = s.round (opts.num s.channels) rand) := by
  unfold step at h
  dsimp only at h
  split at h
  · rename_i hs
    split at h
    · exact ⟨hs, .inl (Option.some.inj h).symm⟩
    · exact ⟨hs, .inr (Option.some.inj h).symm⟩
  · cases h

theorem refreshTick_eq {channels : ℕ} (h : step opts s (.refreshTick channels) = some t) :
    s.stage = .waiting ∧
      t = { s with channels := channels, stage := .resizing (idealPoolSize opts channels) } := by
  unfold step at h
  dsimp only at h
  split at h
  · rename_i hs
    exact ⟨hs, (Option.some.inj h).symm⟩
  · cases h

theorem done_eq (h : step opts s .done = some t) :
    s.stage = .waiting ∧ t = { s with stage := .exited } := by
  unfold step at h
  dsimp only at h
  split at h
  · rename_i hs
    exact ⟨hs, (Option.some.inj h).symm⟩
  · cases h

theorem roundEnd_eq {rand : ℕ → ℕ} (h : step opts s (.roundEnd rand) = some t) :
    ∃ num handed numDirty, s.stage = .receiving num handed num numDirty ∧
      (t = s.round num rand ∨ t = { s with stage := .waiting }) := by
  unfold step at h
  dsimp only at h
  split at h
  · rename_i num handed i numDirty hs
    obtain ⟨rfl, h⟩ := Option.ite_none_right_eq_some.mp h
    split at h
    · exact ⟨_, handed, numDirty, hs, .inl (Option.some.inj h).symm⟩
    · exact ⟨_, handed, numDirty, hs, .inr (Option.some.inj h).symm⟩
  · cases h

theorem close_eq {w : ℕ} (h : step opts s (.close w) = some t) :
    s.stage = .exited ∧ s.workers[w]? = some .idle ∧
      t = { s with workers := s.workers.eraseIdx w } := by
  unfold step at h
  dsimp only at h
  split at h
  · rename_i hs
    obtain ⟨hw, h⟩ := Option.ite_none_right_eq_some.mp h
    exact ⟨hs, hw, (Option.some.inj h).symm⟩
  · cases h

/-! What the invariant says at each stage. -/

theorem Inv.resizing (hi : Inv opts s) {ideal : ℤ} (hs : s.stage = .resizing ideal) :
    (s.workers.length : ℤ) = s.poolSize ∧ s.inFlight = 0 ∧ PoolBounds s.channels ideal := by
  obtain ⟨hworkers, hflow, hstage⟩ := hi
  rw [State.StageOk, hs] at hstage
  rw [hs] at hflow hworkers
  exact ⟨hworkers nofun, hflow, hstage⟩

theorem Inv.waiting (hi : Inv opts s) (hs : s.stage = .waiting) :
    (s.workers.length : ℤ) = s.poolSize ∧ s.inFlight = 0 ∧ PoolBounds s.channels s.poolSize := by
  obtain ⟨hworkers, hflow, hstage⟩ := hi
  rw [State.StageOk, hs] at hstage
  rw [hs] at hflow hworkers
  exact ⟨hworkers nofun, hflow, hstage⟩

theorem Inv.handing (hi : Inv opts s) {num handed : ℕ} {todo : List ℕ}
    (hs : s.stage = .handing num todo handed) :
    (s.workers.length : ℤ) = s.poolSize ∧ s.inFlight = handed ∧
      PoolBounds s.channels s.poolSize ∧ num ≤ s.channels ∧ num ≤ opts.capacity ∧
      handed + todo.length = num := by
  obtain ⟨hworkers, hflow, hstage⟩ := hi
  rw [State.StageOk, hs] at hstage
  rw [hs] at hflow hworkers
  exact ⟨hworkers nofun, hflow, hstage⟩

theorem Inv.receiving (hi : Inv opts s) {num handed i numDirty : ℕ}
    (hs : s.stage = .receiving num handed i numDirty) :
    (s.workers.length : ℤ) = s.poolSize ∧ s.inFlight = handed - i ∧
      PoolBounds s.channels s.poolSize ∧ num ≤ s.channels ∧ num ≤ opts.capacity ∧
      handed = num ∧ i ≤ num := by
  obtain ⟨hworkers, hflow, hstage⟩ := hi
  rw [State.StageOk, hs] at hstage
  rw [hs] at hflow hworkers
  exact ⟨hworkers nofun, hflow, hstage⟩

/-- Nothing is under way where no channel has been handed out. -/
theorem flow_zero (hflow : s.inFlight = 0) :
    s.workCh = [] ∧ s.workers.countP Worker.isBusy = 0 ∧ s.responseCh = [] := by
  unfold State.inFlight at hflow
  exact ⟨List.length_eq_zero_iff.mp (by omega), by omega, List.length_eq_zero_iff.mp (by omega)⟩

/-- What the workers do leaves the loop where it is. -/
theorem Inv.worker (hi : Inv opts s) {workers : List Worker} {workCh : List ℕ}
    {responseCh : List Bool} (hlength : workers.length = s.workers.length)
    (hflow : workCh.length + workers.countP Worker.isBusy + responseCh.length = s.inFlight) :
    Inv opts { s with workers := workers, workCh := workCh, responseCh := responseCh } := by
  refine ⟨fun h => ?_, hflow.trans hi.flow, hi.stage⟩
  rw [hlength]
  exact hi.workers h

theorem take_inv (hi : Inv opts s) {w : ℕ} (h : step opts s (.take w) = some t) : Inv opts t := by
  obtain ⟨c, rest, hw, hch, rfl⟩ := take_eq h
  refine hi.worker List.length_set ?_
  have hcount := countP_set_busy (c := c) hw
  rw [hcount, State.inFlight, hch, List.length_cons]
  omega

theorem answer_inv (hi : Inv opts s) {w : ℕ} {dirty : Bool}
    (h : step opts s (.answer w dirty) = some t) : Inv opts t := by
  obtain ⟨c, hw, rfl⟩ := answer_eq h
  refine hi.worker List.length_set ?_
  have hcount := countP_set_idle hw
  rw [State.inFlight, List.length_append, List.length_singleton]
  omega

/-- The pool grows and shrinks by one idle worker. -/
theorem resize_inv (hi : Inv opts s) {ideal : ℤ} (hs : s.stage = .resizing ideal)
    {workers : List Worker} {p : ℤ} (hlength : (workers.length : ℤ) = p)
    (hcount : workers.countP Worker.isBusy = s.workers.countP Worker.isBusy) :
    Inv opts { s with workers := workers, poolSize := p } := by
  obtain ⟨hworkers, hflow, hstage⟩ := hi
  refine ⟨fun _ => hlength, ?_, ?_⟩
  · rw [← hflow, State.inFlight, State.inFlight, hcount]
  · rw [State.StageOk, hs] at hstage ⊢
    exact hstage

theorem step_inv (hi : Inv opts s) {a : Act} (hgood : Good opts a)
    (h : step opts s a = some t) : Inv opts t := by
  cases a with
  | take w => exact take_inv hi h
  | answer w dirty => exact answer_inv hi h
  | expand =>
      obtain ⟨ideal, hs, -, rfl⟩ := expand_eq h
      have hworkers := (hi.resizing hs).1
      refine resize_inv hi hs ?_ (countP_append_idle s.workers)
      rw [List.length_append, List.length_singleton]
      omega
  | contract w =>
      obtain ⟨ideal, hs, -, hw, rfl⟩ := contract_eq h
      have hworkers := (hi.resizing hs).1
      have hlt := (List.getElem?_eq_some_iff.mp hw).1
      refine resize_inv hi hs ?_ (countP_eraseIdx_idle hw)
      rw [List.length_eraseIdx_of_lt hlt]
      omega
  | resized =>
      obtain ⟨hs, rfl⟩ := resized_eq h
      obtain ⟨hworkers, hempty, hpool⟩ := hi.resizing hs
      exact ⟨fun _ => hworkers, hempty, hpool⟩
  | workTick rand =>
      obtain ⟨hs, rfl | rfl⟩ := workTick_eq h
      · exact hi
      · obtain ⟨-, hempty, hpool⟩ := hi.waiting hs
        refine round_ok hi hempty (by rw [hs]; nofun) hpool ?_ ?_ rand
        · unfold Options.num
          split <;> omega
        · unfold Options.num
          split <;> omega
  | refreshTick channels =>
      obtain ⟨hs, rfl⟩ := refreshTick_eq h
      obtain ⟨hworkers, hempty, -⟩ := hi.waiting hs
      exact ⟨fun _ => hworkers, hempty, poolBounds_ideal (hgood channels rfl)⟩
  | done =>
      obtain ⟨hs, rfl⟩ := done_eq h
      obtain ⟨-, hempty, -⟩ := hi.waiting hs
      exact ⟨fun hn => absurd rfl hn, hempty, trivial⟩
  | hand =>
      obtain ⟨num, c, todo, handed, hs, rfl⟩ := hand_eq h
      obtain ⟨hworkers, hflow, hpool, hnum, hcap, htodo⟩ := hi.handing hs
      refine ⟨fun _ => hworkers, ?_, hpool, hnum, hcap, ?_⟩
      · simp only [State.inFlight, Stage.outstanding, List.length_append,
          List.length_singleton] at hflow ⊢
        omega
      · rw [List.length_cons] at htodo
        omega
  | handedOut =>
      obtain ⟨num, handed, hs, rfl⟩ := handedOut_eq h
      obtain ⟨hworkers, hflow, hpool, hnum, hcap, htodo⟩ := hi.handing hs
      exact ⟨fun _ => hworkers, hflow, hpool, hnum, hcap, htodo, Nat.zero_le num⟩
  | collect =>
      obtain ⟨num, handed, i, numDirty, dirty, rest, hs, hch, hlt, rfl⟩ := collect_eq h
      obtain ⟨hworkers, hflow, hpool, hnum, hcap, hhanded, -⟩ := hi.receiving hs
      rw [State.inFlight, hch, List.length_cons] at hflow
      refine ⟨fun _ => hworkers, ?_, hpool, hnum, hcap, hhanded, hlt⟩
      simp only [State.inFlight, Stage.outstanding]
      omega
  | roundEnd rand =>
      obtain ⟨num, handed, numDirty, hs, hend⟩ := roundEnd_eq h
      obtain ⟨hworkers, hflow, hpool, hnum, hcap, hhanded, -⟩ := hi.receiving hs
      have hempty : s.inFlight = 0 := by omega
      rcases hend with rfl | rfl
      · exact round_ok hi hempty (by rw [hs]; nofun) hpool hnum hcap rand
      · exact ⟨fun _ => hworkers, hempty, hpool⟩
  | close w =>
      obtain ⟨hs, hw, rfl⟩ := close_eq h
      obtain ⟨-, hflow, -⟩ := hi
      refine ⟨fun hn => absurd hs hn, ?_, ?_⟩
      · rw [State.inFlight, countP_eraseIdx_idle hw]
        exact hflow
      · rw [State.StageOk, hs]
        trivial

/-! ### Every call comes to its end -/

/-- What happens within a call of `resizePool`, or within a round. -/
def Act.inCall : Act → Bool
  | expand | contract _ | hand | handedOut | take _ | answer _ _ | collect => true
  | _ => false

/-- What ends the call, or the round. -/
def Act.endsCall : Act → Bool
  | resized | roundEnd _ => true
  | _ => false

def State.MidCall (s : State) : Prop := s.stage ≠ .waiting ∧ s.stage ≠ .exited

/-- What the loop still has to do before it waits for the workers. -/
def State.loopWork (s : State) : ℕ :=
  match s.stage with
  | .resizing ideal => (ideal - s.poolSize).natAbs
  | .handing _ todo _ => 4 * todo.length + 1
  | _ => 0

/-- The operations that are left, at most. -/
def State.work (s : State) : ℕ :=
  s.loopWork + 3 * s.workCh.length + 2 * s.workers.countP Worker.isBusy + s.responseCh.length

theorem work_lt {a : Act} (ha : a.inCall = true) (h : step opts s a = some t) :
    t.work < s.work := by
  unfold State.work State.loopWork
  cases a with
  | expand =>
      obtain ⟨ideal, hs, hlt, rfl⟩ := expand_eq h
      simp only [countP_append_idle, hs]
      omega
  | contract w =>
      obtain ⟨ideal, hs, hlt, hw, rfl⟩ := contract_eq h
      simp only [countP_eraseIdx_idle hw, hs]
      omega
  | hand =>
      obtain ⟨num, c, todo, handed, hs, rfl⟩ := hand_eq h
      simp only [hs, List.length_append, List.length_cons, List.length_nil]
      omega
  | handedOut =>
      obtain ⟨num, handed, hs, rfl⟩ := handedOut_eq h
      simp only [hs, List.length_nil]
      omega
  | take w =>
      obtain ⟨c, rest, hw, hch, rfl⟩ := take_eq h
      simp only [countP_set_busy hw, hch, List.length_cons]
      omega
  | answer w dirty =>
      obtain ⟨c, hw, rfl⟩ := answer_eq h
      have hcount := countP_set_idle hw
      simp only [List.length_append, List.length_singleton]
      omega
  | collect =>
      obtain ⟨num, handed, i, numDirty, dirty, rest, hs, hch, -, rfl⟩ := collect_eq h
      simp only [hs, hch, List.length_cons]
      omega
  | _ => cases ha

theorem midCall_step {a : Act} (ha : a.inCall = true) (hmid : s.MidCall)
    (h : step opts s a = some t) : t.MidCall := by
  cases a with
  | expand =>
      obtain ⟨ideal, hs, -, rfl⟩ := expand_eq h
      exact hmid
  | contract w =>
      obtain ⟨ideal, hs, -, -, rfl⟩ := contract_eq h
      exact hmid
  | hand =>
      obtain ⟨num, c, todo, handed, -, rfl⟩ := hand_eq h
      exact ⟨nofun, nofun⟩
  | handedOut =>
      obtain ⟨num, handed, -, rfl⟩ := handedOut_eq h
      exact ⟨nofun, nofun⟩
  | take w =>
      obtain ⟨c, rest, -, -, rfl⟩ := take_eq h
      exact hmid
  | answer w dirty =>
      obtain ⟨c, -, rfl⟩ := answer_eq h
      exact hmid
  | collect =>
      obtain ⟨num, handed, i, numDirty, dirty, rest, -, -, -, rfl⟩ := collect_eq h
      exact ⟨nofun, nofun⟩
  | _ => cases ha

/-- Where no worker is busy, every worker is idle. -/
theorem idle_of_countP_zero (h : s.workers.countP Worker.isBusy = 0) (hpos : 0 < s.workers.length) :
    s.workers[0]? = some .idle := by
  have hmem := List.getElem_mem hpos
  have hidle := List.countP_eq_zero.mp h _ hmem
  rw [List.getElem?_eq_getElem hpos]
  cases hw : s.workers[0] with
  | idle => rfl
  | busy c =>
      rw [hw] at hidle
      exact absurd rfl hidle

theorem exists_busy (h : 0 < s.workers.countP Worker.isBusy) :
    ∃ w c : ℕ, s.workers[w]? = some (.busy c) := by
  obtain ⟨worker, hmem, hbusy⟩ := List.countP_pos_iff.mp h
  obtain ⟨w, hlt, hw⟩ := List.getElem_of_mem hmem
  cases worker with
  | idle => cases hbusy
  | busy c => exact ⟨w, c, List.getElem?_eq_some_iff.mpr ⟨hlt, hw⟩⟩

/-- Of the channels that have been handed out, one is in the way of its answer. -/
theorem exists_step_receiving (hi : Inv opts s) {num handed i numDirty : ℕ}
    (hs : s.stage = .receiving num handed i numDirty) (hlt : i < num) :
    ∃ a, a.inCall = true ∧ (step opts s a).isSome := by
  obtain ⟨hworkers, hflow, hpool, hnum, hcap, hhanded, -⟩ := hi.receiving hs
  rw [State.inFlight] at hflow
  cases hch : s.responseCh with
  | cons dirty rest =>
      refine ⟨.collect, rfl, ?_⟩
      simp only [step, hs, hch, if_pos hlt, Option.isSome_some]
  | nil =>
      rw [hch, List.length_nil] at hflow
      by_cases hbusy : 0 < s.workers.countP Worker.isBusy
      · obtain ⟨w, c, hw⟩ := exists_busy hbusy
        have hroom : ([] : List Bool).length < opts.capacity := by
          rw [List.length_nil]
          omega
        refine ⟨.answer w false, rfl, ?_⟩
        simp only [step, hw, hch, if_pos hroom, Option.isSome_some]
      · obtain ⟨c, rest, hwork⟩ : ∃ c rest, s.workCh = c :: rest :=
          List.exists_cons_of_length_pos (by omega)
        have hnone : s.workers.countP Worker.isBusy = 0 := by omega
        have hidle := idle_of_countP_zero hnone (by have := hpool.1; omega)
        refine ⟨.take 0, rfl, ?_⟩
        simp only [step, hidle, hwork, Option.isSome_some]

/-- **No stall.** Whoever is waited for has something to do. -/
theorem exists_step (hi : Inv opts s) (hmid : s.MidCall) :
    ∃ a, (a.inCall = true ∨ a.endsCall = true) ∧ (step opts s a).isSome := by
  cases hs : s.stage with
  | waiting => exact absurd hs hmid.1
  | exited => exact absurd hs hmid.2
  | resizing ideal =>
      obtain ⟨hworkers, hempty, hpos, -⟩ := hi.resizing hs
      rcases Int.lt_trichotomy ideal s.poolSize with hlt | heq | hlt
      · have hidle := idle_of_countP_zero (flow_zero hempty).2.1 (by omega)
        refine ⟨.contract 0, .inl rfl, ?_⟩
        simp only [step, hs, if_pos (show _ ∧ _ from ⟨hlt, hidle⟩), Option.isSome_some]
      · exact ⟨.resized, .inr rfl, by simp only [step, hs, if_pos heq, Option.isSome_some]⟩
      · exact ⟨.expand, .inl rfl, by simp only [step, hs, if_pos hlt, Option.isSome_some]⟩
  | handing num todo handed =>
      obtain ⟨-, hflow, -, -, hcap, htodo⟩ := hi.handing hs
      cases todo with
      | nil => exact ⟨.handedOut, .inl rfl, by simp only [step, hs, Option.isSome_some]⟩
      | cons c todo =>
          have hroom : s.workCh.length < opts.capacity := by
            rw [State.inFlight] at hflow
            rw [List.length_cons] at htodo
            omega
          exact ⟨.hand, .inl rfl, by simp only [step, hs, if_pos hroom, Option.isSome_some]⟩
  | receiving num handed i numDirty =>
      obtain ⟨-, -, -, -, -, -, hle⟩ := hi.receiving hs
      rcases Nat.lt_or_eq_of_le hle with hlt | heq
      · obtain ⟨a, ha, h⟩ := exists_step_receiving hi hs hlt
        exact ⟨a, .inl ha, h⟩
      · refine ⟨.roundEnd id, .inr rfl, ?_⟩
        simp only [step, hs, if_pos heq]
        split <;> rfl

/-- A run within a call ends after so many steps, and then the call can end. -/
theorem call_ends (hi : Inv opts s) (hmid : s.MidCall) {acts : List Act}
    (hacts : ∀ a ∈ acts, a.inCall = true) (h : Runs.run (step opts) s acts = some t) :
    acts.length ≤ s.work ∧ ∃ a, (a.inCall = true ∨ a.endsCall = true) ∧ (step opts t a).isSome := by
  have hlength := Runs.length_le_of_decreases (fun _ _ _ ha hstep => work_lt ha hstep) acts hacts h
  have hkeep : ∀ s a t, Inv opts s ∧ s.MidCall → a.inCall = true → step opts s a = some t →
      Inv opts t ∧ t.MidCall := by
    intro s a t h ha hstep
    have hgood : Good opts a := by
      rintro channels rfl
      cases ha
    exact ⟨step_inv h.1 hgood hstep, midCall_step ha h.2 hstep⟩
  obtain ⟨hinv, hmid⟩ := Runs.invariant_along hkeep acts s t ⟨hi, hmid⟩
    (Runs.along_of_forall acts hacts) h
  exact ⟨by omega, exists_step hinv hmid⟩

end Steps

/-! ### All runs -/

theorem start_inv {opts : Options} {channels : ℕ} (hcan : CanResize opts channels) {s : State}
    (h : start opts channels = some s) : Inv opts s := by
  unfold start at h
  split at h
  · cases h
  · cases h
    exact ⟨fun _ => rfl, rfl, poolBounds_ideal hcan⟩

/-- What scanning may rely on. -/
structure Sound (opts : Options) (s : State) : Prop where
  /-- Behind a call the pool is within its bounds. -/
  bounds : s.stage = .waiting → PoolBounds s.channels s.poolSize
  /-- The workers that there are. -/
  workers : s.stage ≠ .exited → (s.workers.length : ℤ) = s.poolSize
  /-- Who is sent a close is there. -/
  closes : ∀ ideal, s.stage = .resizing ideal → ideal < s.poolSize →
    ∃ w : ℕ, s.workers[w]? = some .idle
  /-- No response is left over for a round, or for whoever resizes. -/
  fresh : s.stage.outstanding = 0 → s.workCh = [] ∧ s.responseCh = []
  /-- As many responses are waited for as channels were handed out. -/
  rounds : ∀ num handed i numDirty, s.stage = .receiving num handed i numDirty → handed = num
  /-- Every call comes to its end. -/
  ends : s.MidCall → ∀ acts t, (∀ a ∈ acts, a.inCall = true) →
    Runs.run (step opts) s acts = some t → acts.length ≤ s.work ∧
      ∃ a, (a.inCall = true ∨ a.endsCall = true) ∧ (step opts t a).isSome

theorem Inv.sound {opts : Options} {s : State} (hi : Inv opts s) : Sound opts s := by
  refine ⟨fun hs => (hi.waiting hs).2.2, hi.workers, fun ideal hs hlt => ?_, fun hzero => ?_,
    fun num handed i numDirty hs => ?_, fun hmid acts t hacts hrun => call_ends hi hmid hacts hrun⟩
  · obtain ⟨hworkers, hempty, hpos, -⟩ := hi.resizing hs
    exact ⟨0, idle_of_countP_zero (flow_zero hempty).2.1 (by omega)⟩
  · have hempty := flow_zero (hi.flow.trans hzero)
    exact ⟨hempty.1, hempty.2.2⟩
  · obtain ⟨-, -, -, -, -, hhanded, -⟩ := hi.receiving hs
    exact hhanded

/-- **Queue scanning does not stall** in any run in which no call of `resizePool` finds four
channels and no worker allowed. -/
theorem queueScan_sound {opts : Options} {channels : ℕ} {s t : State}
    (hstart : start opts channels = some s) (hcan : CanResize opts channels) {acts : List Act}
    (hgood : ∀ a ∈ acts, Good opts a) (hrun : Runs.run (step opts) s acts = some t) :
    Sound opts t := by
  have hkeep : ∀ s a t, Inv opts s → Good opts a → step opts s a = some t → Inv opts t :=
    fun _ _ _ hi hgood hstep => step_inv hi hgood hstep
  have hinv := Runs.invariant_along hkeep acts s t (start_inv hcan hstart)
    (Runs.along_of_forall acts hgood) hrun
  exact hinv.sound

/-- A round of one channel that is dirty, and the same again. -/
def dirtyRound : List Act :=
  [.expand, .resized, .workTick id, .hand, .handedOut, .take 0, .answer 0 true, .collect,
    .roundEnd id, .hand, .handedOut]

theorem queueScan_sound_dirtyRound : ∃ s t, start ⟨20, 4, fun _ _ => true⟩ 1 = some s ∧
    Runs.run (step ⟨20, 4, fun _ _ => true⟩) s dirtyRound = some t ∧
      Sound ⟨20, 4, fun _ _ => true⟩ t := by
  have hgood : ∀ a ∈ dirtyRound, Good ⟨20, 4, fun _ _ => true⟩ a :=
    fun a _ channels _ => .inl (by decide)
  have hcan : CanResize ⟨20, 4, fun _ _ => true⟩ 1 := .inr (by decide)
  exact ⟨_, _, rfl, rfl, queueScan_sound rfl hcan hgood rfl⟩

/-- With four channels and no worker allowed the first round waits for a response that nobody sends:
nothing at all can happen. -/
theorem queueScan_stalls : ∃ s t, start ⟨20, 0, fun _ _ => false⟩ 4 = some s ∧
    Runs.run (step ⟨20, 0, fun _ _ => false⟩) s
      [.resized, .workTick id, .hand, .hand, .hand, .hand, .handedOut] = some t ∧
    t.stage = .receiving 4 4 0 0 ∧ ∀ a, step ⟨20, 0, fun _ _ => false⟩ t a = none := by
  refine ⟨_, _, rfl, rfl, rfl, fun a => ?_⟩
  cases a <;> rfl

end Xmq.QueueScan
