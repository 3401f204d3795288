import Xmq.FileRouter

/-!
# Finished messages

A message is finished when it is on disk together with what was written to its file before it: in
every run of the router, whatever the system answers. Where the file of the logger is closed nothing
is finished: what is written then may be lost, but every way to `Finish` leads through a `Sync` of
that file, and it fails.
-/

namespace Xmq.ToFile

open Outcomes Runs

variable {s t : State} {opts : Options} {init : List File} {m : Message} {h : ℕ}
variable {pending : List Message} {r : Round} {l : Locals}

/-! ### A file that is closed -/

/-- The process ends, for another reason than the slice. -/
def Quits (s : State) (e : Ending) (t : State) : Prop := Quiet s t ∧ e ≠ .indexOutOfRange

theorem Quits.trans {u : State} {e : Ending} (hq : Quiet s t) (h : Quits t e u) : Quits s e u :=
  ⟨hq.trans h.1, h.2⟩

theorem Quits.stopped {e : Ending} (hq : Quits s e t) (hl : Ledger init pending s) :
    Stopped opts init e t := hl.stopped hq.1 fun _ => hq.2

theorem Stale.operate_eq {call : ℕ → Call} {effect : ℕ → ℕ → State → State} {err : Option OsError}
    (hs : Stale h s) :
    operate call effect (some h) err s = .ok (some .closed) (s.record (call h)) := by
  obtain ⟨i, hi⟩ := hs.handle
  simp [operate, hi]

/-- The file of the logger is synced in vain. -/
theorem Stale.osSync_outcome (hs : Stale h s) (err : Option OsError) :
    Outcome (osSync s.out err) s (fun err t => err ≠ none ∧ Quiet s t) (Quits s) := by
  rw [hs.out, osSync, Outcome, hs.operate_eq]
  exact ⟨Option.some_ne_none _, quiet_record trivial⟩

/-- The gzip writer has been closed already. -/
theorem Stale.gzipClose_outcome (hs : Stale h s) (hz : s.gzipWriter.isSome) (err : Option OsError) :
    Outcome (gzipClose err) s (fun err t => err = none ∧ t = s) (Quits s) := by
  obtain ⟨z, hz⟩ := Option.isSome_iff_exists.mp hz
  have hclosed : z.closed = true := by
    rcases hs.drained.gzip with hz' | ⟨buf, hz'⟩
    · rw [hz] at hz'
      cases hz'
    · rw [hz] at hz'
      cases hz'
      rfl
  refine Outcome.of_get_bind ?_
  rw [hz]
  dsimp only
  rw [if_pos hclosed]
  exact Outcome.of_pure ⟨rfl, rfl⟩

theorem Stale.finishGzip_outcome (hs : Stale h s) (err : Option OsError) :
    Outcome (finishGzip err) s (fun _ t => t = s) (Quits s) := by
  refine Outcome.of_get_bind ?_
  split
  · rename_i hz
    refine (hs.gzipClose_outcome hz err).bind ?_
    rintro _ _ ⟨rfl, rfl⟩
    exact Outcome.of_pure rfl
  · exact Outcome.of_pure rfl

theorem Stale.close_outcome (limit : ℕ) (a : CloseAnswers) (hs : Stale h s) :
    Outcome (close opts limit a) s (fun _ _ => False) (Quits s) := by
  refine Outcome.of_get_bind ?_
  rw [if_neg (by rw [hs.out]; nofun)]
  refine (hs.finishGzip_outcome a.gzip).bind ?_
  rintro - t rfl
  refine Outcome.fatal_bind (hs.osSync_outcome a.sync) ?_ ?_
  · rintro u ⟨herr, -⟩
    exact absurd rfl herr
  · rintro e u ⟨-, hq⟩
    exact ⟨hq, nofun⟩

theorem Stale.updateFile_outcome (limit : ℕ) (c : CloseAnswers) (a : UpdateAnswers)
    (hs : Stale h s) :
    Outcome (updateFile opts limit c a) s (fun _ _ => False) (Quits s) :=
  (hs.close_outcome limit c).bind fun _ _ h => h.elim

theorem Stale.sync_outcome (a : SyncAnswers) (hs : Stale h s) :
    Outcome (sync opts a) s (fun err t => err ≠ none ∧ Quiet s t) (Quits s) := by
  refine Outcome.of_get_bind ?_
  split
  · rename_i hz
    refine (hs.gzipClose_outcome hz a.gzip).bind ?_
    rintro _ _ ⟨rfl, rfl⟩
    refine (hs.osSync_outcome a.sync).bind ?_
    rintro err t ⟨herr, hq⟩
    exact Outcome.of_modify_bind (Outcome.of_pure ⟨herr, hq.trans (quiet_of_eq rfl rfl)⟩)
  · exact hs.osSync_outcome a.sync

theorem Stale.writerWrite_outcome (hs : Stale h s) (p : List UInt8) (err : Option OsError) :
    Outcome (writerWrite p err) s (fun err t => Quiet s t ∧ (err = none → Stale h t))
      (Quits s) := by
  refine Outcome.of_get_bind ?_
  rcases hs.drained.writer with hw | hw
  · rw [hw]
    show Outcome (osWrite (some h) p err) s _ _
    rw [osWrite, Outcome, hs.operate_eq]
    exact ⟨quiet_record trivial, fun he => by cases he⟩
  · rw [hw]
    rcases hs.drained.gzip with hz | ⟨buf, hz⟩
    · simp only [Outcome, gzipWrite, hz]
      exact ⟨.refl s, fun he => by cases he⟩
    · simp only [Outcome, gzipWrite, hz]
      exact ⟨quiet_of_concat (c := .write h) trivial rfl rfl,
        fun _ => ⟨hs.out, hs.handle, ⟨.inr ⟨buf, hz⟩, .inr hw⟩⟩⟩

theorem Stale.write_outcome (hs : Stale h s) (p : List UInt8) (err : Option OsError) :
    Outcome (write p err) s (fun err t => Quiet s t ∧ (err = none → Stale h t)) (Quits s) := by
  refine (hs.writerWrite_outcome p err).bind ?_
  rintro err t ⟨hst, hstale⟩
  refine Outcome.of_modify_bind (Outcome.of_pure ⟨hst.trans (quiet_of_eq rfl rfl), fun he => ?_⟩)
  have hs := hstale he
  exact ⟨hs.out, hs.handle, ⟨hs.drained.gzip, hs.drained.writer⟩⟩

theorem Stale.writeMessage_outcome (hs : Stale h s) (r : Round) (m : Message) :
    Outcome (writeMessage r m) s
      (fun _ t => (∃ u i, Quiet s u ∧ t.history = u.history ++ [.logged m i] ∧
        t.arrived = u.arrived) ∧ Stale h t) (Quits s) := by
  refine Outcome.fatal_bind (hs.write_outcome m.body r.write) ?_ ?_
  · rintro t ⟨hst, hs⟩
    refine Outcome.fatal_bind (((hs rfl).write_outcome [10] r.newline).mono (fun _ _ h => h)
      fun e u => .trans hst) ?_ ?_
    · rintro u ⟨htu, hs⟩
      have hs := hs rfl
      exact Outcome.of_modify ⟨⟨u, _, hst.trans htu, rfl, rfl⟩, hs.out, hs.handle, hs.drained⟩
    · rintro e u ⟨htu, -⟩
      exact ⟨hst.trans htu, nofun⟩
  · rintro e t ⟨hst, -⟩
    exact ⟨hst, nofun⟩

/-! ### Rounds with a file that is closed -/

/-- The slice has room. -/
structure Locals.Room (opts : Options) (l : Locals) : Prop where
  length : l.output.length = opts.maxInFlight
  room : 0 < opts.maxInFlight → l.pos < opts.maxInFlight

/-- The slice has room, or is full and will be emptied. -/
structure Locals.Filled (opts : Options) (l : Locals) : Prop where
  length : l.output.length = opts.maxInFlight
  room : 0 < opts.maxInFlight → l.pos < opts.maxInFlight ∨ l.sync = true

theorem Stale.store_outcome (hs : Stale h s) (r : Round) (hl : Ledger init pending s)
    (hm : ∀ n ∈ loggedNumbers s.history, n < m.number) (harrived : m.number < s.arrived)
    (hr : l.Room opts) :
    Outcome (writeMessage r m >>= fun _ => l.store m) s
      (fun l' t => ∃ pending', Ledger init pending' t ∧ Stale h t ∧ l'.Filled opts)
      (Stopped opts init) := by
  refine ((hs.writeMessage_outcome r m).mono (fun _ _ h => h) fun e t ht => ht.stopped hl).bind ?_
  rintro - t ⟨⟨u, i, hsu, hhistory, harrived'⟩, hs⟩
  have hledger : Ledger init (pending ++ [m]) t := by
    refine (hl.quiet hsu).concat ?_ (by rwa [harrived', hsu.arrived]) hhistory
    rw [hsu.loggedNumbers]
    exact hm
  rw [Locals.store, hr.length]
  split
  · refine Outcome.of_pure ⟨_, hledger, hs, List.length_set.trans hr.length, fun _ => ?_⟩
    show l.pos + 1 < opts.maxInFlight ∨ (l.sync || decide (l.pos + 1 = opts.maxInFlight)) = true
    rw [Bool.or_eq_true, decide_eq_true_iff]
    omega
  · rename_i hpos
    exact hledger.stopped (.refl t) fun hmax => absurd (hr.room hmax) hpos

theorem Stale.select_outcome (hs : Stale h s) (limit : ℕ) (r : Round) (hl : Ledger init pending s)
    (hr : l.Room opts) :
    Outcome (select opts limit r l) s
      (fun l' t => ∃ pending', Ledger init pending' t ∧ Stale h t ∧ l'.Filled opts)
      (Stopped opts init) := by
  cases hevent : r.event with
  | stopChan | termChan | hupChan =>
      rw [select, hevent]
      exact ⟨pending, hl, hs, hr.length, fun _ => .inr rfl⟩
  | ticker =>
      rw [select, hevent]
      refine Outcome.of_get_bind ?_
      split
      · split
        · exact ⟨pending, hl, hs, hr.length, fun _ => .inr rfl⟩
        · exact ((hs.updateFile_outcome limit r.close r.update).mono (fun _ _ h => h) fun e t ht =>
            ht.stopped hl).bind fun _ _ h => h.elim
      · exact ⟨pending, hl, hs, hr.length, fun _ => .inr rfl⟩
  | logChan body =>
      rw [select, hevent]
      refine ((receive_outcome body s).mono (fun _ _ h => h) fun _ _ h => h.elim).bind ?_
      rintro m t ⟨rfl, rfl⟩
      have hst : Stale h { s with arrived := s.arrived + 1 } := ⟨hs.out, hs.handle, hs.drained⟩
      refine Outcome.of_get_bind ?_
      split
      · exact ((hst.updateFile_outcome limit r.close r.update).mono (fun _ _ h => h) fun e t ht =>
          ht.stopped hl.receive).bind fun _ _ h => h.elim
      · exact hst.store_outcome r hl.receive hl.arrived (Nat.lt_succ_self _) hr

/-- **A round with a closed file** finishes nothing. -/
theorem Stale.round_outcome (hs : Stale h s) (limit : ℕ) (r : Round) (hl : Ledger init pending s)
    (hr : l.Room opts) :
    Outcome (round opts limit r l) s
      (fun l' t => ∃ pending', Ledger init pending' t ∧ Stale h t ∧ l'.Room opts)
      (Stopped opts init) := by
  refine (hs.select_outcome limit r hl hr).bind ?_
  rintro l t ⟨pending, hl, hs, hfilled⟩
  have hflush : Outcome (flush opts r l) t
      (fun l' u => Ledger init pending u ∧ Stale h u ∧ l'.Room opts) (Stopped opts init) := by
    rw [flush]
    split
    · split
      · refine Outcome.fatal_bind ((hs.sync_outcome r.sync).mono (fun _ _ h => h) fun e u hu =>
          hu.stopped hl) ?_ ?_
        · rintro u ⟨herr, -⟩
          exact absurd rfl herr
        · rintro e u ⟨-, hq⟩
          exact hl.stopped hq fun _ he => by cases he
      · rename_i hpos
        have hzero : l.pos = 0 := Nat.eq_zero_of_not_pos hpos
        exact ⟨hl, hs, hfilled.length, fun hmax => hzero ▸ hmax⟩
    · rename_i hsync
      rw [Bool.or_eq_true, not_or] at hsync
      exact ⟨hl, hs, hfilled.length, fun hmax => (hfilled.room hmax).resolve_right hsync.1⟩
  refine hflush.bind ?_
  rintro l u ⟨hl, hs, hroom⟩
  rw [closing]
  split
  · exact ((hs.close_outcome limit r.close).mono (fun _ _ h => h) fun e v hv => hv.stopped hl).bind
      fun _ _ h => h.elim
  · exact ⟨pending, hl, hs, hroom⟩

/-! ### Runs -/

/-- What holds of the router at any time. -/
structure Machine.Sane (opts : Options) (init : List File) (m : Machine) : Prop where
  acknowledged : Each (Acknowledged init) m.state.history
  numbers : (loggedNumbers m.state.history).Pairwise (· < ·)
  inRange : 0 < opts.maxInFlight → m.status ≠ .ended .indexOutOfRange
  running : m.status = .running → ∃ pending, Ledger init pending m.state ∧
    (Sound opts init m.state ∧ m.locals.Ready opts pending m.state ∨
      (∃ h, Stale h m.state) ∧ m.locals.Room opts)

theorem Machine.start_ledger (opts : Options) (filenameFormat : String) (zero : Time)
    (init : List File) : Ledger init [] (Machine.start opts filenameFormat zero init).state :=
  ⟨each_nil _, List.Pairwise.nil, nofun, nofun, List.nodup_nil, nofun⟩

theorem Machine.start_sound (opts : Options) (filenameFormat : String) (zero : Time)
    (init : List File) :
    Sound opts init (Machine.start opts filenameFormat zero init).state := by
  refine .idle rfl ⟨fun j => ⟨(List.append_nil _).symm, nofun⟩, ⟨nofun, each_nil _⟩, fun _ => rfl⟩

theorem Machine.start_ready (opts : Options) (filenameFormat : String) (zero : Time)
    (init : List File) :
    (Machine.start opts filenameFormat zero init).locals.Ready opts []
      (Machine.start opts filenameFormat zero init).state :=
  ⟨⟨List.length_replicate, rfl, rfl⟩, id, rfl, fun _ => rfl⟩

theorem step_running {limit : ℕ} {m m' : Machine} (hstep : step opts limit m r = some m') :
    m.status = .running := by
  cases hm : m.status with
  | running => rfl
  | returned | ended =>
      rw [step, hm] at hstep
      cases hstep

/-- The step of a router whose round leads to something. -/
theorem step_outcome {limit : ℕ} {m m' : Machine} {Q : Locals → State → Prop}
    {E : Ending → State → Prop} (hstep : step opts limit m r = some m')
    (hround : Outcome (round opts limit r m.locals) m.state Q E) :
    (Q m'.locals m'.state ∧ ∀ e, m'.status ≠ .ended e) ∨
      ∃ e, m'.status = .ended e ∧ E e m'.state := by
  rw [step, step_running hstep] at hstep
  dsimp only at hstep
  split at hstep
  · rename_i l s hr
    cases hstep
    refine .inl ⟨hround.ok hr, fun e => ?_⟩
    show (if l.exit then Status.returned else .running) ≠ _
    split <;> nofun
  · rename_i e s hr
    cases hstep
    exact .inr ⟨e, rfl, hround.error hr⟩

theorem Machine.Sane.next {limit : ℕ} {m m' : Machine} (hm : m.Sane opts init)
    (hstep : step opts limit m r = some m') : m'.Sane opts init := by
  obtain ⟨pending, hl, hm⟩ := hm.running (step_running hstep)
  have hround : Outcome (round opts limit r m.locals) m.state
      (fun l t => ∃ pending, Ledger init pending t ∧
        (Sound opts init t ∧ l.Ready opts pending t ∨ (∃ h, Stale h t) ∧ l.Room opts))
      (Stopped opts init) := by
    rcases hm with ⟨hs, hr⟩ | ⟨⟨h, hs⟩, hr⟩
    · refine (round_outcome limit r hs hl hr).mono ?_ fun e t ht => ht.1
      rintro l t ⟨pending, hl, hr, hs | ⟨-, hs, -⟩⟩
      · exact ⟨pending, hl, .inl ⟨hs, hr⟩⟩
      · exact ⟨pending, hl, .inr ⟨hs, hr.length, hr.room⟩⟩
    · refine (hs.round_outcome limit r hl hr).returns ?_
      rintro l t ⟨pending, hl, hs, hr⟩
      exact ⟨pending, hl, .inr ⟨⟨h, hs⟩, hr⟩⟩
  rcases step_outcome hstep hround with ⟨⟨pending, hl, hm'⟩, hstatus⟩ | ⟨e, hstatus, he⟩
  · exact ⟨hl.acknowledged, hl.numbers, fun _ => hstatus _, fun _ => ⟨pending, hl, hm'⟩⟩
  · refine ⟨he.acknowledged, he.numbers, fun hmax hended => ?_, fun hrunning => ?_⟩
    · rw [hstatus] at hended
      cases hended
      exact he.inRange hmax rfl
    · rw [hstatus] at hrunning
      cases hrunning

/-- **What is finished is on disk.** -/
theorem finished_on_disk (opts : Options) (hmax : 0 < opts.maxInFlight) (filenameFormat : String)
    (zero : Time) (init : List File) (limit : ℕ) (rounds : List Round) {m : Machine}
    (hrun : Runs.run (step opts limit) (Machine.start opts filenameFormat zero init) rounds =
      some m) :
    (∀ before msg files after, m.state.history = before ++ .finish msg files :: after →
        OnDisk init before msg files ∧ ∀ files', .finish msg files' ∉ before) ∧
      (∀ i, ((loggedTo m.state.history i).map Message.number).Pairwise (· < ·)) ∧
      m.status ≠ .ended .indexOutOfRange := by
  have hsane : m.Sane opts init := by
    refine Runs.invariant_run (fun s r t hs hstep => hs.next hstep) rounds _ m ?_ hrun
    refine ⟨each_nil _, List.Pairwise.nil, fun _ => nofun, fun _ => ⟨[], ?_, .inl ⟨?_, ?_⟩⟩⟩
    · exact Machine.start_ledger opts filenameFormat zero init
    · exact Machine.start_sound opts filenameFormat zero init
    · exact Machine.start_ready opts filenameFormat zero init
  refine ⟨fun before msg files after h => hsane.acknowledged before _ after h, fun i => ?_,
    hsane.inRange hmax⟩
  exact hsane.numbers.sublist (loggedTo_sublist _ i)

/-- A logger that compresses, and moves its files from `/work` to `/out`. -/
def gzipOptions : Options := ⟨2, "/out", "/work", "%Y", 6, true, false, 0, 0⟩

/-- A round in which the system answers without an error, but that `taken` names are taken when a
file is moved. -/
def fineRound (taken : ℕ) (event : Event) : Round where
  event := event
  now := ⟨0, id⟩
  later := ⟨0, id⟩
  update := ⟨⟨0, id⟩, ⟨0, id⟩, none, fun k => ⟨none, some .notExist, .ok k, none⟩⟩
  write := none
  newline := none
  starved := false
  sync := ⟨none, none⟩
  close := ⟨none, none, none, fun i => ⟨if i < taken then some .exist else none, none⟩⟩

/-- Each of two messages has a file of its own. -/
def twoFiles : List Round :=
  [fineRound 1 (.logChan [104]), fineRound 1 .hupChan, fineRound 1 (.logChan [105]),
    fineRound 1 .stopChan]

/-- What happens before the second message is finished. -/
def twoFilesCalls : List Call :=
  [.stat 0, .write 0, .write 0, .logged ⟨0, [104]⟩ 0, .write 0, .sync 0,
    .finish ⟨0, [104]⟩ [⟨[104, 10], 2⟩], .write 0, .sync 0, .close 0,
    .stat 1, .write 1, .write 1, .logged ⟨1, [105]⟩ 1, .write 1, .sync 1]

theorem finished_on_disk_twoFiles :
    ∃ m, Runs.run (step gzipOptions 4) (Machine.start gzipOptions "<REV>" ⟨0, id⟩ []) twoFiles =
        some m ∧
      m.state.history = twoFilesCalls ++ .finish ⟨1, [105]⟩ [⟨[104, 10], 2⟩, ⟨[105, 10], 2⟩] ::
        [.write 1, .sync 1, .close 1] ∧
      OnDisk [] twoFilesCalls ⟨1, [105]⟩ [⟨[104, 10], 2⟩, ⟨[105, 10], 2⟩] := by
  obtain ⟨m, hrun, hhistory⟩ := Runs.exists_of_run (step gzipOptions 4)
    (Machine.start gzipOptions "<REV>" ⟨0, id⟩ []) twoFiles
    (fun m => m.state.history = twoFilesCalls ++
      .finish ⟨1, [105]⟩ [⟨[104, 10], 2⟩, ⟨[105, 10], 2⟩] :: [.write 1, .sync 1, .close 1])
    (by decide +kernel)
  have hdisk := finished_on_disk gzipOptions (by decide) "<REV>" ⟨0, id⟩ [] 4 _ hrun
  exact ⟨m, hrun, hhistory, (hdisk.1 _ _ _ _ hhistory).1⟩

end Xmq.ToFile
