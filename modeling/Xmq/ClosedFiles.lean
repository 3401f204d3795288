import Xmq.FinishedMessages

/-!
# Closed files

`Close` lets go of its file on two of its three ways out. On the third, where the first rename has
moved the file to the output dir, it returns before, and the logger goes on with a file that is
closed: what `updateFile` opens takes its place, but any other operation finds it.

In a run in which no `Close` takes that way the file of the logger is open whenever there is one,
and nothing is done to a file that was closed.
-/

namespace Xmq.ToFile

open Outcomes Runs

variable {s t : State} {opts : Options} {init : List File} {r : Round} {limit : ℕ}

/-! ### `Close` -/

theorem operate_out {call : ℕ → Call} {effect : ℕ → ℕ → State → State}
    (heffect : ∀ h i s, (effect h i s).out = s.out) (out : OsFile) (err : Option OsError)
    (s : State) :
    Outcome (operate call effect out err) s (fun _ t => t.out = s.out) fun _ _ => True := by
  cases out with
  | none => exact rfl
  | some h =>
      cases hh : s.handles[h]? with
      | none => simp only [Outcome, operate, hh, State.record]
      | some handle =>
          cases hclosed : handle.closed with
          | true => simp [Outcome, operate, hh, hclosed, State.record]
          | false =>
              cases err with
              | some err => simp [Outcome, operate, hh, hclosed, State.record]
              | none => simp [Outcome, operate, hh, hclosed, heffect, State.record]

theorem finishGzip_out (err : Option OsError) (s : State) :
    Outcome (finishGzip err) s (fun _ t => t.out = s.out) fun _ _ => True := by
  refine Outcome.of_get_bind ?_
  split
  · refine Outcome.bind (R := fun _ t => t.out = s.out) (Outcome.of_get_bind ?_) ?_
    · split
      · trivial
      · split
        · exact Outcome.of_pure rfl
        · exact Outcome.of_modify_bind (operate_out (by intros; rfl) _ err _)
    · rintro err t ht
      cases err with
      | none => exact ht
      | some err => trivial
  · exact Outcome.of_pure rfl

theorem moveFile_out (opts : Options) (limit : ℕ) (a : CloseAnswers) (hout : s.out ≠ none) :
    Outcome (moveFile opts limit a) s (fun _ t => t.out = none ↔ ¬ Moved opts a)
      fun _ _ => True := by
  rw [moveFile]
  split
  · rename_i hdir
    exact Outcome.of_modify (iff_of_true rfl fun hm => hm.1 hdir)
  · rename_i hdir
    split
    · rename_i hrename
      exact Outcome.of_pure (iff_of_false hout (not_not.mpr ⟨hdir, hrename⟩))
    · rename_i hrename
      have hloop : Outcome (iterate .hangs (nextRename a) limit 0) s (fun _ _ => True)
          fun _ _ => True := by
        refine Outcome.loop (I := fun _ _ => True) (fun k t _ => ?_) (fun _ _ _ => trivial) trivial
        rw [nextRename]
        split <;> trivial
      refine hloop.bind fun _ t _ => Outcome.of_modify (iff_of_true rfl fun hm => ?_)
      rw [hm.2] at hrename
      cases hrename
    · trivial

/-- **Where `Close` returns** it has let go of the file, unless it has moved it at once. -/
theorem close_out (opts : Options) (limit : ℕ) (a : CloseAnswers) (s : State) :
    Outcome (close opts limit a) s
      (fun _ t => t.out = none ↔ s.out = none ∨ ¬ Moved opts a) fun _ _ => True := by
  refine Outcome.of_get_bind ?_
  split
  · rename_i hout
    exact Outcome.of_pure (iff_of_true hout (.inl hout))
  · rename_i hout
    refine (finishGzip_out a.gzip s).bind fun _ t ht => ?_
    refine Outcome.fatal_bind (operate_out (by intros; rfl) s.out a.sync t) (fun u hu => ?_)
      fun _ _ _ => trivial
    refine Outcome.fatal_bind (operate_out (by intros; rfl) s.out a.close u) (fun v hv => ?_)
      fun _ _ _ => trivial
    have hv : v.out = s.out := hv.trans (hu.trans ht)
    refine (moveFile_out opts limit a (hv ▸ hout)).returns fun _ w hw => ?_
    rw [hw, or_iff_right hout]

/-- `Close` has nothing to do where there is no file. -/
theorem close_idle (opts : Options) (limit : ℕ) (a : CloseAnswers) (hout : s.out = none) :
    close opts limit a s = .ok () s := by
  show (if s.out = none then pure () else _ : Prog Unit) s = _
  rw [if_pos hout]
  rfl

/-! ### Runs -/

/-- No `Close` of this round that finds a file moves it at once. -/
def Round.Settles (opts : Options) (m : Machine) (r : Round) : Prop :=
  m.state.out ≠ none → r.closes opts m.state = true → ¬ Moved opts r.close

/-- What holds of a router as long as no `Close` has moved its file at once. -/
structure Machine.Proper (opts : Options) (init : List File) (m : Machine) : Prop where
  unclosed : Each Unclosed m.state.history
  sound : (∀ e, m.status ≠ .ended e) → Sound opts init m.state ∧
    ∃ pending, Ledger init pending m.state ∧ m.locals.Ready opts pending m.state

theorem Machine.Proper.next {m m' : Machine} (hm : m.Proper opts init)
    (hsettles : r.Settles opts m) (hstep : step opts limit m r = some m') :
    m'.Proper opts init := by
  have hrunning := step_running hstep
  obtain ⟨hs, pending, hl, hr⟩ := hm.sound fun e he => by
    rw [hrunning] at he
    cases he
  rcases step_outcome hstep (round_outcome limit r hs hl hr) with ⟨⟨pending, hl, hr, hs⟩, -⟩ |
    ⟨e, hstatus, -, hunclosed⟩
  · have hs : Sound opts init m'.state := hs.resolve_right fun ⟨_, _, hopen, hcloses, hmoved⟩ =>
      hsettles hopen hcloses hmoved
    exact ⟨hs.tracked.unclosed, fun _ => ⟨hs, pending, hl, hr⟩⟩
  · exact ⟨hunclosed, fun hrunning => absurd hstatus (hrunning e)⟩

/-- **Closed files are left alone** in a run in which no `Close` moves a file at once. -/
theorem closed_unused (opts : Options) (filenameFormat : String) (zero : Time) (init : List File)
    (limit : ℕ) (rounds : List Round) {m : Machine}
    (hrun : Runs.run (step opts limit) (Machine.start opts filenameFormat zero init) rounds =
      some m)
    (hsettles : Runs.Along (step opts limit) (fun m r => r.Settles opts m)
      (Machine.start opts filenameFormat zero init) rounds) :
    (∀ before c after, m.state.history = before ++ c :: after →
        ∀ h ∈ c.handle, .close h ∉ before) ∧
      ((∀ e, m.status ≠ .ended e) →
        ∀ h, m.state.out = some h → ∃ i, m.state.handles[h]? = some ⟨i, false⟩) ∧
      ∀ s t a, close opts limit a s = .ok () t →
        (t.out = none ↔ s.out = none ∨ ¬ Moved opts a) ∧
          (t.out = none → (∀ now later, t.needsRotation opts now later = true) ∧
            ∀ b, close opts limit b t = .ok () t) := by
  have hproper : m.Proper opts init := by
    refine Runs.invariant_along (fun s r t hs hgood hstep => hs.next hgood hstep) rounds _ m ?_
      hsettles hrun
    exact ⟨each_nil _, fun _ => ⟨Machine.start_sound opts filenameFormat zero init, [],
      Machine.start_ledger opts filenameFormat zero init,
      Machine.start_ready opts filenameFormat zero init⟩⟩
  refine ⟨fun before c after h => hproper.unclosed before c after h, fun hstatus h hout => ?_,
    fun s t a h => ⟨(close_out opts limit a s).ok h, fun hout => ?_⟩⟩
  · cases (hproper.sound hstatus).1 with
    | idle hnone _ =>
        rw [hout] at hnone
        cases hnone
    | writing k i buf hw =>
        rw [hw.out] at hout
        cases hout
        exact ⟨i, hw.handle⟩
  · exact ⟨needsRotation_idle hout, fun b => close_idle opts limit b hout⟩

/-- The first name of a finished file is taken, and so no `Close` moves it at once. -/
theorem closed_unused_twoFiles :
    ∃ m, Runs.run (step gzipOptions 4) (Machine.start gzipOptions "<REV>" ⟨0, id⟩ []) twoFiles =
        some m ∧
      m.status = .returned ∧ m.state.out = none ∧
      ∀ before c after, m.state.history = before ++ c :: after →
        ∀ h ∈ c.handle, .close h ∉ before := by
  obtain ⟨m, hrun, hstatus, hout⟩ := Runs.exists_of_run (step gzipOptions 4)
    (Machine.start gzipOptions "<REV>" ⟨0, id⟩ []) twoFiles
    (fun m => m.status = .returned ∧ m.state.out = none) (by decide +kernel)
  have hmoved : ∀ r ∈ twoFiles, ¬ Moved gzipOptions r.close := by
    simp [twoFiles, fineRound, Moved, exclusiveRename]
  have halong : Runs.Along (step gzipOptions 4) (fun m r => r.Settles gzipOptions m)
      (Machine.start gzipOptions "<REV>" ⟨0, id⟩ []) twoFiles :=
    Runs.along_imp (I := fun _ => True) (fun _ _ _ _ _ _ => trivial) (fun _ _ _ h _ _ => h)
      twoFiles _ trivial (Runs.along_of_forall twoFiles hmoved)
  exact ⟨m, hrun, hstatus, hout,
    (closed_unused gzipOptions "<REV>" ⟨0, id⟩ [] 4 twoFiles hrun halong).1⟩

/-- A file that is moved at once, and closed again. -/
def closedTwice : List Round :=
  [fineRound 0 (.logChan [104]), fineRound 0 .hupChan, fineRound 0 .hupChan]

/-- What happens until the second `Close`. -/
def closedTwiceCalls : List Call :=
  [.stat 0, .write 0, .write 0, .logged ⟨0, [104]⟩ 0, .write 0, .sync 0,
    .finish ⟨0, [104]⟩ [⟨[104, 10], 2⟩], .write 0, .sync 0, .close 0]

/-- The first `Close` leaves its file, and the second one syncs it once more. -/
theorem closed_synced :
    (∃ m, Runs.run (step gzipOptions 4) (Machine.start gzipOptions "<REV>" ⟨0, id⟩ [])
        (closedTwice.take 2) = some m ∧
      m.state.history = closedTwiceCalls ∧ m.state.out = some 0) ∧
    ∃ m, Runs.run (step gzipOptions 4) (Machine.start gzipOptions "<REV>" ⟨0, id⟩ []) closedTwice =
        some m ∧
      m.state.history = closedTwiceCalls ++ [.sync 0] ∧ .close 0 ∈ closedTwiceCalls ∧
      m.status = .ended .exit := by
  refine ⟨?_, ?_⟩
  · exact Runs.exists_of_run (step gzipOptions 4) (Machine.start gzipOptions "<REV>" ⟨0, id⟩ [])
      (closedTwice.take 2) (fun m => m.state.history = closedTwiceCalls ∧ m.state.out = some 0)
      (by decide)
  · exact Runs.exists_of_run (step gzipOptions 4) (Machine.start gzipOptions "<REV>" ⟨0, id⟩ [])
      closedTwice (fun m => m.state.history = closedTwiceCalls ++ [.sync 0] ∧
        .close 0 ∈ closedTwiceCalls ∧ m.status = .ended .exit) (by decide)

end Xmq.ToFile
