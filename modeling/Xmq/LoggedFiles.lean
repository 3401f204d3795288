import Mathlib.Data.List.Basic
import Xmq.FileLogger
import Xmq.Runs

/-!
# The files of a logger

What a file says is what it said at the start and a line for each message that was written to it. As
long as the logger has an open file, the buffer of the gzip writer is the end of what that file
says, and all other files are settled: they say it on disk. `Close` settles the last one.

* `Open` is what the steps of `Close`, `Write` and `Sync` have in common; `Writing`, `Flushed`,
  `Synced` and `Shut` are the states between them.
* System calls leave the messages that were logged and finished as they are (`Quiet`).
-/

namespace Xmq.ToFile

open Outcomes Runs

/-! ### Histories -/

def Message.line (m : Message) : List UInt8 := m.body ++ [10]

/-- The messages that were written to a file, in order. -/
def loggedTo (calls : List Call) (i : ℕ) : List Message :=
  calls.filterMap fun
    | .logged m j => if j = i then some m else none
    | _ => none

/-- A system call. -/
def Call.Quiet : Call → Prop
  | .logged _ _ | .finish _ _ => False
  | _ => True

/-- The handle that a call is on. -/
def Call.handle : Call → Option ℕ
  | .write h | .sync h | .stat h | .close h => some h
  | _ => none

/-- The call is not on a handle that was closed before. -/
def Unclosed (before : List Call) (c : Call) : Prop := ∀ h ∈ c.handle, .close h ∉ before

/-- Only system calls come between the states. -/
structure Quiet (s t : State) : Prop where
  calls : ∃ cs, t.history = s.history ++ cs ∧ ∀ c ∈ cs, c.Quiet
  arrived : t.arrived = s.arrived

variable {s t u : State} {c : Call} {i j h : ℕ} {calls : List Call}

theorem Quiet.refl (s : State) : Quiet s s := ⟨⟨[], (List.append_nil _).symm, nofun⟩, rfl⟩

theorem Quiet.trans (hst : Quiet s t) (htu : Quiet t u) : Quiet s u := by
  obtain ⟨⟨cs, hcs, hquiet⟩, harrived⟩ := hst
  obtain ⟨⟨ds, hds, hquiet'⟩, harrived'⟩ := htu
  refine ⟨⟨cs ++ ds, by rw [hds, hcs, List.append_assoc], fun c hc => ?_⟩, harrived'.trans harrived⟩
  exact (List.mem_append.mp hc).elim (hquiet c) (hquiet' c)

theorem quiet_of_eq (hh : t.history = s.history) (ha : t.arrived = s.arrived) : Quiet s t :=
  ⟨⟨[], by rw [hh, List.append_nil], nofun⟩, ha⟩

theorem quiet_of_concat (hc : c.Quiet) (hh : t.history = s.history ++ [c])
    (ha : t.arrived = s.arrived) : Quiet s t :=
  ⟨⟨[c], hh, List.forall_mem_singleton.mpr hc⟩, ha⟩

theorem loggedTo_append (as bs : List Call) (i : ℕ) :
    loggedTo (as ++ bs) i = loggedTo as i ++ loggedTo bs i := List.filterMap_append

theorem loggedTo_of_quiet (hq : ∀ c ∈ calls, c.Quiet) : loggedTo calls i = [] := by
  refine List.filterMap_eq_nil_iff.mpr fun c hc => ?_
  cases c with
  | logged | finish => cases hq _ hc
  | write | sync | stat | close => rfl

theorem Quiet.loggedTo (hq : Quiet s t) (i : ℕ) : loggedTo t.history i = loggedTo s.history i := by
  obtain ⟨⟨cs, hcs, hquiet⟩, -⟩ := hq
  rw [hcs, loggedTo_append, loggedTo_of_quiet hquiet, List.append_nil]

theorem loggedTo_logged (calls : List Call) (m : Message) (i j : ℕ) :
    loggedTo (calls ++ [.logged m i]) j =
      if i = j then loggedTo calls j ++ [m] else loggedTo calls j := by
  rw [loggedTo_append]
  by_cases hij : i = j
  · rw [if_pos hij]
    simp [loggedTo, hij]
  · rw [if_neg hij]
    simp [loggedTo, hij]

/-! ### Files -/

theorem fileAt_modify_ne {files : List File} {f : File → File} (hij : j ≠ i) :
    fileAt (files.modify i f) j = fileAt files j := by
  rw [fileAt, fileAt, List.getElem?_modify_ne _ _ (Ne.symm hij)]

theorem fileAt_modify_self {files : List File} {f : File → File} (hi : i < files.length) :
    fileAt (files.modify i f) i = f (fileAt files i) := by
  rw [fileAt, fileAt, List.getElem?_modify_eq, List.getElem?_eq_getElem hi]
  rfl

theorem fileAt_create (files : List File) (i : ℕ) :
    fileAt (files ++ [.empty]) i = fileAt files i := by
  rw [fileAt, fileAt]
  rcases Nat.lt_trichotomy i files.length with hi | rfl | hi
  · rw [List.getElem?_append_left hi]
  · rw [List.getElem?_concat_length, List.getElem?_eq_none (Nat.le_refl _)]
    rfl
  · rw [List.getElem?_eq_none (by rw [List.length_append]; exact hi),
      List.getElem?_eq_none (Nat.le_of_lt hi)]

/-- What a file says. -/
def text (init : List File) (s : State) (i : ℕ) : List UInt8 :=
  (fileAt init i).bytes ++ (loggedTo s.history i).flatMap Message.line

/-- The file says it, and on disk if there is a message among it. -/
structure Settled (init : List File) (s : State) (i : ℕ) : Prop where
  bytes : (fileAt s.files i).bytes = text init s i
  durable : loggedTo s.history i ≠ [] → (fileAt s.files i).durable = (fileAt s.files i).bytes.length

/-- The calls so far were on open handles, and those that were closed are. -/
structure Tracked (s : State) : Prop where
  closed : ∀ h, .close h ∈ s.history → ∃ i, s.handles[h]? = some ⟨i, true⟩
  unclosed : Each Unclosed s.history

variable {opts : Options} {init : List File}

theorem text_congr (hl : loggedTo t.history i = loggedTo s.history i) :
    text init t i = text init s i := by
  rw [text, text, hl]

theorem Settled.congr (hs : Settled init s i) (hf : fileAt t.files i = fileAt s.files i)
    (hl : loggedTo t.history i = loggedTo s.history i) : Settled init t i where
  bytes := by rw [hf, hs.bytes, text_congr hl]
  durable := by
    rw [hl, hf]
    exact hs.durable

theorem Tracked.congr (hs : Tracked s) (hh : t.handles = s.handles) (hc : t.history = s.history) :
    Tracked t := by
  constructor
  · rw [hh, hc]
    exact hs.closed
  · rw [hc]
    exact hs.unclosed

/-- What is not on a handle keeps the handles tracked, and so does what is on an open one, unless it
closes it. -/
theorem Tracked.record (hs : Tracked s) (ho : ∀ h ∈ c.handle, ∃ i, s.handles[h]? = some ⟨i, false⟩)
    (hc : ∀ h, c ≠ .close h) (hh : t.handles = s.handles) (ht : t.history = s.history ++ [c]) :
    Tracked t := by
  constructor
  · intro h hh'
    rw [ht] at hh'
    rw [hh]
    rcases List.mem_append.mp hh' with hh' | hh'
    · exact hs.closed h hh'
    · exact absurd (List.mem_singleton.mp hh').symm (hc h)
  · rw [ht]
    refine (each_concat _ _ _).mpr ⟨hs.unclosed, fun h hm hclosed => ?_⟩
    obtain ⟨i, hi⟩ := ho h hm
    obtain ⟨j, hj⟩ := hs.closed h hclosed
    rw [hi] at hj
    cases hj

/-! ### The open file -/

/-- There is no gzip writer where there should be none. -/
def FileLogger.Plain (opts : Options) (f : FileLogger) : Prop :=
  opts.gzip = false → f.gzipWriter = none

/-- The logger has the file `i` open as `h`, and the other files are settled. -/
structure Open (opts : Options) (init : List File) (h i : ℕ) (s : State) : Prop where
  out : s.out = some h
  handle : s.handles[h]? = some ⟨i, false⟩
  file : i < s.files.length
  others : ∀ j, j ≠ i → Settled init s j
  tracked : Tracked s
  plain : s.Plain opts

/-- What is written goes to `h`, where `buf` has not arrived yet. -/
inductive Buffered (h : ℕ) (f : FileLogger) : List UInt8 → Prop where
  | file (hz : f.gzipWriter = none) (hw : f.writer = some (.file (some h))) : Buffered h f []
  | gzip (buf : List UInt8) (hz : f.gzipWriter = some ⟨some h, buf, false⟩)
    (hw : f.writer = some .gzip) : Buffered h f buf
  /-- There is no gzip writer of this level. -/
  | level (hz : f.gzipWriter = none) (hw : f.writer = some .gzip) : Buffered h f []

theorem Buffered.congr {f g : FileLogger} {buf : List UInt8} (hb : Buffered h f buf)
    (hz : g.gzipWriter = f.gzipWriter) (hw : g.writer = f.writer) : Buffered h g buf := by
  cases hb with
  | file hz' hw' => exact .file (hz.trans hz') (hw.trans hw')
  | gzip _ hz' hw' => exact .gzip _ (hz.trans hz') (hw.trans hw')
  | level hz' hw' => exact .level (hz.trans hz') (hw.trans hw')

/-- A gzip writer has nothing more to write. -/
structure Drained (h : ℕ) (f : FileLogger) : Prop where
  gzip : f.gzipWriter = none ∨ ∃ buf, f.gzipWriter = some ⟨some h, buf, true⟩
  writer : f.writer = some (.file (some h)) ∨ f.writer = some .gzip

structure Writing (opts : Options) (init : List File) (h i : ℕ) (buf : List UInt8)
    (s : State) : Prop
    extends Open opts init h i s where
  buffered : Buffered h s.toFileLogger buf
  bytes : (fileAt s.files i).bytes ++ buf = text init s i

structure Flushed (opts : Options) (init : List File) (h i : ℕ) (s : State) :
    Prop extends Open opts init h i s where
  drained : Drained h s.toFileLogger
  bytes : (fileAt s.files i).bytes = text init s i

structure Synced (opts : Options) (init : List File) (h i : ℕ) (s : State) :
    Prop extends Open opts init h i s where
  drained : Drained h s.toFileLogger
  settled : Settled init s i

/-- No file is open, whatever the logger holds. -/
structure Rest (opts : Options) (init : List File) (s : State) : Prop where
  settled : ∀ j, Settled init s j
  tracked : Tracked s
  plain : s.Plain opts

/-- The logger holds a file that is closed. -/
structure Stale (h : ℕ) (s : State) : Prop where
  out : s.out = some h
  handle : ∃ i, s.handles[h]? = some ⟨i, true⟩
  drained : Drained h s.toFileLogger

/-- The process ends between system calls, all of them on open handles. -/
structure Failed (s : State) (e : Ending) (t : State) : Prop where
  quiet : Quiet s t
  unclosed : Each Unclosed t.history
  inRange : e ≠ .indexOutOfRange

theorem Failed.trans {e : Ending} (hq : Quiet s t) (hf : Failed t e u) : Failed s e u :=
  ⟨hq.trans hf.quiet, hf.unclosed, hf.inRange⟩

theorem Tracked.failed (ht : Tracked s) {e : Ending} (he : e ≠ .indexOutOfRange) : Failed s e s :=
  ⟨.refl s, ht.unclosed, he⟩

/-- System calls that leave the files as they are leave them settled. -/
theorem Settled.quiet (hs : Settled init s j) (hq : Quiet s t) (hf : t.files = s.files) :
    Settled init t j :=
  hs.congr (by rw [hf]) (hq.loggedTo j)

/-! ### Operations -/

theorem Outcome.fatal_bind {α : Type} {x : Prog (Option OsError)} {f : Unit → Prog α}
    {R : Option OsError → State → Prop} {Q : α → State → Prop} {E : Ending → State → Prop}
    (hx : Outcome x s R E) (hnone : ∀ t, R none t → Outcome (f ()) t Q E)
    (hsome : ∀ e t, R (some e) t → E .exit t) :
    Outcome (x >>= fun err => fatal err >>= f) s Q E := by
  refine hx.bind fun err t hR => ?_
  cases err with
  | none => exact hnone t hR
  | some e => exact hsome e t hR

theorem operate_open {call : ℕ → Call} {effect : ℕ → ℕ → State → State} {err : Option OsError}
    {Q : Option OsError → State → Prop} {E : Ending → State → Prop}
    (hh : s.handles[h]? = some ⟨i, false⟩) (hnone : Q none (effect h i (s.record (call h))))
    (hsome : ∀ e, Q (some e) (s.record (call h))) :
    Outcome (operate call effect (some h) err) s Q E := by
  cases err with
  | none => simpa [Outcome, operate, hh] using hnone
  | some e => simpa [Outcome, operate, hh] using hsome e

theorem quiet_record (hc : c.Quiet) : Quiet s (s.record c) := quiet_of_concat hc rfl rfl

theorem Open.tracked_record (ho : Open opts init h i s) (hc : c.handle = some h)
    (hclose : ∀ h, c ≠ .close h) : Tracked (s.record c) := by
  refine ho.tracked.record (fun k hk => ⟨i, ?_⟩) hclose rfl rfl
  rw [hc] at hk
  cases hk
  exact ho.handle

/-- An operation on the open file that ends the process. -/
theorem Open.failed (ho : Open opts init h i s) (hc : c.handle = some h) (hq : c.Quiet)
    (hclose : ∀ h, c ≠ .close h) : Failed s .exit (s.record c) :=
  ⟨quiet_record hq, (ho.tracked_record hc hclose).unclosed, nofun⟩

/-- An operation on the open file that changes its bytes, or what of it is on disk. -/
theorem Open.modify (ho : Open opts init h i s) (hc : c.handle = some h) (hq : c.Quiet)
    (hclose : ∀ h, c ≠ .close h) (f : File → File) :
    Open opts init h i { s.record c with files := s.files.modify i f } where
  out := ho.out
  handle := ho.handle
  file := by
    rw [List.length_modify]
    exact ho.file
  others j hj :=
    (ho.others j hj).congr (fileAt_modify_ne hj) ((quiet_record hq).loggedTo j)
  tracked := (ho.tracked_record hc hclose).congr rfl rfl
  plain := ho.plain

/-- The writers of an open file may be changed. -/
theorem Open.writer (ho : Open opts init h i s) (w : Option Writer) {z : Option GzipWriter}
    (hz : opts.gzip = false → z = none) :
    Open opts init h i { s with writer := w, gzipWriter := z } :=
  ⟨ho.out, ho.handle, ho.file, fun j hj => (ho.others j hj).congr rfl rfl,
    ho.tracked.congr rfl rfl, hz⟩

/-! ### `Close` -/

theorem osWrite_outcome (ho : Open opts init h i s) (p : List UInt8) (err : Option OsError) :
    Outcome (osWrite (some h) p err) s
      (fun err t => Quiet s t ∧ t.toFileLogger = s.toFileLogger ∧ (∀ e ∈ err, Failed s .exit t) ∧
        (err = none → Open opts init h i t ∧
          (fileAt t.files i).bytes = (fileAt s.files i).bytes ++ p)) (Failed s) := by
  refine operate_open ho.handle ?_ fun e => ?_
  · refine ⟨quiet_of_concat (c := .write h) trivial rfl rfl, rfl, nofun, fun _ => ?_⟩
    refine ⟨ho.modify (c := .write h) rfl trivial nofun (File.append p), ?_⟩
    exact congrArg File.bytes (fileAt_modify_self ho.file)
  · exact ⟨quiet_record trivial, rfl, fun _ _ => ho.failed rfl trivial nofun, nofun⟩

theorem gzipClose_outcome {buf : List UInt8} (hw : Writing opts init h i buf s)
    (hz : s.gzipWriter = some ⟨some h, buf, false⟩) (hwriter : s.writer = some .gzip)
    (err : Option OsError) :
    Outcome (gzipClose err) s
      (fun err t => Quiet s t ∧ (∀ e ∈ err, Failed s .exit t) ∧
        (err = none → Flushed opts init h i t)) (Failed s) := by
  refine Outcome.of_get_bind ?_
  rw [hz]
  refine Outcome.of_modify_bind ?_
  have ho := hw.writer s.writer (z := some ⟨some h, [], true⟩) fun hg => by
    rw [hw.plain hg] at hz
    cases hz
  have hquiet : Quiet s { s with gzipWriter := some ⟨some h, [], true⟩ } := quiet_of_eq rfl rfl
  refine (osWrite_outcome ho buf err).mono (fun err t ht => ?_) fun e t ht => ?_
  · obtain ⟨hq, hf, hfail, hok⟩ := ht
    refine ⟨hquiet.trans hq, fun e he => .trans hquiet (hfail e he), fun he => ?_⟩
    obtain ⟨hopen, hbytes⟩ := hok he
    refine ⟨hopen, ⟨.inr ⟨[], by rw [hf]⟩, .inr (by rw [hf, hwriter])⟩, ?_⟩
    rw [hbytes, text_congr ((hquiet.trans hq).loggedTo i)]
    exact hw.bytes
  · exact .trans hquiet ht

theorem finishGzip_outcome {buf : List UInt8} (hw : Writing opts init h i buf s)
    (err : Option OsError) :
    Outcome (finishGzip err) s (fun _ t => Quiet s t ∧ Flushed opts init h i t) (Failed s) := by
  refine Outcome.of_get_bind ?_
  cases hw.buffered with
  | file hz hwriter =>
      rw [if_neg (by rw [hz]; nofun)]
      refine Outcome.of_pure ⟨.refl s, hw.toOpen, ⟨.inl hz, .inl hwriter⟩, ?_⟩
      rw [← hw.bytes, List.append_nil]
  | level hz hwriter =>
      rw [if_neg (by rw [hz]; nofun)]
      refine Outcome.of_pure ⟨.refl s, hw.toOpen, ⟨.inl hz, .inr hwriter⟩, ?_⟩
      rw [← hw.bytes, List.append_nil]
  | gzip _ hz hwriter =>
      rw [if_pos (by rw [hz]; rfl)]
      refine (gzipClose_outcome hw hz hwriter err).bind fun err t ht => ?_
      obtain ⟨hq, hfail, hok⟩ := ht
      cases err with
      | some e => exact hfail e rfl
      | none => exact ⟨hq, hok rfl⟩

theorem osSync_outcome (hf : Flushed opts init h i s) (err : Option OsError) :
    Outcome (osSync (some h) err) s
      (fun err t => Quiet s t ∧ (∀ e ∈ err, Failed s .exit t) ∧
        (err = none → Synced opts init h i t ∧ t.toFileLogger = s.toFileLogger)) (Failed s) := by
  refine operate_open hf.handle ?_ fun e => ?_
  · refine ⟨quiet_of_concat (c := .sync h) trivial rfl rfl, nofun, fun _ => ⟨?_, rfl⟩⟩
    refine ⟨hf.toOpen.modify (c := .sync h) rfl trivial nofun File.sync, hf.drained, ?_⟩
    have hlog : loggedTo (s.record (.sync h)).history i = loggedTo s.history i :=
      (quiet_record (c := .sync h) trivial).loggedTo i
    have hfile := fileAt_modify_self (f := File.sync) hf.file
    refine ⟨?_, fun _ => ?_⟩
    · show (fileAt (s.files.modify i File.sync) i).bytes = _
      rw [hfile]
      exact hf.bytes.trans (text_congr hlog).symm
    · show (fileAt (s.files.modify i File.sync) i).durable =
        (fileAt (s.files.modify i File.sync) i).bytes.length
      rw [hfile]
      rfl
  · exact ⟨quiet_record trivial, fun _ _ => hf.failed rfl trivial nofun, nofun⟩

/-- A handle that is closed where it is open. -/
theorem Tracked.close (ht : Tracked s) (hh : s.handles[h]? = some ⟨i, false⟩) :
    Tracked { s.record (.close h) with
      handles := s.handles.modify h ({ · with closed := true }) } := by
  constructor
  · intro k hk
    by_cases hkh : h = k
    · subst hkh
      exact ⟨i, by simp [hh]⟩
    · rcases List.mem_append.mp hk with hk | hk
      · obtain ⟨j, hj⟩ := ht.closed k hk
        exact ⟨j, by simpa [hkh] using hj⟩
      · cases List.mem_singleton.mp hk
        exact absurd rfl hkh
  · refine (each_concat _ _ _).mpr ⟨ht.unclosed, fun k hk hclosed => ?_⟩
    cases hk
    obtain ⟨j, hj⟩ := ht.closed h hclosed
    rw [hh] at hj
    cases hj

theorem osClose_outcome (hs : Synced opts init h i s) (err : Option OsError) :
    Outcome (osClose (some h) err) s
      (fun err t => Quiet s t ∧ (∀ e ∈ err, Failed s .exit t) ∧
        (err = none → Rest opts init t ∧ Stale h t)) (Failed s) := by
  refine operate_open hs.handle ?_ fun e => ?_
  · refine ⟨quiet_of_concat (c := .close h) trivial rfl rfl, nofun, fun _ => ?_⟩
    refine ⟨⟨fun j => ?_, hs.tracked.close hs.handle, hs.plain⟩, hs.out, ⟨i, ?_⟩, hs.drained⟩
    · have hsettled : Settled init s j := by
        by_cases hj : j = i
        · exact hj ▸ hs.settled
        · exact hs.others j hj
      exact hsettled.congr rfl ((quiet_record (s := s) (c := .close h) trivial).loggedTo j)
    · show (s.handles.modify h _)[h]? = _
      rw [List.getElem?_modify_eq, hs.handle]
      rfl
  · refine ⟨quiet_record trivial, fun _ _ => ⟨quiet_record trivial, ?_, nofun⟩, nofun⟩
    exact (hs.tracked.close hs.handle).unclosed

/-- The optimistic rename of a `Close` does what it is for. -/
def Moved (opts : Options) (a : CloseAnswers) : Prop :=
  opts.workDir ≠ opts.outputDir ∧ exclusiveRename (a.rename 0) = none

/-- The logger lets go of its file. -/
theorem Rest.release (hr : Rest opts init s) (out : OsFile) :
    Rest opts init { s with out := out } :=
  ⟨fun j => (hr.settled j).congr rfl rfl, hr.tracked.congr rfl rfl, hr.plain⟩

theorem moveFile_outcome (opts : Options) (limit : ℕ) (a : CloseAnswers) (hr : Rest opts init s)
    (hs : Stale h s) :
    Outcome (moveFile opts limit a) s
      (fun _ t => Quiet s t ∧ Rest opts init t ∧ (t.out = none ∨ Moved opts a ∧ Stale h t))
      (Failed s) := by
  have hnone : Quiet s { s with out := none } ∧ Rest opts init { s with out := none } :=
    ⟨quiet_of_eq rfl rfl, hr.release none⟩
  rw [moveFile]
  split
  · exact ⟨hnone.1, hnone.2, .inl rfl⟩
  · rename_i hdir
    split
    · rename_i hrename
      exact ⟨.refl s, hr, .inr ⟨⟨hdir, hrename⟩, hs⟩⟩
    · have hloop : Outcome (iterate .hangs (nextRename a) limit 0) s (fun _ t => t = s)
          (Failed s) := by
        refine Outcome.loop (I := fun _ t => t = s) ?_ ?_ rfl
        · rintro k t rfl
          rw [nextRename]
          split
          · exact rfl
          · exact rfl
          · exact hr.tracked.failed nofun
        · rintro k t rfl
          exact hr.tracked.failed nofun
      refine hloop.bind ?_
      rintro - t rfl
      exact ⟨hnone.1, hnone.2, .inl rfl⟩
    · exact hr.tracked.failed nofun

/-- The logger has a file that is open, or none. -/
inductive Sound (opts : Options) (init : List File) (s : State) : Prop where
  | idle (hout : s.out = none) (hr : Rest opts init s)
  | writing (h i : ℕ) (buf : List UInt8) (hw : Writing opts init h i buf s)

theorem Sound.tracked (hs : Sound opts init s) : Tracked s := by
  cases hs with
  | idle hout hr => exact hr.tracked
  | writing h i buf hw => exact hw.tracked

theorem close_outcome (opts : Options) (limit : ℕ) (a : CloseAnswers) (hs : Sound opts init s) :
    Outcome (close opts limit a) s
      (fun _ t => Quiet s t ∧ Rest opts init t ∧
        (t.out = none ∨ s.out ≠ none ∧ Moved opts a ∧ ∃ h, Stale h t)) (Failed s) := by
  refine Outcome.of_get_bind ?_
  cases hs with
  | idle hout hr =>
      rw [if_pos hout]
      exact Outcome.of_pure ⟨.refl s, hr, .inl hout⟩
  | writing h i buf hw =>
      rw [hw.out, if_neg (Option.some_ne_none h)]
      refine (finishGzip_outcome hw a.gzip).bind ?_
      rintro - t ⟨hst, hflushed⟩
      refine Outcome.fatal_bind ((osSync_outcome hflushed a.sync).mono (fun err u hu => hu)
        fun e u => .trans hst) ?_ ?_
      · rintro u ⟨htu, -, hok⟩
        have hsu := hst.trans htu
        refine Outcome.fatal_bind ((osClose_outcome (hok rfl).1 a.close).mono (fun err v hv => hv)
          fun e v => .trans hsu) ?_ ?_
        · rintro v ⟨huv, -, hok⟩
          obtain ⟨hr, hstale⟩ := hok rfl
          have hsv := hsu.trans huv
          refine (moveFile_outcome opts limit a hr hstale).mono ?_ fun e w => .trans hsv
          rintro - w ⟨hvw, hr, hw⟩
          exact ⟨hsv.trans hvw, hr, hw.imp_right fun ⟨hmoved, hstale⟩ =>
            ⟨Option.some_ne_none h, hmoved, h, hstale⟩⟩
        · rintro e v ⟨-, hfail, -⟩
          exact .trans hsu (hfail e rfl)
      · rintro e u ⟨-, hfail, -⟩
        exact .trans hst (hfail e rfl)

/-! ### `updateFile` -/

/-- A new handle is not one of those that are closed. -/
theorem Tracked.opened (ht : Tracked s) (i : ℕ) : Tracked (s.opened i) where
  closed h hh := by
    obtain ⟨j, hj⟩ := ht.closed h hh
    refine ⟨j, ?_⟩
    show (s.handles ++ [_])[h]? = _
    rw [List.getElem?_append_left (List.getElem?_eq_some_iff.mp hj).1]
    exact hj
  unclosed := ht.unclosed

theorem openFile_outcome (excl : Bool) (answer : Except OsError ℕ) (hr : Rest opts init s) :
    Outcome (openFile excl answer) s
      (fun err t => Quiet s t ∧ Rest opts init t ∧ (err = none → ∃ h i, Open opts init h i t))
      (Failed s) := by
  have hrest : ∀ i, Rest opts init (s.opened i) := fun i =>
    ⟨fun j => (hr.settled j).congr rfl rfl, hr.tracked.opened i, hr.plain⟩
  have hhandle : ∀ i, (s.opened i).handles[s.handles.length]? = some ⟨i, false⟩ := fun i =>
    List.getElem?_concat_length
  have hnone : Quiet s { s with out := none } ∧ Rest opts init { s with out := none } :=
    ⟨quiet_of_eq rfl rfl, hr.release none⟩
  cases answer with
  | error err => exact ⟨hnone.1, hnone.2, fun he => by cases he⟩
  | ok i =>
      by_cases hi : i < s.files.length
      · simp only [Outcome, openFile, if_pos hi]
        cases excl with
        | true => exact ⟨hnone.1, hnone.2, fun he => by cases he⟩
        | false =>
            refine ⟨quiet_of_eq rfl rfl, hrest i, fun _ => ⟨s.handles.length, i, ?_⟩⟩
            exact ⟨rfl, hhandle i, hi, fun j _ => (hrest i).settled j, (hrest i).tracked, hr.plain⟩
      · simp only [Outcome, openFile, if_neg hi]
        have hcreate : ∀ j, Settled init { s.opened s.files.length with
            files := s.files ++ [.empty] } j := fun j =>
          (hr.settled j).congr (fileAt_create s.files j) rfl
        have htracked := (hr.tracked.opened s.files.length).congr
          (t := { s.opened s.files.length with files := s.files ++ [.empty] }) rfl rfl
        refine ⟨quiet_of_eq rfl rfl, ⟨hcreate, htracked, hr.plain⟩, fun _ =>
          ⟨s.handles.length, s.files.length, ?_⟩⟩
        refine ⟨rfl, hhandle _, ?_, fun j _ => hcreate j, htracked, hr.plain⟩
        show s.files.length < (s.files ++ [File.empty]).length
        rw [List.length_append]
        exact Nat.lt_succ_self _

/-- An operation on the open file that leaves it as it is. -/
theorem Open.record (ho : Open opts init h i s) (hc : c.handle = some h) (hq : c.Quiet)
    (hclose : ∀ h, c ≠ .close h) : Open opts init h i (s.record c) where
  out := ho.out
  handle := ho.handle
  file := ho.file
  others j hj := (ho.others j hj).quiet (quiet_record hq) rfl
  tracked := ho.tracked_record hc hclose
  plain := ho.plain

theorem osStat_outcome (ho : Open opts init h i s) (hr : Rest opts init s) (err : Option OsError) :
    Outcome (osStat (some h) err) s
      (fun err t => Quiet s t ∧ (∀ e ∈ err, Failed s .exit t) ∧
        (err = none → Rest opts init t ∧ Open opts init h i t)) (Failed s) := by
  have hopen := ho.record (c := .stat h) rfl trivial nofun
  refine operate_open ho.handle ?_ fun e => ?_
  · refine ⟨quiet_record trivial, nofun, fun _ => ⟨⟨fun j => ?_, hopen.tracked, hr.plain⟩, hopen⟩⟩
    exact (hr.settled j).quiet (quiet_record trivial) rfl
  · exact ⟨quiet_record trivial, fun _ _ => ho.failed rfl trivial nofun, nofun⟩

/-- What a try of a revision leaves; where it was the last one, a file is open. -/
structure Tried (opts : Options) (init : List File) (s : State) (last : Prop) (t : State) :
    Prop where
  quiet : Quiet s t
  rest : Rest opts init t
  opens : last → ∃ h i, Open opts init h i t

/-- Variables of the logger that say nothing of its file. -/
structure Alike (s t : State) : Prop where
  out : t.out = s.out
  writer : t.writer = s.writer
  gzipWriter : t.gzipWriter = s.gzipWriter
  files : t.files = s.files
  handles : t.handles = s.handles
  history : t.history = s.history

theorem Alike.quiet (ha : Alike s t) (harrived : t.arrived = s.arrived) : Quiet s t :=
  quiet_of_eq ha.history harrived

theorem Alike.settled (ha : Alike s t) (hs : Settled init s j) : Settled init t j :=
  hs.congr (by rw [ha.files]) (by rw [ha.history])

theorem Alike.rest (ha : Alike s t) (hr : Rest opts init s) : Rest opts init t :=
  ⟨fun j => ha.settled (hr.settled j), hr.tracked.congr ha.handles ha.history, fun hg =>
    ha.gzipWriter.trans (hr.plain hg)⟩

theorem Alike.isOpen (ha : Alike s t) (ho : Open opts init h i s) : Open opts init h i t where
  out := ha.out.trans ho.out
  handle := by rw [ha.handles, ho.handle]
  file := by
    rw [ha.files]
    exact ho.file
  others j hj := ha.settled (ho.others j hj)
  tracked := ho.tracked.congr ha.handles ha.history
  plain hg := ha.gzipWriter.trans (ho.plain hg)

theorem Alike.sound (ha : Alike s t) (hs : Sound opts init s) : Sound opts init t := by
  cases hs with
  | idle hout hr => exact .idle (ha.out.trans hout) (ha.rest hr)
  | writing h i buf hw =>
      refine .writing h i buf ⟨ha.isOpen hw.toOpen, hw.buffered.congr ha.gzipWriter ha.writer, ?_⟩
      rw [ha.files, hw.bytes, text, text, ha.history]

theorem nextRev_outcome (k : ℕ) (hr : Rest opts init s) :
    Outcome (nextRev k) s (fun r t => Tried opts init s (r = .inr ()) t) (Failed s) := by
  have ha : Alike s { s with rev := (s.rev + 1) % 2 ^ 64 } := ⟨rfl, rfl, rfl, rfl, rfl, rfl⟩
  exact Outcome.of_modify_bind ⟨ha.quiet rfl, ha.rest hr, nofun⟩

theorem openRev_outcome (opts : Options) (a : OpenAnswers) (k : ℕ) (hr : Rest opts init s) :
    Outcome (openRev opts a k) s (fun r t => Tried opts init s (r = .inr ()) t) (Failed s) := by
  refine (openFile_outcome _ _ hr).bind ?_
  rintro err t ⟨hst, hr, hopens⟩
  split
  · refine (nextRev_outcome k hr).mono (fun r u hu => ?_) fun e u => .trans hst
    exact ⟨hst.trans hu.quiet, hu.rest, hu.opens⟩
  · exact .trans hst (hr.tracked.failed nofun)
  · obtain ⟨h, i, ho⟩ := hopens rfl
    refine Outcome.of_get_bind ?_
    rw [ho.out]
    refine Outcome.fatal_bind ((osStat_outcome ho hr a.fstat).mono (fun err u hu => hu)
      fun e u => .trans hst) ?_ ?_
    · rintro u ⟨htu, -, hok⟩
      obtain ⟨hr, ho⟩ := hok rfl
      have hsu := hst.trans htu
      refine Outcome.of_modify_bind ?_
      generalize hsize : ((fileAt t.files (t.fileOf (some h))).bytes.length : ℤ) = size
      have ha : Alike u { u with filesize := size } := ⟨rfl, rfl, rfl, rfl, rfl, rfl⟩
      split
      · refine (nextRev_outcome k (ha.rest hr)).mono (fun r v hv => ?_) fun e v =>
          .trans (hsu.trans (ha.quiet rfl))
        exact ⟨(hsu.trans (ha.quiet rfl)).trans hv.quiet, hv.rest, hv.opens⟩
      · exact ⟨hsu.trans (ha.quiet rfl), ha.rest hr, fun _ => ⟨h, i, ha.isOpen ho⟩⟩
    · rintro e u ⟨-, hfail, -⟩
      exact .trans hst (hfail e rfl)

theorem tryRev_outcome (opts : Options) (tries : ℕ → OpenAnswers) (k : ℕ) (hr : Rest opts init s) :
    Outcome (tryRev opts tries k) s (fun r t => Tried opts init s (r = .inr ()) t) (Failed s) := by
  rw [tryRev]
  split
  · exact openRev_outcome opts _ k hr
  · cases (tries k).mkdirAll with
    | some err => exact hr.tracked.failed (by decide)
    | none =>
        split
        · exact nextRev_outcome k hr
        · exact openRev_outcome opts _ k hr
        · exact hr.tracked.failed (by decide)

/-- A gzip writer that is new, if it is one. -/
theorem buffered_new {f : FileLogger} {out : OsFile} {level : ℤ} (hout : out = some h)
    (hz : f.gzipWriter = newWriterLevel out level) (hw : f.writer = some .gzip) :
    Buffered h f [] := by
  rw [hout, newWriterLevel] at hz
  split at hz
  · exact .gzip [] hz hw
  · exact .level hz hw

/-- **`updateFile`** leaves a file that is open, with nothing in the buffer. -/
theorem updateFile_outcome (opts : Options) (limit : ℕ) (c : CloseAnswers) (a : UpdateAnswers)
    (hs : Sound opts init s) :
    Outcome (updateFile opts limit c a) s
      (fun _ t => Quiet s t ∧ ∃ h i, Writing opts init h i [] t) (Failed s) := by
  refine (close_outcome opts limit c hs).bind ?_
  rintro - t ⟨hst, hr, -⟩
  refine Outcome.of_modify_bind ?_
  generalize hnew : { t with
    rev := if t.currentFilename opts a.now ≠ t.filename then 0 else (t.rev + 1) % 2 ^ 64
    filename := t.currentFilename opts a.now
    openTime := a.openTime } = u
  have ha : Alike t u ∧ u.arrived = t.arrived := by
    subst hnew
    exact ⟨⟨rfl, rfl, rfl, rfl, rfl, rfl⟩, rfl⟩
  have hsu := hst.trans (ha.1.quiet ha.2)
  have hru := ha.1.rest hr
  cases a.mkdirAll with
  | some err => exact .trans hsu (hru.tracked.failed nofun)
  | none =>
      have hloop : Outcome (iterate .hangs (tryRev opts a.tries) limit 0) u
          (fun _ v => Tried opts init s True v) (Failed s) := by
        refine Outcome.loop (I := fun _ v => Tried opts init s False v) ?_ ?_ ⟨hsu, hru, nofun⟩
        · intro k v hv
          refine (tryRev_outcome opts a.tries k hv.rest).mono ?_ fun e w => .trans hv.quiet
          intro r w hw
          have hsw := hv.quiet.trans hw.quiet
          cases r with
          | inl k' => exact ⟨hsw, hw.rest, nofun⟩
          | inr _ => exact ⟨hsw, hw.rest, fun _ => hw.opens rfl⟩
        · exact fun k v hv => .trans hv.quiet (hv.rest.tracked.failed nofun)
      refine hloop.bind ?_
      rintro - v hv
      obtain ⟨h, i, ho⟩ := hv.opens trivial
      refine Outcome.of_modify ?_
      have hbytes : (fileAt v.files i).bytes ++ [] = text init v i := by
        rw [List.append_nil, (hv.rest.settled i).bytes]
      cases hg : opts.gzip with
      | false =>
          rw [if_neg Bool.false_ne_true]
          have hz : v.gzipWriter = none := ho.plain hg
          have hw : some (Writer.file v.out) = some (.file (some h)) := by rw [ho.out]
          exact ⟨hv.quiet.trans (quiet_of_eq rfl rfl), h, i, ho.writer _ fun _ => hz,
            .file hz hw, hbytes⟩
      | true =>
          have hz : ∀ z : Option GzipWriter, opts.gzip = false → z = none := fun z hg' => by
            rw [hg] at hg'
            cases hg'
          rw [if_pos rfl]
          refine ⟨hv.quiet.trans (quiet_of_eq rfl rfl), h, i, ho.writer _ (hz _), ?_, hbytes⟩
          exact buffered_new ho.out rfl rfl

/-! ### `Write` and `Sync` -/

theorem gzipWrite_outcome {buf : List UInt8} (ho : Open opts init h i s)
    (hz : s.gzipWriter = some ⟨some h, buf, false⟩) (hwriter : s.writer = some .gzip)
    (p : List UInt8) (err : Option OsError) :
    Outcome (gzipWrite p err) s
      (fun err t => Quiet s t ∧ (∀ e ∈ err, Failed s .exit t) ∧
        (err = none → Open opts init h i t ∧ ∃ buf', Buffered h t.toFileLogger buf' ∧
          (fileAt t.files i).bytes ++ buf' = (fileAt s.files i).bytes ++ buf ++ p))
      (Failed s) := by
  have hclose : ∀ h', Call.write h ≠ .close h' := fun h' he => by cases he
  have hrecord := ho.record (c := .write h) rfl trivial hclose
  have hg : opts.gzip = false → (some ⟨some h, buf ++ p, false⟩ : Option GzipWriter) = none :=
    fun hg => by
      rw [ho.plain hg] at hz
      cases hz
  cases err with
  | some e =>
      have hfail := ho.failed (c := .write h) rfl trivial hclose
      simp only [Outcome, gzipWrite, hz]
      exact ⟨hfail.quiet, fun _ _ => hfail, fun he => by cases he⟩
  | none =>
      simp only [Outcome, gzipWrite, hz]
      refine ⟨quiet_of_concat (c := .write h) trivial rfl rfl, by rintro e ⟨⟩, fun _ => ?_⟩
      refine ⟨hrecord.writer s.writer hg, buf ++ p, .gzip _ rfl hwriter, ?_⟩
      exact (List.append_assoc _ _ _).symm

theorem writerWrite_outcome {buf : List UInt8} (ho : Open opts init h i s)
    (hb : Buffered h s.toFileLogger buf) (p : List UInt8) (err : Option OsError) :
    Outcome (writerWrite p err) s
      (fun err t => Quiet s t ∧ (∀ e ∈ err, Failed s .exit t) ∧
        (err = none → Open opts init h i t ∧ ∃ buf', Buffered h t.toFileLogger buf' ∧
          (fileAt t.files i).bytes ++ buf' = (fileAt s.files i).bytes ++ buf ++ p))
      (Failed s) := by
  refine Outcome.of_get_bind ?_
  cases hb with
  | file hz hw =>
      rw [hw]
      refine (osWrite_outcome ho p err).returns fun err t ht => ?_
      obtain ⟨hq, hf, hfail, hok⟩ := ht
      refine ⟨hq, hfail, fun he => ?_⟩
      obtain ⟨hopen, hbytes⟩ := hok he
      refine ⟨hopen, [], .file (by rw [hf, hz]) (by rw [hf, hw]), ?_⟩
      rw [hbytes, List.append_nil, List.append_nil]
  | gzip _ hz hw =>
      rw [hw]
      exact gzipWrite_outcome ho hz hw p err
  | level hz hw =>
      rw [hw]
      simp only [Outcome, gzipWrite, hz]
      exact ho.tracked.failed (by decide)

theorem write_outcome {buf : List UInt8} (ho : Open opts init h i s)
    (hb : Buffered h s.toFileLogger buf) (p : List UInt8) (err : Option OsError) :
    Outcome (write p err) s
      (fun err t => Quiet s t ∧ (∀ e ∈ err, Failed s .exit t) ∧
        (err = none → Open opts init h i t ∧ ∃ buf', Buffered h t.toFileLogger buf' ∧
          (fileAt t.files i).bytes ++ buf' = (fileAt s.files i).bytes ++ buf ++ p))
      (Failed s) := by
  refine (writerWrite_outcome ho hb p err).bind fun err t ht => ?_
  refine Outcome.of_modify_bind ?_
  generalize t.filesize + _ = size
  have ha : Alike t { t with filesize := size } := ⟨rfl, rfl, rfl, rfl, rfl, rfl⟩
  obtain ⟨hq, hfail, hok⟩ := ht
  refine Outcome.of_pure ⟨hq.trans (ha.quiet rfl), fun e he => ?_, fun he => ?_⟩
  · exact ⟨hq.trans (ha.quiet rfl), (hfail e he).unclosed, nofun⟩
  · obtain ⟨hopen, buf', hb, hbytes⟩ := hok he
    exact ⟨ha.isOpen hopen, buf', hb.congr rfl rfl, hbytes⟩

theorem writeMessage_outcome {buf : List UInt8} (r : Round) (m : Message)
    (hw : Writing opts init h i buf s) :
    Outcome (writeMessage r m) s
      (fun _ t => (∃ u, Quiet s u ∧ t.history = u.history ++ [.logged m i] ∧
          t.arrived = u.arrived) ∧ ∃ buf', Writing opts init h i buf' t) (Failed s) := by
  refine Outcome.fatal_bind (write_outcome hw.toOpen hw.buffered m.body r.write) ?_ ?_
  · rintro t ⟨hst, -, hok⟩
    obtain ⟨ho, buf', hb, hbytes⟩ := hok rfl
    refine Outcome.fatal_bind ((write_outcome ho hb [10] r.newline).mono (fun err u hu => hu)
      fun e u => .trans hst) ?_ ?_
    · rintro u ⟨htu, -, hok⟩
      obtain ⟨ho, buf'', hb, hbytes'⟩ := hok rfl
      have hsu := hst.trans htu
      have hfile : u.fileOf u.out = i := by
        rw [State.fileOf, State.handle, ho.out, Option.bind_some, ho.handle]
        rfl
      refine Outcome.of_modify ?_
      rw [hfile]
      refine ⟨⟨u, hsu, rfl, rfl⟩, buf'', ⟨ho.out, ho.handle, ho.file, fun j hj => ?_, ?_, ho.plain⟩,
        ?_, ?_⟩
      · refine (ho.others j hj).congr rfl ?_
        exact (loggedTo_logged u.history m i j).trans (if_neg (Ne.symm hj))
      · exact ho.tracked.record (c := .logged m i) nofun nofun rfl rfl
      · exact hb.congr rfl rfl
      · have hlog : loggedTo (u.record (.logged m i)).history i = loggedTo s.history i ++ [m] := by
          rw [State.record, loggedTo_logged, if_pos rfl, hsu.loggedTo i]
        show (fileAt u.files i).bytes ++ buf'' = _
        rw [hbytes', hbytes, hw.bytes, text, text, hlog]
        simp [Message.line]
    · rintro e u ⟨-, hfail, -⟩
      exact .trans hst (hfail e rfl)
  · rintro e t ⟨-, hfail, -⟩
    exact hfail e rfl

theorem Synced.rest (hs : Synced opts init h i s) : Rest opts init s := by
  refine ⟨fun j => ?_, hs.tracked, hs.plain⟩
  by_cases hj : j = i
  · exact hj ▸ hs.settled
  · exact hs.others j hj

theorem Synced.writing (hs : Synced opts init h i s) (hb : Buffered h s.toFileLogger []) :
    Writing opts init h i [] s :=
  ⟨hs.toOpen, hb, (List.append_nil _).trans hs.settled.bytes⟩

/-- `Sync` of a file that has no buffer. -/
theorem Writing.osSync_outcome (hw : Writing opts init h i [] s) (hz : s.gzipWriter = none)
    (err : Option OsError) :
    Outcome (osSync (some h) err) s
      (fun err t => (∀ e ∈ err, Failed s .exit t) ∧
        (err = none → Quiet s t ∧ Writing opts init h i [] t ∧ Rest opts init t)) (Failed s) := by
  have hflushed : Flushed opts init h i s := by
    refine ⟨hw.toOpen, ⟨.inl hz, ?_⟩, (List.append_nil _).symm.trans hw.bytes⟩
    cases hw.buffered with
    | file _ hwriter => exact .inl hwriter
    | gzip _ _ hwriter => exact .inr hwriter
    | level _ hwriter => exact .inr hwriter
  refine (ToFile.osSync_outcome hflushed err).returns fun err t ht => ?_
  obtain ⟨hq, hfail, hok⟩ := ht
  refine ⟨hfail, fun he => ?_⟩
  obtain ⟨hsynced, hf⟩ := hok he
  exact ⟨hq, hsynced.writing (hf ▸ hw.buffered), hsynced.rest⟩

/-- The gzip writer is closed, the file is synced, and there is a new one. -/
theorem Synced.renew (hs : Synced opts init h i s) (hgzip : opts.gzip = true) (level : ℤ) :
    Writing opts init h i []
        { s with gzipWriter := newWriterLevel s.out level, writer := some .gzip } ∧
      Rest opts init
        { s with gzipWriter := newWriterLevel s.out level, writer := some .gzip } := by
  have hplain : opts.gzip = false → newWriterLevel s.out level = none := fun hg => by
    rw [hgzip] at hg
    cases hg
  refine ⟨⟨hs.writer (some .gzip) hplain, buffered_new hs.out rfl rfl, ?_⟩, fun j => ?_, ?_, hplain⟩
  · exact (List.append_nil _).trans hs.settled.bytes
  · exact (hs.rest.settled j).congr rfl rfl
  · exact hs.tracked.congr rfl rfl

/-- **`Sync`** leaves nothing in the buffer and all that was written on disk. -/
theorem sync_outcome {buf : List UInt8} (a : SyncAnswers) (hw : Writing opts init h i buf s) :
    Outcome (sync opts a) s
      (fun err t => (∀ e ∈ err, Failed s .exit t) ∧
        (err = none → Quiet s t ∧ Writing opts init h i [] t ∧ Rest opts init t)) (Failed s) := by
  refine Outcome.of_get_bind ?_
  rw [hw.out]
  cases hw.buffered with
  | file hz hwriter =>
      rw [if_neg (by rw [hz]; nofun)]
      exact hw.osSync_outcome hz a.sync
  | level hz hwriter =>
      rw [if_neg (by rw [hz]; nofun)]
      exact hw.osSync_outcome hz a.sync
  | gzip _ hz hwriter =>
      have hgzip : opts.gzip = true := by
        by_contra hg
        rw [hw.plain (Bool.eq_false_iff.mpr hg)] at hz
        cases hz
      rw [if_pos (by rw [hz]; rfl)]
      refine (gzipClose_outcome hw hz hwriter a.gzip).bind fun err t ht => ?_
      obtain ⟨hst, hfail, hok⟩ := ht
      cases err with
      | some e => exact Outcome.of_pure ⟨hfail, nofun⟩
      | none =>
          refine ((osSync_outcome (hok rfl) a.sync).mono (fun err u hu => hu) fun e u =>
            .trans hst).bind fun err u hu => ?_
          obtain ⟨htu, hfail, hok⟩ := hu
          refine Outcome.of_modify_bind (Outcome.of_pure ⟨fun e he => ?_, fun he => ?_⟩)
          · have hfail := hfail e he
            exact ⟨hst.trans (hfail.quiet.trans (quiet_of_eq rfl rfl)), hfail.unclosed, nofun⟩
          · exact ⟨hst.trans (htu.trans (quiet_of_eq rfl rfl)), (hok he).1.renew hgzip _⟩

end Xmq.ToFile
