import Mathlib.Data.List.Pairwise
import Xmq.LoggedFiles

/-!
# The router of a logger

The messages in the slice of the router have been written and are not finished yet (`Ledger`). A
round writes one, or none, and then finishes all of them or leaves them: it finishes them only
behind a `Sync`, when every file is settled. No file is open only while the slice is empty.

A `Close` that moves its file to the output dir at once leaves a file that is closed. From there on
every `Sync`, `Close` and `updateFile` ends the process, and so nothing is finished any more.
-/

namespace Xmq.ToFile

open Outcomes Runs

variable {s t u : State} {opts : Options} {init : List File} {m : Message} {i h : ℕ}
variable {pending : List Message} {calls : List Call} {r : Round} {l : Locals}

/-! ### What is finished -/

/-- The message and what was written to its file before it are on disk. -/
def OnDisk (init : List File) (before : List Call) (m : Message) (files : List File) : Prop :=
  ∃ i as bs, loggedTo before i = as ++ m :: bs ∧
    (fileAt init i).bytes ++ (as ++ [m]).flatMap Message.line <+: (fileAt files i).onDisk

/-- What is finished is on disk, and has not been finished before. -/
def Acknowledged (init : List File) (before : List Call) : Call → Prop
  | .finish m files => OnDisk init before m files ∧ ∀ files', .finish m files' ∉ before
  | _ => True

/-- The numbers of the messages that were written. -/
def loggedNumbers (calls : List Call) : List ℕ :=
  calls.filterMap fun
    | .logged m _ => some m.number
    | _ => none

theorem loggedNumbers_append (as bs : List Call) :
    loggedNumbers (as ++ bs) = loggedNumbers as ++ loggedNumbers bs := List.filterMap_append

theorem loggedNumbers_of_quiet (hq : ∀ c ∈ calls, c.Quiet) : loggedNumbers calls = [] := by
  refine List.filterMap_eq_nil_iff.mpr fun c hc => ?_
  cases c with
  | logged | finish => cases hq _ hc
  | write | sync | stat | close => rfl

theorem Quiet.loggedNumbers (hq : Quiet s t) :
    loggedNumbers t.history = loggedNumbers s.history := by
  obtain ⟨⟨cs, hcs, hquiet⟩, -⟩ := hq
  rw [hcs, loggedNumbers_append, loggedNumbers_of_quiet hquiet, List.append_nil]

/-- The messages of a file are in order of arrival if all of them are. -/
theorem loggedTo_sublist (calls : List Call) (i : ℕ) :
    ((loggedTo calls i).map Message.number).Sublist (loggedNumbers calls) := by
  induction calls with
  | nil => exact List.Sublist.slnil
  | cons c calls ih =>
      cases c with
      | write | sync | stat | close | finish => exact ih
      | logged m j =>
          by_cases hj : j = i
          · simpa [loggedTo, loggedNumbers, hj] using ih
          · simpa [loggedTo, loggedNumbers, hj] using ih.trans (List.sublist_cons_self _ _)

theorem number_mem (hm : m ∈ loggedTo calls i) : m.number ∈ loggedNumbers calls :=
  (loggedTo_sublist calls i).subset (List.mem_map_of_mem hm)

/-- The messages that were written and finished, and those of the slice. -/
structure Ledger (init : List File) (pending : List Message) (s : State) : Prop where
  acknowledged : Each (Acknowledged init) s.history
  numbers : (loggedNumbers s.history).Pairwise (· < ·)
  arrived : ∀ n ∈ loggedNumbers s.history, n < s.arrived
  logged : ∀ m ∈ pending, ∃ i, m ∈ loggedTo s.history i
  nodup : pending.Nodup
  unfinished : ∀ m ∈ pending, ∀ files, .finish m files ∉ s.history

theorem acknowledged_of_quiet {c : Call} (hc : c.Quiet) (before : List Call) :
    Acknowledged init before c := by
  cases c with
  | logged | finish => cases hc
  | write | sync | stat | close => trivial

theorem Quiet.acknowledged (hq : Quiet s t) (h : Each (Acknowledged init) s.history) :
    Each (Acknowledged init) t.history := by
  obtain ⟨⟨cs, hcs, hquiet⟩, -⟩ := hq
  rw [hcs]
  exact each_append h fun c hc before => acknowledged_of_quiet (hquiet c hc) before

theorem Ledger.quiet (hl : Ledger init pending s) (hq : Quiet s t) : Ledger init pending t where
  acknowledged := hq.acknowledged hl.acknowledged
  numbers := by
    rw [hq.loggedNumbers]
    exact hl.numbers
  arrived := by
    rw [hq.loggedNumbers, hq.arrived]
    exact hl.arrived
  logged m hm := by
    obtain ⟨i, hi⟩ := hl.logged m hm
    exact ⟨i, by rwa [hq.loggedTo i]⟩
  nodup := hl.nodup
  unfinished m hm files hf := by
    obtain ⟨⟨cs, hcs, hquiet⟩, -⟩ := hq
    rw [hcs] at hf
    rcases List.mem_append.mp hf with hf | hf
    · exact hl.unfinished m hm files hf
    · exact hquiet _ hf

/-- What was finished was written. -/
theorem Ledger.finished (hl : Ledger init pending s) {files : List File}
    (hf : .finish m files ∈ s.history) : m.number ∈ loggedNumbers s.history := by
  obtain ⟨before, after, hb⟩ := List.append_of_mem hf
  obtain ⟨⟨i, as, bs, hlog, -⟩, -⟩ := hl.acknowledged before _ after hb
  rw [hb, loggedNumbers_append]
  refine List.mem_append_left _ (number_mem (i := i) ?_)
  rw [hlog]
  exact List.mem_append_right _ List.mem_cons_self

/-- One more message has been written. -/
theorem Ledger.concat (hl : Ledger init pending s)
    (hm : ∀ n ∈ loggedNumbers s.history, n < m.number)
    (harrived : m.number < t.arrived) (ht : t.history = s.history ++ [.logged m i]) :
    Ledger init (pending ++ [m]) t := by
  have hnumbers : loggedNumbers t.history = loggedNumbers s.history ++ [m.number] := by
    rw [ht, loggedNumbers_append]
    rfl
  refine ⟨?_, ?_, ?_, ?_, ?_, ?_⟩
  · rw [ht]
    exact (each_concat _ _ _).mpr ⟨hl.acknowledged, trivial⟩
  · rw [hnumbers]
    refine List.pairwise_append.mpr ⟨hl.numbers, List.pairwise_singleton _ _, ?_⟩
    rintro n hn k hk
    rw [List.mem_singleton.mp hk]
    exact hm n hn
  · rw [hnumbers]
    intro n hn
    rcases List.mem_append.mp hn with hn | hn
    · exact Nat.lt_trans (hm n hn) harrived
    · rw [List.mem_singleton.mp hn]
      exact harrived
  · intro m' hm'
    rcases List.mem_append.mp hm' with hm' | hm'
    · obtain ⟨j, hj⟩ := hl.logged m' hm'
      exact ⟨j, by rw [ht, loggedTo_append]; exact List.mem_append_left _ hj⟩
    · rw [List.mem_singleton.mp hm']
      refine ⟨i, ?_⟩
      rw [ht, loggedTo_logged, if_pos rfl]
      exact List.mem_append_right _ (List.mem_singleton_self m)
  · refine List.nodup_append.mpr ⟨hl.nodup, List.nodup_cons.mpr ⟨nofun, List.nodup_nil⟩, ?_⟩
    rintro m' hm' _ hm'' rfl
    obtain ⟨j, hj⟩ := hl.logged m' hm'
    rw [List.mem_singleton.mp hm''] at hj
    exact absurd (hm _ (number_mem hj)) (Nat.lt_irrefl _)
  · intro m' hm' files hf
    rw [ht] at hf
    have hf : .finish m' files ∈ s.history := by
      rcases List.mem_append.mp hf with hf | hf
      · exact hf
      · cases List.mem_singleton.mp hf
    rcases List.mem_append.mp hm' with hm' | hm'
    · exact hl.unfinished m' hm' files hf
    · rw [List.mem_singleton.mp hm'] at hf
      exact absurd (hm _ (hl.finished hf)) (Nat.lt_irrefl _)

/-- The last message of the slice is finished, every file being settled. -/
theorem Ledger.finish (hl : Ledger init (pending ++ [m]) s) (hr : Rest opts init s) :
    Ledger init pending (s.record (.finish m s.files)) := by
  have hlast : m ∈ pending ++ [m] := List.mem_append_right _ (List.mem_singleton_self m)
  have hnumbers : loggedNumbers (s.record (.finish m s.files)).history =
      loggedNumbers s.history := by
    rw [State.record, loggedNumbers_append]
    exact List.append_nil _
  refine ⟨(each_concat _ _ _).mpr ⟨hl.acknowledged, ?_, hl.unfinished m hlast⟩, ?_, ?_, ?_, ?_, ?_⟩
  · obtain ⟨i, hi⟩ := hl.logged m hlast
    obtain ⟨as, bs, hlog⟩ := List.append_of_mem hi
    have hsettled := hr.settled i
    have hdisk : (fileAt s.files i).onDisk = text init s i := by
      rw [File.onDisk, hsettled.durable (List.ne_nil_of_mem hi), List.take_length, hsettled.bytes]
    refine ⟨i, as, bs, hlog, ?_⟩
    rw [hdisk, text, hlog]
    refine List.prefix_append_right_inj _ |>.mpr ⟨bs.flatMap Message.line, ?_⟩
    rw [← List.flatMap_append, List.append_assoc, List.singleton_append]
  · rw [hnumbers]
    exact hl.numbers
  · rw [hnumbers]
    exact hl.arrived
  · intro m' hm'
    obtain ⟨j, hj⟩ := hl.logged m' (List.mem_append_left _ hm')
    refine ⟨j, ?_⟩
    rw [State.record, loggedTo_append]
    exact List.mem_append_left _ hj
  · exact hl.nodup.sublist (List.sublist_append_left _ _)
  · intro m' hm' files hf
    rcases List.mem_append.mp hf with hf | hf
    · exact hl.unfinished m' (List.mem_append_left _ hm') files hf
    · cases List.mem_singleton.mp hf
      exact (List.nodup_append.mp hl.nodup).2.2 m hm' m (List.mem_singleton_self m) rfl

theorem Ledger.receive (hl : Ledger init pending s) :
    Ledger init pending { s with arrived := s.arrived + 1 } :=
  ⟨hl.acknowledged, hl.numbers, fun n hn => Nat.lt_succ_of_lt (hl.arrived n hn), hl.logged,
    hl.nodup,
    hl.unfinished⟩

theorem loggedTo_finish (calls : List Call) (m : Message) (files : List File) (i : ℕ) :
    loggedTo (calls ++ [.finish m files]) i = loggedTo calls i := by
  rw [loggedTo_append]
  exact List.append_nil _

theorem Rest.finish (hr : Rest opts init s) (m : Message) (files : List File) :
    Rest opts init (s.record (.finish m files)) :=
  ⟨fun j => (hr.settled j).congr rfl (loggedTo_finish s.history m files j),
    hr.tracked.record (c := .finish m files) nofun nofun rfl rfl, hr.plain⟩

theorem Writing.finish {buf : List UInt8} (hw : Writing opts init h i buf s) (m : Message)
    (files : List File) : Writing opts init h i buf (s.record (.finish m files)) where
  out := hw.out
  handle := hw.handle
  file := hw.file
  others j hj := (hw.others j hj).congr rfl (loggedTo_finish s.history m files j)
  tracked := hw.tracked.record (c := .finish m files) nofun nofun rfl rfl
  plain := hw.plain
  buffered := hw.buffered
  bytes := hw.bytes.trans (text_congr (loggedTo_finish s.history m files i)).symm

/-! ### The slice -/

/-- The slice has room for `maxInFlight` messages and holds those that are pending. -/
structure Locals.Holds (opts : Options) (pending : List Message) (l : Locals) : Prop where
  length : l.output.length = opts.maxInFlight
  pos : l.pos = pending.length
  output : l.output.take l.pos = pending.map some

theorem finishAll_outcome {output : List (Option Message)} {n : ℕ} (hn : n = pending.length)
    (ho : output.take n = pending.map some) (hl : Ledger init pending s) (hr : Rest opts init s)
    (hw : Writing opts init h i [] s) :
    Outcome (finishAll n output) s
      (fun output' t => output'.length = output.length ∧ Ledger init [] t ∧
        Writing opts init h i [] t) (fun _ _ => False) := by
  induction n generalizing pending output s with
  | zero =>
      cases List.length_eq_zero_iff.mp hn.symm
      exact Outcome.of_pure ⟨rfl, hl, hw⟩
  | succ n ih =>
      rcases List.eq_nil_or_concat pending with rfl | ⟨pending, m, rfl⟩
      · cases hn
      · rw [List.concat_eq_append] at hn ho hl
        rw [List.length_append] at hn
        have hn : n = pending.length := Nat.succ.inj hn
        have hm : output[n]? = some (some m) := by
          rw [← List.getElem?_take_of_lt (Nat.lt_succ_self n), ho, List.map_append, hn,
            ← List.length_map (f := some), List.map_singleton, List.getElem?_concat_length]
        have htake : (output.set n none).take n = pending.map some := by
          rw [List.take_set_of_le (Nat.le_refl n), ← Nat.min_eq_left (Nat.le_succ n),
            ← List.take_take,
            ho, List.map_append, hn, ← List.length_map (f := some), List.take_left]
        rw [finishAll, hm]
        refine Outcome.of_modify_bind ?_
        refine (ih hn htake (hl.finish hr) (hr.finish m s.files) (hw.finish m s.files)).returns ?_
        rintro output' t ⟨hlength, ht⟩
        exact ⟨hlength.trans List.length_set, ht⟩

theorem Locals.Holds.store (hh : l.Holds opts pending) (m : Message)
    (hroom : l.pos < opts.maxInFlight)
    {b : Bool} : Locals.Holds opts (pending ++ [m])
      { l with output := l.output.set l.pos (some m), pos := l.pos + 1, sync := b } := by
  refine ⟨List.length_set.trans hh.length, ?_, ?_⟩
  · rw [List.length_append, ← hh.pos]
    rfl
  · rw [← hh.length] at hroom
    have hroom' : l.pos < (l.output.set l.pos (some m)).length := by rwa [List.length_set]
    rw [List.map_append, ← hh.output]
    show (l.output.set l.pos (some m)).take (l.pos + 1) = _
    rw [List.take_add_one, List.take_set_of_le (Nat.le_refl _), List.getElem?_eq_getElem hroom',
      List.getElem_set_self]
    rfl

/-! ### A round -/

/-- The process has ended. -/
structure Stopped (opts : Options) (init : List File) (e : Ending) (s : State) : Prop where
  acknowledged : Each (Acknowledged init) s.history
  numbers : (loggedNumbers s.history).Pairwise (· < ·)
  inRange : 0 < opts.maxInFlight → e ≠ .indexOutOfRange

theorem Ledger.stopped (hl : Ledger init pending s) {e : Ending} (hq : Quiet s t)
    (he : 0 < opts.maxInFlight → e ≠ .indexOutOfRange) : Stopped opts init e t :=
  ⟨(hl.quiet hq).acknowledged, (hl.quiet hq).numbers, he⟩

theorem Failed.stopped {e : Ending} (hf : Failed s e t) (hl : Ledger init pending s) :
    Stopped opts init e t ∧ Each Unclosed t.history :=
  ⟨hl.stopped hf.quiet fun _ => hf.inRange, hf.unclosed⟩

/-- A `Close` of this round finds the file that is open before it, if one is. -/
def Round.closes (opts : Options) (r : Round) (s : State) : Bool :=
  match r.event with
  | .stopChan | .hupChan => true
  | .termChan => false
  | .ticker | .logChan _ => s.needsRotation opts r.now r.later

/-- The variables of the router before a round. -/
structure Locals.Ready (opts : Options) (pending : List Message) (s : State) (l : Locals) : Prop
    extends l.Holds opts pending where
  room : 0 < opts.maxInFlight → l.pos < opts.maxInFlight
  closeFile : l.closeFile = false
  idle : s.out = none → l.pos = 0

/-- The variables behind the `select` of a round that starts in `s`. -/
structure Locals.Selected (opts : Options) (r : Round) (s : State) (pending : List Message)
    (t : State)
    (l : Locals) : Prop extends l.Holds opts pending where
  room : 0 < opts.maxInFlight → l.pos < opts.maxInFlight ∨ l.sync = true
  closeFile : l.closeFile = true → l.sync = true ∧ t.out = s.out ∧ r.closes opts s = true
  idle : t.out = none → l.pos = 0

/-- The variables behind the `Sync` of a round. -/
structure Locals.Flushed (opts : Options) (r : Round) (s : State) (pending : List Message)
    (t : State)
    (l : Locals) : Prop extends l.Holds opts pending where
  room : 0 < opts.maxInFlight → l.pos < opts.maxInFlight
  closeFile : l.closeFile = true → l.pos = 0 ∧ t.out = s.out ∧ r.closes opts s = true
  idle : t.out = none → l.pos = 0

theorem receive_outcome (body : List UInt8) (s : State) :
    Outcome (receive body) s
      (fun m t => m = ⟨s.arrived, body⟩ ∧ t = { s with arrived := s.arrived + 1 })
      (fun _ _ => False) := ⟨rfl, rfl⟩

theorem needsRotation_idle {f : FileLogger} (hout : f.out = none) (now later : Time) :
    f.needsRotation opts now later = true := by
  rw [FileLogger.needsRotation, hout]

/-- A message is written and goes into the slice. -/
theorem store_outcome {buf : List UInt8} (hw : Writing opts init h i buf s)
    (hl : Ledger init pending s) (hm : ∀ n ∈ loggedNumbers s.history, n < m.number)
    (harrived : m.number < s.arrived) (hh : l.Holds opts pending)
    (hroom : 0 < opts.maxInFlight → l.pos < opts.maxInFlight)
    (hclose : l.closeFile = false) (s₀ : State) :
    Outcome (writeMessage r m >>= fun _ => l.store m) s
      (fun l' t => ∃ pending', Ledger init pending' t ∧ Sound opts init t ∧
        l'.Selected opts r s₀ pending' t)
      (fun e t => Stopped opts init e t ∧ Each Unclosed t.history) := by
  refine ((writeMessage_outcome r m hw).mono (fun _ t ht => ht) fun e t ht => ht.stopped hl).bind ?_
  rintro - t ⟨⟨u, hsu, hhistory, harrived'⟩, buf', hw'⟩
  have hledger : Ledger init (pending ++ [m]) t := by
    refine (hl.quiet hsu).concat ?_ (by rwa [harrived', hsu.arrived]) hhistory
    rw [hsu.loggedNumbers]
    exact hm
  rw [Locals.store, hh.length]
  split
  · rename_i hpos
    refine Outcome.of_pure ⟨_, hledger, .writing h i buf' hw', hh.store m hpos, fun _ => ?_, ?_, ?_⟩
    · show l.pos + 1 < opts.maxInFlight ∨ (l.sync || decide (l.pos + 1 = opts.maxInFlight)) = true
      rw [Bool.or_eq_true, decide_eq_true_iff]
      omega
    · intro hc
      rw [show l.closeFile = true from hc] at hclose
      cases hclose
    · intro hout
      rw [hw'.out] at hout
      cases hout
  · rename_i hpos
    exact ⟨hledger.stopped (.refl t) fun hmax => absurd (hroom hmax) hpos, hw'.tracked.unclosed⟩

/-- A case of `select` that sets flags only. -/
theorem Locals.Ready.flagged {l' : Locals} (hr : l.Ready opts pending s) (hl : Ledger init pending s)
    (hs : Sound opts init s) (hpos : l'.pos = l.pos) (houtput : l'.output = l.output)
    (hsync : l'.sync = true) (hclose : l'.closeFile = true → r.closes opts s = true) :
    ∃ pending', Ledger init pending' s ∧ Sound opts init s ∧ l'.Selected opts r s pending' s := by
  refine ⟨pending, hl, hs, ⟨houtput ▸ hr.length, hpos ▸ hr.pos, ?_⟩, fun _ => .inr hsync,
    fun hc => ⟨hsync, rfl, hclose hc⟩, fun hout => hpos.trans (hr.idle hout)⟩
  rw [houtput, hpos, hr.output]

theorem Locals.Ready.not_closeFile (hr : l.Ready opts pending s) {p : Prop}
    (hc : l.closeFile = true) : p := by
  rw [hr.closeFile] at hc
  cases hc

theorem ticker_outcome (limit : ℕ) (hevent : r.event = .ticker) (hs : Sound opts init s)
    (hl : Ledger init pending s) (hr : l.Ready opts pending s) :
    Outcome (select opts limit r l) s
      (fun l' t => ∃ pending', Ledger init pending' t ∧ Sound opts init t ∧
        l'.Selected opts r s pending' t)
      (fun e t => Stopped opts init e t ∧ Each Unclosed t.history) := by
  rw [select, hevent]
  refine Outcome.of_get_bind ?_
  split
  · rename_i hneeds
    have hcloses : r.closes opts s = true := by
      rw [Round.closes, hevent]
      exact hneeds
    split
    · exact hr.flagged hl hs rfl rfl rfl fun _ => hcloses
    · refine ((updateFile_outcome opts limit r.close r.update hs).mono (fun _ t ht => ht)
        fun e t ht => ht.stopped hl).bind ?_
      rintro - t ⟨hst, h, i, hw⟩
      refine Outcome.of_pure ⟨pending, hl.quiet hst, .writing h i [] hw,
        ⟨hr.length, hr.pos, hr.output⟩, fun _ => .inr rfl, hr.not_closeFile, fun hout => ?_⟩
      rw [hw.out] at hout
      cases hout
  · exact hr.flagged hl hs rfl rfl rfl hr.not_closeFile

theorem logChan_outcome (limit : ℕ) {body : List UInt8} (hevent : r.event = .logChan body)
    (hs : Sound opts init s) (hl : Ledger init pending s) (hr : l.Ready opts pending s) :
    Outcome (select opts limit r l) s
      (fun l' t => ∃ pending', Ledger init pending' t ∧ Sound opts init t ∧
        l'.Selected opts r s pending' t)
      (fun e t => Stopped opts init e t ∧ Each Unclosed t.history) := by
  rw [select, hevent]
  refine ((receive_outcome body s).mono (fun _ _ h => h) fun _ _ h => h.elim).bind ?_
  rintro m t ⟨rfl, ht⟩
  have hlt : Ledger init pending t := ht ▸ hl.receive
  have halike : Alike s t := by
    subst ht
    exact ⟨rfl, rfl, rfl, rfl, rfl, rfl⟩
  have hm : ∀ n ∈ loggedNumbers t.history, n < s.arrived := by
    rw [halike.history]
    exact hl.arrived
  have harrived : s.arrived < t.arrived := by
    rw [ht]
    exact Nat.lt_succ_self _
  have hst := halike.sound hs
  refine Outcome.of_get_bind ?_
  split
  · refine ((updateFile_outcome opts limit r.close r.update hst).mono (fun _ t ht => ht)
      fun e t ht => ht.stopped hlt).bind ?_
    rintro - u ⟨htu, h, i, hw⟩
    refine store_outcome (l := { l with sync := true }) hw (hlt.quiet htu) ?_
      (by rwa [htu.arrived]) ⟨hr.length, hr.pos, hr.output⟩ hr.room hr.closeFile s
    rw [htu.loggedNumbers]
    exact hm
  · -- without a file there is a rotation, so there is one here
    rename_i hneeds
    cases hst with
    | idle hout _ => exact absurd (needsRotation_idle hout r.now r.later) hneeds
    | writing h i buf hw =>
        exact store_outcome hw hlt hm harrived hr.toHolds hr.room hr.closeFile s

theorem select_outcome (limit : ℕ) (r : Round) (hs : Sound opts init s) (hl : Ledger init pending s)
    (hr : l.Ready opts pending s) :
    Outcome (select opts limit r l) s
      (fun l' t => ∃ pending', Ledger init pending' t ∧ Sound opts init t ∧
        l'.Selected opts r s pending' t)
      (fun e t => Stopped opts init e t ∧ Each Unclosed t.history) := by
  cases hevent : r.event with
  | stopChan | hupChan =>
      rw [select, hevent]
      refine hr.flagged hl hs rfl rfl rfl fun _ => ?_
      rw [Round.closes, hevent]
  | termChan =>
      rw [select, hevent]
      exact hr.flagged hl hs rfl rfl rfl hr.not_closeFile
  | ticker => exact ticker_outcome limit hevent hs hl hr
  | logChan body => exact logChan_outcome limit hevent hs hl hr

theorem flush_outcome {s₀ : State} (r : Round) (hs : Sound opts init s) (hl : Ledger init pending s)
    (hr : l.Selected opts r s₀ pending s) :
    Outcome (flush opts r l) s
      (fun l' t => ∃ pending', Ledger init pending' t ∧ Sound opts init t ∧
        l'.Flushed opts r s₀ pending' t)
      (fun e t => Stopped opts init e t ∧ Each Unclosed t.history) := by
  rw [flush]
  split
  · split
    · rename_i hpos
      cases hs with
      | idle hout _ => exact absurd (hr.idle hout) (Nat.ne_of_gt hpos)
      | writing h i buf hw =>
          refine Outcome.fatal_bind ((sync_outcome r.sync hw).mono (fun _ t ht => ht)
            fun e t ht => ht.stopped hl) ?_ ?_
          · rintro t ⟨-, hok⟩
            obtain ⟨hst, hw', hrest⟩ := hok rfl
            refine ((finishAll_outcome hr.pos hr.output (hl.quiet hst) hrest hw').mono
              (fun _ _ h => h) fun _ _ h => h.elim).bind ?_
            rintro output u ⟨hlength, hl', hw'⟩
            refine Outcome.of_pure ⟨[], hl', .writing h i [] hw',
              ⟨hlength.trans hr.length, rfl, rfl⟩,
              id, fun hc => ?_, fun _ => rfl⟩
            obtain ⟨-, hout, hcloses⟩ := hr.closeFile hc
            exact ⟨rfl, by rw [← hout, hw.out, hw'.out], hcloses⟩
          · rintro e t ⟨hfail, -⟩
            exact (hfail e rfl).stopped hl
    · rename_i hpos
      have hzero : l.pos = 0 := Nat.eq_zero_of_not_pos hpos
      exact ⟨pending, hl, hs, ⟨hr.length, hr.pos, hr.output⟩, fun hmax => hzero ▸ hmax,
        fun hc => ⟨hzero, (hr.closeFile hc).2⟩, hr.idle⟩
  · rename_i hsync
    rw [Bool.or_eq_true, not_or] at hsync
    refine ⟨pending, hl, hs, hr.toHolds, fun hmax => (hr.room hmax).resolve_right hsync.1,
      fun hc => ?_, hr.idle⟩
    exact absurd (hr.closeFile hc).1 hsync.1

/-- **A round** that starts with an open file, or none, leaves one that is open, or none, or it
closes the file that was open and leaves that one. -/
theorem round_outcome (limit : ℕ) (r : Round) (hs : Sound opts init s) (hl : Ledger init pending s)
    (hr : l.Ready opts pending s) :
    Outcome (round opts limit r l) s
      (fun l' t => ∃ pending', Ledger init pending' t ∧ l'.Ready opts pending' t ∧
        (Sound opts init t ∨ Tracked t ∧ (∃ h, Stale h t) ∧
          s.out ≠ none ∧ r.closes opts s = true ∧ Moved opts r.close))
      (fun e t => Stopped opts init e t ∧ Each Unclosed t.history) := by
  refine (select_outcome limit r hs hl hr).bind ?_
  rintro l t ⟨pending, hl, ht, hselected⟩
  refine (flush_outcome r ht hl hselected).bind ?_
  rintro l u ⟨pending, hl, hu, hflushed⟩
  rw [closing]
  split
  · rename_i hclose
    obtain ⟨hpos, hout, hcloses⟩ := hflushed.closeFile hclose
    refine ((close_outcome opts limit r.close hu).mono (fun _ _ h => h) fun e v hv =>
      hv.stopped hl).bind ?_
    rintro - v ⟨huv, hrest, hv⟩
    refine Outcome.of_pure ⟨pending, hl.quiet huv,
      ⟨⟨hflushed.length, hflushed.pos, hflushed.output⟩,
      hflushed.room, rfl, fun _ => hpos⟩, ?_⟩
    rcases hv with hv | ⟨hopen, hmoved, hstale⟩
    · exact .inl (.idle hv hrest)
    · exact .inr ⟨hrest.tracked, hstale, hout ▸ hopen, hcloses, hmoved⟩
  · rename_i hclose
    exact ⟨pending, hl, ⟨hflushed.toHolds, hflushed.room, Bool.eq_false_iff.mpr hclose,
      hflushed.idle⟩, .inl hu⟩

end Xmq.ToFile
