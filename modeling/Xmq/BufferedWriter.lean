import Mathlib.Data.List.Basic
import Mathlib.Tactic.Use

/-!
# A buffered writer

`bufio.Writer` of Go: small writes wait in a buffer, a write that is larger than the room in an empty
buffer goes past it, and an error of the writer below is kept and stops everything after it. The writer
below is a list of the bytes that it took and, for each of its calls, whether it took all it was given.

The bytes a writer was given are, in order, those that went below and those that wait, as long as
nothing has failed.
-/

namespace Xmq.BufferedWriter

variable {α : Type*}

/-- What the writer below answers to its `k`-th call: it takes everything, or so many items, and fails
with an error. -/
abbrev Answers := ℕ → Option (ℕ × String)

/-- `written` is what the writer below took in its `calls` calls. -/
structure Writer (α : Type*) where
  size : ℕ
  buf : List α
  err : Option String
  written : List α
  calls : ℕ

/-- `bufio.NewWriterSize`, over a writer that was used before. -/
def newWriterSize (size : ℕ) (written : List α) (calls : ℕ) : Writer α where
  size := if size = 0 then 4096 else size
  buf := []
  err := none
  written := written
  calls := calls

namespace Writer

def available (w : Writer α) : ℕ := w.size - w.buf.length

/-- The buffer goes below, all of it or the first part. -/
def flush (answer : Answers) (w : Writer α) : Writer α :=
  if w.err ≠ none ∨ w.buf = [] then w
  else
    match answer w.calls with
    | none => { w with written := w.written ++ w.buf, buf := [], calls := w.calls + 1 }
    | some (n, err) =>
      { w with
        written := w.written ++ w.buf.take n
        buf := w.buf.drop n
        err := some err
        calls := w.calls + 1 }

/-- A write past the empty buffer: what is left of `p`, and the writer. -/
def writeBelow (answer : Answers) (p : List α) (w : Writer α) : List α × Writer α :=
  match answer w.calls with
  | none => ([], { w with written := w.written ++ p, calls := w.calls + 1 })
  | some (n, err) =>
    (p.drop n,
      { w with written := w.written ++ p.take n, err := some err, calls := w.calls + 1 })

/-- One round of the loop of `Write`. -/
def round (answer : Answers) (p : List α) (w : Writer α) : List α × Writer α :=
  if w.buf = [] then writeBelow answer p w
  else (p.drop w.available, flush answer { w with buf := w.buf ++ p.take w.available })

/-- What is left to do; a failure is the end of it. -/
def work (p : List α) (w : Writer α) : ℕ :=
  match w.err with
  | none => p.length + w.buf.length + 1
  | some _ => 0

theorem round_work {answer : Answers} {p : List α} {w : Writer α}
    (h : w.available < p.length ∧ w.err = none) :
    work (round answer p w).1 (round answer p w).2 < work p w := by
  obtain ⟨hlt, herr⟩ := h
  have hwork : work p w = p.length + w.buf.length + 1 := by rw [work, herr]
  rw [hwork, round]
  split
  · rw [writeBelow]
    cases answer w.calls with
    | none =>
        show work [] _ < _
        simp only [work, herr, List.length_nil]
        omega
    | some a => exact Nat.succ_pos _
  · rename_i hbuf
    have hpos := List.length_pos_iff.mpr hbuf
    have hne : ¬ (w.err ≠ none ∨ w.buf ++ p.take w.available = []) := by
      rintro (h | h)
      · exact h herr
      · exact hbuf (List.append_eq_nil_iff.mp h).1
    rw [flush, if_neg hne]
    cases answer w.calls with
    | none =>
        simp only [work, herr, List.length_nil, List.length_drop]
        omega
    | some a => exact Nat.succ_pos _

/-- `Write`; its error is the one that the writer keeps. -/
def write (answer : Answers) (p : List α) (w : Writer α) : Writer α :=
  if w.available < p.length ∧ w.err = none then
    write answer (round answer p w).1 (round answer p w).2
  else
    match w.err with
    | none => { w with buf := w.buf ++ p }
    | some _ => w
termination_by work p w
decreasing_by exact round_work ‹_›

/-- The items the writer was given and has not lost, in order. -/
def stream (w : Writer α) : List α := w.written ++ w.buf

/-- No call of the writer below has failed. -/
def Healthy (answer : Answers) (w : Writer α) : Prop := ∀ k < w.calls, answer k = none

variable {answer : Answers} {p : List α} {w : Writer α}

/-- The writer stays as it is, after a failure. -/
theorem write_of_err {err : String} (h : w.err = some err) : w.write answer p = w := by
  rw [write, if_neg (by rw [h]; exact fun h => Option.some_ne_none err h.2), h]

theorem flush_of_err {err : String} (h : w.err = some err) : w.flush answer = w :=
  if_pos (Or.inl (by rw [h]; exact Option.some_ne_none err))

/-! ### The writer goes on -/

/-- `w'` comes after `w`, which was given `p` in between: what went below stays there, the calls are
counted, and while nothing fails nothing is lost. -/
structure Goes (answer : Answers) (p : List α) (w w' : Writer α) : Prop where
  size : w'.size = w.size
  written : w.written <+: w'.written
  calls : w.calls ≤ w'.calls
  sound : w'.Healthy answer → w.err = none → w'.err = none ∧ w'.stream = w.stream ++ p

theorem Healthy.mono {w' : Writer α} (h : w'.Healthy answer) (hle : w.calls ≤ w'.calls) :
    w.Healthy answer :=
  fun k hk => h k (Nat.lt_of_lt_of_le hk hle)

theorem Goes.trans {p' : List α} {w' w'' : Writer α} (h : Goes answer p w w')
    (h' : Goes answer p' w' w'') : Goes answer (p ++ p') w w'' where
  size := h'.size.trans h.size
  written := h.written.trans h'.written
  calls := Nat.le_trans h.calls h'.calls
  sound hw herr := by
    obtain ⟨herr', hs⟩ := h.sound (hw.mono h'.calls) herr
    obtain ⟨herr'', hs'⟩ := h'.sound hw herr'
    exact ⟨herr'', by rw [hs', hs, List.append_assoc]⟩

theorem goes_of_err {err : String} (h : w.err = some err) : Goes answer p w w where
  size := rfl
  written := List.prefix_rfl
  calls := Nat.le_refl _
  sound _ hnone := by
    rw [h] at hnone
    cases hnone

theorem flush_goes (answer : Answers) (w : Writer α) : Goes answer [] w (w.flush answer) := by
  rw [flush]
  split
  · exact ⟨rfl, List.prefix_rfl, Nat.le_refl _, fun _ herr => ⟨herr, (List.append_nil _).symm⟩⟩
  · cases ha : answer w.calls with
    | none =>
        refine ⟨rfl, List.prefix_append _ _, Nat.le_succ _, fun _ herr => ⟨herr, ?_⟩⟩
        simp only [stream, List.append_nil]
    | some a =>
        refine ⟨rfl, List.prefix_append _ _, Nat.le_succ _, fun hw _ => ?_⟩
        rw [hw w.calls (Nat.lt_succ_self _)] at ha
        cases ha

/-- After a flush that did not fail nothing waits. -/
theorem flush_buf (h : (w.flush answer).err = none) : (w.flush answer).buf = [] := by
  unfold flush at h ⊢
  split at h
  · rename_i hcond
    rw [if_pos hcond]
    exact hcond.resolve_left (not_not.mpr h)
  · rename_i hcond
    rw [if_neg hcond]
    cases ha : answer w.calls with
    | none => rfl
    | some a =>
        rw [ha] at h
        cases h

/-- A round gives some of `p` to the writer; the rest is still to be given. -/
theorem round_goes (answer : Answers) (p : List α) (w : Writer α) :
    ∃ q, p = q ++ (round answer p w).1 ∧ Goes answer q w (round answer p w).2 := by
  unfold round
  split
  · rename_i hbuf
    unfold writeBelow
    cases ha : answer w.calls with
    | none =>
        refine ⟨p, (List.append_nil p).symm, rfl, List.prefix_append _ _, Nat.le_succ _,
          fun _ herr => ⟨herr, ?_⟩⟩
        simp only [stream, hbuf, List.append_nil]
    | some a =>
        refine ⟨p.take a.1, (List.take_append_drop _ _).symm, rfl, List.prefix_append _ _,
          Nat.le_succ _, fun hw _ => ?_⟩
        rw [hw w.calls (Nat.lt_succ_self _)] at ha
        cases ha
  · have hfill : Goes answer (p.take w.available) w { w with buf := w.buf ++ p.take w.available } :=
      ⟨rfl, List.prefix_rfl, Nat.le_refl _, fun _ herr => ⟨herr, (List.append_assoc _ _ _).symm⟩⟩
    refine ⟨p.take w.available, (List.take_append_drop _ _).symm, ?_⟩
    have hboth := hfill.trans (flush_goes answer _)
    rwa [List.append_nil] at hboth

/-- **A write.** -/
theorem write_goes (answer : Answers) (p : List α) (w : Writer α) :
    Goes answer p w (w.write answer p) := by
  fun_induction write answer p w with
  | case1 p w h ih =>
      obtain ⟨q, hq, hgoes⟩ := round_goes answer p w
      have hboth := hgoes.trans ih
      rwa [← hq] at hboth
  | case2 p w h herr =>
      exact ⟨rfl, List.prefix_rfl, Nat.le_refl _, fun _ herr => ⟨herr, (List.append_assoc _ _ _).symm⟩⟩
  | case3 p w h err herr => exact goes_of_err herr

end Writer

end Xmq.BufferedWriter
