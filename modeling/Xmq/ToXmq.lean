import Mathlib.Data.List.ModifyLast
import Xmq.GoMap
import Xmq.Message
import Xmq.Outcomes

/-!
# Publishing an input

`to_xmq` reads its input up to the next delimiter, takes the delimiter off and publishes what is
left to every producer, again and again until the input is over. The last piece comes together with
`io.EOF`; the byte that is taken off it is a delimiter only if the input ends in one.

* A producer is the messages that it has accepted. `Publish` may fail, and what it answers may
  depend on the producer and on what it has accepted.
* The producers are visited in any order, and in another one for each message.
-/

namespace Xmq.ToXmq

open GoMap (RangeOrder)
open Outcomes

/-! ### The program -/

structure Producer where
  published : List (List UInt8)
  deriving DecidableEq

/-- `Publish` of a producer, by its address. -/
abbrev Publish := String → Producer → List UInt8 → GoError

/-- What `ReadBytes` returns, and the input behind it. -/
structure Read where
  line : List UInt8
  eof : Bool
  rest : List UInt8
  deriving DecidableEq

/-- `ReadBytes`. -/
def readBytes (delim : UInt8) : List UInt8 → Read
  | [] => ⟨[], true, []⟩
  | b :: bs =>
    if b = delim then ⟨[b], false, bs⟩
    else
      let r := readBytes delim bs
      { r with line := b :: r.line }

/-- An error of `readAndPublish`. -/
inductive Err where
  | eof
  | publish (err : String)
  deriving DecidableEq

structure Session where
  input : List UInt8
  producers : GoMap String Producer
  deriving DecidableEq

/-- The loop over the producers. -/
def publishAll (publish : Publish) (line : List UInt8) :
    List String → GoMap String Producer → GoError × GoMap String Producer
  | [], m => (none, m)
  | addr :: addrs, m =>
    match m.lookup addr with
    | none => publishAll publish line addrs m
    | some p =>
      match publish addr p line with
      | some err => (some err, m)
      | none => publishAll publish line addrs (m.insert addr ⟨p.published ++ [line]⟩)

/-- The error that comes with what was read. -/
def Read.err (r : Read) : Option Err := if r.eof then some .eof else none

def readAndPublish (publish : Publish) (delim : UInt8) (range : RangeOrder) (s : Session) :
    Option Err × Session :=
  let r := readBytes delim s.input
  let line := r.line.dropLast
  if line = [] then (r.err, { s with input := r.rest })
  else
    let sent := publishAll publish line (range.order s.producers.keys) s.producers
    match sent.1 with
    | some err => (some (.publish err), ⟨r.rest, sent.2⟩)
    | none => (r.err, ⟨r.rest, sent.2⟩)

/-- One round of the loop of `main`; `n` counts them. -/
def mainBody (publish : Publish) (delim : UInt8) (range : ℕ → RangeOrder) (s : ℕ × Session) :
    (ℕ × Session) ⊕ (Err × Session) :=
  match readAndPublish publish delim (range s.1) s.2 with
  | (none, t) => .inl (s.1 + 1, t)
  | (some err, t) => .inr (err, t)

/-- The producers that `main` makes. -/
def newProducers (addrs : List String) : GoMap String Producer :=
  addrs.foldl (fun m addr => m.insert addr ⟨[]⟩) ∅

/-- The loop of `main`, up to `rounds` rounds. -/
def run (publish : Publish) (delim : UInt8) (range : ℕ → RangeOrder) (addrs : List String)
    (input : List UInt8) (rounds : ℕ) : Option (Err × Session) :=
  forever (mainBody publish delim range) rounds (0, ⟨input, newProducers addrs⟩)

/-! ### Reading -/

variable {delim : UInt8} {seg rest input : List UInt8}

theorem readBytes_notMem (h : delim ∉ input) : readBytes delim input = ⟨input, true, []⟩ := by
  induction input with
  | nil => rfl
  | cons b bs ih =>
      obtain ⟨hb, hbs⟩ := not_or.mp (mt List.mem_cons.mpr h)
      rw [readBytes, if_neg (Ne.symm hb), ih hbs]

theorem readBytes_append (h : delim ∉ seg) (rest : List UInt8) :
    readBytes delim (seg ++ delim :: rest) = ⟨seg ++ [delim], false, rest⟩ := by
  induction seg with
  | nil => exact if_pos rfl
  | cons b bs ih =>
      obtain ⟨hb, hbs⟩ := not_or.mp (mt List.mem_cons.mpr h)
      rw [List.cons_append, readBytes, if_neg (Ne.symm hb), ih hbs]
      rfl

/-- The segments of the input, of which only those that are not empty are messages. -/
def messages (delim : UInt8) (input : List UInt8) : List (List UInt8) :=
  (input.splitOn delim).filter (· ≠ [])

/-- What is published of them: the last segment has lost its last byte. -/
def trimmed (delim : UInt8) (input : List UInt8) : List (List UInt8) :=
  ((input.splitOn delim).modifyLast List.dropLast).filter (· ≠ [])

theorem trimmed_notMem (h : delim ∉ input) :
    trimmed delim input = if input.dropLast = [] then [] else [input.dropLast] := by
  have hlast : [input].modifyLast List.dropLast = [input.dropLast] :=
    List.modifyLast_concat List.dropLast input []
  rw [trimmed, List.splitOn_eq_singleton h, hlast, List.filter_singleton]
  by_cases hempty : input.dropLast = []
  · rw [if_pos hempty, decide_eq_false (not_not.mpr hempty)]
    rfl
  · rw [if_neg hempty, decide_eq_true hempty]
    rfl

theorem trimmed_append (h : delim ∉ seg) (rest : List UInt8) :
    trimmed delim (seg ++ delim :: rest) =
      (if seg = [] then [] else [seg]) ++ trimmed delim rest := by
  have hlast : (seg :: rest.splitOn delim).modifyLast List.dropLast =
      [seg] ++ (rest.splitOn delim).modifyLast List.dropLast :=
    List.modifyLast_append_of_right_ne_nil List.dropLast [seg] _ (List.splitOn_ne_nil delim rest)
  rw [trimmed, List.splitOn_append_cons_self_of_not_mem h, hlast, List.filter_append,
    List.filter_singleton]
  by_cases hempty : seg = []
  · rw [if_pos hempty, decide_eq_false (not_not.mpr hempty)]
    rfl
  · rw [if_neg hempty, decide_eq_true hempty]
    rfl

/-- Segment by segment. -/
theorem segment_induction {P : List UInt8 → Prop} (hlast : ∀ input, delim ∉ input → P input)
    (hseg : ∀ seg rest, delim ∉ seg → P rest → P (seg ++ delim :: rest)) (input : List UInt8) :
    P input := by
  induction hn : input.length using Nat.strongRecOn generalizing input with
  | ind n ih =>
    by_cases hmem : delim ∈ input
    · obtain ⟨seg, rest, rfl, hnot⟩ := List.eq_append_cons_of_mem hmem
      refine hseg seg rest hnot (ih rest.length ?_ rest rfl)
      rw [List.length_append, List.length_cons] at hn
      omega
    · exact hlast input hmem

theorem messages_notMem (h : delim ∉ input) :
    messages delim input = if input = [] then [] else [input] := by
  rw [messages, List.splitOn_eq_singleton h, List.filter_singleton]
  by_cases hempty : input = []
  · rw [if_pos hempty, decide_eq_false (not_not.mpr hempty)]
    rfl
  · rw [if_neg hempty, decide_eq_true hempty]
    rfl

theorem messages_append (h : delim ∉ seg) (rest : List UInt8) :
    messages delim (seg ++ delim :: rest) =
      (if seg = [] then [] else [seg]) ++ messages delim rest := by
  rw [messages, List.splitOn_append_cons_self_of_not_mem h, List.filter_cons]
  by_cases hempty : seg = []
  · rw [if_pos hempty, if_neg (by simpa using hempty)]
    rfl
  · rw [if_neg hempty, if_pos (by simpa using hempty)]
    rfl

/-- Nothing is lost when there is nothing behind the last delimiter. -/
theorem trimmed_eq_messages_iff (input : List UInt8) :
    trimmed delim input = messages delim input ↔ input = [] ∨ input.getLast? = some delim := by
  induction input using @segment_induction delim with
  | hlast input h =>
    rw [trimmed_notMem h, messages_notMem h]
    rcases List.eq_nil_or_concat input with rfl | ⟨init, b, rfl⟩
    · exact iff_of_true rfl (.inl rfl)
    · rw [List.concat_eq_append] at h ⊢
      have hne : init ++ [b] ≠ [] := List.append_ne_nil_of_right_ne_nil init (List.cons_ne_nil b [])
      have hb : b ≠ delim := fun hb => h (by simp [hb])
      refine iff_of_false (fun heq => ?_) ?_
      · rw [List.dropLast_concat, if_neg hne] at heq
        split at heq
        · cases heq
        · have hlen := congrArg List.length (List.cons.inj heq).1
          simp at hlen
      · rw [List.getLast?_concat]
        rintro (hnil | hlast)
        · exact hne hnil
        · exact hb (Option.some.inj hlast)
  | hseg seg rest h ih =>
    rw [trimmed_append h, messages_append h, List.append_cancel_left_eq, ih,
      List.getLast?_append_of_ne_nil seg (List.cons_ne_nil delim rest), List.getLast?_cons]
    have hne : seg ++ delim :: rest ≠ [] :=
      List.append_ne_nil_of_right_ne_nil seg (List.cons_ne_nil delim rest)
    rw [or_iff_right hne]
    rcases List.eq_nil_or_concat rest with rfl | ⟨init, b, rfl⟩
    · exact iff_of_true (.inl rfl) rfl
    · rw [List.concat_eq_append, List.getLast?_concat]
      exact or_iff_right (List.append_ne_nil_of_right_ne_nil init (List.cons_ne_nil b []))

/-! ### Publishing -/

section Publishing

variable {publish : Publish}

/-- What a producer is after it has accepted more messages. -/
def Producer.accept (lines : List (List UInt8)) (p : Producer) : Producer := ⟨p.published ++ lines⟩

theorem accept_nil (x : Option Producer) : x.map (Producer.accept []) = x := by
  cases x with
  | none => rfl
  | some p => exact congrArg (fun l => some (Producer.mk l)) (List.append_nil p.published)

theorem accept_append (x : Option Producer) (lines lines' : List (List UInt8)) :
    (x.map (Producer.accept lines)).map (Producer.accept lines') =
      x.map (Producer.accept (lines ++ lines')) := by
  cases x with
  | none => rfl
  | some p =>
      exact congrArg (fun l => some (Producer.mk l)) (List.append_assoc p.published lines lines')

/-- Every producer that is visited accepts the message. -/
theorem publishAll_ok (hok : ∀ addr p line, publish addr p line = none) (line : List UInt8)
    {addrs : List String} (hnodup : addrs.Nodup) (m : GoMap String Producer) :
    ∃ m', publishAll publish line addrs m = (none, m') ∧ ∀ addr, m'.lookup addr =
      if addr ∈ addrs then (m.lookup addr).map (Producer.accept [line]) else m.lookup addr := by
  induction addrs generalizing m with
  | nil => exact ⟨m, rfl, fun addr => (if_neg List.not_mem_nil).symm⟩
  | cons a addrs ih =>
      obtain ⟨ha, haddrs⟩ := List.nodup_cons.mp hnodup
      cases hlook : m.lookup a with
      | none =>
          obtain ⟨m', hm', hlookup⟩ := ih haddrs m
          refine ⟨m', by simp only [publishAll, hlook, hm'], fun addr => ?_⟩
          rw [hlookup addr]
          by_cases heq : addr = a
          · rw [heq, if_neg ha, if_pos List.mem_cons_self, hlook]
            rfl
          · simp only [List.mem_cons, heq, false_or]
      | some p =>
          obtain ⟨m', hm', hlookup⟩ := ih haddrs (m.insert a ⟨p.published ++ [line]⟩)
          refine ⟨m', by simp only [publishAll, hlook, hok, hm'], fun addr => ?_⟩
          rw [hlookup addr]
          by_cases heq : addr = a
          · rw [heq, if_neg ha, if_pos List.mem_cons_self, AList.lookup_insert, hlook]
            rfl
          · simp only [List.mem_cons, heq, false_or, AList.lookup_insert_ne heq]

/-- One call: every producer accepts what is left of the line, if anything is. -/
theorem readAndPublish_ok (delim : UInt8) (hok : ∀ addr p line, publish addr p line = none)
    (r : RangeOrder) (s : Session) :
    ∃ m, readAndPublish publish delim r s =
        ((readBytes delim s.input).err, ⟨(readBytes delim s.input).rest, m⟩) ∧
      ∀ addr, m.lookup addr = (s.producers.lookup addr).map (Producer.accept
        (if (readBytes delim s.input).line.dropLast = [] then []
          else [(readBytes delim s.input).line.dropLast])) := by
  by_cases hempty : (readBytes delim s.input).line.dropLast = []
  · refine ⟨s.producers, by rw [readAndPublish, if_pos hempty], fun addr => ?_⟩
    rw [if_pos hempty, accept_nil]
  · obtain ⟨m, hm, hlookup⟩ := publishAll_ok hok (readBytes delim s.input).line.dropLast
      ((r.perm s.producers.keys).nodup_iff.mpr s.producers.keys_nodup) s.producers
    refine ⟨m, by rw [readAndPublish, if_neg hempty, hm], fun addr => ?_⟩
    rw [hlookup addr, if_neg hempty]
    split
    · rfl
    · rename_i haddr
      rw [GoMap.RangeOrder.mem_order, ← AList.mem_keys] at haddr
      rw [AList.lookup_eq_none.mpr haddr]
      rfl

/-- **The loop ends**, after at most one round more than the input has bytes, and every producer has
accepted what is published of it. -/
theorem forever_mainBody (delim : UInt8) (range : ℕ → RangeOrder)
    (hok : ∀ addr p line, publish addr p line = none) (input : List UInt8) :
    ∀ (n : ℕ) (m : GoMap String Producer), ∃ m',
      (∀ rounds, input.length < rounds →
        forever (mainBody publish delim range) rounds (n, ⟨input, m⟩) = some (.eof, ⟨[], m'⟩)) ∧
      ∀ addr, m'.lookup addr = (m.lookup addr).map (Producer.accept (trimmed delim input)) := by
  induction input using @segment_induction delim with
  | hlast input h =>
    intro n m
    obtain ⟨m', hm', hlookup⟩ := readAndPublish_ok delim hok (range n) ⟨input, m⟩
    rw [readBytes_notMem h] at hm' hlookup
    refine ⟨m', fun rounds hrounds => ?_, fun addr => ?_⟩
    · obtain ⟨rounds, rfl⟩ : ∃ k, rounds = k + 1 := ⟨rounds - 1, by omega⟩
      refine forever_inr ?_
      rw [mainBody, hm']
      rfl
    · rw [hlookup addr, trimmed_notMem h]
  | hseg seg rest h ih =>
    intro n m
    obtain ⟨m₁, hm₁, hlookup₁⟩ :=
      readAndPublish_ok delim hok (range n) ⟨seg ++ delim :: rest, m⟩
    rw [readBytes_append h] at hm₁ hlookup₁
    obtain ⟨m', hm', hlookup⟩ := ih (n + 1) m₁
    refine ⟨m', fun rounds hrounds => ?_, fun addr => ?_⟩
    · obtain ⟨rounds, rfl⟩ : ∃ k, rounds = k + 1 := ⟨rounds - 1, by omega⟩
      rw [List.length_append, List.length_cons] at hrounds
      rw [← hm' rounds (by omega)]
      refine forever_inl ?_
      rw [mainBody, hm₁]
      rfl
    · rw [hlookup addr, hlookup₁ addr, accept_append, trimmed_append h, List.dropLast_concat]

theorem lookup_newProducers (addrs : List String) (addr : String) :
    (newProducers addrs).lookup addr = if addr ∈ addrs then some ⟨[]⟩ else none := by
  have hfold : ∀ m : GoMap String Producer,
      (addrs.foldl (fun m a => m.insert a ⟨[]⟩) m).lookup addr =
        if addr ∈ addrs then some ⟨[]⟩ else m.lookup addr := by
    induction addrs with
    | nil => exact fun m => (if_neg List.not_mem_nil).symm
    | cons a addrs ih =>
        intro m
        rw [List.foldl_cons, ih]
        by_cases heq : addr = a
        · rw [heq, AList.lookup_insert, if_pos List.mem_cons_self, ite_self]
        · simp only [List.mem_cons, heq, false_or, AList.lookup_insert_ne heq]
  rw [newProducers, hfold, AList.lookup_empty]

end Publishing

/-- Every producer has accepted just the messages of the input, in order. -/
def PublishesAll (delim : UInt8) (addrs : List String) (input : List UInt8) (s : Session) : Prop :=
  ∀ addr ∈ addrs, s.producers.lookup addr = some ⟨messages delim input⟩

instance (delim : UInt8) (addrs : List String) (input : List UInt8) (s : Session) :
    Decidable (PublishesAll delim addrs input s) :=
  inferInstanceAs (Decidable (∀ addr ∈ addrs, _ = _))

/-- **Publishing an input.** With producers that accept everything the loop always ends, and it has
published the whole input just when there is nothing behind the last delimiter. -/
theorem publishes_input_iff (publish : Publish) (hok : ∀ addr p line, publish addr p line = none)
    (delim : UInt8) (range : ℕ → RangeOrder) (addrs : List String) (haddrs : addrs ≠ [])
    (input : List UInt8) :
    ∃ s, (∀ rounds, input.length < rounds →
        run publish delim range addrs input rounds = some (.eof, s)) ∧
      (PublishesAll delim addrs input s ↔ input = [] ∨ input.getLast? = some delim) := by
  obtain ⟨m, hrun, hlookup⟩ := forever_mainBody delim range hok input 0 (newProducers addrs)
  have hsent : ∀ addr ∈ addrs, m.lookup addr = some ⟨trimmed delim input⟩ := by
    intro addr haddr
    rw [hlookup addr, lookup_newProducers, if_pos haddr]
    rfl
  refine ⟨⟨[], m⟩, hrun, ?_⟩
  rw [← trimmed_eq_messages_iff]
  constructor
  · intro hall
    obtain ⟨addr, haddr⟩ := List.exists_mem_of_ne_nil addrs haddrs
    exact congrArg Producer.published
      (Option.some.inj ((hsent addr haddr).symm.trans (hall addr haddr)))
  · intro heq addr haddr
    rw [← heq]
    exact hsent addr haddr

/-- An input with an empty segment and no delimiter at its end: `"a"`, then `"bc"`. -/
def twoLines : List UInt8 := [97, 10, 10, 98, 99]

theorem publishes_input_twoLines :
    ∃ s, (∀ rounds, 6 < rounds →
        run (fun _ _ _ => none) 10 (fun _ => .id) ["n1", "n2"] (twoLines ++ [10]) rounds =
          some (.eof, s)) ∧
      PublishesAll 10 ["n1", "n2"] (twoLines ++ [10]) s := by
  obtain ⟨s, hrun, hiff⟩ := publishes_input_iff (fun _ _ _ => none) (fun _ _ _ => rfl) 10
    (fun _ => .id) ["n1", "n2"] (by decide) (twoLines ++ [10])
  exact ⟨s, hrun, hiff.mpr (.inr (by decide))⟩

/-- The last byte of an input that does not end in a delimiter is not published. -/
theorem lastByte_lost :
    ∃ s, run (fun _ _ _ => none) 10 (fun _ => .id) ["n1"] twoLines 6 = some (.eof, s) ∧
      s.producers.lookup "n1" = some ⟨[[97], [98]]⟩ ∧ ¬ PublishesAll 10 ["n1"] twoLines s := by
  refine ⟨_, rfl, ?_, ?_⟩
  · decide
  · decide

end Xmq.ToXmq
