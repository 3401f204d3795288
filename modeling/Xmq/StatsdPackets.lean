import Xmq.Outcomes
import Xmq.Packing

/-!
# The packets for statsd

A round of `statsdLoop` writes its lines through a `BoundaryBufferedWriter`, which keeps lines
whole, into a `SpreadWriter`, which keeps each write as one packet and sends the packets at its
flush, spread over the interval. The lines arrive packed in order (`Packing.pack`).

* `bufio.Writer` is over a writer that accepts everything, so its error stays nil.
* The pause is the interval less a second, divided by the number of packets. `time.NewTicker` panics
  when that is not positive.
-/

namespace Xmq.Statsd

open Outcomes Packing

/-- A line, as `Client.send` writes it: its text, and the newline. -/
structure Line where
  text : List UInt8
  deriving DecidableEq

def Line.bytes (l : Line) : List UInt8 := l.text ++ [10]

def Line.length (l : Line) : ℕ := l.bytes.length

/-- The lines one after another. -/
def bytes (lines : List Line) : List UInt8 := (lines.map Line.bytes).flatten

/-! ### The spread writer -/

structure SpreadWriter where
  /-- What the connection was given, one write a datagram. -/
  w : List (List UInt8)
  interval : ℤ
  buf : List (List UInt8)
  deriving DecidableEq

def newSpreadWriter (interval : ℤ) : SpreadWriter := ⟨[], interval, []⟩

def SpreadWriter.write (p : List UInt8) (s : SpreadWriter) : SpreadWriter :=
  { s with buf := s.buf ++ [p] }

/-- `time.NewTicker`. -/
def newTicker (d : ℤ) : Except String Unit :=
  if d ≤ 0 then .error "non-positive interval for NewTicker" else .ok ()

/-- What ends the wait after a packet. -/
inductive Wake where
  | tick
  | parentDone
  | done

/-- `for _, b := range s.buf`. -/
def sendAll (wake : ℕ → Wake) : ℕ → List (List UInt8) → List (List UInt8) → List (List UInt8)
  | _, [], w => w
  | i, b :: buf, w =>
    match wake i with
    | .tick => sendAll wake (i + 1) buf (w ++ [b])
    | .parentDone => sendAll wake (i + 1) buf (w ++ [b])
    | .done => sendAll wake (i + 1) buf (w ++ [b])

def SpreadWriter.flush (wake : ℕ → Wake) (s : SpreadWriter) : Except String SpreadWriter :=
  if s.buf.length = 0 then .ok s
  else do
    let sleep := s.interval.tdiv s.buf.length
    newTicker sleep
    return { s with w := sendAll wake 0 s.buf s.w, buf := [] }

/-! ### The buffered writer -/

/-- A `bufio.Writer` over the spread writer. -/
structure Writer where
  size : ℕ
  buf : List UInt8
  wr : SpreadWriter
  deriving DecidableEq

/-- `bufio.NewWriterSize`. -/
def newWriterSize (wr : SpreadWriter) (size : ℕ) : Writer :=
  ⟨if size = 0 then 4096 else size, [], wr⟩

namespace Writer

def available (b : Writer) : ℕ := b.size - b.buf.length

def flush (b : Writer) : Writer :=
  if b.buf = [] then b else { b with buf := [], wr := b.wr.write b.buf }

/-- A round of the loop in `Write`; with nothing buffered a large write goes past the buffer. -/
def writeRound : List UInt8 × Writer → (List UInt8 × Writer) ⊕ Writer
  | (p, b) =>
    if b.available < p.length then
      if b.buf = [] then .inl ([], { b with wr := b.wr.write p })
      else .inl (p.drop b.available, flush { b with buf := b.buf ++ p.take b.available })
    else .inr { b with buf := b.buf ++ p }

def write (rounds : ℕ) (p : List UInt8) (b : Writer) : Option Writer :=
  forever writeRound rounds (p, b)

end Writer

structure BoundaryBufferedWriter where
  bw : Writer
  deriving DecidableEq

def newBoundaryBufferedWriter (w : SpreadWriter) (size : ℕ) : BoundaryBufferedWriter :=
  ⟨newWriterSize w size⟩

namespace BoundaryBufferedWriter

def write (rounds : ℕ) (b : BoundaryBufferedWriter) (p : List UInt8) :
    Option BoundaryBufferedWriter :=
  let bw := if b.bw.available < p.length then b.bw.flush else b.bw
  (bw.write rounds p).map mk

def flush (b : BoundaryBufferedWriter) : BoundaryBufferedWriter := ⟨b.bw.flush⟩

end BoundaryBufferedWriter

/-! ### A round of the loop -/

/-- `time.Second`, in nanoseconds. -/
def second : ℤ := 1000000000

/-- The datagrams of one round, from its lines. -/
def statsdRound (rounds : ℕ) (wake : ℕ → Wake) (statsdInterval : ℤ) (statsdUDPPacketSize : ℕ)
    (lines : List Line) : Option (Except String (List (List UInt8))) := do
  let sw := newSpreadWriter (statsdInterval - second)
  let bw ← lines.foldlM (fun bw line => bw.write rounds line.bytes)
    (newBoundaryBufferedWriter sw statsdUDPPacketSize)
  return (bw.flush.bw.wr.flush wake).map SpreadWriter.w

/-- The datagrams are the lines, each whole in one of them, and only a single line is over the size.
-/
def Whole (size : ℕ) (lines : List Line) (datagrams : List (List UInt8)) : Prop :=
  datagrams.flatten = bytes lines ∧
    ∃ packets : List (List Line), packets.flatten = lines ∧ datagrams = packets.map bytes ∧
      ∀ packet ∈ packets, packet ≠ [] ∧ (size < (bytes packet).length → ∃ line, packet = [line])

/-! ### The lines arrive packed -/

section Packed

variable {size rounds : ℕ} {interval : ℤ} {s : Packer size Line.length} {b : BoundaryBufferedWriter}
variable {line : Line}

theorem bytes_append (lines lines' : List Line) :
    bytes (lines ++ lines') = bytes lines ++ bytes lines' := by
  rw [bytes, List.map_append, List.flatten_append, ← bytes, ← bytes]

theorem bytes_singleton (line : Line) : bytes [line] = line.bytes := List.flatten_singleton

theorem bytes_flatten (packets : List (List Line)) :
    (packets.map bytes).flatten = bytes packets.flatten := by
  induction packets with
  | nil => rfl
  | cons packet packets ih => rw [List.map_cons, List.flatten_cons, ih, List.flatten_cons,
    bytes_append]

theorem load_eq (lines : List Line) : load Line.length lines = (bytes lines).length := by
  rw [load, bytes, List.length_flatten, List.map_map]
  rfl

theorem bytes_eq_nil_iff {lines : List Line} : bytes lines = [] ↔ lines = [] := by
  cases lines with
  | nil => exact ⟨fun _ => rfl, fun _ => rfl⟩
  | cons line lines => simp [bytes, Line.bytes]

/-- The buffer has the current packet, and the spread writer the full ones. -/
structure Packed (interval : ℤ) (s : Packer size Line.length) (b : BoundaryBufferedWriter) :
    Prop where
  size : b.bw.size = size
  buf : b.bw.buf = bytes s.current
  full : b.bw.wr.buf = s.full.map bytes
  interval : b.bw.wr.interval = interval
  unsent : b.bw.wr.w = []

theorem newBoundaryBufferedWriter_packed (interval : ℤ) (hsize : 0 < size) :
    Packed interval (Packer.empty : Packer size Line.length)
      (newBoundaryBufferedWriter (newSpreadWriter interval) size) where
  size := if_neg hsize.ne'
  buf := rfl
  full := rfl
  interval := rfl
  unsent := rfl

theorem Packed.available (h : Packed interval s b) :
    b.bw.available < line.bytes.length ↔ size < load Line.length s.current + line.length := by
  have hfits := s.fits
  rw [Writer.available, h.size, h.buf, ← load_eq, Line.length]
  omega

/-- A flush closes the current packet. -/
theorem Packed.flush (h : Packed interval s b) :
    b.bw.flush.size = size ∧ b.bw.flush.buf = [] ∧ b.bw.flush.wr.buf = s.close.map bytes ∧
      b.bw.flush.wr.interval = interval ∧ b.bw.flush.wr.w = [] := by
  rw [Writer.flush, Packer.close]
  by_cases hnil : s.current = []
  · have hbuf : b.bw.buf = [] := by rw [h.buf, hnil, bytes_eq_nil_iff]
    rw [if_pos hbuf, if_pos hnil]
    exact ⟨h.size, hbuf, h.full, h.interval, h.unsent⟩
  · have hbuf : b.bw.buf ≠ [] := by rwa [h.buf, ne_eq, bytes_eq_nil_iff]
    rw [if_neg hbuf, if_neg hnil]
    refine ⟨h.size, rfl, ?_, h.interval, h.unsent⟩
    show b.bw.wr.buf ++ [b.bw.buf] = _
    rw [h.full, h.buf, List.map_append, List.map_singleton]

/-- What fits goes into the buffer. -/
theorem write_fits {w : Writer} {p : List UInt8} (h : ¬ w.available < p.length)
    (hrounds : 0 < rounds) :
    w.write rounds p = some { w with buf := w.buf ++ p } := by
  obtain ⟨n, rfl⟩ : ∃ n, rounds = n + 1 := ⟨rounds - 1, by omega⟩
  exact forever_inr (if_neg h)

/-- What does not fit into an empty buffer goes past it. -/
theorem write_large {w : Writer} {p : List UInt8} (h : w.available < p.length) (hbuf : w.buf = [])
    (hrounds : 1 < rounds) : w.write rounds p = some { w with wr := w.wr.write p } := by
  obtain ⟨n, rfl⟩ : ∃ n, rounds = n + 2 := ⟨rounds - 2, by omega⟩
  have hround : Writer.writeRound (p, w) = .inl ([], { w with wr := w.wr.write p }) :=
    (if_pos h).trans (if_pos hbuf)
  have hnil : ¬ ({ w with wr := w.wr.write p } : Writer).available < ([] : List UInt8).length :=
    Nat.not_lt_zero _
  rw [Writer.write, forever_inl hround]
  refine (write_fits hnil n.succ_pos).trans (congrArg some ?_)
  show Writer.mk w.size (w.buf ++ []) _ = Writer.mk w.size w.buf _
  rw [List.append_nil]

/-- **A line** is added to the packets. -/
theorem Packed.write (h : Packed interval s b) (hrounds : 1 < rounds) (line : Line) :
    ∃ b', b.write rounds line.bytes = some b' ∧ Packed interval (s.add line) b' := by
  by_cases hfits : size < load Line.length s.current + line.length
  · obtain ⟨hsize, hbuf, hfull, hinterval, hunsent⟩ := h.flush
    have havailable : b.bw.flush.available = size := by
      rw [Writer.available, hsize, hbuf, List.length_nil, Nat.sub_zero]
    by_cases hline : line.length ≤ size
    · obtain ⟨hfull', hcurrent'⟩ := Packer.add_next hfits hline
      have hroom : ¬ b.bw.flush.available < line.bytes.length := by
        rw [havailable]
        exact Nat.not_lt.mpr hline
      refine ⟨⟨{ b.bw.flush with buf := b.bw.flush.buf ++ line.bytes }⟩, ?_, ?_⟩
      · rw [BoundaryBufferedWriter.write, if_pos (h.available.mpr hfits),
          write_fits hroom (Nat.zero_lt_of_lt hrounds)]
        rfl
      · refine ⟨hsize, ?_, hfull.trans (congrArg _ hfull').symm, hinterval, hunsent⟩
        show b.bw.flush.buf ++ line.bytes = _
        rw [hbuf, hcurrent', bytes_singleton, List.nil_append]
    · have hheavy := Nat.not_le.mp hline
      obtain ⟨hfull', hcurrent'⟩ := Packer.add_heavy hfits hheavy
      have hlarge : b.bw.flush.available < line.bytes.length := by
        rw [havailable]
        exact hheavy
      refine ⟨⟨{ b.bw.flush with wr := b.bw.flush.wr.write line.bytes }⟩, ?_, ?_⟩
      · rw [BoundaryBufferedWriter.write, if_pos (h.available.mpr hfits),
          write_large hlarge hbuf hrounds]
        rfl
      · refine ⟨hsize, hbuf.trans (congrArg bytes hcurrent').symm, ?_, hinterval, hunsent⟩
        show b.bw.flush.wr.buf ++ [line.bytes] = _
        rw [hfull, hfull', List.map_append, List.map_singleton, bytes_singleton]
  · obtain ⟨hfull', hcurrent'⟩ := Packer.add_fits (Nat.not_lt.mp hfits)
    have hroom : ¬ b.bw.available < line.bytes.length := fun hlt => hfits (h.available.mp hlt)
    refine ⟨⟨{ b.bw with buf := b.bw.buf ++ line.bytes }⟩, ?_, ?_⟩
    · rw [BoundaryBufferedWriter.write, if_neg hroom, write_fits hroom (Nat.zero_lt_of_lt hrounds)]
      rfl
    · refine ⟨h.size, ?_, h.full.trans (congrArg _ hfull').symm, h.interval, h.unsent⟩
      show b.bw.buf ++ line.bytes = _
      rw [h.buf, hcurrent', bytes_append, bytes_singleton]

theorem Packed.foldlM (h : Packed interval s b) (hrounds : 1 < rounds) (lines : List Line) :
    ∃ b', lines.foldlM (fun bw line => bw.write rounds line.bytes) b = some b' ∧
      Packed interval (lines.foldl Packer.add s) b' := by
  induction lines generalizing s b with
  | nil => exact ⟨b, rfl, h⟩
  | cons line lines ih =>
      obtain ⟨b₁, hb₁, h₁⟩ := h.write hrounds line
      obtain ⟨b', hb', h'⟩ := ih h₁
      refine ⟨b', ?_, h'⟩
      rw [List.foldlM_cons, hb₁]
      exact hb'

end Packed

/-! ### The flush -/

/-- Whatever ends the waits, every packet is sent. -/
theorem sendAll_eq (wake : ℕ → Wake) (i : ℕ) (buf w : List (List UInt8)) :
    sendAll wake i buf w = w ++ buf := by
  induction buf generalizing i w with
  | nil => exact (List.append_nil w).symm
  | cons b buf ih =>
      rw [sendAll]
      cases wake i <;> exact (ih (i + 1) (w ++ [b])).trans (List.append_assoc w [b] buf)

/-- The quotient is positive when each packet has a nanosecond. -/
theorem tdiv_pos_iff {a : ℤ} {n : ℕ} (hn : 0 < n) : 0 < a.tdiv n ↔ (n : ℤ) ≤ a := by
  have hn' : (0 : ℤ) < n := by omega
  constructor
  · intro h
    have ha : 0 ≤ a := by
      by_contra hneg
      have hle : a.tdiv n ≤ 0 := by
        have hnonneg := Int.tdiv_nonneg (a := -a) (by omega) hn'.le
        rw [Int.neg_tdiv] at hnonneg
        omega
      omega
    rw [Int.tdiv_eq_ediv_of_nonneg ha] at h
    simpa using (Int.le_ediv_iff_mul_le hn').mp h
  · intro h
    rw [Int.tdiv_eq_ediv_of_nonneg (by omega)]
    exact (Int.le_ediv_iff_mul_le hn').mpr (by simpa using h)

/-- The flush sends all or panics. -/
theorem SpreadWriter.flush_eq (wake : ℕ → Wake) (s : SpreadWriter) :
    (s.flush wake).map SpreadWriter.w =
      if s.buf = [] ∨ (s.buf.length : ℤ) ≤ s.interval then .ok (s.w ++ s.buf)
      else .error "non-positive interval for NewTicker" := by
  by_cases hnil : s.buf = []
  · rw [SpreadWriter.flush, if_pos (List.length_eq_zero_iff.mpr hnil), if_pos (Or.inl hnil), hnil,
      List.append_nil]
    rfl
  · have hpos : 0 < s.buf.length := List.length_pos_iff.mpr hnil
    rw [SpreadWriter.flush, if_neg hpos.ne']
    simp only [newTicker]
    by_cases hle : (s.buf.length : ℤ) ≤ s.interval
    · rw [if_neg (not_le.mpr ((tdiv_pos_iff hpos).mpr hle)), if_pos (Or.inr hle), sendAll_eq]
      rfl
    · have hsleep := not_lt.mp (mt (tdiv_pos_iff hpos).mp hle)
      rw [if_pos hsleep, if_neg (not_or.mpr ⟨hnil, hle⟩)]
      rfl

/-- What a round sends: the packets, if the pause between them is positive. -/
theorem statsdRound_eq (wake : ℕ → Wake) (statsdInterval : ℤ) {size rounds : ℕ} (hsize : 0 < size)
    (hrounds : 1 < rounds) (lines : List Line) :
    statsdRound rounds wake statsdInterval size lines = some
      (if lines = [] ∨ ((pack size Line.length lines).length : ℤ) ≤ statsdInterval - second then
        .ok ((pack size Line.length lines).map bytes)
      else .error "non-positive interval for NewTicker") := by
  obtain ⟨b, hb, hpacked⟩ :=
    (newBoundaryBufferedWriter_packed (statsdInterval - second) hsize).foldlM hrounds lines
  obtain ⟨-, -, hbuf, hinterval, hunsent⟩ := hpacked.flush
  have hnil : b.bw.flush.wr.buf = [] ↔ lines = [] := by
    rw [hbuf, List.map_eq_nil_iff]
    exact pack_eq_nil_iff
  have hlength : b.bw.flush.wr.buf.length = (pack size Line.length lines).length := by
    rw [hbuf, List.length_map]
    rfl
  rw [statsdRound]
  simp only [hb, Option.bind_eq_bind, Option.bind_some, Option.pure_def]
  show some ((b.bw.flush.wr.flush wake).map SpreadWriter.w) = _
  rw [SpreadWriter.flush_eq, hlength, hinterval, hunsent]
  simp only [hnil]
  rw [hbuf]
  rfl

theorem pack_whole (size : ℕ) (lines : List Line) :
    Whole size lines ((pack size Line.length lines).map bytes) := by
  refine ⟨?_, pack size Line.length lines, pack_flatten lines, rfl, fun packet hmem => ?_⟩
  · rw [bytes_flatten, pack_flatten]
  · rw [← load_eq]
    exact pack_isPacket lines packet hmem

/-- **The packets.** A round sends its lines, each whole in one packet, exactly when there are none
or the interval less a second has a nanosecond for each packet; whatever ends the waits. -/
theorem packets_sent_iff (wake : ℕ → Wake) (statsdInterval : ℤ) (size : ℕ) (hsize : 0 < size)
    (lines : List Line) (rounds : ℕ) (hrounds : 1 < rounds) :
    (∃ datagrams, statsdRound rounds wake statsdInterval size lines = some (.ok datagrams) ∧
        Whole size lines datagrams) ↔
      lines = [] ∨ ((pack size Line.length lines).length : ℤ) ≤ statsdInterval - second := by
  rw [statsdRound_eq wake statsdInterval hsize hrounds]
  constructor
  · rintro ⟨datagrams, hdatagrams, -⟩
    by_contra hnot
    rw [if_neg hnot] at hdatagrams
    cases hdatagrams
  · intro h
    exact ⟨_, congrArg some (if_pos h), pack_whole size lines⟩

/-- Two short lines and one that is over a size of five. -/
def threeLines : List Line := [⟨[97]⟩, ⟨[98]⟩, ⟨[99, 99, 99, 99, 99]⟩]

theorem packets_sent_threeLines :
    0 < 5 ∧ 1 < 2 ∧
      ((∃ datagrams, statsdRound 2 (fun _ => .tick) (60 * second) 5 threeLines =
        some (.ok datagrams) ∧
          Whole 5 threeLines datagrams) ↔
        threeLines = [] ∨
          ((pack 5 Line.length threeLines).length : ℤ) ≤ 60 * second - second) :=
  ⟨by decide, by decide,
    packets_sent_iff (fun _ => .tick) (60 * second) 5 (by decide) threeLines 2 (by decide)⟩

/-- With an interval of a second there is no time between packets. -/
theorem oneSecond_panics :
    0 < second ∧ ¬ ∃ datagrams,
      statsdRound 2 (fun _ => .tick) second 5 threeLines = some (.ok datagrams) ∧
        Whole 5 threeLines datagrams := by
  refine ⟨by decide, ?_⟩
  rintro ⟨datagrams, hsent, -⟩
  have hpanic : statsdRound 2 (fun _ => .tick) second 5 threeLines =
      some (.error "non-positive interval for NewTicker") := rfl
  rw [hpanic] at hsent
  cases hsent

end Xmq.Statsd
