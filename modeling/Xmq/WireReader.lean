import Mathlib.Data.List.Basic
import Xmq.BigEndian
import Xmq.ClientV2

/-!
# Reading commands

What the server reads from a connection: a line for each command, and behind some of them a length of
four bytes and as many bytes. The body of an `MPUB` is a count and as many messages, each with its own
length; who reads these does not know how long the body was declared to be.

* A reader is the bytes that are still to come. What cannot be read in full is used up.
* `framed` is what a body looks like on the wire, and `mpubBytes` what the body of an `MPUB` looks
  like. `readMPUB` reads the messages back, if there are not too many and none is too long.
-/

namespace Xmq.V2

open BigEndian

abbrev Reader (α : Type) := EStateM Fail (List UInt8) α

/-! ### Lengths and bodies -/

/-- `io.ReadFull`, with the error that its caller makes of a failure. -/
def readFull (n : ℕ) (err : Fail) : Reader (List UInt8) := fun r =>
  if r.length < n then .error err [] else .ok (r.take n) (r.drop n)

def readLen (err : Fail) : Reader Int32 := do
  let tmp ← readFull 4 err
  pure (UInt32.ofNat (ofBytes tmp)).toInt32

def badBody (desc : String) : Fail := newFatalClientErr "E_BAD_BODY" (text desc)

def badMessage (desc : String) : Fail := newFatalClientErr "E_BAD_MESSAGE" (text desc)

/-- The body of `IDENTIFY` and `AUTH`. -/
def readBody (opts : Options) (cmd : String) : Reader (List UInt8) := do
  let bodyLen ← readLen (badBody s!"{cmd} failed to read body size")
  rejectIf (opts.maxBodySize < bodyLen.toInt)
    (badBody s!"{cmd} body too big {bodyLen.toInt} > {opts.maxBodySize}")
  rejectIf (bodyLen.toInt ≤ 0) (badBody s!"{cmd} invalid body size {bodyLen.toInt}")
  readFull bodyLen.toInt.toNat (badBody s!"{cmd} failed to read body")

/-- The body of `PUB` and `DPUB`. -/
def readMessageBody (opts : Options) (cmd : String) : Reader (List UInt8) := do
  let bodyLen ← readLen (badMessage s!"{cmd} failed to read message body size")
  rejectIf (bodyLen.toInt ≤ 0) (badMessage s!"{cmd} invalid message body size {bodyLen.toInt}")
  rejectIf (opts.maxMsgSize < bodyLen.toInt)
    (badMessage s!"{cmd} message too big {bodyLen.toInt} > {opts.maxMsgSize}")
  readFull bodyLen.toInt.toNat (badMessage s!"{cmd} failed to read message body")

/-! ### `MPUB` -/

/-- The declared length of the body of an `MPUB`. -/
def readMPUBLen (opts : Options) : Reader Int32 := do
  let bodyLen ← readLen (badBody "MPUB failed to read body size")
  rejectIf (bodyLen.toInt ≤ 0) (badBody s!"MPUB invalid body size {bodyLen.toInt}")
  rejectIf (opts.maxBodySize < bodyLen.toInt)
    (badBody s!"MPUB body too big {bodyLen.toInt} > {opts.maxBodySize}")
  pure bodyLen

/-- The loop of `readMPUB`, from message `i` on. `GenerateID` of no topic panics. -/
def readMessages (maxMessageSize : ℤ) (topic : Bool) : ℕ → ℕ → Reader (List (List UInt8))
  | _, 0 => pure []
  | i, n + 1 => do
    let messageSize ← readLen (badMessage s!"MPUB failed to read message({i}) body size")
    rejectIf (messageSize.toInt ≤ 0)
      (badMessage s!"MPUB invalid message({i}) body size {messageSize.toInt}")
    rejectIf (maxMessageSize < messageSize.toInt)
      (badMessage s!"MPUB message too big {messageSize.toInt} > {maxMessageSize}")
    let msgBody ← readFull messageSize.toInt.toNat (badMessage "MPUB failed to read message body")
    rejectIf (topic = false) (.panic .nilTopic)
    let messages ← readMessages maxMessageSize topic (i + 1) n
    pure (msgBody :: messages)

def readMPUB (topic : Bool) (maxMessageSize maxBodySize : ℤ) : Reader (List (List UInt8)) := do
  let numMessages ← readLen (badBody "MPUB failed to read message count")
  -- 4 for the count, and 5 for a length and at least one byte
  rejectIf (numMessages.toInt ≤ 0 ∨ (maxBodySize - 4).tdiv 5 < numMessages.toInt)
    (badBody s!"MPUB invalid message count {numMessages.toInt}")
  readMessages maxMessageSize topic 0 numMessages.toInt.toNat

/-! ### Lines -/

/-- `ReadSlice`, which fails on a line that does not fit in the buffer. -/
def readSlice (r : List UInt8) : Option (List UInt8 × List UInt8) :=
  let i := r.idxOf 10
  if i < r.length ∧ i < defaultBufferSize then some (r.take i, r.drop (i + 1)) else none

/-- The line without a carriage return, at its spaces. -/
def splitParams (line : List UInt8) : List (List UInt8) :=
  (if line.getLast? = some 13 then line.dropLast else line).splitOn 32

/-! ### What was read -/

/-- A length of four bytes, and as many bytes. -/
def framed (body : List UInt8) : List UInt8 := toBytes 4 body.length ++ body

/-- The body of an `MPUB` of the given messages. -/
def mpubBytes (messages : List (List UInt8)) : List UInt8 :=
  toBytes 4 messages.length ++ messages.flatMap framed

theorem toBytes_inj {m n : ℕ} (hm : m < 2 ^ 31) (hn : n < 2 ^ 31)
    (h : toBytes 4 m = toBytes 4 n) : m = n := by
  have hvalue := congrArg ofBytes h
  rwa [ofBytes_toBytes (by omega), ofBytes_toBytes (by omega)] at hvalue

/-- Four bytes, and four more with each message. -/
theorem length_mpubBytes (messages : List (List UInt8)) :
    (mpubBytes messages).length = 4 + (messages.map fun body => 4 + body.length).sum := by
  rw [mpubBytes, List.length_append, length_toBytes, List.length_flatMap]
  congr 2
  refine List.map_congr_left fun body _ => ?_
  rw [framed, List.length_append, length_toBytes]

/-- Messages that `readMPUB` takes. -/
structure Acceptable (maxMessageSize maxBodySize : ℤ) (messages : List (List UInt8)) : Prop where
  pos : 0 < messages.length
  lt : messages.length < 2 ^ 31
  le : (messages.length : ℤ) ≤ (maxBodySize - 4).tdiv 5
  sizes : ∀ body ∈ messages,
    0 < body.length ∧ body.length < 2 ^ 31 ∧ (body.length : ℤ) ≤ maxMessageSize

theorem readSlice_eq {r line rest : List UInt8} (h : readSlice r = some (line, rest)) :
    r = line ++ 10 :: rest ∧ (10 : UInt8) ∉ line := by
  obtain ⟨⟨hi, -⟩, h⟩ := Option.ite_none_right_eq_some.mp h
  cases h
  have hget : r[r.idxOf 10] = 10 := List.getElem_idxOf hi
  have hmem : (10 : UInt8) ∈ r := List.idxOf_lt_length_iff.mp hi
  refine ⟨?_, fun h => Nat.lt_irrefl _ ((List.mem_take_iff_idxOf_lt hmem).mp h)⟩
  calc r = r.take (r.idxOf 10) ++ r.drop (r.idxOf 10) := (List.take_append_drop _ r).symm
    _ = r.take (r.idxOf 10) ++ r[r.idxOf 10] :: r.drop (r.idxOf 10 + 1) := by
        rw [List.drop_eq_getElem_cons hi]
    _ = r.take (r.idxOf 10) ++ 10 :: r.drop (r.idxOf 10 + 1) := by rw [hget]

section Reading

variable {err : Fail} {opts : Options}

theorem readFull_spec (n : ℕ) (r : List UInt8) :
    Ensures (readFull n err) r (fun b r' => r = b ++ r' ∧ b.length = n) fun e _ => e = err := by
  unfold Ensures readFull
  by_cases h : r.length < n
  · rw [if_pos h]
  · rw [if_neg h]
    exact ⟨(List.take_append_drop n r).symm, List.length_take_of_le (Nat.le_of_not_lt h)⟩

/-- A length that is not negative is the number of its bytes. -/
theorem toBytes_toInt {b : List UInt8} (hb : b.length = 4)
    (hpos : 0 ≤ (UInt32.ofNat (ofBytes b)).toInt32.toInt) :
    toBytes 4 (UInt32.ofNat (ofBytes b)).toInt32.toInt.toNat = b := by
  have hlt : ofBytes b < UInt32.size := by
    have h := ofBytes_lt b
    rwa [hb] at h
  have hnat : (UInt32.ofNat (ofBytes b)).toBitVec.toNat = ofBytes b :=
    UInt32.toNat_ofNat_of_lt' hlt
  have hint : (UInt32.ofNat (ofBytes b)).toInt32.toInt =
      (UInt32.ofNat (ofBytes b)).toBitVec.toInt := rfl
  have hcond := BitVec.toInt_eq_toNat_cond (UInt32.ofNat (ofBytes b)).toBitVec
  rw [hnat] at hcond
  have hval : (UInt32.ofNat (ofBytes b)).toInt32.toInt.toNat = ofBytes b := by
    rw [hint] at hpos ⊢
    split at hcond <;> omega
  rw [hval, ← hb, toBytes_ofBytes]

theorem readLen_spec (r : List UInt8) :
    Ensures (readLen err) r
      (fun n r' => ∃ b, r = b ++ r' ∧ (0 ≤ n.toInt → b = toBytes 4 n.toInt.toNat))
      fun e _ => e = err := by
  rw [readLen, ensures_bind]
  refine (readFull_spec 4 r).imp (fun b r' h => ?_) fun _ _ h => h
  exact ⟨b, h.1, fun hpos => (toBytes_toInt h.2 hpos).symm⟩

/-- A length and a body that is as long. -/
theorem framed_of_read {n : Int32} {b body r r₁ r₂ : List UInt8} (hlen : r = b ++ r₁)
    (hbytes : 0 ≤ n.toInt → b = toBytes 4 n.toInt.toNat) (hpos : ¬ n.toInt ≤ 0)
    (hread : r₁ = body ++ r₂ ∧ body.length = n.toInt.toNat) :
    r = framed body ++ r₂ ∧ (body.length : ℤ) = n.toInt := by
  have hb := hbytes (by omega)
  refine ⟨?_, by omega⟩
  rw [hlen, hb, hread.1, framed, hread.2, List.append_assoc]

theorem readBody_spec (cmd : String) (r : List UInt8) :
    Ensures (readBody opts cmd) r (fun body r' => r = framed body ++ r') fun e _ => e.Fatal := by
  rw [readBody, ensures_bind]
  refine (readLen_spec r).imp (fun n r₁ ⟨b, hlen, hbytes⟩ => ?_) fun _ _ h => ⟨_, _, h⟩
  simp only [ensures_bind, ensures_rejectIf]
  refine ⟨fun _ => ⟨_, _, rfl⟩, fun _ => ⟨fun _ => ⟨_, _, rfl⟩, fun hpos => ?_⟩⟩
  refine (readFull_spec _ r₁).imp (fun body r₂ hread => ?_) fun _ _ h => ⟨_, _, h⟩
  exact (framed_of_read hlen hbytes hpos hread).1

theorem readMessageBody_spec (cmd : String) (r : List UInt8) :
    Ensures (readMessageBody opts cmd) r (fun body r' => r = framed body ++ r')
      fun e _ => e.Fatal := by
  rw [readMessageBody, ensures_bind]
  refine (readLen_spec r).imp (fun n r₁ ⟨b, hlen, hbytes⟩ => ?_) fun _ _ h => ⟨_, _, h⟩
  simp only [ensures_bind, ensures_rejectIf]
  refine ⟨fun _ => ⟨_, _, rfl⟩, fun hpos => ⟨fun _ => ⟨_, _, rfl⟩, fun _ => ?_⟩⟩
  refine (readFull_spec _ r₁).imp (fun body r₂ hread => ?_) fun _ _ h => ⟨_, _, h⟩
  exact (framed_of_read hlen hbytes hpos hread).1

theorem readMPUBLen_spec (r : List UInt8) :
    Ensures (readMPUBLen opts) r
      (fun n r' => r = toBytes 4 n.toInt.toNat ++ r' ∧ 0 < n.toInt ∧ n.toInt ≤ opts.maxBodySize)
      fun e _ => e.Fatal := by
  rw [readMPUBLen, ensures_bind]
  refine (readLen_spec r).imp (fun n r₁ ⟨b, hlen, hbytes⟩ => ?_) fun _ _ h => ⟨_, _, h⟩
  simp only [ensures_bind, ensures_rejectIf, ensures_pure]
  refine ⟨fun _ => ⟨_, _, rfl⟩, fun hpos => ⟨fun _ => ⟨_, _, rfl⟩, fun hmax => ?_⟩⟩
  rw [← hbytes (by omega)]
  exact ⟨hlen, by omega, by omega⟩

/-- What the body of an `MPUB` fails with. -/
def Fail.FatalOrNoTopic (e : Fail) : Prop := e.Fatal ∨ e = .panic .nilTopic

/-- **The loop.** It reads one length and one body after the other. -/
theorem readMessages_spec (maxMessageSize : ℤ) (topic : Bool) (n i : ℕ) (r : List UInt8) :
    Ensures (readMessages maxMessageSize topic i n) r
      (fun messages r' => (r = messages.flatMap framed ++ r' ∧ messages.length = n) ∧
        ∀ body ∈ messages,
          0 < body.length ∧ body.length < 2 ^ 31 ∧ (body.length : ℤ) ≤ maxMessageSize)
      fun e _ => e.FatalOrNoTopic := by
  induction n generalizing i r with
  | zero => exact ⟨⟨rfl, rfl⟩, nofun⟩
  | succ n ih =>
      rw [readMessages, ensures_bind]
      refine (readLen_spec r).imp (fun size r₁ ⟨b, hlen, hbytes⟩ => ?_)
        fun _ _ h => Or.inl ⟨_, _, h⟩
      simp only [ensures_bind, ensures_rejectIf, ensures_pure]
      refine ⟨fun _ => Or.inl ⟨_, _, rfl⟩, fun hpos => ⟨fun _ => Or.inl ⟨_, _, rfl⟩,
        fun hmax => ?_⟩⟩
      refine (readFull_spec _ r₁).imp (fun body r₂ hread => ?_) fun _ _ h => Or.inl ⟨_, _, h⟩
      obtain ⟨hframed, hsize⟩ := framed_of_read hlen hbytes hpos hread
      refine ⟨fun _ => Or.inr rfl, fun _ => ?_⟩
      refine (ih (i + 1) r₂).imp (fun messages r₃ h => ?_) fun _ _ h => h
      obtain ⟨⟨hmessages, hcount⟩, hsizes⟩ := h
      have hlt := size.toInt_lt
      refine ⟨⟨?_, by rw [List.length_cons, hcount]⟩, List.forall_mem_cons.mpr ⟨?_, hsizes⟩⟩
      · rw [hframed, hmessages, List.flatMap_cons, List.append_assoc]
      · omega

theorem readMPUB_spec (topic : Bool) (maxMessageSize maxBodySize : ℤ) (r : List UInt8) :
    Ensures (readMPUB topic maxMessageSize maxBodySize) r
      (fun messages r' => r = mpubBytes messages ++ r' ∧
        Acceptable maxMessageSize maxBodySize messages)
      fun e _ => e.FatalOrNoTopic := by
  rw [readMPUB, ensures_bind]
  refine (readLen_spec r).imp (fun count r₁ ⟨b, hlen, hbytes⟩ => ?_) fun _ _ h => Or.inl ⟨_, _, h⟩
  simp only [ensures_bind, ensures_rejectIf]
  refine ⟨fun _ => Or.inl ⟨_, _, rfl⟩, fun hcount => ?_⟩
  refine (readMessages_spec maxMessageSize topic _ 0 r₁).imp (fun messages r₂ h => ?_)
    fun _ _ h => h
  obtain ⟨⟨hmessages, hlength⟩, hsizes⟩ := h
  have hlt := count.toInt_lt
  refine ⟨?_, by omega, by omega, by omega, hsizes⟩
  rw [hlen, hbytes (by omega), hmessages, mpubBytes, hlength, List.append_assoc]

/-- Without a topic no `MPUB` succeeds, since it has a message. -/
theorem readMPUB_noTopic (maxMessageSize maxBodySize : ℤ) (r : List UInt8) :
    Ensures (readMPUB false maxMessageSize maxBodySize) r (fun _ _ => False) fun _ _ => True := by
  rw [readMPUB, ensures_bind]
  refine (readLen_spec r).imp (fun count r₁ _ => ?_) fun _ _ _ => trivial
  simp only [ensures_bind, ensures_rejectIf]
  refine ⟨fun _ => trivial, fun hcount => ?_⟩
  obtain ⟨n, hn⟩ : ∃ n, count.toInt.toNat = n + 1 := ⟨count.toInt.toNat - 1, by omega⟩
  rw [hn, readMessages, ensures_bind]
  refine (readLen_spec r₁).imp (fun size r₂ _ => ?_) fun _ _ _ => trivial
  simp only [ensures_bind, ensures_rejectIf]
  refine ⟨fun _ => trivial, fun _ => ⟨fun _ => trivial, fun _ => ?_⟩⟩
  refine (readFull_spec _ r₂).imp (fun body r₃ _ => ?_) fun _ _ _ => trivial
  exact ⟨fun _ => trivial, fun h => absurd trivial h⟩

/-! ### What is read back -/

variable (err) in
theorem readFull_append (b r : List UInt8) :
    Ensures (readFull b.length err) (b ++ r) (fun b' r' => b' = b ∧ r' = r) fun _ _ => False := by
  have h : ¬ (b ++ r).length < b.length := by
    rw [List.length_append]
    omega
  unfold Ensures readFull
  rw [if_neg h]
  exact ⟨List.take_left' rfl, List.drop_left' rfl⟩

theorem readLen_append {n : ℕ} (h : n < 2 ^ 31) (r : List UInt8) :
    Ensures (readLen err) (toBytes 4 n ++ r) (fun m r' => m.toInt = n ∧ r' = r)
      fun _ _ => False := by
  have hread := readFull_append err (toBytes 4 n) r
  rw [length_toBytes] at hread
  rw [readLen, ensures_bind]
  refine hread.imp (fun b r' ⟨hb, hr⟩ => ⟨?_, hr⟩) fun _ _ h => h
  rw [hb, ofBytes_toBytes (by omega)]
  have hnat : (UInt32.ofNat n).toBitVec.toNat = n := UInt32.toNat_ofNat_of_lt' (by
    rw [UInt32.size]
    omega)
  have hcond := BitVec.toInt_eq_toNat_cond (UInt32.ofNat n).toBitVec
  rw [hnat, if_pos (by omega)] at hcond
  exact hcond

/-- The loop reads back the messages that were written. -/
theorem readMessages_append (maxMessageSize : ℤ) (messages : List (List UInt8)) (i : ℕ)
    (r : List UInt8) (h : ∀ body ∈ messages,
      0 < body.length ∧ body.length < 2 ^ 31 ∧ (body.length : ℤ) ≤ maxMessageSize) :
    Ensures (readMessages maxMessageSize true i messages.length) (messages.flatMap framed ++ r)
      (fun messages' r' => messages' = messages ∧ r' = r) fun _ _ => False := by
  induction messages generalizing i with
  | nil => exact ⟨rfl, rfl⟩
  | cons body messages ih =>
      obtain ⟨⟨hpos, hlt, hmax⟩, htail⟩ := List.forall_mem_cons.mp h
      rw [List.length_cons, readMessages, ensures_bind, List.flatMap_cons, framed,
        List.append_assoc, List.append_assoc]
      refine (readLen_append hlt _).imp (fun n r₁ h => ?_) fun _ _ h => h
      obtain ⟨hn, rfl⟩ := h
      simp only [ensures_bind, ensures_rejectIf, ensures_pure, hn]
      refine ⟨fun h => by omega, fun _ => ⟨fun h => by omega, fun _ => ?_⟩⟩
      refine (readFull_append _ body _).imp (fun b r₂ h => ?_) fun _ _ h => h
      obtain ⟨rfl, rfl⟩ := h
      refine ⟨by rintro ⟨⟩, fun _ => (ih (i + 1) htail).imp (fun messages' r₃ h => ?_) fun _ _ h => h⟩
      exact ⟨by rw [h.1], h.2⟩

/-- **Round trip.** `readMPUB` reads back what an `MPUB` of acceptable messages sends. -/
theorem readMPUB_append {maxMessageSize maxBodySize : ℤ} {messages : List (List UInt8)}
    (h : Acceptable maxMessageSize maxBodySize messages) (r : List UInt8) :
    Ensures (readMPUB true maxMessageSize maxBodySize) (mpubBytes messages ++ r)
      (fun messages' r' => messages' = messages ∧ r' = r) fun _ _ => False := by
  rw [readMPUB, ensures_bind, mpubBytes, List.append_assoc]
  refine (readLen_append h.lt _).imp (fun n r₁ ⟨hn, hr₁⟩ => ?_) fun _ _ h => h
  subst hr₁
  have hpos := h.pos
  have hle := h.le
  simp only [ensures_bind, ensures_rejectIf, hn]
  refine ⟨fun h => by omega, fun _ => ?_⟩
  exact readMessages_append maxMessageSize messages 0 r h.sizes

end Reading

end Xmq.V2
