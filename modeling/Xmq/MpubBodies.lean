import Mathlib.Algebra.Order.BigOperators.Group.List
import Xmq.HttpPublish

/-!
# The bodies of batches

The two ways in which a batch of messages is written down. `MpubGrammar` is the binary one: a count,
and behind it records of a length and as many bytes. `readMPUB` takes what the grammar derives,
leaves what stands behind it, and takes nothing else. The bound on the count refuses no batch that
fits in a body, since a record has at least five bytes.

The text mode of `/mpub` takes lines. It reads one byte more than a body may have and looks, after
each line, for exactly that many bytes read; no read can jump over them, so the last line decides.
-/

namespace Xmq.V2

open BigEndian

/-! ### The binary mode -/

/-- The number that the bytes of an `int32` stand for, the most significant first. -/
def int32OfBytes (b : List UInt8) : ℤ := (ofBytes b : ℤ).bmod (2 ^ 32)

/-- Records, one behind the other, and what they hold. -/
inductive MpubRecords (maxMessageSize : ℤ) : List UInt8 → List (List UInt8) → Prop
  | nil : MpubRecords maxMessageSize [] []
  | cons {size body records : List UInt8} {messages : List (List UInt8)} :
      size.length = 4 → 1 ≤ int32OfBytes size → int32OfBytes size ≤ maxMessageSize →
      (body.length : ℤ) = int32OfBytes size → MpubRecords maxMessageSize records messages →
      MpubRecords maxMessageSize (size ++ body ++ records) (body :: messages)

/-- A count, and as many records. -/
def MpubGrammar (maxMessageSize maxBodySize : ℤ) (bytes : List UInt8)
    (messages : List (List UInt8)) : Prop :=
  ∃ count records, bytes = count ++ records ∧ count.length = 4 ∧ 1 ≤ int32OfBytes count ∧
    int32OfBytes count ≤ (maxBodySize - 4) / 5 ∧ (messages.length : ℤ) = int32OfBytes count ∧
    MpubRecords maxMessageSize records messages

theorem int32OfBytes_toBytes {n : ℕ} (h : n < 2 ^ 31) : int32OfBytes (toBytes 4 n) = n := by
  have hvalue : ofBytes (toBytes 4 n) = n := ofBytes_toBytes (by omega)
  unfold int32OfBytes
  rw [hvalue]
  refine Int.bmod_eq_of_le ?_ ?_
  · simp only [Nat.reducePow]
    omega
  · simp only [Nat.reducePow]
    omega

/-- Four bytes that stand for a positive number are the bytes of that number. -/
theorem toBytes_int32OfBytes {b : List UInt8} (hb : b.length = 4) (hpos : 1 ≤ int32OfBytes b) :
    toBytes 4 (int32OfBytes b).toNat = b ∧ int32OfBytes b < 2 ^ 31 := by
  have hlt : ofBytes b < 2 ^ 32 := by
    have h := ofBytes_lt b
    rwa [hb] at h
  have hval : int32OfBytes b = ofBytes b ∧ int32OfBytes b < 2 ^ 31 := by
    unfold int32OfBytes at hpos ⊢
    simp only [Nat.reducePow] at hpos ⊢
    have hmod := Int.bmod_def (ofBytes b) 4294967296
    split at hmod <;> omega
  refine ⟨?_, hval.2⟩
  rw [hval.1, Int.toNat_natCast, ← hb, toBytes_ofBytes]

section Binary

variable {maxMessageSize maxBodySize : ℤ} {messages : List (List UInt8)}

theorem mpubRecords_flatMap (h : ∀ body ∈ messages,
      0 < body.length ∧ body.length < 2 ^ 31 ∧ (body.length : ℤ) ≤ maxMessageSize) :
    MpubRecords maxMessageSize (messages.flatMap framed) messages := by
  induction messages with
  | nil => exact .nil
  | cons body messages ih =>
      obtain ⟨⟨hpos, hlt, hmax⟩, htail⟩ := List.forall_mem_cons.mp h
      have hsize := int32OfBytes_toBytes hlt
      rw [List.flatMap_cons, framed]
      exact .cons (length_toBytes 4 _) (by omega) (by omega) hsize.symm (ih htail)

theorem MpubRecords.eq_flatMap {bytes : List UInt8}
    (h : MpubRecords maxMessageSize bytes messages) :
    bytes = messages.flatMap framed ∧ ∀ body ∈ messages,
      0 < body.length ∧ body.length < 2 ^ 31 ∧ (body.length : ℤ) ≤ maxMessageSize := by
  induction h with
  | nil => exact ⟨rfl, nofun⟩
  | @cons size body records messages hfour hpos hmax hlength _ ih =>
      obtain ⟨hsize, hlt⟩ := toBytes_int32OfBytes hfour hpos
      rw [← hlength, Int.toNat_natCast] at hsize
      refine ⟨?_, List.forall_mem_cons.mpr ⟨by omega, ih.2⟩⟩
      rw [ih.1, List.flatMap_cons, framed, hsize]

/-- The grammar derives what `readMPUB` was shown to take. -/
theorem mpubGrammar_iff {bytes : List UInt8} :
    MpubGrammar maxMessageSize maxBodySize bytes messages ↔
      bytes = mpubBytes messages ∧ Acceptable maxMessageSize maxBodySize messages := by
  constructor
  · rintro ⟨count, records, hbytes, hfour, hpos, hmax, hlength, hrecords⟩
    obtain ⟨hcount, hlt⟩ := toBytes_int32OfBytes hfour hpos
    obtain ⟨hflat, hsizes⟩ := hrecords.eq_flatMap
    rw [← hlength, Int.toNat_natCast] at hcount
    refine ⟨by rw [hbytes, hflat, mpubBytes, hcount], by omega, by omega, ?_, hsizes⟩
    rw [Int.tdiv_eq_ediv_of_nonneg (by omega)]
    omega
  · rintro ⟨hbytes, h⟩
    have hcount := int32OfBytes_toBytes h.lt
    have hpos := h.pos
    have hle := h.le
    have hnonneg : 0 ≤ maxBodySize - 4 := by
      by_contra hneg
      have hneg' := Int.neg_tdiv (-(maxBodySize - 4)) 5
      have hdiv : 0 ≤ (-(maxBodySize - 4)).tdiv 5 := Int.tdiv_nonneg (by omega) (by decide)
      rw [neg_neg] at hneg'
      omega
    rw [Int.tdiv_eq_ediv_of_nonneg hnonneg] at hle
    exact ⟨_, _, hbytes, length_toBytes 4 _, by omega, by omega, hcount.symm,
      mpubRecords_flatMap h.sizes⟩

theorem readMPUB_eq_ok_iff {r rest : List UInt8} :
    readMPUB true maxMessageSize maxBodySize r = .ok messages rest ↔
      r = mpubBytes messages ++ rest ∧ Acceptable maxMessageSize maxBodySize messages := by
  constructor
  · exact (readMPUB_spec true maxMessageSize maxBodySize r).ok
  · intro ⟨hr, h⟩
    obtain ⟨messages', rest', hread, rfl, rfl⟩ := (readMPUB_append h rest).exists_ok
    rw [hr, hread]

/-- A record has at least five bytes, so a batch that fits has no more messages than allowed. -/
theorem acceptable_of_length_le (hne : messages ≠ []) (hcount : messages.length < 2 ^ 31)
    (hsizes : ∀ body ∈ messages,
      0 < body.length ∧ body.length < 2 ^ 31 ∧ (body.length : ℤ) ≤ maxMessageSize)
    (hfit : ((mpubBytes messages).length : ℤ) ≤ maxBodySize) :
    Acceptable maxMessageSize maxBodySize messages := by
  have hfive : 5 * messages.length ≤ (messages.map fun body => 4 + body.length).sum := by
    rw [Nat.mul_comm, ← List.length_map (fun body => 4 + body.length)]
    refine List.card_nsmul_le_sum _ 5 fun n hn => ?_
    obtain ⟨body, hmem, rfl⟩ := List.mem_map.mp hn
    have := (hsizes body hmem).1
    omega
  have hpos := List.length_pos_iff.mpr hne
  rw [length_mpubBytes] at hfit
  refine ⟨hpos, hcount, ?_, hsizes⟩
  rw [Int.tdiv_eq_ediv_of_nonneg (by omega)]
  omega

end Binary

/-- **`readMPUB` accepts its grammar.** It takes what the grammar derives, whatever stands behind
it, and it takes every batch that fits in a body. -/
theorem readMPUB_grammar (maxMessageSize maxBodySize : ℤ) :
    (∀ r messages rest, readMPUB true maxMessageSize maxBodySize r = .ok messages rest ↔
      ∃ bytes, r = bytes ++ rest ∧ MpubGrammar maxMessageSize maxBodySize bytes messages) ∧
    ∀ messages rest, messages ≠ [] → messages.length < 2 ^ 31 →
      (∀ body ∈ messages, body ≠ [] ∧ body.length < 2 ^ 31 ∧ (body.length : ℤ) ≤ maxMessageSize) →
      ((mpubBytes messages).length : ℤ) ≤ maxBodySize →
      readMPUB true maxMessageSize maxBodySize (mpubBytes messages ++ rest) =
        .ok messages rest := by
  refine ⟨fun r messages rest => ?_, fun messages rest hne hcount hsizes hfit => ?_⟩
  · rw [readMPUB_eq_ok_iff]
    constructor
    · intro ⟨hr, h⟩
      exact ⟨_, hr, mpubGrammar_iff.mpr ⟨rfl, h⟩⟩
    · intro ⟨bytes, hr, h⟩
      obtain ⟨rfl, hacc⟩ := mpubGrammar_iff.mp h
      exact ⟨hr, hacc⟩
  · have hpos : ∀ body ∈ messages,
        0 < body.length ∧ body.length < 2 ^ 31 ∧ (body.length : ℤ) ≤ maxMessageSize :=
      fun body hmem => ⟨List.length_pos_iff.mpr (hsizes body hmem).1, (hsizes body hmem).2⟩
    exact readMPUB_eq_ok_iff.mpr ⟨rfl, acceptable_of_length_le hne hcount hpos hfit⟩

/-! ### The text mode -/

/-- The bytes of the lines, with the newlines between them. -/
def linesSize (lines : List (List UInt8)) : ℕ := ([10].intercalate lines).length

/-- `doMPUB` calls `PutMessages` with the messages, and what that returns decides the answer. -/
def PutsMessages (opts : Options) (getTopic : String → Bool) (req : HTTPRequest)
    (messages : List (List UInt8)) : Prop :=
  ∀ putErr, doMPUB opts getTopic putErr req =
    if putErr.isSome then httpErr 503 "EXITING" else .ok messages

theorem httpReject_eq_ok {p : Prop} [Decidable p] {code : ℕ} {text : String} {α : Type}
    {f : PUnit → HTTP α} {a : α} :
    (httpReject p code text >>= f) = .ok a ↔ ¬ p ∧ f ⟨⟩ = .ok a := by
  unfold httpReject httpErr
  by_cases hp : p
  · rw [if_pos hp]
    exact ⟨nofun, fun h => absurd hp h.1⟩
  · rw [if_neg hp]
    exact ⟨fun h => ⟨hp, h⟩, fun h => h.2⟩

theorem http_bind_eq_ok {α β : Type} {m : HTTP α} {f : α → HTTP β} {b : β} :
    (m >>= f) = .ok b ↔ ∃ a, m = .ok a ∧ f a = .ok b := by
  cases m with
  | error e => exact ⟨nofun, fun ⟨_, h, _⟩ => nomatch h⟩
  | ok a => exact ⟨fun h => ⟨a, rfl, h⟩, fun ⟨_, h, hf⟩ => by cases h; exact hf⟩

/-- The last line has no newline behind it. -/
theorem linesSize_cons (line : List UInt8) (rest : List (List UInt8)) :
    linesSize (line :: rest) = line.length + (if rest.isEmpty then 0 else 1) + linesSize rest := by
  cases rest with
  | nil => simp [linesSize, List.intercalate]
  | cons next rest =>
      simp [linesSize, List.intercalate]
      omega

theorem linesSize_splitOn (body : List UInt8) : linesSize (body.splitOn 10) = body.length := by
  rw [linesSize, List.intercalate_splitOn]

/-- The lines that are messages. -/
def nonEmptyLines (lines : List (List UInt8)) : List (List UInt8) :=
  lines.filter fun line => !line.isEmpty

section Text

variable {opts : Options}

/-- **The loop.** The lines that are still to come end with the byte that is too many at the latest.
They have that byte if and only if one of the tests, behind a line, finds it. -/
theorem mpubLines_eq_ok (hmsg : 0 ≤ opts.maxMsgSize) (lines : List (List UInt8)) (total : ℕ)
    (hsize : (total + linesSize lines : ℤ) ≤ opts.maxBodySize + 1)
    (hnil : lines = [] → (total : ℤ) ≤ opts.maxBodySize) (messages : List (List UInt8)) :
    mpubLines opts false true total lines = .ok messages ↔
      (total + linesSize lines : ℤ) ≤ opts.maxBodySize ∧
        (∀ line ∈ lines, (line.length : ℤ) ≤ opts.maxMsgSize) ∧ messages = nonEmptyLines lines := by
  induction lines generalizing total messages with
  | nil =>
      have hzero : linesSize [] = 0 := rfl
      rw [hzero]
      constructor
      · intro h
        cases h
        exact ⟨by simpa using hnil rfl, nofun, rfl⟩
      · intro ⟨_, _, h⟩
        rw [h]
        rfl
  | cons line rest ih =>
      rw [mpubLines]
      simp only [httpReject_eq_ok]
      rw [linesSize_cons] at hsize ⊢
      generalize htotal' : total + line.length + (if rest.isEmpty then 0 else 1) = total' at *
      have hsum : (total + (line.length + (if rest.isEmpty then 0 else 1) + linesSize rest : ℕ) :
          ℤ) = total' + linesSize rest := by
        rw [← htotal']
        push_cast
        ring
      rw [hsum] at hsize ⊢
      by_cases hreached : (total' : ℤ) = opts.maxBodySize + 1
      · exact ⟨fun h => absurd hreached h.2.1, fun h => by omega⟩
      have hnil' : rest = [] → (total' : ℤ) ≤ opts.maxBodySize := by
        intro hrest
        have hzero : linesSize rest = 0 := by rw [hrest]; rfl
        omega
      rw [List.forall_mem_cons]
      by_cases hline : line.isEmpty = true
      · have hempty : (line.length : ℤ) ≤ opts.maxMsgSize := by
          rw [List.isEmpty_iff.mp hline]
          exact hmsg
        have hskip : nonEmptyLines (line :: rest) = nonEmptyLines rest := by
          simp [nonEmptyLines, hline]
        rw [if_pos hline, ih total' hsize hnil' messages, hskip]
        exact ⟨fun h => ⟨h.2.2.1, ⟨hempty, h.2.2.2.1⟩, h.2.2.2.2⟩,
          fun h => ⟨nofun, hreached, h.1, h.2.1.2, h.2.2⟩⟩
      · have hkeep : nonEmptyLines (line :: rest) = line :: nonEmptyLines rest := by
          simp [nonEmptyLines, hline]
        rw [if_neg hline, httpReject_eq_ok, http_bind_eq_ok, hkeep]
        simp only [http_bind_eq_ok, ih total' hsize hnil']
        constructor
        · rintro ⟨-, -, hmax, ⟨⟩, -, msgs, ⟨hfit, hrest, rfl⟩, hmessages⟩
          cases hmessages
          exact ⟨hfit, ⟨by omega, hrest⟩, rfl⟩
        · rintro ⟨hfit, ⟨hmax, hrest⟩, rfl⟩
          exact ⟨nofun, hreached, by omega, ⟨⟩, rfl, _, ⟨hfit, hrest, rfl⟩, rfl⟩

/-- What can be read of the body is all of it, or one byte more than it may have. -/
theorem mpubText_eq_ok (hbody : 0 ≤ opts.maxBodySize) (hmsg : 0 ≤ opts.maxMsgSize)
    {req : HTTPRequest} (hread : req.bodyErr = false) (messages : List (List UInt8)) :
    mpubText opts true req = .ok messages ↔
      (req.body.length : ℤ) ≤ opts.maxBodySize ∧
        (∀ line ∈ req.body.splitOn 10, (line.length : ℤ) ≤ opts.maxMsgSize) ∧
        messages = nonEmptyLines (req.body.splitOn 10) := by
  have hfails : req.fails (opts.maxBodySize + 1) = false := by rw [HTTPRequest.fails, hread]; rfl
  have hsize := linesSize_splitOn (req.limited (opts.maxBodySize + 1))
  have hlimited : (req.limited (opts.maxBodySize + 1)).length =
      min (opts.maxBodySize + 1).toNat req.body.length := List.length_take
  have hnil : (req.limited (opts.maxBodySize + 1)).splitOn 10 = [] →
      ((0 : ℕ) : ℤ) ≤ opts.maxBodySize := fun _ => by simpa using hbody
  change mpubLines opts (req.fails (opts.maxBodySize + 1)) true 0
    ((req.limited (opts.maxBodySize + 1)).splitOn 10) = .ok messages ↔ _
  rw [hfails, mpubLines_eq_ok hmsg _ 0 (by omega) hnil, hsize]
  by_cases hfit : (req.body.length : ℤ) ≤ opts.maxBodySize
  · have hall : req.limited (opts.maxBodySize + 1) = req.body :=
      List.take_of_length_le (by omega)
    rw [hall]
    simp
  · exact ⟨fun h => by omega, fun h => absurd h.1 hfit⟩

end Text

/-- **Text mode.** The messages are the lines that are not empty; none is lost, none is changed. -/
theorem doMPUB_text {opts : Options} {getTopic : String → Bool} {req : HTTPRequest}
    {reqParams : String → Option String} {topicName : String}
    (hquery : topicFromQuery req = .ok (reqParams, topicName))
    (hmode : binaryMode reqParams = false) (htopic : getTopic topicName = true)
    (hread : req.bodyErr = false)
    (hlength : req.contentLength = -1 ∨ req.contentLength = req.body.length)
    (hbody : 0 ≤ opts.maxBodySize) (hmsg : 0 ≤ opts.maxMsgSize) (messages : List (List UInt8)) :
    PutsMessages opts getTopic req messages ↔
      (req.body.length : ℤ) ≤ opts.maxBodySize ∧
        (∀ line ∈ req.body.splitOn 10, (line.length : ℤ) ≤ opts.maxMsgSize) ∧
        messages = nonEmptyLines (req.body.splitOn 10) := by
  rw [← mpubText_eq_ok hbody hmsg hread]
  unfold PutsMessages doMPUB
  simp only [hquery, hmode, htopic, bind, Except.bind]
  by_cases hbig : opts.maxBodySize < req.contentLength
  · have hlong : ¬ (req.body.length : ℤ) ≤ opts.maxBodySize := by omega
    rw [httpReject, if_pos hbig]
    refine ⟨fun h => ?_, fun h => absurd ?_ hlong⟩
    · cases h none
    · exact ((mpubText_eq_ok hbody hmsg hread messages).mp h).1
  · rw [httpReject, if_neg hbig]
    cases htext : mpubText opts true req with
    | error e =>
        constructor
        · intro h
          cases h none
        · intro h
          cases h
    | ok msgs =>
        constructor
        · exact fun h => h none
        · intro h putErr
          cases h
          cases putErr <;> rfl

/-- A chunked body of two lines, with an empty one between them and no newline at the end. -/
def chunkedLines : HTTPRequest :=
  ⟨-1, some fun k => if k = "topic" then some "t" else none, [97, 10, 10, 98, 99], false⟩

theorem doMPUB_text_chunkedLines :
    PutsMessages { newOptions with maxMsgSize := 2, maxBodySize := 5 } (fun _ => true) chunkedLines
      [[97], [98, 99]] := by
  have hquery : topicFromQuery chunkedLines =
      .ok ((fun k => if k = "topic" then some "t" else none), "t") := by
    have hvalid : isValidTopicName "t" = true := by decide
    simp [topicFromQuery, chunkedLines, hvalid]
  exact (doMPUB_text hquery rfl rfl rfl (.inl rfl) (by decide) (by decide) _).mpr
    ⟨by decide, by decide, by decide⟩

end Xmq.V2
