import Xmq.Message

/-!
# The frames of a connection

The server prefixes everything it sends with a length and a type. A client that reads a size, a type
and as many bytes as the size leaves gets back the frames that were sent, whatever their payloads
look like, and in a message frame the message that `SendMessage` was given.
-/

namespace Xmq

open BigEndian

/-! ### Stored messages -/

theorem toBytes_ofBytes_take {b : List UInt8} {w : ℕ} (h : w ≤ b.length) :
    toBytes w (ofBytes (b.take w)) = b.take w := by
  have hlen : (b.take w).length = w := by rw [List.length_take, Nat.min_eq_left h]
  calc toBytes w (ofBytes (b.take w)) = toBytes (b.take w).length (ofBytes (b.take w)) := by rw [hlen]
    _ = b.take w := toBytes_ofBytes _

theorem ofBytes_take_lt (b : List UInt8) (w : ℕ) : ofBytes (b.take w) < 256 ^ w :=
  Nat.lt_of_lt_of_le (ofBytes_lt _)
    (Nat.pow_le_pow_right (by decide) (List.length_take_le w b))

/-- The other round trip: a stored message that decodes is what `writeTo` makes of the result. -/
theorem writeTo_decodeMessage {b : List UInt8} {m : Message} (h : decodeMessage b = .ok m) :
    m.writeTo = b := by
  rw [decodeMessage] at h
  split at h
  · cases h
  · rename_i hlen
    cases h
    rw [minValidMsgLength, msgIDLength] at hlen
    have h8 : UInt64.toNat (UInt64.ofNat (ofBytes (b.take 8))) = ofBytes (b.take 8) :=
      UInt64.toNat_ofNat_of_lt' (ofBytes_take_lt b 8)
    have h2 : UInt16.toNat (UInt16.ofNat (ofBytes ((b.drop 8).take 2))) =
        ofBytes ((b.drop 8).take 2) := UInt16.toNat_ofNat_of_lt' (ofBytes_take_lt (b.drop 8) 2)
    have hid : ((b.drop 10).take msgIDLength).length = msgIDLength := by
      rw [List.length_take, List.length_drop, msgIDLength]
      omega
    have hdrop : (b.drop 8).drop 2 = b.drop 10 := List.drop_drop ..
    have hbody : b.drop (10 + msgIDLength) = (b.drop 10).drop msgIDLength := List.drop_drop.symm
    simp only [Message.writeTo, UInt64.toUInt64_toInt64, h8, h2, toList_copyID hid]
    rw [toBytes_ofBytes_take (by omega), toBytes_ofBytes_take (by rw [List.length_drop]; omega), hbody,
      List.append_assoc, List.take_append_drop, List.append_assoc, ← hdrop, List.take_append_drop,
      List.take_append_drop]

/-! ### Frames -/

def frameTypeResponse : Int32 := 0

def frameTypeError : Int32 := 1

def frameTypeMessage : Int32 := 2

/-- What `SendFramedResponse` writes: size, type, data. -/
def sendFramedResponse (frameType : Int32) (data : List UInt8) : List UInt8 :=
  toBytes 4 (UInt32.ofNat data.length + 4).toNat ++ toBytes 4 frameType.toUInt32.toNat ++ data

/-- What `SendMessage` writes. -/
def sendMessage (m : Message) : List UInt8 := sendFramedResponse frameTypeMessage m.writeTo

/-- The client's side: one frame from the front of the stream. -/
def readFrame (s : List UInt8) : Option ((Int32 × List UInt8) × List UInt8) :=
  if s.length < 8 then none
  else
    let size := ofBytes (s.take 4)
    let frameType := (UInt32.ofNat (ofBytes ((s.drop 4).take 4))).toInt32
    let rest := s.drop 8
    if size < 4 ∨ rest.length < size - 4 then none
    else some ((frameType, rest.take (size - 4)), rest.drop (size - 4))

theorem readFrame_length {s rest : List UInt8} {f : Int32 × List UInt8}
    (h : readFrame s = some (f, rest)) : rest.length < s.length := by
  simp only [readFrame, Option.ite_none_left_eq_some, Option.some.injEq, Prod.mk.injEq] at h
  obtain ⟨hlen, _, _, rfl⟩ := h
  rw [List.length_drop, List.length_drop]
  omega

/-- Frames to the end of the stream. -/
def readFrames (s : List UInt8) : Option (List (Int32 × List UInt8)) :=
  if s = [] then some []
  else
    match _h : readFrame s with
    | none => none
    | some (f, rest) => (readFrames rest).map (f :: ·)
termination_by s.length
decreasing_by exact readFrame_length _h

/-- A frame is read off, and nothing of what follows it. -/
theorem readFrame_sendFramedResponse (frameType : Int32) {data : List UInt8}
    (h : data.length < 2 ^ 32 - 4) (rest : List UInt8) :
    readFrame (sendFramedResponse frameType data ++ rest) = some ((frameType, data), rest) := by
  have hsize : (UInt32.ofNat data.length + 4).toNat = data.length + 4 := by
    rw [UInt32.toNat_add, UInt32.toNat_ofNat_of_lt' (show data.length < 2 ^ 32 by omega)]
    exact Nat.mod_eq_of_lt (show data.length + 4 < 2 ^ 32 by omega)
  obtain ⟨a, ha⟩ : ∃ a, a = toBytes 4 (data.length + 4) := ⟨_, rfl⟩
  obtain ⟨t, ht⟩ : ∃ t, t = toBytes 4 frameType.toUInt32.toNat := ⟨_, rfl⟩
  have hla : a.length = 4 := by rw [ha, length_toBytes]
  have hlt : t.length = 4 := by rw [ht, length_toBytes]
  have hoa : ofBytes a = data.length + 4 := by
    rw [ha, ofBytes_toBytes (by omega)]
  have hot : ofBytes t = frameType.toUInt32.toNat := by
    rw [ht, ofBytes_toBytes (UInt32.toNat_lt _)]
  have hs : sendFramedResponse frameType data ++ rest = a ++ (t ++ (data ++ rest)) := by
    rw [sendFramedResponse, hsize, ← ha, ← ht, List.append_assoc, List.append_assoc]
  have hdrop4 : (a ++ (t ++ (data ++ rest))).drop 4 = t ++ (data ++ rest) := List.drop_left' hla
  have hdrop8 : (a ++ (t ++ (data ++ rest))).drop 8 = data ++ rest := by
    rw [show 8 = 4 + 4 from rfl, ← List.drop_drop, hdrop4, List.drop_left' hlt]
  have hlen : ¬ (a ++ (t ++ (data ++ rest))).length < 8 := by
    rw [List.length_append, List.length_append, hla, hlt]
    omega
  have hfits : ¬ (data.length + 4 < 4 ∨ (data ++ rest).length < data.length + 4 - 4) := by
    rw [List.length_append]
    omega
  rw [hs, readFrame, if_neg hlen, List.take_left' hla, hdrop4, List.take_left' hlt, hdrop8, hoa, hot,
    if_neg hfits, Nat.add_sub_cancel, List.take_left, List.drop_left, UInt32.ofNat_toNat,
    Int32.toInt32_toUInt32]

/-- What is on the wire after the frames are sent in order. -/
def frameStream (frames : List (Int32 × List UInt8)) : List UInt8 :=
  frames.flatMap fun f => sendFramedResponse f.1 f.2

/-- The lengths of the payloads fit the header. -/
def FramesFit (frames : List (Int32 × List UInt8)) : Prop := ∀ f ∈ frames, f.2.length < 2 ^ 32 - 4

/-- A stream of frames reads back as the frames. -/
theorem readFrames_frameStream (frames : List (Int32 × List UInt8)) (h : FramesFit frames) :
    readFrames (frameStream frames) = some frames := by
  induction frames with
  | nil => rw [frameStream, List.flatMap_nil, readFrames, if_pos rfl]
  | cons f frames ih =>
      have hf : f.2.length < 2 ^ 32 - 4 := h f List.mem_cons_self
      have hread := readFrame_sendFramedResponse f.1 hf (frameStream frames)
      have hstream : frameStream (f :: frames) = sendFramedResponse f.1 f.2 ++ frameStream frames :=
        List.flatMap_cons
      rw [hstream, readFrames]
      split
      · rename_i hnil
        rw [hnil] at hread
        cases hread
      · split
        · rename_i hnone
          rw [hread] at hnone
          cases hnone
        · rename_i f' rest hsome
          rw [hread] at hsome
          cases hsome
          rw [ih fun g hg => h g (List.mem_cons_of_mem f hg)]
          rfl

theorem writeTo_length (m : Message) : m.writeTo.length = minValidMsgLength + m.body.length := by
  simp only [Message.writeTo, List.length_append, length_toBytes, Vector.length_toList]
  rw [minValidMsgLength, msgIDLength]

/-- A message that is sent between other frames is read back where it was sent. -/
theorem readFrames_sendMessage (before after : List (Int32 × List UInt8)) (m : Message)
    (hbefore : FramesFit before) (hafter : FramesFit after)
    (hm : minValidMsgLength + m.body.length < 2 ^ 32 - 4) :
    ∃ frames, readFrames (frameStream before ++ sendMessage m ++ frameStream after) = some frames ∧
      frames[before.length]? = some (frameTypeMessage, m.writeTo) := by
  have hstream : frameStream before ++ sendMessage m ++ frameStream after =
      frameStream (before ++ (frameTypeMessage, m.writeTo) :: after) := by
    rw [frameStream, frameStream, frameStream, List.flatMap_append, List.flatMap_cons, sendMessage,
      List.append_assoc]
  refine ⟨before ++ (frameTypeMessage, m.writeTo) :: after, ?_, ?_⟩
  · rw [hstream]
    apply readFrames_frameStream
    intro f hf
    rcases List.mem_append.mp hf with hf | hf
    · exact hbefore f hf
    · rcases List.mem_cons.mp hf with rfl | hf
      · rwa [writeTo_length]
      · exact hafter f hf
  · rw [List.getElem?_append_right (Nat.le_refl _), Nat.sub_self, List.getElem?_cons_zero]

/-- **The codec.** Messages and their stored forms determine each other, what is too short is
rejected, frames are read back as they were sent, and a message is recovered wherever it stands. -/
theorem codec_round_trip :
    (∀ m : Message, ∃ d, decodeMessage m.writeTo = .ok d ∧ d.timestamp = m.timestamp ∧
      d.attempts = m.attempts ∧ d.id = m.id ∧ d.body = m.body) ∧
    (∀ b : List UInt8, minValidMsgLength ≤ b.length →
      ∃ m, decodeMessage b = .ok m ∧ m.writeTo = b) ∧
    (∀ b : List UInt8, b.length < minValidMsgLength → ∃ err, decodeMessage b = .error err) ∧
    (∀ frames, FramesFit frames → readFrames (frameStream frames) = some frames) ∧
    ∀ before after m, FramesFit before → FramesFit after →
      minValidMsgLength + m.body.length < 2 ^ 32 - 4 →
      ∃ frames, readFrames (frameStream before ++ sendMessage m ++ frameStream after) = some frames ∧
        frames[before.length]? = some (frameTypeMessage, m.writeTo) ∧
        decodeMessage m.writeTo = .ok m.stored := by
  refine ⟨fun m => ⟨m.stored, decodeMessage_writeTo m, rfl, rfl, rfl, rfl⟩, fun b hb => ?_,
    fun b hb => ?_, readFrames_frameStream, fun before after m hbefore hafter hm => ?_⟩
  · have hlen : ¬ b.length < minValidMsgLength := Nat.not_lt.mpr hb
    have hdec : ∃ m, decodeMessage b = .ok m := ⟨_, by rw [decodeMessage, if_neg hlen]⟩
    obtain ⟨m, hm⟩ := hdec
    exact ⟨m, hm, writeTo_decodeMessage hm⟩
  · exact ⟨_, by rw [decodeMessage, if_pos hb]⟩
  · obtain ⟨frames, hread, hget⟩ := readFrames_sendMessage before after m hbefore hafter hm
    exact ⟨frames, hread, hget, decodeMessage_writeTo m⟩

end Xmq
