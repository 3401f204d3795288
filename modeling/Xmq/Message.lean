import Mathlib.Data.Int.Notation
import Xmq.BigEndian

/-!
# Messages, their wire format, and the backend queue

A `Message` has the four fields that are stored and sent and the five that only matter while a
channel tracks it. `writeTo` is the stored form: timestamp, attempts, ID, body. `decodeMessage`
reads it back into a new message, whose tracking fields are zero; `decodeMessage_writeTo` is the
round trip.

A `BackendQueue` holds stored records in the order they were put. The disk queue is an outside
package: whether its `k`-th `Put` succeeds is a parameter. The dummy queue of an ephemeral topic or
channel accepts every record and keeps none.
-/

namespace Xmq

/-- An `error` result: `none` for `nil`, else its text. -/
abbrev GoError := Option String

/-! ### Messages -/

abbrev MessageID := Vector UInt8 16

instance : LawfulBEq MessageID := inferInstance

structure Message where
  id : MessageID
  body : List UInt8
  timestamp : Int64
  attempts : UInt16
  deliveryTS : ℤ
  clientID : String
  pri : ℤ
  index : ℤ
  deferred : ℤ
  deriving DecidableEq

def newMessage (id : MessageID) (body : List UInt8) (now : Int64) : Message where
  id := id
  body := body
  timestamp := now
  attempts := 0
  deliveryTS := 0
  clientID := ""
  pri := 0
  index := 0
  deferred := 0

def msgIDLength : ℕ := 16

/-- Timestamp, attempts and ID. -/
def minValidMsgLength : ℕ := msgIDLength + 8 + 2

namespace Message

/-- The stored form of a message. -/
def writeTo (m : Message) : List UInt8 :=
  BigEndian.toBytes 8 m.timestamp.toUInt64.toNat ++ BigEndian.toBytes 2 m.attempts.toNat ++
    m.id.toList ++ m.body

end Message

/-- The first 16 of the bytes, as the ID of a message. -/
def copyID (b : List UInt8) : MessageID := Vector.ofFn fun i => b.getD i 0

/-- Read a stored message; the fields that are not stored are zero. -/
def decodeMessage (b : List UInt8) : Except String Message :=
  if b.length < minValidMsgLength then
    .error s!"invalid message buffer size ({b.length})"
  else
    .ok
      { id := copyID ((b.drop 10).take msgIDLength)
        body := b.drop (10 + msgIDLength)
        timestamp := (UInt64.ofNat (BigEndian.ofBytes (b.take 8))).toInt64
        attempts := UInt16.ofNat (BigEndian.ofBytes ((b.drop 8).take 2))
        deliveryTS := 0
        clientID := ""
        pri := 0
        index := 0
        deferred := 0 }

theorem copyID_toList (id : MessageID) : copyID id.toList = id := by
  apply Vector.ext
  intro i _
  simp [copyID]

theorem toList_copyID {b : List UInt8} (h : b.length = msgIDLength) : (copyID b).toList = b := by
  apply List.ext_getElem
  · rw [Vector.length_toList, h, msgIDLength]
  · intro i _ hi
    simp [copyID, List.getElem?_eq_getElem hi]

/-- What `decodeMessage` returns for a stored message: the stored fields, and zeros. -/
def Message.stored (m : Message) : Message :=
  { m with deliveryTS := 0, clientID := "", pri := 0, index := 0, deferred := 0 }

/-- **Round trip.** A stored message reads back as itself. -/
theorem decodeMessage_writeTo (m : Message) : decodeMessage m.writeTo = .ok m.stored := by
  obtain ⟨ts, hts⟩ : ∃ ts, ts = BigEndian.toBytes 8 m.timestamp.toUInt64.toNat := ⟨_, rfl⟩
  obtain ⟨att, hatt⟩ : ∃ att, att = BigEndian.toBytes 2 m.attempts.toNat := ⟨_, rfl⟩
  have lts : ts.length = 8 := by rw [hts, BigEndian.length_toBytes]
  have latt : att.length = 2 := by rw [hatt, BigEndian.length_toBytes]
  have lid : m.id.toList.length = msgIDLength := Vector.length_toList
  have hb : m.writeTo = ts ++ (att ++ (m.id.toList ++ m.body)) := by
    rw [Message.writeTo, hts, hatt, List.append_assoc, List.append_assoc]
  have hdrop8 : m.writeTo.drop 8 = att ++ (m.id.toList ++ m.body) := by
    rw [hb, List.drop_left' lts]
  have hdrop10 : m.writeTo.drop 10 = m.id.toList ++ m.body := by
    rw [show 10 = 8 + 2 from rfl, ← List.drop_drop, hdrop8, List.drop_left' latt]
  have hdrop26 : m.writeTo.drop (10 + msgIDLength) = m.body := by
    rw [← List.drop_drop, hdrop10, List.drop_left' lid]
  have hlen : ¬ m.writeTo.length < minValidMsgLength := by
    rw [hb, minValidMsgLength]
    simp only [List.length_append, lts, latt, lid]
    omega
  have hts8 : BigEndian.ofBytes ts = m.timestamp.toUInt64.toNat := by
    rw [hts]
    exact BigEndian.ofBytes_toBytes (UInt64.toNat_lt _)
  have hatt2 : BigEndian.ofBytes att = m.attempts.toNat := by
    rw [hatt]
    exact BigEndian.ofBytes_toBytes (UInt16.toNat_lt _)
  rw [decodeMessage, if_neg hlen, hdrop8, hdrop10, hdrop26, hb, List.take_left' lts,
    List.take_left' lid, List.take_left' latt, hts8, hatt2, copyID_toList]
  simp only [UInt64.ofNat_toNat, UInt16.ofNat_toNat, Message.stored]
  rfl

/-! ### The backend queue -/

/-- A channel's or topic's secondary storage. `outcome k` is what the disk queue answers to its
`k`-th `Put`, and nobody reads `dropped`: it names what a dummy queue was given. -/
structure BackendQueue where
  dummy : Bool
  records : List (List UInt8)
  dropped : List (List UInt8)
  puts : ℕ
  outcome : ℕ → GoError
  closed : Bool
  deleted : Bool

namespace BackendQueue

/-- `diskqueue.New` on an empty directory. -/
def diskQueue (outcome : ℕ → GoError) : BackendQueue where
  dummy := false
  records := []
  dropped := []
  puts := 0
  outcome := outcome
  closed := false
  deleted := false

/-- `newDummyBackendQueue`. -/
def dummyBackendQueue : BackendQueue :=
  { diskQueue (fun _ => none) with dummy := true }

def put (q : BackendQueue) (data : List UInt8) : GoError × BackendQueue :=
  if q.dummy then
    (none, { q with dropped := q.dropped ++ [data], puts := q.puts + 1 })
  else
    match q.outcome q.puts with
    | none => (none, { q with records := q.records ++ [data], puts := q.puts + 1 })
    | some err => (some err, { q with puts := q.puts + 1 })

/-- Receive from `ReadChan`: the oldest record. -/
def read (q : BackendQueue) : Option (List UInt8 × BackendQueue) :=
  match q.records with
  | data :: rest => some (data, { q with records := rest })
  | [] => none

def empty (q : BackendQueue) : BackendQueue :=
  { q with records := [] }

def close (q : BackendQueue) : BackendQueue :=
  { q with closed := true }

def delete (q : BackendQueue) : BackendQueue :=
  { q with closed := true, deleted := true }

/-- The next `n` calls of `Put` succeed. -/
def PutsSucceed (q : BackendQueue) (n : ℕ) : Prop :=
  q.dummy = true ∨ ∀ k < n, q.outcome (q.puts + k) = none

instance (q : BackendQueue) (n : ℕ) : Decidable (q.PutsSucceed n) :=
  inferInstanceAs (Decidable (q.dummy = true ∨ ∀ k < n, q.outcome (q.puts + k) = none))

end BackendQueue

def writeMessageToBackend (msg : Message) (bq : BackendQueue) : GoError × BackendQueue :=
  bq.put msg.writeTo

end Xmq
