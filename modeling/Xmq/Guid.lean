import Mathlib.Data.Int.Notation
import Mathlib.Data.Nat.Bitwise
import Mathlib.Tactic.Ring
import Xmq.Message
import Xmq.Sequencer

/-!
# Message IDs

`NewGUID` packs the time, the node and a sequence number into 64 bits. Behind the bits a factory is
a sequencer of 4096 stamps for each tick: it hands out an ID when the sequencer hands out a stamp, and
the ID is the stamp. `Hex` writes an ID with 16 digits, in the order of the IDs.

* `crc32(md5(nodeID)) % 1024` is a number below 1024; it differs between nodes or not.
* The clock is the list of its readings, in nanoseconds, in the order of the calls.
-/

namespace Xmq

/-! ### The factory -/

def nodeIDBits : Int64 := 10

def sequenceBits : Int64 := 12

def nodeIDShift : Int64 := sequenceBits

def timestampShift : Int64 := sequenceBits + nodeIDBits

def sequenceMask : Int64 := Int64.xor (-1) ((-1) <<< sequenceBits)

def twepoch : Int64 := 1288834974288

inductive GuidError where
  | timeBackwards
  | sequenceExpired
  | idBackwards
  deriving DecidableEq

def GuidError.error : GuidError → String
  | timeBackwards => "time has gone backwards"
  | sequenceExpired => "sequence expired"
  | idBackwards => "ID went backward"

structure GuidFactory where
  node : Fin 1024
  sequence : Int64
  lastTimestamp : Int64
  lastID : Int64

def newGUIDFactory (node : Fin 1024) : GuidFactory := ⟨node, 0, 0, 0⟩

/-- The time in pseudo-milliseconds. -/
def tick (now : Int64) : Int64 := now >>> 20

/-- The bits of an ID. -/
def guid (ts : Int64) (node : Fin 1024) (sequence : Int64) : Int64 :=
  ((ts - twepoch) <<< timestampShift) ||| (Int64.ofNat node <<< nodeIDShift) ||| sequence

/-- The second half of `NewGUID`, with the sequence number at hand. -/
def GuidFactory.newID (f : GuidFactory) (ts sequence : Int64) : Except GuidError Int64 × GuidFactory :=
  let id := guid ts f.node sequence
  let f := { f with sequence := sequence, lastTimestamp := ts }
  if id ≤ f.lastID then (.error .idBackwards, f) else (.ok id, { f with lastID := id })

def GuidFactory.newGUID (f : GuidFactory) (now : Int64) : Except GuidError Int64 × GuidFactory :=
  let ts := tick now
  if ts < f.lastTimestamp then (.error .timeBackwards, f)
  else if f.lastTimestamp = ts then
    let sequence := (f.sequence + 1) &&& sequenceMask
    if sequence = 0 then (.error .sequenceExpired, { f with sequence := sequence })
    else f.newID ts sequence
  else f.newID ts 0

/-! ### Bits -/

/-- The time is later than the epoch and fits its 41 bits. -/
def InEpoch (now : Int64) : Prop :=
  0 < (tick now).toInt - twepoch.toInt ∧ (tick now).toInt - twepoch.toInt < 2 ^ 41

instance (now : Int64) : Decidable (InEpoch now) := inferInstanceAs (Decidable (_ ∧ _))

/-- What an ID stands for: time, node and sequence number. -/
def packed (node : Fin 1024) (x : ℤ × ℕ) : ℤ :=
  (x.1 - twepoch.toInt) * 2 ^ 22 + node * 2 ^ 12 + x.2

/-- The bits of a number that is not negative. -/
theorem toNat_toBitVec {x : Int64} {n : ℕ} (h : x.toInt = n) : x.toBitVec.toNat = n := by
  have hx : x.toBitVec.toInt = n := h
  have hlt := x.toBitVec.isLt
  rw [BitVec.toInt_eq_toNat_cond] at hx
  split at hx <;> omega

theorem toInt_of_toNat {x : Int64} {n : ℕ} (h : x.toBitVec.toNat = n) (hn : n < 2 ^ 63) :
    x.toInt = n := by
  rw [← Int64.toInt_toBitVec, BitVec.toInt_eq_toNat_of_lt (by omega), h]

theorem toInt_twepoch : twepoch.toInt = 1288834974288 := by decide

theorem toInt_ofNat_fin (node : Fin 1024) : (Int64.ofNat node).toInt = node.val := by
  exact Int64.toInt_ofNat_of_lt (Nat.lt_trans node.isLt (by decide))

/-- **The fields do not overlap**, and leave the sign bit alone. -/
theorem toInt_guid {ts sequence : Int64} (node : Fin 1024) {k : ℕ}
    (hpos : 0 < ts.toInt - twepoch.toInt) (hlt : ts.toInt - twepoch.toInt < 2 ^ 41)
    (hseq : sequence.toInt = k) (hk : k < 4096) :
    (guid ts node sequence).toInt = packed node (ts.toInt, k) := by
  obtain ⟨n, hn⟩ := Int.eq_ofNat_of_zero_le hpos.le
  have hnode := node.isLt
  have hsub : (ts - twepoch).toInt = n := by
    rw [Int64.toInt_sub, hn]
    exact Int.bmod_eq_of_le (by omega) (by omega)
  have htime : ((ts - twepoch) <<< timestampShift).toBitVec.toNat = n <<< 22 := by
    have hshift : ((ts - twepoch) <<< timestampShift).toBitVec = (ts - twepoch).toBitVec <<< 22 := rfl
    rw [hshift, BitVec.toNat_shiftLeft, toNat_toBitVec hsub, Nat.mod_eq_of_lt]
    rw [Nat.shiftLeft_eq]
    omega
  have hid : (Int64.ofNat node <<< nodeIDShift).toBitVec.toNat = node.val <<< 12 := by
    have hshift : (Int64.ofNat node <<< nodeIDShift).toBitVec = (Int64.ofNat node).toBitVec <<< 12 :=
      rfl
    rw [hshift, BitVec.toNat_shiftLeft, toNat_toBitVec (toInt_ofNat_fin node), Nat.mod_eq_of_lt]
    rw [Nat.shiftLeft_eq]
    omega
  have hbits : (guid ts node sequence).toBitVec.toNat = n * 2 ^ 22 + node.val * 2 ^ 12 + k := by
    rw [guid, Int64.toBitVec_or, Int64.toBitVec_or, BitVec.toNat_or, BitVec.toNat_or, htime, hid,
      toNat_toBitVec hseq, Nat.or_assoc, ← Nat.shiftLeft_add_eq_or_of_lt (i := 12) hk,
      ← Nat.shiftLeft_add_eq_or_of_lt (by rw [Nat.shiftLeft_eq]; omega), Nat.shiftLeft_eq,
      Nat.shiftLeft_eq, Nat.add_assoc]
  rw [toInt_of_toNat hbits (by omega), packed, hn]
  push_cast
  ring

/-- The next sequence number, which wraps after 4095. -/
theorem toInt_next_sequence {sequence : Int64} {k : ℕ} (hseq : sequence.toInt = k) (hk : k < 4096) :
    ((sequence + 1) &&& sequenceMask).toInt = ((k + 1) % 4096 : ℕ) := by
  have hmask : sequenceMask.toBitVec.toNat = 2 ^ 12 - 1 := by decide
  have hsucc : (sequence + 1).toInt = (k + 1 : ℕ) := by
    have hone : (1 : Int64).toInt = 1 := rfl
    rw [Int64.toInt_add, hseq, hone]
    exact Int.bmod_eq_of_le (by omega) (by omega)
  apply toInt_of_toNat
  · rw [Int64.toBitVec_and, BitVec.toNat_and, toNat_toBitVec hsucc, hmask,
      Nat.and_two_pow_sub_one_eq_mod]
  · omega

/-! ### The sequencer behind the bits -/

/-- IDs are in the order of their stamps. -/
theorem packed_lt (node : Fin 1024) {x y : ℤ × ℕ} (hx : x.2 < 4096) (h : toLex x < toLex y) :
    packed node x < packed node y := by
  rw [packed, packed]
  rcases Prod.Lex.toLex_lt_toLex.mp h with h | ⟨h, hk⟩
  · omega
  · rw [h]
    omega

/-- The fields can be read off an ID. -/
theorem packed_fields (node : Fin 1024) {x : ℤ × ℕ} (hk : x.2 < 4096) :
    packed node x / 2 ^ 22 = x.1 - twepoch.toInt ∧ packed node x / 2 ^ 12 % 1024 = node.val ∧
      packed node x % 4096 = x.2 := by
  have hnode := node.isLt
  rw [packed]
  refine ⟨?_, ?_, ?_⟩
  · omega
  · omega
  · omega

theorem packed_pos (node : Fin 1024) {x : ℤ × ℕ} (h : 0 < x.1 - twepoch.toInt) :
    0 < packed node x := by
  rw [packed]
  omega

/-- The factory has handed out the last stamp of the sequencer, and none at first. Its sequence number
is that of the stamp, unless the numbers of the tick are used up. -/
def Refines (f : GuidFactory) : Sequencer.State ℤ → Prop
  | none => f.sequence = 0 ∧ f.lastTimestamp = 0 ∧ f.lastID = 0
  | some (u, k) => 0 < u - twepoch.toInt ∧ f.lastTimestamp.toInt = u ∧
    f.lastID.toInt = packed f.node (u, k) ∧ k < 4096 ∧
    ∃ n : ℕ, f.sequence.toInt = n ∧ n < 4096 ∧ (n = k ∨ k = 4095)

theorem newGUIDFactory_refines (node : Fin 1024) : Refines (newGUIDFactory node) none := ⟨rfl, rfl, rfl⟩

section Refinement

variable {f : GuidFactory} {s : Sequencer.State ℤ} {now : Int64}

/-- An ID later than the last one is handed out. -/
theorem newID_ok {ts sequence : Int64} {k : ℕ} (hpos : 0 < ts.toInt - twepoch.toInt)
    (hlt : ts.toInt - twepoch.toInt < 2 ^ 41) (hseq : sequence.toInt = k) (hk : k < 4096)
    (hlast : f.lastID.toInt < packed f.node (ts.toInt, k)) :
    ∃ id f', f.newID ts sequence = (.ok id, f') ∧ id.toInt = packed f.node (ts.toInt, k) ∧
      f'.node = f.node ∧ f'.sequence.toInt = k ∧ Refines f' (some (ts.toInt, k)) := by
  have hid := toInt_guid f.node hpos hlt hseq hk
  have hgt : ¬ guid ts f.node sequence ≤ f.lastID := by
    rw [Int64.le_iff_toInt_le, hid]
    omega
  refine ⟨guid ts f.node sequence, ⟨f.node, sequence, ts, guid ts f.node sequence⟩, ?_, hid, rfl,
    hseq, hpos, rfl, hid, hk, k, hseq, hk, Or.inl rfl⟩
  rw [GuidFactory.newID]
  exact if_neg hgt

/-- An ID that is not later is refused. -/
theorem newID_error {ts sequence : Int64} (hle : guid ts f.node sequence ≤ f.lastID) :
    f.newID ts sequence = (.error .idBackwards, { f with sequence := sequence, lastTimestamp := ts }) :=
  if_pos hle

theorem newGUID_earlier (h : tick now < f.lastTimestamp) :
    f.newGUID now = (.error .timeBackwards, f) :=
  if_pos h

theorem newGUID_expired (h : f.lastTimestamp = tick now) (hseq : (f.sequence + 1) &&& sequenceMask = 0) :
    f.newGUID now = (.error .sequenceExpired, { f with sequence := 0 }) := by
  have hback : ¬ tick now < f.lastTimestamp := by
    rw [h, Int64.lt_iff_toInt_lt]
    omega
  rw [GuidFactory.newGUID, if_neg hback, if_pos h]
  dsimp only
  rw [if_pos hseq, hseq]

theorem newGUID_again (h : f.lastTimestamp = tick now)
    (hseq : ¬ (f.sequence + 1) &&& sequenceMask = 0) :
    f.newGUID now = f.newID (tick now) ((f.sequence + 1) &&& sequenceMask) := by
  have hback : ¬ tick now < f.lastTimestamp := by
    rw [h, Int64.lt_iff_toInt_lt]
    omega
  rw [GuidFactory.newGUID, if_neg hback, if_pos h]
  exact if_neg hseq

theorem newGUID_later (h : f.lastTimestamp.toInt < (tick now).toInt) :
    f.newGUID now = f.newID (tick now) 0 := by
  have hback : ¬ tick now < f.lastTimestamp := by
    rw [Int64.lt_iff_toInt_lt]
    omega
  have hne : ¬ f.lastTimestamp = tick now := fun he => by
    rw [he] at h
    exact lt_irrefl _ h
  rw [GuidFactory.newGUID, if_neg hback, if_neg hne]

/-- What the factory answers where the sequencer answers `r`. -/
def Answers (f : GuidFactory) (s : Sequencer.State ℤ) (now : Int64) : Option (ℤ × ℕ) → Prop
  | some x => ∃ id f', f.newGUID now = (.ok id, f') ∧ id.toInt = packed f.node x ∧
    f'.node = f.node ∧ f'.sequence.toInt = x.2 ∧ Refines f' (some x)
  | none => ∃ err f', f.newGUID now = (.error err, f') ∧ f'.node = f.node ∧
    f'.lastTimestamp = f.lastTimestamp ∧ Refines f' s

/-- A later tick. -/
theorem answers_later (hf : Refines f s) (hnow : InEpoch now)
    (hlater : f.lastTimestamp.toInt < (tick now).toInt) :
    Answers f s now (some ((tick now).toInt, 0)) := by
  obtain ⟨hpos, hlt⟩ := hnow
  rw [Answers, newGUID_later hlater]
  refine newID_ok hpos hlt rfl (by decide) ?_
  cases s with
  | none =>
      obtain ⟨_, _, hid⟩ := hf
      rw [hid]
      exact packed_pos f.node hpos
  | some x =>
      obtain ⟨_, hts, hid, hk, _⟩ := hf
      rw [hid]
      exact packed_lt f.node hk (Prod.Lex.toLex_lt_toLex.mpr (Or.inl (hts ▸ hlater)))

/-- The tick of the last stamp again. -/
theorem answers_again {k : ℕ} (hf : Refines f (some ((tick now).toInt, k))) (hnow : InEpoch now) :
    Answers f (some ((tick now).toInt, k)) now
      (Sequencer.issue 4096 (some ((tick now).toInt, k)) (tick now).toInt) := by
  obtain ⟨hpos, hlt⟩ := hnow
  obtain ⟨hu, hts, hid, hk, n, hn, hn4096, hnk⟩ := hf
  have heq : f.lastTimestamp = tick now := Int64.toInt_inj.mp hts
  have hseq := toInt_next_sequence hn hn4096
  rcases Nat.lt_or_ge (n + 1) 4096 with hroom | hfull
  · rw [Nat.mod_eq_of_lt hroom] at hseq
    have hne : ¬ (f.sequence + 1) &&& sequenceMask = 0 := fun h0 => by
      rw [h0] at hseq
      have hseq : (0 : ℤ) = (n + 1 : ℕ) := hseq
      omega
    have hcall := newGUID_again heq hne
    rcases hnk with rfl | rfl
    · rw [Sequencer.issue_of_room hroom, Answers, hcall]
      refine newID_ok hpos hlt hseq hroom ?_
      rw [hid]
      exact packed_lt f.node hk (Prod.Lex.toLex_lt_toLex.mpr (Or.inr ⟨rfl, Nat.lt_succ_self n⟩))
    · have hle : guid (tick now) f.node ((f.sequence + 1) &&& sequenceMask) ≤ f.lastID := by
        rw [Int64.le_iff_toInt_le, toInt_guid f.node hpos hlt hseq hroom, hid, packed, packed]
        push_cast
        omega
      rw [Sequencer.issue_of_full (by decide), Answers, hcall, newID_error hle]
      exact ⟨_, _, rfl, rfl, heq.symm, hu, rfl, hid, hk, n + 1, hseq, hroom, Or.inr rfl⟩
  · -- The sequence wraps: this is the one call of the tick that finds it expired.
    obtain rfl : n = 4095 := by omega
    obtain rfl : k = 4095 := by omega
    have hzero : (f.sequence + 1) &&& sequenceMask = 0 := Int64.toInt_inj.mp hseq
    rw [Sequencer.issue_of_full (by decide), Answers, newGUID_expired heq hzero]
    exact ⟨_, _, rfl, rfl, rfl, hu, hts, hid, hk, 0, rfl, by decide, Or.inr rfl⟩

/-- **A call of the factory is a request to the sequencer.** -/
theorem newGUID_refines (hf : Refines f s) (hnow : InEpoch now) :
    Answers f s now (Sequencer.issue 4096 s (tick now).toInt) := by
  cases s with
  | none =>
      have hzero : f.lastTimestamp.toInt = 0 := by
        rw [hf.2.1]
        rfl
      refine answers_later hf hnow ?_
      have hpos := hnow.1
      rw [toInt_twepoch] at hpos
      omega
  | some x =>
      obtain ⟨u, k⟩ := x
      have hts : f.lastTimestamp.toInt = u := hf.2.1
      rcases lt_trichotomy (tick now).toInt u with hback | rfl | hlater
      · rw [Sequencer.issue_of_earlier hback, Answers,
          newGUID_earlier (Int64.lt_iff_toInt_lt.mpr (hts ▸ hback))]
        exact ⟨_, _, rfl, rfl, rfl, hf⟩
      · exact answers_again hf hnow
      · rw [Sequencer.issue_of_later fun x hx => by cases hx; exact hlater]
        exact answers_later hf hnow (hts ▸ hlater)

end Refinement

/-! ### Hexadecimal -/

def hextable : List UInt8 :=
  ['0', '1', '2', '3', '4', '5', '6', '7', '8', '9', 'a', 'b', 'c', 'd', 'e', 'f'].map
    fun c => UInt8.ofNat c.toNat

def hexDigit (v : UInt8) : UInt8 := hextable.getD v.toNat 0

/-- `hex.Encode`. -/
def hexEncode (b : List UInt8) : List UInt8 :=
  b.flatMap fun v : UInt8 => [hexDigit (v >>> 4), hexDigit (v &&& 15)]

/-- The last byte of a number. -/
def toByte (g : Int64) : UInt8 := g.toUInt64.toUInt8

/-- `Hex`. -/
def hex (g : Int64) : MessageID :=
  copyID (hexEncode [toByte (g >>> 56), toByte (g >>> 48), toByte (g >>> 40), toByte (g >>> 32),
    toByte (g >>> 24), toByte (g >>> 16), toByte (g >>> 8), toByte g])

theorem hexDigit_lt {i j : ℕ} (hj : j < 16) (h : i < j) :
    hexDigit (UInt8.ofNat i) < hexDigit (UInt8.ofNat j) := by
  have hall : ∀ j < 16, ∀ i < j, hexDigit (UInt8.ofNat i) < hexDigit (UInt8.ofNat j) := by decide
  exact hall j hj i h

theorem hexDigit_mem {i : ℕ} (hi : i < 16) : hexDigit (UInt8.ofNat i) ∈ hextable := by
  have hall : ∀ i < 16, hexDigit (UInt8.ofNat i) ∈ hextable := by decide
  exact hall i hi

theorem high_eq (v : UInt8) : v >>> 4 = UInt8.ofNat (v.toNat / 16) := by
  have hlt := v.toNat_lt
  apply UInt8.toNat_inj.mp
  rw [UInt8.toNat_shiftRight, UInt8.toNat_ofNat']
  simp only [UInt8.reduceToNat, Nat.reduceMod, Nat.shiftRight_eq_div_pow, Nat.reducePow]
  omega

theorem low_eq (v : UInt8) : v &&& 15 = UInt8.ofNat (v.toNat % 16) := by
  have h15 : (15 : UInt8).toNat = 2 ^ 4 - 1 := rfl
  apply UInt8.toNat_inj.mp
  rw [UInt8.toNat_and, UInt8.toNat_ofNat', h15, Nat.and_two_pow_sub_one_eq_mod]
  omega

theorem hexEncode_cons (v : UInt8) (b : List UInt8) :
    hexEncode (v :: b) = hexDigit (UInt8.ofNat (v.toNat / 16)) ::
      hexDigit (UInt8.ofNat (v.toNat % 16)) :: hexEncode b := by
  rw [hexEncode, List.flatMap_cons, high_eq, low_eq]
  rfl

theorem hexEncode_length (b : List UInt8) : (hexEncode b).length = 2 * b.length := by
  induction b with
  | nil => rfl
  | cons v b ih =>
      rw [hexEncode_cons, List.length_cons, List.length_cons, List.length_cons, ih]
      omega

theorem mem_hexEncode {b : List UInt8} {c : UInt8} (h : c ∈ hexEncode b) : c ∈ hextable := by
  induction b with
  | nil => cases h
  | cons v b ih =>
      have hlt := v.toNat_lt
      rw [hexEncode_cons] at h
      rcases List.mem_cons.mp h with rfl | h
      · exact hexDigit_mem (by omega)
      · rcases List.mem_cons.mp h with rfl | h
        · exact hexDigit_mem (by omega)
        · exact ih h

/-- The order of the digits is the order of the bytes. -/
theorem hexEncode_lt {b b' : List UInt8} (hlen : b.length = b'.length) (h : b < b') :
    hexEncode b < hexEncode b' := by
  induction b generalizing b' with
  | nil =>
      cases b' with
      | nil => exact absurd h (List.not_lt_nil [])
      | cons v b' => cases hlen
  | cons v b ih =>
      cases b' with
      | nil => cases hlen
      | cons v' b' =>
          rw [hexEncode_cons, hexEncode_cons, List.cons_lt_cons_iff, List.cons_lt_cons_iff]
          have hlt := v.toNat_lt
          have hlt' := v'.toNat_lt
          rcases List.cons_lt_cons_iff.mp h with hv | ⟨rfl, hb⟩
          · rw [UInt8.lt_iff_toNat_lt] at hv
            rcases (Nat.div_le_div_right (c := 16) hv.le).lt_or_eq with hhigh | hhigh
            · exact Or.inl (hexDigit_lt (by omega) hhigh)
            · exact Or.inr ⟨by rw [hhigh], Or.inl (hexDigit_lt (by omega) (by omega))⟩
          · exact Or.inr ⟨rfl, Or.inr ⟨rfl, ih (Nat.succ.inj hlen) hb⟩⟩

/-- The bytes that `Hex` writes are the big-endian bytes of the ID. -/
theorem toByte_shiftRight {g x : Int64} {n k : ℕ} (hg : g.toInt = n)
    (hx : x.toBitVec = g.toBitVec.sshiftRight k) : toByte x = UInt8.ofNat (n / 2 ^ k) := by
  have hbits := toNat_toBitVec hg
  have hmsb : g.toBitVec.msb = false := by
    rw [BitVec.msb_eq_false_iff_two_mul_lt, hbits]
    have hle := Int64.toInt_lt g
    omega
  have hnat : x.toUInt64.toNat = n / 2 ^ k := by
    show x.toBitVec.toNat = n / 2 ^ k
    rw [hx, BitVec.sshiftRight_eq_of_msb_false hmsb, BitVec.toNat_ushiftRight, hbits,
      Nat.shiftRight_eq_div_pow]
  apply UInt8.toNat_inj.mp
  rw [toByte, UInt64.toNat_toUInt8, hnat, UInt8.toNat_ofNat']

theorem hex_eq {g : Int64} {n : ℕ} (hg : g.toInt = n) :
    (hex g).toList = hexEncode (BigEndian.toBytes 8 n) := by
  have hbytes : [toByte (g >>> 56), toByte (g >>> 48), toByte (g >>> 40), toByte (g >>> 32),
      toByte (g >>> 24), toByte (g >>> 16), toByte (g >>> 8), toByte g] = BigEndian.toBytes 8 n := by
    rw [toByte_shiftRight (k := 56) hg rfl, toByte_shiftRight (k := 48) hg rfl,
      toByte_shiftRight (k := 40) hg rfl, toByte_shiftRight (k := 32) hg rfl,
      toByte_shiftRight (k := 24) hg rfl, toByte_shiftRight (k := 16) hg rfl,
      toByte_shiftRight (k := 8) hg rfl, toByte_shiftRight (k := 0) (x := g) hg (by simp)]
    rfl
  rw [hex, hbytes]
  apply toList_copyID
  rw [hexEncode_length, BigEndian.length_toBytes]
  rfl

theorem hex_lt {g h : Int64} (hg : 0 ≤ g.toInt) (hlt : g < h) : (hex g).toList < (hex h).toList := by
  rw [Int64.lt_iff_toInt_lt] at hlt
  obtain ⟨n, hn⟩ := Int.eq_ofNat_of_zero_le hg
  obtain ⟨m, hm⟩ := Int.eq_ofNat_of_zero_le (hg.trans hlt.le)
  have hbound := Int64.toInt_lt h
  rw [hex_eq hn, hex_eq hm]
  apply hexEncode_lt
  · rw [BigEndian.length_toBytes, BigEndian.length_toBytes]
  · exact BigEndian.toBytes_lt (by omega) (by omega)

/-- **The order of the strings is the order of the IDs.** -/
theorem hex_lt_iff {g h : Int64} (hg : 0 ≤ g.toInt) (hh : 0 ≤ h.toInt) :
    (hex g).toList < (hex h).toList ↔ g < h := by
  constructor
  · intro hlex
    rcases lt_trichotomy g.toInt h.toInt with hlt | heq | hgt
    · exact Int64.lt_iff_toInt_lt.mpr hlt
    · rw [Int64.toInt_inj.mp heq] at hlex
      exact absurd hlex (List.lt_irrefl _)
    · exact absurd hlex (List.lt_asymm (hex_lt hh (Int64.lt_iff_toInt_lt.mpr hgt)))
  · exact hex_lt hg

/-- **Different IDs have different strings.** -/
theorem hex_injective {g h : Int64} (hg : 0 ≤ g.toInt) (hh : 0 ≤ h.toInt) (heq : hex g = hex h) :
    g = h := by
  rcases lt_trichotomy g.toInt h.toInt with hlt | hsame | hgt
  · have hlex := hex_lt hg (Int64.lt_iff_toInt_lt.mpr hlt)
    rw [heq] at hlex
    exact absurd hlex (List.lt_irrefl _)
  · exact Int64.toInt_inj.mp hsame
  · have hlex := hex_lt hh (Int64.lt_iff_toInt_lt.mpr hgt)
    rw [heq] at hlex
    exact absurd hlex (List.lt_irrefl _)

theorem mem_hex (g : Int64) {c : UInt8} (h : c ∈ (hex g).toList) : c ∈ hextable := by
  rw [hex, toList_copyID (by rw [hexEncode_length]; rfl)] at h
  exact mem_hexEncode h

/-! ### Runs of a factory -/

/-- The factory after calls of `NewGUID` at the readings. -/
def afterCalls (f : GuidFactory) (clock : List Int64) : GuidFactory :=
  clock.foldl (fun f now => (f.newGUID now).2) f

/-- The IDs that the calls get, each with its tick. -/
def issued : GuidFactory → List Int64 → List (Int64 × Int64)
  | _, [] => []
  | f, now :: clock =>
    match f.newGUID now with
    | (.ok id, f') => (tick now, id) :: issued f' clock
    | (.error _, f') => issued f' clock

/-- `GenerateID`: the first ID, and the factory then. There is none before the readings end. -/
def generateID : GuidFactory → List Int64 → Option (MessageID × GuidFactory)
  | _, [] => none
  | f, now :: clock =>
    match f.newGUID now with
    | (.ok id, f') => some (hex id, f')
    | (.error _, f') => generateID f' clock

/-- The ticks of the readings. -/
def ticks (clock : List Int64) : List ℤ := clock.map fun now => (tick now).toInt

theorem ticks_cons (now : Int64) (clock : List Int64) :
    ticks (now :: clock) = (tick now).toInt :: ticks clock := rfl

section Runs

variable {f : GuidFactory} {s : Sequencer.State ℤ} {clock : List Int64}

theorem newGUID_next {now : Int64} (hf : Refines f s) (hnow : InEpoch now) :
    (f.newGUID now).2.node = f.node ∧
      Refines (f.newGUID now).2 (Sequencer.next 4096 s (tick now).toInt) := by
  have hanswer := newGUID_refines hf hnow
  cases hi : Sequencer.issue 4096 s (tick now).toInt with
  | none =>
      rw [hi] at hanswer
      obtain ⟨_, _, hcall, hnode, _, hf'⟩ := hanswer
      rw [hcall, Sequencer.next_of_none hi]
      exact ⟨hnode, hf'⟩
  | some x =>
      rw [hi] at hanswer
      obtain ⟨_, _, hcall, _, hnode, _, hf'⟩ := hanswer
      rw [hcall, Sequencer.next_of_some hi]
      exact ⟨hnode, hf'⟩

/-- A run of the factory is a run of the sequencer. -/
theorem afterCalls_refines (hf : Refines f s) (h : ∀ now ∈ clock, InEpoch now) :
    (afterCalls f clock).node = f.node ∧
      Refines (afterCalls f clock) (Sequencer.after 4096 s (ticks clock)) := by
  induction clock generalizing f s with
  | nil => exact ⟨rfl, hf⟩
  | cons now clock ih =>
      obtain ⟨hnode, hf'⟩ := newGUID_next hf (h now (List.mem_cons_self ..))
      obtain ⟨hnode', hf''⟩ := ih hf' fun u hu => h u (List.mem_cons_of_mem _ hu)
      exact ⟨hnode'.trans hnode, hf''⟩

/-- The IDs of a run are the stamps of the sequencer. -/
theorem issued_eq (hf : Refines f s) (h : ∀ now ∈ clock, InEpoch now) :
    (issued f clock).map (fun p => (p.1.toInt, p.2.toInt)) =
      (Sequencer.stamps 4096 s (ticks clock)).map fun x => (x.1, packed f.node x) := by
  induction clock generalizing f s with
  | nil => rfl
  | cons now clock ih =>
      have hclock : ∀ u ∈ clock, InEpoch u := fun u hu => h u (List.mem_cons_of_mem _ hu)
      have hanswer := newGUID_refines hf (h now (List.mem_cons_self ..))
      cases hi : Sequencer.issue 4096 s (tick now).toInt with
      | none =>
          rw [hi] at hanswer
          obtain ⟨_, f', hcall, hnode, _, hf'⟩ := hanswer
          rw [issued, hcall, ticks_cons, Sequencer.stamps_cons_none hi, ← hnode]
          exact ih hf' hclock
      | some x =>
          rw [hi] at hanswer
          obtain ⟨id, f', hcall, hid, hnode, _, hf'⟩ := hanswer
          rw [issued, hcall, ticks_cons, Sequencer.stamps_cons_some hi]
          simp only [List.map_cons]
          rw [ih hf' hclock, hnode, hid, Sequencer.issue_fst hi]

/-- A property of the stamps of a run is a property of its IDs. -/
theorem mem_issued (hf : Refines f s) (h : ∀ now ∈ clock, InEpoch now) {p : Int64 × Int64}
    (hp : p ∈ issued f clock) :
    ∃ x ∈ Sequencer.stamps 4096 s (ticks clock), p.1.toInt = x.1 ∧ p.2.toInt = packed f.node x := by
  have hmem := List.mem_map_of_mem (f := fun p : Int64 × Int64 => (p.1.toInt, p.2.toInt)) hp
  rw [issued_eq hf h] at hmem
  obtain ⟨x, hx, heq⟩ := List.mem_map.mp hmem
  exact ⟨x, hx, (Prod.mk.inj heq).1.symm, (Prod.mk.inj heq).2.symm⟩

/-- **The IDs of a run ascend.** -/
theorem issued_pairwise (hf : Refines f s) (h : ∀ now ∈ clock, InEpoch now) :
    (issued f clock).Pairwise fun p q => p.2 < q.2 := by
  have hstamps : ((Sequencer.stamps 4096 s (ticks clock)).map
      fun x => (x.1, packed f.node x)).Pairwise fun p q => p.2 < q.2 := by
    rw [List.pairwise_map]
    refine (Sequencer.stamps_pairwise s (ticks clock)).imp_of_mem ?_
    intro x y hx _ hlt
    exact packed_lt f.node (Sequencer.snd_lt_of_mem_stamps (by decide) hx) hlt
  rw [← issued_eq hf h, List.pairwise_map] at hstamps
  exact hstamps.imp Int64.lt_iff_toInt_lt.mpr

/-- **A tick has 4096 IDs at most.** -/
theorem issued_count_le (hf : Refines f s) (h : ∀ now ∈ clock, InEpoch now) (ts : Int64) :
    ((issued f clock).filter (·.1 = ts)).length ≤ 4096 := by
  have hmap : ((issued f clock).filter (·.1 = ts)).length =
      (((issued f clock).map fun p => (p.1.toInt, p.2.toInt)).filter (·.1 = ts.toInt)).length := by
    simp [List.filter_map, Function.comp_def, Int64.toInt_inj]
  rw [hmap, issued_eq hf h]
  simp only [List.filter_map, Function.comp_def, List.length_map]
  exact Sequencer.stamps_count_le (by decide) s (ticks clock) ts.toInt

/-- The IDs of a run have the node of their factory. -/
theorem issued_node (hf : Refines f s) (h : ∀ now ∈ clock, InEpoch now) {p : Int64 × Int64}
    (hp : p ∈ issued f clock) : p.2.toInt / 2 ^ 12 % 1024 = f.node.val := by
  obtain ⟨x, hx, _, hid⟩ := mem_issued hf h hp
  rw [hid]
  exact (packed_fields f.node (Sequencer.snd_lt_of_mem_stamps (by decide) hx)).2.1

/-- An ID has the fields that it was built from. -/
theorem newGUID_fields (hf : Refines f s) {now id : Int64} (hnow : InEpoch now) {f' : GuidFactory}
    (hcall : f.newGUID now = (.ok id, f')) :
    0 < id.toInt ∧ id.toInt / 2 ^ 22 = (tick now).toInt - twepoch.toInt ∧
      id.toInt / 2 ^ 12 % 1024 = f.node.val ∧ id.toInt % 4096 = f'.sequence.toInt := by
  have hanswer := newGUID_refines hf hnow
  cases hi : Sequencer.issue 4096 s (tick now).toInt with
  | none =>
      rw [hi] at hanswer
      obtain ⟨_, _, herr, _⟩ := hanswer
      rw [herr] at hcall
      cases hcall
  | some x =>
      rw [hi] at hanswer
      obtain ⟨_, _, hok, hid, _, hseq, _⟩ := hanswer
      rw [hok] at hcall
      cases hcall
      have hfst := Sequencer.issue_fst hi
      obtain ⟨htime, hnode, hnum⟩ :=
        packed_fields f.node (Sequencer.issue_snd_lt (by decide) hi)
      rw [hid, hseq, ← hfst]
      exact ⟨packed_pos f.node (hfst ▸ hnow.1), htime, hnode, hnum⟩

/-- A call gets an ID where the sequencer has a stamp. -/
theorem newGUID_of_isSome (hf : Refines f s) {now : Int64} (hnow : InEpoch now)
    (h : (Sequencer.issue 4096 s (tick now).toInt).isSome) :
    ∃ id f', f.newGUID now = (.ok id, f') := by
  obtain ⟨x, hx⟩ := Option.isSome_iff_exists.mp h
  have hanswer := newGUID_refines hf hnow
  rw [hx] at hanswer
  obtain ⟨id, f', hcall, _⟩ := hanswer
  exact ⟨id, f', hcall⟩

/-- **A later tick gets an ID**, whatever happened before. -/
theorem newGUID_ok_of_later (hf : Refines f s) {now : Int64} (hnow : InEpoch now)
    (h : f.lastTimestamp < tick now) : ∃ id f', f.newGUID now = (.ok id, f') := by
  have hlater := answers_later hf hnow (Int64.lt_iff_toInt_lt.mp h)
  obtain ⟨id, f', hcall, _⟩ := hlater
  exact ⟨id, f', hcall⟩

/-- `GenerateID` ends when the clock passes the last tick. -/
theorem generateID_isSome (hf : Refines f s) (h : ∀ now ∈ clock, InEpoch now) {now : Int64}
    (hnow : InEpoch now) (hlater : f.lastTimestamp < tick now) :
    (generateID f (clock ++ [now])).isSome := by
  induction clock generalizing f s with
  | nil =>
      obtain ⟨id, f', hcall⟩ := newGUID_ok_of_later hf hnow hlater
      rw [List.nil_append, generateID, hcall]
      rfl
  | cons u clock ih =>
      have hanswer := newGUID_refines hf (h u (List.mem_cons_self ..))
      rw [List.cons_append, generateID]
      cases hi : Sequencer.issue 4096 s (tick u).toInt with
      | none =>
          rw [hi] at hanswer
          obtain ⟨_, f', hcall, _, hlast, hf'⟩ := hanswer
          rw [hcall]
          exact ih hf' (fun v hv => h v (List.mem_cons_of_mem _ hv)) (hlast ▸ hlater)
      | some x =>
          rw [hi] at hanswer
          obtain ⟨_, _, hcall, _⟩ := hanswer
          rw [hcall]
          rfl

end Runs

/-- What a new factory does at the readings of a clock, and next at any reading `now`. -/
structure IssuesWell (node : Fin 1024) (clock : List Int64) : Prop where
  ascending : (issued (newGUIDFactory node) clock).Pairwise fun p q => p.2 < q.2
  perTick : ∀ ts, ((issued (newGUIDFactory node) clock).filter (·.1 = ts)).length ≤ 4096
  fields : ∀ now id f', InEpoch now →
    (afterCalls (newGUIDFactory node) clock).newGUID now = (.ok id, f') →
    0 < id.toInt ∧ id.toInt / 2 ^ 22 = (tick now).toInt - twepoch.toInt ∧
      id.toInt / 2 ^ 12 % 1024 = node.val ∧ id.toInt % 4096 = f'.sequence.toInt
  first : ∀ now, InEpoch now → (∀ u ∈ clock, tick u ≤ tick now) →
    (clock.countP fun u => tick u = tick now) < 4096 →
    ∃ id f', (afterCalls (newGUIDFactory node) clock).newGUID now = (.ok id, f')
  later : ∀ now, InEpoch now → (afterCalls (newGUIDFactory node) clock).lastTimestamp < tick now →
    ∃ id f', (afterCalls (newGUIDFactory node) clock).newGUID now = (.ok id, f')
  generate : ∀ now waited, InEpoch now → (∀ u ∈ waited, InEpoch u) →
    (afterCalls (newGUIDFactory node) clock).lastTimestamp < tick now →
    (generateID (afterCalls (newGUIDFactory node) clock) (waited ++ [now])).isSome
  otherNode : ∀ node' clock', node ≠ node' → (∀ u ∈ clock', InEpoch u) →
    ∀ p ∈ issued (newGUIDFactory node) clock, ∀ q ∈ issued (newGUIDFactory node') clock', p.2 ≠ q.2
  digits : ∀ id, ∀ c ∈ (hex id).toList, c ∈ hextable
  different : ∀ id id' : Int64, 0 < id.toInt → 0 < id'.toInt → hex id = hex id' → id = id'
  order : ∀ id id' : Int64, 0 < id.toInt → 0 < id'.toInt →
    ((hex id).toList < (hex id').toList ↔ id < id')

/-- The first 4096 calls in a tick that no later one came before. -/
theorem first_ok (node : Fin 1024) {clock : List Int64} (h : ∀ now ∈ clock, InEpoch now) {now : Int64}
    (hnow : InEpoch now) (hle : ∀ u ∈ clock, tick u ≤ tick now)
    (hcount : (clock.countP fun u => tick u = tick now) < 4096) :
    ∃ id f', (afterCalls (newGUIDFactory node) clock).newGUID now = (.ok id, f') := by
  have hf := (afterCalls_refines (newGUIDFactory_refines node) h).2
  apply newGUID_of_isSome hf hnow
  apply Sequencer.issue_isSome
  · intro t ht
    obtain ⟨u, hu, rfl⟩ := List.mem_map.mp ht
    exact Int64.le_iff_toInt_le.mp (hle u hu)
  · rw [ticks, List.count, List.countP_map]
    refine lt_of_eq_of_lt (List.countP_congr fun u _ => ?_) hcount
    simp [Int64.toInt_inj]

/-- **The IDs of a factory**, whatever its clock does: they ascend, their fields can be read off, a
call is refused only when it must be, no other node has them, and their strings are in their order. -/
theorem newGUID_issues_well (node : Fin 1024) (clock : List Int64)
    (h : ∀ now ∈ clock, InEpoch now) : IssuesWell node clock := by
  have hnew := newGUIDFactory_refines node
  obtain ⟨hnode, hafter⟩ := afterCalls_refines hnew h
  refine
    { ascending := issued_pairwise hnew h
      perTick := issued_count_le hnew h
      fields := ?fields
      first := fun now hnow hle hcount => first_ok node h hnow hle hcount
      later := fun now hnow hlater => newGUID_ok_of_later hafter hnow hlater
      generate := fun now waited hnow hwaited hlater =>
        generateID_isSome hafter hwaited hnow hlater
      otherNode := ?otherNode
      digits := fun id c hc => mem_hex id hc
      different := fun id id' hid hid' heq => hex_injective hid.le hid'.le heq
      order := fun id id' hid hid' => hex_lt_iff hid.le hid'.le }
  case fields =>
    intro now id f' hnow hcall
    have hfields := newGUID_fields hafter hnow hcall
    rw [hnode] at hfields
    exact hfields
  case otherNode =>
    intro node' clock' hne hclock' p hp q hq heq
    have hp := issued_node hnew h hp
    have hq := issued_node (newGUIDFactory_refines node') hclock' hq
    rw [heq, hq] at hp
    exact hne (Fin.ext (Int.ofNat.inj hp.symm))

/-- Two readings of one tick. -/
theorem newGUID_issues_well_twice :
    IssuesWell 5 [1351441486094008320, 1351441486094008321] :=
  newGUID_issues_well 5 [1351441486094008320, 1351441486094008321] (by
    intro now hnow
    simp only [List.mem_cons, List.not_mem_nil, or_false] at hnow
    rcases hnow with rfl | rfl
    · exact ⟨by decide, by decide⟩
    · exact ⟨by decide, by decide⟩)

end Xmq
