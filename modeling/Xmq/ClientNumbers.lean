import Xmq.MpubBodies

/-!
# The numbers that clients write

`RDY`, `REQ`, `DPUB` and the parameter `defer` of `/pub` take a number in decimal digits. On the way
to its limit the number becomes 64 bits, which are then read with a sign and, for a duration,
multiplied by a million.

* What is compared with the limit is the number, or that many nanoseconds, modulo `2 ^ 64`. Below
  `2 ^ 63` it is what was written, below `2 ^ 64` it is negative.
* A larger number is taken for another one if and only if its remainder does not exceed the limit.
  `REQ` rejects nothing, and a negative timeout is none at all.
-/

namespace Xmq.V2

/-! ### Digits -/

def DigitString (s : String) : Prop := s.toList ≠ [] ∧ ∀ c ∈ s.toList, c.isDigit = true

/-- The number that is written. -/
def valueOf (s : String) : ℕ := Nat.ofDigitChars 10 s.toList 0

/-- That many milliseconds, in nanoseconds. -/
def nanoseconds (s : String) : ℕ := valueOf s * 1000000

theorem digit_byte {c : Char} (h : c.isDigit = true) :
    48 ≤ UInt8.ofNat c.toNat ∧ UInt8.ofNat c.toNat ≤ 57 ∧
      (UInt8.ofNat c.toNat - 48).toUInt64 = UInt64.ofNat (c.toNat - 48) := by
  obtain ⟨hlow, hhigh⟩ : 48 ≤ c.toNat ∧ c.toNat ≤ 57 := by
    simpa [Char.isDigit, UInt32.le_iff_toNat_le] using h
  have hbyte : (UInt8.ofNat c.toNat).toNat = c.toNat := UInt8.toNat_ofNat_of_lt' (by
    rw [UInt8.size]
    omega)
  have hle : 48 ≤ UInt8.ofNat c.toNat := by
    rw [UInt8.le_iff_toNat_le, hbyte]
    exact hlow
  refine ⟨hle, ?_, ?_⟩
  · rw [UInt8.le_iff_toNat_le, hbyte]
    exact hhigh
  · apply UInt64.toNat_inj.mp
    rw [UInt8.toNat_toUInt64, UInt8.toNat_sub_of_le _ _ hle, hbyte, UInt64.toNat_ofNat_of_lt' (by
      rw [UInt64.size]
      omega)]
    rfl

/-- The digits are read from the left, modulo `2 ^ 64`. -/
theorem foldlM_digits (l : List Char) (hl : ∀ c ∈ l, c.isDigit = true) (n : ℕ) :
    (l.map fun c => UInt8.ofNat c.toNat).foldlM (fun (n : UInt64) d =>
      if 48 ≤ d ∧ d ≤ 57 then Except.ok (n * 10 + (d - 48).toUInt64)
      else Except.error "failed to convert to Base10") (UInt64.ofNat n) =
    .ok (UInt64.ofNat (Nat.ofDigitChars 10 l n)) := by
  induction l generalizing n with
  | nil => rfl
  | cons c l ih =>
      obtain ⟨hc, hl⟩ := List.forall_mem_cons.mp hl
      obtain ⟨hlow, hhigh, hdigit⟩ := digit_byte hc
      have hnext : UInt64.ofNat n * 10 + (UInt8.ofNat c.toNat - 48).toUInt64 =
          UInt64.ofNat (10 * n + (c.toNat - '0'.toNat)) := by
        rw [hdigit, UInt64.ofNat_add, UInt64.ofNat_mul, UInt64.mul_comm]
        rfl
      rw [List.map_cons, List.foldlM_cons, if_pos ⟨hlow, hhigh⟩, Nat.ofDigitChars_cons]
      change List.foldlM _ (UInt64.ofNat n * 10 + (UInt8.ofNat c.toNat - 48).toUInt64) _ = _
      rw [hnext]
      exact ih hl _

theorem byteToBase10_text {s : String} (h : DigitString s) :
    byteToBase10 (text s) = .ok (UInt64.ofNat (valueOf s)) :=
  foldlM_digits s.toList h.2 0

theorem decimal_digits {s : String} (h : DigitString s) : decimal s.toList = some (valueOf s) := by
  have hne : s.toList.isEmpty = false := by simpa using h.1
  have hall : s.toList.all Char.isDigit = true := List.all_eq_true.mpr h.2
  rw [decimal, hne, hall]
  rfl

/-- There is no sign, and no number from `2 ^ 63` on. -/
theorem parseInt_digits {s : String} (h : DigitString s) :
    parseInt s = if valueOf s < 2 ^ 63 then some (Int64.ofInt (valueOf s)) else none := by
  have hdecimal := decimal_digits h
  obtain ⟨hne, hdigits⟩ := h
  unfold parseInt
  cases hl : s.toList with
  | nil => exact absurd hl hne
  | cons c l =>
      have hc : c.isDigit = true := hdigits c (by rw [hl]; exact List.mem_cons_self)
      have hminus : c ≠ '-' := by
        rintro rfl
        exact absurd hc (by decide)
      have hplus : c ≠ '+' := by
        rintro rfl
        exact absurd hc (by decide)
      rw [hl] at hdecimal
      split
      · exact absurd (List.cons.inj ‹_›).1 hminus
      · exact absurd (List.cons.inj ‹_›).1 hplus
      · rw [hdecimal]
        rfl

/-! ### Sixty-four bits -/

theorem toInt64_toInt (n : ℕ) : (UInt64.ofNat n).toInt64.toInt = (n : ℤ).bmod (2 ^ 64) := by
  change (BitVec.ofNat 64 n).toInt = _
  rw [BitVec.toInt_eq_toNat_bmod, BitVec.toNat_ofNat, Int.natCast_emod]
  exact Int.emod_bmod _ _

theorem milliseconds_toInt (v : ℕ) :
    (milliseconds (UInt64.ofNat v)).toInt = ((v * 1000000 : ℕ) : ℤ).bmod (2 ^ 64) := by
  have hmillion : (1000000 : Int64).toInt = 1000000 := by decide
  rw [milliseconds, Int64.toInt_mul, toInt64_toInt, hmillion, Int.bmod_mul_bmod, Nat.cast_mul]
  rfl

/-- Too large, but not once it is reduced to 64 bits. -/
def WrapsWithin (n : ℕ) (max : Int64) : Prop := 2 ^ 64 ≤ n ∧ ((n % 2 ^ 64 : ℕ) : ℤ) ≤ max.toInt

/-- Too large for a duration, and what it becomes is not taken for `max` either. A duration that is
negative is none. -/
def ClampsWrong (n : ℕ) (max : Int64) : Prop :=
  2 ^ 63 ≤ n ∧ if 2 ^ 63 ≤ n % 2 ^ 64 then max.toInt ≠ 0 else ((n % 2 ^ 64 : ℕ) : ℤ) < max.toInt

/-- What passes the check of a range is the remainder. -/
theorem bmod_in_range (n : ℕ) (max : Int64) :
    ¬ ((n : ℤ).bmod (2 ^ 64) < 0 ∨ max.toInt < (n : ℤ).bmod (2 ^ 64)) ↔
      ((n % 2 ^ 64 : ℕ) : ℤ) ≤ max.toInt := by
  have hmax := max.toInt_lt
  simp only [Nat.reducePow]
  have hmod := Int.bmod_def n 18446744073709551616
  split at hmod <;> omega

theorem bmod_eq_mod {n : ℕ} {max : Int64} (h : ((n % 2 ^ 64 : ℕ) : ℤ) ≤ max.toInt) :
    (n : ℤ).bmod (2 ^ 64) = (n % 2 ^ 64 : ℕ) := by
  have hmax := max.toInt_lt
  simp only [Nat.reducePow] at h ⊢
  have hmod := Int.bmod_def n 18446744073709551616
  split at hmod <;> omega

/-- The remainder does not exceed the limit: the number does not, or it wraps. -/
theorem mod_le_iff (n : ℕ) (max : Int64) :
    ((n % 2 ^ 64 : ℕ) : ℤ) ≤ max.toInt ↔ (n : ℤ) ≤ max.toInt ∨ WrapsWithin n max := by
  have hmax := max.toInt_lt
  unfold WrapsWithin
  omega

/-! ### What the numbers ought to mean -/

/-- `RDY` takes the number if it does not exceed `MaxRdyCount`. -/
def RdyExact (opts : Options) (s : String) : Prop :=
  ∀ (cmd : List UInt8) (rest : List (List UInt8)) (c : ClientV2), c.state = .subscribed →
    if (valueOf s : ℤ) ≤ opts.maxRdyCount.toInt then
      ∃ n : Int64, n.toInt = valueOf s ∧
        rdy opts (cmd :: text s :: rest) c = .ok none { c with readyCount := n }
    else ∃ desc, rdy opts (cmd :: text s :: rest) c = .error (invalid desc) c

/-- `DPUB` publishes with the number as the deferral if it does not exceed `MaxReqTimeout`. -/
def DpubExact (opts : Options) (s : String) : Prop :=
  ∀ (libs : Libs) (w : World) (cmd topic : List UInt8) (rest : List (List UInt8)) (c : ClientV2),
    isValidName (topic.map UInt8.toNat) = true →
    if (nanoseconds s : ℤ) ≤ opts.maxReqTimeout.toInt then
      ∃ d : Int64, d.toInt = nanoseconds s ∧ dpub libs opts w (cmd :: topic :: text s :: rest) c =
        putOne libs opts w "DPUB" topic d c
    else ∃ desc, dpub libs opts w (cmd :: topic :: text s :: rest) c = .error (invalid desc) c

/-- So does `/pub` with the parameter `defer`. -/
def DeferExact (opts : Options) (s : String) : Prop :=
  ∀ reqParams : String → Option String, reqParams "defer" = some s →
    if (nanoseconds s : ℤ) ≤ opts.maxReqTimeout.toInt then
      ∃ d : Int64, d.toInt = nanoseconds s ∧ deferParam opts reqParams = .ok d
    else deferParam opts reqParams = httpErr 400 "INVALID_DEFER"

/-- `REQ` requeues with the number, or with `MaxReqTimeout` if that is less. -/
def ReqExact (opts : Options) (s : String) : Prop :=
  ∀ (w : World) (cmd id : List UInt8) (rest : List (List UInt8)) (c : ClientV2)
    (channel : List UInt8 × List UInt8), (c.state = .subscribed ∨ c.state = .closing) →
    id.length = msgIDLength → c.channel = some channel →
    ∃ d : Int64, d.toInt = min (nanoseconds s : ℤ) opts.maxReqTimeout.toInt ∧
      req opts w (cmd :: id :: text s :: rest) c =
        onChannel w "REQ" id (fun _ channel => .requeue channel id d) c

section Commands

variable {opts : Options} {s : String}

/-- The check of a range, on what the number has become. -/
theorem out_of_range_iff (max : Int64) {count : Int64} {n : ℕ}
    (hcount : count.toInt = (n : ℤ).bmod (2 ^ 64)) :
    ¬ (count < 0 ∨ max < count) ↔ ((n % 2 ^ 64 : ℕ) : ℤ) ≤ max.toInt := by
  rw [Int64.lt_iff_toInt_lt, Int64.lt_iff_toInt_lt, hcount]
  exact bmod_in_range n max

variable (opts) in
theorem rdy_spec (h : DigitString s) (cmd : List UInt8) (rest : List (List UInt8)) {c : ClientV2}
    (hc : c.state = .subscribed) :
    Ensures (rdy opts (cmd :: text s :: rest)) c
      (fun r c' => ((valueOf s % 2 ^ 64 : ℕ) : ℤ) ≤ opts.maxRdyCount.toInt ∧ r = none ∧
        c' = { c with readyCount := (UInt64.ofNat (valueOf s)).toInt64 })
      fun e c' => ¬ ((valueOf s % 2 ^ 64 : ℕ) : ℤ) ≤ opts.maxRdyCount.toInt ∧
        (∃ desc, e = invalid desc) ∧ c' = c := by
  have hparam : readyParam (cmd :: text s :: rest) = .ok (UInt64.ofNat (valueOf s)).toInt64 := by
    unfold readyParam
    rw [if_pos (by simp)]
    simp only [List.getD_cons_succ, List.getD_cons_zero, byteToBase10_text h]
  have hrange := out_of_range_iff opts.maxRdyCount (toInt64_toInt (valueOf s))
  unfold rdy
  simp only [ensures_bind, ensures_get, hparam, ensures_ite, ensures_rejectIf, ensures_modify,
    ensures_pure, hc]
  refine ⟨by rintro ⟨⟩, fun _ => ⟨fun h => absurd rfl h, fun _ => ?_⟩⟩
  refine ⟨fun hout => ?_, fun hin => ?_⟩
  · exact ⟨fun hle => hrange.mpr hle hout, ⟨_, rfl⟩, trivial⟩
  · exact ⟨hrange.mp hin, trivial, trivial⟩

/-- What `RDY` does with the count. -/
theorem rdy_eq (h : DigitString s) (cmd : List UInt8) (rest : List (List UInt8)) {c : ClientV2}
    (hc : c.state = .subscribed) :
    (((valueOf s % 2 ^ 64 : ℕ) : ℤ) ≤ opts.maxRdyCount.toInt →
      rdy opts (cmd :: text s :: rest) c =
        .ok none { c with readyCount := (UInt64.ofNat (valueOf s)).toInt64 }) ∧
    (¬ ((valueOf s % 2 ^ 64 : ℕ) : ℤ) ≤ opts.maxRdyCount.toInt →
      ∃ desc, rdy opts (cmd :: text s :: rest) c = .error (invalid desc) c) := by
  have hspec := rdy_spec opts h cmd rest hc
  constructor
  · intro hle
    cases hrdy : rdy opts (cmd :: text s :: rest) c with
    | ok r c' =>
        obtain ⟨-, rfl, rfl⟩ := hspec.ok hrdy
        rfl
    | error e c' => exact absurd hle (hspec.error hrdy).1
  · intro hle
    cases hrdy : rdy opts (cmd :: text s :: rest) c with
    | ok r c' => exact absurd (hspec.ok hrdy).1 hle
    | error e c' =>
        obtain ⟨-, ⟨desc, rfl⟩, rfl⟩ := hspec.error hrdy
        exact ⟨desc, rfl⟩

theorem rejectIf_bind_neg {p : Prop} [Decidable p] {e : Fail} {α : Type} {f : PUnit → Handler α}
    (h : ¬ p) : (rejectIf p e >>= f) = f ⟨⟩ := by
  rw [rejectIf, if_neg h]
  rfl

theorem rejectIf_bind_pos {p : Prop} [Decidable p] {e : Fail} {α : Type} {f : PUnit → Handler α}
    (h : p) (c : ClientV2) : (rejectIf p e >>= f) c = .error e c := by
  rw [rejectIf, if_pos h]
  rfl

/-- What `DPUB` does with the timeout. -/
theorem dpub_eq (h : DigitString s) (libs : Libs) (w : World) (cmd : List UInt8)
    {topic : List UInt8} (htopic : isValidName (topic.map UInt8.toNat) = true)
    (rest : List (List UInt8)) (c : ClientV2) :
    (((nanoseconds s % 2 ^ 64 : ℕ) : ℤ) ≤ opts.maxReqTimeout.toInt →
      dpub libs opts w (cmd :: topic :: text s :: rest) c =
        putOne libs opts w "DPUB" topic (milliseconds (UInt64.ofNat (valueOf s))) c) ∧
    (¬ ((nanoseconds s % 2 ^ 64 : ℕ) : ℤ) ≤ opts.maxReqTimeout.toInt →
      ∃ desc, dpub libs opts w (cmd :: topic :: text s :: rest) c = .error (invalid desc) c) := by
  have hrange := out_of_range_iff opts.maxReqTimeout (milliseconds_toInt (valueOf s))
  have hdpub : dpub libs opts w (cmd :: topic :: text s :: rest) = (do
      rejectIf (milliseconds (UInt64.ofNat (valueOf s)) < 0 ∨
          opts.maxReqTimeout < milliseconds (UInt64.ofNat (valueOf s)))
        (invalid s!"DPUB timeout {UInt64.ofNat (valueOf s)} out of range 0-{
          (opts.maxReqTimeout / 1000000).toInt}")
      putOne libs opts w "DPUB" topic (milliseconds (UInt64.ofNat (valueOf s)))) := by
    unfold dpub rejectName
    rw [rejectIf_bind_neg (by simp)]
    simp only [List.getD_cons_succ, List.getD_cons_zero, byteToBase10_text h]
    rw [rejectIf_bind_neg (by simp [htopic])]
  rw [hdpub]
  constructor
  · intro hle
    rw [rejectIf_bind_neg (hrange.mpr hle)]
  · intro hle
    have hout := of_not_not fun hn => hle (hrange.mp hn)
    exact ⟨_, rejectIf_bind_pos hout c⟩

/-- What the parameter `defer` becomes. From `2 ^ 63` on it is no number. -/
theorem deferParam_eq (h : DigitString s) {reqParams : String → Option String}
    (hdefer : reqParams "defer" = some s) :
    (valueOf s < 2 ^ 63 ∧ ((nanoseconds s % 2 ^ 64 : ℕ) : ℤ) ≤ opts.maxReqTimeout.toInt →
      ∃ d : Int64, d.toInt = (nanoseconds s : ℤ).bmod (2 ^ 64) ∧
        deferParam opts reqParams = .ok d) ∧
    (¬ (valueOf s < 2 ^ 63 ∧ ((nanoseconds s % 2 ^ 64 : ℕ) : ℤ) ≤ opts.maxReqTimeout.toInt) →
      deferParam opts reqParams = httpErr 400 "INVALID_DEFER") := by
  unfold deferParam
  rw [hdefer]
  simp only [parseInt_digits h]
  by_cases hlt : valueOf s < 2 ^ 63
  · have hvalue : (Int64.ofInt (valueOf s)).toInt = valueOf s := by
      rw [Int64.toInt_ofInt]
      refine Int.bmod_eq_of_le ?_ ?_
      · simp only [Int64.size]
        omega
      · simp only [Int64.size]
        omega
    have hmillion : (1000000 : Int64).toInt = 1000000 := by decide
    have hd : (Int64.ofInt (valueOf s) * 1000000).toInt = (nanoseconds s : ℤ).bmod (2 ^ 64) := by
      rw [Int64.toInt_mul, hvalue, hmillion, nanoseconds, Nat.cast_mul]
      rfl
    have hrange := out_of_range_iff opts.maxReqTimeout hd
    rw [if_pos hlt]
    constructor
    · rintro ⟨_, hle⟩
      exact ⟨_, hd, httpReject_eq_ok.mpr ⟨hrange.mpr hle, rfl⟩⟩
    · intro hn
      have hout := of_not_not fun h => hn ⟨hlt, hrange.mp h⟩
      change (httpReject _ 400 "INVALID_DEFER" >>= _) = _
      rw [httpReject, if_pos hout]
      rfl
  · rw [if_neg hlt]
    exact ⟨fun h => absurd h.1 hlt, fun _ => rfl⟩

/-- What `REQ` does with the timeout. -/
theorem req_eq (h : DigitString s) (w : World) (cmd : List UInt8) {id : List UInt8}
    (hid : id.length = msgIDLength) (rest : List (List UInt8)) {c : ClientV2}
    (hc : c.state = .subscribed ∨ c.state = .closing) :
    req opts w (cmd :: id :: text s :: rest) c =
      onChannel w "REQ" id (fun _ channel =>
        .requeue channel id (clampTimeout opts (milliseconds (UInt64.ofNat (valueOf s))))) c := by
  have hstate : rejectState "REQ" 3 (cmd :: id :: text s :: rest) c = .ok ⟨⟩ c := by
    change (rejectIf (c.state ≠ .subscribed ∧ c.state ≠ .closing) _ >>= _) c = _
    rw [rejectIf_bind_neg (by tauto), rejectIf, if_neg (by simp)]
    rfl
  change (rejectState "REQ" 3 (cmd :: id :: text s :: rest) >>= _) c = _
  simp only [bind, EStateM.bind, hstate]
  change (rejectIf (id.length ≠ msgIDLength) _ >>= _) c = _
  rw [rejectIf_bind_neg (not_not.mpr hid)]
  simp only [List.getD_cons_succ, List.getD_cons_zero, byteToBase10_text h]

variable (opts) in
theorem clampTimeout_eq_min {timeout : Int64} {n : ℕ}
    (ht : timeout.toInt = (n : ℤ).bmod (2 ^ 64)) :
    (clampTimeout opts timeout).toInt = min (n : ℤ) opts.maxReqTimeout.toInt ↔
      ¬ ClampsWrong n opts.maxReqTimeout := by
  have hmax := opts.maxReqTimeout.toInt_lt
  have hneg : timeout < 0 ↔ timeout.toInt < 0 := Int64.lt_iff_toInt_lt
  have hbig : opts.maxReqTimeout < timeout ↔ opts.maxReqTimeout.toInt < timeout.toInt :=
    Int64.lt_iff_toInt_lt
  have hclamp : (clampTimeout opts timeout).toInt = if timeout.toInt < 0 then 0
      else if opts.maxReqTimeout.toInt < timeout.toInt then opts.maxReqTimeout.toInt
      else timeout.toInt := by
    unfold clampTimeout
    simp only [hneg, hbig]
    split
    · rfl
    · split <;> rfl
  have hmod := Int.bmod_def n 18446744073709551616
  simp only [Nat.reducePow] at ht
  rw [← ht] at hmod
  rw [hclamp, ClampsWrong]
  by_cases hhalf : 2 ^ 63 ≤ n % 2 ^ 64
  · have htneg : timeout.toInt < 0 := by split at hmod <;> omega
    have hmin : min (n : ℤ) opts.maxReqTimeout.toInt = opts.maxReqTimeout.toInt :=
      min_eq_right (by omega)
    rw [if_pos htneg, if_pos hhalf, hmin]
    omega
  · have htmod : timeout.toInt = (n % 2 ^ 64 : ℕ) := by split at hmod <;> omega
    rw [if_neg (by omega), if_neg hhalf, htmod]
    rcases le_total (n : ℤ) opts.maxReqTimeout.toInt with hle | hle
    · rw [min_eq_left hle, if_neg (by omega)]
      omega
    · rw [min_eq_right hle]
      split <;> omega

/-! ### What they do mean -/

theorem rdyExact_iff (h : DigitString s) :
    RdyExact opts s ↔ ¬ WrapsWithin (valueOf s) opts.maxRdyCount := by
  have hmod := mod_le_iff (valueOf s) opts.maxRdyCount
  have hlt := opts.maxRdyCount.toInt_lt
  constructor
  · intro hexact hwraps
    have hc : { newClientV2 opts [] with state := .subscribed }.state = .subscribed := rfl
    have hbig : ¬ (valueOf s : ℤ) ≤ opts.maxRdyCount.toInt := by
      have := hwraps.1
      omega
    have hrejected := hexact [] [] _ hc
    rw [if_neg hbig, (rdy_eq h [] [] hc).1 (hmod.mpr (.inr hwraps))] at hrejected
    exact nomatch hrejected.choose_spec
  · intro hwraps cmd rest c hc
    by_cases hle : (valueOf s : ℤ) ≤ opts.maxRdyCount.toInt
    · rw [if_pos hle]
      have hmodle := hmod.mpr (.inl hle)
      refine ⟨_, ?_, (rdy_eq h cmd rest hc).1 hmodle⟩
      rw [toInt64_toInt, bmod_eq_mod hmodle]
      omega
    · rw [if_neg hle]
      exact (rdy_eq h cmd rest hc).2 fun hm => (hmod.mp hm).elim hle hwraps

theorem dpubExact_iff (h : DigitString s) :
    DpubExact opts s ↔ ¬ WrapsWithin (nanoseconds s) opts.maxReqTimeout := by
  have hmod := mod_le_iff (nanoseconds s) opts.maxReqTimeout
  have hlt := opts.maxReqTimeout.toInt_lt
  have hname : isValidName ((text "t").map UInt8.toNat) = true := by decide
  constructor
  · intro hexact hwraps
    have hbig : ¬ (nanoseconds s : ℤ) ≤ opts.maxReqTimeout.toInt := by
      have := hwraps.1
      omega
    have hrejected := hexact Libs.plain World.calm [] (text "t") [] (newClientV2 opts []) hname
    rw [if_neg hbig, (dpub_eq h Libs.plain World.calm [] hname [] _).1 (hmod.mpr (.inr hwraps))]
      at hrejected
    -- without a body the command fails later, and otherwise
    obtain ⟨desc, hdesc⟩ := hrejected
    have hbody : putOne Libs.plain opts World.calm "DPUB" (text "t")
        (milliseconds (UInt64.ofNat (valueOf s))) (newClientV2 opts []) =
      .error (badMessage "DPUB failed to read message body size") (newClientV2 opts []) := rfl
    rw [hbody] at hdesc
    simp [badMessage, invalid, fatal, newFatalClientErr] at hdesc
  · intro hwraps libs w cmd topic rest c htopic
    by_cases hle : (nanoseconds s : ℤ) ≤ opts.maxReqTimeout.toInt
    · rw [if_pos hle]
      have hmodle := hmod.mpr (.inl hle)
      refine ⟨_, ?_, (dpub_eq h libs w cmd htopic rest c).1 hmodle⟩
      rw [milliseconds_toInt, ← nanoseconds, bmod_eq_mod hmodle]
      omega
    · rw [if_neg hle]
      exact (dpub_eq h libs w cmd htopic rest c).2 fun hm => (hmod.mp hm).elim hle hwraps

theorem deferExact_iff (h : DigitString s) :
    DeferExact opts s ↔
      ¬ (valueOf s < 2 ^ 63 ∧ WrapsWithin (nanoseconds s) opts.maxReqTimeout) := by
  have hmod := mod_le_iff (nanoseconds s) opts.maxReqTimeout
  have hlt := opts.maxReqTimeout.toInt_lt
  constructor
  · intro hexact ⟨hvalue, hwraps⟩
    have hbig : ¬ (nanoseconds s : ℤ) ≤ opts.maxReqTimeout.toInt := by
      have := hwraps.1
      omega
    obtain ⟨reqParams, hdefer⟩ : ∃ reqParams : String → Option String, reqParams "defer" = some s :=
      ⟨fun _ => some s, rfl⟩
    have hrejected := hexact reqParams hdefer
    obtain ⟨d, -, hd⟩ := (deferParam_eq h hdefer).1 ⟨hvalue, hmod.mpr (.inr hwraps)⟩
    rw [if_neg hbig, hd] at hrejected
    exact nomatch hrejected
  · intro hwraps reqParams hdefer
    by_cases hle : (nanoseconds s : ℤ) ≤ opts.maxReqTimeout.toInt
    · rw [if_pos hle]
      have hmodle := hmod.mpr (.inl hle)
      have hvalue : valueOf s < 2 ^ 63 := by
        unfold nanoseconds at hle
        omega
      obtain ⟨d, hd, hok⟩ := (deferParam_eq h hdefer).1 ⟨hvalue, hmodle⟩
      refine ⟨d, ?_, hok⟩
      rw [hd, bmod_eq_mod hmodle]
      omega
    · rw [if_neg hle]
      refine (deferParam_eq h hdefer).2 fun ⟨hvalue, hm⟩ => ?_
      exact (hmod.mp hm).elim hle fun hn => hwraps ⟨hvalue, hn⟩

/-- What was done, whether the command failed or not. -/
def stateEffects : EStateM.Result Fail ClientV2 Response → List Effect
  | .ok _ c => c.effects
  | .error _ c => c.effects

theorem reqExact_iff (h : DigitString s) :
    ReqExact opts s ↔ ¬ ClampsWrong (nanoseconds s) opts.maxReqTimeout := by
  have hclamp := clampTimeout_eq_min opts (milliseconds_toInt (valueOf s))
  constructor
  · intro hexact
    have hid : (List.replicate 16 (0 : UInt8)).length = msgIDLength := rfl
    obtain ⟨d, hd, hreq⟩ := hexact World.calm [] (List.replicate 16 0) []
      { newClientV2 opts [] with state := .subscribed, channel := some ([], []) } ([], [])
      (.inl rfl) hid rfl
    rw [req_eq h World.calm [] hid [] (.inl rfl)] at hreq
    have hlast : [Effect.requeue ([], []) (List.replicate 16 0)
        (clampTimeout opts (milliseconds (UInt64.ofNat (valueOf s))))] =
        [.requeue ([], []) (List.replicate 16 0) d] := congrArg stateEffects hreq
    have hsame := (Effect.requeue.inj (List.cons.inj hlast).1).2.2
    rw [nanoseconds, ← hclamp, hsame]
    exact hd
  · intro hok w cmd id rest c channel hc hid _
    exact ⟨_, hclamp.mpr hok, req_eq h w cmd hid rest hc⟩

end Commands

/-- **The numbers of clients.** They mean what they say if and only if they do not wrap round to
something that the limit allows, and, for `REQ`, to something that is less than the limit. -/
theorem clientNumbers_iff (opts : Options) {s : String} (h : DigitString s) :
    (RdyExact opts s ↔ ¬ WrapsWithin (valueOf s) opts.maxRdyCount) ∧
    (DpubExact opts s ↔ ¬ WrapsWithin (nanoseconds s) opts.maxReqTimeout) ∧
    (DeferExact opts s ↔
      ¬ (valueOf s < 2 ^ 63 ∧ WrapsWithin (nanoseconds s) opts.maxReqTimeout)) ∧
    (ReqExact opts s ↔ ¬ ClampsWrong (nanoseconds s) opts.maxReqTimeout) :=
  ⟨rdyExact_iff h, dpubExact_iff h, deferExact_iff h, reqExact_iff h⟩

theorem digitString_of_all {s : String} (hne : s.toList ≠ [])
    (hall : s.toList.all Char.isDigit = true) : DigitString s :=
  ⟨hne, List.all_eq_true.mp hall⟩

theorem clientNumbers_five :
    RdyExact newOptions "5" ∧ DpubExact newOptions "5" ∧ DeferExact newOptions "5" ∧
      ReqExact newOptions "5" := by
  have hdigits : DigitString "5" := digitString_of_all (by decide) (by decide)
  obtain ⟨hrdy, hdpub, hdefer, hreq⟩ := clientNumbers_iff newOptions hdigits
  have hvalue : valueOf "5" = 5 := by decide
  have hnano : nanoseconds "5" = 5000000 := by decide
  refine ⟨hrdy.mpr ?_, hdpub.mpr ?_, hdefer.mpr ?_, hreq.mpr ?_⟩
  · rw [hvalue, WrapsWithin]
    omega
  · rw [hnano, WrapsWithin]
    omega
  · rw [hnano, WrapsWithin]
    omega
  · rw [hnano, ClampsWrong]
    omega

/-- `2 ^ 64 + 1` is one, and that many milliseconds are one millisecond: `RDY`, `DPUB` and `REQ`
take it for that. For `/pub` `2 ^ 58` milliseconds are none at all. -/
theorem not_clientNumbers :
    ¬ RdyExact newOptions "18446744073709551617" ∧ ¬ DpubExact newOptions "18446744073709551617" ∧
      ¬ DeferExact newOptions "288230376151711744" ∧
      ¬ ReqExact newOptions "18446744073709551617" := by
  have hdigits : DigitString "18446744073709551617" :=
    digitString_of_all (by decide) (by decide)
  have hdigits' : DigitString "288230376151711744" :=
    digitString_of_all (by decide) (by decide)
  have hvalue : valueOf "18446744073709551617" = 18446744073709551617 := by decide
  have hvalue' : valueOf "288230376151711744" = 288230376151711744 := by decide
  have hrdy : newOptions.maxRdyCount.toInt = 2500 := rfl
  have hreq : newOptions.maxReqTimeout.toInt = 3600000000000 := rfl
  rw [rdyExact_iff hdigits, dpubExact_iff hdigits, deferExact_iff hdigits', reqExact_iff hdigits]
  simp only [not_not, nanoseconds, WrapsWithin, ClampsWrong, hvalue, hvalue', hrdy, hreq]
  decide

end Xmq.V2
