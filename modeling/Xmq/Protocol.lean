import Mathlib.Data.List.Basic

/-!
# Names and numbers of the protocol

What `internal/protocol` says of the texts that clients send: which names are valid, and which number a
parameter is. A text is given by the codes of its characters or bytes.
-/

namespace Xmq

/-- `[.a-zA-Z0-9_-]`. -/
def isNameChar (c : ℕ) : Bool :=
  c == 46 || (97 ≤ c && c ≤ 122) || (65 ≤ c && c ≤ 90) || (48 ≤ c && c ≤ 57) || c == 95 || c == 45

/-- The codes of `#ephemeral`. -/
def ephemeralSuffix : List ℕ := [35, 101, 112, 104, 101, 109, 101, 114, 97, 108]

/-- The name without `#ephemeral` at its end. -/
def baseName (name : List ℕ) : List ℕ :=
  if ephemeralSuffix.isSuffixOf name then name.take (name.length - ephemeralSuffix.length) else name

/-- `validTopicChannelNameRegex.MatchString`. -/
def matchesName (name : List ℕ) : Bool :=
  !(baseName name).isEmpty && (baseName name).all isNameChar

/-- `isValidName`. A name with a character that is longer than a byte does not match. -/
def isValidName (name : List ℕ) : Bool :=
  if name.length > 64 || name.length < 1 then false else matchesName name

def isValidTopicName (name : String) : Bool := isValidName (name.toList.map Char.toNat)

def isValidChannelName (name : String) : Bool := isValidName (name.toList.map Char.toNat)

/-- What is neither a character of names nor in the suffix is in no valid name. -/
theorem not_mem_of_isValidName {name : List ℕ} {c : ℕ} (hc : isNameChar c = false)
    (hsuffix : c ∉ ephemeralSuffix) (h : isValidName name = true) : c ∉ name := by
  have hmatch : matchesName name = true := by
    unfold isValidName at h
    split at h
    · cases h
    · exact h
  have hbase : c ∉ baseName name := by
    intro hmem
    rw [matchesName, Bool.and_eq_true, List.all_eq_true] at hmatch
    exact absurd (hmatch.2 c hmem) (by simp [hc])
  unfold baseName at hbase
  split at hbase
  · rename_i hend
    obtain ⟨base, rfl⟩ := List.isSuffixOf_iff_suffix.mp hend
    rw [List.length_append, Nat.add_sub_cancel, List.take_left] at hbase
    rw [List.mem_append]
    exact not_or.mpr ⟨hbase, hsuffix⟩
  · exact hbase

theorem not_mem_toList_of_isValidName {name : String} {c : Char} (hc : isNameChar c.toNat = false)
    (hsuffix : c.toNat ∉ ephemeralSuffix) (h : isValidName (name.toList.map Char.toNat) = true) :
    c ∉ name.toList :=
  fun hmem => not_mem_of_isValidName hc hsuffix h (List.mem_map_of_mem hmem)

/-- `ByteToBase10`; the number wraps as `uint64` does. -/
def byteToBase10 (b : List UInt8) : Except String UInt64 :=
  b.foldlM (fun n d =>
    if 48 ≤ d ∧ d ≤ 57 then .ok (n * 10 + (d - 48).toUInt64)
    else .error "failed to convert to Base10") 0

end Xmq
