import Mathlib.Algebra.Order.BigOperators.Group.List
import Mathlib.Algebra.Ring.Nat

/-!
# Packing items in order

Items with a weight are put into packets in the order in which they come: into the current packet as
long as it stays within the size, else into a new one. An item that is over the size has a packet of
its own. Nothing is lost or moved (`pack_flatten`), and only a single item makes a packet too heavy.
-/

namespace Xmq.Packing

variable {α : Type*} {size : ℕ} {weight : α → ℕ}

def load (weight : α → ℕ) (packet : List α) : ℕ := (packet.map weight).sum

/-- A packet has something in it, and is too heavy only with a single item. -/
def IsPacket (size : ℕ) (weight : α → ℕ) (packet : List α) : Prop :=
  packet ≠ [] ∧ (size < load weight packet → ∃ x, packet = [x])

/-- The packets that are full, and the current one, which may be empty. -/
structure Packer (size : ℕ) (weight : α → ℕ) where
  full : List (List α)
  current : List α
  isPacket : ∀ packet ∈ full, IsPacket size weight packet
  fits : load weight current ≤ size

@[simp] theorem load_singleton (x : α) : load weight [x] = weight x := List.sum_singleton

theorem load_concat (packet : List α) (x : α) :
    load weight (packet ++ [x]) = load weight packet + weight x := by
  simp [load]

theorem isPacket_singleton (x : α) : IsPacket size weight [x] :=
  ⟨List.cons_ne_nil x [], fun _ => ⟨x, rfl⟩⟩

namespace Packer

def empty : Packer size weight where
  full := []
  current := []
  isPacket := nofun
  fits := Nat.zero_le size

/-- All packets, once nothing more comes. -/
def close (s : Packer size weight) : List (List α) :=
  if s.current = [] then s.full else s.full ++ [s.current]

theorem close_isPacket (s : Packer size weight) :
    ∀ packet ∈ s.close, IsPacket size weight packet := by
  intro packet hmem
  rw [close] at hmem
  split at hmem
  case isTrue => exact s.isPacket packet hmem
  case isFalse hne =>
    rcases List.mem_append.mp hmem with hfull | hcurrent
    · exact s.isPacket packet hfull
    · rw [List.mem_singleton.mp hcurrent]
      exact ⟨hne, fun hheavy => absurd s.fits (Nat.not_le.mpr hheavy)⟩

theorem close_flatten (s : Packer size weight) : s.close.flatten = s.full.flatten ++ s.current := by
  rw [close]
  split
  case isTrue hnil => rw [hnil, List.append_nil]
  case isFalse => rw [List.flatten_append, List.flatten_singleton]

/-- One more item. -/
def add (s : Packer size weight) (x : α) : Packer size weight :=
  if hfits : load weight s.current + weight x ≤ size then
    { full := s.full
      current := s.current ++ [x]
      isPacket := s.isPacket
      fits := (load_concat s.current x).trans_le hfits }
  else if hx : weight x ≤ size then
    { full := s.close
      current := [x]
      isPacket := s.close_isPacket
      fits := (load_singleton x).trans_le hx }
  else
    { full := s.close ++ [[x]]
      current := []
      isPacket := fun packet hmem => by
        rcases List.mem_append.mp hmem with hclose | hlast
        · exact s.close_isPacket packet hclose
        · exact List.mem_singleton.mp hlast ▸ isPacket_singleton x
      fits := Nat.zero_le size }

theorem add_fits {s : Packer size weight} {x : α} (h : load weight s.current + weight x ≤ size) :
    (s.add x).full = s.full ∧ (s.add x).current = s.current ++ [x] := by
  rw [add, dif_pos h]
  exact ⟨rfl, rfl⟩

theorem add_next {s : Packer size weight} {x : α} (h : size < load weight s.current + weight x)
    (hx : weight x ≤ size) : (s.add x).full = s.close ∧ (s.add x).current = [x] := by
  rw [add, dif_neg (Nat.not_le.mpr h), dif_pos hx]
  exact ⟨rfl, rfl⟩

theorem add_heavy {s : Packer size weight} {x : α} (h : size < load weight s.current + weight x)
    (hx : size < weight x) : (s.add x).full = s.close ++ [[x]] ∧ (s.add x).current = [] := by
  rw [add, dif_neg (Nat.not_le.mpr h), dif_neg (Nat.not_le.mpr hx)]
  exact ⟨rfl, rfl⟩

theorem add_flatten (s : Packer size weight) (x : α) :
    (s.add x).close.flatten = s.close.flatten ++ [x] := by
  rw [close_flatten]
  by_cases hfits : load weight s.current + weight x ≤ size
  · obtain ⟨hfull, hcurrent⟩ := add_fits hfits
    rw [hfull, hcurrent, close_flatten, List.append_assoc]
  · have hover := Nat.not_le.mp hfits
    by_cases hx : weight x ≤ size
    · obtain ⟨hfull, hcurrent⟩ := add_next hover hx
      rw [hfull, hcurrent]
    · obtain ⟨hfull, hcurrent⟩ := add_heavy hover (Nat.not_le.mp hx)
      rw [hfull, hcurrent, List.flatten_append, List.flatten_singleton, List.append_nil]

theorem foldl_add_flatten (items : List α) (s : Packer size weight) :
    (items.foldl add s).close.flatten = s.close.flatten ++ items := by
  induction items generalizing s with
  | nil => exact (List.append_nil _).symm
  | cons x items ih => rw [List.foldl_cons, ih, add_flatten, List.append_assoc,
    List.singleton_append]

end Packer

/-- The packets of the items. -/
def pack (size : ℕ) (weight : α → ℕ) (items : List α) : List (List α) :=
  (items.foldl Packer.add (Packer.empty : Packer size weight)).close

theorem pack_flatten (items : List α) : (pack size weight items).flatten = items :=
  Packer.foldl_add_flatten items Packer.empty

theorem pack_isPacket (items : List α) :
    ∀ packet ∈ pack size weight items, IsPacket size weight packet :=
  Packer.close_isPacket _

theorem pack_eq_nil_iff {items : List α} : pack size weight items = [] ↔ items = [] := by
  constructor
  · intro hnil
    rw [← @pack_flatten _ size weight items, hnil, List.flatten_nil]
  · rintro rfl
    rfl

end Xmq.Packing
